import Retrieval.Proofs.Json.RoundTrip
import Retrieval.Proofs.Steps

/-!
# Keys in values that are read

A key that comes again in an object takes the place of the first, so no object that is read has a key twice
(`distinct_of_read`): each token keeps it so, in what is still open and in the value of the text (`State.Distinct`).
-/

set_option autoImplicit false

namespace Retrieval.Json

open Value

/-- Whether the open list or object holds no key twice. -/
def Frame.Distinct : Frame → Prop
  | .list items => ∀ v ∈ items, v.Distinct
  | .object members _ => (members.map Prod.fst).Nodup ∧ ∀ p ∈ members, p.2.Distinct

/-- Whether all that has been read holds no key twice. -/
structure State.Distinct (s : State) : Prop where
  frames : ∀ f ∈ s.frames, f.Distinct
  complete : ∀ v, s.stage = .complete v → v.Distinct

theorem Frame.Distinct.insertMember {members : List (String × Value)} {last key : String} {v : Value}
    (h : (Frame.object members last).Distinct) (value : v.Distinct) :
    (Frame.object (insertMember key v members) key).Distinct := by
  obtain ⟨distinct, values⟩ := h
  rw [insertMember_eq]
  constructor
  · exact Table.nodup_alterList key _ distinct
  · intro p mem
    rcases Table.mem_of_mem_alterList mem with rfl | mem
    · exact value
    · exact values p mem

theorem State.distinct_close {v : Value} {frames : List Frame} (value : v.Distinct) (h : ∀ f ∈ frames, f.Distinct) :
    (State.close v frames).Distinct := by
  cases frames with
  | nil =>
    refine ⟨h, fun w e => ?_⟩
    cases e
    exact value
  | cons frame rest =>
    obtain ⟨first, others⟩ := List.forall_mem_cons.1 h
    cases frame with
    | list items =>
      refine ⟨List.forall_mem_cons.2 ⟨?_, others⟩, fun w e => by cases e⟩
      exact List.forall_mem_cons.2 ⟨value, first⟩
    | object members key =>
      exact ⟨List.forall_mem_cons.2 ⟨first.insertMember value, others⟩, fun w e => by cases e⟩

theorem State.distinct_readValue {frames : List Frame} {token : Token} {s : State} (h : ∀ f ∈ frames, f.Distinct)
    (read : State.readValue frames token = .ok s) : s.Distinct := by
  unfold State.readValue at read
  split at read
  case h_3 =>
    split at read
    · cases read
      exact State.distinct_close (distinct_atom rfl) h
    · cases read
  case h_6 =>
    cases read
    exact ⟨List.forall_mem_cons.2 ⟨fun v mem => absurd mem List.not_mem_nil, h⟩, fun v e => by cases e⟩
  case h_7 =>
    cases read
    refine ⟨List.forall_mem_cons.2 ⟨⟨List.nodup_nil, fun v mem => ?_⟩, h⟩, fun v e => by cases e⟩
    exact absurd mem List.not_mem_nil
  case h_8 => cases read
  all_goals
    cases read
    exact State.distinct_close (distinct_atom rfl) h

theorem State.Distinct.innermost {s : State} {frame : Frame} {rest : List Frame} (h : s.Distinct)
    (frames : s.frames = frame :: rest) : frame.Distinct ∧ ∀ f ∈ rest, f.Distinct := by
  have all := h.frames
  rw [frames] at all
  exact List.forall_mem_cons.1 all

theorem State.Distinct.endList {s : State} {items : List Value} {rest : List Frame} (h : s.Distinct)
    (frames : s.frames = .list items :: rest) : (State.close (.list items.reverse) rest).Distinct := by
  obtain ⟨values, others⟩ := h.innermost frames
  apply State.distinct_close _ others
  exact distinct_list_iff.2 fun v mem => values v (List.mem_reverse.1 mem)

theorem State.Distinct.endObject {s : State} {members : List (String × Value)} {key : String} {rest : List Frame}
    (h : s.Distinct) (frames : s.frames = .object members key :: rest) :
    (State.close (.object members) rest).Distinct := by
  obtain ⟨⟨distinct, values⟩, others⟩ := h.innermost frames
  exact State.distinct_close (distinct_object_iff.2 ⟨distinct, values⟩) others

/-- A new key in the innermost object waits for its value. -/
theorem State.Distinct.startMember {s : State} {members : List (String × Value)} {last : String} {rest : List Frame}
    (h : s.Distinct) (frames : s.frames = .object members last :: rest) (key : String) :
    (⟨.object members key :: rest, .colon⟩ : State).Distinct := by
  obtain ⟨object, others⟩ := h.innermost frames
  exact ⟨List.forall_mem_cons.2 ⟨object, others⟩, fun v e => by cases e⟩

theorem State.Distinct.advance {s : State} (h : s.Distinct) {stage : Stage} (going : ∀ v, stage ≠ .complete v) :
    (⟨s.frames, stage⟩ : State).Distinct := ⟨h.frames, fun v e => absurd e (going v)⟩

/-- The step: a token keeps the keys distinct. -/
theorem State.Distinct.step {s s' : State} {token : Token} (h : s.Distinct) (step : s.step token = .ok s') :
    s'.Distinct := by
  unfold State.step at step
  split at step
  case h_2 => exact State.distinct_readValue h.frames step
  case h_3 => exact State.distinct_readValue h.frames step
  all_goals cases step
  case h_1 _ frames => exact h.endList frames
  case h_4 _ frames =>
    rw [← frames]
    exact h.advance fun v => by simp
  case h_5 _ frames => exact h.endList frames
  case h_6 _ frames =>
    rw [← frames]
    exact h.advance fun v => by simp
  case h_7 _ frames => exact h.endObject frames
  case h_8 _ frames => exact h.endObject frames
  case h_9 _ frames => exact h.startMember frames _
  case h_10 _ frames => exact h.startMember frames _
  case h_11 => exact h.advance fun v => by simp

theorem State.Distinct.run {ts : List Token} {s s' : State} (h : s.Distinct) (run : ts.foldlM State.step s = .ok s') :
    s'.Distinct := by
  induction ts generalizing s with
  | nil =>
    cases run
    exact h
  | cons token ts ih =>
    rw [List.foldlM_cons] at run
    obtain ⟨next, step, run⟩ := exists_of_bind run
    exact ih (h.step step) run

/-- No object in a value that is read has a key twice. -/
theorem distinct_of_read {text : String} {v : Value} (h : read text = .ok v) : v.Distinct := by
  obtain ⟨final, run, h⟩ := exists_of_bind h
  have start : (⟨[], .value⟩ : State).Distinct :=
    ⟨fun f mem => absurd mem List.not_mem_nil, fun v e => by cases e⟩
  have distinct := start.run run
  split at h
  · cases h
    exact distinct.complete _ ‹_›
  · cases h

end Retrieval.Json
