import Retrieval.Proofs.Text.Runs

/-!
# Maximal runs by their places

The runs of a text are found in one pass. Here they are told by their places: a part of the text is a maximal run if
its characters are of one class and it cannot be made longer at either end (`MaximalRun`). The runs of a text are
exactly these parts, from left to right (`exists_spans`). They are also what is left when a text is cut at its
separators and the empty pieces are dropped (`runs_eq_filter_pieces`).
-/

set_option autoImplicit false

namespace Retrieval.Text

variable {p : Char → Bool}

/-- The characters from one place up to another are of one class, and those next to them are not. -/
structure MaximalRun (p : Char → Bool) (cs : List Char) (start stop : Nat) : Prop where
  nonempty : start < stop
  fits : stop ≤ cs.length
  inside : ∀ i c, start ≤ i → i < stop → cs[i]? = some c → p c = true
  before : ∀ i c, i + 1 = start → cs[i]? = some c → p c = false
  after : ∀ c, cs[stop]? = some c → p c = false

/-- A place of a run, as seen from further to the left. -/
def shift (k : Nat) (span : Nat × Nat) : Nat × Nat := (k + span.1, k + span.2)

/-! ### Places of runs -/

theorem getElem?_append_add {α : Type} (first rest : List α) (i : Nat) :
    (first ++ rest)[first.length + i]? = rest[i]? := by
  rw [List.getElem?_append_right (Nat.le_add_right ..), Nat.add_sub_cancel_left]

namespace MaximalRun

variable {cs : List Char} {start stop i j : Nat}

/-- No separator is in a run. -/
theorem lt_of_neg (h : MaximalRun p cs start stop) {c : Char} (here : cs[i]? = some c) (separates : p c = false) :
    i < start ∨ stop ≤ i := by
  refine Decidable.or_iff_not_imp_left.2 fun from_start => Nat.le_of_not_lt fun to_stop => ?_
  have member := h.inside i c (Nat.le_of_not_lt from_start) to_stop here
  rw [separates] at member
  cases member

/-- A run that begins at a separator or later begins later. -/
theorem lt_start (h : MaximalRun p cs start stop) (le : i ≤ start) (separates : ∀ c, cs[i]? = some c → p c = false) :
    i < start := by
  have := h.nonempty
  have := h.fits
  have here := List.getElem?_eq_getElem (show i < cs.length by omega)
  have := h.lt_of_neg here (separates _ here)
  omega

theorem start_le (h : MaximalRun p cs start stop) (other : MaximalRun p cs i j) (first : start < j) : start ≤ i := by
  refine Nat.le_of_not_lt fun later => ?_
  have := h.nonempty
  have := h.fits
  have here := List.getElem?_eq_getElem (show start - 1 < cs.length by omega)
  have := other.lt_of_neg here (h.before _ _ (by omega) here)
  omega

theorem stop_le (h : MaximalRun p cs start stop) (other : MaximalRun p cs i j) (second : i < stop) : j ≤ stop := by
  refine Nat.le_of_not_lt fun shorter => ?_
  have := other.fits
  have here := List.getElem?_eq_getElem (show stop < cs.length by omega)
  have := other.lt_of_neg here (h.after _ here)
  omega

/-- Runs that overlap are the same. -/
theorem eq_of_overlap (h : MaximalRun p cs start stop) (other : MaximalRun p cs i j) (first : start < j)
    (second : i < stop) : (start, stop) = (i, j) := by
  rw [Nat.le_antisymm (h.start_le other first) (other.start_le h second),
    Nat.le_antisymm (other.stop_le h first) (h.stop_le other second)]

/-- Classes that part the characters of a text alike have the same runs there. -/
theorem congr {q : Char → Bool} (h : MaximalRun p cs start stop) (same : ∀ c ∈ cs, p c = q c) :
    MaximalRun q cs start stop where
  nonempty := h.nonempty
  fits := h.fits
  inside i c ge lt here := (same c (List.mem_of_getElem? here)).symm.trans (h.inside i c ge lt here)
  before i c next here := (same c (List.mem_of_getElem? here)).symm.trans (h.before i c next here)
  after c here := (same c (List.mem_of_getElem? here)).symm.trans (h.after c here)

end MaximalRun

/-- The runs that begin behind a first part are those of the rest, unless the first part ends within a run. -/
theorem maximalRun_append_iff {first rest : List Char} {i j : Nat} (far : i = 0 → ∀ c ∈ first.getLast?, p c = false) :
    MaximalRun p (first ++ rest) (first.length + i) (first.length + j) ↔ MaximalRun p rest i j := by
  have place := getElem?_append_add first rest
  constructor
  · intro h
    constructor
    case nonempty => exact Nat.lt_of_add_lt_add_left h.nonempty
    case fits => simpa using h.fits
    case inside =>
      intro k c ge lt here
      exact h.inside (first.length + k) c (by omega) (by omega) ((place k).trans here)
    case before =>
      intro k c next here
      exact h.before (first.length + k) c (by omega) ((place k).trans here)
    case after => exact fun c here => h.after c ((place j).trans here)
  · intro h
    constructor
    case nonempty => exact Nat.add_lt_add_left h.nonempty _
    case fits => simpa using h.fits
    case inside =>
      intro k c ge lt here
      obtain ⟨k, rfl⟩ := Nat.exists_eq_add_of_le (show first.length ≤ k by omega)
      exact h.inside k c (by omega) (by omega) ((place k).symm.trans here)
    case before =>
      intro k c next here
      by_cases start : i = 0
      · have last : first.getLast? = some c := by
          rw [List.getLast?_eq_getElem?, ← here, List.getElem?_append_left (by omega)]
          congr 1
          omega
        exact far start c last
      · obtain ⟨k, rfl⟩ := Nat.exists_eq_add_of_le (show first.length ≤ k by omega)
        exact h.before k c (by omega) ((place k).symm.trans here)
    case after => exact fun c here => h.after c ((place j).symm.trans here)

/-- No run begins with a separator. -/
theorem maximalRun_cons_iff {c : Char} (separates : p c = false) {cs : List Char} {start stop : Nat} :
    MaximalRun p (c :: cs) start stop ↔ ∃ i j, MaximalRun p cs i j ∧ (start, stop) = shift 1 (i, j) := by
  have behind {i j : Nat} : MaximalRun p ([c] ++ cs) ([c].length + i) ([c].length + j) ↔ MaximalRun p cs i j :=
    maximalRun_append_iff fun _ => by simpa using separates
  constructor
  · intro h
    have := h.nonempty
    have := h.lt_start (Nat.zero_le _) (by simpa using separates)
    obtain ⟨i, rfl⟩ := Nat.exists_eq_add_of_le (show 1 ≤ start by omega)
    obtain ⟨j, rfl⟩ := Nat.exists_eq_add_of_le (show 1 ≤ stop by omega)
    exact ⟨i, j, behind.1 h, rfl⟩
  · rintro ⟨i, j, h, same⟩
    cases same
    exact behind.2 h

/-- A run in front of a separator, or of nothing, is one. -/
theorem maximalRun_front {run rest : List Char} (some : run ≠ []) (all : ∀ c ∈ run, p c = true)
    (stop : ∀ c cs, rest = c :: cs → p c = false) : MaximalRun p (run ++ rest) 0 run.length where
  nonempty := List.length_pos_iff.2 some
  fits := by simp
  inside i c _ lt here := by
    rw [List.getElem?_append_left lt] at here
    exact all c (List.mem_of_getElem? here)
  before i c next := by cases next
  after c here := by
    rw [List.getElem?_append_right (Nat.le_refl _), Nat.sub_self] at here
    cases rest with
    | nil => cases here
    | cons d cs =>
      cases here
      exact stop c cs rfl

/-- The other runs begin behind it. -/
theorem maximalRun_run_append_iff {run rest : List Char} (some : run ≠ []) (all : ∀ c ∈ run, p c = true)
    (stop : ∀ c cs, rest = c :: cs → p c = false) {i j : Nat} :
    MaximalRun p (run ++ rest) i j ↔
      (i, j) = (0, run.length) ∨ ∃ k l, MaximalRun p rest k l ∧ (i, j) = shift run.length (k, l) := by
  have front := maximalRun_front some all stop
  constructor
  · intro h
    by_cases overlap : i < run.length
    · have := h.nonempty
      exact .inl (h.eq_of_overlap front overlap (by omega))
    · have := h.nonempty
      have later := h.lt_start (Nat.le_of_not_lt overlap) front.after
      obtain ⟨k, rfl⟩ := Nat.exists_eq_add_of_le (Nat.le_of_not_lt overlap)
      obtain ⟨l, rfl⟩ := Nat.exists_eq_add_of_le (show run.length ≤ j by omega)
      exact .inr ⟨k, l, (maximalRun_append_iff fun zero => by omega).1 h, rfl⟩
  · rintro (same | ⟨k, l, h, same⟩) <;> cases same
    · exact front
    · have parted : ∀ c, rest[0]? = Option.some c → p c = false := fun c here =>
        front.after c ((getElem?_append_add run rest 0).trans here)
      have later := h.lt_start (Nat.zero_le _) parted
      exact (maximalRun_append_iff fun zero => by omega).2 h

theorem mem_map_shift {k start stop : Nat} {spans : List (Nat × Nat)} :
    (start, stop) ∈ spans.map (shift k) ↔ ∃ i j, (i, j) ∈ spans ∧ (start, stop) = shift k (i, j) := by
  simp [List.mem_map, Prod.exists, eq_comm]

theorem pairwise_map_shift {k : Nat} {spans : List (Nat × Nat)} (h : spans.Pairwise fun s t => s.2 < t.1) :
    (spans.map (shift k)).Pairwise fun s t => s.2 < t.1 :=
  List.pairwise_map.2 (h.imp fun lt => Nat.add_lt_add_left lt k)

theorem map_extract_shift (first rest : List Char) (spans : List (Nat × Nat)) :
    (spans.map (shift first.length)).map (fun s => (first ++ rest).extract s.1 s.2) =
      spans.map fun s => rest.extract s.1 s.2 := by
  rw [List.map_map]
  refine List.map_congr_left fun s _ => ?_
  have behind : (first ++ rest).drop (first.length + s.1) = rest.drop s.1 := List.drop_length_add_append ..
  simp only [Function.comp_apply, shift, List.extract_eq_take_drop, Nat.add_sub_add_left, behind]

/-- A text that begins with a character of the class begins with a run. -/
theorem exists_run {c : Char} (first : p c = true) (cs : List Char) :
    ∃ run rest, c :: cs = run ++ rest ∧ run ≠ [] ∧ (∀ d ∈ run, p d = true) ∧
      (∀ d ds, rest = d :: ds → p d = false) ∧ rest.length ≤ cs.length := by
  refine ⟨c :: cs.takeWhile p, cs.dropWhile p, ?_, List.cons_ne_nil _ _, ?_, ?_, (cs.dropWhile_sublist p).length_le⟩
  · rw [List.cons_append, List.takeWhile_append_dropWhile]
  · exact List.forall_mem_cons.2 ⟨first, List.all_eq_true.1 List.all_takeWhile⟩
  · intro d ds rest
    have stop := List.head?_dropWhile_not p cs
    rwa [rest] at stop

/-- **Runs by their places.** The places of the maximal runs of a text, from left to right, are those of its runs. -/
theorem exists_spans (p : Char → Bool) (cs : List Char) :
    ∃ spans : List (Nat × Nat), (∀ start stop, (start, stop) ∈ spans ↔ MaximalRun p cs start stop) ∧
      spans.Pairwise (fun s t => s.2 < t.1) ∧ runs p cs = spans.map fun s => cs.extract s.1 s.2 := by
  induction size : cs.length using Nat.strongRecOn generalizing cs with
  | ind n ih =>
    cases cs with
    | nil =>
      have none (start stop : Nat) : ¬ MaximalRun p [] start stop := fun h =>
        absurd (Nat.lt_of_lt_of_le h.nonempty h.fits) (Nat.not_lt_zero _)
      exact ⟨[], fun start stop => by simp [none], .nil, by rw [runs, List.map_nil]⟩
    | cons c cs =>
      rw [List.length_cons] at size
      cases first : p c with
      | false =>
        obtain ⟨spans, mem_iff, ascending, same⟩ := ih _ (by omega) cs rfl
        refine ⟨spans.map (shift 1), fun start stop => ?_, pairwise_map_shift ascending, ?_⟩
        · simp only [mem_map_shift, maximalRun_cons_iff first, mem_iff]
        · rw [runs_cons_of_neg first, same]
          exact (map_extract_shift [c] cs spans).symm
      | true =>
        obtain ⟨run, rest, parts, some, all, ends, shorter⟩ := exists_run first cs
        obtain ⟨spans, mem_iff, ascending, same⟩ := ih _ (by omega) rest rfl
        have places (start stop : Nat) : (start, stop) ∈ (0, run.length) :: spans.map (shift run.length) ↔
            MaximalRun p (run ++ rest) start stop := by
          simp only [List.mem_cons, mem_map_shift, maximalRun_run_append_iff some all ends, mem_iff]
        rw [parts]
        refine ⟨_, places, List.pairwise_cons.2 ⟨fun span mem => ?_, pairwise_map_shift ascending⟩, ?_⟩
        · obtain ⟨inner, -, rfl⟩ := List.mem_map.1 mem
          have later := (places ..).1 (List.mem_cons_of_mem _ mem)
          exact later.lt_start (Nat.le_add_right ..) (maximalRun_front some all ends).after
        · rw [runs_append some all ends, same, List.map_cons, map_extract_shift]
          simp

/-- A run holds characters of the text. -/
theorem mem_of_mem_runs {cs run : List Char} (h : run ∈ runs p cs) {c : Char} (mem : c ∈ run) : c ∈ cs := by
  obtain ⟨spans, -, -, same⟩ := exists_spans p cs
  rw [same] at h
  obtain ⟨span, -, rfl⟩ := List.mem_map.1 h
  rw [List.extract_eq_take_drop] at mem
  exact List.mem_of_mem_drop (List.mem_of_mem_take mem)

/-! ### Cutting at separators -/

/-- The pieces of a text between its runs of separators, with an empty piece at an end that is a separator. -/
def pieces (p : Char → Bool) (cs : List Char) : List (List Char) :=
  cs.takeWhile p ::
    match _ : cs.dropWhile p with
    | [] => []
    | _ :: rest => pieces p (rest.dropWhile (!p ·))
termination_by cs.length
decreasing_by
  rename_i cut
  have shorter := (cs.dropWhile_sublist p).length_le
  have := (rest.dropWhile_sublist (!p ·)).length_le
  rw [cut, List.length_cons] at shorter
  omega

/-- Separators in front of a text are in no run. -/
theorem runs_dropWhile_not (p : Char → Bool) (cs : List Char) : runs p (cs.dropWhile (!p ·)) = runs p cs := by
  induction cs with
  | nil => rfl
  | cons c cs ih =>
    cases first : p c with
    | false => rw [List.dropWhile_cons_of_pos (by simp [first]), ih, runs_cons_of_neg first]
    | true => rw [List.dropWhile_cons_of_neg (by simp [first])]

theorem runs_eq_takeWhile_append (p : Char → Bool) (cs : List Char) :
    runs p cs = [cs.takeWhile p].filter (· ≠ []) ++ runs p (cs.dropWhile p) := by
  cases cs with
  | nil => simp [runs]
  | cons c cs => cases first : p c <;> simp [runs, first]

/-- **Runs are what is left of the pieces** when a text is cut at its separators and the empty pieces are dropped. -/
theorem runs_eq_filter_pieces (p : Char → Bool) (cs : List Char) : runs p cs = (pieces p cs).filter (· ≠ []) := by
  induction size : cs.length using Nat.strongRecOn generalizing cs with
  | ind n ih =>
    rw [runs_eq_takeWhile_append, pieces]
    split
    · rename_i whole
      rw [whole, runs, List.append_nil]
    · rename_i c rest cut
      have separates := List.head?_dropWhile_not p cs
      have shorter := (cs.dropWhile_sublist p).length_le
      rw [cut] at separates shorter ⊢
      have := (rest.dropWhile_sublist (!p ·)).length_le
      rw [List.length_cons] at shorter
      rw [runs_cons_of_neg separates, ← runs_dropWhile_not, ih _ (by omega) _ rfl, ← List.filter_append,
        List.singleton_append]

end Retrieval.Text
