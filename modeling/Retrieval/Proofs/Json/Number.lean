import Retrieval.Json.Printer
import Retrieval.Json.Token
import Retrieval.Proofs.Numeral.Shortest
import Retrieval.Proofs.Text.Runs

/-!
# Numbers in JSON texts

A number is written as a `Literal`: its whole part, its places and its exponent. Scanning takes a literal off the front
of a text whose rest does not go on with it (`scanNumber_literal`), and the natural form of a decimal is a literal that
stands for the same rational (`exists_literal`). So a floating-point number is read back from its JSON text.
-/

set_option autoImplicit false

namespace Retrieval.Json
open Retrieval.Numeral Retrieval.Text

/-! ### Literals -/

/-- The parts of a number with a point or an exponent: digits, the places after the point, and the sign and digits of
the exponent. -/
structure Literal where
  whole : List Char
  places : List Char
  exponent : Option (Bool × List Char)

namespace Literal

/-- The exponent with its mark and sign. -/
def exponentText : Option (Bool × List Char) → List Char
  | none => []
  | some (negative, ds) => 'e' :: (if negative then '-' else '+') :: ds

/-- The places with their point. -/
def placesText (places : List Char) : List Char := if places = [] then [] else '.' :: places

/-- The text of a literal. -/
def text (l : Literal) : List Char := l.whole ++ placesText l.places ++ exponentText l.exponent

/-- The power of ten of the last digit. -/
def power (l : Literal) : Int :=
  (l.exponent.elim 0 fun (negative, ds) => signed negative (ofDigits ds)) - l.places.length

/-- Whether the parts have the form that a number needs. -/
structure Valid (l : Literal) : Prop where
  whole_digits : AllDigits l.whole
  whole_ne_nil : l.whole ≠ []
  no_leading_zero : l.whole = ['0'] ∨ ∀ ds, l.whole ≠ '0' :: ds
  places_digits : AllDigits l.places
  exponent_digits : ∀ negative ds, l.exponent = some (negative, ds) → AllDigits ds ∧ ds ≠ []

end Literal

/-- Whether a text is the end of a JSON text or goes on after a value: with a comma or a closing bracket. -/
def Ends (cs : List Char) : Prop := ∀ c rest, cs = c :: rest → c = ',' ∨ c = ']' ∨ c = '}'

theorem isAsciiDigit_eq (c : Char) : isAsciiDigit c = c.isDigit := rfl

namespace Literal

variable {l : Literal} {rest : List Char}

/-- Neither the exponent nor the end of a value goes on with digits or a point. -/
theorem exponentText_stops (ends : Ends rest) (e : Option (Bool × List Char)) :
    ∀ c cs, exponentText e ++ rest = c :: cs → c ≠ '.' ∧ c.isDigit = false := by
  intro c cs h
  cases e with
  | none =>
    rcases ends c cs h with rfl | rfl | rfl <;> decide
  | some e =>
    cases h
    decide

/-- The places do not go on with digits before their point. -/
theorem placesText_stops (ends : Ends rest) (places : List Char) (e : Option (Bool × List Char)) :
    ∀ c cs, placesText places ++ (exponentText e ++ rest) = c :: cs → c.isDigit = false := by
  intro c cs h
  unfold placesText at h
  split at h
  · exact (exponentText_stops ends e c cs h).2
  · cases h
    decide

theorem wholePart_text (valid : l.Valid) (ends : Ends rest) :
    wholePart (l.whole ++ (placesText l.places ++ (exponentText l.exponent ++ rest))) = l.whole := by
  have run := span_append (p := isAsciiDigit) (fun c hc => valid.whole_digits c hc)
    (placesText_stops ends l.places l.exponent)
  rcases valid.no_leading_zero with zero | other
  · rw [zero]
    rfl
  · unfold wholePart
    split
    · rename_i tail h
      obtain ⟨d, ds, hd⟩ := List.exists_cons_of_ne_nil valid.whole_ne_nil
      rw [hd] at h
      cases h
      exact absurd hd (other ds)
    · exact run.1

theorem placesPart_text (valid : l.Valid) (ends : Ends rest) :
    placesPart (placesText l.places ++ (exponentText l.exponent ++ rest)) = placesText l.places := by
  have stops := exponentText_stops ends l.exponent
  have run := span_append (p := isAsciiDigit) (fun c hc => valid.places_digits c hc) (fun c cs h => (stops c cs h).2)
  unfold placesText
  split
  · unfold placesPart
    split
    · rename_i h
      exact absurd rfl (stops _ _ h).1
    · rfl
  · rename_i some_place
    simp only [List.cons_append, placesPart, run.1]

theorem exponentPart_signed {sign : Char} {ds rest : List Char} (signs : sign = '+' ∨ sign = '-')
    (run : (ds ++ rest).takeWhile isAsciiDigit = ds) (some_digit : ds ≠ []) :
    exponentPart ('e' :: sign :: (ds ++ rest)) = 'e' :: sign :: ds := by
  have marked : ([sign].filter fun s => s == '+' || s == '-') = [sign] := by
    rcases signs with rfl | rfl <;> rfl
  obtain ⟨d, ds', rfl⟩ := List.exists_cons_of_ne_nil some_digit
  rw [exponentPart, if_pos (.inl rfl)]
  simp only [List.take_succ_cons, List.take_zero, marked, List.length_singleton, List.drop_succ_cons, List.drop_zero,
    run]
  rfl

theorem exponentPart_text (valid : l.Valid) (ends : Ends rest) :
    exponentPart (exponentText l.exponent ++ rest) = exponentText l.exponent := by
  cases he : l.exponent with
  | none =>
    cases rest with
    | nil => rfl
    | cons c cs =>
      rcases ends c cs rfl with rfl | rfl | rfl <;> rfl
  | some e =>
    obtain ⟨negative, ds⟩ := e
    obtain ⟨digits, some_digit⟩ := valid.exponent_digits negative ds he
    have run := span_append (p := isAsciiDigit) (fun c hc => digits c hc)
      (fun c cs h => (exponentText_stops ends none c cs h).2)
    cases negative with
    | false => exact exponentPart_signed (.inl rfl) run.1 some_digit
    | true => exact exponentPart_signed (.inr rfl) run.1 some_digit

/-- Scanning takes a literal off the front of a text. -/
theorem scanNumber_text (valid : l.Valid) (ends : Ends rest) (negative : Bool) :
    scanNumber negative (l.text ++ rest) =
      if l.places = [] ∧ l.exponent = none then
        some (.integer (String.ofList ((if negative then ['-'] else []) ++ l.whole)), l.text.length)
      else (readDecimal negative l.text).map fun x => (.real x, l.text.length) := by
  have shape : l.text ++ rest = l.whole ++ (placesText l.places ++ (exponentText l.exponent ++ rest)) := by
    simp [text]
  have places : placesText l.places = [] ↔ l.places = [] := by
    unfold placesText
    split <;> simp_all
  have exponent : exponentText l.exponent = [] ↔ l.exponent = none := by
    cases l.exponent <;> simp [exponentText]
  rw [shape, scanNumber]
  simp only [wholePart_text valid ends, List.drop_left, placesPart_text valid ends, exponentPart_text valid ends,
    places, exponent, if_neg valid.whole_ne_nil]
  cases negative <;> rfl

theorem readExponent_text (valid : l.Valid) : readExponent (exponentText l.exponent) =
    some (l.exponent.elim 0 fun (negative, ds) => signed negative (ofDigits ds)) := by
  cases he : l.exponent with
  | none => rfl
  | some e =>
    obtain ⟨negative, ds⟩ := e
    obtain ⟨digits, some_digit⟩ := valid.exponent_digits negative ds he
    have all : ds.all isDecimal = true := List.all_eq_true.2 fun c hc => isDecimal_of_isDigit (digits c hc)
    cases negative with
    | false =>
      show (if ds ≠ [] ∧ ds.all isDecimal then some (signed false (ofDigits ds)) else none) = _
      rw [if_pos ⟨some_digit, all⟩]
      rfl
    | true =>
      show (if ds ≠ [] ∧ ds.all isDecimal then some (signed true (ofDigits ds)) else none) = _
      rw [if_pos ⟨some_digit, all⟩]
      rfl

/-- The text of a literal is read as its digits with its power of ten. -/
theorem readDecimal_text (valid : l.Valid) (negative : Bool) :
    readDecimal negative l.text = some (nearestDecimal negative (ofDigits (l.whole ++ l.places)) l.power) := by
  have shape : l.text = l.whole ++ (placesText l.places ++ exponentText l.exponent) := List.append_assoc ..
  have stops : ∀ c cs, exponentText l.exponent = c :: cs → isDecimal c = false := by
    intro c cs h
    cases he : l.exponent with
    | none =>
      rw [he] at h
      cases h
    | some e =>
      rw [he] at h
      cases h
      decide
  have whole_stops : ∀ c cs, placesText l.places ++ exponentText l.exponent = c :: cs → isDecimal c = false := by
    intro c cs h
    unfold placesText at h
    split at h
    · exact stops c cs h
    · cases h
      decide
  have whole := span_append (p := isDecimal) (fun c hc => isDecimal_of_isDigit (valid.whole_digits c hc)) whole_stops
  have places := span_append (p := isDecimal) (fun c hc => isDecimal_of_isDigit (valid.places_digits c hc)) stops
  have split : splitPlaces (placesText l.places ++ exponentText l.exponent) = (l.places, exponentText l.exponent) := by
    unfold placesText
    split
    · rename_i none
      rw [none]
      unfold splitPlaces
      split
      · rename_i h
        cases he : l.exponent with
        | none =>
          rw [he] at h
          cases h
        | some e =>
          rw [he] at h
          cases h
      · rfl
    · show ((l.places ++ exponentText l.exponent).takeWhile isDecimal,
        (l.places ++ exponentText l.exponent).dropWhile isDecimal) = _
      rw [places.1, places.2]
  rw [shape, readDecimal, whole.1, whole.2, split]
  simp only [readExponent_text valid, valid.whole_ne_nil, false_and, if_false]
  rfl

/-- What a literal stands for. -/
def value (l : Literal) : ℚ := ofDigits (l.whole ++ l.places) * 10 ^ l.power

end Literal

/-! ### Natural forms -/

theorem allDigits_padded (width n : Nat) : AllDigits (padded width (digitsOf n)) :=
  allDigits_append (allDigits_zeros _) (allDigits_digitsOf n)

theorem ofDigits_padded (width n : Nat) : ofDigits (padded width (digitsOf n)) = n := by
  rw [padded, ofDigits_zeros_append (allDigits_digitsOf n), ofDigits_digitsOf]

/-- Whether a literal is how a decimal is written. -/
structure Literal.Writes (l : Literal) (d : Decimal) : Prop where
  valid : l.Valid
  text_eq : l.text = d.natural
  value_eq : l.value = d.value
  not_integer : ¬ (l.places = [] ∧ l.exponent = none)

theorem Literal.value_of_digits {l : Literal} {d : Decimal} (k : Nat)
    (digits : ofDigits (l.whole ++ l.places) = 10 ^ k * d.digits) (power : l.power + k = d.exponent) :
    l.value = d.value := by
  rw [value, digits, Decimal.value, ← power, zpow_add₀ (by norm_num), zpow_natCast]
  push_cast
  ring

section

variable {d : Decimal} {c : Char} {ds : List Char}

theorem first_power (e : Int) (c : Char) (ds : List Char) : e + (c :: ds).length - 1 = e + ds.length := by
  rw [List.length_cons]
  push_cast
  ring

/-- One digit before the point, and an exponent. -/
theorem writes_scientific (head : digitsOf d.digits = c :: ds) (no_zero : c ≠ '0')
    (far : d.exponent + ds.length < -4 ∨ 15 < d.exponent + ds.length) :
    Literal.Writes ⟨[c], ds, some (decide (d.exponent + ds.length < 0),
      padded 2 (digitsOf (d.exponent + ds.length).natAbs))⟩ d := by
  have digits := allDigits_digitsOf d.digits
  have number := ofDigits_digitsOf d.digits
  rw [head] at digits number
  refine ⟨⟨digits.take 1, by simp, .inr (by simp [no_zero]), digits.drop 1, ?_⟩, ?_, ?_, by simp⟩
  · rintro negative es h
    cases h
    exact ⟨allDigits_padded _ _, by simp [padded, digitsOf_ne_nil]⟩
  · unfold Decimal.natural
    simp only [head, first_power, if_pos far]
    unfold Literal.text Literal.placesText Literal.exponentText exponentText
    cases ds <;> simp
  · apply Literal.value_of_digits 0
    · simpa using number
    · show signed _ (ofDigits (padded 2 (digitsOf _))) - (ds.length : Int) + 0 = _
      rw [ofDigits_padded, signed_natAbs]
      omega

/-- Zeros after the point. -/
theorem writes_small (head : digitsOf d.digits = c :: ds) (near : -4 ≤ d.exponent + ds.length)
    (small : d.exponent + ds.length < 0) :
    Literal.Writes ⟨['0'], List.replicate (-(d.exponent + ds.length) - 1).toNat '0' ++ c :: ds, none⟩ d := by
  have digits := allDigits_digitsOf d.digits
  have number := ofDigits_digitsOf d.digits
  rw [head] at digits number
  refine ⟨⟨allDigits_zeros 1, by simp, .inl rfl, allDigits_append (allDigits_zeros _) digits, by simp⟩, ?_, ?_, by simp⟩
  · unfold Decimal.natural
    simp only [head, first_power]
    rw [if_neg (by omega), if_pos small]
    simp [Literal.text, Literal.placesText, Literal.exponentText]
  · apply Literal.value_of_digits 0
    · have zeros (n : Nat) : ['0'] ++ (List.replicate n '0' ++ c :: ds) = List.replicate (n + 1) '0' ++ c :: ds := rfl
      rw [zeros, ofDigits_zeros_append digits, number, Nat.pow_zero, Nat.one_mul]
    · simp [Literal.power]
      omega

/-- All digits before the point, with zeros after them. -/
theorem writes_whole (head : digitsOf d.digits = c :: ds) (no_zero : c ≠ '0') (whole : 0 ≤ d.exponent)
    (near : d.exponent + ds.length ≤ 15) :
    Literal.Writes ⟨c :: ds ++ List.replicate d.exponent.toNat '0', ['0'], none⟩ d := by
  have digits := allDigits_digitsOf d.digits
  have number := ofDigits_digitsOf d.digits
  rw [head] at digits number
  refine ⟨⟨allDigits_append digits (allDigits_zeros _), by simp, .inr (by simp [no_zero]), allDigits_zeros 1, by simp⟩,
    ?_, ?_, by simp⟩
  · have all : (c :: ds ++ List.replicate d.exponent.toNat '0').take ((d.exponent + ds.length).toNat + 1) =
        c :: ds ++ List.replicate d.exponent.toNat '0' := by
      apply List.take_of_length_le
      simp
      omega
    have none : (c :: ds).drop ((d.exponent + ds.length).toNat + 1) = [] := by
      apply List.drop_of_length_le
      simp
      omega
    unfold Decimal.natural
    simp only [head, first_power]
    rw [if_neg (by omega), if_neg (by omega), all, none]
    simp [Literal.text, Literal.placesText, Literal.exponentText]
  · apply Literal.value_of_digits (d.exponent.toNat + 1)
    · have zeros (n : Nat) : c :: ds ++ List.replicate n '0' ++ ['0'] = c :: ds ++ List.replicate (n + 1) '0' := by
        rw [List.append_assoc, List.replicate_succ']
      rw [zeros, ofDigits_append_zeros digits, number]
    · simp [Literal.power]
      omega

/-- Digits before and after the point. -/
theorem writes_split (head : digitsOf d.digits = c :: ds) (no_zero : c ≠ '0') (places : d.exponent < 0)
    (large : 0 ≤ d.exponent + ds.length) (near : d.exponent + ds.length ≤ 15) :
    Literal.Writes ⟨(c :: ds).take ((d.exponent + ds.length).toNat + 1),
      (c :: ds).drop ((d.exponent + ds.length).toNat + 1), none⟩ d := by
  have digits := allDigits_digitsOf d.digits
  have number := ofDigits_digitsOf d.digits
  rw [head] at digits number
  have fewer : (d.exponent + ds.length).toNat < ds.length := by omega
  refine ⟨⟨digits.take _, by simp, .inr (by simp [no_zero]), digits.drop _, by simp⟩, ?_, ?_, by simp [fewer]⟩
  · have empty : d.exponent.toNat = 0 := by omega
    unfold Decimal.natural
    simp only [head, first_power, empty, List.replicate_zero, List.append_nil]
    rw [if_neg (by omega), if_neg (by omega), if_neg (by simp [fewer])]
    simp [Literal.text, Literal.placesText, Literal.exponentText, fewer]
  · apply Literal.value_of_digits 0
    · rw [List.take_append_drop, number, Nat.pow_zero, Nat.one_mul]
    · simp [Literal.power]
      omega

end

/-- The natural form of a decimal is a literal. -/
theorem exists_literal {d : Decimal} (positive : 0 < d.digits) : ∃ l : Literal, l.Writes d := by
  obtain ⟨c, ds, head, no_zero⟩ := head_digitsOf positive
  by_cases far : d.exponent + ds.length < -4 ∨ 15 < d.exponent + ds.length
  · exact ⟨_, writes_scientific head no_zero far⟩
  by_cases small : d.exponent + ds.length < 0
  · exact ⟨_, writes_small head (by omega) small⟩
  by_cases whole : 0 ≤ d.exponent
  · exact ⟨_, writes_whole head no_zero whole (by omega)⟩
  · exact ⟨_, writes_split head no_zero (by omega) (by omega) (by omega)⟩

/-! ### Scanning numbers -/

/-- The digits of a natural number are a literal. -/
theorem valid_digitsOf (n : Nat) : Literal.Valid ⟨digitsOf n, [], none⟩ := by
  refine ⟨allDigits_digitsOf n, digitsOf_ne_nil n, ?_, by simp [AllDigits], by simp⟩
  rcases Nat.eq_zero_or_pos n with rfl | positive
  · exact .inl rfl
  · obtain ⟨c, cs, head, no_zero⟩ := head_digitsOf positive
    exact .inr fun ds h => no_zero (List.cons.inj (head.symm.trans h)).1

/-- The form of the magnitude of a finite number. -/
def magnitudeForm (mantissa : Nat) (exponent : Int) : List Char :=
  if mantissa = 0 then "0.0".toList else (shortest mantissa exponent).natural

/-- The form of a finite number is a literal, from which the number is read. -/
theorem exists_literal_of_reading {x : Float} {negative : Bool} {mantissa : Nat} {exponent : Int}
    (h : reading x = .finite negative mantissa exponent) :
    ∃ l : Literal, l.Valid ∧ l.text = magnitudeForm mantissa exponent ∧ ¬ (l.places = [] ∧ l.exponent = none) ∧
      readDecimal negative l.text = some x := by
  obtain ⟨canonical, rfl⟩ := eq_of_reading_finite h
  unfold magnitudeForm
  split
  · rename_i zero
    have valid : Literal.Valid ⟨['0'], ['0'], none⟩ :=
      ⟨allDigits_zeros 1, by simp, .inl rfl, allDigits_zeros 1, by simp⟩
    refine ⟨⟨['0'], ['0'], none⟩, valid, by decide, by simp, ?_⟩
    rw [Literal.readDecimal_text valid]
    have least : exponent = -1074 := by
      rcases canonical.full with least | full
      · exact least
      · omega
    rw [zero, least]
    rfl
  · rename_i some_mantissa
    have rounds := rounds_shortest canonical (Nat.pos_of_ne_zero some_mantissa)
    have positive : 0 < (shortest mantissa exponent).digits := by
      have := rounds.pos (Nat.pos_of_ne_zero some_mantissa)
      apply Nat.pos_of_ne_zero
      intro none
      simp [Decimal.value, none] at this
    obtain ⟨l, writes⟩ := exists_literal positive
    refine ⟨l, writes.valid, writes.text_eq, writes.not_integer, ?_⟩
    rw [← writes.value_eq] at rounds
    rw [Literal.readDecimal_text writes.valid, nearestDecimal_eq canonical (Nat.pos_of_ne_zero some_mantissa) rounds]

/-- A token is taken off the front of a text. -/
theorem tokens_cons {c : Char} {cs rest : List Char} {t : Token} (ink : isSpace c = false)
    (scan : scanToken c (cs ++ rest) = (t, cs.length)) : tokens (c :: (cs ++ rest)) = t :: tokens rest := by
  rw [tokens, ink, if_neg Bool.false_ne_true, scan]
  show t :: tokens ((cs ++ rest).drop cs.length) = _
  rw [List.drop_left]

/-- A token that is scanned as a number is a token of the text. -/
theorem tokens_of_scanNumber {l : Literal} (valid : l.Valid) {negative : Bool} {rest : List Char} {t : Token}
    (h : scanNumber negative (l.text ++ rest) = some (t, l.text.length)) :
    tokens ((if negative then '-' :: l.text else l.text) ++ rest) = t :: tokens rest := by
  cases negative with
  | true =>
    rw [if_pos rfl, List.cons_append]
    apply tokens_cons (by decide)
    rw [scanToken, if_neg (by decide), if_pos rfl, h]
    rfl
  | false =>
    obtain ⟨c, cs, hc⟩ := List.exists_cons_of_ne_nil valid.whole_ne_nil
    have digit : c.isDigit = true := valid.whole_digits c (by simp [hc])
    obtain ⟨ds, hds⟩ : ∃ ds, l.text = c :: ds :=
      ⟨cs ++ Literal.placesText l.places ++ Literal.exponentText l.exponent, by simp [Literal.text, hc]⟩
    have other (d : Char) (hd : d.isDigit = false) : c ≠ d := by
      rintro rfl
      rw [digit] at hd
      cases hd
    rw [hds] at h ⊢
    rw [if_neg Bool.false_ne_true, List.cons_append]
    apply tokens_cons
    · simp [isSpace, other]
    · rw [List.cons_append] at h
      rw [scanToken, if_neg (other '"' (by decide)), if_neg (other '-' (by decide)),
        if_pos ((isAsciiDigit_eq c).trans digit), h]
      rfl

/-- An integer is one token. -/
theorem tokens_integer (n : Int) {rest : List Char} (ends : Ends rest) :
    tokens ((toString n).toList ++ rest) = .integer (toString n) :: tokens rest := by
  have valid := valid_digitsOf n.natAbs
  have scan := Literal.scanNumber_text valid ends (decide (n < 0))
  rw [if_pos ⟨rfl, rfl⟩] at scan
  have taken := tokens_of_scanNumber valid scan
  have form : (toString n).toList = if decide (n < 0) then '-' :: digitsOf n.natAbs else digitsOf n.natAbs := by
    rw [toList_toString]
    by_cases negative : n < 0 <;> simp [negative]
  have shape : Literal.text ⟨digitsOf n.natAbs, [], none⟩ = digitsOf n.natAbs := by
    simp [Literal.text, Literal.placesText, Literal.exponentText]
  have name : String.ofList ((if decide (n < 0) then ['-'] else []) ++ digitsOf n.natAbs) = toString n := by
    rw [← String.ofList_toList (s := toString n), toList_toString]
    simp
  rw [shape, ← form, name] at taken
  exact taken

/-- A real is one token, whose value is the real. -/
theorem tokens_real (x : Float) {rest : List Char} (ends : Ends rest) :
    tokens ((realText x).toList ++ rest) = .real x :: tokens rest := by
  unfold realText natural
  cases h : reading x with
  | notANumber =>
    rw [eq_of_reading_notANumber h]
    show tokens ('N' :: (['a', 'N'] ++ rest)) = _
    apply tokens_cons (by decide)
    simp [scanToken, scanWord, wordTokens, mark?, isAsciiDigit, ← String.length_toList]
  | infinite negative =>
    rw [eq_of_reading_infinite h]
    cases negative with
    | false =>
      show tokens ('I' :: (['n', 'f', 'i', 'n', 'i', 't', 'y'] ++ rest)) = _
      apply tokens_cons (by decide)
      simp [scanToken, scanWord, wordTokens, mark?, isAsciiDigit, ← String.length_toList]
    | true =>
      show tokens ('-' :: (['I', 'n', 'f', 'i', 'n', 'i', 't', 'y'] ++ rest)) = _
      apply tokens_cons (by decide)
      simp [scanToken, scanWord, wordTokens, scanNumber, wholePart, isAsciiDigit, ← String.length_toList]
  | finite negative mantissa exponent =>
    obtain ⟨l, valid, text, not_integer, read⟩ := exists_literal_of_reading h
    have scan := Literal.scanNumber_text valid ends negative
    rw [if_neg not_integer, read] at scan
    have taken := tokens_of_scanNumber valid scan
    rw [text] at taken
    show tokens ((withSign negative (magnitudeForm mantissa exponent)).toList ++ rest) = _
    rw [withSign, String.toList_ofList]
    exact taken

end Retrieval.Json
