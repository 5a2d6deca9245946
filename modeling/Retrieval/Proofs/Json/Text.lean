import Retrieval.Proofs.Json.Number

/-!
# Strings in JSON texts

Each character of a string is written as itself or as an escape of its code units (`unitsOf`), which scanning finds
again; and the units of a text determine its characters, since no character is half of another. So a string is read
back from its JSON text.
-/

set_option autoImplicit false

namespace Retrieval.Json
open Retrieval.Text (hexDigit hexDigits)

/-- The code units of a character: two if it is too great for one. -/
def unitsOf (c : Char) : List Nat :=
  if c.toNat < 0x10000 then [c.toNat]
  else [0xD800 + (c.toNat - 0x10000) / 0x400, 0xDC00 + (c.toNat - 0x10000) % 0x400]

/-! ### Escapes -/

theorem hexValue?_hexDigit : ∀ n < 16, hexValue? (hexDigit n) = some n := by decide

theorem scanString_unitEscape {n : Nat} (h : n < 0x10000) (units : List Nat) (count : Nat) (rest : List Char) :
    scanString units count (unitEscape n ++ rest) = scanString (n :: units) (count + 6) rest := by
  have digits : unit? (hexDigit (n / 16 / 16 / 16 % 16)) (hexDigit (n / 16 / 16 % 16)) (hexDigit (n / 16 % 16))
      (hexDigit (n % 16)) = some n := by
    unfold unit?
    rw [hexValue?_hexDigit _ (Nat.mod_lt _ (by decide)), hexValue?_hexDigit _ (Nat.mod_lt _ (by decide)),
      hexValue?_hexDigit _ (Nat.mod_lt _ (by decide)), hexValue?_hexDigit _ (Nat.mod_lt _ (by decide))]
    show some _ = some n
    congr 1
    omega
  show ((unit? _ _ _ _).bind fun n => scanString (n :: units) (count + 6) rest) = _
  rw [digits]
  rfl

theorem scanString_plain {c : Char} (quote : c ≠ '"') (backslash : c ≠ '\\') (printable : 0x20 ≤ c.toNat)
    (units : List Nat) (count : Nat) (rest : List Char) :
    scanString units count (c :: rest) = scanString (c.toNat :: units) (count + 1) rest := by
  conv_lhs => unfold scanString
  split
  · rename_i h
    cases h
  · rename_i h
    exact absurd (List.cons.inj h).1 quote
  · rename_i h
    exact absurd (List.cons.inj h).1 backslash
  · rename_i h
    exact absurd (List.cons.inj h).1 backslash
  · rename_i h
    cases h
    rw [if_neg (not_or.2 ⟨by omega, backslash⟩)]

/-- No character is half of another. -/
theorem toNat_valid (c : Char) : c.toNat < 0xD800 ∨ (0xDFFF < c.toNat ∧ c.toNat < 0x110000) := c.valid

theorem unitsOf_short {c : Char} (h : c.toNat < 0x10000) : unitsOf c = [c.toNat] := if_pos h

/-- A character is scanned as its code units. -/
theorem scanString_escaped (c : Char) (units : List Nat) (count : Nat) (rest : List Char) :
    scanString units count (escaped c ++ rest) =
      scanString ((unitsOf c).reverse ++ units) (count + (escaped c).length) rest := by
  unfold escaped
  dsimp only
  split
  · rename_i h
    rcases h with rfl | rfl <;> rfl
  split
  · rename_i h
    subst h
    rfl
  split
  · rename_i h
    subst h
    rfl
  split
  · rename_i h
    subst h
    rfl
  split
  · rename_i h
    rw [unitsOf_short (by omega), h]
    rfl
  split
  · rename_i h
    rw [unitsOf_short (by omega), h]
    rfl
  split
  · rename_i special _ _ _ _ _ printable
    rw [unitsOf_short (by omega)]
    exact scanString_plain (fun e => special (.inl e)) (fun e => special (.inr e)) printable.1 units count rest
  split
  · rename_i short
    rw [unitsOf_short short]
    exact scanString_unitEscape short units count rest
  · rename_i long
    have valid := toNat_valid c
    rw [unitsOf, if_neg long, List.append_assoc, scanString_unitEscape (by omega), scanString_unitEscape (by omega)]
    rfl

theorem scanString_text (cs : List Char) (units : List Nat) (count : Nat) (rest : List Char) :
    scanString units count (cs.flatMap escaped ++ '"' :: rest) =
      some (units.reverse ++ cs.flatMap unitsOf, count + (cs.flatMap escaped).length + 1) := by
  induction cs generalizing units count with
  | nil =>
    rw [List.flatMap_nil, List.flatMap_nil, List.append_nil]
    rfl
  | cons c cs ih =>
    rw [List.flatMap_cons, List.flatMap_cons, List.append_assoc, scanString_escaped, ih]
    simp
    omega

/-! ### Code units -/

theorem ofUnits_unitsOf (c : Char) (rest : List Nat) : ofUnits (unitsOf c ++ rest) = c :: ofUnits rest := by
  have valid := toNat_valid c
  by_cases short : c.toNat < 0x10000
  · have self : (if c.toNat.isValidChar then Char.ofNat c.toNat else Char.ofNat 0xFFFD) = c := by
      rw [if_pos valid, Char.ofNat_toNat]
    rw [unitsOf_short short]
    cases rest with
    | nil => exact congrArg (· :: []) self
    | cons m rest =>
      rw [List.singleton_append, ofUnits, if_neg (by omega), self]
  · rw [unitsOf, if_neg short]
    show ofUnits (_ :: _ :: rest) = _
    rw [ofUnits, if_pos (by omega)]
    have joined : 0x10000 + (0xD800 + (c.toNat - 0x10000) / 0x400 - 0xD800) * 0x400 +
        (0xDC00 + (c.toNat - 0x10000) % 0x400 - 0xDC00) = c.toNat := by
      omega
    rw [joined, Char.ofNat_toNat]

/-- The units of a text determine it. -/
theorem ofUnits_text (cs : List Char) : ofUnits (cs.flatMap unitsOf) = cs := by
  induction cs with
  | nil => rfl
  | cons c cs ih => rw [List.flatMap_cons, ofUnits_unitsOf, ih]

/-- A string is one token, whose text is the string. -/
theorem tokens_string (s : String) (rest : List Char) :
    tokens ((stringText s).toList ++ rest) = .string s :: tokens rest := by
  have scan : scanString [] 0 (s.toList.flatMap escaped ++ ['"'] ++ rest) =
      some (s.toList.flatMap unitsOf, (s.toList.flatMap escaped ++ ['"']).length) := by
    rw [List.append_assoc, List.singleton_append, scanString_text]
    simp
  rw [stringText, String.toList_ofList]
  show tokens ('"' :: (s.toList.flatMap escaped ++ ['"'] ++ rest)) = _
  apply tokens_cons (by decide)
  rw [scanToken, if_pos rfl, scan]
  show (Token.string (String.ofList (ofUnits (s.toList.flatMap unitsOf))), _) = _
  rw [ofUnits_text, String.ofList_toList]

end Retrieval.Json
