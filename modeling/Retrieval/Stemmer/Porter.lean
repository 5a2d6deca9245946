import Retrieval.Stemmer.Shape
import Retrieval.Text.Casing

/-!
# Suffix stripping

The stemmer of the English language used for documents and queries: five steps, each of which strips or
replaces one suffix when the stem before it is long enough. Irregular words come from a table.
-/

set_option autoImplicit false

namespace Retrieval.Stemmer

/-- Replaces `suffix` by `replacement` when the stem before it meets the condition. -/
structure Rule where
  suffix : String
  replacement : String
  condition : List Char → Bool

/-- Whether a word ends in a suffix. -/
def endsIn (suffix : String) (word : List Char) : Bool := suffix.toList.isSuffixOf word

/-- A word without its last `n` characters. -/
def dropLast (n : Nat) (word : List Char) : List Char := word.take (word.length - n)

/-- A word with a suffix, which it ends in, replaced. -/
def replaceSuffix (suffix replacement : String) (word : List Char) : List Char :=
  dropLast suffix.length word ++ replacement.toList

/-- Applies the first rule whose suffix the word ends in. -/
def applyFirst (rules : List Rule) (word : List Char) : List Char :=
  match rules.find? fun rule => endsIn rule.suffix word with
  | none => word
  | some rule =>
    if rule.condition (dropLast rule.suffix.length word) then replaceSuffix rule.suffix rule.replacement word
    else word

/-- The rules with one condition for a list of suffixes and replacements. -/
def rulesWhen (condition : List Char → Bool) (pairs : List (String × String)) : List Rule :=
  pairs.map fun pair => ⟨pair.1, pair.2, condition⟩

/-- The condition that the stem's measure exceeds a number. -/
def measureAbove (n : Nat) (stem : List Char) : Bool := n < measure stem

/-- Plural endings. -/
def stripPlural (word : List Char) : List Char :=
  if endsIn "ies" word && word.length == 4 then replaceSuffix "ies" "ie" word
  else applyFirst (rulesWhen (fun _ => true) [("sses", "ss"), ("ies", "i"), ("ss", "ss"), ("s", "")]) word

/-- Restores the end of a word that has lost `ed` or `ing`. The mark `*d`, which stands for a double consonant in
the rules, is also a suffix of its own, and becomes `d`. -/
def restoreEnd (word : List Char) : List Char :=
  if endsIn "at" word || endsIn "bl" word || endsIn "iz" word then word ++ ['e']
  else if endsInDouble word then
    if endsIn "l" word || endsIn "s" word || endsIn "z" word then word else dropLast 1 word
  else if endsIn "*d" word then replaceSuffix "*d" "d" word
  else if measure word = 1 && endsShort word then word ++ ['e']
  else word

/-- Whether a word ends in the suffix after a stem with a vowel. -/
def endsAfterVowel (suffix : String) (word : List Char) : Bool :=
  endsIn suffix word && hasVowel (dropLast suffix.length word)

/-- Past and progressive endings. -/
def stripPast (word : List Char) : List Char :=
  if endsIn "ied" word then replaceSuffix "ied" (if word.length = 4 then "ie" else "i") word
  else if endsIn "eed" word then applyFirst [⟨"eed", "ee", measureAbove 0⟩] word
  else if endsAfterVowel "ed" word then restoreEnd (dropLast 2 word)
  else if endsAfterVowel "ing" word then restoreEnd (dropLast 3 word)
  else word

/-- A final `y` after a consonant. -/
def turnY (word : List Char) : List Char :=
  applyFirst [⟨"y", "i", fun stem => 1 < stem.length && endsInConsonant stem⟩] word

/-- Double suffixes, such as `ization`, which become single ones. -/
def doubleSuffixes : List (String × String) :=
  [("ational", "ate"), ("tional", "tion"), ("enci", "ence"), ("anci", "ance"), ("izer", "ize"), ("bli", "ble"),
    ("alli", "al"), ("entli", "ent"), ("eli", "e"), ("ousli", "ous"), ("ization", "ize"), ("ation", "ate"),
    ("ator", "ate"), ("alism", "al"), ("iveness", "ive"), ("fulness", "ful"), ("ousness", "ous"),
    ("aliti", "al"), ("iviti", "ive"), ("biliti", "ble"), ("fulli", "ful")]

/-- Reduces a double suffix; after `alli` has become `al` the word is looked at once more. -/
def reduceDouble (word : List Char) : List Char :=
  let reduce (word : List Char) :=
    applyFirst (rulesWhen (measureAbove 0) doubleSuffixes ++
      [⟨"logi", "log", fun _ => measureAbove 0 (dropLast 3 word)⟩]) word
  if endsIn "alli" word && measureAbove 0 (dropLast 4 word) then reduce (dropLast 2 word) else reduce word

/-- Adjective and noun suffixes. -/
def stripAdjective (word : List Char) : List Char :=
  applyFirst (rulesWhen (measureAbove 0) [("icate", "ic"), ("ative", ""), ("alize", "al"), ("iciti", "ic"),
    ("ical", "ic"), ("ful", ""), ("ness", "")]) word

/-- Suffixes that are stripped from long stems, with the condition for `ion`. -/
def stripLong (word : List Char) : List Char :=
  let strip (suffixes : List String) := rulesWhen (measureAbove 1) (suffixes.map fun suffix => (suffix, ""))
  applyFirst (strip ["al", "ance", "ence", "er", "ic", "able", "ible", "ant", "ement", "ment", "ent"] ++
    [⟨"ion", "", fun stem => measureAbove 1 stem && (endsIn "s" stem || endsIn "t" stem)⟩] ++
    strip ["ou", "ism", "ate", "iti", "ous", "ive", "ize"]) word

/-- A final `e` after a long stem. -/
def stripE (word : List Char) : List Char :=
  applyFirst [⟨"e", "", fun stem => measureAbove 1 stem || (measure stem = 1 && !endsShort stem)⟩] word

/-- A final double `l` after a long stem. -/
def singleL (word : List Char) : List Char :=
  applyFirst [⟨"ll", "l", fun _ => measureAbove 1 (dropLast 1 word)⟩] word

/-- Words with stems of their own. -/
def irregular : List (String × String) :=
  [("sky", "sky"), ("skies", "sky"), ("dying", "die"), ("lying", "lie"), ("tying", "tie"), ("news", "news"),
    ("inning", "inning"), ("innings", "inning"), ("outing", "outing"), ("outings", "outing"),
    ("canning", "canning"), ("cannings", "canning"), ("howe", "howe"), ("proceed", "proceed"),
    ("exceed", "exceed"), ("succeed", "succeed")]

/-- The stem of a word; words of one or two characters are their own stems. -/
def porter (word : String) : String :=
  let lowered := Text.lower word
  match irregular.lookup lowered with
  | some stem => stem
  | none =>
    if word.length ≤ 2 then lowered
    else String.ofList (singleL (stripE (stripLong (stripAdjective (reduceDouble (turnY (stripPast (stripPlural
      lowered.toList))))))))

end Retrieval.Stemmer
