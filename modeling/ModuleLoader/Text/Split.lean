/-! Cutting texts, kept as lists of characters, at separators and at fixed words. -/

namespace ModuleLoader.Text

/-- The pieces of a text between occurrences of `sep`: one piece more than there are occurrences. -/
def splitOn (sep : Char) : List Char → List (List Char)
  | [] => [[]]
  | c :: rest =>
    if c = sep then [] :: splitOn sep rest
    else match splitOn sep rest with
      | [] => [[c]]
      | piece :: pieces => (c :: piece) :: pieces

/-- What follows `word` in a text that begins with it. -/
def after? : (word text : List Char) → Option (List Char)
  | [], text => some text
  | _ :: _, [] => none
  | w :: word, c :: text => if w = c then after? word text else none

def afterFirst? (word : List Char) : List Char → Option (List Char)
  | [] => after? word []
  | c :: rest =>
    match after? word (c :: rest) with
    | some tail => some tail
    | none => afterFirst? word rest

/-- The text before the last occurrence of `sep` and the text after it. -/
def splitLast? (sep : Char) : List Char → Option (List Char × List Char)
  | [] => none
  | c :: rest =>
    match splitLast? sep rest with
    | some (before, last) => some (c :: before, last)
    | none => if c = sep then some ([], rest) else none

/-- A text with `word` replaced where it occurs, from left to right; `skip` characters of an
occurrence are left to drop. -/
def replaceFrom (word replacement : List Char) : (skip : Nat) → List Char → List Char
  | _, [] => []
  | skip + 1, _ :: rest => replaceFrom word replacement skip rest
  | 0, c :: rest =>
    if (after? word (c :: rest)).isSome then
      replacement ++ replaceFrom word replacement (word.length - 1) rest
    else c :: replaceFrom word replacement 0 rest

/-- A text with a word that is not empty replaced where it occurs. -/
def replace (word replacement text : String) : String :=
  String.ofList (replaceFrom word.toList replacement.toList 0 text.toList)

/-- The first of the items, in their order, at each distinct value. -/
def distinct {α : Type} [DecidableEq α] (items : List α) : List α :=
  items.foldl (fun seen item => if item ∈ seen then seen else seen ++ [item]) []

theorem after?_eq_some_iff {word text tail : List Char} :
    after? word text = some tail ↔ text = word ++ tail := by
  induction word generalizing text with
  | nil => simp [after?, eq_comm]
  | cons w word ih =>
    cases text with
    | nil => simp [after?]
    | cons c text =>
      by_cases h : w = c
      · simp [after?, h, ih]
      · simp [after?, h, Ne.symm h]

theorem splitOn_ne_nil (sep : Char) (text : List Char) : splitOn sep text ≠ [] := by
  cases text with
  | nil => simp [splitOn]
  | cons c rest =>
    simp only [splitOn]
    split
    · simp
    · split <;> simp

end ModuleLoader.Text
