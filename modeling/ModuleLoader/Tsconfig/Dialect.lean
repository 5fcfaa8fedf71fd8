import ModuleLoader.Text.Blank

/-! The dialect of configuration files: JSON with comments, and with commas before closing brackets
and braces.  `plain` takes both away and leaves everything else as it is. -/

namespace ModuleLoader.Tsconfig

open ModuleLoader.Text

theorem length_after?_le {word text tail : List Char} (h : after? word text = some tail) :
    tail.length ≤ text.length := by
  rw [after?_eq_some_iff] at h
  simp [h]

theorem length_afterFirst?_le {word text tail : List Char} (h : afterFirst? word text = some tail) :
    tail.length ≤ text.length := by
  induction text with
  | nil => exact length_after?_le h
  | cons c rest ih =>
    simp only [afterFirst?] at h
    split at h
    · next hw => cases h; exact length_after?_le hw
    · exact Nat.le_trans (ih h) (by simp)

/-- What follows the first occurrence of `word`, or nothing if there is none. -/
def behind (word text : List Char) : List Char := (afterFirst? word text).getD []

theorem length_behind_le (word text : List Char) : (behind word text).length ≤ text.length := by
  unfold behind
  cases h : afterFirst? word text with
  | none => simp
  | some tail => exact length_afterFirst?_le h

theorem length_trimStart_le (text : List Char) : (trimStart text).length ≤ text.length :=
  (List.dropWhile_sublist isBlank).length_le

/-- The text without the blanks and comments that it starts with. -/
def skipTrivia (text : List Char) : List Char :=
  match _h : trimStart text with
  | '/' :: '/' :: rest => skipTrivia (behind ['\n'] rest)
  | '/' :: '*' :: rest => skipTrivia (behind ['*', '/'] rest)
  | other => other
termination_by text.length
decreasing_by
  all_goals
    have h1 := length_trimStart_le text
    have h2 := length_behind_le ['\n'] rest
    have h3 := length_behind_le ['*', '/'] rest
    simp only [_h, List.length_cons] at h1
    omega

/-- Only blanks and comments stand before a closing bracket or brace. -/
def closes (text : List Char) : Bool :=
  match skipTrivia text with
  | c :: _ => c == '\x7d' || c == ']'
  | [] => false

/-- Where a character of the text belongs: to tokens, to a string or behind a backslash in one, to a
line comment, or to a block comment, of which the second mark comes next or the first of the
closing marks was just read. -/
inductive Place where
  | code
  | string
  | escape
  | line
  | opening
  | block (starred : Bool)
  deriving DecidableEq

/-- The text without comments and trailing commas, from a place in it.  The newline that ends a
line comment stays. -/
def plainFrom : Place → List Char → List Char
  | _, [] => []
  | .code, c :: rest =>
    if c = '"' then c :: plainFrom .string rest
    else if c = '/' && rest.head? == some '/' then plainFrom .line rest
    else if c = '/' && rest.head? == some '*' then plainFrom .opening rest
    else if c = ',' && closes rest then plainFrom .code rest
    else c :: plainFrom .code rest
  | .string, c :: rest =>
    c :: plainFrom (if c = '\\' then .escape else if c = '"' then .code else .string) rest
  | .escape, c :: rest => c :: plainFrom .string rest
  | .line, c :: rest => if c = '\n' then c :: plainFrom .code rest else plainFrom .line rest
  | .opening, _ :: rest => plainFrom (.block false) rest
  | .block starred, c :: rest =>
    if starred && c = '/' then plainFrom .code rest else plainFrom (.block (c == '*')) rest

def plain (text : List Char) : List Char := plainFrom .code text

end ModuleLoader.Tsconfig
