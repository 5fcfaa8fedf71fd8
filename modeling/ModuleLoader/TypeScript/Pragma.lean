import ModuleLoader.Text.Split
import ModuleLoader.TypeScript.Token.Separator

/-! Comments that say how elements are made. -/

namespace ModuleLoader.TypeScript

/-- What comments say about the making of elements. -/
structure Pragmas where
  element : Option String := none
  fragment : Option String := none
  /-- Elements are made by functions that are imported for them. -/
  automatic : Option Bool := none
  source : Option String := none

namespace Pragmas

open Text

/-- The word behind a keyword and blanks, if the text starts with these. -/
def word? (keyword : String) (text : List Char) : Option String :=
  match after? keyword.toList text with
  | some (c :: rest) =>
    let isGap (c : Char) : Bool := c == ' ' || c == '\t'
    let word := (rest.dropWhile isGap).takeWhile fun c => !c.isWhitespace && c != '\x0B'
    if isGap c && !word.isEmpty then some (String.ofList word) else none
  | _ => none

/-- The pragmas with what a text behind an at sign says. -/
def read (p : Pragmas) (text : List Char) : Pragmas :=
  match word? "jsx" text, word? "jsxFrag" text, word? "jsxRuntime" text,
    word? "jsxImportSource" text with
  | some name, _, _, _ => { p with element := some name }
  | _, some name, _, _ => { p with fragment := some name }
  | _, _, some "automatic", _ => { p with automatic := some true }
  | _, _, some "classic", _ => { p with automatic := some false }
  | _, _, _, some source => { p with source := some source }
  | _, _, _, _ => p

/-- The pragmas with what the text of a comment says. -/
def readComment (p : Pragmas) : List Char → Pragmas
  | [] => p
  | c :: rest => (if c == '@' then p.read rest else p).readComment rest

/-- What comments say, of which the later ones count. -/
def ofComments (comments : List Comment) : Pragmas :=
  comments.foldl (fun p comment => p.readComment comment.text) {}

end Pragmas

end ModuleLoader.TypeScript
