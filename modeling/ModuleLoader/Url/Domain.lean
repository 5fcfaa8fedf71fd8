import ModuleLoader.Text.Composed
import ModuleLoader.Text.Direction
import ModuleLoader.Text.Joining
import ModuleLoader.Text.Split
import ModuleLoader.Text.Utf8
import ModuleLoader.Url.Punycode
import ModuleLoader.Url.Spelling

/-! Domain names in ASCII.  A name is spelled in plain lowercase characters, each of its labels is
checked, and a label with characters past ASCII becomes `xn--` with its punycode. -/

namespace ModuleLoader.Url

open Text

/-- ASCII characters that no domain name has: blanks, controls, and the marks that set off the parts
of a URL. -/
def isForbiddenInDomain (c : Char) : Bool :=
  c.toNat ≤ 0x20 || c == '\x7F' || "%#/:<>?@[\\]^|".toList.contains c

/-- A domain name has the character as it is. -/
def isPlain (c : Char) : Bool :=
  (respelled? c).isNone && !isForbiddenInDomain c && !isStrange c

/-- A character as a domain name spells it, if a domain name can have it. -/
def spelling? (c : Char) : Option (List Char) :=
  match respelled? c with
  | some text => some text
  | none => if isStrange c then none else some [c]

def plainText? (text : List Char) : Option (List Char) := do
  let plain := composed (← text.mapM spelling?).flatten
  if plain.any isForbiddenInDomain then none else some plain

/-! ## Labels -/

/-- The letters on both sides of a place in a text, the one before it read backwards, would join
each other there. -/
def joinsAcross (before after : List Char) : Bool :=
  (before.dropWhile isTransparent).head?.any joinsForward &&
    (after.dropWhile isTransparent).head?.any joinsBack

/-- The joiners in a text have their places: behind a mark that mutes a vowel, or, for the one that
keeps letters apart, between letters that would join.  What comes before the text is read
backwards. -/
def joinersFit (before : List Char) : List Char → Bool
  | [] => true
  | c :: rest =>
    let fits :=
      if c == '\u200C' || c == '\u200D' then
        before.head?.any (combiningClass · = 9) || (c == '\u200C' && joinsAcross before rest)
      else true
    fits && joinersFit (c :: before) rest

/-- The label starts with no mark and its joiners have their places. -/
def isLabel (label : List Char) : Bool := !label.head?.any isMark && joinersFit [] label

def punycodeFront : List Char := ['x', 'n', '-', '-']

/-- The most characters of a label that is written in punycode. -/
def longestLabel : Nat := 1000

/-- What a label in plain characters stands for.  Behind the front of punycode there is the punycode
of a plain text with characters past ASCII. -/
def labelText? (label : List Char) : Option (List Char) :=
  match after? punycodeFront label with
  | some code =>
    if code.length ≤ 2 * longestLabel && code.all (·.toNat < 128) then
      match Punycode.decode? code with
      | some text =>
        if text.any (128 ≤ ·.toNat) && text.all (fun c => isPlain c && c != '.') &&
            composed text = text && isLabel text then some text
        else none
      | none => none
    else none
  | none => if isLabel label then some label else none

/-! ## Direction -/

/-- The direction of the last character that is no mark. -/
def lastDirection? (label : List Char) : Option Direction :=
  ((label.map direction).reverse.dropWhile (· == .mark)).head?

/-- A label of a name with letters that are written from right to left: it runs in one direction,
begins with a letter and ends in one or in a digit. -/
def runsOneWay (label : List Char) : Bool :=
  let directions := label.map direction
  let last := lastDirection? label
  match directions.head? with
  | none => true
  | some .left =>
    directions.all (fun d => d != .right && d != .arabicNumber) &&
      (last == some .left || last == some .number)
  | some .right =>
    directions.all (· != .left) &&
      !(directions.contains .number && directions.contains .arabicNumber) &&
      (last == some .right || last == some .number || last == some .arabicNumber)
  | some _ => false

/-- Some character of the text is written from right to left. -/
def runsBack (text : List Char) : Bool :=
  text.any fun c => direction c == .right || direction c == .arabicNumber

/-! ## Names -/

def asciiLabel? (label : List Char) : Option (List Char) :=
  if label.all (·.toNat < 128) then some label
  else if label.length ≤ longestLabel then some (punycodeFront ++ Punycode.encode label)
  else none

/-- The labels of a domain name in ASCII, from the bytes of its text. -/
def asciiLabels? (bytes : List UInt8) : Option (List (List Char)) := do
  let labels := splitOn '.' (← plainText? (← Utf8.decode? bytes))
  let texts ← labels.mapM labelText?
  if texts.any runsBack && !texts.all runsOneWay then none
  labels.mapM asciiLabel?

end ModuleLoader.Url
