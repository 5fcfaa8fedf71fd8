/-! UTF-8: the bytes of a text, the text of bytes that encode one, and the closest text of bytes
that do not.  The decoder is a machine that reads one byte at a time. -/

namespace ModuleLoader.Text.Utf8

def encode (text : List Char) : List UInt8 := text.flatMap String.utf8EncodeChar

def ofString (text : String) : List UInt8 := encode text.toList

/-- A character of which some bytes are read: the bytes still owed, the value so far, and the
bounds of the next byte. -/
structure Pending where
  owed : Nat
  value : Nat
  low : UInt8
  high : UInt8

/-- What a byte leads to. -/
inductive Step where
  | character (c : Char)
  | malformed
  | pending (state : Pending)

/-- The step from between characters on the byte `b`. -/
def first (b : UInt8) : Step :=
  if b < 0x80 then .character (Char.ofNat b.toNat)
  else if b < 0xC2 then .malformed
  else if b < 0xE0 then .pending ⟨1, b.toNat - 0xC0, 0x80, 0xBF⟩
  else if b < 0xF0 then
    .pending ⟨2, b.toNat - 0xE0, if b = 0xE0 then 0xA0 else 0x80, if b = 0xED then 0x9F else 0xBF⟩
  else if b < 0xF5 then
    .pending ⟨3, b.toNat - 0xF0, if b = 0xF0 then 0x90 else 0x80, if b = 0xF4 then 0x8F else 0xBF⟩
  else .malformed

/-- The step inside a character on the byte `b`, which may be a byte that cannot stand here. -/
def Pending.next? (state : Pending) (b : UInt8) : Option Step :=
  if state.low ≤ b && b ≤ state.high then
    let value := state.value * 64 + (b.toNat - 0x80)
    if state.owed ≤ 1 then some (.character (Char.ofNat value))
    else some (.pending ⟨state.owed - 1, value, 0x80, 0xBF⟩)
  else none

/-- What a step completes, with `none` for a malformed part, and the character that it leaves
unfinished. -/
def Step.parts : Step → List (Option Char) × Option Pending
  | .character c => ([some c], none)
  | .malformed => ([none], none)
  | .pending state => ([], some state)

/-- What the byte `b` completes, and the character that it leaves unfinished. -/
def read (b : UInt8) : Option Pending → List (Option Char) × Option Pending
  | none => (first b).parts
  | some state =>
    match state.next? b with
    | some step => step.parts
    | none => (none :: (first b).parts.1, (first b).parts.2)

/-- The characters that bytes encode, with `none` for each malformed part: a byte that starts no
character, or the longest start of a character that is cut short. -/
def charactersFrom : Option Pending → List UInt8 → List (Option Char)
  | none, [] => []
  | some _, [] => [none]
  | pending, b :: rest => (read b pending).1 ++ charactersFrom (read b pending).2 rest

/-- The characters that bytes encode, with `none` for each malformed part. -/
def characters (bytes : List UInt8) : List (Option Char) := charactersFrom none bytes

/-- The text that bytes encode, if all of them encode one. -/
def decode? (bytes : List UInt8) : Option (List Char) := (characters bytes).mapM id

/-- The text that bytes encode, with U+FFFD for each malformed part. -/
def decodeLossy (bytes : List UInt8) : List Char :=
  (characters bytes).map fun c => c.getD '\uFFFD'

end ModuleLoader.Text.Utf8
