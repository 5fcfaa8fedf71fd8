import ModuleLoader.Text.Split
import ModuleLoader.Text.Utf8

/-! Paths of files.  A path is a sequence of bytes; slashes cut it into pieces, of which empty ones
and single dots name nothing, except a dot at the front of a relative path. -/

namespace ModuleLoader

/-- The name of a file in its directory: bytes without slashes. -/
abbrev FileName := List UInt8

/-- The path of a file. -/
structure FilePath where
  bytes : List UInt8
  deriving DecidableEq

namespace FilePath

/-- The byte of the slash, which separates names. -/
def slash : UInt8 := 0x2F

def dot : UInt8 := 0x2E

def ofString (text : String) : FilePath := ⟨Text.Utf8.ofString text⟩

/-- The text of a path, with U+FFFD for bytes that are no text. -/
def text (p : FilePath) : String := String.ofList (Text.Utf8.decodeLossy p.bytes)

/-- The text that a path is, unless it has bytes that are no text. -/
def text? (p : FilePath) : Option String := if ofString p.text = p then some p.text else none

def isAbsolute (p : FilePath) : Bool := p.bytes.head? == some slash

/-- The pieces of a sequence of bytes between its slashes. -/
def pieces : List UInt8 → List FileName
  | [] => [[]]
  | b :: rest =>
    if b = slash then [] :: pieces rest
    else match pieces rest with
      | [] => [[b]]
      | piece :: more => (b :: piece) :: more

/-- The piece names nothing, wherever it stands behind a slash. -/
def isIdle (piece : FileName) : Bool := piece.isEmpty || piece == [dot]

/-- The pieces of a path behind its root, or behind the dot that a relative path may start with,
together with that front. -/
def body (p : FilePath) : Option FileName × List FileName :=
  match pieces p.bytes with
  | [] => (none, [])
  | first :: rest =>
    if p.isAbsolute then (some [], rest)
    else if first == [dot] then (some first, rest)
    else (none, first :: rest)

/-- The path with the given front and pieces. -/
def ofBody : Option FileName → List FileName → FilePath
  | none, rest => ⟨[slash].intercalate rest⟩
  | some [], rest => ⟨slash :: [slash].intercalate rest⟩
  | some front, [] => ⟨front⟩
  | some front, rest => ⟨front ++ slash :: [slash].intercalate rest⟩

/-- The pieces of a path that name something, behind its front. -/
def names (p : FilePath) : List FileName := p.body.2.filter fun piece => !isIdle piece

/-- Pieces without the idle ones at their end. -/
def dropIdleEnd (rest : List FileName) : List FileName := (rest.reverse.dropWhile isIdle).reverse

/-- The path without its last name and the idle pieces around it. -/
def parent? (p : FilePath) : Option FilePath :=
  let (front, rest) := p.body
  match dropIdleEnd rest with
  | [] => if front == some [dot] then some ⟨[]⟩ else none
  | used => some (ofBody front (dropIdleEnd used.dropLast))

/-- The last name of a path; two dots are no name of a file. -/
def fileName? (p : FilePath) : Option FileName :=
  match p.names.getLast? with
  | none => none
  | some name => if name == [dot, dot] then none else some name

/-- A file name cut at its last dot, unless the dot is the first byte. -/
def splitExtension (name : FileName) : FileName × Option FileName :=
  let ending := (name.reverse.takeWhile (· != dot)).reverse
  let stem := name.take (name.length - ending.length - 1)
  if ending.length = name.length || stem.isEmpty then (name, none) else (stem, some ending)

/-- The part of the file name before its extension. -/
def stem? (p : FilePath) : Option FileName := p.fileName?.map fun name => (splitExtension name).1

/-- What follows the last dot of the file name. -/
def extension? (p : FilePath) : Option FileName :=
  p.fileName?.bind fun name => (splitExtension name).2

/-- The path `q` as seen from `p`: `q` itself if it is absolute. -/
def join (p q : FilePath) : FilePath :=
  if q.isAbsolute then q
  else if p.bytes.isEmpty || p.bytes.getLast? == some slash then ⟨p.bytes ++ q.bytes⟩
  else ⟨p.bytes ++ slash :: q.bytes⟩

/-- The path followed by its parents, at most `fuel` of them. -/
def ancestorsWithin : Nat → FilePath → List FilePath
  | 0, p => [p]
  | fuel + 1, p =>
    match p.parent? with
    | none => [p]
    | some q => p :: ancestorsWithin fuel q

/-- The path followed by its parents up to the root, or up to the empty path. -/
def ancestors (p : FilePath) : List FilePath := ancestorsWithin (p.bytes.length + 1) p

/-- The path made absolute from the directory `base` without looking at any file: idle pieces go,
and a slash at the end stays. -/
def absolute (base p : FilePath) : FilePath :=
  let front : FilePath :=
    if p.isAbsolute then
      if p.bytes.take 2 == [slash, slash] && p.bytes[2]? != some slash then ⟨[slash, slash]⟩
      else ⟨[slash]⟩
    else base
  let whole := p.names.foldl (fun q name => q.join ⟨name⟩) front
  if p.bytes.getLast? == some slash then whole.join ⟨[]⟩ else whole

end FilePath

end ModuleLoader
