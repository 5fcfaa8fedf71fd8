import ModuleLoader.Text.Split
import ModuleLoader.Url.Encode

/-! The names of a hierarchical path.  Dots among them move up and down, and a drive letter, a
letter with a colon or a bar, is a root of its own in the paths of files. -/

namespace ModuleLoader.Url

/-- How a scheme treats its paths: as those of files, as hierarchies in which a backslash is a
slash, or as any other scheme. -/
inductive SchemeKind where
  | file
  | special
  | other
  deriving DecidableEq

def SchemeKind.ofScheme (scheme : String) : SchemeKind :=
  if scheme = "file" then .file
  else if ["http", "https", "ws", "wss", "ftp"].contains scheme then .special
  else .other

/-- The scheme has an authority of its own and reads backslashes as slashes. -/
def SchemeKind.isSpecial (kind : SchemeKind) : Bool := kind != .other

def SchemeKind.isSlash (kind : SchemeKind) (c : Char) : Bool :=
  c == '/' || (kind.isSpecial && c == '\\')

/-- The pieces of a path between its slashes. -/
def SchemeKind.pieces (kind : SchemeKind) (text : List Char) : List (List Char) :=
  Text.splitOn '/' (text.map fun c => if kind.isSlash c then '/' else c)

/-- The name stands for the directory that it is in. -/
def isSingleDot (name : String) : Bool := [".", "%2e", "%2E"].contains name

def isDoubleDot (name : String) : Bool :=
  ["..", "%2e%2e", "%2e%2E", "%2E%2e", "%2E%2E", "%2e.", "%2E.", ".%2e", ".%2E"].contains name

/-- A letter and a mark that together may be a drive. -/
def isDriveMark (letter mark : Char) : Bool := letter.isAlpha && (mark == ':' || mark == '|')

def isDrive : List Char → Bool
  | [letter, mark] => isDriveMark letter mark
  | _ => false

/-- The text is a drive letter with a colon. -/
def isColonDrive (name : String) : Bool :=
  match name.toList with
  | [letter, ':'] => letter.isAlpha
  | _ => false

/-- The text starts with a drive letter that is a whole name. -/
def startsWithDrive : List Char → Bool
  | [letter, mark] => isDriveMark letter mark
  | letter :: mark :: next :: _ => isDriveMark letter mark && "/\\?#".toList.contains next
  | _ => false

/-- Two dots do not remove a name that reads as a drive. -/
def isFixed (name : String) : Bool :=
  match name.toList with
  | [letter, mark] => isDriveMark letter mark
  | letter :: mark :: '\\' :: _ => isDriveMark letter mark
  | _ => false

/-- The names without the last one; the first of the list is the last name. -/
def removeLast : List String → List String
  | [] => []
  | last :: done => if isFixed last then last :: done else done

def writtenName (name : List Char) : String := String.ofList (encode escapesInPath name)

/-- The character is lost wherever a URL is read. -/
def isBreak (c : Char) : Bool := c == '\t' || c == '\n' || c == '\r'

def dropBreaks (text : List Char) : List Char := text.filter (!isBreak ·)

/-- A drive letter with a colon stands at the start of the piece, and a tab or newline keeps what
follows apart from it. -/
def breaksBehindDrive (piece : List Char) : Bool :=
  match piece.dropWhile isBreak with
  | letter :: rest =>
    match rest.dropWhile isBreak with
    | ':' :: next :: rest => letter.isAlpha && isBreak next && !(dropBreaks rest).isEmpty
    | _ => false
  | [] => false

/-- The names with one more that is not made of dots.  At the front of the path of a file, a bar
behind a drive letter becomes a colon, and what a tab or newline keeps apart from a drive is a name
of its own. -/
def pushName (kind : SchemeKind) (done : List String) (piece : List Char) : List String :=
  let name := dropBreaks piece
  if kind = .file && done.isEmpty then
    match name with
    | [letter, mark] =>
      [if isDriveMark letter mark then String.ofList [letter, ':'] else writtenName name]
    | _ =>
      if breaksBehindDrive piece then
        [writtenName (name.drop 2), String.ofList (name.take 2)]
      else [writtenName name]
  else writtenName name :: done

/-- The names after a piece that a slash follows. -/
def passPiece (kind : SchemeKind) (done : List String) (piece : List Char) : List String :=
  let name := writtenName (dropBreaks piece)
  if isDoubleDot name then removeLast done
  else if isSingleDot name then done
  else pushName kind done piece

/-- The names after the last piece: dots leave the path open with an empty name. -/
def lastPiece (kind : SchemeKind) (done : List String) (piece : List Char) : List String :=
  let name := writtenName (dropBreaks piece)
  let names := passPiece kind done piece
  if isDoubleDot name || isSingleDot name then "" :: names else names

/-- The names that pieces lead to from the names `done`, the last of which comes first. -/
def addPieces (kind : SchemeKind) : (done : List String) → List (List Char) → List String
  | done, [] => done.reverse
  | done, [piece] => (lastPiece kind done piece).reverse
  | done, piece :: rest => addPieces kind (passPiece kind done piece) rest

/-- The pieces lead from the names `done` to a drive at the front of the path. -/
def reachesDrive : (done : List String) → List (List Char) → Bool
  | _, [] => false
  | done, piece :: rest =>
    (done.isEmpty && isDrive (dropBreaks piece)) || reachesDrive (passPiece .file done piece) rest

/-- The names that pieces lead to from a drive that stays at the end of the names before them: the
first piece is written behind it unless it is made of dots. -/
def addBehindDrive (done : List String) (drive : String) : List (List Char) → List String
  | [] => (drive :: done).reverse
  | piece :: rest =>
    let written := writtenName (dropBreaks piece)
    let names :=
      if isDoubleDot written || isSingleDot written then drive :: done
      else (drive ++ written) :: done
    match rest with
    | [] => (if isSingleDot written then "" :: names else names).reverse
    | _ => addPieces .file names rest

/-- The path of a file starts with one slash. -/
def trimNames (names : List String) : List String :=
  match names.dropWhile String.isEmpty with
  | [] => [""]
  | names => names

end ModuleLoader.Url
