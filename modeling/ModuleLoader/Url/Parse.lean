import ModuleLoader.Url.Host
import ModuleLoader.Url.Names

/-! Reading URLs: absolute ones, and references that a base completes. -/

namespace ModuleLoader.Url

/-- The text without blanks and controls at its ends. -/
def trimEnds (text : List Char) : List Char :=
  let isEdge (c : Char) : Bool := c.toNat ≤ 0x20
  ((text.dropWhile isEdge).reverse.dropWhile isEdge).reverse

/-- A scheme in lowercase and the text behind its colon; `seen` is what is read of the scheme. -/
def schemeFrom? (seen : List Char) : List Char → Option (String × List Char)
  | [] => none
  | c :: rest =>
    if c = ':' then some (String.ofList seen, rest)
    else if c.isAlphanum || "+-.".toList.contains c then schemeFrom? (seen ++ [c.toLower]) rest
    else none

/-- The scheme that a text starts with and the text behind its colon. -/
def scheme? (text : List Char) : Option (String × List Char) :=
  match text with
  | c :: _ => if c.isAlpha then schemeFrom? [] text else none
  | [] => none

def endsPath (c : Char) : Bool := c == '?' || c == '#'

/-- The path at the start of a text, and the query and fragment behind it. -/
def splitPath (text : List Char) : List Char × List Char :=
  (text.takeWhile (!endsPath ·), text.dropWhile (!endsPath ·))

/-- The URL with the query and the fragment of a text that starts with their marks. -/
def withRest (u : Url) (rest : List Char) : Url :=
  let fragment (text : List Char) := String.ofList (encode escapesInFragment text)
  match dropBreaks rest with
  | '?' :: rest =>
    let escapes :=
      if (SchemeKind.ofScheme u.scheme).isSpecial then escapesInSpecialQuery else escapesInQuery
    let query := String.ofList (encode escapes (rest.takeWhile (· != '#')))
    match rest.dropWhile (· != '#') with
    | _ :: tail => { u with query := some query, fragment := some (fragment tail) }
    | [] => { u with query := some query, fragment := none }
  | _ :: rest => { u with query := none, fragment := some (fragment rest) }
  | [] => { u with query := none, fragment := none }

def withFragment (base : Url) (text : List Char) : Url :=
  { base with fragment := some (String.ofList (encode escapesInFragment (dropBreaks text))) }

/-- The user name and password of an authority. -/
def userInfo (text : List Char) : String × String :=
  let name := text.takeWhile (· != ':')
  let password := (text.dropWhile (· != ':')).tail
  (String.ofList (encode escapesInUser name), String.ofList (encode escapesInUser password))

/-- The host at the start of a text: it ends at a colon outside of brackets. -/
def takeHost (kind : SchemeKind) : (inBrackets : Bool) → List Char → List Char
  | _, [] => []
  | inBrackets, c :: rest =>
    if (c == ':' && !inBrackets) || kind.isSlash c || endsPath c then []
    else c :: takeHost kind (c == '[' || (inBrackets && c != ']')) rest

/-- The port that a scheme has when none is written. -/
def defaultPort? (scheme : String) : Option Nat :=
  if scheme = "http" || scheme = "ws" then some 80
  else if scheme = "https" || scheme = "wss" then some 443
  else if scheme = "ftp" then some 21
  else none

/-- The port behind a colon, unless it is the default, and the text behind it. -/
def takePort (scheme : String) (text : List Char) : Except UrlError (Option Nat × List Char) :=
  let digits := text.takeWhile Char.isDigit
  let rest := text.drop digits.length
  let ended := match rest with
    | [] => true
    | c :: _ => "/\\?#".toList.contains c
  match digitsValue? 10 digits with
  | some port =>
    if 65535 < port || !ended then .error .invalidPort
    else .ok (if digits.isEmpty || defaultPort? scheme = some port then none else some port, rest)
  | none => .error .invalidPort

/-- The host and the port at the start of a text, and the text behind them. -/
def takeHostAndPort (kind : SchemeKind) (scheme : String) (text : List Char) :
    Except UrlError (Option UrlHost × Option Nat × List Char) := do
  let hostText := takeHost kind false text
  let rest := text.drop hostText.length
  if kind.isSpecial && hostText.isEmpty then throw .emptyHost
  let host ← if kind.isSpecial then (parseHost hostText).map some else parsePlainHost hostText
  match rest with
  | ':' :: rest =>
    if host.isNone then throw .emptyHost
    let (port, rest) ← takePort scheme rest
    return (host, port, rest)
  | _ => return (host, none, rest)

def pathBehindAuthority (kind : SchemeKind) (text : List Char) : List String :=
  match text with
  | [] => if kind.isSpecial then [""] else []
  | c :: rest => addPieces kind [] (kind.pieces (if kind.isSlash c then rest else c :: rest))

/-- The URL of the text behind the two slashes that start an authority. -/
def parseAuthority (kind : SchemeKind) (scheme : String) (text : List Char) :
    Except UrlError Url := do
  let front := text.takeWhile fun c => !kind.isSlash c && !endsPath c
  let (user, hostText) := match Text.splitLast? '@' front with
    | some (user, host) => (some user, host ++ text.drop front.length)
    | none => (none, text)
  let (username, password) := userInfo (user.getD [])
  if user == some [] && hostText.head?.any (fun c => kind.isSlash c || endsPath c) then
    throw .emptyHost
  let (host, port, rest) ← takeHostAndPort kind scheme hostText
  if host.isNone && (username != "" || password != "") then throw .emptyHost
  let (path, rest) := splitPath rest
  return withRest
    { scheme
      authority := some { username, password, host, port }
      path := .segments (pathBehindAuthority kind path) }
    rest

/-- The URL of a file from its host and names. -/
def fileUrl (host : Option UrlHost) (names : List String) : Url :=
  { scheme := "file", authority := some { host }, path := .segments (trimNames names) }

/-- The host of a file between two slashes and the next; a drive letter there is no host. -/
def takeFileHost (text : List Char) : Except UrlError (Option UrlHost × List Char) := do
  let front := text.takeWhile fun c => !SchemeKind.file.isSlash c && !endsPath c
  let hostText := dropBreaks front
  if isDrive hostText then return (none, text)
  let rest := text.drop front.length
  if hostText.isEmpty then return (none, rest)
  let host ← parseHost hostText
  return (if host = .domain "localhost" then none else some host, rest)

/-- The URL of a file from the text behind two slashes.  A drive at the front of the path drops the
host. -/
def parseFileAuthority (text : List Char) : Except UrlError Url := do
  let (host, rest) ← takeFileHost text
  let (path, rest) := splitPath rest
  match host with
  | none => return withRest (fileUrl none (addPieces .file [] (SchemeKind.file.pieces path))) rest
  | some host =>
    let pieces := SchemeKind.file.pieces path.tail
    let kept := if reachesDrive [] pieces then none else some host
    return withRest (fileUrl kept (addPieces .file [] pieces)) rest

/-- The URL of a file from the text behind one slash: the host, or the drive, is that of the
base. -/
def parseFileRoot (base : Option Url) (text : List Char) : Url :=
  let (path, rest) := splitPath text
  let kept := if startsWithDrive (dropBreaks text) then none else base
  let drive := match kept.bind Url.names? with
    | some (first :: _) => if isColonDrive first then [first] else []
    | _ => []
  let host := if drive.isEmpty then kept.bind Url.host? else none
  withRest (fileUrl host (addPieces .file drive (SchemeKind.file.pieces path))) rest

/-- The URL of a file from the names of a base and the pieces of a path relative to it. -/
def fileNamesFrom (baseNames : List String) (pieces : List (List Char)) : List String :=
  match baseNames.reverse with
  | [] => addPieces .file [] pieces
  | last :: done =>
    if isColonDrive last then
      if done.isEmpty then addPieces .file [last] pieces else addBehindDrive done last pieces
    else addPieces .file done pieces

/-- The URL of a file from a text that starts with no slash. -/
def parseFileRelative (base : Option Url) (text : List Char) : Url :=
  let (path, rest) := splitPath text
  let pieces := SchemeKind.file.pieces path
  let alone := withRest (fileUrl none (addPieces .file [] pieces)) rest
  match base, text with
  | none, _ => alone
  | some base, [] => { base with fragment := none }
  | some base, '?' :: _ => withRest base text
  | some base, '#' :: rest => withFragment base rest
  | some base, _ =>
    if startsWithDrive (dropBreaks text) then alone
    else
      let names := fileNamesFrom (base.names?.getD []) pieces
      withRest { base with path := .segments (trimNames names) } rest

/-- The URL of a file from the text behind the scheme. -/
def parseFile (base : Option Url) (text : List Char) : Except UrlError Url :=
  let isSlash := SchemeKind.file.isSlash
  match text.dropWhile isBreak with
  | [] => .ok (parseFileRelative base [])
  | first :: rest =>
    if !isSlash first then .ok (parseFileRelative base (first :: rest))
    else
      match rest.dropWhile isBreak with
      | [] => .ok (parseFileRoot base [])
      | second :: tail =>
        if isSlash second then parseFileAuthority tail else .ok (parseFileRoot base rest)

/-- The URL of a reference without a scheme, against a base that is hierarchical and no file. -/
def parseRelative (kind : SchemeKind) (base : Url) (text : List Char) : Except UrlError Url :=
  match text with
  | [] => .ok { base with fragment := none }
  | '?' :: _ => .ok (withRest base text)
  | '#' :: rest => .ok (withFragment base rest)
  | c :: rest =>
    let isSlash (c : Char) : Bool := c == '/' || c == '\\'
    let under (done : List String) (text : List Char) : Url :=
      let (path, rest) := splitPath text
      withRest { base with path := .segments (addPieces kind done (kind.pieces path)) } rest
    if isSlash c then
      if rest.head?.any isSlash then
        match Text.after? ['/', '/'] text with
        | some tail => parseAuthority kind base.scheme tail
        | none => parseAuthority kind base.scheme (text.dropWhile isSlash)
      else .ok (under [] rest)
    else .ok (under (base.names?.getD []).reverse.tail text)

/-- The URL of the text behind a scheme. -/
def parseWithScheme (base : Option Url) (scheme : String) (behind : List Char) :
    Except UrlError Url :=
  let text := dropBreaks behind
  match SchemeKind.ofScheme scheme with
  | .file => parseFile (base.filter (·.scheme == "file")) behind
  | .special =>
    let isSlash (c : Char) : Bool := c == '/' || c == '\\'
    let slashes := (text.takeWhile isSlash).length
    match base.filter fun b => b.scheme == scheme && slashes < 2 with
    | some base => parseRelative .special base text
    | none => parseAuthority .special scheme (text.dropWhile isSlash)
  | .other =>
    match text with
    | '/' :: '/' :: rest => parseAuthority .other scheme rest
    | '/' :: rest =>
      let (path, rest) := splitPath rest
      .ok (withRest
        { scheme, path := .segments (addPieces .other [] (SchemeKind.other.pieces path)) } rest)
    | _ =>
      let (path, rest) := splitPath text
      .ok (withRest { scheme, path := .plain (String.ofList (encode escapesControl path)) } rest)

/-- The URL of a text, which a base completes if it has no scheme. -/
def parseAgainst (base : Option Url) (input : String) : Except UrlError Url :=
  let written := trimEnds input.toList
  let text := dropBreaks written
  match scheme? text, base with
  | some (scheme, _), _ => parseWithScheme base scheme (written.dropWhile (· != ':')).tail
  | none, none => .error .relativeWithoutBase
  | none, some base =>
    match text, base.path with
    | '#' :: rest, _ => .ok (withFragment base rest)
    | _, .plain _ => .error .relativeToUnstructuredBase
    | _, .segments _ =>
      match SchemeKind.ofScheme base.scheme with
      | .file => parseFile (some base) written
      | kind => parseRelative kind base text

def parse (input : String) : Except UrlError Url := parseAgainst none input

/-- The URL that a reference means in a document at `base`. -/
def join (base : Url) (reference : String) : Except UrlError Url :=
  parseAgainst (some base) reference

end ModuleLoader.Url
