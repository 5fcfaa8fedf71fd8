/-! URLs as records of their parts, and the text that a record stands for. -/

namespace ModuleLoader

/-- The host of an authority. -/
inductive UrlHost where
  | domain (name : String)
  | ipv4 (address : Nat)
  | ipv6 (groups : List Nat)
  deriving DecidableEq

/-- What a URL has behind two slashes. -/
structure UrlAuthority where
  username : String := ""
  password : String := ""
  host : Option UrlHost := none
  port : Option Nat := none
  deriving DecidableEq

/-- The path of a URL: names that follow one slash each, or a text without structure, against which
no relative reference can be resolved. -/
inductive UrlPath where
  | segments (names : List String)
  | plain (text : String)
  deriving DecidableEq

/-- A URL whose parts are written as in its text, percent signs and all. -/
structure Url where
  scheme : String
  authority : Option UrlAuthority := none
  path : UrlPath
  query : Option String := none
  fragment : Option String := none
  deriving DecidableEq

/-- A reason for which a text is no URL. -/
inductive UrlError where
  | emptyHost
  | invalidDomain
  | invalidPort
  | invalidIpv4
  | invalidIpv6
  | invalidDomainCharacter
  | relativeWithoutBase
  | relativeToUnstructuredBase
  deriving DecidableEq

def UrlError.message : UrlError → String
  | .emptyHost => "empty host"
  | .invalidDomain => "invalid international domain name"
  | .invalidPort => "invalid port number"
  | .invalidIpv4 => "invalid IPv4 address"
  | .invalidIpv6 => "invalid IPv6 address"
  | .invalidDomainCharacter => "invalid domain character"
  | .relativeWithoutBase => "relative URL without a base"
  | .relativeToUnstructuredBase => "relative URL with a cannot-be-a-base base"

namespace UrlHost

def ipv4Text (address : Nat) : String :=
  ".".intercalate ([16777216, 65536, 256, 1].map fun unit => toString (address / unit % 256))

/-- The groups of an IPv6 address in hexadecimal digits. -/
def groupsText (groups : List Nat) : String :=
  ":".intercalate (groups.map fun group => String.ofList (Nat.toDigits 16 group))

/-- The first of the longest runs of zeros, as its start and its length. -/
def zeroRun (groups : List Nat) : Nat × Nat :=
  (List.range groups.length).foldl
    (fun best start =>
      let run := ((groups.drop start).takeWhile (· == 0)).length
      if best.2 < run then (start, run) else best)
    (0, 0)

/-- An IPv6 address with its longest run of two or more zeros left out. -/
def ipv6Text (groups : List Nat) : String :=
  let (start, length) := zeroRun groups
  if length < 2 then groupsText groups
  else groupsText (groups.take start) ++ "::" ++ groupsText (groups.drop (start + length))

def text : UrlHost → String
  | .domain name => name
  | .ipv4 address => ipv4Text address
  | .ipv6 groups => "[" ++ ipv6Text groups ++ "]"

end UrlHost

def UrlAuthority.text (a : UrlAuthority) : String :=
  a.username ++ (if a.password.isEmpty then "" else ":" ++ a.password) ++
    (if a.username.isEmpty && a.password.isEmpty then "" else "@") ++
    (a.host.map UrlHost.text).getD "" ++
    (match a.port with
      | none => ""
      | some port => ":" ++ toString port)

def UrlPath.toText : UrlPath → String
  | .segments names => String.join (names.map ("/" ++ ·))
  | .plain text => text

namespace Url

/-- A dot stands before a path that would otherwise read as an authority. -/
def dotBeforePath (u : Url) : String :=
  match u.authority, u.path with
  | none, .segments ("" :: _ :: _) => "/."
  | _, _ => ""

/-- The text of a URL without its query and fragment. -/
def textBeforeQuery (u : Url) : String :=
  u.scheme ++ ":" ++
    (match u.authority with
      | none => ""
      | some a => "//" ++ a.text) ++
    u.dotBeforePath ++ u.path.toText

def text (u : Url) : String :=
  u.textBeforeQuery ++
    (match u.query with
      | none => ""
      | some query => "?" ++ query) ++
    (match u.fragment with
      | none => ""
      | some fragment => "#" ++ fragment)

/-- The names of the path, if it has any. -/
def names? (u : Url) : Option (List String) :=
  match u.path with
  | .segments [] => none
  | .segments names => some names
  | .plain _ => none

def host? (u : Url) : Option UrlHost := u.authority.bind UrlAuthority.host

end Url

end ModuleLoader
