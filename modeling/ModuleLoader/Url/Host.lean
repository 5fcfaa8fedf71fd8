import ModuleLoader.Url.Address
import ModuleLoader.Url.Basic
import ModuleLoader.Url.Domain

/-! Hosts.  Special schemes have domains and numeric addresses; other schemes take almost any text
for a host. -/

namespace ModuleLoader.Url

/-- The text between the brackets of an IPv6 host, which starts with the first of them. -/
def bracketed? (text : List Char) : Option (List Char) :=
  match text.reverse with
  | ']' :: inner => some inner.reverse.tail
  | _ => none

/-- The host of brackets around an IPv6 address. -/
def ipv6Host (text : List Char) : Except UrlError UrlHost :=
  match (bracketed? text).bind ipv6Address? with
  | some groups => .ok (.ipv6 groups)
  | none => .error .invalidIpv6

def parseHost (text : List Char) : Except UrlError UrlHost :=
  if text.head? == some '[' then ipv6Host text
  else
    match asciiLabels? (decode text) with
    | none => .error .invalidDomain
    | some labels =>
      if labels == [[]] then .error .emptyHost
      else if endsInNumber labels then
        match ipv4Address? labels with
        | some address => .ok (.ipv4 address)
        | none => .error .invalidIpv4
      else .ok (.domain (String.ofList (['.'].intercalate labels)))

def isForbiddenInHost (c : Char) : Bool :=
  c == '\x00' || "\t\n\r #/:<>?@[\\]^|".toList.contains c

/-- The host of a scheme that is not special; an empty text is no host. -/
def parsePlainHost (text : List Char) : Except UrlError (Option UrlHost) :=
  if text.isEmpty then .ok none
  else if text.head? == some '[' then (ipv6Host text).map some
  else if text.any isForbiddenInHost then .error .invalidDomainCharacter
  else .ok (some (.domain (String.ofList (encode escapesControl text))))

end ModuleLoader.Url
