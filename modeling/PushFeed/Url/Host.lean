import PushFeed.Url.Domain
import PushFeed.Url.Address
/-!
# Hosts

What stands between the user and the port of a URL. Where the scheme gives hosts a
meaning, a host is an address or a domain; elsewhere it is any text without the
characters that end it.
-/

namespace PushFeed.Url

/-- Why a text is no URL. -/
inductive UrlFault where
  /-- There is no scheme, and nothing to be relative to. -/
  | relative
  | emptyHost
  /-- A domain with a character or label that none may have. -/
  | badDomain
  | badPort
  | badIpv4
  | badIpv6
  /-- A host of a scheme without rules of its own, with a character that ends hosts. -/
  | badHostCharacter
  deriving DecidableEq, Repr

/-- The text of a fault. -/
def UrlFault.message : UrlFault → String
  | .relative => "relative URL without a base"
  | .emptyHost => "empty host"
  | .badDomain => "invalid international domain name"
  | .badPort => "invalid port number"
  | .badIpv4 => "invalid IPv4 address"
  | .badIpv6 => "invalid IPv6 address"
  | .badHostCharacter => "invalid domain character"

/-- An address in brackets. -/
def bracketedHost (inner : List Char) : Except UrlFault (List Char) :=
  match inner.getLast? with
  | some ']' =>
    match ipv6? inner.dropLast with
    | some pieces => .ok ('[' :: ipv6Text pieces ++ [']'])
    | none => .error .badIpv6
  | _ => .error .badIpv6

/-- A host of a scheme that knows domains and addresses. -/
def specialHost : List Char → Except UrlFault (List Char)
  | '[' :: inner => bracketedHost inner
  | cs =>
    match (Wire.ofUtf8? (decodedBytes cs)).bind fun s => domainText? s.toList with
    | none => .error .badDomain
    | some [] => .error .emptyHost
    | some domain =>
      if endsInNumber domain then
        match ipv4? domain with
        | some n => .ok (ipv4Text n)
        | none => .error .badIpv4
      else .ok domain

/-- Characters that no host of another scheme holds. -/
def forbiddenInHost : List Char :=
  ['\x00', '\t', '\n', '\r', ' ', '#', '/', ':', '<', '>', '?', '@', '[', '\\', ']', '^', '|']

/-- A host of another scheme. -/
def opaqueHost : List Char → Except UrlFault (List Char)
  | '[' :: inner => bracketedHost inner
  | cs =>
    if cs.any forbiddenInHost.contains then .error .badHostCharacter
    else .ok (encoded .controls cs)

end PushFeed.Url
