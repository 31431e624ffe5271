import PushFeed.Text.Blank
import PushFeed.Url.Host
import PushFeed.Url.Path
/-!
# Reading URLs

`Url.parse` reads an absolute URL as browsers do: slashes may lean either way, tabs
and line breaks do not count, the host is brought to its normal form, a port that is
the scheme's own is left out, and dots in the path are resolved. A URL of a scheme
without rules of its own is only checked, not normalised.
-/

namespace PushFeed

/-- An absolute URL whose scheme has authorities of the usual form. -/
structure Url where
  /-- The scheme in lower case. -/
  scheme : String
  /-- User name and password, with their mark, as they stand before the host. -/
  userInfo : List Char
  /-- The host in its normal form. -/
  host : List Char
  /-- The port, unless it is the scheme's own. -/
  port : Option Nat
  /-- The path, from its first slash on. -/
  path : List Char
  /-- What follows a question mark. -/
  query : Option (List Char)
  /-- What follows a number sign. -/
  fragment : Option (List Char)
  deriving DecidableEq, Repr

namespace Url

/-- How a scheme reads what follows it. -/
inductive SchemeKind where
  /-- With a host, and rules for all parts. -/
  | special
  /-- Files, on a host or none. -/
  | file
  /-- No rules. -/
  | other
  deriving DecidableEq, Repr

/-- The kind of a scheme. -/
def schemeKind (scheme : String) : SchemeKind :=
  if ["http", "https", "ws", "wss", "ftp"].contains scheme then .special
  else if scheme = "file" then .file
  else .other

/-- The port a scheme uses by itself. -/
def defaultPort? (scheme : String) : Option Nat :=
  if scheme = "http" ∨ scheme = "ws" then some 80
  else if scheme = "https" ∨ scheme = "wss" then some 443
  else if scheme = "ftp" then some 21
  else none

/-- Whether a character is a control or the space. -/
def isEdge (c : Char) : Bool := decide (c.toNat ≤ 32)

/-- The text without what does not count: controls and spaces at its ends, tabs and
line breaks anywhere. -/
def relevant (cs : List Char) : List Char :=
  let inner := ((cs.dropWhile isEdge).reverse.dropWhile isEdge).reverse
  inner.filter fun c => c != '\t' && c != '\n' && c != '\r'

/-- Whether a scheme may hold a character. -/
def isSchemeChar (c : Char) : Bool := c.isAlphanum || c == '+' || c == '-' || c == '.'

/-- The scheme of a text in lower case, and what follows its colon. -/
def splitScheme? (cs : List Char) : Option (String × List Char) :=
  let scheme := cs.takeWhile isSchemeChar
  match cs.drop scheme.length with
  | ':' :: rest =>
    if scheme.head?.any Char.isAlpha then some (String.ofList (scheme.map Char.toLower), rest)
    else none
  | _ => none

/-- Whether a character ends an authority. -/
def endsAuthority (special : Bool) (c : Char) : Bool :=
  c == '/' || c == '?' || c == '#' || (special && c == '\\')

/-- What stands before and after the last at-sign of a text; none if it has none. -/
def splitAtSign? (cs : List Char) : Option (List Char × List Char) :=
  let host := (cs.reverse.takeWhile (· != '@')).reverse
  if host.length = cs.length then none
  else some (cs.take (cs.length - host.length - 1), host)

/-- User name and password as they stand before a host. -/
def userInfoText (cs : List Char) : List Char :=
  let user := encoded .userInfo (cs.takeWhile (· != ':'))
  let password := encoded .userInfo ((cs.dropWhile (· != ':')).drop 1)
  let text := user ++ (if password.isEmpty then [] else ':' :: password)
  if text.isEmpty then [] else text ++ ['@']

/-- The host of an authority and what follows it. A colon in brackets is part of the
host. -/
def splitHost : Bool → List Char → List Char × List Char
  | _, [] => ([], [])
  | bracketed, c :: rest =>
    if c = ':' ∧ !bracketed then ([], c :: rest)
    else
      let bracketed := if c = '[' then true else if c = ']' then false else bracketed
      let (host, rest) := splitHost bracketed rest
      (c :: host, rest)

/-- The port after a colon, unless it is the scheme's own. A backslash ends it. -/
def readPort (scheme : String) (cs : List Char) : Except UrlFault (Option Nat) :=
  let digits := cs.takeWhile (· != '\\')
  if !digits.all Char.isDigit then .error .badPort
  else
    let n := digits.foldl (fun acc c => acc * 10 + (c.toNat - 48)) 0
    if 65536 ≤ n then .error .badPort
    else if digits.isEmpty ∨ defaultPort? scheme = some n then .ok none
    else .ok (some n)

/-- Host and port of an authority. -/
def readHostAndPort (special : Bool) (scheme : String) (cs : List Char) :
    Except UrlFault (List Char × Option Nat) := do
  let (host, port) := splitHost false cs
  if special && host.isEmpty then .error .emptyHost
  let host ← if special then specialHost host else opaqueHost host
  match port with
  | [] => .ok (host, none)
  | _ :: digits =>
    if host.isEmpty then .error .emptyHost
    let port ← readPort scheme digits
    .ok (host, port)

/-- User, host and port of an authority; `last` says that nothing follows it. -/
def readAuthority (special : Bool) (scheme : String) (last : Bool) (cs : List Char) :
    Except UrlFault (List Char × List Char × Option Nat) := do
  match splitAtSign? cs with
  | none =>
    let (host, port) ← readHostAndPort special scheme cs
    .ok ([], host, port)
  | some (user, rest) =>
    let info := userInfoText user
    if rest.isEmpty && (!info.isEmpty || (user.isEmpty && !last)) then .error .emptyHost
    let (host, port) ← readHostAndPort special scheme rest
    .ok (info, host, port)

/-- Path, query and fragment of what follows an authority. -/
def splitTail (cs : List Char) : List Char × Option (List Char) × Option (List Char) :=
  let beforeFragment := cs.takeWhile (· != '#')
  let fragment := (cs.drop beforeFragment.length).tail?
  let path := beforeFragment.takeWhile (· != '?')
  let query := (beforeFragment.drop path.length).tail?
  (path, query, fragment)

/-- The URL of a scheme with rules, after its colon. -/
def readSpecial (scheme : String) (cs : List Char) : Except UrlFault Url := do
  let cs := cs.dropWhile fun c => c == '/' || c == '\\'
  let authority := cs.takeWhile fun c => !endsAuthority true c
  let (user, host, port) ← readAuthority true scheme (authority.length == cs.length) authority
  let (path, query, fragment) := splitTail (cs.drop authority.length)
  .ok
    { scheme := scheme
      userInfo := user
      host := host
      port := port
      path := pathText (path.drop 1)
      query := query.map (encoded .query)
      fragment := fragment.map (encoded .fragment) }

/-- Whether what follows the colon of a scheme without rules could be read. -/
def checkOther (scheme : String) (cs : List Char) : Except UrlFault Unit := do
  match cs with
  | '/' :: '/' :: rest =>
    let authority := rest.takeWhile fun c => !endsAuthority false c
    let _ ← readAuthority false scheme (authority.length == rest.length) authority
    .ok ()
  | _ => .ok ()

/-- Whether what follows the colon of the file scheme could be read. -/
def checkFile (cs : List Char) : Except UrlFault Unit := do
  let isSlash := fun (c : Char) => c == '/' || c == '\\'
  match cs with
  | a :: b :: rest =>
    if isSlash a && isSlash b then
      let host := rest.takeWhile fun c => !endsAuthority true c
      if host.isEmpty || isDrive host then .ok ()
      else
        let _ ← specialHost host
        .ok ()
    else .ok ()
  | _ => .ok ()

/-- What a text that is a URL turns out to be. -/
inductive Parsed where
  /-- A URL of a scheme with rules. -/
  | url (u : Url)
  /-- A URL of another scheme, of which nothing else is kept. -/
  | foreign (scheme : String)

/-- Reads an absolute URL. -/
def parse (text : List Char) : Except UrlFault Parsed := do
  match splitScheme? (relevant text) with
  | none => .error .relative
  | some (scheme, rest) =>
    match schemeKind scheme with
    | .special => (readSpecial scheme rest).map .url
    | .file => (checkFile rest).map fun () => .foreign scheme
    | .other => (checkOther scheme rest).map fun () => .foreign scheme

/-- The URL as text. -/
def text (u : Url) : String :=
  let mark (c : Char) : Option (List Char) → List Char
    | some cs => c :: cs
    | none => []
  u.scheme ++ String.ofList (':' :: '/' :: '/' :: (u.userInfo ++ u.host ++
    mark ':' (u.port.map (Nat.toDigits 10)) ++ u.path ++ mark '?' u.query ++
    mark '#' u.fragment))

end Url

end PushFeed
