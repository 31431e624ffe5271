import PushFeed.Url.Encoding
/-!
# Paths

A path is a list of segments. A segment of one dot means the place it stands at, one
of two dots the place before it; the path of a URL has neither.
-/

namespace PushFeed.Url

/-- Whether a segment is a dot, written out or escaped. -/
def isDot (segment : List Char) : Bool :=
  [".", "%2e", "%2E"].any fun s => s.toList == segment

/-- Whether a segment is two dots, each written out or escaped. -/
def isTwoDots (segment : List Char) : Bool :=
  ["..", "%2e%2e", "%2e%2E", "%2E%2e", "%2E%2E", "%2e.", "%2E.", ".%2e", ".%2E"].any
    fun s => s.toList == segment

/-- Whether a segment is a letter and a colon or bar, as the name of a drive is. -/
def isDrive : List Char → Bool
  | [letter, mark] => letter.isAlpha && (mark == ':' || mark == '|')
  | _ => false

/-- The segments before a place that is left upwards; a drive is not left. -/
def leaveSegment (before : List (List Char)) : List (List Char) :=
  match before.getLast? with
  | some last => if isDrive last then before else before.dropLast
  | none => []

/-- Where reading a path stands: the segments that a slash ends, and the one that is
being read. -/
structure PathParts where
  /-- The segments before. -/
  before : List (List Char)
  /-- The segment at the end. -/
  last : List Char

/-- The path after a slash. -/
def PathParts.endSegment (p : PathParts) : PathParts :=
  if isTwoDots p.last then ⟨leaveSegment p.before, []⟩
  else if isDot p.last then ⟨p.before, []⟩
  else ⟨p.before ++ [p.last], []⟩

/-- The path at the end of the text. -/
def PathParts.finish (p : PathParts) : PathParts :=
  if isTwoDots p.last then ⟨leaveSegment p.before, []⟩
  else if isDot p.last then ⟨p.before, []⟩
  else p

/-- The path after one more character; a backslash counts as a slash. -/
def PathParts.push (p : PathParts) (c : Char) : PathParts :=
  if c = '/' ∨ c = '\\' then p.endSegment
  else { p with last := p.last ++ encodedChar .path c }

/-- The path of a text that starts after its first slash. -/
def pathText (cs : List Char) : List Char :=
  let p := (cs.foldl PathParts.push ⟨[], []⟩).finish
  '/' :: (p.before.flatMap (· ++ ['/']) ++ p.last)

end PushFeed.Url
