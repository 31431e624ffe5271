/-!
# Blank characters

The Unicode White_Space property, and trimming by it. Channel names, market ids
and settings are trimmed and checked with this set, not with the ASCII one.
-/

namespace PushFeed.Text

/-- The ranges of the White_Space property, both ends included. -/
def blankRanges : List (Nat × Nat) :=
  [(0x9, 0xd), (0x20, 0x20), (0x85, 0x85), (0xa0, 0xa0), (0x1680, 0x1680), (0x2000, 0x200a),
   (0x2028, 0x2029), (0x202f, 0x202f), (0x205f, 0x205f), (0x3000, 0x3000)]

/-- Whether a code point lies in one of the ranges. -/
def inRanges (ranges : List (Nat × Nat)) (n : Nat) : Bool :=
  ranges.any fun r => r.1 ≤ n && n ≤ r.2

/-- Whether a character has the White_Space property. -/
def isBlank (c : Char) : Bool := inRanges blankRanges c.toNat

/-- The text without the blank characters at its start. -/
def trimStart (s : List Char) : List Char := s.dropWhile isBlank

/-- The text without the blank characters at its end. -/
def trimEnd (s : List Char) : List Char := (s.reverse.dropWhile isBlank).reverse

/-- The text without the blank characters at its two ends. -/
def trim (s : String) : String := String.ofList (trimEnd (trimStart s.toList))

/-- The rest of a text after a beginning it has. -/
def dropPrefix? (head s : String) : Option String :=
  (head.toList.isPrefixOf? s.toList).map String.ofList

/-- The rest of a text before an ending it has. -/
def dropSuffix? (tail s : String) : Option String :=
  (tail.toList.isSuffixOf? s.toList).map String.ofList

/-- Whether a text begins so. -/
def hasPrefix (head s : String) : Bool := head.toList.isPrefixOf s.toList

/-- Whether a text ends so. -/
def hasSuffix (tail s : String) : Bool := tail.toList.isSuffixOf s.toList

/-- Whether one text occurs in another. -/
def occursIn (part : List Char) : List Char → Bool
  | [] => part.isPrefixOf []
  | c :: cs => part.isPrefixOf (c :: cs) || occursIn part cs

end PushFeed.Text
