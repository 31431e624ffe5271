/-!
# Powers of two and ten

The sizes of binary words and the steps of decimal places.
-/

namespace PushFeed

/-- A power of two. -/
abbrev twoTo (n : Nat) : Nat := Nat.pow 2 n

/-- A power of ten. -/
abbrev tenTo (n : Nat) : Nat := Nat.pow 10 n

/-- A power of 256, the size of so many bytes. -/
abbrev bytesTo (n : Nat) : Nat := Nat.pow 256 n

end PushFeed
