/-!
# The size of a text

How many bytes a text takes in UTF-8.
-/

namespace PushFeed.Text

/-- How many bytes the characters take in UTF-8. -/
def byteCount : List Char → Nat
  | [] => 0
  | c :: rest => c.utf8Size + byteCount rest

end PushFeed.Text
