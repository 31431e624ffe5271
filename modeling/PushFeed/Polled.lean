/-!
# Looks at what may not be there yet

Whoever waits for something looks once at a time: either there is nothing yet, or
there is an answer.
-/

namespace PushFeed

/-- The outcome of one look. -/
inductive Polled (α : Type) where
  /-- Nothing yet. -/
  | pending
  /-- The answer. -/
  | ready (answer : α)
  deriving DecidableEq, Repr

end PushFeed
