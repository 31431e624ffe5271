import PushFeed.Polled
/-!
# Watched values

A value that one side publishes anew now and then and the other side looks at. An
observer remembers the version it has seen, so it can tell whether there is news; it
sees the latest value only, however many there were in between. Once the publisher
is gone there will be no news any more.
-/

namespace PushFeed

/-- A value under watch. -/
structure Watched (α : Type) where
  /-- The latest value. -/
  value : α
  /-- How often a value has been published. -/
  version : Nat
  /-- Whether there may be more. -/
  isOpen : Bool

namespace Watched

variable {α : Type}

/-- Looks for news: `true` if there is some, which is then seen, `false` if there
will be none. -/
def changed (w : Watched α) (seen : Nat) : Polled Bool × Nat :=
  if w.version ≠ seen then (.ready true, w.version)
  else if w.isOpen then (.pending, seen)
  else (.ready false, seen)

/-- Looks for a value of the kind wanted, `none` if there will be none. What has been
looked at is seen, wanted or not. -/
def waitFor (w : Watched α) (wanted : α → Bool) : Polled (Option α) × Nat :=
  if wanted w.value then (.ready (some w.value), w.version)
  else if w.isOpen then (.pending, w.version)
  else (.ready none, w.version)

/-- Looks for the next value not seen yet, `none` if there will be none. -/
def next (w : Watched α) (seen : Nat) : Polled (Option α) × Nat :=
  if w.version ≠ seen then (.ready (some w.value), w.version)
  else if w.isOpen then (.pending, seen)
  else (.ready none, seen)

end Watched

end PushFeed
