import PushFeed.Topic
/-!
# Streams kept batch by batch

A stream takes in its messages in batches. Where earlier messages stay, a batch is no
more than its messages one after the other (`foldl_apply_singletons`), so two batches
that follow each other are one batch (`apply_append`), and by induction so is every list
of them (`applyAll_of_retainsHistory`). Where the batches begin and end therefore leaves
no trace. A stream that keeps the last arrival only is its last batch, also when that one
is empty (`applyAll_keepLatest`).
-/

namespace PushFeed

namespace Retention

variable {α : Type} {r : Retention}

/-- The stream after batches of messages have arrived, one batch after the other. -/
def applyAll (r : Retention) (start : List α) (batches : List (List α)) : List α :=
  batches.foldl r.apply start

@[simp] theorem applyAll_nil (r : Retention) (start : List α) : r.applyAll start [] = start :=
  rfl

@[simp] theorem applyAll_cons (r : Retention) (start batch : List α)
    (batches : List (List α)) :
    r.applyAll start (batch :: batches) = r.applyAll (r.apply start batch) batches :=
  rfl

/-- Two batches that follow each other are one, where earlier messages stay. -/
theorem apply_append (hr : r.retainsHistory = true) (queue first second : List α) :
    r.apply queue (first ++ second) = r.apply (r.apply queue first) second := by
  cases r with
  | newestFirst => simp only [apply, List.reverse_append, List.append_assoc]
  | arrivalOrder => simp only [apply, List.append_assoc]
  | keepLatest => simp [retainsHistory] at hr

/-- An empty batch leaves such a stream as it is. -/
theorem apply_nil (hr : r.retainsHistory = true) (queue : List α) : r.apply queue [] = queue := by
  cases r with
  | newestFirst => simp only [apply, List.reverse_nil, List.nil_append]
  | arrivalOrder => simp only [apply, List.append_nil]
  | keepLatest => simp [retainsHistory] at hr

/-- Such a stream takes a batch in message by message: each goes to the front of the
stream, or each goes to its end. -/
theorem foldl_apply_singletons (hr : r.retainsHistory = true) (queue batch : List α) :
    batch.foldl (fun q m => r.apply q [m]) queue = r.apply queue batch := by
  induction batch generalizing queue with
  | nil => rw [List.foldl_nil, apply_nil hr]
  | cons m batch ih =>
    calc (m :: batch).foldl (fun q m => r.apply q [m]) queue
        = r.apply (r.apply queue [m]) batch := ih _
      _ = r.apply queue ([m] ++ batch) := (apply_append hr queue [m] batch).symm

/-- All batches together are one batch of all their messages. -/
theorem applyAll_of_retainsHistory (hr : r.retainsHistory = true) (start : List α)
    (batches : List (List α)) :
    r.applyAll start batches = r.apply start batches.flatten := by
  induction batches generalizing start with
  | nil => rw [applyAll_nil, List.flatten_nil, apply_nil hr]
  | cons batch batches ih => rw [applyAll_cons, ih, List.flatten_cons, apply_append hr]

/-- The last batch is all a stream of the latest arrival has. -/
theorem applyAll_keepLatest (start : List α) (batches : List (List α)) :
    keepLatest.applyAll start batches = batches.getLastD start := by
  induction batches generalizing start with
  | nil => rfl
  | cons batch batches ih =>
    rw [applyAll_cons, ih, List.getLastD_cons]
    rfl

/-- **A stream is told by its batches.** In arrival order they follow the start. With the
newest first they stand before it, reversed as a whole. Of the latest arrival the last
batch is there, or the start when nothing arrived. Where earlier messages stay, the same
messages in other batches give the same stream; and from nothing, the newest first is the
arrival order reversed. -/
theorem applyAll_account (start : List α) (batches : List (List α)) :
    arrivalOrder.applyAll start batches = start ++ batches.flatten ∧
    newestFirst.applyAll start batches = batches.flatten.reverse ++ start ∧
    keepLatest.applyAll start batches = batches.getLastD start ∧
    (∀ r : Retention, r.retainsHistory = true →
      ∀ regrouped : List (List α), regrouped.flatten = batches.flatten →
        r.applyAll start regrouped = r.applyAll start batches) ∧
    newestFirst.applyAll [] batches = (arrivalOrder.applyAll [] batches).reverse := by
  have harrival : ∀ queue : List α,
      arrivalOrder.applyAll queue batches = queue ++ batches.flatten := fun queue =>
    applyAll_of_retainsHistory rfl queue batches
  have hnewest : ∀ queue : List α,
      newestFirst.applyAll queue batches = batches.flatten.reverse ++ queue := fun queue =>
    applyAll_of_retainsHistory rfl queue batches
  refine ⟨harrival start, hnewest start, applyAll_keepLatest start batches, ?_, ?_⟩
  · intro r hr regrouped hsame
    rw [applyAll_of_retainsHistory hr, applyAll_of_retainsHistory hr, hsame]
  · rw [hnewest, harrival, List.append_nil, List.nil_append]

/-- Four messages in three batches, one of them empty, and again in two: with the newest
first the stream is the same, and of the latest arrival it is the last batch. -/
theorem applyAll_account_regrouped :
    newestFirst.applyAll [0] [[1], [2, 3, 4]] = newestFirst.applyAll [0] [[1, 2, 3], [], [4]] ∧
    newestFirst.applyAll [0] [[1, 2, 3], [], [4]] = [4, 3, 2, 1, 0] ∧
    keepLatest.applyAll [0] [[1], [2, 3, 4]] = [2, 3, 4] :=
  ⟨(applyAll_account [0] [[1, 2, 3], [], [4]]).2.2.2.1 .newestFirst rfl [[1], [2, 3, 4]] rfl,
    (applyAll_account [0] [[1, 2, 3], [], [4]]).2.1,
    (applyAll_account [0] [[1], [2, 3, 4]]).2.2.1⟩

end Retention

end PushFeed
