import Mathlib.Data.List.Basic

/-!
# The receive queue (`js/buffer/DataBufferQueue.ts:28-96`)

A packet that does not fit drops the oldest one, and is pushed in any case.
The packets are of any type with a size; their time stamps are left out. One
call runs after another.

* `dequeue_enqueue`: what is pushed can be taken.
-/
namespace WebPlayer.L4

structure QueueStats where
  totalEnqueued : Nat := 0
  totalDequeued : Nat := 0
  totalOverflows : Nat := 0
  totalBytesEnqueued : Nat := 0
  totalBytesDequeued : Nat := 0
  totalBytesDropped : Nat := 0
  deriving DecidableEq, Repr

structure DataBufferQueue (α : Type) where
  maxSize : Nat
  maxBytes : Nat
  queue : List α := []
  currentBytes : Nat := 0
  stats : QueueStats := {}
  deriving DecidableEq, Repr

namespace DataBufferQueue
variable {α : Type} (size : α → Nat)

/-- The oldest packet goes. -/
def shift (q : DataBufferQueue α) : DataBufferQueue α :=
  match q.queue with
  | [] => q
  | dropped :: rest =>
    { q with
      queue := rest
      currentBytes := q.currentBytes - size dropped
      stats := { q.stats with
        totalOverflows := q.stats.totalOverflows + 1
        totalBytesDropped := q.stats.totalBytesDropped + size dropped } }

/-- mirrors js/buffer/DataBufferQueue.ts:47-74 -/
def enqueue (q : DataBufferQueue α) (packet : α) : DataBufferQueue α :=
  let q := if q.maxSize ≤ q.queue.length ∨ q.maxBytes < q.currentBytes + size packet then q.shift size else q
  { q with
    queue := q.queue ++ [packet]
    currentBytes := q.currentBytes + size packet
    stats := { q.stats with
      totalEnqueued := q.stats.totalEnqueued + 1
      totalBytesEnqueued := q.stats.totalBytesEnqueued + size packet } }

/-- mirrors js/buffer/DataBufferQueue.ts:76-87 -/
def dequeue (q : DataBufferQueue α) : Option (α × DataBufferQueue α) :=
  match q.queue with
  | [] => none
  | packet :: rest =>
    some (packet, { q with
      queue := rest
      currentBytes := q.currentBytes - size packet
      stats := { q.stats with
        totalDequeued := q.stats.totalDequeued + 1
        totalBytesDequeued := q.stats.totalBytesDequeued + size packet } })

def clear (q : DataBufferQueue α) : DataBufferQueue α := { q with queue := [], currentBytes := 0 }

/-- What is pushed can be taken. -/
theorem dequeue_enqueue (q : DataBufferQueue α) (packet : α) : ((q.enqueue size packet).dequeue size).isSome = true := by
  have hne : (q.enqueue size packet).queue ≠ [] := List.append_ne_nil_of_right_ne_nil _ (List.cons_ne_nil _ _)
  unfold dequeue
  split
  · rename_i h
    exact absurd h hne
  · rfl

end DataBufferQueue

end WebPlayer.L4
