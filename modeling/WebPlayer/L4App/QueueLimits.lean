import WebPlayer.Core.Lts
import WebPlayer.L4App.DataBufferQueue
import Mathlib.Algebra.GroupWithZero.Nat

/-!
# The limits of the receive queue

`enqueue` drops at most one packet, also when the bytes of one are not enough
for the new one. The number of packets is bounded all the same; the bytes are
bounded in exactly those runs where each new packet fits once the oldest one
is gone.

* `counts_reachable`: `currentBytes` is what the queued packets sum up to.
* `bytes_within_iff_makes_room`: the runs that stay within `maxBytes`.
-/
namespace WebPlayer.L4

/-- `QueueConfig`, with its optional fields. -/
structure QueueConfig where
  maxSize : Option Nat := none
  maxBytes : Option Nat := none
  deriving DecidableEq, Repr

/-- `value || fallback`: an absent value and zero are replaced. -/
def valueOr (value : Option Nat) (fallback : Nat) : Nat :=
  match value with
  | none | some 0 => fallback
  | some n => n

theorem valueOr_pos {n : Nat} (fallback : Nat) (h : 0 < n) : valueOr (some n) fallback = n := by
  cases n with
  | zero => omega
  | succ n => rfl

namespace DataBufferQueue
variable {α : Type} (size : α → Nat)

/-- The constructor.
mirrors js/buffer/DataBufferQueue.ts:33-45 -/
def new (config : QueueConfig) : DataBufferQueue α :=
  { maxSize := valueOr config.maxSize 100
    maxBytes := valueOr config.maxBytes (10 * 1024 * 1024) }

/-- mirrors js/buffer/DataBufferQueue.ts:89-91 -/
def peek (q : DataBufferQueue α) : Option α := q.queue.head?

/-- The calls on a queue. -/
inductive Op (α : Type)
  | enqueue (packet : α)
  | dequeue
  | peek
  | clear
  deriving DecidableEq, Repr

/-- What the call leaves of the queue. -/
def after (q : DataBufferQueue α) : Op α → DataBufferQueue α
  | .enqueue packet => q.enqueue size packet
  | .dequeue => match q.dequeue size with
    | none => q
    | some (_, q') => q'
  | .peek => q
  | .clear => q.clear

/-- No packet is larger than the queue may hold. -/
def Sendable (maxBytes : Nat) : Op α → Prop
  | .enqueue packet => size packet ≤ maxBytes
  | _ => True

/-- The runs of a queue from its construction. -/
def queues (maxSize maxBytes : Nat) : Core.Lts (DataBufferQueue α) (Op α) where
  init q := q = .new { maxSize := some maxSize, maxBytes := some maxBytes }
  step q op q' := Sendable size maxBytes op ∧ q' = q.after size op

/-! ## What one call does -/

/-- The limits are the configured ones and `currentBytes` counts the queue. -/
structure Counted (maxSize maxBytes : Nat) (q : DataBufferQueue α) : Prop where
  sizeLimit : q.maxSize = maxSize
  bytesLimit : q.maxBytes = maxBytes
  bytes : q.currentBytes = (q.queue.map size).sum
  length : q.queue.length ≤ maxSize

variable {size} {maxSize maxBytes : Nat}

theorem Counted.new (hs : 0 < maxSize) (hb : 0 < maxBytes) :
    Counted size maxSize maxBytes (.new { maxSize := some maxSize, maxBytes := some maxBytes }) :=
  ⟨valueOr_pos _ hs, valueOr_pos _ hb, rfl, Nat.zero_le _⟩

theorem Counted.shift {q : DataBufferQueue α} (h : Counted size maxSize maxBytes q) :
    Counted size maxSize maxBytes (q.shift size) := by
  obtain ⟨hs, hb, hc, hl⟩ := h
  unfold DataBufferQueue.shift
  split
  · exact ⟨hs, hb, hc, hl⟩
  · rename_i dropped rest hq
    simp only [hq, List.map_cons, List.sum_cons, List.length_cons] at hc hl
    exact ⟨hs, hb, by simp only; omega, by simp only; omega⟩

/-- A queue with a limit has a free place once it has been asked for one. -/
theorem length_shift (q : DataBufferQueue α) : (q.shift size).queue.length = q.queue.length - 1 := by
  unfold shift
  split <;> rename_i hq <;> simp [hq]

theorem currentBytes_shift (q : DataBufferQueue α) :
    (q.shift size).currentBytes = q.currentBytes - (q.queue.head?.map size).getD 0 := by
  unfold shift
  split <;> rename_i hq <;> simp [hq]

theorem Counted.enqueue {q : DataBufferQueue α} (hs : 0 < maxSize) (h : Counted size maxSize maxBytes q) (packet : α) :
    Counted size maxSize maxBytes (q.enqueue size packet) := by
  unfold DataBufferQueue.enqueue
  split
  · obtain ⟨hs', hb, hc, -⟩ := h.shift
    have hl : (q.shift size).queue.length = q.queue.length - 1 := length_shift q
    have hq := h.length
    exact ⟨hs', hb, by simp [hc], by simp only [List.length_append, List.length_singleton]; omega⟩
  · rename_i hno
    obtain ⟨hs', hb, hc, -⟩ := h
    exact ⟨hs', hb, by simp [hc], by simp only [List.length_append, List.length_singleton]; omega⟩

theorem Counted.dequeue {q q' : DataBufferQueue α} {packet : α} (h : Counted size maxSize maxBytes q)
    (hd : q.dequeue size = some (packet, q')) :
    Counted size maxSize maxBytes q' ∧ q'.currentBytes ≤ q.currentBytes := by
  unfold DataBufferQueue.dequeue at hd
  split at hd
  · simp at hd
  · rename_i first rest hq
    obtain ⟨rfl, rfl⟩ := by simpa using hd
    obtain ⟨hs, hb, hc, hl⟩ := h
    simp only [hq, List.map_cons, List.sum_cons, List.length_cons] at hc hl
    exact ⟨⟨hs, hb, by simp only; omega, by simp only; omega⟩, Nat.sub_le _ _⟩

theorem Counted.after {q : DataBufferQueue α} (hs : 0 < maxSize) (h : Counted size maxSize maxBytes q) (op : Op α) :
    Counted size maxSize maxBytes (q.after size op) := by
  cases op with
  | enqueue packet => exact h.enqueue hs packet
  | dequeue =>
    simp only [DataBufferQueue.after]
    split
    · exact h
    · rename_i hd
      exact (h.dequeue hd).1
  | peek => exact h
  | clear => exact ⟨h.sizeLimit, h.bytesLimit, rfl, Nat.zero_le _⟩

theorem counted_inductive (hs : 0 < maxSize) (hb : 0 < maxBytes) :
    (queues size maxSize maxBytes).Inductive (Counted size maxSize maxBytes) where
  init q hq := by
    subst hq
    exact Counted.new hs hb
  step q op q' h hstep := by
    obtain ⟨-, rfl⟩ := hstep
    exact h.after hs op

/-- **The counter.** In every reachable state `currentBytes` is the sum of the
queued sizes and the queue is no longer than `maxSize`. -/
theorem counts_reachable (hs : 0 < maxSize) (hb : 0 < maxBytes) {q : DataBufferQueue α}
    (h : (queues size maxSize maxBytes).Reachable q) : Counted size maxSize maxBytes q :=
  (counted_inductive hs hb).reachable h

/-! ## When the bytes stay within their limit -/

variable (size)

/-- A packet that is pushed finds room once the oldest packet is gone. -/
def MakesRoom (q : DataBufferQueue α) : Op α → Prop
  | .enqueue packet =>
    ∀ oldest, q.queue.head? = some oldest → q.currentBytes + size packet ≤ q.maxBytes + size oldest
  | _ => True

variable {size}

/-- From a queue within its limit, pushing keeps the limit exactly when the
oldest packet makes enough room. -/
theorem enqueue_within_iff {q : DataBufferQueue α} {packet : α} (h : Counted size maxSize maxBytes q)
    (hp : size packet ≤ maxBytes) :
    (q.enqueue size packet).currentBytes ≤ maxBytes ↔ q.MakesRoom size (.enqueue packet) := by
  obtain ⟨-, hb, hc, -⟩ := h
  cases hq : q.queue with
  | nil =>
    have h0 : q.currentBytes = 0 := by simp [hc, hq]
    have hle : (q.enqueue size packet).currentBytes ≤ maxBytes := by
      unfold enqueue
      split <;> simp [currentBytes_shift, h0, hp]
    simp [hle, MakesRoom, hq]
  | cons oldest rest =>
    simp only [hq, List.map_cons, List.sum_cons] at hc
    simp only [MakesRoom, hq, List.head?_cons, Option.some.injEq, forall_eq']
    unfold enqueue
    split
    · simp only [currentBytes_shift, hq, List.head?_cons, Option.map_some, Option.getD_some]
      omega
    · rename_i hno
      simp only [not_or, Nat.not_lt] at hno
      exact ⟨fun _ => by omega, fun _ => by simp only; omega⟩

theorem after_within_iff {q : DataBufferQueue α} {op : Op α} (h : Counted size maxSize maxBytes q)
    (hle : q.currentBytes ≤ maxBytes) (hop : Sendable size maxBytes op) :
    (q.after size op).currentBytes ≤ maxBytes ↔ q.MakesRoom size op := by
  cases op with
  | enqueue packet => exact enqueue_within_iff h hop
  | dequeue =>
    have hkept : (q.after size .dequeue).currentBytes ≤ maxBytes := by
      simp only [after]
      split
      · exact hle
      · rename_i hd
        exact Nat.le_trans (h.dequeue hd).2 hle
    simp [hkept, MakesRoom]
  | peek => simp [after, hle, MakesRoom]
  | clear => simp [after, clear, MakesRoom]

/-- **The limits of the queue.** However its calls are ordered, a queue never
holds more than `maxSize` packets; and the runs in which it is within
`maxBytes` after every call are the runs in which every packet that is pushed
has room once the oldest one is gone. -/
theorem bytes_within_iff_makes_room (size : α → Nat) {maxSize maxBytes : Nat} (hs : 0 < maxSize) (hb : 0 < maxBytes) :
    (∀ q : DataBufferQueue α, (queues size maxSize maxBytes).Reachable q → q.queue.length ≤ maxSize) ∧
    ∀ (ops : List (Op α)) (q : DataBufferQueue α),
      ((queues size maxSize maxBytes).within (·.currentBytes ≤ maxBytes)).Run
        (.new { maxSize := some maxSize, maxBytes := some maxBytes }) ops q ↔
      ((queues size maxSize maxBytes).restrict (MakesRoom size)).Run
        (.new { maxSize := some maxSize, maxBytes := some maxBytes }) ops q := by
  refine ⟨fun q h => (counts_reachable hs hb h).length, fun ops q => ?_⟩
  have hiff : ∀ q op q', Counted size maxSize maxBytes q ∧ q.currentBytes ≤ maxBytes →
      (queues size maxSize maxBytes).step q op q' → (q'.currentBytes ≤ maxBytes ↔ q.MakesRoom size op) := by
    rintro q op q' ⟨hq, hle⟩ ⟨hop, rfl⟩
    exact after_within_iff hq hle hop
  apply Core.Lts.run_within_iff (J := fun q => Counted size maxSize maxBytes q ∧ q.currentBytes ≤ maxBytes) hiff
  · intro q op q' hq hstep hroom
    exact ⟨(counted_inductive hs hb).step q op q' hq.1 hstep, (hiff q op q' hq hstep).mpr hroom⟩
  · exact ⟨Counted.new hs hb, Nat.zero_le _⟩

/-- A queue of ten bytes with packets of four, four and nine. -/
theorem bytes_within_iff_makes_room_three :
    0 < 8 ∧ 0 < 10 ∧ ((queues (α := Nat) id 8 10).within (·.currentBytes ≤ 10)).Run
      (.new { maxSize := some 8, maxBytes := some 10 }) [.enqueue 4, .dequeue, .enqueue 9]
      { maxSize := 8, maxBytes := 10, queue := [9], currentBytes := 9,
        stats := { totalEnqueued := 2, totalDequeued := 1, totalBytesEnqueued := 13, totalBytesDequeued := 4 } } := by
  refine ⟨by decide, by decide, ((bytes_within_iff_makes_room (α := Nat) id (by decide) (by decide)).2 _ _).mpr ?_⟩
  refine .cons ⟨⟨by simp [Sendable], rfl⟩, by simp [MakesRoom, new]⟩ ?_
  refine .cons ⟨⟨trivial, rfl⟩, trivial⟩ ?_
  exact .cons ⟨⟨by simp [Sendable], rfl⟩, by simp [MakesRoom, after, new, enqueue, dequeue, valueOr]⟩ (.nil _)

/-- Two packets of four bytes and one of ten: one packet goes, and the queue
holds fourteen of its ten bytes. -/
theorem bytes_beyond_limit :
    ¬ ∀ (maxSize maxBytes : Nat) (q : DataBufferQueue Nat), 0 < maxSize → 0 < maxBytes →
      (queues id maxSize maxBytes).Reachable q → q.currentBytes ≤ maxBytes := by
  intro h
  have hrun : (queues (α := Nat) id 8 10).Reachable
      (((new { maxSize := some 8, maxBytes := some 10 }).enqueue id 4 |>.enqueue id 4).enqueue id 10) :=
    ⟨_, [.enqueue 4, .enqueue 4, .enqueue 10], rfl,
      .cons ⟨by simp [Sendable], rfl⟩ (.cons ⟨by simp [Sendable], rfl⟩ (.cons ⟨by simp [Sendable], rfl⟩ (.nil _)))⟩
  exact absurd (h 8 10 _ (by decide) (by decide) hrun) (by decide)

end DataBufferQueue

end WebPlayer.L4
