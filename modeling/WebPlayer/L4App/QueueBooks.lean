import WebPlayer.Core.Bytes
import WebPlayer.L4App.QueueLimits
import Mathlib.Data.List.Perm.Basic

/-!
# The books of the receive queue

The queue at the packets of the source. A packet carries its size as a field:
`enqueue` computes it from the data and `dequeue` reads it, but a packet that
is dropped is measured again.

* `books_balance`: whatever is called, what was enqueued is what was dequeued,
  what was dropped and what is queued, and the counters say how much.
-/
namespace WebPlayer.L4.DataBufferQueue
open WebPlayer.Core

/-- `ArrayBuffer | Blob` -/
inductive BinaryData where
  | arrayBuffer (bytes : Bytes)
  | blob (bytes : Bytes)
  deriving DecidableEq, Repr

/-- `data instanceof ArrayBuffer ? data.byteLength : data.size` -/
def dataSize : BinaryData → Nat
  | .arrayBuffer bytes => bytes.length
  | .blob bytes => bytes.length

/-- mirrors js/buffer/DataBufferQueue.ts:1-5 -/
structure DataPacket where
  data : BinaryData
  timestamp : Nat
  size : Nat
  deriving DecidableEq, Repr

abbrev PacketQueue := DataBufferQueue DataPacket

/-- The packet for data that come at `now`. -/
def packetOf (data : BinaryData) (now : Nat) : DataPacket := { data, timestamp := now, size := dataSize data }

/-- `enqueue(data)`; the sizes are those of the data.
mirrors js/buffer/DataBufferQueue.ts:47-74 -/
def enqueueData (q : PacketQueue) (data : BinaryData) (now : Nat) : PacketQueue :=
  q.enqueue (fun packet => dataSize packet.data) (packetOf data now)

/-- `dequeue()`; the size is that of the packet.
mirrors js/buffer/DataBufferQueue.ts:76-87 -/
def dequeuePacket (q : PacketQueue) : Option (DataPacket × PacketQueue) := q.dequeue DataPacket.size

inductive Call where
  | enqueue (data : BinaryData) (now : Nat)
  | dequeue
  | peek
  deriving DecidableEq, Repr

/-- The queue after the calls, and the packets that `dequeue` returned. -/
def calls (q : PacketQueue) : List Call → PacketQueue × List DataPacket
  | [] => (q, [])
  | .enqueue data now :: rest => calls (q.enqueueData data now) rest
  | .dequeue :: rest =>
    match q.dequeuePacket with
    | none => calls q rest
    | some (packet, q') => ((calls q' rest).1, packet :: (calls q' rest).2)
  | .peek :: rest => calls q rest

/-- The packets that were enqueued. -/
def enqueued : List Call → List DataPacket
  | [] => []
  | .enqueue data now :: rest => packetOf data now :: enqueued rest
  | _ :: rest => enqueued rest

/-! ## What one call does to the books -/

def bytesOf (packets : List DataPacket) : Nat := (packets.map DataPacket.size).sum

@[simp] theorem bytesOf_nil : bytesOf [] = 0 := rfl

@[simp] theorem bytesOf_cons (packet : DataPacket) (packets : List DataPacket) :
    bytesOf (packet :: packets) = packet.size + bytesOf packets := by
  simp [bytesOf]

@[simp] theorem bytesOf_append (xs ys : List DataPacket) : bytesOf (xs ++ ys) = bytesOf xs + bytesOf ys := by
  simp [bytesOf]

theorem bytesOf_perm {xs ys : List DataPacket} (h : xs.Perm ys) : bytesOf xs = bytesOf ys := (h.map _).sum_nat

/-- The packets that came, went and got lost, beside the queue. -/
structure Books (q : PacketQueue) (came went lost : List DataPacket) : Prop where
  measured : ∀ packet ∈ q.queue, packet.size = dataSize packet.data
  order : (went ++ q.queue).Sublist came
  nothingElse : (went ++ q.queue ++ lost).Perm came
  currentBytes : q.currentBytes = bytesOf q.queue
  totalEnqueued : q.stats.totalEnqueued = came.length
  totalDequeued : q.stats.totalDequeued = went.length
  totalOverflows : q.stats.totalOverflows = lost.length
  totalBytesEnqueued : q.stats.totalBytesEnqueued = bytesOf came
  totalBytesDequeued : q.stats.totalBytesDequeued = bytesOf went
  totalBytesDropped : q.stats.totalBytesDropped = bytesOf lost

variable {q q' : PacketQueue} {came went lost : List DataPacket}

theorem Books.new (config : QueueConfig) : Books (.new config) [] [] [] := by
  constructor <;> simp [DataBufferQueue.new]

/-- The oldest packet gets lost, counted with the size of its data. -/
theorem Books.shift (h : Books q came went lost) :
    ∃ lost', Books (q.shift fun packet => dataSize packet.data) came went lost' := by
  unfold DataBufferQueue.shift
  split
  · exact ⟨lost, h⟩
  · rename_i dropped rest hq
    have hmeasured := h.measured
    have horder := h.order
    have hnothing := h.nothingElse
    have hbytes := h.currentBytes
    rw [hq] at hmeasured horder hnothing hbytes
    rw [bytesOf_cons] at hbytes
    have hsize : dataSize dropped.data = dropped.size := (hmeasured dropped List.mem_cons_self).symm
    refine ⟨dropped :: lost, { h with
      measured := ?_
      order := ?_
      nothingElse := ?_
      currentBytes := ?_
      totalOverflows := ?_
      totalBytesDropped := ?_ }⟩
    · exact fun packet hp => hmeasured packet (List.mem_cons_of_mem _ hp)
    · exact ((List.sublist_cons_self dropped rest).append_left went).trans horder
    · -- among the lost instead of the queued
      refine List.Perm.trans ?_ hnothing
      simp only [List.append_assoc, List.cons_append]
      exact List.perm_middle.append_left went
    · simp only [hsize]
      omega
    · simp [h.totalOverflows]
    · simp only [bytesOf_cons, h.totalBytesDropped, hsize]
      omega

/-- What is pushed came last. -/
theorem Books.push (h : Books q came went lost) (data : BinaryData) (now : Nat) :
    Books { q with
      queue := q.queue ++ [packetOf data now]
      currentBytes := q.currentBytes + dataSize data
      stats := { q.stats with
        totalEnqueued := q.stats.totalEnqueued + 1
        totalBytesEnqueued := q.stats.totalBytesEnqueued + dataSize data } } (came ++ [packetOf data now]) went lost := by
  refine { h with
    measured := ?_
    order := ?_
    nothingElse := ?_
    currentBytes := ?_
    totalEnqueued := ?_
    totalBytesEnqueued := ?_ }
  · intro packet hp
    rcases List.mem_append.mp hp with hp | hp
    · exact h.measured packet hp
    · rw [List.mem_singleton.mp hp]
      rfl
  · rw [← List.append_assoc]
    exact h.order.append_right [packetOf data now]
  · refine List.Perm.trans ?_ (h.nothingElse.append_right [packetOf data now])
    simp only [List.append_assoc]
    exact (List.perm_append_comm.append_left q.queue).append_left went
  · simp [h.currentBytes, packetOf]
  · simp [h.totalEnqueued]
  · simp [h.totalBytesEnqueued, packetOf]

theorem Books.enqueueData (h : Books q came went lost) (data : BinaryData) (now : Nat) :
    ∃ lost', Books (q.enqueueData data now) (came ++ [packetOf data now]) went lost' := by
  unfold DataBufferQueue.enqueueData DataBufferQueue.enqueue
  split
  · obtain ⟨lost', h'⟩ := h.shift
    exact ⟨lost', h'.push data now⟩
  · exact ⟨lost, h.push data now⟩

/-- The oldest packet goes, counted with its own size. -/
theorem Books.dequeuePacket {packet : DataPacket} (h : Books q came went lost) (hd : q.dequeuePacket = some (packet, q')) :
    Books q' came (went ++ [packet]) lost := by
  unfold DataBufferQueue.dequeuePacket DataBufferQueue.dequeue at hd
  split at hd
  · cases hd
  · rename_i first rest hq
    obtain ⟨rfl, rfl⟩ := by simpa using hd
    have hmeasured := h.measured
    have horder := h.order
    have hnothing := h.nothingElse
    have hbytes := h.currentBytes
    rw [hq] at hmeasured horder hnothing hbytes
    rw [bytesOf_cons] at hbytes
    refine { h with
      measured := ?_
      order := ?_
      nothingElse := ?_
      currentBytes := ?_
      totalDequeued := ?_
      totalBytesDequeued := ?_ }
    · exact fun packet hp => hmeasured packet (List.mem_cons_of_mem _ hp)
    · simpa using horder
    · simpa using hnothing
    · simp only
      omega
    · simp [h.totalDequeued]
    · simp [h.totalBytesDequeued]

/-! ## Whole runs -/

theorem Books.packets (h : Books q came went lost) :
    q.stats.totalEnqueued = q.stats.totalDequeued + q.stats.totalOverflows + q.queue.length := by
  have hlen := h.nothingElse.length_eq
  simp only [List.length_append] at hlen
  rw [h.totalEnqueued, h.totalDequeued, h.totalOverflows]
  omega

theorem Books.bytes (h : Books q came went lost) :
    q.stats.totalBytesEnqueued = q.stats.totalBytesDequeued + q.stats.totalBytesDropped + q.currentBytes := by
  have hbytes := bytesOf_perm h.nothingElse
  simp only [bytesOf_append] at hbytes
  rw [h.totalBytesEnqueued, h.totalBytesDequeued, h.totalBytesDropped, h.currentBytes]
  omega

theorem Books.calls (h : Books q came went lost) (cs : List Call) :
    ∃ lost', Books (q.calls cs).1 (came ++ enqueued cs) (went ++ (q.calls cs).2) lost' := by
  induction cs generalizing q came went lost with
  | nil => exact ⟨lost, by simpa [DataBufferQueue.calls, enqueued] using h⟩
  | cons c cs ih =>
    cases c with
    | enqueue data now =>
      obtain ⟨lost', h'⟩ := h.enqueueData data now
      obtain ⟨lost'', h''⟩ := ih h'
      exact ⟨lost'', by simpa [DataBufferQueue.calls, enqueued] using h''⟩
    | dequeue =>
      simp only [DataBufferQueue.calls, enqueued]
      split
      · exact ih h
      · rename_i packet q' hd
        obtain ⟨lost', h'⟩ := ih (h.dequeuePacket hd)
        exact ⟨lost', by simpa using h'⟩
    | peek => exact ih h

/-- **The books balance.** What is dequeued and what is queued come in the
order in which they were enqueued, and the other packets enqueued are as many
as were counted. -/
theorem books_balance (config : QueueConfig) (cs : List Call) :
    let q := (calls (.new config) cs).1
    let dequeued := (calls (.new config) cs).2
    (∃ missing, (dequeued ++ q.queue).Sublist (enqueued cs) ∧ (dequeued ++ q.queue ++ missing).Perm (enqueued cs) ∧
        missing.length = q.stats.totalOverflows) ∧
      q.currentBytes = bytesOf q.queue ∧
      q.stats.totalEnqueued = q.stats.totalDequeued + q.stats.totalOverflows + q.queue.length ∧
      q.stats.totalBytesEnqueued = q.stats.totalBytesDequeued + q.stats.totalBytesDropped + q.currentBytes := by
  intro q dequeued
  obtain ⟨lost, h⟩ := (Books.new config).calls cs
  simp only [List.nil_append] at h
  exact ⟨⟨lost, h.order, h.nothingElse, h.totalOverflows.symm⟩, h.currentBytes, h.packets, h.bytes⟩

end WebPlayer.L4.DataBufferQueue
