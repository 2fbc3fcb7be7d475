import WebPlayer.L4App.QueueBooks
import WebPlayer.L4App.StreamInstance

/-!
# The data of a stream (`js/stream/StreamInstance.ts:272-335`)

What a stream instance does with the packets themselves: the queue, the
suspended `processQueue` loops with the packets they hold, and the calls of
`decoder.decode`. After a disconnect the old loop goes on beside a new one,
so two loops may take turns at one queue.

* `step_matches`: the stream instance is this, with sizes for packets.
* `decoded_in_order`: no packet is decoded twice, and ArrayBuffers are decoded
  in the order in which they came.
* `one_loop`: until a disconnect or close comes in between, one loop is
  suspended at most, and Blobs are decoded in order too.
-/
namespace WebPlayer.L4.Stream
open WebPlayer.Core WebPlayer.L4.DataBufferQueue

/-! ## The receiver -/

/-- Where a `processQueue` is suspended. -/
inductive Loop where
  | arrayBuffer (packet : DataPacket)
  | decode
  deriving DecidableEq, Repr

/-- `decoded` are the calls of `decode`, with the decoder. -/
structure Receiver where
  queue : PacketQueue
  processing : Bool := false
  decoder : Option Nat := none
  loops : List Loop := []
  decoded : List (Nat × DataPacket) := []

def isBlob : BinaryData → Bool
  | .blob _ => true
  | .arrayBuffer _ => false

namespace Receiver
variable (r : Receiver)

/-- mirrors js/stream/StreamInstance.ts:313-334 -/
def runQueue : Receiver :=
  match r.decoder, r.queue.dequeuePacket with
  | some d, some (packet, queue) =>
    if isBlob packet.data then { r with queue, loops := r.loops ++ [.arrayBuffer packet] }
    else { r with queue, loops := r.loops ++ [.decode], decoded := r.decoded ++ [(d, packet)] }
  | _, _ => { r with processing := false }

/-- mirrors js/stream/StreamInstance.ts:309-335 -/
def processQueue : Receiver := if r.processing then r else { r with processing := true }.runQueue

/-- A suspended loop goes on; without a decoder `decode` throws. -/
def resume (loop : Loop) (ok : Bool) : Receiver :=
  match loop, ok, r.decoder with
  | .arrayBuffer packet, true, some d => { r with loops := r.loops ++ [.decode], decoded := r.decoded ++ [(d, packet)] }
  | _, _, _ => r.runQueue

/-- mirrors js/stream/StreamInstance.ts:272-290 -/
def onData (data : BinaryData) (now : Nat) : Receiver := { r with queue := r.queue.enqueueData data now }.processQueue

/-- mirrors js/stream/StreamInstance.ts:95-126 -/
def disconnect : Receiver := { r with processing := false, decoder := none, queue := r.queue.clear }

/-- mirrors js/stream/StreamInstance.ts:265-268 -/
def onclose : Receiver := { r with processing := false }

end Receiver

inductive DataEvent where
  | data (data : BinaryData) (now : Nat)
  | decoder (id : Nat)
  | disconnect
  | onclose
  | resume (i : Nat) (ok : Bool)
  deriving DecidableEq, Repr

def dataStep (r : Receiver) : DataEvent → Option Receiver
  | .data data now => some (r.onData data now)
  | .decoder id => some { r with decoder := some id }
  | .disconnect => some r.disconnect
  | .onclose => some r.onclose
  | .resume i ok => r.loops[i]?.map fun loop => { r with loops := r.loops.eraseIdx i }.resume loop ok

def receiver (config : QueueConfig) : Lts Receiver DataEvent := .ofFn (· = { queue := .new config }) dataStep

/-- The packets that came. -/
def arrivals (es : List DataEvent) : List DataPacket :=
  es.filterMap fun
    | .data data now => some (packetOf data now)
    | _ => none

/-- The packets that are queued when the stream is disconnected. -/
def clearedAt (r : Receiver) (e : DataEvent) : Nat := if e = .disconnect then r.queue.queue.length else 0

/-- And in a whole run. -/
def clearedIn (r : Receiver) : List DataEvent → Nat
  | [] => 0
  | e :: es => clearedAt r e + ((dataStep r e).map (clearedIn · es)).getD 0

/-! ## The stream instance -/

def erasePacket (packet : DataPacket) : Packet where
  size := packet.size
  isBlob := isBlob packet.data

def eraseQueue (q : PacketQueue) : DataBufferQueue Packet where
  maxSize := q.maxSize
  maxBytes := q.maxBytes
  queue := q.queue.map erasePacket
  currentBytes := q.currentBytes
  stats := q.stats

def eraseLoop : Loop → QueueAwait
  | .arrayBuffer _ => .arrayBuffer
  | .decode => .decode

/-- The stream instance has the data of the receiver. -/
structure Matches (r : Receiver) (s : StreamInstance) : Prop where
  measured : ∀ packet ∈ r.queue.queue, packet.size = dataSize packet.data
  queue : s.queue = eraseQueue r.queue
  processing : s.processing = r.processing
  decoder : s.decoder.map (·.id) = r.decoder
  loops : s.queueRuns = r.loops.map eraseLoop

/-- What an event of the stream instance is for its receiver; a packet may
have any content of its size. -/
inductive Drives (s : StreamInstance) : Event → List DataEvent → Prop where
  | data {k : Nat} {packet : Packet} {created : Bool} {data : BinaryData} {now : Nat}
      (hpacket : erasePacket (packetOf data now) = packet) :
      Drives s (.onmessage k (.binary packet) created) [.data data now]
  | offer {k : Nat} {offer : Offer} (hnew : (s.sockets k).negotiated = false) :
      Drives s (.onmessage k (.text (some offer)) true) [.decoder s.decoders]
  | failed {k : Nat} {offer : Offer} (hnew : (s.sockets k).negotiated = false) :
      Drives s (.onmessage k (.text (some offer)) false) []
  | late {k : Nat} {offer : Option Offer} {created : Bool} (hold : (s.sockets k).negotiated = true ∨ offer = none) :
      Drives s (.onmessage k (.text offer) created) []
  | disconnect : Drives s .disconnect [.disconnect]
  | onclose (k : Nat) : Drives s (.onclose k) [.onclose]
  | resumeQueue (i : Nat) (ok : Bool) : Drives s (.resumeQueue i ok) [.resume i ok]
  | connect : Drives s .connect []
  | onopen (k : Nat) : Drives s (.onopen k) []
  | peerCloses (k : Nat) : Drives s (.peerCloses k) []
  | onerror (k : Nat) : Drives s (.onerror k) []
  | resume (i : Nat) (ok : Bool) : Drives s (.resume i ok) []

section
variable {r : Receiver} {s s' : StreamInstance} {q : PacketQueue}

theorem erase_enqueue (hq : ∀ packet ∈ q.queue, packet.size = dataSize packet.data) (data : BinaryData) (now : Nat) :
    eraseQueue (q.enqueueData data now) = (eraseQueue q).enqueue Packet.size (erasePacket (packetOf data now)) := by
  unfold enqueueData enqueue
  have hlen : (eraseQueue q).queue.length = q.queue.length := List.length_map ..
  have hshift : eraseQueue (q.shift fun packet => dataSize packet.data) = (eraseQueue q).shift Packet.size := by
    unfold DataBufferQueue.shift eraseQueue
    cases hqueue : q.queue with
    | nil => simp [hqueue]
    | cons first rest =>
      have hfirst : first.size = dataSize first.data := hq first (by simp [hqueue])
      simp [erasePacket, hfirst]
  have hroom : (q.maxSize ≤ q.queue.length ∨ q.maxBytes < q.currentBytes + dataSize (packetOf data now).data) ↔
      ((eraseQueue q).maxSize ≤ (eraseQueue q).queue.length ∨
        (eraseQueue q).maxBytes < (eraseQueue q).currentBytes + (erasePacket (packetOf data now)).size) := by
    rw [hlen]
    rfl
  by_cases hfull : q.maxSize ≤ q.queue.length ∨ q.maxBytes < q.currentBytes + dataSize (packetOf data now).data
  · simp only [if_pos hfull, if_pos (hroom.mp hfull), ← hshift]
    simp [eraseQueue, erasePacket, packetOf]
  · simp only [if_neg hfull, if_neg (mt hroom.mpr hfull)]
    simp [eraseQueue, erasePacket, packetOf]

theorem erase_dequeue (q : PacketQueue) :
    (eraseQueue q).dequeue Packet.size = q.dequeuePacket.map fun x => (erasePacket x.1, eraseQueue x.2) := by
  unfold dequeuePacket dequeue eraseQueue
  cases q.queue <;> simp [erasePacket]

/-- What `Matches` is about. -/
theorem Matches.of_same (h : Matches r s) (hqueue : s'.queue = s.queue) (hprocessing : s'.processing = s.processing)
    (hdecoder : s'.decoder.map (·.id) = s.decoder.map (·.id)) (hruns : s'.queueRuns = s.queueRuns) : Matches r s' :=
  ⟨h.measured, hqueue.trans h.queue, hprocessing.trans h.processing, hdecoder.trans h.decoder, hruns.trans h.loops⟩

theorem dequeue_measured {packet : DataPacket} {q' : PacketQueue} (hq : ∀ p ∈ q.queue, p.size = dataSize p.data)
    (hd : q.dequeuePacket = some (packet, q')) : ∀ p ∈ q'.queue, p.size = dataSize p.data := by
  unfold dequeuePacket dequeue at hd
  split at hd
  · cases hd
  · rename_i first rest hqueue
    cases hd
    exact fun p hp => hq p (by simp [hqueue, hp])

theorem enqueue_measured (hq : ∀ p ∈ q.queue, p.size = dataSize p.data) (data : BinaryData) (now : Nat) :
    ∀ p ∈ (q.enqueueData data now).queue, p.size = dataSize p.data := by
  have hpush : ∀ {ps : List DataPacket}, (∀ p ∈ ps, p.size = dataSize p.data) →
      ∀ p ∈ ps ++ [packetOf data now], p.size = dataSize p.data := by
    intro ps hps p hp
    rcases List.mem_append.mp hp with hp | hp
    · exact hps p hp
    · rw [List.mem_singleton.mp hp]
      rfl
  unfold enqueueData enqueue
  split
  · refine hpush fun p hp => ?_
    unfold DataBufferQueue.shift at hp
    split at hp
    · exact hq p hp
    · rename_i dropped rest hqueue
      exact hq p (by simp [hqueue, show p ∈ rest from hp])
  · exact hpush hq

theorem runQueue_matches (h : Matches r s) : Matches r.runQueue s.runQueue := by
  have hdeq := erase_dequeue r.queue
  rw [← h.queue] at hdeq
  have hdec := h.decoder
  unfold Receiver.runQueue StreamInstance.runQueue
  cases hs : s.decoder with
  | none =>
    rw [hs, Option.map_none] at hdec
    rw [← hdec]
    exact ⟨h.measured, h.queue, rfl, rfl, h.loops⟩
  | some d =>
    rw [hs, Option.map_some] at hdec
    rw [← hdec, hdeq]
    cases hq : r.queue.dequeuePacket with
    | none => exact ⟨h.measured, h.queue, rfl, rfl, h.loops⟩
    | some x =>
      obtain ⟨packet, queue⟩ := x
      have hmeasured := dequeue_measured h.measured hq
      simp only [Option.map_some]
      cases hb : isBlob packet.data with
      | true =>
        refine ⟨hmeasured, rfl, h.processing, rfl, ?_⟩
        simp [h.loops, erasePacket, hb, eraseLoop]
      | false =>
        refine ⟨hmeasured, rfl, h.processing, rfl, ?_⟩
        simp [h.loops, erasePacket, hb, eraseLoop]

theorem processQueue_matches (h : Matches r s) : Matches r.processQueue s.processQueue := by
  unfold Receiver.processQueue StreamInstance.processQueue
  rw [h.processing]
  split
  · exact h
  · exact runQueue_matches ⟨h.measured, h.queue, rfl, h.decoder, h.loops⟩

theorem resume_matches (h : Matches r s) (loop : Loop) (ok : Bool) :
    Matches (r.resume loop ok) (s.resumeQueue (eraseLoop loop) ok) := by
  have hdec := h.decoder
  cases loop with
  | decode => exact runQueue_matches h
  | arrayBuffer packet =>
    unfold Receiver.resume StreamInstance.resumeQueue
    cases ok with
    | false => simpa [eraseLoop] using runQueue_matches h
    | true =>
      cases hs : s.decoder with
      | none =>
        rw [hs, Option.map_none] at hdec
        simpa [eraseLoop, hs, ← hdec] using runQueue_matches h
      | some d =>
        rw [hs, Option.map_some] at hdec
        simp only [eraseLoop, ← hdec]
        refine ⟨h.measured, h.queue, h.processing, rfl, ?_⟩
        simp [h.loops, eraseLoop]

/-- The parts of the stream instance that are not about data. -/
structure SameData (s s' : StreamInstance) : Prop where
  queue : s'.queue = s.queue
  processing : s'.processing = s.processing
  decoder : s'.decoder.map (·.id) = s.decoder.map (·.id)
  queueRuns : s'.queueRuns = s.queueRuns

theorem SameData.refl (s : StreamInstance) : SameData s s := ⟨rfl, rfl, rfl, rfl⟩

theorem SameData.trans {s₁ : StreamInstance} (h : SameData s s₁) (h' : SameData s₁ s') : SameData s s' :=
  ⟨h'.queue.trans h.queue, h'.processing.trans h.processing, h'.decoder.trans h.decoder, h'.queueRuns.trans h.queueRuns⟩

theorem SameData.matches (hs : SameData s s') (h : Matches r s) : Matches r s' :=
  h.of_same hs.queue hs.processing hs.decoder hs.queueRuns

theorem send_data (s : StreamInstance) (answer : Answer) : SameData s (s.send answer) := by
  unfold StreamInstance.send
  split
  · exact .refl s
  · split <;> exact ⟨rfl, rfl, rfl, rfl⟩

theorem reject_data (s : StreamInstance) (k : Nat) : SameData s (s.reject k) := by
  unfold StreamInstance.reject
  split <;> exact ⟨rfl, rfl, rfl, rfl⟩

theorem refuse_data (s : StreamInstance) (k : Nat) : SameData s (s.refuse k) := by
  unfold StreamInstance.refuse
  split
  · exact (send_data s .rejected).trans (reject_data _ k)
  · exact .refl s

theorem accept_data (s : StreamInstance) (k : Nat) : SameData s (s.accept k) := by
  unfold StreamInstance.accept
  split
  · obtain ⟨hqueue, hprocessing, hdecoder, hruns⟩ := send_data s .accepted
    exact ⟨hqueue, hprocessing, hdecoder, hruns⟩
  · exact refuse_data s k

theorem resume_data (s : StreamInstance) (h : Handler) (ok : Bool) : SameData s (s.resume h ok) := by
  unfold StreamInstance.resume StreamInstance.initAudio
  split
  · split
    · exact ⟨rfl, rfl, rfl, rfl⟩
    · exact accept_data s _
  · exact ⟨rfl, rfl, postAudio_id .., rfl⟩
  · exact accept_data s _
  · exact refuse_data s _

/-- **The stream instance does what the receiver does**, whatever the content
of the packets. -/
theorem step_matches {config : QueueConfig} {e : Event} (hstep : step s e = some s') (h : Matches r s) {es : List DataEvent}
    (hes : Drives s e es) : ∃ r', (receiver config).Run r es r' ∧ Matches r' s' := by
  have hone : ∀ {e r'}, dataStep r e = some r' → (receiver config).Run r [e] r' := fun hr => .cons hr (.nil _)
  cases hes with
  | @data k packet created data now hpacket =>
    simp only [step, Option.ite_none_right_eq_some, Option.some.injEq] at hstep
    obtain ⟨-, rfl⟩ := hstep
    refine ⟨_, hone rfl, processQueue_matches ⟨enqueue_measured h.measured data now, ?_, h.processing, h.decoder, h.loops⟩⟩
    rw [erase_enqueue h.measured, hpacket, h.queue]
  | @offer k offer hnew =>
    simp only [step, Option.ite_none_right_eq_some, Option.some.injEq] at hstep
    obtain ⟨-, rfl⟩ := hstep
    refine ⟨_, hone rfl, ?_⟩
    simp only [StreamInstance.onmessage, hnew, StreamInstance.onOffer, StreamInstance.initDecoder]
    exact ⟨h.measured, h.queue, h.processing, rfl, h.loops⟩
  | @failed k offer hnew =>
    simp only [step, Option.ite_none_right_eq_some, Option.some.injEq] at hstep
    obtain ⟨-, rfl⟩ := hstep
    refine ⟨r, .nil r, ?_⟩
    simp only [StreamInstance.onmessage, hnew, StreamInstance.onOffer, StreamInstance.initDecoder]
    exact h.of_same rfl rfl rfl rfl
  | @late k offer created hold =>
    simp only [step, Option.ite_none_right_eq_some, Option.some.injEq] at hstep
    obtain ⟨-, rfl⟩ := hstep
    have hsame : s.onmessage k (.text offer) created = s := by
      unfold StreamInstance.onmessage
      rcases hold with hneg | rfl
      · simp [hneg]
      · simp
    rw [hsame]
    exact ⟨r, .nil r, h⟩
  | disconnect =>
    cases hstep
    refine ⟨_, hone rfl, ?_⟩
    unfold StreamInstance.disconnect
    cases s.ws <;> exact ⟨List.forall_mem_nil _, by rw [h.queue]; rfl, rfl, rfl, h.loops⟩
  | onclose k =>
    simp only [step, Option.ite_none_right_eq_some, Option.some.injEq] at hstep
    obtain ⟨-, rfl⟩ := hstep
    exact ⟨_, hone rfl, h.measured, h.queue, rfl, h.decoder, h.loops⟩
  | resumeQueue i ok =>
    simp only [step, Option.map_eq_some_iff, h.loops, List.getElem?_map] at hstep
    obtain ⟨await, ⟨loop, hloop, rfl⟩, rfl⟩ := hstep
    have hrest : Matches { r with loops := r.loops.eraseIdx i }
        { s with queueRuns := (r.loops.map eraseLoop).eraseIdx i } :=
      ⟨h.measured, h.queue, h.processing, h.decoder, List.eraseIdx_map ..⟩
    refine ⟨_, hone ?_, resume_matches hrest loop ok⟩
    simp [dataStep, hloop]
  | connect =>
    cases hstep
    refine ⟨r, .nil r, h.of_same ?_ ?_ ?_ ?_⟩ <;> (unfold StreamInstance.connect; split <;> rfl)
  | onopen k =>
    simp only [step, Option.ite_none_right_eq_some, Option.some.injEq] at hstep
    obtain ⟨-, rfl⟩ := hstep
    exact ⟨r, .nil r, h.of_same rfl rfl rfl rfl⟩
  | peerCloses k =>
    simp only [step, Option.ite_none_right_eq_some, Option.some.injEq] at hstep
    obtain ⟨-, rfl⟩ := hstep
    exact ⟨r, .nil r, h.of_same rfl rfl rfl rfl⟩
  | onerror k =>
    simp only [step, Option.ite_none_right_eq_some, Option.some.injEq] at hstep
    obtain ⟨-, rfl⟩ := hstep
    exact ⟨r, .nil r, (reject_data _ k).matches (h.of_same rfl rfl rfl rfl)⟩
  | resume i ok =>
    simp only [step, Option.map_eq_some_iff] at hstep
    obtain ⟨handler, -, rfl⟩ := hstep
    exact ⟨r, .nil r, (resume_data _ handler ok).matches (h.of_same rfl rfl rfl rfl)⟩

end

/-! ## What becomes of a packet -/

/-- What came has been taken, is queued, or was dropped; `cleared` of the
dropped ones went with a disconnect. -/
def Flow (q : PacketQueue) (came went lost : List DataPacket) (cleared : Nat) : Prop :=
  ∃ stats, Books { q with stats } came went lost ∧ stats.totalOverflows = q.stats.totalOverflows + cleared

section
variable {q q' : PacketQueue} {came went lost : List DataPacket} {cleared : Nat}

theorem Flow.order (h : Flow q came went lost cleared) : (went ++ q.queue).Sublist came := by
  obtain ⟨stats, hbooks, -⟩ := h
  exact hbooks.order

theorem Flow.count (h : Flow q came went lost cleared) :
    came.length = went.length + q.queue.length + (q.stats.totalOverflows + cleared) := by
  obtain ⟨stats, hbooks, hover⟩ := h
  have hlen := hbooks.nothingElse.length_eq
  have hlost : stats.totalOverflows = lost.length := hbooks.totalOverflows
  simp only [List.length_append] at hlen
  omega

theorem Flow.enqueue (h : Flow q came went lost cleared) (data : BinaryData) (now : Nat) :
    ∃ lost', Flow (q.enqueueData data now) (came ++ [packetOf data now]) went lost' cleared := by
  obtain ⟨stats, hbooks, hover⟩ := h
  obtain ⟨lost', hbooks'⟩ := hbooks.enqueueData data now
  refine ⟨lost', (enqueueData { q with stats } data now).stats, ?_, ?_⟩
  · have heq : enqueueData { q with stats } data now =
        { q.enqueueData data now with stats := (enqueueData { q with stats } data now).stats } := by
      unfold enqueueData DataBufferQueue.enqueue DataBufferQueue.shift
      simp only
      split
      · cases hqueue : q.queue <;> simp [hqueue]
      · rfl
    rwa [heq] at hbooks'
  · unfold enqueueData DataBufferQueue.enqueue
    simp only
    split
    · unfold DataBufferQueue.shift
      cases q.queue with
      | nil => exact hover
      | cons first rest =>
        simp only
        omega
    · exact hover

theorem Flow.dequeue (h : Flow q came went lost cleared) {packet : DataPacket} (hd : q.dequeuePacket = some (packet, q')) :
    Flow q' came (went ++ [packet]) lost cleared := by
  obtain ⟨stats, hbooks, hover⟩ := h
  unfold dequeuePacket DataBufferQueue.dequeue at hd
  split at hd
  · cases hd
  · rename_i first rest hqueue
    cases hd
    have hsame : dequeuePacket { q with stats } = some (packet, { q with
        queue := rest
        currentBytes := q.currentBytes - packet.size
        stats := { stats with
          totalDequeued := stats.totalDequeued + 1
          totalBytesDequeued := stats.totalBytesDequeued + packet.size } }) := by
      simp [dequeuePacket, DataBufferQueue.dequeue, hqueue]
    exact ⟨_, hbooks.dequeuePacket hsame, hover⟩

theorem Flow.clear (h : Flow q came went lost cleared) :
    Flow q.clear came went (lost ++ q.queue) (cleared + q.queue.length) := by
  obtain ⟨stats, hbooks, hover⟩ := h
  have horder := hbooks.order
  have hnothing := hbooks.nothingElse
  refine ⟨{ stats with
    totalOverflows := stats.totalOverflows + q.queue.length
    totalBytesDropped := stats.totalBytesDropped + bytesOf q.queue }, { hbooks with
    measured := List.forall_mem_nil _
    order := ?_
    nothingElse := ?_
    currentBytes := rfl
    totalOverflows := ?_
    totalBytesDropped := ?_ }, ?_⟩
  · rw [show q.clear.queue = [] from rfl, List.append_nil]
    exact (List.sublist_append_left went q.queue).trans horder
  · refine List.Perm.trans ?_ hnothing
    simp only [DataBufferQueue.clear, List.append_nil, List.append_assoc]
    exact List.perm_append_comm.append_left went
  · have hlost : stats.totalOverflows = lost.length := hbooks.totalOverflows
    simp [hlost]
  · have hlost : stats.totalBytesDropped = bytesOf lost := hbooks.totalBytesDropped
    simp [hlost]
  · simp only [DataBufferQueue.clear]
    omega

theorem flow_new (config : QueueConfig) : Flow (.new config) [] [] [] 0 := ⟨_, .new config, rfl⟩

end

/-! ## Runs -/

/-- The Blobs that suspended loops are waiting for. -/
def held (loops : List Loop) : List DataPacket :=
  loops.filterMap fun
    | .arrayBuffer packet => some packet
    | .decode => none

/-- The packets that were decoded. -/
def Receiver.output (r : Receiver) : List DataPacket := r.decoded.map Prod.snd

@[simp] theorem held_append (l l' : List Loop) : held (l ++ l') = held l ++ held l' := List.filterMap_append

@[simp] theorem held_arrayBuffer (packet : DataPacket) : held [.arrayBuffer packet] = [packet] := rfl

@[simp] theorem held_decode : held [.decode] = [] := rfl

/-- A packet is taken once; then it is decoded, held, or its data could not
be read. -/
structure Taken (r : Receiver) (came : List DataPacket) (cleared : Nat) : Prop where
  books : ∃ went lost failed, Flow r.queue came went lost cleared ∧ (r.output ++ held r.loops ++ failed).Perm went ∧
    ((∀ packet ∈ came, isBlob packet.data = false) → r.output = went)
  blobs : ∀ packet ∈ held r.loops, isBlob packet.data = true

section
variable {r r' : Receiver} {came : List DataPacket} {cleared : Nat}

theorem Taken.of_same (h : Taken r came cleared) (hqueue : r'.queue = r.queue) (hdecoded : r'.decoded = r.decoded)
    (hloops : r'.loops = r.loops) : Taken r' came cleared := by
  obtain ⟨⟨went, lost, failed, hflow, hperm, hplain⟩, hblobs⟩ := h
  refine ⟨⟨went, lost, failed, hqueue ▸ hflow, ?_, ?_⟩, hloops ▸ hblobs⟩
  · rwa [Receiver.output, hdecoded, hloops]
  · rwa [Receiver.output, hdecoded]

theorem taken_runQueue (h : Taken r came cleared) : Taken r.runQueue came cleared := by
  unfold Receiver.runQueue
  split
  · rename_i d packet queue hd hq
    obtain ⟨⟨went, lost, failed, hflow, hperm, hplain⟩, hblobs⟩ := h
    have hflow' := hflow.dequeue hq
    split
    · rename_i hblob
      refine ⟨⟨went ++ [packet], lost, failed, hflow', ?_, fun hall => ?_⟩, ?_⟩
      · refine List.perm_iff_count.mpr fun p => ?_
        have hcount := hperm.count_eq p
        simp only [List.count_append, held_append, held_arrayBuffer, Receiver.output] at hcount ⊢
        omega
      · have hmem : packet ∈ came := hflow'.order.subset (by simp)
        rw [hall packet hmem] at hblob
        exact absurd hblob Bool.false_ne_true
      · intro p hp
        rw [held_append, held_arrayBuffer, List.mem_append, List.mem_singleton] at hp
        rcases hp with hp | hp
        · exact hblobs p hp
        · rw [hp]
          exact hblob
    · refine ⟨⟨went ++ [packet], lost, failed, hflow', ?_, fun hall => ?_⟩, by simpa using hblobs⟩
      · refine List.perm_iff_count.mpr fun p => ?_
        have hcount := hperm.count_eq p
        simp only [List.count_append, held_append, held_decode, List.count_nil, Receiver.output, List.map_append,
          List.map_cons, List.map_nil] at hcount ⊢
        omega
      · simp only [Receiver.output, List.map_append, List.map_cons, List.map_nil]
        rw [← hplain hall]
        rfl
  · exact h.of_same rfl rfl rfl

theorem taken_processQueue (h : Taken r came cleared) : Taken r.processQueue came cleared := by
  unfold Receiver.processQueue
  split
  · exact h
  · exact taken_runQueue (h.of_same rfl rfl rfl)

theorem held_eraseIdx {loops : List Loop} {i : Nat} {loop : Loop} (h : loops[i]? = some loop) :
    (held [loop] ++ held (loops.eraseIdx i)).Perm (held loops) := by
  obtain ⟨hi, rfl⟩ := List.getElem?_eq_some_iff.mp h
  rw [← held_append]
  exact (List.getElem_cons_eraseIdx_perm hi).filterMap _

/-- A loop goes on, so that what it held is decoded or could not be read. -/
theorem taken_resume (h : Taken r came cleared) {i : Nat} {loop : Loop} (hloop : r.loops[i]? = some loop) (ok : Bool) :
    Taken ({ r with loops := r.loops.eraseIdx i }.resume loop ok) came cleared := by
  have hheld := held_eraseIdx hloop
  obtain ⟨⟨went, lost, failed, hflow, hperm, hplain⟩, hblobs⟩ := h
  have hrest : ∀ p ∈ held (r.loops.eraseIdx i), isBlob p.data = true := fun p hp =>
    hblobs p (hheld.subset (List.mem_append_right _ hp))
  have hgone : Taken { r with loops := r.loops.eraseIdx i } came cleared := by
    refine ⟨⟨went, lost, held [loop] ++ failed, hflow, ?_, hplain⟩, hrest⟩
    refine List.perm_iff_count.mpr fun p => ?_
    have hcount := hperm.count_eq p
    have hcount' := hheld.count_eq p
    simp only [List.count_append, Receiver.output] at hcount hcount' ⊢
    omega
  unfold Receiver.resume
  split
  · rename_i packet d hd
    refine ⟨⟨went, lost, failed, hflow, ?_, fun hall => ?_⟩, by simpa using hrest⟩
    · refine List.perm_iff_count.mpr fun p => ?_
      have hcount := hperm.count_eq p
      have hcount' := hheld.count_eq p
      simp only [List.count_append, held_append, held_arrayBuffer, held_decode, List.count_nil, Receiver.output,
        List.map_append, List.map_cons, List.map_nil] at hcount hcount' ⊢
      omega
    · -- among ArrayBuffers no loop holds a packet
      have hin : packet ∈ held r.loops := hheld.subset (by simp)
      have hcame : packet ∈ came := hflow.order.subset (List.mem_append_left _ (hperm.subset (by simp [hin])))
      have hblob := hblobs packet hin
      rw [hall packet hcame] at hblob
      exact absurd hblob Bool.false_ne_true
  · exact taken_runQueue hgone

theorem taken_data (h : Taken r came cleared) (data : BinaryData) (now : Nat) :
    Taken (r.onData data now) (came ++ [packetOf data now]) cleared := by
  obtain ⟨⟨went, lost, failed, hflow, hperm, hplain⟩, hblobs⟩ := h
  obtain ⟨lost', hflow'⟩ := hflow.enqueue data now
  refine taken_processQueue ⟨⟨went, lost', failed, hflow', hperm, fun hall => hplain fun p hp => ?_⟩, hblobs⟩
  exact hall p (List.mem_append_left _ hp)

theorem taken_disconnect (h : Taken r came cleared) : Taken r.disconnect came (cleared + r.queue.queue.length) := by
  obtain ⟨⟨went, lost, failed, hflow, hperm, hplain⟩, hblobs⟩ := h
  exact ⟨⟨went, _, failed, hflow.clear, hperm, hplain⟩, hblobs⟩

/-- One event. -/
theorem taken_step {e : DataEvent} (h : Taken r came cleared) (hstep : dataStep r e = some r') :
    Taken r' (came ++ arrivals [e]) (cleared + clearedAt r e) := by
  cases e with
  | data data now =>
    cases hstep
    exact taken_data h data now
  | decoder id =>
    cases hstep
    rw [show arrivals [.decoder id] = [] from rfl, List.append_nil]
    exact h.of_same rfl rfl rfl
  | disconnect =>
    cases hstep
    rw [show arrivals [.disconnect] = [] from rfl, List.append_nil]
    exact taken_disconnect h
  | onclose =>
    cases hstep
    rw [show arrivals [.onclose] = [] from rfl, List.append_nil]
    exact h.of_same rfl rfl rfl
  | resume i ok =>
    obtain ⟨loop, hloop, rfl⟩ := Option.map_eq_some_iff.mp hstep
    rw [show arrivals [.resume i ok] = [] from rfl, List.append_nil]
    exact taken_resume h hloop ok

theorem taken_run {config : QueueConfig} {es : List DataEvent} (hrun : (receiver config).Run r es r')
    (h : Taken r came cleared) : Taken r' (came ++ arrivals es) (cleared + clearedIn r es) := by
  induction hrun generalizing came cleared with
  | nil => simpa [arrivals, clearedIn] using h
  | @cons s s₁ s' e es hstep _ ih =>
    have hrest := ih (taken_step h hstep)
    have hnext : dataStep s e = some s₁ := hstep
    have hcame : came ++ arrivals [e] ++ arrivals es = came ++ arrivals (e :: es) := by
      rw [List.append_assoc, arrivals, arrivals, ← List.filterMap_append]
      rfl
    have hcleared : clearedIn s (e :: es) = clearedAt s e + clearedIn s₁ es := by
      rw [clearedIn, hnext, Option.map_some, Option.getD_some]
    rw [hcleared, ← Nat.add_assoc, ← hcame]
    exact hrest

theorem taken_new (config : QueueConfig) : Taken { queue := .new config } [] 0 where
  books := ⟨[], [], [], flow_new config, List.Perm.refl _, fun _ => rfl⟩
  blobs := List.forall_mem_nil _

/-- **Decoded once, and in order.** In every run, with any disconnects in
between: no packet is decoded twice and none that did not come. If all are
ArrayBuffers, what is decoded and what is still queued come in the order of
arrival, and the packets missing are as many as the queue dropped and as were
queued at the disconnects. -/
theorem decoded_in_order {config : QueueConfig} {es : List DataEvent} {r : Receiver}
    (h : (receiver config).Run { queue := .new config } es r) :
    (∃ rest, (r.output ++ rest).Perm (arrivals es)) ∧ ((∀ packet ∈ arrivals es, isBlob packet.data = false) →
      (r.output ++ r.queue.queue).Sublist (arrivals es) ∧
      (arrivals es).length = r.output.length + r.queue.queue.length +
        (r.queue.stats.totalOverflows + clearedIn { queue := .new config } es)) := by
  obtain ⟨⟨went, lost, failed, hflow, hperm, hplain⟩, -⟩ := taken_run h (taken_new config)
  rw [List.nil_append, Nat.zero_add] at hflow
  rw [List.nil_append] at hplain
  refine ⟨?_, fun hall => ?_⟩
  · obtain ⟨stats, hbooks, -⟩ := hflow
    refine ⟨held r.loops ++ failed ++ r.queue.queue ++ lost, List.Perm.trans ?_ hbooks.nothingElse⟩
    have hperm' := (hperm.append_right r.queue.queue).append_right lost
    simpa using hperm'
  · rw [hplain hall]
    exact ⟨hflow.order, hflow.count⟩

/-- A disconnect while a loop is suspended and a packet is queued, and a new
decoder. -/
def reconnect : List DataEvent :=
  [.decoder 0, .data (.arrayBuffer [1]) 5, .data (.arrayBuffer [2]) 6, .disconnect, .decoder 1, .data (.arrayBuffer [3]) 7,
    .resume 0 true]

theorem decoded_in_order_reconnect : clearedIn { queue := .new {} } reconnect = 1 ∧ ∃ r : Receiver,
    r.output = [packetOf (.arrayBuffer [1]) 5, packetOf (.arrayBuffer [3]) 7] ∧
    (∃ rest, (r.output ++ rest).Perm (arrivals reconnect)) ∧ ((∀ packet ∈ arrivals reconnect, isBlob packet.data = false) →
      (r.output ++ r.queue.queue).Sublist (arrivals reconnect) ∧
      (arrivals reconnect).length = r.output.length + r.queue.queue.length +
        (r.queue.stats.totalOverflows + clearedIn { queue := .new {} } reconnect)) := by
  have hrun : (reconnect.foldlM dataStep { queue := .new {} }).map Receiver.output =
      some [packetOf (.arrayBuffer [1]) 5, packetOf (.arrayBuffer [3]) 7] := by decide
  obtain ⟨r, hr, hout⟩ := Option.map_eq_some_iff.mp hrun
  have hwhole : (receiver {}).Run { queue := .new {} } reconnect r := Lts.run_ofFn hr
  exact ⟨by decide, r, hout, decoded_in_order hwhole⟩

end

/-! ## One loop at a time -/

/-- No loop is suspended when the stream is disconnected or its socket
closes. -/
def Calm (r : Receiver) (e : DataEvent) : Prop := e = .disconnect ∨ e = .onclose → r.loops = []

instance (r : Receiver) (e : DataEvent) : Decidable (Calm r e) := inferInstanceAs (Decidable (_ → _))

structure OneLoop (r : Receiver) (came : List DataPacket) : Prop where
  single : r.loops.length ≤ 1
  busy : r.processing = true ↔ r.loops ≠ []
  order : (r.output ++ held r.loops ++ r.queue.queue).Sublist came

section
variable {r r' : Receiver} {came : List DataPacket}

theorem enqueue_sublist (q : PacketQueue) (data : BinaryData) (now : Nat) :
    (q.enqueueData data now).queue.Sublist (q.queue ++ [packetOf data now]) := by
  unfold enqueueData DataBufferQueue.enqueue DataBufferQueue.shift
  simp only
  split
  · split
    · exact List.Sublist.refl _
    · rename_i dropped rest hqueue
      rw [hqueue]
      exact (List.sublist_cons_self dropped rest).append_right _
  · exact List.Sublist.refl _

/-- What is pushed can be taken. -/
theorem dequeue_enqueueData (q : PacketQueue) (data : BinaryData) (now : Nat) :
    ∃ packet queue, (q.enqueueData data now).dequeuePacket = some (packet, queue) := by
  have hne : (q.enqueueData data now).queue ≠ [] := List.append_ne_nil_of_right_ne_nil _ (List.cons_ne_nil _ _)
  unfold dequeuePacket DataBufferQueue.dequeue
  split
  · rename_i hnil
    exact absurd hnil hne
  · exact ⟨_, _, rfl⟩

/-- The loop starts, or goes on after its packet. -/
theorem oneLoop_runQueue (hloops : r.loops = []) (hbusy : r.processing = true)
    (horder : (r.output ++ r.queue.queue).Sublist came) : OneLoop r.runQueue came := by
  unfold Receiver.runQueue
  split
  · rename_i d packet queue hd hq
    have hqueue : r.queue.queue = packet :: queue.queue := by
      unfold dequeuePacket DataBufferQueue.dequeue at hq
      split at hq
      · cases hq
      · rename_i first rest h
        cases hq
        exact h
    rw [hqueue] at horder
    split
    · refine ⟨by simp [hloops], by simp [hloops, hbusy], ?_⟩
      simpa [hloops, Receiver.output] using horder
    · refine ⟨by simp [hloops], by simp [hloops, hbusy], ?_⟩
      simpa [hloops, Receiver.output] using horder
  · refine ⟨by simp [hloops], by simp [hloops], ?_⟩
    simpa [hloops, Receiver.output, held] using horder

theorem OneLoop.idle (h : OneLoop r came) (hidle : r.processing = false) : r.loops = [] := by
  by_contra hne
  have hbusy := h.busy.mpr hne
  rw [hidle] at hbusy
  exact absurd hbusy Bool.false_ne_true

theorem oneLoop_data (h : OneLoop r came) (data : BinaryData) (now : Nat) :
    OneLoop (r.onData data now) (came ++ [packetOf data now]) ∧ (r.decoder ≠ none → (r.onData data now).loops ≠ []) := by
  have hpush := enqueue_sublist r.queue data now
  have horder : (r.output ++ held r.loops ++ (r.queue.enqueueData data now).queue).Sublist (came ++ [packetOf data now]) := by
    refine List.Sublist.trans ?_ (h.order.append_right [packetOf data now])
    rw [List.append_assoc _ r.queue.queue]
    exact hpush.append_left _
  unfold Receiver.onData Receiver.processQueue
  cases hbusy : r.processing with
  | true =>
    simp only [if_true]
    exact ⟨⟨h.single, by simpa [hbusy] using h.busy, horder⟩, fun _ => h.busy.mp hbusy⟩
  | false =>
    have hloops := h.idle hbusy
    simp only [Bool.false_eq_true, if_false]
    refine ⟨oneLoop_runQueue hloops rfl ?_, fun hdec => ?_⟩
    · simpa [hloops, held, Receiver.output] using horder
    · obtain ⟨d, hd⟩ := Option.ne_none_iff_exists'.mp hdec
      obtain ⟨packet, queue, hq⟩ := dequeue_enqueueData r.queue data now
      simp only [Receiver.runQueue, hd, hq]
      split <;> simp

/-- One event. -/
theorem oneLoop_step {e : DataEvent} (h : OneLoop r came) (hstep : dataStep r e = some r') (hcalm : Calm r e) :
    OneLoop r' (came ++ arrivals [e]) := by
  cases e with
  | data data now =>
    cases hstep
    exact (oneLoop_data h data now).1
  | decoder id =>
    cases hstep
    rw [show arrivals [.decoder id] = [] from rfl, List.append_nil]
    exact ⟨h.single, h.busy, h.order⟩
  | disconnect =>
    cases hstep
    have hloops := hcalm (.inl rfl)
    rw [show arrivals [.disconnect] = [] from rfl, List.append_nil]
    refine ⟨h.single, by simp [Receiver.disconnect, hloops], ?_⟩
    refine List.Sublist.trans ?_ h.order
    exact (List.nil_sublist _).append_left _
  | onclose =>
    cases hstep
    have hloops := hcalm (.inr rfl)
    rw [show arrivals [.onclose] = [] from rfl, List.append_nil]
    exact ⟨h.single, by simp [Receiver.onclose, hloops], h.order⟩
  | resume i ok =>
    obtain ⟨loop, hloop, rfl⟩ := Option.map_eq_some_iff.mp hstep
    rw [show arrivals [.resume i ok] = [] from rfl, List.append_nil]
    -- the only loop
    have hloops : r.loops = [loop] ∧ i = 0 := by
      have hsingle := h.single
      obtain ⟨hi, hget⟩ := List.getElem?_eq_some_iff.mp hloop
      have hzero : i = 0 := by omega
      subst hzero
      refine ⟨?_, rfl⟩
      cases hls : r.loops with
      | nil => simp [hls] at hi
      | cons first rest =>
        rw [hls] at hsingle
        obtain rfl : rest = [] := by simpa using hsingle
        simpa [hls] using hget
    obtain ⟨hloops, hzero⟩ := hloops
    have hbusy : r.processing = true := h.busy.mpr (by simp [hloops])
    have horder := h.order
    rw [hloops] at horder
    have hgone : (r.output ++ r.queue.queue).Sublist came := by
      refine List.Sublist.trans ?_ horder
      exact (List.sublist_append_left ..).append_right _
    rw [hzero, hloops, List.eraseIdx_cons_zero]
    unfold Receiver.resume
    split
    · refine ⟨by simp, by simp [hbusy], ?_⟩
      simpa [Receiver.output] using horder
    · exact oneLoop_runQueue rfl hbusy hgone

/-- **One loop at a time.** In every run in which no loop is suspended when
the stream is disconnected or its socket closes: one loop is suspended at
most; what is decoded, what the loop holds and what is queued come in the
order of arrival, Blobs or not; and a message leaves no packet lying as long
as there is a decoder. -/
theorem one_loop {config : QueueConfig} {es : List DataEvent} {r : Receiver}
    (h : ((receiver config).restrict Calm).Run { queue := .new config } es r) :
    r.loops.length ≤ 1 ∧ (r.output ++ held r.loops ++ r.queue.queue).Sublist (arrivals es) ∧
      ∀ data now, r.decoder ≠ none → (r.onData data now).loops ≠ [] := by
  suffices H : ∀ {r r' : Receiver} {es came}, ((receiver config).restrict Calm).Run r es r' → OneLoop r came →
      OneLoop r' (came ++ arrivals es) by
    have hstart : OneLoop { queue := .new config } [] := by
      refine ⟨by simp, by simp, ?_⟩
      simp [Receiver.output, held, DataBufferQueue.new]
    have hone := H h hstart
    exact ⟨hone.single, hone.order, fun data now => (oneLoop_data hone data now).2⟩
  intro r r' es came hrun hone
  induction hrun generalizing came with
  | nil => simpa [arrivals] using hone
  | @cons s s₁ s' e es hstep _ ih =>
    have hrest := ih (oneLoop_step hone hstep.1 hstep.2)
    rwa [List.append_assoc, arrivals, arrivals, ← List.filterMap_append] at hrest

/-- A Blob, whose data are waited for while a message comes. -/
def blobFirst : List DataEvent :=
  [.decoder 0, .data (.blob [1]) 5, .data (.arrayBuffer [2]) 6, .resume 0 true, .resume 0 true, .resume 0 true, .disconnect]

theorem one_loop_blobFirst : ∃ r : Receiver, r.decoded.length = 2 ∧ r.loops.length ≤ 1 ∧
    (r.output ++ held r.loops ++ r.queue.queue).Sublist (arrivals blobFirst) ∧
    ∀ data now, r.decoder ≠ none → (r.onData data now).loops ≠ [] := by
  have hrun : ((blobFirst.foldlM (Lts.guarded Calm dataStep) { queue := .new {} }).map fun r => r.decoded.length) = some 2 := by
    decide
  obtain ⟨r, hr, hlen⟩ := Option.map_eq_some_iff.mp hrun
  have hcalm : ((receiver {}).restrict Calm).Run { queue := .new {} } blobFirst r := Lts.run_guarded hr
  exact ⟨r, hlen, one_loop hcalm⟩

end

end WebPlayer.L4.Stream
