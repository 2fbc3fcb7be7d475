import WebPlayer.Core.Lts
import WebPlayer.L4App.DataBufferQueue

/-!
# The stream instance (`js/stream/StreamInstance.ts`)

`connect` makes a socket, and handlers with variables of their own: whether
this socket has negotiated, and the promise of `connectWebSocket`. What they
act on is shared: `this.ws`, `this.status`, `this.processing`, `this.decoder`,
and none of it is checked to be about the same socket.

One step is a call, an event of any socket, or the resumption of a suspended
handler or of a suspended `processQueue`. Rendering and statistics are left
out.

**The browser.**
* A socket gives its messages while it is open, and one close event, behind
  which it is closed. It throws on `send` while it is connecting, and discards
  what is sent when it is closing or closed.
* A promise resolves or rejects once, at any later step, and `postMessage`
  may throw: a suspended handler goes on with any outcome.
* When `connectWebSocket` is rejected, `connect` sets the status before the
  next event.
-/
namespace WebPlayer.L4.Stream
open WebPlayer.Core

/-! ## State -/

inductive StreamStatus where
  | disconnected | connecting | connected | error
  deriving DecidableEq, Repr

inductive ReadyState where
  | CONNECTING | OPEN | CLOSING | CLOSED
  deriving DecidableEq, Repr

/-- A socket and its closure. -/
structure Socket where
  readyState : ReadyState := .CONNECTING
  negotiated : Bool := false
  /-- Its promise is resolved or rejected. -/
  settled : Bool := false
  /-- Its close event was dispatched. -/
  closed : Bool := false
  deriving DecidableEq, Repr

/-- `codec` is what it is as a property key. -/
structure AudioStream where
  codec : String
  sampleRate : Option Nat
  channels : Option Nat
  deriving DecidableEq, Repr

/-- The first video and the first audio stream. -/
structure Offer where
  videoCodec : Option String
  audioStream : Option AudioStream
  deriving DecidableEq, Repr

structure Packet where
  size : Nat
  isBlob : Bool
  deriving DecidableEq, Repr

/-- `text none` is no media-offer. -/
inductive Message where
  | text (offer : Option Offer)
  | binary (packet : Packet)
  deriving DecidableEq, Repr

/-- What a property of an object literal is: a value of its own, or a function
or an object of `Object.prototype`. -/
inductive Property where
  | own (value : String)
  | inherited (name : String)
  deriving DecidableEq, Repr

structure AudioDecoderConfig where
  audioCodecType : Property
  sampleRate : Nat
  channels : Nat
  deriving DecidableEq, Repr

/-- `audio`: the configurations that were posted to its worker. -/
structure Decoder where
  id : Nat
  codecType : String
  audio : List AudioDecoderConfig := []
  deriving DecidableEq, Repr

/-- mirrors js/decoder/WorkerBridge.ts:72-85 -/
def Decoder.postAudio (decoder : Decoder) (id : Nat) (config : AudioDecoderConfig) : Decoder :=
  if decoder.id = id then { decoder with audio := decoder.audio ++ [config] } else decoder

/-- A decoder keeps its number. -/
theorem postAudio_id (decoder : Option Decoder) (id : Nat) (config : AudioDecoderConfig) :
    (decoder.map (Decoder.postAudio · id config)).map (·.id) = decoder.map (·.id) := by
  rw [Option.map_map]
  congr 1
  funext d
  simp only [Function.comp_apply, Decoder.postAudio]
  split <;> rfl

/-- Where a message handler is suspended: on `initDecoder`, in the `initAudio`
of a decoder, or behind the message that this has posted. -/
inductive Await where
  | initDecoder (audioStream : Option AudioStream)
  | initAudio (decoder : Nat) (config : AudioDecoderConfig)
  | posted
  deriving DecidableEq, Repr

structure Handler where
  socket : Nat
  await : Await
  deriving DecidableEq, Repr

/-- Where a `processQueue` is suspended. -/
inductive QueueAwait where
  | arrayBuffer | decode
  deriving DecidableEq, Repr

inductive Answer where
  | accepted | rejected
  deriving DecidableEq, Repr

/-- Sockets are numbered as they are created, and so are decoders. -/
structure StreamInstance where
  queue : DataBufferQueue Packet
  ws : Option Nat := none
  sockets : Nat → Socket := fun _ => {}
  created : Nat := 0
  status : StreamStatus := .disconnected
  processing : Bool := false
  decoder : Option Decoder := none
  decoders : Nat := 0
  handlers : List Handler := []
  queueRuns : List QueueAwait := []
  sent : List (Nat × Answer) := []

/-! ## Offers -/

/-- The properties of `Object.prototype`; none is false. -/
def inheritedNames : List String :=
  ["constructor", "toString", "toLocaleString", "valueOf", "hasOwnProperty", "isPrototypeOf", "propertyIsEnumerable",
    "__proto__", "__defineGetter__", "__defineSetter__", "__lookupGetter__", "__lookupSetter__"]

/-- A property of an object literal. -/
def audioCodecMap (codec : String) : Option Property :=
  match [("aac", "aac"), ("pcm_alaw", "g711a"), ("pcm_mulaw", "g711u"), ("g726", "g726")].lookup codec with
  | some audioCodecType => some (.own audioCodecType)
  | none => if codec ∈ inheritedNames then some (.inherited codec) else none

/-- `x || d` for a number. -/
def orDefault (x : Option Nat) (d : Nat) : Nat := if x.getD 0 = 0 then d else x.getD 0

/-- mirrors js/stream/StreamInstance.ts:221-234 -/
def audioConfig (audioStream : AudioStream) : Option AudioDecoderConfig :=
  (audioCodecMap audioStream.codec).map fun audioCodecType =>
    { audioCodecType
      sampleRate := orDefault audioStream.sampleRate 44100
      channels := orDefault audioStream.channels 2 }

/-- mirrors js/stream/StreamInstance.ts:212 -/
def Offer.codecType (offer : Offer) : String :=
  match offer.videoCodec with
  | none | some "" => "h264"
  | some codec => codec

namespace StreamInstance
variable (s : StreamInstance)

def updateSocket (k : Nat) (f : Socket → Socket) : StreamInstance :=
  { s with sockets := fun j => if j = k then f (s.sockets j) else s.sockets j }

def updateStatus (status : StreamStatus) : StreamInstance := { s with status := status }

/-! ## Negotiation -/

/-- `this.ws!.send` does not throw. -/
def canSend : Bool :=
  match s.ws with
  | none => false
  | some k => (s.sockets k).readyState ≠ .CONNECTING

/-- A socket that closes discards what is sent. -/
def send (answer : Answer) : StreamInstance :=
  match s.ws with
  | none => s
  | some k => if (s.sockets k).readyState = .OPEN then { s with sent := s.sent ++ [(k, answer)] } else s

/-- And what `connect` does when its promise is rejected.
mirrors js/stream/StreamInstance.ts:86-92 -/
def reject (k : Nat) : StreamInstance :=
  if (s.sockets k).settled then s else (s.updateSocket k fun x => { x with settled := true }).updateStatus .error

/-- mirrors js/stream/StreamInstance.ts:246-254 -/
def refuse (k : Nat) : StreamInstance := if s.canSend then (s.send .rejected).reject k else s

/-- mirrors js/stream/StreamInstance.ts:237-245 -/
def accept (k : Nat) : StreamInstance :=
  if s.canSend then
    ((s.send .accepted).updateSocket k fun x => { x with negotiated := true, settled := true }).updateStatus .connected
  else s.refuse k

/-- `created`: the worker could be started.
mirrors js/stream/StreamInstance.ts:149-187 -/
def initDecoder (codecType : String) (created : Bool) : StreamInstance :=
  if created then { s with decoder := some { id := s.decoders, codecType }, decoders := s.decoders + 1 } else s

/-- mirrors js/stream/StreamInstance.ts:209-217 -/
def onOffer (k : Nat) (offer : Offer) (created : Bool) : StreamInstance :=
  let s := s.initDecoder offer.codecType created
  { s with handlers := s.handlers ++ [{ socket := k, await := .initDecoder offer.audioStream }] }

/-- What an `initDecoder` that has succeeded goes on with: `initAudio` of the
decoder that there is now, which waits for its `init`.
mirrors js/stream/StreamInstance.ts:219-235 -/
def initAudio (k : Nat) (audioStream : Option AudioStream) : StreamInstance :=
  match audioStream.bind audioConfig, s.decoder with
  | some config, some decoder => { s with handlers := s.handlers ++ [{ socket := k, await := .initAudio decoder.id config }] }
  | _, _ => s.accept k

/-- A suspended handler goes on. -/
def resume (h : Handler) (ok : Bool) : StreamInstance :=
  match h.await, ok with
  | .initDecoder audioStream, true => s.initAudio h.socket audioStream
  | .initAudio id config, true =>
    { s with decoder := s.decoder.map (Decoder.postAudio · id config)
             handlers := s.handlers ++ [{ socket := h.socket, await := .posted }] }
  | .posted, _ => s.accept h.socket
  | _, false => s.refuse h.socket

/-! ## Data -/

/-- mirrors js/stream/StreamInstance.ts:313-334 -/
def runQueue : StreamInstance :=
  match s.decoder, s.queue.dequeue Packet.size with
  | some _, some (packet, queue) =>
    { s with queue, queueRuns := s.queueRuns ++ [if packet.isBlob then .arrayBuffer else .decode] }
  | _, _ => { s with processing := false }

/-- mirrors js/stream/StreamInstance.ts:309-335 -/
def processQueue : StreamInstance := if s.processing then s else { s with processing := true }.runQueue

/-- A suspended `processQueue` goes on. -/
def resumeQueue (await : QueueAwait) (ok : Bool) : StreamInstance :=
  match await with
  | .decode => s.runQueue
  | .arrayBuffer =>
    if ok ∧ s.decoder ≠ none then { s with queueRuns := s.queueRuns ++ [.decode] } else s.runQueue

/-! ## Events -/

/-- mirrors js/stream/StreamInstance.ts:79-93, 189-194 -/
def connect : StreamInstance :=
  if s.ws.any fun k => (s.sockets k).readyState = .OPEN then s
  else
    { (s.updateStatus .connecting).updateSocket s.created fun _ => {} with
      ws := some s.created
      created := s.created + 1 }

/-- `WebSocket.close` -/
def Socket.close (x : Socket) : Socket :=
  { x with readyState := if x.readyState = .CLOSED then .CLOSED else .CLOSING }

/-- mirrors js/stream/StreamInstance.ts:95-126 -/
def disconnect : StreamInstance :=
  let s := { s with processing := false }
  let s := match s.ws with
    | none => s
    | some k => { s.updateSocket k Socket.close with ws := none }
  { s with decoder := none, queue := s.queue.clear }.updateStatus .disconnected

/-- mirrors js/stream/StreamInstance.ts:200-259, 272-295 -/
def onmessage (k : Nat) (msg : Message) (created : Bool) : StreamInstance :=
  match msg with
  | .text offer =>
    match (s.sockets k).negotiated, offer with
    | false, some offer => s.onOffer k offer created
    | _, _ => s
  | .binary packet => { s with queue := s.queue.enqueue Packet.size packet }.processQueue

/-- mirrors js/stream/StreamInstance.ts:261-263 -/
def onerror (k : Nat) : StreamInstance := (s.updateSocket k fun x => { x with readyState := .CLOSED }).reject k

/-- mirrors js/stream/StreamInstance.ts:265-268 -/
def onclose (k : Nat) : StreamInstance :=
  { (s.updateSocket k fun x => { x with readyState := .CLOSED, closed := true }).updateStatus .disconnected with
    processing := false }

end StreamInstance

/-! ## Runs -/

/-- `peerCloses`: the closing handshake begins, which is no event. -/
inductive Event where
  | connect
  | disconnect
  | onopen (k : Nat)
  | peerCloses (k : Nat)
  | onmessage (k : Nat) (msg : Message) (created : Bool)
  | onerror (k : Nat)
  | onclose (k : Nat)
  | resume (i : Nat) (ok : Bool)
  | resumeQueue (i : Nat) (ok : Bool)
  deriving DecidableEq, Repr

def step (s : StreamInstance) : Event → Option StreamInstance
  | .connect => some s.connect
  | .disconnect => some s.disconnect
  | .onopen k =>
    if k < s.created ∧ (s.sockets k).readyState = .CONNECTING then
      some (s.updateSocket k fun x => { x with readyState := .OPEN })
    else none
  | .peerCloses k =>
    if k < s.created ∧ (s.sockets k).readyState = .OPEN then
      some (s.updateSocket k fun x => { x with readyState := .CLOSING })
    else none
  | .onmessage k msg created =>
    if k < s.created ∧ (s.sockets k).readyState = .OPEN then some (s.onmessage k msg created) else none
  | .onerror k => if k < s.created ∧ (s.sockets k).readyState ≠ .CLOSED then some (s.onerror k) else none
  | .onclose k => if k < s.created ∧ (s.sockets k).closed = false then some (s.onclose k) else none
  | .resume i ok => s.handlers[i]?.map fun h => { s with handlers := s.handlers.eraseIdx i }.resume h ok
  | .resumeQueue i ok => s.queueRuns[i]?.map fun await => { s with queueRuns := s.queueRuns.eraseIdx i }.resumeQueue await ok

/-- A new instance, with these limits of its queue. -/
def fresh (maxSize maxBytes : Nat) : StreamInstance := { queue := { maxSize, maxBytes } }

def streamInstance (maxSize maxBytes : Nat) : Lts StreamInstance Event := .ofFn (· = fresh maxSize maxBytes) step

end WebPlayer.L4.Stream
