import WebPlayer.Core.Bytes

/-!
# The decode worker (`worker/decode-worker.ts`)

The worker takes one request after another. Its message handler is
asynchronous, but only `handleInit` waits, for the module to load; the other
handlers await calls of `DecoderWrapper` that wait for nothing, and are over
before the next message. So a suspended `handleInit` is the only handler that
another request can overtake.

**`DecoderWrapper` (`Wrapper`, a parameter).** What a new decoder is, what its
calls return and what they leave of it, any functions whatever; a call that
throws leaves something of it too.

**The browser.**
* A call of the module returns: none of them traps.
* `BigInt` is there.

**Results.**
* `serveAll_append`: what is answered to a list of requests, and what later
  ones add to it.
* `serve_stats`: no statistics are posted with an answer.
-/
namespace WebPlayer.L4.Worker
open WebPlayer.Core

/-! ## Messages -/

structure DecoderConfig where
  codecType : String
  wasmPath : Option String
  deriving DecidableEq, Repr

structure AudioDecoderConfig where
  audioCodecType : String
  sampleRate : Nat
  channels : Nat
  deriving DecidableEq, Repr

/-- The requests that need a decoder. -/
inductive Op where
  | initAudio (config : AudioDecoderConfig)
  | decode (data : Bytes) (pts : Option Nat)
  | flush
  deriving DecidableEq, Repr

/-- mirrors js/decoder/types.ts:67-72 -/
inductive Request where
  | init (config : DecoderConfig)
  | op (op : Op)
  | destroy
  deriving DecidableEq, Repr

/-- `F` and `A` are the frames, `S` the statistics.
mirrors js/decoder/types.ts:74-80 -/
inductive Response (F A S : Type) where
  | ready
  | frame (frame : F)
  | audioFrame (frame : A)
  | error (error : String)
  | destroyed
  | stats (stats : S)
  deriving DecidableEq, Repr

/-- mirrors js/decoder/types.ts:43-48 -/
inductive FrameParseStatus where
  | COMPLETE | FRAGMENT_PENDING | ERROR | SKIP
  deriving DecidableEq, Repr

/-- The fields that `handleDecode` reads. -/
structure ParsedFrameInfo where
  status : FrameParseStatus
  msgType : Nat
  timestamp : Nat
  payload : Bytes

/-! ## The wrapper -/

/-- A method of a decoder `D`: it returns or throws. -/
abbrev Method (D α : Type) := D → Except String α × D

/-- `M` is a module that was loaded. -/
structure Wrapper (M D F A S : Type) where
  /-- `new DecoderWrapper()`. -/
  new : D
  /-- From where the module is there, or why it is not. -/
  init : DecoderConfig → Except String M → Method D Unit
  initProtocol : Method D Unit
  initAudio : AudioDecoderConfig → Method D Unit
  parseFrame : Bytes → Method D (Option ParsedFrameInfo)
  decode : Bytes → Nat → Method D (Option F)
  decodeAudio : Bytes → Nat → Method D (Option A)
  flush : Method D (List F)
  destroy : D → D
  getStats : D → S

section
variable {D : Type}

def bind {α β : Type} (m : Method D α) (k : α → Method D β) : Method D β := fun d =>
  match m d with
  | (.error e, d) => (.error e, d)
  | (.ok a, d) => k a d

def pure {α : Type} (a : α) : Method D α := fun d => (.ok a, d)

end

variable {M D F A S : Type}

/-- The `catch` of `onmessage`. -/
def workerError (e : String) : Response F A S := .error ("Worker error: " ++ e)

section
variable (W : Wrapper M D F A S)

/-! ## The handlers, of a decoder -/

/-- mirrors worker/decode-worker.ts:65-74 -/
def handleInitAudio (config : AudioDecoderConfig) : Method D (List (Response F A S)) :=
  bind (W.initAudio config) fun _ => pure [.ready]

/-- mirrors worker/decode-worker.ts:76-121 -/
def handleDecode (data : Bytes) : Method D (List (Response F A S)) :=
  bind (W.parseFrame data) fun parsed =>
    match parsed with
    | none => pure []
    | some parsed =>
      if parsed.status = .FRAGMENT_PENDING then pure []
      else if parsed.status = .SKIP ∨ parsed.status = .ERROR then pure []
      else if parsed.msgType = 0x01 then
        bind (W.decode parsed.payload parsed.timestamp) fun frame => pure (frame.map .frame).toList
      else if parsed.msgType = 0x02 then
        bind (W.decodeAudio parsed.payload parsed.timestamp) fun frame => pure (frame.map .audioFrame).toList
      else pure []

/-- mirrors worker/decode-worker.ts:123-140 -/
def handleFlush : Method D (List (Response F A S)) := bind W.flush fun frames => pure (frames.map .frame)

def handleOp : Op → Method D (List (Response F A S))
  | .initAudio config => handleInitAudio W config
  | .decode data _ => handleDecode W data
  | .flush => handleFlush W

/-- A request to a decoder: what is posted, and the decoder behind it. -/
def serve (op : Op) (d : D) : List (Response F A S) × D :=
  match handleOp W op d with
  | (.error e, d) => ([workerError e], d)
  | (.ok responses, d) => (responses, d)

/-- One request after another. -/
def serveAll : List Op → D → List (Response F A S) × D
  | [], d => ([], d)
  | op :: ops, d =>
    let r := serve W op d
    let rest := serveAll ops r.2
    (r.1 ++ rest.1, rest.2)

theorem serveAll_append (ops more : List Op) (d : D) : serveAll W (ops ++ more) d =
    ((serveAll W ops d).1 ++ (serveAll W more (serveAll W ops d).2).1, (serveAll W more (serveAll W ops d).2).2) := by
  induction ops generalizing d with
  | nil => rfl
  | cons op ops ih => simp [serveAll, ih]

/-- No statistics are posted with an answer. -/
def isStats : Response F A S → Bool
  | .stats _ => true
  | _ => false

theorem bind_cases {α β : Type} {m : Method D α} {k : α → Method D β} {d d' : D} {b : β} (h : bind m k d = (.ok b, d')) :
    ∃ a d₁, m d = (.ok a, d₁) ∧ k a d₁ = (.ok b, d') := by
  unfold bind at h
  split at h
  · cases h
  · rename_i a d₁ heq
    exact ⟨a, d₁, heq, h⟩

theorem handleOp_stats {op : Op} {d d' : D} {rs : List (Response F A S)} (h : handleOp W op d = (.ok rs, d')) :
    ∀ r ∈ rs, isStats r = false := by
  cases op with
  | initAudio config =>
    obtain ⟨_, _, -, h⟩ := bind_cases h
    cases h
    simp [isStats]
  | flush =>
    obtain ⟨frames, _, -, h⟩ := bind_cases h
    cases h
    simp [isStats]
  | decode data pts =>
    obtain ⟨parsed, _, -, h⟩ := bind_cases h
    revert h
    repeat' split
    all_goals intro h
    · cases h
      simp
    · cases h
      simp
    · cases h
      simp
    · obtain ⟨frame, _, -, h⟩ := bind_cases h
      cases h
      cases frame <;> simp [isStats]
    · obtain ⟨frame, _, -, h⟩ := bind_cases h
      cases h
      cases frame <;> simp [isStats]
    · cases h
      simp

theorem serve_stats (op : Op) (d : D) : ∀ r ∈ (serve W op d).1, isStats r = false := by
  unfold serve
  split
  · simp [isStats, workerError]
  · rename_i heq
    exact handleOp_stats W heq

/-! ## The worker -/

/-- Instances of `DecoderWrapper` are numbered as they are made. -/
structure DecodeWorker (D : Type) where
  decoder : Option Nat := none
  instances : Nat → D
  made : Nat := 0
  /-- The instances that a suspended `handleInit` waits for. -/
  loading : List (Nat × DecoderConfig) := []
  statsInterval : Bool := false

namespace DecodeWorker

def set (w : DecodeWorker D) (i : Nat) (d : D) : DecodeWorker D :=
  { w with instances := fun j => if j = i then d else w.instances j }

@[simp] theorem set_same (w : DecodeWorker D) (i : Nat) (d : D) : (w.set i d).instances i = d := if_pos rfl

def start : DecodeWorker D := { instances := fun _ => W.new }

/-- `decoder.destroy()` where there is one. -/
def destroyDecoder (w : DecodeWorker D) : DecodeWorker D :=
  match w.decoder with
  | none => w
  | some i => w.set i (W.destroy (w.instances i))

/-- Up to where it waits for the module.
mirrors worker/decode-worker.ts:42-47 -/
def handleInit (config : DecoderConfig) (w : DecodeWorker D) : DecodeWorker D :=
  let w := w.destroyDecoder W
  { w.set w.made W.new with decoder := some w.made, made := w.made + 1, loading := w.loading ++ [(w.made, config)] }

/-- The rest of the `k`th that waits. `init` goes on with the instance that it
was called on, `initProtocol` is called on the decoder of that moment.
mirrors worker/decode-worker.ts:47-62 -/
def resumeInit (k i : Nat) (config : DecoderConfig) (ret : Except String M) (w : DecodeWorker D) :
    List (Response F A S) × DecodeWorker D :=
  let w := { w with loading := w.loading.eraseIdx k }
  match W.init config ret (w.instances i) with
  | (.error e, d) => ([workerError e], w.set i d)
  | (.ok _, d) =>
    let w := w.set i d
    match w.decoder with
    | none => ([workerError "Cannot read properties of null (reading 'initProtocol')"], w)
    | some j =>
      match W.initProtocol (w.instances j) with
      | (.error e, d) => ([workerError e], w.set j d)
      | (.ok _, d) => ([.ready], { w.set j d with statsInterval := true })

def handleRequest (op : Op) (w : DecodeWorker D) : List (Response F A S) × DecodeWorker D :=
  match w.decoder with
  | none => ([workerError "Decoder not initialized"], w)
  | some j => ((serve W op (w.instances j)).1, w.set j (serve W op (w.instances j)).2)

/-- mirrors worker/decode-worker.ts:142-155 -/
def handleDestroy (w : DecodeWorker D) : List (Response F A S) × DecodeWorker D :=
  ([.destroyed], { w.destroyDecoder W with decoder := none, statsInterval := false })

/-- mirrors worker/decode-worker.ts:8-39 -/
def onmessage (request : Request) (w : DecodeWorker D) : List (Response F A S) × DecodeWorker D :=
  match request with
  | .init config => ([], w.handleInit W config)
  | .op op => w.handleRequest W op
  | .destroy => w.handleDestroy W

/-- What the interval posts.
mirrors worker/decode-worker.ts:56-62 -/
def onInterval (w : DecodeWorker D) : List (Response F A S) :=
  match w.decoder with
  | none => []
  | some j => [.stats (W.getStats (w.instances j))]

end DecodeWorker

end

end WebPlayer.L4.Worker
