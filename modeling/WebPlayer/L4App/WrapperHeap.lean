import WebPlayer.Core.Ledger
import WebPlayer.Core.Throws
import WebPlayer.L4App.BridgeOrder

/-!
# The wrapper's buffers (`js/decoder/DecoderWrapper.ts`)

The wrapper has its input and the structs for the results on the heap of the
WASM module. A method takes a buffer, works on it, and gives it back in a
`finally`, also when it throws in between; the struct of the protocol parser
stays from `initProtocol` to `destroyProtocol`.

**The module (`Wasm`, a parameter).** What its functions return, what they
leave of the rest of its state, and which copies throw, any functions
whatever; a decoder hands out finitely many frames. No call of it traps.

* `worker_heap`: whatever a worker is asked, the live buffers of its decoders
  are the structs of their parsers, and no buffer is used or freed that is not
  live.
-/
namespace WebPlayer.L4.Worker
open WebPlayer.Core

/-- The state behind the heap is a `τ`. `copyIn` is `HEAPU8.set`, which copies
into the memory, the `read` and `extract` functions copy out of it; all of
these may throw. -/
structure Wasm (τ F A : Type) where
  decoderMalloc : Nat → τ → Bool × τ
  copyIn : Bytes → τ → Except String Unit
  decoderInitVideo : Nat → τ → Int × τ
  decoderSendVideoPacket : Bytes → Nat → τ → Int × τ
  decoderReceiveVideoFrame : τ → Int × τ
  extractVideoFrame : τ → Except String F
  decoderFlushVideo : τ → τ
  decoderInitAudio : Nat → Nat → Nat → τ → Int × τ
  decoderSendAudioPacket : Bytes → Nat → τ → Int × τ
  decoderReceiveAudioFrame : τ → Int × τ
  extractAudioFrame : τ → Except String A
  frameProtocolInit : τ → Int × τ
  frameProtocolAllocResult : τ → Bool × τ
  frameProtocolParse : Bytes → τ → FrameParseStatus × τ
  readParsedFrame : τ → Except String ParsedFrameInfo
  frameProtocolFreeResult : τ → τ
  frameProtocolDestroy : τ → τ
  /-- The frames that are still to come. -/
  videoFrames : τ → Nat
  videoFrames_lt : ∀ t, (decoderReceiveVideoFrame t).1 = 0 →
    videoFrames (decoderReceiveVideoFrame t).2 < videoFrames t
  /-- mirrors wasm/decoder_wasm.h:34-39 -/
  status : ∀ t, (decoderReceiveVideoFrame t).1 ≤ 1

/-- With what the model adds: the heap, and the structs that were lost when
`initProtocol` stored another.
mirrors js/decoder/DecoderWrapper.ts:20-25 -/
structure DecoderWrapper (τ : Type) where
  module : Option τ := none
  initialized : Bool := false
  audioInitialized : Bool := false
  protocolInitialized : Bool := false
  parsedFramePtr : Option Nat := none
  heap : Ledger := {}
  lost : List Nat := []

namespace DecoderWrapper

variable {τ F A α : Type}

/-- A method of the wrapper. -/
abbrev Js (τ : Type) : Type → Type := Throws String (DecoderWrapper τ)

/-! ## Calls of the module -/

def ccall (f : τ → α × τ) : Js τ α := fun d =>
  match d.module with
  | none => (.error "Cannot read properties of null (reading 'ccall')", d)
  | some t => (.ok (f t).1, { d with module := some (f t).2 })

/-- A pointer goes to the module, or is read or written through. -/
def touch (p : Option Nat) : Js τ Unit := modify fun d => { d with heap := d.heap.useOpt p }

/-- A copy to or from the memory at `p`. -/
def copy (p : Option Nat) (f : τ → Except String α) : Js τ α := do
  touch p
  let r ← ccall fun t => (f t, t)
  match r with
  | .ok a => pure a
  | .error e => throw e

/-- A block of the heap from an allocating function. -/
def allocate (f : τ → Bool × τ) (d : DecoderWrapper τ) : Option Nat × DecoderWrapper τ :=
  match d.module with
  | none => (none, d)
  | some t => ((d.heap.takeIf (f t).1).1, { d with module := some (f t).2, heap := (d.heap.takeIf (f t).1).2 })

def decoderFree (p : Nat) (d : DecoderWrapper τ) : DecoderWrapper τ := { d with heap := d.heap.drop p }

/-- `decoder_malloc`, `try`, and `decoder_free` in the `finally`. -/
def withBuffer (W : Wasm τ F A) (size : Nat) (fail : Js τ α) (body : Nat → Js τ α) : Js τ α :=
  Throws.bracket (allocate (W.decoderMalloc size)) fail decoderFree body

variable (W : Wasm τ F A)

/-! ## The methods -/

/-- From where the module has come or could not be loaded, with the `catch`
around it; a new wrapper passes the checks in front.
mirrors js/decoder/DecoderWrapper.ts:38-80 -/
def init (config : DecoderConfig) (createModule : Except String τ) : Js τ Unit := do
  match createModule with
  | .error e => throw ("Failed to load WASM module: " ++ e)
  | .ok t =>
    modify fun d => { d with module := some t }
    let result ← ccall (W.decoderInitVideo (if config.codecType = "h264" then 0 else 1))
    if result ≠ 0 then
      throw ("Failed to load WASM module: Error: Failed to initialize decoder, error code: " ++ toString result)
    else modify fun d => { d with initialized := true }

/-- The body of `decode` and of `decodeAudio`, which differ in the functions,
the size of the struct and the texts. -/
def decodeWith (send : Bytes → Nat → τ → Int × τ) (receive : τ → Int × τ) (extract : τ → Except String α) (infoSize : Nat)
    (noInput notSent noInfo notReceived : String) (data : Bytes) (pts : Nat) : Js τ (Option α) :=
  withBuffer W data.length (throw noInput) fun dataPtr => do
    copy (some dataPtr) (W.copyIn data)
    touch (some dataPtr)
    let sendResult ← ccall (send data pts)
    if sendResult < 0 then throw (notSent ++ toString sendResult)
    else
      withBuffer W infoSize (throw noInfo) fun frameInfoPtr => do
        touch (some frameInfoPtr)
        let receiveResult ← ccall receive
        if receiveResult = 1 then pure none
        else if receiveResult < 0 then throw (notReceived ++ toString receiveResult)
        else
          let frame ← copy (some frameInfoPtr) extract
          pure (some frame)

/-- mirrors js/decoder/DecoderWrapper.ts:87-154 -/
def decode (data : Bytes) (pts : Nat) : Js τ (Option F) := do
  let d ← get
  if d.initialized = false ∨ d.module.isNone then throw "Decoder not initialized"
  else if 2 ^ 53 - 1 < pts then throw ("PTS value " ++ toString pts ++ " is not a safe integer")
  else
    decodeWith W W.decoderSendVideoPacket W.decoderReceiveVideoFrame W.extractVideoFrame 64
      "Failed to allocate memory for input data" "Failed to send packet to decoder, error: "
      "Failed to allocate memory for frame info" "Failed to receive frame, error: " data pts

/-- mirrors js/decoder/DecoderWrapper.ts:387-440 -/
def decodeAudio (data : Bytes) (pts : Nat) : Js τ (Option A) := do
  let d ← get
  if d.audioInitialized = false ∨ d.module.isNone then throw "Audio decoder not initialized"
  else
    decodeWith W W.decoderSendAudioPacket W.decoderReceiveAudioFrame W.extractAudioFrame 32
      "Failed to allocate memory for audio data" "Failed to send audio packet, error: "
      "Failed to allocate memory for audio frame info" "Failed to receive audio frame, error: " data pts

/-- The loop of `flush`; `n` bounds its rounds.
mirrors js/decoder/DecoderWrapper.ts:259-273 -/
def receiveFrames (frameInfoPtr : Nat) : Nat → Js τ (List F)
  | 0 => pure []
  | n + 1 => do
    touch (some frameInfoPtr)
    let result ← ccall W.decoderReceiveVideoFrame
    if result = 1 ∨ result = 2 ∨ result < 0 then pure []
    else
      let frame ← copy (some frameInfoPtr) W.extractVideoFrame
      let frames ← receiveFrames frameInfoPtr n
      pure (frame :: frames)

/-- mirrors js/decoder/DecoderWrapper.ts:247-281 -/
def flush : Js τ (List F) := do
  let d ← get
  if d.initialized = false ∨ d.module.isNone then throw "Decoder not initialized"
  else
    ccall fun t => ((), W.decoderFlushVideo t)
    withBuffer W 64 (throw "Failed to allocate memory for frame info") fun frameInfoPtr => do
      let rounds ← ccall fun t => (W.videoFrames t + 1, t)
      receiveFrames W frameInfoPtr rounds

/-- A new struct in the place of the old one. -/
def storeStruct (d : DecoderWrapper τ) : Option Nat × DecoderWrapper τ :=
  let (ptr, d) := allocate W.frameProtocolAllocResult d
  (ptr, { d with parsedFramePtr := ptr, lost := d.parsedFramePtr.toList ++ d.lost })

/-- mirrors js/decoder/DecoderWrapper.ts:283-299 -/
def initProtocol : Js τ Unit := do
  let d ← get
  if d.module.isNone then throw "Module not initialized"
  else
    let result ← ccall W.frameProtocolInit
    if result < 0 then throw ("Failed to initialize frame protocol, error: " ++ toString result)
    else
      let ptr ← modifyGet (storeStruct W)
      if ptr = none then throw "Failed to allocate ParsedFrame struct"
      else modify fun d => { d with protocolInitialized := true }

/-- mirrors js/decoder/DecoderWrapper.ts:301-365 -/
def parseFrame (data : Bytes) : Js τ (Option ParsedFrameInfo) := do
  let d ← get
  if d.module.isNone ∨ d.protocolInitialized = false ∨ d.parsedFramePtr = none then throw "Protocol not initialized"
  else
    withBuffer W data.length (throw "Failed to allocate memory for protocol frame") fun dataPtr => do
      copy (some dataPtr) (W.copyIn data)
      touch (some dataPtr)
      touch d.parsedFramePtr
      let status ← ccall (W.frameProtocolParse data)
      if status = .FRAGMENT_PENDING ∨ status = .ERROR ∨ status = .SKIP then
        pure (some { status, msgType := 0, timestamp := 0, payload := [] })
      else
        let info ← copy d.parsedFramePtr W.readParsedFrame
        pure (some { info with status })

/-- A value that is no number goes to the module as 0: that of an unknown key,
or of one that every object inherits.
mirrors js/decoder/DecoderWrapper.ts:13-18 -/
def audioCodecMap (audioCodecType : String) : Nat :=
  if audioCodecType = "g711a" then 10
  else if audioCodecType = "g711u" then 11
  else if audioCodecType = "g726" then 12
  else if audioCodecType = "aac" then 13
  else 0

/-- mirrors js/decoder/DecoderWrapper.ts:367-385 -/
def initAudio (config : AudioDecoderConfig) : Js τ Unit := do
  let d ← get
  if d.module.isNone then throw "WASM module not loaded"
  else
    let result ← ccall (W.decoderInitAudio (audioCodecMap config.audioCodecType) config.sampleRate config.channels)
    if result ≠ 0 then throw ("Failed to initialize audio decoder, error code: " ++ toString result)
    else modify fun d => { d with audioInitialized := true }

/-- mirrors js/decoder/DecoderWrapper.ts:489-498 -/
def destroyProtocol (d : DecoderWrapper τ) : DecoderWrapper τ :=
  match d.module with
  | none => d
  | some t =>
    if d.protocolInitialized then
      let t := if d.parsedFramePtr = none then t else W.frameProtocolFreeResult t
      { d with module := some (W.frameProtocolDestroy t), heap := d.heap.dropOpt d.parsedFramePtr, parsedFramePtr := none
               protocolInitialized := false }
    else d

/-- Behind `decoder_destroy` the module is let go.
mirrors js/decoder/DecoderWrapper.ts:500-507 -/
def destroy (d : DecoderWrapper τ) : DecoderWrapper τ :=
  if d.initialized = true ∧ d.module.isSome then
    let d := d.destroyProtocol W
    { d with module := none, initialized := false }
  else d

theorem run_touch (p : Option Nat) (d : DecoderWrapper τ) : (touch p : Js τ Unit) d = (.ok (), { d with heap := d.heap.useOpt p }) := rfl

theorem run_copy {d : DecoderWrapper τ} {t : τ} (h : d.module = some t) (p : Option Nat) (f : τ → Except String α) :
    copy p f d = (f t, { d with heap := d.heap.useOpt p }) := by
  simp only [copy, Throws.run_bind, run_touch, ccall, h]
  cases f t with
  | ok a =>
    show (_, _) = _
    rw [← h]
  | error e =>
    show (_, _) = _
    rw [← h]

/-- The bound on the rounds is never reached: a round without a frame ends the
loop, and the frames run out. -/
theorem receiveFrames_fuel (frameInfoPtr : Nat) {n : Nat} {d : DecoderWrapper τ} {t : τ} (hmodule : d.module = some t)
    (hn : W.videoFrames t < n) : receiveFrames W frameInfoPtr (n + 1) d = receiveFrames W frameInfoPtr n d := by
  induction n generalizing d t with
  | zero => omega
  | succ n ih =>
    conv_lhs => rw [receiveFrames]
    conv_rhs => rw [receiveFrames]
    simp only [Throws.run_bind, run_touch, ccall, hmodule]
    split
    · rfl
    · rename_i hgoes
      have hzero : (W.decoderReceiveVideoFrame t).1 = 0 := by
        have hle := W.status t
        omega
      have hlt := W.videoFrames_lt t hzero
      rw [Throws.run_bind, Throws.run_bind, @run_copy τ F _ (W.decoderReceiveVideoFrame t).2 rfl]
      cases W.extractVideoFrame (W.decoderReceiveVideoFrame t).2 with
      | error e => rfl
      | ok frame =>
        simp only
        rw [Throws.run_bind, Throws.run_bind, ih rfl (show W.videoFrames (W.decoderReceiveVideoFrame t).2 < n by omega)]

/-! ## Who owns what -/

/-- The wrapper has `bufs` in use, the struct `p`, and has lost `ls`. -/
structure Has (bufs : List Nat) (p : Option Nat) (ls : List Nat) (d : DecoderWrapper τ) : Prop where
  heap : d.heap.Holds (bufs ++ (p.toList ++ ls))
  parsedFramePtr : d.parsedFramePtr = p
  lost : d.lost = ls

/-- Between two calls. -/
def Sound (d : DecoderWrapper τ) : Prop := Has [] d.parsedFramePtr d.lost d

section
variable {bufs ls : List Nat} {p : Option Nat}

theorem keeps_ccall (f : τ → α × τ) : Keeps (Has bufs p ls) (ccall f) := by
  intro d hd
  unfold ccall
  split
  · exact hd
  · exact ⟨hd.heap, hd.parsedFramePtr, hd.lost⟩

theorem keeps_touch {q : Nat} (hq : q ∈ bufs ++ (p.toList ++ ls)) : Keeps (Has bufs p ls) (touch (some q) : Js τ Unit) := by
  intro d hd
  show Has bufs p ls { d with heap := d.heap.useOpt (some q) }
  rw [hd.heap.useOpt rfl hq]
  exact hd

theorem keeps_copy {q : Nat} (hq : q ∈ bufs ++ (p.toList ++ ls)) (f : τ → Except String α) :
    Keeps (Has bufs p ls) (copy (some q) f) := by
  refine .bind (keeps_touch hq) fun _ => .bind (keeps_ccall _) fun r => ?_
  cases r with
  | ok a => exact .pure a
  | error e => exact .throw e

theorem allocate_has {f : τ → Bool × τ} {d d' : DecoderWrapper τ} {q : Option Nat} (hd : Has bufs p ls d)
    (h : allocate f d = (q, d')) : Has (q.toList ++ bufs) p ls d' := by
  unfold allocate at h
  split at h
  · cases h
    exact hd
  · cases h
    have htake := hd.heap.takeIf
    exact ⟨by simpa using htake _, hd.parsedFramePtr, hd.lost⟩

/-- In the body the buffer is there, and behind it it is not. -/
theorem keeps_withBuffer {size : Nat} {fail : Js τ α} {body : Nat → Js τ α} (hfail : Keeps (Has bufs p ls) fail)
    (hbody : ∀ q, Keeps (Has (q :: bufs) p ls) (body q)) : Keeps (Has bufs p ls) (withBuffer W size fail body) := by
  refine @Keeps.bracket _ _ _ _ _ (fun q => Has (q :: bufs) p ls) _ _ _ _ (fun d d' hd h => allocate_has hd h)
    (fun d q d' hd h => allocate_has hd h) hfail hbody ?_
  exact fun q d hd => ⟨hd.heap.drop, hd.parsedFramePtr, hd.lost⟩

theorem keeps_decodeWith (send : Bytes → Nat → τ → Int × τ) (receive : τ → Int × τ) (extract : τ → Except String α)
    (infoSize : Nat) (noInput notSent noInfo notReceived : String) (data : Bytes) (pts : Nat) : Keeps (Has bufs p ls)
      (decodeWith W send receive extract infoSize noInput notSent noInfo notReceived data pts) := by
  refine keeps_withBuffer W (.throw _) fun dataPtr => .bind (keeps_copy (by simp) _) fun _ => .bind (keeps_touch (by simp)) fun _ =>
    .bind (keeps_ccall _) fun sendResult => .ite (.throw _) ?_
  refine keeps_withBuffer W (.throw _) fun frameInfoPtr => .bind (keeps_touch (by simp)) fun _ =>
    .bind (keeps_ccall _) fun receiveResult => .ite (.pure _) (.ite (.throw _) ?_)
  exact .bind (keeps_copy (by simp) extract) fun _ => .pure _

theorem keeps_decode (data : Bytes) (pts : Nat) : Keeps (Has [] p ls) (decode W data pts) :=
  .bind .get fun _ => .ite (.throw _) (.ite (.throw _) (keeps_decodeWith W _ _ _ _ _ _ _ _ data pts))

theorem keeps_decodeAudio (data : Bytes) (pts : Nat) : Keeps (Has [] p ls) (decodeAudio W data pts) :=
  .bind .get fun _ => .ite (.throw _) (keeps_decodeWith W _ _ _ _ _ _ _ _ data pts)

theorem keeps_receiveFrames {frameInfoPtr : Nat} (hptr : frameInfoPtr ∈ bufs) (n : Nat) :
    Keeps (Has bufs p ls) (receiveFrames W frameInfoPtr n) := by
  have hmem : frameInfoPtr ∈ bufs ++ (p.toList ++ ls) := List.mem_append_left _ hptr
  induction n with
  | zero => exact .pure _
  | succ n ih =>
    refine .bind (keeps_touch hmem) fun _ => .bind (keeps_ccall _) fun result => .ite (.pure _) ?_
    exact .bind (keeps_copy hmem _) fun frame => .bind ih fun frames => .pure _

theorem keeps_flush : Keeps (Has [] p ls) (flush W) :=
  .bind .get fun _ => .ite (.throw _) (.bind (keeps_ccall _) fun _ => keeps_withBuffer W (.throw _) fun _ =>
    .bind (keeps_ccall _) fun rounds => keeps_receiveFrames W List.mem_cons_self rounds)

theorem keeps_parseFrame (data : Bytes) : Keeps (Has [] p ls) (parseFrame W data) := by
  refine .get_bind fun d hd => ?_
  split
  · exact .throw _
  · rename_i hready
    obtain ⟨q, hq⟩ := Option.ne_none_iff_exists'.mp (not_or.mp (not_or.mp hready).2).2
    have hmem : ∀ dataPtr, q ∈ [dataPtr] ++ (p.toList ++ ls) := fun dataPtr => by simp [← hd.parsedFramePtr, hq]
    rw [hq]
    refine keeps_withBuffer W (.throw _) fun dataPtr => .bind (keeps_copy (by simp) _) fun _ => .bind (keeps_touch (by simp)) fun _ =>
      .bind (keeps_touch (hmem dataPtr)) fun _ => .bind (keeps_ccall _) fun status => .ite (.pure _) ?_
    exact .bind (keeps_copy (hmem dataPtr) _) fun info => .pure _

theorem keeps_initAudio (config : AudioDecoderConfig) : Keeps (Has [] p ls) (initAudio W config) := by
  refine .bind .get fun _ => .ite (.throw _) (.bind (keeps_ccall _) fun result => .ite (.throw _) ?_)
  exact .modifyGet fun d hd => ⟨hd.heap, hd.parsedFramePtr, hd.lost⟩

theorem keeps_init (config : DecoderConfig) (createModule : Except String τ) : Keeps (Has [] p ls) (init W config createModule) := by
  unfold init
  split
  · exact .throw _
  · refine .bind (.modifyGet fun d hd => ⟨hd.heap, hd.parsedFramePtr, hd.lost⟩) fun _ => .bind (keeps_ccall _) fun result => ?_
    exact .ite (.throw _) (.modifyGet fun d hd => ⟨hd.heap, hd.parsedFramePtr, hd.lost⟩)

end

theorem Sound.keeps {m : Js τ α} (hm : ∀ p ls, Keeps (Has [] p ls) m) : Keeps Sound m := by
  intro d hd
  have hkept := hm d.parsedFramePtr d.lost d hd
  unfold Sound
  rw [hkept.parsedFramePtr, hkept.lost]
  exact hkept

theorem storeStruct_sound {d : DecoderWrapper τ} (hd : Sound d) : Sound (storeStruct W d).2 := by
  unfold storeStruct
  rcases halloc : allocate W.frameProtocolAllocResult d with ⟨q, d'⟩
  have htaken := allocate_has hd halloc
  refine ⟨?_, rfl, rfl⟩
  simp only [htaken.parsedFramePtr, htaken.lost]
  simpa using htaken.heap

theorem initProtocol_sound : Keeps Sound (initProtocol W) := by
  refine .bind .get fun d => .ite (.throw _) (.bind (.keeps fun p ls => keeps_ccall _) fun result => .ite (.throw _) ?_)
  refine .bind (.modifyGet fun d hd => storeStruct_sound W hd) fun ptr => .ite (.throw _) (.modifyGet fun d hd => ?_)
  exact ⟨hd.heap, rfl, rfl⟩

theorem allocate_same (f : τ → Bool × τ) (d : DecoderWrapper τ) :
    (allocate f d).2.parsedFramePtr = d.parsedFramePtr ∧ (allocate f d).2.lost = d.lost := by
  unfold allocate
  split
  · exact ⟨rfl, rfl⟩
  · exact ⟨rfl, rfl⟩

/-- The first struct takes no place of another. -/
theorem initProtocol_lost {d : DecoderWrapper τ} (hd : d.parsedFramePtr = none ∧ d.lost = []) :
    (initProtocol W d).2.lost = [] := by
  let Fresh (d : DecoderWrapper τ) : Prop := d.parsedFramePtr = none ∧ d.lost = []
  have hcall : Keeps Fresh (ccall W.frameProtocolInit) := by
    intro d hd
    unfold ccall
    split
    · exact hd
    · exact hd
  have hstore : ∀ d, Fresh d → (storeStruct W d).2.lost = [] := by
    intro d hd
    obtain ⟨hptr, hlost⟩ := allocate_same W.frameProtocolAllocResult d
    simp [storeStruct, hptr, hlost, hd.1, hd.2]
  have hrest : ∀ ptr : Option Nat, Keeps (fun d : DecoderWrapper τ => d.lost = []) (if ptr = none then
      throw "Failed to allocate ParsedFrame struct" else modify fun d => { d with protocolInitialized := true }) :=
    fun ptr => .ite (.throw _) (.modifyGet fun d hd => hd)
  refine @Keeps.bind_to _ _ _ _ Fresh (fun d => d.lost = []) _ _ .get (fun _ d hd => ?_) (fun _ hd => hd.2) d hd
  split
  · exact hd.2
  · refine @Keeps.bind_to _ _ _ _ Fresh (fun d => d.lost = []) _ _ hcall (fun result d hd => ?_) (fun _ hd => hd.2) d hd
    split
    · exact hd.2
    · exact hrest _ _ (hstore d hd)

/-- A new wrapper owns nothing. -/
theorem has_new : Has [] none [] ({} : DecoderWrapper τ) := ⟨Ledger.holds_empty, rfl, rfl⟩

/-- The struct of the parser goes back. -/
theorem destroyProtocol_sound {d : DecoderWrapper τ} (hd : Sound d) : Sound (d.destroyProtocol W) ∧
    (d.module.isSome = true → d.protocolInitialized = true → (d.destroyProtocol W).heap.Holds d.lost) := by
  have hdrop : (d.heap.dropOpt d.parsedFramePtr).Holds d.lost := Ledger.Holds.dropOpt (by simpa using hd.heap)
  unfold destroyProtocol
  cases d.module with
  | none => exact ⟨hd, fun h => absurd h Bool.false_ne_true⟩
  | some t =>
    simp only
    split
    · exact ⟨⟨by simpa using hdrop, rfl, rfl⟩, fun _ _ => hdrop⟩
    · rename_i hinit
      exact ⟨hd, fun _ h => absurd h hinit⟩

theorem destroy_sound {d : DecoderWrapper τ} (hd : Sound d) : Sound (d.destroy W) := by
  unfold destroy
  split
  · obtain ⟨hheap, -, -⟩ := (destroyProtocol_sound W hd).1
    exact ⟨hheap, rfl, rfl⟩
  · exact hd

theorem destroy_lost (d : DecoderWrapper τ) : (d.destroy W).lost = d.lost := by
  have hprotocol : (d.destroyProtocol W).lost = d.lost := by
    unfold destroyProtocol
    split
    · rfl
    · split
      · rfl
      · rfl
  unfold destroy
  split
  · exact hprotocol
  · rfl

end DecoderWrapper

/-! ## In the worker -/

section
variable {M D F A S : Type}

theorem bind_eq {α β : Type} (m : Throws String D α) (k : α → Throws String D β) : bind m k = m >>= k := by
  funext d
  rw [Throws.run_bind, bind]
  rcases m d with ⟨r, d'⟩
  cases r <;> rfl

/-- A new decoder meets `I`, and all but `initProtocol` keep it. -/
structure Preserves (W : Wrapper M D F A S) (I : D → Prop) : Prop where
  new : I W.new
  init : ∀ config ret, @Keeps String D Unit I (W.init config ret)
  initAudio : ∀ config, @Keeps String D Unit I (W.initAudio config)
  parseFrame : ∀ data, @Keeps String D (Option ParsedFrameInfo) I (W.parseFrame data)
  decode : ∀ data pts, @Keeps String D (Option F) I (W.decode data pts)
  decodeAudio : ∀ data pts, @Keeps String D (Option A) I (W.decodeAudio data pts)
  flush : @Keeps String D (List F) I W.flush
  destroy : ∀ d, I d → I (W.destroy d)

variable {W : Wrapper M D F A S} {I : D → Prop}

theorem keeps_bind {α β : Type} {m : Method D α} {k : α → Method D β} (hm : @Keeps String D α I m)
    (hk : ∀ a, @Keeps String D β I (k a)) : @Keeps String D β I (bind m k) := by
  have heq := bind_eq m k
  rw [heq]
  exact .bind hm hk

theorem serve_keeps (h : Preserves W I) (op : Op) {d : D} (hd : I d) : I (serve W op d).2 := by
  have hop : @Keeps String D (List (Response F A S)) I (handleOp W op) := by
    cases op with
    | initAudio config => exact keeps_bind (h.initAudio config) fun _ => .pure _
    | flush => exact keeps_bind h.flush fun _ => .pure _
    | decode data pts =>
      refine keeps_bind (h.parseFrame data) fun parsed => ?_
      cases parsed with
      | none => exact .pure _
      | some parsed =>
        refine .ite (.pure _) (.ite (.pure _) (.ite ?_ (.ite ?_ (.pure _))))
        · exact keeps_bind (h.decode _ _) fun _ => .pure _
        · exact keeps_bind (h.decodeAudio _ _) fun _ => .pure _
  have hkept := hop d hd
  unfold serve
  split
  · rename_i heq
    rwa [heq] at hkept
  · rename_i heq
    rwa [heq] at hkept

theorem instances_set {w : DecodeWorker D} (hw : ∀ i, I (w.instances i)) (j : Nat) {d : D} (hd : I d) :
    ∀ i, I ((w.set j d).instances i) := by
  intro i
  unfold DecodeWorker.set
  simp only
  split
  · exact hd
  · exact hw i

/-- The instances that a message of the page leaves. -/
theorem instances_onmessage (h : Preserves W I) {w : DecodeWorker D} (hw : ∀ i, I (w.instances i)) (request : Request) :
    ∀ i, I ((w.onmessage W request).2.instances i) := by
  have hdestroy : ∀ i, I ((w.destroyDecoder W).instances i) := by
    unfold DecodeWorker.destroyDecoder
    split
    · exact hw
    · exact instances_set hw _ (h.destroy _ (hw _))
  cases request with
  | init config => exact instances_set hdestroy _ h.new
  | destroy => exact hdestroy
  | op op =>
    unfold DecodeWorker.onmessage DecodeWorker.handleRequest
    simp only
    split
    · exact hw
    · exact instances_set hw _ (serve_keeps h op (hw _))

/-- The decoder on which a handler that goes on calls `initProtocol`. -/
def resumed (W : Wrapper M D F A S) (w : DecodeWorker D) (i : Nat) (config : DecoderConfig) (ret : Except String M) (j : Nat) : D :=
  (w.set i (W.init config ret (w.instances i)).2).instances j

/-- The instances that such a handler leaves. -/
theorem instances_resumeInit (h : Preserves W I) {w : DecodeWorker D} (hw : ∀ i, I (w.instances i)) (k i : Nat)
    (config : DecoderConfig) (ret : Except String M)
    (hproto : ∀ j, w.decoder = some j → I (W.initProtocol (resumed W w i config ret j)).2) :
    ∀ j, I ((w.resumeInit W k i config ret).2.instances j) := by
  have hinit := instances_set hw i (h.init config ret _ (hw i))
  unfold resumed at hproto
  unfold DecodeWorker.resumeInit
  simp only
  rcases hret : W.init config ret (w.instances i) with ⟨r, d⟩
  rw [hret] at hinit hproto
  cases r with
  | error e => exact hinit
  | ok u =>
    simp only
    split
    · exact hinit
    · rename_i j hj
      have hkept : I (W.initProtocol (({ w with loading := w.loading.eraseIdx k }.set i d).instances j)).2 := hproto j hj
      split
      · rename_i heq
        rw [heq] at hkept
        exact instances_set hinit j hkept
      · rename_i heq
        rw [heq] at hkept
        exact instances_set hinit j hkept

/-- What a step does to the instances. -/
theorem instances_step (h : Preserves W I) {s s' : WorkerBridge M D F A S} {e : Event M} (hs : ∀ i, I (s.thread.instances i))
    (hstep : WorkerBridge.step W s e = some s')
    (hproto : ∀ (k i : Nat) (config : DecoderConfig) ret, s.thread.loading[k]? = some (i, config) → ∀ j,
      s.thread.decoder = some j → I (W.initProtocol (resumed W s.thread i config ret j)).2) : ∀ i, I (s'.thread.instances i) := by
  rcases step_cases hstep with hpage | hbridge
  · rw [hpage.only.thread]
    exact hs
  · cases hbridge with
    | handle => exact instances_onmessage h hs _
    | @load k i config ret hk => exact instances_resumeInit h hs k i config ret (hproto k i config ret hk)
    | receive =>
      rw [(onmessage_hears _ _).thread]
      exact hs
    | destroy =>
      obtain ⟨-, -, -, -, hthread⟩ := destroy_silent s
      rw [hthread]
      exact hs
    | terminate => exact hs
    | interval => exact hs

end

/-! ## The decoder behind the bridge -/

namespace DecoderWrapper

variable {τ F A S : Type} (W : Wasm τ F A)

/-- The wrapper as the worker uses it. -/
def wrapper (getStats : DecoderWrapper τ → S) : Wrapper τ (DecoderWrapper τ) F A S where
  new := {}
  init := init W
  initProtocol := initProtocol W
  initAudio := initAudio W
  parseFrame := parseFrame W
  decode := decode W
  decodeAudio := decodeAudio W
  flush := flush W
  destroy := destroy W
  getStats := getStats

variable {W} {getStats : DecoderWrapper τ → S} {s s' : WorkerBridge τ (DecoderWrapper τ) F A S}

theorem preserves_of_has {I : DecoderWrapper τ → Prop} (h : ∀ {α : Type} (m : Js τ α), (∀ p ls, Keeps (Has [] p ls) m) → Keeps I m)
    (hnew : I {}) (hdestroy : ∀ d, I d → I (destroy W d)) : Preserves (wrapper W getStats) I where
  new := hnew
  init config ret := h _ fun _ _ => keeps_init W config ret
  initAudio config := h _ fun _ _ => keeps_initAudio W config
  parseFrame data := h _ fun _ _ => keeps_parseFrame W data
  decode data pts := h _ fun _ _ => keeps_decode W data pts
  decodeAudio data pts := h _ fun _ _ => keeps_decodeAudio W data pts
  flush := h _ fun _ _ => keeps_flush W
  destroy := hdestroy

/-- Sound, and nothing lost. -/
def Whole (d : DecoderWrapper τ) : Prop := Sound d ∧ d.lost = []

theorem preserves_sound : Preserves (wrapper W getStats) Sound :=
  preserves_of_has (fun _ hm => .keeps hm) has_new fun _ hd => destroy_sound W hd

theorem preserves_whole : Preserves (wrapper W getStats) Whole := by
  refine preserves_of_has (fun m hm d hd => ⟨Sound.keeps hm d hd.1, ?_⟩) ⟨has_new, rfl⟩ fun d hd =>
    ⟨destroy_sound W hd.1, (destroy_lost W d).trans hd.2⟩
  rw [(hm d.parsedFramePtr d.lost d hd.1).lost]
  exact hd.2

/-- The protocol is initialized once, in the first decoder, as long as the page
has not destroyed the bridge. -/
theorem whole_step {e : Event τ} (hlive : Live (wrapper W getStats) s) (hs : ∀ i, Whole (s.thread.instances i))
    (hstep : WorkerBridge.step (wrapper W getStats) s e = some s') : ∀ i, Whole (s'.thread.instances i) := by
  refine instances_step preserves_whole hs hstep fun k i config ret hk j hj => ?_
  obtain ⟨-, rfl, -, hdecoder, hnew, -⟩ := serves_waits hlive.serves hk
  obtain rfl : j = 0 := Option.some.inj (hj.symm.trans hdecoder)
  have hresumed : resumed (wrapper W getStats) s.thread 0 config ret 0 = (init W config ret {}).2 := by
    rw [resumed, DecodeWorker.set_same, hnew]
    rfl
  have hinit : Has [] none [] (init W config ret {}).2 := keeps_init W config ret {} has_new
  rw [hresumed]
  have hsound : Sound (init W config ret {}).2 := by
    unfold Sound
    rw [hinit.parsedFramePtr, hinit.lost]
    exact hinit
  exact ⟨initProtocol_sound W _ hsound, initProtocol_lost W ⟨hinit.parsedFramePtr, hinit.lost⟩⟩

theorem reachable_heap (h : (bridge (wrapper W getStats)).Reachable s) : (∀ i, Sound (s.thread.instances i)) ∧
    ((Live (wrapper W getStats) s ∧ ∀ i, Whole (s.thread.instances i)) ∨ s.callbacks = false) := by
  have hinv : (bridge (wrapper W getStats)).Inductive fun s => (∀ i, Sound (s.thread.instances i)) ∧
      ((Live (wrapper W getStats) s ∧ ∀ i, Whole (s.thread.instances i)) ∨ s.callbacks = false) := by
    constructor
    · intro s hs
      rw [hs]
      exact ⟨fun _ => has_new, .inl ⟨live_start, fun _ => ⟨has_new, rfl⟩⟩⟩
    · intro s e s' hs hstep
      obtain ⟨hsound, hlive⟩ := hs
      constructor
      · refine instances_step preserves_sound hsound hstep fun k i config ret _ j _ => initProtocol_sound W _ ?_
        exact instances_set hsound i (preserves_sound.init config ret _ (hsound i)) j
      · rcases hlive with ⟨hlive, hwhole⟩ | hsilent
        · rcases live_step hlive hstep with hlive' | rfl
          · exact .inl ⟨hlive', whole_step hlive hwhole hstep⟩
          · exact .inr (destroy_silent s).1
        · exact .inr (silent_step hsilent hstep).1
  exact hinv.reachable h

/-- **The buffers of the worker.** In every run of the page and the worker,
whatever the module returns and wherever a method throws, no buffer is used or
freed that is not live, and between two messages the live buffers of a decoder
are the struct of the parser and those that a repeated `initProtocol` lost;
before the page destroys the bridge none is lost. What `destroyProtocol` then
leaves is what was lost. -/
theorem worker_heap (h : (bridge (wrapper W getStats)).Reachable s) (i : Nat) :
    (s.thread.instances i).heap.Holds ((s.thread.instances i).parsedFramePtr.toList ++ (s.thread.instances i).lost) ∧
      (s.callbacks = true → (s.thread.instances i).lost = []) ∧
      ((s.thread.instances i).module.isSome = true → (s.thread.instances i).protocolInitialized = true →
        ((s.thread.instances i).destroyProtocol W).heap.Holds (s.thread.instances i).lost) := by
  obtain ⟨hsound, hlive⟩ := reachable_heap h
  refine ⟨(hsound i).heap, fun hcallbacks => ?_, (destroyProtocol_sound W (hsound i)).2⟩
  rcases hlive with ⟨-, hwhole⟩ | hsilent
  · exact (hwhole i).2
  · cases hcallbacks.symm.trans hsilent

/-! ## A run -/

/-- Every packet is a frame. -/
def receiveOne : Nat → Int × Nat
  | 0 => (1, 0)
  | n + 1 => (0, n)

theorem receiveOne_lt (n : Nat) (h : (receiveOne n).1 = 0) : (receiveOne n).2 < n := by
  cases n with
  | zero => cases h
  | succ n => exact Nat.lt_succ_self n

theorem receiveOne_le (n : Nat) : (receiveOne n).1 ≤ 1 := by
  cases n with
  | zero => exact Int.le_refl 1
  | succ n => exact Int.zero_le_ofNat 1

/-- No codec but H.264 is there, and empty data cannot be copied. -/
def oneFrame : Wasm Nat Bytes Bytes where
  decoderMalloc _ n := (true, n)
  copyIn data _ := if data = [] then .error "offset is out of bounds" else .ok ()
  decoderInitVideo codec n := (-(codec : Int), n)
  decoderSendVideoPacket _ _ n := (0, n + 1)
  decoderReceiveVideoFrame := receiveOne
  extractVideoFrame _ := .ok [7]
  decoderFlushVideo n := n
  decoderInitAudio _ _ _ n := (0, n)
  decoderSendAudioPacket _ _ n := (0, n)
  decoderReceiveAudioFrame n := (1, n)
  extractAudioFrame _ := .ok []
  frameProtocolInit n := (0, n)
  frameProtocolAllocResult n := (true, n)
  frameProtocolParse _ n := (.COMPLETE, n)
  readParsedFrame _ := .ok { status := .COMPLETE, msgType := 1, timestamp := 40, payload := [7] }
  frameProtocolFreeResult n := n
  frameProtocolDestroy n := n
  videoFrames n := n
  videoFrames_lt := receiveOne_lt
  status := receiveOne_le

/-- A copy that throws, and a frame. -/
def decodeRun : List (Event Nat) :=
  [.init ⟨"h264", none⟩, .call (.decode [] none), .call (.decode [7] none), .handle, .load 0 (.ok 0), .receive, .resume 0,
    .resume 0, .handle, .handle]

/-- Two that load, and the second has no decoder for its codec: the first goes
on with its wrapper. -/
def overtakenRun : List (Event Nat) :=
  [.init ⟨"h264", none⟩, .handle, .destroy, .init ⟨"h265", none⟩, .handle, .handle, .load 1 (.ok 0), .load 0 (.ok 0)]

def loaded : Wrapper Nat (DecoderWrapper Nat) Bytes Bytes Unit := wrapper oneFrame fun _ => ()

def runs (es : List (Event Nat)) : WorkerBridge Nat (DecoderWrapper Nat) Bytes Bytes Unit :=
  (es.foldlM (WorkerBridge.step loaded) (.start loaded)).getD (.start loaded)

theorem worker_heap_runs : (∃ d, (runs decodeRun).thread.instances 0 = d ∧ d.heap.Holds d.parsedFramePtr.toList ∧
      (d.destroyProtocol oneFrame).heap.Holds []) ∧
    ∃ d, (runs overtakenRun).thread.instances 1 = d ∧ d.initialized = false ∧ d.parsedFramePtr = some 0 ∧
      d.heap.Holds (d.parsedFramePtr.toList ++ d.lost) := by
  have hdecode : decodeRun.foldlM (WorkerBridge.step loaded) (.start loaded) = some (runs decodeRun) := rfl
  have hovertaken : overtakenRun.foldlM (WorkerBridge.step loaded) (.start loaded) = some (runs overtakenRun) := rfl
  constructor
  · obtain ⟨hheap, hlost, hdestroy⟩ := worker_heap (reachable_events hdecode) 0
    have hnone := hlost rfl
    rw [hnone, List.append_nil] at hheap
    rw [hnone] at hdestroy
    exact ⟨_, rfl, hheap, hdestroy rfl rfl⟩
  · obtain ⟨hheap, -⟩ := worker_heap (reachable_events hovertaken) 1
    exact ⟨_, rfl, rfl, rfl, hheap⟩

example : (runs decodeRun).toPage = [.error "Worker error: offset is out of bounds", .frame [7]] := rfl

end DecoderWrapper

end WebPlayer.L4.Worker
