import Mathlib.Tactic.Ring
import WebPlayer.Core.Ledger
import WebPlayer.L4App.VideoDecoder

/-!
# The decoder's globals (`wasm/decoder_wasm.c`)

The module keeps what FFmpeg gives it in global variables. A call is made with
what FFmpeg answers in it: which allocations succeed, what the functions
return, and what they decode. A pointer is a resource of the ledger or null.

**FFmpeg.** Any allocation and any call may fail, in any order of the exported
functions.
* A function that fails to allocate returns null and keeps nothing; a `free`
  function takes what the matching one gave, once, and null.
* `Documented`: a decoded audio frame has samples, no more than a buffer can
  hold, and the resampler gives out no more than was asked for.

**Results.**
* `reachable_owned`: between two calls the live objects are those that the
  globals point to, each once, and a decoder has all of its objects or none.
* `parser_never_missing`: an initialized video decoder has a parser, so that
  no packet is sent past it.
-/
namespace WebPlayer.L4.DecoderWasm
open WebPlayer.Core
open VideoDecoder (DecodeStatus)

/-! ## The globals -/

/-- mirrors wasm/decoder_wasm.c:22-27 -/
structure VideoGlobals where
  ctx : Option Nat := none
  frame : Option Nat := none
  packet : Option Nat := none
  /-- `codec_type` of the entry of FFmpeg's table. -/
  codec : Option Nat := none
  parser : Option Nat := none
  initialized : Bool := false
  deriving DecidableEq, Repr

/-- The output buffer is a pointer, and `outputBufSize` what the code takes
its size to be.
mirrors wasm/decoder_wasm.c:32-39 -/
structure AudioGlobals where
  ctx : Option Nat := none
  frame : Option Nat := none
  packet : Option Nat := none
  codec : Option Nat := none
  swr : Option Nat := none
  outputBuf : Option Nat := none
  outputBufSize : Nat := 0
  initialized : Bool := false
  deriving DecidableEq, Repr

/-- The samples at the output buffer. `capacity` is how many were allocated;
`overruns` counts the writes behind them. -/
structure Samples (σ : Type) where
  capacity : Nat := 0
  data : Nat → Option σ := fun _ => none
  overruns : Nat := 0

/-- With what the model adds: the memory, and the number of channels that the
resampler was made for. -/
structure Globals (σ : Type) where
  video : VideoGlobals := {}
  audio : AudioGlobals := {}
  heap : Ledger := {}
  samples : Samples σ := {}
  swrChannels : Nat := 0

def Samples.write {σ : Type} (s : Samples σ) (i : Nat) (x : σ) : Samples σ :=
  if i < s.capacity then { s with data := fun j => if j = i then some x else s.data j } else { s with overruns := s.overruns + 1 }

/-! ## What FFmpeg answers -/

/-- What a return value of FFmpeg stands for; `eagain` and `eof` are negative. -/
inductive Ret where
  | ok | eagain | eof | failed
  deriving DecidableEq, Repr

def Ret.status : Ret → DecodeStatus
  | .ok => .ok
  | .eagain => .needMoreData
  | .eof => .eof
  | .failed => .error

/-- What FFmpeg answers to `decoder_init_video` or `decoder_init_audio`. -/
structure InitAnswers where
  found : Bool
  context : Bool
  opened : Int
  frame : Bool
  packet : Bool
  parser : Bool

/-- A round of the loop of `decoder_send_video_packet`: what the parser took
and gave out, and how the packet was received. -/
structure Round where
  consumed : Int
  outSize : Nat
  sent : Ret

inductive SampleFormat where
  | flt | fltp | other
  deriving DecidableEq, Repr

/-- A decoded frame: `data ch i` is the `i`-th sample of plane `ch`; an
interleaved frame has the one plane 0. -/
structure AVFrame (σ : Type) where
  format : SampleFormat
  sampleRate : Nat
  nbChannels : Nat
  nbSamples : Nat
  data : Nat → Nat → σ

/-- What FFmpeg answers to `decoder_receive_audio_frame`. `swrConvert` is the
number of samples that were converted, if that succeeded, and `converted` the
interleaved result. -/
structure AudioAnswers (σ : Type) where
  received : Ret
  frame : AVFrame σ
  malloc : Bool
  swrAlloc : Bool
  swrInit : Int
  swrConvert : Option Nat
  converted : Nat → σ

/-- mirrors wasm/decoder_wasm.h:56-62 -/
structure AudioFrameInfo where
  sampleRate : Nat
  channels : Nat
  nbSamples : Nat
  deriving DecidableEq, Repr

def AVFrame.outputSamples {σ : Type} (f : AVFrame σ) : Nat := f.nbSamples * f.nbChannels

def AVFrame.info {σ : Type} (f : AVFrame σ) : AudioFrameInfo := ⟨f.sampleRate, f.nbChannels, f.nbSamples⟩

/-! ## The functions -/

namespace Globals

variable {σ : Type} (g : Globals σ)

/-- mirrors wasm/decoder_wasm.c:77-95 -/
def cleanupVideoDecoder : Globals σ :=
  { g with heap := (((g.heap.dropOpt g.video.frame).dropOpt g.video.packet).dropOpt g.video.ctx).dropOpt g.video.parser
           video := { initialized := g.video.initialized } }

/-- mirrors wasm/decoder_wasm.c:287-310 -/
def cleanupAudioDecoder : Globals σ :=
  let a := g.audio
  { g with heap := ((((g.heap.dropOpt a.frame).dropOpt a.packet).dropOpt a.ctx).dropOpt a.swr).dropOpt a.outputBuf
           audio := { outputBufSize := if a.outputBuf = none then a.outputBufSize else 0, initialized := a.initialized }
           samples := { overruns := g.samples.overruns } }

/-- mirrors wasm/decoder_wasm.c:48-57 -/
def findVideoDecoder (codecType : Nat) (found : Bool) : Option Nat :=
  if (codecType = 0 ∨ codecType = 1) ∧ found then some codecType else none

/-- The part of `decoder_init_video` behind the cleaning up.
mirrors wasm/decoder_wasm.c:108-150 -/
def openVideo (codecType : Nat) (av : InitAnswers) : Int × Globals σ :=
  let g := { g with video.codec := findVideoDecoder codecType av.found }
  if g.video.codec = none then (-1, g)
  else
    let (ctx, heap) := g.heap.takeIf av.context
    let g := { g with video.ctx := ctx, heap }
    if ctx = none then (-2, g)
    else
      let g := { g with heap := g.heap.useOpt ctx }
      if av.opened < 0 then (-3, { g with video.ctx := none, heap := g.heap.dropOpt ctx })
      else
        let (frame, heap) := g.heap.takeIf av.frame
        let (packet, heap) := heap.takeIf av.packet
        let g := { g with video.frame := frame, video.packet := packet, heap }
        if frame = none ∨ packet = none then (-4, g.cleanupVideoDecoder)
        else
          let (parser, heap) := g.heap.takeIf av.parser
          let g := { g with video.parser := parser, heap }
          if parser = none then (-5, g.cleanupVideoDecoder)
          else (0, { g with video.initialized := true })

/-- mirrors wasm/decoder_wasm.c:101-151 -/
def decoderInitVideo (codecType : Nat) (av : InitAnswers) : Int × Globals σ :=
  if g.video.initialized then
    let g := g.cleanupVideoDecoder
    openVideo { g with video.initialized := false } codecType av
  else g.openVideo codecType av

/-- The loop; it goes on as long as there is input.
mirrors wasm/decoder_wasm.c:183-235 -/
def sendRounds (v : VideoGlobals) : List Round → Int → Bool → Ledger → Option (DecodeStatus × Ledger)
  | [], size, hasPacket, heap => if size ≤ 0 then some (if hasPacket then .ok else .needMoreData, heap) else none
  | round :: rounds, size, hasPacket, heap =>
    if size ≤ 0 then none
    else
      let heap := (heap.useOpt v.parser).useOpt v.ctx
      if round.consumed < 0 then
        if rounds = [] then some (.error, heap) else none
      else if round.outSize = 0 then sendRounds v rounds (size - round.consumed) hasPacket heap
      else
        let heap := ((heap.useOpt v.packet).useOpt v.ctx).useOpt v.packet
        if round.sent = .ok then sendRounds v rounds (size - round.consumed) true heap
        else if rounds = [] then some (round.sent.status, heap) else none

/-- `rounds` are the rounds that the call makes; without a parser there is one
packet and no loop. The flag is that this was so.
mirrors wasm/decoder_wasm.c:153-236 -/
def decoderSendVideoPacket (size : Int) (rounds : List Round) : Option (DecodeStatus × Bool × Globals σ) :=
  let v := g.video
  if v.initialized = false ∨ v.ctx = none ∨ v.packet = none then some (.error, false, g)
  else if v.parser = none then
    match rounds with
    | [round] =>
      some (round.sent.status, true, { g with heap := ((g.heap.useOpt v.packet).useOpt v.ctx).useOpt v.packet })
    | _ => none
  else (sendRounds v rounds size false g.heap).map fun r => (r.1, false, { g with heap := r.2 })

/-- mirrors wasm/decoder_wasm.c:238-274 -/
def decoderReceiveVideoFrame (received : Ret) : DecodeStatus × Globals σ :=
  let v := g.video
  if v.initialized = false ∨ v.ctx = none ∨ v.frame = none then (.error, g)
  else
    let heap := (g.heap.useOpt v.ctx).useOpt v.frame
    if received = .ok then (.ok, { g with heap := heap.useOpt v.frame }) else (received.status, { g with heap })

/-- mirrors wasm/decoder_wasm.c:276-281 -/
def decoderFlushVideo : Globals σ := if g.video.ctx = none then g else { g with heap := g.heap.useOpt g.video.ctx }

/-- mirrors wasm/decoder_wasm.c:59-72 -/
def findAudioDecoder (codecType : Nat) (found : Bool) : Option Nat :=
  if (codecType = 10 ∨ codecType = 11 ∨ codecType = 12 ∨ codecType = 13) ∧ found then some codecType else none

/-- The part of `decoder_init_audio` behind the cleaning up.
mirrors wasm/decoder_wasm.c:322-361 -/
def openAudio (codecType : Nat) (av : InitAnswers) : Int × Globals σ :=
  let g := { g with audio.codec := findAudioDecoder codecType av.found }
  if g.audio.codec = none then (-1, g)
  else
    let (ctx, heap) := g.heap.takeIf av.context
    let g := { g with audio.ctx := ctx, heap }
    if ctx = none then (-2, g)
    else
      -- the parameters are stored in it, then it is opened
      let g := { g with heap := (g.heap.useOpt ctx).useOpt ctx }
      if av.opened < 0 then (-3, { g with audio.ctx := none, heap := g.heap.dropOpt ctx })
      else
        let (frame, heap) := g.heap.takeIf av.frame
        let (packet, heap) := heap.takeIf av.packet
        let g := { g with audio.frame := frame, audio.packet := packet, heap }
        if frame = none ∨ packet = none then (-4, g.cleanupAudioDecoder)
        else (0, { g with audio.initialized := true })

/-- mirrors wasm/decoder_wasm.c:316-362 -/
def decoderInitAudio (codecType : Nat) (av : InitAnswers) : Int × Globals σ :=
  if g.audio.initialized then
    let g := g.cleanupAudioDecoder
    openAudio { g with audio.initialized := false } codecType av
  else g.openAudio codecType av

/-- mirrors wasm/decoder_wasm.c:364-385 -/
def decoderSendAudioPacket (sent : Ret) : DecodeStatus × Globals σ :=
  let a := g.audio
  if a.initialized = false ∨ a.ctx = none ∨ a.packet = none then (.error, g)
  else (sent.status, { g with heap := ((g.heap.useOpt a.packet).useOpt a.ctx).useOpt a.packet })

/-- The buffer is made anew when the samples do not fit in it; the flag is that
there is one. An allocation is as large as a 32-bit `size_t` says.
mirrors wasm/decoder_wasm.c:404-413 -/
def ensureBuffer (outputSamples : Nat) (malloc : Bool) : Bool × Globals σ :=
  if outputSamples ≤ g.audio.outputBufSize then (true, g)
  else
    let (buf, heap) := (g.heap.dropOpt g.audio.outputBuf).takeIf malloc
    let g := { g with audio.outputBuf := buf, heap }
    if buf = none then (false, { g with audio.outputBufSize := 0, samples.capacity := 0 })
    else (true, { g with audio.outputBufSize := outputSamples
                         samples := { capacity := outputSamples * 4 % 2 ^ 32 / 4, overruns := g.samples.overruns } })

/-- The copy of an interleaved frame.
mirrors wasm/decoder_wasm.c:416-418 -/
def copyInterleaved (f : AVFrame σ) (s : Samples σ) : Samples σ :=
  (List.range f.outputSamples).foldl (fun s k => s.write k (f.data 0 k)) s

/-- mirrors wasm/decoder_wasm.c:419-426 -/
def interleave (f : AVFrame σ) (s : Samples σ) : Samples σ :=
  (List.range f.nbSamples).foldl (fun s i =>
    (List.range f.nbChannels).foldl (fun s ch => s.write (i * f.nbChannels + ch) (f.data ch i)) s) s

/-- A resampler for this frame, unless there is one; the flag is that there is.
mirrors wasm/decoder_wasm.c:429-445 -/
def ensureSwr (av : AudioAnswers σ) : Bool × Globals σ :=
  if g.audio.swr ≠ none then (true, g)
  else
    let (swr, heap) := g.heap.takeIf av.swrAlloc
    if swr = none then (false, { g with heap })
    else
      let heap := heap.useOpt swr
      if av.swrInit < 0 then (false, { g with heap := heap.dropOpt swr })
      else (true, { g with audio.swr := swr, swrChannels := av.frame.nbChannels, heap })

/-- mirrors wasm/decoder_wasm.c:427-454 -/
def resample (av : AudioAnswers σ) : Bool × Globals σ :=
  let (ok, g) := g.ensureSwr av
  if ok then
    let g := { g with heap := ((g.heap.useOpt g.audio.swr).useOpt g.audio.outputBuf).useOpt g.audio.frame }
    match av.swrConvert with
    | none => (false, g)
    | some n =>
      (true, { g with samples := (List.range (n * g.swrChannels)).foldl (fun s k => s.write k (av.converted k)) g.samples })
  else (false, g)

/-- The part of `decoder_receive_audio_frame` behind the reception.
mirrors wasm/decoder_wasm.c:400-462 -/
def storeSamples (av : AudioAnswers σ) : DecodeStatus × Option AudioFrameInfo × Globals σ :=
  let (ok, g) := g.ensureBuffer av.frame.outputSamples av.malloc
  if ok then
    match av.frame.format with
    | .flt =>
      let g := { g with heap := (g.heap.useOpt g.audio.outputBuf).useOpt g.audio.frame }
      (.ok, some av.frame.info, { g with samples := copyInterleaved av.frame g.samples })
    | .fltp =>
      let g := { g with heap := (g.heap.useOpt g.audio.outputBuf).useOpt g.audio.frame }
      (.ok, some av.frame.info, { g with samples := interleave av.frame g.samples })
    | .other =>
      let (ok, g) := g.resample av
      if ok then (.ok, some av.frame.info, g) else (.error, none, g)
  else (.error, none, g)

/-- mirrors wasm/decoder_wasm.c:387-463 -/
def decoderReceiveAudioFrame (av : AudioAnswers σ) : DecodeStatus × Option AudioFrameInfo × Globals σ :=
  let a := g.audio
  if a.initialized = false ∨ a.ctx = none ∨ a.frame = none then (.error, none, g)
  else
    let g := { g with heap := (g.heap.useOpt a.ctx).useOpt a.frame }
    if av.received ≠ .ok then (av.received.status, none, g)
    else storeSamples { g with heap := g.heap.useOpt a.frame } av

/-- mirrors wasm/decoder_wasm.c:465-473 -/
def decoderFlushAudio : Globals σ :=
  let g := if g.audio.ctx = none then g else { g with heap := g.heap.useOpt g.audio.ctx }
  if g.audio.swr = none then g else { g with audio.swr := none, heap := g.heap.dropOpt g.audio.swr }

/-- mirrors wasm/decoder_wasm.c:479-485 -/
def decoderDestroy : Globals σ :=
  let g := g.cleanupVideoDecoder.cleanupAudioDecoder
  { g with video.initialized := false, audio.initialized := false }

end Globals

/-! ## Runs -/

inductive Call (σ : Type) where
  | initVideo (codecType : Nat) (av : InitAnswers)
  | sendVideo (size : Int) (rounds : List Round)
  | receiveVideo (received : Ret)
  | flushVideo
  | initAudio (codecType : Nat) (av : InitAnswers)
  | sendAudio (sent : Ret)
  | receiveAudio (av : AudioAnswers σ)
  | flushAudio
  | destroy

/-- `none`: the call does not make these rounds. -/
def Globals.step {σ : Type} (g : Globals σ) : Call σ → Option (Globals σ)
  | .initVideo codecType av => some (g.decoderInitVideo codecType av).2
  | .sendVideo size rounds => (g.decoderSendVideoPacket size rounds).map (·.2.2)
  | .receiveVideo received => some (g.decoderReceiveVideoFrame received).2
  | .flushVideo => some g.decoderFlushVideo
  | .initAudio codecType av => some (g.decoderInitAudio codecType av).2
  | .sendAudio sent => some (g.decoderSendAudioPacket sent).2
  | .receiveAudio av => some (g.decoderReceiveAudioFrame av).2.2
  | .flushAudio => some g.decoderFlushAudio
  | .destroy => some g.decoderDestroy

def system (σ : Type) : Lts (Globals σ) (Call σ) := .ofFn (· = {}) Globals.step

/-- What FFmpeg promises of audio: a frame has samples, no more than a buffer
can hold, and the resampler gives out no more than was asked for. -/
structure AudioAnswers.Documented {σ : Type} (av : AudioAnswers σ) : Prop where
  nbSamples : 0 < av.frame.nbSamples
  nbChannels : 0 < av.frame.nbChannels
  size : av.frame.outputSamples < 2 ^ 30
  swrConvert : ∀ n, av.swrConvert = some n → n ≤ av.frame.nbSamples

def Documented {σ : Type} (_ : Globals σ) (call : Call σ) : Prop := ∀ av, call = .receiveAudio av → av.Documented

/-! ## Who owns what -/

def videoHandles (v : VideoGlobals) : List Nat :=
  v.frame.toList ++ (v.packet.toList ++ (v.ctx.toList ++ v.parser.toList))

def audioHandles (a : AudioGlobals) : List Nat :=
  a.frame.toList ++ (a.packet.toList ++ (a.ctx.toList ++ (a.swr.toList ++ a.outputBuf.toList)))

/-- All objects, or none. -/
inductive VideoOk : VideoGlobals → Prop where
  | idle (codec : Option Nat) : VideoOk { codec }
  | «open» (codec : Option Nat) (ctx frame packet parser : Nat) :
      VideoOk { ctx := some ctx, frame := some frame, packet := some packet, codec, parser := some parser, initialized := true }

inductive AudioOk : AudioGlobals → Prop where
  | idle (codec : Option Nat) : AudioOk { codec }
  | «open» (codec : Option Nat) (ctx frame packet : Nat) (swr outputBuf : Option Nat) (outputBufSize : Nat)
      (h : outputBuf = none → outputBufSize = 0) :
      AudioOk { ctx := some ctx, frame := some frame, packet := some packet, codec, swr, outputBuf, outputBufSize
                initialized := true }

theorem AudioOk.size {a : AudioGlobals} (h : AudioOk a) (hbuf : a.outputBuf = none) : a.outputBufSize = 0 := by
  cases h with
  | idle => rfl
  | «open» codec ctx frame packet swr buf size h => exact h hbuf

theorem VideoOk.opened {v : VideoGlobals} (h : VideoOk v) (hinit : v.initialized = true) : ∃ codec ctx frame packet parser,
    v = { ctx := some ctx, frame := some frame, packet := some packet, codec, parser := some parser, initialized := true } := by
  cases h with
  | idle => cases hinit
  | «open» codec ctx frame packet parser => exact ⟨codec, ctx, frame, packet, parser, rfl⟩

theorem AudioOk.opened {a : AudioGlobals} (h : AudioOk a) (hinit : a.initialized = true) :
    ∃ codec ctx frame packet, a = { ctx := some ctx, frame := some frame, packet := some packet, codec, swr := a.swr
                                    outputBuf := a.outputBuf, outputBufSize := a.outputBufSize, initialized := true } := by
  cases h with
  | idle => cases hinit
  | «open» codec ctx frame packet => exact ⟨codec, ctx, frame, packet, rfl⟩

theorem VideoOk.closed {v : VideoGlobals} (h : VideoOk v) (hinit : ¬ v.initialized = true) : ∃ codec, v = { codec } := by
  cases h with
  | idle codec => exact ⟨codec, rfl⟩
  | «open» => exact absurd rfl hinit

theorem AudioOk.closed {a : AudioGlobals} (h : AudioOk a) (hinit : ¬ a.initialized = true) : ∃ codec, a = { codec } := by
  cases h with
  | idle codec => exact ⟨codec, rfl⟩
  | «open» => exact absurd rfl hinit

structure Owned {σ : Type} (g : Globals σ) : Prop where
  heap : g.heap.Holds (videoHandles g.video ++ audioHandles g.audio)
  video : VideoOk g.video
  audio : AudioOk g.audio

namespace Globals

variable {σ : Type} {g : Globals σ}

theorem cleanupVideo_holds {ps : List Nat} (h : g.heap.Holds (videoHandles g.video ++ ps)) :
    g.cleanupVideoDecoder.heap.Holds ps := by
  simp only [videoHandles, List.append_assoc] at h
  exact h.dropOpt.dropOpt.dropOpt.dropOpt

theorem cleanupAudio_holds {ps : List Nat} (h : g.heap.Holds (audioHandles g.audio ++ ps)) :
    g.cleanupAudioDecoder.heap.Holds ps := by
  simp only [audioHandles, List.append_assoc] at h
  exact h.dropOpt.dropOpt.dropOpt.dropOpt.dropOpt

theorem cleanupVideo_owned (hheap : g.heap.Holds (videoHandles g.video ++ audioHandles g.audio))
    (hvideo : g.video.initialized = false) (haudio : AudioOk g.audio) : Owned g.cleanupVideoDecoder := by
  refine ⟨cleanupVideo_holds hheap, ?_, haudio⟩
  simp only [cleanupVideoDecoder, hvideo]
  exact .idle none

/-- Opening, from nothing. -/
theorem openVideo_owned {codec : Option Nat} (hvideo : g.video = { codec }) (hheap : g.heap.Holds (audioHandles g.audio))
    (haudio : AudioOk g.audio) (codecType : Nat) (av : InitAnswers) : Owned (g.openVideo codecType av).2 := by
  unfold openVideo
  simp only [hvideo]
  split
  · exact ⟨hheap, .idle _, haudio⟩
  · cases av.context with
    | false => exact ⟨hheap, .idle _, haudio⟩
    | true =>
      have hctx := hheap.take
      simp only [Ledger.takeIf_true, hctx.useOpt rfl List.mem_cons_self, reduceCtorEq, if_false]
      split
      · exact ⟨hctx.drop, .idle _, haudio⟩
      · have hpacket := ((hctx.takeIf av.frame).takeIf av.packet).perm (List.perm_append_comm_assoc ..)
        split
        · exact cleanupVideo_owned (by simpa [videoHandles] using hpacket) rfl haudio
        · rename_i hsome
          obtain ⟨hframe, hsent⟩ := not_or.mp hsome
          obtain ⟨frame, hframe⟩ := Option.ne_none_iff_exists'.mp hframe
          obtain ⟨packet, hsent⟩ := Option.ne_none_iff_exists'.mp hsent
          simp only [hframe, hsent] at hpacket ⊢
          cases av.parser with
          | false => exact cleanupVideo_owned (by simpa [videoHandles] using hpacket) rfl haudio
          | true =>
            simp only [Ledger.takeIf_true, reduceCtorEq, if_false]
            have hparser := hpacket.take.perm (@List.perm_middle _ _ [frame, packet, g.heap.made] _).symm
            exact ⟨by simpa [videoHandles, audioHandles] using hparser, .open .., haudio⟩

theorem decoderInitVideo_owned (h : Owned g) (codecType : Nat) (av : InitAnswers) :
    Owned (g.decoderInitVideo codecType av).2 := by
  unfold decoderInitVideo
  split
  · exact @openVideo_owned _ { g.cleanupVideoDecoder with video.initialized := false } none rfl (cleanupVideo_holds h.heap)
      h.audio codecType av
  · rename_i hinit
    obtain ⟨codec, hvideo⟩ := h.video.closed hinit
    exact openVideo_owned hvideo (by simpa [hvideo, videoHandles] using h.heap) h.audio codecType av

theorem owned_swap (hheap : g.heap.Holds (audioHandles g.audio ++ videoHandles g.video)) (hvideo : VideoOk g.video)
    (haudio : AudioOk g.audio) : Owned g := ⟨hheap.perm List.perm_append_comm, hvideo, haudio⟩

theorem cleanupAudio_audio (hbuf : g.audio.outputBuf = none → g.audio.outputBufSize = 0) :
    g.cleanupAudioDecoder.audio = { initialized := g.audio.initialized } := by
  by_cases hnone : g.audio.outputBuf = none
  · simp [cleanupAudioDecoder, hnone, hbuf hnone]
  · simp [cleanupAudioDecoder, hnone]

theorem cleanupAudio_owned (hheap : g.heap.Holds (audioHandles g.audio ++ videoHandles g.video)) (hvideo : VideoOk g.video)
    (haudio : g.audio.initialized = false) (hbuf : g.audio.outputBuf = none → g.audio.outputBufSize = 0) :
    Owned g.cleanupAudioDecoder := by
  have hidle : g.cleanupAudioDecoder.audio = {} := by rw [cleanupAudio_audio hbuf, haudio]
  refine owned_swap ?_ hvideo (hidle ▸ .idle none)
  rw [hidle]
  exact cleanupAudio_holds hheap

/-- Opening, from nothing. -/
theorem openAudio_owned {codec : Option Nat} (haudio : g.audio = { codec }) (hheap : g.heap.Holds (videoHandles g.video))
    (hvideo : VideoOk g.video) (codecType : Nat) (av : InitAnswers) : Owned (g.openAudio codecType av).2 := by
  unfold openAudio
  simp only [haudio]
  split
  · exact owned_swap hheap hvideo (.idle _)
  · cases av.context with
    | false => exact owned_swap hheap hvideo (.idle _)
    | true =>
      have hctx := hheap.take
      simp only [Ledger.takeIf_true, hctx.useOpt rfl List.mem_cons_self, reduceCtorEq, if_false]
      split
      · exact owned_swap hctx.drop hvideo (.idle _)
      · have hpacket := ((hctx.takeIf av.frame).takeIf av.packet).perm (List.perm_append_comm_assoc ..)
        split
        · exact cleanupAudio_owned (by simpa [audioHandles] using hpacket) hvideo rfl fun _ => rfl
        · rename_i hsome
          obtain ⟨hframe, hsent⟩ := not_or.mp hsome
          obtain ⟨frame, hframe⟩ := Option.ne_none_iff_exists'.mp hframe
          obtain ⟨packet, hsent⟩ := Option.ne_none_iff_exists'.mp hsent
          simp only [hframe, hsent] at hpacket ⊢
          exact owned_swap (by simpa [audioHandles] using hpacket) hvideo (.open _ _ _ _ none none 0 fun _ => rfl)

theorem decoderInitAudio_owned (h : Owned g) (codecType : Nat) (av : InitAnswers) :
    Owned (g.decoderInitAudio codecType av).2 := by
  have hheap := h.heap.perm List.perm_append_comm
  unfold decoderInitAudio
  split
  · refine @openAudio_owned _ { g.cleanupAudioDecoder with audio.initialized := false } none ?_ (cleanupAudio_holds hheap)
      h.video codecType av
    simp [cleanupAudio_audio h.audio.size]
  · rename_i hinit
    obtain ⟨codec, haudio⟩ := h.audio.closed hinit
    exact openAudio_owned haudio (by simpa [haudio, audioHandles] using h.heap) h.video codecType av

/-- The loop uses what it has. -/
theorem sendRounds_heap {ctx frame packet parser : Nat} {codec : Option Nat} {heap heap' : Ledger} {ps : List Nat}
    (h : heap.Holds ps) (hctx : ctx ∈ ps) (hpacket : packet ∈ ps) (hparser : parser ∈ ps) {rounds : List Round} {size : Int}
    {hasPacket : Bool} {status : DecodeStatus}
    (hsend : sendRounds { ctx := some ctx, frame := some frame, packet := some packet, codec, parser := some parser
                          initialized := true } rounds size hasPacket heap = some (status, heap')) : heap' = heap := by
  have huse : ∀ p, p ∈ ps → heap.useOpt (some p) = heap := fun p hp => h.useOpt rfl hp
  induction rounds generalizing size hasPacket with
  | nil =>
    simp only [sendRounds] at hsend
    split at hsend
    · cases hsend
      rfl
    · cases hsend
  | cons round rounds ih =>
    simp only [sendRounds, huse _ hctx, huse _ hpacket, huse _ hparser] at hsend
    split at hsend
    · cases hsend
    · split at hsend
      · split at hsend
        · cases hsend
          rfl
        · cases hsend
      · split at hsend
        · exact ih hsend
        · split at hsend
          · exact ih hsend
          · split at hsend
            · cases hsend
              rfl
            · cases hsend

/-- No packet is sent past the parser. -/
theorem decoderSendVideoPacket_owned (h : Owned g) {size : Int} {rounds : List Round} {status : DecodeStatus} {raw : Bool}
    {g' : Globals σ} (hsend : g.decoderSendVideoPacket size rounds = some (status, raw, g')) : g' = g ∧ raw = false := by
  unfold decoderSendVideoPacket at hsend
  simp only at hsend
  split at hsend
  · cases hsend
    exact ⟨rfl, rfl⟩
  · rename_i hready
    obtain ⟨hinit, -⟩ := not_or.mp hready
    obtain ⟨codec, ctx, frame, packet, parser, hvideo⟩ := h.video.opened (Bool.not_eq_false _ ▸ hinit)
    have hheap := h.heap
    rw [hvideo] at hsend hheap
    simp only [reduceCtorEq, if_false, Option.map_eq_some_iff] at hsend
    obtain ⟨⟨status', heap'⟩, hrounds, heq⟩ := hsend
    have hsame := sendRounds_heap hheap (by simp [videoHandles]) (by simp [videoHandles]) (by simp [videoHandles]) hrounds
    cases heq
    exact ⟨by rw [← hvideo, hsame], rfl⟩

theorem decoderReceiveVideoFrame_owned (h : Owned g) (received : Ret) : (g.decoderReceiveVideoFrame received).2 = g := by
  unfold decoderReceiveVideoFrame
  simp only
  split
  · rfl
  · rename_i hready
    obtain ⟨hinit, -⟩ := not_or.mp hready
    obtain ⟨codec, ctx, frame, packet, parser, hvideo⟩ := h.video.opened (Bool.not_eq_false _ ▸ hinit)
    have hheap := h.heap
    rw [hvideo] at hheap
    have hctx : g.heap.useOpt g.video.ctx = g.heap := hheap.useOpt (by rw [hvideo]) (by simp [videoHandles])
    have hframe : g.heap.useOpt g.video.frame = g.heap := hheap.useOpt (by rw [hvideo]) (by simp [videoHandles])
    simp only [hctx, hframe]
    split
    · rfl
    · rfl

theorem decoderFlushVideo_owned (h : Owned g) : g.decoderFlushVideo = g := by
  unfold decoderFlushVideo
  split
  · rfl
  · rename_i hctx
    obtain ⟨ctx, hctx⟩ := Option.ne_none_iff_exists'.mp hctx
    rw [h.heap.useOpt hctx (by simp [videoHandles, hctx])]

/-- What an open audio decoder uses is there. -/
theorem audio_uses (h : Owned g) {p : Nat} {q : Option Nat} (hq : q = some p)
    (hp : q = g.audio.ctx ∨ q = g.audio.frame ∨ q = g.audio.packet ∨ q = g.audio.swr ∨ q = g.audio.outputBuf) :
    g.heap.useOpt q = g.heap := by
  refine h.heap.useOpt hq (List.mem_append_right _ ?_)
  rw [hq] at hp
  simp only [audioHandles, List.mem_append, Option.mem_toList]
  rcases hp with hp | hp | hp | hp | hp
  · exact .inr (.inr (.inl hp.symm))
  · exact .inl hp.symm
  · exact .inr (.inl hp.symm)
  · exact .inr (.inr (.inr (.inl hp.symm)))
  · exact .inr (.inr (.inr (.inr hp.symm)))

theorem decoderSendAudioPacket_owned (h : Owned g) (sent : Ret) : (g.decoderSendAudioPacket sent).2 = g := by
  unfold decoderSendAudioPacket
  simp only
  split
  · rfl
  · rename_i hready
    obtain ⟨hctx, hpacket⟩ := not_or.mp (not_or.mp hready).2
    obtain ⟨ctx, hctx⟩ := Option.ne_none_iff_exists'.mp hctx
    obtain ⟨packet, hpacket⟩ := Option.ne_none_iff_exists'.mp hpacket
    simp only [audio_uses h hctx (.inl rfl), audio_uses h hpacket (.inr (.inr (.inl rfl)))]

theorem decoderFlushAudio_owned (h : Owned g) : Owned g.decoderFlushAudio := by
  have huse : (if g.audio.ctx = none then g else { g with heap := g.heap.useOpt g.audio.ctx }) = g := by
    split
    · rfl
    · rename_i hctx
      obtain ⟨ctx, hctx⟩ := Option.ne_none_iff_exists'.mp hctx
      rw [audio_uses h hctx (.inl rfl)]
  unfold decoderFlushAudio
  simp only [huse]
  split
  · exact h
  · rename_i hswr
    have haudio := h.audio
    have hheap := h.heap
    generalize g.audio = a at haudio hswr hheap
    cases haudio with
    | idle => exact absurd rfl hswr
    | «open» codec ctx frame packet swr buf size hsize =>
      refine ⟨?_, h.video, .open codec ctx frame packet none buf size hsize⟩
      have hdrop := @Ledger.Holds.dropOpt_at _ (videoHandles g.video ++ [frame, packet, ctx]) _ swr
        (by simpa [audioHandles] using hheap)
      simpa [audioHandles] using hdrop

theorem decoderDestroy_owned (h : Owned g) : Owned g.decoderDestroy ∧ g.decoderDestroy.heap.live = [] := by
  have hvideo : g.cleanupVideoDecoder.heap.Holds (audioHandles g.cleanupVideoDecoder.audio ++ []) := by
    rw [List.append_nil]
    exact cleanupVideo_holds h.heap
  have hheap : g.decoderDestroy.heap.Holds [] := @cleanupAudio_holds _ g.cleanupVideoDecoder [] hvideo
  have haudio : g.decoderDestroy.audio = {} := by
    simp [decoderDestroy, @cleanupAudio_audio _ g.cleanupVideoDecoder h.audio.size]
  refine ⟨⟨?_, .idle none, haudio ▸ .idle none⟩, List.perm_nil.mp hheap.live⟩
  rw [haudio]
  exact hheap

/-- The rest of the globals behind a new buffer. -/
theorem ensureBuffer_owned (h : Owned g) (hinit : g.audio.initialized = true) (n : Nat) (malloc : Bool) :
    Owned (g.ensureBuffer n malloc).2 ∧ (g.ensureBuffer n malloc).2.audio.initialized = true ∧
      (g.ensureBuffer n malloc).2.audio.frame = g.audio.frame ∧
      (0 < n → (g.ensureBuffer n malloc).1 = true → (g.ensureBuffer n malloc).2.audio.outputBuf ≠ none) := by
  have haudio := h.audio
  have hheap := h.heap
  unfold ensureBuffer
  obtain ⟨codec, ctx, frame, packet, haudio'⟩ := haudio.opened hinit
  have hsize := haudio.size
  split
  · exact ⟨h, hinit, rfl, fun hpos _ hnone => absurd (hsize hnone) (by omega)⟩
  · rw [haudio'] at hheap
    have hdrop := @Ledger.Holds.dropOpt_at _ (videoHandles g.video ++ ([frame, packet, ctx] ++ g.audio.swr.toList)) [] g.audio.outputBuf
        (by simpa [audioHandles] using hheap)
    have htake := hdrop.takeIf_at malloc
    cases malloc with
    | false =>
      refine ⟨⟨?_, h.video, ?_⟩, hinit, rfl, fun _ hflag => absurd hflag Bool.false_ne_true⟩
      · rw [haudio']
        simpa [audioHandles] using htake
      · rw [haudio']
        exact .open codec ctx frame packet g.audio.swr none 0 fun _ => rfl
    | true =>
      refine ⟨⟨?_, h.video, ?_⟩, hinit, rfl, fun _ _ => Option.some_ne_none _⟩
      · rw [haudio']
        simpa [audioHandles] using htake
      · rw [haudio']
        exact .open codec ctx frame packet g.audio.swr (some _) n fun hnone => absurd hnone (Option.some_ne_none _)

theorem ensureSwr_owned (h : Owned g) (hinit : g.audio.initialized = true) (av : AudioAnswers σ) :
    Owned (g.ensureSwr av).2 ∧ (g.ensureSwr av).2.audio.frame = g.audio.frame ∧
      (g.ensureSwr av).2.audio.outputBuf = g.audio.outputBuf ∧
      ((g.ensureSwr av).1 = true → (g.ensureSwr av).2.audio.swr ≠ none) := by
  unfold ensureSwr
  split
  · rename_i hswr
    exact ⟨h, rfl, rfl, fun _ => hswr⟩
  · rename_i hswr
    obtain ⟨codec, ctx, frame, packet, haudio⟩ := h.audio.opened hinit
    have hnone : g.audio.swr = none := not_ne_iff.mp hswr
    have hheap := h.heap
    cases av.swrAlloc with
    | false => exact ⟨h, rfl, rfl, fun hflag => absurd hflag Bool.false_ne_true⟩
    | true =>
      have htake := hheap.take
      simp only [Ledger.takeIf_true, reduceCtorEq, if_false, htake.useOpt rfl List.mem_cons_self]
      split
      · exact ⟨⟨htake.drop, h.video, h.audio⟩, rfl, rfl, fun hflag => absurd hflag Bool.false_ne_true⟩
      · refine ⟨⟨?_, h.video, ?_⟩, rfl, rfl, fun _ => Option.some_ne_none _⟩
        · rw [haudio, hnone] at hheap
          have hplace := @Ledger.Holds.takeIf_at _ (videoHandles g.video ++ [frame, packet, ctx]) g.audio.outputBuf.toList
            (by simpa [audioHandles] using hheap) true
          rw [haudio]
          simpa [audioHandles] using hplace
        · have hsize := h.audio.size
          rw [haudio]
          exact .open codec ctx frame packet (some _) g.audio.outputBuf g.audio.outputBufSize hsize

theorem resample_owned (h : Owned g) (hinit : g.audio.initialized = true) (av : AudioAnswers σ)
    (hbuf : g.audio.outputBuf ≠ none) (hframe : g.audio.frame ≠ none) : Owned (g.resample av).2 := by
  obtain ⟨hswr, hsameFrame, hsameBuf, hmade⟩ := ensureSwr_owned h hinit av
  unfold resample
  simp only
  split
  · rename_i hok
    obtain ⟨swr, hswr'⟩ := Option.ne_none_iff_exists'.mp (hmade hok)
    obtain ⟨buf, hbuf'⟩ := Option.ne_none_iff_exists'.mp (hsameBuf ▸ hbuf)
    obtain ⟨frame, hframe'⟩ := Option.ne_none_iff_exists'.mp (hsameFrame ▸ hframe)
    have huse : (((g.ensureSwr av).2.heap.useOpt (g.ensureSwr av).2.audio.swr).useOpt
        (g.ensureSwr av).2.audio.outputBuf).useOpt (g.ensureSwr av).2.audio.frame = (g.ensureSwr av).2.heap := by
      rw [audio_uses hswr hswr' (.inr (.inr (.inr (.inl rfl)))), audio_uses hswr hbuf' (.inr (.inr (.inr (.inr rfl)))),
        audio_uses hswr hframe' (.inr (.inl rfl))]
    simp only [huse]
    split
    · exact hswr
    · exact ⟨hswr.heap, hswr.video, hswr.audio⟩
  · exact hswr

theorem storeSamples_owned (h : Owned g) (hinit : g.audio.initialized = true) (hframe : g.audio.frame ≠ none)
    (av : AudioAnswers σ) (hav : av.Documented) : Owned (g.storeSamples av).2.2 := by
  obtain ⟨hensure, hstill, hsame, hmade⟩ := ensureBuffer_owned h hinit av.frame.outputSamples av.malloc
  unfold storeSamples
  simp only
  split
  · rename_i hok
    have hbuf := hmade (Nat.mul_pos hav.nbSamples hav.nbChannels) hok
    obtain ⟨buf, hbuf'⟩ := Option.ne_none_iff_exists'.mp hbuf
    obtain ⟨frame, hframe'⟩ := Option.ne_none_iff_exists'.mp hframe
    have huse : ((g.ensureBuffer av.frame.outputSamples av.malloc).2.heap.useOpt
        (g.ensureBuffer av.frame.outputSamples av.malloc).2.audio.outputBuf).useOpt
        (g.ensureBuffer av.frame.outputSamples av.malloc).2.audio.frame =
          (g.ensureBuffer av.frame.outputSamples av.malloc).2.heap := by
      rw [audio_uses hensure hbuf' (.inr (.inr (.inr (.inr rfl)))),
        audio_uses hensure (hsame.trans hframe') (.inr (.inl rfl))]
    split
    · simp only [huse]
      exact ⟨hensure.heap, hensure.video, hensure.audio⟩
    · simp only [huse]
      exact ⟨hensure.heap, hensure.video, hensure.audio⟩
    · have hresample := resample_owned hensure hstill av hbuf (hsame ▸ hframe)
      split
      · exact hresample
      · exact hresample
  · exact hensure

theorem decoderReceiveAudioFrame_owned (h : Owned g) (av : AudioAnswers σ) (hav : av.Documented) :
    Owned (g.decoderReceiveAudioFrame av).2.2 := by
  unfold decoderReceiveAudioFrame
  simp only
  split
  · exact h
  · rename_i hready
    obtain ⟨hinit, hready⟩ := not_or.mp hready
    obtain ⟨hctx, hframe⟩ := not_or.mp hready
    obtain ⟨ctx, hctx'⟩ := Option.ne_none_iff_exists'.mp hctx
    obtain ⟨frame, hframe'⟩ := Option.ne_none_iff_exists'.mp hframe
    have hopen : g.audio.initialized = true := Bool.not_eq_false _ ▸ hinit
    simp only [audio_uses h hctx' (.inl rfl), audio_uses h hframe' (.inr (.inl rfl))]
    split
    · exact h
    · exact storeSamples_owned h hopen hframe av hav

theorem owned_step (h : Owned g) {call : Call σ} (hcall : Documented g call) {g' : Globals σ} (hstep : g.step call = some g') :
    Owned g' := by
  cases call with
  | initVideo codecType av =>
    cases hstep
    exact decoderInitVideo_owned h codecType av
  | sendVideo size rounds =>
    obtain ⟨⟨status, raw, g₁⟩, hsend, rfl⟩ := Option.map_eq_some_iff.mp hstep
    rw [(decoderSendVideoPacket_owned h hsend).1]
    exact h
  | receiveVideo received =>
    cases hstep
    rw [decoderReceiveVideoFrame_owned h]
    exact h
  | flushVideo =>
    cases hstep
    rw [decoderFlushVideo_owned h]
    exact h
  | initAudio codecType av =>
    cases hstep
    exact decoderInitAudio_owned h codecType av
  | sendAudio sent =>
    cases hstep
    rw [decoderSendAudioPacket_owned h]
    exact h
  | receiveAudio av =>
    cases hstep
    exact decoderReceiveAudioFrame_owned h av (hcall av rfl)
  | flushAudio =>
    cases hstep
    exact decoderFlushAudio_owned h
  | destroy =>
    cases hstep
    exact (decoderDestroy_owned h).1

end Globals

theorem reachable_owned {σ : Type} {g : Globals σ} (h : ((system σ).restrict Documented).Reachable g) : Owned g := by
  have hinv : ((system σ).restrict Documented).Inductive Owned := by
    constructor
    · intro g hg
      rw [hg]
      exact ⟨Ledger.holds_empty, .idle none, .idle none⟩
    · intro g call g' hg hstep
      exact Globals.owned_step hg hstep.2 hstep.1
  exact hinv.reachable h

/-- **Nothing leaks and nothing is used after it is freed**, in any run of the
exported functions, whichever allocations and calls of FFmpeg fail: the live
objects are those of the globals, each once, a decoder has all of its objects
or none, and `decoder_destroy` leaves none. No packet is sent past the
parser. -/
theorem handles_owned {σ : Type} {g : Globals σ} (h : ((system σ).restrict Documented).Reachable g) :
    Owned g ∧ g.decoderDestroy.heap.live = [] ∧ ∀ size rounds status raw g',
      g.decoderSendVideoPacket size rounds = some (status, raw, g') → raw = false :=
  ⟨reachable_owned h, (Globals.decoderDestroy_owned (reachable_owned h)).2,
    fun _ _ _ _ _ hsend => (Globals.decoderSendVideoPacket_owned (reachable_owned h) hsend).2⟩

/-- Two channels, two samples each. -/
def stereo : AudioAnswers Nat where
  received := .ok
  frame := { format := .fltp, sampleRate := 8000, nbChannels := 2, nbSamples := 2, data := fun ch i => 10 * ch + i }
  malloc := true
  swrAlloc := true
  swrInit := 0
  swrConvert := none
  converted := fun _ => 0

theorem documented_stereo : stereo.Documented where
  nbSamples := Nat.zero_lt_two
  nbChannels := Nat.zero_lt_two
  size := by decide
  swrConvert := fun _ h => absurd h (Option.some_ne_none _).symm

def opens : InitAnswers := ⟨true, true, 0, true, true, true⟩

/-- The video decoder is opened, used, and opened again without memory for the
packet; the audio decoder stays. -/
def twice : List (Call Nat) :=
  [.initVideo 0 opens, .sendVideo 5 [⟨3, 0, .ok⟩, ⟨2, 4, .ok⟩], .initAudio 13 opens, .receiveAudio stereo,
    .initVideo 1 { opens with packet := false }]

def afterTwice : Globals Nat := (twice.foldlM Globals.step {}).getD {}

theorem documented_twice {call : Call Nat} (hcall : call ∈ twice) (g : Globals Nat) : Documented g call := by
  intro av hav
  subst hav
  have hstereo : av = stereo := by simpa [twice] using hcall
  rw [hstereo]
  exact documented_stereo

theorem reachable_afterTwice : ((system Nat).restrict Documented).Reachable afterTwice :=
  ⟨{}, twice, rfl, Lts.run_foldlM rfl fun _ => documented_twice⟩

theorem handles_owned_twice : Owned afterTwice ∧ afterTwice.decoderDestroy.heap.live = [] ∧ ∀ size rounds status raw g',
    afterTwice.decoderSendVideoPacket size rounds = some (status, raw, g') → raw = false :=
  handles_owned reachable_afterTwice

example : afterTwice.video = {} ∧ afterTwice.heap.live.length = 4 := by decide

end WebPlayer.L4.DecoderWasm
