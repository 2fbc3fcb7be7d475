import WebPlayer.L4App.AudioClock
import WebPlayer.L4App.DecoderWasm

/-!
# Samples from the decoder to the audio buffer

FFmpeg decodes into planes or into one interleaved plane;
`decoder_receive_audio_frame` leaves interleaved floats in the output buffer,
`extractAudioFrame` copies them out of the memory (`js/decoder/DecoderWrapper.ts:442-459`),
and `AudioPlayer.playFrame` takes them apart again, a channel at a time. The
buffer is only made anew when it is too small, and the resampler is kept from
frame to frame.

* `samples_arrive`: no write is behind the buffer, if the frames that are
  resampled have the channels that the resampler was made for; and the
  channels that are played are the planes that were decoded.
-/
namespace WebPlayer.L4.DecoderWasm
open WebPlayer.Core WebPlayer.L4.AudioClock
open VideoDecoder (DecodeStatus)

variable {σ : Type}

/-! ## Writing -/

/-- The first `n` samples are those of `f`. -/
structure Filled (s₀ : Samples σ) (f : Nat → σ) (n : Nat) (s : Samples σ) : Prop where
  capacity : s.capacity = s₀.capacity
  overruns : s.overruns = s₀.overruns
  data : ∀ k, k < n → s.data k = some (f k)

theorem filled_zero (s : Samples σ) (f : Nat → σ) : Filled s f 0 s := ⟨rfl, rfl, fun k hk => absurd hk (Nat.not_lt_zero k)⟩

theorem Filled.write {s₀ s : Samples σ} {f : Nat → σ} {n : Nat} (h : Filled s₀ f n s) (hn : n < s₀.capacity) {x : σ}
    (hx : x = f n) : Filled s₀ f (n + 1) (s.write n x) := by
  rw [Samples.write, if_pos (h.capacity ▸ hn)]
  refine ⟨h.capacity, h.overruns, fun k hk => ?_⟩
  by_cases hkn : k = n
  · simp [hkn, hx]
  · simp only [hkn, if_false]
    exact h.data k (by omega)

/-- Writing one after another. -/
theorem Filled.range {s₀ : Samples σ} {f : Nat → σ} {n : Nat} (hn : n ≤ s₀.capacity) :
    Filled s₀ f n ((List.range n).foldl (fun s k => s.write k (f k)) s₀) := by
  induction n with
  | zero => exact filled_zero s₀ f
  | succ n ih =>
    rw [List.range_succ, List.foldl_append]
    exact (ih (by omega)).write hn rfl

/-- A row of the loop over channels. -/
theorem Filled.row {s₀ s : Samples σ} {f : Nat → σ} {base : Nat} (h : Filled s₀ f base s) {m : Nat} {g : Nat → σ}
    (hg : ∀ c, c < m → g c = f (base + c)) (hm : base + m ≤ s₀.capacity) :
    Filled s₀ f (base + m) ((List.range m).foldl (fun s c => s.write (base + c) (g c)) s) := by
  induction m with
  | zero => exact h
  | succ m ih =>
    rw [List.range_succ, List.foldl_append]
    exact (ih (fun c hc => hg c (by omega)) (by omega)).write (by omega) (hg m (by omega))

/-- The sample of channel `ch` at time `i`. -/
def AVFrame.sample (f : AVFrame σ) (ch i : Nat) : σ :=
  match f.format with
  | .fltp => f.data ch i
  | _ => f.data 0 (i * f.nbChannels + ch)

/-- What the buffer has at `k`. -/
def AVFrame.interleaved (f : AVFrame σ) (k : Nat) : σ := f.sample (k % f.nbChannels) (k / f.nbChannels)

theorem interleaved_at (f : AVFrame σ) {ch : Nat} (hch : ch < f.nbChannels) (i : Nat) :
    f.interleaved (i * f.nbChannels + ch) = f.sample ch i := by
  have hpos : 0 < f.nbChannels := by omega
  rw [AVFrame.interleaved, Nat.mul_comm, Nat.mul_add_mod, Nat.mod_eq_of_lt hch, Nat.mul_add_div hpos,
    Nat.div_eq_of_lt hch, Nat.add_zero]

theorem copyInterleaved_filled {f : AVFrame σ} (hformat : f.format = .flt) {s : Samples σ} (hs : f.outputSamples ≤ s.capacity) :
    Filled s f.interleaved f.outputSamples (Globals.copyInterleaved f s) := by
  have hdata : f.data 0 = f.interleaved := by
    funext k
    have hk := Nat.div_add_mod' k f.nbChannels
    simp only [AVFrame.interleaved, AVFrame.sample, hformat, hk]
  unfold Globals.copyInterleaved
  rw [hdata]
  exact Filled.range hs

theorem interleave_filled {f : AVFrame σ} (hformat : f.format = .fltp) {s : Samples σ} (hs : f.outputSamples ≤ s.capacity) :
    Filled s f.interleaved f.outputSamples (Globals.interleave f s) := by
  have hrows : ∀ n, n ≤ f.nbSamples → Filled s f.interleaved (n * f.nbChannels) ((List.range n).foldl (fun s i =>
      (List.range f.nbChannels).foldl (fun s ch => s.write (i * f.nbChannels + ch) (f.data ch i)) s) s) := by
    intro n hn
    induction n with
    | zero =>
      rw [Nat.zero_mul]
      exact filled_zero s f.interleaved
    | succ n ih =>
      have hfit : n * f.nbChannels + f.nbChannels ≤ s.capacity := by
        calc n * f.nbChannels + f.nbChannels = (n + 1) * f.nbChannels := (Nat.succ_mul ..).symm
          _ ≤ f.nbSamples * f.nbChannels := Nat.mul_le_mul_right _ hn
          _ ≤ s.capacity := hs
      rw [List.range_succ, List.foldl_append, Nat.succ_mul]
      refine (ih (by omega)).row (fun ch hch => ?_) hfit
      rw [interleaved_at f hch n, AVFrame.sample, hformat]
  exact hrows f.nbSamples (Nat.le_refl _)

/-! ## The buffer -/

/-- The buffer is as large as the code thinks, and nothing was written behind
it. -/
structure Room (g : Globals σ) : Prop where
  capacity : g.samples.capacity = g.audio.outputBufSize
  overruns : g.samples.overruns = 0

/-- A resampler is used for frames with the channels it was made for. -/
def SameChannels (g : Globals σ) (call : Call σ) : Prop :=
  ∀ av, call = .receiveAudio av → av.frame.format = .other → g.audio.swr ≠ none → av.frame.nbChannels = g.swrChannels

namespace Globals

variable {g : Globals σ}

theorem ensureBuffer_room (h : Room g) {n : Nat} (hn : n < 2 ^ 30) (malloc : Bool) :
    Room (g.ensureBuffer n malloc).2 ∧ (g.ensureBuffer n malloc).2.audio.swr = g.audio.swr ∧
      (g.ensureBuffer n malloc).2.swrChannels = g.swrChannels ∧
      ((g.ensureBuffer n malloc).1 = true → n ≤ (g.ensureBuffer n malloc).2.samples.capacity) := by
  unfold ensureBuffer
  split
  · rename_i hle
    exact ⟨h, rfl, rfl, fun _ => h.capacity ▸ hle⟩
  · have hsize : n * 4 % 2 ^ 32 / 4 = n := by omega
    cases malloc with
    | false => exact ⟨⟨rfl, h.overruns⟩, rfl, rfl, fun hflag => absurd hflag Bool.false_ne_true⟩
    | true => exact ⟨⟨hsize, h.overruns⟩, rfl, rfl, fun _ => Nat.le_of_eq hsize.symm⟩

theorem ensureSwr_room (h : Room g) (av : AudioAnswers σ)
    (hsame : g.audio.swr ≠ none → av.frame.nbChannels = g.swrChannels) :
    Room (g.ensureSwr av).2 ∧ (g.ensureSwr av).2.samples = g.samples ∧
      ((g.ensureSwr av).1 = true → (g.ensureSwr av).2.swrChannels = av.frame.nbChannels) := by
  unfold ensureSwr
  split
  · rename_i hswr
    exact ⟨h, rfl, fun _ => (hsame hswr).symm⟩
  · cases av.swrAlloc with
    | false => exact ⟨h, rfl, fun hflag => absurd hflag Bool.false_ne_true⟩
    | true =>
      simp only [Ledger.takeIf_true, reduceCtorEq, if_false]
      split
      · exact ⟨⟨h.capacity, h.overruns⟩, rfl, fun hflag => absurd hflag Bool.false_ne_true⟩
      · exact ⟨⟨h.capacity, h.overruns⟩, rfl, fun _ => rfl⟩

/-- What is resampled fits, and is what FFmpeg gave out. -/
theorem resample_room (h : Room g) {av : AudioAnswers σ} (hav : av.Documented)
    (hsame : g.audio.swr ≠ none → av.frame.nbChannels = g.swrChannels) (hfit : av.frame.outputSamples ≤ g.samples.capacity) :
    Room (g.resample av).2 ∧ ((g.resample av).1 = true → ∃ n, av.swrConvert = some n ∧
      ∀ k, k < n * av.frame.nbChannels → (g.resample av).2.samples.data k = some (av.converted k)) := by
  obtain ⟨hroom, hsamples, hchannels⟩ := ensureSwr_room h av hsame
  unfold resample
  simp only
  split
  · rename_i hok
    split
    · exact ⟨⟨hroom.capacity, hroom.overruns⟩, fun hflag => absurd hflag Bool.false_ne_true⟩
    · rename_i n hn
      have hle : n * av.frame.nbChannels ≤ (g.ensureSwr av).2.samples.capacity := by
        rw [hsamples]
        exact (Nat.mul_le_mul_right _ (hav.swrConvert n hn)).trans hfit
      simp only [hchannels hok]
      have hfilled := @Filled.range _ _ av.converted _ hle
      exact ⟨⟨hfilled.capacity.trans hroom.capacity, hfilled.overruns.trans hroom.overruns⟩,
        fun _ => ⟨n, hn, hfilled.data⟩⟩
  · exact ⟨hroom, fun hflag => absurd hflag Bool.false_ne_true⟩

/-- What the samples are when a frame is reported. -/
def Delivered (av : AudioAnswers σ) (s : Samples σ) : Prop :=
  match av.frame.format with
  | .other => ∃ n, av.swrConvert = some n ∧ ∀ k, k < n * av.frame.nbChannels → s.data k = some (av.converted k)
  | _ => ∀ k, k < av.frame.outputSamples → s.data k = some (av.frame.interleaved k)

theorem storeSamples_room (h : Room g) {av : AudioAnswers σ} (hav : av.Documented)
    (hsame : av.frame.format = .other → g.audio.swr ≠ none → av.frame.nbChannels = g.swrChannels) :
    Room (g.storeSamples av).2.2 ∧ ∀ info, (g.storeSamples av).2.1 = some info →
      info = av.frame.info ∧ Delivered av (g.storeSamples av).2.2.samples := by
  obtain ⟨hroom, hswr, hchannels, hfit⟩ := ensureBuffer_room h hav.size av.malloc
  unfold storeSamples
  simp only
  split
  · rename_i hok
    split
    · rename_i hformat
      have hfilled := copyInterleaved_filled hformat (hfit hok)
      refine ⟨⟨hfilled.capacity.trans hroom.capacity, hfilled.overruns.trans hroom.overruns⟩, fun info hinfo => ?_⟩
      refine ⟨(Option.some.inj hinfo).symm, ?_⟩
      simp only [Delivered, hformat]
      exact hfilled.data
    · rename_i hformat
      have hfilled := interleave_filled hformat (hfit hok)
      refine ⟨⟨hfilled.capacity.trans hroom.capacity, hfilled.overruns.trans hroom.overruns⟩, fun info hinfo => ?_⟩
      refine ⟨(Option.some.inj hinfo).symm, ?_⟩
      simp only [Delivered, hformat]
      exact hfilled.data
    · rename_i hformat
      obtain ⟨hroom', hconverted⟩ := resample_room hroom hav (by rw [hswr, hchannels]; exact hsame hformat) (hfit hok)
      split
      · rename_i hflag
        refine ⟨hroom', fun info hinfo => ⟨(Option.some.inj hinfo).symm, ?_⟩⟩
        simp only [Delivered, hformat]
        exact hconverted hflag
      · exact ⟨hroom', fun info hinfo => absurd hinfo (Option.some_ne_none _).symm⟩
  · exact ⟨hroom, fun info hinfo => absurd hinfo (Option.some_ne_none _).symm⟩

theorem decoderReceiveAudioFrame_room (h : Room g) {av : AudioAnswers σ} (hav : av.Documented)
    (hsame : SameChannels g (.receiveAudio av)) : Room (g.decoderReceiveAudioFrame av).2.2 ∧
      ∀ info, (g.decoderReceiveAudioFrame av).2.1 = some info →
        info = av.frame.info ∧ Delivered av (g.decoderReceiveAudioFrame av).2.2.samples := by
  unfold decoderReceiveAudioFrame
  simp only
  split
  · exact ⟨h, fun info hinfo => absurd hinfo (Option.some_ne_none _).symm⟩
  · split
    · exact ⟨⟨h.capacity, h.overruns⟩, fun info hinfo => absurd hinfo (Option.some_ne_none _).symm⟩
    · refine storeSamples_room ?_ hav (hsame av rfl)
      exact ⟨h.capacity, h.overruns⟩

/-! ## Runs -/

theorem openVideo_room (h : Room g) (codecType : Nat) (av : InitAnswers) : Room (g.openVideo codecType av).2 := by
  unfold openVideo
  simp only
  split
  · exact ⟨h.capacity, h.overruns⟩
  · split
    · exact ⟨h.capacity, h.overruns⟩
    · split
      · exact ⟨h.capacity, h.overruns⟩
      · split
        · exact ⟨h.capacity, h.overruns⟩
        · split
          · exact ⟨h.capacity, h.overruns⟩
          · exact ⟨h.capacity, h.overruns⟩

theorem decoderInitVideo_room (h : Room g) (codecType : Nat) (av : InitAnswers) : Room (g.decoderInitVideo codecType av).2 := by
  unfold decoderInitVideo
  split
  · refine openVideo_room ?_ codecType av
    exact ⟨h.capacity, h.overruns⟩
  · exact openVideo_room h codecType av

/-- The buffer goes with the decoder. -/
theorem cleanupAudio_room (h : Room g) (hsize : g.audio.outputBuf = none → g.audio.outputBufSize = 0) :
    Room g.cleanupAudioDecoder := by
  refine ⟨?_, h.overruns⟩
  rw [cleanupAudio_audio hsize]
  rfl

theorem openAudio_room (h : Room g) {codec : Option Nat} (haudio : g.audio = { codec }) (codecType : Nat) (av : InitAnswers) :
    Room (g.openAudio codecType av).2 := by
  have hcapacity := h.capacity
  unfold openAudio
  simp only [haudio] at hcapacity ⊢
  split
  · exact ⟨hcapacity, h.overruns⟩
  · split
    · exact ⟨hcapacity, h.overruns⟩
    · split
      · exact ⟨hcapacity, h.overruns⟩
      · split
        · refine cleanupAudio_room ⟨hcapacity, h.overruns⟩ fun _ => rfl
        · exact ⟨hcapacity, h.overruns⟩

theorem decoderInitAudio_room (h : Room g) (hg : Owned g) (codecType : Nat) (av : InitAnswers) :
    Room (g.decoderInitAudio codecType av).2 := by
  unfold decoderInitAudio
  split
  · have hroom := cleanupAudio_room h hg.audio.size
    have haudio : ({ g.cleanupAudioDecoder.audio with initialized := false } : AudioGlobals) = { codec := none } := by
      rw [cleanupAudio_audio hg.audio.size]
    refine @openAudio_room _ _ ?_ none haudio codecType av
    exact ⟨hroom.capacity, hroom.overruns⟩
  · rename_i hinit
    obtain ⟨codec, haudio⟩ := hg.audio.closed hinit
    exact openAudio_room h haudio codecType av

theorem room_step (h : Room g) (hg : Owned g) {call : Call σ} (hdoc : Documented g call) (hsame : SameChannels g call)
    {g' : Globals σ} (hstep : g.step call = some g') : Room g' := by
  cases call with
  | initVideo codecType av =>
    cases hstep
    exact decoderInitVideo_room h codecType av
  | sendVideo size rounds =>
    obtain ⟨⟨status, raw, g₁⟩, hsend, rfl⟩ := Option.map_eq_some_iff.mp hstep
    rw [(decoderSendVideoPacket_owned hg hsend).1]
    exact h
  | receiveVideo received =>
    cases hstep
    rw [decoderReceiveVideoFrame_owned hg]
    exact h
  | flushVideo =>
    cases hstep
    rw [decoderFlushVideo_owned hg]
    exact h
  | initAudio codecType av =>
    cases hstep
    exact decoderInitAudio_room h hg codecType av
  | sendAudio sent =>
    cases hstep
    rw [decoderSendAudioPacket_owned hg]
    exact h
  | receiveAudio av =>
    cases hstep
    exact (decoderReceiveAudioFrame_room h (hdoc av rfl) hsame).1
  | flushAudio =>
    cases hstep
    unfold decoderFlushAudio
    simp only
    split
    · split
      · exact h
      · exact ⟨h.capacity, h.overruns⟩
    · split
      · exact ⟨h.capacity, h.overruns⟩
      · exact ⟨h.capacity, h.overruns⟩
  | destroy =>
    cases hstep
    have hroom := @cleanupAudio_room _ g.cleanupVideoDecoder ⟨h.capacity, h.overruns⟩ hg.audio.size
    exact ⟨hroom.capacity, hroom.overruns⟩

end Globals

/-- The runs in which FFmpeg does what it promises and the channels of what is
resampled stay the same. -/
def played (σ : Type) : Lts (Globals σ) (Call σ) :=
  (system σ).restrict fun g call => Documented g call ∧ SameChannels g call

theorem reachable_played {g : Globals σ} (h : (played σ).Reachable g) : Owned g ∧ Room g := by
  have hinv : (played σ).Inductive fun g => Owned g ∧ Room g := by
    constructor
    · intro g hg
      rw [hg]
      exact ⟨⟨Ledger.holds_empty, .idle none, .idle none⟩, ⟨rfl, rfl⟩⟩
    · intro g call g' hg hstep
      obtain ⟨hstep, hdoc, hsame⟩ := hstep
      exact ⟨Globals.owned_step hg.1 hdoc hstep, Globals.room_step hg.2 hg.1 hdoc hsame hstep⟩
  exact hinv.reachable h

/-! ## What is played -/

/-- mirrors js/decoder/DecoderWrapper.ts:442-459 -/
def extractAudioFrame (s : Samples σ) (info : AudioFrameInfo) : Option (List σ) :=
  (List.range (info.nbSamples * info.channels)).mapM s.data

/-- The channels as they were decoded. -/
def AVFrame.planes (f : AVFrame σ) : List (List (Option σ)) :=
  (List.range f.nbChannels).map fun ch => (List.range f.nbSamples).map fun i => some (f.sample ch i)

theorem mapM_of_forall {s : Samples σ} {f : Nat → σ} {ks : List Nat} (h : ∀ k, k ∈ ks → s.data k = some (f k)) :
    ks.mapM s.data = some (ks.map f) := by
  induction ks with
  | nil => rfl
  | cons k ks ih =>
    rw [List.mapM_cons, h k List.mem_cons_self, ih fun j hj => h j (List.mem_cons_of_mem k hj)]
    rfl

/-- What is read out of the buffer is the frame, and the channels are its
planes. -/
theorem planes_of_received {g : Globals σ} (h : Room g) {av : AudioAnswers σ} (hav : av.Documented)
    (hformat : av.frame.format ≠ .other) {status : DecodeStatus} {info : AudioFrameInfo} {g' : Globals σ}
    (hreceive : g.decoderReceiveAudioFrame av = (status, some info, g')) :
    ∃ data, extractAudioFrame g'.samples info = some data ∧ ∀ frame : AudioFrame σ, frame.channels = info.channels →
      frame.nbSamples = info.nbSamples → frame.data = data → deinterleave frame = av.frame.planes := by
  have hsame : SameChannels g (.receiveAudio av) := fun av' hav' hother => by
    cases hav'
    exact absurd hother hformat
  have hroom := (Globals.decoderReceiveAudioFrame_room h hav hsame).2 info (by rw [hreceive])
  rw [hreceive] at hroom
  obtain ⟨rfl, hdelivered⟩ := hroom
  have hdata : ∀ k, k < av.frame.outputSamples → g'.samples.data k = some (av.frame.interleaved k) := by
    unfold Globals.Delivered at hdelivered
    split at hdelivered
    · rename_i hother
      exact absurd hother hformat
    · exact hdelivered
  refine ⟨_, mapM_of_forall fun k hk => hdata k (List.mem_range.mp hk), fun frame hchannels hnbSamples hframe => ?_⟩
  simp only [deinterleave, AVFrame.planes, hchannels, hnbSamples, hframe, AVFrame.info]
  refine List.map_congr_left fun ch hch => List.map_congr_left fun i hi => ?_
  have hch' := List.mem_range.mp hch
  have hi' := List.mem_range.mp hi
  have hlt : i * av.frame.nbChannels + ch < av.frame.nbSamples * av.frame.nbChannels := by
    calc i * av.frame.nbChannels + ch < (i + 1) * av.frame.nbChannels := by rw [Nat.succ_mul]; omega
      _ ≤ av.frame.nbSamples * av.frame.nbChannels := Nat.mul_le_mul_right _ hi'
  simp [hlt, interleaved_at av.frame hch']

theorem reachable_played_twice : (played Nat).Reachable afterTwice := by
  have hsame : ∀ call, call ∈ twice → ∀ g, SameChannels g call := by
    intro call hcall g av hav hother
    subst hav
    have hstereo : av = stereo := by simpa [twice] using hcall
    rw [hstereo] at hother
    cases hother
  exact ⟨{}, twice, rfl, Lts.run_foldlM rfl fun call hcall g => ⟨documented_twice hcall g, hsame call hcall g⟩⟩

/-- A resampler made for two channels, then two samples of one channel. -/
def remixed : List (Call Nat) :=
  let frame (nbChannels nbSamples : Nat) : AVFrame Nat := { stereo.frame with format := .other, nbChannels, nbSamples }
  [.initAudio 10 opens, .receiveAudio { stereo with frame := frame 2 1, swrConvert := some 1 },
    .receiveAudio { stereo with frame := frame 1 2, swrConvert := some 2 }]

/-- What is resampled for other channels goes behind the buffer. -/
example : ((remixed.foldlM Globals.step {}).map fun g => (g.samples.capacity, g.samples.overruns)) = some (2, 2) := by decide

end WebPlayer.L4.DecoderWasm
