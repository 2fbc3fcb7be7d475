import WebPlayer.L4App.DecoderWasm

/-!
# The answers of a decoder (`wasm/decoder_wasm.c`)

`VideoDecoder` follows the bytes and timestamps that go through the video
decoder, with FFmpeg as functions; `DecoderWasm` follows the objects behind
its globals, with FFmpeg's answers as arguments. Given the answers of the
functions, the second does what the first does.

* `send_agrees`, `receive_agrees`: a call returns the same status in both, and
  leaves them in step.
-/
namespace WebPlayer.L4.DecoderWasm
open WebPlayer.Core
open VideoDecoder (FFmpeg Decoder Sent statusOf sendLoop)

variable {P D σ : Type} (av : FFmpeg P D)

/-! ## The answers -/

def retOf (ret : Int) : Ret :=
  if ret < 0 then
    if ret = av.eagain then .eagain
    else if ret = av.eof then .eof
    else .failed
  else .ok

theorem retOf_status (ret : Int) : (retOf av ret).status = statusOf av ret := by
  unfold retOf statusOf
  split
  · split
    · rfl
    · split
      · rfl
      · rfl
  · rfl

theorem retOf_ok (ret : Int) : retOf av ret = .ok ↔ ¬ ret < 0 := by
  unfold retOf
  split
  · rename_i hneg
    refine ⟨fun h => ?_, fun h => absurd hneg h⟩
    split at h
    · cases h
    · split at h
      · cases h
      · cases h
  · rename_i hpos
    exact ⟨fun _ => hpos, fun _ => rfl⟩

/-- What the parser and the decoder answer in the loop. -/
def roundsOf (pts : Int64) : Nat → P → D → Bytes → List Round
  | 0, _, _, _ => []
  | fuel + 1, p, d, input =>
    if input = [] then []
    else
      let (p, consumed, out) := av.avParserParse2 p input pts pts
      if consumed < 0 then [⟨consumed, 0, .ok⟩]
      else if out = [] then ⟨consumed, 0, .ok⟩ :: roundsOf pts fuel p d (input.drop consumed.toNat)
      else
        let (d, ret) := av.avcodecSendPacket d { data := out, pts, dts := pts }
        ⟨consumed, out.length, retOf av ret⟩ ::
          if ret < 0 then [] else roundsOf pts fuel p d (input.drop consumed.toNat)

def sendAnswers (fuel : Nat) (s : Decoder P D) (data : Bytes) (pts : Int64) : List Round :=
  match s.ctx, s.parser with
  | some d, some p => roundsOf av pts fuel p d data
  | _, _ => []

def receiveAnswer (s : Decoder P D) : Ret :=
  match s.ctx with
  | none => .ok
  | some d => retOf av (av.avcodecReceiveFrame d).2.1

/-! ## In step -/

/-- The same objects are there. -/
structure Mirrors (s : Decoder P D) (g : Globals σ) : Prop where
  initialized : s.initialized = g.video.initialized
  ctx : s.ctx.isSome = g.video.ctx.isSome
  parser : s.parser.isSome = g.video.parser.isSome

variable {av}

/-- The loop makes the rounds of the answers, and ends as they do. -/
theorem sendRounds_of_sendLoop (v : VideoGlobals) {pts : Int64} {fuel : Nat} {p : P} {d : D} {input : Bytes} {hasPacket : Bool}
    {o : Sent P D} (h : sendLoop av pts fuel p d input hasPacket = some o) {size : Int} (hsize : input.length = size.toNat)
    (heap : Ledger) :
    (∃ heap', Globals.sendRounds v (roundsOf av pts fuel p d input) size hasPacket heap = some (o.status, heap')) ∧
      ∃ p' d', o.decoder = ⟨true, some p', some d'⟩ := by
  induction fuel generalizing p d input hasPacket o size heap with
  | zero => cases h
  | succ fuel ih =>
    rw [sendLoop] at h
    rw [roundsOf]
    by_cases hinput : input = []
    · rw [if_pos hinput] at h ⊢
      cases h
      have hle : size ≤ 0 := by
        rw [hinput] at hsize
        exact Int.toNat_eq_zero.mp hsize.symm
      exact ⟨⟨heap, if_pos hle⟩, p, d, rfl⟩
    · rw [if_neg hinput] at h ⊢
      have hpos : ¬ size ≤ 0 := by
        have := List.length_pos_iff.mpr hinput
        omega
      rcases hparse : av.avParserParse2 p input pts pts with ⟨p', consumed, out⟩
      have hrest : (input.drop consumed.toNat).length = (size - consumed).toNat ∨ consumed < 0 := by
        rw [List.length_drop]
        omega
      simp only [hparse] at h ⊢
      by_cases hconsumed : consumed < 0
      · rw [if_pos hconsumed] at h ⊢
        cases h
        simp only [Globals.sendRounds, if_neg hpos, if_pos hconsumed, if_true]
        exact ⟨⟨_, rfl⟩, p', d, rfl⟩
      · rw [if_neg hconsumed] at h ⊢
        have hrest := hrest.resolve_right hconsumed
        by_cases hout : out = []
        · rw [if_pos hout] at h ⊢
          simp only [Globals.sendRounds, if_neg hpos, if_neg hconsumed, if_true]
          exact ih h hrest _
        · rw [if_neg hout] at h ⊢
          have hlength : out.length ≠ 0 := fun h0 => hout (List.length_eq_zero_iff.mp h0)
          rcases hsent : av.avcodecSendPacket d { data := out, pts, dts := pts } with ⟨d', ret⟩
          simp only [hsent] at h ⊢
          simp only [Globals.sendRounds, if_neg hpos, if_neg hconsumed, if_neg hlength]
          by_cases hret : ret < 0
          · have hno : retOf av ret ≠ .ok := fun hok => (retOf_ok av ret).mp hok hret
            rw [if_pos hret] at h
            cases h
            rw [if_neg hno, if_pos hret, if_pos rfl, retOf_status]
            exact ⟨⟨_, rfl⟩, p', d', rfl⟩
          · rw [if_neg hret] at h
            obtain ⟨o', ho', rfl⟩ := Option.map_eq_some_iff.mp h
            rw [if_pos ((retOf_ok av ret).mpr hret), if_neg hret]
            exact ih ho' hrest _

theorem send_agrees {s : Decoder P D} {g : Globals σ} (hg : Owned g) (hm : Mirrors s g) {fuel : Nat} {data : Bytes} {pts : Int64}
    {o : Sent P D} (h : VideoDecoder.decoderSendVideoPacket av fuel s data pts = some o) :
    g.decoderSendVideoPacket data.length (sendAnswers av fuel s data pts) = some (o.status, false, g) ∧ Mirrors o.decoder g := by
  obtain ⟨hinit, hctx, hparser⟩ := hm
  cases hopen : g.video.initialized with
  | false =>
    rw [hopen] at hinit
    obtain ⟨codec, hvideo⟩ := hg.video.closed (by simp [hopen])
    rw [VideoDecoder.decoderSendVideoPacket, hinit] at h
    cases h
    exact ⟨by simp [Globals.decoderSendVideoPacket, hopen], hinit.trans hopen.symm, hctx, hparser⟩
  | true =>
    rw [hopen] at hinit
    obtain ⟨codec, ctx, frame, packet, parser, hvideo⟩ := hg.video.opened hopen
    rw [hvideo, Option.isSome_some] at hctx hparser
    obtain ⟨d, hd⟩ := Option.isSome_iff_exists.mp hctx
    obtain ⟨p, hp⟩ := Option.isSome_iff_exists.mp hparser
    rw [VideoDecoder.decoderSendVideoPacket, hinit, hd, hp] at h
    obtain ⟨⟨heap', hrounds⟩, p', d', hdecoder⟩ := sendRounds_of_sendLoop g.video h (Int.toNat_natCast _).symm g.heap
    have hanswers : sendAnswers av fuel s data pts = roundsOf av pts fuel p d data := by rw [sendAnswers, hd, hp]
    have hsend : ∃ g', g.decoderSendVideoPacket data.length (sendAnswers av fuel s data pts) = some (o.status, false, g') := by
      refine ⟨{ g with heap := heap' }, ?_⟩
      unfold Globals.decoderSendVideoPacket
      simp only
      rw [if_neg (by simp [hvideo]), if_neg (by simp [hvideo]), hanswers, hrounds]
      rfl
    obtain ⟨g', hsend⟩ := hsend
    obtain ⟨rfl, -⟩ := Globals.decoderSendVideoPacket_owned hg hsend
    rw [hdecoder]
    exact ⟨hsend, hopen.symm, by rw [hvideo]; rfl, by rw [hvideo]; rfl⟩

theorem receive_agrees {s : Decoder P D} {g : Globals σ} (hg : Owned g) (hm : Mirrors s g) :
    g.decoderReceiveVideoFrame (receiveAnswer av s) = ((VideoDecoder.decoderReceiveVideoFrame av s).1, g) ∧
      Mirrors (VideoDecoder.decoderReceiveVideoFrame av s).2.2 g := by
  have hsame := Globals.decoderReceiveVideoFrame_owned hg (receiveAnswer av s)
  have hstatus : (g.decoderReceiveVideoFrame (receiveAnswer av s)).1 = (VideoDecoder.decoderReceiveVideoFrame av s).1 ∧
      Mirrors (VideoDecoder.decoderReceiveVideoFrame av s).2.2 g := by
    obtain ⟨hinit, hctx, hparser⟩ := hm
    cases hopen : g.video.initialized with
    | false =>
      rw [hopen] at hinit
      rw [VideoDecoder.decoderReceiveVideoFrame, hinit]
      exact ⟨by simp [Globals.decoderReceiveVideoFrame, hopen], hinit.trans hopen.symm, hctx, hparser⟩
    | true =>
      rw [hopen] at hinit
      obtain ⟨codec, ctx, frame, packet, parser, hvideo⟩ := hg.video.opened hopen
      have hsome : s.ctx.isSome = true := by rw [hctx, hvideo]; rfl
      obtain ⟨d, hd⟩ := Option.isSome_iff_exists.mp hsome
      rw [receiveAnswer, VideoDecoder.decoderReceiveVideoFrame, hinit, hd]
      refine ⟨?_, hopen.symm, by rw [hvideo]; rfl, hparser⟩
      rw [Globals.decoderReceiveVideoFrame, if_neg (by simp [hvideo])]
      simp only
      split
      · rename_i hok
        rw [← retOf_status, hok]
        rfl
      · exact retOf_status av _
  exact ⟨Prod.ext hstatus.1 hsame, hstatus.2⟩

end WebPlayer.L4.DecoderWasm
