import WebPlayer.Core.Bytes
import WebPlayer.Core.Lts

/-!
# Timestamps through the video decoder

`decoder_send_video_packet` runs its input through `av_parser_parse2` and
hands what comes out to `avcodec_send_packet`, with the `pts` of the call.

**FFmpeg (`FFmpeg`, a parameter).** The parser, the decoder and the two error
codes that are told apart.

**Splitting (`Splitter`, a hypothesis).** Of Annex-B input without the
complete-frames flag the parser gives a unit out when it sees the start of the
next one, and keeps it until then. Units may be cut short.

**Results.**
* `sendLoop_round`: what one round of the loop does.
* `sendLoop_packets`: a call hands over the unit of the call before.
* `sendLoop_returns`: the loop ends.
* `own_pts_iff`: the packets of a run have the timestamps of their units iff
  no two consecutive units have different ones.
-/
namespace WebPlayer.L4.VideoDecoder
open WebPlayer.Core

/-! ## FFmpeg -/

structure AVPacket where
  data : Bytes
  pts : Int64
  dts : Int64
  deriving DecidableEq, Repr

/-- The fields that `decoder_receive_video_frame` reads. -/
structure AVFrame where
  width : Int
  height : Int
  pts : Int64
  duration : Int64
  /-- Address and line size of the three planes. -/
  y : Nat × Int
  u : Nat × Int
  v : Nat × Int

structure FFmpeg (P D : Type) where
  /-- The bytes taken of the input, and the output. -/
  avParserParse2 : P → Bytes → Int64 → Int64 → P × Int × Bytes
  avcodecSendPacket : D → AVPacket → D × Int
  avcodecReceiveFrame : D → D × Int × AVFrame
  eagain : Int
  eof : Int

/-! ## The decoder -/

/-- mirrors wasm/decoder_wasm.h:34-39 -/
inductive DecodeStatus where
  | ok | needMoreData | error | eof
  deriving DecidableEq, Repr

/-- The video globals; the context comes with its packet and frame. -/
structure Decoder (P D : Type) where
  initialized : Bool
  parser : Option P
  ctx : Option D

/-- What a call leaves: the packets it handed to the decoder and the input
that the parser has not taken. -/
structure Sent (P D : Type) where
  status : DecodeStatus
  decoder : Decoder P D
  packets : List AVPacket
  rest : Bytes

variable {P D : Type} (av : FFmpeg P D)

/-- The status of a return value. -/
def statusOf (ret : Int) : DecodeStatus :=
  if ret < 0 then
    if ret = av.eagain then .needMoreData
    else if ret = av.eof then .eof
    else .error
  else .ok

/-- The loop over the input; `fuel` bounds its rounds.
mirrors wasm/decoder_wasm.c:183-235 -/
def sendLoop (pts : Int64) : Nat → P → D → Bytes → Bool → Option (Sent P D)
  | 0, _, _, _, _ => none
  | fuel + 1, p, d, input, hasPacket =>
    if input = [] then
      some { status := if hasPacket then .ok else .needMoreData, decoder := ⟨true, some p, some d⟩, packets := [], rest := [] }
    else
      let (p, consumed, out) := av.avParserParse2 p input pts pts
      if consumed < 0 then
        some { status := .error, decoder := ⟨true, some p, some d⟩, packets := [], rest := input }
      else
        let input := input.drop consumed.toNat
        if out = [] then sendLoop pts fuel p d input hasPacket
        else
          let packet : AVPacket := { data := out, pts, dts := pts }
          let (d, ret) := av.avcodecSendPacket d packet
          if ret < 0 then
            some { status := statusOf av ret, decoder := ⟨true, some p, some d⟩, packets := [packet], rest := input }
          else (sendLoop pts fuel p d input true).map fun o => { o with packets := packet :: o.packets }

/-- mirrors wasm/decoder_wasm.c:151-236 -/
def decoderSendVideoPacket (fuel : Nat) (s : Decoder P D) (data : Bytes) (pts : Int64) : Option (Sent P D) :=
  match s.initialized, s.ctx, s.parser with
  | true, some d, some p => sendLoop av pts fuel p d data false
  | true, some d, none =>
    -- without a parser the input is the packet
    let packet : AVPacket := { data, pts, dts := pts }
    let (d, ret) := av.avcodecSendPacket d packet
    some { status := statusOf av ret, decoder := { s with ctx := some d }, packets := [packet], rest := [] }
  | _, _, _ => some { status := .error, decoder := s, packets := [], rest := data }

/-- The status, the frame that fills `frame_info`, and the globals.
mirrors wasm/decoder_wasm.c:238-274 -/
def decoderReceiveVideoFrame (s : Decoder P D) : DecodeStatus × Option AVFrame × Decoder P D :=
  match s.initialized, s.ctx with
  | true, some d =>
    let (d, ret, frame) := av.avcodecReceiveFrame d
    (statusOf av ret, if ret < 0 then none else some frame, { s with ctx := some d })
  | _, _ => (.error, none, s)

/-! ## The parser -/

/-- `buffers p prev v`: of the bytes taken so far the parser has not given out
`prev`, which is complete, and `v` behind it, the beginning of a unit. -/
structure Splitter (AccessUnit : Bytes → Prop) (buffers : P → Bytes → Bytes → Prop) : Prop where
  nonempty : ∀ unit, AccessUnit unit → unit ≠ []
  /-- More of a unit is buffered, or the one before comes out. -/
  feed : ∀ p prev v rest pts, AccessUnit (v ++ rest) → rest ≠ [] → buffers p prev v →
    ∃ (p' : P) (n : Nat) (out : Bytes), av.avParserParse2 p rest pts pts = (p', (n : Int), out) ∧ n ≤ rest.length ∧
      (out = [] ∧ 0 < n ∧ buffers p' prev (v ++ rest.take n) ∨
        out = prev ∧ prev ≠ [] ∧ buffers p' [] (v ++ rest.take n))
  /-- A whole unit shows its start. -/
  start : ∀ p prev unit, AccessUnit unit → buffers p prev unit → prev = []
  /-- The next unit ends the one before, however much of it there is. -/
  next : ∀ p v unit, AccessUnit unit → v <+: unit → buffers p [] v → buffers p v []

section
variable {av} {AccessUnit : Bytes → Prop} {buffers : P → Bytes → Bytes → Prop} (hsplit : Splitter av AccessUnit buffers)
  (pts : Int64)
include hsplit

/-- A round of the loop buffers more of the unit, or hands over the one
before. -/
theorem sendLoop_round {p : P} {prev v rest : Bytes} (hunit : AccessUnit (v ++ rest)) (hrest : rest ≠ [])
    (hbuf : buffers p prev v) : ∃ p' v' rest', v ++ rest = v' ++ rest' ∧ rest'.length ≤ rest.length ∧
      (buffers p' prev v' ∧ rest'.length < rest.length ∧ (∀ fuel d hasPacket,
          sendLoop av pts (fuel + 1) p d rest hasPacket = sendLoop av pts fuel p' d rest' hasPacket) ∨
        buffers p' [] v' ∧ prev ≠ [] ∧ ∀ fuel d hasPacket, sendLoop av pts (fuel + 1) p d rest hasPacket =
          let (d, ret) := av.avcodecSendPacket d ⟨prev, pts, pts⟩
          if ret < 0 then some { status := statusOf av ret, decoder := ⟨true, some p', some d⟩
                                 packets := [⟨prev, pts, pts⟩], rest := rest' }
          else (sendLoop av pts fuel p' d rest' true).map fun o => { o with packets := ⟨prev, pts, pts⟩ :: o.packets }) := by
  obtain ⟨p', n, out, hparse, hle, hout⟩ := hsplit.feed p prev v rest pts hunit hrest hbuf
  have hnonneg : ¬ (n : Int) < 0 := by omega
  have hdrop : (rest.drop n).length = rest.length - n := List.length_drop
  refine ⟨p', v ++ rest.take n, rest.drop n, by rw [List.append_assoc, List.take_append_drop], by omega, ?_⟩
  rcases hout with ⟨rfl, hpos, hbuf'⟩ | ⟨rfl, hprev, hbuf'⟩
  · refine .inl ⟨hbuf', by omega, fun fuel d hasPacket => ?_⟩
    rw [sendLoop, if_neg hrest, hparse]
    simp only [if_neg hnonneg, Int.toNat_natCast, if_true]
  · refine .inr ⟨hbuf', hprev, fun fuel d hasPacket => ?_⟩
    rw [sendLoop, if_neg hrest, hparse]
    simp only [if_neg hnonneg, Int.toNat_natCast, if_neg hprev]

/-- **A call** hands over what the parser kept, and leaves what it has taken
of the unit. -/
theorem sendLoop_packets {fuel : Nat} {p : P} {d : D} {prev v rest : Bytes} {hasPacket : Bool} {o : Sent P D}
    (hunit : AccessUnit (v ++ rest)) (hbuf : buffers p prev v) (h : sendLoop av pts fuel p d rest hasPacket = some o) :
    o.packets = (if prev = [] then [] else [⟨prev, pts, pts⟩]) ∧
      ∃ p' d' v', o.decoder = ⟨true, some p', some d'⟩ ∧ v ++ rest = v' ++ o.rest ∧ buffers p' [] v' := by
  induction fuel generalizing p d prev v rest hasPacket o with
  | zero => cases h
  | succ fuel ih =>
    by_cases hrest : rest = []
    · rw [sendLoop, if_pos hrest] at h
      cases h
      rw [hrest, List.append_nil] at hunit
      have hprev := hsplit.start p prev v hunit hbuf
      subst hprev
      exact ⟨(if_pos rfl).symm, p, d, v, rfl, by rw [hrest], hbuf⟩
    · obtain ⟨p', v', rest', hcut, -, hround⟩ := sendLoop_round hsplit pts hunit hrest hbuf
      rw [hcut] at hunit ⊢
      rcases hround with ⟨hbuf', -, hround⟩ | ⟨hbuf', hprev, hround⟩
      · rw [hround] at h
        exact ih hunit hbuf' h
      · rw [hround] at h
        rw [if_neg hprev]
        simp only at h
        split at h
        · cases h
          exact ⟨rfl, p', _, _, rfl, rfl, hbuf'⟩
        · obtain ⟨o', ho', rfl⟩ := Option.map_eq_some_iff.mp h
          obtain ⟨hpackets, hstate⟩ := ih hunit hbuf' ho'
          rw [if_pos rfl] at hpackets
          exact ⟨by rw [hpackets], hstate⟩

/-- Every round takes input or hands over the unit before. -/
theorem sendLoop_returns {fuel : Nat} {p : P} (d : D) {prev v rest : Bytes} (hasPacket : Bool)
    (hunit : AccessUnit (v ++ rest)) (hbuf : buffers p prev v)
    (hfuel : rest.length + (if prev = [] then 0 else 1) < fuel) : ∃ o, sendLoop av pts fuel p d rest hasPacket = some o := by
  induction fuel generalizing p d prev v rest hasPacket with
  | zero => omega
  | succ fuel ih =>
    by_cases hrest : rest = []
    · rw [sendLoop, if_pos hrest]
      exact ⟨_, rfl⟩
    · obtain ⟨p', v', rest', hcut, hle, hround⟩ := sendLoop_round hsplit pts hunit hrest hbuf
      rw [hcut] at hunit
      rcases hround with ⟨hbuf', hlt, hround⟩ | ⟨hbuf', hprev, hround⟩
      · rw [hround]
        exact ih d hasPacket hunit hbuf' (by omega)
      · rw [if_neg hprev] at hfuel
        rw [hround]
        simp only
        split
        · exact ⟨_, rfl⟩
        · obtain ⟨o, ho⟩ := ih (av.avcodecSendPacket d ⟨prev, pts, pts⟩).1 true hunit hbuf' (by rw [if_pos rfl]; omega)
          exact ⟨_, by rw [ho]; rfl⟩

end

/-! ## A stream -/

/-- An access unit passed to the decoder, and what the parser took of it. -/
structure Passed where
  unit : Bytes
  pts : Int64
  taken : Bytes

structure Stream (P D : Type) where
  decoder : Decoder P D
  /-- The unit of the last call that passed one. -/
  last : Option Passed
  /-- The packets of the last call. -/
  handed : List AVPacket

inductive Call where
  | send (unit : Bytes) (pts : Int64)
  | receive

/-- From a decoder that was initialized, with a parser `p₀` that has nothing. -/
def system (AccessUnit : Bytes → Prop) (p₀ : P) : Lts (Stream P D) Call where
  init s := ∃ d, s = { decoder := ⟨true, some p₀, some d⟩, last := none, handed := [] }
  step s c s' :=
    match c with
    | .send unit pts => AccessUnit unit ∧ ∃ fuel o, decoderSendVideoPacket av fuel s.decoder unit pts = some o ∧
        s' = { decoder := o.decoder
               last := some { unit, pts, taken := unit.take (unit.length - o.rest.length) }
               handed := o.packets }
    | .receive => s' = { s with decoder := (decoderReceiveVideoFrame av s.decoder).2.2, handed := [] }

/-- The packets of the call that contain an access unit have its timestamp. -/
def OwnPts (AccessUnit : Bytes → Prop) (p₀ : P) (s : Stream P D) (c : Call) : Prop :=
  ∀ s', (system av AccessUnit p₀).step s c s' → ∀ packet, packet ∈ s'.handed →
    ∀ a, s.last = some a → packet.data = a.unit → packet.pts = a.pts

/-- The call has the timestamp of the one before, if the parser took all of
that one's unit. -/
def SamePts (s : Stream P D) (c : Call) : Prop :=
  ∀ unit pts, c = .send unit pts → ∀ a, s.last = some a → a.taken = a.unit → a.pts = pts

/-- What the parser keeps between two calls. -/
def Stream.kept (s : Stream P D) : Bytes :=
  match s.last with
  | some a => a.taken
  | none => []

theorem Stream.kept_eq {s : Stream P D} {a : Passed} (h : s.last = some a) : s.kept = a.taken := by
  rw [Stream.kept, h]

section
variable {av} {AccessUnit : Bytes → Prop} {buffers : P → Bytes → Bytes → Prop} (hsplit : Splitter av AccessUnit buffers)
  {p₀ : P}

structure StreamOk (AccessUnit : Bytes → Prop) (buffers : P → Bytes → Bytes → Prop) (s : Stream P D) : Prop where
  decoder : ∃ p d, s.decoder = ⟨true, some p, some d⟩ ∧ buffers p s.kept []
  unit : ∀ a, s.last = some a → AccessUnit a.unit

include hsplit

theorem send_step {s s' : Stream P D} (hs : StreamOk AccessUnit buffers s) {unit : Bytes} {pts : Int64}
    (h : (system av AccessUnit p₀).step s (.send unit pts) s') : StreamOk AccessUnit buffers s' ∧
      s'.handed = if s.kept = [] then [] else [⟨s.kept, pts, pts⟩] := by
  obtain ⟨p, d, hdec, hbuf⟩ := hs.decoder
  obtain ⟨hunit, fuel, o, ho, rfl⟩ := h
  rw [hdec] at ho
  obtain ⟨hpackets, p', d', v', hdec', hcut, hbuf'⟩ := sendLoop_packets hsplit pts (v := []) hunit hbuf ho
  rw [List.nil_append] at hcut
  have htaken : unit.take (unit.length - o.rest.length) = v' := by
    rw [hcut, List.length_append, Nat.add_sub_cancel, List.take_left]
  refine ⟨⟨⟨p', d', hdec', ?_⟩, fun a ha => ?_⟩, hpackets⟩
  · rw [Stream.kept, htaken]
    exact hsplit.next p' v' unit hunit ⟨o.rest, hcut.symm⟩ hbuf'
  · cases ha
    exact hunit

omit hsplit in
theorem receive_step {s s' : Stream P D} (hs : StreamOk AccessUnit buffers s)
    (h : (system av AccessUnit p₀).step s .receive s') : StreamOk AccessUnit buffers s' ∧ s'.handed = [] := by
  obtain ⟨p, d, hdec, hbuf⟩ := hs.decoder
  replace h : s' = _ := h
  subst h
  refine ⟨⟨⟨p, (av.avcodecReceiveFrame d).1, ?_, hbuf⟩, hs.unit⟩, rfl⟩
  rw [hdec]
  rfl

theorem streamOk_step {s s' : Stream P D} {c : Call} (hs : StreamOk AccessUnit buffers s)
    (h : (system av AccessUnit p₀).step s c s') : StreamOk AccessUnit buffers s' := by
  cases c with
  | send unit pts => exact (send_step hsplit hs h).1
  | receive => exact (receive_step hs h).1

/-- Every packet is what the parser took of the unit before, with the
timestamp of this call. -/
theorem handed_step {s s' : Stream P D} {c : Call} (hs : StreamOk AccessUnit buffers s)
    (h : (system av AccessUnit p₀).step s c s') {packet : AVPacket} (hmem : packet ∈ s'.handed) :
    ∃ unit pts, c = .send unit pts ∧ ∃ a, s.last = some a ∧ packet = ⟨a.taken, pts, pts⟩ := by
  cases c with
  | send unit pts =>
    rw [(send_step hsplit hs h).2] at hmem
    split at hmem
    · cases hmem
    · rename_i hkept
      cases hlast : s.last with
      | none => exact absurd (by rw [Stream.kept, hlast]) hkept
      | some a =>
        rw [Stream.kept_eq hlast, List.mem_singleton] at hmem
        exact ⟨unit, pts, rfl, a, rfl, hmem⟩
  | receive =>
    rw [(receive_step hs h).2] at hmem
    cases hmem

theorem ownPts_iff {s s' : Stream P D} {c : Call} (hs : StreamOk AccessUnit buffers s)
    (h : (system av AccessUnit p₀).step s c s') : OwnPts av AccessUnit p₀ s c ↔ SamePts s c := by
  constructor
  · rintro hown unit pts rfl a hlast hwhole
    have hkept : s.kept = a.unit := (Stream.kept_eq hlast).trans hwhole
    have hne := hsplit.nonempty a.unit (hs.unit a hlast)
    have hhanded := (send_step hsplit hs h).2
    rw [hkept, if_neg hne] at hhanded
    exact (hown s' h ⟨a.unit, pts, pts⟩ (by rw [hhanded]; exact List.mem_singleton_self _) a hlast rfl).symm
  · intro hsame s'' h' packet hmem a hlast hdata
    obtain ⟨unit, pts, rfl, a', hlast', rfl⟩ := handed_step hsplit hs h' hmem
    rw [hlast] at hlast'
    cases hlast'
    exact (hsame unit pts rfl a hlast hdata).symm

theorem send_returns {s : Stream P D} (hs : StreamOk AccessUnit buffers s) {unit : Bytes} (hunit : AccessUnit unit)
    (pts : Int64) : ∃ s', (system av AccessUnit p₀).step s (.send unit pts) s' := by
  obtain ⟨p, d, hdec, hbuf⟩ := hs.decoder
  obtain ⟨o, ho⟩ := sendLoop_returns hsplit pts d false (v := []) hunit hbuf (Nat.lt_succ_self _)
  refine ⟨_, hunit, unit.length + (if s.kept = [] then 0 else 1) + 1, o, ?_, rfl⟩
  rw [hdec]
  exact ho

/-- **Timestamps.** In every run, the packets that contain an access unit
have its timestamp iff every call has that of the call before, unless the
parser has only a part of that one's unit. What a call hands over is what the
parser took in the call before, and every call returns. -/
theorem own_pts_iff (hfresh : buffers p₀ [] []) {s₀ s : Stream P D} {calls : List Call}
    (h0 : (system av AccessUnit p₀).init s₀) :
    (((system av AccessUnit p₀).restrict (OwnPts av AccessUnit p₀)).Run s₀ calls s ↔
      ((system av AccessUnit p₀).restrict SamePts).Run s₀ calls s) ∧
    ((system av AccessUnit p₀).Run s₀ calls s →
      (∀ unit pts, AccessUnit unit → ∃ s', (system av AccessUnit p₀).step s (.send unit pts) s') ∧
      ∀ c s', (system av AccessUnit p₀).step s c s' → ∀ packet, packet ∈ s'.handed →
        ∃ a, s.last = some a ∧ packet.data = a.taken) := by
  have hinit : StreamOk AccessUnit buffers s₀ := by
    obtain ⟨d, rfl⟩ := h0
    exact ⟨⟨p₀, d, rfl, hfresh⟩, nofun⟩
  refine ⟨Lts.run_restrict_congr (J := StreamOk AccessUnit buffers) (fun _ _ _ hs h => ownPts_iff hsplit hs h)
    (fun _ _ _ hs h _ => streamOk_step hsplit hs h) hinit, fun hrun => ?_⟩
  have hs : StreamOk AccessUnit buffers s := hrun.preserves (fun _ _ _ hs h => streamOk_step hsplit hs h) hinit
  refine ⟨fun unit pts hunit => send_returns hsplit hs hunit pts, fun c s' h packet hmem => ?_⟩
  obtain ⟨_, pts, -, a, hlast, rfl⟩ := handed_step hsplit hs h hmem
  exact ⟨a, hlast, rfl⟩

end

/-! ## Two access units -/

/-- Two H.264 access units of a delimiter and a slice. -/
def idrUnit : Bytes := [0, 0, 0, 1, 0x09, 0xF0, 0, 0, 0, 1, 0x65, 0x88]

def interUnit : Bytes := [0, 0, 0, 1, 0x09, 0xF0, 0, 0, 0, 1, 0x41, 0x9A]

def OneOfTwo (unit : Bytes) : Prop := unit = idrUnit ∨ unit = interUnit

/-- The parser keeps its input until the next delimiter, and a decoder takes
every packet. -/
def byDelimiter : FFmpeg Bytes PUnit where
  avParserParse2 p input _ _ := if [0, 0, 0, 1, 0x09] <+: input ∧ p ≠ [] then ([], 0, p) else (p ++ input, input.length, [])
  avcodecSendPacket d _ := (d, 0)
  avcodecReceiveFrame d := (d, -6, ⟨0, 0, 0, 0, (0, 0), (0, 0), (0, 0)⟩)
  eagain := -6
  eof := -541478725

/-- Its buffer is the unit before, or a whole unit. -/
def byDelimiterBuffers (p prev v : Bytes) : Prop := v = [] ∧ p = prev ∨ prev = [] ∧ p = v ∧ OneOfTwo v

theorem OneOfTwo.length {unit : Bytes} (h : OneOfTwo unit) : unit.length = 12 := by
  rcases h with rfl | rfl <;> rfl

theorem splitter_byDelimiter : Splitter byDelimiter OneOfTwo byDelimiterBuffers where
  nonempty unit hunit hnil := by
    have := hunit.length
    rw [hnil] at this
    cases this
  feed p prev v rest pts hunit hrest hbuf := by
    rcases hbuf with ⟨rfl, rfl⟩ | ⟨rfl, rfl, hv⟩
    · rw [List.nil_append] at hunit
      have hdelimiter : [0, 0, 0, 1, 0x09] <+: rest := by
        rcases hunit with rfl | rfl <;> decide
      by_cases hp : p = []
      · refine ⟨rest, rest.length, [], by simp [byDelimiter, hp], Nat.le_refl _, .inl ⟨rfl, ?_, .inr ⟨hp, ?_, ?_⟩⟩⟩
        · rw [hunit.length]
          decide
        · rw [List.nil_append, List.take_length]
        · rw [List.nil_append, List.take_length]
          exact hunit
      · exact ⟨[], 0, p, by simp [byDelimiter, hp, hdelimiter], Nat.zero_le _, .inr ⟨rfl, hp, .inl ⟨rfl, rfl⟩⟩⟩
    · have hlen := hunit.length
      rw [List.length_append, hv.length] at hlen
      exact absurd (List.eq_nil_of_length_eq_zero (by omega)) hrest
  start p prev unit hunit hbuf := by
    rcases hbuf with ⟨rfl, -⟩ | ⟨hprev, -⟩
    · cases hunit.length
    · exact hprev
  next p v unit _ _ hbuf := by
    rcases hbuf with ⟨rfl, rfl⟩ | ⟨-, rfl, -⟩
    · exact .inl ⟨rfl, rfl⟩
    · exact .inl ⟨rfl, rfl⟩

def fresh : Stream Bytes PUnit := { decoder := ⟨true, some [], some ⟨⟩⟩, last := none, handed := [] }

def afterIdr (pts : Int64) : Stream Bytes PUnit where
  decoder := ⟨true, some idrUnit, some ⟨⟩⟩
  last := some ⟨idrUnit, pts, idrUnit⟩
  handed := []

def afterInter (pts : Int64) : Stream Bytes PUnit where
  decoder := ⟨true, some interUnit, some ⟨⟩⟩
  last := some ⟨interUnit, pts, interUnit⟩
  handed := [⟨idrUnit, pts, pts⟩]

theorem step_idr (pts : Int64) : (system byDelimiter OneOfTwo []).step fresh (.send idrUnit pts) (afterIdr pts) :=
  ⟨.inl rfl, 2, { status := .needMoreData, decoder := ⟨true, some idrUnit, some ⟨⟩⟩, packets := [], rest := [] }, rfl, rfl⟩

theorem step_inter (pts pts' : Int64) :
    (system byDelimiter OneOfTwo []).step (afterIdr pts) (.send interUnit pts') (afterInter pts') :=
  ⟨.inr rfl, 3, { status := .ok, decoder := ⟨true, some interUnit, some ⟨⟩⟩, packets := [⟨idrUnit, pts', pts'⟩], rest := [] },
    rfl, rfl⟩

/-- Both with the same timestamp. -/
theorem own_pts_iff_equal : ((system byDelimiter OneOfTwo []).restrict (OwnPts byDelimiter OneOfTwo [])).Run fresh
    [.send idrUnit 40, .send interUnit 40] (afterInter 40) := by
  have hinit : (system byDelimiter OneOfTwo []).init fresh := ⟨⟨⟩, rfl⟩
  refine (own_pts_iff splitter_byDelimiter (.inl ⟨rfl, rfl⟩) hinit).1.mpr ?_
  refine .cons ⟨step_idr 40, fun _ _ _ a hlast => by cases hlast⟩ (.cons ⟨step_inter 40 40, ?_⟩ (.nil _))
  intro unit pts hc a hlast _
  cases hc
  cases hlast
  rfl

/-- The second 40 ms later: the first goes to the decoder with the timestamp
of the second. -/
theorem one_unit_late : (system byDelimiter OneOfTwo []).Reachable (afterIdr 0) ∧
    (system byDelimiter OneOfTwo []).step (afterIdr 0) (.send interUnit 40) (afterInter 40) ∧
    (afterIdr 0).last = some ⟨idrUnit, 0, idrUnit⟩ ∧ (afterInter 40).handed = [⟨idrUnit, 40, 40⟩] ∧
    ¬ OwnPts byDelimiter OneOfTwo [] (afterIdr 0) (.send interUnit 40) := by
  have hinit : (system byDelimiter OneOfTwo []).init fresh := ⟨⟨⟩, rfl⟩
  refine ⟨(Lts.reachable_init hinit).step (step_idr 0), step_inter 0 40, rfl, rfl, fun hown => ?_⟩
  have hpts := hown _ (step_inter 0 40) ⟨idrUnit, 40, 40⟩ (List.mem_singleton_self _) _ rfl rfl
  revert hpts
  decide

end WebPlayer.L4.VideoDecoder
