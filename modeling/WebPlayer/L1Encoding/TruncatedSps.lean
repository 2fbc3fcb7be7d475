import WebPlayer.L1Encoding.H264Sps
import WebPlayer.L1Encoding.H265Sps

/-!
# Truncated parameter sets

Past the end of its data the reader returns zeros, and nothing tells the
parser. A flag that is cut off reads as absent, so that most cuts end in the
default frame rate; inside `time_scale` the missing bits count as zeros, and a
rate is computed from them.

* `truncated_default_iff`: the default is returned iff no bit before the cut
  is 1 in one of the two fields, where the parser looks for them; in step, in
  `time_scale`, or `num_units_in_tick` is 0.
-/
namespace WebPlayer.L1.TruncatedSps
open WebPlayer.Core WebPlayer.Core.Codeword WebPlayer.L1.Bitstream WebPlayer.L1.EmulationPrevention
open WebPlayer.L1.SpsParser WebPlayer.L1.SpsSyntax BitSource

/-! ## Reading past the end -/

theorem bitsNat_eq_zero_iff {bs : List Bool} : bitsNat bs = 0 ↔ ∀ b ∈ bs, b = false := by
  induction bs with
  | nil => simp [bitsNat]
  | cons b bs ih =>
    have hpos := Nat.two_pow_pos bs.length
    rw [bitsNat_cons, List.forall_mem_cons, Nat.add_eq_zero_iff, ih]
    cases b <;> simp

theorem skipBits_rest (n : Nat) (s : BitstreamReader) : rest (skipBits n s).2 = (rest s).drop n := by
  have hloop : ∀ i, rest (forRange (fun _ => do let _ ← readBit) i n s).2 = (rest s).drop n := by
    induction n generalizing s with
    | zero => exact fun _ => rfl
    | succ n ih =>
      intro i
      show rest (forRange _ (i + 1) n (readBit s).2).2 = _
      rw [ih, readBit_rest, List.drop_drop, Nat.add_comm]
  exact hloop 0

theorem readBitsLoop_rest (n value : Nat) (s : BitstreamReader) : rest (readBitsLoop n value s).2 = (rest s).drop n := by
  induction n generalizing value s with
  | zero => rfl
  | succ n ih =>
    show rest (readBitsLoop n _ (readBit s).2).2 = _
    rw [ih, readBit_rest, List.drop_drop, Nat.add_comm]

theorem readBits_rest (n : Nat) (s : BitstreamReader) : rest (readBits n s).2 = (rest s).drop n := readBitsLoop_rest n 0 s

theorem takes_skipBits (n : Nat) : Takes n (skipBits n) := by
  intro s
  rw [skipBits_rest, List.length_drop]

theorem takes_readBits (n : Nat) : Takes n (readBits n) := by
  intro s
  rw [readBits_rest, List.length_drop]

/-- Missing bits are zeros. -/
theorem readBitsLoop_eq_zero_iff {n value : Nat} {s : BitstreamReader} (hvalue : (value + 1) * 2 ^ n ≤ 2 ^ 32) :
    (readBitsLoop n value s).1 = 0 ↔ value = 0 ∧ ∀ b ∈ (rest s).take n, b = false := by
  induction n generalizing value s with
  | zero =>
    have hstop : (readBitsLoop 0 value s).1 = value := rfl
    simp [hstop]
  | succ n ih =>
    obtain ⟨b, hb, hbits⟩ : ∃ b : Bool, (readBit s).1 = b.toNat ∧
        ((∀ c ∈ (rest s).take (n + 1), c = false) ↔ b = false ∧ ∀ c ∈ (rest (readBit s).2).take n, c = false) := by
      cases hs : rest s with
      | nil => exact ⟨false, by rw [readBit_dry hs]; rfl, by simp [readBit_dry hs, hs]⟩
      | cons b bs => exact ⟨b, (readBit_eq hs).1, by simp [(readBit_eq hs).2]⟩
    have hle := Bool.toNat_le b
    have hnext : (2 * value + b.toNat + 1) * 2 ^ n ≤ 2 ^ 32 := by
      refine Nat.le_trans (Nat.mul_le_mul_right _ (show _ ≤ (value + 1) * 2 by omega)) ?_
      rwa [Nat.mul_assoc, ← Nat.pow_succ']
    have hsmall : 2 * value + b.toNat < 2 ^ 32 := by
      have hone : (2 * value + b.toNat + 1) * 1 ≤ (2 * value + b.toNat + 1) * 2 ^ n :=
        Nat.mul_le_mul_left _ (Nat.two_pow_pos n)
      omega
    have hzero : 2 * value + b.toNat = 0 ↔ value = 0 ∧ b = false := by cases b <;> simp
    show (readBitsLoop n (((value <<< 1) ||| (readBit s).1) % 2 ^ 32) (readBit s).2).1 = 0 ↔ _
    rw [hb, shiftLeft_or_bit, Nat.mod_eq_of_lt hsmall, ih hnext, hzero, hbits, and_assoc]

theorem readBits_eq_zero_iff {n : Nat} (hn : n ≤ 32) (s : BitstreamReader) :
    (readBits n s).1 = 0 ↔ ∀ b ∈ (rest s).take n, b = false := by
  have hpow : (0 + 1) * 2 ^ n ≤ 2 ^ 32 := by
    rw [Nat.zero_add, Nat.one_mul]
    exact Nat.pow_le_pow_right (by decide) hn
  have hloop : (readBits n s).1 = 0 ↔ _ := readBitsLoop_eq_zero_iff hpow
  rw [hloop, and_iff_right rfl]

/-! ## Where the timing fields are -/

/-- As far as the timing fields, if the parser gets there. -/
def untilTiming (head vuiHead : Reader Unit) : Reader Bool := do
  head
  let vuiPresent ← readBit
  if vuiPresent = 0 then pure false
  else
    vuiHead
    let timingPresent ← readBit
    pure (timingPresent ≠ 0)

/-- The number of bits in front of them. -/
def timingPlace (head vuiHead : Reader Unit) (s : BitstreamReader) : Option Nat :=
  if (untilTiming head vuiHead s).1 then some ((rest s).length - (rest (untilTiming head vuiHead s).2).length) else none

/-- No bit of one of the two fields is 1, as far as they go. -/
def BlankAt (bits : List Bool) (place : Nat) : Prop :=
  (∀ b ∈ (bits.drop place).take 32, b = false) ∨ ∀ b ∈ (bits.drop (place + 32)).take 32, b = false

theorem blankAt_end {bits : List Bool} {place : Nat} (h : bits.length ≤ place) : BlankAt bits place := by
  left
  rw [List.drop_eq_nil_of_le h]
  exact nofun

theorem blankAt_drop {bits : List Bool} {place : Nat} : BlankAt (bits.drop place) 0 ↔ BlankAt bits place := by
  simp only [BlankAt, List.drop_drop, Nat.add_zero, Nat.zero_add]

section
variable {rate : Nat → Nat → FrameRate} (hrate : ∀ units scale, rate units scale ≠ .default)
include hrate

theorem frameRate_default_iff {units scale : Nat} :
    frameRate rate (some (units, scale)) = .default ↔ units = 0 ∨ scale = 0 := by
  rw [frameRate]
  by_cases h : units = 0 ∨ scale = 0
  · rw [if_pos h]
    exact ⟨fun _ => h, fun _ => rfl⟩
  · rw [if_neg h]
    exact ⟨fun hdef => absurd hdef (hrate units scale), fun h' => absurd h' h⟩

theorem timingFields_default_iff (s : BitstreamReader) :
    frameRate rate (timingFields s).1 = .default ↔ BlankAt (rest s) 0 := by
  have heq : (timingFields s).1 = some ((readBits 32 s).1, (readBits 32 (readBits 32 s).2).1) := by
    unfold timingFields
    generalize readBits 32 = m
    rfl
  rw [heq, frameRate_default_iff hrate, readBits_eq_zero_iff (Nat.le_refl 32), readBits_eq_zero_iff (Nat.le_refl 32),
    readBits_rest, BlankAt, List.drop_zero, Nat.zero_add]

variable {head vuiHead : Reader Unit}

omit hrate in
theorem untilTiming_eq (s : BitstreamReader) : untilTiming head vuiHead s =
    if (readBit (head s).2).1 = 0 then (false, (readBit (head s).2).2)
    else (decide ((readBit (vuiHead (readBit (head s).2).2).2).1 ≠ 0), (readBit (vuiHead (readBit (head s).2).2).2).2) := by
  show (if (readBit (head s).2).1 = 0 then (pure false : Reader _) else _) (readBit (head s).2).2 = _
  split <;> rfl

omit hrate in
theorem vuiTiming_eq (s : BitstreamReader) : ((head >>= fun _ => vuiTiming vuiHead) s).1 =
    if (untilTiming head vuiHead s).1 then (timingFields (untilTiming head vuiHead s).2).1 else none := by
  show ((if (readBit (head s).2).1 = 0 then (pure none : Reader _) else _) (readBit (head s).2).2).1 = _
  rw [untilTiming_eq]
  split
  · rfl
  · show ((if (readBit (vuiHead (readBit (head s).2).2).2).1 = 0 then (pure none : Reader _) else timingFields) _).1 = _
    split
    · rename_i hzero
      simp only [hzero, ne_eq, not_true, decide_false]
      rfl
    · rename_i hone
      simp only [hone, ne_eq, not_false_eq_true, decide_true]
      rfl

variable [Lawful head] [Lawful vuiHead]

omit hrate in
instance : Lawful (untilTiming head vuiHead) := by
  unfold untilTiming
  infer_instance

/-- **Fields that are cut off.** `s` sees the beginning of what `t` sees. -/
theorem cut_default_iff {s t : BitstreamReader} {cut : List Bool} (h : rest t = rest s ++ cut) :
    frameRate rate ((head >>= fun _ => vuiTiming vuiHead) s).1 = .default ↔
      ∀ place, timingPlace head vuiHead t = some place → BlankAt (rest s) place := by
  rw [vuiTiming_eq]
  rcases Lawful.cut (m := untilTiming head vuiHead) h with ⟨hdry, hle⟩ | ⟨hsame, hrest⟩
  · refine ⟨fun _ place hplace => ?_, fun _ => ?_⟩
    · obtain ⟨-, hplace⟩ := Option.ite_none_right_eq_some.mp hplace
      cases hplace
      exact blankAt_end hle
    · split
      · rw [timingFields_default_iff hrate, hdry]
        exact blankAt_end (Nat.le_refl 0)
      · rfl
  · rw [timingPlace, hsame]
    split
    · rw [timingFields_default_iff hrate, hrest, blankAt_drop]
      exact ⟨fun hblank place hplace => by cases hplace; exact hblank, fun hblank => hblank _ rfl⟩
    · exact ⟨fun _ => nofun, fun _ => rfl⟩

end

/-! ## NAL units -/

/-- The RBSP in the first `n` bytes. -/
def cutRbsp (nal : SpsNal) (n : Nat) : Bytes :=
  (removeEmulationPrevention ((nal.bytes.take n).drop nal.start.length)).drop nal.header.length

def visible (nal : SpsNal) (n : Nat) : List Bool := bytesBits (cutRbsp nal n)

section
variable (nal : SpsNal)

theorem startCodeOffset_reached {n : Nat} (hn : nal.start.length < n) :
    startCodeOffset (nal.bytes.take n) = nal.start.length := by
  obtain ⟨b, header, hheader⟩ := List.exists_cons_of_ne_nil (List.ne_nil_of_length_pos nal.header_pos)
  obtain ⟨k, hk⟩ : ∃ k, n - nal.start.length = k + 1 := ⟨n - nal.start.length - 1, by omega⟩
  rw [SpsNal.bytes, List.take_append, List.take_of_length_le (Nat.le_of_lt hn), hheader, hk]
  exact startCodeOffset_eq nal.start_code (List.cons_ne_nil _ _)

/-- A prefix has no other start code. -/
theorem startCodeOffset_take (n : Nat) :
    startCodeOffset (nal.bytes.take n) = 0 ∨ startCodeOffset (nal.bytes.take n) = nal.start.length := by
  rcases Nat.lt_or_ge nal.start.length n with hlt | hge
  · exact .inr (startCodeOffset_reached nal hlt)
  · rw [SpsNal.bytes, List.take_append_of_le_length hge]
    rcases nal.start_code with h | h
    · left
      rw [startCodeOffset, if_neg]
      rintro ⟨hfour, -⟩
      rw [h] at hfour
      exact absurd (Nat.le_trans hfour (List.length_take_le' ..)) (by decide)
    · rw [h] at hge ⊢
      have hn : n = 0 ∨ n = 1 ∨ n = 2 ∨ n = 3 ∨ n = 4 := by
        simp at hge
        omega
      rcases hn with rfl | rfl | rfl | rfl | rfl
      · exact .inl rfl
      · exact .inl rfl
      · exact .inl rfl
      · exact .inl rfl
      · exact .inr rfl

/-- Too short to reach the RBSP. -/
theorem parseFps_header (least : Nat) (timing : Reader (Option (Nat × Nat))) (rate : Nat → Nat → FrameRate) {n : Nat}
    (hn : (nal.bytes.take n).length ≤ nal.start.length + nal.header.length) :
    parseFps nal.header.length least timing rate (nal.bytes.take n) = .default ∧ visible nal n = [] := by
  constructor
  · unfold parseFps
    rcases startCodeOffset_take nal n with h | h
    · simp only [h, true_or, if_true]
    · simp only [h]
      rw [if_pos (.inr hn)]
  · have hlen : ((nal.bytes.take n).drop nal.start.length).length ≤ nal.header.length := by
      rw [List.length_drop]
      omega
    rw [visible, cutRbsp, remove_short (Nat.le_trans hlen nal.header_short), List.drop_eq_nil_of_le hlen]
    rfl

/-- What is extracted from a prefix is a prefix of what is extracted. -/
theorem cutRbsp_prefix (n : Nat) : ∃ tail, cutRbsp nal nal.bytes.length = cutRbsp nal n ++ tail := by
  rcases Nat.le_total n nal.start.length with hn | hn
  · have hnone : (nal.bytes.take n).drop nal.start.length = [] :=
      List.drop_eq_nil_of_le (Nat.le_trans (List.length_take_le ..) hn)
    refine ⟨cutRbsp nal nal.bytes.length, ?_⟩
    have hnil : cutRbsp nal n = [] := by
      rw [cutRbsp, hnone, remove_short (Nat.zero_le _), List.drop_nil]
    rw [hnil, List.nil_append]
  · have hreach : nal.start.length ≤ (nal.bytes.take n).length := by
      rw [List.length_take, SpsNal.bytes, List.length_append]
      omega
    have hsplit : (nal.bytes.take nal.bytes.length).drop nal.start.length =
        (nal.bytes.take n).drop nal.start.length ++ nal.bytes.drop n := by
      rw [← List.drop_append_of_le_length hreach, List.take_append_drop, List.take_length]
    obtain ⟨tail, htail⟩ := remove_prefix ((nal.bytes.take n).drop nal.start.length) (nal.bytes.drop n)
    rw [cutRbsp, hsplit, htail, List.drop_append]
    exact ⟨_, rfl⟩

/-- **A cut NAL unit.** -/
theorem parseFps_cut (least : Nat) {rate : Nat → Nat → FrameRate} (hrate : ∀ units scale, rate units scale ≠ .default)
    {head : Reader Unit} (vuiHead : Reader Unit) [Lawful head] [Lawful vuiHead]
    (htakes : Takes (8 * (least - nal.header.length)) head) (n : Nat) :
    parseFps nal.header.length least (head >>= fun _ => vuiTiming vuiHead) rate (nal.bytes.take n) = .default ↔
      ∀ place, timingPlace head vuiHead { data := cutRbsp nal nal.bytes.length } = some place →
        BlankAt (visible nal n) place := by
  obtain ⟨tail, htail⟩ := cutRbsp_prefix nal n
  have hcut : rest ({ data := cutRbsp nal nal.bytes.length } : BitstreamReader) =
      rest ({ data := cutRbsp nal n } : BitstreamReader) ++ bytesBits tail := by
    simp only [rest, List.drop_zero, htail, bytesBits_append]
  rcases Nat.lt_or_ge (nal.start.length + nal.header.length) (nal.bytes.take n).length with hn | hn
  · have hreached : nal.start.length < n := by
      have hle : (nal.bytes.take n).length ≤ n := List.length_take_le ..
      omega
    unfold parseFps
    simp only [startCodeOffset_reached nal hreached]
    have hstart : nal.start.length ≠ 0 := by rcases nal.start_code with h | h <;> simp [h]
    rw [if_neg (by omega)]
    split
    · -- fewer bytes than lie before the timing fields
      rename_i hlow
      refine ⟨fun _ place hplace => ?_, fun _ => rfl⟩
      obtain ⟨-, hplace⟩ := Option.ite_none_right_eq_some.mp hplace
      cases hplace
      have htaken : Takes (8 * (least - nal.header.length)) (untilTiming head vuiHead) :=
        htakes.bind fun _ => Nat.sub_self _ ▸ Lawful.takes _
      have hpast := htaken { data := cutRbsp nal nal.bytes.length }
      have hlen : (visible nal n).length = 8 * (cutRbsp nal n).length := bytesBits_length _
      have hlen' : (cutRbsp nal n).length = (removeEmulationPrevention ((nal.bytes.take n).drop nal.start.length)).length -
        nal.header.length := List.length_drop ..
      have hmore := congrArg List.length hcut
      have hrest : rest ({ data := cutRbsp nal n } : BitstreamReader) = visible nal n := rfl
      rw [List.length_append, hrest] at hmore
      exact blankAt_end (by omega)
    · exact cut_default_iff hrate hcut
  · obtain ⟨hdefault, hnone⟩ := parseFps_header nal least (head >>= fun _ => vuiTiming vuiHead) rate hn
    rw [hdefault, hnone]
    exact ⟨fun _ _ _ => blankAt_end (Nat.zero_le _), fun _ => rfl⟩

end

/-! ## Streams -/

/-- A sequence parameter set in a NAL unit. -/
inductive Stream where
  | h264 (sps : H264.Sps) (nal : SpsNal) (header : nal.header.length = 1) (begins : nal.Begins sps.bits)
  | h265 (sps : H265.Sps) (nal : SpsNal) (header : nal.header.length = 2) (begins : nal.Begins sps.bits)

namespace Stream

def nal : Stream → SpsNal
  | .h264 _ nal .. => nal
  | .h265 _ nal .. => nal

/-- Up to the last bit of time_scale. -/
def bits : Stream → List Bool
  | .h264 sps .. => sps.bits
  | .h265 sps .. => sps.bits

def timing : Stream → Option Timing
  | .h264 sps .. => sps.timing
  | .h265 sps .. => sps.timing

def isH265 : Stream → Bool
  | .h264 .. => false
  | .h265 .. => true

def parse : Stream → Bytes → FrameRate
  | .h264 .. => parseH264Fps
  | .h265 .. => parseH265Fps

/-- The parser takes each field for what it is. -/
def InStep : Stream → Prop
  | .h264 sps .. => sps.profileIdc ∉ ([134, 135, 138, 139] : List (BitVec 8))
  | .h265 sps .. => sps.InStep

/-- Where the parser finds the timing fields in the whole set. -/
def place : Stream → Option Nat
  | .h264 _ nal .. => timingPlace h264Head vuiHead { data := cutRbsp nal nal.bytes.length }
  | .h265 _ nal .. => timingPlace h265Head h265VuiHead { data := cutRbsp nal nal.bytes.length }

/-- In the first `n` bytes, no bit of one of these fields is 1. -/
def Blank (x : Stream) (n : Nat) : Prop := ∀ place, x.place = some place → BlankAt (visible x.nal n) place

end Stream

theorem takes_h264Head : Takes 24 h264Head := by
  unfold h264Head
  refine (takes_readBits 8).bind fun _ => (takes_skipBits 8).bind fun _ => (takes_skipBits 8).bind fun _ => ?_
  refine @Lawful.takes _ _ _ _ ?_
  repeat refine .bind fun _ => ?_
  infer_instance

theorem takes_h265Head : Takes 104 h265Head := by
  have hlevel : ∀ n, Takes 96 (profileTierLevel n) := by
    intro n
    unfold profileTierLevel
    refine (takes_skipBits 2).bind fun _ => (takes_skipBits 1).bind fun _ => (takes_skipBits 5).bind fun _ => ?_
    refine (takes_skipBits 32).bind fun _ => (takes_skipBits 1).bind fun _ => (takes_skipBits 1).bind fun _ => ?_
    refine (takes_skipBits 1).bind fun _ => (takes_skipBits 1).bind fun _ => (takes_skipBits 44).bind fun _ => ?_
    exact (takes_skipBits 8).bind fun _ => Lawful.takes _
  have hsizes : Takes 104 h265Sizes := by
    unfold h265Sizes
    refine (takes_skipBits 4).bind fun _ => (takes_readBits 3).bind fun n => (takes_skipBits 1).bind fun _ => ?_
    refine (hlevel n).bind fun _ => @Lawful.takes _ _ _ _ ?_
    repeat refine .bind fun _ => ?_
    infer_instance
  unfold h265Head
  exact hsizes.bind fun _ => Lawful.takes _

/-- **Any cut.** -/
theorem Stream.parse_cut (x : Stream) (n : Nat) : x.parse (x.nal.bytes.take n) = .default ↔ x.Blank n := by
  cases x with
  | h264 sps nal header begins =>
    have hrate : ∀ units scale, h264Rate units scale ≠ .default := nofun
    have h := parseFps_cut nal 4 hrate vuiHead (by rw [header]; exact takes_h264Head) n
    rw [header] at h
    exact h
  | h265 sps nal header begins =>
    have hrate : ∀ units scale, h265Rate units scale ≠ .default := nofun
    have h := parseFps_cut nal 15 hrate h265VuiHead (by rw [header]; exact takes_h265Head) n
    rw [header] at h
    exact h

/-! ### In step -/

theorem Timing.bits_length (t : Timing) : t.bits.length = 64 := by
  simp only [Timing.bits, List.flatten_cons, List.flatten_nil, List.length_append, u_length, List.length_nil]

/-- A VUI with timing fields. -/
theorem present_timing {α : Type} (headBits : α → List Bool) {vui : Option (Vui α)} {t : Timing}
    (ht : vui.bind Vui.timing = some t) :
    ∃ head, present vui (Vui.bits headBits) = flag true ++ (headBits head ++ (flag true ++ t.bits)) := by
  obtain ⟨v, rfl, hv⟩ := Option.bind_eq_some_iff.mp ht
  exact ⟨v.head, by simp only [present, Vui.bits, hv, Option.isSome_some, Option.elim_some]⟩

theorem reads_untilTiming {head vuiHead : Reader Unit} {headBits vuiBits : List Bool} (hhead : Reads head headBits ())
    (hvui : Reads vuiHead vuiBits ()) :
    Reads (untilTiming head vuiHead) (headBits ++ (flag true ++ (vuiBits ++ flag true))) true := by
  have hlast := (reads_bit true).bind (f := fun bit => pure (decide (bit ≠ 0))) (.pure _)
  rw [List.append_nil] at hlast
  exact hhead.bind ((reads_bit true).bind (hvui.bind hlast))

/-- The fields are behind what was read. -/
theorem place_of_begins {head vuiHead : Reader Unit} {front : List Bool} (hfront : Reads (untilTiming head vuiHead) front true)
    {nal : SpsNal} {t : Timing} (hbits : nal.Begins (front ++ t.bits)) :
    timingPlace head vuiHead { data := cutRbsp nal nal.bytes.length } = some front.length ∧
      ∃ more, visible nal nal.bytes.length = front ++ (t.bits ++ more) := by
  obtain ⟨tail, htail⟩ := nal.remove_bytes
  obtain ⟨more, hmore⟩ := hbits
  have hwhole : cutRbsp nal nal.bytes.length = nal.rbsp ++ tail := by
    rw [cutRbsp, List.take_length, SpsNal.bytes, List.drop_left, htail, List.drop_left]
  have hrest : rest ({ data := cutRbsp nal nal.bytes.length } : BitstreamReader) =
      front ++ (t.bits ++ (more ++ bytesBits tail)) := by
    simp only [rest, List.drop_zero, hwhole, bytesBits_append, hmore, List.append_assoc]
  obtain ⟨hread, hleft⟩ := hfront _ _ hrest
  refine ⟨?_, _, hrest⟩
  rw [timingPlace, if_pos hread, hleft, hrest, List.length_append, Nat.add_sub_cancel]

/-- What is seen of the fields that were written. -/
theorem blankAt_iff {front seen cut more : List Bool} {t : Timing} (h : front ++ (t.bits ++ more) = seen ++ cut)
    (hlt : seen.length < front.length + 64) : BlankAt seen front.length ↔
      t.numUnitsInTick = 0 ∨ ∀ b ∈ seen.drop (front.length + 32), b = false := by
  have hlast : (seen.drop (front.length + 32)).take 32 = seen.drop (front.length + 32) :=
    List.take_of_length_le (by rw [List.length_drop]; omega)
  rw [BlankAt, hlast]
  rcases Nat.lt_or_ge seen.length (front.length + 32) with hshort | hlong
  · rw [List.drop_eq_nil_of_le (Nat.le_of_lt hshort)]
    exact ⟨fun _ => .inr nofun, fun _ => .inr nofun⟩
  · have hunits : (seen.drop front.length).take 32 = u t.numUnitsInTick := by
      have hdrop : t.bits ++ more = seen.drop front.length ++ cut := by
        rw [← List.drop_append_of_le_length (by omega), ← h, List.drop_left]
      have htake : (seen.drop front.length ++ cut).take 32 = (seen.drop front.length).take 32 :=
        List.take_append_of_le_length (by rw [List.length_drop]; omega)
      rw [← htake, ← hdrop, Timing.bits, List.flatten_cons, List.append_assoc, List.take_left' (u_length _)]
    have hzero : t.numUnitsInTick = 0 ↔ t.numUnitsInTick.toNat = 0 := by
      rw [← BitVec.toNat_inj]
      rfl
    rw [hunits, hzero, ← bitsNat_u, bitsNat_eq_zero_iff]

/-- In step, the parser looks in the right place. -/
theorem Stream.place_inStep {x : Stream} (hstep : x.InStep) {t : Timing} (ht : x.timing = some t) :
    ∃ front more, x.bits = front ++ t.bits ∧ x.place = some front.length ∧
      visible x.nal x.nal.bytes.length = front ++ (t.bits ++ more) := by
  cases x with
  | h264 sps nal header begins =>
    obtain ⟨head, hvui⟩ := present_timing VuiHead.bits ht
    have hbits : sps.bits = (sps.headBits ++ (flag true ++ (head.bits ++ flag true))) ++ t.bits := by
      rw [H264.Sps.bits, hvui]
      simp only [List.append_assoc]
    have hreads := reads_untilTiming (H264.reads_h264Head sps hstep) (reads_vuiHead head)
    obtain ⟨hplace, more, hmore⟩ := place_of_begins hreads (hbits ▸ begins)
    exact ⟨_, more, hbits, hplace, hmore⟩
  | h265 sps nal header begins =>
    obtain ⟨head, hvui⟩ := present_timing H265.VuiHead.bits ht
    have hbits : sps.bits = ([sps.sizesBits, sps.toolsBits, sps.refPicsBits].flatten ++
        (flag true ++ (head.bits ++ flag true))) ++ t.bits := by
      rw [H265.Sps.bits, hvui]
      simp only [List.append_assoc]
    have hreads := reads_untilTiming (H265.reads_h265Head hstep) (H265.reads_h265VuiHead head)
    obtain ⟨hplace, more, hmore⟩ := place_of_begins hreads (hbits ▸ begins)
    exact ⟨_, more, hbits, hplace, hmore⟩

/-- **Cut before the last bit of time_scale.** -/
theorem truncated_default_iff (x : Stream) {t : Timing} (ht : x.timing = some t) {n : Nat}
    (hcut : (visible x.nal n).length < x.bits.length) :
    (x.parse (x.nal.bytes.take n) = .default ↔ x.Blank n) ∧
      (x.InStep → (x.Blank n ↔ t.numUnitsInTick = 0 ∨ ∀ b ∈ (visible x.nal n).drop (x.bits.length - 32), b = false)) := by
  refine ⟨x.parse_cut n, fun hstep => ?_⟩
  obtain ⟨front, more, hbits, hplace, hmore⟩ := x.place_inStep hstep ht
  obtain ⟨tail, htail⟩ := cutRbsp_prefix x.nal n
  have hseen : front ++ (t.bits ++ more) = visible x.nal n ++ bytesBits tail := by
    rw [← hmore, visible, htail, bytesBits_append]
    rfl
  have hlen : x.bits.length = front.length + 64 := by rw [hbits, List.length_append, Timing.bits_length]
  have hblank : x.Blank n ↔ BlankAt (visible x.nal n) front.length := by
    unfold Stream.Blank
    rw [hplace]
    exact ⟨fun h => h _ rfl, fun h place hp => by cases hp; exact h⟩
  have hindex : x.bits.length - 32 = front.length + 32 := by omega
  rw [hblank, hindex]
  exact blankAt_iff hseen (hlen ▸ hcut)

/-- 50 fields a second, with the last byte of `time_scale` cut off or the last
two. -/
def fieldsStream : Stream := .h264 H264.fieldsSps H264.fieldsNal rfl H264.fieldsNal_begins

theorem truncated_default_iff_fields : parseH264Fps (fieldsStream.nal.bytes.take 20) = .default := by
  have hstep : fieldsStream.InStep := show H264.fieldsSps.profileIdc ∉ _ by decide
  obtain ⟨hparse, hblank⟩ := truncated_default_iff fieldsStream (t := { numUnitsInTick := 1, timeScale := 50 }) rfl
    (n := 20) (by decide +kernel)
  exact hparse.mpr ((hblank hstep).mpr (.inr (by decide +kernel)))

theorem truncated_rate : (visible fieldsStream.nal 21).length < fieldsStream.bits.length ∧
    parseH264Fps (fieldsStream.nal.bytes.take 21) = .ratio 48 2 := by decide +kernel

end WebPlayer.L1.TruncatedSps
