import WebPlayer.L1Encoding.SpsSyntax

/-!
# H.264 sequence parameter sets

The writer follows the tables of `seq_parameter_set_data`, `scaling_list` and
`vui_parameters`, up to `time_scale`; what is behind it is arbitrary.

* `reads_h264Head`: the parser stays in step through every combination of
  branches.
* `h264_frame_rate`: so it returns the quotient of the timing fields.
-/
namespace WebPlayer.L1.H264
open WebPlayer.Core WebPlayer.Core.Codeword WebPlayer.L1.Bitstream WebPlayer.L1.SpsParser WebPlayer.L1.SpsSyntax

/-! ## Syntax -/

/-- delta_scale, for each `j`. -/
abbrev ScalingList := Nat → {d : Int // -128 ≤ d ∧ d ≤ 127}

/-- The range of delta_scale is one of se(v). -/
def deltaScale (d : {d : Int // -128 ≤ d ∧ d ≤ 127}) : SeValue := ⟨d.val, by have h := d.property; omega⟩

/-- scaling_list: a delta for each `j` while nextScale is not 0. -/
def scalingListBits (list : ScalingList) : Nat → Nat → Int → Int → List Bool
  | 0, _, _, _ => []
  | n + 1, j, lastScale, nextScale =>
    if nextScale ≠ 0 then
      let next := (lastScale + (list j).val + 256) % 256
      se (deltaScale (list j)) ++ scalingListBits list n (j + 1) (if next = 0 then lastScale else next) next
    else scalingListBits list n (j + 1) lastScale nextScale

/-- chroma_format_idc to the scaling matrix. -/
structure HighProfile where
  chromaFormatIdc : UeValue
  separateColourPlane : Bool
  bitDepthLumaMinus8 : UeValue
  bitDepthChromaMinus8 : UeValue
  qpprimeYZeroTransformBypass : Bool
  scalingMatrix : Option (Nat → Option ScalingList)

def HighProfile.bits (x : HighProfile) : List Bool :=
  [ue x.chromaFormatIdc, if x.chromaFormatIdc.val = 3 then flag x.separateColourPlane else [],
    ue x.bitDepthLumaMinus8, ue x.bitDepthChromaMinus8, flag x.qpprimeYZeroTransformBypass,
    present x.scalingMatrix fun lists =>
      (List.range' 0 (if x.chromaFormatIdc.val ≠ 3 then 8 else 12)).flatMap fun i =>
        present (lists i) fun list => scalingListBits list (if i < 6 then 16 else 64) 0 8 8].flatten

/-- By pic_order_cnt_type. -/
inductive PicOrderCnt where
  | lsb (log2MaxPicOrderCntLsbMinus4 : UeValue)
  | cycle (deltaPicOrderAlwaysZero : Bool) (offsetForNonRefPic offsetForTopToBottomField : SeValue)
      (offsetForRefFrame : {l : List SeValue // l.length ≤ 255})
  | output

def PicOrderCnt.bits : PicOrderCnt → List Bool
  | .lsb log2 => [ueBits 0, ue log2].flatten
  | .cycle zero nonRef topToBottom refFrames =>
    [ueBits 1, flag zero, se nonRef, se topToBottom, ueBits refFrames.val.length, refFrames.val.flatMap se].flatten
  | .output => ueBits 2

structure Sps where
  profileIdc : BitVec 8
  constraintFlags : BitVec 8
  levelIdc : BitVec 8
  seqParameterSetId : UeValue
  high : HighProfile
  log2MaxFrameNumMinus4 : UeValue
  picOrderCnt : PicOrderCnt
  maxNumRefFrames : UeValue
  gapsInFrameNumAllowed : Bool
  picWidthInMbsMinus1 : UeValue
  picHeightInMapUnitsMinus1 : UeValue
  frameMbsOnly : Bool
  mbAdaptiveFrameField : Bool
  direct8x8Inference : Bool
  cropping : Option Window
  vui : Option (Vui VuiHead)

/-- The profiles with chroma_format_idc. -/
def hasChromaFormat (profileIdc : BitVec 8) : Prop :=
  profileIdc ∈ ([100, 110, 122, 244, 44, 83, 86, 118, 128, 138, 139, 134, 135] : List (BitVec 8))

instance (profileIdc : BitVec 8) : Decidable (hasChromaFormat profileIdc) := inferInstanceAs (Decidable (_ ∈ _))

namespace Sps
variable (sps : Sps)

/-- Up to frame_cropping. -/
def headBits : List Bool :=
  [u sps.profileIdc, u sps.constraintFlags, u sps.levelIdc, ue sps.seqParameterSetId,
    if hasChromaFormat sps.profileIdc then sps.high.bits else [],
    ue sps.log2MaxFrameNumMinus4, sps.picOrderCnt.bits, ue sps.maxNumRefFrames, flag sps.gapsInFrameNumAllowed,
    ue sps.picWidthInMbsMinus1, ue sps.picHeightInMapUnitsMinus1, flag sps.frameMbsOnly,
    if sps.frameMbsOnly = false then flag sps.mbAdaptiveFrameField else [], flag sps.direct8x8Inference,
    present sps.cropping Window.bits].flatten

/-- Up to time_scale, or to the flag that says it is absent. -/
def bits : List Bool := sps.headBits ++ present sps.vui (Vui.bits VuiHead.bits)

def timing : Option Timing := sps.vui.bind Vui.timing

end Sps

/-! ## Reading -/

theorem scaled_eq (lastScale : Nat) (d : Int) : ((scaled lastScale d : Nat) : Int) = (lastScale + d + 256) % 256 := by
  have hmod : ((lastScale : Int) + d + 256) % 2 ^ 32 % 256 = (lastScale + d + 256) % 256 :=
    Int.emod_emod_of_dvd _ (by decide)
  rw [scaled, hmod]
  exact Int.toNat_of_nonneg (Int.emod_nonneg _ (by decide))

theorem reads_scalingList (list : ScalingList) (n j lastScale nextScale : Nat) :
    Reads (scalingList n lastScale nextScale) (scalingListBits list n j lastScale nextScale) () := by
  induction n generalizing j lastScale nextScale with
  | zero => exact .pure ()
  | succ n ih =>
    unfold scalingList scalingListBits readNextScale
    by_cases hnext : nextScale = 0
    · subst hnext
      exact Reads.bind (.pure 0) (ih (j + 1) lastScale 0)
    · have hcast : (nextScale : Int) ≠ 0 := by exact_mod_cast hnext
      have hscaled := scaled_eq lastScale (list j).val
      have hif : ((if scaled lastScale (list j).val = 0 then lastScale else scaled lastScale (list j).val : Nat) : Int) =
          if (lastScale + (list j).val + 256) % 256 = 0 then (lastScale : Int) else (lastScale + (list j).val + 256) % 256 := by
        rw [← hscaled]
        split <;> split <;> omega
      have hread : Reads (do
          let delta ← readSE
          pure (scaled lastScale delta)) (se (deltaScale (list j))) (scaled lastScale (list j).val) := by
        have hbind := (reads_se (deltaScale (list j))).bind (f := fun delta => pure (scaled lastScale delta)) (.pure _)
        rwa [List.append_nil] at hbind
      have hrest := ih (j + 1) (if scaled lastScale (list j).val = 0 then lastScale else scaled lastScale (list j).val)
        (scaled lastScale (list j).val)
      rw [hif, hscaled] at hrest
      rw [if_pos hnext, if_pos hcast]
      exact hread.bind hrest

theorem isHighProfile_iff {profileIdc : BitVec 8} (h : profileIdc ∉ ([134, 135, 138, 139] : List (BitVec 8))) :
    isHighProfile profileIdc.toNat = true ↔ hasChromaFormat profileIdc := by
  revert h
  revert profileIdc
  decide +kernel

theorem reads_highProfileFields (x : HighProfile) : Reads highProfileFields x.bits () := by
  unfold highProfileFields HighProfile.bits
  refine .cons (reads_ue x.chromaFormatIdc) ?_
  refine .cons (.onlyIf Iff.rfl fun _ => reads_skip_flag x.separateColourPlane) ?_
  refine .cons (reads_skipUE x.bitDepthLumaMinus8) (.cons (reads_skipUE x.bitDepthChromaMinus8) ?_)
  refine .cons (reads_skip_flag x.qpprimeYZeroTransformBypass) ?_
  refine .last (reads_present fun lists _ => .forRange fun i _ _ => reads_present fun list _ => ?_)
  exact reads_scalingList list (if i < 6 then 16 else 64) 0 8 8

theorem reads_picOrderCnt (x : PicOrderCnt) : Reads picOrderCnt x.bits () := by
  unfold picOrderCnt
  cases x with
  | lsb log2 => exact .cons (reads_ueBits (by decide)) (.last (reads_skipUE log2))
  | cycle zero nonRef topToBottom refFrames =>
    have hlen := refFrames.property
    refine .cons (reads_ueBits (by decide)) (.cons (reads_skip_flag zero) (.cons (reads_skipSE nonRef) ?_))
    refine .cons (reads_skipSE topToBottom) (.cons (reads_ueBits (by omega)) (.last ?_))
    exact .each (fun offset _ => reads_skipSE offset) 0
  | output =>
    rw [PicOrderCnt.bits, ← List.append_nil (ueBits 2)]
    exact (reads_ueBits (by decide)).bind (.pure ())

/-- **In step** up to the VUI. -/
theorem reads_h264Head (sps : Sps) (hprofile : sps.profileIdc ∉ ([134, 135, 138, 139] : List (BitVec 8))) :
    Reads h264Head sps.headBits () := by
  have hmbs : sps.frameMbsOnly.toNat = 0 ↔ sps.frameMbsOnly = false := by cases sps.frameMbsOnly <;> decide
  unfold h264Head Sps.headBits
  refine .cons (reads_u sps.profileIdc (by decide)) ?_
  refine .cons (reads_skip_u sps.constraintFlags) (.cons (reads_skip_u sps.levelIdc) ?_)
  refine .cons (reads_skipUE sps.seqParameterSetId) ?_
  refine .cons (.onlyIf (isHighProfile_iff hprofile) fun _ => reads_highProfileFields sps.high) ?_
  refine .cons (reads_skipUE sps.log2MaxFrameNumMinus4) (.cons (reads_picOrderCnt sps.picOrderCnt) ?_)
  refine .cons (reads_skipUE sps.maxNumRefFrames) (.cons (reads_skip_flag sps.gapsInFrameNumAllowed) ?_)
  refine .cons (reads_skipUE sps.picWidthInMbsMinus1) (.cons (reads_skipUE sps.picHeightInMapUnitsMinus1) ?_)
  refine .cons (reads_bit sps.frameMbsOnly) ?_
  refine .cons (.onlyIf hmbs fun _ => reads_skip_flag sps.mbAdaptiveFrameField) ?_
  refine .cons (reads_skip_flag sps.direct8x8Inference) (.last (reads_present fun cropping _ => reads_window cropping))

theorem reads_h264Timing (sps : Sps) (hprofile : sps.profileIdc ∉ ([134, 135, 138, 139] : List (BitVec 8))) :
    Reads h264Timing sps.bits (sps.timing.map Timing.fields) :=
  (reads_h264Head sps hprofile).bind (reads_vuiTiming reads_vuiHead sps.vui)

theorem head_length (sps : Sps) : 24 < sps.headBits.length := by
  simp only [Sps.headBits, List.flatten_cons, List.length_append, u_length, ue, ueBits, List.length_cons]
  omega

theorem bits_length (sps : Sps) : 24 < sps.bits.length := by
  rw [Sps.bits, List.length_append]
  exact Nat.lt_of_lt_of_le (head_length sps) (Nat.le_add_right ..)

theorem h264_fields {sps : Sps} (hprofile : sps.profileIdc ∉ ([134, 135, 138, 139] : List (BitVec 8))) {nal : SpsNal}
    (hheader : nal.header.length = 1) (hbits : nal.Begins sps.bits) :
    spsFields 1 4 h264Timing nal.bytes = sps.timing.map Timing.fields := by
  have hlen := bits_length sps
  have h : spsFields nal.header.length 4 h264Timing nal.bytes = _ :=
    spsFields_nal nal (reads_h264Timing sps hprofile) hbits (by omega) (by omega)
  rwa [hheader] at h

theorem parse_h264 {sps : Sps} (hprofile : sps.profileIdc ∉ ([134, 135, 138, 139] : List (BitVec 8))) {nal : SpsNal}
    (hheader : nal.header.length = 1) (hbits : nal.Begins sps.bits) :
    parseH264Fps nal.bytes = frameRate h264Rate (sps.timing.map Timing.fields) := by
  rw [parseH264Fps, parseFps_eq, h264_fields hprofile hheader hbits]

/-- **The frame rate of an H.264 stream.** -/
theorem h264_frame_rate {sps : Sps} (hprofile : sps.profileIdc ∉ ([134, 135, 138, 139] : List (BitVec 8)))
    {nal : SpsNal} (hheader : nal.header.length = 1) (hbits : nal.Begins sps.bits) :
    (∀ t, sps.timing = some t → t.numUnitsInTick ≠ 0 → t.timeScale ≠ 0 →
        parseH264Fps nal.bytes = .ratio t.timeScale.toNat (2 * t.numUnitsInTick.toNat)) ∧
      (sps.timing = none → parseH264Fps nal.bytes = .default) := by
  rw [parse_h264 hprofile hheader hbits]
  refine ⟨fun t ht hunits hscale => ?_, fun hnone => ?_⟩
  · rw [ht]
    exact frameRate_fields hunits hscale
  · rw [hnone]
    rfl

/-- A small SPS, 50 fields a second. -/
def fieldsSps : Sps where
  profileIdc := 66
  constraintFlags := 0
  levelIdc := 30
  seqParameterSetId := 0
  high := {
    chromaFormatIdc := 1
    separateColourPlane := false
    bitDepthLumaMinus8 := 0
    bitDepthChromaMinus8 := 0
    qpprimeYZeroTransformBypass := false
    scalingMatrix := none }
  log2MaxFrameNumMinus4 := 0
  picOrderCnt := .output
  maxNumRefFrames := 1
  gapsInFrameNumAllowed := false
  picWidthInMbsMinus1 := 19
  picHeightInMapUnitsMinus1 := 14
  frameMbsOnly := true
  mbAdaptiveFrameField := false
  direct8x8Inference := true
  cropping := none
  vui := some { head := { aspectRatio := none, overscanAppropriate := none, videoSignal := none, chromaLoc := none }
                timing := some { numUnitsInTick := 1, timeScale := 50 } }

/-- An emulation prevention byte, and the next start code. -/
def fieldsNal : SpsNal where
  start := [0, 0, 0, 1]
  header := [0x67]
  rbsp := [0x42, 0x00, 0x1E, 0xDA, 0x05, 0x07, 0xE8, 0x40, 0x00, 0x00, 0x00, 0x40, 0x00, 0x00, 0x0C, 0xA0]
  extra := [0, 0, 0, 1, 0x68]
  start_code := four_byte_start
  header_short := by decide
  header_last := ⟨[], 0x67, by decide, rfl⟩

theorem fieldsNal_begins : fieldsNal.Begins fieldsSps.bits := ⟨[true, false, false, false, false, false], by decide⟩

theorem h264_frame_rate_fields : parseH264Fps fieldsNal.bytes = .ratio 50 2 :=
  (@h264_frame_rate fieldsSps (by decide) fieldsNal rfl fieldsNal_begins).1 _ rfl (by decide) (by decide)

end WebPlayer.L1.H264
