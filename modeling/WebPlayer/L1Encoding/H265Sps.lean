import WebPlayer.L1Encoding.SpsSyntax

/-!
# H.265 sequence parameter sets

The writer follows the tables of `seq_parameter_set_rbsp`, `profile_tier_level`,
`scaling_list_data`, `st_ref_pic_set` and `vui_parameters`, up to
`vui_time_scale`. The parser simplifies two of them: it reads 16 flags of an
inter-predicted reference picture set, whatever their number, and takes the
LSBs of a long-term picture for a codeword.

* `InStep`: neither is there, or it happens to be as long as what is read.
* `h265_frame_rate`: then the parser returns the quotient of the timing fields.
-/
namespace WebPlayer.L1.H265
open WebPlayer.Core WebPlayer.Core.Codeword WebPlayer.L1.Bitstream WebPlayer.L1.SpsParser WebPlayer.L1.SpsSyntax

/-! ## Profile, tier and level -/

structure ProfileInfo where
  profileSpace : BitVec 2
  tier : Bool
  profileIdc : BitVec 5
  compatibilityFlags : BitVec 32
  progressiveSource : Bool
  interlacedSource : Bool
  nonPackedConstraint : Bool
  frameOnlyConstraint : Bool
  reserved43bits : BitVec 43
  reservedBit : Bool

def ProfileInfo.bits (x : ProfileInfo) : List Bool :=
  [u x.profileSpace, flag x.tier, u x.profileIdc, u x.compatibilityFlags, flag x.progressiveSource,
    flag x.interlacedSource, flag x.nonPackedConstraint, flag x.frameOnlyConstraint, u x.reserved43bits,
    flag x.reservedBit].flatten

structure SubLayer where
  profile : Option ProfileInfo
  levelIdc : Option (BitVec 8)

structure ProfileTierLevel where
  general : ProfileInfo
  generalLevelIdc : BitVec 8
  subLayers : List SubLayer
  subLayers_le : subLayers.length ≤ 6

def ProfileTierLevel.bits (x : ProfileTierLevel) : List Bool :=
  [x.general.bits, u x.generalLevelIdc,
    x.subLayers.flatMap fun l => [flag l.profile.isSome, flag l.levelIdc.isSome].flatten,
    if 0 < x.subLayers.length then
      (List.range' x.subLayers.length (8 - x.subLayers.length)).flatMap fun _ => u (0 : BitVec 2)
    else [],
    x.subLayers.flatMap fun l => [l.profile.elim [] ProfileInfo.bits, l.levelIdc.elim [] u].flatten].flatten

/-! ## Scaling lists -/

inductive ScalingListEntry where
  | predicted (predMatrixIdDelta : UeValue)
  | coded (dcCoefMinus8 : SeValue) (deltaCoef : Nat → SeValue)

def ScalingListEntry.bits (sizeId : Nat) : ScalingListEntry → List Bool
  | .predicted delta => [flag false, ue delta].flatten
  | .coded dc deltas =>
    [flag true, if 1 < sizeId then se dc else [],
      (List.range' 0 (min 64 (1 <<< (4 + (sizeId <<< 1))))).flatMap fun i => se (deltas i)].flatten

/-- By sizeId and the number of the matrix. -/
abbrev ScalingListData := Nat → Nat → ScalingListEntry

def scalingListBits (data : ScalingListData) : List Bool :=
  (List.range' 0 4).flatMap fun sizeId =>
    (List.range' 0 (if sizeId = 3 then 2 else 6)).flatMap fun matrix => (data sizeId matrix).bits sizeId

/-! ## Reference picture sets -/

/-- The POC differences of a set, before and after the picture. -/
structure DeltaPocs where
  s0 : List Int
  s1 : List Int

def DeltaPocs.num (x : DeltaPocs) : Nat := x.s0.length + x.s1.length

/-- used_by_curr_pic_flag, and use_delta_flag, written if the former is 0. -/
structure RefFlags where
  used : Bool
  useDelta : Bool

def RefFlags.bits (x : RefFlags) : List Bool := [flag x.used, if x.used = false then flag x.useDelta else []].flatten

/-- use_delta_flag, 1 if it is not written. -/
def RefFlags.takes (x : RefFlags) : Bool := x.used || x.useDelta

inductive RefPicSet where
  | listed (negative positive : List (UeValue × Bool))
  | predicted (deltaRpsSign : Bool) (absDeltaRpsMinus1 : UeValue) (flags : List RefFlags)

def RefPicSet.bits : RefPicSet → List Bool
  | .listed negative positive =>
    [ueBits negative.length, ueBits positive.length, negative.flatMap fun p => [ue p.1, flag p.2].flatten,
      positive.flatMap fun p => [ue p.1, flag p.2].flatten].flatten
  | .predicted sign abs flags => [flag sign, ue abs, flags.flatMap RefFlags.bits].flatten

def RefPicSet.isPredicted : RefPicSet → Bool
  | .listed .. => false
  | .predicted .. => true

/-- Set `i` and those behind it, in the SPS. -/
def refPicSetsBits : Nat → List RefPicSet → List Bool
  | _, [] => []
  | i, set :: sets => [if i ≠ 0 then flag set.isPredicted else [], set.bits, refPicSetsBits (i + 1) sets].flatten

/-- Each listed difference counts from the one before. -/
def listedPocs (step : Int) : Int → List (UeValue × Bool) → List Int
  | _, [] => []
  | poc, p :: ps => (poc + step * (p.1.val + 1)) :: listedPocs step (poc + step * (p.1.val + 1)) ps

/-- The differences of a set predicted from `ref`: shifted, the ones that are
taken, in the order of the two derivation loops. -/
def predictedPocs (ref : DeltaPocs) (deltaRps : Int) (flags : List RefFlags) : DeltaPocs :=
  let takes (j : Nat) : Bool := (flags[j]?.map RefFlags.takes).getD false
  let s0 := ref.s0.zipIdx.filterMap fun p => if takes p.2 then some (p.1 + deltaRps) else none
  let s1 := ref.s1.zipIdx.filterMap fun p => if takes (ref.s0.length + p.2) then some (p.1 + deltaRps) else none
  let own := if takes ref.num then [deltaRps] else []
  { s0 := (s1.reverse ++ own ++ s0).filter (· < 0)
    s1 := (s0.reverse ++ own ++ s1).filter (0 < ·) }

def RefPicSet.deltaPocs (ref : DeltaPocs) : RefPicSet → DeltaPocs
  | .listed negative positive => { s0 := listedPocs (-1) 0 negative, s1 := listedPocs 1 0 positive }
  | .predicted sign abs flags => predictedPocs ref ((if sign then -1 else 1) * (abs.val + 1)) flags

/-- A predicted set has a flag for each difference of the set before, and one
more. -/
def RefPicSet.Fits (ref : Option DeltaPocs) : RefPicSet → Prop
  | .listed negative positive => negative.length ≤ 16 ∧ positive.length ≤ 16
  | .predicted _ _ flags => ∃ pocs, ref = some pocs ∧ flags.length = pocs.num + 1

def SetsFit : Option DeltaPocs → List RefPicSet → Prop
  | _, [] => True
  | ref, set :: sets => set.Fits ref ∧ SetsFit (some (set.deltaPocs (ref.getD ⟨[], []⟩))) sets

/-! ## The parameter set -/

structure Pcm where
  sampleBitDepthLumaMinus1 : BitVec 4
  sampleBitDepthChromaMinus1 : BitVec 4
  log2MinLumaCodingBlockSizeMinus3 : UeValue
  log2DiffMaxMinLumaCodingBlockSize : UeValue
  loopFilterDisabled : Bool

def Pcm.bits (x : Pcm) : List Bool :=
  [u x.sampleBitDepthLumaMinus1, u x.sampleBitDepthChromaMinus1, ue x.log2MinLumaCodingBlockSizeMinus3,
    ue x.log2DiffMaxMinLumaCodingBlockSize, flag x.loopFilterDisabled].flatten

structure OrderingInfo where
  maxDecPicBufferingMinus1 : UeValue
  maxNumReorderPics : UeValue
  maxLatencyIncreasePlus1 : UeValue

def OrderingInfo.bits (x : OrderingInfo) : List Bool :=
  [ue x.maxDecPicBufferingMinus1, ue x.maxNumReorderPics, ue x.maxLatencyIncreasePlus1].flatten

structure LongTermPic where
  pocLsb : Nat
  usedByCurrPic : Bool

structure VuiHead where
  common : SpsSyntax.VuiHead
  neutralChromaIndication : Bool
  fieldSeq : Bool
  frameFieldInfoPresent : Bool
  defaultDisplayWindow : Option Window

def VuiHead.bits (x : VuiHead) : List Bool :=
  [x.common.bits, flag x.neutralChromaIndication, flag x.fieldSeq, flag x.frameFieldInfoPresent,
    present x.defaultDisplayWindow Window.bits].flatten

structure Sps where
  videoParameterSetId : BitVec 4
  temporalIdNesting : Bool
  profileTierLevel : ProfileTierLevel
  seqParameterSetId : UeValue
  chromaFormatIdc : UeValue
  separateColourPlane : Bool
  picWidthInLumaSamples : UeValue
  picHeightInLumaSamples : UeValue
  conformanceWindow : Option Window
  bitDepthLumaMinus8 : UeValue
  bitDepthChromaMinus8 : UeValue
  log2MaxPicOrderCntLsbMinus4 : Fin 13
  subLayerOrderingInfoPresent : Bool
  orderingInfo : List OrderingInfo
  log2MinLumaCodingBlockSizeMinus3 : UeValue
  log2DiffMaxMinLumaCodingBlockSize : UeValue
  log2MinLumaTransformBlockSizeMinus2 : UeValue
  log2DiffMaxMinLumaTransformBlockSize : UeValue
  maxTransformHierarchyDepthInter : UeValue
  maxTransformHierarchyDepthIntra : UeValue
  /-- scaling_list_enabled_flag, sps_scaling_list_data_present_flag -/
  scalingList : Option (Option ScalingListData)
  ampEnabled : Bool
  sampleAdaptiveOffsetEnabled : Bool
  pcm : Option Pcm
  shortTermRefPicSets : List RefPicSet
  longTermRefPics : Option (List LongTermPic)
  temporalMvpEnabled : Bool
  strongIntraSmoothingEnabled : Bool
  vui : Option (Vui VuiHead)
  orderingInfo_length : orderingInfo.length = if subLayerOrderingInfoPresent then profileTierLevel.subLayers.length + 1 else 1
  shortTerm_le : shortTermRefPicSets.length ≤ 64
  shortTerm_fit : SetsFit none shortTermRefPicSets
  longTerm_le : ∀ pics, longTermRefPics = some pics → pics.length ≤ 32

/-! What the parser takes a set and a picture for. -/

/-- Sixteen flags, a bit behind each that is 1. -/
def FlagsInStep (bits : List Bool) : Prop :=
  ∃ items : List (Option Bool), items.length = 16 ∧ bits = items.flatMap fun item => flag item.isSome ++ item.toList

def RefPicSet.InStep : RefPicSet → Prop
  | .listed .. => True
  | .predicted _ _ flags => FlagsInStep (flags.flatMap RefFlags.bits)

/-- A codeword of `n`, and `n + 4` more bits. -/
def LsbsInStep (bits : List Bool) : Prop := ∃ n more, n ≤ 12 ∧ more.length = n + 4 ∧ bits = ueBits n ++ more

namespace Sps
variable (sps : Sps)

def sizesBits : List Bool :=
  [u sps.videoParameterSetId, u (BitVec.ofNat 3 sps.profileTierLevel.subLayers.length), flag sps.temporalIdNesting,
    sps.profileTierLevel.bits, ue sps.seqParameterSetId, ue sps.chromaFormatIdc,
    if sps.chromaFormatIdc.val = 3 then flag sps.separateColourPlane else [],
    ue sps.picWidthInLumaSamples, ue sps.picHeightInLumaSamples, present sps.conformanceWindow Window.bits,
    ue sps.bitDepthLumaMinus8, ue sps.bitDepthChromaMinus8, ueBits sps.log2MaxPicOrderCntLsbMinus4,
    flag sps.subLayerOrderingInfoPresent, sps.orderingInfo.flatMap OrderingInfo.bits].flatten

def toolsBits : List Bool :=
  [ue sps.log2MinLumaCodingBlockSizeMinus3, ue sps.log2DiffMaxMinLumaCodingBlockSize,
    ue sps.log2MinLumaTransformBlockSizeMinus2, ue sps.log2DiffMaxMinLumaTransformBlockSize,
    ue sps.maxTransformHierarchyDepthInter, ue sps.maxTransformHierarchyDepthIntra,
    present sps.scalingList fun data => present data scalingListBits,
    flag sps.ampEnabled, flag sps.sampleAdaptiveOffsetEnabled, present sps.pcm Pcm.bits].flatten

/-- lt_ref_pic_poc_lsb_sps has as many bits as the POC LSBs. -/
def longTermBits (pic : LongTermPic) : List Bool :=
  [natBits (sps.log2MaxPicOrderCntLsbMinus4 + 4) pic.pocLsb, flag pic.usedByCurrPic].flatten

def refPicsBits : List Bool :=
  [ueBits sps.shortTermRefPicSets.length, refPicSetsBits 0 sps.shortTermRefPicSets,
    present sps.longTermRefPics fun pics => [ueBits pics.length, pics.flatMap sps.longTermBits].flatten,
    flag sps.temporalMvpEnabled, flag sps.strongIntraSmoothingEnabled].flatten

/-- Up to vui_time_scale, or to the flag that says it is absent. -/
def bits : List Bool :=
  [sps.sizesBits, sps.toolsBits, sps.refPicsBits].flatten ++ present sps.vui (Vui.bits VuiHead.bits)

def timing : Option Timing := sps.vui.bind Vui.timing

/-- The parser reads each set and each long-term picture to its end. -/
structure InStep : Prop where
  shortTerm : ∀ set ∈ sps.shortTermRefPicSets, set.InStep
  longTerm : ∀ pics, sps.longTermRefPics = some pics →
    ∀ pic ∈ pics, LsbsInStep (natBits (sps.log2MaxPicOrderCntLsbMinus4 + 4) pic.pocLsb)

end Sps

/-! ## Reading -/

theorem profileInfo_length (x : ProfileInfo) : x.bits.length = 88 := by
  simp only [ProfileInfo.bits, List.flatten_cons, List.flatten_nil, List.length_append, u_length, flag,
    List.length_singleton, List.length_nil]

theorem reads_subLayerFlags (layers : List SubLayer) : Reads (readSubLayerFlags layers.length)
    (layers.flatMap fun l => [flag l.profile.isSome, flag l.levelIdc.isSome].flatten)
    (layers.map fun l => (l.profile.isSome.toNat, l.levelIdc.isSome.toNat)) := by
  induction layers with
  | nil => exact .pure []
  | cons l layers ih =>
    have hrest := ih.bind (f := fun flags => pure ((l.profile.isSome.toNat, l.levelIdc.isSome.toNat) :: flags)) (.pure _)
    rw [List.append_nil] at hrest
    rw [List.flatMap_cons, List.map_cons, List.length_cons, readSubLayerFlags, ← List.flatten_concat]
    exact .cons (reads_bit _) (.cons (reads_bit _) (.last hrest))

theorem reads_subLayers (layers : List SubLayer) :
    Reads (skipSubLayers (layers.map fun l => (l.profile.isSome.toNat, l.levelIdc.isSome.toNat)))
      (layers.flatMap fun l => [l.profile.elim [] ProfileInfo.bits, l.levelIdc.elim [] u].flatten) () := by
  have hpart : ∀ {γ : Type} (x : Option γ) (bits : γ → List Bool) (n : Nat), (∀ v, (bits v).length = n) →
      Reads (onlyIf (x.isSome.toNat ≠ 0) (skipBits n)) (x.elim [] bits) () := by
    intro γ x bits n hn
    cases x with
    | none => exact .pure ()
    | some v => exact reads_skip (hn v)
  induction layers with
  | nil => exact .pure ()
  | cons l layers ih =>
    rw [List.flatMap_cons, List.map_cons, skipSubLayers, ← List.flatten_concat]
    exact .cons (hpart _ _ 88 profileInfo_length) (.cons (hpart _ _ 8 u_length) (.last ih))

theorem reads_profileTierLevel (x : ProfileTierLevel) : Reads (profileTierLevel x.subLayers.length) x.bits () := by
  have hle := x.subLayers_le
  have hreserved : (u x.general.reserved43bits ++ flag x.general.reservedBit).length = 44 := by
    rw [List.length_append, u_length]
    rfl
  have hflatten : x.bits = [u x.general.profileSpace, flag x.general.tier, u x.general.profileIdc,
      u x.general.compatibilityFlags, flag x.general.progressiveSource, flag x.general.interlacedSource,
      flag x.general.nonPackedConstraint, flag x.general.frameOnlyConstraint,
      u x.general.reserved43bits ++ flag x.general.reservedBit, u x.generalLevelIdc,
      x.subLayers.flatMap fun l => [flag l.profile.isSome, flag l.levelIdc.isSome].flatten,
      if 0 < x.subLayers.length then
        (List.range' x.subLayers.length (8 - x.subLayers.length)).flatMap fun _ => u (0 : BitVec 2)
      else [],
      x.subLayers.flatMap fun l => [l.profile.elim [] ProfileInfo.bits, l.levelIdc.elim [] u].flatten].flatten := by
    simp only [ProfileTierLevel.bits, ProfileInfo.bits, List.flatten_cons, List.flatten_nil, List.append_assoc,
      List.append_nil]
  rw [hflatten]
  unfold profileTierLevel
  refine .cons (reads_skip_u _) (.cons (reads_skip_flag _) (.cons (reads_skip_u _) (.cons (reads_skip_u _) ?_)))
  refine .cons (reads_skip_flag _) (.cons (reads_skip_flag _) (.cons (reads_skip_flag _) (.cons (reads_skip_flag _) ?_)))
  refine .cons (reads_skip hreserved) (.cons (reads_skip_u _) ?_)
  refine .cons (reads_subLayerFlags x.subLayers) ?_
  exact .cons (.onlyIf Iff.rfl fun _ => .forRange fun _ _ _ => reads_skip_u _) (.last (reads_subLayers x.subLayers))

theorem reads_scalingListEntry (sizeId : Nat) (x : ScalingListEntry) : Reads (scalingListEntry sizeId) (x.bits sizeId) () := by
  unfold scalingListEntry
  cases x with
  | predicted delta => exact .cons (reads_bit false) (.last (reads_skipUE delta))
  | coded dc deltas =>
    refine .cons (reads_bit true) (.cons (.onlyIf Iff.rfl fun _ => reads_skipSE dc) (.last ?_))
    exact .forRange fun i _ _ => reads_skipSE (deltas i)

theorem reads_scalingListData (data : ScalingListData) : Reads scalingListData (scalingListBits data) () :=
  .forRange fun sizeId _ _ => .forRange fun matrix _ _ => reads_scalingListEntry sizeId (data sizeId matrix)

theorem reads_orderingInfo (x : OrderingInfo) : Reads (do
    skipUE
    skipUE
    skipUE) x.bits () := by
  unfold OrderingInfo.bits
  exact .cons (reads_skipUE _) (.cons (reads_skipUE _) (.last (reads_skipUE _)))

theorem reads_sizes (sps : Sps) : Reads h265Sizes sps.sizesBits () := by
  have hle := sps.profileTierLevel.subLayers_le
  have hlayers : (BitVec.ofNat 3 sps.profileTierLevel.subLayers.length).toNat = sps.profileTierLevel.subLayers.length := by
    rw [BitVec.toNat_ofNat, Nat.mod_eq_of_lt (by omega)]
  have hfirst := reads_u (BitVec.ofNat 3 sps.profileTierLevel.subLayers.length) (by decide)
  rw [hlayers] at hfirst
  -- the loop runs over the written infos
  have hcount : ∀ start, (start = if sps.subLayerOrderingInfoPresent.toNat ≠ 0 then 0 else sps.profileTierLevel.subLayers.length) →
      sps.profileTierLevel.subLayers.length + 1 - start = sps.orderingInfo.length := by
    rintro start rfl
    rw [sps.orderingInfo_length]
    cases sps.subLayerOrderingInfoPresent <;> simp
  unfold h265Sizes Sps.sizesBits
  refine .cons (reads_skip_u sps.videoParameterSetId) (.cons hfirst (.cons (reads_skip_flag sps.temporalIdNesting) ?_))
  refine .cons (reads_profileTierLevel sps.profileTierLevel) (.cons (reads_skipUE _) (.cons (reads_ue _) ?_))
  refine .cons (.onlyIf Iff.rfl fun _ => reads_skip_flag _) (.cons (reads_skipUE _) (.cons (reads_skipUE _) ?_))
  refine reads_present_then (fun window _ => reads_window window) (.cons (reads_skipUE _) (.cons (reads_skipUE _) ?_))
  refine .cons (reads_ueBits (by omega)).discard (.cons (reads_bit _) (.last ?_))
  simp only
  rw [hcount _ rfl]
  exact .each (fun info _ => reads_orderingInfo info) _

theorem reads_pcm (x : Pcm) : Reads (do
    skipBits 4
    skipBits 4
    skipUE
    skipUE
    skipBits 1) x.bits () := by
  unfold Pcm.bits
  exact .cons (reads_skip_u _) (.cons (reads_skip_u _) (.cons (reads_skipUE _) (.cons (reads_skipUE _)
    (.last (reads_skip_flag _)))))

theorem reads_tools (sps : Sps) : Reads h265Tools sps.toolsBits () := by
  unfold h265Tools Sps.toolsBits
  refine .cons (reads_skipUE _) (.cons (reads_skipUE _) (.cons (reads_skipUE _) (.cons (reads_skipUE _) ?_)))
  refine .cons (reads_skipUE _) (.cons (reads_skipUE _) ?_)
  refine reads_present_then (fun data _ => reads_present fun data _ => reads_scalingListData data) ?_
  refine .cons (reads_skip_flag _) (.cons (reads_skip_flag _) ?_)
  exact .last (reads_present fun pcm _ => reads_pcm pcm)

theorem reads_interPredicted (i : Nat) (set : RefPicSet) (hfirst : i = 0 → set.isPredicted = false) :
    Reads (interPredicted i) (if i ≠ 0 then flag set.isPredicted else []) set.isPredicted := by
  unfold interPredicted
  by_cases hi : i = 0
  · simp only [hi, ne_eq, not_true, if_false, hfirst hi]
    exact .pure false
  · have hbool : ∀ b : Bool, decide (b.toNat ≠ 0) = b := by decide
    have hbind := (reads_bit set.isPredicted).bind (f := fun bit => pure (decide (bit ≠ 0))) (.pure _)
    rw [List.append_nil, hbool] at hbind
    simp only [ne_eq, hi, not_false_eq_true, if_true]
    exact hbind

theorem reads_listedRefPicSet {negative positive : List (UeValue × Bool)} {ref : Option DeltaPocs}
    (hfit : (RefPicSet.listed negative positive).Fits ref) :
    Reads listedRefPicSet (RefPicSet.listed negative positive).bits () := by
  obtain ⟨hneg, hpos⟩ := hfit
  have hpic : ∀ p : UeValue × Bool, Reads (do
      skipUE
      skipBits 1) [ue p.1, flag p.2].flatten () := fun p => .cons (reads_skipUE p.1) (.last (reads_skip_flag p.2))
  unfold listedRefPicSet RefPicSet.bits
  refine .cons (reads_ueBits (by omega)) (.cons (reads_ueBits (by omega)) ?_)
  exact .cons (.each (fun p _ => hpic p) 0) (.last (.each (fun p _ => hpic p) 0))

theorem reads_predictedRefPicSet {n i : Nat} (hi : i < n) {sign : Bool} {abs : UeValue} {flags : List RefFlags}
    (hstep : FlagsInStep (flags.flatMap RefFlags.bits)) :
    Reads (predictedRefPicSet n i) (RefPicSet.predicted sign abs flags).bits () := by
  obtain ⟨items, hlen, heq⟩ := hstep
  have hitem : ∀ item : Option Bool, Reads (do onlyIf ((← readBit) ≠ 0) (skipBits 1)) (flag item.isSome ++ item.toList) () := by
    intro item
    have hpresent : Reads _ (present item flag) () := reads_present fun b _ => reads_skip_flag b
    cases item <;> exact hpresent
  have hloop := Reads.each (fun item (_ : item ∈ items) => hitem item) 0
  rw [hlen, ← heq] at hloop
  have hnone : Reads (onlyIf (i = n) skipUE) [] () := by
    unfold onlyIf
    rw [if_neg (Nat.ne_of_lt hi)]
    exact .pure ()
  unfold predictedRefPicSet RefPicSet.bits
  exact hnone.bind (.cons (reads_skip_flag sign) (.cons (reads_skipUE abs) (.last hloop)))

theorem reads_refPicSets {n : Nat} (sets : List RefPicSet) (hstep : ∀ set ∈ sets, set.InStep)
    {ref : Option DeltaPocs} (hfit : SetsFit ref sets) {i : Nat} (hn : i + sets.length = n) (hfirst : i = 0 → ref = none) :
    Reads (forRange (shortTermRefPicSet n) i sets.length) (refPicSetsBits i sets) () := by
  induction sets generalizing ref i with
  | nil => exact .pure ()
  | cons set sets ih =>
    obtain ⟨hset, hsets⟩ := hfit
    obtain ⟨hone, hothers⟩ := List.forall_mem_cons.mp hstep
    rw [List.length_cons] at hn
    have hbody : Reads (shortTermRefPicSet n i) ((if i ≠ 0 then flag set.isPredicted else []) ++ set.bits) () := by
      unfold shortTermRefPicSet
      cases set with
      | listed negative positive => exact (reads_interPredicted i _ fun _ => rfl).bind (reads_listedRefPicSet hset)
      | predicted sign abs flags =>
        have hnot : i ≠ 0 := by
          intro h0
          obtain ⟨pocs, hpocs, -⟩ := hset
          rw [hfirst h0] at hpocs
          cases hpocs
        exact (reads_interPredicted i _ fun h0 => absurd h0 hnot).bind (reads_predictedRefPicSet (by omega) hone)
    have hrest := ih hothers hsets (i := i + 1) (by omega) nofun
    unfold refPicSetsBits
    rw [List.flatten_cons, List.flatten_cons, ← List.append_assoc, List.flatten_singleton]
    exact hbody.bind hrest

theorem reads_longTermRefPic {sps : Sps} {pic : LongTermPic}
    (hstep : LsbsInStep (natBits (sps.log2MaxPicOrderCntLsbMinus4 + 4) pic.pocLsb)) :
    Reads longTermRefPic (sps.longTermBits pic) () := by
  obtain ⟨n, more, hn, hlen, heq⟩ := hstep
  have hsmall : (n + 4) % 2 ^ 32 = n + 4 := Nat.mod_eq_of_lt (by omega)
  have hskip : Reads (skipBits ((n + 4) % 2 ^ 32)) more () := by
    rw [hsmall]
    exact reads_skip hlen
  have hbits : sps.longTermBits pic = [ueBits n, more, flag pic.usedByCurrPic].flatten := by
    simp only [Sps.longTermBits, heq, List.flatten_cons, List.append_assoc]
  rw [hbits]
  exact .cons (reads_ueBits (by omega)) (.cons hskip (.last (reads_skip_flag _)))

theorem reads_refPics (sps : Sps) (hstep : sps.InStep) : Reads h265RefPics sps.refPicsBits () := by
  have hle := sps.shortTerm_le
  unfold h265RefPics Sps.refPicsBits
  refine .cons (reads_ueBits (by omega)) ?_
  refine .cons (reads_refPicSets _ hstep.shortTerm sps.shortTerm_fit (Nat.zero_add _) fun _ => rfl) ?_
  refine reads_present_then (fun pics hpics => ?_) (.cons (reads_skip_flag _) (.last (reads_skip_flag _)))
  have hmax := sps.longTerm_le pics hpics
  refine .cons (reads_ueBits (by omega)) (.last (.each (fun pic hpic => ?_) 0))
  exact reads_longTermRefPic (hstep.longTerm pics hpics pic hpic)

theorem reads_h265VuiHead (x : VuiHead) : Reads h265VuiHead x.bits () := by
  unfold h265VuiHead VuiHead.bits
  refine .cons (reads_vuiHead x.common) (.cons (reads_skip_flag _) (.cons (reads_skip_flag _) (.cons (reads_skip_flag _) ?_)))
  exact .last (reads_present fun window _ => reads_window window)

theorem reads_h265Head {sps : Sps} (hstep : sps.InStep) :
    Reads h265Head [sps.sizesBits, sps.toolsBits, sps.refPicsBits].flatten () := by
  unfold h265Head
  exact .cons (reads_sizes sps) (.cons (reads_tools sps) (.last (reads_refPics sps hstep)))

/-- **In step** to the end. -/
theorem reads_h265Timing {sps : Sps} (hstep : sps.InStep) :
    Reads h265Timing sps.bits (sps.timing.map Timing.fields) :=
  (reads_h265Head hstep).bind (reads_vuiTiming reads_h265VuiHead sps.vui)

theorem head_length (sps : Sps) : 104 ≤ [sps.sizesBits, sps.toolsBits, sps.refPicsBits].flatten.length := by
  simp only [Sps.sizesBits, ProfileTierLevel.bits, List.flatten_cons, List.length_append, u_length, flag,
    List.length_singleton, profileInfo_length]
  omega

theorem bits_length (sps : Sps) : 104 ≤ sps.bits.length := by
  rw [Sps.bits, List.length_append]
  exact Nat.le_trans (head_length sps) (Nat.le_add_right ..)

theorem h265_fields {sps : Sps} (hstep : sps.InStep) {nal : SpsNal} (hheader : nal.header.length = 2)
    (hbits : nal.Begins sps.bits) : spsFields 2 15 h265Timing nal.bytes = sps.timing.map Timing.fields := by
  have hlen := bits_length sps
  have h : spsFields nal.header.length 15 h265Timing nal.bytes = _ :=
    spsFields_nal nal (reads_h265Timing hstep) hbits (by omega) (by omega)
  rwa [hheader] at h

theorem parse_h265 {sps : Sps} (hstep : sps.InStep) {nal : SpsNal} (hheader : nal.header.length = 2)
    (hbits : nal.Begins sps.bits) : parseH265Fps nal.bytes = frameRate h265Rate (sps.timing.map Timing.fields) := by
  rw [parseH265Fps, parseFps_eq, h265_fields hstep hheader hbits]

/-- **The frame rate of an H.265 stream**, for an SPS that keeps the parser in
step. -/
theorem h265_frame_rate {sps : Sps} (hstep : sps.InStep) {nal : SpsNal} (hheader : nal.header.length = 2)
    (hbits : nal.Begins sps.bits) {t : Timing} (ht : sps.timing = some t) (hunits : t.numUnitsInTick ≠ 0)
    (hscale : t.timeScale ≠ 0) : parseH265Fps nal.bytes = .ratio t.timeScale.toNat t.numUnitsInTick.toNat := by
  rw [parse_h265 hstep hheader hbits, ht]
  exact frameRate_fields hunits hscale

/-- One sub-layer, 30 pictures a second, with these reference pictures. -/
def smallSps (shortTerm : List RefPicSet) (longTerm : Option (List LongTermPic)) (hle : shortTerm.length ≤ 64)
    (hfit : SetsFit none shortTerm) (hlong : ∀ pics, longTerm = some pics → pics.length ≤ 32) : Sps where
  videoParameterSetId := 0
  temporalIdNesting := true
  profileTierLevel := {
    general := {
      profileSpace := 0
      tier := false
      profileIdc := 1
      compatibilityFlags := 0x60000000
      progressiveSource := true
      interlacedSource := false
      nonPackedConstraint := false
      frameOnlyConstraint := true
      reserved43bits := 0
      reservedBit := false }
    generalLevelIdc := 93
    subLayers := []
    subLayers_le := by decide }
  seqParameterSetId := 0
  chromaFormatIdc := 1
  separateColourPlane := false
  picWidthInLumaSamples := 320
  picHeightInLumaSamples := 240
  conformanceWindow := none
  bitDepthLumaMinus8 := 0
  bitDepthChromaMinus8 := 0
  log2MaxPicOrderCntLsbMinus4 := 4
  subLayerOrderingInfoPresent := true
  orderingInfo := [{ maxDecPicBufferingMinus1 := 4, maxNumReorderPics := 2, maxLatencyIncreasePlus1 := 0 }]
  log2MinLumaCodingBlockSizeMinus3 := 0
  log2DiffMaxMinLumaCodingBlockSize := 3
  log2MinLumaTransformBlockSizeMinus2 := 0
  log2DiffMaxMinLumaTransformBlockSize := 3
  maxTransformHierarchyDepthInter := 0
  maxTransformHierarchyDepthIntra := 0
  scalingList := none
  ampEnabled := true
  sampleAdaptiveOffsetEnabled := true
  pcm := none
  shortTermRefPicSets := shortTerm
  longTermRefPics := longTerm
  temporalMvpEnabled := true
  strongIntraSmoothingEnabled := true
  vui := some {
    head := {
      common := { aspectRatio := none, overscanAppropriate := none, videoSignal := none, chromaLoc := none }
      neutralChromaIndication := false
      fieldSeq := false
      frameFieldInfoPresent := false
      defaultDisplayWindow := none }
    timing := some { numUnitsInTick := 1, timeScale := 30 } }
  orderingInfo_length := rfl
  shortTerm_le := hle
  shortTerm_fit := hfit
  longTerm_le := hlong

/-- Between a start code and the next NAL unit. -/
def smallNal (rbsp : Bytes) : SpsNal where
  start := [0, 0, 0, 1]
  header := [0x42, 0x01]
  rbsp := rbsp
  extra := [0, 0, 0, 1, 0x44, 0x01]
  start_code := four_byte_start
  header_short := by decide
  header_last := ⟨[0x42], 0x01, by decide, rfl⟩

/-- One listed set. -/
def listedSps : Sps := smallSps [.listed [(0, true)] []] none (by decide) ⟨⟨by decide, by decide⟩, trivial⟩ nofun

def listedNal : SpsNal := smallNal [0x01, 0x01, 0x60, 0x00, 0x00, 0x00, 0x90, 0x00, 0x00, 0x00, 0x00, 0x00, 0x5D, 0xA0, 0x0A,
  0x08, 0x0F, 0x16, 0x59, 0x5E, 0x49, 0x36, 0x4B, 0xB8, 0x04, 0x00, 0x00, 0x00, 0x04, 0x00, 0x00, 0x00, 0x7A]

theorem listedNal_begins : listedNal.Begins listedSps.bits := ⟨[true, false], by decide +kernel⟩

theorem h265_frame_rate_listed : parseH265Fps listedNal.bytes = .ratio 30 1 := by
  have hstep : listedSps.InStep := ⟨fun set hset => List.mem_singleton.mp hset ▸ trivial, nofun⟩
  exact h265_frame_rate hstep rfl listedNal_begins (t := { numUnitsInTick := 1, timeScale := 30 }) rfl (by decide) (by decide)

/-- A set with one picture, and one predicted from it. -/
def predictedSps : Sps := smallSps [.listed [(0, true)] [], .predicted true 0 [⟨true, true⟩, ⟨true, true⟩]] none (by decide)
  ⟨⟨by decide, by decide⟩, ⟨_, rfl, rfl⟩, trivial⟩ nofun

def predictedNal : SpsNal := smallNal [0x01, 0x01, 0x60, 0x00, 0x00, 0x00, 0x90, 0x00, 0x00, 0x00, 0x00, 0x00, 0x5D, 0xA0,
  0x0A, 0x08, 0x0F, 0x16, 0x59, 0x5E, 0x49, 0x36, 0x6B, 0xFD, 0xC0, 0x20, 0x00, 0x00, 0x00, 0x20, 0x00, 0x00, 0x03, 0xD0]

/-- One long-term picture. -/
def longTermSps : Sps := smallSps [] (some [⟨1, true⟩]) (by decide) trivial (by rintro pics ⟨⟩; decide)

def longTermNal : SpsNal := smallNal [0x01, 0x01, 0x60, 0x00, 0x00, 0x00, 0x90, 0x00, 0x00, 0x00, 0x00, 0x00, 0x5D, 0xA0,
  0x0A, 0x08, 0x0F, 0x16, 0x59, 0x5E, 0x49, 0x36, 0xD0, 0x0F, 0x80, 0x40, 0x00, 0x00, 0x00, 0x40, 0x00, 0x00, 0x07, 0xA0]

/-- **Out of step.** Both streams have 30 pictures a second and are given the
default. -/
theorem out_of_step :
    (predictedNal.Begins predictedSps.bits ∧ predictedSps.timing = some { numUnitsInTick := 1, timeScale := 30 } ∧
      parseH265Fps predictedNal.bytes = .default) ∧
      (longTermNal.Begins longTermSps.bits ∧ longTermSps.timing = some { numUnitsInTick := 1, timeScale := 30 } ∧
        parseH265Fps longTermNal.bytes = .default) :=
  ⟨⟨⟨[true, false, false, false, false], by decide +kernel⟩, rfl, by decide +kernel⟩,
    ⟨⟨[true, false, false, false, false, false], by decide +kernel⟩, rfl, by decide +kernel⟩⟩

/-- One long-term picture with other LSBs, and timing fields that repeat every
eight bits. -/
def shiftedSps : Sps where
  __ := smallSps [] (some [⟨0x60, true⟩]) (by decide) trivial (by rintro pics ⟨⟩; decide)
  vui := some {
    head := {
      common := { aspectRatio := some ⟨0, 0, 0⟩, overscanAppropriate := some false, videoSignal := none, chromaLoc := none }
      neutralChromaIndication := false
      fieldSeq := false
      frameFieldInfoPresent := false
      defaultDisplayWindow := none }
    timing := some { numUnitsInTick := 0x01010101, timeScale := 0x01010101 } }

def shiftedNal : SpsNal := smallNal [0x01, 0x01, 0x60, 0x00, 0x00, 0x00, 0x90, 0x00, 0x00, 0x00, 0x00, 0x00, 0x5D, 0xA0,
  0x0A, 0x08, 0x0F, 0x16, 0x59, 0x5E, 0x49, 0x36, 0xD3, 0x07, 0xC0, 0x20, 0x20, 0x20, 0x20, 0x20, 0x20, 0x20, 0x20, 0x20, 0x30]

/-- **Out of step and right.** The parser takes the timing fields eight bits
early and returns their quotient all the same. -/
theorem shifted_same_rate : ¬shiftedSps.InStep ∧ shiftedNal.Begins shiftedSps.bits ∧
    shiftedSps.timing = some { numUnitsInTick := 0x01010101, timeScale := 0x01010101 } ∧
    parseH265Fps shiftedNal.bytes = .ratio 0x01010101 0x01010101 := by
  have hnot : ¬LsbsInStep (natBits 8 0x60) := by
    rintro ⟨n, more, hn, hlen, heq⟩
    have htotal := congrArg List.length heq
    rw [List.length_append, hlen, natBits_length] at htotal
    have hone : ∀ n ≤ 4, 8 = (ueBits n).length + (n + 4) → n = 1 := by decide
    have htake : (ueBits n ++ more).take (ueBits n).length = ueBits n := List.take_left
    rw [← heq, hone n (by omega) htotal] at htake
    exact absurd htake (by decide)
  refine ⟨fun hstep => hnot (hstep.longTerm _ rfl ⟨0x60, true⟩ List.mem_cons_self), ?_, rfl, by decide +kernel⟩
  exact ⟨[true, false, false, false, false], by decide +kernel⟩

end WebPlayer.L1.H265
