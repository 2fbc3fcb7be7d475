import WebPlayer.L1Encoding.BitstreamReader
import WebPlayer.L1Encoding.EmulationPrevention

/-!
# The SPS parser (`server/sps_parser.cpp`)

`ParseH264Fps` and `ParseH265Fps` walk a sequence parameter set field by
field up to the timing fields of its VUI. The frame rate is given by the two
numbers that are divided. The reader throws nothing, so the `catch` is left
out.

Both functions are `parseFps` with their own fields.
-/
namespace WebPlayer.L1.SpsParser
open WebPlayer.Core WebPlayer.L1.Bitstream WebPlayer.L1.EmulationPrevention

/-- `DEFAULT_FPS`, or the quotient returned. -/
inductive FrameRate where
  | default
  | ratio (num den : Nat)
  deriving DecidableEq, Repr

/-! ## The VUI -/

/-- The fields of both VUIs up to the chroma locations.
mirrors server/sps_parser.cpp:145-174, 413-442 -/
def vuiHead : Reader Unit := do
  -- aspect_ratio_info_present_flag
  onlyIf ((← readBit) ≠ 0) do
    let aspectRatioIdc ← readBits 8
    onlyIf (aspectRatioIdc = 255) do
      skipBits 16
      skipBits 16
  -- overscan_info_present_flag
  onlyIf ((← readBit) ≠ 0) (skipBits 1)
  -- video_signal_type_present_flag
  onlyIf ((← readBit) ≠ 0) do
    skipBits 3
    skipBits 1
    onlyIf ((← readBit) ≠ 0) do
      skipBits 8
      skipBits 8
      skipBits 8
  -- chroma_loc_info_present_flag
  onlyIf ((← readBit) ≠ 0) do
    skipUE
    skipUE

/-- num_units_in_tick and time_scale. -/
def timingFields : Reader (Option (Nat × Nat)) := do
  let numUnitsInTick ← readBits 32
  let timeScale ← readBits 32
  pure (some (numUnitsInTick, timeScale))

/-- From vui_parameters_present_flag on; `none`: no timing info. -/
def vuiTiming (head : Reader Unit) : Reader (Option (Nat × Nat)) := do
  let vuiPresent ← readBit
  if vuiPresent = 0 then pure none
  else
    head
    let timingPresent ← readBit
    if timingPresent = 0 then pure none else timingFields

/-! ## H.264 -/

def isHighProfile (profileIdc : Nat) : Bool :=
  profileIdc == 100 || profileIdc == 110 || profileIdc == 122 || profileIdc == 244 || profileIdc == 44 ||
    profileIdc == 83 || profileIdc == 86 || profileIdc == 118 || profileIdc == 128

/-- `(lastScale + delta_scale + 256) % 256`, in 32 bits. -/
def scaled (lastScale : Nat) (delta : Int) : Nat := ((lastScale + delta + 256) % 2 ^ 32 % 256).toNat

def readNextScale (lastScale nextScale : Nat) : Reader Nat :=
  if nextScale ≠ 0 then do
    let delta ← readSE
    pure (scaled lastScale delta)
  else pure nextScale

/-- mirrors server/sps_parser.cpp:80-89 -/
def scalingList : Nat → Nat → Nat → Reader Unit
  | 0, _, _ => pure ()
  | n + 1, lastScale, nextScale => do
    let next ← readNextScale lastScale nextScale
    scalingList n (if next = 0 then lastScale else next) next

/-- mirrors server/sps_parser.cpp:67-92 -/
def highProfileFields : Reader Unit := do
  let chromaFormatIdc ← readUE
  onlyIf (chromaFormatIdc = 3) (skipBits 1)
  skipUE
  skipUE
  skipBits 1
  -- seq_scaling_matrix_present_flag
  onlyIf ((← readBit) ≠ 0) do
    forRange (fun i => do
      onlyIf ((← readBit) ≠ 0) (scalingList (if i < 6 then 16 else 64) 8 8)) 0 (if chromaFormatIdc ≠ 3 then 8 else 12)

/-- mirrors server/sps_parser.cpp:98-110 -/
def picOrderCnt : Reader Unit := do
  let picOrderCntType ← readUE
  if picOrderCntType = 0 then skipUE
  else if picOrderCntType = 1 then
    skipBits 1
    skipSE
    skipSE
    let numRefFrames ← readUE
    forRange (fun _ => skipSE) 0 numRefFrames
  else pure ()

/-- Up to frame_cropping.
mirrors server/sps_parser.cpp:55-137 -/
def h264Head : Reader Unit := do
  let profileIdc ← readBits 8
  skipBits 8
  skipBits 8
  skipUE
  onlyIf (isHighProfile profileIdc) highProfileFields
  skipUE
  picOrderCnt
  skipUE
  skipBits 1
  skipUE
  skipUE
  let frameMbsOnlyFlag ← readBit
  onlyIf (frameMbsOnlyFlag = 0) (skipBits 1)
  skipBits 1
  -- frame_cropping_flag
  onlyIf ((← readBit) ≠ 0) do
    skipUE
    skipUE
    skipUE
    skipUE

def h264Timing : Reader (Option (Nat × Nat)) := do
  h264Head
  vuiTiming vuiHead

/-! ## H.265 -/

/-- mirrors server/sps_parser.cpp:249-254 -/
def readSubLayerFlags : Nat → Reader (List (Nat × Nat))
  | 0 => pure []
  | n + 1 => do
    let profilePresent ← readBit
    let levelPresent ← readBit
    let flags ← readSubLayerFlags n
    pure ((profilePresent, levelPresent) :: flags)

/-- mirrors server/sps_parser.cpp:262-269 -/
def skipSubLayers : List (Nat × Nat) → Reader Unit
  | [] => pure ()
  | (profilePresent, levelPresent) :: flags => do
    onlyIf (profilePresent ≠ 0) (skipBits 88)
    onlyIf (levelPresent ≠ 0) (skipBits 8)
    skipSubLayers flags

/-- mirrors server/sps_parser.cpp:236-269 -/
def profileTierLevel (maxSubLayersMinus1 : Nat) : Reader Unit := do
  skipBits 2
  skipBits 1
  skipBits 5
  skipBits 32
  skipBits 1
  skipBits 1
  skipBits 1
  skipBits 1
  skipBits 44
  skipBits 8
  let flags ← readSubLayerFlags maxSubLayersMinus1
  onlyIf (0 < maxSubLayersMinus1) (forRange (fun _ => skipBits 2) maxSubLayersMinus1 (8 - maxSubLayersMinus1))
  skipSubLayers flags

/-- mirrors server/sps_parser.cpp:330-341 -/
def scalingListEntry (sizeId : Nat) : Reader Unit := do
  let predMode ← readBit
  if predMode = 0 then skipUE
  else
    onlyIf (1 < sizeId) skipSE
    forRange (fun _ => skipSE) 0 (min 64 (1 <<< (4 + (sizeId <<< 1))))

/-- mirrors server/sps_parser.cpp:327-343 -/
def scalingListData : Reader Unit :=
  forRange (fun sizeId => forRange (fun _ => scalingListEntry sizeId) 0 (if sizeId = 3 then 2 else 6)) 0 4

/-- `i != 0 && reader.ReadBit()` -/
def interPredicted (i : Nat) : Reader Bool :=
  if i ≠ 0 then do
    let bit ← readBit
    pure (bit ≠ 0)
  else pure false

/-- With inter_ref_pic_set_prediction_flag.
mirrors server/sps_parser.cpp:367-377 -/
def predictedRefPicSet (numShortTermRefPicSets i : Nat) : Reader Unit := do
  onlyIf (i = numShortTermRefPicSets) skipUE
  skipBits 1
  skipUE
  forRange (fun _ => do onlyIf ((← readBit) ≠ 0) (skipBits 1)) 0 16

/-- Without it.
mirrors server/sps_parser.cpp:379-388 -/
def listedRefPicSet : Reader Unit := do
  let numNegativePics ← readUE
  let numPositivePics ← readUE
  forRange (fun _ => do
    skipUE
    skipBits 1) 0 numNegativePics
  forRange (fun _ => do
    skipUE
    skipBits 1) 0 numPositivePics

/-- mirrors server/sps_parser.cpp:365-389 -/
def shortTermRefPicSet (numShortTermRefPicSets i : Nat) : Reader Unit := do
  let predicted ← interPredicted i
  if predicted then predictedRefPicSet numShortTermRefPicSets i else listedRefPicSet

/-- `reader.SkipBits(reader.ReadUE() + 4); reader.SkipBits(1);` -/
def longTermRefPic : Reader Unit := do
  let n ← readUE
  skipBits ((n + 4) % 2 ^ 32)
  skipBits 1

/-- The fields up to the ordering info.
mirrors server/sps_parser.cpp:227-307 -/
def h265Sizes : Reader Unit := do
  skipBits 4
  let maxSubLayersMinus1 ← readBits 3
  skipBits 1
  profileTierLevel maxSubLayersMinus1
  skipUE
  let chromaFormatIdc ← readUE
  onlyIf (chromaFormatIdc = 3) (skipBits 1)
  skipUE
  skipUE
  -- conformance_window_flag
  onlyIf ((← readBit) ≠ 0) do
    skipUE
    skipUE
    skipUE
    skipUE
  skipUE
  skipUE
  skipUE
  let orderingInfoPresent ← readBit
  let start := if orderingInfoPresent ≠ 0 then 0 else maxSubLayersMinus1
  forRange (fun _ => do
    skipUE
    skipUE
    skipUE) start (maxSubLayersMinus1 + 1 - start)

/-- The coding tools.
mirrors server/sps_parser.cpp:309-358 -/
def h265Tools : Reader Unit := do
  skipUE
  skipUE
  skipUE
  skipUE
  skipUE
  skipUE
  -- scaling_list_enabled_flag
  onlyIf ((← readBit) ≠ 0) do
    onlyIf ((← readBit) ≠ 0) scalingListData
  skipBits 1
  skipBits 1
  -- pcm_enabled_flag
  onlyIf ((← readBit) ≠ 0) do
    skipBits 4
    skipBits 4
    skipUE
    skipUE
    skipBits 1

/-- The reference pictures.
mirrors server/sps_parser.cpp:360-405 -/
def h265RefPics : Reader Unit := do
  let numShortTermRefPicSets ← readUE
  forRange (shortTermRefPicSet numShortTermRefPicSets) 0 numShortTermRefPicSets
  -- long_term_ref_pics_present_flag
  onlyIf ((← readBit) ≠ 0) do
    let numLongTermRefPicsSps ← readUE
    forRange (fun _ => longTermRefPic) 0 numLongTermRefPicsSps
  skipBits 1
  skipBits 1

def h265Head : Reader Unit := do
  h265Sizes
  h265Tools
  h265RefPics

/-- mirrors server/sps_parser.cpp:413-455 -/
def h265VuiHead : Reader Unit := do
  vuiHead
  skipBits 1
  skipBits 1
  skipBits 1
  -- default_display_window_flag
  onlyIf ((← readBit) ≠ 0) do
    skipUE
    skipUE
    skipUE
    skipUE

def h265Timing : Reader (Option (Nat × Nat)) := do
  h265Head
  vuiTiming h265VuiHead

/-! ## The functions -/

/-- 0 without a start code. -/
def startCodeOffset (spsData : Bytes) : Nat :=
  if 4 ≤ spsData.length ∧ spsData.getD 0 0 = 0 ∧ spsData.getD 1 0 = 0 then
    if spsData.getD 2 0 = 0 ∧ spsData.getD 3 0 = 1 then 4
    else if spsData.getD 2 0 = 1 then 3
    else 0
  else 0

/-- From the timing fields.
mirrors server/sps_parser.cpp:182-191, 463-472 -/
def frameRate (rate : Nat → Nat → FrameRate) : Option (Nat × Nat) → FrameRate
  | none => .default
  | some (numUnitsInTick, timeScale) =>
    if numUnitsInTick = 0 ∨ timeScale = 0 then .default else rate numUnitsInTick timeScale

/-- What both functions do, with the length of the NAL header, the least
number of bytes, the fields and the quotient. -/
def parseFps (header least : Nat) (timing : Reader (Option (Nat × Nat))) (rate : Nat → Nat → FrameRate)
    (spsData : Bytes) : FrameRate :=
  let offset := startCodeOffset spsData
  if offset = 0 ∨ spsData.length ≤ offset + header then .default
  else
    let rbsp := removeEmulationPrevention (spsData.drop offset)
    if rbsp.length < least then .default
    else frameRate rate (timing { data := rbsp.drop header }).1

def h264Rate (numUnitsInTick timeScale : Nat) : FrameRate := .ratio timeScale (2 * numUnitsInTick)

def h265Rate (numUnitsInTick timeScale : Nat) : FrameRate := .ratio timeScale numUnitsInTick

/-- mirrors server/sps_parser.cpp:26-197 -/
def parseH264Fps : Bytes → FrameRate := parseFps 1 4 h264Timing h264Rate

/-- mirrors server/sps_parser.cpp:199-478 -/
def parseH265Fps : Bytes → FrameRate := parseFps 2 15 h265Timing h265Rate

/-- The timing fields alone. -/
def spsFields (header least : Nat) (timing : Reader (Option (Nat × Nat))) (spsData : Bytes) : Option (Nat × Nat) :=
  let offset := startCodeOffset spsData
  if offset = 0 ∨ spsData.length ≤ offset + header then none
  else
    let rbsp := removeEmulationPrevention (spsData.drop offset)
    if rbsp.length < least then none
    else (timing { data := rbsp.drop header }).1

theorem parseFps_eq (header least : Nat) (timing : Reader (Option (Nat × Nat))) (rate : Nat → Nat → FrameRate)
    (spsData : Bytes) : parseFps header least timing rate spsData = frameRate rate (spsFields header least timing spsData) := by
  simp only [parseFps, spsFields]
  split
  · rfl
  · split <;> rfl

/-! ## Cut-off input -/

instance : Lawful vuiHead := by
  unfold vuiHead
  repeat refine .bind fun _ => ?_
  infer_instance

instance (lastScale nextScale : Nat) : Lawful (readNextScale lastScale nextScale) := by
  unfold readNextScale
  infer_instance

instance (n lastScale nextScale : Nat) : Lawful (scalingList n lastScale nextScale) := by
  induction n generalizing lastScale nextScale with
  | zero => exact inferInstanceAs (Lawful (pure ()))
  | succ n ih =>
    unfold scalingList
    infer_instance

instance : Lawful highProfileFields := by
  unfold highProfileFields
  repeat refine .bind fun _ => ?_
  infer_instance

instance : Lawful picOrderCnt := by
  unfold picOrderCnt
  infer_instance

instance : Lawful h264Head := by
  unfold h264Head
  repeat refine .bind fun _ => ?_
  infer_instance

instance (n : Nat) : Lawful (readSubLayerFlags n) := by
  induction n with
  | zero => exact inferInstanceAs (Lawful (pure []))
  | succ n ih =>
    unfold readSubLayerFlags
    infer_instance

instance (flags : List (Nat × Nat)) : Lawful (skipSubLayers flags) := by
  induction flags with
  | nil => exact inferInstanceAs (Lawful (pure ()))
  | cons flag flags ih =>
    unfold skipSubLayers
    infer_instance

instance (n : Nat) : Lawful (profileTierLevel n) := by
  unfold profileTierLevel
  repeat refine .bind fun _ => ?_
  infer_instance

instance : Lawful scalingListData := by
  unfold scalingListData scalingListEntry
  infer_instance

instance (n i : Nat) : Lawful (predictedRefPicSet n i) := by
  unfold predictedRefPicSet
  infer_instance

instance : Lawful listedRefPicSet := by
  unfold listedRefPicSet
  infer_instance

instance (n i : Nat) : Lawful (shortTermRefPicSet n i) := by
  unfold shortTermRefPicSet interPredicted
  infer_instance

instance : Lawful h265Sizes := by
  unfold h265Sizes
  repeat refine .bind fun _ => ?_
  infer_instance

instance : Lawful h265Tools := by
  unfold h265Tools
  repeat refine .bind fun _ => ?_
  infer_instance

instance : Lawful h265RefPics := by
  unfold h265RefPics longTermRefPic
  infer_instance

instance : Lawful h265Head := by
  unfold h265Head
  infer_instance

instance : Lawful h265VuiHead := by
  unfold h265VuiHead
  repeat refine .bind fun _ => ?_
  infer_instance

end WebPlayer.L1.SpsParser
