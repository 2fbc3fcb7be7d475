import WebPlayer.L1Encoding.SpsParser

/-!
# What both sequence parameter sets are made of

The writer's side: optional parts behind a flag, the fields that the VUIs of
H.264 and H.265 begin with, the timing fields, and the NAL unit around it all.

* `reads_vuiTiming`: the parser reads the timing fields that were written.
* `spsFields_nal`: behind a start code and a NAL header, emulation prevention
  and further bytes make no difference.
-/
namespace WebPlayer.L1.SpsSyntax
open WebPlayer.Core WebPlayer.Core.Codeword WebPlayer.L1.Bitstream WebPlayer.L1.EmulationPrevention
open WebPlayer.L1.SpsParser BitSource

/-! ## Optional parts -/

variable {α β : Type}

/-- A flag, and the part if it is there. -/
def present (x : Option α) (bits : α → List Bool) : List Bool := flag x.isSome ++ x.elim [] bits

theorem reads_present {x : Option α} {bits : α → List Bool} {m : Reader Unit} (h : ∀ v, x = some v → Reads m (bits v) ()) :
    Reads (do onlyIf ((← readBit) ≠ 0) m) (present x bits) () := by
  refine (reads_bit x.isSome).bind ?_
  cases x with
  | none => exact .pure ()
  | some v => exact h v rfl

/-- An optional part and what follows it. -/
theorem reads_present_then {x : Option α} {bits : α → List Bool} {m : Reader Unit} {k : Unit → Reader β}
    {words : List (List Bool)} {b : β} (h : ∀ v, x = some v → Reads m (bits v) ()) (hk : Reads (k ()) words.flatten b) :
    Reads (readBit >>= fun bit => onlyIf (bit ≠ 0) m >>= k) (present x bits :: words).flatten b := by
  have hcons : Reads ((readBit >>= fun bit => onlyIf (bit ≠ 0) m) >>= k) (present x bits :: words).flatten b :=
    .cons (reads_present h) hk
  exact hcons

theorem reads_skipUE (v : UeValue) : Reads skipUE (ue v) () := (reads_ue v).discard

theorem reads_skipSE (v : SeValue) : Reads skipSE (se v) () := (reads_se v).discard

theorem reads_skip_u {w : Nat} (v : BitVec w) : Reads (skipBits w) (u v) () := reads_skip (u_length v)

theorem reads_skip_flag (b : Bool) : Reads (skipBits 1) (flag b) () := reads_skip rfl

/-- The offsets of a rectangle. -/
structure Window where
  left : UeValue
  right : UeValue
  top : UeValue
  bottom : UeValue

def Window.bits (x : Window) : List Bool := [ue x.left, ue x.right, ue x.top, ue x.bottom].flatten

theorem reads_window (x : Window) : Reads (do
    skipUE
    skipUE
    skipUE
    skipUE) x.bits () := by
  unfold Window.bits
  exact .cons (reads_skipUE x.left) (.cons (reads_skipUE x.right) (.cons (reads_skipUE x.top) (.last (reads_skipUE x.bottom))))

/-! ## The VUI -/

structure AspectRatio where
  idc : BitVec 8
  sarWidth : BitVec 16
  sarHeight : BitVec 16

def AspectRatio.bits (x : AspectRatio) : List Bool :=
  [u x.idc, if x.idc = 255 then [u x.sarWidth, u x.sarHeight].flatten else []].flatten

structure Colour where
  primaries : BitVec 8
  transfer : BitVec 8
  matrix : BitVec 8

structure VideoSignal where
  videoFormat : BitVec 3
  fullRange : Bool
  colour : Option Colour

def VideoSignal.bits (x : VideoSignal) : List Bool :=
  [u x.videoFormat, flag x.fullRange,
    present x.colour fun c => [u c.primaries, u c.transfer, u c.matrix].flatten].flatten

structure VuiHead where
  aspectRatio : Option AspectRatio
  overscanAppropriate : Option Bool
  videoSignal : Option VideoSignal
  chromaLoc : Option (UeValue × UeValue)

def VuiHead.bits (x : VuiHead) : List Bool :=
  [present x.aspectRatio AspectRatio.bits, present x.overscanAppropriate flag, present x.videoSignal VideoSignal.bits,
    present x.chromaLoc fun loc => [ue loc.1, ue loc.2].flatten].flatten

structure Timing where
  numUnitsInTick : BitVec 32
  timeScale : BitVec 32

def Timing.bits (x : Timing) : List Bool := [u x.numUnitsInTick, u x.timeScale].flatten

def Timing.fields (x : Timing) : Nat × Nat := (x.numUnitsInTick.toNat, x.timeScale.toNat)

/-- A VUI up to its timing fields. -/
structure Vui (α : Type) where
  head : α
  timing : Option Timing

def Vui.bits (headBits : α → List Bool) (x : Vui α) : List Bool := headBits x.head ++ present x.timing Timing.bits

theorem reads_aspectRatio (x : AspectRatio) : Reads (do
    let aspectRatioIdc ← readBits 8
    onlyIf (aspectRatioIdc = 255) do
      skipBits 16
      skipBits 16) x.bits () := by
  have hidc : x.idc.toNat = 255 ↔ x.idc = 255 := by
    rw [← BitVec.toNat_inj]
    rfl
  refine .cons (reads_u x.idc (by decide)) (.last (.onlyIf hidc fun _ => ?_))
  exact .cons (reads_skip_u x.sarWidth) (.last (reads_skip_u x.sarHeight))

theorem reads_vuiHead (x : VuiHead) : Reads vuiHead x.bits () := by
  unfold vuiHead VuiHead.bits
  refine reads_present_then (fun ratio _ => reads_aspectRatio ratio) ?_
  refine reads_present_then (fun overscan _ => reads_skip_flag overscan) ?_
  refine reads_present_then (fun signal _ => ?_) (.last (reads_present fun loc _ => ?_))
  · unfold VideoSignal.bits
    refine .cons (reads_skip_u signal.videoFormat) (.cons (reads_skip_flag signal.fullRange) ?_)
    refine .last (reads_present fun colour _ => ?_)
    exact .cons (reads_skip_u colour.primaries) (.cons (reads_skip_u colour.transfer)
      (.last (reads_skip_u colour.matrix)))
  · exact .cons (reads_skipUE loc.1) (.last (reads_skipUE loc.2))

theorem reads_timing (x : Timing) : Reads timingFields x.bits (some x.fields) := by
  unfold timingFields Timing.bits
  refine .cons (reads_u x.numUnitsInTick (Nat.le_refl 32)) ?_
  rw [← List.append_nil [u x.timeScale]]
  refine .cons (reads_u x.timeScale (Nat.le_refl 32)) ?_
  exact .nil (some x.fields)

/-- From the flag of the VUI on. -/
theorem reads_vuiTiming {head : Reader Unit} {headBits : α → List Bool} (hhead : ∀ x, Reads head (headBits x) ())
    (vui : Option (Vui α)) :
    Reads (vuiTiming head) (present vui (Vui.bits headBits)) ((vui.bind Vui.timing).map Timing.fields) := by
  unfold vuiTiming
  refine (reads_bit vui.isSome).bind ?_
  cases vui with
  | none =>
    rw [Option.isSome_none, Bool.toNat_false, if_pos rfl]
    exact .pure none
  | some vui =>
    rw [Option.isSome_some, if_neg (by decide), Option.elim_some, Vui.bits]
    refine (hhead vui.head).bind ((reads_bit vui.timing.isSome).bind ?_)
    rw [Option.bind_some]
    cases vui.timing with
    | none =>
      rw [Option.isSome_none, Bool.toNat_false, if_pos rfl]
      exact .pure none
    | some timing =>
      rw [Option.isSome_some, if_neg (by decide)]
      exact reads_timing timing

theorem frameRate_fields {rate : Nat → Nat → FrameRate} {t : Timing} (hunits : t.numUnitsInTick ≠ 0)
    (hscale : t.timeScale ≠ 0) :
    frameRate rate (some t.fields) = rate t.numUnitsInTick.toNat t.timeScale.toNat := by
  have hne : ∀ v : BitVec 32, v ≠ 0 → v.toNat ≠ 0 := fun v hv h => hv (BitVec.eq_of_toNat_eq h)
  exact if_neg fun h => h.elim (hne _ hunits) (hne _ hscale)

/-! ## NAL units -/

/-- A NAL unit behind a start code, with the bytes of its RBSP escaped and
whatever follows it. -/
structure SpsNal where
  start : Bytes
  header : Bytes
  rbsp : Bytes
  extra : Bytes
  start_code : start = [0, 0, 1] ∨ start = [0, 0, 0, 1]
  header_short : header.length ≤ 2
  header_last : ∃ front b, b ≠ 0 ∧ header = front ++ [b]

theorem four_byte_start : ([0, 0, 0, 1] : Bytes) = [0, 0, 1] ∨ ([0, 0, 0, 1] : Bytes) = [0, 0, 0, 1] := .inr rfl

def SpsNal.bytes (nal : SpsNal) : Bytes := nal.start ++ (nal.header ++ (escape 0 nal.rbsp ++ nal.extra))

/-- The RBSP begins with these bits. -/
def SpsNal.Begins (nal : SpsNal) (bits : List Bool) : Prop := ∃ more, bytesBits nal.rbsp = bits ++ more

variable (nal : SpsNal)

theorem SpsNal.header_pos : 0 < nal.header.length := by
  obtain ⟨front, b, -, h⟩ := nal.header_last
  rw [h, List.length_append]
  exact Nat.succ_pos _

theorem startCodeOffset_eq {start body : Bytes} (hstart : start = [0, 0, 1] ∨ start = [0, 0, 0, 1]) (hbody : body ≠ []) :
    startCodeOffset (start ++ body) = start.length := by
  cases body with
  | nil => exact absurd rfl hbody
  | cons b body =>
    rcases hstart with rfl | rfl <;> simp [startCodeOffset]

/-- A header is nothing to remove from. -/
theorem remove_short {data : Bytes} (h : data.length ≤ 2) : removeEmulationPrevention data = data := by
  match data with
  | [] => rfl
  | [a] => simp [removeEmulationPrevention, isEmulation]
  | [a, b] => simp [removeEmulationPrevention, isEmulation, List.range_succ]

/-- What is extracted from the NAL unit. -/
theorem SpsNal.remove_bytes : ∃ tail,
    removeEmulationPrevention (nal.header ++ (escape 0 nal.rbsp ++ nal.extra)) = nal.header ++ (nal.rbsp ++ tail) := by
  have hzeros : Zeros 0 nal.header := by
    obtain ⟨front, b, hb, h⟩ := nal.header_last
    rw [h]
    exact .none hb
  obtain ⟨tail, htail⟩ := remove_prefix (nal.header ++ escape 0 nal.rbsp) nal.extra
  refine ⟨tail, ?_⟩
  rw [← List.append_assoc, htail, remove_escape hzeros, remove_short nal.header_short, List.append_assoc]

theorem escape_length (zeros : Nat) (bs : Bytes) : bs.length ≤ (escape zeros bs).length := by
  induction bs generalizing zeros with
  | nil => exact Nat.zero_le _
  | cons b bs ih =>
    unfold escape
    split
    · have hle := ih (if b = 0 then 1 else 0)
      simp only [List.length_cons]
      omega
    · have hle := ih (if b = 0 then zeros + 1 else 0)
      simp only [List.length_cons]
      omega

/-- **A whole NAL unit.** -/
theorem spsFields_nal {least : Nat} {timing : Reader (Option (Nat × Nat))} {bits : List Bool}
    {fields : Option (Nat × Nat)} (htiming : Reads timing bits fields) (hbits : nal.Begins bits) (hpos : 0 < bits.length)
    (hleast : 8 * (least - nal.header.length) ≤ bits.length + 7) :
    spsFields nal.header.length least timing nal.bytes = fields := by
  obtain ⟨more, hmore⟩ := hbits
  obtain ⟨tail, htail⟩ := nal.remove_bytes
  have hlen := congrArg List.length hmore
  have hescape := escape_length 0 nal.rbsp
  have hheader := nal.header_pos
  rw [bytesBits_length, List.length_append] at hlen
  have hbody : nal.header ++ (escape 0 nal.rbsp ++ nal.extra) ≠ [] := by
    apply List.ne_nil_of_length_pos
    rw [List.length_append]
    omega
  have hoffset : startCodeOffset nal.bytes = nal.start.length := startCodeOffset_eq nal.start_code hbody
  have hstart : nal.start.length ≠ 0 := by rcases nal.start_code with h | h <;> simp [h]
  have hdrop : nal.bytes.drop nal.start.length = nal.header ++ (escape 0 nal.rbsp ++ nal.extra) := List.drop_left
  have htotal : nal.bytes.length =
      nal.start.length + (nal.header.length + ((escape 0 nal.rbsp).length + nal.extra.length)) := by
    simp only [SpsNal.bytes, List.length_append]
  have hreads := htiming { data := nal.rbsp ++ tail } (more ++ bytesBits tail) (by
    simp only [rest, List.drop_zero, bytesBits_append, hmore, List.append_assoc])
  unfold spsFields
  simp only [hoffset, hdrop, htail, List.drop_left, hreads.1]
  rw [if_neg (by omega), if_neg (by simp only [List.length_append]; omega)]

end WebPlayer.L1.SpsSyntax
