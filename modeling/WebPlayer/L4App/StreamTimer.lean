import Mathlib.Algebra.Order.Floor.Semifield
import Mathlib.Data.Rat.Floor
import WebPlayer.L1Encoding.TruncatedSps
import WebPlayer.L4App.AccessUnits

/-!
# The stream timer (`server/main.cpp:60-95`, `server/timer.cpp:19-40`)

A raw stream is sent one access unit per expiration, at the rate that the
first SPS of the file gives. Nothing between the timing fields and
`timerfd_settime` clamps the interval: above 1000 frames a second it is 0,
which disarms the timer, and a frame of 2^32 ms does not fit.

* `timer_usable_iff`: what the timing fields must satisfy.
-/
namespace WebPlayer.L4.StreamTimer
open WebPlayer.Core WebPlayer.L1.SpsParser WebPlayer.L1.SpsSyntax WebPlayer.L1.TruncatedSps WebPlayer.L4.Media
open WebPlayer.L4.NalParser

/-! ## The file -/

def spsType (isH265 : Bool) : UInt8 := if isH265 then 33 else 7

def firstSps (isH265 : Bool) (nalUnits : List NalUnit) : Option NalUnit :=
  nalUnits.find? fun nal => getNalType isH265 nal = spsType isH265

def detectFrameRate (isH265 : Bool) (nalUnits : List NalUnit) : FrameRate :=
  match firstSps isH265 nalUnits with
  | none => .default
  | some nal => if isH265 then parseH265Fps nal.data else parseH264Fps nal.data

structure LoadedFile where
  nalUnits : List NalUnit
  accessUnits : List AccessUnit
  frameRate : FrameRate

/-- Of a file that could be read.
mirrors server/nal_parser.cpp:10-59 -/
def loadFile (isH265 : Bool) (buffer : Bytes) : LoadedFile :=
  let nalUnits := parseNalUnits buffer
  { nalUnits := nalUnits
    accessUnits := groupIntoAccessUnits isH265 nalUnits
    frameRate := detectFrameRate isH265 nalUnits }

/-! ## The interval -/

def fps : FrameRate → ℚ
  | .default => 25
  | .ratio num den => num / den

/-- `static_cast<uint32_t>`, undefined where the result does not fit. -/
def toUInt32 (x : ℚ) : Option UInt32 := if ⌊x⌋₊ < 2 ^ 32 then some (.ofNat ⌊x⌋₊) else none

/-- mirrors server/main.cpp:85-89 -/
def timerIntervalMs (isMp4Mode : Bool) (frameIntervalMs : ℚ) : Option UInt32 :=
  if isMp4Mode then some 10 else toUInt32 frameIntervalMs

/-- In raw mode.
mirrors server/main.cpp:72-89 -/
def rawIntervalMs (isH265 : Bool) (buffer : Bytes) : Option UInt32 :=
  timerIntervalMs false (1000 / fps (loadFile isH265 buffer).frameRate)

/-! ## The timer -/

structure Timespec where
  tvSec : UInt32
  tvNsec : UInt32
  deriving DecidableEq

structure Itimerspec where
  itValue : Timespec
  itInterval : Timespec

/-- What `Timer::Start` passes to `timerfd_settime`.
mirrors server/timer.cpp:26-30 -/
def timerSpec (intervalMs : UInt32) : Itimerspec :=
  let ts := { tvSec := intervalMs / 1000, tvNsec := intervalMs % 1000 * 1000000 }
  { itValue := ts, itInterval := ts }

/-- A zero `it_value` disarms. -/
def Itimerspec.Armed (spec : Itimerspec) : Prop := spec.itValue ≠ { tvSec := 0, tvNsec := 0 }

instance (spec : Itimerspec) : Decidable spec.Armed := inferInstanceAs (Decidable (_ ≠ _))

theorem tvNsec_toNat (ms : UInt32) : (ms % 1000 * 1000000).toNat = ms.toNat % 1000 * 1000000 := by
  rw [UInt32.toNat_mul, UInt32.toNat_mod]
  exact Nat.mod_eq_of_lt (by simp; omega)

/-- The timer runs for as long as it is told, and the fields are in range. -/
theorem timerSpec_total (ms : UInt32) :
    (timerSpec ms).itValue.tvSec.toNat * 1000000000 + (timerSpec ms).itValue.tvNsec.toNat = ms.toNat * 1000000 ∧
      (timerSpec ms).itValue.tvNsec.toNat < 1000000000 := by
  have hsec : (timerSpec ms).itValue.tvSec.toNat = ms.toNat / 1000 := UInt32.toNat_div ..
  have hnsec : (timerSpec ms).itValue.tvNsec.toNat = ms.toNat % 1000 * 1000000 := tvNsec_toNat ms
  omega

theorem armed_iff (ms : UInt32) : (timerSpec ms).Armed ↔ 1 ≤ ms.toNat := by
  obtain ⟨htotal, -⟩ := timerSpec_total ms
  rw [Itimerspec.Armed, ← not_iff_not, not_not]
  constructor
  · intro h
    rw [h] at htotal
    simp at htotal
    omega
  · intro h
    have hms : ms = 0 := UInt32.toNat_inj.mp (by simp; omega)
    subst hms
    rfl

/-! ## Usable intervals -/

/-- Of at least 1 ms, and the timer is armed. -/
def Usable (interval : Option UInt32) : Prop := ∃ ms, interval = some ms ∧ 1 ≤ ms.toNat ∧ (timerSpec ms).Armed

theorem usable_toUInt32 {x : ℚ} : Usable (toUInt32 x) ↔ 1 ≤ ⌊x⌋₊ ∧ ⌊x⌋₊ < 2 ^ 32 := by
  rw [toUInt32]
  constructor
  · rintro ⟨ms, hms, hpos, -⟩
    split at hms
    · rename_i hlt
      cases hms
      rw [UInt32.toNat_ofNat', Nat.mod_eq_of_lt hlt] at hpos
      exact ⟨hpos, hlt⟩
    · cases hms
  · rintro ⟨hpos, hlt⟩
    have hnat : (UInt32.ofNat ⌊x⌋₊).toNat = ⌊x⌋₊ := by rw [UInt32.toNat_ofNat', Nat.mod_eq_of_lt hlt]
    rw [if_pos hlt]
    exact ⟨_, rfl, by rwa [hnat], (armed_iff _).mpr (by rwa [hnat])⟩

theorem usable_ratio {num den : Nat} (hnum : num ≠ 0) :
    Usable (timerIntervalMs false (1000 / fps (.ratio num den))) ↔ num ≤ 1000 * den ∧ 1000 * den < 2 ^ 32 * num := by
  have hpos : 0 < num := Nat.pos_of_ne_zero hnum
  have hfloor : ⌊1000 / fps (.ratio num den)⌋₊ = 1000 * den / num := by
    rw [← Nat.floor_div_eq_div (K := ℚ), fps, div_div_eq_mul_div, Nat.cast_mul, Nat.cast_ofNat]
  rw [timerIntervalMs, if_neg Bool.false_ne_true, usable_toUInt32, hfloor, Nat.le_div_iff_mul_le hpos, Nat.one_mul,
    Nat.div_lt_iff_lt_mul hpos]

/-- 40 ms. -/
theorem usable_default : Usable (timerIntervalMs false (1000 / fps .default)) := by
  have hfloor : ⌊1000 / fps .default⌋₊ = 40 := by
    rw [← Nat.floor_natCast (R := ℚ) 40, fps]
    norm_num
  rw [timerIntervalMs, if_neg Bool.false_ne_true, usable_toUInt32, hfloor]
  decide

/-! ## Files -/

/-- Clock ticks of a frame; H.264 counts fields. -/
def ticks (isH265 : Bool) : Nat := if isH265 then 1 else 2

/-- The timing fields of the first SPS. -/
def firstTiming (isH265 : Bool) (buffer : Bytes) : Option (Nat × Nat) :=
  (firstSps isH265 (parseNalUnits buffer)).bind fun nal =>
    if isH265 then spsFields 2 15 h265Timing nal.data else spsFields 1 4 h264Timing nal.data

theorem loadFile_frameRate (isH265 : Bool) (buffer : Bytes) : (loadFile isH265 buffer).frameRate =
    frameRate (fun numUnitsInTick timeScale => .ratio timeScale (ticks isH265 * numUnitsInTick)) (firstTiming isH265 buffer) := by
  have h265 : (fun numUnitsInTick timeScale => FrameRate.ratio timeScale (ticks true * numUnitsInTick)) = h265Rate := by
    funext numUnitsInTick timeScale
    rw [h265Rate, ticks, if_pos rfl, Nat.one_mul]
  have h264 : (fun numUnitsInTick timeScale => FrameRate.ratio timeScale (ticks false * numUnitsInTick)) = h264Rate := rfl
  show detectFrameRate isH265 (parseNalUnits buffer) = _
  rw [detectFrameRate, firstTiming]
  cases firstSps isH265 (parseNalUnits buffer) with
  | none => rfl
  | some nal =>
    cases isH265 with
    | false => rw [h264]; exact parseFps_eq ..
    | true => rw [h265]; exact parseFps_eq ..

/-- The fields that were written. -/
theorem firstTiming_of_stream {x : Stream} (hstep : x.InStep) {buffer : Bytes}
    (hsps : firstSps x.isH265 (parseNalUnits buffer) = some ⟨x.nal.bytes⟩) :
    firstTiming x.isH265 buffer = x.timing.map Timing.fields := by
  rw [firstTiming, hsps]
  cases x with
  | h264 sps nal header begins => exact L1.H264.h264_fields hstep header begins
  | h265 sps nal header begins => exact L1.H265.h265_fields hstep header begins

/-- **Whether the interval can be used.** Raw files at up to 1000 frames a
second, and more than one in 2^32 ms. -/
theorem timer_usable_iff (isH265 : Bool) (buffer : Bytes) : Usable (rawIntervalMs isH265 buffer) ↔
    ∀ numUnitsInTick timeScale, firstTiming isH265 buffer = some (numUnitsInTick, timeScale) →
      numUnitsInTick ≠ 0 → timeScale ≠ 0 →
      timeScale ≤ 1000 * (ticks isH265 * numUnitsInTick) ∧
        1000 * (ticks isH265 * numUnitsInTick) < 2 ^ 32 * timeScale := by
  rw [rawIntervalMs, loadFile_frameRate]
  cases hfields : firstTiming isH265 buffer with
  | none => exact ⟨fun _ => nofun, fun _ => usable_default⟩
  | some fields =>
    obtain ⟨numUnitsInTick, timeScale⟩ := fields
    rw [frameRate]
    by_cases hzero : numUnitsInTick = 0 ∨ timeScale = 0
    · rw [if_pos hzero]
      refine ⟨fun _ u s hus hu hs => ?_, fun _ => usable_default⟩
      cases hus
      exact absurd hzero (not_or.mpr ⟨hu, hs⟩)
    · rw [if_neg hzero, usable_ratio (not_or.mp hzero).2]
      refine ⟨fun h u s hus _ _ => ?_, fun h => h _ _ rfl (not_or.mp hzero).1 (not_or.mp hzero).2⟩
      cases hus
      exact h

/-- 4000 fields a second. -/
def fastFile : Bytes :=
  [0, 0, 0, 1, 0x67, 0x42, 0x00, 0x1E, 0xDA, 0x05, 0x07, 0xE8, 0x40, 0x00, 0x00, 0x03, 0x00, 0x40, 0x00, 0x03, 0xE8, 0x20,
    0, 0, 0, 1, 0x65, 0x88]

theorem fast_disarmed : firstTiming false fastFile = some (1, 4000) ∧ rawIntervalMs false fastFile = some 0 ∧
    ¬(timerSpec 0).Armed := by decide +kernel

end WebPlayer.L4.StreamTimer
