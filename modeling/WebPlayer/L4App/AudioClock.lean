import WebPlayer.Core.Backlog
import WebPlayer.L4App.AvSync
import Mathlib.Tactic.Ring

/-!
# The audio player and its clock

Audio frames are played one after another on the clock of the audio context;
`getClockTimeMs` turns that clock into a PTS by the base taken at the first
frame. A frame that comes after the end of what has been scheduled begins
late, and only the schedule moves.

**The audio context.** It plays a source from the time that it was started
with, and may be suspended. For `reading_mono` its time does not go back.

**Numbers.** Times and PTS are exact.

**Results.**
* `clock_at_start_iff`: the clock shows the PTS of a frame when it begins iff
  it and every frame before it came before the audio ran out.
* `reading_mono`: the clock that the video is synchronised to never goes back.
-/
namespace WebPlayer.L4.AudioClock
open WebPlayer.Core WebPlayer.L4.AvSync Finset

/-- A decoded frame, `channels` interleaved. `createBuffer` throws on a frame
without channels, samples or rate.
mirrors js/decoder/types.ts:15-21 -/
structure AudioFrame (α : Type) where
  sampleRate : Nat
  channels : Nat
  nbSamples : Nat
  pts : ℚ
  data : List α
  sampleRate_pos : 0 < sampleRate
  channels_pos : 0 < channels
  nbSamples_pos : 0 < nbSamples

/-- Seconds. -/
def AudioFrame.duration {α : Type} (frame : AudioFrame α) : ℚ := frame.nbSamples / frame.sampleRate

/-- A buffer handed to `source.start`. -/
structure Source (α : Type) where
  buffer : List (List (Option α))
  start : ℚ

/-- `audioCtx` is whether there is a context.
mirrors js/audio/AudioPlayer.ts:3-8 -/
structure AudioPlayer where
  audioCtx : Bool
  externalAudioCtx : Bool
  nextPlayTime : ℚ
  baseTime : ℚ
  basePts : ℚ

namespace AudioPlayer

/-- `audioCtx` is the time of the context that the player is given, if any.
mirrors js/audio/AudioPlayer.ts:10-16 -/
def new (audioCtx : Option ℚ) : AudioPlayer where
  audioCtx := audioCtx.isSome
  externalAudioCtx := audioCtx.isSome
  nextPlayTime := audioCtx.getD 0
  baseTime := 0
  basePts := -1

/-- mirrors js/audio/AudioPlayer.ts:22-27 -/
def getClockTimeMs (currentTime : ℚ) (p : AudioPlayer) : ℚ :=
  if p.audioCtx = false ∨ p.basePts < 0 then -1
  else (currentTime - p.baseTime) * 1000 + p.basePts

/-- mirrors js/audio/AudioPlayer.ts:29-31 -/
def isActive (running : Bool) (p : AudioPlayer) : Bool := p.audioCtx && running && decide (0 ≤ p.basePts)

/-- What `AVSync` reads. -/
def reading (running : Bool) (currentTime : ℚ) (p : AudioPlayer) : Audio :=
  ⟨p.isActive running, p.getClockTimeMs currentTime⟩

end AudioPlayer

section
variable {α : Type}

/-- A sample that is not there is stored as NaN.
mirrors js/audio/AudioPlayer.ts:48-53 -/
def deinterleave (frame : AudioFrame α) : List (List (Option α)) :=
  (List.range frame.channels).map fun ch =>
    (List.range frame.nbSamples).map fun i => frame.data[i * frame.channels + ch]?

/-- mirrors js/audio/AudioPlayer.ts:33-67 -/
def AudioPlayer.playFrame (currentTime : ℚ) (frame : AudioFrame α) (p : AudioPlayer) : Source α × AudioPlayer :=
  let p := if p.audioCtx = false then { p with audioCtx := true, nextPlayTime := currentTime } else p
  let p := if p.basePts < 0 then
      { p with basePts := frame.pts, baseTime := currentTime, nextPlayTime := currentTime }
    else p
  let p := if p.nextPlayTime < currentTime then { p with nextPlayTime := currentTime } else p
  (⟨deinterleave frame, p.nextPlayTime⟩, { p with nextPlayTime := p.nextPlayTime + frame.duration })

/-! ## One frame -/

/-- The first frame sets the base and begins at once. -/
theorem playFrame_first {p : AudioPlayer} (hp : p.basePts < 0) (t : ℚ) (frame : AudioFrame α) :
    p.playFrame t frame = (⟨deinterleave frame, t⟩,
      ⟨true, p.externalAudioCtx, t + frame.duration, t, frame.pts⟩) := by
  unfold AudioPlayer.playFrame
  cases hctx : p.audioCtx <;> simp [hp, hctx]

/-- A later frame begins at the end of the ones before, or now; the base
stays. -/
theorem playFrame_next {p : AudioPlayer} (hctx : p.audioCtx = true) (hp : 0 ≤ p.basePts) (t : ℚ)
    (frame : AudioFrame α) : p.playFrame t frame = (⟨deinterleave frame, max p.nextPlayTime t⟩,
      { p with nextPlayTime := max p.nextPlayTime t + frame.duration }) := by
  unfold AudioPlayer.playFrame
  rw [if_neg (by simp [hctx])]
  simp only [if_neg (not_lt.mpr hp)]
  by_cases hlt : p.nextPlayTime < t
  · simp only [if_pos hlt, max_eq_right (le_of_lt hlt)]
  · simp only [if_neg hlt, max_eq_left (not_lt.mp hlt)]

theorem playFrame_nextPlayTime (p : AudioPlayer) (t : ℚ) (frame : AudioFrame α) :
    (p.playFrame t frame).2.nextPlayTime = (p.playFrame t frame).1.start + frame.duration := by
  unfold AudioPlayer.playFrame
  rfl

/-! ## Runs -/

/-- A call of `playFrame`. -/
structure Call (α : Type) where
  currentTime : ℚ
  frame : AudioFrame α

/-- The player after the first `n` calls. -/
def after (ctx : Option ℚ) (calls : Nat → Call α) : Nat → AudioPlayer
  | 0 => .new ctx
  | n + 1 => ((after ctx calls n).playFrame (calls n).currentTime (calls n).frame).2

/-- When call `k` starts its source. -/
def startTime (ctx : Option ℚ) (calls : Nat → Call α) (k : Nat) : ℚ :=
  ((after ctx calls k).playFrame (calls k).currentTime (calls k).frame).1.start

section
variable (ctx : Option ℚ) {calls : Nat → Call α} (hpts : 0 ≤ (calls 0).frame.pts)
include hpts

/-- From the first frame on the base is its time and PTS. -/
theorem after_base (n : Nat) : (after ctx calls (n + 1)).audioCtx = true ∧
    (after ctx calls (n + 1)).baseTime = (calls 0).currentTime ∧
    (after ctx calls (n + 1)).basePts = (calls 0).frame.pts := by
  induction n with
  | zero =>
    rw [after, after, playFrame_first (by simp [AudioPlayer.new])]
    exact ⟨rfl, rfl, rfl⟩
  | succ n ih =>
    obtain ⟨hctx, htime, hbase⟩ := ih
    rw [after, playFrame_next hctx (hbase ▸ hpts)]
    exact ⟨hctx, htime, hbase⟩

/-- The sources follow one another as jobs do. -/
theorem start_eq_begins (k : Nat) : startTime ctx calls k =
    begins (fun i => (calls i).currentTime) (fun i => (calls i).frame.duration) k := by
  induction k with
  | zero =>
    rw [startTime, after, playFrame_first (by simp [AudioPlayer.new]), begins]
  | succ k ih =>
    obtain ⟨hctx, -, hbase⟩ := after_base ctx hpts k
    rw [startTime, playFrame_next hctx (hbase ▸ hpts), begins, ← ih, startTime, after, playFrame_nextPlayTime]

end

/-- Contiguous frames: each PTS is the first plus what lies between. -/
theorem pts_eq {calls : Nat → Call α} {k : Nat}
    (hcont : ∀ i, i < k → (calls (i + 1)).frame.pts = (calls i).frame.pts + (calls i).frame.duration * 1000) :
    (calls k).frame.pts = (calls 0).frame.pts + (∑ i ∈ range k, (calls i).frame.duration) * 1000 := by
  induction k with
  | zero => simp
  | succ k ih =>
    rw [hcont k (Nat.lt_succ_self k), ih fun i hi => hcont i (Nat.lt_succ_of_lt hi), sum_range_succ]
    ring

/-- **The clock at a frame's start.** For contiguous frames, whenever the
context reaches the time at which frame `k` was started, the clock shows its
PTS iff it and every frame before it came by the end of the audio before. -/
theorem clock_at_start_iff (ctx : Option ℚ) (calls : Nat → Call α) (k n : Nat) (hn : k < n)
    (hpts : 0 ≤ (calls 0).frame.pts)
    (hcont : ∀ i, i < k → (calls (i + 1)).frame.pts = (calls i).frame.pts + (calls i).frame.duration * 1000) :
    (after ctx calls n).getClockTimeMs (startTime ctx calls k) = (calls k).frame.pts ↔
      ∀ j, j ≤ k → (calls j).currentTime ≤ (calls 0).currentTime + ∑ i ∈ range j, (calls i).frame.duration := by
  obtain ⟨m, rfl⟩ : ∃ m, n = m + 1 := ⟨n - 1, by omega⟩
  obtain ⟨hctx, htime, hbase⟩ := after_base ctx hpts m
  have hclock : (after ctx calls (m + 1)).getClockTimeMs (startTime ctx calls k) =
      (startTime ctx calls k - (calls 0).currentTime) * 1000 + (calls 0).frame.pts := by
    simp [AudioPlayer.getClockTimeMs, hctx, htime, hbase, not_lt.mpr hpts]
  rw [hclock, pts_eq hcont, start_eq_begins ctx hpts k, ← begins_eq_iff]
  constructor
  · intro h
    linarith
  · intro h
    rw [h]
    ring

/-- A frame of 20 ms. -/
def frame20 (pts : ℚ) : AudioFrame Unit where
  sampleRate := 8000
  channels := 1
  nbSamples := 160
  pts := pts
  data := []
  sampleRate_pos := by decide
  channels_pos := by decide
  nbSamples_pos := by decide

theorem frame20_duration (pts : ℚ) : (frame20 pts).duration = 1 / 50 := by
  norm_num [AudioFrame.duration, frame20]

/-- Contiguous frames of 20 ms: the first at 0, the second at `second`. -/
def twoCalls (second : ℚ) : Nat → Call Unit
  | 0 => ⟨0, frame20 0⟩
  | k + 1 => ⟨second, frame20 (20 * (k + 1))⟩

theorem twoCalls_contiguous (second : ℚ) (i : Nat) : (twoCalls second (i + 1)).frame.pts =
    (twoCalls second i).frame.pts + (twoCalls second i).frame.duration * 1000 := by
  cases i with
  | zero => norm_num [twoCalls, frame20_duration]; norm_num [frame20]
  | succ i => norm_num [twoCalls, frame20_duration]; norm_num [frame20]; ring

/-- A second frame 10 ms after the first is heard at its PTS. -/
theorem clock_at_start_on_time :
    (after none (twoCalls (1 / 100)) 2).getClockTimeMs (startTime none (twoCalls (1 / 100)) 1) = 20 := by
  have h := (clock_at_start_iff none (twoCalls (1 / 100)) 1 2 (by decide) (by decide) fun i _ =>
    twoCalls_contiguous (1 / 100) i).mpr ?_
  · rw [h]
    norm_num [twoCalls, frame20]
  · intro j hj
    rcases Nat.le_one_iff_eq_zero_or_eq_one.mp hj with rfl | rfl
    · simp
    · norm_num [twoCalls, frame20_duration]

/-- **An underrun.** A second frame 50 ms after the first begins when it comes,
and the clock then shows 50 ms, not 20. -/
theorem clock_runs_ahead :
    (∀ i, (twoCalls (1 / 20) (i + 1)).frame.pts =
      (twoCalls (1 / 20) i).frame.pts + (twoCalls (1 / 20) i).frame.duration * 1000) ∧
    (after none (twoCalls (1 / 20)) 2).getClockTimeMs (startTime none (twoCalls (1 / 20)) 1) = 50 ∧
    (twoCalls (1 / 20) 1).frame.pts = 20 :=
  ⟨twoCalls_contiguous (1 / 20), by decide +kernel, by decide +kernel⟩

/-! ## The clock that the video follows -/

theorem getClockTimeMs_wait (p : AudioPlayer) {t t' : ℚ} (h : t ≤ t') : p.getClockTimeMs t ≤ p.getClockTimeMs t' := by
  unfold AudioPlayer.getClockTimeMs
  split
  · exact le_refl _
  · linarith

theorem playFrame_audioCtx (p : AudioPlayer) (t : ℚ) (frame : AudioFrame α) :
    (p.playFrame t frame).2.audioCtx = true := by
  unfold AudioPlayer.playFrame
  cases h : p.audioCtx <;> simp only [if_true, if_false, reduceCtorEq] <;> split <;> split <;> simp [h]

/-- Playing a frame does not set the clock back. -/
theorem getClockTimeMs_playFrame {p : AudioPlayer} (hp : 0 ≤ p.basePts → p.audioCtx = true) (t : ℚ)
    (frame : AudioFrame α) : p.getClockTimeMs t ≤ (p.playFrame t frame).2.getClockTimeMs t := by
  by_cases hneg : p.basePts < 0
  · rw [playFrame_first hneg]
    simp only [AudioPlayer.getClockTimeMs, hneg, or_true, if_true]
    split
    · exact le_refl _
    · rename_i h
      have := not_lt.mp (not_or.mp h).2
      linarith
  · rw [playFrame_next (hp (not_lt.mp hneg)) (not_lt.mp hneg)]
    exact le_refl _

/-- **The clock never goes back** between two readings, whatever is played in
between. -/
theorem reading_mono (ctx : Option ℚ) {calls : Nat → Call α}
    (hsorted : ∀ i j, i ≤ j → (calls i).currentTime ≤ (calls j).currentTime) {m n : Nat} (hmn : m ≤ n) {t t' : ℚ}
    (ht : t ≤ t') (hfrom : ∀ i, m ≤ i → i < n → t ≤ (calls i).currentTime)
    (hto : ∀ i, i < n → (calls i).currentTime ≤ t') (running running' : Bool) :
    ((after ctx calls m).reading running t).clockTimeMs ≤ ((after ctx calls n).reading running' t').clockTimeMs := by
  have hstarted : ∀ k, 0 ≤ (after ctx calls k).basePts → (after ctx calls k).audioCtx = true := by
    intro k
    cases k with
    | zero => exact fun h => absurd h (by norm_num [after, AudioPlayer.new])
    | succ k => exact fun _ => playFrame_audioCtx _ _ _
  simp only [AudioPlayer.reading]
  induction hmn generalizing t' with
  | refl => exact getClockTimeMs_wait _ ht
  | @step n hmn ih =>
    have htn := hfrom n hmn (Nat.lt_succ_self n)
    have hlast : ∀ i, i < n → (calls i).currentTime ≤ (calls n).currentTime := fun i hi => hsorted i n (Nat.le_of_lt hi)
    calc (after ctx calls m).getClockTimeMs t
        ≤ (after ctx calls n).getClockTimeMs (calls n).currentTime :=
          ih htn (fun i hi hin => hfrom i hi (Nat.lt_succ_of_lt hin)) hlast
      _ ≤ (after ctx calls (n + 1)).getClockTimeMs (calls n).currentTime := getClockTimeMs_playFrame (hstarted n) _ _
      _ ≤ (after ctx calls (n + 1)).getClockTimeMs t' := getClockTimeMs_wait _ (hto n (Nat.lt_succ_self n))

end

end WebPlayer.L4.AudioClock
