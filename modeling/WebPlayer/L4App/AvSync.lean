import WebPlayer.Core.Lts
import Mathlib.Data.Rat.Defs
import Mathlib.Algebra.Order.Ring.Rat
import Mathlib.Tactic.Linarith
import Mathlib.Tactic.NormNum

/-!
# Audio-video synchronisation

A video frame ahead of the audio clock waits in one slot for one timer, a
frame behind it is dropped, any other frame is rendered on arrival.

**The window.** A timer fires once, not before it is due, and not when it has
been cleared; how much later is left open. Arrivals, the passing of time and
timers interleave in any way.

**The audio player.** It may be active or not at each reading; its clock does
not go back from one reading to the next.

**Numbers.** Times, PTS and their differences are exact.

**Results.**
* `delayed_kept_iff`: no delayed frame is lost in exactly the runs that delay
  a frame only while none is waiting.
* `rendered_ordered_iff`: frames are rendered by increasing PTS in exactly the
  runs whose timer never fires for a frame that has been overtaken.
-/
namespace WebPlayer.L4.AvSync
open WebPlayer.Core

/-- A decoded frame; `id` tells the objects apart. -/
structure VideoFrame where
  id : Nat
  pts : ℚ
  deriving DecidableEq, Repr

/-- What `AVSync` reads of its audio player.
mirrors js/audio/AudioPlayer.ts:22-31 -/
structure Audio where
  isActive : Bool
  clockTimeMs : ℚ

/-- mirrors js/audio/AVSync.ts:4-8 -/
inductive SyncAction where
  | render
  | delay
  | skip
  deriving DecidableEq, Repr

def SYNC_AHEAD_THRESHOLD_MS : ℚ := 30

def SYNC_BEHIND_THRESHOLD_MS : ℚ := 60

/-- mirrors js/audio/AVSync.ts:31-52 -/
def decideSyncAction (audio : Audio) (videoPtsMs : ℚ) : SyncAction :=
  if audio.isActive = false then .render
  else if audio.clockTimeMs < 0 then .render
  else
    let diff := videoPtsMs - audio.clockTimeMs
    if diff > SYNC_AHEAD_THRESHOLD_MS then .delay
    else if diff < -SYNC_BEHIND_THRESHOLD_MS then .skip
    else .render

/-- The synchroniser with the window's timers (identifier and due time) and
the frames handed to the render callback.
mirrors js/audio/AVSync.ts:13-25 -/
structure AVSync where
  pendingFrame : Option VideoFrame
  delayTimer : Option Nat
  renderCallback : Bool
  timers : List (Nat × ℚ)
  nextTimer : Nat
  rendered : List VideoFrame
  deriving DecidableEq, Repr

namespace AVSync

def clearTimeout (id : Nat) (s : AVSync) : AVSync := { s with timers := s.timers.filter (·.1 ≠ id) }

/-- mirrors js/audio/AVSync.ts:75-79 -/
def doRender (frame : VideoFrame) (s : AVSync) : AVSync :=
  if s.renderCallback then { s with rendered := s.rendered ++ [frame] } else s

/-- mirrors js/audio/AVSync.ts:81-99 -/
def scheduleDelayedRender (now audioClockMs : ℚ) (frame : VideoFrame) (s : AVSync) : AVSync :=
  let s := match s.delayTimer with
    | some id => s.clearTimeout id
    | none => s
  let delayMs := max 1 (frame.pts - audioClockMs)
  { s with
    pendingFrame := some frame
    delayTimer := some s.nextTimer
    timers := s.timers ++ [(s.nextTimer, now + delayMs)]
    nextTimer := s.nextTimer + 1 }

/-- `later` is the reading for the delay.
mirrors js/audio/AVSync.ts:57-73 -/
def processVideoFrame (now : ℚ) (audio later : Audio) (frame : VideoFrame) (s : AVSync) : AVSync :=
  match decideSyncAction audio frame.pts with
  | .render => s.doRender frame
  | .delay => s.scheduleDelayedRender now later.clockTimeMs frame
  | .skip => s

/-- The timer's callback.
mirrors js/audio/AVSync.ts:92-98 -/
def onTimeout (s : AVSync) : AVSync :=
  let s := { s with delayTimer := none }
  match s.pendingFrame with
  | some frame => { s.doRender frame with pendingFrame := none }
  | none => s

/-- The event loop runs a timer that is due, once. -/
def fire (now : ℚ) (id : Nat) (s : AVSync) : Option AVSync :=
  match s.timers.find? (·.1 = id) with
  | some (_, due) => if due ≤ now then some (s.clearTimeout id).onTimeout else none
  | none => none

end AVSync

/-! ## Runs -/

/-- The page before `destroy()`: the wall clock, the last reading of the audio
clock, and every frame that has arrived or has been delayed so far. -/
structure Sys where
  sync : AVSync
  now : ℚ
  clock : ℚ
  arrived : List VideoFrame
  delayed : List VideoFrame
  deriving DecidableEq, Repr

inductive Lbl where
  | wait (t : ℚ)
  | frame (audio later : Audio) (f : VideoFrame)
  | timer (id : Nat)

namespace Sys

def arrive (audio later : Audio) (f : VideoFrame) (s : Sys) : Sys :=
  { s with
    sync := s.sync.processVideoFrame s.now audio later f
    clock := later.clockTimeMs
    arrived := s.arrived ++ [f]
    delayed := if decideSyncAction audio f.pts = .delay then s.delayed ++ [f] else s.delayed }

/-- The audio clock does not go back, and a timer waits for its due time. -/
def step (s : Sys) : Lbl → Option Sys
  | .wait t => if s.now ≤ t then some { s with now := t } else none
  | .frame audio later f =>
    if f.id = s.arrived.length ∧ s.clock ≤ audio.clockTimeMs ∧ audio.clockTimeMs ≤ later.clockTimeMs then
      some (s.arrive audio later f)
    else none
  | .timer id => (s.sync.fire s.now id).map fun sync => { s with sync }

/-- After `setRenderCallback`. -/
def start (clock : ℚ) : Sys where
  sync := ⟨none, none, true, [], 0, []⟩
  now := 0
  clock := clock
  arrived := []
  delayed := []

end Sys

def system : Lts Sys Lbl := Lts.ofFn (fun s => ∃ clock, s = .start clock) Sys.step

/-- Frames arrive by nondecreasing PTS. -/
def NondecreasingPts (s : Sys) : Lbl → Prop
  | .frame _ _ f => ∀ g, g ∈ s.arrived → g.pts ≤ f.pts
  | _ => True

/-- Frames arrive by strictly increasing PTS. -/
def IncreasingPts (s : Sys) : Lbl → Prop
  | .frame _ _ f => ∀ g, g ∈ s.arrived → g.pts < f.pts
  | _ => True

/-- A waiting frame has the only timer; it has been delayed and not rendered. -/
structure Wf (s : Sys) : Prop where
  renderCallback : s.sync.renderCallback = true
  slot : (s.sync.pendingFrame = none ∧ s.sync.delayTimer = none ∧ s.sync.timers = []) ∨
    ∃ f id due, s.sync.pendingFrame = some f ∧ s.sync.delayTimer = some id ∧ s.sync.timers = [(id, due)]
  ids : ∀ f, f ∈ s.arrived → f.id < s.arrived.length
  rendered : ∀ f, f ∈ s.sync.rendered → f ∈ s.arrived
  delayed : ∀ f, f ∈ s.delayed → f ∈ s.arrived
  waiting : ∀ f, s.sync.pendingFrame = some f → f ∈ s.delayed ∧ f ∉ s.sync.rendered

theorem wf_start (clock : ℚ) : Wf (.start clock) where
  renderCallback := rfl
  slot := .inl ⟨rfl, rfl, rfl⟩
  ids _ h := absurd h List.not_mem_nil
  rendered _ h := absurd h List.not_mem_nil
  delayed _ h := absurd h List.not_mem_nil
  waiting _ h := by cases h

/-! ## One step -/

section
variable {s : Sys} {audio later : Audio} {f : VideoFrame} (hwf : Wf s)
include hwf

theorem arrive_render (h : decideSyncAction audio f.pts = .render) :
    s.arrive audio later f = { s with
      sync := { s.sync with rendered := s.sync.rendered ++ [f] }
      clock := later.clockTimeMs
      arrived := s.arrived ++ [f] } := by
  simp only [Sys.arrive, AVSync.processVideoFrame, AVSync.doRender, h, hwf.renderCallback, reduceCtorEq, if_false,
    if_true]

omit hwf in
theorem arrive_skip (h : decideSyncAction audio f.pts = .skip) :
    s.arrive audio later f = { s with clock := later.clockTimeMs, arrived := s.arrived ++ [f] } := by
  simp only [Sys.arrive, AVSync.processVideoFrame, h, reduceCtorEq, if_false]

/-- A delayed frame takes the slot and the timer, whoever has them. -/
theorem arrive_delay (h : decideSyncAction audio f.pts = .delay) :
    s.arrive audio later f = { s with
      sync := { s.sync with
        pendingFrame := some f
        delayTimer := some s.sync.nextTimer
        timers := [(s.sync.nextTimer, s.now + max 1 (f.pts - later.clockTimeMs))]
        nextTimer := s.sync.nextTimer + 1 }
      clock := later.clockTimeMs
      arrived := s.arrived ++ [f]
      delayed := s.delayed ++ [f] } := by
  simp only [Sys.arrive, AVSync.processVideoFrame, AVSync.scheduleDelayedRender, h, if_true]
  rcases hwf.slot with ⟨-, hnone, htimers⟩ | ⟨_, id, due, -, hsome, htimers⟩
  · rw [hnone, htimers]
    rfl
  · rw [hsome]
    simp [AVSync.clearTimeout, htimers]

/-- The timer renders the waiting frame and frees the slot. -/
theorem fire_renders {id : Nat} {sync : AVSync} (h : s.sync.fire s.now id = some sync) :
    ∃ f, s.sync.pendingFrame = some f ∧ sync = { s.sync with
      pendingFrame := none
      delayTimer := none
      timers := []
      rendered := s.sync.rendered ++ [f] } := by
  rw [AVSync.fire] at h
  rcases hwf.slot with ⟨-, -, htimers⟩ | ⟨f, id', due, hpending, -, htimers⟩
  · rw [htimers] at h
    cases h
  · rw [htimers, List.find?_singleton] at h
    by_cases hid : id' = id
    · subst hid
      simp only [decide_true, if_true] at h
      split at h
      · refine ⟨f, hpending, ?_⟩
        simpa [AVSync.clearTimeout, AVSync.onTimeout, AVSync.doRender, hpending, htimers, hwf.renderCallback]
          using h.symm
      · cases h
    · simp [hid] at h

theorem fresh (hid : f.id = s.arrived.length) : f ∉ s.arrived := by
  intro hmem
  have := hwf.ids f hmem
  omega

end

/-- What a step can do to a well-formed state. -/
theorem step_cases {s s' : Sys} {l : Lbl} (hwf : Wf s) (h : s.step l = some s') :
    (∃ t, l = .wait t ∧ s' = { s with now := t }) ∨
    (∃ audio later f, l = .frame audio later f ∧ f.id = s.arrived.length ∧ s' = s.arrive audio later f) ∨
    (∃ id f, l = .timer id ∧ s.sync.pendingFrame = some f ∧ s' = { s with
      sync := { s.sync with
        pendingFrame := none
        delayTimer := none
        timers := []
        rendered := s.sync.rendered ++ [f] } }) := by
  cases l with
  | wait t =>
    simp only [Sys.step] at h
    split at h
    · exact .inl ⟨t, rfl, (Option.some.inj h).symm⟩
    · cases h
  | frame audio later f =>
    simp only [Sys.step] at h
    split at h
    · rename_i hguard
      exact .inr (.inl ⟨audio, later, f, rfl, hguard.1, (Option.some.inj h).symm⟩)
    · cases h
  | timer id =>
    obtain ⟨sync, hfire, rfl⟩ := Option.map_eq_some_iff.mp h
    obtain ⟨f, hpending, rfl⟩ := fire_renders hwf hfire
    exact .inr (.inr ⟨id, f, rfl, hpending, rfl⟩)

theorem wf_arrive {s : Sys} {audio later : Audio} {f : VideoFrame} (hwf : Wf s) (hid : f.id = s.arrived.length) :
    Wf (s.arrive audio later f) := by
  have hids : ∀ g, g ∈ s.arrived ++ [f] → g.id < (s.arrived ++ [f]).length := by
    intro g hg
    rw [List.length_append, List.length_singleton]
    rcases List.mem_append.mp hg with hg | hg
    · have := hwf.ids g hg
      omega
    · rw [List.mem_singleton.mp hg]
      omega
  have hnew : f ∈ s.arrived ++ [f] := List.mem_append_right _ (List.mem_singleton.mpr rfl)
  have hold : ∀ g, g ∈ s.arrived → g ∈ s.arrived ++ [f] := fun _ => List.mem_append_left _
  have hfresh := fresh hwf hid
  cases hact : decideSyncAction audio f.pts with
  | render =>
    rw [arrive_render hwf hact]
    refine ⟨hwf.renderCallback, hwf.slot, hids, fun g hg => ?_, fun g hg => hold g (hwf.delayed g hg), fun g hg => ?_⟩
    · rcases List.mem_append.mp hg with hg | hg
      · exact hold g (hwf.rendered g hg)
      · rwa [List.mem_singleton.mp hg]
    · obtain ⟨hdelayed, hnot⟩ := hwf.waiting g hg
      refine ⟨hdelayed, fun hmem => ?_⟩
      rcases List.mem_append.mp hmem with hmem | hmem
      · exact hnot hmem
      · rw [List.mem_singleton.mp hmem] at hdelayed
        exact hfresh (hwf.delayed f hdelayed)
  | delay =>
    rw [arrive_delay hwf hact]
    refine ⟨hwf.renderCallback, .inr ⟨f, _, _, rfl, rfl, rfl⟩, hids, fun g hg => hold g (hwf.rendered g hg),
      fun g hg => ?_, fun g hg => ?_⟩
    · rcases List.mem_append.mp hg with hg | hg
      · exact hold g (hwf.delayed g hg)
      · rwa [List.mem_singleton.mp hg]
    · cases hg
      exact ⟨List.mem_append_right _ (List.mem_singleton.mpr rfl), fun hmem => hfresh (hwf.rendered f hmem)⟩
  | skip =>
    rw [arrive_skip hact]
    exact ⟨hwf.renderCallback, hwf.slot, hids, fun g hg => hold g (hwf.rendered g hg),
      fun g hg => hold g (hwf.delayed g hg), hwf.waiting⟩

theorem wf_step (s : Sys) (l : Lbl) (s' : Sys) (hwf : Wf s) (h : s.step l = some s') : Wf s' := by
  obtain ⟨t, rfl, rfl⟩ | ⟨audio, later, f, rfl, hid, rfl⟩ | ⟨id, f, rfl, hpending, rfl⟩ := step_cases hwf h
  · exact ⟨hwf.renderCallback, hwf.slot, hwf.ids, hwf.rendered, hwf.delayed, hwf.waiting⟩
  · exact wf_arrive hwf hid
  · refine ⟨hwf.renderCallback, .inl ⟨rfl, rfl, rfl⟩, hwf.ids, fun g hg => ?_, hwf.delayed, fun g hg => by cases hg⟩
    rcases List.mem_append.mp hg with hg | hg
    · exact hwf.rendered g hg
    · rw [List.mem_singleton.mp hg]
      exact hwf.delayed f (hwf.waiting f hpending).1

/-! ## Delayed frames -/

/-- Every delayed frame is waiting or has been rendered once. -/
def Kept (s : Sys) : Prop :=
  ∀ f, f ∈ s.delayed → (s.sync.pendingFrame = some f ∧ f ∉ s.sync.rendered) ∨ s.sync.rendered.count f = 1

instance (s : Sys) : Decidable (Kept s) := inferInstanceAs (Decidable (∀ f, f ∈ s.delayed → _))

/-- A frame is delayed only while none is waiting. -/
def DelaysWhenFree (s : Sys) : Lbl → Prop
  | .frame audio _ f => decideSyncAction audio f.pts = .delay → s.sync.pendingFrame = none
  | _ => True

theorem count_append_ne {f g : VideoFrame} (h : g ≠ f) (fs : List VideoFrame) : (fs ++ [f]).count g = fs.count g := by
  rw [List.count_append, List.count_singleton]
  simp [Ne.symm h]

theorem kept_arrive {s : Sys} {audio later : Audio} {f : VideoFrame} (hwf : Wf s) (hk : Kept s)
    (hid : f.id = s.arrived.length) :
    Kept (s.arrive audio later f) ↔ DelaysWhenFree s (.frame audio later f) := by
  have hne : ∀ g, g ∈ s.delayed → g ≠ f := by
    rintro g hg rfl
    exact fresh hwf hid (hwf.delayed g hg)
  cases hact : decideSyncAction audio f.pts with
  | render =>
    rw [arrive_render hwf hact]
    refine ⟨fun _ h => absurd (hact.symm.trans h) (by decide), fun _ g hg => ?_⟩
    rw [count_append_ne (hne g hg), List.mem_append, List.mem_singleton, or_iff_left (hne g hg)]
    exact hk g hg
  | delay =>
    rw [arrive_delay hwf hact]
    constructor
    · intro hk' _
      -- a waiting frame would be neither waiting nor rendered afterwards
      by_contra hsome
      obtain ⟨g, hg⟩ := Option.ne_none_iff_exists'.mp hsome
      obtain ⟨hdelayed, hnot⟩ := hwf.waiting g hg
      rcases hk' g (List.mem_append_left _ hdelayed) with ⟨hpending, -⟩ | hcount
      · exact hne g hdelayed (Option.some.inj hpending).symm
      · rw [List.count_eq_zero.mpr hnot] at hcount
        cases hcount
    · intro hfree g hg
      rcases List.mem_append.mp hg with hg | hg
      · refine .inr ((hk g hg).resolve_left fun hw => ?_)
        rw [hfree hact] at hw
        cases hw.1
      · rw [List.mem_singleton.mp hg]
        exact .inl ⟨rfl, fun hmem => fresh hwf hid (hwf.rendered f hmem)⟩
  | skip =>
    rw [arrive_skip hact]
    exact ⟨fun _ h => absurd (hact.symm.trans h) (by decide), fun _ => hk⟩

theorem kept_fire {s : Sys} {f : VideoFrame} (hwf : Wf s) (hk : Kept s) (hpending : s.sync.pendingFrame = some f) :
    Kept { s with
      sync := { s.sync with
        pendingFrame := none
        delayTimer := none
        timers := []
        rendered := s.sync.rendered ++ [f] } } := by
  intro g hg
  right
  by_cases hgf : g = f
  · subst hgf
    rw [List.count_append, List.count_eq_zero.mpr (hwf.waiting g hpending).2, List.count_singleton_self]
  · rw [count_append_ne hgf]
    refine (hk g hg).resolve_left fun hw => hgf ?_
    rw [hpending] at hw
    exact (Option.some.inj hw.1).symm

theorem kept_step (s : Sys) (l : Lbl) (s' : Sys) (hwf : Wf s) (hk : Kept s) (h : s.step l = some s') :
    Kept s' ↔ DelaysWhenFree s l := by
  obtain ⟨t, rfl, rfl⟩ | ⟨audio, later, f, rfl, hid, rfl⟩ | ⟨id, f, rfl, hpending, rfl⟩ := step_cases hwf h
  · exact ⟨fun _ => trivial, fun _ => hk⟩
  · exact kept_arrive hwf hk hid
  · exact ⟨fun _ => trivial, fun _ => kept_fire hwf hk hpending⟩

/-- **Delayed frames.** With frames by nondecreasing PTS, every delayed frame
is at every moment waiting or rendered once, in exactly the runs that delay a
frame only while none is waiting. -/
theorem delayed_kept_iff (clock : ℚ) (ls : List Lbl) (s : Sys) :
    ((system.restrict NondecreasingPts).within Kept).Run (.start clock) ls s ↔
      ((system.restrict NondecreasingPts).restrict DelaysWhenFree).Run (.start clock) ls s :=
  Lts.run_within_iff (M := system.restrict NondecreasingPts) (J := fun s => Wf s ∧ Kept s)
    (fun s l s' hJ h => kept_step s l s' hJ.1 hJ.2 h.1)
    (fun s l s' hJ h hC => ⟨wf_step s l s' hJ.1 h.1, (kept_step s l s' hJ.1 hJ.2 h.1).mpr hC⟩)
    ⟨wf_start clock, fun _ hf => absurd hf List.not_mem_nil⟩

/-- Two frames ahead of a clock at 0. -/
def aheadTwice : List Lbl :=
  [.frame ⟨true, 0⟩ ⟨true, 0⟩ ⟨0, 100⟩, .frame ⟨true, 0⟩ ⟨true, 0⟩ ⟨1, 117⟩]

/-- **A lost frame.** The second frame takes the slot and the timer of the
first, which is never rendered. -/
theorem delayed_frame_lost : ∃ s, (system.restrict NondecreasingPts).Run (.start 0) aheadTwice s ∧
    s.delayed = [⟨0, 100⟩, ⟨1, 117⟩] ∧ s.sync.pendingFrame = some ⟨1, 117⟩ ∧ s.sync.rendered = [] ∧ ¬ Kept s := by
  refine ⟨_, .cons ⟨rfl, ?_⟩ (.cons ⟨rfl, ?_⟩ (.nil _)), ?_⟩
  · intro g hg
    cases hg
  · intro g hg
    rw [List.mem_singleton.mp hg]
    decide
  · decide +kernel

/-! ## Presentation order -/

/-- Rendered frames by nondecreasing PTS. -/
def Ordered (s : Sys) : Prop := s.sync.rendered.Pairwise (·.pts ≤ ·.pts)

instance (s : Sys) : Decidable (Ordered s) := inferInstanceAs (Decidable (List.Pairwise _ _))

/-- The timer fires only while no frame that arrived after the waiting one has
been rendered. -/
def FiresInTurn (s : Sys) : Lbl → Prop
  | .timer _ => ∀ f g, s.sync.pendingFrame = some f → g ∈ s.sync.rendered → g.id ≤ f.id
  | _ => True

/-- Arrival and PTS agree. -/
def Increasing (s : Sys) : Prop := ∀ f g, f ∈ s.arrived → g ∈ s.arrived → (f.id ≤ g.id ↔ f.pts ≤ g.pts)

theorem pairwise_snoc {f : VideoFrame} {fs : List VideoFrame} :
    (fs ++ [f]).Pairwise (·.pts ≤ ·.pts) ↔ fs.Pairwise (·.pts ≤ ·.pts) ∧ ∀ g, g ∈ fs → g.pts ≤ f.pts := by
  simp [List.pairwise_append]

theorem increasing_arrive {s : Sys} {audio later : Audio} {f : VideoFrame} (hwf : Wf s) (hinc : Increasing s)
    (hid : f.id = s.arrived.length) (hpts : IncreasingPts s (.frame audio later f)) :
    Increasing (s.arrive audio later f) := by
  intro a b ha hb
  rcases List.mem_append.mp ha with ha | ha
  · rcases List.mem_append.mp hb with hb | hb
    · exact hinc a b ha hb
    · rw [List.mem_singleton.mp hb]
      have := hwf.ids a ha
      exact iff_of_true (by omega) (le_of_lt (hpts a ha))
  · rw [List.mem_singleton.mp ha]
    rcases List.mem_append.mp hb with hb | hb
    · have := hwf.ids b hb
      exact iff_of_false (by omega) (not_le_of_gt (hpts b hb))
    · rw [List.mem_singleton.mp hb]
      exact iff_of_true (Nat.le_refl _) (le_refl _)

/-- A frame rendered on arrival is later than every frame before it. -/
theorem ordered_arrive {s : Sys} {audio later : Audio} {f : VideoFrame} (hwf : Wf s) (ho : Ordered s)
    (hpts : IncreasingPts s (.frame audio later f)) : Ordered (s.arrive audio later f) := by
  cases hact : decideSyncAction audio f.pts with
  | render =>
    rw [arrive_render hwf hact]
    exact pairwise_snoc.mpr ⟨ho, fun g hg => le_of_lt (hpts g (hwf.rendered g hg))⟩
  | delay =>
    rw [arrive_delay hwf hact]
    exact ho
  | skip =>
    rw [arrive_skip hact]
    exact ho

theorem ordered_step (s : Sys) (l : Lbl) (s' : Sys) (hwf : Wf s) (hinc : Increasing s) (ho : Ordered s)
    (h : s.step l = some s') (hpts : IncreasingPts s l) :
    Increasing s' ∧ (Ordered s' ↔ FiresInTurn s l) := by
  obtain ⟨t, rfl, rfl⟩ | ⟨audio, later, f, rfl, hid, rfl⟩ | ⟨id, f, rfl, hpending, rfl⟩ := step_cases hwf h
  · exact ⟨hinc, fun _ => trivial, fun _ => ho⟩
  · exact ⟨increasing_arrive hwf hinc hid hpts, fun _ => trivial, fun _ => ordered_arrive hwf ho hpts⟩
  · refine ⟨hinc, ?_⟩
    have hf := hwf.delayed f (hwf.waiting f hpending).1
    constructor
    · intro ho' f' g hf' hg
      rw [hpending] at hf'
      cases hf'
      exact (hinc g f (hwf.rendered g hg) hf).mpr ((pairwise_snoc.mp ho').2 g hg)
    · intro hturn
      refine pairwise_snoc.mpr ⟨ho, fun g hg => ?_⟩
      exact (hinc g f (hwf.rendered g hg) hf).mp (hturn f g hpending hg)

/-- **Presentation order.** With frames by strictly increasing PTS, the
rendered frames are at every moment in order, in exactly the runs whose timer
fires only while no later frame has been rendered. -/
theorem rendered_ordered_iff (clock : ℚ) (ls : List Lbl) (s : Sys) :
    ((system.restrict IncreasingPts).within Ordered).Run (.start clock) ls s ↔
      ((system.restrict IncreasingPts).restrict FiresInTurn).Run (.start clock) ls s := by
  refine Lts.run_within_iff (M := system.restrict IncreasingPts) (J := fun s => Wf s ∧ Increasing s ∧ Ordered s)
    (fun s l s' hJ h => (ordered_step s l s' hJ.1 hJ.2.1 hJ.2.2 h.1 h.2).2) (fun s l s' hJ h hC => ?_)
    ⟨wf_start clock, fun _ _ hf => absurd hf List.not_mem_nil, .nil⟩
  obtain ⟨hinc, ho⟩ := ordered_step s l s' hJ.1 hJ.2.1 hJ.2.2 h.1 h.2
  exact ⟨wf_step s l s' hJ.1 h.1, hinc, ho.mpr hC⟩

/-- A frame 40 ms ahead, and 30 ms later one 27 ms ahead. -/
def overtaking : List Lbl :=
  [.frame ⟨true, 60⟩ ⟨true, 60⟩ ⟨0, 100⟩, .wait 30, .frame ⟨true, 90⟩ ⟨true, 90⟩ ⟨1, 117⟩, .wait 40, .timer 0]

/-- The timer of the first frame is due, the second frame is rendered. -/
def overtaken : Sys where
  sync := ⟨some ⟨0, 100⟩, some 0, true, [(0, 40)], 1, [⟨1, 117⟩]⟩
  now := 40
  clock := 90
  arrived := [⟨0, 100⟩, ⟨1, 117⟩]
  delayed := [⟨0, 100⟩]

/-- **An overtaken frame.** The second frame is rendered on arrival, the first
after it. -/
theorem rendered_out_of_order : ∃ s, (system.restrict IncreasingPts).Run (.start 0) overtaking s ∧
    s.sync.rendered = [⟨1, 117⟩, ⟨0, 100⟩] ∧ ¬ Ordered s := by
  have hwait : (Sys.arrive ⟨true, 90⟩ ⟨true, 90⟩ ⟨1, 117⟩ { Sys.arrive ⟨true, 60⟩ ⟨true, 60⟩ ⟨0, 100⟩ (.start 0) with
      now := 30 }).step (.wait 40) = some overtaken := by decide +kernel
  have htimer : overtaken.step (.timer 0) = some { overtaken with
      sync := ⟨none, none, true, [], 1, [⟨1, 117⟩, ⟨0, 100⟩]⟩ } := by decide +kernel
  refine ⟨_, .cons ⟨rfl, ?_⟩ (.cons ⟨rfl, trivial⟩ (.cons ⟨rfl, ?_⟩ (.cons ⟨hwait, trivial⟩
    (.cons ⟨htimer, trivial⟩ (.nil _))))), rfl, by decide⟩
  · intro g hg
    cases hg
  · intro g hg
    rw [List.mem_singleton.mp hg]
    decide

end WebPlayer.L4.AvSync
