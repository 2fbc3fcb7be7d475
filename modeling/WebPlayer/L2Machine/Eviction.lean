import WebPlayer.L2Machine.TableSteps

/-!
# Which entry is evicted

With all slots active `alloc_fragment_entry` takes slot 0, "the oldest"
(`wasm/frame_protocol.c:110`). Slots are not kept in order of age, so the
history says which one that is: `History` notes when each entry was created.

Slot 0 is filled again when its frame completes or is evicted. An entry that
was in the table at its last filling, and still is, has `outlived` it.

* `agesOk_step`: which entries are older than that of slot 0.
* `evicts_oldest_iff`: every eviction of a run hits the oldest entry iff none
  has outlived slot 0 at any of them; no other entry is ever changed.
-/
namespace WebPlayer.L2.Eviction
open WebPlayer.Core WebPlayer.L1.FrameEncoder WebPlayer.L1.FrameParser WebPlayer.L2.FragmentSlots
  WebPlayer.L2.TableInvariant WebPlayer.L2.TableSteps

/-! ## Histories -/

structure History where
  table : FragmentTable
  result : ParsedFrame
  /-- The calls so far. -/
  clock : Nat
  /-- When the entry of a slot was created. -/
  born : Nat → Nat
  outlived : Nat → Bool

/-- The headers of an accepted frame with a fragment. -/
def fragmentOf (data : Bytes) : Option (FixedHeader × ExtFields) := do
  let v ← (validateHeader data).toOption
  let h ← v.toOption
  let f ← (parseExtHeaders data h.extLength h.flags h.msgType).toOption
  if h.flags &&& FLAG_FRAGMENT = 0 then none else some (h, f)

/-- The call creates an entry. -/
def creates (g : FragmentTable) (data : Bytes) : Bool :=
  (fragmentOf data).any fun (_, f) =>
    decide ((1 ≤ f.totalFrags.toNat ∧ f.totalFrags.toNat ≤ 256) ∧ findFragmentEntry g f.frameId = none)

def isActive (g : FragmentTable) (k : Nat) : Bool := (g.slots.getD k {}).active

namespace History

def initial : History where
  table := frameProtocolInit
  result := {}
  clock := 0
  born := fun _ => 0
  outlived := fun _ => false

/-- An entry is created in slot `a`. -/
def note (s : History) (a : Nat) : History :=
  { s with
    born := Function.update s.born a s.clock
    outlived := if a = 0 then fun k => isActive s.table k else Function.update s.outlived a false }

/-- A call that returns. -/
def call (s : History) (c : Mallocs × Bytes) : Option History :=
  (frameProtocolParse c.1 s.table s.result c.2).toOption.map fun (_, table, result) =>
    let s := if creates s.table c.2 then s.note (allocSlot s.table) else s
    { s with table, result, clock := s.clock + 1 }

end History

def system : Lts History (Mallocs × Bytes) := .ofFn (· = History.initial) History.call

/-! ## Evicting the oldest -/

/-- No slot is free. -/
def AllActive (g : FragmentTable) : Prop := ∀ k, k < maxEntries → isActive g k = true

/-- The call has to evict. -/
structure Evicts (s : History) (c : Mallocs × Bytes) : Prop where
  creates : creates s.table c.2 = true
  full : AllActive s.table

instance (g : FragmentTable) : Decidable (AllActive g) :=
  inferInstanceAs (Decidable (∀ k, k < maxEntries → isActive g k = true))

instance (s : History) (c : Mallocs × Bytes) : Decidable (Evicts s c) :=
  decidable_of_iff (creates s.table c.2 = true ∧ AllActive s.table) ⟨fun h => ⟨h.1, h.2⟩, fun h => ⟨h.1, h.2⟩⟩

/-- The entry of slot `k` is gone, the others are as they were. -/
structure Discards (g g' : FragmentTable) (k : Nat) : Prop where
  gone : ¬ (isActive g' k = true ∧ (g'.slots.getD k {}).frameId = (g.slots.getD k {}).frameId)
  others : ∀ j, j ≠ k → g'.slots.getD j {} = g.slots.getD j {}

/-- Slot `k` has the entry that was created earliest. -/
def Oldest (s : History) (k : Nat) : Prop :=
  k < maxEntries ∧ ∀ j, j < maxEntries → j ≠ k → s.born k < s.born j

def EvictsOldest (s : History) (c : Mallocs × Bytes) : Prop :=
  ∀ s', s.call c = some s' → Evicts s c → ∃ k, Oldest s k ∧ Discards s.table s'.table k

/-- Every entry that was in the table when slot 0 was last filled has left it
since. -/
def NoneOutlived (s : History) (c : Mallocs × Bytes) : Prop :=
  Evicts s c → ∀ k, k < maxEntries → k ≠ 0 → s.outlived k = false

instance (s : History) (c : Mallocs × Bytes) : Decidable (NoneOutlived s c) :=
  inferInstanceAs (Decidable (Evicts s c → ∀ k, k < maxEntries → k ≠ 0 → s.outlived k = false))

/-! ## One call -/

theorem fragmentOf_eq {data : Bytes} {h : FixedHeader} {f : ExtFields} :
    fragmentOf data = some (h, f) ↔ IsFragment data h f := by
  unfold fragmentOf
  constructor
  · intro heq
    obtain ⟨v, hv, heq⟩ := Option.bind_eq_some_iff.mp heq
    obtain ⟨h', hh, heq⟩ := Option.bind_eq_some_iff.mp heq
    obtain ⟨f', hf, heq⟩ := Option.bind_eq_some_iff.mp heq
    rw [toOption_eq_some.mp hh] at hv
    split at heq
    · cases heq
    · rename_i hflag
      cases heq
      exact ⟨toOption_eq_some.mp hv, toOption_eq_some.mp hf, hflag⟩
  · intro hf
    exact Option.bind_eq_some_iff.mpr ⟨_, toOption_eq_some.mpr hf.header, Option.bind_eq_some_iff.mpr
      ⟨h, toOption_eq_some.mpr rfl, Option.bind_eq_some_iff.mpr ⟨f, toOption_eq_some.mpr hf.fields, if_neg hf.flag⟩⟩⟩

theorem creates_iff {g : FragmentTable} {data : Bytes} : creates g data = true ↔ ∃ h f, Creates g data h f := by
  unfold creates
  rw [Option.any_eq_true]
  constructor
  · rintro ⟨⟨h, f⟩, hfrag, hc⟩
    obtain ⟨htotal, habsent⟩ := of_decide_eq_true hc
    exact ⟨h, f, fragmentOf_eq.mp hfrag, htotal, habsent⟩
  · rintro ⟨h, f, hc⟩
    exact ⟨(h, f), fragmentOf_eq.mpr hc.fragment, decide_eq_true ⟨hc.total, hc.absent⟩⟩

/-- What a call notes. -/
inductive Called (s : History) (c : Mallocs × Bytes) : History → Prop
  | kept {g : FragmentTable} (r : ParsedFrame) (hno : creates s.table c.2 = false)
      (hactive : ∀ k, isActive g k = true → isActive s.table k = true) :
      Called s c { s with table := g, result := r, clock := s.clock + 1 }
  | created {h : FixedHeader} {f : ExtFields} {e' : FragmentEntry} (r : ParsedFrame) (hcreates : Creates s.table c.2 h f)
      (hkept : Kept c.1 (newEntry c.1 f.frameId f.totalFrags) e') :
      Called s c { s.note (allocSlot s.table) with
        table := s.table.set (allocSlot s.table) e', result := r, clock := s.clock + 1 }

theorem called {s s' : History} {c : Mallocs × Bytes} (h : s.call c = some s') : Called s c s' := by
  obtain ⟨⟨status, g, r⟩, hp, rfl⟩ := Option.map_eq_some_iff.mp h
  have hp := toOption_eq_some.mp hp
  simp only
  cases hc : creates s.table c.2 with
  | true =>
    obtain ⟨h, f, hcreates⟩ := creates_iff.mp hc
    cases parse_effect hp with
    | none hno _ => exact absurd hcreates (hno h f)
    | filed hfrag hfind _ _ =>
      obtain ⟨-, rfl⟩ := IsFragment.unique hfrag hcreates.fragment
      have := hcreates.absent
      rw [hfind] at this
      cases this
    | created hcreates hkept hg =>
      subst hg
      exact .created r hcreates hkept
  | false =>
    have hno : ∀ h f, ¬ Creates s.table c.2 h f := fun h f hcreates => by
      rw [creates_iff.mpr ⟨h, f, hcreates⟩] at hc
      cases hc
    refine .kept r hc fun k ha => ?_
    cases parse_effect hp with
    | none _ hg => rwa [hg] at ha
    | @filed _ _ j e' _ hfind _ hg =>
      subst hg
      rcases getD_set_or s.table j k e' with hsame | ⟨rfl, -⟩
      · rwa [isActive, hsame] at ha
      · exact (find_active hfind).2.1
    | created hcreates _ _ => exact absurd hcreates (hno _ _)

/-! ## Ages -/

/-- Entries are created one at a time; those that are older than that of slot
0 have outlived it. -/
structure AgesOk (s : History) : Prop where
  past : ∀ k, isActive s.table k = true → s.born k < s.clock
  distinct : ∀ j k, isActive s.table j = true → isActive s.table k = true → s.born j = s.born k → j = k
  outlived : isActive s.table 0 = true → ∀ k, k ≠ 0 → isActive s.table k = true →
    (s.outlived k = true ↔ s.born k < s.born 0)

theorem isActive_init (k : Nat) : isActive frameProtocolInit k = false := by
  have hfree : ∀ e, e ∈ frameProtocolInit.slots → e.active = false := fun e he => by
    rw [List.eq_of_mem_replicate he]
  unfold isActive
  cases hk : frameProtocolInit.slots[k]? with
  | none => rw [List.getD_eq_getElem?_getD, hk]; rfl
  | some e => rw [List.getD_eq_getElem?_getD, hk]; exact hfree e (List.mem_of_getElem? hk)

theorem agesOk_initial : AgesOk History.initial := by
  have hfree : ∀ k, ¬ isActive History.initial.table k = true := fun k => by
    rw [show History.initial.table = frameProtocolInit from rfl, isActive_init]
    nofun
  exact ⟨fun k ha => absurd ha (hfree k), fun j _ ha => absurd ha (hfree j), fun ha => absurd ha (hfree 0)⟩

/-- Without a creation entries only leave. -/
theorem agesOk_kept {s : History} (hs : AgesOk s) {g : FragmentTable} (r : ParsedFrame)
    (hactive : ∀ k, isActive g k = true → isActive s.table k = true) :
    AgesOk { s with table := g, result := r, clock := s.clock + 1 } where
  past k ha := Nat.lt_succ_of_lt (hs.past k (hactive k ha))
  distinct j k hj hk := hs.distinct j k (hactive j hj) (hactive k hk)
  outlived h0 k hk ha := hs.outlived (hactive 0 h0) k hk (hactive k ha)

/-- A created entry is the youngest. -/
theorem agesOk_note {s : History} (hs : AgesOk s) (a : Nat) {g : FragmentTable} (r : ParsedFrame)
    (hactive : ∀ k, k ≠ a → isActive g k = true → isActive s.table k = true) :
    AgesOk { s.note a with table := g, result := r, clock := s.clock + 1 } := by
  have hborn : ∀ k, k ≠ a → (s.note a).born k = s.born k := fun k hk => Function.update_of_ne hk ..
  have hnew : (s.note a).born a = s.clock := Function.update_self ..
  refine ⟨fun k ha => ?_, fun j k hj hk hjk => ?_, fun h0 k hk ha => ?_⟩
  · show (s.note a).born k < s.clock + 1
    by_cases hka : k = a
    · rw [hka, hnew]
      omega
    · have := hs.past k (hactive k hka ha)
      rw [hborn k hka]
      omega
  · replace hjk : (s.note a).born j = (s.note a).born k := hjk
    by_cases hja : j = a <;> by_cases hka : k = a
    · rw [hja, hka]
    · have := hs.past k (hactive k hka hk)
      rw [hja, hnew, hborn k hka] at hjk
      omega
    · have := hs.past j (hactive j hja hj)
      rw [hka, hnew, hborn j hja] at hjk
      omega
    · rw [hborn j hja, hborn k hka] at hjk
      exact hs.distinct j k (hactive j hja hj) (hactive k hka hk) hjk
  · show (s.note a).outlived k = true ↔ (s.note a).born k < (s.note a).born 0
    by_cases ha0 : a = 0
    · -- slot 0 is filled: all the others were there
      subst ha0
      have hwas := hactive k hk ha
      have hpast := hs.past k hwas
      have hout : (s.note 0).outlived k = true := hwas
      rw [hborn k hk, hnew]
      exact ⟨fun _ => hpast, fun _ => hout⟩
    · have h0' := hactive 0 (Ne.symm ha0) h0
      have hout : (s.note a).outlived = Function.update s.outlived a false := if_neg ha0
      by_cases hka : k = a
      · have := hs.past 0 h0'
        rw [hka, hout, Function.update_self, hnew, hborn 0 (Ne.symm ha0)]
        exact ⟨nofun, fun hlt => by omega⟩
      · rw [hout, Function.update_of_ne hka, hborn k hka, hborn 0 (Ne.symm ha0)]
        exact hs.outlived h0' k hk (hactive k hka ha)

theorem agesOk_step {s s' : History} {c : Mallocs × Bytes} (hs : AgesOk s) (h : system.step s c s') : AgesOk s' := by
  cases called h with
  | kept r _ hactive => exact agesOk_kept hs r hactive
  | @created _ _ e' r _ _ =>
    refine agesOk_note hs _ r fun k hk ha => ?_
    rcases getD_set_or s.table (allocSlot s.table) k e' with hsame | ⟨rfl, -⟩
    · rwa [isActive, hsame] at ha
    · exact absurd rfl hk

/-! ## Evictions -/

theorem allocSlot_full {g : FragmentTable} (h : AllActive g) : allocSlot g = 0 := by
  have hnone : g.slots.findIdx? (fun e => !e.active) = none := by
    refine List.findIdx?_eq_none_iff.mpr fun e he => ?_
    obtain ⟨k, hk⟩ := List.mem_iff_getElem?.mp he
    obtain ⟨hlt, -⟩ := List.getElem?_eq_some_iff.mp hk
    have ha := h k (by rw [← g.length_slots]; exact hlt)
    rw [isActive, List.getD_eq_getElem?_getD, hk, Option.getD_some] at ha
    rw [ha]
    rfl
  rw [allocSlot, hnone]
  rfl

/-- **An eviction** discards the entry of slot 0 and changes no other. -/
theorem discards_first {s s' : History} {c : Mallocs × Bytes} (h : s.call c = some s') (hev : Evicts s c) :
    Discards s.table s'.table 0 := by
  cases called h with
  | kept r hno _ =>
    rw [hev.creates] at hno
    cases hno
  | @created _ f e' r hcreates hkept =>
    rw [allocSlot_full hev.full]
    refine ⟨fun ⟨ha, hid⟩ => ?_, fun j hj => ?_⟩
    · rw [isActive, getD_set (by decide)] at ha
      rw [getD_set (by decide)] at hid
      cases hkept with
      | freed hfree => rw [hfree] at ha; cases ha
      | same _ hid' _ =>
        -- the new frame id is not that of any slot
        rw [hid', (newEntry_counts ..).1] at hid
        exact find_absent hcreates.absent 0 ⟨hev.full 0 (by decide), hid.symm⟩
    · exact (getD_set_or s.table 0 j e').resolve_right fun hj' => hj hj'.1

/-- Only the entry of slot 0 goes. -/
theorem discards_unique {g g' : FragmentTable} (h : Discards g g' 0) (ha : isActive g 0 = true) {k : Nat}
    (hk : Discards g g' k) : k = 0 := by
  by_contra hne
  have hsame := hk.others 0 (Ne.symm hne)
  exact h.gone ⟨by rw [isActive, hsame]; exact ha, by rw [hsame]⟩

theorem oldest_iff {s : History} (hs : AgesOk s) (hfull : AllActive s.table) :
    Oldest s 0 ↔ ∀ k, k < maxEntries → k ≠ 0 → s.outlived k = false := by
  have h0 : isActive s.table 0 = true := hfull 0 (by decide)
  constructor
  · rintro ⟨-, hold⟩ k hlt hk
    have hyoung := hold k hlt hk
    refine Bool.eq_false_iff.mpr fun hout => ?_
    have := (hs.outlived h0 k hk (hfull k hlt)).mp hout
    omega
  · refine fun hnone => ⟨by decide, fun k hlt hk => ?_⟩
    have hnot : ¬ s.born k < s.born 0 := fun hborn => by
      have hout := (hs.outlived h0 k hk (hfull k hlt)).mpr hborn
      rw [hnone k hlt hk] at hout
      cases hout
    have hne : s.born k ≠ s.born 0 := fun heq => hk (hs.distinct k 0 (hfull k hlt) h0 heq)
    omega

theorem evictsOldest_iff {s s' : History} {c : Mallocs × Bytes} (hs : AgesOk s) (h : system.step s c s') :
    EvictsOldest s c ↔ NoneOutlived s c := by
  constructor
  · intro hold hev
    obtain ⟨k, hk, hdis⟩ := hold s' h hev
    have hk0 := discards_unique (discards_first h hev) (hev.full 0 (by decide)) hdis
    exact (oldest_iff hs hev.full).mp (hk0 ▸ hk)
  · intro hnone s'' h' hev
    exact ⟨0, (oldest_iff hs hev.full).mpr (hnone hev), discards_first h' hev⟩

/-- **Eviction.** In every run, the evictions all hit the oldest entry iff at
none of them an entry has outlived slot 0; they always hit slot 0, and leave
the other entries as they are. -/
theorem evicts_oldest_iff {s₀ s : History} {calls : List (Mallocs × Bytes)} (h0 : system.init s₀) :
    ((system.restrict EvictsOldest).Run s₀ calls s ↔ (system.restrict NoneOutlived).Run s₀ calls s) ∧
    (system.Run s₀ calls s → ∀ c s', system.step s c s' → Evicts s c → Discards s.table s'.table 0) := by
  have hinit : AgesOk s₀ := by
    rw [show s₀ = History.initial from h0]
    exact agesOk_initial
  exact ⟨Lts.run_restrict_congr (J := AgesOk) (fun _ _ _ hs h => evictsOldest_iff hs h)
    (fun _ _ _ hs h _ => agesOk_step hs h) hinit, fun _ c s' h hev => discards_first h hev⟩

/-- Fragment 1 of 2 of a frame. -/
def half (id : UInt8) : Mallocs × Bytes :=
  ({}, [0xEB, 0x01, 0x01, 0x01, 0x01, 0, 0, 0, 0, 0, 0, 0, 0, 6, 0, 0, 0, 1, 0, 0, 0, id, 0, 1, 0, 2, 7])

def halves (n : Nat) : List (Mallocs × Bytes) := (List.range n).map fun i => half (UInt8.ofNat i)

/-- The history of `n` incomplete frames, if no eviction hits a younger one. -/
def afterHalves (n : Nat) : Option History := (halves n).foldlM (Lts.guarded NoneOutlived History.call) .initial

/-- The seventeenth evicts the first. -/
theorem evicts_oldest_iff_seventeen : ∃ s, afterHalves 17 = some s ∧
    (system.restrict EvictsOldest).Run .initial (halves 17) s := by
  obtain ⟨s, hs⟩ := Option.isSome_iff_exists.mp (show (afterHalves 17).isSome = true by decide +kernel)
  exact ⟨s, hs, (evicts_oldest_iff rfl).1.mpr (Lts.run_guarded hs)⟩

/-- The eighteenth evicts the seventeenth, the newest of all. -/
theorem newest_evicted : ∃ s s', system.Reachable s ∧ system.step s (half 17) s' ∧ Evicts s (half 17) ∧
    (∀ k, k < maxEntries → k ≠ 0 → s.born k < s.born 0) ∧ Discards s.table s'.table 0 ∧ ¬ EvictsOldest s (half 17) := by
  have hex : (afterHalves 17).any (fun s => decide ((s.call (half 17)).isSome = true ∧ Evicts s (half 17) ∧
      ∀ k, k < maxEntries → k ≠ 0 → s.born k < s.born 0)) = true := by decide +kernel
  obtain ⟨s, hs, hp⟩ := (Option.any_eq_true ..).mp hex
  obtain ⟨hcall, hev, hnew⟩ := of_decide_eq_true hp
  obtain ⟨s', h⟩ := Option.isSome_iff_exists.mp hcall
  have hreach : system.Reachable s := ⟨.initial, halves 17, rfl, (Lts.run_guarded hs).of_restrict⟩
  have hdis := discards_first h hev
  refine ⟨s, s', hreach, h, hev, hnew, hdis, fun hold => ?_⟩
  obtain ⟨k, hk, hdis'⟩ := hold s' h hev
  rw [discards_unique hdis (hev.full 0 (by decide)) hdis'] at hk
  have hyoung := hk.2 1 (by decide) (by decide)
  have holder := hnew 1 (by decide) (by decide)
  omega

end WebPlayer.L2.Eviction
