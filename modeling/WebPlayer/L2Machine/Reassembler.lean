import WebPlayer.L2Machine.FragmentSlots

/-!
# Reassembly as a partial map

What the slot table is for: under each frame id, the call being received
and the indices that are in. `Represents` ties the 16 slots to such a map.

* `parse_known`: a fragment of a call that is filed adds its index, and the
  last one returns the frame and clears the id.
* `parse_new`: a fragment of an id that is not filed opens it; if no slot is
  free another id is lost.
* `parse_known_any`, `parse_new_any`: the same steps when allocations may
  fail. A slot may then be broken, and a fragment for it may be undefined
  behaviour.
-/
namespace WebPlayer.L2.Reassembler
open WebPlayer.Core WebPlayer.L1.FrameEncoder WebPlayer.L1.FrameParser WebPlayer.L2.FragmentSlots

/-- The call filed under an id, with the indices received. -/
abbrev Filed := UInt16 → Option (EncodeCall × Finset Nat)

/-- The slot has exactly the fragments `S` of `c`. -/
def Receiving : EncodeCall × Finset Nat → FragmentEntry → Prop := fun (c, S) e =>
  ∃ info, e = entryOf c S info ∧ (0 ∈ S → info = callInfo c)

/-- The same, or its arrays could not be allocated. -/
def ReceivingOrBroken : EncodeCall × Finset Nat → FragmentEntry → Prop := fun (c, S) e =>
  Receiving (c, S) e ∨ S = ∅ ∧ Broken c e

def Represents (holds : EncodeCall × Finset Nat → FragmentEntry → Prop) (g : FragmentTable) (A : Filed) : Prop :=
  (view holds).Represents g.slots A

theorem represents_init (holds : EncodeCall × Finset Nat → FragmentEntry → Prop) :
    Represents holds frameProtocolInit fun _ => none :=
  SlotView.represents_replicate (V := view holds) rfl maxEntries

section
variable {holds : EncodeCall × Finset Nat → FragmentEntry → Prop} {g : FragmentTable} {A : Filed}
  (h : Represents holds g A) {c : EncodeCall}
include h

theorem find_of_filed {S : Finset Nat} (hA : A c.frameId = some (c, S)) :
    ∃ k e, findFragmentEntry g c.frameId = some k ∧ g.slots[k]? = some e ∧ e.active = true ∧
      e.frameId = c.frameId ∧ holds (c, S) e :=
  SlotView.Represents.find_of_some h hA

theorem find_of_not_filed (hA : A c.frameId = none) : findFragmentEntry g c.frameId = none :=
  SlotView.Represents.find_of_none h hA

/-- Overwriting the slot of `c`. -/
theorem represents_refile {k : Nat} {e : FragmentEntry} (hslot : g.slots[k]? = some e) (ha : e.active = true)
    (hid : e.frameId = c.frameId) (e' : FragmentEntry) (ha' : e'.active = true) (hid' : e'.frameId = c.frameId)
    {S : Finset Nat} (hS : holds (c, S) e') :
    Represents holds (g.set k e') (Function.update A c.frameId (some (c, S))) := by
  have hrep := SlotView.Represents.replace h hslot ha e' ha' (hid'.trans hid.symm) hS
  rwa [show (view holds).key e = c.frameId from hid] at hrep

/-- Freeing the slot of `c`. -/
theorem represents_free {k : Nat} {e : FragmentEntry} (hslot : g.slots[k]? = some e) (ha : e.active = true)
    (hid : e.frameId = c.frameId) (e' : FragmentEntry) (he' : e'.active = false) :
    Represents holds (g.set k e') (Function.update A c.frameId none) := by
  have hfree := SlotView.Represents.free h hslot e' he'
  rwa [SlotView.forget, if_pos (show (view holds).active e = true from ha),
    show (view holds).key e = c.frameId from hid] at hfree

/-- Opening the id of `c` in the slot that `alloc_fragment_entry` takes. -/
theorem represents_alloc (hA : A c.frameId = none) (e' : FragmentEntry) (ha : e'.active = true)
    (hid : e'.frameId = c.frameId) {S : Finset Nat} (hS : holds (c, S) e') :
    ∃ A₀ : Filed, Represents holds (g.set (allocSlot g) e') (Function.update A₀ c.frameId (some (c, S))) ∧
      (∀ id, A₀ id = none ∨ A₀ id = A id) ∧
      ((∃ ids : List UInt16, (∀ id, A id ≠ none → id ∈ ids) ∧ ids.length < 16) → A₀ = A) := by
  obtain ⟨e, he⟩ := allocSlot_get g
  have hput := SlotView.Represents.put_new h he e' ha (by rw [← hid] at hA; exact hA) hS
  refine ⟨(view holds).forget A e, by rw [← hid]; exact hput, SlotView.forget_none_or A e, ?_⟩
  rintro ⟨ids, hids, hlen⟩
  obtain ⟨t, ht⟩ := SlotView.Represents.exists_free h hids (by rw [g.length_slots]; exact hlen)
  obtain ⟨e₁, he₁, hfree⟩ := SlotView.firstFree_some ht
  have hslot : allocSlot g = t := congrArg (·.getD 0) ht
  rw [hslot, he₁] at he
  cases he
  exact if_neg (by rw [hfree]; decide)

end

theorem receiving_infoAfter {c : EncodeCall} {S : Finset Nat} {info : FrameMeta}
    (hinfo : 0 ∈ S → info = callInfo c) (i : Nat) :
    Receiving (c, insert i S) (entryOf c (insert i S) (infoAfter c i info)) ∧
      Receiving (c, S) (entryOf c S (infoAfter c i info)) := by
  have hkeep : (0 ∈ insert i S → infoAfter c i info = callInfo c) := by
    intro h0
    unfold infoAfter
    split
    · rfl
    · rename_i hi0; exact hinfo ((Finset.mem_insert.mp h0).resolve_left (Ne.symm hi0))
  exact ⟨⟨_, rfl, hkeep⟩, ⟨_, rfl, fun h0 => hkeep (Finset.mem_insert_of_mem h0)⟩⟩

section
variable {g : FragmentTable} {A : Filed} {c : EncodeCall} (hc : Splits c) {i : Nat} (hi : i < fragments c)
  {S : Finset Nat} (m : Mallocs) (r : ParsedFrame)
include hc hi

/-- **A fragment of a filed call**, allocations succeeding. -/
theorem parse_known (h : Represents Receiving g A) (hA : A c.frameId = some (c, S))
    (hS : S ⊆ Finset.range (fragments c)) (hiS : i ∉ S) :
    if insert i S = Finset.range (fragments c) then
      ∃ g', frameProtocolParse {} g r (fragmentFrame c i) = .ok (.complete, g', callFrame c) ∧
        Represents Receiving g' (Function.update A c.frameId none)
    else ∃ g', frameProtocolParse {} g r (fragmentFrame c i) = .ok (.fragmentPending, g', r) ∧
        Represents Receiving g' (Function.update A c.frameId (some (c, insert i S))) := by
  obtain ⟨k, e, hk, hslot, ha, hid, info, rfl, hinfo⟩ := find_of_filed h hA
  have hstep := deliver_known hc hi {} g r hS hiS hinfo hk hslot
  rw [afterFragment, if_neg (by decide)] at hstep
  split
  · rename_i hfull
    rw [if_pos hfull] at hstep
    exact ⟨_, hstep, represents_free h hslot ha hid _ rfl⟩
  · rename_i hfull
    rw [if_neg hfull] at hstep
    exact ⟨_, hstep, represents_refile h hslot ha hid _ rfl rfl (receiving_infoAfter hinfo i).1⟩

/-- **A fragment of an id that is not filed**, allocations succeeding and a
slot being free. -/
theorem parse_new (h : Represents Receiving g A) (hA : A c.frameId = none)
    (hroom : ∃ ids : List UInt16, (∀ id, A id ≠ none → id ∈ ids) ∧ ids.length < 16) :
    ∃ g', frameProtocolParse {} g r (fragmentFrame c i) = .ok (.fragmentPending, g', r) ∧
      Represents Receiving g' (Function.update A c.frameId (some (c, {i}))) := by
  obtain ⟨A₀, hg', -, hA₀⟩ := represents_alloc h hA (entryOf c {i} (infoAfter c i {})) rfl rfl
    (receiving_infoAfter (S := ∅) (by simp) i).1
  obtain rfl := hA₀ hroom
  exact ⟨_, deliver_new hc hi {} g r (find_of_not_filed h hA) rfl, hg'⟩

/-- A fragment of a filed call, whatever the allocations return. -/
theorem parse_known_any (h : Represents ReceivingOrBroken g A) (hA : A c.frameId = some (c, S))
    (hS : S ⊆ Finset.range (fragments c)) (hiS : i ∉ S) :
    frameProtocolParse m g r (fragmentFrame c i) = .error .nullPointer ∨
      ∃ status g' r' v, frameProtocolParse m g r (fragmentFrame c i) = .ok (status, g', r') ∧
        Represents ReceivingOrBroken g' (Function.update A c.frameId v) ∧
        (status = .complete → r' = callFrame c) ∧
        (∀ c' S', v = some (c', S') → c' = c ∧ S' ⊆ insert i S) ∧
        (v = none → insert i S = Finset.range (fragments c)) := by
  obtain ⟨k, e, hk, hslot, ha, hid, ⟨info, rfl, hinfo⟩ | ⟨rfl, hbroken⟩⟩ := find_of_filed h hA
  · right
    have hstep := deliver_known hc hi m g r hS hiS hinfo hk hslot
    have hrec := receiving_infoAfter hinfo i
    unfold afterFragment at hstep
    by_cases hm : m.fragment = false
    · rw [if_pos hm] at hstep
      refine ⟨_, _, _, some (c, S), hstep,
        represents_refile h hslot ha hid _ rfl rfl (.inl hrec.2), nofun, ?_, nofun⟩
      rintro c' S' ⟨rfl, rfl⟩
      exact ⟨rfl, Finset.subset_insert _ _⟩
    · rw [if_neg hm] at hstep
      by_cases hfull : insert i S = Finset.range (fragments c)
      · have hfree := represents_free h hslot ha hid
          (freeFragmentEntry (entryOf c (Finset.range (fragments c)) (infoAfter c i info))) rfl
        rw [if_pos hfull] at hstep
        by_cases hre : m.reassembled = true
        · rw [if_pos hre] at hstep
          exact ⟨_, _, _, none, hstep, hfree, fun _ => rfl, nofun, fun _ => hfull⟩
        · rw [if_neg hre] at hstep
          exact ⟨_, _, _, none, hstep, hfree, nofun, nofun, fun _ => hfull⟩
      · rw [if_neg hfull] at hstep
        refine ⟨_, _, _, some (c, insert i S), hstep,
          represents_refile h hslot ha hid _ rfl rfl (.inl hrec.1), nofun, ?_, nofun⟩
        rintro c' S' ⟨rfl, rfl⟩
        exact ⟨rfl, Finset.Subset.refl _⟩
  · rcases deliver_broken hc hi m g r hk hslot hbroken with hp | ⟨e', he', hp⟩
    · exact .inl hp
    · obtain ⟨m', info, rfl, hm'⟩ := he'
      refine .inr ⟨_, _, _, some (c, ∅), hp, represents_refile h hslot ha hid _ (by rw [newEntry_eq hc])
        (by rw [newEntry_eq hc]) (.inr ⟨rfl, m', info, rfl, hm'⟩), nofun, ?_, nofun⟩
      rintro c' S' ⟨rfl, rfl⟩
      exact ⟨rfl, Finset.empty_subset _⟩

/-- A fragment of an id that is not filed, whatever the allocations return. -/
theorem parse_new_any (h : Represents ReceivingOrBroken g A) (hA : A c.frameId = none) :
    frameProtocolParse m g r (fragmentFrame c i) = .error .nullPointer ∨
      ∃ status g' A₀ S', frameProtocolParse m g r (fragmentFrame c i) = .ok (status, g', r) ∧
        status ≠ .complete ∧ S' ⊆ {i} ∧
        Represents ReceivingOrBroken g' (Function.update A₀ c.frameId (some (c, S'))) ∧
        ∀ id, A₀ id = none ∨ A₀ id = A id := by
  have hfind := find_of_not_filed h hA
  have hrec := @receiving_infoAfter c ∅ {} (by simp) i
  cases hm : m.fragmentData && m.fragmentSizes && m.fragmentPresent with
  | true =>
    right
    have hstep := deliver_new hc hi m g r hfind hm
    by_cases hf : m.fragment = true
    · rw [if_pos hf] at hstep
      obtain ⟨A₀, hg', hA₀, -⟩ := represents_alloc h hA (entryOf c {i} (infoAfter c i {})) rfl rfl
        (.inl hrec.1)
      exact ⟨_, _, A₀, {i}, hstep, nofun, Finset.Subset.refl _, hg', hA₀⟩
    · rw [if_neg hf] at hstep
      obtain ⟨A₀, hg', hA₀, -⟩ := represents_alloc h hA (entryOf c ∅ (infoAfter c i {})) rfl rfl
        (.inl hrec.2)
      exact ⟨_, _, A₀, ∅, hstep, nofun, Finset.empty_subset _, hg', hA₀⟩
  | false =>
    rcases deliver_new_broken hc hi m g r hfind hm with hp | ⟨e', ⟨m', info, rfl, hm'⟩, hp⟩
    · exact .inl hp
    · obtain ⟨A₀, hg', hA₀, -⟩ := represents_alloc h hA
        { newEntry m' c.frameId (totalFragments c.payload) with info }
        (by rw [newEntry_eq hc]) (by rw [newEntry_eq hc]) (.inr ⟨rfl, m', info, rfl, hm'⟩)
      exact .inr ⟨_, _, A₀, ∅, hp, nofun, Finset.empty_subset _, hg', hA₀⟩

end

end WebPlayer.L2.Reassembler
