import WebPlayer.L2Machine.TableInvariant

/-!
# What one call does to the table

A call of `frame_protocol_parse` on any bytes, whatever its allocations
return, changes one slot at most: that of the frame id, or the one that
`alloc_fragment_entry` takes when there is none.

* `parse_effect`: the cases of a call that returns.
-/
namespace WebPlayer.L2.TableSteps
open WebPlayer.Core WebPlayer.L1.FrameEncoder WebPlayer.L1.FrameParser WebPlayer.L2.FragmentSlots
  WebPlayer.L2.TableInvariant

/-- The call creates an entry.
mirrors wasm/frame_protocol.c:307-316 -/
structure Creates (g : FragmentTable) (data : Bytes) (h : FixedHeader) (f : ExtFields) : Prop where
  fragment : IsFragment data h f
  total : 1 ≤ f.totalFrags.toNat ∧ f.totalFrags.toNat ≤ 256
  absent : findFragmentEntry g f.frameId = none

/-- What a fragment leaves of the entry that it is filed in: a free slot, or
the entry, which does not count a fragment without a buffer. -/
inductive Kept (m : Mallocs) (e e' : FragmentEntry) : Prop
  | freed (h : e'.active = false)
  | same (active : e'.active = e.active) (frameId : e'.frameId = e.frameId)
      (count : m.fragment = false → e'.receivedCount = e.receivedCount)

/-- What the call does to the table. -/
inductive Effect (m : Mallocs) (g : FragmentTable) (data : Bytes) (g' : FragmentTable) : Prop
  | none (hno : ∀ h f, ¬ Creates g data h f) (hg : g' = g)
  | filed {h : FixedHeader} {f : ExtFields} {k : Nat} {e' : FragmentEntry} (hfrag : IsFragment data h f)
      (hfind : findFragmentEntry g f.frameId = some k) (hkept : Kept m (g.slots.getD k {}) e') (hg : g' = g.set k e')
  | created {h : FixedHeader} {f : ExtFields} {e' : FragmentEntry} (hcreates : Creates g data h f)
      (hkept : Kept m (newEntry m f.frameId f.totalFrags) e') (hg : g' = g.set (allocSlot g) e')

/-! ## Slots -/

theorem getD_set_or (g : FragmentTable) (k j : Nat) (e : FragmentEntry) :
    (g.set k e).slots.getD j {} = g.slots.getD j {} ∨ j = k ∧ (g.set k e).slots.getD j {} = e := by
  by_cases hj : j = k
  · by_cases hk : k < g.slots.length
    · exact .inr ⟨hj, by rw [hj, getD_set (by rw [← g.length_slots]; exact hk)]⟩
    · left
      simp [FragmentTable.set, List.set_eq_of_length_le (Nat.not_lt.mp hk)]
  · left
    simp [FragmentTable.set, List.getD_eq_getElem?_getD, List.getElem?_set_ne (Ne.symm hj)]

/-- The slot of a frame id, found. -/
theorem find_active {g : FragmentTable} {id : UInt16} {k : Nat} (h : findFragmentEntry g id = some k) :
    g.slots.getD k {} ∈ g.slots ∧ (g.slots.getD k {}).active = true ∧ (g.slots.getD k {}).frameId = id := by
  obtain ⟨hk, hp, -⟩ := List.findIdx?_eq_some_iff_getElem.mp h
  simp only [Bool.and_eq_true, beq_iff_eq] at hp
  rw [List.getD_eq_getElem?_getD, List.getElem?_eq_getElem hk, Option.getD_some]
  exact ⟨List.getElem_mem hk, hp⟩

/-- No slot is active under an id that is not found. -/
theorem find_absent {g : FragmentTable} {id : UInt16} (h : findFragmentEntry g id = none) (k : Nat) :
    ¬ ((g.slots.getD k {}).active = true ∧ (g.slots.getD k {}).frameId = id) := by
  rintro ⟨ha, hid⟩
  cases hk : g.slots[k]? with
  | none =>
    rw [List.getD_eq_getElem?_getD, hk] at ha
    cases ha
  | some e =>
    have := List.findIdx?_eq_none_iff.mp h e (List.mem_of_getElem? hk)
    rw [List.getD_eq_getElem?_getD, hk, Option.getD_some] at ha hid
    simp [ha, hid] at this

/-- A new slot has its frame id and counts nothing. -/
theorem newEntry_counts (m : Mallocs) (id n : UInt16) :
    (newEntry m id n).frameId = id ∧ (newEntry m id n).receivedCount = 0 := by
  unfold newEntry
  split <;> exact ⟨rfl, rfl⟩

/-! ## Calls -/

theorem parse_fragment {data : Bytes} {h : FixedHeader} {f : ExtFields} (hf : IsFragment data h f) (m : Mallocs)
    (g : FragmentTable) (r : ParsedFrame) : frameProtocolParse m g r data = parseFragment m g r h f data := by
  rw [frameProtocolParse, hf.header, ok_bind]
  simp only [hf.fields, ok_bind, if_neg hf.flag]

/-- A call that creates an entry files its fragment there, if the first array
could be allocated. -/
theorem parse_creates {g : FragmentTable} {data : Bytes} {h : FixedHeader} {f : ExtFields} (hc : Creates g data h f)
    (m : Mallocs) (r : ParsedFrame) : frameProtocolParse m g r data =
      let g' := g.set (allocSlot g) (newEntry m f.frameId f.totalFrags)
      if m.fragmentData = false then .ok (.error, g', r) else fileFragment m g' r h f data (allocSlot g) := by
  have htotal := hc.total
  have hdata : (newEntry m f.frameId f.totalFrags).fragmentData.isNone = !m.fragmentData := by
    rw [newEntry, if_pos ⟨by omega, htotal.2⟩]
    cases m.fragmentData <;> rfl
  rw [parse_fragment hc.fragment, parseFragment, if_neg (by simp only [MAX_FRAGMENTS]; omega), hc.absent]
  simp only [allocFragmentEntry_eq, getD_set (allocSlot_lt g), hdata, Bool.not_eq_true', pure_eq_ok]

theorem storeFragment_kept {m : Mallocs} {h : FixedHeader} {data : Bytes} {idx : Nat} {e e' : FragmentEntry}
    {stored : Bool} (hs : storeFragment m h data idx e = .ok (stored, e')) :
    e'.active = e.active ∧ e'.frameId = e.frameId ∧ (m.fragment = false → e'.receivedCount = e.receivedCount) := by
  unfold storeFragment at hs
  split at hs
  · obtain ⟨present, -, hs⟩ := bind_eq_ok.mp hs
    split at hs
    · cases hs
      exact ⟨rfl, rfl, fun _ => rfl⟩
    · split at hs
      · rename_i hm
        obtain ⟨piece, -, hs⟩ := bind_eq_ok.mp hs
        obtain ⟨fragmentData, -, hs⟩ := bind_eq_ok.mp hs
        obtain ⟨fragmentSizes, -, hs⟩ := bind_eq_ok.mp hs
        obtain ⟨fragmentPresent, -, hs⟩ := bind_eq_ok.mp hs
        cases hs
        refine ⟨rfl, rfl, fun hno => ?_⟩
        rw [hno] at hm
        cases hm
      · obtain ⟨fragmentData, -, hs⟩ := bind_eq_ok.mp hs
        cases hs
        exact ⟨rfl, rfl, fun _ => rfl⟩
  · cases hs
    exact ⟨rfl, rfl, fun _ => rfl⟩

theorem fileFragment_kept {m : Mallocs} {g g' : FragmentTable} {r r' : ParsedFrame} {h : FixedHeader} {f : ExtFields}
    {data : Bytes} {slot : Nat} {status : FrameParseStatus}
    (hf : fileFragment m g r h f data slot = .ok (status, g', r')) :
    ∃ e', g' = g.set slot e' ∧ Kept m (g.slots.getD slot {}) e' := by
  unfold fileFragment at hf
  obtain ⟨⟨stored, e'⟩, hs, hf⟩ := bind_eq_ok.mp hf
  obtain ⟨hactive, hid, hcount⟩ := storeFragment_kept hs
  have hsame : Kept m (g.slots.getD slot {}) e' := by
    refine .same ?_ ?_ fun hm => ?_
    · rw [hactive]
      split <;> rfl
    · rw [hid]
      split <;> rfl
    · rw [hcount hm]
      split <;> rfl
  simp only at hf
  split at hf
  · cases hf
    exact ⟨_, rfl, hsame⟩
  · split at hf
    · obtain ⟨out, -, hf⟩ := bind_eq_ok.mp hf
      cases out with
      | none =>
        cases hf
        exact ⟨_, rfl, .freed rfl⟩
      | some buf =>
        cases hf
        exact ⟨_, rfl, .freed rfl⟩
    · cases hf
      exact ⟨_, rfl, hsame⟩

theorem parseFragment_effect {m : Mallocs} {g g' : FragmentTable} {r r' : ParsedFrame} {h : FixedHeader} {f : ExtFields}
    {data : Bytes} {status : FrameParseStatus} (hfrag : IsFragment data h f)
    (hp : parseFragment m g r h f data = .ok (status, g', r')) : Effect m g data g' := by
  by_cases hn : f.totalFrags.toNat = 0 ∨ MAX_FRAGMENTS < f.totalFrags.toNat
  · rw [parseFragment_refused hn] at hp
    cases hp
    refine .none (fun h' f' hc => ?_) rfl
    obtain ⟨-, rfl⟩ := IsFragment.unique hfrag hc.fragment
    have := hc.total
    simp only [MAX_FRAGMENTS] at hn
    omega
  · have htotal : 1 ≤ f.totalFrags.toNat ∧ f.totalFrags.toNat ≤ 256 := by
      simp only [MAX_FRAGMENTS] at hn
      omega
    cases hfind : findFragmentEntry g f.frameId with
    | some k =>
      rw [parseFragment, if_neg hn, hfind] at hp
      obtain ⟨e', hg, hkept⟩ := fileFragment_kept hp
      exact .filed hfrag hfind hkept hg
    | none =>
      have hcreates : Creates g data h f := ⟨hfrag, htotal, hfind⟩
      rw [← parse_fragment hfrag, parse_creates hcreates] at hp
      simp only at hp
      split at hp
      · cases hp
        exact .created hcreates (.same rfl rfl fun _ => rfl) rfl
      · obtain ⟨e', hg, hkept⟩ := fileFragment_kept hp
        rw [getD_set (allocSlot_lt g)] at hkept
        exact .created hcreates hkept (by rw [hg, set_set])

/-- **A call** that returns leaves the table alone, files a fragment in the
slot of its frame id, or creates an entry. -/
theorem parse_effect {m : Mallocs} {g g' : FragmentTable} {r r' : ParsedFrame} {data : Bytes} {status : FrameParseStatus}
    (hp : frameProtocolParse m g r data = .ok (status, g', r')) : Effect m g data g' := by
  unfold frameProtocolParse at hp
  obtain ⟨v, hv, hp⟩ := bind_eq_ok.mp hp
  cases v with
  | error s =>
    cases hp
    refine .none (fun h f hc => ?_) rfl
    have := hc.fragment.header
    rw [hv] at this
    cases this
  | ok h =>
    obtain ⟨f, hf, hp⟩ := bind_eq_ok.mp hp
    split at hp
    · rename_i hflag
      obtain ⟨⟨s, r₁⟩, -, hp⟩ := bind_eq_ok.mp hp
      cases hp
      refine .none (fun h' f' hc => ?_) rfl
      have := hc.fragment.header
      rw [hv] at this
      cases this
      exact hc.fragment.flag hflag
    · rename_i hflag
      exact parseFragment_effect ⟨hv, hf, hflag⟩ hp

end WebPlayer.L2.TableSteps
