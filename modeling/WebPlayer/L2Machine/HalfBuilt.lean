import WebPlayer.L2Machine.TableSteps

/-!
# Half-built entries

`alloc_fragment_entry` marks a slot active and then makes three `calloc`s; its
caller looks at the first of them only, and leaves the slot active either way
(`wasm/frame_protocol.c:117-126`, `316-318`).

* `fileFragment_held`: a fragment on a slot that has its arrays, whatever the
  allocations return.
* `allocations_whole_iff`: no entry lacks an array iff every call that creates
  one gets all three; the other allocations may fail.
-/
namespace WebPlayer.L2.HalfBuilt
open WebPlayer.Core WebPlayer.L1.FrameEncoder WebPlayer.L1.FrameParser WebPlayer.L2.FragmentSlots WebPlayer.L2.PieceSlots
  WebPlayer.L2.TableInvariant WebPlayer.L2.TableSteps

/-! ## Entries with their arrays -/

structure Allocated (e : FragmentEntry) : Prop where
  fragmentData : e.fragmentData ≠ none
  fragmentSizes : e.fragmentSizes ≠ none
  fragmentPresent : e.fragmentPresent ≠ none

/-- Every active entry has its arrays. -/
def Whole (g : FragmentTable) : Prop := ∀ e, e ∈ g.slots → e.active = true → Allocated e

/-- The fragments that slot entry `e` counts for the frame `id`. -/
def countFor (e : FragmentEntry) (id : UInt16) : UInt16 :=
  if e.active = true ∧ e.frameId = id then e.receivedCount else 0

/-- Any inputs, whatever the allocations return. -/
def system : Lts State (Mallocs × Bytes) where
  init s := s.table = frameProtocolInit
  step s call s' := ∃ status, frameProtocolParse call.1 s.table s.result call.2 = .ok (status, s'.table, s'.result)

/-- The three `calloc`s succeed if the call makes them. -/
def CallocsSucceed (s : State) (call : Mallocs × Bytes) : Prop :=
  ∀ h f, Creates s.table call.2 h f →
    (call.1.fragmentData && call.1.fragmentSizes && call.1.fragmentPresent) = true

/-! ## Headers -/

section
variable (data : Bytes)

theorem never_readInput (off len : Nat) : Never .nullPointer (readInput data off len) := by
  unfold readInput
  split
  · exact .ok _
  · nofun

theorem never_readByte (off : Nat) : Never .nullPointer (readByte data off) := by
  unfold readByte
  split
  · exact .ok _
  · nofun

theorem never_readBe16 (off : Nat) : Never .nullPointer (readBe16 data off) := .map (never_readInput data off 2)

theorem never_readBe64 (off : Nat) : Never .nullPointer (readBe64 data off) := .map (never_readInput data off 8)

theorem never_validateHeader : Never .nullPointer (validateHeader data) := by
  unfold validateHeader
  simp only
  split
  · exact .pure _
  · refine .bind (never_readBe16 data 0) fun magic _ => ?_
    split
    · exact .pure _
    · refine .bind (never_readByte data 2) fun version _ => ?_
      split
      · exact .pure _
      · refine .bind ?_ fun h _ => ?_
        · exact .bind (never_readByte data 3) fun _ _ => .bind (never_readByte data 4) fun _ _ =>
            .bind (never_readBe64 data 5) fun _ _ => .bind (never_readByte data 13) fun _ _ =>
            .bind (.map (never_readInput data 14 4)) fun _ _ => .pure _
        · split <;> exact .pure _

theorem never_parseFragmentLayer (ext flags : UInt8) (f : ExtFields) :
    Never .nullPointer (parseFragmentLayer data ext flags f) := by
  unfold parseFragmentLayer
  split
  · exact .bind (never_readBe16 data _) fun _ _ => .bind (never_readBe16 data _) fun _ _ =>
      .bind (never_readBe16 data _) fun _ _ => .pure _
  · exact .pure _

theorem never_parseCommonLayer (ext flags offset : UInt8) (f : ExtFields) :
    Never .nullPointer (parseCommonLayer data ext flags offset f) := by
  unfold parseCommonLayer
  split
  · refine .bind (never_readByte data _) fun _ _ => .bind (never_readByte data _) fun _ _ => ?_
    split
    · exact .bind (never_readBe64 data _) fun _ _ => .pure _
    · exact .pure _
  · exact .pure _

theorem never_parseTypeLayer (ext msgType offset : UInt8) (f : ExtFields) :
    Never .nullPointer (parseTypeLayer data ext msgType offset f) := by
  unfold parseTypeLayer
  split
  · exact .bind (never_readByte data _) fun _ _ => .bind (never_readByte data _) fun _ _ =>
      .bind (never_readBe16 data _) fun _ _ => .pure _
  · split
    · exact .bind (never_readByte data _) fun _ _ => .bind (never_readByte data _) fun _ _ =>
        .bind (never_readByte data _) fun _ _ => .pure _
    · exact .pure _

theorem never_parseExtHeaders (ext flags msgType : UInt8) : Never .nullPointer (parseExtHeaders data ext flags msgType) :=
  .bind (never_parseFragmentLayer data ext flags {}) fun _ _ =>
    .bind (never_parseCommonLayer data ext flags _ _) fun _ _ => never_parseTypeLayer data ext msgType _ _

theorem never_payload (h : FixedHeader) : Never .nullPointer (h.payload data) := never_readInput data _ _

theorem never_parseSingle (m : Mallocs) (h : FixedHeader) (f : ExtFields) : Never .nullPointer (parseSingle m h f data) := by
  unfold parseSingle
  simp only
  split
  · split
    · exact .bind (never_payload data h) fun _ _ => .pure _
    · exact .pure _
  · exact .pure _

end

/-! ## A slot with its arrays -/

/-- A slot is free or stands for an incomplete frame. -/
def Holds (e : FragmentEntry) : Prop := e.active = true → ∃ x, e = slotOf e.frameId x ∧ ¬ x.Full

def Held (g : FragmentTable) : Prop := ∀ e, e ∈ g.slots → Holds e

theorem holds_free {e : FragmentEntry} (h : e.active = false) : Holds e := by
  intro ha
  rw [h] at ha
  cases ha

theorem Held.whole {g : FragmentTable} (h : Held g) : Whole g := by
  intro e hmem ha
  obtain ⟨x, he, -⟩ := h e hmem ha
  rw [he]
  exact ⟨nofun, nofun, nofun⟩

theorem Held.set {g : FragmentTable} (h : Held g) {e : FragmentEntry} (he : Holds e) (k : Nat) : Held (g.set k e) := by
  intro e' hmem
  rcases List.mem_or_eq_of_mem_set hmem with hmem | rfl
  · exact h e' hmem
  · exact he

section
variable (m : Mallocs) (h : FixedHeader) (data : Bytes)

/-- A fragment whose place stays empty leaves the frame incomplete. -/
theorem storeFragment_held (id : UInt16) (idx : Nat) (x : Partial) (info : FrameMeta) :
    Ensures .nullPointer (storeFragment m h data idx (slotOf id (x.setInfo idx info)))
      fun out => ∃ y, out.2 = slotOf id y ∧ (out.1 = false → ¬ y.Full) := by
  rw [storeFragment_slot]
  split
  · rename_i hplace
    split
    · exact .map (never_payload data h).ensures fun _ _ => ⟨_, rfl, nofun⟩
    · exact .ok ⟨_, rfl, fun _ hfull => hfull (List.mem_of_getElem? hplace)⟩
  · exact .ok ⟨_, rfl, nofun⟩

theorem never_reassemble {e : FragmentEntry} {pieces : List Bytes} (hp : Pieces e pieces) :
    Never .nullPointer (reassembleFragments m e) := by
  unfold reassembleFragments
  rw [hp.total]
  refine .bind (.foldlM (fun total k hk => .map ?_) _) fun total _ => ?_
  · rw [hp.size k (List.mem_range.mp hk)]
    exact .ok _
  · split
    · refine .bind (.foldlM (fun buf k hk => ?_) _) fun _ _ => .pure _
      have hk := List.mem_range.mp hk
      rw [copyFragment, hp.data k hk, ok_bind, hp.size k hk, ok_bind]
      simp only
      split
      · exact .ok _
      · intro h
        cases h
    · exact .pure _

/-- **A fragment** on a slot with its arrays. -/
theorem fileFragment_held {g : FragmentTable} (hg : Held g) (r : ParsedFrame) (f : ExtFields) {slot : Nat} {id : UInt16}
    {x : Partial} (hslot : g.slots.getD slot {} = slotOf id x) :
    Ensures .nullPointer (fileFragment m g r h f data slot) fun out => Held out.2.1 := by
  unfold fileFragment
  simp only [hslot, setInfo_slotOf]
  refine .bind (storeFragment_held m h data id _ x _) fun out _ hout => ?_
  obtain ⟨stored, e⟩ := out
  obtain ⟨y, rfl, hopen⟩ := hout
  simp only [slotOf_total, slotOf_received, full_iff]
  split
  · rename_i hstored
    exact .pure (hg.set (fun _ => ⟨y, rfl, hopen (by simpa using hstored)⟩) slot)
  · split
    · rename_i hfull
      refine .bind (never_reassemble m (pieces_slotOf hfull id)).ensures fun out _ _ => ?_
      cases out with
      | none => exact .pure (hg.set (holds_free rfl) slot)
      | some buf => exact .pure (hg.set (holds_free rfl) slot)
    · rename_i hfull
      exact .pure (hg.set (fun _ => ⟨y, rfl, hfull⟩) slot)

/-- **A call** whose `calloc`s succeed. -/
theorem parse_held {g : FragmentTable} (hg : Held g) (r : ParsedFrame) (hcallocs : CallocsSucceed ⟨g, r⟩ (m, data)) :
    Ensures .nullPointer (frameProtocolParse m g r data) fun out => Held out.2.1 := by
  unfold frameProtocolParse
  refine .bind (never_validateHeader data).ensures fun v hv _ => ?_
  cases v with
  | error status => exact .pure hg
  | ok h =>
    refine .bind (never_parseExtHeaders data _ _ _).ensures fun f hf _ => ?_
    split
    · exact .bind (never_parseSingle data m h f).ensures fun _ _ _ => .pure hg
    · rename_i hflag
      by_cases hn : f.totalFrags.toNat = 0 ∨ MAX_FRAGMENTS < f.totalFrags.toNat
      · rw [parseFragment_refused hn]
        exact .ok hg
      · cases hfind : findFragmentEntry g f.frameId with
        | some k =>
          obtain ⟨hmem, ha, -⟩ := find_active hfind
          obtain ⟨x, hx, -⟩ := hg _ hmem ha
          rw [parseFragment, if_neg hn, hfind]
          exact fileFragment_held m h data hg r f hx
        | none =>
          simp only [MAX_FRAGMENTS] at hn
          have hcreates : Creates g data h f := ⟨⟨hv, hf, hflag⟩, by omega, hfind⟩
          have hm := hcallocs h f hcreates
          have hdata : m.fragmentData = true := by
            simp only [Bool.and_eq_true] at hm
            exact hm.1.1
          have hnew := newEntry_slotOf f.frameId hm f.totalFrags hcreates.total.1 hcreates.total.2
          rw [← parse_fragment hcreates.fragment, parse_creates hcreates]
          simp only [hdata, Bool.true_eq_false, if_false, hnew]
          exact fileFragment_held m h data (hg.set (fun _ => ⟨_, rfl, new_open _ _ _⟩) _) r f
            (getD_set (allocSlot_lt g) _)

end

/-! ## A slot without one -/

theorem arrSet_allocated {α : Type} {a a' : Option (List α)} {i : Nat} {x : α} (h : arrSet a i x = .ok a') : a ≠ none := by
  rintro rfl
  cases h

theorem storeFragment_missing {m : Mallocs} {h : FixedHeader} {data : Bytes} {idx : Nat} {e e' : FragmentEntry}
    {stored : Bool} (hmiss : ¬ Allocated e) (hs : storeFragment m h data idx e = .ok (stored, e')) :
    ¬ Allocated e' ∧ e'.receivedCount = e.receivedCount ∧ e'.totalFragments = e.totalFragments := by
  unfold storeFragment at hs
  split at hs
  · obtain ⟨present, -, hs⟩ := bind_eq_ok.mp hs
    split at hs
    · cases hs
      exact ⟨hmiss, rfl, rfl⟩
    · split at hs
      · obtain ⟨piece, -, hs⟩ := bind_eq_ok.mp hs
        obtain ⟨fragmentData, hdata, hs⟩ := bind_eq_ok.mp hs
        obtain ⟨fragmentSizes, hsizes, hs⟩ := bind_eq_ok.mp hs
        obtain ⟨fragmentPresent, hpresent, -⟩ := bind_eq_ok.mp hs
        exact absurd ⟨arrSet_allocated hdata, arrSet_allocated hsizes, arrSet_allocated hpresent⟩ hmiss
      · obtain ⟨fragmentData, hdata, hs⟩ := bind_eq_ok.mp hs
        cases hs
        exact ⟨fun hall => hmiss ⟨arrSet_allocated hdata, hall.fragmentSizes, hall.fragmentPresent⟩, rfl, rfl⟩
  · cases hs
    exact ⟨hmiss, rfl, rfl⟩

/-- A fragment that does not fault on such a slot leaves it as it is, active. -/
theorem fileFragment_missing {m : Mallocs} {g g' : FragmentTable} {r r' : ParsedFrame} {h : FixedHeader} {f : ExtFields}
    {data : Bytes} {slot : Nat} {status : FrameParseStatus} {e : FragmentEntry} (hslot : g.slots.getD slot {} = e)
    (hmiss : ¬ Allocated e) (hcount : e.receivedCount.toNat < e.totalFragments.toNat)
    (hf : fileFragment m g r h f data slot = .ok (status, g', r')) :
    ∃ e', g' = g.set slot e' ∧ e'.active = e.active ∧ ¬ Allocated e' := by
  have hinfo : ∀ e₁, e₁ = (if f.fragIndex = 0 then { e with info := h.info f } else e) → ¬ Allocated e₁ ∧
      e₁.receivedCount = e.receivedCount ∧ e₁.totalFragments = e.totalFragments ∧ e₁.active = e.active := by
    rintro e₁ rfl
    split
    · exact ⟨fun hall => hmiss ⟨hall.fragmentData, hall.fragmentSizes, hall.fragmentPresent⟩, rfl, rfl, rfl⟩
    · exact ⟨hmiss, rfl, rfl, rfl⟩
  obtain ⟨hmiss₁, hcount₁, htotal₁, hactive₁⟩ := hinfo _ rfl
  unfold fileFragment at hf
  rw [hslot] at hf
  obtain ⟨⟨stored, e'⟩, hs, hf⟩ := bind_eq_ok.mp hf
  obtain ⟨hmiss', hcount', htotal'⟩ := storeFragment_missing hmiss₁ hs
  have hactive' := (storeFragment_kept hs).1
  have hopen : ¬ e'.totalFragments.toNat ≤ e'.receivedCount.toNat := by
    rw [htotal', hcount', htotal₁, hcount₁]
    omega
  simp only [if_neg hopen] at hf
  split at hf
  all_goals
    cases hf
    exact ⟨e', rfl, hactive'.trans hactive₁, hmiss'⟩

theorem not_whole_set {g : FragmentTable} {e : FragmentEntry} (ha : e.active = true) (hmiss : ¬ Allocated e) {k : Nat}
    (hk : k < maxEntries) : ¬ Whole (g.set k e) := by
  intro hwhole
  have hmem : e ∈ (g.set k e).slots := List.mem_set (by rw [g.length_slots]; exact hk) e
  exact hmiss (hwhole e hmem ha)

/-- **A call** that creates an entry and misses one of its arrays. -/
theorem parse_missing {m : Mallocs} {g g' : FragmentTable} {r r' : ParsedFrame} {data : Bytes} {h : FixedHeader}
    {f : ExtFields} {status : FrameParseStatus} (hc : Creates g data h f)
    (hm : (m.fragmentData && m.fragmentSizes && m.fragmentPresent) = false)
    (hp : frameProtocolParse m g r data = .ok (status, g', r')) : ¬ Whole g' := by
  have htotal := hc.total
  have hnew : newEntry m f.frameId f.totalFrags =
      { frameId := f.frameId, totalFragments := f.totalFrags, active := true
        fragmentData := calloc m.fragmentData f.totalFrags.toNat none
        fragmentSizes := calloc m.fragmentSizes f.totalFrags.toNat 0
        fragmentPresent := calloc m.fragmentPresent f.totalFrags.toNat false } :=
    if_pos ⟨htotal.1, htotal.2⟩
  have hmiss : ¬ Allocated (newEntry m f.frameId f.totalFrags) := by
    rw [hnew]
    rintro ⟨hdata, hsizes, hpresent⟩
    cases hd : m.fragmentData <;> cases hs : m.fragmentSizes <;> cases hp : m.fragmentPresent <;>
      simp [hd, hs, hp, calloc] at hdata hsizes hpresent hm
  rw [parse_creates hc] at hp
  simp only at hp
  split at hp
  · cases hp
    exact not_whole_set (by rw [hnew]) hmiss (allocSlot_lt g)
  · obtain ⟨e', rfl, ha, hmiss'⟩ := fileFragment_missing (getD_set (allocSlot_lt g) _) hmiss (by rw [hnew]; exact htotal.1) hp
    rw [set_set]
    exact not_whole_set (by rw [ha, hnew]) hmiss' (allocSlot_lt g)

/-! ## Every run -/

theorem held_init : Held frameProtocolInit := by
  intro e hmem
  rw [List.eq_of_mem_replicate hmem]
  exact holds_free rfl

theorem held_step {s s' : State} {call : Mallocs × Bytes} (hs : Held s.table) (h : system.step s call s')
    (hcallocs : CallocsSucceed s call) : Held s'.table := by
  obtain ⟨status, h⟩ := h
  exact (parse_held call.1 call.2 hs s.result hcallocs).post _ h

theorem whole_iff {s s' : State} {call : Mallocs × Bytes} (hs : Held s.table) (h : system.step s call s') :
    Whole s'.table ↔ CallocsSucceed s call := by
  constructor
  · intro hwhole hdr f hc
    obtain ⟨status, h⟩ := h
    by_contra hm
    exact parse_missing hc (Bool.eq_false_iff.mpr hm) h hwhole
  · exact fun hcallocs => (held_step hs h hcallocs).whole

/-! ## What is counted -/

theorem countFor_self {e : FragmentEntry} (ha : e.active = true) : e.receivedCount = countFor e e.frameId :=
  (if_pos ⟨ha, rfl⟩).symm

/-- **A fragment without a buffer** is not counted. -/
theorem not_counted {m : Mallocs} {g g' : FragmentTable} {r r' : ParsedFrame} {data : Bytes} {status : FrameParseStatus}
    (hm : m.fragment = false) (hp : frameProtocolParse m g r data = .ok (status, g', r')) (k : Nat)
    (ha : (g'.slots.getD k {}).active = true) :
    (g'.slots.getD k {}).receivedCount = countFor (g.slots.getD k {}) (g'.slots.getD k {}).frameId := by
  cases parse_effect hp with
  | none _ hg =>
    rw [hg] at ha ⊢
    exact countFor_self ha
  | @filed _ _ j e' _ hfind hkept hg =>
    subst hg
    obtain ⟨-, hactive, -⟩ := find_active hfind
    rcases getD_set_or g j k e' with hsame | ⟨rfl, he⟩
    · rw [hsame] at ha ⊢
      exact countFor_self ha
    · rw [he] at ha ⊢
      cases hkept with
      | freed hfree => rw [hfree] at ha; cases ha
      | same _ hid hcount => rw [hid, hcount hm, countFor_self hactive]
  | @created _ f e' hc hkept hg =>
    subst hg
    rcases getD_set_or g (allocSlot g) k e' with hsame | ⟨rfl, he⟩
    · rw [hsame] at ha ⊢
      exact countFor_self ha
    · rw [he] at ha ⊢
      cases hkept with
      | freed hfree => rw [hfree] at ha; cases ha
      | same _ hid hcount =>
        obtain ⟨hnew, hzero⟩ := newEntry_counts m f.frameId f.totalFrags
        rw [hid, hcount hm, hzero, hnew, countFor, if_neg (find_absent hc.absent _)]

/-- **Allocation failure.** In every run, the entries all have their arrays
iff every call that creates one gets the three it asks for, and then no such
call follows a NULL pointer, whichever other allocations fail; a fragment
whose buffer cannot be allocated is never counted. -/
theorem allocations_whole_iff {s₀ s : State} {calls : List (Mallocs × Bytes)} (h0 : system.init s₀) :
    ((system.within fun s => Whole s.table).Run s₀ calls s ↔ (system.restrict CallocsSucceed).Run s₀ calls s) ∧
    ((system.restrict CallocsSucceed).Run s₀ calls s → Whole s.table ∧
      ∀ call, CallocsSucceed s call → frameProtocolParse call.1 s.table s.result call.2 ≠ .error .nullPointer) ∧
    (system.Run s₀ calls s → ∀ m data s', m.fragment = false → system.step s (m, data) s' →
      ∀ k, (s'.table.slots.getD k {}).active = true → (s'.table.slots.getD k {}).receivedCount =
        countFor (s.table.slots.getD k {}) (s'.table.slots.getD k {}).frameId) := by
  have hinit : Held s₀.table := by
    rw [show s₀.table = frameProtocolInit from h0]
    exact held_init
  refine ⟨Lts.run_within_iff (J := fun s => Held s.table) (fun _ _ _ => whole_iff) (fun _ _ _ => held_step) hinit,
    fun hrun => ?_, fun _ m data s' hm h k => ?_⟩
  · have hstep : ∀ s l s', Held s.table → (system.restrict CallocsSucceed).step s l s' → Held s'.table :=
      fun _ _ _ hs h => held_step hs h.1 h.2
    have hheld : Held s.table := hrun.preserves hstep hinit
    exact ⟨hheld.whole, fun call hcallocs => (parse_held call.1 call.2 hheld s.result hcallocs).never⟩
  · obtain ⟨status, h⟩ := h
    exact not_counted hm h k

/-- A fragment whose buffer alone cannot be allocated leaves its entry whole,
and nothing counted. -/
theorem allocations_whole_iff_half : ∃ s, system.Reachable s ∧ Whole s.table ∧
    s.table.slots[0]? = some (slotOf 5 (.new 2 (by decide) (by decide))) := by
  have hparse : frameProtocolParse { fragment := false } frameProtocolInit {} lateHalf =
      .ok (.error, frameProtocolInit.set 0 (slotOf 5 (.new 2 (by decide) (by decide))), {}) := rfl
  have hstep : system.step ⟨frameProtocolInit, {}⟩ ({ fragment := false }, lateHalf)
      ⟨frameProtocolInit.set 0 (slotOf 5 (.new 2 (by decide) (by decide))), {}⟩ := ⟨.error, hparse⟩
  have hrun := Lts.Run.cons (M := system.restrict CallocsSucceed) ⟨hstep, fun _ _ _ => rfl⟩ (.nil _)
  have hinit : system.init ⟨frameProtocolInit, {}⟩ := rfl
  exact ⟨_, (Lts.reachable_init hinit).step hstep, ((allocations_whole_iff hinit).2.1 hrun).1, rfl⟩

/-- The pointer array of the first fragment cannot be allocated: the frame is
rejected, its entry stays active, and the same frame sent again goes through
the NULL pointer. -/
theorem null_array_followed : ∃ s, system.Reachable s ∧ ¬ Whole s.table ∧
    frameProtocolParse {} s.table s.result lateHalf = .error .nullPointer := by
  have hparse : frameProtocolParse { fragmentData := false } frameProtocolInit {} lateHalf =
      .ok (.error, frameProtocolInit.set 0 (newEntry { fragmentData := false } 5 2), {}) := rfl
  have hstep : system.step ⟨frameProtocolInit, {}⟩ ({ fragmentData := false }, lateHalf)
      ⟨frameProtocolInit.set 0 (newEntry { fragmentData := false } 5 2), {}⟩ := ⟨.error, hparse⟩
  have hinit : system.init ⟨frameProtocolInit, {}⟩ := rfl
  exact ⟨_, (Lts.reachable_init hinit).step hstep, not_whole_set rfl (fun hall => hall.fragmentData rfl) (by decide), rfl⟩

end WebPlayer.L2.HalfBuilt
