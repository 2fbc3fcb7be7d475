import WebPlayer.Core.SlotMap
import WebPlayer.L1Encoding.EncodedFrames
import Mathlib.Data.Finset.Card

/-!
# The slot table under encoded fragments

`entryOf c S` is the slot of call `c` when exactly the fragments with index
in `S` have been filed. One delivery moves the slot from `S` to `insert i S`
or, when that was the last one, empties it and returns the call's frame.

A slot whose arrays could not all be allocated is `Broken`: it takes nothing.

* `reassemble_pieces`: the output is the pieces in order, for any slot whose
  arrays hold them.
* `fileFragment_entryOf`, `fileFragment_broken`: the step on a slot.
* `deliver_known`, `deliver_new` and their broken siblings: the step on the
  table, when a slot of the frame id is found and when none is.
-/
namespace WebPlayer.L2.FragmentSlots
open WebPlayer.Core WebPlayer.L1.FrameEncoder WebPlayer.L1.FrameParser

/-- The number of fragments of a call. -/
def fragments (c : EncodeCall) : Nat := (totalFragments c.payload).toNat

/-- The slot of `c` once the fragments in `S` are filed, with the metadata
stored last. -/
def entryOf (c : EncodeCall) (S : Finset Nat) (info : FrameMeta) : FragmentEntry where
  frameId := c.frameId
  totalFragments := totalFragments c.payload
  receivedCount := UInt16.ofNat S.card
  fragmentData := some ((List.range (fragments c)).map fun j =>
    if j ∈ S then some (chunk c.payload j) else none)
  fragmentSizes := some ((List.range (fragments c)).map fun j =>
    if j ∈ S then UInt32.ofNat (chunk c.payload j).length else 0)
  fragmentPresent := some ((List.range (fragments c)).map fun j => decide (j ∈ S))
  info := info
  active := true

/-- A slot of `c` not all of whose arrays could be allocated. -/
def Broken (c : EncodeCall) (e : FragmentEntry) : Prop :=
  ∃ (m : Mallocs) (info : FrameMeta), e = { newEntry m c.frameId (totalFragments c.payload) with info } ∧
    (m.fragmentData && m.fragmentSizes && m.fragmentPresent) = false

/-- Calls the parser accepts fragment by fragment. -/
structure Splits (c : EncodeCall) : Prop where
  fragmented : c.Fragmented
  bounded : c.payload.length ≤ maxPayload

theorem Splits.two_le {c : EncodeCall} (hc : Splits c) : 2 ≤ fragments c :=
  (totalFragments_bounds hc.bounded hc.fragmented).1

theorem Splits.le_256 {c : EncodeCall} (hc : Splits c) : fragments c ≤ 256 :=
  (totalFragments_bounds hc.bounded hc.fragmented).2

/-! ## Arrays -/

theorem set_range_map {α : Type} (f : Nat → α) (n j : Nat) (x : α) :
    ((List.range n).map f).set j x = (List.range n).map fun k => if k = j then x else f k := by
  apply List.ext_getElem (by simp)
  intro k h1 h2
  rw [List.getElem_set, List.getElem_map, List.getElem_map, List.getElem_range]
  simp only [eq_comm]

theorem arrGet_range {α : Type} (f : Nat → α) {n j : Nat} (hj : j < n) :
    arrGet (some ((List.range n).map f)) j = .ok (f j) := by
  simp [arrGet, hj]

theorem arrSet_range {α : Type} (f : Nat → α) {n j : Nat} (hj : j < n) (x : α) :
    arrSet (some ((List.range n).map f)) j x =
      .ok (some ((List.range n).map fun k => if k = j then x else f k)) := by
  rw [arrSet]
  simp only [List.length_map, List.length_range, if_pos hj, set_range_map]

/-! `calloc`ed arrays, before anything is stored. -/

theorem arrGet_calloc {α : Type} {n j : Nat} (hj : j < n) (x : α) : arrGet (calloc true n x) j = .ok x := by
  simp [calloc, arrGet, hj]

theorem arrSet_calloc {α : Type} {n j : Nat} (hj : j < n) (x y : α) :
    arrSet (calloc true n x) j y = .ok (some ((List.replicate n x).set j y)) := by
  simp [calloc, arrSet, hj]

theorem arrGet_null {α : Type} (n j : Nat) (x : α) : arrGet (calloc false n x) j = .error .nullPointer := rfl

theorem arrSet_null {α : Type} (n j : Nat) (x y : α) : arrSet (calloc false n x) j y = .error .nullPointer := rfl

/-! ## Reassembly -/

/-- The arrays hold `pieces`, one in each place. -/
structure Pieces (e : FragmentEntry) (pieces : List Bytes) : Prop where
  total : e.totalFragments.toNat = pieces.length
  data : ∀ k (hk : k < pieces.length), arrGet e.fragmentData k = .ok (some (pieces.get ⟨k, hk⟩))
  size : ∀ k (hk : k < pieces.length), arrGet e.fragmentSizes k = .ok (UInt32.ofNat (pieces.get ⟨k, hk⟩).length)

section
variable {e : FragmentEntry} {pieces : List Bytes} (hp : Pieces e pieces)

theorem flatten_take_succ (pieces : List Bytes) {k : Nat} (hk : k < pieces.length) :
    (pieces.take (k + 1)).flatten = (pieces.take k).flatten ++ pieces.get ⟨k, hk⟩ := by
  rw [List.take_add_one, List.getElem?_eq_getElem hk, List.flatten_append]
  simp

theorem length_flatten_take (pieces : List Bytes) (k : Nat) : (pieces.take k).flatten.length ≤ pieces.flatten.length := by
  have h := congrArg (fun ps : List Bytes => ps.flatten.length) (List.take_append_drop k pieces)
  simp only [List.flatten_append, List.length_append] at h
  omega

include hp

/-- The sizes of the first `k` pieces. -/
theorem sizes_upTo (k : Nat) (hk : k ≤ pieces.length) :
    (List.range k).foldlM (fun total i => (arrGet e.fragmentSizes i).map (total + ·)) (0 : UInt32) =
      .ok (UInt32.ofNat (pieces.take k).flatten.length) := by
  induction k with
  | zero => simp
  | succ k ih =>
    rw [List.range_succ, List.foldlM_append, ih (by omega), ok_bind, flatten_take_succ pieces hk, List.length_append,
      UInt32.ofNat_add]
    simp only [List.foldlM_cons, List.foldlM_nil, hp.size k hk, ok_map, ok_bind, pure_eq_ok]

variable (hbytes : pieces.flatten.length < 2 ^ 32)
include hbytes

/-- The copies of the first `k` pieces: each goes behind the ones before. -/
theorem copies_upTo (k : Nat) (hk : k ≤ pieces.length) :
    (List.range k).foldlM (copyFragment e (UInt32.ofNat pieces.flatten.length)) [] = .ok (pieces.take k).flatten := by
  induction k with
  | zero => simp
  | succ k ih =>
    have htotal : (UInt32.ofNat pieces.flatten.length).toNat = pieces.flatten.length := UInt32.toNat_ofNat_of_lt' hbytes
    have hroom := length_flatten_take pieces (k + 1)
    rw [flatten_take_succ pieces hk, List.length_append] at hroom
    have hsize : (UInt32.ofNat (pieces.get ⟨k, hk⟩).length).toNat = (pieces.get ⟨k, hk⟩).length :=
      UInt32.toNat_ofNat_of_lt' (by simp only [UInt32.size]; omega)
    rw [List.range_succ, List.foldlM_append, ih (by omega), ok_bind, flatten_take_succ pieces hk]
    simp only [List.foldlM_cons, List.foldlM_nil, copyFragment, hp.data k hk, hp.size k hk, ok_bind, hsize, htotal,
      Nat.le_refl, true_and, hroom, if_true, List.take_length, pure_eq_ok]

/-- **Reassembly**: the pieces in order. -/
theorem reassemble_pieces (m : Mallocs) : reassembleFragments m e =
    .ok (if m.reassembled = true then some (pieces.flatten, UInt32.ofNat pieces.flatten.length) else none) := by
  have hsum := sizes_upTo hp pieces.length (Nat.le_refl _)
  have hcopy := copies_upTo hp hbytes pieces.length (Nat.le_refl _)
  rw [List.take_length] at hsum hcopy
  unfold reassembleFragments
  simp only [hp.total, hsum, ok_bind, hcopy, pure_eq_ok]
  cases m.reassembled <;> rfl

end

/-! ## One slot -/

-- For any `e`: the kernel would otherwise evaluate the new slot.
theorem setInfo_setInfo (e : FragmentEntry) (info info' : FrameMeta) :
    { { e with info } with info := info' } = { e with info := info' } := rfl

theorem broken_setInfo {c : EncodeCall} {e : FragmentEntry} (he : Broken c e) (info : FrameMeta) : Broken c { e with info } := by
  obtain ⟨m, info', rfl, hm⟩ := he
  exact ⟨m, info, setInfo_setInfo _ info' info, hm⟩

section
variable {c : EncodeCall} (hc : Splits c) {S : Finset Nat} {i : Nat}
include hc

theorem newEntry_eq (m : Mallocs) : newEntry m c.frameId (totalFragments c.payload) =
    { frameId := c.frameId, totalFragments := totalFragments c.payload, active := true
      fragmentData := calloc m.fragmentData (fragments c) none
      fragmentSizes := calloc m.fragmentSizes (fragments c) 0
      fragmentPresent := calloc m.fragmentPresent (fragments c) false } := by
  have h2 := hc.two_le
  have h256 := hc.le_256
  unfold fragments at h2 h256
  rw [newEntry, if_pos ⟨by omega, h256⟩]
  rfl

theorem broken_arrays {e : FragmentEntry} (he : Broken c e) : ∃ m : Mallocs,
    (m.fragmentData && m.fragmentSizes && m.fragmentPresent) = false ∧ e.totalFragments.toNat = fragments c ∧
    e.fragmentData = calloc m.fragmentData (fragments c) none ∧ e.fragmentSizes = calloc m.fragmentSizes (fragments c) 0 ∧
    e.fragmentPresent = calloc m.fragmentPresent (fragments c) false := by
  obtain ⟨m, info, rfl, hm⟩ := he
  rw [newEntry_eq hc]
  exact ⟨m, hm, rfl, rfl, rfl, rfl⟩

theorem newEntry_ok {m : Mallocs} (hm : (m.fragmentData && m.fragmentSizes && m.fragmentPresent) = true) :
    newEntry m c.frameId (totalFragments c.payload) = entryOf c ∅ {} := by
  simp only [Bool.and_eq_true] at hm
  rw [newEntry_eq hc, hm.1.1, hm.1.2, hm.2]
  simp [entryOf, calloc, List.map_const']

/-- The metadata after fragment `i`: index 0 carries it. -/
def infoAfter (c : EncodeCall) (i : Nat) (info : FrameMeta) : FrameMeta := if i = 0 then callInfo c else info

section
variable {h : FixedHeader} {f : ExtFields} {data : Bytes} (hf : FragmentOf c i h f data)
  (hi : i < fragments c)
include hf hi

theorem fragIndex_eq : f.fragIndex.toNat = i := by
  have h256 := hc.le_256
  rw [hf.fragIndex, UInt16.toNat_ofNat', Nat.mod_eq_of_lt (by omega)]

/-- Fragment 0 stores the metadata of the call. -/
theorem storeInfo_eq (e : FragmentEntry) :
    (if f.fragIndex = 0 then { e with info := h.info f } else e) = { e with info := infoAfter c i e.info } := by
  have hzero : f.fragIndex = 0 ↔ i = 0 := by
    rw [← UInt16.toNat_inj, fragIndex_eq hc hf hi]; rfl
  unfold infoAfter
  by_cases h0 : i = 0
  · rw [if_pos (hzero.mpr h0), if_pos h0, hf.info h0]
  · rw [if_neg (fun hz => h0 (hzero.mp hz)), if_neg h0]

omit hc in
/-- Filing fragment `i`, if its buffer can be allocated. -/
theorem storeFragment_entryOf (m : Mallocs) (hiS : i ∉ S) (info : FrameMeta) :
    storeFragment m h data i (entryOf c S info) =
      .ok (m.fragment, entryOf c (if m.fragment = true then insert i S else S) info) := by
  unfold storeFragment
  rw [if_pos (show i < (entryOf c S info).totalFragments.toNat from hi)]
  simp only [entryOf]
  simp only [arrGet_range _ hi, hf.payload, arrSet_range _ hi, hiS, decide_false, Bool.false_eq_true,
    if_false, ok_bind, pure_eq_ok]
  cases m.fragment with
  | true =>
    simp only [if_true, Except.ok.injEq, Prod.mk.injEq, true_and, FragmentEntry.mk.injEq,
      Option.some.injEq, and_true]
    refine ⟨?_, ?_, ?_, ?_⟩
    · rw [Finset.card_insert_of_notMem hiS, UInt16.ofNat_add]; rfl
    · refine List.map_congr_left fun k _ => ?_
      by_cases hk : k = i <;> simp [hk]
    · refine List.map_congr_left fun k _ => ?_
      by_cases hk : k = i <;> simp [hk, hf.payloadLength]
    · refine List.map_congr_left fun k _ => ?_
      by_cases hk : k = i <;> simp [hk]
  | false =>
    simp only [Bool.false_eq_true, if_false, Except.ok.injEq, Prod.mk.injEq, true_and,
      FragmentEntry.mk.injEq, Option.some.injEq, and_true]
    refine List.map_congr_left fun k _ => ?_
    by_cases hk : k = i <;> simp [hk, hiS]

/-- A broken slot takes no fragment. -/
theorem storeFragment_broken (m : Mallocs) {e : FragmentEntry} (he : Broken c e) :
    storeFragment m h data i e = .error .nullPointer ∨ storeFragment m h data i e = .ok (false, e) := by
  obtain ⟨m', hm', htotal, hdata, hsizes, hpresent⟩ := broken_arrays hc he
  unfold storeFragment
  rw [if_pos (by rw [htotal]; exact hi)]
  cases hp : m'.fragmentPresent with
  | false =>
    rw [hpresent, hp, arrGet_null, error_bind]
    exact .inl rfl
  | true =>
    rw [hp] at hpresent
    have hget : arrGet e.fragmentPresent i = .ok false := by rw [hpresent, arrGet_calloc hi]
    rw [hget, ok_bind, if_neg Bool.false_ne_true]
    cases hd : m'.fragmentData with
    | false =>
      left
      simp only [hdata, hd, arrSet_null, hf.payload, ok_bind, error_bind, ite_self]
    | true =>
      rw [hd] at hdata
      cases hm : m.fragment with
      | false =>
        have hset : arrSet e.fragmentData i none = .ok e.fragmentData := by
          rw [hdata, arrSet_calloc hi, List.set_replicate_self]
          rfl
        rw [if_neg Bool.false_ne_true, hset, ok_bind]
        exact .inr rfl
      | true =>
        have hs : m'.fragmentSizes = false := by simpa [hd, hp] using hm'
        rw [if_pos rfl, hf.payload, ok_bind, hdata, arrSet_calloc hi, ok_bind, hsizes, hs, arrSet_null, error_bind]
        exact .inl rfl

end

/-- Reassembly of a full slot gives the payload. -/
theorem reassemble_full (m : Mallocs) (info : FrameMeta) :
    reassembleFragments m (entryOf c (Finset.range (fragments c)) info) =
      .ok (if m.reassembled = true then some (c.payload, UInt32.ofNat c.payload.length) else none) := by
  have hb := hc.bounded
  simp only [maxPayload, FRAGMENT_THRESHOLD] at hb
  have hall : ((List.range (fragments c)).map (chunk c.payload)).flatten = c.payload := chunks_flatten hc.bounded
  have hp : Pieces (entryOf c (Finset.range (fragments c)) info) ((List.range (fragments c)).map (chunk c.payload)) := by
    refine ⟨by simp [entryOf, fragments], fun k hk => ?_, fun k hk => ?_⟩
    · rw [List.length_map, List.length_range] at hk
      simp [entryOf, arrGet_range _ hk, hk]
    · rw [List.length_map, List.length_range] at hk
      simp [entryOf, arrGet_range _ hk, hk]
  rw [reassemble_pieces hp (by rw [hall]; omega) m, hall]

theorem receivedCount_entryOf (hS : S ⊆ Finset.range (fragments c)) (info : FrameMeta) :
    (entryOf c S info).receivedCount.toNat = S.card := by
  have h256 := hc.le_256
  have hcard := Finset.card_le_card hS
  rw [Finset.card_range] at hcard
  rw [entryOf, UInt16.toNat_ofNat', Nat.mod_eq_of_lt (by omega)]

/-- What fragment `i` does to the slot of `c` that has `S`; `info` is the
metadata after it. -/
def afterFragment (m : Mallocs) (c : EncodeCall) (S : Finset Nat) (i slot : Nat) (info : FrameMeta)
    (g : FragmentTable) (r : ParsedFrame) : FrameParseStatus × FragmentTable × ParsedFrame :=
  if m.fragment = false then (.error, g.set slot (entryOf c S info), r)
  else if insert i S = Finset.range (fragments c) then
    let g := g.set slot (freeFragmentEntry (entryOf c (Finset.range (fragments c)) info))
    if m.reassembled = true then (.complete, g, callFrame c) else (.error, g, r)
  else (.fragmentPending, g.set slot (entryOf c (insert i S) info), r)

section
variable {h : FixedHeader} {f : ExtFields} {data : Bytes} (hf : FragmentOf c i h f data)
  (hi : i < fragments c) {g : FragmentTable} {slot : Nat} (m : Mallocs) (r : ParsedFrame)
include hf hi

theorem fileFragment_entryOf (hS : S ⊆ Finset.range (fragments c)) (hiS : i ∉ S) {info : FrameMeta}
    (hinfo : 0 ∈ S → info = callInfo c) (hslot : g.slots.getD slot {} = entryOf c S info) :
    fileFragment m g r h f data slot = .ok (afterFragment m c S i slot (infoAfter c i info) g r) := by
  have hsub : insert i S ⊆ Finset.range (fragments c) :=
    Finset.insert_subset (Finset.mem_range.mpr hi) hS
  have hcount := receivedCount_entryOf hc hsub (infoAfter c i info)
  have hn : (entryOf c (insert i S) (infoAfter c i info)).totalFragments.toNat = fragments c := rfl
  have he : { entryOf c S info with info := infoAfter c i info } = entryOf c S (infoAfter c i info) := rfl
  unfold fileFragment afterFragment
  simp only [hslot, storeInfo_eq hc hf hi, fragIndex_eq hc hf hi]
  rw [show (entryOf c S info).info = info from rfl, he, storeFragment_entryOf hf hi m hiS]
  cases hm : m.fragment with
  | false => rfl
  | true =>
    simp only [ok_bind, if_true, Bool.not_true, Bool.false_eq_true, if_false, hcount, hn,
      Bool.true_eq_false]
    by_cases hfull : insert i S = Finset.range (fragments c)
    · have hne : c.payload ≠ [] := by
        intro h0
        have := hc.fragmented
        simp [EncodeCall.Fragmented, h0] at this
      -- fragment 0 is among them, so the metadata is that of the call
      have hmeta : infoAfter c i info = callInfo c := by
        have h0 : 0 ∈ insert i S := by
          have := hc.two_le
          rw [hfull]; exact Finset.mem_range.mpr (by omega)
        unfold infoAfter
        split
        · rfl
        · rename_i hi0
          exact hinfo ((Finset.mem_insert.mp h0).resolve_left (Ne.symm hi0))
      rw [hfull, if_pos (by rw [Finset.card_range]), if_pos rfl, reassemble_full hc m]
      simp only [ok_bind, pure_eq_ok]
      cases m.reassembled with
      | false => rfl
      | true =>
        simp only [if_true, callFrame, hne, if_false]
        rw [entryOf, hmeta]
    · have hlt : (insert i S).card < fragments c := by
        have := Finset.card_lt_card (Finset.ssubset_iff_subset_ne.mpr ⟨hsub, hfull⟩)
        rwa [Finset.card_range] at this
      rw [if_neg (by omega), if_neg hfull]
      rfl

theorem fileFragment_broken {e : FragmentEntry} (he : Broken c e) (hslot : g.slots.getD slot {} = e) :
    fileFragment m g r h f data slot = .error .nullPointer ∨
      ∃ e', Broken c e' ∧ fileFragment m g r h f data slot = .ok (.error, g.set slot e', r) := by
  have he' := broken_setInfo he (infoAfter c i e.info)
  unfold fileFragment
  simp only [hslot, storeInfo_eq hc hf hi, fragIndex_eq hc hf hi]
  rcases storeFragment_broken hc hf hi m he' with h' | h'
  · rw [h', error_bind]
    exact .inl rfl
  · rw [h', ok_bind]
    exact .inr ⟨_, he', by simp only [Bool.not_false, if_true, pure_eq_ok]⟩

end

end

/-! ## The table -/

/-- The slots under their frame ids; what a slot holds is a call and the
indices received. -/
def view (holds : EncodeCall × Finset Nat → FragmentEntry → Prop) :
    SlotView FragmentEntry UInt16 (EncodeCall × Finset Nat) where
  active := (·.active)
  key := (·.frameId)
  holds := holds

theorem getD_set {g : FragmentTable} {k : Nat} (hk : k < maxEntries) (e : FragmentEntry) :
    (g.set k e).slots.getD k {} = e := by
  have hl := g.length_slots
  simp [FragmentTable.set, List.getD_eq_getElem?_getD, List.getElem?_set_self (show k < g.slots.length by omega)]

theorem set_set (g : FragmentTable) (k : Nat) (e e' : FragmentEntry) : (g.set k e).set k e' = g.set k e' := by
  simp only [FragmentTable.set, List.set_set]

/-- The slot `alloc_fragment_entry` takes: the first free one, else slot 0. -/
def allocSlot (g : FragmentTable) : Nat := (g.slots.findIdx? fun e => !e.active).getD 0

theorem allocSlot_lt (g : FragmentTable) : allocSlot g < maxEntries := by
  unfold allocSlot
  cases h : g.slots.findIdx? fun e => !e.active with
  | none => simp [maxEntries]
  | some k =>
    obtain ⟨hk, -⟩ := List.findIdx?_eq_some_iff_getElem.mp h
    have := g.length_slots
    simpa [this] using hk

theorem allocSlot_get (g : FragmentTable) : ∃ e, g.slots[allocSlot g]? = some e :=
  ⟨_, List.getElem?_eq_getElem (by rw [g.length_slots]; exact allocSlot_lt g)⟩

theorem allocFragmentEntry_eq (m : Mallocs) (g : FragmentTable) (id n : UInt16) :
    allocFragmentEntry m g id n = (g.set (allocSlot g) (newEntry m id n), allocSlot g) := by
  unfold allocFragmentEntry allocSlot
  cases g.slots.findIdx? fun e => !e.active with
  | none => simp [set_set]
  | some k => rfl

section
variable {c : EncodeCall} (hc : Splits c) {i : Nat} (hi : i < fragments c) (m : Mallocs) (g : FragmentTable)
  (r : ParsedFrame)
include hc

/-- A fragment of a frame id that has slot `k`. -/
theorem deliver_found (i : Nat) {k : Nat} (hfind : findFragmentEntry g c.frameId = some k) :
    ∃ h f, FragmentOf c i h f (fragmentFrame c i) ∧ frameProtocolParse m g r (fragmentFrame c i) =
      fileFragment m g r h f (fragmentFrame c i) k := by
  obtain ⟨h, f, hf, he⟩ := parse_fragmentFrame c i m g r
  have hn : f.totalFrags.toNat = fragments c := by rw [hf.totalFrags]; rfl
  have h2 := hc.two_le
  have h256 := hc.le_256
  refine ⟨h, f, hf, ?_⟩
  rw [he, parseFragment, if_neg (by rw [hn]; simp only [MAX_FRAGMENTS]; omega), hf.frameId, hfind]

include hi

/-- A fragment whose frame id has a slot of the same call. -/
theorem deliver_known {S : Finset Nat} (hS : S ⊆ Finset.range (fragments c)) (hiS : i ∉ S) {k : Nat}
    {info : FrameMeta} (hinfo : 0 ∈ S → info = callInfo c) (hfind : findFragmentEntry g c.frameId = some k)
    (hslot : g.slots[k]? = some (entryOf c S info)) :
    frameProtocolParse m g r (fragmentFrame c i) =
      .ok (afterFragment m c S i k (infoAfter c i info) g r) := by
  obtain ⟨h, f, hf, he⟩ := deliver_found hc m g r i hfind
  rw [he]
  exact fileFragment_entryOf hc hf hi m r hS hiS hinfo (by simp [List.getD_eq_getElem?_getD, hslot])

/-- A fragment whose frame id has a broken slot of the same call. -/
theorem deliver_broken {k : Nat} {e : FragmentEntry} (hfind : findFragmentEntry g c.frameId = some k)
    (hslot : g.slots[k]? = some e) (he : Broken c e) :
    frameProtocolParse m g r (fragmentFrame c i) = .error .nullPointer ∨
      ∃ e', Broken c e' ∧ frameProtocolParse m g r (fragmentFrame c i) = .ok (.error, g.set k e', r) := by
  obtain ⟨h, f, hf, hp⟩ := deliver_found hc m g r i hfind
  rw [hp]
  exact fileFragment_broken hc hf hi m r he (by simp [List.getD_eq_getElem?_getD, hslot])

/-- A fragment whose frame id has no slot opens one, if the arrays can be
allocated. -/
theorem deliver_new (hfind : findFragmentEntry g c.frameId = none)
    (hm : (m.fragmentData && m.fragmentSizes && m.fragmentPresent) = true) :
    frameProtocolParse m g r (fragmentFrame c i) = .ok (if m.fragment = true then
      (.fragmentPending, g.set (allocSlot g) (entryOf c {i} (infoAfter c i {})), r)
      else (.error, g.set (allocSlot g) (entryOf c ∅ (infoAfter c i {})), r)) := by
  obtain ⟨h, f, hf, he⟩ := parse_fragmentFrame c i m g r
  have hn : f.totalFrags.toNat = fragments c := by rw [hf.totalFrags]; rfl
  have h2 := hc.two_le
  have h256 := hc.le_256
  have hget := getD_set (g := g) (allocSlot_lt g) (entryOf c ∅ {})
  have hne : insert i (∅ : Finset Nat) ≠ Finset.range (fragments c) := by
    intro hfull
    have := congrArg Finset.card hfull
    simp at this
    omega
  rw [he, parseFragment, if_neg (by rw [hn]; simp only [MAX_FRAGMENTS]; omega), hf.frameId, hfind,
    hf.totalFrags]
  simp only [allocFragmentEntry_eq, newEntry_ok hc hm, hget]
  rw [if_neg (by simp [entryOf]),
    fileFragment_entryOf hc hf hi m r (Finset.empty_subset _) (by simp) (by simp) hget, afterFragment,
    if_neg hne, set_set, set_set]
  cases m.fragment <;> rfl

/-- If not, the new slot is broken. -/
theorem deliver_new_broken (hfind : findFragmentEntry g c.frameId = none)
    (hm : (m.fragmentData && m.fragmentSizes && m.fragmentPresent) = false) :
    frameProtocolParse m g r (fragmentFrame c i) = .error .nullPointer ∨ ∃ e', Broken c e' ∧
      frameProtocolParse m g r (fragmentFrame c i) = .ok (.error, g.set (allocSlot g) e', r) := by
  obtain ⟨h, f, hf, he⟩ := parse_fragmentFrame c i m g r
  have hn : f.totalFrags.toNat = fragments c := by rw [hf.totalFrags]; rfl
  have h2 := hc.two_le
  have h256 := hc.le_256
  have hbroken : Broken c (newEntry m c.frameId (totalFragments c.payload)) := ⟨m, {}, by rw [newEntry_eq hc], hm⟩
  have hget := getD_set (g := g) (allocSlot_lt g) (newEntry m c.frameId (totalFragments c.payload))
  rw [he, parseFragment, if_neg (by rw [hn]; simp only [MAX_FRAGMENTS]; omega), hf.frameId, hfind,
    hf.totalFrags]
  simp only [allocFragmentEntry_eq, hget]
  split
  · exact .inr ⟨_, hbroken, rfl⟩
  · rcases fileFragment_broken hc hf hi m r hbroken hget with h' | ⟨e', he', h'⟩
    · exact .inl h'
    · exact .inr ⟨e', he', by rw [h', set_set]⟩

end

end WebPlayer.L2.FragmentSlots
