import WebPlayer.Core.Lts
import WebPlayer.L2Machine.PieceSlots

/-!
# The fragment table on arbitrary bytes

Calls of `frame_protocol_parse` with any byte strings, allocations succeeding.
The active slots are a partial map from frame ids to incomplete frames; a
fragment is filed under its id, in a new slot if it has none.

* `parseFragment_filed`: a fragment as a step on the map.
* `fragment_table_invariant`: what holds of every slot after every call, and
  what a completed frame consists of.
-/
namespace WebPlayer.L2.TableInvariant
open WebPlayer.Core WebPlayer.L1.FrameEncoder WebPlayer.L1.FrameParser WebPlayer.L2.FragmentSlots WebPlayer.L2.PieceSlots

/-! ## Slots -/

/-- An active slot holds an incomplete frame. -/
def pieceView : SlotView FragmentEntry UInt16 Partial where
  active := (·.active)
  key := (·.frameId)
  holds x e := e = slotOf e.frameId x ∧ ¬ x.Full ∧ (concat x.pieces).length < 2 ^ 32

abbrev Incomplete := UInt16 → Option Partial

def Represents (g : FragmentTable) (A : Incomplete) : Prop := pieceView.Represents g.slots A

/-- The bytes that a slot's pointers own. -/
def entryBytes (e : FragmentEntry) : Nat :=
  match e.fragmentData with
  | some pieces => (concat pieces).length
  | none => 0

def bufferBytes (g : FragmentTable) : Nat := (g.slots.map entryBytes).sum

theorem length_concat_set {ps : List (Option Bytes)} {i : Nat} (h : ps[i]? = some none) (piece : Bytes) :
    (concat (ps.set i (some piece))).length = (concat ps).length + piece.length := by
  induction ps generalizing i with
  | nil => cases h
  | cons p ps ih =>
    cases i with
    | zero =>
      rw [List.getElem?_cons_zero] at h
      cases h
      simp [concat, Nat.add_comm]
    | succ i =>
      have h' := ih h
      simp only [concat, List.set_cons_succ, List.map_cons, List.flatten_cons, List.length_append] at h' ⊢
      omega

theorem length_concat_file (x : Partial) (idx : Nat) (info : FrameMeta) (piece : Bytes) :
    (concat (x.file idx info piece).pieces).length ≤ (concat x.pieces).length + piece.length := by
  by_cases h : x.pieces[idx]? = some none
  · simp only [Partial.file, if_pos h, length_concat_set h, Nat.le_refl]
  · simp only [Partial.file, if_neg h, Nat.le_add_right]

theorem concat_new (n : Nat) (hpos : 1 ≤ n) (hle : n ≤ 256) : concat (Partial.new n hpos hle).pieces = [] := by
  simp [concat, Partial.new]

theorem length_concat_slot {g : FragmentTable} {id : UInt16} {x : Partial} {k : Nat}
    (hslot : g.slots[k]? = some (slotOf id x)) : (concat x.pieces).length ≤ bufferBytes g :=
  List.le_sum_of_mem (List.mem_map.mpr ⟨slotOf id x, List.mem_of_getElem? hslot, rfl⟩)

/-! ## A fragment on the map -/

section
variable {g : FragmentTable} {A : Incomplete} (hrep : Represents g A) {id : UInt16} {y : Partial}
  (hbytes : (concat y.pieces).length < 2 ^ 32)
include hrep hbytes

/-- The slot of a filed frame after a fragment. -/
theorem represents_known {k : Nat} {x : Partial} (hslot : g.slots[k]? = some (slotOf id x)) :
    ∃ A', Represents (g.set k (slotAfter id y)) A' := by
  unfold slotAfter
  split
  · exact ⟨_, SlotView.Represents.free hrep hslot _ rfl⟩
  · rename_i hfull
    exact ⟨_, SlotView.Represents.replace hrep hslot rfl (slotOf id y) rfl rfl ⟨rfl, hfull, hbytes⟩⟩

/-- Any slot taken for a frame that has none. -/
theorem represents_new (hA : A id = none) {k : Nat} {e : FragmentEntry} (hslot : g.slots[k]? = some e) :
    ∃ A', Represents (g.set k (slotAfter id y)) A' := by
  unfold slotAfter
  split
  · exact ⟨_, SlotView.Represents.free hrep hslot _ rfl⟩
  · rename_i hfull
    exact ⟨_, SlotView.Represents.put_new hrep hslot (slotOf id y) rfl hA ⟨rfl, hfull, hbytes⟩⟩

end

/-- The frame that a fragment is filed in. -/
def target (A : Incomplete) (f : ExtFields) (hn : 1 ≤ f.totalFrags.toNat ∧ f.totalFrags.toNat ≤ 256) : Partial :=
  (A f.frameId).getD (.new f.totalFrags.toNat hn.1 hn.2)

theorem parseFragment_refused {f : ExtFields} (hn : f.totalFrags.toNat = 0 ∨ MAX_FRAGMENTS < f.totalFrags.toNat)
    (m : Mallocs) (g : FragmentTable) (r : ParsedFrame) (h : FixedHeader) (data : Bytes) :
    parseFragment m g r h f data = .ok (.error, g, r) := by
  rw [parseFragment, if_pos hn, pure_eq_ok]

/-- **A fragment** of 1 to 256 is filed in its frame. -/
theorem parseFragment_filed {g : FragmentTable} {A : Incomplete} (hrep : Represents g A) {h : FixedHeader}
    {f : ExtFields} (hn : 1 ≤ f.totalFrags.toNat ∧ f.totalFrags.toNat ≤ 256) {data piece : Bytes}
    (hpay : h.payload data = .ok piece) (hbytes : bufferBytes g + piece.length < 2 ^ 32) (r : ParsedFrame) :
    ∃ y g', y = (target A f hn).file f.fragIndex.toNat (h.info f) piece ∧ (concat y.pieces).length < 2 ^ 32 ∧
      parseFragment {} g r h f data = .ok (statusAfter y, g', resultAfter y r) ∧ ∃ A', Represents g' A' := by
  unfold parseFragment
  rw [if_neg (by simp only [MAX_FRAGMENTS]; omega)]
  refine ⟨(target A f hn).file f.fragIndex.toNat (h.info f) piece, ?_⟩
  have hfile := length_concat_file (target A f hn) f.fragIndex.toNat (h.info f) piece
  cases hA : A f.frameId with
  | some x =>
    obtain ⟨k, e, hk, hslot, -, hid, he, -, -⟩ := SlotView.Represents.find_of_some hrep hA
    have hkey : e.frameId = f.frameId := hid
    rw [hkey] at he
    subst he
    have hx : target A f hn = x := by rw [target, hA, Option.getD_some]
    rw [hx] at hfile ⊢
    have hown := length_concat_slot hslot
    have hsmall : (concat (x.file f.fragIndex.toNat (h.info f) piece).pieces).length < 2 ^ 32 := by omega
    have hfind : findFragmentEntry g f.frameId = some k := hk
    refine ⟨_, rfl, hsmall, ?_, represents_known hrep hsmall hslot⟩
    rw [hfind]
    exact fileFragment_slotOf hpay (by simp [List.getD_eq_getElem?_getD, hslot]) rfl hsmall r
  | none =>
    have hx : target A f hn = .new f.totalFrags.toNat hn.1 hn.2 := by rw [target, hA, Option.getD_none]
    rw [hx] at hfile ⊢
    rw [concat_new] at hfile
    have hsmall : (concat ((Partial.new f.totalFrags.toNat hn.1 hn.2).file f.fragIndex.toNat (h.info f)
        piece).pieces).length < 2 ^ 32 := by
      simp only [List.length_nil] at hfile
      omega
    obtain ⟨e, hslot⟩ := allocSlot_get g
    have hfind : findFragmentEntry g f.frameId = none := SlotView.Represents.find_of_none hrep hA
    have hget := getD_set (g := g) (allocSlot_lt g) (slotOf f.frameId (.new f.totalFrags.toNat hn.1 hn.2))
    refine ⟨_, rfl, hsmall, ?_, represents_new hrep hsmall hA hslot⟩
    rw [hfind]
    simp only [allocFragmentEntry_eq, newEntry_slotOf f.frameId (m := {}) rfl f.totalFrags hn.1 hn.2, hget]
    rw [if_neg (by simp [slotOf]), fileFragment_slotOf hpay hget rfl hsmall r, set_set]

/-! ## Calls -/

section
variable {data : Bytes} {ext : UInt8} (hext : FIXED_HEADER_SIZE + ext.toNat ≤ data.length)
include hext

theorem parseFragmentLayer_returns (flags : UInt8) (f : ExtFields) :
    ∃ r, parseFragmentLayer data ext flags f = .ok r := by
  unfold parseFragmentLayer
  split
  · rename_i hc
    have hroom := hc.2
    simp only [FIXED_HEADER_SIZE, FRAGMENT_EXT_SIZE] at hext hroom ⊢
    rw [readBe16_ok (by omega), ok_bind, readBe16_ok (by omega), ok_bind, readBe16_ok (by omega), ok_bind]
    exact ⟨_, rfl⟩
  · exact ⟨_, rfl⟩

theorem parseCommonLayer_returns (flags offset : UInt8) (f : ExtFields) :
    ∃ r, parseCommonLayer data ext flags offset f = .ok r := by
  unfold parseCommonLayer
  split
  · rename_i hc
    have hroom := hc.2
    rw [readByte_ok (by omega), ok_bind, readByte_ok (by omega), ok_bind]
    split
    · rename_i ha
      have habs := ha.2.2
      rw [readBe64_ok (by omega), ok_bind]
      exact ⟨_, rfl⟩
    · exact ⟨_, rfl⟩
  · exact ⟨_, rfl⟩

theorem parseTypeLayer_returns (msgType offset : UInt8) (f : ExtFields) :
    ∃ r, parseTypeLayer data ext msgType offset f = .ok r := by
  unfold parseTypeLayer
  split
  · rename_i hc
    have hroom := hc.2
    rw [readByte_ok (by omega), ok_bind, readByte_ok (by omega), ok_bind, readBe16_ok (by omega), ok_bind]
    exact ⟨_, rfl⟩
  · split
    · rename_i hc
      have hroom := hc.2
      rw [readByte_ok (by omega), ok_bind, readByte_ok (by omega), ok_bind, readByte_ok (by omega), ok_bind]
      exact ⟨_, rfl⟩
    · exact ⟨_, rfl⟩

/-- The extension headers of a frame that brings them are read. -/
theorem parseExtHeaders_returns (flags msgType : UInt8) : ∃ f, parseExtHeaders data ext flags msgType = .ok f := by
  obtain ⟨⟨o₁, f₁⟩, h₁⟩ := parseFragmentLayer_returns hext flags {}
  obtain ⟨⟨o₂, f₂⟩, h₂⟩ := parseCommonLayer_returns hext flags o₁ f₁
  obtain ⟨f₃, h₃⟩ := parseTypeLayer_returns hext msgType o₂ f₂
  exact ⟨f₃, by rw [parseExtHeaders, h₁, ok_bind]; simp only; rw [h₂, ok_bind]; exact h₃⟩

end

/-- The parser between two calls. -/
structure State where
  table : FragmentTable
  result : ParsedFrame

/-- An input whose declared lengths it has, in a 32-bit memory that holds it
beside the buffers of the table, so that every allocation can succeed. -/
structure Fits (s : State) (data : Bytes) : Prop where
  size : data.length < 2 ^ 31
  declared : ∀ h, validateHeader data = .ok (.ok h) → declaredSize data ≤ data.length
  memory : bufferBytes s.table + data.length < 2 ^ 32

/-- The headers of an accepted frame with a fragment. -/
structure IsFragment (data : Bytes) (h : FixedHeader) (f : ExtFields) : Prop where
  header : validateHeader data = .ok (.ok h)
  fields : parseExtHeaders data h.extLength h.flags h.msgType = .ok f
  flag : h.flags &&& FLAG_FRAGMENT ≠ 0

theorem IsFragment.unique {data : Bytes} {h h' : FixedHeader} {f f' : ExtFields} (hf : IsFragment data h f)
    (hf' : IsFragment data h' f') : h = h' ∧ f = f' := by
  have hheader := hf.header
  rw [hf'.header] at hheader
  cases hheader
  have hfields := hf.fields
  rw [hf'.fields] at hfields
  cases hfields
  exact ⟨rfl, rfl⟩

theorem validateHeader_returns {data : Bytes} (hlt : data.length < 2 ^ 31) : ∃ v, validateHeader data = .ok v := by
  by_cases h20 : 20 ≤ data.length
  · rw [validateHeader_eq h20 hlt]
    split
    · exact ⟨_, rfl⟩
    · split
      · exact ⟨_, rfl⟩
      · split <;> exact ⟨_, rfl⟩
  · rw [validateHeader_short (by omega)]
    exact ⟨_, rfl⟩

/-- The payload of an accepted frame that brings it. -/
theorem payload_returns {data : Bytes} (hlt : data.length < 2 ^ 31) {h : FixedHeader}
    (hv : validateHeader data = .ok (.ok h)) (hd : declaredSize data ≤ data.length) :
    FIXED_HEADER_SIZE + h.extLength.toNat ≤ data.length ∧
      ∃ piece, h.payload data = .ok piece ∧ piece.length ≤ data.length := by
  obtain ⟨h20, -, -, rfl⟩ := (validateHeader_ok hlt).mp hv
  rw [declaredSize_eq (by omega)] at hd
  refine ⟨by omega, _, readInput_ok hd, ?_⟩
  rw [List.length_take, List.length_drop]
  omega

theorem parseSingle_returns {data piece : Bytes} {h : FixedHeader} (hpay : h.payload data = .ok piece) (f : ExtFields) :
    ∃ status r, parseSingle {} h f data = .ok (status, r) := by
  unfold parseSingle
  simp only [hpay, if_true, ok_bind, pure_eq_ok]
  split <;> exact ⟨_, _, rfl⟩

/-- **A call** on an input that fits returns and keeps the map; a frame that
it completes by a fragment has no empty place left. -/
theorem parse_step {s : State} {A : Incomplete} (hrep : Represents s.table A) {data : Bytes} (hfit : Fits s data) :
    ∃ status g' r', frameProtocolParse {} s.table s.result data = .ok (status, g', r') ∧
      (∃ A', Represents g' A') ∧
      ∀ h f, IsFragment data h f → status = .complete → ∃ hn y piece, h.payload data = .ok piece ∧
        y = (target A f hn).file f.fragIndex.toNat (h.info f) piece ∧ y.Full ∧
        (concat y.pieces).length < 2 ^ 32 ∧ r' = resultAfter y s.result := by
  obtain ⟨v, hv⟩ := validateHeader_returns hfit.size
  unfold frameProtocolParse
  rw [hv, ok_bind]
  cases v with
  | error status =>
    refine ⟨status, s.table, s.result, rfl, ⟨A, hrep⟩, fun h f hfrag => ?_⟩
    rw [hfrag.header] at hv
    cases hv
  | ok h =>
    obtain ⟨hext, piece, hpay, hle⟩ := payload_returns hfit.size hv (hfit.declared h hv)
    obtain ⟨f, hf⟩ := parseExtHeaders_returns hext h.flags h.msgType
    simp only [hf, ok_bind]
    by_cases hflag : h.flags &&& FLAG_FRAGMENT = 0
    · obtain ⟨status, r', hsingle⟩ := parseSingle_returns hpay f
      rw [if_pos hflag, hsingle]
      refine ⟨status, s.table, r', rfl, ⟨A, hrep⟩, fun h' f' hfrag => ?_⟩
      rw [hfrag.header] at hv
      cases hv
      exact absurd hflag hfrag.flag
    · have hmem := hfit.memory
      rw [if_neg hflag]
      by_cases hrefused : f.totalFrags.toNat = 0 ∨ MAX_FRAGMENTS < f.totalFrags.toNat
      · have hstep := parseFragment_refused hrefused {} s.table s.result h data
        refine ⟨_, _, _, hstep, ⟨A, hrep⟩, fun h' f' _ hc => by cases hc⟩
      · have hn : 1 ≤ f.totalFrags.toNat ∧ f.totalFrags.toNat ≤ 256 := by
          simp only [MAX_FRAGMENTS] at hrefused
          omega
        obtain ⟨y, g', hy, hsmall, hstep, hA'⟩ := parseFragment_filed hrep hn hpay (by omega) s.result
        refine ⟨_, _, _, hstep, hA', fun h' f' hfrag hc => ?_⟩
        obtain ⟨rfl, rfl⟩ := hfrag.unique ⟨hv, hf, hflag⟩
        refine ⟨hn, y, piece, hpay, hy, ?_, hsmall, rfl⟩
        by_contra hfull
        rw [statusAfter, if_neg hfull] at hc
        cases hc

/-! ## Every reachable table -/

/-- Any inputs that fit, one after another. -/
def system : Lts State Bytes where
  init s := s.table = frameProtocolInit
  step s data s' := Fits s data ∧
    ∃ status, frameProtocolParse {} s.table s.result data = .ok (status, s'.table, s'.result)

theorem represents_reachable {s : State} (h : system.Reachable s) : ∃ A, Represents s.table A := by
  refine Lts.Inductive.reachable (M := system) (I := fun s => ∃ A, Represents s.table A) ⟨fun s h0 => ?_, ?_⟩ h
  · rw [show s.table = frameProtocolInit from h0]
    exact ⟨fun _ => none, SlotView.represents_replicate (V := pieceView) rfl maxEntries⟩
  · rintro s data s' ⟨A, hrep⟩ ⟨hfit, status, hstep⟩
    obtain ⟨status', g', r', hparse, hA', -⟩ := parse_step hrep hfit
    rw [hstep] at hparse
    cases hparse
    exact hA'

/-- An active entry with its three arrays. -/
structure EntryOk (e : FragmentEntry) (data : List (Option Bytes)) (sizes : List UInt32) (present : List Bool) :
    Prop where
  fragmentData : e.fragmentData = some data
  fragmentSizes : e.fragmentSizes = some sizes
  fragmentPresent : e.fragmentPresent = some present
  total : 1 ≤ e.totalFragments.toNat ∧ e.totalFragments.toNat ≤ 256
  lengths : data.length = e.totalFragments.toNat ∧ sizes.length = e.totalFragments.toNat ∧
    present.length = e.totalFragments.toNat
  received : e.receivedCount.toNat = present.count true ∧ e.receivedCount.toNat < e.totalFragments.toNat
  /-- A buffer exactly where the flag is set, of the size that is noted. -/
  buffers : ∀ i, i < e.totalFragments.toNat →
    (present[i]? = some true ↔ ∃ piece, data[i]? = some (some piece)) ∧
    ∀ piece, data[i]? = some (some piece) → ∃ size, sizes[i]? = some size ∧ size.toNat = piece.length

structure TableOk (g : FragmentTable) : Prop where
  entry : ∀ e, e ∈ g.slots → e.active = true → ∃ data sizes present, EntryOk e data sizes present
  distinct : ∀ (i j : Nat) (e e' : FragmentEntry), g.slots[i]? = some e → g.slots[j]? = some e' →
    e.active = true → e'.active = true → e.frameId = e'.frameId → i = j

theorem length_piece_le {ps : List (Option Bytes)} {piece : Bytes} (h : some piece ∈ ps) :
    piece.length ≤ (concat ps).length := by
  have hmem : piece ∈ ps.map (·.getD []) := List.mem_map.mpr ⟨_, h, rfl⟩
  exact (List.sublist_flatten_of_mem hmem).length_le

theorem entryOk_slotOf {id : UInt16} {x : Partial} (hopen : ¬ x.Full) (hbytes : (concat x.pieces).length < 2 ^ 32) :
    EntryOk (slotOf id x) x.pieces (x.pieces.map pieceSize) (x.pieces.map (·.isSome)) := by
  have htotal := slotOf_total id x
  have hreceived := slotOf_received id x
  have hlt := (not_congr (full_iff x)).mpr hopen
  refine ⟨rfl, rfl, rfl, ?_, ?_, ⟨?_, by omega⟩, fun i hi => ⟨?_, fun piece hp => ?_⟩⟩
  · rw [htotal]
    exact ⟨x.length_pos, x.length_le⟩
  · rw [htotal, List.length_map, List.length_map]
    exact ⟨rfl, rfl, rfl⟩
  · rw [hreceived, List.count, List.countP_map]
    congr 1
    funext piece
    simp
  · rw [List.getElem?_map]
    cases x.pieces[i]? with
    | none => simp
    | some piece => cases piece <;> simp
  · have := length_piece_le (List.mem_of_getElem? hp)
    refine ⟨UInt32.ofNat piece.length, by rw [List.getElem?_map, hp]; rfl, ?_⟩
    exact UInt32.toNat_ofNat_of_lt' (by simp only [UInt32.size]; omega)

theorem Represents.tableOk {g : FragmentTable} {A : Incomplete} (h : Represents g A) : TableOk g where
  entry e hmem ha := by
    obtain ⟨t, ht⟩ := List.mem_iff_getElem?.mp hmem
    obtain ⟨x, -, he, hopen, hbytes⟩ := h.slot t e ht ha
    rw [he]
    exact ⟨_, _, _, entryOk_slotOf hopen hbytes⟩
  distinct i j e e' hi hj ha ha' hid := h.distinct i j e e' hi hj ha ha' hid

/-! ## What a completed frame consists of -/

/-- `total_fragments` of a fragment's frame: its slot's, or what the fragment
declares while the frame has none. -/
def frameTotal (g : FragmentTable) (f : ExtFields) : Nat :=
  match findFragmentEntry g f.frameId with
  | some k => (g.slots.getD k {}).totalFragments.toNat
  | none => f.totalFrags.toNat

/-- The result of a frame completed by a fragment: a piece for every index of
the frame, its own payload and, at every other index, what the frame's slot
has there, each once and in order. -/
structure Reassembled (g : FragmentTable) (f : ExtFields) (piece : Bytes) (result : ParsedFrame) (pieces : List Bytes) :
    Prop where
  payload : result.payload = some pieces.flatten
  payloadSize : result.payloadSize.toNat = pieces.flatten.length
  total : pieces.length = frameTotal g f
  own : pieces[f.fragIndex.toNat]? = some piece
  others : ∀ (i : Nat) (p : Bytes), i ≠ f.fragIndex.toNat → pieces[i]? = some p →
    ∃ e, e ∈ g.slots ∧ e.active = true ∧ e.frameId = f.frameId ∧ e.totalFragments.toNat = pieces.length ∧
      arrGet e.fragmentPresent i = .ok true ∧ arrGet e.fragmentData i = .ok (some p)

theorem target_open {g : FragmentTable} {A : Incomplete} (hrep : Represents g A) {f : ExtFields}
    (hn : 1 ≤ f.totalFrags.toNat ∧ f.totalFrags.toNat ≤ 256) : ¬ (target A f hn).Full := by
  unfold target
  cases hA : A f.frameId with
  | some x =>
    obtain ⟨t, e, -, -, -, -, hopen, -⟩ := hrep.filed _ _ hA
    exact hopen
  | none =>
    exact new_open _ hn.1 hn.2

theorem target_length {g : FragmentTable} {A : Incomplete} (hrep : Represents g A) {f : ExtFields}
    (hn : 1 ≤ f.totalFrags.toNat ∧ f.totalFrags.toNat ≤ 256) : (target A f hn).pieces.length = frameTotal g f := by
  unfold target frameTotal
  cases hA : A f.frameId with
  | some x =>
    obtain ⟨k, e, hk, hslot, -, -, he, -, -⟩ := SlotView.Represents.find_of_some hrep hA
    have hfind : findFragmentEntry g f.frameId = some k := hk
    have hget : g.slots.getD k {} = e := by rw [List.getD_eq_getElem?_getD, hslot, Option.getD_some]
    simp only [hfind, hget, Option.getD_some]
    rw [he, slotOf_total]
  | none =>
    have hfind : findFragmentEntry g f.frameId = none := SlotView.Represents.find_of_none hrep hA
    simp only [hfind, Option.getD_none, Partial.new, List.length_replicate]

/-- A frame becomes full only through the place of the fragment. -/
theorem file_full {x : Partial} (hopen : ¬ x.Full) {idx : Nat} {info : FrameMeta} {piece : Bytes}
    (hfull : (x.file idx info piece).Full) :
    x.pieces[idx]? = some none ∧ (x.file idx info piece).pieces = x.pieces.set idx (some piece) := by
  by_cases h : x.pieces[idx]? = some none
  · exact ⟨h, if_pos h⟩
  · have hsame : (x.file idx info piece).pieces = x.pieces := if_neg h
    rw [Partial.Full, hsame] at hfull
    exact absurd hfull hopen

theorem reassembled {g : FragmentTable} {A : Incomplete} (hrep : Represents g A) {f : ExtFields}
    (hn : 1 ≤ f.totalFrags.toNat ∧ f.totalFrags.toNat ≤ 256) {info : FrameMeta} {piece : Bytes} {y : Partial}
    (hy : y = (target A f hn).file f.fragIndex.toNat info piece) (hfull : y.Full)
    (hbytes : (concat y.pieces).length < 2 ^ 32) (r : ParsedFrame) :
    Reassembled g f piece (resultAfter y r) (y.pieces.map (·.getD [])) := by
  have hfull' : ((target A f hn).file f.fragIndex.toNat info piece).Full := hy ▸ hfull
  obtain ⟨hempty, hset⟩ := file_full (target_open hrep hn) hfull'
  rw [← hy] at hset
  obtain ⟨hidx, -⟩ := List.getElem?_eq_some_iff.mp hempty
  have hr : resultAfter y r = { info := y.info, payload := some (concat y.pieces)
                                payloadSize := UInt32.ofNat (concat y.pieces).length } := if_pos hfull
  refine ⟨by rw [hr]; rfl, ?_, ?_, ?_, fun i p hi hp => ?_⟩
  · rw [hr]
    exact UInt32.toNat_ofNat_of_lt' hbytes
  · rw [hset, List.length_map, List.length_set, target_length hrep hn]
  · rw [hset, List.getElem?_map, List.getElem?_set_self hidx]
    rfl
  · rw [List.getElem?_map, hset, List.getElem?_set_ne (Ne.symm hi)] at hp
    obtain ⟨q, hq, rfl⟩ := Option.map_eq_some_iff.mp hp
    cases q with
    | none =>
      refine absurd ?_ hfull
      rw [hset]
      exact List.mem_of_getElem? (by rw [List.getElem?_set_ne (Ne.symm hi)]; exact hq)
    | some p =>
      cases hA : A f.frameId with
      | none =>
        -- a frame without a slot has no piece yet
        rw [target, hA, Option.getD_none, Partial.new] at hq
        have := List.eq_of_mem_replicate (List.mem_of_getElem? hq)
        cases this
      | some x =>
        rw [target, hA, Option.getD_some] at hq hset
        obtain ⟨t, e, ht, ha, hid, he, -, -⟩ := hrep.filed _ _ hA
        have hkey : e.frameId = f.frameId := hid
        refine ⟨e, List.mem_of_getElem? ht, ha, hkey, ?_, ?_, ?_⟩
        · rw [he, slotOf_total, hset, List.length_map, List.length_set]
        · rw [he]
          simp [slotOf, arrGet, hq]
        · rw [he]
          simp [slotOf, arrGet, hq]

/-- **The fragment table.** After any calls, every active entry is incomplete
with consistent arrays, no two share a frame id, and the next call returns;
when it completes a frame by a fragment, the output is one piece for every
index of the frame, each in its place. -/
theorem fragment_table_invariant {s : State} (h : system.Reachable s) : TableOk s.table ∧ ∀ data, Fits s data →
    ∃ status g' r', frameProtocolParse {} s.table s.result data = .ok (status, g', r') ∧
      ∀ h f, IsFragment data h f → status = .complete →
        ∃ piece pieces, h.payload data = .ok piece ∧ Reassembled s.table f piece r' pieces := by
  obtain ⟨A, hrep⟩ := represents_reachable h
  refine ⟨hrep.tableOk, fun data hfit => ?_⟩
  obtain ⟨status, g', r', hparse, -, hdone⟩ := parse_step hrep hfit
  refine ⟨status, g', r', hparse, fun h f hfrag hc => ?_⟩
  obtain ⟨hn, y, piece, hpay, hy, hfull, hbytes, rfl⟩ := hdone h f hfrag hc
  exact ⟨piece, _, hpay, reassembled hrep hn hy hfull hbytes s.result⟩

/-- Fragment 1 of 2 of frame 5, with one byte. -/
def lateHalf : Bytes :=
  [0xEB, 0x01, 0x01, 0x01, 0x01, 0, 0, 0, 0, 0, 0, 0, 0, 6, 0, 0, 0, 1, 0, 0, 0, 5, 0, 1, 0, 2, 7]

/-- Its slot. -/
def lateHalfSlot : FragmentEntry := slotOf 5 ⟨{}, [none, some [7]], by decide, by decide⟩

/-- Fragment 0 of the frame. -/
def earlyHalf : Bytes :=
  [0xEB, 0x01, 0x01, 0x01, 0x01, 0, 0, 0, 0, 0, 0, 0, 0, 6, 0, 0, 0, 1, 0, 0, 0, 5, 0, 0, 0, 2, 6]

theorem fragment_table_invariant_half : ∃ s, system.Reachable s ∧ s.table.slots[0]? = some lateHalfSlot ∧
    TableOk s.table ∧ ∃ g' r' f pieces, frameProtocolParse {} s.table s.result earlyHalf = .ok (.complete, g', r') ∧
      Reassembled s.table f [6] r' pieces ∧ pieces.length = 2 := by
  have hfit : Fits ⟨frameProtocolInit, {}⟩ lateHalf := ⟨by decide, fun _ _ => by decide, by decide⟩
  have hparse : frameProtocolParse {} frameProtocolInit {} lateHalf =
      .ok (.fragmentPending, frameProtocolInit.set 0 lateHalfSlot, {}) := rfl
  have hinit : system.init ⟨frameProtocolInit, {}⟩ := rfl
  have hstep : system.step ⟨frameProtocolInit, {}⟩ lateHalf ⟨frameProtocolInit.set 0 lateHalfSlot, {}⟩ :=
    ⟨hfit, .fragmentPending, hparse⟩
  have hreach := (Lts.reachable_init hinit).step hstep
  obtain ⟨hok, hnext⟩ := fragment_table_invariant hreach
  obtain ⟨status, g', r', hagain, hdone⟩ := hnext earlyHalf ⟨by decide, fun _ _ => by decide, by decide⟩
  have hcomplete : status = .complete := by
    have hrun : (frameProtocolParse {} (frameProtocolInit.set 0 lateHalfSlot) {} earlyHalf).map (·.1) = .ok .complete := rfl
    rw [hagain] at hrun
    exact Except.ok.inj hrun
  obtain ⟨piece, pieces, hpay, hall⟩ :=
    hdone ⟨1, 1, 0, 6, 1⟩ { frameId := 5, fragIndex := 0, totalFrags := 2 } ⟨by decide, by decide, by decide⟩ hcomplete
  cases (show FixedHeader.payload ⟨1, 1, 0, 6, 1⟩ earlyHalf = .ok [6] from rfl).symm.trans hpay
  rw [hcomplete] at hagain
  exact ⟨_, hreach, rfl, hok, g', r', _, pieces, hagain, hall, hall.total⟩

end WebPlayer.L2.TableInvariant
