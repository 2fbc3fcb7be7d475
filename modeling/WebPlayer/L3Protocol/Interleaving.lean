import WebPlayer.L2Machine.Reassembler
import Mathlib.Data.List.FinRange

/-!
# Encoder and parser under any interleaving

The protocol frames of a list of encode calls are delivered once each, in
any order. `indices pre k` is what the prefix `pre` has filed of call `k`;
the invariant says that the reassembler holds exactly the calls that are
begun and not finished.

`parse_interleaved`: the parser reports a call complete at its last protocol
frame, with what was encoded, and every other delivery as pending.
-/
namespace WebPlayer.L3.Interleaving
open WebPlayer.Core WebPlayer.L1.FrameEncoder WebPlayer.L1.FrameParser WebPlayer.L2.FragmentSlots
  WebPlayer.L2.Reassembler

/-! ## Deliveries -/

/-- A protocol frame: its call and its index in what the call returns. -/
abbrev Delivery (calls : List EncodeCall) := Fin calls.length × Nat

section
variable {calls : List EncodeCall}

def bytes (d : Delivery calls) : Bytes := (calls.get d.1).encode.getD d.2 []

/-- Every protocol frame of every call. -/
def deliveries (calls : List EncodeCall) : List (Delivery calls) :=
  (List.finRange calls.length).flatMap fun k => (List.range (calls.get k).encode.length).map (k, ·)

/-- `ds` has a protocol frame of call `k`. -/
def Touches (ds : List (Delivery calls)) (k : Fin calls.length) : Prop := ∃ d ∈ ds, d.1 = k

instance (ds : List (Delivery calls)) (k : Fin calls.length) : Decidable (Touches ds k) :=
  inferInstanceAs (Decidable (∃ d ∈ ds, d.1 = k))

/-- The fragmented calls begun in `pre` and not finished before `post`. -/
def incomplete (pre post : List (Delivery calls)) : List (Fin calls.length) :=
  (List.finRange calls.length).filter fun k => (calls.get k).Fragmented ∧ Touches pre k ∧ Touches post k

/-- Each protocol frame once; at any moment at most 16 fragmented frames are
incomplete, with distinct frame ids. -/
structure Admissible (order : List (Delivery calls)) : Prop where
  perm : order.Perm (deliveries calls)
  atMost16 : ∀ pre post, order = pre ++ post → (incomplete pre post).length ≤ 16
  distinctIds : ∀ pre post, order = pre ++ post →
    ((incomplete pre post).map fun k => (calls.get k).frameId).Nodup

/-- What one call of the parser shows: the status and, when it is
`FRAME_COMPLETE`, the result. -/
abbrev Report := FrameParseStatus × Option ParsedFrame

def report (status : FrameParseStatus) (r : ParsedFrame) : Report :=
  (status, if status = .complete then some r else none)

/-- The reports of feeding protocol frames one by one. -/
def parseAll (g : FragmentTable) (r : ParsedFrame) : List Bytes → Except Fault (List Report)
  | [] => pure []
  | data :: rest => do
    let (status, g, r) ← frameProtocolParse {} g r data
    let reports ← parseAll g r rest
    pure (report status r :: reports)

/-- The report due at `d` when `later` is still to come. -/
def expectedReport (d : Delivery calls) (later : List (Delivery calls)) : Report :=
  if Touches later d.1 then (.fragmentPending, none) else (.complete, some (callFrame (calls.get d.1)))

def expected : List (Delivery calls) → List Report
  | [] => []
  | d :: later => expectedReport d later :: expected later

theorem mem_incomplete {pre post : List (Delivery calls)} {k : Fin calls.length} :
    k ∈ incomplete pre post ↔ (calls.get k).Fragmented ∧ Touches pre k ∧ Touches post k := by
  simp [incomplete]

theorem touches_snoc {ds : List (Delivery calls)} {d : Delivery calls} {k : Fin calls.length} :
    Touches (ds ++ [d]) k ↔ Touches ds k ∨ d.1 = k := by
  simp [Touches, or_and_right, exists_or]

theorem touches_cons {ds : List (Delivery calls)} {d : Delivery calls} {k : Fin calls.length} :
    Touches (d :: ds) k ↔ d.1 = k ∨ Touches ds k := by
  simp [Touches]

/-- Delivering `d` changes nothing for the other calls. -/
theorem mem_incomplete_of_ne {pre post : List (Delivery calls)} {d : Delivery calls} {k : Fin calls.length}
    (hk : k ≠ d.1) : k ∈ incomplete (pre ++ [d]) post ↔ k ∈ incomplete pre (d :: post) := by
  simp only [mem_incomplete, touches_snoc, touches_cons, Ne.symm hk, or_false, false_or]

theorem mem_deliveries {d : Delivery calls} :
    d ∈ deliveries calls ↔ d.2 < (calls.get d.1).encode.length := by
  obtain ⟨k, i⟩ := d
  simp [deliveries]

/-- Call by call. -/
theorem deliveries_sorted : (deliveries calls).Pairwise fun d d' => d.1 ≤ d'.1 := by
  refine List.pairwise_flatMap.mpr ⟨fun k _ => ?_, ?_⟩
  · apply List.pairwise_map.mpr
    exact List.pairwise_of_forall fun _ _ => Nat.le_refl _
  · refine (List.pairwise_lt_finRange _).imp fun {k k'} hlt d hd d' hd' => ?_
    obtain ⟨i, -, rfl⟩ := List.mem_map.mp hd
    obtain ⟨i', -, rfl⟩ := List.mem_map.mp hd'
    exact Nat.le_of_lt hlt

theorem nodup_deliveries : (deliveries calls).Nodup := by
  refine List.nodup_flatMap.mpr ⟨fun k _ => ?_, ?_⟩
  · exact List.nodup_range.map fun i j hij => (Prod.mk.injEq ..).mp hij |>.2
  · refine (List.nodup_finRange _).imp fun {k k'} hne d hd hd' => ?_
    obtain ⟨i, -, rfl⟩ := List.mem_map.mp hd
    obtain ⟨j, -, hj⟩ := List.mem_map.mp hd'
    exact hne ((Prod.mk.injEq ..).mp hj).1.symm

/-- The indices of call `k` in `ds`. -/
def indices (ds : List (Delivery calls)) (k : Fin calls.length) : Finset Nat :=
  ((ds.filter fun d => d.1 = k).map (·.2)).toFinset

theorem mem_indices {ds : List (Delivery calls)} {k : Fin calls.length} {i : Nat} :
    i ∈ indices ds k ↔ (k, i) ∈ ds := by
  simp only [indices, List.mem_toFinset, List.mem_map, List.mem_filter, decide_eq_true_eq]
  constructor
  · rintro ⟨⟨k', j⟩, ⟨hd, rfl⟩, rfl⟩; exact hd
  · exact fun h => ⟨(k, i), ⟨h, rfl⟩, rfl⟩

theorem indices_snoc_of_ne {ds : List (Delivery calls)} {d : Delivery calls} {k : Fin calls.length}
    (hk : k ≠ d.1) : indices (ds ++ [d]) k = indices ds k := by
  ext i
  simp only [mem_indices, List.mem_append, List.mem_singleton]
  exact or_iff_left fun h => hk (by rw [← h])

theorem indices_snoc (ds : List (Delivery calls)) (d : Delivery calls) :
    indices (ds ++ [d]) d.1 = insert d.2 (indices ds d.1) := by
  ext i
  simp only [mem_indices, List.mem_append, List.mem_singleton, Finset.mem_insert]
  rw [or_comm, Prod.ext_iff]
  simp

/-- Two incomplete calls with one frame id are one call. -/
theorem Admissible.eq_of_frameId {order : List (Delivery calls)} (ho : Admissible order)
    (pre post : List (Delivery calls)) (h : order = pre ++ post) {k k' : Fin calls.length}
    (hk : k ∈ incomplete pre post) (hk' : k' ∈ incomplete pre post)
    (hid : (calls.get k).frameId = (calls.get k').frameId) : k = k' :=
  List.inj_on_of_nodup_map (ho.distinctIds pre post h) hk hk' hid

theorem indices_eq_empty {ds : List (Delivery calls)} {k : Fin calls.length} (h : ¬ Touches ds k) :
    indices ds k = ∅ := by
  ext i
  rw [mem_indices]
  exact ⟨fun hin => absurd ⟨_, hin, rfl⟩ h, fun hin => absurd hin (by simp)⟩

theorem bytes_fragment {d : Delivery calls} (hf : (calls.get d.1).Fragmented) (hd : d.2 < fragments (calls.get d.1)) :
    bytes d = fragmentFrame (calls.get d.1) d.2 := by
  have hd' : d.2 < (totalFragments (calls.get d.1).payload).toNat := hd
  rw [bytes, encode_fragments hf, List.getD_eq_getElem?_getD, List.getElem?_map, List.getElem?_range hd']
  rfl

theorem bytes_single {d : Delivery calls} (hf : ¬ (calls.get d.1).Fragmented) (hd : d.2 = 0) :
    bytes d = singleFrame (calls.get d.1) := by
  rw [bytes, encode_single hf, hd]
  rfl

/-! ## The invariant -/

/-- The reassembler holds the incomplete calls, with their indices. -/
structure Holds (pre post : List (Delivery calls)) (A : Filed) : Prop where
  only : ∀ id c S, A id = some (c, S) →
    ∃ k ∈ incomplete pre post, (calls.get k).frameId = id ∧ c = calls.get k ∧ S = indices pre k
  all : ∀ k ∈ incomplete pre post, A (calls.get k).frameId = some (calls.get k, indices pre k)

theorem holds_init (order : List (Delivery calls)) : Holds [] order fun _ => none where
  only := nofun
  all k hk := by
    obtain ⟨-, ⟨d, hd, -⟩, -⟩ := mem_incomplete.mp hk
    cases hd

/-- What is held after `d` differs at the id of its call only. -/
theorem Holds.step {pre post : List (Delivery calls)} {d : Delivery calls} {A : Filed}
    (h : Holds pre (d :: post) A)
    (hother : ∀ k ∈ incomplete pre (d :: post), k ≠ d.1 → (calls.get k).frameId ≠ (calls.get d.1).frameId)
    {v : Option (EncodeCall × Finset Nat)}
    (hv : v = if d.1 ∈ incomplete (pre ++ [d]) post then some (calls.get d.1, indices (pre ++ [d]) d.1) else none) :
    Holds (pre ++ [d]) post (Function.update A (calls.get d.1).frameId v) := by
  refine ⟨fun id c S hA => ?_, fun k hk => ?_⟩
  · by_cases hid : id = (calls.get d.1).frameId
    · rw [hid, Function.update_self, hv] at hA
      split at hA
      · rename_i hmem
        cases hA
        exact ⟨d.1, hmem, hid.symm, rfl, rfl⟩
      · cases hA
    · rw [Function.update_of_ne hid] at hA
      obtain ⟨k, hk, hkid, hc, hS⟩ := h.only id c S hA
      have hne : k ≠ d.1 := by rintro rfl; exact hid hkid.symm
      exact ⟨k, (mem_incomplete_of_ne hne).mpr hk, hkid, hc, by rw [hS, indices_snoc_of_ne hne]⟩
  · by_cases hne : k = d.1
    · rw [hne] at hk ⊢
      rw [Function.update_self, hv, if_pos hk]
    · have hk' := (mem_incomplete_of_ne hne).mp hk
      rw [Function.update_of_ne (hother k hk' hne), h.all k hk', indices_snoc_of_ne hne]

end

/-! ## One delivery -/

theorem splits_of_fragmented {calls : List EncodeCall} (hb : ∀ c ∈ calls, c.payload.length ≤ maxPayload)
    (k : Fin calls.length) (hf : (calls.get k).Fragmented) : Splits (calls.get k) :=
  ⟨hf, hb _ (List.get_mem ..)⟩

section
variable {calls : List EncodeCall} (hb : ∀ c ∈ calls, c.payload.length ≤ maxPayload)
  {order : List (Delivery calls)} (ho : Admissible order) {pre post : List (Delivery calls)} {d : Delivery calls}
  (hsplit : order = pre ++ d :: post)
include ho hsplit

theorem index_lt {e : Delivery calls} (he : e ∈ pre ++ d :: post) : e.2 < (calls.get e.1).encode.length :=
  mem_deliveries.mp (ho.perm.mem_iff.mp (hsplit ▸ he))

theorem mem_of_index_lt {e : Delivery calls} (he : e.2 < (calls.get e.1).encode.length) :
    e ∈ pre ∨ e = d ∨ e ∈ post := by
  have := ho.perm.mem_iff.mpr (mem_deliveries.mpr he)
  rw [hsplit] at this
  simpa using this

theorem nodup_split : d ∉ pre ∧ d ∉ post ∧ List.Disjoint pre post := by
  have hn : (pre ++ d :: post).Nodup := hsplit ▸ (ho.perm.nodup_iff.mpr nodup_deliveries)
  obtain ⟨-, hn2, hdis⟩ := List.nodup_append.mp hn
  refine ⟨fun hd => hdis d hd d (by simp) rfl, (List.nodup_cons.mp hn2).1, fun e he he' => ?_⟩
  exact hdis e he e (by simp [he']) rfl

/-- The last protocol frame of a fragmented call is the one that fills it. -/
theorem full_iff (hf : (calls.get d.1).Fragmented) :
    insert d.2 (indices pre d.1) = Finset.range (fragments (calls.get d.1)) ↔ ¬ Touches post d.1 := by
  have hlen : (calls.get d.1).encode.length = fragments (calls.get d.1) := by
    rw [encode_length, if_pos hf]; rfl
  obtain ⟨hpre, hpost, hdis⟩ := nodup_split ho hsplit
  constructor
  · rintro hfull ⟨e, he, hek⟩
    have hlt := index_lt ho hsplit (e := e) (by simp [he])
    rw [hek, hlen, ← Finset.mem_range, ← hfull, ← indices_snoc, mem_indices, ← hek, List.mem_append,
      List.mem_singleton] at hlt
    rcases hlt with hin | rfl
    · exact hdis hin he
    · exact hpost he
  · intro hlast
    ext i
    rw [← indices_snoc, mem_indices, Finset.mem_range, ← hlen]
    constructor
    · intro hin
      exact index_lt ho hsplit (e := (d.1, i)) (by
        rcases List.mem_append.mp hin with h | h
        · exact List.mem_append_left _ h
        · rw [List.mem_singleton.mp h]; simp)
    · intro hi
      rcases mem_of_index_lt ho hsplit (e := (d.1, i)) hi with h | h | h
      · exact List.mem_append_left _ h
      · rw [h]; simp
      · exact absurd ⟨_, h, rfl⟩ hlast

include hb

/-- A fragmented call whose first protocol frame is `d` has more to come. -/
theorem touches_post_of_first (hf : (calls.get d.1).Fragmented) (hfirst : ¬ Touches pre d.1) : Touches post d.1 := by
  by_contra hlast
  have hfull := (full_iff ho hsplit hf).mpr hlast
  have hcard := congrArg Finset.card hfull
  have h2 := (splits_of_fragmented hb d.1 hf).two_le
  rw [indices_eq_empty hfirst, Finset.card_range, insert_empty_eq, Finset.card_singleton] at hcard
  omega

/-- Deliveries of other incomplete calls carry other ids. -/
theorem frameId_ne (hf : (calls.get d.1).Fragmented) {k : Fin calls.length} (hk : k ∈ incomplete pre (d :: post))
    (hne : k ≠ d.1) : (calls.get k).frameId ≠ (calls.get d.1).frameId := by
  intro hid
  by_cases hfirst : Touches pre d.1
  · exact hne (ho.eq_of_frameId pre (d :: post) hsplit hk
      (mem_incomplete.mpr ⟨hf, hfirst, touches_cons.mpr (.inl rfl)⟩) hid)
  · exact hne (ho.eq_of_frameId (pre ++ [d]) post (by simp [hsplit])
      ((mem_incomplete_of_ne hne).mpr hk)
      (mem_incomplete.mpr ⟨hf, touches_snoc.mpr (.inr rfl), touches_post_of_first hb ho hsplit hf hfirst⟩) hid)

theorem room_of_first (hf : (calls.get d.1).Fragmented) (hfirst : ¬ Touches pre d.1) {A : Filed}
    (hA : Holds pre (d :: post) A) : A (calls.get d.1).frameId = none ∧
      ∃ ids : List UInt16, (∀ id, A id ≠ none → id ∈ ids) ∧ ids.length < 16 := by
  have hne : ∀ k ∈ incomplete pre (d :: post), k ≠ d.1 := by
    rintro k hk rfl
    exact hfirst (mem_incomplete.mp hk).2.1
  have hnone : A (calls.get d.1).frameId = none := by
    cases h : A (calls.get d.1).frameId with
    | none => rfl
    | some cS =>
      obtain ⟨k, hk, hid, -⟩ := hA.only _ cS.1 cS.2 h
      exact absurd hid (frameId_ne hb ho hsplit hf hk (hne k hk))
  refine ⟨hnone, ?_⟩
  -- the ids held are those incomplete after `d`, without its own
  have hnow : d.1 ∈ incomplete (pre ++ [d]) post :=
    mem_incomplete.mpr ⟨hf, touches_snoc.mpr (.inr rfl), touches_post_of_first hb ho hsplit hf hfirst⟩
  have hmax := ho.atMost16 (pre ++ [d]) post (by simp [hsplit])
  refine ⟨((incomplete (pre ++ [d]) post).map fun k => (calls.get k).frameId).erase (calls.get d.1).frameId,
    fun id hid => ?_, ?_⟩
  · obtain ⟨⟨c, S⟩, hcS⟩ := Option.ne_none_iff_exists'.mp hid
    obtain ⟨k, hk, hkid, -⟩ := hA.only id c S hcS
    have hmem := (mem_incomplete_of_ne (hne k hk)).mpr hk
    refine (List.mem_erase_of_ne ?_).mpr (List.mem_map.mpr ⟨k, hmem, hkid⟩)
    rintro rfl
    exact hid hnone
  · rw [List.length_erase_of_mem (List.mem_map.mpr ⟨d.1, hnow, rfl⟩), List.length_map]
    have := List.length_pos_of_mem hnow
    omega

section
variable {g : FragmentTable} {A : Filed} (hg : Represents Receiving g A) (hA : Holds pre (d :: post) A) (r : ParsedFrame)
include hg hA

/-- A later fragment: its call is held. -/
theorem later_step (hf : (calls.get d.1).Fragmented) (hfirst : Touches pre d.1) :
    ∃ status g' r' A', frameProtocolParse {} g r (bytes d) = .ok (status, g', r') ∧
      report status r' = expectedReport d post ∧ Represents Receiving g' A' ∧ Holds (pre ++ [d]) post A' := by
  obtain ⟨hpre, -, -⟩ := nodup_split ho hsplit
  have hi := index_lt ho hsplit (e := d) (by simp)
  rw [encode_length, if_pos hf] at hi
  have hc := splits_of_fragmented hb d.1 hf
  have hmem : d.1 ∈ incomplete (pre ++ [d]) post ↔ Touches post d.1 := by
    rw [mem_incomplete, touches_snoc]
    exact ⟨fun h => h.2.2, fun h => ⟨hf, .inr rfl, h⟩⟩
  have hother := fun k hk hne => frameId_ne hb ho hsplit hf (k := k) hk hne
  rw [bytes_fragment hf hi]
  have hheld := hA.all d.1 (mem_incomplete.mpr ⟨hf, hfirst, touches_cons.mpr (.inl rfl)⟩)
  have hS : indices pre d.1 ⊆ Finset.range (fragments (calls.get d.1)) := by
    intro i hin
    have := index_lt ho hsplit (e := (d.1, i)) (List.mem_append_left _ (mem_indices.mp hin))
    rw [encode_length, if_pos hf] at this
    exact Finset.mem_range.mpr this
  have hparse := parse_known hc hi r hg hheld hS fun h => hpre (mem_indices.mp h)
  by_cases hlast : Touches post d.1
  · rw [if_neg (fun h => (full_iff ho hsplit hf).mp h hlast)] at hparse
    obtain ⟨g', hp, hg'⟩ := hparse
    refine ⟨_, g', r, _, hp, ?_, hg', hA.step hother ?_⟩
    · simp [report, expectedReport, hlast]
    · rw [if_pos (hmem.mpr hlast), indices_snoc]
  · rw [if_pos ((full_iff ho hsplit hf).mpr hlast)] at hparse
    obtain ⟨g', hp, hg'⟩ := hparse
    refine ⟨_, g', _, _, hp, ?_, hg', hA.step hother ?_⟩
    · simp [report, expectedReport, hlast]
    · rw [if_neg (fun h => hlast (hmem.mp h))]

/-- The first fragment of a call: a free slot takes it. -/
theorem first_step (hf : (calls.get d.1).Fragmented) (hfirst : ¬ Touches pre d.1) :
    ∃ status g' r' A', frameProtocolParse {} g r (bytes d) = .ok (status, g', r') ∧
      report status r' = expectedReport d post ∧ Represents Receiving g' A' ∧ Holds (pre ++ [d]) post A' := by
  have hi := index_lt ho hsplit (e := d) (by simp)
  rw [encode_length, if_pos hf] at hi
  have hc := splits_of_fragmented hb d.1 hf
  have hother := fun k hk hne => frameId_ne hb ho hsplit hf (k := k) hk hne
  rw [bytes_fragment hf hi]
  obtain ⟨hnone, hroom⟩ := room_of_first hb ho hsplit hf hfirst hA
  obtain ⟨g', hp, hg'⟩ := parse_new hc hi r hg hnone hroom
  have hlast := touches_post_of_first hb ho hsplit hf hfirst
  have hmem : d.1 ∈ incomplete (pre ++ [d]) post := mem_incomplete.mpr ⟨hf, touches_snoc.mpr (.inr rfl), hlast⟩
  refine ⟨_, g', r, _, hp, ?_, hg', hA.step hother ?_⟩
  · simp [report, expectedReport, hlast]
  · rw [if_pos hmem, indices_snoc, indices_eq_empty hfirst]
    rfl

omit hb in
/-- An unfragmented call has one protocol frame. -/
theorem single_step (hf : ¬ (calls.get d.1).Fragmented) :
    ∃ status g' r' A', frameProtocolParse {} g r (bytes d) = .ok (status, g', r') ∧
      report status r' = expectedReport d post ∧ Represents Receiving g' A' ∧ Holds (pre ++ [d]) post A' := by
  obtain ⟨-, hpost, -⟩ := nodup_split ho hsplit
  have hone : (calls.get d.1).encode.length = 1 := by rw [encode_length, if_neg hf]
  have hd2 : d.2 < 1 := hone ▸ index_lt ho hsplit (e := d) (by simp)
  have hlast : ¬ Touches post d.1 := by
    rintro ⟨e, he, hek⟩
    have he2 := index_lt ho hsplit (e := e) (by simp [he])
    rw [hek, hone] at he2
    have : e = d := Prod.ext hek (by omega)
    exact hpost (this ▸ he)
  have hparse : frameProtocolParse {} g r (bytes d) = .ok (.complete, g, callFrame (calls.get d.1)) := by
    rw [bytes_single hf (by omega), parse_single hf, if_pos (.inr rfl)]
  have hne : ∀ k, k ∈ incomplete (pre ++ [d]) post → k ≠ d.1 := by
    rintro k hk rfl
    exact hf (mem_incomplete.mp hk).1
  have hne' : ∀ k, k ∈ incomplete pre (d :: post) → k ≠ d.1 := by
    rintro k hk rfl
    exact hf (mem_incomplete.mp hk).1
  refine ⟨_, _, _, A, hparse, ?_, hg, fun id c S h => ?_, fun k hk => ?_⟩
  · simp [report, expectedReport, hlast]
  · obtain ⟨k, hk, hid, hc, hS⟩ := hA.only id c S h
    exact ⟨k, (mem_incomplete_of_ne (hne' k hk)).mpr hk, hid, hc, by rw [hS, indices_snoc_of_ne (hne' k hk)]⟩
  · rw [hA.all k ((mem_incomplete_of_ne (hne k hk)).mp hk), indices_snoc_of_ne (hne k hk)]

/-- **One delivery** reports what is due and keeps the invariant. -/
theorem deliver_step : ∃ status g' r' A', frameProtocolParse {} g r (bytes d) = .ok (status, g', r') ∧
    report status r' = expectedReport d post ∧ Represents Receiving g' A' ∧ Holds (pre ++ [d]) post A' := by
  by_cases hf : (calls.get d.1).Fragmented
  · by_cases hfirst : Touches pre d.1
    · exact later_step hb ho hsplit hg hA r hf hfirst
    · exact first_step hb ho hsplit hg hA r hf hfirst
  · exact single_step ho hsplit hg hA r hf

end

end

/-! ## Runs -/

theorem parseAll_expected {calls : List EncodeCall} (hb : ∀ c ∈ calls, c.payload.length ≤ maxPayload)
    {order : List (Delivery calls)} (ho : Admissible order) (post : List (Delivery calls)) :
    ∀ pre : List (Delivery calls), order = pre ++ post → ∀ {g : FragmentTable} {A : Filed},
      Represents Receiving g A → Holds pre post A → ∀ r, parseAll g r (post.map bytes) = .ok (expected post) := by
  induction post with
  | nil => intros; rfl
  | cons d post ih =>
    intro pre hsplit g A hg hA r
    obtain ⟨status, g', r', A', hp, hrep, hg', hA'⟩ := deliver_step hb ho hsplit hg hA r
    rw [List.map_cons, parseAll, hp]
    simp only [ok_bind]
    rw [ih (pre ++ [d]) (by simp [hsplit]) hg' hA' r', ok_bind, hrep]
    rfl

/-- A call that occurs is reported complete once. -/
theorem complete_once {calls : List EncodeCall} (k : Fin calls.length) (order : List (Delivery calls)) :
    (order.zip (expected order)).countP (fun x => x.1.1 = k ∧ x.2.1 = .complete) =
      if Touches order k then 1 else 0 := by
  induction order with
  | nil => rfl
  | cons d later ih =>
    rw [expected, List.zip_cons_cons, List.countP_cons, ih]
    simp only [touches_cons, expectedReport]
    by_cases hk : d.1 = k
    · subst hk
      by_cases hlater : Touches later d.1 <;> simp [hlater]
    · simp [hk]

/-- **Encoder and parser agree.** For any calls with payloads of at most
256 * 16384 bytes and any admissible order of delivery, the parser reports
each call complete exactly once, at its last protocol frame, with what was
encoded, and pends at every other. -/
theorem parse_interleaved (calls : List EncodeCall) (hb : ∀ c ∈ calls, c.payload.length ≤ 256 * 16384)
    (order : List (Delivery calls)) (ho : Admissible order) (r : ParsedFrame) :
    parseAll frameProtocolInit r (order.map bytes) = .ok (expected order) ∧
      ∀ k, (order.zip (expected order)).countP (fun x => x.1.1 = k ∧ x.2.1 = .complete) = 1 := by
  refine ⟨parseAll_expected hb ho order [] rfl (represents_init Receiving) (holds_init order) r, fun k => ?_⟩
  have hmem : ((k, 0) : Delivery calls) ∈ order :=
    ho.perm.mem_iff.mpr (mem_deliveries.mpr (encode_length_pos (hb _ (List.get_mem ..))))
  rw [complete_once, if_pos ⟨_, hmem, rfl⟩]

/-! A fragmented video frame whose second piece overtakes an empty audio frame
and its own first piece. -/

def sampleCalls : List EncodeCall :=
  [{ payload := List.replicate 16385 0xAB, media := .video .h264 .idr, timestampMs := 40, absTimeMs := 1000
     frameId := 7 },
   { payload := [], media := .audio .g711a .rate8000 1, timestampMs := 40, absTimeMs := 1000, frameId := 8 }]

def sampleOrder : List (Delivery sampleCalls) :=
  [(⟨0, by decide⟩, 1), (⟨1, by decide⟩, 0), (⟨0, by decide⟩, 0)]

theorem deliveries_sample :
    deliveries sampleCalls = [(⟨0, by decide⟩, 0), (⟨0, by decide⟩, 1), (⟨1, by decide⟩, 0)] := by
  have h0 : (sampleCalls.get ⟨0, by decide⟩).encode.length = 2 := by
    simp only [encode_length, EncodeCall.Fragmented, totalFragments, sampleCalls, List.get_eq_getElem,
      List.getElem_cons_zero, List.length_replicate]
    decide
  have h1 : (sampleCalls.get ⟨1, by decide⟩).encode.length = 1 := by
    rw [encode_length, if_neg (by decide)]
  have hr : List.finRange sampleCalls.length = [⟨0, by decide⟩, ⟨1, by decide⟩] := rfl
  rw [deliveries, hr]
  simp only [List.flatMap_cons, List.flatMap_nil, h0, h1]
  rfl

theorem admissible_sample : Admissible sampleOrder where
  perm := by rw [deliveries_sample]; decide
  atMost16 pre post _ := by
    have : (incomplete pre post).length ≤ (List.finRange sampleCalls.length).length := List.length_filter_le ..
    rw [List.length_finRange] at this
    exact Nat.le_trans this (by decide)
  distinctIds pre post _ := by
    have hinj : ∀ k k' : Fin sampleCalls.length,
        (sampleCalls.get k).frameId = (sampleCalls.get k').frameId → k = k' := by decide
    exact List.Nodup.map_on (fun k _ k' _ h => hinj k k' h) ((List.nodup_finRange _).filter _)

theorem sampleCalls_fit : ∀ c ∈ sampleCalls, c.payload.length ≤ maxPayload := by
  simp only [sampleCalls, List.forall_mem_cons, List.length_replicate, List.length_nil, List.not_mem_nil]
  exact ⟨by decide, by decide, nofun⟩

theorem parse_interleaved_sample : parseAll frameProtocolInit {} (sampleOrder.map bytes) =
    .ok [(.fragmentPending, none), (.complete, some (callFrame (sampleCalls.get ⟨1, by decide⟩))),
      (.complete, some (callFrame (sampleCalls.get ⟨0, by decide⟩)))] :=
  (parse_interleaved sampleCalls sampleCalls_fit sampleOrder admissible_sample {}).1

end WebPlayer.L3.Interleaving
