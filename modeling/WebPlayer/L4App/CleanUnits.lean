import WebPlayer.L4App.AccessUnits

/-!
# What the NAL parser makes of a buffer (`server/nal_parser.cpp:61-213`)

Both of its passes take something apart: the buffer into NAL units, the NAL
units into access units. What they cut is put together again by
concatenation, from the first cut on, and no piece is cut too late.

* `clean_cuts`: `ParseNalUnits`, for every buffer.
* `clean_partition`: `GroupIntoAccessUnits`, for every list of NAL units.
-/
namespace WebPlayer.L4.NalParser
open WebPlayer.Core WebPlayer.Core.Segments WebPlayer.L4.Media

/-! ## NAL units -/

/-- `00 00 01` at `j`. -/
def MarkAt (data : Bytes) (j : Nat) : Prop := data.getD j 0 = 0 ∧ data.getD (j + 1) 0 = 0 ∧ data.getD (j + 2) 0 = 1

/-- A NAL unit with a start code of `k` bytes, when the buffer goes on for
`behind` bytes after it: there is no `00 00 01` in it behind its start code,
but for one that ends the buffer. -/
structure CleanPiece (behind : Nat) (data : Bytes) (k : Nat) : Prop where
  code : (k = 4 ∧ data.take 4 = [0, 0, 0, 1]) ∨ (k = 3 ∧ data.take 3 = [0, 0, 1])
  unmarked : ∀ j, k ≤ j → j + 3 ≤ data.length → j + 3 < data.length + behind → ¬ MarkAt data j

/-- The slices of a buffer between ascending positions, the last one up to
its end, each of them a clean piece. -/
structure CleanCuts (buffer : Bytes) (nalUnits : List NalUnit) : Prop where
  slices : ∃ os : List Nat, os.Pairwise (· < ·) ∧ (∀ o ∈ os, o < buffer.length) ∧
    nalUnits.map (·.data) = cuts buffer os ∧ ∀ o ∈ os.head?, nalUnits.flatMap (·.data) = buffer.drop o
  nonempty : ∀ nal ∈ nalUnits, nal.data ≠ []
  pieces : ∀ pre nal post, nalUnits = pre ++ nal :: post →
    ∃ k, CleanPiece (post.flatMap (·.data)).length nal.data k

theorem getD_slice {buffer : Bytes} {o e i : Nat} (h : o + i < e) :
    ((buffer.drop o).take (e - o)).getD i 0 = buffer.getD (o + i) 0 := by
  rw [getD_take (by omega), List.getD_eq_getElem?_getD, List.getElem?_drop, ← List.getD_eq_getElem?_getD]

theorem take_eq_of_getD {data bytes : Bytes} {n : Nat} (hn : bytes.length = n) (hlen : n ≤ data.length)
    (h : ∀ i < n, data.getD i 0 = bytes.getD i 0) : data.take n = bytes := by
  refine List.ext_getElem (by simp [hn, hlen]) fun i hi hi' => ?_
  have hb := h i (by omega)
  rw [List.getD_eq_getElem _ _ hi', List.getD_eq_getElem _ _ (by omega)] at hb
  rw [List.getElem_take, hb]

/-- A start code is where a mark is hit, and it is as long as the mark. -/
theorem hit_code {buffer : Bytes} {o k : Nat} (h : (serverMarks buffer).hit o = some k) :
    (k = 4 ∧ ∀ i < 4, buffer.getD (o + i) 0 = [0, 0, 0, 1].getD i 0) ∨
      (k = 3 ∧ ∀ i < 3, buffer.getD (o + i) 0 = [0, 0, 1].getD i 0) := by
  simp only [serverMarks] at h
  split at h
  · rename_i h4
    simp only [is4ByteStart, Bool.and_eq_true, beq_iff_eq] at h4
    obtain ⟨⟨⟨h0, h1⟩, h2⟩, h3⟩ := h4
    cases h
    refine .inl ⟨rfl, fun i hi => ?_⟩
    have hi : i = 0 ∨ i = 1 ∨ i = 2 ∨ i = 3 := by omega
    rcases hi with rfl | rfl | rfl | rfl
    · exact h0
    · exact h1
    · exact h2
    · exact h3
  · split at h
    · rename_i h3
      simp only [is3ByteStart, Bool.and_eq_true, beq_iff_eq] at h3
      obtain ⟨-, ⟨h0, h1⟩, h2⟩ := h3
      cases h
      refine .inr ⟨rfl, fun i hi => ?_⟩
      have hi : i = 0 ∨ i = 1 ∨ i = 2 := by omega
      rcases hi with rfl | rfl | rfl
      · exact h0
      · exact h1
      · exact h2
    · cases h

theorem hit_le_four {buffer : Bytes} {o k : Nat} (h : (serverMarks buffer).hit o = some k) : k ≤ 4 := by
  rcases hit_code h with ⟨rfl, -⟩ | ⟨rfl, -⟩ <;> decide

/-- Behind the first byte every `00 00 01` is hit. -/
theorem hit_of_mark {buffer : Bytes} {j : Nat} (hpos : 0 < j) (h : MarkAt buffer j) :
    (serverMarks buffer).hit j = some 3 := by
  obtain ⟨h0, h1, h2⟩ := h
  have h4 : is4ByteStart buffer j = false := by
    rw [is4ByteStart, h2]
    simp
  have h3 : is3ByteStart buffer j = true := by
    rw [is3ByteStart, h4, h0, h1, h2]
    simpa using hpos
  simp only [serverMarks, h4, h3, Bool.false_eq_true, if_false, if_true]

theorem cleanPiece_of_slice {buffer : Bytes} {o k e : Nat} (hhit : (serverMarks buffer).hit o = some k) (hk : o + k ≤ e)
    (he : e ≤ buffer.length)
    (hfree : ∀ j, o + k ≤ j → j < e → j < buffer.length - 3 → (serverMarks buffer).hit j = none) :
    CleanPiece (buffer.drop e).length ((buffer.drop o).take (e - o)) k := by
  have hlen : ((buffer.drop o).take (e - o)).length = e - o := by
    rw [List.length_take, List.length_drop]
    omega
  refine ⟨?_, fun j hj hje hjb hmark => ?_⟩
  · rcases hit_code hhit with ⟨rfl, hcode⟩ | ⟨rfl, hcode⟩
    · refine .inl ⟨rfl, take_eq_of_getD rfl (by omega) fun i hi => ?_⟩
      rw [getD_slice (by omega)]
      exact hcode i hi
    · refine .inr ⟨rfl, take_eq_of_getD rfl (by omega) fun i hi => ?_⟩
      rw [getD_slice (by omega)]
      exact hcode i hi
  · rw [hlen, List.length_drop] at hjb
    rw [hlen] at hje
    have hpos := (serverMarks buffer).pos hhit
    obtain ⟨h0, h1, h2⟩ := hmark
    rw [getD_slice (by omega)] at h0 h1 h2
    -- the loop has been at this position and did not skip it
    have hnone := hfree (o + j) (by omega) (by omega) (by omega)
    rw [hit_of_mark (by omega) ⟨h0, h1, h2⟩] at hnone
    cases hnone

/-- **Clean cuts.** The NAL units of a buffer are consecutive slices of it, up
to its end, and none of them was cut too late. -/
theorem clean_cuts (buffer : Bytes) : CleanCuts buffer (parseNalUnits buffer) := by
  have heq := parseNalUnits_eq buffer
  have hdata : (parseNalUnits buffer).map (·.data) = cuts buffer ((serverMarks buffer).scan (buffer.length - 3) 0) := by
    rw [heq, List.map_map]
    exact List.map_id _
  have hpiece : ∀ pre nal post, parseNalUnits buffer = pre ++ nal :: post →
      ∃ k, CleanPiece (post.flatMap (·.data)).length nal.data k := by
    intro pre nal post h
    rw [h, List.map_append, List.map_cons] at hdata
    obtain ⟨o, k, e, ho, hhit, hk, he, hfree, hp, hpost⟩ := exists_of_cuts_eq (n := buffer.length - 3)
      (fun o k ho hhit => by have := hit_le_four hhit; omega) hdata.symm
    rw [List.flatMap_def, hpost, hp]
    exact ⟨k, cleanPiece_of_slice hhit hk he hfree⟩
  refine ⟨⟨(serverMarks buffer).scan (buffer.length - 3) 0, Marks.scan_sorted, fun o ho => ?_, hdata, fun o ho => ?_⟩,
    fun nal hnal hnil => ?_, hpiece⟩
  · have := Marks.scan_bounds o ho
    omega
  · have hsorted := (serverMarks buffer).scan_sorted (n := buffer.length - 3) (i := 0)
    rw [List.flatMap_def, hdata]
    cases hos : (serverMarks buffer).scan (buffer.length - 3) 0 with
    | nil => simp [hos] at ho
    | cons o' os =>
      rw [hos] at ho hsorted
      obtain rfl : o' = o := by simpa using ho
      exact flatten_cuts hsorted
  · obtain ⟨pre, post, hsplit⟩ := List.append_of_mem hnal
    obtain ⟨k, hclean⟩ := hpiece pre nal post hsplit
    rcases hclean.code with ⟨-, h⟩ | ⟨-, h⟩ <;> simp [hnil] at h

/-! ## Access units -/

/-- What the units of a list of NAL units are. -/
structure CleanPartition (isH265 : Bool) (nalUnits : List NalUnit) (units : List AccessUnit) : Prop where
  nonempty : ∀ au ∈ units, au.nalUnits ≠ []
  whole : units.flatMap (·.nalUnits) = nalUnits
  oneSlice : ∀ au ∈ units, au.nalUnits.countP (isSlice isH265) ≤ 1
  delimiters : ∀ au ∈ units, ∀ nal ∈ au.nalUnits.tail, isDelimiter isH265 nal = false
  begins : ∀ au ∈ units.tail, ∃ nal, au.nalUnits.head? = some nal ∧ (isDelimiter isH265 nal = true ∨ isSlice isH265 nal = true)

/-- What holds of the current unit in every iteration. -/
def UnitOk (isH265 : Bool) (cur : List NalUnit) : Prop :=
  cur.countP (isSlice isH265) ≤ 1 ∧ ∀ nal ∈ cur.tail, isDelimiter isH265 nal = false

theorem unitOk_singleton (isH265 : Bool) (nal : NalUnit) : UnitOk isH265 [nal] := by
  refine ⟨?_, by simp⟩
  simpa using List.countP_le_length (p := isSlice isH265) (l := [nal])

/-- A NAL unit that opens none goes behind the others. -/
theorem UnitOk.snoc {isH265 : Bool} {cur : List NalUnit} {nal : NalUnit} (h : UnitOk isH265 cur)
    (hno : cur = [] ∨ isNewAU isH265 cur nal = false) : UnitOk isH265 (cur ++ [nal]) := by
  rcases hno with rfl | hno
  · exact unitOk_singleton isH265 nal
  rw [isNewAU_eq, Bool.or_eq_false_iff, Bool.and_eq_false_iff] at hno
  obtain ⟨hdel, hslice⟩ := hno
  refine ⟨?_, fun n hn => ?_⟩
  · rw [List.countP_append, List.countP_singleton]
    rcases hslice with hs | hs
    · simpa [hs] using h.1
    · have hzero : cur.countP (isSlice isH265) = 0 := by
        rw [List.countP_eq_zero]
        exact fun n hn => by simpa using List.any_eq_false.mp hs n hn
      rw [hzero]
      split <;> decide
  · cases cur with
    | nil => simp at hn
    | cons c cs =>
      rw [List.cons_append, List.tail_cons, List.mem_append, List.mem_singleton] at hn
      rcases hn with hn | rfl
      · exact h.2 n hn
      · exact hdel

/-- **Clean partition.** The access units are the NAL units in their order, a
slice to a unit at most, and a unit begins where a delimiter or a slice asks
for one. -/
theorem clean_partition (isH265 : Bool) (nalUnits : List NalUnit) :
    CleanPartition isH265 nalUnits (groupIntoAccessUnits isH265 nalUnits) := by
  have hok : ∀ g ∈ groupsFrom (isNewAU isH265) [] nalUnits, UnitOk isH265 g :=
    forall_groupsFrom ⟨Nat.zero_le _, by simp⟩ (fun _ nal _ => unitOk_singleton isH265 nal)
      (fun _ _ h hno => h.snoc hno) nalUnits
  unfold groupIntoAccessUnits
  refine ⟨?_, ?_, ?_, ?_, ?_⟩
  · rw [List.forall_mem_map]
    exact ne_nil_of_mem_groupsFrom
  · rw [List.flatMap_map, List.flatMap_id']
    exact flatten_groupsFrom nalUnits
  · rw [List.forall_mem_map]
    exact fun g hg => (hok g hg).1
  · rw [List.forall_mem_map]
    exact fun g hg => (hok g hg).2
  · rw [← List.map_tail, List.forall_mem_map]
    intro g hg
    obtain ⟨c, nal, hopens, hhead⟩ := opens_of_mem_tail nalUnits g hg
    refine ⟨nal, hhead, ?_⟩
    rw [isNewAU_eq] at hopens
    cases hd : isDelimiter isH265 nal with
    | true => exact .inl rfl
    | false =>
      simp only [hd, Bool.false_or, Bool.and_eq_true] at hopens
      exact .inr hopens.1

/-- A delimiter, an SPS and a slice, a slice, and what has no start code. -/
example : (groupIntoAccessUnits false [⟨[0, 0, 0, 1, 9]⟩, ⟨[0, 0, 0, 1, 0x67]⟩, ⟨[0, 0, 1, 0x65]⟩, ⟨[0, 0, 1, 0x41]⟩,
    ⟨[7]⟩]).map (·.nalUnits.length) = [3, 2] := by decide

end WebPlayer.L4.NalParser
