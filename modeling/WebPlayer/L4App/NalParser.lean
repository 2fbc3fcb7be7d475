import WebPlayer.Core.Scan
import WebPlayer.L4App.Media

/-!
# NAL units (`server/nal_parser.cpp:61-102`, `tools/hevc_nal_check.py`)

`ParseNalUnits` cuts an Annex-B stream in front of its start codes;
`find_start_codes` of the checker script lists where they are. Both walk the
buffer with an index, and differ in one test: the server takes a 3-byte start
code only behind the first byte.

* `nal_units_agree_iff`: they find the same start codes, and no leading byte
  of a stream is lost, iff the buffer does not begin with a 3-byte one.
-/
namespace WebPlayer.L4.NalParser
open WebPlayer.Core WebPlayer.L4.Media

/-! ## `ParseNalUnits` -/

def is4ByteStart (buffer : Bytes) (i : Nat) : Bool :=
  buffer.getD i 0 == 0 && buffer.getD (i + 1) 0 == 0 && buffer.getD (i + 2) 0 == 0 && buffer.getD (i + 3) 0 == 1

def is3ByteStart (buffer : Bytes) (i : Nat) : Bool :=
  !is4ByteStart buffer i && 0 < i &&
    (buffer.getD i 0 == 0 && buffer.getD (i + 1) 0 == 0 && buffer.getD (i + 2) 0 == 1)

/-- The variables of the loop. -/
structure NalScan where
  nalUnits : List NalUnit := []
  start : Nat := 0
  firstNalFound : Bool := false

/-- A start code at `i`.
mirrors server/nal_parser.cpp:82-89 -/
def NalScan.found (buffer : Bytes) (st : NalScan) (i : Nat) : NalScan where
  nalUnits := if st.firstNalFound then st.nalUnits ++ [⟨(buffer.drop st.start).take (i - st.start)⟩] else st.nalUnits
  start := i
  firstNalFound := true

/-- At most `fuel` iterations.
mirrors server/nal_parser.cpp:71-94 -/
def nalLoop (buffer : Bytes) : Nat → Nat → NalScan → NalScan
  | 0, _, st => st
  | fuel + 1, i, st =>
    if i < buffer.length - 3 then
      if is4ByteStart buffer i || is3ByteStart buffer i then
        nalLoop buffer fuel (i + (if is4ByteStart buffer i then 3 else 2) + 1) (st.found buffer i)
      else nalLoop buffer fuel (i + 1) st
    else st

/-- mirrors server/nal_parser.cpp:61-102 -/
def parseNalUnits (buffer : Bytes) : List NalUnit :=
  if buffer.length < 4 then []
  else
    let st := nalLoop buffer buffer.length 0 {}
    if st.firstNalFound && st.start < buffer.length then st.nalUnits ++ [⟨buffer.drop st.start⟩] else st.nalUnits

/-- Where `ParseNalUnits` cuts: its pieces end with the buffer. -/
def startOffsets (buffer : Bytes) : List Nat := offsets buffer.length ((parseNalUnits buffer).map (·.data))

/-! ## The checker -/

/-- mirrors tools/hevc_nal_check.py:12-22 -/
def findStartCodesLoop (data : Bytes) : Nat → Nat → List Nat → List Nat
  | 0, _, positions => positions
  | fuel + 1, i, positions =>
    if i + 3 < data.length then
      if data.getD i 0 = 0 ∧ data.getD (i + 1) 0 = 0 then
        if data.getD (i + 2) 0 = 1 then findStartCodesLoop data fuel (i + 3) (positions ++ [i])
        else if i + 3 < data.length ∧ data.getD (i + 2) 0 = 0 ∧ data.getD (i + 3) 0 = 1 then
          findStartCodesLoop data fuel (i + 4) (positions ++ [i])
        else findStartCodesLoop data fuel (i + 1) positions
      else findStartCodesLoop data fuel (i + 1) positions
    else positions

/-- mirrors tools/hevc_nal_check.py:7-23 -/
def findStartCodes (data : Bytes) : List Nat := findStartCodesLoop data data.length 0 []

/-! ## Both are scanners -/

/-- What the server takes for a start code. -/
def serverMarks (buffer : Bytes) : Marks where
  hit i := if is4ByteStart buffer i then some 4 else if is3ByteStart buffer i then some 3 else none
  pos {i k} h := by
    split at h
    · cases h
      decide
    · split at h
      · cases h
        decide
      · cases h

/-- What the checker takes for one. -/
def checkerMarks (buffer : Bytes) : Marks where
  hit i :=
    if buffer.getD i 0 = 0 ∧ buffer.getD (i + 1) 0 = 0 then
      if buffer.getD (i + 2) 0 = 1 then some 3
      else if buffer.getD (i + 2) 0 = 0 ∧ buffer.getD (i + 3) 0 = 1 then some 4
      else none
    else none
  pos {i k} h := by
    repeat' split at h
    all_goals cases h
    all_goals decide

theorem nalLoop_eq (buffer : Bytes) (fuel i : Nat) (st : NalScan) : nalLoop buffer fuel i st =
    ((serverMarks buffer).scanN (buffer.length - 3) fuel i).foldl (NalScan.found buffer) st := by
  induction fuel generalizing i st with
  | zero => rfl
  | succ fuel ih =>
    rw [nalLoop, Marks.scanN]
    by_cases hi : i < buffer.length - 3
    · rw [if_pos hi, if_pos hi]
      cases h4 : is4ByteStart buffer i with
      | true =>
        have hhit : (serverMarks buffer).hit i = some 4 := by simp only [serverMarks, h4, if_true]
        simp only [hhit, Bool.true_or, if_true]
        exact ih _ _
      | false =>
        cases h3 : is3ByteStart buffer i with
        | true =>
          have hhit : (serverMarks buffer).hit i = some 3 := by
            simp only [serverMarks, h4, h3, Bool.false_eq_true, if_false, if_true]
          simp only [hhit, Bool.false_or, if_true, Bool.false_eq_true, if_false]
          exact ih _ _
        | false =>
          have hhit : (serverMarks buffer).hit i = none := by
            simp only [serverMarks, h4, h3, Bool.false_eq_true, if_false]
          simp only [hhit, Bool.or_self, Bool.false_eq_true, if_false]
          exact ih _ _
    · rw [if_neg hi, if_neg hi]
      rfl

theorem findStartCodesLoop_eq (data : Bytes) (fuel i : Nat) (positions : List Nat) :
    findStartCodesLoop data fuel i positions = positions ++ (checkerMarks data).scanN (data.length - 3) fuel i := by
  induction fuel generalizing i positions with
  | zero => simp [findStartCodesLoop, Marks.scanN]
  | succ fuel ih =>
    rw [findStartCodesLoop, Marks.scanN]
    by_cases hi : i + 3 < data.length
    · have hi' : i < data.length - 3 := by omega
      rw [if_pos hi, if_pos hi']
      by_cases h00 : data.getD i 0 = 0 ∧ data.getD (i + 1) 0 = 0
      · by_cases h1 : data.getD (i + 2) 0 = 1
        · have hhit : (checkerMarks data).hit i = some 3 := by simp only [checkerMarks, if_pos h00, if_pos h1]
          simp only [hhit, if_pos h00, if_pos h1, ih, List.append_assoc, List.singleton_append]
        · by_cases h01 : data.getD (i + 2) 0 = 0 ∧ data.getD (i + 3) 0 = 1
          · have hhit : (checkerMarks data).hit i = some 4 := by
              simp only [checkerMarks, if_pos h00, if_neg h1, if_pos h01]
            simp only [hhit, if_pos h00, if_neg h1, if_pos (And.intro hi h01), ih, List.append_assoc,
              List.singleton_append]
          · have hhit : (checkerMarks data).hit i = none := by
              simp only [checkerMarks, if_pos h00, if_neg h1, if_neg h01]
            have hno : ¬ (i + 3 < data.length ∧ data.getD (i + 2) 0 = 0 ∧ data.getD (i + 3) 0 = 1) := fun h => h01 h.2
            simp only [hhit, if_pos h00, if_neg h1, if_neg hno, ih]
      · have hhit : (checkerMarks data).hit i = none := by simp only [checkerMarks, if_neg h00]
        simp only [hhit, if_neg h00, ih]
    · have hi' : ¬ i < data.length - 3 := by omega
      rw [if_neg hi, if_neg hi', List.append_nil]

theorem findStartCodes_eq (data : Bytes) : findStartCodes data = (checkerMarks data).scan (data.length - 3) 0 := by
  rw [findStartCodes, findStartCodesLoop_eq, List.nil_append, Marks.scan_enough (by omega)]

/-- The units are the pieces between the positions found. -/
theorem found_cuts (buffer : Bytes) (os : List Nat) (st : NalScan) (h : st.firstNalFound = true) :
    (os.foldl (NalScan.found buffer) st).nalUnits ++ [⟨buffer.drop (os.foldl (NalScan.found buffer) st).start⟩] =
      st.nalUnits ++ (cuts buffer (st.start :: os)).map NalUnit.mk := by
  induction os generalizing st with
  | nil => rfl
  | cons o os ih =>
    rw [List.foldl_cons, ih _ rfl, cuts, List.map_cons]
    simp only [NalScan.found, h, if_true, List.append_assoc, List.singleton_append]

theorem found_start (buffer : Bytes) (os : List Nat) (st : NalScan) :
    (os.foldl (NalScan.found buffer) st).start ∈ st.start :: os ∧
      (st.firstNalFound = true → (os.foldl (NalScan.found buffer) st).firstNalFound = true) := by
  induction os generalizing st with
  | nil => exact ⟨List.mem_cons_self .., id⟩
  | cons o os ih =>
    obtain ⟨hmem, hfound⟩ := ih (st.found buffer o)
    exact ⟨List.mem_cons_of_mem _ hmem, fun _ => hfound rfl⟩

theorem parseNalUnits_eq (buffer : Bytes) :
    parseNalUnits buffer = (cuts buffer ((serverMarks buffer).scan (buffer.length - 3) 0)).map NalUnit.mk := by
  unfold parseNalUnits
  by_cases h4 : buffer.length < 4
  · rw [if_pos h4, Marks.scan_end (by omega)]
    rfl
  rw [if_neg h4, nalLoop_eq, Marks.scan_enough (by omega)]
  have hbound := (serverMarks buffer).scan_bounds (n := buffer.length - 3) (i := 0)
  cases hos : (serverMarks buffer).scan (buffer.length - 3) 0 with
  | nil => rfl
  | cons o os =>
    rw [hos] at hbound
    have hcuts := found_cuts buffer os (NalScan.found buffer {} o) rfl
    obtain ⟨hmem, hfound⟩ := found_start buffer os (NalScan.found buffer {} o)
    have hlt := hbound _ hmem
    have hfound := hfound rfl
    have hst : os.foldl (NalScan.found buffer) (NalScan.found buffer {} o) = (o :: os).foldl (NalScan.found buffer) {} := rfl
    rw [hst] at hcuts hfound hlt
    generalize (o :: os).foldl (NalScan.found buffer) {} = st at hcuts hfound hlt ⊢
    simp only [hfound, Bool.true_and, decide_eq_true_eq]
    rw [if_pos (by omega)]
    exact hcuts

theorem startOffsets_eq (buffer : Bytes) :
    startOffsets buffer = (serverMarks buffer).scan (buffer.length - 3) 0 := by
  rw [startOffsets, parseNalUnits_eq, List.map_map]
  simp only [Function.comp_def, List.map_id']
  exact offsets_cuts Marks.scan_sorted fun o ho => by have := Marks.scan_bounds o ho; omega

/-! ## The two agree -/

/-- A 3-byte start code and at least one byte behind it. -/
def BeginsShort (buffer : Bytes) : Prop := 4 ≤ buffer.length ∧ buffer.take 3 = [0, 0, 1]

/-- A 4-byte one. -/
def BeginsLong (buffer : Bytes) : Prop := 5 ≤ buffer.length ∧ buffer.take 4 = [0, 0, 0, 1]

instance (buffer : Bytes) : Decidable (BeginsShort buffer) := inferInstanceAs (Decidable (_ ∧ _))

/-- The same start codes, and nothing of a stream is lost. -/
structure NalUnitsAgree (buffer : Bytes) : Prop where
  offsets : startOffsets buffer = findStartCodes buffer
  whole : BeginsShort buffer ∨ BeginsLong buffer → (parseNalUnits buffer).flatMap (·.data) = buffer

theorem getD_take {buffer : Bytes} {n i : Nat} (h : i < n) : (buffer.take n).getD i 0 = buffer.getD i 0 := by
  simp only [List.getD_eq_getElem?_getD, List.getElem?_take_of_lt h]

/-- The tests differ only at 0. -/
theorem hit_eq (buffer : Bytes) {i : Nat}
    (h : 0 < i ∨ ¬ (buffer.getD 0 0 = 0 ∧ buffer.getD 1 0 = 0 ∧ buffer.getD 2 0 = 1)) :
    (serverMarks buffer).hit i = (checkerMarks buffer).hit i := by
  have hpos : buffer.getD i 0 = 0 → buffer.getD (i + 1) 0 = 0 → buffer.getD (i + 2) 0 = 1 → 0 < i := by
    intro h0 h1 h2
    rcases h with h | h
    · exact h
    · by_contra hi
      obtain rfl : i = 0 := by omega
      exact h ⟨h0, h1, h2⟩
  simp only [serverMarks, checkerMarks, is3ByteStart, is4ByteStart, Bool.and_eq_true, beq_iff_eq, Bool.not_eq_true',
    Bool.and_eq_false_iff, beq_eq_false_iff_ne, decide_eq_true_eq]
  generalize buffer.getD i 0 = a at hpos ⊢
  generalize buffer.getD (i + 1) 0 = b at hpos ⊢
  generalize buffer.getD (i + 2) 0 = c at hpos ⊢
  generalize buffer.getD (i + 3) 0 = d
  by_cases h0 : a = 0 ∧ b = 0
  · obtain ⟨rfl, rfl⟩ := h0
    by_cases h1 : c = 1
    · subst h1
      simp [hpos rfl rfl rfl]
    · simp [h1]
  · rw [if_neg h0, if_neg (fun h => h0 h.1.1), if_neg (fun h => h0 h.2.1)]

theorem startOffsets_agree_iff (buffer : Bytes) : startOffsets buffer = findStartCodes buffer ↔ ¬ BeginsShort buffer := by
  rw [startOffsets_eq, findStartCodes_eq]
  constructor
  · rintro heq ⟨h4, htake⟩
    have hb : ∀ i < 3, buffer.getD i 0 = [0, 0, 1].getD i 0 := by
      intro i hi
      rw [← getD_take hi, htake]
    have h0 : buffer.getD 0 0 = 0 := hb 0 (by decide)
    have h1 : buffer.getD 1 0 = 0 := hb 1 (by decide)
    have h2 : buffer.getD 2 0 = 1 := hb 2 (by decide)
    -- the checker records 0, the server goes on from 1
    have hchecker : (checkerMarks buffer).hit 0 = some 3 := by simp only [checkerMarks, h0, h1, h2, and_self, if_true]
    have h4' : is4ByteStart buffer 0 = false := by
      rw [is4ByteStart, h2]
      simp
    have hserver : (serverMarks buffer).hit 0 = none := by simp [serverMarks, is3ByteStart, h4']
    rw [Marks.scan_hit (by omega) hchecker, Marks.scan_miss hserver] at heq
    have hmem : 0 ∈ (serverMarks buffer).scan (buffer.length - 3) (0 + 1) := by
      rw [heq]
      exact List.mem_cons_self ..
    have := Marks.scan_bounds 0 hmem
    omega
  · intro hno
    refine Marks.scan_congr fun j _ hj => hit_eq buffer ?_
    by_contra hnot
    obtain ⟨-, hcode⟩ := not_or.mp hnot
    obtain ⟨h0, h1, h2⟩ := not_not.mp hcode
    refine hno ⟨by omega, List.ext_getElem (by simp; omega) fun i hi hi' => ?_⟩
    simp only [List.getElem_take]
    have hget : ∀ k (hk : k < buffer.length), buffer[k] = buffer.getD k 0 := by
      intro k hk
      rw [List.getD_eq_getElem _ _ hk]
    rw [hget]
    match i, hi' with
    | 0, _ => exact h0
    | 1, _ => exact h1
    | 2, _ => exact h2

/-- A start code at 0 that the server sees loses nothing. -/
theorem flatMap_data {buffer : Bytes} {k : Nat} (h4 : 4 ≤ buffer.length) (hhit : (serverMarks buffer).hit 0 = some k) :
    (parseNalUnits buffer).flatMap (·.data) = buffer := by
  have hscan := Marks.scan_hit (show 0 < buffer.length - 3 by omega) hhit
  have hsorted := (serverMarks buffer).scan_sorted (n := buffer.length - 3) (i := 0)
  rw [hscan] at hsorted
  rw [parseNalUnits_eq, hscan, List.flatMap_map, List.flatMap_id', flatten_cuts hsorted, List.drop_zero]

/-- **Server and checker.** They agree exactly on the buffers that do not
begin with a 3-byte start code. -/
theorem nal_units_agree_iff (buffer : Bytes) : NalUnitsAgree buffer ↔ ¬ BeginsShort buffer := by
  rw [← startOffsets_agree_iff]
  constructor
  · exact NalUnitsAgree.offsets
  · intro h
    refine ⟨h, fun hbegins => ?_⟩
    obtain ⟨h5, htake⟩ := hbegins.resolve_left ((startOffsets_agree_iff buffer).mp h)
    have hb : ∀ i < 4, buffer.getD i 0 = [0, 0, 0, 1].getD i 0 := by
      intro i hi
      rw [← getD_take hi, htake]
    have h0 : buffer.getD 0 0 = 0 := hb 0 (by decide)
    have h1 : buffer.getD 1 0 = 0 := hb 1 (by decide)
    have h2 : buffer.getD 2 0 = 0 := hb 2 (by decide)
    have h3 : buffer.getD 3 0 = 1 := hb 3 (by decide)
    have h4 : is4ByteStart buffer 0 = true := by rw [is4ByteStart, h0, h1, h2, h3]; rfl
    have hhit : (serverMarks buffer).hit 0 = some 4 := by simp only [serverMarks, h4, if_true]
    exact flatMap_data (by omega) hhit

/-- An SPS behind a 3-byte start code, and a PPS: the SPS is lost. -/
theorem leading_nal_unit_lost : ¬ NalUnitsAgree [0, 0, 1, 0x67, 0, 0, 1, 0x68] ∧
    findStartCodes [0, 0, 1, 0x67, 0, 0, 1, 0x68] = [0, 4] ∧
    parseNalUnits [0, 0, 1, 0x67, 0, 0, 1, 0x68] = [⟨[0, 0, 1, 0x68]⟩] := by
  refine ⟨fun h => ?_, by decide, by decide⟩
  have hoff := h.offsets
  revert hoff
  decide

end WebPlayer.L4.NalParser
