import WebPlayer.L4App.CleanUnits
import WebPlayer.L4App.StreamTimer

/-!
# A stream that is written and read (`server/nal_parser.cpp:61-140`, `tools/hevc_nal_check.py:7-46`)

A file is a sequence of NAL units, each a start code, a header and an escaped
RBSP. Escaping is what keeps the start codes of the units behind apart from
the bytes of a unit, so both readers get the units back.

* `annexB_read`: what `ParseNalUnits` and the checker make of any such file.
* `annexB_frameRate`: the frame rate is the one its first SPS was written for.
-/
namespace WebPlayer.L4.NalParser
open WebPlayer.Core WebPlayer.L1.EmulationPrevention WebPlayer.L1.SpsParser WebPlayer.L1.SpsSyntax WebPlayer.L1.TruncatedSps
  WebPlayer.L4.Media WebPlayer.L4.StreamTimer

/-! ## The rest of the checker -/

namespace Checker

/-- The ranges behind the start codes at `starts`.
mirrors tools/hevc_nal_check.py:30-39 -/
def nalRanges (data : Bytes) : List Nat → List (Nat × Nat)
  | [] => []
  | start :: starts =>
    let scLen := if (data.drop start).take 4 = [0, 0, 0, 1] then 4 else 3
    let nalStart := start + scLen
    let nalEnd := starts.headD data.length
    if nalStart < nalEnd then (nalStart, nalEnd) :: nalRanges data starts else nalRanges data starts

/-- mirrors tools/hevc_nal_check.py:25-40 -/
def splitNalus (data : Bytes) : List (Nat × Nat) := nalRanges data (findStartCodes data)

/-- `data[start:end]` for each range. -/
def nalus (data : Bytes) : List Bytes := (splitNalus data).map fun r => (data.drop r.1).take (r.2 - r.1)

/-- mirrors tools/hevc_nal_check.py:42-46 -/
def nalTypeH265 (nalu : Bytes) : Option UInt8 := if nalu.length < 2 then none else some (Media.nalTypeH265 (nalu.getD 0 0))

end Checker

/-! ## Writing -/

/-- A NAL unit as an encoder writes it: nothing follows it, and its RBSP ends
with the byte of the stop bit. -/
structure EncodedNal extends SpsNal where
  extra_nil : extra = []
  rbsp_last : rbsp = [] ∨ ∃ front b, b ≠ 0 ∧ rbsp = front ++ [b]

namespace EncodedNal

variable (nal : EncodedNal)

/-- Behind the start code. -/
def body : Bytes := nal.header ++ escape 0 nal.rbsp

def unit : NalUnit := ⟨nal.bytes⟩

theorem bytes_eq : nal.bytes = nal.start ++ nal.body := by
  rw [SpsNal.bytes, nal.extra_nil, List.append_nil, body]

theorem header_zeros : Zeros 0 nal.header := by
  obtain ⟨front, b, hb, h⟩ := nal.header_last
  rw [h]
  exact .none hb

theorem start_length : 3 ≤ nal.start.length ∧ nal.start.length ≤ 4 := by
  rcases nal.start_code with h | h <;> simp [h]

end EncodedNal

/-- The file. -/
def annexB (nals : List EncodedNal) : Bytes := nals.flatMap fun nal => nal.bytes

/-- `ParseNalUnits` takes no 3-byte start code for one at the very beginning. -/
def seen : List EncodedNal → List EncodedNal
  | [] => []
  | nal :: nals => if nal.start = [0, 0, 1] then nals else nal :: nals

/-! ## Bytes that hold no start code -/

/-- No `00 00 01`, and no zero at the end that one could begin with. -/
structure Codeless (data : Bytes) : Prop where
  unmarked : ∀ j, ¬ MarkAt data j
  last : ∃ front b, b ≠ 0 ∧ data = front ++ [b]

theorem unmarked_snoc {data : Bytes} {b : UInt8} (h : ∀ j, ¬ MarkAt data j) (hb : ¬ (endsInZeros data = true ∧ b = 1)) :
    ∀ j, ¬ MarkAt (data ++ [b]) j := by
  intro j ⟨h0, h1, h2⟩
  have hleft : ∀ i, i < data.length → (data ++ [b]).getD i 0 = data.getD i 0 := fun i hi => getD_append_left hi [b]
  rcases Nat.lt_trichotomy (j + 2) data.length with hj | hj | hj
  · rw [hleft _ (by omega)] at h0 h1 h2
    exact h j ⟨h0, h1, h2⟩
  · rw [hleft _ (by omega)] at h0 h1
    rw [hj, List.getD_eq_getElem?_getD, List.getElem?_concat_length] at h2
    refine hb ⟨?_, h2⟩
    have hlast : data.length - 1 = j + 1 := by omega
    have hbefore : data.length - 2 = j := by omega
    rw [endsInZeros, hlast, hbefore, h0, h1]
    simpa using (show 2 ≤ data.length by omega)
  · have hout : (data ++ [b]).getD (j + 2) 0 = 0 := by
      rw [List.getD_eq_getElem?_getD, List.getElem?_eq_none (by simp; omega)]
      rfl
    rw [hout] at h2
    exact absurd h2 (by decide)

/-- What is inserted separates two zeros from a byte that could end a start
code. -/
theorem unmarked_put {out : Bytes} (h : ∀ j, ¬ MarkAt out j) (b : UInt8) : ∀ j, ¬ MarkAt (put out b) j := by
  unfold put
  split
  · have hthree : ∀ j, ¬ MarkAt (out ++ [3]) j := unmarked_snoc h (by simp)
    have hsplit : out ++ [3, b] = out ++ [3] ++ [b] := by simp
    rw [hsplit]
    exact unmarked_snoc hthree (by simp)
  · rename_i hno
    apply unmarked_snoc h
    intro ⟨hz, hb⟩
    exact hno ⟨hz, hb ▸ by decide⟩

theorem unmarked_foldl_put {out : Bytes} (h : ∀ j, ¬ MarkAt out j) (bs : Bytes) : ∀ j, ¬ MarkAt (bs.foldl put out) j := by
  induction bs generalizing out with
  | nil => exact h
  | cons b bs ih => exact ih (unmarked_put h b)

theorem unmarked_finish {out : Bytes} (h : ∀ j, ¬ MarkAt out j) : ∀ j, ¬ MarkAt (finish out) j := by
  unfold finish
  split
  · exact unmarked_snoc h (by simp)
  · exact h

/-- A last byte that is not zero stays the last. -/
theorem finish_put_last (out : Bytes) {b : UInt8} (hb : b ≠ 0) : ∃ front, finish (put out b) = front ++ [b] := by
  have hend : ∀ front : Bytes, endsInZeros (front ++ [b]) = false := by
    intro front
    simp [endsInZeros, hb]
  unfold put
  split
  · refine ⟨out ++ [3], ?_⟩
    have hsplit : out ++ [3, b] = out ++ [3] ++ [b] := by simp
    rw [hsplit, finish, hend, if_neg Bool.false_ne_true]
  · refine ⟨out, ?_⟩
    rw [finish, hend, if_neg Bool.false_ne_true]

/-- **Escaped bytes hold no start code.** -/
theorem codeless_body (nal : EncodedNal) : Codeless nal.body := by
  have hheader : ∀ j, ¬ MarkAt nal.header j := by
    intro j ⟨_, _, h2⟩
    have hshort := nal.header_short
    rw [List.getD_eq_getElem?_getD, List.getElem?_eq_none (by omega)] at h2
    exact absurd h2 (by decide)
  have hbody : nal.body = finish (nal.rbsp.foldl put nal.header) := (finish_foldl_put nal.header_zeros nal.rbsp).symm
  constructor
  · rw [hbody]
    exact unmarked_finish (unmarked_foldl_put hheader nal.rbsp)
  · rcases nal.rbsp_last with hnil | ⟨front, b, hb, hrbsp⟩
    · rw [EncodedNal.body, hnil, escape, if_neg (by decide), List.append_nil]
      exact nal.header_last
    · rw [hbody, hrbsp, List.foldl_append]
      obtain ⟨front', h⟩ := finish_put_last (front.foldl put nal.header) hb
      exact ⟨front', b, hb, h⟩

/-- Nor do they with others behind them. -/
theorem Codeless.unmarked_append {data : Bytes} (h : Codeless data) (more : Bytes) {i : Nat} (hi : i < data.length) :
    ¬ MarkAt (data ++ more) i := by
  intro ⟨h0, h1, h2⟩
  obtain ⟨front, b, hb, hdata⟩ := h.last
  have hlast : ∀ j, j + 1 = data.length → (data ++ more).getD j 0 ≠ 0 := by
    intro j hj
    rw [getD_append_left (by omega), hdata, List.getD_eq_getElem?_getD]
    have hfront : j = front.length := by simpa [hdata] using hj
    rw [hfront, List.getElem?_concat_length]
    exact hb
  by_cases hin : i + 2 < data.length
  · rw [getD_append_left (by omega)] at h0 h1 h2
    exact h.unmarked i ⟨h0, h1, h2⟩
  · rcases Nat.lt_or_eq_of_le (show i + 1 ≤ data.length by omega) with hlt | heq
    · exact hlast (i + 1) (by omega) h1
    · exact hlast i heq h0

theorem Codeless.zero_append {data : Bytes} (h : Codeless data) (more : Bytes) {i : Nat} (hi : i < data.length) :
    ¬ ((data ++ more).getD i 0 = 0 ∧ MarkAt (data ++ more) (i + 1)) := by
  intro ⟨h0, hmark⟩
  by_cases hin : i + 1 < data.length
  · exact h.unmarked_append more hin hmark
  · obtain ⟨front, b, hb, hdata⟩ := h.last
    have hfront : i = front.length := by
      have hlen := congrArg List.length hdata
      rw [List.length_append, List.length_singleton] at hlen
      omega
    rw [getD_append_left hi, hdata, List.getD_eq_getElem?_getD, hfront, List.getElem?_concat_length] at h0
    exact hb h0

/-! ## Reading -/

theorem getD_append_right (pre xs : Bytes) (i : Nat) : (pre ++ xs).getD (pre.length + i) 0 = xs.getD i 0 := by
  rw [List.getD_eq_getElem?_getD, List.getElem?_append_right (Nat.le_add_right ..), Nat.add_sub_cancel_left,
    ← List.getD_eq_getElem?_getD]

theorem markAt_append_right (pre xs : Bytes) (i : Nat) : MarkAt (pre ++ xs) (pre.length + i) ↔ MarkAt xs i := by
  simp only [MarkAt, Nat.add_assoc, getD_append_right]

/-- A scanner that finds start codes, those of 3 bytes from `least` on. -/
structure FindsCodes (M : Marks) (buffer : Bytes) (least : Nat) : Prop where
  long : ∀ j, buffer.getD j 0 = 0 ∧ MarkAt buffer (j + 1) → M.hit j = some 4
  short : ∀ j, least ≤ j → MarkAt buffer j → M.hit j = some 3
  mark : ∀ j k, M.hit j = some k → MarkAt buffer j ∨ (buffer.getD j 0 = 0 ∧ MarkAt buffer (j + 1))

theorem server_finds (buffer : Bytes) : FindsCodes (serverMarks buffer) buffer 1 where
  long j h := by
    obtain ⟨h0, h1, h2, h3⟩ := h
    have h4 : is4ByteStart buffer j = true := by rw [is4ByteStart, h0, h1, h2, h3]; rfl
    simp only [serverMarks, h4, if_true]
  short j hj h := hit_of_mark hj h
  mark j k h := by
    rcases hit_code h with ⟨-, hcode⟩ | ⟨-, hcode⟩
    · exact .inr ⟨hcode 0 (by decide), hcode 1 (by decide), hcode 2 (by decide), hcode 3 (by decide)⟩
    · exact .inl ⟨hcode 0 (by decide), hcode 1 (by decide), hcode 2 (by decide)⟩

theorem checker_finds (buffer : Bytes) : FindsCodes (checkerMarks buffer) buffer 0 where
  long j h := by
    obtain ⟨h0, h1, h2, h3⟩ := h
    simp only [checkerMarks, if_pos (And.intro h0 h1), if_pos (And.intro h2 h3)]
    rw [if_neg]
    rw [h2]
    decide
  short j _ h := by
    obtain ⟨h0, h1, h2⟩ := h
    simp only [checkerMarks, if_pos (And.intro h0 h1), if_pos h2]
  mark j k h := by
    simp only [checkerMarks] at h
    split at h
    · rename_i h01
      split at h
      · rename_i h2
        exact .inl ⟨h01.1, h01.2, h2⟩
      · split at h
        · rename_i h23
          exact .inr ⟨h01.1, h01.2, h23.1, h23.2⟩
        · cases h
    · cases h

section
variable {M : Marks} {buffer : Bytes} {least : Nat}

/-- There is a start code at the front of a unit. -/
theorem FindsCodes.hit_start (hM : FindsCodes M buffer least) {nal : EncodedNal} {pre post : Bytes}
    (hbuffer : buffer = pre ++ (nal.bytes ++ post)) (hshort : nal.start = [0, 0, 1] → least ≤ pre.length) :
    M.hit pre.length = some nal.start.length := by
  have hget : ∀ i, buffer.getD (pre.length + i) 0 = (nal.start ++ (nal.body ++ post)).getD i 0 := by
    intro i
    rw [hbuffer, getD_append_right, nal.bytes_eq, List.append_assoc]
  have hmark : ∀ i, MarkAt buffer (pre.length + i) ↔ MarkAt (nal.start ++ (nal.body ++ post)) i := by
    intro i
    rw [hbuffer, markAt_append_right, nal.bytes_eq, List.append_assoc]
  rcases nal.start_code with h | h
  · rw [h] at hmark ⊢
    exact hM.short _ (hshort h) ((hmark 0).mpr ⟨rfl, rfl, rfl⟩)
  · rw [h] at hget hmark ⊢
    exact hM.long _ ⟨hget 0, (hmark 1).mpr ⟨rfl, rfl, rfl⟩⟩

/-- And no other in it. -/
theorem FindsCodes.hit_body (hM : FindsCodes M buffer least) {nal : EncodedNal} {pre post : Bytes}
    (hbuffer : buffer = pre ++ (nal.bytes ++ post)) {j : Nat} (hj : pre.length + nal.start.length ≤ j)
    (hje : j < pre.length + nal.bytes.length) : M.hit j = none := by
  have hsplit : buffer = (pre ++ nal.start) ++ (nal.body ++ post) := by
    rw [hbuffer, nal.bytes_eq]
    simp only [List.append_assoc]
  obtain ⟨i, rfl⟩ := Nat.exists_eq_add_of_le hj
  rw [nal.bytes_eq, List.length_append] at hje
  have hi : i < nal.body.length := by omega
  have hfree := codeless_body nal
  cases hhit : M.hit (pre.length + nal.start.length + i) with
  | none => rfl
  | some k =>
    have hmark := hM.mark _ _ hhit
    rw [← List.length_append, hsplit, markAt_append_right, Nat.add_assoc _ i, markAt_append_right, getD_append_right] at hmark
    rcases hmark with hmark | hmark
    · exact absurd hmark (hfree.unmarked_append post hi)
    · exact absurd hmark (hfree.zero_append post hi)

/-- The units are laid one behind the other. -/
theorem FindsCodes.laid (hM : FindsCodes M buffer least) (hleast : least ≤ 1) {nals : List EncodedNal} {pre : Bytes}
    (hbuffer : buffer = pre ++ annexB nals) (hshort : ∀ nal ∈ nals.head?, nal.start = [0, 0, 1] → least ≤ pre.length) :
    Laid M (buffer.length - 3) pre.length (nals.map fun nal => nal.bytes) := by
  induction nals generalizing pre with
  | nil =>
    rw [hbuffer, annexB, List.flatMap_nil, List.append_nil]
    exact Nat.sub_le ..
  | cons nal nals ih =>
    have hcons : buffer = pre ++ (nal.bytes ++ annexB nals) := hbuffer
    obtain ⟨hlow, -⟩ := nal.start_length
    have hlen : nal.bytes.length = nal.start.length + nal.body.length := by rw [nal.bytes_eq, List.length_append]
    have hbody : 0 < nal.body.length := by
      have := nal.header_pos
      rw [EncodedNal.body, List.length_append]
      omega
    have hstart : nal.start.length ≤ nal.bytes.length := by omega
    refine ⟨?_, ⟨nal.start.length, hM.hit_start hcons (hshort nal rfl), hstart, fun j hj hje => hM.hit_body hcons hj hje⟩, ?_⟩
    · have htotal := congrArg List.length hcons
      simp only [List.length_append] at htotal
      omega
    · rw [← List.length_append]
      apply ih
      · rw [hcons, List.append_assoc]
      · intro _ _ _
        have hpos : 1 ≤ nal.bytes.length := by omega
        rw [List.length_append]
        exact hleast.trans (hpos.trans (Nat.le_add_left ..))

theorem annexB_flatten (nals : List EncodedNal) : annexB nals = (nals.map fun nal => nal.bytes).flatten := by
  rw [annexB, List.flatMap_def]

end

/-- The server's reading. -/
theorem parse_annexB (nals : List EncodedNal) : parseNalUnits (annexB nals) = (seen nals).map EncodedNal.unit := by
  have hM := server_finds (annexB nals)
  suffices h : cuts (annexB nals) ((serverMarks (annexB nals)).scan ((annexB nals).length - 3) 0) =
      (seen nals).map fun nal => nal.bytes by
    rw [parseNalUnits_eq, h, List.map_map]
    rfl
  by_cases hfirst : ∃ nal rest, nals = nal :: rest ∧ nal.start = [0, 0, 1]
  · -- the first unit is passed over
    obtain ⟨nal, rest, rfl, hstart⟩ := hfirst
    have hfile : annexB (nal :: rest) = nal.bytes ++ annexB rest := rfl
    have hbytes : ∀ i, (annexB (nal :: rest)).getD i 0 = ([0, 0, 1] ++ (nal.body ++ annexB rest)).getD i 0 := by
      intro i
      rw [hfile, nal.bytes_eq, hstart, List.append_assoc]
    have h2 : (annexB (nal :: rest)).getD 2 0 ≠ 0 := by
      rw [hbytes 2]
      exact (by decide : (1 : UInt8) ≠ 0)
    have hfree : ∀ j, 0 ≤ j → j < nal.bytes.length → j < (annexB (nal :: rest)).length - 3 →
        (serverMarks (annexB (nal :: rest))).hit j = none := by
      intro j _ hj _
      by_cases hin : 3 ≤ j
      · have hfront : annexB (nal :: rest) = [] ++ (nal.bytes ++ annexB rest) := hfile
        apply hM.hit_body hfront
        · simpa [hstart] using hin
        · simpa using hj
      cases hhit : (serverMarks (annexB (nal :: rest))).hit j with
      | none => rfl
      | some k =>
        exfalso
        have hj : j = 0 ∨ j = 1 ∨ j = 2 := by omega
        rcases hit_code hhit with ⟨rfl, hcode⟩ | ⟨rfl, hcode⟩
        · rcases hj with rfl | rfl | rfl
          · exact h2 (hcode 2 (by decide))
          · exact h2 (hcode 1 (by decide))
          · exact h2 (hcode 0 (by decide))
        · rcases hj with rfl | rfl | rfl
          · -- a 3-byte code is not taken at 0
            have h3 : is4ByteStart (annexB (nal :: rest)) 0 = false := by
              simp only [is4ByteStart, Nat.zero_add, beq_false_of_ne h2, Bool.and_false, Bool.false_and]
            simp [serverMarks, is3ByteStart, h3] at hhit
          · exact h2 (hcode 1 (by decide))
          · exact h2 (hcode 0 (by decide))
    have hpos : 1 ≤ nal.bytes.length := by
      have := nal.start_length
      rw [nal.bytes_eq, List.length_append]
      omega
    have hlaid := hM.laid (Nat.le_refl 1) hfile fun _ _ _ => hpos
    rw [Marks.scan_free (Nat.zero_le _) hfree, seen, if_pos hstart, ← cuts_laid hlaid, hfile, annexB_flatten]
  · have hlong : ∀ nal ∈ nals.head?, nal.start = [0, 0, 1] → 1 ≤ ([] : Bytes).length := by
      intro nal hnal hstart
      cases nals with
      | nil => cases hnal
      | cons n rest =>
        cases hnal
        exact absurd ⟨_, _, rfl, hstart⟩ hfirst
    have hseen : seen nals = nals := by
      cases nals with
      | nil => rfl
      | cons n rest =>
        rw [seen, if_neg]
        intro hstart
        exact hfirst ⟨_, _, rfl, hstart⟩
    have hlaid := hM.laid (Nat.le_refl 1) (List.nil_append _).symm hlong
    rw [hseen, ← cuts_laid hlaid, List.nil_append, ← annexB_flatten]
    rfl

theorem scLen_eq (nal : EncodedNal) (more : Bytes) :
    (if (nal.bytes ++ more).take 4 = [0, 0, 0, 1] then 4 else 3) = nal.start.length := by
  rcases nal.start_code with h | h
  · rw [nal.bytes_eq, h, if_neg (by simp)]
    rfl
  · rw [nal.bytes_eq, h]
    rfl

/-- The checker's ranges are the bodies. -/
theorem nalRanges_annexB {data pre : Bytes} {nals : List EncodedNal} (hdata : data = pre ++ annexB nals) :
    (Checker.nalRanges data (starts pre.length (nals.map fun nal => nal.bytes))).map
      (fun r => (data.drop r.1).take (r.2 - r.1)) = nals.map EncodedNal.body := by
  induction nals generalizing pre with
  | nil => rfl
  | cons nal nals ih =>
    have hcons : data = pre ++ (nal.bytes ++ annexB nals) := hdata
    have hmore : data = (pre ++ nal.bytes) ++ annexB nals := by rw [hcons, List.append_assoc]
    have hrest := ih hmore
    rw [List.length_append] at hrest
    have hdrop : data.drop pre.length = nal.bytes ++ annexB nals := by rw [hcons, List.drop_left]
    have hbody : data.drop (pre.length + nal.start.length) = nal.body ++ annexB nals := by
      rw [← List.drop_drop, hdrop, nal.bytes_eq, List.append_assoc, List.drop_left]
    have hend : (starts (pre.length + nal.bytes.length) (nals.map fun nal => nal.bytes)).headD data.length =
        pre.length + nal.bytes.length := by
      cases nals with
      | nil => simp [starts, hcons, annexB]
      | cons n rest => rfl
    have hlen : nal.bytes.length = nal.start.length + nal.body.length := by rw [nal.bytes_eq, List.length_append]
    have hpos : 0 < nal.body.length := by
      obtain ⟨front, b, -, h⟩ := (codeless_body nal).last
      simp [h]
    rw [List.map_cons, starts, Checker.nalRanges]
    simp only [hdrop, scLen_eq, hend]
    have htake : pre.length + nal.bytes.length - (pre.length + nal.start.length) = nal.body.length := by omega
    rw [if_pos (by omega), List.map_cons, List.map_cons, hrest]
    simp only [hbody, htake, List.take_left]

/-- The checker's reading. -/
theorem nalus_annexB (nals : List EncodedNal) : Checker.nalus (annexB nals) = nals.map EncodedNal.body := by
  have hlaid := (checker_finds (annexB nals)).laid (Nat.zero_le 1) (List.nil_append _).symm fun _ _ _ => Nat.zero_le _
  rw [Checker.nalus, Checker.splitNalus, findStartCodes_eq]
  exact (congrArg _ (congrArg _ (scan_laid hlaid))).trans (nalRanges_annexB (List.nil_append _).symm)

/-- The type in the header. -/
theorem getNalType_unit (isH265 : Bool) (nal : EncodedNal) : getNalType isH265 nal.unit =
    if isH265 then Media.nalTypeH265 (nal.header.getD 0 0) else nalTypeH264 (nal.header.getD 0 0) := by
  have hpos := nal.header_pos
  have hbody : 0 < nal.body.length := by
    rw [EncodedNal.body, List.length_append]
    omega
  have hfirst : nal.body.getD 0 0 = nal.header.getD 0 0 := getD_append_left hpos _
  have hlen : nal.unit.data.length = nal.start.length + nal.body.length := by
    rw [EncodedNal.unit, nal.bytes_eq, List.length_append]
  have hoffset : startCodeLength nal.unit.data = nal.start.length := by
    rw [EncodedNal.unit, nal.bytes_eq, startCodeLength]
    rcases nal.start_code with h | h <;> simp [h]
  have hget : nal.unit.data.getD nal.start.length 0 = nal.header.getD 0 0 := by
    rw [EncodedNal.unit, nal.bytes_eq, ← hfirst]
    exact getD_append_right nal.start nal.body 0
  have hstart := nal.start_length
  have hlong : (if 4 ≤ nal.unit.data.length then startCodeLength nal.unit.data else 0) = nal.start.length := by
    rw [if_pos (by omega), hoffset]
  have hin : ¬ (nal.start.length = 0 ∨ nal.unit.data.length ≤ nal.start.length) := by omega
  rw [getNalType]
  simp only [hlong, if_neg hin, hget]

/-- What the two readers make of a file. -/
structure ReadBack (nals : List EncodedNal) (file : Bytes) : Prop where
  server : parseNalUnits file = (seen nals).map EncodedNal.unit
  checker : Checker.nalus file = nals.map EncodedNal.body
  types : ∀ isH265, ∀ nal ∈ nals, getNalType isH265 nal.unit =
    if isH265 then Media.nalTypeH265 (nal.header.getD 0 0) else nalTypeH264 (nal.header.getD 0 0)
  sameTypes : ∀ nal ∈ nals, nal.header.length = 2 → Checker.nalTypeH265 nal.body = some (getNalType true nal.unit)

/-- **Every written file is read back**, unit by unit. -/
theorem annexB_read (nals : List EncodedNal) : ReadBack nals (annexB nals) where
  server := parse_annexB nals
  checker := nalus_annexB nals
  types isH265 nal _ := getNalType_unit isH265 nal
  sameTypes nal _ hheader := by
    have hbody : 2 ≤ nal.body.length := by
      rw [EncodedNal.body, List.length_append]
      omega
    have hfirst : nal.body.getD 0 0 = nal.header.getD 0 0 := getD_append_left (by omega) _
    rw [Checker.nalTypeH265, if_neg (by omega), getNalType_unit, hfirst]
    rfl

/-! ## The frame rate -/

/-- **The frame rate of a written file.** The first SPS that is read gives the
rate it was written for. -/
theorem annexB_frameRate {x : L1.TruncatedSps.Stream} (hstep : x.InStep) {nals : List EncodedNal} {sps : EncodedNal}
    (hsps : (seen nals).find? (fun nal => getNalType x.isH265 nal.unit = spsType x.isH265) = some sps)
    (hx : sps.toSpsNal = x.nal) :
    (loadFile x.isH265 (annexB nals)).frameRate =
      frameRate (fun numUnitsInTick timeScale => .ratio timeScale (ticks x.isH265 * numUnitsInTick))
        (x.timing.map Timing.fields) := by
  have hfirst : firstSps x.isH265 (parseNalUnits (annexB nals)) = some ⟨x.nal.bytes⟩ := by
    rw [firstSps, parse_annexB, List.find?_map, ← hx]
    simp only [Function.comp_def, hsps]
    rfl
  rw [loadFile_frameRate, firstTiming_of_stream hstep hfirst]

/-- The SPS of the fields with nothing behind it. -/
def fieldsEncoded : EncodedNal where
  toSpsNal := { L1.H264.fieldsNal with extra := [] }
  extra_nil := rfl
  rbsp_last := .inr ⟨L1.H264.fieldsNal.rbsp.dropLast, 0xA0, by decide, by decide⟩

/-- A unit of two bytes. -/
def unitOf (header : UInt8) (hheader : header ≠ 0) (b : UInt8) (hb : b ≠ 0) : EncodedNal where
  start := [0, 0, 0, 1]
  header := [header]
  rbsp := [b]
  extra := []
  start_code := L1.SpsSyntax.four_byte_start
  header_short := Nat.le_succ 1
  header_last := ⟨[], header, hheader, rfl⟩
  extra_nil := rfl
  rbsp_last := .inr ⟨[], b, hb, rfl⟩

/-- A delimiter, the SPS, a PPS and a slice. -/
def fieldsFile : List EncodedNal :=
  [unitOf 0x09 (by decide) 0xF0 (by decide), fieldsEncoded, unitOf 0x68 (by decide) 0xCE (by decide),
    unitOf 0x65 (by decide) 0x88 (by decide)]

theorem annexB_frameRate_fields : (loadFile false (annexB fieldsFile)).frameRate = .ratio 50 (2 * 1) := by
  have hbegins : fieldsEncoded.Begins L1.H264.fieldsSps.bits := L1.H264.fieldsNal_begins
  have hstep : (L1.TruncatedSps.Stream.h264 L1.H264.fieldsSps fieldsEncoded.toSpsNal rfl hbegins).InStep :=
    show L1.H264.fieldsSps.profileIdc ∉ _ by decide
  have hsps : (seen fieldsFile).find? (fun nal => getNalType false nal.unit = spsType false) = some fieldsEncoded := rfl
  exact annexB_frameRate hstep hsps rfl

end WebPlayer.L4.NalParser
