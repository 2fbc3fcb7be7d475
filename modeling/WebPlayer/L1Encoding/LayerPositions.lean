import WebPlayer.L1Encoding.ParserBounds

/-!
# Where the extension layers are read (`wasm/frame_protocol.c:153-205`)

`parse_ext_headers` keeps its position in a `uint8_t`. A common header behind
a fragment header can claim to be longer than what is left of it: the position
wraps, and the type-specific fields are read off the fragment header.

* `parseExtHeaders_eq`: which bytes the type-specific fields are.
* `misplaced_iff`: when these are bytes of another header.
* `positions_exact_iff`: they are the bytes behind the announced headers unless
  the position wraps or an announced fragment header is not there.
-/
namespace WebPlayer.L1.FrameParser
open WebPlayer.Core WebPlayer.L1.FrameEncoder

/-! ## The layout -/

/-- Where the common header begins in the extension area. -/
def commonPosition (flags : UInt8) : Nat := if flags &&& FLAG_FRAGMENT ≠ 0 then FRAGMENT_EXT_SIZE else 0

/-- A byte of the extension area. -/
def extByte (data : Bytes) (p : Nat) : UInt8 := data.getD (FIXED_HEADER_SIZE + p) 0

/-- Where the type-specific header begins, in exact arithmetic. -/
def typePosition (data : Bytes) (flags : UInt8) : Nat :=
  commonPosition flags + if flags &&& FLAG_HAS_COMMON ≠ 0 then (extByte data (commonPosition flags)).toNat else 0

/-- The fields of a type-specific header at `p`. -/
def typeFieldsAt (data : Bytes) (msgType : UInt8) (p : Nat) (f : ExtFields) : ExtFields :=
  if msgType = 0x01 then
    { f with
      videoCodec := extByte data p
      videoFrameType := extByte data (p + 1)
      videoResolution := UInt16.ofNat (beNat ((data.drop (FIXED_HEADER_SIZE + p + 2)).take 2)) }
  else
    { f with
      audioCodec := extByte data p
      audioSampleRate := extByte data (p + 1)
      audioChannels := extByte data (p + 2) }

/-- Neither video nor audio fields. -/
def Unfilled (f : ExtFields) : Prop :=
  f = { frameId := f.frameId, fragIndex := f.fragIndex, totalFrags := f.totalFrags, absTime := f.absTime }

/-- The position that `parse_ext_headers` fills the video or audio fields
from, if it does: `offset` once the first two layers are read. -/
def filledFrom (data : Bytes) (extLength flags msgType : UInt8) : Except Fault (Option Nat) := do
  let (offset, f) ← parseFragmentLayer data extLength flags {}
  let (offset, _) ← parseCommonLayer data extLength flags offset f
  if (msgType = 0x01 ∨ msgType = 0x02) ∧ offset.toNat + 4 ≤ extLength.toNat then pure (some offset.toNat)
  else pure none

/-- `offset` once the first two layers are read. -/
def reachedPosition (data : Bytes) (extLength flags : UInt8) : Nat :=
  let o := if flags &&& FLAG_FRAGMENT ≠ 0 ∧ 6 ≤ extLength.toNat then 6 else 0
  if flags &&& FLAG_HAS_COMMON ≠ 0 ∧ o + 2 ≤ extLength.toNat then (o + (extByte data o).toNat) % 256 else o

/-- Bytes of the other headers are read as the type-specific one: the position
wraps at 256, or a fragment header is announced and the area is too short for
it. -/
inductive Reinterpreted (data : Bytes) (extLength flags : UInt8) : Prop where
  | wraps (hf : flags &&& FLAG_FRAGMENT ≠ 0) (hc : flags &&& FLAG_HAS_COMMON ≠ 0) (h8 : 8 ≤ extLength.toNat)
      (hwrap : 256 ≤ 6 + (extByte data 6).toNat) (hfit : 6 + (extByte data 6).toNat - 256 + 4 ≤ extLength.toNat)
  | noFragment (hf : flags &&& FLAG_FRAGMENT ≠ 0) (hshort : extLength.toNat < 6)
      (hfit : (if flags &&& FLAG_HAS_COMMON ≠ 0 then (extByte data 0).toNat else 0) + 4 ≤ extLength.toNat)

/-! ## What each layer does to the position -/

section
variable {data : Bytes} {ext : UInt8} (hext : FIXED_HEADER_SIZE + ext.toNat ≤ data.length)
include hext

theorem parseFragmentLayer_position (flags : UInt8) :
    ∃ o f, parseFragmentLayer data ext flags {} = .ok (o, f) ∧ Unfilled f ∧
      o.toNat = if flags &&& FLAG_FRAGMENT ≠ 0 ∧ 6 ≤ ext.toNat then 6 else 0 := by
  unfold parseFragmentLayer
  by_cases h : flags &&& FLAG_FRAGMENT ≠ 0 ∧ FRAGMENT_EXT_SIZE ≤ ext.toNat
  · have hfit : 6 ≤ ext.toNat := h.2
    simp only [FIXED_HEADER_SIZE] at hext
    rw [if_pos h, readBe16_ok (by simp only [FIXED_HEADER_SIZE]; omega),
      readBe16_ok (by simp only [FIXED_HEADER_SIZE]; omega), readBe16_ok (by simp only [FIXED_HEADER_SIZE]; omega)]
    exact ⟨6, _, rfl, rfl, (if_pos h).symm⟩
  · rw [if_neg h]
    exact ⟨0, {}, rfl, rfl, (if_neg h).symm⟩

/-- The position moves on by the length byte, modulo 256. -/
theorem parseCommonLayer_position (flags o : UInt8) {f : ExtFields} (hf : Unfilled f) :
    ∃ o' f', parseCommonLayer data ext flags o f = .ok (o', f') ∧ Unfilled f' ∧
      o'.toNat = if flags &&& FLAG_HAS_COMMON ≠ 0 ∧ o.toNat + 2 ≤ ext.toNat then
        (o.toNat + (extByte data o.toNat).toNat) % 256 else o.toNat := by
  unfold parseCommonLayer
  by_cases h : flags &&& FLAG_HAS_COMMON ≠ 0 ∧ o.toNat + 2 ≤ ext.toNat
  · have hfit := h.2
    rw [if_pos h, if_pos h, readByte_ok (by omega), readByte_ok (by omega), ok_bind, ok_bind]
    split
    · rename_i ha
      have hfit := ha.2.2
      rw [readBe64_ok (by omega)]
      refine ⟨_, _, rfl, ?_, UInt8.toNat_add _ _⟩
      rw [Unfilled] at hf ⊢
      rw [hf]
    · exact ⟨_, f, rfl, hf, UInt8.toNat_add _ _⟩
  · rw [if_neg h, if_neg h]
    exact ⟨o, f, rfl, hf, rfl⟩

theorem parseTypeLayer_fields {msgType : UInt8} (hmsg : msgType = 0x01 ∨ msgType = 0x02) (o : UInt8) (f : ExtFields) :
    parseTypeLayer data ext msgType o f =
      .ok (if o.toNat + 4 ≤ ext.toNat then typeFieldsAt data msgType o.toNat f else f) := by
  unfold parseTypeLayer typeFieldsAt
  by_cases h : o.toNat + 4 ≤ ext.toNat
  · rcases hmsg with rfl | rfl
    · rw [if_pos ⟨rfl, h⟩, if_pos h, readByte_ok (by omega), readByte_ok (by omega), readBe16_ok (by omega)]
      rfl
    · rw [if_neg (by simp), if_pos ⟨rfl, h⟩, if_pos h, readByte_ok (by omega), readByte_ok (by omega),
        readByte_ok (by omega)]
      rfl
  · rw [if_neg (fun h' => h h'.2), if_neg (fun h' => h h'.2), if_neg h]
    rfl

/-- **The fields.** The video or audio fields are the bytes at the position
reached, if four bytes of the area are left there. -/
theorem parseExtHeaders_eq {msgType : UInt8} (hmsg : msgType = 0x01 ∨ msgType = 0x02) (flags : UInt8) :
    ∃ pos f, filledFrom data ext flags msgType = .ok pos ∧ Unfilled f ∧
      parseExtHeaders data ext flags msgType = .ok (pos.elim f (typeFieldsAt data msgType · f)) := by
  obtain ⟨o₁, f₁, h₁, hu₁, -⟩ := parseFragmentLayer_position hext flags
  obtain ⟨o₂, f₂, h₂, hu₂, -⟩ := parseCommonLayer_position hext flags o₁ hu₁
  rw [filledFrom, parseExtHeaders, h₁, ok_bind, ok_bind]
  simp only [h₂, ok_bind, parseTypeLayer_fields hext hmsg, hmsg, true_and]
  split
  · exact ⟨_, f₂, rfl, hu₂, rfl⟩
  · exact ⟨_, f₂, rfl, hu₂, rfl⟩

theorem filledFrom_eq {msgType : UInt8} (hmsg : msgType = 0x01 ∨ msgType = 0x02) (flags : UInt8) {pos : Option Nat}
    (h : filledFrom data ext flags msgType = .ok pos) (p : Nat) :
    p ∈ pos ↔ p = reachedPosition data ext flags ∧ reachedPosition data ext flags + 4 ≤ ext.toNat := by
  obtain ⟨o₁, f₁, h₁, hu₁, ho₁⟩ := parseFragmentLayer_position hext flags
  obtain ⟨o₂, f₂, h₂, -, ho₂⟩ := parseCommonLayer_position hext flags o₁ hu₁
  rw [filledFrom, h₁, ok_bind] at h
  simp only [h₂, ok_bind, hmsg, true_and] at h
  simp only [reachedPosition, ← ho₁, ← ho₂]
  split at h
  · rename_i hfit
    cases h
    simp only [Option.mem_def, Option.some.injEq]
    exact ⟨fun h => ⟨h.symm, hfit⟩, fun h => h.1.symm⟩
  · rename_i hfit
    cases h
    simp only [Option.mem_def, reduceCtorEq, false_iff]
    exact fun h => hfit h.2

end

/-! ## Positions that are reached by mistake -/

section
variable {data : Bytes} {ext flags : UInt8}

/-- The fields are filled from somewhere else than behind the announced
headers. -/
def Misplaced (data : Bytes) (extLength flags : UInt8) : Prop :=
  reachedPosition data extLength flags + 4 ≤ extLength.toNat ∧
    reachedPosition data extLength flags ≠ typePosition data flags

/-- An announced fragment header is skipped where it does not fit, and what
should follow it is read in its place. -/
theorem misplaced_short (hf : flags &&& FLAG_FRAGMENT ≠ 0) (hshort : ext.toNat < 6) :
    Misplaced data ext flags ↔ Reinterpreted data ext flags := by
  have h256 := (extByte data 0).toNat_lt
  have h6 : ¬ 6 ≤ ext.toNat := by omega
  have hstart : reachedPosition data ext flags =
      if flags &&& FLAG_HAS_COMMON ≠ 0 ∧ 2 ≤ ext.toNat then (extByte data 0).toNat else 0 := by
    have hmod : (extByte data 0).toNat % 256 = (extByte data 0).toNat := Nat.mod_eq_of_lt h256
    simp only [reachedPosition, h6, and_false, if_false, Nat.zero_add, hmod]
  have hpos : 6 ≤ typePosition data flags := by
    rw [typePosition, commonPosition, if_pos hf]
    exact Nat.le_add_right _ _
  rw [Misplaced, hstart]
  constructor
  · rintro ⟨hfit, -⟩
    refine .noFragment hf hshort ?_
    by_cases hc : flags &&& FLAG_HAS_COMMON ≠ 0
    · rw [if_pos ⟨hc, by omega⟩] at hfit
      rwa [if_pos hc]
    · rw [if_neg (fun h => hc h.1)] at hfit
      rwa [if_neg hc]
  · intro hr
    cases hr with
    | wraps _ _ h8 => omega
    | noFragment _ _ hfit =>
      by_cases hc : flags &&& FLAG_HAS_COMMON ≠ 0
      · rw [if_pos hc] at hfit
        rw [if_pos ⟨hc, by omega⟩]
        exact ⟨hfit, by omega⟩
      · rw [if_neg hc] at hfit
        rw [if_neg (fun h => hc h.1)]
        exact ⟨hfit, by omega⟩

/-- Behind a fragment header the length byte of the common one can take the
position past 255. -/
theorem misplaced_wrap (hf : flags &&& FLAG_FRAGMENT ≠ 0) (h6 : 6 ≤ ext.toNat) :
    Misplaced data ext flags ↔ Reinterpreted data ext flags := by
  have h256 := (extByte data 6).toNat_lt
  have hstart : reachedPosition data ext flags =
      if flags &&& FLAG_HAS_COMMON ≠ 0 ∧ 8 ≤ ext.toNat then (6 + (extByte data 6).toNat) % 256 else 6 := by
    have ho : (if flags &&& FLAG_FRAGMENT ≠ 0 ∧ 6 ≤ ext.toNat then 6 else 0) = 6 := if_pos ⟨hf, h6⟩
    simp only [reachedPosition, ho]
  have hpos : typePosition data flags = 6 + if flags &&& FLAG_HAS_COMMON ≠ 0 then (extByte data 6).toNat else 0 := by
    rw [typePosition, commonPosition, if_pos hf, FRAGMENT_EXT_SIZE]
  rw [Misplaced, hstart, hpos]
  constructor
  · rintro ⟨hfit, hne⟩
    by_cases hc : flags &&& FLAG_HAS_COMMON ≠ 0
    · by_cases h8 : 8 ≤ ext.toNat
      · rw [if_pos ⟨hc, h8⟩] at hfit hne
        rw [if_pos hc] at hne
        exact .wraps hf hc h8 (by omega) (by omega)
      · rw [if_neg (fun h => h8 h.2)] at hfit
        omega
    · rw [if_neg (fun h => hc h.1), if_neg hc] at hne
      exact absurd rfl hne
  · intro hr
    cases hr with
    | noFragment _ hshort => omega
    | wraps _ hc h8 hwrap hfit =>
      rw [if_pos ⟨hc, h8⟩, if_pos hc]
      exact ⟨by omega, by omega⟩

/-- Without a fragment header nothing wraps. -/
theorem not_misplaced (hf : ¬ flags &&& FLAG_FRAGMENT ≠ 0) : ¬ Misplaced data ext flags := by
  have h256 := (extByte data 0).toNat_lt
  have hstart : reachedPosition data ext flags =
      if flags &&& FLAG_HAS_COMMON ≠ 0 ∧ 2 ≤ ext.toNat then (extByte data 0).toNat else 0 := by
    have hmod : (extByte data 0).toNat % 256 = (extByte data 0).toNat := Nat.mod_eq_of_lt h256
    simp only [reachedPosition, hf, false_and, if_false, Nat.zero_add, hmod]
  have hpos : typePosition data flags = if flags &&& FLAG_HAS_COMMON ≠ 0 then (extByte data 0).toNat else 0 := by
    rw [typePosition, commonPosition, if_neg hf, Nat.zero_add]
  rw [Misplaced, hstart, hpos]
  rintro ⟨hfit, hne⟩
  by_cases hc : flags &&& FLAG_HAS_COMMON ≠ 0
  · rw [if_pos hc] at hne
    by_cases h2 : 2 ≤ ext.toNat
    · exact hne (if_pos ⟨hc, h2⟩)
    · omega
  · rw [if_neg hc] at hne
    exact hne (if_neg fun h => hc h.1)

/-- A header has been taken for the type-specific one. -/
theorem misplaced_iff : Misplaced data ext flags ↔ Reinterpreted data ext flags := by
  by_cases hf : flags &&& FLAG_FRAGMENT ≠ 0
  · by_cases h6 : 6 ≤ ext.toNat
    · exact misplaced_wrap hf h6
    · exact misplaced_short hf (by omega)
  · refine iff_of_false (not_misplaced hf) fun hr => ?_
    cases hr with
    | wraps hf' => exact hf hf'
    | noFragment hf' => exact hf hf'

end

section
variable {data : Bytes} {ext : UInt8} (hext : FIXED_HEADER_SIZE + ext.toNat ≤ data.length)
include hext

/-- **The positions.** The fields are those of the type-specific header behind
the announced ones, exactly when no other header is taken for it. -/
theorem positions_exact_iff {msgType : UInt8} (hmsg : msgType = 0x01 ∨ msgType = 0x02) (flags : UInt8) :
    ∃ pos f, filledFrom data ext flags msgType = .ok pos ∧ Unfilled f ∧
      parseExtHeaders data ext flags msgType = .ok (pos.elim f (typeFieldsAt data msgType · f)) ∧
      ((∀ p ∈ pos, p = typePosition data flags ∧ p + 4 ≤ ext.toNat) ↔ ¬ Reinterpreted data ext flags) := by
  obtain ⟨pos, f, hpos, hu, hparse⟩ := parseExtHeaders_eq hext hmsg flags
  refine ⟨pos, f, hpos, hu, hparse, ?_⟩
  have hmem := filledFrom_eq hext hmsg flags hpos
  rw [← misplaced_iff]
  constructor
  · rintro h ⟨hfit, hne⟩
    exact hne (h _ ((hmem _).mpr ⟨rfl, hfit⟩)).1
  · intro h p hp
    obtain ⟨rfl, hfit⟩ := (hmem p).mp hp
    exact ⟨not_not.mp fun hne => h ⟨hfit, hne⟩, hfit⟩

end

/-- A fragment header and a common header of four bytes that claims 250, in
front of a payload of one byte. -/
def wrappingFrame : Bytes :=
  [0xEB, 0x01, 1, 1, 9, 0, 0, 0, 0, 0, 0, 0, 0, 10, 0, 0, 0, 1, 0, 0, 2, 9, 0, 0, 0, 1, 250, 0, 0, 0, 0xAA]

/-- With the fragment flag alone, the fields are behind the fragment header. -/
theorem positions_exact_fragment : ∃ pos f, filledFrom wrappingFrame 10 1 1 = .ok pos ∧ Unfilled f ∧
    parseExtHeaders wrappingFrame 10 1 1 = .ok (pos.elim f (typeFieldsAt wrappingFrame 1 · f)) ∧
    ((∀ p ∈ pos, p = typePosition wrappingFrame 1 ∧ p + 4 ≤ (10 : UInt8).toNat) ↔ ¬ Reinterpreted wrappingFrame 10 1) :=
  @positions_exact_iff wrappingFrame 10 (by decide) 1 (.inl rfl) 1

/-- The codec of the frame is the first byte of its frame id. -/
theorem positions_wrap :
    (∃ f, parseExtHeaders wrappingFrame 10 9 1 = .ok f ∧ f.frameId = 0x0209 ∧ f.videoCodec = 2 ∧ f.videoFrameType = 9) ∧
    ¬ ∀ (data : Bytes) (ext flags msgType : UInt8), FIXED_HEADER_SIZE + ext.toNat ≤ data.length →
      msgType = 0x01 ∨ msgType = 0x02 → ∀ pos, filledFrom data ext flags msgType = .ok pos →
      ∀ p ∈ pos, p = typePosition data flags ∧ p + 4 ≤ ext.toNat := by
  refine ⟨⟨_, rfl, by decide, by decide, by decide⟩, fun h => ?_⟩
  have hpos := h wrappingFrame 10 9 1 (by decide) (.inl rfl) (some 0) rfl 0 rfl
  exact absurd hpos.1 (by decide)

end WebPlayer.L1.FrameParser
