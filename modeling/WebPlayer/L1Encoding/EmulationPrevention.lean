import WebPlayer.Core.Bytes
import Mathlib.Data.List.Induction

/-!
# Emulation prevention (`server/sps_parser.cpp:11-24`)

Inside a NAL unit no start code may appear, so the encoder puts a 03 between
two zero bytes and a byte of at most 03. `RemoveEmulationPrevention` drops
every 03 behind two zeros of the escaped data.

* `remove_insert`: removal undoes the insertion.
* `remove_escape`: the same behind any bytes that do not end in a zero.
* `remove_prefix`: cutting the data cuts what is extracted.
-/
namespace WebPlayer.L1.EmulationPrevention
open WebPlayer.Core

/-- The byte at `i` is skipped. -/
def isEmulation (data : Bytes) (i : Nat) : Bool :=
  2 ≤ i && data.getD i 0 == 3 && data.getD (i - 1) 0 == 0 && data.getD (i - 2) 0 == 0

/-- mirrors server/sps_parser.cpp:11-24 -/
def removeEmulationPrevention (data : Bytes) : Bytes :=
  (List.range data.length).flatMap fun i => if isEmulation data i then [] else [data.getD i 0]

/-- The rule for writing, after so many zeros of output. -/
def escape : Nat → Bytes → Bytes
  | zeros, [] => if zeros = 2 then [3] else []
  | zeros, b :: bs =>
    if zeros = 2 ∧ b ≤ 3 then 3 :: b :: escape (if b = 0 then 1 else 0) bs
    else b :: escape (if b = 0 then zeros + 1 else 0) bs

/-! ## Byte by byte -/

/-- A 03 behind the data would be skipped. -/
def endsInZeros (data : Bytes) : Bool :=
  2 ≤ data.length && data.getD (data.length - 1) 0 == 0 && data.getD (data.length - 2) 0 == 0

theorem remove_snoc (data : Bytes) (b : UInt8) : removeEmulationPrevention (data ++ [b]) =
    removeEmulationPrevention data ++ if b = 3 ∧ endsInZeros data then [] else [b] := by
  have hleft : ∀ i, i < data.length → (data ++ [b]).getD i 0 = data.getD i 0 := fun i hi => getD_append_left hi [b]
  have hlast : (data ++ [b]).getD data.length 0 = b := by
    rw [List.getD_eq_getElem?_getD, List.getElem?_append_right (Nat.le_refl _), Nat.sub_self]
    rfl
  have hsame : ∀ i, i < data.length → isEmulation (data ++ [b]) i = isEmulation data i := by
    intro i hi
    unfold isEmulation
    rw [hleft i hi, hleft (i - 1) (by omega), hleft (i - 2) (by omega)]
  have hiff : isEmulation (data ++ [b]) data.length = true ↔ b = 3 ∧ endsInZeros data = true := by
    unfold isEmulation endsInZeros
    by_cases h2 : 2 ≤ data.length
    · rw [hlast, hleft (data.length - 1) (by omega), hleft (data.length - 2) (by omega)]
      simp [h2, and_assoc]
    · simp [h2]
  unfold removeEmulationPrevention
  rw [List.length_append, List.length_singleton, List.range_succ, List.flatMap_append, List.flatMap_singleton]
  congr 1
  · apply List.flatMap_congr
    intro i hi
    have hi := List.mem_range.mp hi
    rw [hsame i hi, hleft i hi]
  · simp only [hiff, hlast]

theorem remove_prefix (data more : Bytes) :
    ∃ tail, removeEmulationPrevention (data ++ more) = removeEmulationPrevention data ++ tail := by
  induction more using List.reverseRecOn with
  | nil => exact ⟨[], by rw [List.append_nil, List.append_nil]⟩
  | append_singleton more b ih =>
    obtain ⟨tail, htail⟩ := ih
    rw [← List.append_assoc, remove_snoc, htail, List.append_assoc]
    exact ⟨_, rfl⟩

/-! ## Removal after insertion -/

/-- The next byte of the RBSP behind what is written so far. -/
def put (out : Bytes) (b : UInt8) : Bytes :=
  if endsInZeros out ∧ b ≤ 3 then out ++ [3, b] else out ++ [b]

/-- Two zeros at the end are followed by a 03 too. -/
def finish (out : Bytes) : Bytes := if endsInZeros out then out ++ [3] else out

/-- The rule for writing, by the bytes already written. -/
def insertEmulationPrevention (rbsp : Bytes) : Bytes := finish (rbsp.foldl put [])

@[simp] theorem endsInZeros_snoc_three (out : Bytes) : endsInZeros (out ++ [3]) = false := by
  simp [endsInZeros]

/-- The inserted 03 is the one that goes: a 03 of the RBSP has either no two
zeros in front of it or the inserted 03. -/
theorem remove_put (out : Bytes) (b : UInt8) :
    removeEmulationPrevention (put out b) = removeEmulationPrevention out ++ [b] := by
  unfold put
  split
  · rename_i h
    have hsplit : out ++ [3, b] = out ++ [3] ++ [b] := by simp
    rw [hsplit, remove_snoc, remove_snoc, if_pos ⟨rfl, h.1⟩]
    simp
  · rename_i h
    have hkeep : ¬ (b = 3 ∧ endsInZeros out = true) := by
      rintro ⟨rfl, hz⟩
      exact h ⟨hz, by decide⟩
    rw [remove_snoc, if_neg hkeep]

theorem remove_foldl_put (out bs : Bytes) :
    removeEmulationPrevention (bs.foldl put out) = removeEmulationPrevention out ++ bs := by
  induction bs generalizing out with
  | nil => simp
  | cons b bs ih => rw [List.foldl_cons, ih, remove_put, List.append_assoc, List.singleton_append]

theorem remove_finish (out : Bytes) : removeEmulationPrevention (finish out) = removeEmulationPrevention out := by
  unfold finish
  split
  · rename_i h
    rw [remove_snoc, if_pos ⟨rfl, h⟩, List.append_nil]
  · rfl

/-- **Round trip.** -/
theorem remove_insert (rbsp : Bytes) : removeEmulationPrevention (insertEmulationPrevention rbsp) = rbsp := by
  rw [insertEmulationPrevention, remove_finish, remove_foldl_put]
  rfl

/-! ## The same with a counter -/

/-- The data end in exactly so many zeros, of at most two. -/
inductive Zeros : Nat → Bytes → Prop where
  | none {data : Bytes} {b : UInt8} (hb : b ≠ 0) : Zeros 0 (data ++ [b])
  | one {data : Bytes} {b : UInt8} (hb : b ≠ 0) : Zeros 1 (data ++ [b, 0])
  | two {data : Bytes} {b : UInt8} (hb : b ≠ 0) : Zeros 2 (data ++ [b, 0, 0])

theorem Zeros.endsInZeros_iff {zeros : Nat} {data : Bytes} (h : Zeros zeros data) : endsInZeros data = true ↔ zeros = 2 := by
  cases h with
  | none hb => simp [endsInZeros, hb]
  | one hb => simp [endsInZeros, hb]
  | two hb => simp [endsInZeros]

/-- A byte that the rule lets through. -/
theorem Zeros.next {zeros : Nat} {data : Bytes} (h : Zeros zeros data) {b : UInt8} (hb : ¬ (zeros = 2 ∧ b ≤ 3)) :
    Zeros (if b = 0 then zeros + 1 else 0) (data ++ [b]) := by
  by_cases h0 : b = 0
  · subst h0
    simp only [if_true]
    cases h with
    | none h0 => simpa using Zeros.one h0
    | one h0 => simpa using Zeros.two h0
    | two h0 => exact absurd ⟨rfl, by decide⟩ hb
  · rw [if_neg h0]
    exact .none h0

/-- Counting the zeros is looking back at what is written. -/
theorem finish_foldl_put {zeros : Nat} {data : Bytes} (h : Zeros zeros data) (bs : Bytes) :
    finish (bs.foldl put data) = data ++ escape zeros bs := by
  induction bs generalizing zeros data with
  | nil =>
    simp only [List.foldl_nil, finish, escape, h.endsInZeros_iff]
    split <;> simp
  | cons b bs ih =>
    rw [List.foldl_cons, escape]
    by_cases hb : zeros = 2 ∧ b ≤ 3
    · have hthree : Zeros 0 (data ++ [3]) := .none (by decide)
      have hnext := hthree.next (b := b) (by simp)
      have hput : put data b = data ++ [3] ++ [b] := by
        rw [put, if_pos ⟨h.endsInZeros_iff.mpr hb.1, hb.2⟩, List.append_assoc]
        rfl
      rw [hput, ih hnext, if_pos hb]
      simp
    · have hput : put data b = data ++ [b] := by
        rw [put, if_neg fun h' => hb ⟨h.endsInZeros_iff.mp h'.1, h'.2⟩]
      rw [hput, ih (h.next hb), if_neg hb]
      simp

/-- Removal behind a header. -/
theorem remove_escape {zeros : Nat} {data : Bytes} (h : Zeros zeros data) (bs : Bytes) :
    removeEmulationPrevention (data ++ escape zeros bs) = removeEmulationPrevention data ++ bs := by
  rw [← finish_foldl_put h, remove_finish, remove_foldl_put]

end WebPlayer.L1.EmulationPrevention
