import WebPlayer.L2Machine.FragmentSlots
import Mathlib.Algebra.Order.BigOperators.Group.List

/-!
# A slot under arbitrary fragments

`Partial` is what a slot stands for whoever sends the fragments: a place for
each of 1 to 256 pieces. `slotOf` is the slot that stores it, and one fragment
does to the slot what `file` does to the places.

* `storeFragment_slot`: a fragment fills the empty place of its index, if its
  buffer can be allocated, and is ignored where there is none.
* `reassemble_slotOf`: with every place filled the output is the pieces in
  order, each once.
* `fileFragment_slotOf`: the step on a slot.
-/
namespace WebPlayer.L2.PieceSlots
open WebPlayer.Core WebPlayer.L1.FrameParser WebPlayer.L2.FragmentSlots

/-- The pieces of a frame that is being received. -/
structure Partial where
  info : FrameMeta
  pieces : List (Option Bytes)
  length_pos : 1 ≤ pieces.length
  length_le : pieces.length ≤ 256

def pieceSize : Option Bytes → UInt32
  | some piece => UInt32.ofNat piece.length
  | none => 0

def slotOf (frameId : UInt16) (x : Partial) : FragmentEntry where
  frameId := frameId
  totalFragments := UInt16.ofNat x.pieces.length
  receivedCount := UInt16.ofNat (x.pieces.countP (·.isSome))
  fragmentData := some x.pieces
  fragmentSizes := some (x.pieces.map pieceSize)
  fragmentPresent := some (x.pieces.map (·.isSome))
  info := x.info
  active := true

/-- The pieces that are there, one after another. -/
def concat (pieces : List (Option Bytes)) : Bytes := (pieces.map (·.getD [])).flatten

namespace Partial

/-- Before the first fragment. -/
def new (n : Nat) (hpos : 1 ≤ n) (hle : n ≤ 256) : Partial where
  info := {}
  pieces := List.replicate n none
  length_pos := by rwa [List.length_replicate]
  length_le := by rwa [List.length_replicate]

/-- A piece for an empty place; index 0 brings the metadata. -/
def file (idx : Nat) (info : FrameMeta) (piece : Bytes) (x : Partial) : Partial where
  info := if idx = 0 then info else x.info
  pieces := if x.pieces[idx]? = some none then x.pieces.set idx (some piece) else x.pieces
  length_pos := by
    split
    · rw [List.length_set]
      exact x.length_pos
    · exact x.length_pos
  length_le := by
    split
    · rw [List.length_set]
      exact x.length_le
    · exact x.length_le

/-- The metadata that index 0 brings. -/
def setInfo (idx : Nat) (info : FrameMeta) (x : Partial) : Partial :=
  { x with info := if idx = 0 then info else x.info }

theorem file_eq_setInfo {idx : Nat} {x : Partial} (h : x.pieces[idx]? ≠ some none) (info : FrameMeta) (piece : Bytes) :
    x.file idx info piece = x.setInfo idx info := by
  simp only [file, setInfo, if_neg h]

/-- No place is empty. -/
def Full (x : Partial) : Prop := none ∉ x.pieces

instance (x : Partial) : Decidable x.Full := inferInstanceAs (Decidable (¬ _))

end Partial

theorem new_open (n : Nat) (hpos : 1 ≤ n) (hle : n ≤ 256) : ¬ (Partial.new n hpos hle).Full := by
  refine fun hfull => hfull ?_
  rw [Partial.new, List.mem_replicate]
  exact ⟨by omega, rfl⟩

/-! ## The fields of a slot -/

section
variable (id : UInt16) (x : Partial)

theorem slotOf_total : (slotOf id x).totalFragments.toNat = x.pieces.length := by
  have := x.length_le
  exact UInt16.toNat_ofNat_of_lt' (by simp only [UInt16.size]; omega)

theorem slotOf_received : (slotOf id x).receivedCount.toNat = x.pieces.countP (·.isSome) := by
  have := x.length_le
  have := @List.countP_le_length _ (·.isSome) x.pieces
  exact UInt16.toNat_ofNat_of_lt' (by simp only [UInt16.size]; omega)

/-- The count reaches the total when no place is empty. -/
theorem full_iff : x.pieces.length ≤ x.pieces.countP (·.isSome) ↔ x.Full := by
  have hle := @List.countP_le_length _ (·.isSome) x.pieces
  have heq : x.pieces.length ≤ x.pieces.countP (·.isSome) ↔ x.pieces.countP (·.isSome) = x.pieces.length := by omega
  rw [heq, List.countP_eq_length, Partial.Full]
  constructor
  · intro hall hnone
    cases hall none hnone
  · intro hfull piece hmem
    cases piece with
    | some piece => rfl
    | none => exact absurd hmem hfull

theorem newEntry_slotOf {m : Mallocs} (hm : (m.fragmentData && m.fragmentSizes && m.fragmentPresent) = true) (n : UInt16)
    (hpos : 1 ≤ n.toNat) (hle : n.toNat ≤ 256) : newEntry m id n = slotOf id (.new n.toNat hpos hle) := by
  simp only [Bool.and_eq_true] at hm
  rw [newEntry, if_pos ⟨hpos, hle⟩, slotOf, hm.1.1, hm.1.2, hm.2]
  simp [Partial.new, calloc, pieceSize, List.countP_replicate]

end

/-! ## Storing a fragment -/

theorem payload_length {h : FixedHeader} {data piece : Bytes} (hpay : h.payload data = .ok piece) :
    h.payloadLength = UInt32.ofNat piece.length := by
  unfold FixedHeader.payload readInput at hpay
  split at hpay
  · cases hpay
    rw [List.length_take, List.length_drop, Nat.min_eq_left (by omega), UInt32.ofNat_toNat]
  · cases hpay

theorem set_none {ps : List (Option Bytes)} {i : Nat} (h : ps[i]? = some none) : ps.set i none = ps := by
  obtain ⟨hi, hnone⟩ := List.getElem?_eq_some_iff.mp h
  rw [← hnone, List.set_getElem_self]

/-- A fragment fills an empty place, if its buffer can be allocated; the
metadata is set by the caller. -/
theorem storeFragment_slot (m : Mallocs) (h : FixedHeader) (data : Bytes) (id : UInt16) (idx : Nat) (x : Partial)
    (info : FrameMeta) : storeFragment m h data idx (slotOf id (x.setInfo idx info)) =
      if x.pieces[idx]? = some none then
        if m.fragment = true then (h.payload data).map fun piece => (true, slotOf id (x.file idx info piece))
        else .ok (false, slotOf id (x.setInfo idx info))
      else .ok (true, slotOf id (x.setInfo idx info)) := by
  have htotal : (slotOf id (x.setInfo idx info)).totalFragments.toNat = x.pieces.length := slotOf_total id _
  unfold storeFragment
  by_cases hidx : idx < x.pieces.length
  · have hget : x.pieces[idx]? = some x.pieces[idx] := List.getElem?_eq_getElem hidx
    rw [if_pos (by rw [htotal]; exact hidx)]
    simp only [slotOf, Partial.setInfo, arrGet, arrSet, List.getElem?_map, List.length_map, hget, Option.map_some,
      if_pos hidx, ok_bind, Option.some.injEq]
    cases hp : x.pieces[idx] with
    | some old => simp
    | none =>
      have hplace : x.pieces[idx]? = some none := by rw [hget, hp]
      cases m.fragment with
      | false => simp [set_none hplace]
      | true =>
        cases hpay : h.payload data with
        | error e => simp [Except.map]
        | ok piece =>
          have hcount : (x.pieces.set idx (some piece)).countP (·.isSome) = x.pieces.countP (·.isSome) + 1 := by
            rw [List.countP_set hidx, hp]
            simp
          simp [payload_length hpay, hcount, pieceSize, Partial.file, hplace]
  · have hget : x.pieces[idx]? = none := List.getElem?_eq_none (Nat.not_lt.mp hidx)
    rw [if_neg (by rw [htotal]; exact hidx), hget, if_neg (Option.some_ne_none none).symm]
    rfl

theorem storeFragment_slotOf {h : FixedHeader} {data piece : Bytes} (hpay : h.payload data = .ok piece) (id : UInt16)
    (idx : Nat) (x : Partial) (info : FrameMeta) :
    storeFragment {} h data idx (slotOf id (x.setInfo idx info)) = .ok (true, slotOf id (x.file idx info piece)) := by
  rw [storeFragment_slot, hpay]
  by_cases hplace : x.pieces[idx]? = some none
  · rw [if_pos hplace, if_pos rfl, ok_map]
  · rw [if_neg hplace, Partial.file_eq_setInfo hplace]

/-! ## Reassembly -/

/-- A full slot holds its pieces. -/
theorem pieces_slotOf {x : Partial} (hfull : x.Full) (id : UInt16) : Pieces (slotOf id x) (x.pieces.map (·.getD [])) := by
  have hsome : ∀ k (hk : k < x.pieces.length), ∃ piece, x.pieces[k] = some piece := by
    intro k hk
    cases hp : x.pieces[k] with
    | some piece => exact ⟨piece, rfl⟩
    | none => exact absurd (hp ▸ List.getElem_mem hk) hfull
  refine ⟨by rw [slotOf_total, List.length_map], fun k hk => ?_, fun k hk => ?_⟩
  · rw [List.length_map] at hk
    obtain ⟨piece, hpiece⟩ := hsome k hk
    simp [slotOf, arrGet, List.getElem?_eq_getElem hk, hpiece]
  · rw [List.length_map] at hk
    obtain ⟨piece, hpiece⟩ := hsome k hk
    simp [slotOf, arrGet, List.getElem?_eq_getElem hk, hpiece, pieceSize]

/-- **Reassembly** of a full slot: the pieces in order. -/
theorem reassemble_slotOf {x : Partial} (hfull : x.Full) (hbytes : (concat x.pieces).length < 2 ^ 32) (id : UInt16) :
    reassembleFragments {} (slotOf id x) = .ok (some (concat x.pieces, UInt32.ofNat (concat x.pieces).length)) := by
  rw [reassemble_pieces (pieces_slotOf hfull id) hbytes]
  rfl

/-! ## One fragment -/

/-! The status, the slot and the result once the pieces are `y`: a full frame
is returned and its slot freed. -/

def statusAfter (y : Partial) : FrameParseStatus := if y.Full then .complete else .fragmentPending

theorem statusAfter_ne (y : Partial) : statusAfter y ≠ .error := by
  unfold statusAfter
  split <;> decide

def slotAfter (id : UInt16) (y : Partial) : FragmentEntry :=
  if y.Full then freeFragmentEntry (slotOf id y) else slotOf id y

def resultAfter (y : Partial) (r : ParsedFrame) : ParsedFrame :=
  if y.Full then
    { info := y.info, payload := some (concat y.pieces), payloadSize := UInt32.ofNat (concat y.pieces).length }
  else r

/-- The metadata that fragment 0 sets. -/
theorem setInfo_slotOf (h : FixedHeader) (f : ExtFields) (id : UInt16) (x : Partial) :
    (if f.fragIndex = 0 then { slotOf id x with info := h.info f } else slotOf id x) =
      slotOf id (x.setInfo f.fragIndex.toNat (h.info f)) := by
  have hzero : f.fragIndex = 0 ↔ f.fragIndex.toNat = 0 := by rw [← UInt16.toNat_inj]; rfl
  by_cases h0 : f.fragIndex = 0
  · rw [if_pos h0, Partial.setInfo, if_pos (hzero.mp h0)]
    rfl
  · rw [if_neg h0, Partial.setInfo, if_neg (fun h => h0 (hzero.mpr h))]

theorem fileFragment_slotOf {h : FixedHeader} {f : ExtFields} {data piece : Bytes} (hpay : h.payload data = .ok piece)
    {g : FragmentTable} {slot : Nat} {id : UInt16} {x y : Partial}
    (hslot : g.slots.getD slot {} = slotOf id x) (hy : y = x.file f.fragIndex.toNat (h.info f) piece)
    (hbytes : (concat y.pieces).length < 2 ^ 32) (r : ParsedFrame) :
    fileFragment {} g r h f data slot = .ok (statusAfter y, g.set slot (slotAfter id y), resultAfter y r) := by
  unfold fileFragment
  simp only [hslot, setInfo_slotOf, storeFragment_slotOf hpay id f.fragIndex.toNat x (h.info f), ← hy]
  simp only [ok_bind, Bool.not_true, Bool.false_eq_true, if_false, slotOf_total, slotOf_received, full_iff,
    statusAfter, slotAfter, resultAfter]
  by_cases hfull : y.Full
  · simp only [if_pos hfull, reassemble_slotOf hfull hbytes id, ok_bind, pure_eq_ok]
    rfl
  · simp only [if_neg hfull, pure_eq_ok]

end WebPlayer.L2.PieceSlots
