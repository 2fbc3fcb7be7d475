import WebPlayer.L1Encoding.SpsParser

/-!
# Exp-Golomb codes in a byte string (`server/bitstream_reader.cpp:33-57`)

`ReadUE` and `ReadSE` at a bit position of a byte string. A codeword that
stands there comes back as its value, with the reader exactly behind it. What
stands there may as well be no codeword: the zeros are counted up to a 1 or to
the last bit of the data, and the count is the distance of a 32-bit shift.

* `readUE_readSE_exact`: reading a codeword at any position.
* `shift_bounded_iff`: where the distance is within the width of the type.
-/
namespace WebPlayer.L1.Bitstream
open WebPlayer.Core WebPlayer.Core.Codeword BitSource WebPlayer.L1.EmulationPrevention

deriving instance DecidableEq for BitstreamReader

/-! ## Positions -/

/-- The reader in front of the bit `pos`. -/
def readerAt (data : Bytes) (pos : Nat) : BitstreamReader :=
  { data, bytePos := pos / 8, bitPos := pos % 8, bitPos_lt := Nat.mod_lt pos (by decide) }

theorem rest_readerAt (data : Bytes) (pos : Nat) : rest (readerAt data pos) = (bytesBits data).drop pos := by
  simp only [rest, readerAt, bytesBits_drop, List.drop_drop, Nat.div_add_mod]

theorem readBit_readerAt {data : Bytes} {pos : Nat} (h : pos < 8 * data.length) :
    (readBit (readerAt data pos)).2 = readerAt data (pos + 1) := by
  have hlt : (readerAt data pos).bytePos < (readerAt data pos).data.length := by
    simp only [readerAt]
    omega
  rw [readBit, if_pos hlt]
  by_cases hbit : (readerAt data pos).bitPos + 1 < 8
  · rw [dif_pos hbit]
    simp only [readerAt, BitstreamReader.mk.injEq, true_and] at hbit ⊢
    omega
  · rw [dif_neg hbit]
    simp only [readerAt, BitstreamReader.mk.injEq, true_and] at hbit ⊢
    omega

/-- The reader stays in its data: from a position it goes to a position. -/
class Walks {α : Type} (m : Reader α) : Prop where
  walks : ∀ data pos, pos ≤ 8 * data.length →
    ∃ pos', pos' ≤ 8 * data.length ∧ (m (readerAt data pos)).2 = readerAt data pos'

section Walks
variable {α β : Type}

instance (a : α) : Walks (pure a : Reader α) where
  walks _ pos h := ⟨pos, h, rfl⟩

instance (m : Reader α) (f : α → Reader β) [hm : Walks m] [hf : ∀ a, Walks (f a)] : Walks (m >>= f) where
  walks data pos h := by
    obtain ⟨mid, hmid, hm'⟩ := hm.walks data pos h
    obtain ⟨last, hlast, hf'⟩ := (hf (m (readerAt data pos)).1).walks data mid hmid
    refine ⟨last, hlast, ?_⟩
    rw [← hf', ← hm']
    rfl

instance (c : Prop) [Decidable c] (m m' : Reader α) [Walks m] [Walks m'] : Walks (if c then m else m') := by
  split <;> infer_instance

instance : Walks readBit where
  walks data pos h := by
    by_cases hlt : pos < 8 * data.length
    · exact ⟨pos + 1, hlt, readBit_readerAt hlt⟩
    · have hdry : rest (readerAt data pos) = [] := by
        rw [rest_readerAt, List.drop_eq_nil_iff, bytesBits_length]
        omega
      exact ⟨pos, h, by rw [readBit_dry hdry]⟩

instance : Walks hasMoreData where
  walks _ pos h := ⟨pos, h, rfl⟩

instance (n value : Nat) : Walks (readBitsLoop n value) := by
  induction n generalizing value with
  | zero => exact inferInstanceAs (Walks (pure value))
  | succ n ih =>
    unfold readBitsLoop
    infer_instance

instance (n : Nat) : Walks (readBits n) := inferInstanceAs (Walks (readBitsLoop n 0))

instance (fuel n : Nat) : Walks (leadingZerosLoop fuel n) := by
  induction fuel generalizing n with
  | zero => exact inferInstanceAs (Walks (pure n))
  | succ fuel ih =>
    unfold leadingZerosLoop
    infer_instance

instance : Walks leadingZeros where
  walks data pos h := Walks.walks (m := leadingZerosLoop (8 * (data.length - pos / 8) + 1) 0) data pos h

instance : Walks readUE := by
  unfold readUE
  infer_instance

instance : Walks readSE := by
  unfold readSE
  infer_instance

end Walks

/-! ## Codewords at a position -/

/-- A reader of these bits that finds them at its position ends behind them. -/
theorem reads_at {α : Type} {m : Reader α} [hm : Walks m] {pre bits more : List Bool} {a : α} {data : Bytes}
    (h : Reads m bits a) (hdata : bytesBits data = pre ++ bits ++ more) :
    m (readerAt data pre.length) = (a, readerAt data (pre.length + bits.length)) := by
  have hlen := congrArg List.length hdata
  simp only [bytesBits_length, List.length_append] at hlen
  have hrest : rest (readerAt data pre.length) = bits ++ more := by
    rw [rest_readerAt, hdata, List.append_assoc, List.drop_left]
  obtain ⟨ha, hmore⟩ := h _ more hrest
  obtain ⟨pos, hpos, hlands⟩ := hm.walks data pre.length (by omega)
  -- the bits that remain tell the position
  have hlen' := congrArg List.length hmore
  rw [hlands, rest_readerAt, List.length_drop, bytesBits_length] at hlen'
  have hend : pos = pre.length + bits.length := by omega
  exact Prod.ext ha (by rw [hlands, hend])

/-- **Exp-Golomb codes.** Every value of 32 bits but the last, every signed
one but the least, behind any bits and in front of any others. -/
theorem readUE_readSE_exact (data : Bytes) (pre more : List Bool) :
    (∀ v : UeValue, bytesBits data = pre ++ ue v ++ more →
      readUE (readerAt data pre.length) = (v.val, readerAt data (pre.length + (ue v).length))) ∧
    (∀ s : SeValue, bytesBits data = pre ++ se s ++ more →
      readSE (readerAt data pre.length) = (s.val, readerAt data (pre.length + (se s).length))) := by
  constructor
  · intro v hdata
    exact reads_at (reads_ue v) hdata
  · intro s hdata
    exact reads_at (reads_se s) hdata

/-- 1 010 0110: the value 1, both ways. -/
theorem readUE_readSE_exact_one :
    readUE (readerAt [0xA6] 1) = (1, readerAt [0xA6] 4) ∧ readSE (readerAt [0xA6] 1) = (1, readerAt [0xA6] 4) := by
  have hlen : (ue ⟨1, by decide⟩).length = 3 ∧ (se ⟨1, by decide⟩).length = 3 := by decide +kernel
  obtain ⟨hue, hse⟩ := readUE_readSE_exact [0xA6] [true] [false, true, true, false]
  have hue := hue ⟨1, by decide⟩ (by decide +kernel)
  have hse := hse ⟨1, by decide⟩ (by decide +kernel)
  rw [hlen.1] at hue
  rw [hlen.2] at hse
  exact ⟨hue, hse⟩

/-! ## The distance of the shift -/

/-- From `pos` on there are 32 zeros, and bits behind them. -/
def ManyZeros (data : Bytes) (pos : Nat) : Prop :=
  List.replicate 32 false <+: (bytesBits data).drop pos ∧ pos + 32 < 8 * data.length

instance (data : Bytes) (pos : Nat) : Decidable (ManyZeros data pos) := inferInstanceAs (Decidable (_ ∧ _))

/-- The last zero of the data is not counted. -/
theorem zerosLoop_count {z fuel : Nat} (h : z < fuel) (n : Nat) {s : BitstreamReader} (hs : rest s = List.replicate z false) :
    (leadingZerosLoop fuel n s).1 = n + (z - 1) := by
  induction z generalizing fuel n s with
  | zero =>
    obtain ⟨fuel, rfl⟩ := Nat.exists_eq_succ_of_ne_zero (Nat.ne_of_gt h)
    rw [zerosLoop_succ, readBit_dry hs, if_neg fun h => h.2 hs]
    rfl
  | succ z ih =>
    obtain ⟨fuel, rfl⟩ := Nat.exists_eq_succ_of_ne_zero (Nat.ne_of_gt (Nat.zero_lt_of_lt h))
    rw [List.replicate_succ] at hs
    obtain ⟨hb, hmore⟩ := readBit_eq hs
    rw [zerosLoop_succ]
    by_cases hnil : rest (readBit s).2 = []
    · have hz : z = 0 := by simpa [hnil] using hmore
      rw [if_neg fun h => h.2 hnil, hz]
      rfl
    · have hz : z ≠ 0 := fun h0 => hnil (by simpa [h0] using hmore)
      rw [if_pos ⟨hb, hnil⟩, ih (Nat.lt_of_succ_lt_succ h) (n + 1) hmore]
      omega

theorem leadingZeros_count {z : Nat} {s : BitstreamReader} (hs : rest s = List.replicate z false) :
    (leadingZeros s).1 = z - 1 := by
  have hle := rest_length s
  rw [hs, List.length_replicate] at hle
  rw [leadingZeros, zerosLoop_count (Nat.lt_succ_of_le hle) 0 hs, Nat.zero_add]

/-- So many zeros are in front of the bits. -/
theorem replicate_prefix_iff (n z : Nat) (more : List Bool) :
    List.replicate n false <+: (List.replicate z false ++ [true]) ++ more ↔ n ≤ z := by
  rw [List.append_assoc]
  constructor
  · intro h
    by_contra hlt
    have hget := h.getElem (i := z) (by simpa using hlt)
    simp at hget
  · intro h
    have hsplit : List.replicate z false = List.replicate n false ++ List.replicate (z - n) false := by
      rw [List.replicate_append_replicate, Nat.add_sub_cancel' h]
    rw [hsplit, List.append_assoc]
    exact List.prefix_append ..

/-- **The shift of `ReadUE`.** -/
theorem shift_bounded_iff (data : Bytes) (pos : Nat) :
    (leadingZeros (readerAt data pos)).1 ≤ 31 ↔ ¬ManyZeros data pos := by
  have hrest := rest_readerAt data pos
  have hlen := congrArg List.length hrest
  rw [List.length_drop, bytesBits_length] at hlen
  unfold ManyZeros
  rw [← hrest]
  rcases zeros_cases (rest (readerAt data pos)) with ⟨z, hs⟩ | ⟨z, more, hs⟩
  · -- no 1 follows
    rw [leadingZeros_count hs]
    rw [hs, List.length_replicate] at hlen
    rw [hs, List.prefix_replicate_iff]
    simp
    omega
  · rw [(reads_zeros z _ more hs).1, hs, replicate_prefix_iff]
    rw [hs] at hlen
    simp at hlen
    omega

/-- An H.264 SPS with five zero bytes behind its level. -/
def zeroSps : Bytes := [0, 0, 0, 1, 0x67, 0x42, 0, 0x1E, 0, 0, 0, 0, 0]

/-- What `ParseH264Fps` reads of it. -/
def zeroRbsp : Bytes := (removeEmulationPrevention (zeroSps.drop 4)).drop 1

/-- The first `ReadUE` of the parser finds 40 zeros and shifts by 39. -/
theorem zero_sps_shift :
    (∃ fields : Nat → Reader Unit, SpsParser.h264Head = (do
      let profileIdc ← readBits 8
      skipBits 8
      skipBits 8
      skipUE
      fields profileIdc)) ∧
    ((do
      let _ ← readBits 8
      skipBits 8
      skipBits 8 : Reader Unit) { data := zeroRbsp }).2 = readerAt zeroRbsp 24 ∧
    (leadingZeros (readerAt zeroRbsp 24)).1 = 39 ∧
    ¬∀ data pos, (leadingZeros (readerAt data pos)).1 ≤ 31 := by
  have hcount : (leadingZeros (readerAt zeroRbsp 24)).1 = 39 := by decide +kernel
  refine ⟨⟨_, rfl⟩, by decide +kernel, hcount, fun h => ?_⟩
  have hle := h zeroRbsp 24
  omega

end WebPlayer.L1.Bitstream
