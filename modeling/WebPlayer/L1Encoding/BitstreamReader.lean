import WebPlayer.Core.BitReader

/-!
# The bit reader (`server/bitstream_reader.cpp`)

`BitstreamReader` walks a buffer by a byte and a bit position. Past the end it
reads zeros and stays where it is. An unsigned Exp-Golomb codeword is read by
counting zeros until a 1 or the last bit of the data, so the codeword of any
32-bit value comes back as that value.

* `reads_bit`, `reads_bits`, `reads_ue`, `reads_se`: each method after the
  writer of its codeword.
* Every method is lawful: cut off, it runs dry.
-/
namespace WebPlayer.L1.Bitstream
open WebPlayer.Core WebPlayer.Core.Codeword BitSource

/-! ## The class -/

theorem zero_lt_eight : 0 < 8 := by decide

/-- mirrors server/bitstream_reader.h:60-64 -/
structure BitstreamReader where
  data : Bytes
  bytePos : Nat := 0
  bitPos : Nat := 0
  bitPos_lt : bitPos < 8 := by exact zero_lt_eight

abbrev Reader (α : Type) := StateM BitstreamReader α

/-- mirrors server/bitstream_reader.cpp:17-31 -/
def readBit : Reader Nat := fun s =>
  if s.bytePos < s.data.length then
    let bit := ((s.data.getD s.bytePos 0).toNat >>> (7 - s.bitPos)) &&& 1
    if h : s.bitPos + 1 < 8 then (bit, { s with bitPos := s.bitPos + 1, bitPos_lt := h })
    else (bit, { s with bytePos := s.bytePos + 1, bitPos := 0, bitPos_lt := zero_lt_eight })
  else (0, s)

/-- mirrors server/bitstream_reader.cpp:65-67 -/
def hasMoreData : Reader Bool := fun s => (decide (s.bytePos < s.data.length), s)

def readBitsLoop : Nat → Nat → Reader Nat
  | 0, value => pure value
  | n + 1, value => do
    let bit ← readBit
    readBitsLoop n (((value <<< 1) ||| bit) % 2 ^ 32)

/-- mirrors server/bitstream_reader.cpp:9-15 -/
def readBits (n : Nat) : Reader Nat := readBitsLoop n 0

/-- `while (ReadBit() == 0 && HasMoreData())`, at most `fuel` iterations. -/
def leadingZerosLoop : Nat → Nat → Reader Nat
  | 0, leadingZeros => pure leadingZeros
  | fuel + 1, leadingZeros => do
    let bit ← readBit
    let more ← hasMoreData
    if bit = 0 ∧ more = true then leadingZerosLoop fuel (leadingZeros + 1) else pure leadingZeros

/-- The loop ends with the data. -/
def leadingZeros : Reader Nat := fun s => leadingZerosLoop (8 * (s.data.length - s.bytePos) + 1) 0 s

/-- `(1 << leadingZeros) - 1 + bits`, in 32 bits. Behind 32 or more zeros the
shift is undefined in the code; that it shifts everything out is this model's
choice there. -/
def ueValue (leadingZeros bits : Nat) : Nat := ((1 <<< leadingZeros) + (2 ^ 32 - 1) + bits) % 2 ^ 32

/-- mirrors server/bitstream_reader.cpp:33-47 -/
def readUE : Reader Nat := do
  let zeros ← leadingZeros
  if zeros = 0 then pure 0
  else
    let bits ← readBits zeros
    pure (ueValue zeros bits)

/-- mirrors server/bitstream_reader.cpp:49-57 -/
def seValue (ue : Nat) : Int := if ue &&& 1 = 1 then ((((ue + 1) % 2 ^ 32) >>> 1 : Nat) : Int) else -((ue >>> 1 : Nat) : Int)

def readSE : Reader Int := do
  let ue ← readUE
  pure (seValue ue)

/-- mirrors server/bitstream_reader.cpp:59-63 -/
def skipBits (n : Nat) : Reader Unit := forRange (fun _ => do let _ ← readBit) 0 n

/-- `reader.ReadUE();` -/
def skipUE : Reader Unit := do let _ ← readUE

/-- `reader.ReadSE();` -/
def skipSE : Reader Unit := do let _ ← readSE

/-! ## The bits that remain -/

instance : BitSource BitstreamReader where
  rest s := (bytesBits (s.data.drop s.bytePos)).drop s.bitPos

theorem natBits_drop {w p : Nat} (h : p < w) (v : Nat) : (natBits w v).drop p = v.testBit (w - 1 - p) :: (natBits w v).drop (p + 1) := by
  induction w generalizing p with
  | zero => omega
  | succ w ih =>
    cases p with
    | zero => rfl
    | succ p =>
      have hidx : w + 1 - 1 - (p + 1) = w - 1 - p := by omega
      rw [natBits, List.drop_succ_cons, List.drop_succ_cons, ih (by omega), hidx]

theorem rest_eq_nil {s : BitstreamReader} : rest s = [] ↔ ¬ s.bytePos < s.data.length := by
  have h8 := s.bitPos_lt
  simp only [rest, List.drop_eq_nil_iff, bytesBits_length, List.length_drop]
  omega

theorem rest_length (s : BitstreamReader) : (rest s).length ≤ 8 * (s.data.length - s.bytePos) := by
  simp only [rest, List.length_drop, bytesBits_length]
  omega

theorem shiftRight_and_one (v k : Nat) : (v >>> k) &&& 1 = (v.testBit k).toNat := by
  rw [Nat.and_one_is_mod, Nat.shiftRight_eq_div_pow, Nat.testBit_eq_decide_div_mod_eq]
  rcases Nat.mod_two_eq_zero_or_one (v / 2 ^ k) with h | h <;> simp [h]

theorem readBit_dry {s : BitstreamReader} (h : rest s = []) : readBit s = (0, s) := by
  unfold readBit
  rw [if_neg (rest_eq_nil.mp h)]

theorem readBit_eq {s : BitstreamReader} {b : Bool} {more : List Bool} (h : rest s = b :: more) :
    (readBit s).1 = b.toNat ∧ rest (readBit s).2 = more := by
  have hlt : s.bytePos < s.data.length := by
    by_contra hend
    rw [rest_eq_nil.mpr hend] at h
    cases h
  have h8 := s.bitPos_lt
  have hdata : s.data.drop s.bytePos = s.data.getD s.bytePos 0 :: s.data.drop (s.bytePos + 1) := by
    rw [List.drop_eq_getElem_cons hlt, List.getD_eq_getElem?_getD, List.getElem?_eq_getElem hlt]
    rfl
  -- the bits of this byte from `bitPos` on, and those of the bytes behind it
  have hsplit : rest s = (s.data.getD s.bytePos 0).toNat.testBit (7 - s.bitPos) ::
      ((byteBits (s.data.getD s.bytePos 0)).drop (s.bitPos + 1) ++ bytesBits (s.data.drop (s.bytePos + 1))) := by
    simp only [rest]
    rw [hdata, bytesBits_cons, List.drop_append_of_le_length (by rw [byteBits_length]; omega), byteBits,
      natBits_drop h8, List.cons_append]
  rw [hsplit, List.cons.injEq] at h
  obtain ⟨rfl, rfl⟩ := h
  unfold readBit
  rw [if_pos hlt]
  by_cases hbit : s.bitPos + 1 < 8
  · simp only [dif_pos hbit]
    refine ⟨shiftRight_and_one .., ?_⟩
    simp only [rest]
    rw [hdata, bytesBits_cons, List.drop_append_of_le_length (by rw [byteBits_length]; omega)]
  · simp only [dif_neg hbit]
    refine ⟨shiftRight_and_one .., ?_⟩
    simp only [rest]
    have hnone : (byteBits (s.data.getD s.bytePos 0)).drop (s.bitPos + 1) = [] := by
      rw [List.drop_eq_nil_iff, byteBits_length]
      omega
    rw [List.drop_zero, hnone, List.nil_append]

theorem hasMoreData_eq (s : BitstreamReader) : hasMoreData s = (decide (rest s ≠ []), s) := by
  simp only [hasMoreData, ne_eq, rest_eq_nil, not_not]

/-! ## Single bits -/

theorem reads_bit (b : Bool) : Reads readBit (flag b) b.toNat := fun _ _ h => readBit_eq h

/-- Past the end nothing is left to consume. -/
theorem readBit_rest (s : BitstreamReader) : rest (readBit s).2 = (rest s).drop 1 := by
  cases hs : rest s with
  | nil => rw [readBit_dry hs, hs, List.drop_nil]
  | cons b bs => exact (readBit_eq hs).2

instance : Lawful readBit where
  suffix s := readBit_rest s ▸ List.drop_suffix 1 (rest s)
  stable s t more h hne := by
    cases hs : rest s with
    | nil =>
      rw [readBit_dry hs] at hne
      exact absurd hs hne
    | cons b bs =>
      rw [hs] at h
      obtain ⟨hb, hbs⟩ := readBit_eq hs
      obtain ⟨hb', hbs'⟩ := readBit_eq h
      rw [hbs]
      exact ⟨hb'.trans hb.symm, hbs'⟩
  passes s t more h hnil := by
    rw [readBit_rest] at hnil ⊢
    have hlen := congrArg List.length h
    have hle := List.drop_eq_nil_iff.mp hnil
    rw [List.length_append] at hlen
    rw [List.length_drop]
    omega

instance (n : Nat) : Lawful (skipBits n) := by
  unfold skipBits
  infer_instance

theorem reads_skip {n : Nat} {bits : List Bool} (h : bits.length = n) : Reads (skipBits n) bits () := by
  have heach : Reads (skipBits bits.length) (bits.flatMap flag) () := Reads.each (fun b _ => (reads_bit b).discard) 0
  have hflat : bits.flatMap flag = bits := List.flatMap_singleton' bits
  rwa [h, hflat] at heach

/-! ## Numbers -/

instance (n value : Nat) : Lawful (readBitsLoop n value) := by
  induction n generalizing value with
  | zero => exact inferInstanceAs (Lawful (pure value))
  | succ n ih =>
    unfold readBitsLoop
    infer_instance

instance (n : Nat) : Lawful (readBits n) := inferInstanceAs (Lawful (readBitsLoop n 0))

theorem shiftLeft_or_bit (v : Nat) (b : Bool) : (v <<< 1) ||| b.toNat = 2 * v + b.toNat := by
  have hb : b.toNat < 2 ^ 1 := Nat.lt_succ_of_le (Bool.toNat_le b)
  rw [Nat.shiftLeft_eq, Nat.mul_comm, ← Nat.two_pow_add_eq_or_of_lt hb, Nat.pow_one]

theorem reads_bitsLoop (bits : List Bool) (value : Nat) (h : value * 2 ^ bits.length + bitsNat bits < 2 ^ 32) :
    Reads (readBitsLoop bits.length value) bits (value * 2 ^ bits.length + bitsNat bits) := by
  induction bits generalizing value with
  | nil =>
    have h0 : value * 2 ^ ([] : List Bool).length + bitsNat [] = value := by simp [bitsNat]
    rw [h0]
    exact .pure value
  | cons b bs ih =>
    have hvalue : value * 2 ^ (b :: bs).length + bitsNat (b :: bs) = (2 * value + b.toNat) * 2 ^ bs.length + bitsNat bs := by
      rw [bitsNat_cons, List.length_cons, Nat.pow_succ]
      ring
    have hsmall : 2 * value + b.toNat < 2 ^ 32 := by
      rw [hvalue] at h
      have hle : (2 * value + b.toNat) * 1 ≤ (2 * value + b.toNat) * 2 ^ bs.length :=
        Nat.mul_le_mul_left _ (Nat.two_pow_pos _)
      omega
    rw [hvalue] at h ⊢
    have hnext : Reads (readBitsLoop bs.length (((value <<< 1) ||| b.toNat) % 2 ^ 32)) bs
        ((2 * value + b.toNat) * 2 ^ bs.length + bitsNat bs) := by
      rw [shiftLeft_or_bit, Nat.mod_eq_of_lt hsmall]
      exact ih _ h
    exact (reads_bit b).bind hnext

theorem reads_bits {n : Nat} {bits : List Bool} (h : bits.length = n) (hn : n ≤ 32) :
    Reads (readBits n) bits (bitsNat bits) := by
  have hlt : bitsNat bits < 2 ^ 32 :=
    Nat.lt_of_lt_of_le (bitsNat_lt bits) (Nat.pow_le_pow_right (by decide) (by omega))
  have hloop := reads_bitsLoop bits 0 (by rwa [Nat.zero_mul, Nat.zero_add])
  rwa [Nat.zero_mul, Nat.zero_add, h] at hloop

theorem reads_u {w : Nat} (v : BitVec w) (hw : w ≤ 32) : Reads (readBits w) (u v) v.toNat := by
  rw [← bitsNat_u v]
  exact reads_bits (u_length v) hw

/-! ## Exp-Golomb codes -/

theorem zerosLoop_succ (fuel n : Nat) (s : BitstreamReader) : leadingZerosLoop (fuel + 1) n s =
    if (readBit s).1 = 0 ∧ rest (readBit s).2 ≠ [] then leadingZerosLoop fuel (n + 1) (readBit s).2
    else (n, (readBit s).2) := by
  have hmore : (hasMoreData (readBit s).2).1 = true ↔ rest (readBit s).2 ≠ [] := by simp [hasMoreData_eq]
  show (if (readBit s).1 = 0 ∧ (hasMoreData (readBit s).2).1 = true then leadingZerosLoop fuel (n + 1)
    else (pure n : Reader Nat)) (readBit s).2 = _
  simp only [hmore]
  split <;> rfl

theorem reads_zerosLoop {z fuel : Nat} (h : z < fuel) (n : Nat) :
    Reads (leadingZerosLoop fuel n) (List.replicate z false ++ [true]) (n + z) := by
  induction z generalizing fuel n with
  | zero =>
    obtain ⟨fuel, rfl⟩ := Nat.exists_eq_succ_of_ne_zero (Nat.ne_of_gt h)
    intro s more hs
    obtain ⟨hb, hmore⟩ := readBit_eq hs
    rw [zerosLoop_succ, if_neg (by simp [hb])]
    exact ⟨rfl, hmore⟩
  | succ z ih =>
    obtain ⟨fuel, rfl⟩ := Nat.exists_eq_succ_of_ne_zero (Nat.ne_of_gt (Nat.zero_lt_of_lt h))
    intro s more hs
    rw [List.replicate_succ, List.cons_append, List.cons_append] at hs
    obtain ⟨hb, hmore⟩ := readBit_eq hs
    rw [zerosLoop_succ, if_pos ⟨hb, by simp [hmore]⟩]
    have hnext := ih (Nat.lt_of_succ_lt_succ h) (n + 1) (readBit s).2 more hmore
    rwa [Nat.add_assoc, Nat.add_comm 1 z] at hnext

/-- Zeros up to the end. -/
theorem zerosLoop_dry {z fuel : Nat} (h : z < fuel) (n : Nat) {s : BitstreamReader} (hs : rest s = List.replicate z false) :
    rest (leadingZerosLoop fuel n s).2 = [] := by
  induction z generalizing fuel n s with
  | zero =>
    obtain ⟨fuel, rfl⟩ := Nat.exists_eq_succ_of_ne_zero (Nat.ne_of_gt h)
    rw [zerosLoop_succ, readBit_dry hs, if_neg fun h => h.2 hs]
    exact hs
  | succ z ih =>
    obtain ⟨fuel, rfl⟩ := Nat.exists_eq_succ_of_ne_zero (Nat.ne_of_gt (Nat.zero_lt_of_lt h))
    rw [List.replicate_succ] at hs
    obtain ⟨hb, hmore⟩ := readBit_eq hs
    rw [zerosLoop_succ]
    by_cases hnil : rest (readBit s).2 = []
    · rwa [if_neg fun h => h.2 hnil]
    · rw [if_pos ⟨hb, hnil⟩]
      exact ih (Nat.lt_of_succ_lt_succ h) (n + 1) hmore

theorem reads_zeros (z : Nat) : Reads leadingZeros (List.replicate z false ++ [true]) z := by
  intro s more hs
  have hlen := congrArg List.length hs
  have hle := rest_length s
  simp only [List.length_append, List.length_replicate, List.length_singleton] at hlen
  have hloop := reads_zerosLoop (show z < 8 * (s.data.length - s.bytePos) + 1 by omega) 0 s more hs
  rwa [Nat.zero_add] at hloop

/-- Bits are zeros, or zeros up to a 1. -/
theorem zeros_cases (bits : List Bool) :
    (∃ z, bits = List.replicate z false) ∨ ∃ z more, bits = (List.replicate z false ++ [true]) ++ more := by
  induction bits with
  | nil => exact .inl ⟨0, rfl⟩
  | cons b bits ih =>
    cases b with
    | true => exact .inr ⟨0, bits, rfl⟩
    | false =>
      rcases ih with ⟨z, rfl⟩ | ⟨z, more, rfl⟩
      · exact .inl ⟨z + 1, rfl⟩
      · exact .inr ⟨z + 1, more, rfl⟩

theorem leadingZeros_dry {z : Nat} {s : BitstreamReader} (hs : rest s = List.replicate z false) :
    rest (leadingZeros s).2 = [] := by
  have hle := rest_length s
  rw [hs, List.length_replicate] at hle
  exact zerosLoop_dry (Nat.lt_succ_of_le hle) 0 hs

theorem leadingZeros_suffix (s : BitstreamReader) : rest (leadingZeros s).2 <:+ rest s := by
  rcases zeros_cases (rest s) with ⟨z, hs⟩ | ⟨z, bits, hs⟩
  · rw [leadingZeros_dry hs]
    exact List.nil_suffix
  · rw [(reads_zeros z s bits hs).2, hs]
    exact List.suffix_append ..

instance : Lawful leadingZeros where
  suffix := leadingZeros_suffix
  stable s t more h hne := by
    rcases zeros_cases (rest s) with ⟨z, hs⟩ | ⟨z, bits, hs⟩
    · exact absurd (leadingZeros_dry hs) hne
    · rw [hs, List.append_assoc] at h
      obtain ⟨hz, hrest⟩ := reads_zeros z s bits hs
      obtain ⟨hz', hrest'⟩ := reads_zeros z t _ h
      exact ⟨hz'.trans hz.symm, by rw [hrest', hrest]⟩
  passes s t more h hnil := by
    rcases zeros_cases (rest s) with ⟨z, hs⟩ | ⟨z, bits, hs⟩
    · -- the zeros may go on behind them
      rw [hs] at h
      rcases zeros_cases more with ⟨z', rfl⟩ | ⟨z', bits, rfl⟩
      · rw [List.replicate_append_replicate] at h
        rw [leadingZeros_dry h]
        exact Nat.zero_le _
      · have hzeros : rest t = (List.replicate (z + z') false ++ [true]) ++ bits := by
          rw [h, ← List.replicate_append_replicate]
          simp only [List.append_assoc]
        rw [(reads_zeros (z + z') t bits hzeros).2, List.length_append]
        exact Nat.le_add_left ..
    · obtain ⟨-, hrest⟩ := reads_zeros z s bits hs
      rw [hs, List.append_assoc] at h
      rw [(reads_zeros z t _ h).2, hrest.symm.trans hnil, List.nil_append]

instance : Lawful readUE := by
  unfold readUE
  infer_instance

instance : Lawful readSE := by
  unfold readSE
  infer_instance

instance : Lawful skipUE := by
  unfold skipUE
  infer_instance

instance : Lawful skipSE := by
  unfold skipSE
  infer_instance

/-- A codeword of a 32-bit value. -/
theorem reads_ueBits {v : Nat} (hv : v < 2 ^ 32 - 1) : Reads readUE (ueBits v) v := by
  have hz : (v + 1).log2 ≤ 31 := Nat.le_of_lt_succ ((Nat.log2_lt (Nat.succ_ne_zero v)).mpr (by omega))
  have hparts : 2 ^ (v + 1).log2 + (v + 1) % 2 ^ (v + 1).log2 = v + 1 := log2_parts (Nat.succ_ne_zero v)
  have hbits : Reads (readBits (v + 1).log2) (natBits (v + 1).log2 (v + 1)) ((v + 1) % 2 ^ (v + 1).log2) := by
    rw [← bitsNat_natBits]
    exact reads_bits (natBits_length ..) (by omega)
  have hvalue : ueValue (v + 1).log2 ((v + 1) % 2 ^ (v + 1).log2) = v := by
    rw [ueValue, Nat.shiftLeft_eq, Nat.one_mul]
    omega
  have hsplit : ueBits v = (List.replicate (v + 1).log2 false ++ [true]) ++ natBits (v + 1).log2 (v + 1) := by
    rw [ueBits, List.append_assoc, List.singleton_append]
  rw [hsplit]
  refine (reads_zeros _).bind ?_
  by_cases h0 : (v + 1).log2 = 0
  · have hv0 : v = 0 := by
      rw [h0] at hparts
      omega
    subst hv0
    exact .pure 0
  · rw [if_neg h0, ← List.append_nil (natBits _ _)]
    refine hbits.bind ?_
    rw [hvalue]
    exact .pure v

theorem seValue_seCode (s : SeValue) : seValue (seCode s.val) = s.val := by
  obtain ⟨s, h⟩ := s
  have hand : ∀ n : Nat, n &&& 1 = n % 2 := Nat.and_one_is_mod
  simp only [seValue, seCode, hand, Nat.shiftRight_one]
  split <;> split <;> omega

theorem reads_ue (v : UeValue) : Reads readUE (ue v) v.val := reads_ueBits v.isLt

theorem reads_se (s : SeValue) : Reads readSE (se s) s.val := by
  have hbind : Reads readSE (ueBits (seCode s.val) ++ []) (seValue (seCode s.val)) :=
    (reads_ueBits (seCode_lt s)).bind (.pure _)
  rwa [List.append_nil, seValue_seCode] at hbind

end WebPlayer.L1.Bitstream
