import WebPlayer.Core.Bytes
import Mathlib.Data.Nat.Log

/-!
# Reading bits

Bit strings, most significant bit first, the codewords of a syntax table
(`u(n)`, `ue(v)`, `se(v)`), and programs that read them. A reader is a state
transformer over any state that shows which bits remain.

* `Reads`: the reader consumes exactly these bits and returns this value. One
  rule for each way to combine readers.
* `Lawful`: a reader that goes forward and does not look ahead.
* `Lawful.cut`: such a reader whose input is cut off either runs dry, or does
  what it would have done on the whole input.
-/
namespace WebPlayer.Core

/-! ## Bit strings -/

/-- The `w` low bits of `v`, most significant first. -/
def natBits : Nat → Nat → List Bool
  | 0, _ => []
  | w + 1, v => v.testBit w :: natBits w v

/-- The number that the bits spell. -/
def bitsNat (bs : List Bool) : Nat := bs.foldl (fun v b => 2 * v + b.toNat) 0

def byteBits (b : UInt8) : List Bool := natBits 8 b.toNat

def bytesBits (bs : Bytes) : List Bool := bs.flatMap byteBits

@[simp] theorem natBits_length (w v : Nat) : (natBits w v).length = w := by
  induction w with
  | zero => rfl
  | succ w ih => rw [natBits, List.length_cons, ih]

@[simp] theorem byteBits_length (b : UInt8) : (byteBits b).length = 8 := natBits_length ..

theorem bytesBits_cons (b : UInt8) (bs : Bytes) : bytesBits (b :: bs) = byteBits b ++ bytesBits bs := List.flatMap_cons ..

theorem bytesBits_append (xs ys : Bytes) : bytesBits (xs ++ ys) = bytesBits xs ++ bytesBits ys := List.flatMap_append ..

@[simp] theorem bytesBits_length (bs : Bytes) : (bytesBits bs).length = 8 * bs.length := by
  induction bs with
  | nil => rfl
  | cons b bs ih =>
    rw [bytesBits_cons, List.length_append, ih, byteBits_length, List.length_cons]
    omega

theorem bytesBits_drop (bs : Bytes) (k : Nat) : bytesBits (bs.drop k) = (bytesBits bs).drop (8 * k) := by
  induction k generalizing bs with
  | zero => rfl
  | succ k ih =>
    cases bs with
    | nil => simp [bytesBits]
    | cons b bs =>
      have hpos : 8 * (k + 1) = 8 + 8 * k := by omega
      rw [List.drop_succ_cons, ih, bytesBits_cons, hpos, ← List.drop_drop, List.drop_left' (byteBits_length b)]

theorem bitsNat_foldl (bs : List Bool) (v : Nat) :
    bs.foldl (fun v b => 2 * v + b.toNat) v = v * 2 ^ bs.length + bitsNat bs := by
  induction bs generalizing v with
  | nil => simp [bitsNat]
  | cons b bs ih =>
    have h0 : bitsNat (b :: bs) = b.toNat * 2 ^ bs.length + bitsNat bs := by
      rw [bitsNat, List.foldl_cons, ih]
      simp
    rw [List.foldl_cons, ih, h0, List.length_cons]
    ring

theorem bitsNat_cons (b : Bool) (bs : List Bool) : bitsNat (b :: bs) = b.toNat * 2 ^ bs.length + bitsNat bs := by
  rw [bitsNat, List.foldl_cons, bitsNat_foldl]
  simp

theorem bitsNat_lt (bs : List Bool) : bitsNat bs < 2 ^ bs.length := by
  induction bs with
  | nil => simp [bitsNat]
  | cons b bs ih =>
    have hb : b.toNat * 2 ^ bs.length ≤ 1 * 2 ^ bs.length := Nat.mul_le_mul_right _ (Bool.toNat_le b)
    rw [bitsNat_cons, List.length_cons, Nat.pow_succ]
    omega

theorem bitsNat_natBits (w v : Nat) : bitsNat (natBits w v) = v % 2 ^ w := by
  induction w with
  | zero => simp [natBits, bitsNat, Nat.mod_one]
  | succ w ih =>
    have hbit : (v.testBit w).toNat = v / 2 ^ w % 2 := by
      rw [Nat.testBit_eq_decide_div_mod_eq]
      rcases Nat.mod_two_eq_zero_or_one (v / 2 ^ w) with h | h <;> simp [h]
    rw [natBits, bitsNat_cons, ih, natBits_length, hbit, Nat.pow_succ, Nat.mod_mul]
    ring

/-! ## Codewords -/

/-- What 32 bits can hold. -/
abbrev UeValue := Fin 0xFFFFFFFF

instance ueValue_nonempty : NeZero 0xFFFFFFFF := ⟨by decide⟩

abbrev SeValue := {s : Int // -2 ^ 31 < s ∧ s < 2 ^ 31}

namespace Codeword

/-- u(n) -/
def u {w : Nat} (v : BitVec w) : List Bool := natBits w v.toNat

def flag (b : Bool) : List Bool := [b]

/-- ue(v): as many zeros as there are bits behind the leading 1 of `v + 1`. -/
def ueBits (v : Nat) : List Bool := List.replicate (v + 1).log2 false ++ true :: natBits (v + 1).log2 (v + 1)

/-- The codewords 0, 1, 2, 3, 4, ... stand for 0, 1, -1, 2, -2, ... -/
def seCode (s : Int) : Nat := if 0 < s then 2 * s.toNat - 1 else 2 * (-s).toNat

def ue (v : UeValue) : List Bool := ueBits v.val

def se (s : SeValue) : List Bool := ueBits (seCode s.val)

@[simp] theorem u_length {w : Nat} (v : BitVec w) : (u v).length = w := natBits_length ..

theorem bitsNat_u {w : Nat} (v : BitVec w) : bitsNat (u v) = v.toNat := by
  rw [u, bitsNat_natBits, Nat.mod_eq_of_lt v.isLt]

theorem seCode_lt (s : SeValue) : seCode s.val < 2 ^ 32 - 1 := by
  have h := s.property
  unfold seCode
  split <;> omega

end Codeword

/-- The leading 1 of a number and the bits behind it. -/
theorem log2_parts {n : Nat} (h : n ≠ 0) : 2 ^ n.log2 + n % 2 ^ n.log2 = n := by
  have hlt : n < 2 ^ (n.log2 + 1) := Nat.lt_log2_self
  have hle := Nat.log2_self_le h
  have hdiv : n / 2 ^ n.log2 = 1 := Nat.div_eq_of_lt_le (by omega) (by rw [Nat.pow_succ] at hlt; omega)
  have hmod := Nat.div_add_mod n (2 ^ n.log2)
  rwa [hdiv, Nat.mul_one] at hmod

/-! ## Readers -/

class BitSource (σ : Type) where
  rest : σ → List Bool

variable {σ α β γ : Type} [BitSource σ]
open BitSource

/-- From any state whose bits begin with `bits`, the reader consumes these and
returns `a`. -/
def Reads (m : StateM σ α) (bits : List Bool) (a : α) : Prop :=
  ∀ (s : σ) (more : List Bool), rest s = bits ++ more → (m s).1 = a ∧ rest (m s).2 = more

/-- A conditional statement. -/
def onlyIf (c : Prop) [Decidable c] (m : StateM σ Unit) : StateM σ Unit := if c then m else pure ()

/-- `for (j = i; j < i + n; ++j)` -/
def forRange (body : Nat → StateM σ Unit) : Nat → Nat → StateM σ Unit
  | _, 0 => pure ()
  | i, n + 1 => do
    body i
    forRange body (i + 1) n

theorem Reads.pure (a : α) : Reads (pure a : StateM σ α) [] a := fun _ _ h => ⟨rfl, h⟩

theorem Reads.bind {m : StateM σ α} {f : α → StateM σ β} {bits bits' : List Bool} {a : α} {b : β} (h : Reads m bits a)
    (h' : Reads (f a) bits' b) : Reads (m >>= f) (bits ++ bits') b := by
  intro s more hs
  rw [List.append_assoc] at hs
  obtain ⟨ha, hrest⟩ := h s _ hs
  obtain ⟨hb, hrest'⟩ := h' (m s).2 more hrest
  subst ha
  exact ⟨hb, hrest'⟩

theorem Reads.discard {m : StateM σ α} {bits : List Bool} {a : α} (h : Reads m bits a) :
    Reads (do let _ ← m) bits () := by
  have hbind : Reads (m >>= fun _ => Pure.pure ()) (bits ++ []) () := h.bind (.pure ())
  rwa [List.append_nil] at hbind

/-! A syntax table is a list of codewords. -/

theorem Reads.nil (a : α) : Reads (Pure.pure a : StateM σ α) ([] : List (List Bool)).flatten a := .pure a

theorem Reads.last {m : StateM σ α} {word : List Bool} {a : α} (h : Reads m word a) : Reads m [word].flatten a := by
  rwa [List.flatten_singleton]

theorem Reads.cons {m : StateM σ α} {f : α → StateM σ β} {word : List Bool} {words : List (List Bool)} {a : α} {b : β}
    (h : Reads m word a) (h' : Reads (f a) words.flatten b) : Reads (m >>= f) (word :: words).flatten b := by
  rw [List.flatten_cons]
  exact h.bind h'

theorem Reads.onlyIf {c d : Prop} [Decidable c] [Decidable d] {m : StateM σ Unit} {bits : List Bool} (hcd : c ↔ d)
    (h : d → Reads m bits ()) : Reads (onlyIf c m) (if d then bits else []) () := by
  unfold Core.onlyIf
  by_cases hd : d
  · rw [if_pos hd, if_pos (hcd.mpr hd)]
    exact h hd
  · rw [if_neg hd, if_neg (hd ∘ hcd.mp)]
    exact .pure ()

theorem Reads.forRange {body : Nat → StateM σ Unit} {bits : Nat → List Bool} {i n : Nat}
    (h : ∀ j, i ≤ j → j < i + n → Reads (body j) (bits j) ()) :
    Reads (forRange body i n) ((List.range' i n).flatMap bits) () := by
  induction n generalizing i with
  | zero => exact .pure ()
  | succ n ih =>
    rw [List.range'_succ, List.flatMap_cons]
    exact (h i (Nat.le_refl i) (by omega)).bind (ih fun j hj hlt => h j (by omega) (by omega))

/-- A loop that reads the elements of a list. -/
theorem Reads.each {m : StateM σ Unit} {bits : γ → List Bool} {xs : List γ} (h : ∀ x ∈ xs, Reads m (bits x) ()) (i : Nat) :
    Reads (Core.forRange (fun _ => m) i xs.length) (xs.flatMap bits) () := by
  induction xs generalizing i with
  | nil => exact .pure ()
  | cons x xs ih =>
    rw [List.flatMap_cons]
    exact (h x List.mem_cons_self).bind (ih (fun y hy => h y (List.mem_cons_of_mem _ hy)) (i + 1))

/-! ## Cut-off input -/

/-- `suffix`: bits are only consumed. `stable`: bits behind those that the
reader leaves make no difference. `passes`: what runs dry on the bits that are
there does not stop before those that are not. -/
class Lawful (m : StateM σ α) : Prop where
  suffix : ∀ s, rest (m s).2 <:+ rest s
  stable : ∀ s t more, rest t = rest s ++ more → rest (m s).2 ≠ [] →
    (m t).1 = (m s).1 ∧ rest (m t).2 = rest (m s).2 ++ more
  passes : ∀ s t more, rest t = rest s ++ more → rest (m s).2 = [] → (rest (m t).2).length ≤ more.length

theorem Lawful.dry {m : StateM σ α} [hm : Lawful m] {s : σ} (h : rest s = []) : rest (m s).2 = [] :=
  List.suffix_nil.mp (h ▸ hm.suffix s)

instance (a : α) : Lawful (pure a : StateM σ α) where
  suffix _ := List.suffix_rfl
  stable _ _ _ h _ := ⟨rfl, h⟩
  passes s t more h hnil := by
    have hnil' : rest s = [] := hnil
    have ht : rest t = more := by rw [h, hnil', List.nil_append]
    exact Nat.le_of_eq (congrArg List.length ht)

instance (m : StateM σ α) (f : α → StateM σ β) [hm : Lawful m] [hf : ∀ a, Lawful (f a)] : Lawful (m >>= f) where
  suffix s := ((hf _).suffix _).trans (hm.suffix s)
  stable s t more h hne := by
    have hmid : rest (m s).2 ≠ [] := fun hnil => hne ((hf _).dry hnil)
    obtain ⟨ha, hrest⟩ := hm.stable s t more h hmid
    obtain ⟨hb, hrest'⟩ := (hf (m s).1).stable (m s).2 (m t).2 more hrest hne
    show (f (m t).1 (m t).2).1 = _ ∧ rest (f (m t).1 (m t).2).2 = _
    rw [ha]
    exact ⟨hb, hrest'⟩
  passes s t more h hnil := by
    show (rest (f (m t).1 (m t).2).2).length ≤ more.length
    by_cases hmid : rest (m s).2 = []
    · exact Nat.le_trans ((hf _).suffix _).length_le (hm.passes s t more h hmid)
    · obtain ⟨ha, hrest⟩ := hm.stable s t more h hmid
      rw [ha]
      exact (hf (m s).1).passes (m s).2 (m t).2 more hrest hnil

theorem Lawful.bind {m : StateM σ α} {f : α → StateM σ β} [Lawful m] (hf : ∀ a, Lawful (f a)) : Lawful (m >>= f) :=
  inferInstance

instance (c : Prop) [Decidable c] (m m' : StateM σ α) [Lawful m] [Lawful m'] : Lawful (if c then m else m') := by
  split <;> infer_instance

instance (c : Prop) [Decidable c] (m : StateM σ Unit) [Lawful m] : Lawful (onlyIf c m) := by
  unfold onlyIf
  infer_instance

instance (body : Nat → StateM σ Unit) [hbody : ∀ i, Lawful (body i)] (i n : Nat) : Lawful (forRange body i n) := by
  induction n generalizing i with
  | zero => exact inferInstanceAs (Lawful (pure ()))
  | succ n ih =>
    unfold forRange
    infer_instance

/-- The reader consumes so many bits, or all of them. -/
def Takes (n : Nat) (m : StateM σ α) : Prop := ∀ s, (rest (m s).2).length ≤ (rest s).length - n

theorem Takes.bind {m : StateM σ α} {f : α → StateM σ β} {n total : Nat} (h : Takes n m)
    (h' : ∀ a, Takes (total - n) (f a)) : Takes total (m >>= f) := by
  intro s
  have hm := h s
  have hf := h' (m s).1 (m s).2
  show (rest (f (m s).1 (m s).2).2).length ≤ _
  omega

theorem Lawful.takes (m : StateM σ α) [hm : Lawful m] : Takes 0 m := fun s => (hm.suffix s).length_le

/-- **Cut-off input.** `s` sees the beginning of what `t` sees: the reader
runs dry, or does the same on both. -/
theorem Lawful.cut {m : StateM σ α} [hm : Lawful m] {s t : σ} {cut : List Bool} (h : rest t = rest s ++ cut) :
    (rest (m s).2 = [] ∧ (rest s).length ≤ (rest t).length - (rest (m t).2).length) ∨
      ((m t).1 = (m s).1 ∧ rest (m s).2 = (rest s).drop ((rest t).length - (rest (m t).2).length)) := by
  have hlen := congrArg List.length h
  rw [List.length_append] at hlen
  by_cases hnil : rest (m s).2 = []
  · have hle := hm.passes s t cut h hnil
    exact .inl ⟨hnil, by omega⟩
  · obtain ⟨ha, hrest⟩ := hm.stable s t cut h hnil
    have hsuffix := hm.suffix s
    have hlen' := congrArg List.length hrest
    rw [List.length_append] at hlen'
    have hpos : (rest t).length - (rest (m t).2).length = (rest s).length - (rest (m s).2).length := by
      rw [hlen, hlen']
      exact Nat.add_sub_add_right ..
    rw [hpos]
    exact .inr ⟨ha, List.suffix_iff_eq_drop.mp hsuffix⟩

end WebPlayer.Core
