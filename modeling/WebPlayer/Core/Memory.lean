import WebPlayer.Core.Bytes

/-!
# Bytes in memory

A memory is a byte for each address. Fixed-width integers lie in it least
significant byte first: `leBytes w v` are the `w` low bytes of `v`, and
`leNat` is the number that bytes spell.

* `leNat_leBytes`: reading what was written gives `v % 256 ^ w`.
* `leNat_read_add`: a wide read is two narrow ones.
* `bytesAt_append`, `bytesAt_ofBytes`: what lies where.
-/
namespace WebPlayer.Core

abbrev Heap := Nat → UInt8

/-- The `w` low bytes of `v`, least significant first. -/
def leBytes : Nat → Nat → Bytes
  | 0, _ => []
  | w + 1, v => UInt8.ofNat (v % 256) :: leBytes w (v / 256)

def leNat : Bytes → Nat
  | [] => 0
  | b :: bs => b.toNat + 256 * leNat bs

/-- `n` bytes from `p` on. -/
def Heap.read (heap : Heap) (p : Nat) : Nat → Bytes
  | 0 => []
  | n + 1 => heap p :: Heap.read heap (p + 1) n

/-- The memory that holds `bs` from `base` on and zeros elsewhere. -/
def Heap.ofBytes (base : Nat) (bs : Bytes) : Heap := fun a => if a < base then 0 else bs.getD (a - base) 0

/-- `bs` lies at `p`. -/
def BytesAt (heap : Heap) (p : Nat) (bs : Bytes) : Prop := heap.read p bs.length = bs

instance (heap : Heap) (p : Nat) (bs : Bytes) : Decidable (BytesAt heap p bs) := inferInstanceAs (Decidable (_ = _))

@[simp] theorem leBytes_length (w v : Nat) : (leBytes w v).length = w := by
  induction w generalizing v with
  | zero => rfl
  | succ w ih => rw [leBytes, List.length_cons, ih]

/-- Reader after writer: the low `w` bytes of `v`. -/
theorem leNat_leBytes (w v : Nat) : leNat (leBytes w v) = v % 256 ^ w := by
  induction w generalizing v with
  | zero => simp [leBytes, leNat, Nat.mod_one]
  | succ w ih =>
    have hb : (UInt8.ofNat (v % 256)).toNat = v % 256 :=
      UInt8.toNat_ofNat_of_lt' (by simp only [UInt8.size]; exact Nat.mod_lt _ (by decide))
    rw [leBytes, leNat, ih, hb, Nat.pow_succ, Nat.mul_comm (256 ^ w), Nat.mod_mul]

theorem leNat_leBytes_of_lt {w v : Nat} (h : v < 256 ^ w) : leNat (leBytes w v) = v := by
  rw [leNat_leBytes, Nat.mod_eq_of_lt h]

theorem leNat_append (xs ys : Bytes) : leNat (xs ++ ys) = leNat xs + 256 ^ xs.length * leNat ys := by
  induction xs with
  | nil => simp [leNat]
  | cons x xs ih =>
    rw [List.cons_append, leNat, leNat, ih, List.length_cons]
    ring

theorem leNat_lt (bs : Bytes) : leNat bs < 256 ^ bs.length := by
  induction bs with
  | nil => simp [leNat]
  | cons b bs ih =>
    have hb : b.toNat < 256 := b.toNat_lt
    rw [leNat, List.length_cons, Nat.pow_succ]
    omega

@[simp] theorem length_read (heap : Heap) (p n : Nat) : (heap.read p n).length = n := by
  induction n generalizing p with
  | zero => rfl
  | succ n ih => rw [Heap.read, List.length_cons, ih]

theorem read_add (heap : Heap) (p m n : Nat) : heap.read p (m + n) = heap.read p m ++ heap.read (p + m) n := by
  induction m generalizing p with
  | zero => simp [Heap.read]
  | succ m ih =>
    rw [Nat.succ_add, Heap.read, Heap.read, ih, List.cons_append, Nat.add_assoc p 1 m, Nat.add_comm 1 m]

/-- A wide read is two narrow ones, the low part first. -/
theorem leNat_read_add (heap : Heap) (p m n : Nat) :
    leNat (heap.read p (m + n)) = leNat (heap.read p m) + 256 ^ m * leNat (heap.read (p + m) n) := by
  rw [read_add, leNat_append, length_read]

/-- An integer that lies in memory is read from there. -/
theorem leNat_read_of_bytesAt {heap : Heap} {p w v : Nat} (h : BytesAt heap p (leBytes w v)) (hv : v < 256 ^ w) :
    leNat (heap.read p w) = v := by
  rw [BytesAt, leBytes_length] at h
  rw [h, leNat_leBytes_of_lt hv]

/-- What lies where in two adjacent pieces. -/
theorem bytesAt_append {heap : Heap} {p : Nat} {xs ys : Bytes} :
    BytesAt heap p (xs ++ ys) ↔ BytesAt heap p xs ∧ BytesAt heap (p + xs.length) ys := by
  unfold BytesAt
  rw [List.length_append, read_add]
  constructor
  · exact fun h => List.append_inj h (length_read ..)
  · rintro ⟨hx, hy⟩
    rw [hx, hy]

theorem bytesAt_cons {heap : Heap} {p : Nat} {b : UInt8} {bs : Bytes} :
    BytesAt heap p (b :: bs) ↔ heap p = b ∧ BytesAt heap (p + 1) bs := by
  unfold BytesAt
  rw [List.length_cons, Heap.read, List.cons.injEq]

theorem bytesAt_ofBytes (base : Nat) (bs : Bytes) : BytesAt (Heap.ofBytes base bs) base bs := by
  suffices H : ∀ i n, i + n = bs.length → (Heap.ofBytes base bs).read (base + i) n = bs.drop i by
    exact H 0 bs.length (Nat.zero_add _)
  intro i n
  induction n generalizing i with
  | zero =>
    intro h
    rw [Heap.read, List.drop_of_length_le (by omega)]
  | succ n ih =>
    intro h
    have hi : i < bs.length := by omega
    have hget : Heap.ofBytes base bs (base + i) = bs[i] := by
      rw [Heap.ofBytes, if_neg (by omega), Nat.add_sub_cancel_left, List.getD_eq_getElem _ _ hi]
    rw [Heap.read, hget, Nat.add_assoc, ih (i + 1) (by omega), ← List.drop_eq_getElem_cons]

end WebPlayer.Core
