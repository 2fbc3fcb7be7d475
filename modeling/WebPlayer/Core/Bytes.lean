import Mathlib.Data.Nat.Bitwise
import Mathlib.Data.List.Basic
import Mathlib.Tactic.Ring

/-!
# Bytes

Byte strings as lists, and the big-endian layout of fixed-width integers:
`beBytes w v` is the `w` low bytes of `v`, most significant first, and
`beNat` folds bytes back with shift and OR, as wire readers do.

* `beNat_beBytes`: reading what was written gives `v % 256 ^ w`.
* `slice_append_left`: a slice inside the input is the same in a longer one.
-/
namespace WebPlayer.Core

abbrev Bytes := List UInt8

/-- The `w` low bytes of `v`, most significant first. -/
def beBytes : Nat → Nat → Bytes
  | 0, _ => []
  | w + 1, v => UInt8.ofNat (v >>> (8 * w)) :: beBytes w v

/-- `val = (val << 8) | b`, over the bytes from the left. -/
def beNat (bs : Bytes) : Nat := bs.foldl (fun val b => (val <<< 8) ||| b.toNat) 0

/-- A C `int` conversion: the value modulo `2^32`, in `[-2^31, 2^31)`. -/
def int32 (x : Int) : Int := (x + 2 ^ 31) % 2 ^ 32 - 2 ^ 31

/-- The bytes of an ASCII text. -/
def ascii (s : String) : Bytes := s.toList.map fun c => UInt8.ofNat c.toNat

@[simp] theorem beBytes_length (w v : Nat) : (beBytes w v).length = w := by
  induction w with
  | zero => rfl
  | succ w ih => simp [beBytes, ih]

theorem shl8_or (a : Nat) (b : UInt8) : (a <<< 8) ||| b.toNat = a * 256 + b.toNat := by
  have hb : b.toNat < 2 ^ 8 := b.toNat_lt
  rw [Nat.shiftLeft_eq, Nat.mul_comm, ← Nat.two_pow_add_eq_or_of_lt hb, Nat.mul_comm]

theorem beNat_foldl (bs : Bytes) (a : Nat) :
    bs.foldl (fun val b => (val <<< 8) ||| b.toNat) a = a * 256 ^ bs.length + beNat bs := by
  induction bs generalizing a with
  | nil => simp [beNat]
  | cons b bs ih =>
    have h0 : beNat (b :: bs) = b.toNat * 256 ^ bs.length + beNat bs := by
      rw [beNat, List.foldl_cons, ih, shl8_or]; simp
    rw [List.foldl_cons, ih, shl8_or, h0, List.length_cons]
    ring

theorem beNat_append (xs ys : Bytes) : beNat (xs ++ ys) = beNat xs * 256 ^ ys.length + beNat ys := by
  rw [beNat, List.foldl_append, beNat_foldl]
  rfl

@[simp] theorem beNat_nil : beNat [] = 0 := rfl

theorem beNat_cons (b : UInt8) (bs : Bytes) :
    beNat (b :: bs) = b.toNat * 256 ^ bs.length + beNat bs := by
  rw [← List.singleton_append, beNat_append]
  simp [beNat]

theorem beNat_lt (bs : Bytes) : beNat bs < 256 ^ bs.length := by
  induction bs with
  | nil => simp
  | cons b bs ih =>
    have hb : b.toNat < 256 := b.toNat_lt
    have : b.toNat * 256 ^ bs.length ≤ 255 * 256 ^ bs.length := Nat.mul_le_mul_right _ (by omega)
    rw [beNat_cons, List.length_cons, Nat.pow_succ]
    omega

/-- Reader after writer: the low `w` bytes of `v`. -/
theorem beNat_beBytes (w v : Nat) : beNat (beBytes w v) = v % 256 ^ w := by
  induction w with
  | zero => simp [beBytes, Nat.mod_one]
  | succ w ih =>
    have hpow : (2 : Nat) ^ (8 * w) = 256 ^ w := by rw [Nat.pow_mul]
    have hdigit : v % 256 ^ (w + 1) = v % 256 ^ w + 256 ^ w * (v / 256 ^ w % 256) := by
      rw [Nat.pow_succ, Nat.mod_mul]
    rw [beBytes, beNat_cons, ih, beBytes_length, UInt8.toNat_ofNat', Nat.shiftRight_eq_div_pow, hpow,
      hdigit, Nat.add_comm, Nat.mul_comm (256 ^ w)]

theorem beNat_beBytes_of_lt {w v : Nat} (h : v < 256 ^ w) : beNat (beBytes w v) = v := by
  rw [beNat_beBytes, Nat.mod_eq_of_lt h]

/-! ## Reading behind a longer input -/

theorem getD_append_left {data : Bytes} {i : Nat} (h : i < data.length) (t : Bytes) :
    (data ++ t).getD i 0 = data.getD i 0 := by
  rw [List.getD_eq_getElem?_getD, List.getD_eq_getElem?_getD, List.getElem?_append_left h]

theorem slice_append_left {data : Bytes} {off len : Nat} (h : off + len ≤ data.length) (t : Bytes) :
    ((data ++ t).drop off).take len = (data.drop off).take len := by
  rw [List.drop_append_of_le_length (by omega), List.take_append_of_le_length]
  rw [List.length_drop]
  omega

theorem int32_of_small {x : Int} (h0 : -2 ^ 31 ≤ x) (h1 : x < 2 ^ 31) : int32 x = x := by
  unfold int32; omega

end WebPlayer.Core
