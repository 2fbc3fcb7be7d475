import Mathlib.Data.Set.Card

/-!
# Periodic schedules

`len` items recur in laps: item `i` of lap `l` is due at
`offset i + l * period`. Numbered through, item `n` is item `n % len` of lap
`n / len`.

* `time_mono`: the times ascend, also from one lap to the next.
* `time_unbounded`: after any time some item is still to come.
* `ncard_due`: the first item that is not due is the number of pairs of a lap
  and an item that are.
* `prefix_laps`: a list whose items are those of `xs`, lap after lap.
-/
namespace WebPlayer.Core

/-- The offsets ascend and do not exceed the period. -/
structure Laps where
  len : Nat
  offset : Nat → Nat
  period : Nat
  len_pos : 0 < len
  period_pos : 0 < period
  offset_mono : ∀ i j, i ≤ j → j < len → offset i ≤ offset j
  offset_le : ∀ i, i < len → offset i ≤ period

namespace Laps
variable (L : Laps)

def time (n : Nat) : Nat := L.offset (n % L.len) + n / L.len * L.period

/-- The pairs of a lap and an item due at `p`. -/
def due (p : Nat) : Set (Nat × Nat) := {x | x.2 < L.len ∧ L.offset x.2 + x.1 * L.period ≤ p}

theorem time_add_len (n : Nat) : L.time (n + L.len) = L.time n + L.period := by
  rw [time, time, Nat.add_mod_right, Nat.add_div_right _ L.len_pos, Nat.succ_mul, Nat.add_assoc]

theorem time_succ (n : Nat) : L.time n ≤ L.time (n + 1) := by
  have hpos := L.len_pos
  have hlt := Nat.mod_lt n hpos
  by_cases hwrap : n % L.len + 1 < L.len
  · -- the next item of the same lap
    have hmod : (n + 1) % L.len = n % L.len + 1 := by
      rw [Nat.add_mod, Nat.mod_eq_of_lt (show 1 < L.len by omega), Nat.mod_eq_of_lt hwrap]
    have hdiv : (n + 1) / L.len = n / L.len := by
      refine Nat.div_eq_of_lt_le ?_ ?_
      · exact Nat.le_trans (Nat.div_mul_le_self n _) (Nat.le_succ n)
      · have := Nat.div_add_mod n L.len
        rw [Nat.succ_mul, Nat.mul_comm]
        omega
    rw [time, time, hmod, hdiv]
    exact Nat.add_le_add_right (L.offset_mono _ _ (Nat.le_succ _) hwrap) _
  · -- the first item of the next lap
    have hn : n + 1 = (n / L.len + 1) * L.len := by
      have := Nat.div_add_mod n L.len
      rw [Nat.succ_mul, Nat.mul_comm]
      omega
    have hoff := L.offset_le _ hlt
    rw [time, time, hn, Nat.mul_mod_left, Nat.mul_div_cancel _ hpos, Nat.succ_mul]
    omega

theorem time_mono {m n : Nat} (h : m ≤ n) : L.time m ≤ L.time n := monotone_nat_of_le_succ L.time_succ h

theorem le_time (l : Nat) : l ≤ L.time (l * L.len) := by
  rw [time, Nat.mul_div_cancel _ L.len_pos]
  exact Nat.le_trans (Nat.le_mul_of_pos_right l L.period_pos) (Nat.le_add_left ..)

theorem time_unbounded (p : Nat) : ∃ n, p < L.time n := ⟨(p + 1) * L.len, L.le_time (p + 1)⟩

/-- The first item after `p` is at most a lap later. -/
theorem exists_first (p : Nat) : ∃ n, (∀ i, i < n → L.time i ≤ p) ∧ p < L.time n ∧ L.time n ≤ p + L.offset 0 + L.period := by
  classical
  have hbefore : ∀ i, i < Nat.find (L.time_unbounded p) → L.time i ≤ p :=
    fun i hi => Nat.not_lt.mp (Nat.find_min (L.time_unbounded p) hi)
  refine ⟨_, hbefore, Nat.find_spec (L.time_unbounded p), ?_⟩
  cases hn : Nat.find (L.time_unbounded p) with
  | zero =>
    have hzero : L.time 0 = L.offset 0 := by rw [time, Nat.zero_mod, Nat.zero_div, Nat.zero_mul, Nat.add_zero]
    omega
  | succ n =>
    have hprev : L.time n ≤ p := hbefore n (by omega)
    calc L.time (n + 1) ≤ L.time (n + L.len) := L.time_mono (Nat.add_le_add_left L.len_pos n)
      _ = L.time n + L.period := L.time_add_len n
      _ ≤ p + L.offset 0 + L.period := by omega

/-- A pair is its number. -/
theorem mem_due_iff {p : Nat} {x : Nat × Nat} : x ∈ L.due p ↔ ∃ n, L.time n ≤ p ∧ (n / L.len, n % L.len) = x := by
  obtain ⟨l, i⟩ := x
  constructor
  · rintro ⟨hi, hp⟩
    have hmod : (i + l * L.len) % L.len = i := by rw [Nat.add_mul_mod_self_right, Nat.mod_eq_of_lt hi]
    have hdiv : (i + l * L.len) / L.len = l := by
      rw [Nat.add_mul_div_right _ _ L.len_pos, Nat.div_eq_of_lt hi, Nat.zero_add]
    exact ⟨i + l * L.len, by rwa [time, hmod, hdiv], by rw [hmod, hdiv]⟩
  · rintro ⟨n, hn, hx⟩
    cases hx
    exact ⟨Nat.mod_lt n L.len_pos, hn⟩

/-- **Counting.** -/
theorem ncard_due {p n : Nat} (hbefore : ∀ i, i < n → L.time i ≤ p) (hat : p < L.time n) :
    (L.due p).Finite ∧ (L.due p).ncard = n := by
  have himage : L.due p = (fun i => (i / L.len, i % L.len)) '' (Finset.range n : Set Nat) := by
    ext x
    rw [mem_due_iff]
    constructor
    · rintro ⟨i, hi, hx⟩
      refine ⟨i, Finset.mem_coe.mpr (Finset.mem_range.mpr ?_), hx⟩
      by_contra hge
      have := L.time_mono (Nat.not_lt.mp hge)
      omega
    · rintro ⟨i, hi, hx⟩
      exact ⟨i, hbefore i (Finset.mem_range.mp (Finset.mem_coe.mp hi)), hx⟩
  have hinj : Set.InjOn (fun i => (i / L.len, i % L.len)) (Finset.range n : Set Nat) := by
    rintro i - j - hij
    obtain ⟨hdiv, hmod⟩ := Prod.mk.inj hij
    rw [← Nat.div_add_mod i L.len, ← Nat.div_add_mod j L.len, hdiv, hmod]
  rw [himage]
  refine ⟨(Finset.finite_toSet _).image _, ?_⟩
  rw [hinj.ncard_image, Set.ncard_coe_finset, Finset.card_range]

end Laps

/-! ## Lists, over and over -/

section
variable {α : Type} {xs ys : List α} {m : Nat}

theorem getElem?_laps {k : Nat} (h : k < m * xs.length) : (List.replicate m xs).flatten[k]? = xs[k % xs.length]? := by
  induction m generalizing k with
  | zero => omega
  | succ m ih =>
    rw [Nat.succ_mul] at h
    rw [List.replicate_succ, List.flatten_cons]
    by_cases hk : k < xs.length
    · rw [List.getElem?_append_left hk, Nat.mod_eq_of_lt hk]
    · rw [List.getElem?_append_right (Nat.not_lt.mp hk), ih (by omega), ← Nat.mod_eq_sub_mod (Nat.not_lt.mp hk)]

/-- What goes on through the laps is a prefix of enough of them. -/
theorem prefix_laps (hlen : ys.length ≤ m * xs.length) (h : ∀ k, k < ys.length → ys[k]? = xs[k % xs.length]?) :
    ys <+: (List.replicate m xs).flatten := by
  rw [List.prefix_iff_getElem?]
  intro k hk
  rw [getElem?_laps (by omega), ← h k hk, List.getElem?_eq_getElem hk]

end

end WebPlayer.Core
