import Mathlib.Data.List.Basic

/-!
# Scanning for marks, and cutting at them

A scanner walks the positions below `n`; where it hits a mark it records the
position and skips the mark, elsewhere it goes on by one. `cuts` takes a list
apart at such positions, and `offsets` reads the positions off the pieces.

* `scan_enough`: the walk ends by itself.
* `scan_congr`: scanners that agree from `i` on record the same from there.
* `flatten_cuts`, `offsets_cuts`: the pieces are the list from the first
  position on, and determine the positions.
* `exists_of_cuts_eq`: a piece begins with a mark and has no other behind it.
* `cuts_laid`: pieces of this kind, put together, are found again.
-/
namespace WebPlayer.Core

/-- Where there is a mark, its length. -/
structure Marks where
  hit : Nat → Option Nat
  pos : ∀ {i k}, hit i = some k → 0 < k

namespace Marks

variable (M : Marks)

/-- At most `fuel` positions. -/
def scanN (n : Nat) : Nat → Nat → List Nat
  | 0, _ => []
  | fuel + 1, i =>
    if i < n then
      match M.hit i with
      | some k => i :: scanN n fuel (i + k)
      | none => scanN n fuel (i + 1)
    else []

/-- The walk from `i`. Each step advances, so this is enough fuel. -/
def scan (n i : Nat) : List Nat := M.scanN n (n - i) i

variable {M}

/-- **The walk ends by itself.** -/
theorem scan_enough {n fuel i : Nat} (h : n - i ≤ fuel) : M.scanN n fuel i = M.scan n i := by
  suffices H : ∀ f g i, n - i ≤ f → n - i ≤ g → M.scanN n f i = M.scanN n g i from H fuel _ i h (Nat.le_refl _)
  intro f
  induction f with
  | zero =>
    intro g i hf hg
    cases g with
    | zero => rfl
    | succ g => rw [scanN, scanN, if_neg (by omega)]
  | succ f ih =>
    intro g i hf hg
    cases g with
    | zero => rw [scanN, scanN, if_neg (by omega)]
    | succ g =>
      rw [scanN, scanN]
      split
      · cases hk : M.hit i with
        | some k =>
          have := M.pos hk
          simp only [ih g (i + k) (by omega) (by omega)]
        | none => exact ih g (i + 1) (by omega) (by omega)
      · rfl

theorem scan_end {n i : Nat} (h : n ≤ i) : M.scan n i = [] := by
  rw [scan, show n - i = 0 by omega, scanN]

theorem scan_hit {n i k : Nat} (h : i < n) (hk : M.hit i = some k) : M.scan n i = i :: M.scan n (i + k) := by
  have := M.pos hk
  rw [← scan_enough (show n - i ≤ n - i - 1 + 1 by omega), scanN, if_pos h, hk]
  simp only
  rw [scan_enough (by omega)]

theorem scan_miss {n i : Nat} (hk : M.hit i = none) : M.scan n i = M.scan n (i + 1) := by
  by_cases h : i < n
  · rw [← scan_enough (show n - i ≤ n - i - 1 + 1 by omega), scanN, if_pos h, hk]
    simp only
    rw [scan_enough (by omega)]
  · rw [scan_end (by omega), scan_end (by omega)]

/-- Induction along the walk. -/
theorem scan_induction {n : Nat} {motive : Nat → Prop} (hend : ∀ i, n ≤ i → motive i)
    (hit : ∀ i k, i < n → M.hit i = some k → motive (i + k) → motive i)
    (hmiss : ∀ i, i < n → M.hit i = none → motive (i + 1) → motive i) (i : Nat) : motive i := by
  suffices H : ∀ f i, n - i ≤ f → motive i from H _ i (Nat.le_refl _)
  intro f
  induction f with
  | zero =>
    intro i hf
    exact hend i (by omega)
  | succ f ih =>
    intro i hf
    by_cases h : i < n
    · cases hk : M.hit i with
      | some k =>
        have := M.pos hk
        exact hit i k h hk (ih _ (by omega))
      | none => exact hmiss i h hk (ih _ (by omega))
    · exact hend i (by omega)

theorem scan_congr {M' : Marks} {n i : Nat} (h : ∀ j, i ≤ j → j < n → M.hit j = M'.hit j) :
    M.scan n i = M'.scan n i := by
  induction i using scan_induction (M := M) (n := n) with
  | hend i hi => rw [scan_end hi, scan_end hi]
  | hit i k hi hk ih =>
    rw [scan_hit hi hk, scan_hit hi ((h i (Nat.le_refl _) hi).symm.trans hk),
      ih fun j hj => h j (by omega)]
  | hmiss i hi hk ih =>
    rw [scan_miss hk, scan_miss ((h i (Nat.le_refl _) hi).symm.trans hk), ih fun j hj => h j (by omega)]

/-- The positions ascend, from `i` to below `n`. -/
theorem scan_bounds {n i : Nat} : ∀ j ∈ M.scan n i, i ≤ j ∧ j < n := by
  induction i using scan_induction (M := M) (n := n) with
  | hend i hi =>
    rw [scan_end hi]
    exact fun j hj => absurd hj List.not_mem_nil
  | hit i k hi hk ih =>
    rw [scan_hit hi hk]
    intro j hj
    cases hj with
    | head => exact ⟨Nat.le_refl _, hi⟩
    | tail _ hj =>
      have := ih j hj
      omega
  | hmiss i hi hk ih =>
    rw [scan_miss hk]
    intro j hj
    have := ih j hj
    omega

theorem scan_sorted {n i : Nat} : (M.scan n i).Pairwise (· < ·) := by
  induction i using scan_induction (M := M) (n := n) with
  | hend i hi =>
    rw [scan_end hi]
    exact .nil
  | hit i k hi hk ih =>
    rw [scan_hit hi hk]
    refine .cons (fun j hj => ?_) ih
    have := M.pos hk
    have := scan_bounds j hj
    omega
  | hmiss i hi hk ih =>
    rw [scan_miss hk]
    exact ih

theorem hit_of_mem {n i o : Nat} (h : o ∈ M.scan n i) : ∃ k, M.hit o = some k := by
  induction i using scan_induction (M := M) (n := n) with
  | hend i hi => simp [scan_end hi] at h
  | hit i k hi hk ih =>
    rw [scan_hit hi hk] at h
    cases h with
    | head => exact ⟨k, hk⟩
    | tail _ h => exact ih h
  | hmiss i hi hk ih => exact ih (by rwa [scan_miss hk] at h)

/-- In front of the first position there is no mark. -/
theorem hit_eq_none {n i j : Nat} (hj : ∀ o ∈ M.scan n i, j < o) (hij : i ≤ j) (hjn : j < n) : M.hit j = none := by
  induction i using scan_induction (M := M) (n := n) with
  | hend i hi => omega
  | hit i k hi hk ih =>
    rw [scan_hit hi hk] at hj
    have := hj i (List.mem_cons_self ..)
    omega
  | hmiss i hi hk ih =>
    rw [scan_miss hk] at hj
    rcases Nat.eq_or_lt_of_le hij with rfl | hlt
    · exact hk
    · exact ih hj hlt

/-- Positions without a mark are passed over. -/
theorem scan_free {n i e : Nat} (hie : i ≤ e) (h : ∀ j, i ≤ j → j < e → j < n → M.hit j = none) : M.scan n i = M.scan n e := by
  obtain ⟨d, rfl⟩ := Nat.exists_eq_add_of_le hie
  clear hie
  induction d with
  | zero => rfl
  | succ d ih =>
    rw [ih fun j hij hje => h j hij (by omega)]
    by_cases hn : i + d < n
    · exact scan_miss (h (i + d) (by omega) (by omega) hn)
    · rw [scan_end (by omega), scan_end (by omega)]

end Marks

/-! ## Cutting -/

variable {β : Type}

/-- The pieces of a list that begin at the given positions. -/
def cuts (xs : List β) : List Nat → List (List β)
  | [] => []
  | [o] => [xs.drop o]
  | o :: o' :: os => (xs.drop o).take (o' - o) :: cuts xs (o' :: os)

/-- Where pieces begin that end with the list of length `total`. -/
def offsets (total : Nat) : List (List β) → List Nat
  | [] => []
  | p :: ps => (total - (p :: ps).flatten.length) :: offsets total ps

section
variable {xs : List β} {o : Nat} {os : List Nat}

/-- No element after the first position is lost. -/
theorem flatten_cuts (h : (o :: os).Pairwise (· < ·)) : (cuts xs (o :: os)).flatten = xs.drop o := by
  induction os generalizing o with
  | nil => simp [cuts]
  | cons o' os ih =>
    have hlt : o < o' := List.rel_of_pairwise_cons h (List.mem_cons_self ..)
    have hdrop : xs.drop o' = (xs.drop o).drop (o' - o) := by
      rw [List.drop_drop, Nat.add_sub_cancel' (Nat.le_of_lt hlt)]
    rw [cuts, List.flatten_cons, ih h.of_cons, hdrop, List.take_append_drop]

/-- **What a piece is.** Where the marks lie within the list, a piece goes from
a mark to where the pieces behind it begin, and no mark is behind its own. -/
theorem exists_of_cuts_eq {M : Marks} {n i : Nat} {pre post : List (List β)} {p : List β}
    (hfit : ∀ o k, o < n → M.hit o = some k → o + k ≤ xs.length) (h : cuts xs (M.scan n i) = pre ++ p :: post) :
    ∃ o k e, o < n ∧ M.hit o = some k ∧ o + k ≤ e ∧ e ≤ xs.length ∧
      (∀ j, o + k ≤ j → j < e → j < n → M.hit j = none) ∧ p = (xs.drop o).take (e - o) ∧ post.flatten = xs.drop e := by
  induction i using Marks.scan_induction (M := M) (n := n) generalizing pre with
  | hend i hi => simp [Marks.scan_end hi, cuts] at h
  | hmiss i hi hk ih => exact ih (by rwa [Marks.scan_miss hk] at h)
  | hit i k hi hk ih =>
    have hle := hfit i k hi hk
    have hfree := fun j (hj : ∀ o ∈ M.scan n (i + k), j < o) => Marks.hit_eq_none (j := j) hj
    rw [Marks.scan_hit hi hk] at h
    cases hos : M.scan n (i + k) with
    | nil =>
      rw [hos] at h hfree
      obtain ⟨rfl, hp⟩ : pre = [] ∧ [xs.drop i] = p :: post := by
        cases pre with
        | nil => exact ⟨rfl, h⟩
        | cons q pre => simp [cuts] at h
      obtain ⟨rfl, rfl⟩ := List.cons.inj hp
      have hwhole : xs.drop i = (xs.drop i).take (xs.length - i) :=
        (List.take_of_length_le (Nat.le_of_eq List.length_drop)).symm
      exact ⟨i, k, xs.length, hi, hk, hle, Nat.le_refl _, fun j hj _ hjn => hfree j (by simp) hj hjn, hwhole,
        List.drop_length.symm⟩
    | cons o os =>
      rw [hos] at h ih hfree
      have hsorted : (o :: os).Pairwise (· < ·) := hos ▸ M.scan_sorted
      have ho := M.scan_bounds o (by rw [hos]; exact List.mem_cons_self ..)
      obtain ⟨ko, hko⟩ := Marks.hit_of_mem (show o ∈ M.scan n (i + k) by rw [hos]; exact List.mem_cons_self ..)
      have hlen := hfit o ko ho.2 hko
      cases pre with
      | nil =>
        obtain ⟨rfl, rfl⟩ := List.cons.inj h
        refine ⟨i, k, o, hi, hk, ho.1, by omega, fun j hj hjo hjn => hfree j ?_ hj hjn, rfl, flatten_cuts hsorted⟩
        intro o' ho'
        cases ho' with
        | head => exact hjo
        | tail _ ho' => exact Nat.lt_trans hjo (List.rel_of_pairwise_cons hsorted ho')
      | cons q pre => exact ih (List.cons.inj h).2

theorem offsets_cuts (h : os.Pairwise (· < ·)) (hb : ∀ o ∈ os, o < xs.length) : offsets xs.length (cuts xs os) = os := by
  induction os with
  | nil => rfl
  | cons o os ih =>
    have hlen := congrArg List.length (@flatten_cuts _ xs _ _ h)
    have ho := hb o (List.mem_cons_self ..)
    have hrest := ih h.of_cons fun o' ho' => hb o' (List.mem_cons_of_mem _ ho')
    rw [List.length_drop] at hlen
    cases os with
    | nil =>
      rw [cuts] at hlen ⊢
      rw [offsets, hlen, offsets]
      congr 1
      omega
    | cons o' os =>
      rw [cuts] at hlen ⊢
      rw [offsets, hrest, hlen]
      congr 1
      omega

end

/-! ## Putting together -/

/-- Pieces from `o` on, up to the end of the walk: a mark begins each of them
and there is no other in it. -/
def Laid (M : Marks) (n : Nat) : Nat → List (List β) → Prop
  | o, [] => n ≤ o
  | o, p :: ps => o < n ∧
      (∃ k, M.hit o = some k ∧ k ≤ p.length ∧ ∀ j, o + k ≤ j → j < o + p.length → M.hit j = none) ∧ Laid M n (o + p.length) ps

/-- Where the pieces begin. -/
def starts : Nat → List (List β) → List Nat
  | _, [] => []
  | o, p :: ps => o :: starts (o + p.length) ps

theorem scan_laid {M : Marks} {n o : Nat} {ps : List (List β)} (h : Laid M n o ps) : M.scan n o = starts o ps := by
  induction ps generalizing o with
  | nil => exact Marks.scan_end h
  | cons p ps ih =>
    obtain ⟨ho, ⟨k, hhit, hk, hfree⟩, hps⟩ := h
    rw [Marks.scan_hit ho hhit, Marks.scan_free (Nat.add_le_add_left hk o) fun j hj hje _ => hfree j hj hje, ih hps, starts]

theorem cuts_starts (pre : List β) (ps : List (List β)) : cuts (pre ++ ps.flatten) (starts pre.length ps) = ps := by
  induction ps generalizing pre with
  | nil => rfl
  | cons p ps ih =>
    have hrest := ih (pre ++ p)
    rw [List.append_assoc, List.length_append] at hrest
    cases ps with
    | nil => simp [starts, cuts]
    | cons q ps =>
      simp only [starts, cuts, List.flatten_cons, List.drop_left] at hrest ⊢
      rw [hrest, Nat.add_sub_cancel_left, List.take_left]

/-- **The pieces come back.** -/
theorem cuts_laid {M : Marks} {n : Nat} {pre : List β} {ps : List (List β)} (h : Laid M n pre.length ps) :
    cuts (pre ++ ps.flatten) (M.scan n pre.length) = ps := by
  rw [scan_laid h, cuts_starts]

end WebPlayer.Core
