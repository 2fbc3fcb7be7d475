import Mathlib.Data.List.Sort
import Mathlib.Order.Defs.LinearOrder

/-!
# Sorting that need not be stable

`StdSort key xs out` says that `out` may be the result of `std::sort` on `xs`
by a key: the same elements, ascending, equal keys in any order.

* `keeps_iff`: every such result keeps the order of the elements of one kind
  iff their keys ascend strictly from each to the next, except between
  elements that are the same.
-/
namespace WebPlayer.Core

variable {α κ : Type} [LinearOrder κ] (key : α → κ)

structure StdSort (xs out : List α) : Prop where
  perm : out.Perm xs
  sorted : out.Pairwise fun a b => key a ≤ key b

/-- `a` cannot come behind `b` in a sorted result unless they are the
same. -/
def Precedes (a b : α) : Prop := key a < key b ∨ a = b

namespace StdSort

variable {key} {xs out : List α}

/-- Elements that ascend strictly, but for repetitions, are sorted in one way
only. -/
theorem eq_of_precedes {l l' : List α} (hl : l.Pairwise (Precedes key)) (hl' : l'.Pairwise fun a b => key a ≤ key b)
    (hp : l'.Perm l) : l' = l := by
  have heq : l.Pairwise fun a b => key a = key b → a = b :=
    hl.imp fun h hab => h.resolve_left fun hlt => absurd hab (ne_of_lt hlt)
  -- so elements of `l` with one key are the same
  have hsame : ∀ a ∈ l, ∀ b ∈ l, key a = key b → a = b := fun a ha b hb =>
    List.Pairwise.forall_of_forall_of_flip (fun _ _ _ => rfl) heq (heq.imp fun h hab => (h hab.symm).symm) ha hb
  refine hp.eq_of_pairwise (fun a b ha hb hab hba => ?_) hl' (hl.imp fun h => ?_)
  · exact hsame a (hp.subset ha) b hb (le_antisymm hab hba)
  · rcases h with h | rfl
    · exact le_of_lt h
    · exact le_refl _

/-- By key, and of one key, `c` first. -/
def firstOfKey [DecidableEq α] (key : α → κ) (c a b : α) : Bool := key a < key b ∨ (key a = key b ∧ (a = c ∨ b ≠ c))

theorem sort_firstOfKey [DecidableEq α] (c : α) (xs : List α) :
    (xs.mergeSort (firstOfKey key c)).Pairwise fun a b => firstOfKey key c a b = true := by
  refine List.pairwise_mergeSort (fun a b d hab hbd => ?_) (fun a b => ?_) xs
  · simp only [firstOfKey, decide_eq_true_eq] at hab hbd ⊢
    rcases hab with hab | ⟨hab, hac⟩
    · rcases hbd with hbd | ⟨hbd, -⟩
      · exact .inl (lt_trans hab hbd)
      · exact .inl (hbd ▸ hab)
    · rcases hbd with hbd | ⟨hbd, hbc⟩
      · exact .inl (hab ▸ hbd)
      · refine .inr ⟨hab.trans hbd, ?_⟩
        rcases hac with hac | hac
        · exact .inl hac
        · exact .inr (hbc.resolve_left hac)
  · simp only [firstOfKey, Bool.or_eq_true, decide_eq_true_eq]
    rcases lt_trichotomy (key a) (key b) with h | h | h
    · exact .inl (.inl h)
    · by_cases hb : b = c
      · exact .inr (.inr ⟨h.symm, .inl hb⟩)
      · exact .inl (.inr ⟨h, .inr hb⟩)
    · exact .inr (.inl h)

theorem of_firstOfKey [DecidableEq α] (c : α) (xs : List α) : StdSort key xs (xs.mergeSort (firstOfKey key c)) where
  perm := List.mergeSort_perm _ _
  sorted := (sort_firstOfKey c xs).imp fun h => by
    simp only [firstOfKey, decide_eq_true_eq] at h
    rcases h with h | h
    · exact le_of_lt h
    · exact le_of_eq h.1

/-- **Keeping an order.** -/
theorem keeps_iff [DecidableEq α] (xs : List α) (p : α → Bool) :
    (∀ out, StdSort key xs out → out.filter p = xs.filter p) ↔ (xs.filter p).Pairwise (Precedes key) := by
  constructor
  · intro hkeep
    rw [List.pairwise_iff_forall_sublist]
    intro a b hab
    -- sort with `b` in front of what has its key
    have hsorted := (@sort_firstOfKey _ _ _ key _ b xs).filter p
    rw [hkeep _ (of_firstOfKey b xs)] at hsorted
    have hrel := hsorted.forall_sublist hab
    simp only [firstOfKey, decide_eq_true_eq] at hrel
    rcases hrel with h | ⟨-, h | h⟩
    · exact .inl h
    · exact .inr h
    · exact absurd rfl h
  · intro hpre out hout
    exact eq_of_precedes hpre (hout.sorted.filter p) (hout.perm.filter p)

end StdSort

end WebPlayer.Core
