import Mathlib.Data.List.Basic

/-!
# Grouping a list by where groups open

A list is read from the left into a current group; `opens cur a` closes the
group `cur` in front of `a`, unless it is empty. Nothing is lost or moved, so
what a grouping says is where its groups begin.

* `groupsFrom_quiet`, `groupsFrom_opens`: elements that open nothing, and one
  that does.
* `together_iff`: an element and a later one are in one group iff none
  between opens.
* `flatten_groupsFrom`, `forall_groupsFrom`, `opens_of_mem_tail`: nothing is
  lost, what reading on preserves holds of every group, and every group after
  the first begins with an element that opens.
-/
namespace WebPlayer.Core.Segments

variable {α : Type} (opens : List α → α → Bool)

/-- The groups, when `cur` has been read into the current one. -/
def groupsFrom (cur : List α) : List α → List (List α)
  | [] => if cur.isEmpty then [] else [cur]
  | a :: l => if opens cur a && !cur.isEmpty then cur :: groupsFrom [a] l else groupsFrom (cur ++ [a]) l

/-- The current group after `l`. -/
def current (cur : List α) : List α → List α
  | [] => cur
  | a :: l => if opens cur a && !cur.isEmpty then current [a] l else current (cur ++ [a]) l

/-- The groups closed within `l`. -/
def closed (cur : List α) : List α → List (List α)
  | [] => []
  | a :: l => if opens cur a && !cur.isEmpty then cur :: closed [a] l else closed (cur ++ [a]) l

/-- The elements `i` and `j`, `i ≤ j`, of what was grouped are in one
group. -/
def Together (groups : List (List α)) (i j : Nat) : Prop :=
  ∃ gs g gs', groups = gs ++ g :: gs' ∧ gs.flatten.length ≤ i ∧ j < gs.flatten.length + g.length

/-- `x` opens nothing behind `cur`. -/
def Quiet (cur x : List α) : Prop := ∀ x₁ a x₂, x = x₁ ++ a :: x₂ → cur ++ x₁ ≠ [] → opens (cur ++ x₁) a = false

variable {opens} {cur : List α}

theorem groupsFrom_append (x y : List α) :
    groupsFrom opens cur (x ++ y) = closed opens cur x ++ groupsFrom opens (current opens cur x) y := by
  induction x generalizing cur with
  | nil => rfl
  | cons a x ih =>
    rw [List.cons_append, groupsFrom, closed, current]
    split
    · rw [ih, List.cons_append]
    · exact ih

theorem current_append (x y : List α) : current opens cur (x ++ y) = current opens (current opens cur x) y := by
  induction x generalizing cur with
  | nil => rfl
  | cons a x ih =>
    rw [List.cons_append, current, current]
    split
    · exact ih
    · exact ih

/-- Nothing is lost or moved. -/
theorem closed_current (x : List α) : (closed opens cur x).flatten ++ current opens cur x = cur ++ x := by
  induction x generalizing cur with
  | nil => simp [closed, current]
  | cons a x ih =>
    rw [closed, current]
    split
    · rw [List.flatten_cons, List.append_assoc, ih, List.singleton_append]
    · rw [ih, List.append_assoc, List.singleton_append]

theorem current_ne_nil {x : List α} (h : cur ++ x ≠ []) : current opens cur x ≠ [] := by
  induction x generalizing cur with
  | nil => simpa [current] using h
  | cons a x ih =>
    rw [current]
    split
    · exact ih (by simp)
    · exact ih (by simp)

theorem Quiet.of_never {x : List α} (h : ∀ a ∈ x, ∀ c, opens c a = false) (cur : List α) : Quiet opens cur x := by
  intro x₁ a x₂ hx _
  exact h a (by rw [hx]; simp) _

theorem Quiet.singleton {a : α} (h : opens cur a = false) : Quiet opens cur [a] := by
  intro x₁ b x₂ hx _
  cases x₁ with
  | nil =>
    cases hx
    rwa [List.append_nil]
  | cons x x₁ => simp at hx

theorem Quiet.tail {a : α} {x : List α} (h : Quiet opens cur (a :: x)) : Quiet opens (cur ++ [a]) x := by
  intro x₁ b x₂ hx hne
  rw [List.append_assoc] at hne ⊢
  exact h (a :: x₁) b x₂ (by rw [hx, List.cons_append]) hne

theorem Quiet.head {a : α} {x : List α} (h : Quiet opens cur (a :: x)) : (opens cur a && !cur.isEmpty) = false := by
  cases hc : cur with
  | nil => simp
  | cons c cs =>
    have := h [] a x rfl (by simp [hc])
    simp_all

theorem current_quiet {x : List α} (h : Quiet opens cur x) : current opens cur x = cur ++ x := by
  induction x generalizing cur with
  | nil => simp [current]
  | cons a x ih => rw [current, h.head, if_neg Bool.false_ne_true, ih h.tail, List.append_assoc, List.singleton_append]

theorem closed_quiet {x : List α} (h : Quiet opens cur x) : closed opens cur x = [] := by
  induction x generalizing cur with
  | nil => rfl
  | cons a x ih => rw [closed, h.head, if_neg Bool.false_ne_true, ih h.tail]

theorem groupsFrom_quiet {x : List α} (h : Quiet opens cur x) (y : List α) :
    groupsFrom opens cur (x ++ y) = groupsFrom opens (cur ++ x) y := by
  rw [groupsFrom_append, closed_quiet h, current_quiet h, List.nil_append]

theorem groupsFrom_opens {a : α} (hne : cur ≠ []) (h : opens cur a = true) (y : List α) :
    groupsFrom opens cur (a :: y) = cur :: groupsFrom opens [a] y := by
  rw [groupsFrom, h, Bool.true_and, if_pos]
  cases cur with
  | nil => exact absurd rfl hne
  | cons c cs => rfl

theorem groupsFrom_end (hne : cur ≠ []) : groupsFrom opens cur [] = [cur] := by
  cases cur with
  | nil => exact absurd rfl hne
  | cons c cs => rfl

theorem flatten_groupsFrom (l : List α) : (groupsFrom opens cur l).flatten = cur ++ l := by
  induction l generalizing cur with
  | nil =>
    cases cur with
    | nil => rfl
    | cons c cs => simp [groupsFrom]
  | cons a l ih =>
    rw [groupsFrom]
    split
    · rw [List.flatten_cons, ih, List.singleton_append]
    · rw [ih, List.append_assoc, List.singleton_append]

theorem ne_nil_of_mem_groupsFrom {l : List α} : ∀ g ∈ groupsFrom opens cur l, g ≠ [] := by
  induction l generalizing cur with
  | nil =>
    cases cur with
    | nil => simp [groupsFrom]
    | cons c cs => simp [groupsFrom]
  | cons a l ih =>
    rw [groupsFrom]
    split
    · rename_i ho
      simp only [Bool.and_eq_true, Bool.not_eq_true', List.isEmpty_eq_false_iff] at ho
      exact List.forall_mem_cons.mpr ⟨ho.2, ih⟩
    · exact ih

/-- **What holds of every group.** `P` holds of a group that opens and is kept
by the elements that go into the current one. -/
theorem forall_groupsFrom {P : List α → Prop} (hcur : P cur) (hopens : ∀ cur a, opens cur a = true → P [a])
    (hreads : ∀ cur a, P cur → cur = [] ∨ opens cur a = false → P (cur ++ [a])) (l : List α) :
    ∀ g ∈ groupsFrom opens cur l, P g := by
  induction l generalizing cur with
  | nil =>
    rw [groupsFrom]
    split
    · simp
    · simpa using hcur
  | cons a l ih =>
    rw [groupsFrom]
    split
    · rename_i ho
      simp only [Bool.and_eq_true] at ho
      exact List.forall_mem_cons.mpr ⟨hcur, ih (hopens _ _ ho.1)⟩
    · rename_i ho
      refine ih (hreads _ _ hcur ?_)
      cases cur with
      | nil => exact .inl rfl
      | cons c cs => exact .inr (by simpa using ho)

/-- The group that goes on from `cur` begins with it. -/
theorem groupsFrom_head (hne : cur ≠ []) (y : List α) : ∃ b gs, groupsFrom opens cur y = (cur ++ b) :: gs := by
  induction y generalizing cur with
  | nil => exact ⟨[], [], by rw [groupsFrom_end hne, List.append_nil]⟩
  | cons a y ih =>
    rw [groupsFrom]
    split
    · exact ⟨[], _, by rw [List.append_nil]⟩
    · obtain ⟨b, gs, h⟩ := @ih (cur ++ [a]) (by simp)
      exact ⟨a :: b, gs, by rw [h, List.append_assoc, List.singleton_append]⟩

/-- Every group after the first begins with an element that opened it. -/
theorem opens_of_mem_tail (l : List α) :
    ∀ g ∈ (groupsFrom opens cur l).tail, ∃ c a, opens c a = true ∧ g.head? = some a := by
  induction l generalizing cur with
  | nil =>
    rw [groupsFrom]
    split
    · simp
    · simp
  | cons a l ih =>
    rw [groupsFrom]
    split
    · rename_i ho
      simp only [Bool.and_eq_true] at ho
      obtain ⟨b, gs, hgs⟩ : ∃ b gs, groupsFrom opens [a] l = ([a] ++ b) :: gs := groupsFrom_head (by simp) l
      have hrest := @ih [a]
      rw [hgs] at hrest ⊢
      exact List.forall_mem_cons.mpr ⟨⟨cur, a, ho.1, rfl⟩, hrest⟩
    · exact ih

/-- A group that begins between two elements keeps them apart. -/
theorem not_together {xs ys : List (List α)} {i : Nat} (h : i < xs.flatten.length) :
    ¬ Together (xs ++ ys) i xs.flatten.length := by
  rintro ⟨gs, g, gs', he, hi, hj⟩
  rcases List.append_eq_append_iff.mp he with ⟨zs, rfl, hzs⟩ | ⟨zs, rfl, hzs⟩
  · rw [List.flatten_append, List.length_append] at hi
    omega
  · cases zs with
    | nil =>
      rw [List.append_nil] at h
      omega
    | cons z zs =>
      rw [List.cons_append, List.cons.injEq] at hzs
      rw [List.flatten_append, List.flatten_cons, ← hzs.1, List.length_append, List.length_append] at hj
      omega

/-- **Together.** `h` and a later `s`, with nothing between that opens, are
in one group iff `s` does not open one. -/
theorem together_iff {pre mid post : List α} {h s : α} (hmid : Quiet opens (current opens [] (pre ++ [h])) mid) :
    Together (groupsFrom opens [] (pre ++ h :: mid ++ s :: post)) pre.length (pre.length + 1 + mid.length) ↔
      opens (current opens [] (pre ++ h :: mid)) s = false := by
  generalize hC : current opens [] (pre ++ [h]) = C at hmid
  have hall : (closed opens [] (pre ++ [h])).flatten ++ current opens [] (pre ++ [h]) = [] ++ (pre ++ [h]) :=
    closed_current _
  have hne : C ≠ [] := hC ▸ current_ne_nil (by simp)
  have hlist : pre ++ h :: mid ++ s :: post = (pre ++ [h]) ++ (mid ++ s :: post) := by simp
  have hcur : current opens [] (pre ++ h :: mid) = C ++ mid := by
    rw [show pre ++ h :: mid = (pre ++ [h]) ++ mid by simp, current_append, hC, current_quiet hmid]
  rw [hlist, groupsFrom_append, hC, groupsFrom_quiet hmid, hcur]
  rw [hC] at hall
  generalize closed opens [] (pre ++ [h]) = D at hall ⊢
  have hlen := congrArg List.length hall
  have hpos : 0 < C.length := List.length_pos_iff.mpr hne
  simp only [List.length_append, List.length_nil, List.length_singleton] at hlen
  constructor
  · intro htog
    cases ho : opens (C ++ mid) s with
    | false => rfl
    | true =>
      rw [groupsFrom_opens (by simp [hne]) ho] at htog
      have hcut : (D ++ [C ++ mid]).flatten.length = pre.length + 1 + mid.length := by
        simp only [List.flatten_append, List.flatten_cons, List.flatten_nil, List.length_append, List.length_nil]
        omega
      rw [← List.singleton_append, ← List.append_assoc, ← hcut] at htog
      exact absurd htog (not_together (by omega))
  · intro ho
    rw [← List.singleton_append, groupsFrom_quiet (.singleton ho)]
    obtain ⟨b, gs, hb⟩ := groupsFrom_head (show C ++ mid ++ [s] ≠ [] by simp) post
    refine ⟨D, _, gs, by rw [hb], by omega, ?_⟩
    simp only [List.length_append, List.length_singleton]
    omega

end WebPlayer.Core.Segments
