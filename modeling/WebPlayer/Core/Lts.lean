import Mathlib.Logic.Relation

/-!
# Labelled transition systems

Runs, reachable states and inductive invariants, over arbitrary states and
labels. `restrict` keeps the steps that meet a side condition; what is
inductive for the restricted system holds in every run all of whose steps
meet the condition.
-/
namespace WebPlayer.Core

structure Lts (S L : Type) where
  init : S → Prop
  step : S → L → S → Prop

namespace Lts

variable {S L : Type}

inductive Run (M : Lts S L) : S → List L → S → Prop where
  | nil (s : S) : Run M s [] s
  | cons {s s₁ s' : S} {l : L} {ls : List L} (h : M.step s l s₁) (t : Run M s₁ ls s') :
      Run M s (l :: ls) s'

def Reachable (M : Lts S L) (s : S) : Prop := ∃ s₀ ls, M.init s₀ ∧ M.Run s₀ ls s

/-- The system of a (partial) transition function. -/
def ofFn (init : S → Prop) (f : S → L → Option S) : Lts S L where
  init := init
  step s l s' := f s l = some s'

/-- The steps of `M` that meet `C` in the state they are taken from. -/
def restrict (M : Lts S L) (C : S → L → Prop) : Lts S L where
  init := M.init
  step s l s' := M.step s l s' ∧ C s l

/-- The steps of `M` that end in a state meeting `P`. -/
def within (M : Lts S L) (P : S → Prop) : Lts S L where
  init := M.init
  step s l s' := M.step s l s' ∧ P s'

structure Inductive (M : Lts S L) (I : S → Prop) : Prop where
  init : ∀ s, M.init s → I s
  step : ∀ s l s', I s → M.step s l s' → I s'

theorem Run.preserves {M : Lts S L} {I : S → Prop} (hstep : ∀ s l s', I s → M.step s l s' → I s')
    {s s' : S} {ls : List L} (h : M.Run s ls s') (hs : I s) : I s' := by
  induction h with
  | nil => exact hs
  | cons h _ ih => exact ih (hstep _ _ _ hs h)

theorem Inductive.reachable {M : Lts S L} {I : S → Prop} (hI : M.Inductive I) {s : S}
    (h : M.Reachable s) : I s := by
  obtain ⟨s₀, ls, h0, hr⟩ := h
  exact hr.preserves hI.step (hI.init s₀ h0)

theorem Run.snoc {M : Lts S L} {s s₁ s' : S} {ls : List L} {l : L} (h : M.Run s ls s₁)
    (hl : M.step s₁ l s') : M.Run s (ls ++ [l]) s' := by
  induction h with
  | nil => exact .cons hl (.nil _)
  | cons h _ ih => exact .cons h (ih hl)

theorem Reachable.step {M : Lts S L} {s s' : S} {l : L} (h : M.Reachable s) (hl : M.step s l s') :
    M.Reachable s' := by
  obtain ⟨s₀, ls, h0, hr⟩ := h
  exact ⟨s₀, ls ++ [l], h0, hr.snoc hl⟩

theorem reachable_init {M : Lts S L} {s : S} (h : M.init s) : M.Reachable s := ⟨s, [], h, .nil s⟩

theorem Run.append {M : Lts S L} {s s₁ s' : S} {ls ls' : List L} (h : M.Run s ls s₁)
    (h' : M.Run s₁ ls' s') : M.Run s (ls ++ ls') s' := by
  induction h with
  | nil => exact h'
  | cons h _ ih => exact .cons h (ih h')

theorem Run.of_restrict {M : Lts S L} {C : S → L → Prop} {s s' : S} {ls : List L} (h : (M.restrict C).Run s ls s') :
    M.Run s ls s' := by
  induction h with
  | nil => exact .nil _
  | cons h _ ih => exact .cons h.1 ih

/-- `f` where `C` holds. -/
def guarded (C : S → L → Prop) [∀ s l, Decidable (C s l)] (f : S → L → Option S) (s : S) (l : L) : Option S :=
  if C s l then f s l else none

/-- A run of a transition function, computed. -/
theorem run_guarded {init : S → Prop} {f : S → L → Option S} {C : S → L → Prop} [∀ s l, Decidable (C s l)] {ls : List L}
    {s s' : S} (h : ls.foldlM (guarded C f) s = some s') : ((ofFn init f).restrict C).Run s ls s' := by
  induction ls generalizing s with
  | nil =>
    cases h
    exact .nil _
  | cons l ls ih =>
    obtain ⟨s₁, hl, hls⟩ := Option.bind_eq_some_iff.mp h
    unfold guarded at hl
    split at hl
    · rename_i hC
      exact .cons ⟨hl, hC⟩ (ih hls)
    · cases hl

/-- The same where the condition is on the labels alone. -/
theorem run_foldlM {init : S → Prop} {f : S → L → Option S} {C : S → L → Prop} {ls : List L} {s s' : S}
    (h : ls.foldlM f s = some s') (hC : ∀ l, l ∈ ls → ∀ s, C s l) : ((ofFn init f).restrict C).Run s ls s' := by
  induction ls generalizing s with
  | nil =>
    cases h
    exact .nil _
  | cons l ls ih =>
    obtain ⟨s₁, hl, hls⟩ := Option.bind_eq_some_iff.mp h
    exact .cons ⟨hl, hC l List.mem_cons_self s⟩ (ih hls fun l' hl' => hC l' (List.mem_cons_of_mem l hl'))

/-- Without a condition. -/
theorem run_ofFn {init : S → Prop} {f : S → L → Option S} {ls : List L} {s s' : S} (h : ls.foldlM f s = some s') :
    (ofFn init f).Run s ls s' := by
  have hrun : ((ofFn init f).restrict fun _ _ => True).Run s ls s' := run_foldlM h fun _ _ _ => trivial
  exact hrun.of_restrict

/-- **Runs that keep a property.** Where `J` carries the run and a step from
`J` keeps `P` exactly when it meets `C`, the runs all of whose states meet `P`
are the runs all of whose steps meet `C`. -/
theorem run_within_iff {M : Lts S L} {J P : S → Prop} {C : S → L → Prop}
    (hiff : ∀ s l s', J s → M.step s l s' → (P s' ↔ C s l))
    (hstep : ∀ s l s', J s → M.step s l s' → C s l → J s') {s s' : S} {ls : List L} (hs : J s) :
    (M.within P).Run s ls s' ↔ (M.restrict C).Run s ls s' := by
  constructor
  · intro h
    induction h with
    | nil => exact .nil _
    | cons h _ ih =>
      have hC := (hiff _ _ _ hs h.1).mp h.2
      exact .cons ⟨h.1, hC⟩ (ih (hstep _ _ _ hs h.1 hC))
  · intro h
    induction h with
    | nil => exact .nil _
    | cons h _ ih => exact .cons ⟨h.1, (hiff _ _ _ hs h.1).mpr h.2⟩ (ih (hstep _ _ _ hs h.1 h.2))

/-- **Two side conditions.** Where `J` carries the run and `C` and `D` are the
same for the steps from `J`, the runs are the same. -/
theorem run_restrict_congr {M : Lts S L} {J : S → Prop} {C D : S → L → Prop}
    (hiff : ∀ s l s', J s → M.step s l s' → (C s l ↔ D s l))
    (hstep : ∀ s l s', J s → M.step s l s' → D s l → J s') {s s' : S} {ls : List L} (hs : J s) :
    (M.restrict C).Run s ls s' ↔ (M.restrict D).Run s ls s' := by
  constructor
  · intro h
    induction h with
    | nil => exact .nil _
    | cons h _ ih =>
      have hD := (hiff _ _ _ hs h.1).mp h.2
      exact .cons ⟨h.1, hD⟩ (ih (hstep _ _ _ hs h.1 hD))
  · intro h
    induction h with
    | nil => exact .nil _
    | cons h _ ih => exact .cons ⟨h.1, (hiff _ _ _ hs h.1).mpr h.2⟩ (ih (hstep _ _ _ hs h.1 h.2))

end Lts

end WebPlayer.Core
