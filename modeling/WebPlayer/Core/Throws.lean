import Mathlib.Logic.Basic

/-!
# Programs that may throw

A method works on a state and returns or throws; what it did to the state
before it threw stays done. `tryFinally` runs its second part on both ways
out.

`Keeps I m`: `m` takes states that meet `I` to such states, on both ways out.
`Throws.bracket` takes something, uses it and gives it back; `Keeps.bracket`
is its rule: the body may rely on what was taken.
-/
namespace WebPlayer.Core

abbrev Throws (ε σ : Type) : Type → Type := ExceptT ε (StateM σ)

variable {ε σ α β : Type}

namespace Throws

theorem run_modifyGet (f : σ → α × σ) (s : σ) : (modifyGet f : Throws ε σ α) s = (.ok (f s).1, (f s).2) := rfl

theorem run_bind (m : Throws ε σ α) (f : α → Throws ε σ β) (s : σ) : (m >>= f) s =
    match m s with
    | (.ok a, s) => f a s
    | (.error e, s) => (.error e, s) := by
  show (match m s with | (r, s') => ExceptT.bindCont f r s') = _
  rcases m s with ⟨r, s'⟩
  cases r <;> rfl

theorem run_tryFinally (m : Throws ε σ α) (f : Throws ε σ β) (s : σ) : (tryFinally m f : Throws ε σ α) s =
    match m s with
    | (r, s) =>
      match f s with
      | (.ok _, s) => (r, s)
      | (.error e, s) => (.error e, s) := by
  simp only [tryFinally, MonadFinally.tryFinally', ExceptT.mk, Functor.map, ExceptT.map, StateT.bind, bind, pure]
  rcases m s with ⟨r, s'⟩
  cases r with
  | ok a =>
    simp only
    rcases f s' with ⟨r', s''⟩
    cases r' <;> rfl
  | error e =>
    simp only
    rcases f s' with ⟨r', s''⟩
    cases r' <;> rfl

/-- What `take` gives is used by `body` and given back by `drop`, also when
`body` throws. Without it there is `fail`. -/
def bracket (take : σ → Option α × σ) (fail : Throws ε σ β) (drop : α → σ → σ) (body : α → Throws ε σ β) : Throws ε σ β := do
  match ← modifyGet take with
  | none => fail
  | some a => tryFinally (body a) (modify (drop a) : Throws ε σ Unit)

end Throws

/-! ## What is kept -/

def Keeps (I : σ → Prop) (m : Throws ε σ α) : Prop := ∀ s, I s → I (m s).2

namespace Keeps

variable {I : σ → Prop}

theorem pure (a : α) : Keeps I (Pure.pure a : Throws ε σ α) := fun _ hs => hs

theorem throw (e : ε) : Keeps I (MonadExcept.throw e : Throws ε σ α) := fun _ hs => hs

theorem get : Keeps I (MonadState.get : Throws ε σ σ) := fun _ hs => hs

theorem modifyGet {f : σ → α × σ} (hf : ∀ s, I s → I (f s).2) : Keeps I (MonadStateOf.modifyGet f : Throws ε σ α) :=
  fun s hs => hf s hs

/-- As long as the first part runs, `I` holds. -/
theorem bind_to {K : σ → Prop} {m : Throws ε σ α} {f : α → Throws ε σ β} (hm : Keeps I m) (hf : ∀ a s, I s → K (f a s).2)
    (hK : ∀ s, I s → K s) {s : σ} (hs : I s) : K ((m >>= f) s).2 := by
  have hkept := hm s hs
  rw [Throws.run_bind]
  revert hkept
  rcases m s with ⟨r, s'⟩
  intro hkept
  cases r with
  | ok a => exact hf a s' hkept
  | error e => exact hK s' hkept

theorem bind {m : Throws ε σ α} {f : α → Throws ε σ β} (hm : Keeps I m) (hf : ∀ a, Keeps I (f a)) : Keeps I (m >>= f) :=
  fun _ hs => hm.bind_to hf (fun _ hs => hs) hs

/-- What was read of the state is known of it. -/
theorem get_bind {f : σ → Throws ε σ α} (hf : ∀ s, I s → Keeps I (f s)) : Keeps I (MonadState.get >>= f) := fun s hs => hf s hs s hs

theorem ite {c : Prop} [Decidable c] {m m' : Throws ε σ α} (hm : Keeps I m) (hm' : Keeps I m') :
    Keeps I (if c then m else m') := by
  split
  · exact hm
  · exact hm'

theorem tryFinally {J : σ → Prop} {m : Throws ε σ α} {f : Throws ε σ β} (hm : Keeps J m) (hf : ∀ s, J s → I (f s).2) {s : σ}
    (hs : J s) : I ((tryFinally m f : Throws ε σ α) s).2 := by
  have hkept := hf _ (hm s hs)
  rw [Throws.run_tryFinally]
  rcases hm' : m s with ⟨r, s'⟩
  rw [hm'] at hkept
  simp only
  rcases hf' : f s' with ⟨r', s''⟩
  rw [hf'] at hkept
  cases r' <;> exact hkept

/-- **The rule of a bracket.** While the body runs, `J a` holds. -/
theorem bracket {J : α → σ → Prop} {take : σ → Option α × σ} {fail : Throws ε σ β} {drop : α → σ → σ}
    {body : α → Throws ε σ β} (hnone : ∀ s s', I s → take s = (none, s') → I s')
    (hsome : ∀ s a s', I s → take s = (some a, s') → J a s') (hfail : Keeps I fail) (hbody : ∀ a, Keeps (J a) (body a)) (hdrop : ∀ a s, J a s → I (drop a s)) :
    Keeps I (Throws.bracket take fail drop body) := by
  intro s hs
  rw [Throws.bracket, Throws.run_bind, Throws.run_modifyGet]
  rcases htake : take s with ⟨a, s'⟩
  cases a with
  | none => exact hfail s' (hnone s s' hs htake)
  | some a => exact tryFinally (hbody a) (hdrop a) (hsome s a s' hs htake)

end Keeps

end WebPlayer.Core
