import Mathlib.Data.List.Basic

/-!
# Computations that may fault

`Except ε` as the monad of code whose illegal operations are errors.
`Never e x` says that `x` does not end in the error `e`; it composes over
`>>=` and over loops, whatever else `x` may do. `Ensures e x P` adds what `x`
returns.
-/
namespace WebPlayer.Core

variable {ε α β : Type}

-- Not by `rfl`: `simp` would use it definitionally, and the kernel would then
-- evaluate the tests of the continuation.
@[simp] theorem ok_bind (a : α) (f : α → Except ε β) : (Except.ok a >>= f) = f a := by
  simp only [bind, Except.bind]

@[simp] theorem error_bind (e : ε) (f : α → Except ε β) :
    ((Except.error e : Except ε α) >>= f) = .error e := by
  simp only [bind, Except.bind]

@[simp] theorem pure_eq_ok (a : α) : (pure a : Except ε α) = .ok a := rfl

@[simp] theorem ok_map (f : α → β) (a : α) : Except.map f (Except.ok a : Except ε α) = .ok (f a) := rfl

/-- A computation that returns, taken apart. -/
theorem bind_eq_ok {x : Except ε α} {f : α → Except ε β} {b : β} : (x >>= f) = .ok b ↔ ∃ a, x = .ok a ∧ f a = .ok b := by
  cases x with
  | error e => simp
  | ok a => simp

theorem toOption_eq_some {x : Except ε α} {a : α} : x.toOption = some a ↔ x = .ok a := by
  cases x with
  | error e => exact ⟨nofun, nofun⟩
  | ok b => simp [Except.toOption]

/-- `x` does not end in `e`. -/
def Never (e : ε) (x : Except ε α) : Prop := x ≠ .error e

namespace Never

variable {e : ε}

theorem ok (a : α) : Never e (Except.ok a) := fun h => by cases h

theorem pure (a : α) : Never e (Pure.pure a : Except ε α) := ok a

theorem bind {x : Except ε α} {f : α → Except ε β} (hx : Never e x) (hf : ∀ a, x = .ok a → Never e (f a)) :
    Never e (x >>= f) := by
  cases x with
  | error e' => intro h; exact hx (by cases h; rfl)
  | ok a => exact hf a rfl

theorem map {x : Except ε α} {f : α → β} (hx : Never e x) : Never e (x.map f) := by
  cases x with
  | error e' => intro h; exact hx (by cases h; rfl)
  | ok a => exact ok _

theorem foldlM {f : β → α → Except ε β} {xs : List α} (hf : ∀ b a, a ∈ xs → Never e (f b a)) (b : β) :
    Never e (xs.foldlM f b) := by
  induction xs generalizing b with
  | nil => exact ok b
  | cons x xs ih =>
    exact bind (hf b x List.mem_cons_self) fun b' _ => ih (fun b a ha => hf b a (List.mem_cons_of_mem _ ha)) b'

end Never

/-- `x` does not end in `e`, and what it returns meets `P`. -/
structure Ensures (e : ε) (x : Except ε α) (P : α → Prop) : Prop where
  never : Never e x
  post : ∀ a, x = .ok a → P a

theorem Never.ensures {e : ε} {x : Except ε α} (h : Never e x) : Ensures e x fun _ => True := ⟨h, fun _ _ => trivial⟩

namespace Ensures

variable {e : ε} {P : α → Prop} {Q : β → Prop}

theorem ok {a : α} (h : P a) : Ensures e (Except.ok a) P := ⟨.ok a, fun _ ha => by cases ha; exact h⟩

theorem pure {a : α} (h : P a) : Ensures e (Pure.pure a : Except ε α) P := ok h

theorem bind {x : Except ε α} {f : α → Except ε β} (hx : Ensures e x P)
    (hf : ∀ a, x = .ok a → P a → Ensures e (f a) Q) : Ensures e (x >>= f) Q := by
  refine ⟨.bind hx.never fun a ha => (hf a ha (hx.post a ha)).never, fun b hb => ?_⟩
  obtain ⟨a, ha, hb⟩ := bind_eq_ok.mp hb
  exact (hf a ha (hx.post a ha)).post b hb

theorem map {x : Except ε α} {f : α → β} (hx : Ensures e x P) (hf : ∀ a, P a → Q (f a)) : Ensures e (x.map f) Q := by
  refine ⟨hx.never.map, fun b hb => ?_⟩
  cases x with
  | error e' => cases hb
  | ok a =>
    cases hb
    exact hf a (hx.post a rfl)

end Ensures

end WebPlayer.Core
