import Mathlib.Data.List.Perm.Basic

/-!
# Resources that are taken and given back

Resources are numbered as they are taken, and a number is not used again. A
ledger has those that are live and counts what went wrong: a use or a return
of one that is not live. A handle is a resource or null.

`Holds L ps` says what a program owns: nothing went wrong, and what is live is
`ps`, each once. Each operation takes ownership to ownership.

* `Holds.take`, `Holds.use`, `Holds.drop`: one resource.
* `Holds.takeIf`, `Holds.useOpt`, `Holds.dropOpt`: the same for handles.
-/
namespace WebPlayer.Core

structure Ledger where
  live : List Nat := []
  made : Nat := 0
  faults : Nat := 0
  deriving DecidableEq, Repr

namespace Ledger

def take (L : Ledger) : Ledger := { L with live := L.made :: L.live, made := L.made + 1 }

def use (L : Ledger) (p : Nat) : Ledger := if p ∈ L.live then L else { L with faults := L.faults + 1 }

def drop (L : Ledger) (p : Nat) : Ledger :=
  if p ∈ L.live then { L with live := L.live.erase p } else { L with faults := L.faults + 1 }

/-- An allocation that may fail. -/
def takeIf (L : Ledger) (ok : Bool) : Option Nat × Ledger := if ok then (some L.made, L.take) else (none, L)

@[simp] theorem takeIf_true (L : Ledger) : L.takeIf true = (some L.made, L.take) := rfl

@[simp] theorem takeIf_false (L : Ledger) : L.takeIf false = (none, L) := rfl

/-- Following a handle: null is a fault. -/
def useOpt (L : Ledger) : Option Nat → Ledger
  | some p => L.use p
  | none => { L with faults := L.faults + 1 }

/-- Giving a handle back: null is nothing. -/
def dropOpt (L : Ledger) : Option Nat → Ledger
  | some p => L.drop p
  | none => L

/-- Nothing went wrong, and what is live is `ps`. -/
structure Holds (L : Ledger) (ps : List Nat) : Prop where
  faults : L.faults = 0
  live : L.live.Perm ps
  nodup : ps.Nodup
  made : ∀ p ∈ ps, p < L.made

theorem holds_empty : Holds {} [] := ⟨rfl, List.Perm.refl _, List.nodup_nil, List.forall_mem_nil _⟩

namespace Holds

variable {L : Ledger} {p : Nat} {ps qs : List Nat}

theorem perm (h : Holds L ps) (hqs : ps.Perm qs) : Holds L qs :=
  ⟨h.faults, h.live.trans hqs, hqs.nodup_iff.mp h.nodup, fun p hp => h.made p (hqs.mem_iff.mpr hp)⟩

theorem mem_live (h : Holds L ps) (hp : p ∈ ps) : p ∈ L.live := h.live.mem_iff.mpr hp

theorem take (h : Holds L ps) : Holds L.take (L.made :: ps) where
  faults := h.faults
  live := h.live.cons _
  nodup := List.nodup_cons.mpr ⟨fun hmem => Nat.lt_irrefl _ (h.made _ hmem), h.nodup⟩
  made q hq := by
    rcases List.mem_cons.mp hq with rfl | hq
    · exact Nat.lt_succ_self _
    · exact Nat.lt_succ_of_lt (h.made q hq)

/-- Using what is owned changes nothing. -/
theorem use (h : Holds L ps) (hp : p ∈ ps) : L.use p = L := if_pos (h.mem_live hp)

theorem drop (h : Holds L (p :: ps)) : Holds (L.drop p) ps := by
  rw [Ledger.drop, if_pos (h.mem_live List.mem_cons_self)]
  refine ⟨h.faults, ?_, (List.nodup_cons.mp h.nodup).2, fun q hq => h.made q (List.mem_cons_of_mem p hq)⟩
  have herase := h.live.erase p
  rwa [List.erase_cons_head] at herase

theorem useOpt {q : Option Nat} (h : Holds L ps) (hq : q = some p) (hp : p ∈ ps) : L.useOpt q = L := by
  rw [hq]
  exact h.use hp

theorem dropOpt {q : Option Nat} (h : Holds L (q.toList ++ ps)) : Holds (L.dropOpt q) ps := by
  cases q with
  | none => exact h
  | some p => exact h.drop

theorem takeIf (h : Holds L ps) (ok : Bool) : Holds (L.takeIf ok).2 ((L.takeIf ok).1.toList ++ ps) := by
  cases ok with
  | false => exact h
  | true => exact h.take

/-- The same at any place in the list. -/
theorem dropOpt_at {q : Option Nat} (h : Holds L (ps ++ (q.toList ++ qs))) : Holds (L.dropOpt q) (ps ++ qs) :=
  (h.perm (List.perm_append_comm_assoc ..)).dropOpt

theorem takeIf_at (h : Holds L (ps ++ qs)) (ok : Bool) :
    Holds (L.takeIf ok).2 (ps ++ ((L.takeIf ok).1.toList ++ qs)) :=
  (h.takeIf ok).perm (List.perm_append_comm_assoc ..)

end Holds

end Ledger

end WebPlayer.Core
