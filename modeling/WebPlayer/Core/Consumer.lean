import Mathlib.Data.List.Basic

/-!
# Incremental consumers

A consumer asks for a number of inputs, absorbs them one by one, and then
emits or has stopped. It asks for exactly what it needs: part of a request
leaves the rest of the request. What it can still emit is bounded by what it
has absorbed, so a read loop ends.

* `advance_pull`: a request may be served at once or in parts.
* `drain_enough`: the read loop ends by itself.
* `drain_append`: draining `a ++ b` is draining `a` and then `b`.
-/
namespace WebPlayer.Core

structure Consumer (σ β α : Type) where
  /-- 0: it asks for nothing. -/
  want : σ → Nat
  absorb : σ → β → σ
  /-- In a state that asks for nothing; `none`: stopped. -/
  emit : σ → Option (α × σ)
  /-- How much has been absorbed and not emitted, at most. -/
  rank : σ → Nat
  exact : ∀ {s n} (b : β), want s = n + 2 → want (absorb s b) = n + 1
  rank_absorb : ∀ s b, rank (absorb s b) ≤ rank s + 1
  rank_emit : ∀ {s a s'}, emit s = some (a, s') → rank s' < rank s

namespace Consumer

/-- What a read loop emitted, the state and the inputs left. -/
structure Drained (σ β α : Type) where
  outs : List α
  state : σ
  rest : List β

variable {σ β α : Type} (C : Consumer σ β α)

/-- Absorb while asking. -/
def advance : σ → List β → σ × List β
  | s, [] => (s, [])
  | s, b :: bs => if C.want s = 0 then (s, b :: bs) else advance (C.absorb s b) bs

/-- Advance and emit until starved or stopped. -/
def drainN : Nat → σ → List β → Drained σ β α
  | 0, s, bs => ⟨[], s, bs⟩
  | fuel + 1, s, bs =>
    let r := C.advance s bs
    if C.want r.1 ≠ 0 then ⟨[], r.1, r.2⟩
    else
      match C.emit r.1 with
      | none => ⟨[], r.1, r.2⟩
      | some (a, s') =>
        let d := drainN fuel s' r.2
        { d with outs := a :: d.outs }

def drain (s : σ) (bs : List β) : Drained σ β α := C.drainN (C.rank s + bs.length + 1) s bs

variable {C}

/-! ## Advancing -/

theorem advance_idle {s : σ} (h : C.want s = 0) (bs : List β) : C.advance s bs = (s, bs) := by
  cases bs with
  | nil => rfl
  | cons b bs => rw [advance, if_pos h]

/-- A consumer that still asks has taken everything. -/
theorem advance_starved {s : σ} {bs : List β} (h : C.want (C.advance s bs).1 ≠ 0) : (C.advance s bs).2 = [] := by
  induction bs generalizing s with
  | nil => rfl
  | cons b bs ih =>
    rw [advance] at h ⊢
    split at h
    · rename_i h0
      exact absurd h0 h
    · rename_i h0
      rw [if_neg h0]
      exact ih h

theorem advance_append (s : σ) (a b : List β) : C.advance s (a ++ b) =
    if C.want (C.advance s a).1 = 0 then ((C.advance s a).1, (C.advance s a).2 ++ b)
    else C.advance (C.advance s a).1 b := by
  induction a generalizing s with
  | nil =>
    change C.advance s b = if C.want s = 0 then (s, b) else C.advance s b
    by_cases h0 : C.want s = 0
    · rw [if_pos h0, advance_idle h0]
    · rw [if_neg h0]
  | cons x a ih =>
    rw [List.cons_append, advance, advance]
    by_cases h0 : C.want s = 0
    · simp only [if_pos h0, List.cons_append]
    · simp only [if_neg h0]
      exact ih (C.absorb s x)

/-- **Requests.** What a request is served with may be any part of it. -/
theorem advance_pull {s : σ} (bs : List β) {k : Nat} (hk : k ≤ C.want s) :
    C.advance s bs = C.advance ((bs.take k).foldl C.absorb s) (bs.drop k) := by
  induction bs generalizing s k with
  | nil => simp [advance]
  | cons b bs ih =>
    cases k with
    | zero => rfl
    | succ k =>
      have h0 : C.want s ≠ 0 := by omega
      rw [advance, if_neg h0, List.take_succ_cons, List.drop_succ_cons, List.foldl_cons]
      apply ih
      -- the rest of the request
      cases k with
      | zero => exact Nat.zero_le _
      | succ k =>
        obtain ⟨n, hn⟩ : ∃ n, C.want s = n + 2 := ⟨C.want s - 2, by omega⟩
        rw [C.exact b hn]
        omega

theorem advance_idem (s : σ) (bs : List β) :
    C.advance (C.advance s bs).1 (C.advance s bs).2 = C.advance s bs := by
  by_cases h : C.want (C.advance s bs).1 = 0
  · exact advance_idle h _
  · rw [advance_starved h]
    exact Prod.ext rfl (advance_starved h).symm

theorem advance_rank (s : σ) (bs : List β) :
    C.rank (C.advance s bs).1 + (C.advance s bs).2.length ≤ C.rank s + bs.length := by
  induction bs generalizing s with
  | nil => exact Nat.le_refl _
  | cons b bs ih =>
    rw [advance]
    split
    · exact Nat.le_refl _
    · have h := ih (C.absorb s b)
      have := C.rank_absorb s b
      rw [List.length_cons]
      omega

/-! ## Draining -/

/-- What is left to do decreases. -/
theorem emit_lt {s t : σ} {bs : List β} {a : α} (h : C.emit (C.advance s bs).1 = some (a, t)) :
    C.rank t + (C.advance s bs).2.length < C.rank s + bs.length := by
  have h₁ := C.rank_emit h
  have h₂ := C.advance_rank s bs
  omega

/-- **The read loop ends by itself.** -/
theorem drain_enough {n : Nat} {s : σ} {bs : List β} (hn : C.rank s + bs.length < n) :
    C.drainN n s bs = C.drain s bs := by
  suffices H : ∀ n m s bs, C.rank s + bs.length < n → C.rank s + bs.length < m → C.drainN n s bs = C.drainN m s bs from
    H n _ s bs hn (Nat.lt_succ_self _)
  intro n
  induction n with
  | zero =>
    intro m s bs hn
    omega
  | succ n ih =>
    intro m s bs hn hm
    cases m with
    | zero => omega
    | succ m =>
      simp only [drainN]
      split
      · rfl
      · cases he : C.emit (C.advance s bs).1 with
        | none => rfl
        | some as =>
          have hlt := emit_lt (a := as.1) (t := as.2) he
          simp only [ih m as.2 (C.advance s bs).2 (by omega) (by omega)]

section
variable {s : σ} {bs : List β}

theorem drain_starved (h : C.want (C.advance s bs).1 ≠ 0) : C.drain s bs = ⟨[], (C.advance s bs).1, []⟩ := by
  rw [drain, drainN, if_pos h, advance_starved h]

theorem drain_stopped (h : C.want (C.advance s bs).1 = 0) (he : C.emit (C.advance s bs).1 = none) :
    C.drain s bs = ⟨[], (C.advance s bs).1, (C.advance s bs).2⟩ := by
  rw [drain, drainN, if_neg (not_not.mpr h), he]

theorem drain_emit {a : α} {s' : σ} (h : C.want (C.advance s bs).1 = 0)
    (he : C.emit (C.advance s bs).1 = some (a, s')) : C.drain s bs =
      { C.drain s' (C.advance s bs).2 with outs := a :: (C.drain s' (C.advance s bs).2).outs } := by
  have hlt := emit_lt he
  rw [drain, drainN, if_neg (not_not.mpr h), he]
  simp only [drain_enough hlt]

end

theorem drain_advance (s : σ) (bs : List β) :
    C.drain (C.advance s bs).1 (C.advance s bs).2 = C.drain s bs := by
  have hidem := C.advance_idem s bs
  by_cases h : C.want (C.advance s bs).1 = 0
  · cases he : C.emit (C.advance s bs).1 with
    | none => rw [drain_stopped (by rw [hidem]; exact h) (by rw [hidem]; exact he), hidem, drain_stopped h he]
    | some as => rw [drain_emit (by rw [hidem]; exact h) (by rw [hidem]; exact he), hidem, drain_emit h he]
  · rw [drain_starved (by rw [hidem]; exact h), hidem, drain_starved h]

/-- **Chunks.** A loop that starves on `a` goes on with `b`; one that has
stopped leaves `b` behind. -/
theorem drain_append (s : σ) (a b : List β) : C.drain s (a ++ b) =
    if C.want (C.drain s a).state = 0 then { C.drain s a with rest := (C.drain s a).rest ++ b }
    else { C.drain (C.drain s a).state b with outs := (C.drain s a).outs ++ (C.drain (C.drain s a).state b).outs } := by
  induction hn : C.rank s + a.length using Nat.strongRecOn generalizing s a with
  | _ n ih =>
    have happ := C.advance_append s a b
    by_cases h0 : C.want (C.advance s a).1 = 0
    · rw [if_pos h0] at happ
      cases he : C.emit (C.advance s a).1 with
      | none =>
        rw [drain_stopped h0 he, if_pos h0, drain_stopped (by rw [happ]; exact h0) (by rw [happ]; exact he), happ]
      | some as =>
        have hlt := emit_lt (a := as.1) (t := as.2) he
        rw [drain_emit h0 he, drain_emit (by rw [happ]; exact h0) (by rw [happ]; exact he), happ]
        simp only
        rw [ih _ (hn ▸ hlt) as.2 (C.advance s a).2 rfl]
        split
        · rfl
        · rfl
    · rw [if_neg h0] at happ
      rw [← drain_advance s (a ++ b), happ, drain_advance, drain_starved h0, if_neg h0]
      rfl

end Consumer

end WebPlayer.Core
