import Mathlib.Data.List.Basic

/-!
# Buffer-and-erase loops

A parser takes a frame off the front of a buffer, asks for more input, or
throws; a loop hands each frame to a handler and erases it, until the buffer
is empty, the parser wants more, or the handler halts the loop. A parser
carries its laws: a frame takes at least one element and no more than there
are, and is read the same whatever follows it.

* `drain_enough`: the loop ends by itself.
* `drain_append`: draining `a ++ b` is draining `a` and then what is left
  with `b` behind it.
* `threw_iff`: the loop throws iff the parser does at some loop head.
-/
namespace WebPlayer.Core.Framing

structure Parser (β α ε : Type) where
  parse : List β → Except ε (Option (α × Nat))
  pos : ∀ {b a k}, parse b = .ok (some (a, k)) → 0 < k
  le : ∀ {b a k}, parse b = .ok (some (a, k)) → k ≤ b.length
  stable : ∀ {b a k} (t : List β), parse b = .ok (some (a, k)) → parse (b ++ t) = .ok (some (a, k))

/-- How a loop ends. -/
inductive Ending (ε : Type) where
  | starved
  | halted
  | threw (e : ε)
  deriving DecidableEq, Repr

structure Drained (σ β ω ε : Type) where
  state : σ
  rest : List β
  outs : List ω
  ending : Ending ε

/-- What was put out before the loop went on. -/
def Drained.after {σ β ω ε : Type} (outs : List ω) (r : Drained σ β ω ε) : Drained σ β ω ε :=
  { r with outs := outs ++ r.outs }

namespace Parser

variable {β α σ ω ε : Type} (P : Parser β α ε) (handle : σ → α → σ × List ω × Bool)

/-- At most `fuel` iterations; `handle` also says whether to halt. -/
def drainN : Nat → σ → List β → Drained σ β ω ε
  | 0, s, buf => ⟨s, buf, [], .starved⟩
  | fuel + 1, s, buf =>
    if buf.isEmpty then ⟨s, buf, [], .starved⟩
    else
      match P.parse buf with
      | .error e => ⟨s, buf, [], .threw e⟩
      | .ok none => ⟨s, buf, [], .starved⟩
      | .ok (some (a, k)) =>
        let h := handle s a
        if h.2.2 then ⟨h.1, buf.drop k, h.2.1, .halted⟩
        else (drainN fuel h.1 (buf.drop k)).after h.2.1

/-- The loop. Each iteration erases an element, so this is enough fuel. -/
def drain (s : σ) (buf : List β) : Drained σ β ω ε := P.drainN handle buf.length s buf

/-- `Head s buf s₁ b`: the loop over `buf` from `s` comes to a loop head
with `s₁` and `b`. -/
inductive Head : σ → List β → σ → List β → Prop where
  | start (s : σ) (buf : List β) : Head s buf s buf
  | next {s s₁ : σ} {buf b : List β} {a : α} {k : Nat} (hne : buf ≠ [])
      (hp : P.parse buf = .ok (some (a, k))) (hgo : (handle s a).2.2 = false)
      (h : Head (handle s a).1 (buf.drop k) s₁ b) : Head s buf s₁ b

variable {P handle}

theorem length_drop_lt {b : List β} {a : α} {k : Nat} (hp : P.parse b = .ok (some (a, k))) :
    (b.drop k).length < b.length := by
  have hpos := P.pos hp
  have hle := P.le hp
  rw [List.length_drop]
  omega

/-- A buffer is drained by what the frames leave of it. -/
theorem frames_induction {motive : List β → Prop} (buf : List β)
    (h : ∀ buf, (∀ a k, P.parse buf = .ok (some (a, k)) → motive (buf.drop k)) → motive buf) : motive buf := by
  suffices H : ∀ n (buf : List β), buf.length ≤ n → motive buf from H _ buf (Nat.le_refl _)
  intro n
  induction n with
  | zero =>
    intro buf hn
    refine h buf fun a k hp => ?_
    have := length_drop_lt hp
    omega
  | succ n ih =>
    intro buf hn
    refine h buf fun a k hp => ih _ ?_
    have := length_drop_lt hp
    omega

/-- **The loop ends by itself**: more fuel than elements changes nothing. -/
theorem drain_enough {n : Nat} {buf : List β} (hn : buf.length ≤ n) (s : σ) :
    P.drainN handle n s buf = P.drain handle s buf := by
  suffices H : ∀ n m (buf : List β) (s : σ), buf.length ≤ n → buf.length ≤ m →
      P.drainN handle n s buf = P.drainN handle m s buf from H n _ buf s hn (Nat.le_refl _)
  intro n
  induction n with
  | zero =>
    intro m buf s hn hm
    rw [List.length_eq_zero_iff.mp (Nat.le_zero.mp hn)]
    cases m <;> rfl
  | succ n ih =>
    intro m buf s hn hm
    cases m with
    | zero =>
      rw [List.length_eq_zero_iff.mp (Nat.le_zero.mp hm)]
      rfl
    | succ m =>
      simp only [drainN]
      cases hp : P.parse buf with
      | error e => rfl
      | ok o =>
        cases o with
        | none => rfl
        | some ak =>
          have hlt := length_drop_lt (a := ak.1) (k := ak.2) hp
          simp only [ih m (buf.drop ak.2) (handle s ak.1).1 (by omega) (by omega)]

/-- One iteration. -/
theorem drain_eq (s : σ) {buf : List β} (hne : buf ≠ []) : P.drain handle s buf =
    match P.parse buf with
    | .error e => ⟨s, buf, [], .threw e⟩
    | .ok none => ⟨s, buf, [], .starved⟩
    | .ok (some (a, k)) =>
      if (handle s a).2.2 then ⟨(handle s a).1, buf.drop k, (handle s a).2.1, .halted⟩
      else (P.drain handle (handle s a).1 (buf.drop k)).after (handle s a).2.1 := by
  have hpos : 0 < buf.length := List.length_pos_iff.mpr hne
  obtain ⟨n, hn⟩ : ∃ n, buf.length = n + 1 := ⟨buf.length - 1, by omega⟩
  have hemp : buf.isEmpty = false := by cases buf with
    | nil => exact absurd rfl hne
    | cons x xs => rfl
  rw [drain, hn, drainN, hemp]
  simp only [Bool.false_eq_true, if_false]
  cases hp : P.parse buf with
  | error e => rfl
  | ok o =>
    cases o with
    | none => rfl
    | some ak =>
      have hlt := length_drop_lt (a := ak.1) (k := ak.2) hp
      simp only [drain_enough (show (buf.drop ak.2).length ≤ n by omega)]

section
variable {s : σ} {buf : List β} (hne : buf ≠ [])
include hne

theorem drain_error {e : ε} (hp : P.parse buf = .error e) :
    P.drain handle s buf = ⟨s, buf, [], .threw e⟩ := by
  rw [drain_eq s hne, hp]

theorem drain_none (hp : P.parse buf = .ok none) : P.drain handle s buf = ⟨s, buf, [], .starved⟩ := by
  rw [drain_eq s hne, hp]

theorem drain_halt {a : α} {k : Nat} (hp : P.parse buf = .ok (some (a, k))) (hh : (handle s a).2.2 = true) :
    P.drain handle s buf = ⟨(handle s a).1, buf.drop k, (handle s a).2.1, .halted⟩ := by
  rw [drain_eq s hne, hp]
  simp only [hh, if_true]

theorem drain_go {a : α} {k : Nat} (hp : P.parse buf = .ok (some (a, k))) (hh : (handle s a).2.2 = false) :
    P.drain handle s buf =
      (P.drain handle (handle s a).1 (buf.drop k)).after (handle s a).2.1 := by
  rw [drain_eq s hne, hp]
  simp only [hh, Bool.false_eq_true, if_false]

end

theorem after_after (o₁ o₂ : List ω) (r : Drained σ β ω ε) : (r.after o₂).after o₁ = r.after (o₁ ++ o₂) := by
  simp only [Drained.after, List.append_assoc]

/-- **Chunks.** A loop that starves on `a` goes on with `b` as the loop over
`a ++ b` does; one that halts leaves `b` behind. -/
theorem drain_append (s : σ) (a b : List β) :
    (((P.drain handle s a).ending = .starved → P.drain handle s (a ++ b) =
      (P.drain handle (P.drain handle s a).state ((P.drain handle s a).rest ++ b)).after (P.drain handle s a).outs)) ∧
    ((P.drain handle s a).ending = .halted → P.drain handle s (a ++ b) =
      { P.drain handle s a with rest := (P.drain handle s a).rest ++ b }) := by
  induction a using frames_induction (P := P) generalizing s with
  | h a ih =>
    by_cases hne : a = []
    · subst hne
      exact ⟨fun _ => rfl, nofun⟩
    have hne' : a ++ b ≠ [] := by simp [hne]
    cases hp : P.parse a with
    | error e =>
      rw [drain_error hne hp]
      exact ⟨nofun, nofun⟩
    | ok o =>
      cases o with
      | none =>
        rw [drain_none hne hp]
        exact ⟨fun _ => rfl, nofun⟩
      | some fk =>
        obtain ⟨f, k⟩ := fk
        have hp' := P.stable b hp
        have hdrop : (a ++ b).drop k = a.drop k ++ b := List.drop_append_of_le_length (P.le hp)
        cases hh : (handle s f).2.2 with
        | true =>
          rw [drain_halt hne hp hh, drain_halt hne' hp' hh, hdrop]
          exact ⟨nofun, fun _ => rfl⟩
        | false =>
          obtain ⟨ih1, ih2⟩ := ih f k hp (handle s f).1
          rw [drain_go hne hp hh, drain_go hne' hp' hh, hdrop]
          refine ⟨fun he => ?_, fun he => ?_⟩
          · rw [ih1 he, after_after]; rfl
          · rw [ih2 he]; rfl

/-- A handler that acts through `π` drains as the one it acts by. -/
theorem drain_map {τ : Type} {handle' : τ → α → τ × List ω × Bool} (π : σ → τ)
    (h : ∀ s a, (π (handle s a).1, (handle s a).2) = handle' (π s) a) (s : σ) (buf : List β) :
    P.drain handle' (π s) buf =
      ⟨π (P.drain handle s buf).state, (P.drain handle s buf).rest, (P.drain handle s buf).outs,
        (P.drain handle s buf).ending⟩ := by
  induction buf using frames_induction (P := P) generalizing s with
  | h buf ih =>
    by_cases hne : buf = []
    · subst hne
      rfl
    cases hp : P.parse buf with
    | error e => rw [drain_error hne hp, drain_error hne hp]
    | ok o =>
      cases o with
      | none => rw [drain_none hne hp, drain_none hne hp]
      | some fk =>
        have hfk := h s fk.1
        cases hh : (handle s fk.1).2.2 with
        | true =>
          rw [drain_halt hne hp hh, drain_halt hne hp (by rw [← hfk]; exact hh), ← hfk]
        | false =>
          rw [drain_go hne hp hh, drain_go hne hp (by rw [← hfk]; exact hh), ← hfk, ih fk.1 fk.2 hp]
          rfl

/-- A relation that holds of each call of the handler and composes holds of
the loop. -/
theorem drain_rel {R : σ → List ω → σ → Prop} (hnil : ∀ s, R s [] s)
    (hstep : ∀ s a, R s (handle s a).2.1 (handle s a).1)
    (htrans : ∀ s₁ s₂ s₃ o₁ o₂, R s₁ o₁ s₂ → R s₂ o₂ s₃ → R s₁ (o₁ ++ o₂) s₃) (s : σ) (buf : List β) :
    R s (P.drain handle s buf).outs (P.drain handle s buf).state := by
  induction buf using frames_induction (P := P) generalizing s with
  | h buf ih =>
    by_cases hne : buf = []
    · subst hne
      exact hnil s
    cases hp : P.parse buf with
    | error e => rw [drain_error hne hp]; exact hnil s
    | ok o =>
      cases o with
      | none => rw [drain_none hne hp]; exact hnil s
      | some fk =>
        cases hh : (handle s fk.1).2.2 with
        | true => rw [drain_halt hne hp hh]; exact hstep s fk.1
        | false => rw [drain_go hne hp hh]; exact htrans _ _ _ _ _ (hstep s fk.1) (ih fk.1 fk.2 hp _)

/-- A loop that halts ends with the outputs of a call that says so. -/
theorem halted_outs {s : σ} {buf : List β} (he : (P.drain handle s buf).ending = .halted) :
    ∃ s₁ a, (handle s₁ a).2.2 = true ∧ (handle s₁ a).2.1 <:+ (P.drain handle s buf).outs := by
  induction buf using frames_induction (P := P) generalizing s with
  | h buf ih =>
    by_cases hne : buf = []
    · subst hne
      cases he
    cases hp : P.parse buf with
    | error e => rw [drain_error hne hp] at he; cases he
    | ok o =>
      cases o with
      | none => rw [drain_none hne hp] at he; cases he
      | some fk =>
        cases hh : (handle s fk.1).2.2 with
        | true =>
          rw [drain_halt hne hp hh]
          exact ⟨s, fk.1, hh, List.suffix_refl _⟩
        | false =>
          rw [drain_go hne hp hh] at he ⊢
          obtain ⟨s₁, a, hh₁, hsuf⟩ := ih fk.1 fk.2 hp he
          exact ⟨s₁, a, hh₁, hsuf.trans (List.suffix_append _ _)⟩

/-- **Throwing.** The loop throws iff the parser does at a loop head. -/
theorem threw_iff (s : σ) (buf : List β) :
    (∃ e, (P.drain handle s buf).ending = .threw e) ↔
      ∃ s₁ b e, P.Head handle s buf s₁ b ∧ b ≠ [] ∧ P.parse b = .error e := by
  constructor
  · rintro ⟨e, he⟩
    induction buf using frames_induction (P := P) generalizing s with
    | h buf ih =>
      by_cases hne : buf = []
      · subst hne; cases he
      cases hp : P.parse buf with
      | error e' => exact ⟨s, buf, e', .start s buf, hne, hp⟩
      | ok o =>
        cases o with
        | none => rw [drain_none hne hp] at he; cases he
        | some fk =>
          cases hh : (handle s fk.1).2.2 with
          | true => rw [drain_halt hne hp hh] at he; cases he
          | false =>
            rw [drain_go hne hp hh] at he
            obtain ⟨s₁, b, e', hb⟩ := ih fk.1 fk.2 hp _ he
            exact ⟨s₁, b, e', .next hne hp hh hb.1, hb.2⟩
  · rintro ⟨s₁, b, e, hhead, hne, hp⟩
    induction hhead with
    | start s b => exact ⟨e, by rw [drain_error hne hp]⟩
    | next hne' hp' hgo _ ih =>
      rw [drain_go hne' hp' hgo]
      exact ih hne hp

end Parser

end WebPlayer.Core.Framing
