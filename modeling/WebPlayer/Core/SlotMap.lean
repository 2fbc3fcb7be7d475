import Mathlib.Data.List.Perm.Subperm
import Mathlib.Logic.Function.Basic

/-!
# Slot arrays as partial maps

A fixed array of slots, each free or active under a key. `Represents V slots
A` says that the active slots are the graph of the partial map `A`, one slot
for each key; `V.holds` relates what the map has to what the slot stores.

* `Represents.free`, `Represents.put`: the two ways to overwrite a slot.
* `find_of_some`, `find_of_none`: looking a key up.
* `exists_free`: fewer keys than slots leave a slot free.
-/
namespace WebPlayer.Core

structure SlotView (ε κ α : Type) where
  active : ε → Bool
  key : ε → κ
  holds : α → ε → Prop

namespace SlotView

variable {ε κ α : Type} [DecidableEq κ] (V : SlotView ε κ α)

structure Represents (slots : List ε) (A : κ → Option α) : Prop where
  filed : ∀ k a, A k = some a →
    ∃ (t : Nat) (e : ε), slots[t]? = some e ∧ V.active e = true ∧ V.key e = k ∧ V.holds a e
  slot : ∀ (t : Nat) (e : ε), slots[t]? = some e → V.active e = true →
    ∃ a, A (V.key e) = some a ∧ V.holds a e
  distinct : ∀ (s t : Nat) (e e' : ε), slots[s]? = some e → slots[t]? = some e' → V.active e = true →
    V.active e' = true → V.key e = V.key e' → s = t

/-- The index of the slot of a key. -/
def find (slots : List ε) (k : κ) : Option Nat := slots.findIdx? fun e => V.active e && V.key e == k

/-- The index of the first free slot. -/
def firstFree (slots : List ε) : Option Nat := slots.findIdx? fun e => !V.active e

/-- `A` without the key of `e`, if `e` is active. -/
def forget (A : κ → Option α) (e : ε) : κ → Option α :=
  if V.active e = true then Function.update A (V.key e) none else A

variable {V}

theorem forget_eq_some {A : κ → Option α} {e : ε} {k : κ} {a : α} (h : V.forget A e k = some a) :
    A k = some a ∧ (V.active e = true → k ≠ V.key e) := by
  unfold forget at h
  split at h
  · by_cases hk : k = V.key e
    · rw [hk, Function.update_self] at h; cases h
    · rw [Function.update_of_ne hk] at h; exact ⟨h, fun _ => hk⟩
  · rename_i hna; exact ⟨h, fun ha => absurd ha hna⟩

theorem forget_of_ne {A : κ → Option α} {e : ε} {k : κ} (h : V.active e = true → k ≠ V.key e) :
    V.forget A e k = A k := by
  unfold forget
  split
  · rename_i ha; exact Function.update_of_ne (h ha) ..
  · rfl

theorem forget_none_or (A : κ → Option α) (e : ε) (k : κ) : V.forget A e k = none ∨ V.forget A e k = A k := by
  unfold forget
  split
  · by_cases hk : k = V.key e
    · exact .inl (by rw [hk, Function.update_self])
    · exact .inr (Function.update_of_ne hk ..)
  · exact .inr rfl

omit [DecidableEq κ] in
theorem represents_replicate {e : ε} (he : V.active e = false) (n : Nat) :
    V.Represents (List.replicate n e) fun _ => none := by
  have hfree : ∀ (t : Nat) (e' : ε), (List.replicate n e)[t]? = some e' → V.active e' = false := by
    intro t e' he'
    rw [List.eq_of_mem_replicate (List.mem_of_getElem? he'), he]
  refine ⟨nofun, fun t e' he' ha => ?_, fun s t e' e'' he' _ ha => ?_⟩
  · rw [hfree t e' he'] at ha; cases ha
  · rw [hfree s e' he'] at ha; cases ha

theorem getElem?_set_slot {slots : List ε} {s : Nat} {e : ε} (hs : slots[s]? = some e) (e' : ε) (t : Nat) :
    (slots.set s e')[t]? = if s = t then some e' else slots[t]? := by
  obtain ⟨hlt, -⟩ := List.getElem?_eq_some_iff.mp hs
  rw [List.getElem?_set]
  simp only [hlt, if_true]

namespace Represents

variable {slots : List ε} {A : κ → Option α} (h : V.Represents slots A)
include h

section
variable {s : Nat} {e : ε} (hs : slots[s]? = some e)
include hs

omit [DecidableEq κ] in
/-- What `A` has beside the key of slot `s` is in another slot. -/
theorem filed_elsewhere {k : κ} {a : α} (hA : A k = some a) (hk : V.active e = true → k ≠ V.key e) (e' : ε) :
    ∃ (t : Nat) (e₁ : ε), (slots.set s e')[t]? = some e₁ ∧ V.active e₁ = true ∧ V.key e₁ = k ∧ V.holds a e₁ := by
  obtain ⟨t, e₁, ht, ha, hk₁, hP⟩ := h.filed k a hA
  refine ⟨t, e₁, ?_, ha, hk₁, hP⟩
  rw [getElem?_set_slot hs, if_neg, ht]
  rintro rfl
  rw [hs] at ht
  cases ht
  exact hk ha hk₁.symm

/-- The other active slots keep their entry of the map. -/
theorem slot_elsewhere {t : Nat} {e₁ : ε} (hst : s ≠ t) (ht : slots[t]? = some e₁) (ha : V.active e₁ = true) :
    ∃ a, V.forget A e (V.key e₁) = some a ∧ V.holds a e₁ := by
  obtain ⟨a, hA, hP⟩ := h.slot t e₁ ht ha
  exact ⟨a, by rw [forget_of_ne fun hae hk => hst (h.distinct s t e e₁ hs ht hae ha hk.symm), hA], hP⟩

/-- Overwriting a slot by a free one forgets its key. -/
theorem free (e' : ε) (he' : V.active e' = false) : V.Represents (slots.set s e') (V.forget A e) := by
  have hother : ∀ {t : Nat} {e₁ : ε}, (slots.set s e')[t]? = some e₁ → V.active e₁ = true →
      s ≠ t ∧ slots[t]? = some e₁ := by
    intro t e₁ ht ha
    rw [getElem?_set_slot hs] at ht
    split at ht
    · cases ht; rw [he'] at ha; cases ha
    · rename_i hst; exact ⟨hst, ht⟩
  refine ⟨fun k a hA => ?_, fun t e₁ ht ha => ?_, fun t₁ t₂ e₁ e₂ h₁ h₂ ha₁ ha₂ hk => ?_⟩
  · obtain ⟨hA, hk⟩ := forget_eq_some hA
    exact h.filed_elsewhere hs hA hk e'
  · obtain ⟨hst, ht'⟩ := hother ht ha
    exact h.slot_elsewhere hs hst ht' ha
  · exact h.distinct t₁ t₂ e₁ e₂ (hother h₁ ha₁).2 (hother h₂ ha₂).2 ha₁ ha₂ hk

/-- Overwriting a slot by an active one whose key no other slot has. -/
theorem put (e' : ε) (ha' : V.active e' = true) {a : α} (hP : V.holds a e')
    (hfresh : ∀ (t : Nat) (e₁ : ε), s ≠ t → slots[t]? = some e₁ → V.active e₁ = true → V.key e₁ ≠ V.key e') :
    V.Represents (slots.set s e') (Function.update (V.forget A e) (V.key e') (some a)) := by
  refine ⟨fun k b hA => ?_, fun t e₁ ht ha => ?_, fun t₁ t₂ e₁ e₂ h₁ h₂ ha₁ ha₂ hk => ?_⟩
  · by_cases hk : k = V.key e'
    · subst hk
      rw [Function.update_self] at hA
      cases hA
      exact ⟨s, e', by rw [getElem?_set_slot hs, if_pos rfl], ha', rfl, hP⟩
    · rw [Function.update_of_ne hk] at hA
      obtain ⟨hA, hne⟩ := forget_eq_some hA
      exact h.filed_elsewhere hs hA hne e'
  · rw [getElem?_set_slot hs] at ht
    split at ht
    · cases ht
      exact ⟨a, Function.update_self .., hP⟩
    · rename_i hst
      obtain ⟨b, hA, hP₁⟩ := h.slot_elsewhere hs hst ht ha
      exact ⟨b, by rw [Function.update_of_ne (hfresh t e₁ hst ht ha), hA], hP₁⟩
  · rw [getElem?_set_slot hs] at h₁ h₂
    split at h₁ <;> split at h₂
    · omega
    · rename_i hst; cases h₁; exact absurd hk.symm (hfresh t₂ e₂ hst h₂ ha₂)
    · rename_i hst _; cases h₂; exact absurd hk (hfresh t₁ e₁ hst h₁ ha₁)
    · exact h.distinct t₁ t₂ e₁ e₂ h₁ h₂ ha₁ ha₂ hk

/-- The slot of a key overwritten under the same key. -/
theorem replace (ha : V.active e = true) (e' : ε) (ha' : V.active e' = true) (hk : V.key e' = V.key e) {a : α}
    (hP : V.holds a e') : V.Represents (slots.set s e') (Function.update A (V.key e) (some a)) := by
  have hput := h.put hs e' ha' hP fun t e₁ hst ht ha₁ hk₁ =>
    hst (h.distinct s t e e₁ hs ht ha ha₁ (hk₁.trans hk).symm)
  rwa [forget, if_pos ha, hk, Function.update_idem] at hput

/-- A key that is not filed put into any slot. -/
theorem put_new (e' : ε) (ha' : V.active e' = true) (hA : A (V.key e') = none) {a : α} (hP : V.holds a e') :
    V.Represents (slots.set s e') (Function.update (V.forget A e) (V.key e') (some a)) := by
  refine h.put hs e' ha' hP fun t e₁ _ ht ha₁ hk₁ => ?_
  obtain ⟨b, hb, -⟩ := h.slot t e₁ ht ha₁
  rw [hk₁, hA] at hb
  cases hb

end

theorem find_of_some {k : κ} {a : α} (hA : A k = some a) :
    ∃ (t : Nat) (e : ε), V.find slots k = some t ∧ slots[t]? = some e ∧ V.active e = true ∧ V.key e = k ∧ V.holds a e := by
  obtain ⟨s, e, hs, ha, hk, -⟩ := h.filed k a hA
  cases hf : V.find slots k with
  | none =>
    have := List.findIdx?_eq_none_iff.mp hf e (List.mem_of_getElem? hs)
    simp [ha, hk] at this
  | some t =>
    obtain ⟨ht, hp, -⟩ := List.findIdx?_eq_some_iff_getElem.mp hf
    simp only [Bool.and_eq_true, beq_iff_eq] at hp
    obtain ⟨b, hb, hP⟩ := h.slot t _ (List.getElem?_eq_getElem ht) hp.1
    rw [hp.2, hA] at hb
    cases hb
    exact ⟨t, slots[t], rfl, List.getElem?_eq_getElem ht, hp.1, hp.2, hP⟩

theorem find_of_none {k : κ} (hA : A k = none) : V.find slots k = none := by
  cases hf : V.find slots k with
  | none => rfl
  | some t =>
    obtain ⟨ht, hp, -⟩ := List.findIdx?_eq_some_iff_getElem.mp hf
    simp only [Bool.and_eq_true, beq_iff_eq] at hp
    obtain ⟨b, hb, -⟩ := h.slot t _ (List.getElem?_eq_getElem ht) hp.1
    rw [hp.2, hA] at hb
    cases hb

theorem none_iff_find {k : κ} : A k = none ↔ V.find slots k = none := by
  refine ⟨h.find_of_none, fun hf => ?_⟩
  cases hA : A k with
  | none => rfl
  | some a =>
    obtain ⟨t, e, ht, -⟩ := h.find_of_some hA
    rw [hf] at ht
    cases ht

omit [DecidableEq κ] in
/-- Fewer keys than slots: one is free. -/
theorem exists_free {ks : List κ} (hks : ∀ k, A k ≠ none → k ∈ ks) (hlen : ks.length < slots.length) :
    ∃ t, V.firstFree slots = some t := by
  cases hf : V.firstFree slots with
  | some t => exact ⟨t, rfl⟩
  | none =>
    -- otherwise the keys of the slots are distinct and all filed
    exfalso
    have hact : ∀ e ∈ slots, V.active e = true := by
      intro e he
      simpa using List.findIdx?_eq_none_iff.mp hf e he
    have hnodup : (slots.map V.key).Nodup := by
      rw [List.Nodup, List.pairwise_map, List.pairwise_iff_getElem]
      intro s t hs ht hst hk
      have := h.distinct s t _ _ (List.getElem?_eq_getElem hs) (List.getElem?_eq_getElem ht)
        (hact _ (List.getElem_mem hs)) (hact _ (List.getElem_mem ht)) hk
      omega
    have hsub : slots.map V.key ⊆ ks := by
      intro k hk
      obtain ⟨e, he, rfl⟩ := List.mem_map.mp hk
      obtain ⟨t, ht⟩ := List.mem_iff_getElem?.mp he
      obtain ⟨a, hA, -⟩ := h.slot t e ht (hact e he)
      exact hks _ (by rw [hA]; nofun)
    have := (hnodup.subperm hsub).length_le
    rw [List.length_map] at this
    omega

end Represents

omit [DecidableEq κ] in
/-- The first free slot is free. -/
theorem firstFree_some {slots : List ε} {t : Nat} (h : V.firstFree slots = some t) :
    ∃ e, slots[t]? = some e ∧ V.active e = false := by
  obtain ⟨ht, hp, -⟩ := List.findIdx?_eq_some_iff_getElem.mp h
  exact ⟨slots[t], List.getElem?_eq_getElem ht, by simpa using hp⟩

end SlotView

end WebPlayer.Core
