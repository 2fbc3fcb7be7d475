import WebPlayer.Core.Bytes

/-!
# Substring search

`std::string::find`: the first index from `pos` on at which the needle
stands, `none` for `npos`. What is found in a text is found at the same place
in any longer one.

* `find_iff`: what is found is the first place where the needle stands.
-/
namespace WebPlayer.Core

/-- The first index of `needle`. -/
def findFirst (needle : Bytes) : Bytes → Option Nat
  | [] => if needle.isEmpty then some 0 else none
  | b :: hay => if needle.isPrefixOf (b :: hay) then some 0 else (findFirst needle hay).map (· + 1)

/-- `hay.find(needle, pos)` -/
def find (hay needle : Bytes) (pos : Nat) : Option Nat :=
  if pos ≤ hay.length then (findFirst needle (hay.drop pos)).map (· + pos) else none

/-- `s.substr(pos, len)` for `pos ≤ s.size()` -/
def substr (s : Bytes) (pos len : Nat) : Bytes := (s.drop pos).take len

theorem findFirst_le {needle hay : Bytes} {i : Nat} (h : findFirst needle hay = some i) :
    i + needle.length ≤ hay.length := by
  induction hay generalizing i with
  | nil =>
    unfold findFirst at h
    split at h
    · rename_i hn
      cases h
      rw [List.isEmpty_iff.mp hn]
      exact Nat.le_refl _
    · cases h
  | cons b hay ih =>
    unfold findFirst at h
    split at h
    · rename_i hp
      cases h
      have := (List.isPrefixOf_iff_prefix.mp hp).length_le
      omega
    · obtain ⟨j, hj, rfl⟩ := Option.map_eq_some_iff.mp h
      have := ih hj
      rw [List.length_cons]
      omega

theorem findFirst_append {needle hay : Bytes} {i : Nat} (h : findFirst needle hay = some i) (t : Bytes) :
    findFirst needle (hay ++ t) = some i := by
  induction hay generalizing i with
  | nil =>
    unfold findFirst at h
    split at h
    · rename_i hn
      cases h
      have hnil := List.isEmpty_iff.mp hn
      subst hnil
      cases t <;> rfl
    · cases h
  | cons b hay ih =>
    unfold findFirst at h
    split at h
    · rename_i hp
      cases h
      have hpre : needle <+: b :: (hay ++ t) :=
        (List.isPrefixOf_iff_prefix.mp hp).trans (List.prefix_append (b :: hay) t)
      rw [List.cons_append, findFirst, if_pos (List.isPrefixOf_iff_prefix.mpr hpre)]
    · rename_i hp
      obtain ⟨j, hj, rfl⟩ := Option.map_eq_some_iff.mp h
      have hnot : ¬ needle.isPrefixOf (b :: (hay ++ t)) = true := by
        intro hpre
        -- it would fit before the end of `hay`, where it does not stand
        have hlen := findFirst_le hj
        have hle : needle.length ≤ (b :: hay).length := by rw [List.length_cons]; omega
        exact hp (List.isPrefixOf_iff_prefix.mpr
          (List.prefix_of_prefix_length_le (List.isPrefixOf_iff_prefix.mp hpre)
            (List.prefix_append (b :: hay) t) hle))
      rw [List.cons_append, findFirst, if_neg hnot, ih hj]
      rfl

/-- Skipping what a loop runs over. -/
theorem drop_length_takeWhile {α : Type} {p : α → Bool} (s : List α) : s.drop (s.takeWhile p).length = s.dropWhile p := by
  have h : (s.takeWhile p ++ s.dropWhile p).drop (s.takeWhile p).length = s.dropWhile p := List.drop_left
  rwa [List.takeWhile_append_dropWhile] at h

/-! ## The first place -/

/-- `hay` is cut at the first `needle`. -/
structure Cuts (needle hay before after : Bytes) : Prop where
  eq : hay = before ++ (needle ++ after)
  first : ∀ n < before.length, ¬needle <+: hay.drop n

theorem findFirst_iff {needle hay : Bytes} (hne : needle ≠ []) {i : Nat} :
    findFirst needle hay = some i ↔ needle <+: hay.drop i ∧ ∀ n < i, ¬needle <+: hay.drop n := by
  induction hay generalizing i with
  | nil =>
    rw [findFirst, if_neg (by simpa using hne), List.drop_nil]
    exact ⟨nofun, fun h => absurd (List.prefix_nil.mp h.1) hne⟩
  | cons b hay ih =>
    rw [findFirst]
    by_cases hhere : needle.isPrefixOf (b :: hay) = true
    · have hpre := List.isPrefixOf_iff_prefix.mp hhere
      rw [if_pos hhere]
      constructor
      · rintro ⟨⟩
        exact ⟨hpre, fun n hn => absurd hn (Nat.not_lt_zero n)⟩
      · rintro ⟨-, hfirst⟩
        cases i with
        | zero => rfl
        | succ i => exact absurd hpre (hfirst 0 (Nat.succ_pos i))
    · rw [if_neg hhere, Option.map_eq_some_iff]
      have hnot : ¬needle <+: b :: hay := fun h => hhere (List.isPrefixOf_iff_prefix.mpr h)
      constructor
      · rintro ⟨j, hj, rfl⟩
        obtain ⟨hpre, hfirst⟩ := ih.mp hj
        refine ⟨hpre, fun n hn => ?_⟩
        cases n with
        | zero => exact hnot
        | succ n => exact hfirst n (Nat.lt_of_succ_lt_succ hn)
      · rintro ⟨hpre, hfirst⟩
        cases i with
        | zero => exact absurd hpre hnot
        | succ i => exact ⟨i, ih.mpr ⟨hpre, fun n hn => hfirst (n + 1) (Nat.succ_lt_succ hn)⟩, rfl⟩

/-- Found: the text is cut there. -/
theorem find_iff {hay needle : Bytes} (hne : needle ≠ []) {pos i : Nat} :
    find hay needle pos = some i ↔
      ∃ before after, Cuts needle (hay.drop pos) before after ∧ i = pos + before.length := by
  have hfind : find hay needle pos = (findFirst needle (hay.drop pos)).map (· + pos) := by
    unfold find
    split
    · rfl
    · rename_i hlt
      have hnone : findFirst needle [] = none := if_neg (by simpa using hne)
      rw [List.drop_eq_nil_of_le (Nat.le_of_not_le hlt), hnone]
      rfl
  rw [hfind, Option.map_eq_some_iff]
  constructor
  · rintro ⟨k, hk, rfl⟩
    obtain ⟨⟨after, hafter⟩, hfirst⟩ := (findFirst_iff hne).mp hk
    have hle : k ≤ (hay.drop pos).length := Nat.le_trans (Nat.le_add_right ..) (findFirst_le hk)
    have hlen : ((hay.drop pos).take k).length = k := List.length_take_of_le hle
    refine ⟨(hay.drop pos).take k, after, ⟨?_, by rwa [hlen]⟩, by rw [hlen, Nat.add_comm]⟩
    rw [hafter, List.take_append_drop]
  · rintro ⟨before, after, ⟨heq, hfirst⟩, rfl⟩
    refine ⟨before.length, (findFirst_iff hne).mpr ⟨?_, hfirst⟩, Nat.add_comm ..⟩
    rw [heq, List.drop_left]
    exact List.prefix_append ..

/-- Text without the first byte of the needle. -/
theorem Cuts.of_not_mem {b : UInt8} {needle before : Bytes} (h : b ∉ before) (after : Bytes) :
    Cuts (b :: needle) (before ++ (b :: needle ++ after)) before after := by
  refine ⟨rfl, fun n hn hpre => ?_⟩
  rw [List.drop_append_of_le_length (Nat.le_of_lt hn), List.drop_eq_getElem_cons hn] at hpre
  have hb : b = before[n] := (List.cons_prefix_cons.mp hpre).1
  exact h (hb ▸ List.getElem_mem hn)

/-- What is behind the needle. -/
theorem Cuts.drop_eq {needle hay before after : Bytes} {pos : Nat} (h : Cuts needle (hay.drop pos) before after) :
    hay.drop (pos + before.length + needle.length) = after := by
  rw [← List.drop_drop, ← List.drop_drop, h.eq, List.drop_left, List.drop_left]

/-- What is in front of it. -/
theorem Cuts.substr_eq {needle hay before after : Bytes} {pos : Nat} (h : Cuts needle (hay.drop pos) before after) :
    substr hay pos (pos + before.length - pos) = before := by
  rw [substr, Nat.add_sub_cancel_left, h.eq, List.take_left]

end WebPlayer.Core
