import WebPlayer.Core.Search
import Mathlib.Data.List.DropRight
import Mathlib.Data.List.TakeWhile

/-!
# Lines and blanks

Texts made of lines that a separator ends, and texts with the blanks around
them taken off.

* `findFirst_joinLines`: a needle without separator bytes is first found where
  it stands first in the first line that contains it.
* `place_unique`: a place in a text is in one line.
* `trim_eq_iff`: when it does not matter which blanks are taken off.
-/
namespace WebPlayer.Core

/-! ## Blanks -/

section Blanks
variable {α : Type} {p q : α → Bool}

/-- Without what satisfies `p` at either end. -/
def trim (p : α → Bool) (s : List α) : List α := (s.dropWhile p).rdropWhile p

theorem find?_reverse_dropWhile (s : List α) :
    (s.dropWhile p).reverse.find? (fun a => !p a) = s.reverse.find? (fun a => !p a) := by
  have hnone : (s.takeWhile p).reverse.find? (fun a => !p a) = none := by
    rw [List.find?_eq_none]
    intro a ha
    simp [List.mem_takeWhile_imp (List.mem_reverse.mp ha)]
  conv_rhs => rw [← List.takeWhile_append_dropWhile (p := p) (l := s)]
  rw [List.reverse_append, List.find?_append, hnone, Option.or_none]

theorem head?_trim (s : List α) : (trim p s).head? = s.find? (fun a => !p a) := by
  rw [List.find?_not_eq_head?_dropWhile, trim]
  cases hw : s.dropWhile p with
  | nil => rfl
  | cons a t =>
    have ha : p a = false := by simpa [hw] using List.head?_dropWhile_not p s
    have hne : (a :: t).rdropWhile p ≠ [] := by
      intro hnil
      simp [List.rdropWhile_eq_nil_iff.mp hnil a List.mem_cons_self] at ha
    obtain ⟨more, hmore⟩ := List.rdropWhile_prefix p (l := a :: t)
    cases hr : (a :: t).rdropWhile p with
    | nil => exact absurd hr hne
    | cons b u =>
      rw [hr, List.cons_append, List.cons.injEq] at hmore
      rw [hmore.1]
      rfl

theorem getLast?_trim (s : List α) : (trim p s).getLast? = s.reverse.find? (fun a => !p a) := by
  rw [← find?_reverse_dropWhile, List.find?_not_eq_head?_dropWhile, trim, List.rdropWhile, List.getLast?_reverse]

theorem dropWhile_congr (hpq : ∀ a, p a = true → q a = true) {s : List α}
    (h : ∀ a, s.find? (fun a => !p a) = some a → q a = false) : s.dropWhile p = s.dropWhile q := by
  induction s with
  | nil => rfl
  | cons a s ih =>
    cases ha : p a with
    | true =>
      rw [List.dropWhile_cons_of_pos ha, List.dropWhile_cons_of_pos (hpq a ha)]
      exact ih (by simpa [ha] using h)
    | false =>
      have hqa : q a = false := h a (by simp [ha])
      rw [List.dropWhile_cons_of_neg (by simp [ha]), List.dropWhile_cons_of_neg (by simp [hqa])]

/-- More kinds of blanks make no difference: neither end has one. -/
theorem trim_eq_iff (hpq : ∀ a, p a = true → q a = true) {s : List α} :
    trim p s = trim q s ↔ (∀ a, s.find? (fun a => !p a) = some a → q a = false) ∧
      ∀ a, s.reverse.find? (fun a => !p a) = some a → q a = false := by
  constructor
  · intro h
    have hhead := congrArg List.head? h
    have hlast := congrArg List.getLast? h
    rw [head?_trim, head?_trim] at hhead
    rw [getLast?_trim, getLast?_trim] at hlast
    constructor
    · intro a ha
      simpa using List.find?_some (hhead.symm.trans ha)
    · intro a ha
      simpa using List.find?_some (hlast.symm.trans ha)
  · intro h
    have hleft : s.dropWhile p = s.dropWhile q := dropWhile_congr hpq h.1
    have hright : (s.dropWhile p).reverse.dropWhile p = (s.dropWhile p).reverse.dropWhile q :=
      dropWhile_congr hpq (by simpa [find?_reverse_dropWhile] using h.2)
    rw [trim, trim, List.rdropWhile, List.rdropWhile, hright, hleft]

end Blanks

/-! ## Lines -/

/-- Each line with its end. -/
def joinLines (sep : Bytes) (lines : List Bytes) : Bytes := lines.flatMap (· ++ sep)

theorem joinLines_cons (sep line : Bytes) (lines : List Bytes) :
    joinLines sep (line :: lines) = line ++ (sep ++ joinLines sep lines) := by
  simp [joinLines]

theorem joinLines_append (sep : Bytes) (xs ys : List Bytes) :
    joinLines sep (xs ++ ys) = joinLines sep xs ++ joinLines sep ys := List.flatMap_append

/-- A place, given by a line and a place in it or at its end. -/
theorem place_unique {sep : Bytes} (hsep : sep ≠ []) {b₁ b₂ a₁ a₂ : List Bytes} {l₁ l₂ : Bytes} {j₁ j₂ : Nat}
    (h : b₁ ++ l₁ :: a₁ = b₂ ++ l₂ :: a₂) (h₁ : j₁ ≤ l₁.length) (h₂ : j₂ ≤ l₂.length)
    (hplace : (joinLines sep b₁).length + j₁ = (joinLines sep b₂).length + j₂) : b₁ = b₂ ∧ l₁ = l₂ ∧ a₁ = a₂ ∧ j₁ = j₂ := by
  have hpos : 0 < sep.length := List.length_pos_iff.mpr hsep
  induction b₁ generalizing b₂ with
  | nil =>
    cases b₂ with
    | nil =>
      obtain ⟨rfl, rfl⟩ := by simpa using h
      simp [joinLines] at hplace
      exact ⟨rfl, rfl, rfl, hplace⟩
    | cons l b₂ =>
      obtain ⟨rfl, -⟩ := by simpa using h
      rw [joinLines_cons] at hplace
      simp [joinLines] at hplace
      omega
  | cons l b₁ ih =>
    cases b₂ with
    | nil =>
      obtain ⟨rfl, -⟩ := by simpa using h
      rw [joinLines_cons] at hplace
      simp [joinLines] at hplace
      omega
    | cons l' b₂ =>
      obtain ⟨rfl, h'⟩ := List.cons.inj h
      rw [joinLines_cons, joinLines_cons] at hplace
      simp only [List.length_append] at hplace
      obtain ⟨rfl, hrest⟩ := ih h' (by omega)
      exact ⟨rfl, hrest⟩

/-! ## Searching line by line -/

theorem findFirst_eq_none_iff {needle hay : Bytes} : findFirst needle hay = none ↔ ¬needle <:+: hay := by
  induction hay with
  | nil => simp [findFirst]
  | cons b hay ih =>
    rw [findFirst, List.infix_cons_iff]
    split
    · rename_i h
      simp [List.isPrefixOf_iff_prefix.mp h]
    · rename_i h
      have hnot : ¬needle <+: b :: hay := fun hpre => h (List.isPrefixOf_iff_prefix.mpr hpre)
      simp [hnot, ih]

section Needle
variable {needle sep : Bytes}

/-- A needle does not reach into the separator. -/
theorem prefix_line (hdisj : ∀ b ∈ needle, b ∉ sep) (hsep : sep ≠ []) {line rest : Bytes}
    (h : needle <+: line ++ (sep ++ rest)) : needle <+: line := by
  induction line generalizing needle with
  | nil =>
    cases needle with
    | nil => exact List.nil_prefix
    | cons b needle =>
      obtain ⟨s, sep, rfl⟩ := List.exists_cons_of_ne_nil hsep
      have hb : b = s := (List.cons_prefix_cons.mp h).1
      exact absurd (hb ▸ List.mem_cons_self) (hdisj b List.mem_cons_self)
  | cons a line ih =>
    cases needle with
    | nil => exact List.nil_prefix
    | cons b needle =>
      obtain ⟨rfl, htail⟩ := List.cons_prefix_cons.mp h
      exact List.cons_prefix_cons.mpr ⟨rfl, ih (fun b hb => hdisj b (List.mem_cons_of_mem _ hb)) htail⟩

variable (hne : needle ≠ []) (hdisj : ∀ b ∈ needle, b ∉ sep)
include hne hdisj

theorem findFirst_sep (rest : Bytes) : findFirst needle (sep ++ rest) = (findFirst needle rest).map (· + sep.length) := by
  induction sep with
  | nil => simp
  | cons s sep ih =>
    have hnot : ¬needle.isPrefixOf (s :: (sep ++ rest)) = true := by
      intro h
      obtain ⟨b, needle, rfl⟩ := List.exists_cons_of_ne_nil hne
      have hb : b = s := (List.cons_prefix_cons.mp (List.isPrefixOf_iff_prefix.mp h)).1
      exact hdisj b List.mem_cons_self (hb ▸ List.mem_cons_self)
    have hdisj' : ∀ b ∈ needle, b ∉ sep := fun b hb hs => hdisj b hb (List.mem_cons_of_mem s hs)
    rw [List.cons_append, findFirst, if_neg hnot, ih hdisj']
    simp [Function.comp_def, Nat.add_assoc]

/-- The needle is in the line or behind it. -/
theorem findFirst_line (hsep : sep ≠ []) (line rest : Bytes) : findFirst needle (line ++ (sep ++ rest)) =
    (findFirst needle line).or ((findFirst needle rest).map (· + (line ++ sep).length)) := by
  induction line with
  | nil =>
    have hnil : findFirst needle [] = none := if_neg (by simpa using hne)
    rw [hnil, Option.none_or, List.nil_append, findFirst_sep hne hdisj, List.nil_append]
  | cons b line ih =>
    have hpre : needle.isPrefixOf (b :: (line ++ (sep ++ rest))) = needle.isPrefixOf (b :: line) := by
      rw [Bool.eq_iff_iff, List.isPrefixOf_iff_prefix, List.isPrefixOf_iff_prefix]
      exact ⟨fun h => prefix_line hdisj hsep h, fun h => h.trans (List.prefix_append (b :: line) _)⟩
    rw [List.cons_append, findFirst, findFirst, hpre, ih]
    split
    · rfl
    · cases findFirst needle line <;> simp [Function.comp_def, Nat.add_assoc, Nat.add_comm]

theorem findFirst_joinLines_none (hsep : sep ≠ []) {lines : List Bytes} (h : ∀ line ∈ lines, ¬needle <:+: line)
    (rest : Bytes) : findFirst needle (joinLines sep lines ++ rest) =
      (findFirst needle rest).map (· + (joinLines sep lines).length) := by
  induction lines with
  | nil => simp [joinLines]
  | cons line lines ih =>
    have hline : findFirst needle line = none := findFirst_eq_none_iff.mpr (h line List.mem_cons_self)
    have hlines := ih fun l hl => h l (List.mem_cons_of_mem _ hl)
    rw [joinLines_cons, List.append_assoc, List.append_assoc, findFirst_line hne hdisj hsep, hline, Option.none_or, hlines]
    simp [Function.comp_def, Nat.add_assoc, Nat.add_comm, Nat.add_left_comm]

/-- The first line that contains the needle. -/
theorem findFirst_joinLines (hsep : sep ≠ []) {before after : List Bytes} {line : Bytes} {i : Nat}
    (h : ∀ l ∈ before, ¬needle <:+: l) (hline : findFirst needle line = some i) (rest : Bytes) :
    findFirst needle (joinLines sep (before ++ line :: after) ++ rest) = some ((joinLines sep before).length + i) := by
  rw [joinLines_append, joinLines_cons, List.append_assoc, List.append_assoc, List.append_assoc,
    findFirst_joinLines_none hne hdisj hsep h, findFirst_line hne hdisj hsep, hline]
  simp [Nat.add_comm]

end Needle

/-- Of lines that do not all lack the needle, the first with it. -/
theorem exists_first_line {needle : Bytes} {lines : List Bytes} (h : ¬∀ line ∈ lines, ¬needle <:+: line) :
    ∃ before line after i, lines = before ++ line :: after ∧ (∀ l ∈ before, ¬needle <:+: l) ∧
      findFirst needle line = some i := by
  cases hfirst : lines.findSome? (findFirst needle) with
  | none =>
    have hnone := List.findSome?_eq_none_iff.mp hfirst
    exact absurd (fun line hline => findFirst_eq_none_iff.mp (hnone line hline)) h
  | some i =>
    obtain ⟨before, line, after, hlines, hline, hbefore⟩ := List.findSome?_eq_some_iff.mp hfirst
    exact ⟨before, line, after, i, hlines, fun l hl => findFirst_eq_none_iff.mp (hbefore l hl), hline⟩

end WebPlayer.Core
