import WebPlayer.Core.Bytes

/-!
# JSON texts

A parser for the JSON grammar over UTF-8 bytes. Strings are UTF-16 code
units, so that an escape can name a lone surrogate. Of members with one name
the last one counts.

* `many_enough`, `value_enough`: the parser does not run out of fuel.
-/
namespace WebPlayer.Core

inductive Json where
  | null
  | bool (b : Bool)
  | number (literal : Bytes)
  | string (units : List Nat)
  | array (elems : List Json)
  | object (members : List (List Nat × Json))

namespace Json

/-! ## Repetition -/

/-- Reads something off the front. -/
abbrev Scanner (α : Type) := Bytes → Option (α × Bytes)

variable {α β : Type}

/-- Until a step returns `none` and ends it. -/
def many (step : Scanner (Option α)) : Nat → Scanner (List α)
  | 0, _ => none
  | fuel + 1, s =>
    match step s with
    | none => none
    | some (none, rest) => some ([], rest)
    | some (some a, rest) => (many step fuel rest).map fun r => (a :: r.1, r.2)

def isSpace (b : UInt8) : Bool := b == 0x20 || b == 0x09 || b == 0x0A || b == 0x0D

def skipSpace (s : Bytes) : Bytes := s.dropWhile isSpace

/-- The next token character. -/
def next (s : Bytes) : Option (UInt8 × Bytes) :=
  match skipSpace s with
  | [] => none
  | b :: rest => some (b, rest)

/-- Behind an element: a comma and another one, or the end. -/
def another (item : Scanner α) (close : UInt8) : Scanner (Option α) := fun s =>
  match next s with
  | none => none
  | some (b, rest) =>
    if b = 0x2C then (item rest).map fun r => (some r.1, r.2)
    else if b = close then some (none, rest)
    else none

/-- Behind the opening bracket. -/
def elements (item : Scanner α) (close : UInt8) : Scanner (List α) := fun s =>
  match next s with
  | none => none
  | some (b, rest) =>
    if b = close then some ([], rest)
    else
      match item s with
      | none => none
      | some (a, rest) => (many (another item close) rest.length rest).map fun r => (a :: r.1, r.2)

/-! ## Strings -/

def hexDigit (b : UInt8) : Option Nat :=
  if 0x30 ≤ b ∧ b ≤ 0x39 then some (b.toNat - 0x30)
  else if 0x41 ≤ b ∧ b ≤ 0x46 then some (b.toNat - 0x37)
  else if 0x61 ≤ b ∧ b ≤ 0x66 then some (b.toNat - 0x57)
  else none

def simpleEscapes : List (UInt8 × Nat) :=
  [(0x22, 0x22), (0x5C, 0x5C), (0x2F, 0x2F), (0x62, 0x08), (0x66, 0x0C), (0x6E, 0x0A), (0x72, 0x0D), (0x74, 0x09)]

/-- Behind the backslash. -/
def escape : Scanner Nat
  | [] => none
  | b :: s =>
    if b = 0x75 then
      match s with
      | d₃ :: d₂ :: d₁ :: d₀ :: rest => do
        pure ((← hexDigit d₃) * 0x1000 + (← hexDigit d₂) * 0x100 + (← hexDigit d₁) * 0x10 + (← hexDigit d₀), rest)
      | _ => none
    else (simpleEscapes.lookup b).map fun unit => (unit, s)

/-- The bytes behind the first one of a character. -/
def tailBytes : Nat → Nat → Scanner Nat
  | 0, code, s => some (code, s)
  | _ + 1, _, [] => none
  | n + 1, code, b :: s => if 0x80 ≤ b ∧ b ≤ 0xBF then tailBytes n (code * 0x40 + (b.toNat - 0x80)) s else none

/-- A code point, in the shortest form and no surrogate. -/
def utf8 : Scanner Nat
  | [] => none
  | b :: s =>
    if b < 0x80 then some (b.toNat, s)
    else if b < 0xE0 then (tailBytes 1 (b.toNat - 0xC0) s).filter fun r => 0xC0 ≤ b ∧ 0x80 ≤ r.1
    else if b < 0xF0 then (tailBytes 2 (b.toNat - 0xE0) s).filter fun r => 0x800 ≤ r.1 ∧ ¬(0xD800 ≤ r.1 ∧ r.1 ≤ 0xDFFF)
    else (tailBytes 3 (b.toNat - 0xF0) s).filter fun r => 0x10000 ≤ r.1 ∧ r.1 ≤ 0x10FFFF

def utf16 (code : Nat) : List Nat :=
  if code < 0x10000 then [code] else [0xD800 + (code - 0x10000) / 0x400, 0xDC00 + (code - 0x10000) % 0x400]

/-- A character, or the closing quote. -/
def stringStep : Scanner (Option (List Nat))
  | [] => none
  | b :: s =>
    if b = 0x22 then some (none, s)
    else if b = 0x5C then (escape s).map fun r => (some [r.1], r.2)
    else if b < 0x20 then none
    else (utf8 (b :: s)).map fun r => (some (utf16 r.1), r.2)

/-- Behind the opening quote. -/
def stringTail : Scanner (List Nat) := fun s => (many stringStep s.length s).map fun r => (r.1.flatten, r.2)

/-! ## Numbers -/

def isDigit (b : UInt8) : Bool := 0x30 ≤ b && b ≤ 0x39

/-- At least one. -/
def digits : Bytes → Option Bytes
  | [] => none
  | b :: s => if isDigit b then some (s.dropWhile isDigit) else none

/-- If this character is next, what is behind it is read by `read`. -/
def optional (cs : List UInt8) (read : Bytes → Option Bytes) (s : Bytes) : Option Bytes :=
  match s with
  | [] => some []
  | b :: rest => if b ∈ cs then read rest else some s

def integer : Bytes → Option Bytes
  | [] => none
  | b :: s => if b = 0x30 then some s else digits (b :: s)

/-- What is behind the number. -/
def numberTail (s : Bytes) : Option Bytes := do
  let s ← optional [0x2D] some s
  let s ← integer s
  let s ← optional [0x2E] digits s
  optional [0x65, 0x45] (fun s => (optional [0x2B, 0x2D] some s).bind digits) s

/-! ## Values -/

def scalar : Scanner Json := fun s =>
  if (ascii "true").isPrefixOf s then some (.bool true, s.drop 4)
  else if (ascii "false").isPrefixOf s then some (.bool false, s.drop 5)
  else if (ascii "null").isPrefixOf s then some (.null, s.drop 4)
  else (numberTail s).map fun rest => (.number (s.take (s.length - rest.length)), rest)

/-- A name, a colon and a value. -/
def member (item : Scanner α) : Scanner (List Nat × α) := fun s =>
  match next s with
  | none => none
  | some (b, rest) =>
    if b = 0x22 then do
      let (name, rest) ← stringTail rest
      let (colon, rest) ← next rest
      if colon = 0x3A then (item rest).map fun r => ((name, r.1), r.2) else none
    else none

/-- The fuel bounds the depth. -/
def value : Nat → Scanner Json
  | 0, _ => none
  | fuel + 1, s =>
    match next s with
    | none => none
    | some (b, rest) =>
      if b = 0x7B then (elements (member (value fuel)) 0x7D rest).map fun r => (.object r.1, r.2)
      else if b = 0x5B then (elements (value fuel) 0x5D rest).map fun r => (.array r.1, r.2)
      else if b = 0x22 then (stringTail rest).map fun r => (.string r.1, r.2)
      else scalar (b :: rest)

/-! ## Fuel -/

def Shrinks (p : Scanner α) : Prop := ∀ {s a rest}, p s = some (a, rest) → rest.length < s.length

/-- Nothing is read off nothing. -/
theorem Shrinks.nil {p : Scanner α} (h : Shrinks p) : p [] = none := by
  cases hp : p [] with
  | none => rfl
  | some r => exact absurd (h (show p [] = some (r.1, r.2) from hp)) (Nat.not_lt_zero _)

theorem next_shrinks : Shrinks next := by
  intro s b rest h
  unfold next at h
  have hle := (List.dropWhile_sublist isSpace (l := s)).length_le
  split at h
  · cases h
  · rename_i hs
    cases h
    rw [← skipSpace, hs, List.length_cons] at hle
    omega

theorem many_shrinks {step : Scanner (Option α)} (hstep : Shrinks step) (fuel : Nat) : Shrinks (many step fuel) := by
  intro s as rest h
  induction fuel generalizing s as with
  | zero => cases h
  | succ fuel ih =>
    unfold many at h
    split at h
    · cases h
    · rename_i heq
      cases h
      exact hstep heq
    · rename_i heq
      obtain ⟨r, hr, hrest⟩ := Option.map_eq_some_iff.mp h
      cases hrest
      exact Nat.lt_trans (ih hr) (hstep heq)

/-- Steps that agree on what is left. -/
theorem many_congr {step step' : Scanner (Option α)} (hstep : Shrinks step) {fuel : Nat} {s : Bytes}
    (h : ∀ s', s'.length ≤ s.length → step s' = step' s') : many step fuel s = many step' fuel s := by
  induction fuel generalizing s with
  | zero => rfl
  | succ fuel ih =>
    unfold many
    rw [← h s (Nat.le_refl _)]
    split
    · rfl
    · rfl
    · rename_i heq
      rw [ih fun s' hs' => h s' (Nat.le_of_lt (Nat.lt_of_le_of_lt hs' (hstep heq)))]

/-- A byte of fuel for each byte of input is enough. -/
theorem many_enough {step : Scanner (Option α)} (hstep : Shrinks step) {fuel : Nat} {s : Bytes} (hfuel : s.length ≤ fuel) :
    many step fuel s = many step (fuel + 1) s := by
  induction fuel generalizing s with
  | zero =>
    rw [List.length_eq_zero_iff.mp (Nat.le_zero.mp hfuel), many, many, hstep.nil]
  | succ fuel ih =>
    conv_lhs => rw [many]
    conv_rhs => rw [many]
    split
    · rfl
    · rfl
    · rename_i heq
      have hlt := hstep heq
      rw [ih (by omega)]

theorem escape_shrinks : Shrinks escape := by
  intro s unit rest h
  unfold escape at h
  split at h
  · cases h
  · rename_i b s
    split at h
    · split at h
      · obtain ⟨d₃, -, h⟩ := Option.bind_eq_some_iff.mp h
        obtain ⟨d₂, -, h⟩ := Option.bind_eq_some_iff.mp h
        obtain ⟨d₁, -, h⟩ := Option.bind_eq_some_iff.mp h
        obtain ⟨d₀, -, h⟩ := Option.bind_eq_some_iff.mp h
        cases h
        simp only [List.length_cons]
        omega
      · cases h
    · obtain ⟨u, -, hu⟩ := Option.map_eq_some_iff.mp h
      cases hu
      exact Nat.lt_succ_self _

theorem tailBytes_le {n code c : Nat} {s rest : Bytes} (h : tailBytes n code s = some (c, rest)) :
    rest.length ≤ s.length := by
  induction n generalizing code s with
  | zero =>
    cases h
    exact Nat.le_refl _
  | succ n ih =>
    cases s with
    | nil => cases h
    | cons b s =>
      unfold tailBytes at h
      split at h
      · exact Nat.le_succ_of_le (ih h)
      · cases h

theorem utf8_shrinks : Shrinks utf8 := by
  intro s code rest h
  have htail : ∀ {n code : Nat} {s : Bytes} {p : Nat × Bytes → Bool} {r : Nat × Bytes},
      (tailBytes n code s).filter p = some r → r.2.length < s.length + 1 := by
    intro n code s p r hr
    exact Nat.lt_succ_of_le (tailBytes_le (Option.filter_eq_some_iff.mp hr).1)
  cases s with
  | nil => cases h
  | cons b s =>
    rw [utf8] at h
    split at h
    · cases h
      exact Nat.lt_succ_self _
    · split at h
      · exact htail h
      · split at h
        · exact htail h
        · exact htail h

theorem stringStep_shrinks : Shrinks stringStep := by
  intro s unit rest h
  cases s with
  | nil => cases h
  | cons b s =>
    rw [stringStep] at h
    split at h
    · cases h
      exact Nat.lt_succ_self _
    · split at h
      · obtain ⟨r, hr, hrest⟩ := Option.map_eq_some_iff.mp h
        cases hrest
        exact Nat.lt_succ_of_lt (escape_shrinks hr)
      · split at h
        · cases h
        · obtain ⟨r, hr, hrest⟩ := Option.map_eq_some_iff.mp h
          cases hrest
          exact utf8_shrinks hr

theorem stringTail_shrinks : Shrinks stringTail := by
  intro s units rest h
  obtain ⟨r, hr, hrest⟩ := Option.map_eq_some_iff.mp h
  cases hrest
  exact many_shrinks stringStep_shrinks _ hr

theorem digits_lt {s rest : Bytes} (h : digits s = some rest) : rest.length < s.length := by
  cases s with
  | nil => cases h
  | cons b s =>
    rw [digits] at h
    split at h
    · cases h
      exact Nat.lt_succ_of_le (List.dropWhile_sublist _).length_le
    · cases h

theorem optional_le {cs : List UInt8} {read : Bytes → Option Bytes} {s rest : Bytes}
    (hread : ∀ {s rest}, read s = some rest → rest.length ≤ s.length) (h : optional cs read s = some rest) :
    rest.length ≤ s.length := by
  cases s with
  | nil =>
    cases h
    exact Nat.le_refl _
  | cons b s =>
    rw [optional] at h
    split at h
    · exact Nat.le_succ_of_le (hread h)
    · cases h
      exact Nat.le_refl _

theorem some_le {s rest : Bytes} (h : some s = some rest) : rest.length ≤ s.length := by
  cases h
  exact Nat.le_refl _

theorem integer_lt {s rest : Bytes} (h : integer s = some rest) : rest.length < s.length := by
  cases s with
  | nil => cases h
  | cons b s =>
    rw [integer] at h
    split at h
    · cases h
      exact Nat.lt_succ_self _
    · exact digits_lt h

theorem numberTail_lt {s rest : Bytes} (h : numberTail s = some rest) : rest.length < s.length := by
  obtain ⟨s₁, h₁, h⟩ := Option.bind_eq_some_iff.mp h
  obtain ⟨s₂, h₂, h⟩ := Option.bind_eq_some_iff.mp h
  obtain ⟨s₃, h₃, h⟩ := Option.bind_eq_some_iff.mp h
  have hsign := optional_le some_le h₁
  have hinteger := integer_lt h₂
  have hfraction := optional_le (fun hd => Nat.le_of_lt (digits_lt hd)) h₃
  have hexponent := optional_le (fun {s rest} hd => by
    obtain ⟨t, ht, hd⟩ := Option.bind_eq_some_iff.mp hd
    exact Nat.le_trans (Nat.le_of_lt (digits_lt hd)) (optional_le some_le ht)) h
  omega

theorem scalar_shrinks : Shrinks scalar := by
  intro s v rest h
  have hword : ∀ {word : Bytes} {n : Nat}, word.isPrefixOf s = true → word.length = n → 0 < n →
      (s.drop n).length < s.length := by
    intro word n hprefix hlen hpos
    have hle := (List.isPrefixOf_iff_prefix.mp hprefix).length_le
    rw [List.length_drop]
    omega
  unfold scalar at h
  split at h
  · rename_i hp
    cases h
    exact hword hp rfl (by decide)
  · split at h
    · rename_i hp
      cases h
      exact hword hp rfl (by decide)
    · split at h
      · rename_i hp
        cases h
        exact hword hp rfl (by decide)
      · obtain ⟨r, hr, hrest⟩ := Option.map_eq_some_iff.mp h
        cases hrest
        exact numberTail_lt hr

variable {item item' : Scanner α}

theorem another_shrinks (hitem : Shrinks item) (close : UInt8) : Shrinks (another item close) := by
  intro s a rest h
  unfold another at h
  split at h
  · cases h
  · rename_i hnext
    have hlt := next_shrinks hnext
    split at h
    · obtain ⟨r, hr, hrest⟩ := Option.map_eq_some_iff.mp h
      cases hrest
      exact Nat.lt_trans (hitem hr) hlt
    · split at h
      · cases h
        exact hlt
      · cases h

theorem elements_shrinks (hitem : Shrinks item) (close : UInt8) : Shrinks (elements item close) := by
  intro s as rest h
  unfold elements at h
  split at h
  · cases h
  · rename_i hnext
    split at h
    · cases h
      exact next_shrinks hnext
    · split at h
      · cases h
      · rename_i hfirst
        obtain ⟨r, hr, hrest⟩ := Option.map_eq_some_iff.mp h
        cases hrest
        exact Nat.lt_trans (many_shrinks (another_shrinks hitem close) _ hr) (hitem hfirst)

theorem member_shrinks (hitem : Shrinks item) : Shrinks (member item) := by
  intro s m rest h
  unfold member at h
  split at h
  · cases h
  · rename_i hnext
    split at h
    · obtain ⟨⟨name, s₁⟩, hname, h⟩ := Option.bind_eq_some_iff.mp h
      obtain ⟨⟨colon, s₂⟩, hcolon, h⟩ := Option.bind_eq_some_iff.mp h
      simp only at h
      split at h
      · obtain ⟨r, hr, hrest⟩ := Option.map_eq_some_iff.mp h
        cases hrest
        have h₀ := next_shrinks hnext
        have h₁ := stringTail_shrinks hname
        have h₂ := next_shrinks hcolon
        have h₃ := hitem hr
        omega
      · cases h
    · cases h

theorem value_shrinks (fuel : Nat) : Shrinks (value fuel) := by
  induction fuel with
  | zero =>
    intro s v rest h
    cases h
  | succ fuel ih =>
    intro s v rest h
    unfold value at h
    split at h
    · cases h
    · rename_i hnext
      have hlt := next_shrinks hnext
      split at h
      · obtain ⟨r, hr, hrest⟩ := Option.map_eq_some_iff.mp h
        cases hrest
        exact Nat.lt_trans (elements_shrinks (member_shrinks ih) _ hr) hlt
      · split at h
        · obtain ⟨r, hr, hrest⟩ := Option.map_eq_some_iff.mp h
          cases hrest
          exact Nat.lt_trans (elements_shrinks ih _ hr) hlt
        · split at h
          · obtain ⟨r, hr, hrest⟩ := Option.map_eq_some_iff.mp h
            cases hrest
            exact Nat.lt_trans (stringTail_shrinks hr) hlt
          · exact Nat.lt_of_lt_of_le (scalar_shrinks h) hlt

theorem another_congr {close : UInt8} {s : Bytes} (h : ∀ s', s'.length ≤ s.length → item s' = item' s') :
    another item close s = another item' close s := by
  unfold another
  split
  · rfl
  · rename_i hnext
    rw [h _ (Nat.le_of_lt (next_shrinks hnext))]

theorem elements_congr (hitem : Shrinks item) {close : UInt8} {s : Bytes}
    (h : ∀ s', s'.length ≤ s.length → item s' = item' s') : elements item close s = elements item' close s := by
  unfold elements
  rw [← h s (Nat.le_refl _)]
  split
  · rfl
  · split
    · rfl
    · split
      · rfl
      · rename_i hfirst
        have hlt := hitem hfirst
        rw [many_congr (another_shrinks hitem close) fun s' hs' => another_congr fun s'' hs'' => h s'' (by omega)]

theorem member_congr {s : Bytes} (h : ∀ s', s'.length < s.length → item s' = item' s') : member item s = member item' s := by
  unfold member
  split
  · rfl
  · rename_i hnext
    split
    · cases hname : stringTail _ with
      | none => rfl
      | some r =>
        cases hcolon : next r.2 with
        | none => simp only [Option.bind_eq_bind, Option.bind_some, hcolon, Option.bind_none]
        | some c =>
          have h₀ := next_shrinks hnext
          have h₁ := stringTail_shrinks hname
          have h₂ := next_shrinks hcolon
          simp only [Option.bind_eq_bind, Option.bind_some, hcolon]
          rw [h c.2 (by omega)]
    · rfl

/-- As deep as the text is long is enough. -/
theorem value_enough {fuel : Nat} {s : Bytes} (hfuel : s.length ≤ fuel) : value fuel s = value (fuel + 1) s := by
  induction fuel generalizing s with
  | zero =>
    rw [List.length_eq_zero_iff.mp (Nat.le_zero.mp hfuel), Shrinks.nil (value_shrinks 0), Shrinks.nil (value_shrinks 1)]
  | succ fuel ih =>
    conv_lhs => rw [value]
    conv_rhs => rw [value]
    split
    · rfl
    · rename_i b rest hnext
      have hlt := next_shrinks hnext
      have hdeep : ∀ s', s'.length ≤ rest.length → value fuel s' = value (fuel + 1) s' := fun s' hs' => ih (by omega)
      rw [elements_congr (value_shrinks fuel) hdeep, elements_congr (member_shrinks (value_shrinks fuel))
        fun s' hs' => member_congr fun s'' hs'' => hdeep s'' (by omega)]

/-! ## Texts -/

/-- The value of a text. -/
def parse (text : Bytes) : Option Json :=
  match value text.length text with
  | none => none
  | some (v, rest) => if skipSpace rest = [] then some v else none

/-- The member of this name. -/
def get (name : String) : Json → Option Json
  | .object members => (members.reverse.find? fun m => m.1 = name.toList.map Char.toNat).map Prod.snd
  | _ => none

end Json

end WebPlayer.Core
