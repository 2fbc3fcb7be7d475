import WebPlayer.Core.Segments
import WebPlayer.L4App.NalParser

/-!
# Access units (`server/nal_parser.cpp:118-213`)

`GroupIntoAccessUnits` starts a new unit at a delimiter, and at a slice when
the unit already has one. Parameter sets start nothing: they go where the
last slice is.

* `keepsHeaders_iff`: parameter sets are with their picture iff behind the
  first picture they come with a delimiter.
* `units_of_slices`: a slice to a unit, so a unit to a picture, as the design
  has it, iff every picture is one slice.
-/
namespace WebPlayer.L4.NalParser
open WebPlayer.Core WebPlayer.Core.Segments WebPlayer.L4.Media

/-! ## The code -/

/-- 0xFF: invalid.
mirrors server/nal_parser.cpp:118-140 -/
def getNalType (isH265 : Bool) (nal : NalUnit) : UInt8 :=
  let offset := if 4 ≤ nal.data.length then startCodeLength nal.data else 0
  if offset = 0 ∨ nal.data.length ≤ offset then 0xFF
  else if isH265 then nalTypeH265 (nal.data.getD offset 0)
  else nalTypeH264 (nal.data.getD offset 0)

/-- mirrors server/nal_parser.cpp:152-199 -/
def isNewAU (isH265 : Bool) (currentAU : List NalUnit) (nal : NalUnit) : Bool :=
  let nalType := getNalType isH265 nal
  if isH265 then
    if nalType = 35 then true
    else if nalType ≤ 31 then currentAU.any fun nal => getNalType isH265 nal ≤ 31
    else false
  else
    if nalType = 9 then true
    else if nalType = 1 ∨ nalType = 5 then
      currentAU.any fun nal => getNalType isH265 nal = 1 ∨ getNalType isH265 nal = 5
    else false

/-- mirrors server/nal_parser.cpp:142-213 -/
def groupIntoAccessUnits (isH265 : Bool) (nalUnits : List NalUnit) : List AccessUnit :=
  (groupsFrom (isNewAU isH265) [] nalUnits).map AccessUnit.mk

/-! ## Kinds of NAL units -/

def isDelimiter (isH265 : Bool) (nal : NalUnit) : Bool :=
  if isH265 then getNalType isH265 nal = 35 else getNalType isH265 nal = 9

def isSlice (isH265 : Bool) (nal : NalUnit) : Bool :=
  if isH265 then getNalType isH265 nal ≤ 31 else getNalType isH265 nal = 1 ∨ getNalType isH265 nal = 5

/-- VPS, SPS or PPS. -/
def isParameterSet (isH265 : Bool) (nal : NalUnit) : Bool :=
  if isH265 then 32 ≤ getNalType isH265 nal ∧ getNalType isH265 nal ≤ 34
  else getNalType isH265 nal = 7 ∨ getNalType isH265 nal = 8

variable {isH265 : Bool}

/-- Delimiters open a unit; slices do when the unit has one. -/
theorem isNewAU_eq (cur : List NalUnit) (nal : NalUnit) :
    isNewAU isH265 cur nal = (isDelimiter isH265 nal || (isSlice isH265 nal && cur.any (isSlice isH265))) := by
  unfold isNewAU isDelimiter isSlice
  cases isH265 with
  | true =>
    simp only [if_true]
    by_cases hd : getNalType true nal = 35
    · simp [hd]
    · by_cases hs : getNalType true nal ≤ 31
      · simp [hd, hs]
      · simp [hd, hs]
  | false =>
    simp only [Bool.false_eq_true, if_false]
    by_cases hd : getNalType false nal = 9
    · simp [hd]
    · by_cases hs : getNalType false nal = 1 ∨ getNalType false nal = 5
      · simp [hd, hs]
      · simp [hd, hs]

theorem slice_not_delimiter {nal : NalUnit} (h : isSlice isH265 nal = true) : isDelimiter isH265 nal = false := by
  unfold isSlice at h
  unfold isDelimiter
  cases isH265 with
  | true =>
    simp only [if_true, decide_eq_true_eq, decide_eq_false_iff_not] at h ⊢
    intro h'
    rw [h'] at h
    exact absurd h (by decide)
  | false =>
    simp only [Bool.false_eq_true, if_false, decide_eq_true_eq, decide_eq_false_iff_not] at h ⊢
    intro h'
    rw [h'] at h
    exact absurd h (by decide)

theorem delimiter_not_slice {nal : NalUnit} (h : isDelimiter isH265 nal = true) : isSlice isH265 nal = false := by
  cases hs : isSlice isH265 nal with
  | false => rfl
  | true =>
    rw [slice_not_delimiter hs] at h
    cases h

/-- A NAL unit that opens nothing. -/
def Inert (isH265 : Bool) (nal : NalUnit) : Prop := isSlice isH265 nal = false ∧ isDelimiter isH265 nal = false

instance (nal : NalUnit) : Decidable (Inert isH265 nal) := inferInstanceAs (Decidable (_ ∧ _))

theorem quiet_of_inert {x : List NalUnit} (h : ∀ nal ∈ x, Inert isH265 nal) (cur : List NalUnit) :
    Quiet (isNewAU isH265) cur x := by
  refine .of_never (fun nal hnal c => ?_) cur
  rw [isNewAU_eq, (h nal hnal).1, (h nal hnal).2]
  rfl

/-! ## Whether the current unit has a slice -/

/-- It has one after `x`. -/
def hasSlice (isH265 : Bool) (cur x : List NalUnit) : Bool :=
  (current (isNewAU isH265) cur x).any (isSlice isH265)

variable {cur : List NalUnit}

theorem hasSlice_append (x y : List NalUnit) :
    hasSlice isH265 cur (x ++ y) = hasSlice isH265 (current (isNewAU isH265) cur x) y := by
  rw [hasSlice, current_append, hasSlice]

theorem hasSlice_inert {x : List NalUnit} (h : ∀ nal ∈ x, Inert isH265 nal) :
    hasSlice isH265 cur x = cur.any (isSlice isH265) := by
  rw [hasSlice, current_quiet (quiet_of_inert h cur), List.any_append]
  have hnone : x.any (isSlice isH265) = false := by
    rw [List.any_eq_false]
    intro nal hnal
    rw [(h nal hnal).1]
    exact Bool.false_ne_true
  rw [hnone, Bool.or_false]

theorem hasSlice_slice {nal : NalUnit} (h : isSlice isH265 nal = true) : hasSlice isH265 cur [nal] = true := by
  rw [hasSlice, current]
  split
  · simp [current, h]
  · simp [current, h]

theorem hasSlice_delimiter {nal : NalUnit} (hs : isSlice isH265 nal = false) (hd : isDelimiter isH265 nal = true) :
    hasSlice isH265 cur [nal] = false := by
  rw [hasSlice, current, isNewAU_eq, hd]
  cases cur with
  | nil => simp [current, hs]
  | cons c cs => simp [current, hs]

/-! ## Pictures of one slice -/

/-- A picture of one slice, with what comes before it. -/
structure Picture (isH265 : Bool) where
  delimiter : Option NalUnit
  headers : List NalUnit
  slice : NalUnit
  delimiter_ok : ∀ nal ∈ delimiter, isDelimiter isH265 nal = true
  headers_ok : ∀ nal ∈ headers, Inert isH265 nal
  slice_ok : isSlice isH265 slice = true

def Picture.nals (p : Picture isH265) : List NalUnit := p.delimiter.toList ++ p.headers ++ [p.slice]

/-- Pictures, and headers behind the last one. -/
structure Stream (isH265 : Bool) where
  pictures : List (Picture isH265)
  trailing : List NalUnit
  trailing_ok : ∀ nal ∈ trailing, Inert isH265 nal
  behind : pictures = [] → trailing = []

def Stream.nals (s : Stream isH265) : List NalUnit := s.pictures.flatMap Picture.nals ++ s.trailing

/-- A unit for each picture, and each parameter set in the unit of the first
slice behind it. -/
structure KeepsHeaders (s : Stream isH265) (units : List AccessUnit) : Prop where
  perPicture : units.length = s.pictures.length
  headers : ∀ pre h mid slice post, s.nals = pre ++ h :: mid ++ slice :: post → isParameterSet isH265 h = true →
    (∀ nal ∈ mid, isSlice isH265 nal = false) → isSlice isH265 slice = true →
    Together (units.map (·.nalUnits)) pre.length (pre.length + 1 + mid.length)

/-- Every picture behind the first that has a parameter set has a
delimiter. -/
def Delimited (s : Stream isH265) : Prop :=
  ∀ p ∈ s.pictures.tail, p.delimiter = none → ∀ h ∈ p.headers, isParameterSet isH265 h = false

theorem parameterSet_inert {nal : NalUnit} (h : isParameterSet isH265 nal = true) : Inert isH265 nal := by
  unfold isParameterSet at h
  unfold Inert isSlice isDelimiter
  cases isH265 with
  | true =>
    simp only [if_true, decide_eq_true_eq, decide_eq_false_iff_not] at h ⊢
    refine ⟨fun hs => ?_, fun hd => ?_⟩
    · exact absurd (UInt8.le_trans h.1 hs) (by decide)
    · rw [hd] at h
      exact absurd h.2 (by decide)
  | false =>
    simp only [Bool.false_eq_true, if_false, decide_eq_true_eq, decide_eq_false_iff_not] at h ⊢
    rcases h with h | h
    · rw [h]
      decide
    · rw [h]
      decide

/-- In front of the slice of a picture, the unit has one iff there was one
and no delimiter came. -/
theorem hasSlice_before (p : Picture isH265) {hs : List NalUnit} (hhs : ∀ nal ∈ hs, Inert isH265 nal) :
    hasSlice isH265 cur (p.delimiter.toList ++ hs) = (cur.any (isSlice isH265) && p.delimiter.isNone) := by
  rw [hasSlice_append, hasSlice_inert hhs]
  cases hd : p.delimiter with
  | none => simp [current]
  | some d =>
    have hdel := p.delimiter_ok d hd
    have hnone := @hasSlice_delimiter _ cur _ (delimiter_not_slice hdel) hdel
    simpa [hasSlice] using hnone

theorem hasSlice_picture (p : Picture isH265) : hasSlice isH265 cur p.nals = true := by
  rw [Picture.nals, hasSlice_append]
  exact hasSlice_slice p.slice_ok

theorem hasSlice_pictures (ps : List (Picture isH265)) :
    hasSlice isH265 cur (ps.flatMap Picture.nals) = (cur.any (isSlice isH265) || !ps.isEmpty) := by
  induction ps generalizing cur with
  | nil => simp [hasSlice, current]
  | cons p ps ih =>
    have hp := @hasSlice_picture _ cur p
    rw [hasSlice] at hp
    rw [List.flatMap_cons, hasSlice_append, ih, hp]
    simp

theorem inert_any {x : List NalUnit} (h : ∀ nal ∈ x, Inert isH265 nal) : x.any (isSlice isH265) = false := by
  rw [List.any_eq_false]
  intro nal hnal
  rw [(h nal hnal).1]
  exact Bool.false_ne_true

/-- A slice stays in a unit that has none. -/
theorem slice_quiet (p : Picture isH265) (h : cur.any (isSlice isH265) = false) :
    Quiet (isNewAU isH265) cur [p.slice] := by
  refine .singleton ?_
  rw [isNewAU_eq, slice_not_delimiter p.slice_ok, h, Bool.and_false, Bool.or_false]

/-- Behind a slice, a picture closes one unit. -/
theorem group_picture (p : Picture isH265) (h : cur.any (isSlice isH265) = true) : ∃ g cur', cur'.any (isSlice isH265) = true ∧
    ∀ y, groupsFrom (isNewAU isH265) cur (p.nals ++ y) = g :: groupsFrom (isNewAU isH265) cur' y := by
  have hne : cur ≠ [] := by
    intro h0
    rw [h0] at h
    cases h
  have hquiet := fun c => quiet_of_inert p.headers_ok c
  cases hd : p.delimiter with
  | none =>
    refine ⟨cur ++ p.headers, [p.slice], by simp [p.slice_ok], fun y => ?_⟩
    have hopens : isNewAU isH265 (cur ++ p.headers) p.slice = true := by
      rw [isNewAU_eq, p.slice_ok, List.any_append, h]
      simp
    rw [Picture.nals, hd, Option.toList_none, List.nil_append, List.append_assoc, groupsFrom_quiet (hquiet cur),
      List.singleton_append, groupsFrom_opens (by simp [hne]) hopens]
  | some d =>
    have hdel := p.delimiter_ok d hd
    refine ⟨cur, p.nals, by simp [Picture.nals, p.slice_ok], fun y => ?_⟩
    have hopens : isNewAU isH265 cur d = true := by
      rw [isNewAU_eq, hdel, Bool.true_or]
    have hnone : ([d] ++ p.headers).any (isSlice isH265) = false := by
      rw [List.any_append, inert_any p.headers_ok]
      simp [delimiter_not_slice hdel]
    rw [Picture.nals, hd, Option.toList_some, List.append_assoc, List.append_assoc, List.singleton_append,
      groupsFrom_opens hne hopens, groupsFrom_quiet (hquiet [d]), groupsFrom_quiet (slice_quiet p hnone),
      List.append_assoc]

/-- The first picture closes none. -/
theorem group_first (p : Picture isH265) (y : List NalUnit) :
    groupsFrom (isNewAU isH265) [] (p.nals ++ y) = groupsFrom (isNewAU isH265) p.nals y := by
  have hdel : Quiet (isNewAU isH265) [] p.delimiter.toList := by
    intro x₁ a x₂ hx hne
    cases x₁ with
    | nil => exact absurd rfl hne
    | cons x x₁ => cases hd : p.delimiter <;> simp [hd] at hx
  have hnone : (p.delimiter.toList ++ p.headers).any (isSlice isH265) = false := by
    rw [List.any_append, inert_any p.headers_ok]
    cases hd : p.delimiter with
    | none => rfl
    | some d => simp [delimiter_not_slice (p.delimiter_ok d hd)]
  rw [Picture.nals, List.append_assoc, List.append_assoc, groupsFrom_quiet hdel,
    groupsFrom_quiet (quiet_of_inert p.headers_ok _), List.nil_append, groupsFrom_quiet (slice_quiet p hnone)]

theorem length_groups (ps : List (Picture isH265)) {trailing : List NalUnit} (ht : ∀ nal ∈ trailing, Inert isH265 nal)
    (h : cur.any (isSlice isH265) = true) :
    (groupsFrom (isNewAU isH265) cur (ps.flatMap Picture.nals ++ trailing)).length = ps.length + 1 := by
  induction ps generalizing cur with
  | nil =>
    have hne : cur ≠ [] := by
      intro h0
      rw [h0] at h
      cases h
    rw [List.flatMap_nil, List.nil_append, ← List.append_nil trailing, groupsFrom_quiet (quiet_of_inert ht _),
      groupsFrom_end (by simp [hne])]
    rfl
  | cons p ps ih =>
    obtain ⟨g, cur', hcur', hg⟩ := group_picture p h
    rw [List.flatMap_cons, List.append_assoc, hg, List.length_cons, ih hcur', List.length_cons]

/-- One unit for each picture. -/
theorem length_units (s : Stream isH265) : (groupIntoAccessUnits isH265 s.nals).length = s.pictures.length := by
  rw [groupIntoAccessUnits, List.length_map, Stream.nals]
  cases hps : s.pictures with
  | nil =>
    rw [s.behind hps]
    rfl
  | cons p ps =>
    rw [List.flatMap_cons, List.append_assoc, group_first, length_groups ps s.trailing_ok, List.length_cons]
    simp [Picture.nals, p.slice_ok]

/-- The first slice of a list is where it is. -/
theorem first_slice {x y : List NalUnit} {a b : NalUnit} {r t : List NalUnit} (he : x ++ a :: r = y ++ b :: t)
    (hx : ∀ nal ∈ x, isSlice isH265 nal = false) (hy : ∀ nal ∈ y, isSlice isH265 nal = false)
    (ha : isSlice isH265 a = true) (hb : isSlice isH265 b = true) : x = y ∧ a = b ∧ r = t := by
  induction x generalizing y with
  | nil =>
    cases y with
    | nil =>
      cases he
      exact ⟨rfl, rfl, rfl⟩
    | cons n y =>
      cases he
      rw [hy a (List.mem_cons_self ..)] at ha
      cases ha
  | cons m x ih =>
    cases y with
    | nil =>
      cases he
      rw [hx b (List.mem_cons_self ..)] at hb
      cases hb
    | cons n y =>
      rw [List.cons_append, List.cons_append, List.cons.injEq] at he
      obtain ⟨hxy, hab, hrt⟩ := ih he.2 (fun nal h => hx nal (List.mem_cons_of_mem _ h))
        (fun nal h => hy nal (List.mem_cons_of_mem _ h))
      exact ⟨by rw [he.1, hxy], hab, hrt⟩

theorem split_behind {x y pre t : List NalUnit} {h : NalUnit} (he : x ++ y = pre ++ h :: t) (hx : h ∉ x) :
    ∃ hs, pre = x ++ hs ∧ y = hs ++ h :: t := by
  rcases List.append_eq_append_iff.mp he with ⟨hs, hpre, hy⟩ | ⟨cs, hcs, hy⟩
  · exact ⟨hs, hpre, hy⟩
  · cases cs with
    | nil => exact ⟨[], by rw [hcs, List.append_nil, List.append_nil], hy.symm⟩
    | cons c cs =>
      cases hy
      exact absurd (by rw [hcs]; simp) hx

theorem split_last {x hs t : List NalUnit} {a h : NalUnit} (he : x ++ [a] = hs ++ h :: t) (ha : h ≠ a) :
    ∃ t', x = hs ++ h :: t' ∧ t = t' ++ [a] := by
  cases t using List.reverseRecOn with
  | nil =>
    obtain ⟨-, hlast⟩ := List.append_inj' he rfl
    cases hlast
    exact absurd rfl ha
  | append_singleton t b =>
    rw [← List.cons_append, ← List.append_assoc] at he
    obtain ⟨hinit, hlast⟩ := List.append_inj' he rfl
    cases hlast
    exact ⟨t, hinit, rfl⟩

/-- A parameter set with a slice behind it is a header of a picture, and the
first slice behind it is the picture's. -/
theorem picture_of {ps : List (Picture isH265)} {trailing pre mid post : List NalUnit} {h slice : NalUnit}
    (ht : ∀ nal ∈ trailing, Inert isH265 nal) (hh : Inert isH265 h) (hmid : ∀ nal ∈ mid, isSlice isH265 nal = false)
    (hs : isSlice isH265 slice = true)
    (he : ps.flatMap Picture.nals ++ trailing = pre ++ h :: mid ++ slice :: post) :
    ∃ ps₁ p ps₂ hs, ps = ps₁ ++ p :: ps₂ ∧ pre = ps₁.flatMap Picture.nals ++ (p.delimiter.toList ++ hs) ∧
      p.headers = hs ++ h :: mid := by
  induction ps generalizing pre with
  | nil =>
    have hmem : slice ∈ trailing := by
      rw [← List.nil_append trailing, ← List.flatMap_nil (f := Picture.nals), he]
      simp
    rw [(ht slice hmem).1] at hs
    cases hs
  | cons p ps ih =>
    have hlater : ∀ pre', ps.flatMap Picture.nals ++ trailing = pre' ++ h :: mid ++ slice :: post →
        pre = p.nals ++ pre' → ∃ ps₁ q ps₂ hs, p :: ps = ps₁ ++ q :: ps₂ ∧
          pre = ps₁.flatMap Picture.nals ++ (q.delimiter.toList ++ hs) ∧ q.headers = hs ++ h :: mid := by
      intro pre' he' hpre
      obtain ⟨ps₁, q, ps₂, hs, hps, hpre', hq⟩ := ih he'
      exact ⟨p :: ps₁, q, ps₂, hs, by rw [hps]; rfl, by rw [hpre, hpre', List.flatMap_cons, List.append_assoc], hq⟩
    rw [List.flatMap_cons, List.append_assoc, List.append_assoc] at he
    rcases List.append_eq_append_iff.mp he with ⟨pre', hpre, hrest⟩ | ⟨cs, hcs, hrest⟩
    · exact hlater pre' (by rw [hrest, List.append_assoc]) hpre
    cases cs with
    | nil => exact hlater [] (by rw [← List.nil_append (ps.flatMap _ ++ _), ← hrest]; simp) (by rw [hcs]; simp)
    | cons c cs =>
      -- `h` is in this picture
      rw [List.cons_append, List.cons_append, List.cons.injEq] at hrest
      obtain ⟨rfl, hrest⟩ := hrest
      have hdel : h ∉ p.delimiter.toList := by
        intro hmem
        rw [Option.mem_toList] at hmem
        have hno := hh.2
        rw [p.delimiter_ok h hmem] at hno
        cases hno
      rw [Picture.nals, List.append_assoc] at hcs
      obtain ⟨hs', hpre, hhs⟩ := split_behind hcs hdel
      obtain ⟨mid', hheaders, rfl⟩ := split_last hhs fun hsl => by
        have hno := hh.1
        rw [hsl, p.slice_ok] at hno
        cases hno
      have hmid' : ∀ nal ∈ mid', isSlice isH265 nal = false := fun nal hnal =>
        (p.headers_ok nal (by rw [hheaders]; simp [hnal])).1
      rw [List.append_assoc, List.singleton_append] at hrest
      obtain ⟨rfl, -⟩ := first_slice hrest hmid hmid' hs p.slice_ok
      exact ⟨[], p, ps, hs', rfl, by rw [hpre]; rfl, hheaders⟩

/-- A header is with the slice behind it iff it is in the first picture or
behind a delimiter. -/
theorem header_together {ps : List (Picture isH265)} {p : Picture isH265} {hs mid : List NalUnit} {h : NalUnit}
    (hp : p.headers = hs ++ h :: mid) (post : List NalUnit) {slice : NalUnit} (hslice : isSlice isH265 slice = true) :
    Together (groupsFrom (isNewAU isH265) []
        (ps.flatMap Picture.nals ++ (p.delimiter.toList ++ hs) ++ h :: mid ++ slice :: post))
      (ps.flatMap Picture.nals ++ (p.delimiter.toList ++ hs)).length
      ((ps.flatMap Picture.nals ++ (p.delimiter.toList ++ hs)).length + 1 + mid.length) ↔
      ps = [] ∨ p.delimiter ≠ none := by
  have hmid : ∀ nal ∈ mid, Inert isH265 nal := fun nal hnal => p.headers_ok nal (by rw [hp]; simp [hnal])
  have hbefore : ps.flatMap Picture.nals ++ (p.delimiter.toList ++ hs) ++ h :: mid =
      ps.flatMap Picture.nals ++ (p.delimiter.toList ++ p.headers) := by
    rw [hp, List.append_assoc, List.append_assoc]
  rw [together_iff (quiet_of_inert hmid _), isNewAU_eq, slice_not_delimiter hslice, hslice, Bool.false_or, Bool.true_and,
    hbefore]
  have hany : (current (isNewAU isH265) [] (ps.flatMap Picture.nals)).any (isSlice isH265) = !ps.isEmpty :=
    hasSlice_pictures ps
  have hlast : (current (isNewAU isH265) [] (ps.flatMap Picture.nals ++ (p.delimiter.toList ++ p.headers))).any
      (isSlice isH265) = (!ps.isEmpty && p.delimiter.isNone) := by
    rw [current_append, ← hany]
    exact hasSlice_before p p.headers_ok
  rw [hlast]
  cases ps with
  | nil => simp
  | cons q ps => cases p.delimiter <;> simp

/-- **Parameter sets and their pictures.** Units and pictures always match in
number; the parameter sets are where they belong exactly in the streams in
which, behind the first picture, they come with a delimiter. -/
theorem keepsHeaders_iff (s : Stream isH265) : KeepsHeaders s (groupIntoAccessUnits isH265 s.nals) ↔ Delimited s := by
  have hunits : (groupIntoAccessUnits isH265 s.nals).map (·.nalUnits) = groupsFrom (isNewAU isH265) [] s.nals := by
    rw [groupIntoAccessUnits, List.map_map]
    exact List.map_id _
  constructor
  · intro hk p hp hd h hh
    by_contra hset
    obtain ⟨hs, mid, hheaders⟩ := List.append_of_mem hh
    obtain ⟨first, ps, hps⟩ : ∃ first ps, s.pictures = first :: ps := by
      cases hps : s.pictures with
      | nil =>
        rw [hps] at hp
        cases hp
      | cons first ps => exact ⟨first, ps, rfl⟩
    rw [hps, List.tail_cons] at hp
    obtain ⟨ps₁, ps₂, rfl⟩ := List.append_of_mem hp
    have hnals : s.nals = (first :: ps₁).flatMap Picture.nals ++ (p.delimiter.toList ++ hs) ++ h :: mid ++
        p.slice :: (ps₂.flatMap Picture.nals ++ s.trailing) := by
      rw [Stream.nals, hps]
      simp [Picture.nals, hheaders]
    have htog := hk.headers _ h mid p.slice _ hnals (by simpa using hset)
      (fun nal hnal => (p.headers_ok nal (by rw [hheaders]; simp [hnal])).1) p.slice_ok
    rw [hunits, hnals, header_together hheaders _ p.slice_ok] at htog
    rcases htog with h0 | hsome
    · cases h0
    · exact hsome hd
  · intro hdel
    refine ⟨length_units s, fun pre h mid slice post hnals hset hmid hslice => ?_⟩
    obtain ⟨ps₁, p, ps₂, hs, hps, rfl, hheaders⟩ :=
      picture_of s.trailing_ok (parameterSet_inert hset) hmid hslice hnals
    rw [hunits, hnals, header_together hheaders _ hslice]
    by_contra hno
    obtain ⟨hne, hnone⟩ := not_or.mp hno
    have hmem : p ∈ s.pictures.tail := by
      cases ps₁ with
      | nil => exact absurd rfl hne
      | cons q ps₁ =>
        rw [hps]
        simp
    have hclear := hdel p hmem (not_not.mp hnone) h (by rw [hheaders]; simp)
    rw [hset] at hclear
    cases hclear

/-- An H.264 NAL unit with a 4-byte start code. -/
def nal264 (header : UInt8) : NalUnit := ⟨[0, 0, 0, 1, header, 0x80]⟩

/-- SPS, PPS and an IDR slice; SPS, PPS and a slice. -/
def repeatedHeaders : Stream false where
  pictures :=
    [{ delimiter := none, headers := [nal264 0x67, nal264 0x68], slice := nal264 0x65
       delimiter_ok := nofun, headers_ok := by decide, slice_ok := by decide },
     { delimiter := none, headers := [nal264 0x67, nal264 0x68], slice := nal264 0x41
       delimiter_ok := nofun, headers_ok := by decide, slice_ok := by decide }]
  trailing := []
  trailing_ok := nofun
  behind := nofun

/-- The second SPS and PPS go out with the first picture. -/
theorem headers_left_behind : ¬ KeepsHeaders repeatedHeaders (groupIntoAccessUnits false repeatedHeaders.nals) ∧
    groupIntoAccessUnits false repeatedHeaders.nals =
      [⟨[nal264 0x67, nal264 0x68, nal264 0x65, nal264 0x67, nal264 0x68]⟩, ⟨[nal264 0x41]⟩] := by
  have hunits : groupIntoAccessUnits false repeatedHeaders.nals =
      [⟨[nal264 0x67, nal264 0x68, nal264 0x65, nal264 0x67, nal264 0x68]⟩, ⟨[nal264 0x41]⟩] := by decide
  refine ⟨fun hk => ?_, hunits⟩
  have htog := hk.headers [nal264 0x67, nal264 0x68, nal264 0x65] (nal264 0x67) [nal264 0x68] (nal264 0x41) []
    (by decide) (by decide) (by decide) (by decide)
  rw [hunits] at htog
  exact @not_together _ [[nal264 0x67, nal264 0x68, nal264 0x65, nal264 0x67, nal264 0x68]] [[nal264 0x41]] _
    (by decide) htog

/-! ## Pictures of several slices -/

/-- `first_mb_in_slice` is 0, resp. `first_slice_segment_in_pic_flag` is 1:
the first bit behind the NAL header of one byte, resp. two. The design groups
by it; no code reads it. -/
def firstInPicture (isH265 : Bool) (nal : NalUnit) : Bool :=
  let offset := startCodeLength nal.data + if isH265 then 2 else 1
  nal.data.getD offset 0 &&& 0x80 ≠ 0

structure SlicedPicture (isH265 : Bool) where
  delimiter : Option NalUnit
  first : NalUnit
  rest : List NalUnit
  delimiter_ok : ∀ nal ∈ delimiter, isDelimiter isH265 nal = true
  first_ok : isSlice isH265 first = true ∧ firstInPicture isH265 first = true
  rest_ok : ∀ nal ∈ rest, isSlice isH265 nal = true ∧ firstInPicture isH265 nal = false

def SlicedPicture.nals (p : SlicedPicture isH265) : List NalUnit := p.delimiter.toList ++ p.first :: p.rest

/-- A unit starts at each picture, and nowhere else. -/
def UnitPerPicture (ps : List (SlicedPicture isH265)) (units : List AccessUnit) : Prop :=
  units = ps.map fun p => ⟨p.nals⟩

/-- A unit starts at each slice, with the delimiter in front of it. -/
def SlicedPicture.units (p : SlicedPicture isH265) : List AccessUnit :=
  ⟨p.delimiter.toList ++ [p.first]⟩ :: p.rest.map fun nal => ⟨[nal]⟩

/-- Behind a slice, `y` closes the unit and goes on as `units`. -/
def Opening (isH265 : Bool) (y : List NalUnit) (units : List (List NalUnit)) : Prop :=
  ∀ cur, cur.any (isSlice isH265) = true → groupsFrom (isNewAU isH265) cur y = cur :: units

section
variable {y : List NalUnit} {units : List (List NalUnit)} (hy : Opening isH265 y units)

theorem ne_nil_of_slice (h : cur.any (isSlice isH265) = true) : cur ≠ [] := by
  intro h0
  rw [h0] at h
  cases h

theorem opening_nil : Opening isH265 [] [] := fun _ hcur => groupsFrom_end (ne_nil_of_slice hcur)

include hy

theorem opening_slice {nal : NalUnit} (h : isSlice isH265 nal = true) : Opening isH265 (nal :: y) ([nal] :: units) := by
  intro cur hcur
  have hopens : isNewAU isH265 cur nal = true := by
    rw [isNewAU_eq, h, hcur]
    simp
  rw [groupsFrom_opens (ne_nil_of_slice hcur) hopens, hy [nal] (by simp [h])]

theorem opening_slices {rest : List NalUnit} (hrest : ∀ nal ∈ rest, isSlice isH265 nal = true) :
    Opening isH265 (rest ++ y) (rest.map ([·]) ++ units) := by
  induction rest with
  | nil => exact hy
  | cons nal rest ih =>
    have hlater := ih fun n hn => hrest n (List.mem_cons_of_mem _ hn)
    exact opening_slice hlater (hrest nal (List.mem_cons_self ..))

/-- The delimiter and the first slice of a picture, read into an empty or
just opened unit. -/
theorem groups_first (p : SlicedPicture isH265) : groupsFrom (isNewAU isH265) [] (p.nals ++ y) =
    (p.delimiter.toList ++ [p.first]) :: (p.rest.map ([·]) ++ units) := by
  have hrest := opening_slices hy fun nal hnal => (p.rest_ok nal hnal).1
  have hany : (p.delimiter.toList ++ [p.first]).any (isSlice isH265) = true := by simp [p.first_ok.1]
  have hquiet : Quiet (isNewAU isH265) [] (p.delimiter.toList ++ [p.first]) := by
    cases hd : p.delimiter with
    | none =>
      refine .singleton ?_
      rw [isNewAU_eq, slice_not_delimiter p.first_ok.1]
      simp
    | some d =>
      intro x₁ a x₂ hx hne
      match x₁, hx with
      | [], _ => exact absurd rfl hne
      | [_], hx =>
        cases hx
        rw [isNewAU_eq, slice_not_delimiter p.first_ok.1]
        simp [delimiter_not_slice (p.delimiter_ok d hd)]
      | _ :: _ :: _, hx => simp at hx
  have hnals : p.nals ++ y = p.delimiter.toList ++ [p.first] ++ (p.rest ++ y) := by simp [SlicedPicture.nals]
  rw [hnals, groupsFrom_quiet hquiet, List.nil_append, hrest _ hany]

theorem opening_picture (p : SlicedPicture isH265) :
    Opening isH265 (p.nals ++ y) ((p.delimiter.toList ++ [p.first]) :: (p.rest.map ([·]) ++ units)) := by
  intro cur hcur
  cases hd : p.delimiter with
  | none =>
    have hopen := opening_slice (opening_slices hy fun nal hnal => (p.rest_ok nal hnal).1) p.first_ok.1
    rw [SlicedPicture.nals, hd]
    exact hopen cur hcur
  | some d =>
    have hdel := p.delimiter_ok d hd
    have hopens : isNewAU isH265 cur d = true := by rw [isNewAU_eq, hdel, Bool.true_or]
    have hfirst := groups_first hy p
    rw [SlicedPicture.nals, hd, Option.toList_some, List.append_assoc, List.singleton_append] at hfirst ⊢
    rw [groupsFrom_opens (ne_nil_of_slice hcur) hopens, ← hfirst, groupsFrom]
    simp

end

theorem opening_pictures (ps : List (SlicedPicture isH265)) : Opening isH265 (ps.flatMap SlicedPicture.nals)
    (ps.flatMap fun p => (p.delimiter.toList ++ [p.first]) :: p.rest.map ([·])) := by
  induction ps with
  | nil => exact opening_nil
  | cons p ps ih => exact opening_picture ih p

theorem groups_pictures (ps : List (SlicedPicture isH265)) :
    groupsFrom (isNewAU isH265) [] (ps.flatMap SlicedPicture.nals) =
      ps.flatMap fun p => (p.delimiter.toList ++ [p.first]) :: p.rest.map ([·]) := by
  cases ps with
  | nil => rfl
  | cons p ps => exact groups_first (opening_pictures ps) p

theorem length_le_units (ps : List (SlicedPicture isH265)) : ps.length ≤ (ps.flatMap SlicedPicture.units).length := by
  induction ps with
  | nil => exact Nat.le_refl _
  | cons p ps ih =>
    rw [List.flatMap_cons, List.length_append, List.length_cons, SlicedPicture.units, List.length_cons]
    omega

/-- There are more units than pictures unless each picture is one slice. -/
theorem units_perPicture_iff (ps : List (SlicedPicture isH265)) :
    UnitPerPicture ps (ps.flatMap SlicedPicture.units) ↔ ∀ p ∈ ps, p.rest = [] := by
  constructor
  · intro he
    have hlen := congrArg List.length he
    rw [List.length_map] at hlen
    clear he
    induction ps with
    | nil => nofun
    | cons p ps ih =>
      have hle := length_le_units ps
      rw [List.flatMap_cons, List.length_append, List.length_cons, SlicedPicture.units, List.length_cons,
        List.length_map] at hlen
      intro q hq
      cases hq with
      | head => exact List.length_eq_zero_iff.mp (by omega)
      | tail _ hq => exact ih (by omega) q hq
  · intro hrest
    induction ps with
    | nil => rfl
    | cons p ps ih =>
      have hp := hrest p (List.mem_cons_self ..)
      have hps : ps.flatMap SlicedPicture.units = _ := ih fun q hq => hrest q (List.mem_cons_of_mem _ hq)
      rw [UnitPerPicture, List.flatMap_cons, List.map_cons, hps]
      simp [SlicedPicture.units, SlicedPicture.nals, hp]

/-- **A slice to a unit.** The units of such a stream are its slices, each
first one with its delimiter; that is a unit for each picture exactly when
every picture is one slice. -/
theorem units_of_slices (ps : List (SlicedPicture isH265)) :
    groupIntoAccessUnits isH265 (ps.flatMap SlicedPicture.nals) = ps.flatMap SlicedPicture.units ∧
      (UnitPerPicture ps (groupIntoAccessUnits isH265 (ps.flatMap SlicedPicture.nals)) ↔ ∀ p ∈ ps, p.rest = []) := by
  have hunits : groupIntoAccessUnits isH265 (ps.flatMap SlicedPicture.nals) = ps.flatMap SlicedPicture.units := by
    rw [groupIntoAccessUnits, groups_pictures, List.map_flatMap]
    congr 1
    funext p
    simp [SlicedPicture.units, Function.comp_def]
  rw [hunits]
  exact ⟨rfl, units_perPicture_iff ps⟩

/-- An IDR picture of two slices. -/
def twoSlices : SlicedPicture false where
  delimiter := none
  first := nal264 0x65
  rest := [⟨[0, 0, 1, 0x65, 0x20]⟩]
  delimiter_ok := nofun
  first_ok := by decide
  rest_ok := by decide

/-- It takes two units, so two timer ticks. -/
theorem slices_apart : ¬ UnitPerPicture [twoSlices] (groupIntoAccessUnits false twoSlices.nals) ∧
    groupIntoAccessUnits false twoSlices.nals = [⟨[nal264 0x65]⟩, ⟨[⟨[0, 0, 1, 0x65, 0x20]⟩]⟩] := by
  constructor
  · rw [UnitPerPicture]
    decide
  · decide

end WebPlayer.L4.NalParser
