import WebPlayer.L3Protocol.Interleaving

/-!
# Frames delivered in the order they were made

A stream that carries the protocol frames of one call after another, as a
connection does, is an admissible delivery whatever the frame ids are: at
any moment at most one call is incomplete.

* `parse_in_order`: the parser completes each call once, in order.
* `parse_begun`: of a stream that breaks off it completes, in order, exactly
  the calls all of whose protocol frames came.
-/
namespace WebPlayer.L3.Interleaving
open WebPlayer.Core WebPlayer.L1.FrameEncoder WebPlayer.L1.FrameParser WebPlayer.L2.FragmentSlots
  WebPlayer.L2.Reassembler

/-- The results of the reports that have one. -/
def results (reports : List Report) : List ParsedFrame := reports.filterMap (·.2)

section
variable {calls : List EncodeCall}

/-- The protocol frames of one call. -/
def segment (k : Fin calls.length) : List (Delivery calls) := (List.range (calls.get k).encode.length).map (k, ·)

theorem bytes_segment (k : Fin calls.length) : (segment k).map bytes = (calls.get k).encode := by
  have hget : ∀ frames : List Bytes, (List.range frames.length).map (frames.getD · []) = frames := by
    intro frames
    apply List.ext_getElem
    · simp
    · intro i h₁ h₂
      simp [h₂]
  rw [segment, List.map_map]
  exact hget (calls.get k).encode

theorem bytes_deliveries : (deliveries calls).map bytes = calls.flatMap EncodeCall.encode := by
  calc (deliveries calls).map bytes
      = (List.finRange calls.length).flatMap fun k => (segment k).map bytes := List.map_flatMap ..
    _ = (List.finRange calls.length).flatMap fun k => (calls.get k).encode := by simp only [bytes_segment]
    _ = ((List.finRange calls.length).map calls.get).flatMap EncodeCall.encode := (List.flatMap_map ..).symm
    _ = calls.flatMap EncodeCall.encode := by rw [List.map_get_finRange]

/-- A call that is begun and not finished is the only one. -/
theorem incomplete_unique {pre post : List (Delivery calls)} (h : deliveries calls = pre ++ post)
    {k k' : Fin calls.length} (hk : k ∈ incomplete pre post) (hk' : k' ∈ incomplete pre post) : k ≤ k' := by
  obtain ⟨-, ⟨d, hd, rfl⟩, -⟩ := mem_incomplete.mp hk
  obtain ⟨-, -, d', hd', rfl⟩ := mem_incomplete.mp hk'
  have hsorted := h ▸ @deliveries_sorted calls
  exact (List.pairwise_append.mp hsorted).2.2 d hd d' hd'

theorem incomplete_length {pre post : List (Delivery calls)} (h : deliveries calls = pre ++ post) :
    (incomplete pre post).length ≤ 1 := by
  have hnodup : (incomplete pre post).Nodup := (List.nodup_finRange _).filter _
  have hsame : ∀ k ∈ incomplete pre post, ∀ k' ∈ incomplete pre post, k = k' := fun k hk k' hk' =>
    Fin.le_antisymm (incomplete_unique h hk hk') (incomplete_unique h hk' hk)
  cases hlist : incomplete pre post with
  | nil => exact Nat.zero_le 1
  | cons k ks =>
    cases ks with
    | nil => exact Nat.le_refl 1
    | cons k' ks =>
      rw [hlist] at hnodup hsame
      have heq := hsame k (by simp) k' (by simp)
      simp [heq] at hnodup

theorem admissible_deliveries : Admissible (deliveries calls) where
  perm := List.Perm.refl _
  atMost16 pre post h := Nat.le_trans (incomplete_length h) (by decide)
  distinctIds pre post h := by
    have hlen := incomplete_length h
    generalize incomplete pre post = ks at hlen
    cases ks with
    | nil => exact List.nodup_nil
    | cons k ks =>
      obtain rfl : ks = [] := by simpa using hlen
      exact List.nodup_singleton _

/-! ## What is reported -/

/-- The protocol frames of a call complete it at the last of them. -/
theorem results_segment {k : Fin calls.length} {later : List (Delivery calls)} (hk : ¬ Touches later k) (is : List Nat)
    (hne : is ≠ []) : results (expected (is.map (k, ·) ++ later)) = callFrame (calls.get k) :: results (expected later) := by
  induction is with
  | nil => exact absurd rfl hne
  | cons i is ih =>
    rw [List.map_cons, List.cons_append, expected, results, List.filterMap_cons, expectedReport]
    cases is with
    | nil => simp [hk, results]
    | cons i' is =>
      have hlater : Touches ((i' :: is).map (k, ·) ++ later) k := ⟨(k, i'), by simp, rfl⟩
      rw [if_pos hlater]
      exact ih (List.cons_ne_nil _ _)

theorem results_segments (hb : ∀ c ∈ calls, c.payload.length ≤ maxPayload) {ks : List (Fin calls.length)} (hks : ks.Nodup) :
    results (expected (ks.flatMap segment)) = ks.map fun k => callFrame (calls.get k) := by
  induction ks with
  | nil => rfl
  | cons k ks ih =>
    obtain ⟨hk, hks⟩ := List.nodup_cons.mp hks
    have hlater : ¬ Touches (ks.flatMap segment) k := by
      rintro ⟨d, hd, rfl⟩
      obtain ⟨k', hk', hd⟩ := List.mem_flatMap.mp hd
      obtain ⟨i, -, rfl⟩ := List.mem_map.mp hd
      exact hk hk'
    have hpos : List.range (calls.get k).encode.length ≠ [] := by
      have := encode_length_pos (hb _ (List.get_mem calls k))
      simp only [ne_eq, List.range_eq_nil]
      omega
    rw [List.flatMap_cons, segment, results_segment hlater _ hpos, ih hks, List.map_cons]

/-- Behind the last protocol frame a call is complete. -/
theorem expected_last {ds : List (Delivery calls)} (h : ds ≠ []) : ∃ x, (expected ds).getLast? = some x ∧ x.2.isSome = true := by
  induction ds with
  | nil => exact absurd rfl h
  | cons d later ih =>
    cases later with
    | nil =>
      have hlast : ¬ Touches ([] : List (Delivery calls)) d.1 := by simp [Touches]
      exact ⟨_, rfl, by rw [expectedReport, if_neg hlast]; rfl⟩
    | cons d' later =>
      obtain ⟨x, hx, hsome⟩ := ih (List.cons_ne_nil _ _)
      refine ⟨x, ?_, hsome⟩
      rw [expected, expected, List.getLast?_cons_cons]
      exact hx

end

section
variable {calls : List EncodeCall} (hb : ∀ c ∈ calls, c.payload.length ≤ maxPayload)
include hb

theorem parse_calls (r : ParsedFrame) :
    parseAll frameProtocolInit r (calls.flatMap EncodeCall.encode) = .ok (expected (deliveries calls)) := by
  rw [← bytes_deliveries]
  exact parseAll_expected hb admissible_deliveries _ [] rfl (represents_init Receiving) (holds_init _) r

theorem results_calls : results (expected (deliveries calls)) = calls.map callFrame :=
  calc results (expected (deliveries calls))
      = (List.finRange calls.length).map fun k => callFrame (calls.get k) :=
        results_segments hb (List.nodup_finRange _)
    _ = ((List.finRange calls.length).map calls.get).map callFrame := by rw [List.map_map]; rfl
    _ = calls.map callFrame := by rw [List.map_get_finRange]

/-- **In order.** Fed with the protocol frames of calls that fit, one call
after another, the parser completes each of them once, in that order, with
what was encoded; no frame ids need differ. -/
theorem parse_in_order (r : ParsedFrame) :
    ∃ reports, parseAll frameProtocolInit r (calls.flatMap EncodeCall.encode) = .ok reports ∧
      results reports = calls.map callFrame := ⟨_, parse_calls hb r, results_calls hb⟩

end

/-- A stream that breaks off: what came before is reported as it would have
been. -/
theorem parseAll_prefix {frames frames' : List Bytes} {g : FragmentTable} {r : ParsedFrame} {reports : List Report}
    (h : parseAll g r (frames ++ frames') = .ok reports) :
    ∃ seen, parseAll g r frames = .ok seen ∧ seen <+: reports := by
  induction frames generalizing g r reports with
  | nil => exact ⟨[], rfl, List.nil_prefix⟩
  | cons data frames ih =>
    rw [List.cons_append, parseAll] at h
    rw [parseAll]
    cases hp : frameProtocolParse {} g r data with
    | error e =>
      rw [hp] at h
      cases h
    | ok x =>
      obtain ⟨status, g', r'⟩ := x
      rw [hp, ok_bind] at h
      rw [ok_bind]
      cases hrest : parseAll g' r' (frames ++ frames') with
      | error e =>
        simp only [hrest] at h
        cases h
      | ok reports' =>
        obtain ⟨seen, hseen, hprefix⟩ := ih hrest
        simp only [hrest] at h
        cases h
        refine ⟨report status r' :: seen, ?_, ?_⟩
        · simp only [hseen]
          rfl
        · exact (List.prefix_cons_inj _).mpr hprefix

theorem results_initial {seen reports : List Report} (h : seen <+: reports) : results seen <+: results reports :=
  h.filterMap _

theorem parseAll_length {frames : List Bytes} {g : FragmentTable} {r : ParsedFrame} {reports : List Report}
    (h : parseAll g r frames = .ok reports) : reports.length = frames.length := by
  induction frames generalizing g r reports with
  | nil =>
    cases h
    rfl
  | cons data frames ih =>
    rw [parseAll] at h
    cases hp : frameProtocolParse {} g r data with
    | error e =>
      rw [hp] at h
      cases h
    | ok x =>
      obtain ⟨status, g', r'⟩ := x
      rw [hp, ok_bind] at h
      cases hrest : parseAll g' r' frames with
      | error e =>
        simp only [hrest] at h
        cases h
      | ok reports' =>
        simp only [hrest] at h
        cases h
        rw [List.length_cons, List.length_cons, ih hrest]

/-- What a fresh parser makes of the beginning of the protocol frames of
`calls`. -/
structure Completes (calls : List EncodeCall) (r : ParsedFrame) (seen : List Bytes) (reports : List Report) : Prop where
  parse : parseAll frameProtocolInit r seen = .ok reports
  inOrder : results reports <+: calls.map callFrame
  /-- The first `n` calls are completed iff all of their protocol frames came. -/
  arrived : ∀ n, n ≤ calls.length → (n ≤ (results reports).length ↔ (calls.take n).flatMap EncodeCall.encode <+: seen)

section
variable {calls : List EncodeCall} (hb : ∀ c ∈ calls, c.payload.length ≤ maxPayload) {r : ParsedFrame} {seen more : List Bytes}
  {reports : List Report}
include hb

/-- A stream that lacks something has not completed its last call. -/
theorem results_lacking (h : calls.flatMap EncodeCall.encode = seen ++ more) (hmore : more ≠ [])
    (hp : parseAll frameProtocolInit r seen = .ok reports) : (results reports).length < calls.length := by
  have hall := parse_calls hb r
  have htotal := parseAll_length hall
  rw [h] at hall htotal
  obtain ⟨begun, hbegun, tail, htail⟩ := parseAll_prefix hall
  rw [hp] at hbegun
  cases hbegun
  have hlen := parseAll_length hp
  -- the last report is not among those seen, and it completes a call
  have hne : tail ≠ [] := by
    intro hnil
    have := List.length_pos_iff.mpr hmore
    rw [← htail, hnil, List.append_nil, List.length_append] at htotal
    omega
  have hds : deliveries calls ≠ [] := by
    intro hnil
    rw [hnil, show expected ([] : List (Delivery calls)) = [] from rfl, List.append_eq_nil_iff] at htail
    exact hne htail.2
  obtain ⟨x, hx, hsome⟩ := expected_last hds
  rw [← htail, List.getLast?_append_of_ne_nil _ hne] at hx
  have hpos : 0 < (results tail).length := by
    obtain ⟨frame, hframe⟩ := Option.isSome_iff_exists.mp hsome
    exact List.length_pos_iff_exists_mem.mpr ⟨frame, List.mem_filterMap.mpr ⟨x, List.mem_of_getLast? hx, hframe⟩⟩
  have hsum : (results (expected (deliveries calls))).length = (results reports).length + (results tail).length := by
    rw [← htail, results, List.filterMap_append, List.length_append]
    rfl
  rw [results_calls hb, List.length_map] at hsum
  omega

/-- **A stream that breaks off.** Its calls are completed in order, as far as
their protocol frames came. -/
theorem parse_begun (h : calls.flatMap EncodeCall.encode = seen ++ more) (r : ParsedFrame) :
    ∃ reports, Completes calls r seen reports := by
  obtain ⟨all, hall, hresults⟩ := parse_in_order hb r
  rw [h] at hall
  obtain ⟨reports, hseen, hpre⟩ := parseAll_prefix hall
  refine ⟨reports, hseen, hresults ▸ results_initial hpre, fun n hn => ?_⟩
  have htake : (calls.take n).flatMap EncodeCall.encode <+: calls.flatMap EncodeCall.encode := by
    conv_rhs => rw [← List.take_append_drop n calls, List.flatMap_append]
    exact List.prefix_append ..
  have hbn : ∀ c ∈ calls.take n, c.payload.length ≤ maxPayload := fun c hc => hb c (List.mem_of_mem_take hc)
  constructor
  · intro hlen
    rcases List.prefix_or_prefix_of_prefix htake ⟨more, h.symm⟩ with hle | ⟨lacks, hlacks⟩
    · exact hle
    · by_cases hnil : lacks = []
      · rw [← hlacks, hnil, List.append_nil]
      · have hlt := results_lacking hbn hlacks.symm hnil hseen
        rw [List.length_take, Nat.min_eq_left hn] at hlt
        omega
  · rintro ⟨rest, hrest⟩
    obtain ⟨first, hfirst, hout⟩ := parse_in_order hbn r
    rw [← hrest] at hseen
    obtain ⟨begun, hbegun, hpre'⟩ := parseAll_prefix hseen
    rw [hfirst] at hbegun
    cases hbegun
    have hle := (results_initial hpre').length_le
    rwa [hout, List.length_map, List.length_take, Nat.min_eq_left hn] at hle

end

/-- With all of it every call is completed. -/
theorem Completes.whole {calls : List EncodeCall} {r : ParsedFrame} {reports : List Report}
    (h : Completes calls r (calls.flatMap EncodeCall.encode) reports) : results reports = calls.map callFrame := by
  have hall := (h.arrived calls.length (Nat.le_refl _)).mpr (by rw [List.take_length])
  exact h.inOrder.eq_of_length (Nat.le_antisymm h.inOrder.length_le (by rwa [List.length_map]))

end WebPlayer.L3.Interleaving
