import WebPlayer.L3Protocol.InOrder

/-!
# What is completed of a stream with losses

Calls are encoded one after another, any of their protocol frames are lost,
and the rest arrives in order. Calls that were cut stay in the table, where a
new one may take their slot. As long as no two fragmented calls have the same
frame id, a call that came whole is completed, and nothing else is.

* `parse_part`: what a part of one call completes.
* `lossy_in_order`: the whole stream.
-/
namespace WebPlayer.L3.Interleaving
open WebPlayer.Core WebPlayer.L1.FrameEncoder WebPlayer.L1.FrameParser WebPlayer.L2.FragmentSlots
  WebPlayer.L2.Reassembler

/-! ## Losses -/

/-- Of the frames of `calls` those in `seen` arrive; `got` are the calls of
which nothing is lost. -/
inductive Lossy : List EncodeCall → List Bytes → List EncodeCall → Prop where
  | nil : Lossy [] [] []
  | whole {c : EncodeCall} {calls seen got} (h : Lossy calls seen got) : Lossy (c :: calls) (c.encode ++ seen) (c :: got)
  | cut {c : EncodeCall} {part : List Bytes} {calls seen got} (hpart : part.Sublist c.encode) (hcut : part ≠ c.encode)
      (h : Lossy calls seen got) : Lossy (c :: calls) (part ++ seen) got

theorem lossy_of_sublist {calls : List EncodeCall} {seen : List Bytes}
    (h : seen.Sublist (calls.flatMap EncodeCall.encode)) : ∃ got, Lossy calls seen got := by
  induction calls generalizing seen with
  | nil =>
    obtain rfl := List.sublist_nil.mp h
    exact ⟨[], .nil⟩
  | cons c calls ih =>
    obtain ⟨part, rest, rfl, hpart, hrest⟩ := List.sublist_append_iff.mp h
    obtain ⟨got, hgot⟩ := ih hrest
    by_cases hwhole : part = c.encode
    · exact ⟨c :: got, hwhole ▸ .whole hgot⟩
    · exact ⟨got, .cut hpart hwhole hgot⟩

/-- No two fragmented calls share a frame id. -/
def OwnIds (calls : List EncodeCall) : Prop :=
  calls.Pairwise fun c c' => c.Fragmented → c'.Fragmented → c.frameId ≠ c'.frameId

/-! ## One call -/

/-- What the parser completes of the frames. -/
def Yields (g : FragmentTable) (r : ParsedFrame) (frames : List Bytes) (out : List ParsedFrame) : Prop :=
  ∃ reports, parseAll g r frames = .ok reports ∧ results reports = out

theorem yields_nil (g : FragmentTable) (r : ParsedFrame) : Yields g r [] [] := ⟨[], rfl, rfl⟩

theorem Yields.pending {g g' : FragmentTable} {r : ParsedFrame} {data : Bytes} {frames : List Bytes} {out : List ParsedFrame}
    (hp : frameProtocolParse {} g r data = .ok (.fragmentPending, g', r)) (h : Yields g' r frames out) :
    Yields g r (data :: frames) out := by
  obtain ⟨reports, hall, hout⟩ := h
  refine ⟨report .fragmentPending r :: reports, ?_, hout⟩
  simp [parseAll, hp, hall, ok_bind]

theorem Yields.complete {g g' : FragmentTable} {r r' : ParsedFrame} {data : Bytes} {frames : List Bytes}
    {out : List ParsedFrame} (hp : frameProtocolParse {} g r data = .ok (.complete, g', r')) (h : Yields g' r' frames out) :
    Yields g r (data :: frames) (r' :: out) := by
  obtain ⟨reports, hall, hout⟩ := h
  refine ⟨report .complete r' :: reports, ?_, by rw [← hout]; rfl⟩
  simp [parseAll, hp, hall, ok_bind]

section
variable {c : EncodeCall} (hc : Splits c)

/-- What is filed elsewhere stays or goes. -/
def Less (c : EncodeCall) (A' A : Filed) : Prop := ∀ id, id ≠ c.frameId → A' id = none ∨ A' id = A id

include hc

/-- A fragment of an id that is not filed, though no slot may be free. -/
theorem parse_new_lossy {g : FragmentTable} {A : Filed} (h : Represents Receiving g A) (hA : A c.frameId = none) {i : Nat}
    (hi : i < fragments c) (r : ParsedFrame) : ∃ g' A₀,
      frameProtocolParse {} g r (fragmentFrame c i) = .ok (.fragmentPending, g', r) ∧
      Represents Receiving g' (Function.update A₀ c.frameId (some (c, {i}))) ∧ ∀ id, A₀ id = none ∨ A₀ id = A id := by
  have hrec := (@receiving_infoAfter c ∅ {} (by simp) i).1
  obtain ⟨A₀, hg', hA₀, -⟩ := represents_alloc h hA (entryOf c {i} (infoAfter c i {})) rfl rfl hrec
  exact ⟨_, A₀, deliver_new hc hi {} g r (find_of_not_filed h hA) rfl, hg', hA₀⟩

/-- More fragments of a call that is filed with `S`, in any order. -/
theorem parse_more {is : List Nat} (hnd : is.Nodup) {S : Finset Nat} (hS : S ⊆ Finset.range (fragments c))
    (his : ∀ i ∈ is, i < fragments c ∧ i ∉ S) (hopen : S ≠ Finset.range (fragments c)) {g : FragmentTable} {A : Filed}
    (h : Represents Receiving g A) (hA : A c.frameId = some (c, S)) (r : ParsedFrame) {rest : List Bytes}
    {out : List ParsedFrame} (hrest : ∀ g' A' r', Represents Receiving g' A' → Less c A' A → Yields g' r' rest out) :
    Yields g r (is.map (fragmentFrame c) ++ rest)
      (if S ∪ is.toFinset = Finset.range (fragments c) then callFrame c :: out else out) := by
  induction is generalizing S g A r with
  | nil =>
    rw [List.toFinset_nil, Finset.union_empty, if_neg hopen]
    exact hrest g A r h fun _ _ => .inr rfl
  | cons i is ih =>
    obtain ⟨hfresh, hnd⟩ := List.nodup_cons.mp hnd
    obtain ⟨hi, hiS⟩ := his i List.mem_cons_self
    have hset : S ∪ (i :: is).toFinset = insert i S ∪ is.toFinset := by
      rw [List.toFinset_cons, Finset.insert_union, Finset.union_insert]
    have hinsert : insert i S ⊆ Finset.range (fragments c) := Finset.insert_subset (Finset.mem_range.mpr hi) hS
    have hparse := parse_known hc hi r h hA hS hiS
    rw [hset, List.map_cons, List.cons_append]
    by_cases hfull : insert i S = Finset.range (fragments c)
    · -- the call is complete, so nothing of it is left
      have hnone : is = [] := by
        refine List.eq_nil_iff_forall_not_mem.mpr fun j hj => ?_
        obtain ⟨hjlt, hjS⟩ := his j (List.mem_cons_of_mem _ hj)
        rcases Finset.mem_insert.mp (hfull ▸ Finset.mem_range.mpr hjlt) with rfl | hin
        · exact hfresh hj
        · exact hjS hin
      rw [if_pos hfull] at hparse
      obtain ⟨g', hp, hg'⟩ := hparse
      rw [hnone, List.toFinset_nil, Finset.union_empty, if_pos hfull]
      refine Yields.complete hp (hrest g' _ _ hg' fun id hid => ?_)
      rw [Function.update_of_ne hid]
      exact .inr rfl
    · rw [if_neg hfull] at hparse
      obtain ⟨g', hp, hg'⟩ := hparse
      refine Yields.pending hp (ih hnd hinsert (fun j hj => ?_) hfull hg' (Function.update_self ..) r ?_)
      · obtain ⟨hjlt, hjS⟩ := his j (List.mem_cons_of_mem _ hj)
        refine ⟨hjlt, fun hin => ?_⟩
        rcases Finset.mem_insert.mp hin with rfl | hin
        · exact hfresh hj
        · exact hjS hin
      · intro g₁ A₁ r₁ h₁ hless
        refine hrest g₁ A₁ r₁ h₁ fun id hid => ?_
        have hother := hless id hid
        rwa [Function.update_of_ne hid] at hother

/-- **A part of one call**, its id not filed: it is completed if nothing of
it is lost. -/
theorem parse_part {is : List Nat} (hnd : is.Nodup) (his : ∀ i ∈ is, i < fragments c) {g : FragmentTable} {A : Filed}
    (h : Represents Receiving g A) (hA : A c.frameId = none) (r : ParsedFrame) {rest : List Bytes} {out : List ParsedFrame}
    (hrest : ∀ g' A' r', Represents Receiving g' A' → Less c A' A → Yields g' r' rest out) :
    Yields g r (is.map (fragmentFrame c) ++ rest)
      (if is.toFinset = Finset.range (fragments c) then callFrame c :: out else out) := by
  have htwo := hc.two_le
  cases is with
  | nil =>
    have hne : (∅ : Finset Nat) ≠ Finset.range (fragments c) := by
      intro heq
      have hcard := congrArg Finset.card heq
      simp at hcard
      omega
    rw [List.toFinset_nil, if_neg hne]
    exact hrest g A r h fun _ _ => .inr rfl
  | cons i is =>
    obtain ⟨hfresh, hnd⟩ := List.nodup_cons.mp hnd
    have hi := his i List.mem_cons_self
    obtain ⟨g', A₀, hp, hg', hA₀⟩ := parse_new_lossy hc h hA hi r
    have hopen : ({i} : Finset Nat) ≠ Finset.range (fragments c) := by
      intro heq
      have hcard := congrArg Finset.card heq
      simp at hcard
      omega
    have hset : (i :: is).toFinset = {i} ∪ is.toFinset := by rw [List.toFinset_cons, Finset.insert_eq]
    rw [hset, List.map_cons, List.cons_append]
    refine Yields.pending hp (parse_more hc hnd ?_ (fun j hj => ⟨his j (List.mem_cons_of_mem _ hj), fun hin => ?_⟩) hopen hg'
      (Function.update_self ..) r fun g₁ A₁ r₁ h₁ hless => hrest g₁ A₁ r₁ h₁ fun id hid => ?_)
    · simpa using hi
    · exact hfresh (Finset.mem_singleton.mp hin ▸ hj)
    · have hother := hless id hid
      rw [Function.update_of_ne hid] at hother
      rcases hother with hnone | hsame
      · exact .inl hnone
      · rw [hsame]
        exact hA₀ id

end

/-! ## The stream -/

/-- No call to come finds its id filed. -/
def Unfiled (A : Filed) (calls : List EncodeCall) : Prop := ∀ c ∈ calls, c.Fragmented → A c.frameId = none

/-- What arrives of a fragmented call. -/
theorem part_indices {c : EncodeCall} (hf : c.Fragmented) {part : List Bytes} (h : part.Sublist c.encode) :
    ∃ is : List Nat, part = is.map (fragmentFrame c) ∧ is.Nodup ∧ (∀ i ∈ is, i < fragments c) ∧
      (part = c.encode ↔ is.toFinset = Finset.range (fragments c)) := by
  have hall : c.encode = (List.range (fragments c)).map (fragmentFrame c) := encode_fragments hf
  rw [hall] at h ⊢
  obtain ⟨is, hsub, rfl⟩ := List.sublist_map_iff.mp h
  have hnd : is.Nodup := hsub.nodup List.nodup_range
  refine ⟨is, rfl, hnd, fun i hi => List.mem_range.mp (hsub.subset hi), fun heq => ?_, fun heq => ?_⟩
  · have hlen := congrArg List.length heq
    rw [List.length_map, List.length_map] at hlen
    rw [hsub.eq_of_length hlen]
    simp [Finset.ext_iff]
  · have hcard := congrArg Finset.card heq
    rw [List.toFinset_card_of_nodup hnd, Finset.card_range] at hcard
    rw [hsub.eq_of_length (by rw [hcard, List.length_range])]

theorem lossy_yields {calls got : List EncodeCall} {seen : List Bytes} (hlossy : Lossy calls seen got)
    (hb : ∀ c ∈ calls, c.payload.length ≤ maxPayload) (hids : OwnIds calls) {g : FragmentTable} {A : Filed}
    (h : Represents Receiving g A) (hA : Unfiled A calls) (r : ParsedFrame) : Yields g r seen (got.map callFrame) := by
  -- one call, and the rest after it
  have hcall : ∀ {c : EncodeCall} {part : List Bytes} {calls : List EncodeCall} {seen : List Bytes} {out : List ParsedFrame}
      {g : FragmentTable} {A : Filed} (r : ParsedFrame), c.payload.length ≤ maxPayload → OwnIds (c :: calls) →
      part.Sublist c.encode → Represents Receiving g A → Unfiled A (c :: calls) →
      (∀ g' A' r', Represents Receiving g' A' → Unfiled A' calls → Yields g' r' seen out) →
      Yields g r (part ++ seen) (if part = c.encode then callFrame c :: out else out) := by
    intro c part calls seen out g A r hlen hids hpart h hA hrest
    obtain ⟨hown, -⟩ := List.pairwise_cons.mp hids
    by_cases hf : c.Fragmented
    · obtain ⟨is, rfl, hnd, his, hwhole⟩ := part_indices hf hpart
      simp only [hwhole]
      refine parse_part ⟨hf, hlen⟩ hnd his h (hA c List.mem_cons_self hf) r fun g' A' r' h' hless => hrest g' A' r' h' ?_
      intro c' hc' hf'
      rcases hless c'.frameId (Ne.symm (hown c' hc' hf hf')) with hnone | hsame
      · exact hnone
      · rw [hsame]
        exact hA c' (List.mem_cons_of_mem _ hc') hf'
    · have htail : Unfiled A calls := fun c' hc' => hA c' (List.mem_cons_of_mem _ hc')
      rw [encode_single hf] at hpart ⊢
      rcases List.sublist_singleton.mp hpart with rfl | rfl
      · simpa using hrest g A r h htail
      · have hp : frameProtocolParse {} g r (singleFrame c) = .ok (.complete, g, callFrame c) := by
          rw [parse_single hf, if_pos (.inr rfl)]
        simpa using Yields.complete hp (hrest g A _ h htail)
  induction hlossy generalizing g A r with
  | nil => exact yields_nil g r
  | @whole c calls seen got _ ih =>
    have hstep := hcall r (hb c List.mem_cons_self) hids (List.Sublist.refl _) h hA fun g' A' r' h' hA' =>
      ih (fun c' hc' => hb c' (List.mem_cons_of_mem _ hc')) (List.pairwise_cons.mp hids).2 h' hA' r'
    rwa [if_pos rfl] at hstep
  | @cut c part calls seen got hpart hcut _ ih =>
    have hstep := hcall r (hb c List.mem_cons_self) hids hpart h hA fun g' A' r' h' hA' =>
      ih (fun c' hc' => hb c' (List.mem_cons_of_mem _ hc')) (List.pairwise_cons.mp hids).2 h' hA' r'
    rwa [if_neg hcut] at hstep

/-- **A stream with losses.** Calls that fit, with frame ids of their own, are
encoded one after another; whichever protocol frames are lost, a fresh parser
completes the calls of which nothing was lost, in order, with what was
encoded, and nothing else. -/
theorem lossy_in_order {calls : List EncodeCall} (hb : ∀ c ∈ calls, c.payload.length ≤ maxPayload) (hids : OwnIds calls)
    {seen : List Bytes} (hseen : seen.Sublist (calls.flatMap EncodeCall.encode)) (r : ParsedFrame) :
    ∃ got reports, Lossy calls seen got ∧ parseAll frameProtocolInit r seen = .ok reports ∧
      results reports = got.map callFrame := by
  obtain ⟨got, hgot⟩ := lossy_of_sublist hseen
  obtain ⟨reports, hall, hout⟩ := lossy_yields hgot hb hids (represents_init Receiving) (fun _ _ _ => rfl) r
  exact ⟨got, reports, hgot, hall, hout⟩

/-- A call of two fragments and a short one. -/
def splitCall : EncodeCall where
  payload := List.replicate 16385 0xAA
  media := .video .h264 .idr
  timestampMs := 0
  absTimeMs := 0
  frameId := 0

def shortCall : EncodeCall := { splitCall with payload := [1, 2, 3], frameId := 1 }

theorem lossy_in_order_sample : ∃ got reports, Lossy [splitCall, shortCall] (splitCall.encode.drop 1 ++ shortCall.encode) got ∧
    parseAll frameProtocolInit {} (splitCall.encode.drop 1 ++ shortCall.encode) = .ok reports ∧
    results reports = got.map callFrame := by
  have hb : ∀ c ∈ [splitCall, shortCall], c.payload.length ≤ maxPayload := by
    intro c hc
    rcases List.mem_pair.mp hc with rfl | rfl
    · rw [splitCall, List.length_replicate]
      decide
    · decide
  have hids : OwnIds [splitCall, shortCall] :=
    List.pairwise_pair.mpr fun _ _ => by decide
  have hseen : (splitCall.encode.drop 1 ++ shortCall.encode).Sublist ([splitCall, shortCall].flatMap EncodeCall.encode) := by
    simpa using List.drop_sublist 1 splitCall.encode
  exact lossy_in_order hb hids hseen {}

end WebPlayer.L3.Interleaving
