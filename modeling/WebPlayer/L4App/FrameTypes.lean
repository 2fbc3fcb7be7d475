import WebPlayer.L4App.Media

/-!
# The two frame type detectors (`server/main.cpp:378-445`)

`DetectFrameType` goes through the NAL units of an access unit to the first
one it knows; `DetectFrameTypeFromPacket` judges a packet by its first header
byte, and by nothing behind it. In front of the picture a delimiter or an SEI
is enough for the packet to be a P frame.

* `detectors_agree_iff`: they agree on the access units where no parameter
  set, IDR or I slice comes only after NAL units they do not know.
-/
namespace WebPlayer.L4.Media
open WebPlayer.Core WebPlayer.L1.FrameEncoder

/-- A 3- or 4-byte start code and a header byte. -/
def HasHeader (nal : NalUnit) : Prop :=
  (nal.data.take 4 = [0, 0, 0, 1] ∧ 5 ≤ nal.data.length) ∨ (nal.data.take 3 = [0, 0, 1] ∧ 4 ≤ nal.data.length)

instance (nal : NalUnit) : Decidable (HasHeader nal) := inferInstanceAs (Decidable (_ ∨ _))

/-- The byte behind the start code. -/
def headerByte (nal : NalUnit) : UInt8 := nal.data.getD (startCodeLength nal.data) 0

/-- A header that `DetectFrameType` passes over: of a delimiter, an SEI, a
reserved type, and in H.264 of a data partition. -/
def OtherNal (isH265 : Bool) (b : UInt8) : Prop :=
  if isH265 then (24 ≤ nalTypeH265 b ∧ nalTypeH265 b ≤ 31) ∨ 35 ≤ nalTypeH265 b
  else nalTypeH264 b ≠ 1 ∧ nalTypeH264 b ≠ 5 ∧ nalTypeH264 b ≠ 7 ∧ nalTypeH264 b ≠ 8

/-- A header of a parameter set or of a picture that can be decoded alone. -/
def EntryNal (isH265 : Bool) (b : UInt8) : Prop :=
  if isH265 then (16 ≤ nalTypeH265 b ∧ nalTypeH265 b ≤ 23) ∨ (32 ≤ nalTypeH265 b ∧ nalTypeH265 b ≤ 34)
  else nalTypeH264 b = 5 ∨ nalTypeH264 b = 7 ∨ nalTypeH264 b = 8

/-- No parameter set and no picture that can be decoded alone has only other
NAL units in front of it. -/
def EntryFirst (isH265 : Bool) (nalUnits : List NalUnit) : Prop :=
  ∀ pre nal post, nalUnits = pre ++ nal :: post → pre ≠ [] → (∀ n ∈ pre, OtherNal isH265 (headerByte n)) →
    ¬ EntryNal isH265 (headerByte nal)

/-! ## What a header byte says -/

theorem classifyNal_none_iff {isH265 : Bool} {b : UInt8} : classifyNal isH265 b = none ↔ OtherNal isH265 b := by
  unfold classifyNal OtherNal
  cases isH265 with
  | true => generalize nalTypeH265 b = t; grind
  | false => generalize nalTypeH264 b = t; grind

instance (isH265 : Bool) (b : UInt8) : Decidable (OtherNal isH265 b) := decidable_of_iff _ classifyNal_none_iff

theorem classifyNal_entry_iff {isH265 : Bool} {b : UInt8} :
    (classifyNal isH265 b).getD .pFrame ≠ .pFrame ↔ EntryNal isH265 b := by
  unfold classifyNal EntryNal
  cases isH265 with
  | true => generalize nalTypeH265 b = t; grind
  | false => generalize nalTypeH264 b = t; grind

/-! ## What the detectors read -/

/-- The start code is read off the first bytes. -/
theorem startCodeLength_append {data : Bytes} (h : 4 ≤ data.length) (behind : Bytes) :
    startCodeLength (data ++ behind) = startCodeLength data := by
  have hget : ∀ i < 4, (data ++ behind).getD i 0 = data.getD i 0 := by
    intro i hi
    rw [List.getD_append _ _ _ _ (by omega)]
  simp only [startCodeLength, hget 0 (by decide), hget 1 (by decide), hget 2 (by decide), hget 3 (by decide)]

/-- A NAL unit with a header has a start code that ends in front of it. -/
theorem HasHeader.code {nal : NalUnit} (h : HasHeader nal) :
    4 ≤ nal.data.length ∧ startCodeLength nal.data ≠ 0 ∧ startCodeLength nal.data < nal.data.length := by
  have hget : ∀ n (bytes : Bytes), nal.data.take n = bytes → ∀ i < n, nal.data.getD i 0 = bytes.getD i 0 := by
    intro n bytes htake i hi
    rw [← htake, List.getD_eq_getElem?_getD, List.getD_eq_getElem?_getD, List.getElem?_take_of_lt hi]
  rcases h with ⟨htake, hlen⟩ | ⟨htake, hlen⟩
  · have hb := hget 4 _ htake
    have h4 : startCodeLength nal.data = 4 := by
      rw [startCodeLength, hb 0 (by decide), hb 1 (by decide), hb 2 (by decide), hb 3 (by decide)]
      rfl
    omega
  · have hb := hget 3 _ htake
    have h3 : startCodeLength nal.data = 3 := by
      rw [startCodeLength, hb 0 (by decide), hb 1 (by decide), hb 2 (by decide)]
      rfl
    omega

theorem detectFrameType_eq {isH265 : Bool} {au : AccessUnit} (h : ∀ nal ∈ au.nalUnits, HasHeader nal) :
    detectFrameType isH265 au =
      (au.nalUnits.findSome? fun nal => classifyNal isH265 (headerByte nal)).getD .pFrame := by
  have hcongr : ∀ nals : List NalUnit, (∀ nal ∈ nals, HasHeader nal) →
      (nals.findSome? fun nal =>
        if (if 4 ≤ nal.data.length then startCodeLength nal.data else 0) = 0 ∨
            nal.data.length ≤ (if 4 ≤ nal.data.length then startCodeLength nal.data else 0) then none
        else classifyNal isH265 (nal.data.getD (if 4 ≤ nal.data.length then startCodeLength nal.data else 0) 0)) =
      nals.findSome? fun nal => classifyNal isH265 (headerByte nal) := by
    intro nals hnals
    induction nals with
    | nil => rfl
    | cons nal nals ih =>
      obtain ⟨h4, hne, hlt⟩ := (hnals nal (List.mem_cons_self ..)).code
      have hrest := ih fun n hn => hnals n (List.mem_cons_of_mem _ hn)
      rw [List.findSome?_cons, List.findSome?_cons, hrest, if_pos h4, if_neg (by omega), headerByte]
  exact congrArg (Option.getD · VideoFrameType.pFrame) (hcongr au.nalUnits h)

theorem detectFrameTypeFromPacket_eq {isH265 : Bool} {first : NalUnit} (h : HasHeader first) {behind : Bytes}
    (h5 : 5 ≤ (first.data ++ behind).length) :
    detectFrameTypeFromPacket isH265 (first.data ++ behind) =
      (classifyNal isH265 (headerByte first)).getD .pFrame := by
  obtain ⟨h4, hne, hlt⟩ := h.code
  have hb : (first.data ++ behind).getD (startCodeLength first.data) 0 = headerByte first := by
    rw [List.getD_append _ _ _ _ hlt, headerByte]
  rw [detectFrameTypeFromPacket, if_neg (by omega)]
  simp only [startCodeLength_append h4, if_neg hne, hb]
  unfold classifyNal
  cases isH265 with
  | true => generalize nalTypeH265 (headerByte first) = t; grind
  | false => generalize nalTypeH264 (headerByte first) = t; grind

/-! ## When they agree -/

/-- Whether the first element that is decided is decided for something else
than the default. -/
theorem findSome_getD_ne_iff {α β : Type} {f : α → Option β} {d : β} {l : List α} :
    (l.findSome? f).getD d ≠ d ↔
      ∃ pre a post, l = pre ++ a :: post ∧ (∀ x ∈ pre, f x = none) ∧ (f a).getD d ≠ d := by
  constructor
  · intro h
    cases hf : l.findSome? f with
    | none => simp [hf] at h
    | some b =>
      obtain ⟨pre, a, post, hl, ha, hpre⟩ := List.findSome?_eq_some_iff.mp hf
      exact ⟨pre, a, post, hl, hpre, by simpa [ha, hf] using h⟩
  · rintro ⟨pre, a, post, rfl, hpre, ha⟩
    cases hfa : f a with
    | none => simp [hfa] at ha
    | some b =>
      have hf : (pre ++ a :: post).findSome? f = some b := List.findSome?_eq_some_iff.mpr ⟨pre, a, post, rfl, hfa, hpre⟩
      simpa [hf, hfa] using ha

/-- **The detectors agree** on an access unit exactly when no parameter set,
IDR or I slice has only other NAL units in front of it. -/
theorem detectors_agree_iff (isH265 : Bool) (au : AccessUnit) (hnals : ∀ nal ∈ au.nalUnits, HasHeader nal)
    (hsize : 5 ≤ (au.nalUnits.flatMap (·.data)).length) :
    detectFrameType isH265 au = detectFrameTypeFromPacket isH265 (au.nalUnits.flatMap (·.data)) ↔
      EntryFirst isH265 au.nalUnits := by
  rw [detectFrameType_eq hnals]
  generalize au.nalUnits = nals at hnals hsize ⊢
  cases nals with
  | nil => simp at hsize
  | cons first rest =>
    rw [List.flatMap_cons] at hsize ⊢
    rw [detectFrameTypeFromPacket_eq (hnals first (List.mem_cons_self ..)) hsize, List.findSome?_cons]
    cases hfirst : classifyNal isH265 (headerByte first) with
    | some t =>
      refine iff_of_true rfl ?_
      intro pre nal post hsplit hne hpre
      cases pre with
      | nil => exact absurd rfl hne
      | cons p pre =>
        obtain ⟨rfl, -⟩ := List.cons.inj hsplit
        have hnone := classifyNal_none_iff.mpr (hpre first (List.mem_cons_self ..))
        rw [hfirst] at hnone
        cases hnone
    | none =>
      rw [Option.getD_none, ← not_iff_not, ← ne_eq, findSome_getD_ne_iff]
      have hother := classifyNal_none_iff.mp hfirst
      constructor
      · rintro ⟨pre, nal, post, rfl, hpre, hnal⟩ hentry
        refine hentry (first :: pre) nal post rfl (List.cons_ne_nil _ _) ?_ (classifyNal_entry_iff.mp hnal)
        exact List.forall_mem_cons.mpr ⟨hother, fun n hn => classifyNal_none_iff.mp (hpre n hn)⟩
      · intro hentry
        simp only [EntryFirst, not_forall, not_not] at hentry
        obtain ⟨pre, nal, post, hsplit, hne, hpre, hnal⟩ := hentry
        cases pre with
        | nil => exact absurd rfl hne
        | cons p pre =>
          obtain ⟨rfl, rfl⟩ := List.cons.inj hsplit
          refine ⟨pre, nal, post, rfl, fun n hn => ?_, classifyNal_entry_iff.mpr hnal⟩
          exact classifyNal_none_iff.mpr (hpre n (List.mem_cons_of_mem _ hn))

/-- An SPS and an IDR slice of H.264. -/
theorem detectors_agree_parameter_set :
    detectFrameType false ⟨[⟨[0, 0, 0, 1, 0x67]⟩, ⟨[0, 0, 1, 0x65]⟩]⟩ =
      detectFrameTypeFromPacket false ([⟨[0, 0, 0, 1, 0x67]⟩, ⟨[0, 0, 1, 0x65]⟩].flatMap NalUnit.data) := by
  refine (detectors_agree_iff false ⟨[⟨[0, 0, 0, 1, 0x67]⟩, ⟨[0, 0, 1, 0x65]⟩]⟩ (by decide) (by decide)).mpr ?_
  intro pre nal post hsplit hne hpre
  cases pre with
  | nil => exact absurd rfl hne
  | cons p pre =>
    obtain ⟨rfl, -⟩ := List.cons.inj hsplit
    exact absurd (hpre _ (List.mem_cons_self ..)) (by decide)

/-- A delimiter and an IDR slice of H.264: in raw mode an IDR frame, from an
MP4 file a P frame. -/
theorem delimiter_hides_idr :
    ¬ ∀ (isH265 : Bool) (au : AccessUnit), (∀ nal ∈ au.nalUnits, HasHeader nal) →
      5 ≤ (au.nalUnits.flatMap (·.data)).length →
      detectFrameType isH265 au = detectFrameTypeFromPacket isH265 (au.nalUnits.flatMap (·.data)) := by
  intro h
  have hagree := h false ⟨[⟨[0, 0, 0, 1, 0x09, 0xF0]⟩, ⟨[0, 0, 0, 1, 0x65, 0x88]⟩]⟩ (by decide) (by decide)
  revert hagree
  decide

end WebPlayer.L4.Media
