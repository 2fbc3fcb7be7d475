import WebPlayer.L2Machine.TableInvariant

/-!
# The validity table of the extension headers

`docs/websocket_frame_protocol.md:262-271` lists the frames a receiver must
discard for their extension headers. `parse_ext_headers` skips a layer that
does not fit and reports nothing; what discards a frame is the caller's test
of `total_frags`, which stays 0 when the fragment layer was skipped.

* `parseExtHeaders_totalFrags`: the only field that test reads.
* `discarded_iff`: a malformed frame is discarded without effect iff it is a
  fragment whose fragment layer is missing or whose total is not 1 to 256.
-/
namespace WebPlayer.L2.ExtValidity
open WebPlayer.Core WebPlayer.L1.FrameEncoder WebPlayer.L1.FrameParser WebPlayer.L2.PieceSlots
  WebPlayer.L2.TableInvariant

/-! ## The table -/

section
variable (data : Bytes)

def IsFragmented : Prop := (headerOf data).flags &&& FLAG_FRAGMENT ≠ 0

def HasCommon : Prop := (headerOf data).flags &&& FLAG_HAS_COMMON ≠ 0

instance : Decidable (IsFragmented data) := inferInstanceAs (Decidable (_ ≠ _))

instance : Decidable (HasCommon data) := inferInstanceAs (Decidable (_ ≠ _))

def extLength : Nat := (headerOf data).extLength.toNat

/-- A 16-bit field of the fragment layer. -/
def fragmentField (off : Nat) : Nat := beNat ((data.drop (FIXED_HEADER_SIZE + off)).take 2)

def fragmentIndex : Nat := fragmentField data 2

def totalFragments : Nat := fragmentField data 4

/-- Where the common header begins in the extension area. -/
def commonOffset : Nat := if IsFragmented data then FRAGMENT_EXT_SIZE else 0

def commonLength : Nat := (data.getD (FIXED_HEADER_SIZE + commonOffset data) 0).toNat

/-- Where the type-specific header begins. -/
def typeOffset : Nat := commonOffset data + if HasCommon data then commonLength data else 0

/-- The rules of the table, one constructor for each way to break them. -/
inductive Malformed : Prop where
  | noFragmentLayer (hf : IsFragmented data) (h : extLength data < FRAGMENT_EXT_SIZE)
  | noCommonLayer (hc : HasCommon data) (h : extLength data < commonOffset data + 2)
  | shortCommon (hc : HasCommon data) (h : commonLength data < 2)
  | longCommon (hc : HasCommon data) (h : extLength data < commonOffset data + commonLength data)
  | shortType (hm : (headerOf data).msgType = 0x01 ∨ (headerOf data).msgType = 0x02)
      (hf : ¬ IsFragmented data ∨ fragmentIndex data = 0) (h : extLength data < typeOffset data + 4)
  | badIndex (hf : IsFragmented data) (h : totalFragments data ≤ fragmentIndex data)

/-- Valid magic, version and total size. -/
structure ValidHeader : Prop where
  length : 20 ≤ data.length
  size : data.length < 2 ^ 31
  recognised : Recognised data
  declared : declaredSize data ≤ data.length

/-- Rejected, with nothing changed. -/
def Discarded : Prop :=
  ∀ m g r, frameProtocolParse m g r data = .ok (.error, g, r)

/-- The test of the caller: no total, or one that the table cannot hold. -/
def NoTotal : Prop :=
  extLength data < FRAGMENT_EXT_SIZE ∨ totalFragments data = 0 ∨ MAX_FRAGMENTS < totalFragments data

end

/-! ## What the caller learns -/

section
variable {data : Bytes} {ext : UInt8} (hext : FIXED_HEADER_SIZE + ext.toNat ≤ data.length)
include hext

/-- `total_frags` is read where the fragment layer fits, and stays 0
otherwise. -/
theorem parseFragmentLayer_totalFrags {flags o : UInt8} {f : ExtFields}
    (h : parseFragmentLayer data ext flags {} = .ok (o, f)) : f.totalFrags.toNat =
      if flags &&& FLAG_FRAGMENT ≠ 0 ∧ FRAGMENT_EXT_SIZE ≤ ext.toNat then totalFragments data else 0 := by
  unfold parseFragmentLayer at h
  split at h
  · rename_i hc
    have hfit : 6 ≤ ext.toNat := hc.2
    simp only [FIXED_HEADER_SIZE] at hext
    rw [readBe16_ok (by simp only [FIXED_HEADER_SIZE]; omega), readBe16_ok (by simp only [FIXED_HEADER_SIZE]; omega),
      readBe16_ok (by simp only [FIXED_HEADER_SIZE]; omega)] at h
    cases h
    have hle : ((data.drop (FIXED_HEADER_SIZE + 4)).take 2).length ≤ 2 := by simp
    rw [if_pos hc]
    refine UInt16.toNat_ofNat_of_lt' ?_
    calc beNat ((data.drop (FIXED_HEADER_SIZE + 4)).take 2)
        < 256 ^ ((data.drop (FIXED_HEADER_SIZE + 4)).take 2).length := beNat_lt _
      _ ≤ 256 ^ 2 := Nat.pow_le_pow_right (by decide) hle
  · rename_i hc
    cases h
    rw [if_neg hc]
    rfl

theorem parseCommonLayer_totalFrags {flags o o' : UInt8} {f f' : ExtFields}
    (h : parseCommonLayer data ext flags o f = .ok (o', f')) : f'.totalFrags = f.totalFrags := by
  unfold parseCommonLayer at h
  split at h
  · rename_i hc
    have hfit := hc.2
    rw [readByte_ok (by omega), readByte_ok (by omega), ok_bind, ok_bind] at h
    split at h
    · rename_i ha
      have hfit := ha.2.2
      rw [readBe64_ok (by omega)] at h
      cases h
      rfl
    · cases h
      rfl
  · cases h
    rfl

theorem parseTypeLayer_totalFrags {msgType o : UInt8} {f f' : ExtFields}
    (h : parseTypeLayer data ext msgType o f = .ok f') : f'.totalFrags = f.totalFrags := by
  unfold parseTypeLayer at h
  split at h
  · rename_i hc
    have hfit := hc.2
    rw [readByte_ok (by omega), readByte_ok (by omega), readBe16_ok (by omega)] at h
    cases h
    rfl
  · split at h
    · rename_i hc
      have hfit := hc.2
      rw [readByte_ok (by omega), readByte_ok (by omega), readByte_ok (by omega)] at h
      cases h
      rfl
    · cases h
      rfl

/-- The later layers leave it alone. -/
theorem parseExtHeaders_totalFrags {flags msgType : UInt8} {f : ExtFields}
    (h : parseExtHeaders data ext flags msgType = .ok f) : f.totalFrags.toNat =
      if flags &&& FLAG_FRAGMENT ≠ 0 ∧ FRAGMENT_EXT_SIZE ≤ ext.toNat then totalFragments data else 0 := by
  obtain ⟨⟨o₁, f₁⟩, h₁⟩ := parseFragmentLayer_returns hext flags {}
  obtain ⟨⟨o₂, f₂⟩, h₂⟩ := parseCommonLayer_returns hext flags o₁ f₁
  rw [parseExtHeaders, h₁, ok_bind] at h
  simp only [h₂, ok_bind] at h
  rw [parseTypeLayer_totalFrags hext h, parseCommonLayer_totalFrags hext h₂]
  exact parseFragmentLayer_totalFrags hext h₁

end

/-! ## What is discarded -/

section
variable {data : Bytes} (hv : ValidHeader data)
include hv

theorem ext_fits : FIXED_HEADER_SIZE + (headerOf data).extLength.toNat ≤ data.length := by
  have hlen := hv.length
  have hdecl := hv.declared
  rw [declaredSize_eq (by omega)] at hdecl
  omega

theorem validateHeader_valid : validateHeader data = .ok (.ok (headerOf data)) := by
  have hlen := hv.length
  have hdecl := hv.declared
  rw [declaredSize_eq (by omega)] at hdecl
  refine (validateHeader_ok hv.size).mpr ⟨hlen, hv.recognised, ?_, rfl⟩
  exact (sizeTooSmall_eq_false_iff _ _ hlen hv.size).mpr (.inl hdecl)

/-- A frame with a valid header, up to the extension headers. -/
theorem parse_valid : ∃ f, parseExtHeaders data (headerOf data).extLength (headerOf data).flags
    (headerOf data).msgType = .ok f ∧ ∀ m g r, frameProtocolParse m g r data =
      if (headerOf data).flags &&& FLAG_FRAGMENT = 0 then
        (parseSingle m (headerOf data) f data).map fun (status, result) => (status, g, result)
      else parseFragment m g r (headerOf data) f data := by
  obtain ⟨f, hf⟩ := parseExtHeaders_returns (ext_fits hv) (headerOf data).flags (headerOf data).msgType
  refine ⟨f, hf, fun m g r => ?_⟩
  rw [frameProtocolParse, validateHeader_valid hv, ok_bind]
  simp only [hf, ok_bind]
  rfl

/-- A fragment without a usable total is discarded, whatever else it holds. -/
theorem discarded_of_noTotal (hf : IsFragmented data) (hn : NoTotal data) : Discarded data := by
  intro m g r
  obtain ⟨f, hfields, hparse⟩ := parse_valid hv
  have htotal := parseExtHeaders_totalFrags (ext_fits hv) hfields
  rw [hparse, if_neg hf]
  refine parseFragment_refused ?_ m g r _ data
  rcases hn with hn | hn | hn
  · rw [if_neg fun hc => Nat.not_lt.mpr hc.2 hn] at htotal
    exact .inl htotal
  · left
    rw [htotal, hn]
    exact ite_self 0
  · by_cases hc : (headerOf data).flags &&& FLAG_FRAGMENT ≠ 0 ∧ FRAGMENT_EXT_SIZE ≤ (headerOf data).extLength.toNat
    · rw [if_pos hc] at htotal
      exact .inr (by rwa [htotal])
    · rw [if_neg hc] at htotal
      exact .inl htotal

/-- Everything else completes or is filed, in an empty table already. -/
theorem not_discarded (hn : ¬ (IsFragmented data ∧ NoTotal data)) : ¬ Discarded data := by
  intro hdis
  obtain ⟨f, hfields, hparse⟩ := parse_valid hv
  have htotal := parseExtHeaders_totalFrags (ext_fits hv) hfields
  obtain ⟨-, piece, hpay, hle⟩ := payload_returns hv.size (validateHeader_valid hv) hv.declared
  have herror := hdis {} frameProtocolInit {}
  rw [hparse] at herror
  by_cases hf : IsFragmented data
  · have hsize : ¬ NoTotal data := fun h => hn ⟨hf, h⟩
    simp only [NoTotal, not_or, Nat.not_lt, MAX_FRAGMENTS] at hsize
    obtain ⟨hext, hpos, hmax⟩ := hsize
    rw [if_pos ⟨hf, hext⟩] at htotal
    have hinit : system.init ⟨frameProtocolInit, {}⟩ := rfl
    obtain ⟨A, hrep⟩ := represents_reachable (Lts.reachable_init hinit)
    have hempty : bufferBytes frameProtocolInit = 0 := by decide
    have hsz := hv.size
    obtain ⟨y, g', -, -, hstep, -⟩ := parseFragment_filed hrep (f := f) (by omega) hpay
      (by rw [hempty]; omega) {}
    rw [if_neg hf, hstep] at herror
    simp only [Except.ok.injEq, Prod.mk.injEq] at herror
    exact statusAfter_ne y herror.1
  · rw [if_pos (not_not.mp hf), parseSingle] at herror
    simp only [hpay, if_true, ok_bind, pure_eq_ok] at herror
    split at herror
    · cases herror
    · cases herror

/-- **The validity table.** A frame that breaks a rule is discarded without
effect iff it is a fragment whose fragment layer is missing or whose total is
not 1 to 256. -/
theorem discarded_iff (_ : Malformed data) : Discarded data ↔ IsFragmented data ∧ NoTotal data := by
  constructor
  · intro hdis
    by_contra hn
    exact not_discarded hv hn hdis
  · exact fun ⟨hf, hn⟩ => discarded_of_noTotal hv hf hn

end

/-- A fragment without its fragment layer. -/
def bareFragment : Bytes := [0xEB, 0x01, 1, 1, 1, 0, 0, 0, 0, 0, 0, 0, 0, 0, 0, 0, 0, 0, 0, 0]

theorem discarded_iff_bare : Discarded bareFragment := by
  have hv : ValidHeader bareFragment := ⟨by decide, by decide, by decide, by decide⟩
  have hf : IsFragmented bareFragment := by decide
  exact (discarded_iff hv (.noFragmentLayer hf (by decide))).mpr ⟨hf, .inl (by decide)⟩

/-- The bare header of an empty payload. -/
def emptyFrame : Bytes := [0xEB, 0x01, 1, 1, 0, 0, 0, 0, 0, 0, 0, 0, 0, 0, 0, 0, 0, 0, 0, 0]

/-- **An accepted violation.** A video frame with no extension area at all is
returned as complete. -/
theorem bare_frame_completes : ValidHeader emptyFrame ∧ Malformed emptyFrame ∧
    frameProtocolParse {} frameProtocolInit {} emptyFrame =
      .ok (.complete, frameProtocolInit, { info := { msgType := 1 } }) ∧ ¬ Discarded emptyFrame := by
  have hparse : frameProtocolParse {} frameProtocolInit {} emptyFrame =
      .ok (.complete, frameProtocolInit, { info := { msgType := 1 } }) := rfl
  refine ⟨⟨by decide, by decide, by decide, by decide⟩,
    .shortType (.inl (by decide)) (.inl (by decide)) (by decide), hparse, fun hdis => ?_⟩
  rw [hdis] at hparse
  cases hparse

end WebPlayer.L2.ExtValidity
