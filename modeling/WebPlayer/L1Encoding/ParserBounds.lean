import WebPlayer.Core.Faults
import WebPlayer.L1Encoding.FrameParser

/-!
# What the frame parser reads of its input

The size validation compares `size` with `20 + ext_length +
(int)payload_length`. The cast makes a declared length of `2^31` or more
negative, and the sum itself can pass `2^31`, so the test accepts frames
that declare more than they bring.

* `declaredSize`: the bytes the two length fields promise.
* `validateHeader_ok`: what a header that passes the validation says.
* `parse_never_inputRead`: if the frame brings what it declares, no call
  reads outside it, from any table and whatever the allocator does.
* `size_validation_exact`: the validation protects the reads exactly on the
  frames of `SizeFits`; `size_validation_passes_short_frame` is a 20-byte
  frame on which it does not.
-/
namespace WebPlayer.L1.FrameParser
open WebPlayer.Core WebPlayer.L1.FrameEncoder

/-- `20 + ext_length + payload_length` of the raw fields, as naturals. -/
def declaredSize (data : Bytes) : Nat :=
  FIXED_HEADER_SIZE + (data.getD 13 0).toNat + beNat ((data.drop 14).take 4)

/-! ## Header reads -/

theorem readInput_ok {data : Bytes} {off len : Nat} (h : off + len ≤ data.length) :
    readInput data off len = .ok ((data.drop off).take len) := if_pos h

theorem readByte_ok {data : Bytes} {off : Nat} (h : off < data.length) :
    readByte data off = .ok (data.getD off 0) := by
  unfold readByte
  rw [List.getElem?_eq_getElem h, List.getD_eq_getElem?_getD, List.getElem?_eq_getElem h]
  rfl

theorem readBe16_ok {data : Bytes} {off : Nat} (h : off + 2 ≤ data.length) :
    readBe16 data off = .ok (UInt16.ofNat (beNat ((data.drop off).take 2))) := by
  rw [readBe16, readInput_ok h]; rfl

theorem readBe32_ok {data : Bytes} {off : Nat} (h : off + 4 ≤ data.length) :
    readBe32 data off = .ok (UInt32.ofNat (beNat ((data.drop off).take 4))) := by
  rw [readBe32, readInput_ok h]; rfl

theorem readBe64_ok {data : Bytes} {off : Nat} (h : off + 8 ≤ data.length) :
    readBe64 data off = .ok (UInt64.ofNat (beNat ((data.drop off).take 8))).toInt64 := by
  rw [readBe64, readInput_ok h]; rfl

/-- The header the raw bytes spell. -/
def headerOf (data : Bytes) : FixedHeader where
  msgType := data.getD 3 0
  flags := data.getD 4 0
  timestamp := (UInt64.ofNat (beNat ((data.drop 5).take 8))).toInt64
  extLength := data.getD 13 0
  payloadLength := UInt32.ofNat (beNat ((data.drop 14).take 4))

theorem readFixedHeader_ok {data : Bytes} (h : 18 ≤ data.length) :
    readFixedHeader data = .ok (headerOf data) := by
  rw [readFixedHeader, readByte_ok (by omega), readByte_ok (by omega), readBe64_ok (by omega),
    readByte_ok (by omega), readBe32_ok (by omega)]
  rfl

theorem headerOf_payloadLength {data : Bytes} (h : 18 ≤ data.length) :
    (headerOf data).payloadLength.toNat = beNat ((data.drop 14).take 4) := by
  have hlen : ((data.drop 14).take 4).length = 4 := by simp; omega
  have hlt := beNat_lt ((data.drop 14).take 4)
  rw [hlen] at hlt
  exact UInt32.toNat_ofNat_of_lt' hlt

theorem declaredSize_eq {data : Bytes} (h : 18 ≤ data.length) :
    declaredSize data =
      FIXED_HEADER_SIZE + (headerOf data).extLength.toNat + (headerOf data).payloadLength.toNat := by
  simp only [declaredSize, headerOf_payloadLength h]
  simp only [headerOf]

/-- The magic and version tests. -/
def Recognised (data : Bytes) : Prop :=
  UInt16.ofNat (beNat (data.take 2)) = PROTOCOL_MAGIC ∧ data.getD 2 0 = PROTOCOL_VERSION

instance (data : Bytes) : Decidable (Recognised data) := inferInstanceAs (Decidable (_ ∧ _))

/-- The validation of an input that has a whole fixed header. -/
theorem validateHeader_eq {data : Bytes} (h20 : 20 ≤ data.length) (hlt : data.length < 2 ^ 31) :
    validateHeader data =
      if UInt16.ofNat (beNat (data.take 2)) ≠ PROTOCOL_MAGIC then .ok (.error .error)
      else if data.getD 2 0 ≠ PROTOCOL_VERSION then .ok (.error .skip)
      else if sizeTooSmall data.length (headerOf data).extLength (headerOf data).payloadLength then
        .ok (.error .error)
      else .ok (.ok (headerOf data)) := by
  have hsize : int32 data.length = data.length := int32_of_small (by omega) (by omega)
  unfold validateHeader
  simp only [hsize, FIXED_HEADER_SIZE, readBe16_ok (show 0 + 2 ≤ data.length by omega),
    readByte_ok (show 2 < data.length by omega), readFixedHeader_ok (show 18 ≤ data.length by omega),
    ok_bind, pure_eq_ok, List.drop_zero]
  rw [if_neg (by omega)]

theorem validateHeader_short {data : Bytes} (h : data.length < 20) :
    validateHeader data = .ok (.error .error) := by
  have hsize : int32 data.length = data.length := int32_of_small (by omega) (by omega)
  unfold validateHeader
  simp only [hsize, FIXED_HEADER_SIZE, pure_eq_ok]
  rw [if_pos (by omega)]

/-- What passing the validation says of the input. -/
theorem validateHeader_ok {data : Bytes} (hlt : data.length < 2 ^ 31) {h : FixedHeader} :
    validateHeader data = .ok (.ok h) ↔
      20 ≤ data.length ∧ Recognised data ∧
        sizeTooSmall data.length (headerOf data).extLength (headerOf data).payloadLength = false ∧
        h = headerOf data := by
  by_cases h20 : 20 ≤ data.length
  · rw [validateHeader_eq h20 hlt]
    unfold Recognised
    generalize sizeTooSmall data.length (headerOf data).extLength (headerOf data).payloadLength = tooSmall
    generalize headerOf data = hd
    by_cases hm : UInt16.ofNat (beNat (data.take 2)) = PROTOCOL_MAGIC
    · by_cases hv : data.getD 2 0 = PROTOCOL_VERSION
      · rw [if_neg (not_not.mpr hm), if_neg (not_not.mpr hv)]
        cases tooSmall with
        | true => simp
        | false => simp only [h20, hm, hv, true_and, Except.ok.injEq, Bool.false_eq_true, if_false, eq_comm]
      · rw [if_neg (not_not.mpr hm), if_pos hv]
        simp only [Except.ok.injEq, reduceCtorEq, hv, and_false, false_and]
    · rw [if_pos hm]
      simp only [Except.ok.injEq, reduceCtorEq, hm, and_false, false_and]
  · rw [validateHeader_short (by omega)]
    simp [h20]

/-! ## The size test -/

/-- The `int` comparison, case by case of the declared sum. -/
theorem sizeTooSmall_eq_false_iff {n : Nat} (ext : UInt8) (pl : UInt32) (h20 : 20 ≤ n) (hlt : n < 2 ^ 31) :
    sizeTooSmall n ext pl = false ↔
      let total := FIXED_HEADER_SIZE + ext.toNat + pl.toNat
      (total ≤ n) ∨ (2 ^ 31 ≤ total ∧ total < 2 ^ 32) ∨ (2 ^ 32 ≤ total ∧ total ≤ n + 2 ^ 32) := by
  have he := ext.toNat_lt
  have hp := pl.toNat_lt
  rw [sizeTooSmall, decide_eq_false_iff_not, Int.not_lt]
  simp only [int32, FIXED_HEADER_SIZE]
  omega

/-- The frames on which the test protects the reads: too short or not
recognised, or the declared size is below `2^31`, or it wraps past `2^32` to
more than the input has. -/
def SizeFits (data : Bytes) : Prop :=
  data.length < 20 ∨ ¬ Recognised data ∨ declaredSize data < 2 ^ 31 ∨
    data.length + 2 ^ 32 < declaredSize data

instance (data : Bytes) : Decidable (SizeFits data) := inferInstanceAs (Decidable (_ ∨ _))

/-! ## No read outside the input -/

theorem never_readByte {data : Bytes} {off : Nat} (h : off < data.length) :
    Never .inputRead (readByte data off) := by
  rw [readByte_ok h]; exact .ok _

theorem never_readBe16 {data : Bytes} {off : Nat} (h : off + 2 ≤ data.length) :
    Never .inputRead (readBe16 data off) := by
  rw [readBe16_ok h]; exact .ok _

theorem never_readBe64 {data : Bytes} {off : Nat} (h : off + 8 ≤ data.length) :
    Never .inputRead (readBe64 data off) := by
  rw [readBe64_ok h]; exact .ok _

theorem never_arrGet {α : Type} (a : Option (List α)) (i : Nat) : Never .inputRead (arrGet a i) := by
  unfold arrGet
  split
  · intro h; cases h
  · split
    · exact .ok _
    · intro h; cases h

theorem never_arrSet {α : Type} (a : Option (List α)) (i : Nat) (x : α) :
    Never .inputRead (arrSet a i x) := by
  unfold arrSet
  split
  · intro h; cases h
  · split
    · exact .ok _
    · intro h; cases h

theorem never_copyFragment (e : FragmentEntry) (total : UInt32) (buf : Bytes) (i : Nat) :
    Never .inputRead (copyFragment e total buf i) := by
  refine .bind (never_arrGet _ _) fun piece _ => .bind (never_arrGet _ _) fun size _ => ?_
  cases piece with
  | none => intro h; cases h
  | some p =>
    simp only
    split
    · exact .ok _
    · intro h; cases h

theorem never_reassemble (m : Mallocs) (e : FragmentEntry) :
    Never .inputRead (reassembleFragments m e) := by
  refine .bind (.foldlM (fun _ _ _ => .map (never_arrGet _ _)) _) fun total _ => ?_
  split
  · exact .bind (.foldlM (fun _ _ _ => never_copyFragment _ _ _ _) _) fun _ _ => .pure _
  · exact .pure _

section
variable {data : Bytes} {ext : UInt8} (hext : FIXED_HEADER_SIZE + ext.toNat ≤ data.length)
include hext

theorem never_parseFragmentLayer (flags : UInt8) (f : ExtFields) :
    Never .inputRead (parseFragmentLayer data ext flags f) := by
  unfold parseFragmentLayer
  split
  · rename_i hc
    have hc2 := hc.2
    simp only [FIXED_HEADER_SIZE, FRAGMENT_EXT_SIZE] at hext hc2
    exact .bind (never_readBe16 (by simp only [FIXED_HEADER_SIZE]; omega)) fun _ _ =>
      .bind (never_readBe16 (by simp only [FIXED_HEADER_SIZE]; omega)) fun _ _ =>
      .bind (never_readBe16 (by simp only [FIXED_HEADER_SIZE]; omega)) fun _ _ => .pure _
  · exact .pure _

theorem never_parseCommonLayer (flags offset : UInt8) (f : ExtFields) :
    Never .inputRead (parseCommonLayer data ext flags offset f) := by
  unfold parseCommonLayer
  split
  · rename_i hc
    have hc2 := hc.2
    refine .bind (never_readByte (by omega)) fun len _ => .bind (never_readByte (by omega)) fun fl _ => ?_
    split
    · rename_i ha
      have ha3 := ha.2.2
      exact .bind (never_readBe64 (by omega)) fun _ _ => .pure _
    · exact .pure _
  · exact .pure _

theorem never_parseTypeLayer (msgType offset : UInt8) (f : ExtFields) :
    Never .inputRead (parseTypeLayer data ext msgType offset f) := by
  unfold parseTypeLayer
  split
  · rename_i hc
    have hc2 := hc.2
    exact .bind (never_readByte (by omega)) fun _ _ => .bind (never_readByte (by omega)) fun _ _ =>
      .bind (never_readBe16 (by omega)) fun _ _ => .pure _
  · split
    · rename_i hc
      have hc2 := hc.2
      exact .bind (never_readByte (by omega)) fun _ _ => .bind (never_readByte (by omega)) fun _ _ =>
        .bind (never_readByte (by omega)) fun _ _ => .pure _
    · exact .pure _

theorem never_parseExtHeaders (flags msgType : UInt8) :
    Never .inputRead (parseExtHeaders data ext flags msgType) :=
  .bind (never_parseFragmentLayer hext _ _) fun _ _ =>
    .bind (never_parseCommonLayer hext _ _ _) fun _ _ => never_parseTypeLayer hext _ _ _

end

section
variable {data : Bytes} {h : FixedHeader}
  (hfit : FIXED_HEADER_SIZE + h.extLength.toNat + h.payloadLength.toNat ≤ data.length)
include hfit

theorem never_payload : Never .inputRead (h.payload data) := by
  rw [FixedHeader.payload, readInput_ok hfit]; exact .ok _

theorem never_parseSingle (m : Mallocs) (f : ExtFields) : Never .inputRead (parseSingle m h f data) := by
  unfold parseSingle
  simp only
  split
  · split
    · exact .bind (never_payload hfit) fun _ _ => .pure _
    · exact .pure _
  · exact .pure _

theorem never_storeFragment (m : Mallocs) (idx : Nat) (e : FragmentEntry) :
    Never .inputRead (storeFragment m h data idx e) := by
  unfold storeFragment
  split
  · refine .bind (never_arrGet _ _) fun present _ => ?_
    split
    · exact .pure _
    · split
      · exact .bind (never_payload hfit) fun _ _ => .bind (never_arrSet _ _ _) fun _ _ =>
          .bind (never_arrSet _ _ _) fun _ _ => .bind (never_arrSet _ _ _) fun _ _ => .pure _
      · exact .bind (never_arrSet _ _ _) fun _ _ => .pure _
  · exact .pure _

theorem never_fileFragment (m : Mallocs) (g : FragmentTable) (r : ParsedFrame) (f : ExtFields) (slot : Nat) :
    Never .inputRead (fileFragment m g r h f data slot) := by
  refine .bind (never_storeFragment hfit _ _ _) fun se _ => ?_
  simp only
  split
  · exact .pure _
  · split
    · refine .bind (never_reassemble _ _) fun o _ => ?_
      cases o with
      | none => exact .pure _
      | some b => exact .pure _
    · exact .pure _

theorem never_parseFragment (m : Mallocs) (g : FragmentTable) (r : ParsedFrame) (f : ExtFields) :
    Never .inputRead (parseFragment m g r h f data) := by
  unfold parseFragment
  split
  · exact .pure _
  · split
    · exact never_fileFragment hfit _ _ _ _ _
    · simp only
      split
      · exact .pure _
      · exact never_fileFragment hfit _ _ _ _ _

end

/-- If every header that passes the validation declares no more than the
input has, no call reads outside the input. -/
theorem parse_never_inputRead {data : Bytes} (hlt : data.length < 2 ^ 31)
    (hfit : ∀ h, validateHeader data = .ok (.ok h) → declaredSize data ≤ data.length)
    (m : Mallocs) (g : FragmentTable) (r : ParsedFrame) :
    Never .inputRead (frameProtocolParse m g r data) := by
  refine .bind ?_ fun v hv => ?_
  · by_cases h20 : 20 ≤ data.length
    · rw [validateHeader_eq h20 hlt]
      repeat' split
      all_goals exact .ok _
    · rw [validateHeader_short (by omega)]; exact .ok _
  · cases v with
    | error s => exact .pure _
    | ok h =>
      have hd := hfit h hv
      obtain ⟨h20, -, -, rfl⟩ := (validateHeader_ok hlt).mp hv
      rw [declaredSize_eq (by omega)] at hd
      refine .bind (never_parseExtHeaders (by omega) _ _) fun f _ => ?_
      split
      · exact .bind (never_parseSingle hd _ _) fun _ _ => .pure _
      · exact never_parseFragment hd _ _ _ _

/-- The size validation is a bound on the input exactly on the frames of
`SizeFits`: there a frame that passes it brings every byte it declares, and
no call reads outside `data`. -/
theorem size_validation_exact (data : Bytes) (hlt : data.length < 2 ^ 31) :
    ((∀ h, validateHeader data = .ok (.ok h) → declaredSize data ≤ data.length) ∧
      ∀ m g r, Never .inputRead (frameProtocolParse m g r data)) ↔ SizeFits data := by
  have hkey : (∀ h, validateHeader data = .ok (.ok h) → declaredSize data ≤ data.length) ↔ SizeFits data := by
    by_cases h20 : 20 ≤ data.length
    · have htest := sizeTooSmall_eq_false_iff (headerOf data).extLength (headerOf data).payloadLength h20 hlt
      simp only [← declaredSize_eq (show 18 ≤ data.length by omega)] at htest
      simp only [validateHeader_ok hlt, SizeFits]
      constructor
      · intro hs
        by_cases hr : Recognised data
        · by_cases ht : sizeTooSmall data.length (headerOf data).extLength (headerOf data).payloadLength = false
          · have := hs _ ⟨h20, hr, ht, rfl⟩
            omega
          · rw [htest] at ht; omega
        · exact .inr (.inl hr)
      · rintro hs h ⟨-, hr, ht, -⟩
        rw [htest] at ht
        rcases hs with hs | hs | hs | hs
        · omega
        · exact absurd hr hs
        · omega
        · omega
    · have hshort := @validateHeader_short data (by omega)
      simp only [hshort, SizeFits]
      simp; omega
  constructor
  · exact fun hs => hkey.mp hs.1
  · exact fun hs => ⟨hkey.mpr hs, parse_never_inputRead hlt (hkey.mpr hs)⟩

/-- A bare header that declares `2^32 - 1` payload bytes. -/
def shortFrame : Bytes :=
  [0xEB, 0x01, 1, 1, 0, 0, 0, 0, 0, 0, 0, 0, 0, 0, 0xFF, 0xFF, 0xFF, 0xFF, 0, 0]

/-- It passes the validation although it declares more than it has, and the
call copies its payload from beyond the input. -/
theorem size_validation_passes_short_frame :
    validateHeader shortFrame = .ok (.ok ⟨1, 0, 0, 0, 0xFFFFFFFF⟩) ∧
      ¬ declaredSize shortFrame ≤ shortFrame.length ∧
      frameProtocolParse {} frameProtocolInit {} shortFrame = .error .inputRead := by
  refine ⟨?_, by decide, by rfl⟩
  exact (validateHeader_ok (by decide)).mpr ⟨by decide, by decide, by decide, by decide⟩

/-- A key frame of three bytes. -/
def keyFrame : Bytes :=
  [0xEB, 0x01, 1, 1, 0, 0, 0, 0, 0, 0, 0, 0, 40, 4, 0, 0, 0, 3, 0, 0] ++ [1, 1, 0, 0] ++ [0x65, 0x88, 0x80]

theorem size_validation_exact_key_frame : keyFrame.length < 2 ^ 31 ∧
    (∀ h, validateHeader keyFrame = .ok (.ok h) → declaredSize keyFrame ≤ keyFrame.length) ∧
    ∀ m g r, Never .inputRead (frameProtocolParse m g r keyFrame) := by
  have hlt : keyFrame.length < 2 ^ 31 := by decide
  exact ⟨hlt, (size_validation_exact keyFrame hlt).mpr (by decide)⟩

example : frameProtocolParse {} frameProtocolInit {} keyFrame = .ok (.complete, frameProtocolInit,
    { info := { msgType := 1, timestamp := 40, videoCodec := 1, videoFrameType := 1 }
      payload := some [0x65, 0x88, 0x80], payloadSize := 3 }) := rfl

end WebPlayer.L1.FrameParser
