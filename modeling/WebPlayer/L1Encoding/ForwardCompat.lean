import WebPlayer.L1Encoding.EncodedFrames

/-!
# Forward compatibility of the extension headers

`ProtocolFrame` is a frame by its layers, with any type byte, any length of
the common header and any bytes behind the type-specific header. A later
version of the protocol may append to the common header and to the extension
area and set flags that this version reserves.

* `parse_bytes`: which header, fields and payload the parser sees.
* `forward_compatible`: extending a frame changes nothing that the parser
  returns or stores.
-/
namespace WebPlayer.L1.FrameParser
open WebPlayer.Core WebPlayer.L1.FrameEncoder

/-! ## Frames by layers -/

structure FragmentHeader where
  frameId : UInt16
  fragmentIndex : UInt16
  totalFragments : UInt16
  deriving DecidableEq, Repr

/-- Behind the length and flags bytes come `body`. -/
structure CommonHeader where
  flags : UInt8
  body : Bytes
  deriving DecidableEq, Repr

structure ProtocolFrame where
  msgType : UInt8
  flags : UInt8
  timestamp : Int64
  reserved : UInt8 × UInt8
  fragment : Option FragmentHeader
  common : Option CommonHeader
  /-- The type-specific header and whatever follows it. -/
  typeExt : Bytes
  payload : Bytes
  deriving DecidableEq, Repr

def FragmentHeader.bytes (h : FragmentHeader) : Bytes :=
  writeFragmentExtHeader h.frameId h.fragmentIndex h.totalFragments

/-- `common_length` counts its own byte and the flags. -/
def CommonHeader.bytes (c : CommonHeader) : Bytes := UInt8.ofNat (2 + c.body.length) :: c.flags :: c.body

namespace ProtocolFrame

def fragmentBytes (p : ProtocolFrame) : Bytes := (p.fragment.map FragmentHeader.bytes).getD []

def commonBytes (p : ProtocolFrame) : Bytes := (p.common.map CommonHeader.bytes).getD []

def ext (p : ProtocolFrame) : Bytes := p.fragmentBytes ++ (p.commonBytes ++ p.typeExt)

def fixedHeader (p : ProtocolFrame) : Bytes :=
  writeBE16 PROTOCOL_MAGIC ++ [PROTOCOL_VERSION, p.msgType, p.flags] ++ writeBE64 p.timestamp ++
    [UInt8.ofNat p.ext.length] ++ writeBE32 (UInt32.ofNat p.payload.length) ++ [p.reserved.1, p.reserved.2]

def bytes (p : ProtocolFrame) : Bytes := p.fixedHeader ++ (p.ext ++ p.payload)

/-- The flags announce the layers, a timestamp that is announced is there, the
type-specific header of a video or audio frame may only be missing behind the
first fragment, and the lengths fit their fields and an `int`. -/
structure WellFormed (p : ProtocolFrame) : Prop where
  fragment : p.flags &&& FLAG_FRAGMENT ≠ 0 ↔ p.fragment.isSome
  common : p.flags &&& FLAG_HAS_COMMON ≠ 0 ↔ p.common.isSome
  absTime : ∀ c, p.common = some c → c.flags &&& COMMON_ABS_TIME ≠ 0 → 10 ≤ 2 + c.body.length
  typeExt : p.msgType = 0x01 ∨ p.msgType = 0x02 →
    4 ≤ p.typeExt.length ∨ ∃ h, p.fragment = some h ∧ h.fragmentIndex ≠ 0
  extLength : p.ext.length ≤ 255
  size : p.bytes.length < 2 ^ 31

/-- What a later version adds. -/
structure Extension where
  commonBytes : Bytes
  commonFlags : UInt8
  flags : UInt8
  trailing : Bytes

/-- Unknown bytes behind the common header, bits 1-7 of its flags, bits 1, 2
and 4-7 of the frame's flags, and trailing bytes of the extension area. -/
def extend (x : Extension) (p : ProtocolFrame) : ProtocolFrame :=
  { p with
    flags := p.flags ||| (x.flags &&& 0xF6)
    common := p.common.map fun c => ⟨c.flags ||| (x.commonFlags &&& 0xFE), c.body ++ x.commonBytes⟩
    typeExt := p.typeExt ++ x.trailing }

/-! ## What the parser sees -/

def header (p : ProtocolFrame) : FixedHeader where
  msgType := p.msgType
  flags := p.flags
  timestamp := p.timestamp
  extLength := UInt8.ofNat p.ext.length
  payloadLength := UInt32.ofNat p.payload.length

def fragmentFields (p : ProtocolFrame) (f : ExtFields) : ExtFields :=
  match p.fragment with
  | some h => { f with frameId := h.frameId, fragIndex := h.fragmentIndex, totalFrags := h.totalFragments }
  | none => f

def commonFields (p : ProtocolFrame) (f : ExtFields) : ExtFields :=
  match p.common with
  | some c =>
    if c.flags &&& COMMON_ABS_TIME ≠ 0 then
      { f with absTime := (UInt64.ofNat (beNat (c.body.take 8))).toInt64 }
    else f
  | none => f

/-- The four known bytes of the type-specific header. -/
def typeFields (p : ProtocolFrame) (f : ExtFields) : ExtFields :=
  if p.msgType = 0x01 ∧ 4 ≤ p.typeExt.length then
    { f with videoCodec := p.typeExt.getD 0 0, videoFrameType := p.typeExt.getD 1 0
             videoResolution := UInt16.ofNat (beNat ((p.typeExt.drop 2).take 2)) }
  else if p.msgType = 0x02 ∧ 4 ≤ p.typeExt.length then
    { f with audioCodec := p.typeExt.getD 0 0, audioSampleRate := p.typeExt.getD 1 0
             audioChannels := p.typeExt.getD 2 0 }
  else f

def fields (p : ProtocolFrame) : ExtFields := p.typeFields (p.commonFields (p.fragmentFields {}))

end ProtocolFrame

/-! ## Reads in the middle -/

theorem readByte_mid {p mid q : Bytes} {o i : Nat} (ho : p.length + i = o) (h : i < mid.length) :
    readByte (p ++ (mid ++ q)) o = .ok (mid.getD i 0) := by
  subst ho
  rw [readByte_ok (by simp; omega), List.getD_eq_getElem?_getD, List.getD_eq_getElem?_getD,
    List.getElem?_append_right (by omega), Nat.add_sub_cancel_left, List.getElem?_append_left h]

theorem readInput_mid {p mid q : Bytes} {o i n : Nat} (ho : p.length + i = o) (h : i + n ≤ mid.length) :
    readInput (p ++ (mid ++ q)) o n = .ok ((mid.drop i).take n) := by
  subst ho
  rw [readInput_ok (by simp; omega), List.drop_append, List.drop_of_length_le (by omega), List.nil_append,
    Nat.add_sub_cancel_left, slice_append_left h]

namespace ProtocolFrame

section
variable {p : ProtocolFrame}

theorem fixedHeader_length : p.fixedHeader.length = 20 := by simp [fixedHeader]

theorem bytes_length : p.bytes.length = 20 + (p.ext.length + p.payload.length) := by
  rw [bytes, List.length_append, List.length_append, fixedHeader_length]

variable (hp : p.WellFormed)
include hp

theorem extLength_toNat : (UInt8.ofNat p.ext.length).toNat = p.ext.length := by
  have := hp.extLength
  exact UInt8.toNat_ofNat_of_lt' (by simp only [UInt8.size]; omega)

theorem payloadLength_toNat : (UInt32.ofNat p.payload.length).toNat = p.payload.length := by
  have := hp.size
  rw [bytes_length] at this
  exact UInt32.toNat_ofNat_of_lt' (by simp only [UInt32.size]; omega)

omit hp in
theorem headerOf_bytes : headerOf p.bytes = p.header := by
  have hts : (p.bytes.drop 5).take 8 = writeBE64 p.timestamp := rfl
  have hpl : (p.bytes.drop 14).take 4 = writeBE32 (UInt32.ofNat p.payload.length) := rfl
  have h64 : beNat (writeBE64 p.timestamp) = p.timestamp.toUInt64.toNat :=
    @beNat_beBytes_of_lt 8 _ p.timestamp.toUInt64.toNat_lt
  have h32 : beNat (writeBE32 (UInt32.ofNat p.payload.length)) = (UInt32.ofNat p.payload.length).toNat :=
    @beNat_beBytes_of_lt 4 _ (UInt32.ofNat p.payload.length).toNat_lt
  rw [headerOf, hts, hpl, h64, h32, UInt64.ofNat_toNat, Int64.toInt64_toUInt64, UInt32.ofNat_toNat]
  rfl

theorem validateHeader_bytes : validateHeader p.bytes = .ok (.ok p.header) := by
  have hsize := hp.size
  have hlen := @bytes_length p
  refine (validateHeader_ok hsize).mpr ⟨by omega, ⟨?_, rfl⟩, ?_, headerOf_bytes.symm⟩
  · rfl
  · rw [headerOf_bytes, sizeTooSmall_eq_false_iff _ _ (by omega) hsize]
    left
    simp only [header, extLength_toNat hp, payloadLength_toNat hp, FIXED_HEADER_SIZE]
    omega

theorem payload_bytes : p.header.payload p.bytes = .ok p.payload := by
  have h := @readInput_at (p.fixedHeader ++ p.ext) (FIXED_HEADER_SIZE + (UInt8.ofNat p.ext.length).toNat)
    (by rw [List.length_append, fixedHeader_length, extLength_toNat hp, FIXED_HEADER_SIZE]) [] p.payload
    (UInt32.ofNat p.payload.length).toNat (payloadLength_toNat hp).symm
  rw [List.append_nil, List.append_assoc] at h
  exact h

/-! ### The layers -/

omit hp in
theorem ext_length : p.ext.length = p.fragmentBytes.length + (p.commonBytes.length + p.typeExt.length) := by
  rw [ext, List.length_append, List.length_append]

theorem offset_toNat {n : Nat} (h : n ≤ p.ext.length) : (UInt8.ofNat n).toNat = n := by
  have := hp.extLength
  exact UInt8.toNat_ofNat_of_lt' (by simp only [UInt8.size]; omega)

theorem parseFragmentLayer_bytes :
    parseFragmentLayer p.bytes (UInt8.ofNat p.ext.length) p.flags {} =
      .ok (UInt8.ofNat p.fragmentBytes.length, p.fragmentFields {}) := by
  cases hf : p.fragment with
  | none =>
    have hflag : p.flags &&& FLAG_FRAGMENT = 0 := by
      by_contra h
      have := hp.fragment.mp h
      rw [hf] at this
      cases this
    rw [parseFragmentLayer_off hflag, fragmentBytes, fragmentFields, hf]
    rfl
  | some h =>
    have hflag := hp.fragment.mpr (by rw [hf]; rfl)
    have hlen : p.fragmentBytes = writeFragmentExtHeader h.frameId h.fragmentIndex h.totalFragments := by
      rw [fragmentBytes, hf]
      rfl
    have hext := @ext_length p
    rw [hlen, writeFragmentExtHeader_length] at hext
    rw [bytes, ext, hlen, List.append_assoc, parseFragmentLayer_write fixedHeader_length _ _ hflag, fragmentFields, hf]
    · rfl
    · rw [← hlen, ← ext, extLength_toNat hp]
      omega

theorem parseCommonLayer_bytes (f : ExtFields) :
    parseCommonLayer p.bytes (UInt8.ofNat p.ext.length) p.flags (UInt8.ofNat p.fragmentBytes.length) f =
      .ok (UInt8.ofNat (p.fragmentBytes.length + p.commonBytes.length), p.commonFields f) := by
  cases hc : p.common with
  | none =>
    have hflag : p.flags &&& FLAG_HAS_COMMON = 0 := by
      by_contra h
      have := hp.common.mp h
      rw [hc] at this
      cases this
    rw [parseCommonLayer_off hflag, commonBytes, commonFields, hc]
    rfl
  | some c =>
    have hflag := hp.common.mpr (by rw [hc]; rfl)
    have hbytes : p.commonBytes = UInt8.ofNat (2 + c.body.length) :: c.flags :: c.body := by
      rw [commonBytes, hc]
      rfl
    have hcl : p.commonBytes.length = 2 + c.body.length := by
      rw [hbytes, List.length_cons, List.length_cons]
      omega
    have hext := @ext_length p
    have ho : (UInt8.ofNat p.fragmentBytes.length).toNat = p.fragmentBytes.length := offset_toNat hp (by omega)
    have hlen : (UInt8.ofNat (2 + c.body.length)).toNat = 2 + c.body.length := offset_toNat hp (by omega)
    have hsplit : p.bytes = (p.fixedHeader ++ p.fragmentBytes) ++ (p.commonBytes ++ (p.typeExt ++ p.payload)) := by
      simp only [bytes, ext, List.append_assoc]
    have hpre : (p.fixedHeader ++ p.fragmentBytes).length = FIXED_HEADER_SIZE + p.fragmentBytes.length := by
      rw [List.length_append, fixedHeader_length, FIXED_HEADER_SIZE]
    have h0 := @readByte_mid (p.fixedHeader ++ p.fragmentBytes) p.commonBytes (p.typeExt ++ p.payload)
      (FIXED_HEADER_SIZE + p.fragmentBytes.length) 0 hpre (by omega)
    have h1 := @readByte_mid (p.fixedHeader ++ p.fragmentBytes) p.commonBytes (p.typeExt ++ p.payload)
      (FIXED_HEADER_SIZE + p.fragmentBytes.length + 1) 1 (by omega) (by omega)
    rw [← hsplit, hbytes, List.getD_cons_zero] at h0
    rw [← hsplit, hbytes, List.getD_cons_succ, List.getD_cons_zero] at h1
    have hsum : UInt8.ofNat p.fragmentBytes.length + UInt8.ofNat (2 + c.body.length) =
        UInt8.ofNat (p.fragmentBytes.length + (2 + c.body.length)) := (UInt8.ofNat_add _ _).symm
    unfold parseCommonLayer
    rw [ho, extLength_toNat hp, if_pos ⟨hflag, by omega⟩, h0, ok_bind, h1, ok_bind, hlen, hcl, hsum, commonFields, hc]
    by_cases habs : c.flags &&& COMMON_ABS_TIME = 0
    · rw [if_neg (fun h => h.1 habs)]
      simp only [if_neg (not_not.mpr habs), pure_eq_ok]
    · have hbody := hp.absTime c hc habs
      have h2 := @readInput_mid (p.fixedHeader ++ p.fragmentBytes) p.commonBytes (p.typeExt ++ p.payload)
        (FIXED_HEADER_SIZE + p.fragmentBytes.length + 2) 2 8 (by omega) (by omega)
      rw [← hsplit, hbytes] at h2
      rw [if_pos ⟨habs, by omega, by omega⟩, readBe64, h2]
      simp only [if_pos habs, ok_map, ok_bind, pure_eq_ok, List.drop_succ_cons, List.drop_zero]

theorem parseTypeLayer_bytes (f : ExtFields) :
    parseTypeLayer p.bytes (UInt8.ofNat p.ext.length) p.msgType
      (UInt8.ofNat (p.fragmentBytes.length + p.commonBytes.length)) f = .ok (p.typeFields f) := by
  have hext := @ext_length p
  have ho : (UInt8.ofNat (p.fragmentBytes.length + p.commonBytes.length)).toNat =
      p.fragmentBytes.length + p.commonBytes.length := offset_toNat hp (by omega)
  have hsplit : p.bytes = (p.fixedHeader ++ (p.fragmentBytes ++ p.commonBytes)) ++ (p.typeExt ++ p.payload) := by
    simp only [bytes, ext, List.append_assoc]
  have hpre : (p.fixedHeader ++ (p.fragmentBytes ++ p.commonBytes)).length =
      FIXED_HEADER_SIZE + (p.fragmentBytes.length + p.commonBytes.length) := by
    rw [List.length_append, List.length_append, fixedHeader_length, FIXED_HEADER_SIZE]
  have hbyte : ∀ i, i < p.typeExt.length →
      readByte p.bytes (FIXED_HEADER_SIZE + (p.fragmentBytes.length + p.commonBytes.length) + i) =
        .ok (p.typeExt.getD i 0) := by
    intro i hi
    rw [hsplit]
    exact readByte_mid (by omega) hi
  have hroom : p.fragmentBytes.length + p.commonBytes.length + 4 ≤ p.ext.length ↔ 4 ≤ p.typeExt.length := by omega
  unfold parseTypeLayer typeFields
  rw [ho, extLength_toNat hp]
  simp only [hroom]
  split
  · rename_i hc
    have h2 := @readInput_mid (p.fixedHeader ++ (p.fragmentBytes ++ p.commonBytes)) p.typeExt p.payload
      (FIXED_HEADER_SIZE + (p.fragmentBytes.length + p.commonBytes.length) + 2) 2 2 (by omega) (by omega)
    rw [← hsplit] at h2
    have h0 := hbyte 0 (by omega)
    rw [Nat.add_zero] at h0
    rw [h0, ok_bind, hbyte 1 (by omega), ok_bind, readBe16, h2]
    rfl
  · split
    · rename_i hc
      have h0 := hbyte 0 (by omega)
      rw [Nat.add_zero] at h0
      rw [h0, ok_bind, hbyte 1 (by omega), ok_bind, hbyte 2 (by omega)]
      rfl
    · rfl

theorem parseExtHeaders_bytes :
    parseExtHeaders p.bytes (UInt8.ofNat p.ext.length) p.flags p.msgType = .ok p.fields := by
  rw [parseExtHeaders, parseFragmentLayer_bytes hp, ok_bind]
  simp only
  rw [parseCommonLayer_bytes hp, ok_bind]
  simp only
  rw [parseTypeLayer_bytes hp, fields]

/-- **What the parser sees.** -/
theorem parse_bytes (m : Mallocs) (g : FragmentTable) (r : ParsedFrame) :
    frameProtocolParse m g r p.bytes =
      if p.header.flags &&& FLAG_FRAGMENT = 0 then
        (parseSingle m p.header p.fields p.bytes).map fun (status, result) => (status, g, result)
      else parseFragment m g r p.header p.fields p.bytes := by
  have hext : parseExtHeaders p.bytes p.header.extLength p.header.flags p.header.msgType = .ok p.fields :=
    parseExtHeaders_bytes hp
  unfold frameProtocolParse
  rw [validateHeader_bytes hp, ok_bind]
  simp only [hext, ok_bind]
  by_cases hflag : p.header.flags &&& FLAG_FRAGMENT = 0
  · rw [if_pos hflag, if_pos hflag]
    cases parseSingle m p.header p.fields p.bytes <;> rfl
  · rw [if_neg hflag, if_neg hflag]

end

end ProtocolFrame

/-! ## What the result depends on -/

/-- Two frames that the parser does not tell apart: metadata counts unless
the frame is a later fragment. -/
structure Same (h h' : FixedHeader) (f f' : ExtFields) (data data' : Bytes) : Prop where
  payloadLength : h.payloadLength = h'.payloadLength
  payload : h.payload data = h'.payload data'
  frameId : f.frameId = f'.frameId
  fragIndex : f.fragIndex = f'.fragIndex
  totalFrags : f.totalFrags = f'.totalFrags
  info : f.fragIndex = 0 → h.info f = h'.info f'

section
variable {h h' : FixedHeader} {f f' : ExtFields} {data data' : Bytes} (hsame : Same h h' f f' data data')
include hsame

theorem parseSingle_same (h0 : f.fragIndex = 0) (m : Mallocs) : parseSingle m h f data = parseSingle m h' f' data' := by
  simp only [parseSingle, hsame.info h0, hsame.payloadLength, hsame.payload]

theorem storeFragment_same (m : Mallocs) (idx : Nat) (e : FragmentEntry) :
    storeFragment m h data idx e = storeFragment m h' data' idx e := by
  simp only [storeFragment, hsame.payloadLength, hsame.payload]

theorem fileFragment_same (m : Mallocs) (g : FragmentTable) (r : ParsedFrame) (slot : Nat) :
    fileFragment m g r h f data slot = fileFragment m g r h' f' data' slot := by
  unfold fileFragment
  simp only [storeFragment_same hsame]
  by_cases h0 : f.fragIndex = 0
  · simp only [if_pos (hsame.fragIndex ▸ h0), hsame.info h0, hsame.fragIndex]
  · simp only [if_neg (hsame.fragIndex ▸ h0), hsame.fragIndex]

theorem parseFragment_same (m : Mallocs) (g : FragmentTable) (r : ParsedFrame) :
    parseFragment m g r h f data = parseFragment m g r h' f' data' := by
  unfold parseFragment
  simp only [hsame.frameId, hsame.totalFrags, fileFragment_same hsame]

end

namespace ProtocolFrame

/-! ## Extended frames -/

/-- Reserved bits do not touch a known one. -/
theorem or_reserved (a b : UInt8) {mask bit : UInt8} (h : mask &&& bit = 0) :
    (a ||| (b &&& mask)) &&& bit = a &&& bit := by
  have hbits : mask.toBitVec &&& bit.toBitVec = 0#8 := congrArg UInt8.toBitVec h
  apply UInt8.eq_of_toBitVec_eq
  rw [UInt8.toBitVec_and, UInt8.toBitVec_or, UInt8.toBitVec_and, BitVec.and_or_distrib_right, BitVec.and_assoc, hbits,
    BitVec.and_zero, BitVec.or_zero, UInt8.toBitVec_and]

section
variable {p : ProtocolFrame} (x : Extension)

theorem flags_extend : (p.extend x).flags &&& FLAG_FRAGMENT = p.flags &&& FLAG_FRAGMENT ∧
    (p.extend x).flags &&& FLAG_HAS_COMMON = p.flags &&& FLAG_HAS_COMMON :=
  ⟨or_reserved _ _ (by decide), or_reserved _ _ (by decide)⟩

variable (hp : p.WellFormed)
include hp

theorem extend_wellFormed (hfit : (p.extend x).ext.length ≤ 255) (hsize : (p.extend x).bytes.length < 2 ^ 31) :
    (p.extend x).WellFormed where
  fragment := by
    rw [(flags_extend x).1]
    exact hp.fragment
  common := by
    rw [(flags_extend x).2, extend, Option.isSome_map]
    exact hp.common
  absTime := by
    intro c hc habs
    obtain ⟨c', hc', rfl⟩ := Option.map_eq_some_iff.mp hc
    rw [or_reserved _ _ (by decide)] at habs
    have := hp.absTime c' hc' habs
    rw [List.length_append]
    omega
  typeExt := by
    intro hmt
    rcases hp.typeExt hmt with h4 | hlater
    · left
      rw [extend, List.length_append]
      omega
    · exact .inr hlater
  extLength := hfit
  size := hsize

/-- What an extension leaves as it is: the fragment and common fields, and the
type-specific ones where they are there. -/
theorem commonFields_extend (f : ExtFields) : (p.extend x).commonFields f = p.commonFields f := by
  rw [commonFields, commonFields, extend]
  cases hc : p.common with
  | none => rfl
  | some c =>
    simp only [Option.map_some]
    rw [or_reserved _ _ (by decide)]
    by_cases habs : c.flags &&& COMMON_ABS_TIME = 0
    · rw [if_neg (not_not.mpr habs), if_neg (not_not.mpr habs)]
    · have hbody := hp.absTime c hc habs
      rw [if_pos habs, if_pos habs, List.take_append_of_le_length (by omega)]

omit hp in
theorem typeFields_extend (h4 : 4 ≤ p.typeExt.length) (f : ExtFields) : (p.extend x).typeFields f = p.typeFields f := by
  have hlen : 4 ≤ (p.typeExt ++ x.trailing).length := by
    rw [List.length_append]
    omega
  simp only [typeFields, extend, h4, hlen, getD_append_left (show 0 < p.typeExt.length by omega),
    getD_append_left (show 1 < p.typeExt.length by omega), getD_append_left (show 2 < p.typeExt.length by omega),
    slice_append_left (show 2 + 2 ≤ p.typeExt.length by omega)]

omit hp in
theorem typeFields_other (h : ¬ (p.msgType = 0x01 ∨ p.msgType = 0x02)) (f : ExtFields) : p.typeFields f = f := by
  obtain ⟨h1, h2⟩ := not_or.mp h
  rw [typeFields, if_neg (fun h => h1 h.1), if_neg (fun h => h2 h.1)]

omit hp in
/-- The type-specific header does not say which fragment it is. -/
theorem typeFields_fragment (f : ExtFields) : (p.typeFields f).frameId = f.frameId ∧
    (p.typeFields f).fragIndex = f.fragIndex ∧ (p.typeFields f).totalFrags = f.totalFrags := by
  unfold typeFields
  split
  · exact ⟨rfl, rfl, rfl⟩
  · split <;> exact ⟨rfl, rfl, rfl⟩

omit hp in
theorem commonFields_fragIndex (f : ExtFields) : (p.commonFields f).fragIndex = f.fragIndex := by
  unfold commonFields
  split
  · split <;> rfl
  · rfl

theorem fields_extend (h0 : p.fields.fragIndex = 0) : (p.extend x).fields = p.fields := by
  have hfrag : (p.extend x).fragmentFields {} = p.fragmentFields {} := rfl
  rw [fields, fields, commonFields_extend x hp, hfrag]
  by_cases hmt : p.msgType = 0x01 ∨ p.msgType = 0x02
  · refine typeFields_extend x ((hp.typeExt hmt).resolve_right ?_) _
    rintro ⟨h, hfr, hne⟩
    rw [fields, (typeFields_fragment _).2.1, commonFields_fragIndex, fragmentFields, hfr] at h0
    exact hne h0
  · rw [typeFields_other hmt, @typeFields_other (p.extend x) hmt]

theorem same_extend (hx : (p.extend x).WellFormed) :
    Same (p.extend x).header p.header (p.extend x).fields p.fields (p.extend x).bytes p.bytes := by
  have hfrag : (p.extend x).fragmentFields {} = p.fragmentFields {} := rfl
  have hcommon := commonFields_extend x hp (p.fragmentFields {})
  obtain ⟨hid, hidx, htot⟩ := @typeFields_fragment (p.extend x) (p.commonFields (p.fragmentFields {}))
  obtain ⟨hid', hidx', htot'⟩ := @typeFields_fragment p (p.commonFields (p.fragmentFields {}))
  have hfields : (p.extend x).fields = (p.extend x).typeFields (p.commonFields (p.fragmentFields {})) := by
    rw [fields, hfrag, hcommon]
  refine ⟨rfl, by rw [payload_bytes hx, payload_bytes hp]; rfl, ?_, ?_, ?_, fun h0 => ?_⟩
  · rw [hfields, hid, fields, hid']
  · rw [hfields, hidx, fields, hidx']
  · rw [hfields, htot, fields, htot']
  · rw [hfields, hidx, ← hidx', ← fields] at h0
    rw [fields_extend x hp h0]
    rfl

/-- **Forward compatibility.** An extended frame has the same status, result
and table as the frame. -/
theorem forward_compatible (hfit : (p.extend x).ext.length ≤ 255) (hsize : (p.extend x).bytes.length < 2 ^ 31)
    (m : Mallocs) (g : FragmentTable) (r : ParsedFrame) :
    frameProtocolParse m g r (p.extend x).bytes = frameProtocolParse m g r p.bytes := by
  have hx := extend_wellFormed x hp hfit hsize
  have hsame := same_extend x hp hx
  rw [parse_bytes hx, parse_bytes hp]
  have hflag : (p.extend x).header.flags &&& FLAG_FRAGMENT = p.header.flags &&& FLAG_FRAGMENT := (flags_extend x).1
  by_cases h0 : p.header.flags &&& FLAG_FRAGMENT = 0
  · have hnone : p.fragment = none := by
      by_contra hsome
      exact hp.fragment.mpr (Option.isSome_iff_ne_none.mpr hsome) h0
    have hidx : (p.extend x).fields.fragIndex = 0 := by
      rw [hsame.fragIndex, fields, (typeFields_fragment _).2.1, commonFields_fragIndex, fragmentFields, hnone]
    rw [if_pos (hflag.trans h0), if_pos h0, parseSingle_same hsame hidx]
  · rw [if_neg (hflag ▸ h0), if_neg h0, parseFragment_same hsame]

end

/-- A video frame with a 10-byte common header, its timestamp announced. -/
def sampleFrame : ProtocolFrame where
  msgType := 0x01
  flags := FLAG_HAS_COMMON
  timestamp := 40
  reserved := (0, 0)
  fragment := none
  common := some ⟨COMMON_ABS_TIME, [0, 0, 0, 0, 0, 0, 0, 9]⟩
  typeExt := [1, 1, 0, 0]
  payload := [7, 8, 9]

/-- Bit 3 of the common flags with a field of one byte, two bytes of a longer
video header, and flag bit 4. -/
def sampleExtension : Extension := ⟨[5], 0x08, 0x10, [6, 6]⟩

theorem forward_compatible_sample : (sampleFrame.extend sampleExtension).bytes ≠ sampleFrame.bytes ∧
    frameProtocolParse {} frameProtocolInit {} (sampleFrame.extend sampleExtension).bytes =
      frameProtocolParse {} frameProtocolInit {} sampleFrame.bytes := by
  have hp : sampleFrame.WellFormed := by
    refine ⟨by decide, by decide, ?_, fun _ => .inl (by decide), by decide, by decide⟩
    intro c hc _
    cases hc
    decide
  exact ⟨by decide, forward_compatible sampleExtension hp (by decide) (by decide) {} frameProtocolInit {}⟩

end ProtocolFrame

end WebPlayer.L1.FrameParser
