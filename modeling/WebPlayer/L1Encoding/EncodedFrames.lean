import WebPlayer.L1Encoding.ParserBounds

/-!
# The parser on the encoder's frames

Each reader undoes its writer, layer by layer, so the headers of an encoded
frame come back as they were written.

* `parse_single`: an unfragmented call's frame completes at once.
* `parse_fragmentFrame`: the `i`-th fragment reaches the slot table as
  fragment `i` of `totalFragments` of the call's frame id, with the `i`-th
  piece as its payload; only fragment 0 carries metadata.
-/
namespace WebPlayer.L1.FrameParser
open WebPlayer.Core WebPlayer.L1.FrameEncoder

/-! ## Readers after writers -/

section
variable {p : Bytes} {o : Nat} (hoff : p.length = o) (q : Bytes)
include hoff

theorem readInput_at (mid : Bytes) {n : Nat} (hn : mid.length = n) :
    readInput (p ++ (mid ++ q)) o n = .ok mid := by
  subst hoff hn
  rw [readInput_ok (by simp), List.drop_left, List.take_left]

theorem readByte_at (b : UInt8) : readByte (p ++ b :: q) o = .ok b := by
  subst hoff
  rw [readByte_ok (by simp), List.getD_eq_getElem?_getD, List.getElem?_append_right (Nat.le_refl _)]
  simp

theorem readBe16_at (v : UInt16) : readBe16 (p ++ (writeBE16 v ++ q)) o = .ok v := by
  rw [readBe16, writeBE16, readInput_at hoff q _ (beBytes_length 2 _), ok_map,
    beNat_beBytes_of_lt (w := 2) v.toNat_lt, UInt16.ofNat_toNat]

theorem readBe32_at (v : UInt32) : readBe32 (p ++ (writeBE32 v ++ q)) o = .ok v := by
  rw [readBe32, writeBE32, readInput_at hoff q _ (beBytes_length 4 _), ok_map,
    beNat_beBytes_of_lt (w := 4) v.toNat_lt, UInt32.ofNat_toNat]

theorem readBe64_at (v : Int64) : readBe64 (p ++ (writeBE64 v ++ q)) o = .ok v := by
  rw [readBe64, writeBE64, readInput_at hoff q _ (beBytes_length 8 _), ok_map,
    beNat_beBytes_of_lt (w := 8) v.toUInt64.toNat_lt, UInt64.ofNat_toNat, Int64.toInt64_toUInt64]

end

@[simp] theorem writeBE16_length (v : UInt16) : (writeBE16 v).length = 2 := beBytes_length 2 _
@[simp] theorem writeBE32_length (v : UInt32) : (writeBE32 v).length = 4 := beBytes_length 4 _
@[simp] theorem writeBE64_length (v : Int64) : (writeBE64 v).length = 8 := beBytes_length 8 _

@[simp] theorem writeFixedHeader_length (mt : MsgType) (fl : UInt8) (ts : Int64) (ext : UInt8) (pl : UInt32) :
    (writeFixedHeader mt fl ts ext pl).length = 20 := by simp [writeFixedHeader]

@[simp] theorem writeCommonExtHeader_length (abs : Int64) : (writeCommonExtHeader abs).length = 10 := by
  simp [writeCommonExtHeader]

@[simp] theorem writeFragmentExtHeader_length (id i n : UInt16) :
    (writeFragmentExtHeader id i n).length = 6 := by simp [writeFragmentExtHeader]

/-! ## The fixed header -/

theorem readFixedHeader_write (mt : MsgType) (fl : UInt8) (ts : Int64) (ext : UInt8) (pl : UInt32)
    (rest : Bytes) : readFixedHeader (writeFixedHeader mt fl ts ext pl ++ rest) =
      .ok ⟨mt.toByte, fl, ts, ext, pl⟩ := by
  have h3 : readByte (writeFixedHeader mt fl ts ext pl ++ rest) 3 = .ok mt.toByte := by
    simpa [writeFixedHeader] using readByte_at (p := writeBE16 PROTOCOL_MAGIC ++ [PROTOCOL_VERSION])
      (by simp) (fl :: (writeBE64 ts ++ (ext :: (writeBE32 pl ++ (0 :: 0 :: rest))))) mt.toByte
  have h4 : readByte (writeFixedHeader mt fl ts ext pl ++ rest) 4 = .ok fl := by
    simpa [writeFixedHeader] using readByte_at
      (p := writeBE16 PROTOCOL_MAGIC ++ [PROTOCOL_VERSION, mt.toByte])
      (by simp) (writeBE64 ts ++ (ext :: (writeBE32 pl ++ (0 :: 0 :: rest)))) fl
  have h5 : readBe64 (writeFixedHeader mt fl ts ext pl ++ rest) 5 = .ok ts := by
    simpa [writeFixedHeader] using readBe64_at
      (p := writeBE16 PROTOCOL_MAGIC ++ [PROTOCOL_VERSION, mt.toByte, fl])
      (by simp) (ext :: (writeBE32 pl ++ (0 :: 0 :: rest))) ts
  have h13 : readByte (writeFixedHeader mt fl ts ext pl ++ rest) 13 = .ok ext := by
    simpa [writeFixedHeader] using readByte_at
      (p := writeBE16 PROTOCOL_MAGIC ++ [PROTOCOL_VERSION, mt.toByte, fl] ++ writeBE64 ts)
      (by simp) (writeBE32 pl ++ (0 :: 0 :: rest)) ext
  have h14 : readBe32 (writeFixedHeader mt fl ts ext pl ++ rest) 14 = .ok pl := by
    simpa [writeFixedHeader] using readBe32_at
      (p := writeBE16 PROTOCOL_MAGIC ++ [PROTOCOL_VERSION, mt.toByte, fl] ++ writeBE64 ts ++ [ext])
      (by simp) (0 :: 0 :: rest) pl
  rw [readFixedHeader, h3, h4, h5, h13, h14]
  rfl

/-- A frame that brings exactly what it declares, within the `int` range,
passes the validation with its own header. -/
theorem validateHeader_write (mt : MsgType) (fl : UInt8) (ts : Int64) (ext : UInt8) (pl : UInt32)
    (rest : Bytes) (hlen : rest.length = ext.toNat + pl.toNat) (hlt : rest.length < 2 ^ 30) :
    validateHeader (writeFixedHeader mt fl ts ext pl ++ rest) = .ok (.ok ⟨mt.toByte, fl, ts, ext, pl⟩) := by
  have hl : (writeFixedHeader mt fl ts ext pl ++ rest).length = 20 + rest.length := by simp
  have hhead : headerOf (writeFixedHeader mt fl ts ext pl ++ rest) = ⟨mt.toByte, fl, ts, ext, pl⟩ := by
    have h1 := @readFixedHeader_ok (writeFixedHeader mt fl ts ext pl ++ rest) (by omega)
    rw [readFixedHeader_write] at h1
    exact (Except.ok.inj h1).symm
  refine (validateHeader_ok (by omega)).mpr ⟨by omega, ⟨?_, ?_⟩, ?_, hhead.symm⟩
  · have h0 := readBe16_at (p := []) rfl
      ([PROTOCOL_VERSION, mt.toByte, fl] ++ writeBE64 ts ++ [ext] ++ writeBE32 pl ++ [0, 0] ++ rest)
      PROTOCOL_MAGIC
    rw [readBe16_ok (by simp)] at h0
    simpa [writeFixedHeader] using Except.ok.inj h0
  · simp [writeFixedHeader, writeBE16, beBytes]
  · rw [hhead, hl, sizeTooSmall_eq_false_iff _ _ (by omega) (by omega)]
    left
    simp only [FIXED_HEADER_SIZE]
    omega

/-! ## Extension headers -/

theorem parseFragmentLayer_write {p : Bytes} (hpre : p.length = 20) (ext flags : UInt8)
    (hfl : flags &&& FLAG_FRAGMENT ≠ 0) (hext : 6 ≤ ext.toNat) (id i n : UInt16) (rest : Bytes)
    (f : ExtFields) :
    parseFragmentLayer (p ++ (writeFragmentExtHeader id i n ++ rest)) ext flags f =
      .ok (6, { f with frameId := id, fragIndex := i, totalFrags := n }) := by
  unfold parseFragmentLayer
  rw [if_pos ⟨hfl, hext⟩]
  have h0 := readBe16_at (o := FIXED_HEADER_SIZE) hpre (writeBE16 i ++ (writeBE16 n ++ rest)) id
  have h2 := readBe16_at (p := p ++ writeBE16 id) (o := FIXED_HEADER_SIZE + 2)
    (by simp [hpre, FIXED_HEADER_SIZE]) (writeBE16 n ++ rest) i
  have h4 := readBe16_at (p := p ++ (writeBE16 id ++ writeBE16 i)) (o := FIXED_HEADER_SIZE + 4)
    (by simp [hpre, FIXED_HEADER_SIZE]) rest n
  simp only [List.append_assoc] at h2 h4
  simp only [writeFragmentExtHeader, List.append_assoc, h0, h2, h4, ok_bind, pure_eq_ok]

theorem parseCommonLayer_write {p : Bytes} {o : UInt8} (hpre : p.length = 20 + o.toNat)
    (ext flags : UInt8) (hfl : flags &&& FLAG_HAS_COMMON ≠ 0) (hext : o.toNat + 10 ≤ ext.toNat)
    (abs : Int64) (rest : Bytes) (f : ExtFields) :
    parseCommonLayer (p ++ (writeCommonExtHeader abs ++ rest)) ext flags o f =
      .ok (o + 10, { f with absTime := abs }) := by
  unfold parseCommonLayer
  rw [if_pos ⟨hfl, by omega⟩]
  have h0 := readByte_at (o := FIXED_HEADER_SIZE + o.toNat) hpre
    (COMMON_ABS_TIME :: (writeBE64 abs ++ rest)) 10
  have h1 := readByte_at (p := p ++ [10]) (o := FIXED_HEADER_SIZE + o.toNat + 1)
    (by simp [hpre, FIXED_HEADER_SIZE]) (writeBE64 abs ++ rest) COMMON_ABS_TIME
  have h2 := readBe64_at (p := p ++ [10, COMMON_ABS_TIME]) (o := FIXED_HEADER_SIZE + o.toNat + 2)
    (by simp [hpre, FIXED_HEADER_SIZE]) rest abs
  simp only [List.append_assoc, List.cons_append, List.nil_append] at h1 h2
  simp only [writeCommonExtHeader, List.cons_append, List.nil_append, h0, h1, ok_bind]
  rw [if_pos ⟨by decide, by decide, by omega⟩, h2]
  simp only [ok_bind, pure_eq_ok]

/-- What the type-specific header adds. -/
def typeFields (m : Media) (f : ExtFields) : ExtFields :=
  match m with
  | .video codec frameType => { f with videoCodec := codec.toByte, videoFrameType := frameType.toByte
                                       videoResolution := 0 }
  | .audio codec sampleRate channels => { f with audioCodec := codec.toByte
                                                 audioSampleRate := sampleRate.toByte
                                                 audioChannels := channels }

theorem parseTypeLayer_write {p : Bytes} {o : UInt8} (hpre : p.length = 20 + o.toNat)
    (ext : UInt8) (hext : o.toNat + 4 ≤ ext.toNat) (m : Media) (rest : Bytes) (f : ExtFields) :
    parseTypeLayer (p ++ (m.ext ++ rest)) ext m.msgType.toByte o f = .ok (typeFields m f) := by
  unfold parseTypeLayer
  cases m with
  | video codec frameType =>
    rw [if_pos ⟨rfl, hext⟩]
    have h0 := readByte_at (o := FIXED_HEADER_SIZE + o.toNat) hpre
      (frameType.toByte :: (writeBE16 0 ++ rest)) codec.toByte
    have h1 := readByte_at (p := p ++ [codec.toByte]) (o := FIXED_HEADER_SIZE + o.toNat + 1)
      (by simp [hpre, FIXED_HEADER_SIZE]) (writeBE16 0 ++ rest) frameType.toByte
    have h2 := readBe16_at (p := p ++ [codec.toByte, frameType.toByte])
      (o := FIXED_HEADER_SIZE + o.toNat + 2) (by simp [hpre, FIXED_HEADER_SIZE]) rest 0
    simp only [List.append_assoc, List.cons_append, List.nil_append] at h1 h2
    simp only [Media.ext, writeVideoExtHeader, List.cons_append, List.nil_append, h0, h1, h2, ok_bind,
      pure_eq_ok, typeFields]
  | audio codec sampleRate channels =>
    rw [if_neg (by simp [Media.msgType, MsgType.toByte]), if_pos ⟨rfl, hext⟩]
    have h0 := readByte_at (o := FIXED_HEADER_SIZE + o.toNat) hpre
      (sampleRate.toByte :: channels :: 0 :: rest) codec.toByte
    have h1 := readByte_at (p := p ++ [codec.toByte]) (o := FIXED_HEADER_SIZE + o.toNat + 1)
      (by simp [hpre, FIXED_HEADER_SIZE]) (channels :: 0 :: rest) sampleRate.toByte
    have h2 := readByte_at (p := p ++ [codec.toByte, sampleRate.toByte])
      (o := FIXED_HEADER_SIZE + o.toNat + 2) (by simp [hpre, FIXED_HEADER_SIZE]) (0 :: rest) channels
    simp only [List.append_assoc, List.cons_append, List.nil_append] at h1 h2
    simp only [Media.ext, writeAudioExtHeader, List.cons_append, List.nil_append, h0, h1, h2, ok_bind,
      pure_eq_ok, typeFields]

/-- No type-specific header fits behind a bare fragment header. -/
theorem parseTypeLayer_none (data : Bytes) (msgType : UInt8) (f : ExtFields) :
    parseTypeLayer data 6 msgType 6 f = .ok f := by
  unfold parseTypeLayer
  rw [if_neg (by simp), if_neg (by simp)]
  rfl

theorem parseCommonLayer_off {flags : UInt8} (hfl : flags &&& FLAG_HAS_COMMON = 0) (data : Bytes)
    (ext o : UInt8) (f : ExtFields) : parseCommonLayer data ext flags o f = .ok (o, f) := by
  unfold parseCommonLayer
  rw [if_neg (by simp [hfl])]
  rfl

theorem parseFragmentLayer_off {flags : UInt8} (hfl : flags &&& FLAG_FRAGMENT = 0) (data : Bytes)
    (ext : UInt8) (f : ExtFields) : parseFragmentLayer data ext flags f = .ok (0, f) := by
  unfold parseFragmentLayer
  rw [if_neg (by simp [hfl])]
  rfl

/-! ## What a call encodes -/

/-- The metadata of a call. -/
def callInfo (c : EncodeCall) : FrameMeta :=
  match c.media with
  | .video codec frameType =>
    { msgType := MsgType.video.toByte, videoCodec := codec.toByte, videoFrameType := frameType.toByte
      timestamp := c.timestampMs, absTime := c.absTimeMs }
  | .audio codec sampleRate channels =>
    { msgType := MsgType.audio.toByte, audioCodec := codec.toByte, audioSampleRate := sampleRate.toByte
      audioChannels := channels, timestamp := c.timestampMs, absTime := c.absTimeMs }

/-- The result struct that says what a call encoded; an empty payload is a
NULL pointer and size 0. -/
def callFrame (c : EncodeCall) : ParsedFrame :=
  { info := callInfo c, payload := if c.payload = [] then none else some c.payload
    payloadSize := UInt32.ofNat c.payload.length }

/-- The one frame of an unfragmented call. -/
def singleFrame (c : EncodeCall) : Bytes :=
  writeFixedHeader c.media.msgType FLAG_HAS_COMMON c.timestampMs (10 + 4) (UInt32.ofNat c.payload.length) ++
    (writeCommonExtHeader c.absTimeMs ++ (c.media.ext ++ c.payload))

theorem encode_single {c : EncodeCall} (h : ¬ c.Fragmented) : c.encode = [singleFrame c] := by
  rw [c.encode_eq, encodeFrame_single (Nat.not_lt.mp h)]
  simp [singleFrame, List.append_assoc]

/-- The `i`-th frame of a fragmented call. -/
def fragmentFrame (c : EncodeCall) (i : Nat) : Bytes :=
  encodeFragment c.media.msgType c.media.ext c.payload c.timestampMs c.absTimeMs c.frameId
    (totalFragments c.payload) i

theorem encode_fragments {c : EncodeCall} (h : c.Fragmented) :
    c.encode = (List.range (totalFragments c.payload).toNat).map (fragmentFrame c) := by
  rw [c.encode_eq, encodeFrame_fragments h]
  rfl

theorem payload_write (mt : MsgType) (fl : UInt8) (ts : Int64) (ext : UInt8) (pl : UInt32)
    (exts payload : Bytes) (hext : exts.length = ext.toNat) (hpl : payload.length = pl.toNat) :
    (FixedHeader.mk mt.toByte fl ts ext pl).payload (writeFixedHeader mt fl ts ext pl ++ (exts ++ payload)) =
      .ok payload := by
  have h := readInput_at (p := writeFixedHeader mt fl ts ext pl ++ exts)
    (o := FIXED_HEADER_SIZE + ext.toNat) (by simp [hext, FIXED_HEADER_SIZE]) [] payload hpl
  simpa [FixedHeader.payload] using h

/-- **An unfragmented frame.** It completes with what was encoded, unless its
payload cannot be allocated, and leaves the table alone. -/
theorem parse_single {c : EncodeCall} (hc : ¬ c.Fragmented) (m : Mallocs) (g : FragmentTable) (r : ParsedFrame) :
    frameProtocolParse m g r (singleFrame c) = .ok (if c.payload = [] ∨ m.payload = true then
      (.complete, g, callFrame c) else (.error, g, { callFrame c with payload := none })) := by
  have hle : c.payload.length ≤ 16384 := Nat.not_lt.mp hc
  have hpl : (UInt32.ofNat c.payload.length).toNat = c.payload.length :=
    UInt32.toNat_ofNat_of_lt' (by simp [UInt32.size]; omega)
  have hext := c.media.ext_length
  have hval := validateHeader_write c.media.msgType FLAG_HAS_COMMON c.timestampMs (10 + 4)
    (UInt32.ofNat c.payload.length) (writeCommonExtHeader c.absTimeMs ++ (c.media.ext ++ c.payload))
    (by simp [hext, hpl]; omega) (by simp [hext]; omega)
  have hcom := parseCommonLayer_write (o := 0)
    (p := writeFixedHeader c.media.msgType FLAG_HAS_COMMON c.timestampMs (10 + 4)
      (UInt32.ofNat c.payload.length)) (by simp) (10 + 4) FLAG_HAS_COMMON (by decide) (by decide) c.absTimeMs
    (c.media.ext ++ c.payload) {}
  have htype := parseTypeLayer_write (o := 0 + 10)
    (p := writeFixedHeader c.media.msgType FLAG_HAS_COMMON c.timestampMs (10 + 4)
      (UInt32.ofNat c.payload.length) ++ writeCommonExtHeader c.absTimeMs) (by simp) (10 + 4) (by decide)
    c.media c.payload { absTime := c.absTimeMs }
  have hpay := payload_write c.media.msgType FLAG_HAS_COMMON c.timestampMs (10 + 4)
    (UInt32.ofNat c.payload.length) (writeCommonExtHeader c.absTimeMs ++ c.media.ext) c.payload
    (by simp [hext]) hpl.symm
  simp only [List.append_assoc] at htype hpay
  have hinfo : (FixedHeader.mk c.media.msgType.toByte FLAG_HAS_COMMON c.timestampMs (10 + 4)
      (UInt32.ofNat c.payload.length)).info (typeFields c.media { absTime := c.absTimeMs }) = callInfo c := by
    unfold callInfo
    cases c.media <;> rfl
  unfold frameProtocolParse singleFrame
  simp only [hval, ok_bind, parseExtHeaders, parseFragmentLayer_off (show FLAG_HAS_COMMON &&& FLAG_FRAGMENT = 0 by decide),
    hcom, htype, show FLAG_HAS_COMMON &&& FLAG_FRAGMENT = 0 by decide, if_true, parseSingle, hinfo, hpay, hpl]
  by_cases hnil : c.payload = []
  · simp [hnil, callFrame]
  · have hpos : 0 < c.payload.length := List.length_pos_iff.mpr hnil
    by_cases hm : m.payload = true <;> simp [hpos, hnil, callFrame, hm]

/-- What the headers of a fragment say: `info` is the metadata they carry,
`piece` the payload behind them. -/
structure FragmentOf (c : EncodeCall) (i : Nat) (h : FixedHeader) (f : ExtFields) (data : Bytes) : Prop where
  frameId : f.frameId = c.frameId
  fragIndex : f.fragIndex = UInt16.ofNat i
  totalFrags : f.totalFrags = totalFragments c.payload
  info : i = 0 → h.info f = callInfo c
  payload : h.payload data = .ok (chunk c.payload i)
  payloadLength : h.payloadLength = UInt32.ofNat (chunk c.payload i).length

theorem fragmentFrame_zero (c : EncodeCall) : fragmentFrame c 0 =
    writeFixedHeader c.media.msgType (FLAG_FRAGMENT ||| FLAG_HAS_COMMON) c.timestampMs (6 + 10 + 4)
      (UInt32.ofNat (chunk c.payload 0).length) ++
      (writeFragmentExtHeader c.frameId (UInt16.ofNat 0) (totalFragments c.payload) ++
        (writeCommonExtHeader c.absTimeMs ++ (c.media.ext ++ chunk c.payload 0))) := by
  simp [fragmentFrame, encodeFragment]

theorem fragmentFrame_pos (c : EncodeCall) {i : Nat} (hi : i ≠ 0) : fragmentFrame c i =
    writeFixedHeader c.media.msgType FLAG_FRAGMENT c.timestampMs 6 (UInt32.ofNat (chunk c.payload i).length) ++
      (writeFragmentExtHeader c.frameId (UInt16.ofNat i) (totalFragments c.payload) ++
        chunk c.payload i) := by
  simp [fragmentFrame, encodeFragment, hi]

theorem chunk_size (payload : Bytes) (i : Nat) :
    (UInt32.ofNat (chunk payload i).length).toNat = (chunk payload i).length := by
  have h : (chunk payload i).length ≤ 16384 := chunk_length_le payload i
  exact UInt32.toNat_ofNat_of_lt' (by simp [UInt32.size]; omega)

section
variable (c : EncodeCall)

private theorem parse_first_fragment (m : Mallocs) (g : FragmentTable) (r : ParsedFrame) :
    ∃ h f, FragmentOf c 0 h f (fragmentFrame c 0) ∧
      frameProtocolParse m g r (fragmentFrame c 0) = parseFragment m g r h f (fragmentFrame c 0) := by
  have hle : (chunk c.payload 0).length ≤ 16384 := chunk_length_le c.payload 0
  have hpl := chunk_size c.payload 0
  have hext := c.media.ext_length
  -- the three layers start at 20, 26 and 36, the payload at 40
  have hval := validateHeader_write c.media.msgType (FLAG_FRAGMENT ||| FLAG_HAS_COMMON) c.timestampMs
    (6 + 10 + 4) (UInt32.ofNat (chunk c.payload 0).length)
    (writeFragmentExtHeader c.frameId (UInt16.ofNat 0) (totalFragments c.payload) ++
      (writeCommonExtHeader c.absTimeMs ++ (c.media.ext ++ chunk c.payload 0)))
    (by simp [hext, hpl]; omega) (by simp [hext]; omega)
  have hfrag := parseFragmentLayer_write (p := writeFixedHeader c.media.msgType
    (FLAG_FRAGMENT ||| FLAG_HAS_COMMON) c.timestampMs (6 + 10 + 4) (UInt32.ofNat (chunk c.payload 0).length))
    (by simp) (6 + 10 + 4) (FLAG_FRAGMENT ||| FLAG_HAS_COMMON) (by decide) (by decide) c.frameId
    (UInt16.ofNat 0) (totalFragments c.payload)
    (writeCommonExtHeader c.absTimeMs ++ (c.media.ext ++ chunk c.payload 0)) {}
  have hcom := parseCommonLayer_write (o := 6) (p := writeFixedHeader c.media.msgType
    (FLAG_FRAGMENT ||| FLAG_HAS_COMMON) c.timestampMs (6 + 10 + 4) (UInt32.ofNat (chunk c.payload 0).length) ++
    writeFragmentExtHeader c.frameId (UInt16.ofNat 0) (totalFragments c.payload))
    (by simp) (6 + 10 + 4) (FLAG_FRAGMENT ||| FLAG_HAS_COMMON) (by decide) (by decide) c.absTimeMs
    (c.media.ext ++ chunk c.payload 0)
    { frameId := c.frameId, fragIndex := UInt16.ofNat 0, totalFrags := totalFragments c.payload }
  have htype := parseTypeLayer_write (o := 6 + 10) (p := writeFixedHeader c.media.msgType
    (FLAG_FRAGMENT ||| FLAG_HAS_COMMON) c.timestampMs (6 + 10 + 4) (UInt32.ofNat (chunk c.payload 0).length) ++
    writeFragmentExtHeader c.frameId (UInt16.ofNat 0) (totalFragments c.payload) ++
    writeCommonExtHeader c.absTimeMs) (by simp) (6 + 10 + 4) (by decide) c.media (chunk c.payload 0)
    { frameId := c.frameId, fragIndex := UInt16.ofNat 0, totalFrags := totalFragments c.payload
      absTime := c.absTimeMs }
  have hpay := payload_write c.media.msgType (FLAG_FRAGMENT ||| FLAG_HAS_COMMON) c.timestampMs (6 + 10 + 4)
    (UInt32.ofNat (chunk c.payload 0).length)
    (writeFragmentExtHeader c.frameId (UInt16.ofNat 0) (totalFragments c.payload) ++
      writeCommonExtHeader c.absTimeMs ++ c.media.ext) (chunk c.payload 0) (by simp [hext]) hpl.symm
  simp only [List.append_assoc] at hcom htype hpay
  refine ⟨⟨c.media.msgType.toByte, FLAG_FRAGMENT ||| FLAG_HAS_COMMON, c.timestampMs, 6 + 10 + 4,
    UInt32.ofNat (chunk c.payload 0).length⟩, typeFields c.media
    { frameId := c.frameId, fragIndex := UInt16.ofNat 0, totalFrags := totalFragments c.payload
      absTime := c.absTimeMs }, ⟨?_, ?_, ?_, fun _ => ?_, ?_, rfl⟩, ?_⟩
  · cases c.media <;> rfl
  · cases c.media <;> rfl
  · cases c.media <;> rfl
  · unfold callInfo
    cases c.media <;> rfl
  · rw [fragmentFrame_zero]; exact hpay
  · unfold frameProtocolParse
    simp only [fragmentFrame_zero, hval, ok_bind, parseExtHeaders, hfrag, hcom, htype]
    rw [if_neg (by decide)]

private theorem parse_later_fragment {i : Nat} (hi : i ≠ 0) (m : Mallocs) (g : FragmentTable) (r : ParsedFrame) :
    ∃ h f, FragmentOf c i h f (fragmentFrame c i) ∧
      frameProtocolParse m g r (fragmentFrame c i) = parseFragment m g r h f (fragmentFrame c i) := by
  have hle : (chunk c.payload i).length ≤ 16384 := chunk_length_le c.payload i
  have hpl := chunk_size c.payload i
  have hval := validateHeader_write c.media.msgType FLAG_FRAGMENT c.timestampMs 6
    (UInt32.ofNat (chunk c.payload i).length)
    (writeFragmentExtHeader c.frameId (UInt16.ofNat i) (totalFragments c.payload) ++ chunk c.payload i)
    (by simp [hpl]) (by simp; omega)
  have hfrag := parseFragmentLayer_write (p := writeFixedHeader c.media.msgType FLAG_FRAGMENT
    c.timestampMs 6 (UInt32.ofNat (chunk c.payload i).length)) (by simp) 6 FLAG_FRAGMENT (by decide)
    (by decide) c.frameId (UInt16.ofNat i) (totalFragments c.payload) (chunk c.payload i) {}
  have hpay := payload_write c.media.msgType FLAG_FRAGMENT c.timestampMs 6
    (UInt32.ofNat (chunk c.payload i).length)
    (writeFragmentExtHeader c.frameId (UInt16.ofNat i) (totalFragments c.payload)) (chunk c.payload i)
    (by simp) hpl.symm
  refine ⟨⟨c.media.msgType.toByte, FLAG_FRAGMENT, c.timestampMs, 6, UInt32.ofNat (chunk c.payload i).length⟩,
    { frameId := c.frameId, fragIndex := UInt16.ofNat i, totalFrags := totalFragments c.payload },
    ⟨rfl, rfl, rfl, fun h0 => absurd h0 hi, ?_, rfl⟩, ?_⟩
  · rw [fragmentFrame_pos c hi]; exact hpay
  · unfold frameProtocolParse
    simp only [fragmentFrame_pos c hi, hval, ok_bind, parseExtHeaders, hfrag,
      parseCommonLayer_off (show FLAG_FRAGMENT &&& FLAG_HAS_COMMON = 0 by decide), parseTypeLayer_none]
    rw [if_neg (by decide)]

/-- **A fragment.** Whatever its index, it passes the validation and reaches
the slot table as the fragment the encoder made. -/
theorem parse_fragmentFrame (i : Nat) (m : Mallocs) (g : FragmentTable) (r : ParsedFrame) :
    ∃ h f, FragmentOf c i h f (fragmentFrame c i) ∧
      frameProtocolParse m g r (fragmentFrame c i) = parseFragment m g r h f (fragmentFrame c i) := by
  by_cases hi : i = 0
  · subst hi; exact parse_first_fragment c m g r
  · exact parse_later_fragment c hi m g r

end

end WebPlayer.L1.FrameParser
