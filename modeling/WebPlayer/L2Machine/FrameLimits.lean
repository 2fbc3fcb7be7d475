import WebPlayer.L2Machine.TableInvariant

/-!
# How large a frame may be

Two limits meet here: the encoder counts fragments in 16 bits
(`server/frame_protocol.cpp:113`), the parser refuses more than
`MAX_FRAGMENTS` of them (`wasm/frame_protocol.c:308`). The encoder checks
neither.

* `encode_parts`: what the frames of a call carry.
* `accepted_call`: within `maxPayload` every table takes every frame.
* `agrees_iff`: encoder and parser agree on the payloads of at most 4 MiB.
-/
namespace WebPlayer.L2.FrameLimits
open WebPlayer.Core WebPlayer.L1.FrameEncoder WebPlayer.L1.FrameParser WebPlayer.L2.PieceSlots
  WebPlayer.L2.TableInvariant

/-! ## What a frame says -/

/-- The payload behind the headers. -/
def payloadPart (frame : Bytes) : Bytes :=
  match readFixedHeader frame with
  | .ok h =>
    match h.payload frame with
    | .ok piece => piece
    | .error _ => []
  | .error _ => []

/-- The `total_fragments` field, of a fragment. -/
def totalField (frame : Bytes) : Option Nat :=
  match readFixedHeader frame with
  | .ok h =>
    if h.flags &&& FLAG_FRAGMENT = 0 then none
    else
      match readBe16 frame (FIXED_HEADER_SIZE + 4) with
      | .ok n => some n.toNat
      | .error _ => none
  | .error _ => none

/-- No table that any run leaves behind refuses the frame, given the memory
for it. -/
def Accepted (frame : Bytes) : Prop :=
  ∀ s, system.Reachable s → Fits s frame →
    ∃ status g' r', frameProtocolParse {} s.table s.result frame = .ok (status, g', r') ∧ status ≠ .error

/-- What encoder and parser should agree on. -/
structure Agrees (c : EncodeCall) : Prop where
  nonempty : c.encode ≠ []
  payload : (c.encode.map payloadPart).flatten = c.payload
  total : ∀ frame, frame ∈ c.encode → ∀ n, totalField frame = some n → n = c.encode.length
  accepted : ∀ frame, frame ∈ c.encode → Accepted frame

/-! ## The frames of a call -/

theorem payloadPart_write (mt : MsgType) (fl : UInt8) (ts : Int64) (ext : UInt8) (pl : UInt32)
    (exts payload : Bytes) (hext : exts.length = ext.toNat) (hpl : payload.length = pl.toNat) :
    payloadPart (writeFixedHeader mt fl ts ext pl ++ (exts ++ payload)) = payload := by
  have hpay := payload_write mt fl ts ext pl exts payload hext hpl
  rw [payloadPart, readFixedHeader_write]
  simp only [hpay]

section
variable (c : EncodeCall)

theorem payloadPart_single (h : ¬ c.Fragmented) : payloadPart (singleFrame c) = c.payload := by
  have hle : c.payload.length ≤ 16384 := Nat.not_lt.mp h
  have hpl : (UInt32.ofNat c.payload.length).toNat = c.payload.length :=
    UInt32.toNat_ofNat_of_lt' (by simp [UInt32.size]; omega)
  have hparts := payloadPart_write c.media.msgType FLAG_HAS_COMMON c.timestampMs (10 + 4)
    (UInt32.ofNat c.payload.length) (writeCommonExtHeader c.absTimeMs ++ c.media.ext) c.payload
    (by simp [c.media.ext_length]) hpl.symm
  rwa [List.append_assoc] at hparts

theorem payloadPart_fragment (i : Nat) : payloadPart (fragmentFrame c i) = chunk c.payload i := by
  have hpl := (chunk_size c.payload i).symm
  by_cases hi : i = 0
  · subst hi
    have hparts := payloadPart_write c.media.msgType (FLAG_FRAGMENT ||| FLAG_HAS_COMMON) c.timestampMs (6 + 10 + 4)
      (UInt32.ofNat (chunk c.payload 0).length)
      (writeFragmentExtHeader c.frameId (UInt16.ofNat 0) (totalFragments c.payload) ++
        (writeCommonExtHeader c.absTimeMs ++ c.media.ext)) (chunk c.payload 0) (by simp [c.media.ext_length]) hpl
    rwa [List.append_assoc, List.append_assoc, ← fragmentFrame_zero] at hparts
  · have hparts := payloadPart_write c.media.msgType FLAG_FRAGMENT c.timestampMs 6
      (UInt32.ofNat (chunk c.payload i).length)
      (writeFragmentExtHeader c.frameId (UInt16.ofNat i) (totalFragments c.payload)) (chunk c.payload i) (by simp) hpl
    rwa [← fragmentFrame_pos c hi] at hparts

theorem totalField_single : totalField (singleFrame c) = none := by
  rw [totalField, singleFrame, readFixedHeader_write]
  exact if_pos (by decide : FLAG_HAS_COMMON &&& FLAG_FRAGMENT = 0)

theorem totalField_write (mt : MsgType) {fl : UInt8} (hfl : fl &&& FLAG_FRAGMENT ≠ 0) (ts : Int64) (ext : UInt8)
    (pl : UInt32) (id i n : UInt16) (rest : Bytes) :
    totalField (writeFixedHeader mt fl ts ext pl ++ (writeFragmentExtHeader id i n ++ rest)) = some n.toNat := by
  have hn := readBe16_at (p := writeFixedHeader mt fl ts ext pl ++ (writeBE16 id ++ writeBE16 i))
    (o := FIXED_HEADER_SIZE + 4) (by simp [FIXED_HEADER_SIZE]) rest n
  simp only [List.append_assoc] at hn
  rw [totalField, readFixedHeader_write]
  simp only [if_neg hfl, writeFragmentExtHeader, List.append_assoc, hn]

theorem totalField_fragment (i : Nat) : totalField (fragmentFrame c i) = some (totalFragments c.payload).toNat := by
  by_cases hi : i = 0
  · subst hi
    rw [fragmentFrame_zero]
    exact totalField_write _ (by decide) _ _ _ _ _ _ _
  · rw [fragmentFrame_pos c hi]
    exact totalField_write _ (by decide) _ _ _ _ _ _ _

/-- What a call's frames carry: its payload, up to the fragments counted. -/
theorem encode_parts : (c.encode.map payloadPart).flatten =
    if c.Fragmented then c.payload.take ((totalFragments c.payload).toNat * FRAGMENT_THRESHOLD) else c.payload := by
  split
  · rename_i hf
    rw [encode_fragments hf, List.map_map, ← chunks_take]
    exact congrArg List.flatten (List.map_congr_left fun i _ => payloadPart_fragment c i)
  · rename_i hf
    rw [encode_single hf]
    simp [payloadPart_single c hf]

end

/-! ## Within the limit -/

theorem accepted_single {c : EncodeCall} (h : ¬ c.Fragmented) : Accepted (singleFrame c) := by
  intro s _ _
  have hparse := parse_single h {} s.table s.result
  rw [if_pos (.inr rfl)] at hparse
  exact ⟨_, _, _, hparse, by decide⟩

/-- The layers of a fragment and its piece. -/
theorem fragmentFrame_parts (c : EncodeCall) (i : Nat) : ∃ fl ext exts, exts.length = ext.toNat ∧ ext ≤ 20 ∧
    fragmentFrame c i = writeFixedHeader c.media.msgType fl c.timestampMs ext
      (UInt32.ofNat (chunk c.payload i).length) ++ (exts ++ chunk c.payload i) := by
  by_cases hi : i = 0
  · subst hi
    refine ⟨FLAG_FRAGMENT ||| FLAG_HAS_COMMON, 6 + 10 + 4, writeFragmentExtHeader c.frameId (UInt16.ofNat 0) (totalFragments c.payload) ++
      (writeCommonExtHeader c.absTimeMs ++ c.media.ext), by simp [c.media.ext_length], by decide, ?_⟩
    rw [fragmentFrame_zero, List.append_assoc, List.append_assoc]
  · exact ⟨_, 6, _, writeFragmentExtHeader_length _ _ _, by decide, fragmentFrame_pos c hi⟩

theorem declaredSize_write (mt : MsgType) (fl : UInt8) (ts : Int64) (ext : UInt8) (pl : UInt32)
    (exts payload : Bytes) (hext : exts.length = ext.toNat) (hpl : payload.length = pl.toNat) :
    declaredSize (writeFixedHeader mt fl ts ext pl ++ (exts ++ payload)) =
      (writeFixedHeader mt fl ts ext pl ++ (exts ++ payload)).length := by
  have hlen : 18 ≤ (writeFixedHeader mt fl ts ext pl ++ (exts ++ payload)).length := by
    rw [List.length_append, writeFixedHeader_length]
    omega
  have hhead := readFixedHeader_ok hlen
  rw [readFixedHeader_write] at hhead
  rw [declaredSize_eq hlen, ← Except.ok.inj hhead]
  simp [FIXED_HEADER_SIZE, hext, hpl]
  omega

/-- A fragment fits a table that holds nothing. -/
theorem fits_fragment (c : EncodeCall) (i : Nat) : Fits ⟨frameProtocolInit, {}⟩ (fragmentFrame c i) := by
  obtain ⟨fl, ext, exts, hext, hle, hparts⟩ := fragmentFrame_parts c i
  have hpiece : (chunk c.payload i).length ≤ 16384 := chunk_length_le c.payload i
  have hext20 : ext.toNat ≤ 20 := UInt8.le_iff_toNat_le.mp hle
  have hlen : (fragmentFrame c i).length = 20 + (exts.length + (chunk c.payload i).length) := by
    rw [hparts]
    simp
  have hempty : bufferBytes frameProtocolInit = 0 := by decide
  have hdecl := declaredSize_write c.media.msgType fl c.timestampMs ext (UInt32.ofNat (chunk c.payload i).length)
    exts (chunk c.payload i) hext (chunk_size c.payload i).symm
  rw [← hparts] at hdecl
  exact ⟨by omega, fun _ _ => by omega, by rw [hempty]; omega⟩

/-- A fragment of 1 to 256 is filed, whatever the table holds. -/
theorem accepted_fragment {c : EncodeCall} (hn : 1 ≤ (totalFragments c.payload).toNat)
    (hle : (totalFragments c.payload).toNat ≤ 256) (i : Nat) : Accepted (fragmentFrame c i) := by
  intro s hs hfit
  obtain ⟨A, hrep⟩ := represents_reachable hs
  obtain ⟨h, f, hf, hparse⟩ := parse_fragmentFrame c i {} s.table s.result
  obtain ⟨fl, ext, exts, -, -, hparts⟩ := fragmentFrame_parts c i
  have hpiece : (chunk c.payload i).length ≤ (fragmentFrame c i).length := by
    rw [hparts, List.length_append, List.length_append]
    omega
  have hmem := hfit.memory
  have htotal : 1 ≤ f.totalFrags.toNat ∧ f.totalFrags.toNat ≤ 256 := by
    rw [hf.totalFrags]
    exact ⟨hn, hle⟩
  obtain ⟨y, g', -, -, hstep, -⟩ := parseFragment_filed hrep htotal hf.payload (by omega) s.result
  exact ⟨_, _, _, hparse.trans hstep, statusAfter_ne y⟩

theorem accepted_call {c : EncodeCall} (h : c.payload.length ≤ maxPayload) {frame : Bytes} (hmem : frame ∈ c.encode) :
    Accepted frame := by
  by_cases hf : c.Fragmented
  · rw [encode_fragments hf] at hmem
    obtain ⟨i, -, rfl⟩ := List.mem_map.mp hmem
    obtain ⟨h2, h256⟩ := totalFragments_bounds h hf
    exact accepted_fragment (by omega) h256 i
  · rw [encode_single hf, List.mem_singleton] at hmem
    subst hmem
    exact accepted_single hf

theorem totalField_encode (c : EncodeCall) {frame : Bytes} (hmem : frame ∈ c.encode) {n : Nat}
    (hn : totalField frame = some n) : n = c.encode.length := by
  by_cases hf : c.Fragmented
  · have hlen := encode_length c
    rw [if_pos hf] at hlen
    rw [encode_fragments hf] at hmem
    obtain ⟨i, -, rfl⟩ := List.mem_map.mp hmem
    rw [totalField_fragment] at hn
    rw [hlen]
    exact (Option.some.inj hn).symm
  · rw [encode_single hf, List.mem_singleton] at hmem
    rw [hmem, totalField_single] at hn
    cases hn

/-! ## Beyond it -/

/-- More than 256 fragments, as counted in 16 bits: the parser refuses each. -/
theorem refused_fragment {c : EncodeCall} (hn : 256 < (totalFragments c.payload).toNat) (i : Nat) :
    ¬ Accepted (fragmentFrame c i) := by
  intro hacc
  have hinit : system.init ⟨frameProtocolInit, {}⟩ := rfl
  obtain ⟨status, g', r', hparse, hne⟩ := hacc _ (Lts.reachable_init hinit) (fits_fragment c i)
  obtain ⟨h, f, hf, hfile⟩ := parse_fragmentFrame c i {} frameProtocolInit {}
  have htotal : MAX_FRAGMENTS < f.totalFrags.toNat := by rwa [hf.totalFrags]
  rw [hfile, parseFragment_refused (.inr htotal)] at hparse
  cases hparse
  exact hne rfl

/-- Beyond 4 MiB, either the 16 bits cut fragments off or the parser refuses
what is left. -/
theorem disagrees {c : EncodeCall} (h : maxPayload < c.payload.length) : ¬ Agrees c := by
  intro hagree
  simp only [maxPayload, FRAGMENT_THRESHOLD] at h
  have hf : c.Fragmented := show FRAGMENT_THRESHOLD < _ by simp only [FRAGMENT_THRESHOLD]; omega
  have htotal : (totalFragments c.payload).toNat = (c.payload.length + 16384 - 1) / 16384 % 65536 := by
    rw [totalFragments, UInt16.toNat_ofNat']
    rfl
  by_cases hcut : (c.payload.length + 16384 - 1) / 16384 < 65536
  · have h256 : 256 < (totalFragments c.payload).toNat := by omega
    have hmem : fragmentFrame c 0 ∈ c.encode := by
      rw [encode_fragments hf]
      exact List.mem_map.mpr ⟨0, List.mem_range.mpr (by omega), rfl⟩
    exact refused_fragment h256 0 (hagree.accepted _ hmem)
  · have hpart := congrArg List.length hagree.payload
    rw [encode_parts, if_pos hf, List.length_take, htotal, FRAGMENT_THRESHOLD] at hpart
    omega

/-- **Size limits.** Encoder and parser agree on a frame iff its payload is
at most 4 MiB. -/
theorem agrees_iff (c : EncodeCall) : Agrees c ↔ c.payload.length ≤ maxPayload := by
  constructor
  · intro hagree
    by_contra hlong
    exact disagrees (Nat.not_le.mp hlong) hagree
  · intro h
    refine ⟨List.ne_nil_of_length_pos (encode_length_pos h), ?_, fun frame hmem n hn => totalField_encode c hmem hn,
      fun frame hmem => accepted_call h hmem⟩
    rw [encode_parts]
    split
    · rw [← chunks_take, chunks_flatten h]
    · rfl

/-- A video frame of one byte more than 4 MiB. -/
def longCall : EncodeCall where
  payload := List.replicate (maxPayload + 1) 0
  media := .video .h264 .idr
  timestampMs := 0
  absTimeMs := 0
  frameId := 0

/-- Its fragments say they are 257, and the parser refuses the first. -/
theorem long_frame_refused : totalField (fragmentFrame longCall 0) = some 257 ∧
    fragmentFrame longCall 0 ∈ longCall.encode ∧ ¬ Accepted (fragmentFrame longCall 0) ∧ ¬ Agrees longCall := by
  have hlen : longCall.payload.length = maxPayload + 1 := List.length_replicate
  have htotal : totalFragments longCall.payload = 257 := by
    rw [totalFragments, hlen]
    rfl
  have hf : longCall.Fragmented := by
    rw [EncodeCall.Fragmented, hlen]
    decide
  refine ⟨by rw [totalField_fragment, htotal]; rfl, ?_, refused_fragment (by rw [htotal]; decide) 0,
    disagrees (by rw [hlen]; exact Nat.lt_succ_self _)⟩
  rw [encode_fragments hf, htotal]
  exact List.mem_map.mpr ⟨0, List.mem_range.mpr (by decide), rfl⟩

end WebPlayer.L2.FrameLimits
