import WebPlayer.Core.Double
import WebPlayer.Core.Memory
import WebPlayer.L3Protocol.Interleaving

/-!
# Reading the parser's result (`js/decoder/DecoderWrapper.ts:160-175, 301-365`)

`parseFrame` hands a protocol frame to the WASM module and reads the
`ParsedFrame` struct (`wasm/frame_protocol.h:17-30`) out of its memory, field
by field, at the offsets of wasm32. A 64-bit field is read as two 32-bit
halves, both unsigned; the codec is read at the video codec's offset.

**The module (`WasmModule`, a parameter).** Behind each call of the parser its
memory holds what the parser left in the struct, as wasm32 lays it out, and
the payload where the struct points to.

**Numbers.** A sum of two halves is rounded as a `double`.

**Results.**
* `readInt64_exact_iff`: a timestamp is read as it is iff it is not negative.
* `reported_iff_video`: what is reported is what was encoded iff that was a
  video frame.
-/
namespace WebPlayer.L4.DecoderWrapper
open WebPlayer.Core WebPlayer.L1.FrameEncoder WebPlayer.L1.FrameParser WebPlayer.L2.Reassembler
  WebPlayer.L3.Interleaving

/-! ## Numbers -/

/-- `getValue(ptr, 'i32')`: `HEAP32[ptr >> 2]`. -/
def getValueI32 (heap : Heap) (ptr : Nat) : Int32 := (UInt32.ofNat (leNat (heap.read (ptr / 4 * 4) 4))).toInt32

/-- `x >>> 0` -/
def toUnsigned (x : Int32) : Nat := x.toUInt32.toNat

/-- mirrors js/decoder/DecoderWrapper.ts:160-175 -/
def readInt64AsNumber (heap : Heap) (ptr : Nat) : Nat :=
  let low := toUnsigned (getValueI32 heap ptr)
  let high := toUnsigned (getValueI32 heap (ptr + 4))
  toDouble (low + high * 4294967296)

theorem toUnsigned_getValueI32 (heap : Heap) {ptr : Nat} (h : ptr % 4 = 0) :
    toUnsigned (getValueI32 heap ptr) = leNat (heap.read ptr 4) := by
  have hptr : ptr / 4 * 4 = ptr := by omega
  have hlt := leNat_lt (heap.read ptr 4)
  rw [length_read] at hlt
  rw [toUnsigned, getValueI32, hptr, UInt32.toUInt32_toInt32]
  exact UInt32.toNat_ofNat_of_lt' hlt

/-- The halves are put together as an unsigned number. -/
theorem readInt64AsNumber_eq {heap : Heap} {ptr : Nat} (hptr : ptr % 4 = 0) {v : Int64}
    (h : BytesAt heap ptr (leBytes 8 v.toUInt64.toNat)) :
    readInt64AsNumber heap ptr = toDouble v.toUInt64.toNat := by
  have hlt : v.toUInt64.toNat < 256 ^ 8 := v.toUInt64.toNat_lt
  have hread := leNat_read_of_bytesAt h hlt
  rw [leNat_read_add heap ptr 4 4, show 256 ^ 4 = 4294967296 from rfl] at hread
  rw [readInt64AsNumber, toUnsigned_getValueI32 heap hptr, toUnsigned_getValueI32 heap (by omega), ← hread,
    Nat.mul_comm _ 4294967296]

theorem toDouble_of_small {n : Nat} (h : n < 2 ^ 53) : toDouble n = n := by
  apply toDouble_eq_self
  by_cases h0 : n = 0
  · simp [h0]
  · have hlog : n.log2 < 53 := (Nat.log2_lt h0).mpr h
    rw [show n.log2 - 52 = 0 by omega]
    exact Nat.one_dvd _

/-- Two's complement. -/
theorem toInt_eq (v : Int64) : v.toInt =
    if 2 * v.toUInt64.toNat < 2 ^ 64 then (v.toUInt64.toNat : Int) else (v.toUInt64.toNat : Int) - 2 ^ 64 :=
  BitVec.toInt_eq_toNat_cond v.toBitVec

/-- A negative number is read as `2 ^ 64` more than it is, rounded. -/
theorem readInt64_negative {heap : Heap} {ptr : Nat} (hptr : ptr % 4 = 0) {v : Int64}
    (h : BytesAt heap ptr (leBytes 8 v.toUInt64.toNat)) (hneg : v.toInt < 0) :
    readInt64AsNumber heap ptr = toDouble (2 ^ 64 + v.toInt).toNat := by
  rw [readInt64AsNumber_eq hptr h]
  have hv := toInt_eq v
  split at hv
  · omega
  · have hsum : Int.toNat (2 ^ 64 + v.toInt) = v.toUInt64.toNat := by omega
    rw [hsum]

/-- **Reading a timestamp.** Of the numbers within `2 ^ 53` that lie in memory,
exactly those that are not negative are read as they are. -/
theorem readInt64_exact_iff (heap : Heap) (ptr : Nat) (hptr : ptr % 4 = 0) (v : Int64)
    (hv : -(2 ^ 53 - 1) ≤ v.toInt ∧ v.toInt ≤ 2 ^ 53 - 1) (h : BytesAt heap ptr (leBytes 8 v.toUInt64.toNat)) :
    (readInt64AsNumber heap ptr : Int) = v.toInt ↔ 0 ≤ v.toInt := by
  constructor
  · intro heq
    rw [← heq]
    exact Int.natCast_nonneg _
  · intro hpos
    have hnat : (v.toUInt64.toNat : Int) = v.toInt := by
      have hv' := toInt_eq v
      have hlt := v.toUInt64.toNat_lt
      split at hv'
      · omega
      · omega
    rw [readInt64AsNumber_eq hptr h, toDouble_of_small (by omega), hnat]

/-- The memory of a timestamp of 40 ms. -/
theorem readInt64_exact_forty : (readInt64AsNumber (fun a => if a = 8 then 40 else 0) 8 : Int) = (40 : Int64).toInt :=
  (readInt64_exact_iff (fun a => if a = 8 then 40 else 0) 8 (by decide) 40 (by decide) (by decide)).mpr (by decide)

/-- Eight bytes 0xFF, the timestamp -1, are read as `2 ^ 64`. -/
theorem readInt64_minus_one : readInt64AsNumber (fun _ => 0xFF) 8 = 2 ^ 64 ∧
    ¬ ∀ (heap : Heap) (ptr : Nat) (v : Int64), ptr % 4 = 0 → -(2 ^ 53 - 1) ≤ v.toInt ∧ v.toInt ≤ 2 ^ 53 - 1 →
      BytesAt heap ptr (leBytes 8 v.toUInt64.toNat) → (readInt64AsNumber heap ptr : Int) = v.toInt := by
  refine ⟨by decide, fun h => ?_⟩
  exact absurd (h (fun _ => 0xFF) 8 (-1) (by decide) (by decide) (by decide)) (by decide)

/-- What `decode` makes of a negative one is not a safe integer. -/
theorem readInt64_negative_unsafe {heap : Heap} {ptr : Nat} (hptr : ptr % 4 = 0) {v : Int64}
    (h : BytesAt heap ptr (leBytes 8 v.toUInt64.toNat)) (hneg : v.toInt < 0) :
    2 ^ 53 - 1 < readInt64AsNumber heap ptr := by
  have hv := v.le_toInt
  have hmono := toDouble_mono (show 2 ^ 63 ≤ (2 ^ 64 + v.toInt).toNat by omega)
  have hfix : toDouble (2 ^ 63) = 2 ^ 63 := toDouble_eq_self (by rw [Nat.log2_two_pow]; exact Nat.pow_dvd_pow 2 (by decide))
  rw [readInt64_negative hptr h hneg]
  omega

/-! ## The struct -/

/-- A `ParsedFrame` at `ptr`, as wasm32 lays it out. The memory ends at 512
MiB (`scripts/build_wasm.sh:60`). -/
structure ParsedFrameAt (heap : Heap) (ptr : Nat) (r : ParsedFrame) : Prop where
  aligned : ptr % 8 = 0
  msgType : heap ptr = r.info.msgType
  videoCodec : heap (ptr + 1) = r.info.videoCodec
  videoFrameType : heap (ptr + 2) = r.info.videoFrameType
  videoResolution : BytesAt heap (ptr + 4) (leBytes 2 r.info.videoResolution.toNat)
  timestamp : BytesAt heap (ptr + 8) (leBytes 8 r.info.timestamp.toUInt64.toNat)
  absTime : BytesAt heap (ptr + 16) (leBytes 8 r.info.absTime.toUInt64.toNat)
  payload : ∃ p, p < 2 ^ 29 ∧ BytesAt heap (ptr + 24) (leBytes 4 p) ∧
    match r.payload with
    | none => p = 0
    | some bytes => 0 < p ∧ BytesAt heap p bytes
  payloadSize : BytesAt heap (ptr + 28) (leBytes 4 r.payloadSize.toNat)
  audioCodec : heap (ptr + 32) = r.info.audioCodec
  audioSampleRate : heap (ptr + 33) = r.info.audioSampleRate
  audioChannels : heap (ptr + 34) = r.info.audioChannels

/-- mirrors js/decoder/types.ts:50-58 -/
structure ParsedFrameInfo where
  status : FrameParseStatus
  msgType : UInt8 := 0
  codec : UInt8 := 0
  frameType : UInt8 := 0
  timestamp : Nat := 0
  absTime : Nat := 0
  payload : Bytes := []
  deriving DecidableEq, Repr

/-- The fields of a complete frame.
mirrors js/decoder/DecoderWrapper.ts:345-361 -/
def readFields (heap : Heap) (ptr : Nat) : ParsedFrameInfo :=
  let payloadPtr := (getValueI32 heap (ptr + 24)).toInt
  let payloadSize := toUnsigned (getValueI32 heap (ptr + 28))
  { status := .complete
    msgType := heap ptr
    codec := heap (ptr + 1)
    frameType := heap (ptr + 2)
    timestamp := readInt64AsNumber heap (ptr + 8)
    absTime := readInt64AsNumber heap (ptr + 16)
    payload := if payloadPtr ≠ 0 ∧ 0 < payloadSize then heap.read payloadPtr.toNat payloadSize else [] }

/-- The instance of the module: where the result struct is and what the memory
is when the `n`-th call of the parser has left `r` in it. -/
structure WasmModule where
  parsedFramePtr : Nat
  heap : Nat → ParsedFrame → Heap
  stored : ∀ n r, ParsedFrameAt (heap n r) parsedFramePtr r

/-- mirrors js/decoder/DecoderWrapper.ts:301-365 -/
def parseFrame (w : WasmModule) (n : Nat) (g : FragmentTable) (r : ParsedFrame) (data : Bytes) :
    Except Fault (ParsedFrameInfo × FragmentTable × ParsedFrame) := do
  let (status, g, r) ← frameProtocolParse {} g r data
  match status with
  | .complete => pure (readFields (w.heap n r) w.parsedFramePtr, g, r)
  | status => pure ({ status }, g, r)

/-- The results of the calls from the `n`-th on. -/
def parseFrames (w : WasmModule) : Nat → FragmentTable → ParsedFrame → List Bytes → Except Fault (List ParsedFrameInfo)
  | _, _, _, [] => pure []
  | n, g, r, data :: rest => do
    let (info, g, r) ← parseFrame w n g r data
    let infos ← parseFrames w (n + 1) g r rest
    pure (info :: infos)

/-! ## What the fields are -/

/-- A pointer into the memory is not negative as an `i32`. -/
theorem toInt_getValueI32 {heap : Heap} {ptr p : Nat} (hptr : ptr % 4 = 0) (hp : p < 2 ^ 29)
    (h : BytesAt heap ptr (leBytes 4 p)) : (getValueI32 heap ptr).toInt = p := by
  have hread := leNat_read_of_bytesAt h (show p < 256 ^ 4 by omega)
  have hnat : (UInt32.ofNat p).toNat = p := UInt32.toNat_ofNat_of_lt' (by simp only [UInt32.size]; omega)
  have hint : (UInt32.ofNat p).toInt32.toInt =
      if 2 * (UInt32.ofNat p).toNat < 2 ^ 32 then ((UInt32.ofNat p).toNat : Int) else (UInt32.ofNat p).toNat - 2 ^ 32 :=
    BitVec.toInt_eq_toNat_cond (UInt32.ofNat p).toBitVec
  rw [getValueI32, show ptr / 4 * 4 = ptr by omega, hread, hint, hnat, if_pos (by omega)]

/-- **What `parseFrame` returns** of a result struct: the video codec, and the
payload that the struct points to. -/
theorem readFields_eq {heap : Heap} {ptr : Nat} {r : ParsedFrame} (h : ParsedFrameAt heap ptr r)
    (hsize : r.payloadSize.toNat = (r.payload.getD []).length) : readFields heap ptr =
      { status := .complete, msgType := r.info.msgType, codec := r.info.videoCodec, frameType := r.info.videoFrameType
        timestamp := toDouble r.info.timestamp.toUInt64.toNat, absTime := toDouble r.info.absTime.toUInt64.toNat
        payload := r.payload.getD [] } := by
  have haligned := h.aligned
  obtain ⟨p, hp, hpayloadPtr, hpayload⟩ := h.payload
  have hsize' := leNat_read_of_bytesAt h.payloadSize (show r.payloadSize.toNat < 256 ^ 4 from r.payloadSize.toNat_lt)
  have hbytes : (if (p : Int) ≠ 0 ∧ 0 < r.payloadSize.toNat then heap.read (p : Int).toNat r.payloadSize.toNat else []) =
      r.payload.getD [] := by
    cases hr : r.payload with
    | none =>
      rw [hr] at hpayload
      simp [show p = 0 from hpayload]
    | some bytes =>
      rw [hr] at hpayload hsize
      obtain ⟨hpos, hat⟩ := hpayload
      rw [Option.getD_some] at hsize ⊢
      rw [hsize, Int.toNat_natCast, hat]
      by_cases hlen : 0 < bytes.length
      · rw [if_pos ⟨by omega, hlen⟩]
      · rw [if_neg (fun h => hlen h.2)]
        exact (List.length_eq_zero_iff.mp (by omega)).symm
  unfold readFields
  simp only [toInt_getValueI32 (show (ptr + 24) % 4 = 0 by omega) hp hpayloadPtr,
    toUnsigned_getValueI32 heap (show (ptr + 28) % 4 = 0 by omega), hsize',
    readInt64AsNumber_eq (show (ptr + 8) % 4 = 0 by omega) h.timestamp,
    readInt64AsNumber_eq (show (ptr + 16) % 4 = 0 by omega) h.absTime, h.msgType, h.videoCodec, h.videoFrameType, hbytes]

/-- What is reported is what was encoded. -/
structure Reports (c : EncodeCall) (info : ParsedFrameInfo) : Prop where
  msgType : info.msgType = c.media.msgType.toByte
  codec : info.codec = match c.media with
    | .video codec _ => codec.toByte
    | .audio codec _ _ => codec.toByte
  payload : info.payload = c.payload

/-- A call of `EncodeVideoFrame`. -/
def IsVideo (c : EncodeCall) : Prop := c.media.msgType = .video

/-- The info of a call's result struct: right for video; for audio the codec
is 0, and the rest is right. -/
theorem reports_iff {c : EncodeCall} (hb : c.payload.length ≤ maxPayload) {heap : Heap} {ptr : Nat}
    (h : ParsedFrameAt heap ptr (callFrame c)) : Reports c (readFields heap ptr) ↔ IsVideo c := by
  have hlen : c.payload.length < 2 ^ 32 := by
    simp only [maxPayload, FRAGMENT_THRESHOLD] at hb
    omega
  have hpayload : (callFrame c).payload.getD [] = c.payload := by
    rw [callFrame]
    by_cases hnil : c.payload = []
    · simp [hnil]
    · simp [hnil]
  have hsize : (callFrame c).payloadSize.toNat = ((callFrame c).payload.getD []).length := by
    rw [hpayload]
    exact UInt32.toNat_ofNat_of_lt' hlen
  rw [readFields_eq h hsize, hpayload]
  unfold IsVideo
  constructor
  · intro hr
    have hcodec := hr.codec
    simp only [callFrame, callInfo] at hcodec
    cases hm : c.media with
    | video codec frameType => rfl
    | audio codec sampleRate channels =>
      rw [hm] at hcodec
      have hzero : (0 : UInt8) = codec.toByte := hcodec
      cases codec <;> exact absurd hzero (by decide)
  · intro hv
    cases hm : c.media with
    | video codec frameType =>
      refine ⟨?_, ?_, rfl⟩
      · simp only [callFrame, callInfo, hm]
        rfl
      · simp only [callFrame, callInfo, hm]
    | audio codec sampleRate channels =>
      rw [hm] at hv
      cases hv

/-! ## Deliveries -/

/-- An info that shows a report of the parser. -/
def Shows (rep : Report) (info : ParsedFrameInfo) : Prop :=
  info.status = rep.1 ∧ ∀ r ∈ rep.2, ∃ heap ptr, ParsedFrameAt heap ptr r ∧ info = readFields heap ptr

theorem parseFrame_shows (w : WasmModule) (n : Nat) {g g' : FragmentTable} {r r' : ParsedFrame} {data : Bytes}
    {status : FrameParseStatus} (h : frameProtocolParse {} g r data = .ok (status, g', r')) :
    ∃ info, parseFrame w n g r data = .ok (info, g', r') ∧ Shows (report status r') info := by
  rw [parseFrame, h, ok_bind]
  cases status with
  | complete =>
    refine ⟨_, rfl, rfl, fun r hr => ?_⟩
    obtain rfl : r' = r := by simpa [report] using hr
    exact ⟨_, _, w.stored n r', rfl⟩
  | fragmentPending => exact ⟨_, rfl, rfl, by simp [report]⟩
  | error => exact ⟨_, rfl, rfl, by simp [report]⟩
  | skip => exact ⟨_, rfl, rfl, by simp [report]⟩

theorem parseFrames_shows (w : WasmModule) {frames : List Bytes} (n : Nat) {g : FragmentTable} {r : ParsedFrame}
    {reports : List Report} (h : parseAll g r frames = .ok reports) :
    ∃ infos, parseFrames w n g r frames = .ok infos ∧ List.Forall₂ Shows reports infos := by
  induction frames generalizing n g r reports with
  | nil =>
    cases h
    exact ⟨[], rfl, .nil⟩
  | cons data frames ih =>
    rw [parseAll] at h
    cases hp : frameProtocolParse {} g r data with
    | error f =>
      rw [hp] at h
      cases h
    | ok out =>
      obtain ⟨status, g', r'⟩ := out
      rw [hp, ok_bind] at h
      simp only at h
      cases hrest : parseAll g' r' frames with
      | error f =>
        rw [hrest] at h
        cases h
      | ok rest =>
        rw [hrest] at h
        cases h
        obtain ⟨info, hinfo, hshows⟩ := parseFrame_shows w n hp
        obtain ⟨infos, hinfos, hall⟩ := ih (n + 1) hrest
        refine ⟨info :: infos, ?_, .cons hshows hall⟩
        rw [parseFrames, hinfo, ok_bind]
        simp only [hinfos]
        rfl

section
variable {calls : List EncodeCall}

/-- Infos that show reports have their status. -/
theorem countP_shows {order : List (Delivery calls)} {reports : List Report} {infos : List ParsedFrameInfo}
    (h : List.Forall₂ Shows reports infos) (k : Fin calls.length) :
    (order.zip infos).countP (fun x => x.1.1 = k ∧ x.2.status = .complete) =
      (order.zip reports).countP (fun x => x.1.1 = k ∧ x.2.1 = .complete) := by
  induction h generalizing order with
  | nil => simp
  | cons hs _ ih =>
    cases order with
    | nil => rfl
    | cons d order => rw [List.zip_cons_cons, List.zip_cons_cons, List.countP_cons, List.countP_cons, ih, hs.1]

/-- A complete info is read off the result struct of its call. -/
theorem complete_shows {order : List (Delivery calls)} {infos : List ParsedFrameInfo}
    (h : List.Forall₂ Shows (expected order) infos) : ∀ x ∈ order.zip infos, x.2.status = .complete →
      ∃ heap ptr, ParsedFrameAt heap ptr (callFrame (calls.get x.1.1)) ∧ x.2 = readFields heap ptr := by
  induction order generalizing infos with
  | nil => simp
  | cons d later ih =>
    rw [expected] at h
    cases h with
    | cons hs hrest =>
      rw [List.zip_cons_cons, List.forall_mem_cons]
      refine ⟨fun hstatus => ?_, ih hrest⟩
      obtain ⟨hst, hres⟩ := hs
      rw [hstatus] at hst
      unfold expectedReport at hst hres
      split at hst
      · cases hst
      · rename_i hlast
        rw [if_neg hlast] at hres
        exact hres _ rfl

end

/-- **What `parseFrame` reports.** For any calls with payloads that the parser
accepts, delivered in any admissible order, every call is reported complete
exactly once; type, codec and payload are what was encoded exactly when the
call was a video frame. -/
theorem reported_iff_video (w : WasmModule) (calls : List EncodeCall) (hb : ∀ c ∈ calls, c.payload.length ≤ maxPayload)
    (order : List (Delivery calls)) (ho : Admissible order) (r : ParsedFrame) :
    ∃ infos, parseFrames w 0 frameProtocolInit r (order.map bytes) = .ok infos ∧
      (∀ k, (order.zip infos).countP (fun x => x.1.1 = k ∧ x.2.status = .complete) = 1) ∧
      ∀ x ∈ order.zip infos, x.2.status = .complete → (Reports (calls.get x.1.1) x.2 ↔ IsVideo (calls.get x.1.1)) := by
  have hparse := parseAll_expected hb ho order [] rfl (represents_init Receiving) (holds_init order) r
  obtain ⟨infos, hinfos, hall⟩ := parseFrames_shows w 0 hparse
  refine ⟨infos, hinfos, fun k => ?_, fun x hx hstatus => ?_⟩
  · have hmem : ((k, 0) : Delivery calls) ∈ order :=
      ho.perm.mem_iff.mpr (mem_deliveries.mpr (encode_length_pos (hb _ (List.get_mem ..))))
    rw [countP_shows hall, complete_once, if_pos ⟨_, hmem, rfl⟩]
  · obtain ⟨heap, ptr, hat, heq⟩ := complete_shows hall x hx hstatus
    rw [heq]
    exact reports_iff (hb _ (List.get_mem ..)) hat

/-! A module whose result struct is at 8, the payload behind it. -/

/-- The 40 bytes of the struct. -/
def structBytes (r : ParsedFrame) : Bytes :=
  [r.info.msgType, r.info.videoCodec, r.info.videoFrameType, 0] ++ (leBytes 2 r.info.videoResolution.toNat ++ ([0, 0] ++
    (leBytes 8 r.info.timestamp.toUInt64.toNat ++ (leBytes 8 r.info.absTime.toUInt64.toNat ++
      (leBytes 4 (if r.payload.isSome then 48 else 0) ++ (leBytes 4 r.payloadSize.toNat ++
        [r.info.audioCodec, r.info.audioSampleRate, r.info.audioChannels, 0, 0, 0, 0, 0]))))))

/-- The struct and its payload lie in such a memory as wasm32 has them. -/
theorem parsedFrameAt_ofBytes (r : ParsedFrame) :
    ParsedFrameAt (Heap.ofBytes 8 (structBytes r ++ r.payload.getD [])) 8 r := by
  have hall := bytesAt_ofBytes 8 (structBytes r ++ r.payload.getD [])
  generalize Heap.ofBytes 8 (structBytes r ++ r.payload.getD []) = heap at hall
  simp only [structBytes, bytesAt_append, bytesAt_cons, List.length_append, List.length_cons, List.length_nil,
    leBytes_length, Nat.reduceAdd] at hall
  obtain ⟨⟨⟨h0, h1, h2, -⟩, hres, -, hts, habs, hptr, hsize, h32, h33, h34, -⟩, hpayload⟩ := hall
  refine ⟨rfl, h0, h1, h2, hres, hts, habs, ⟨_, ?_, hptr, ?_⟩, hsize, h32, h33, h34⟩
  · split <;> decide
  · cases hr : r.payload with
    | none => rfl
    | some bytes => exact ⟨Nat.zero_lt_succ 47, by simpa [hr] using hpayload⟩

def lowModule : WasmModule where
  parsedFramePtr := 8
  heap _ r := Heap.ofBytes 8 (structBytes r ++ r.payload.getD [])
  stored _ r := parsedFrameAt_ofBytes r

theorem reported_iff_video_sample : ∃ infos, parseFrames lowModule 0 frameProtocolInit {} (sampleOrder.map bytes) = .ok infos ∧
    (∀ k, (sampleOrder.zip infos).countP (fun x => x.1.1 = k ∧ x.2.status = .complete) = 1) ∧
    ∀ x ∈ sampleOrder.zip infos, x.2.status = .complete →
      (Reports (sampleCalls.get x.1.1) x.2 ↔ IsVideo (sampleCalls.get x.1.1)) :=
  reported_iff_video lowModule sampleCalls sampleCalls_fit sampleOrder admissible_sample {}

/-- One byte of A-law. -/
def audioCall : EncodeCall where
  payload := [0xD5]
  media := .audio .g711a .rate8000 1
  timestampMs := 40
  absTimeMs := 1000
  frameId := 1

/-- It is reported with codec 0. -/
theorem audio_codec_lost :
    parseFrames lowModule 0 frameProtocolInit {} audioCall.encode =
      .ok [{ status := .complete, msgType := 2, codec := 0, timestamp := 40, absTime := 1000, payload := [0xD5] }] ∧
    ¬ ∀ (w : WasmModule) (c : EncodeCall) (infos : List ParsedFrameInfo), c.payload.length ≤ maxPayload →
      parseFrames w 0 frameProtocolInit {} c.encode = .ok infos →
      ∀ info ∈ infos, info.status = .complete → Reports c info := by
  have hrun : parseFrames lowModule 0 frameProtocolInit {} audioCall.encode =
      .ok [{ status := .complete, msgType := 2, codec := 0, timestamp := 40, absTime := 1000, payload := [0xD5] }] := by
    decide +kernel
  refine ⟨hrun, fun h => ?_⟩
  have hcodec := (h lowModule audioCall _ (by decide) hrun _ (List.mem_singleton.mpr rfl) rfl).codec
  exact absurd hcodec (by decide)

end WebPlayer.L4.DecoderWrapper
