import WebPlayer.L1Encoding.FrameEncoder

/-!
# The WASM frame parser (`wasm/frame_protocol.c`)

`frame_protocol_parse` validates the fixed header, reads up to three
extension header layers, and either returns the payload at once or files it
as a fragment in a table of 16 slots, reassembling when the last one is in.

Every read of the input, of a heap array and through a pointer is checked:
a read the C program must not make is an `Fault` (undefined behaviour), not a
default value. An array pointer is an `Option`, `none` for NULL; a fragment
buffer likewise. `total_payload_size` of a slot is never read and left out.

**Allocation (`Mallocs`).** Which of the allocations of one call succeed is an
input.

**The caller (`DecoderWrapper.ts:301-320`).** `data` and `result` are not null,
and `size` is the length of `data`. `frame_protocol_init` has been called.
-/
namespace WebPlayer.L1.FrameParser
open WebPlayer.Core WebPlayer.L1.FrameEncoder

/-! ## Types -/

def FRAGMENT_EXT_SIZE : Nat := 6
def MAX_FRAGMENTS : Nat := 256
/-- `g_max_entries` -/
def maxEntries : Nat := 16

inductive FrameParseStatus where
  | complete | fragmentPending | error | skip
  deriving DecidableEq, Repr

/-- What the parser must not do: read outside `data`, follow a NULL pointer,
leave a heap buffer. -/
inductive Fault where
  | inputRead | nullPointer | heap
  deriving DecidableEq, Repr

/-- The header fields a slot keeps and a result returns. -/
structure FrameMeta where
  msgType : UInt8 := 0
  videoCodec : UInt8 := 0
  videoFrameType : UInt8 := 0
  videoResolution : UInt16 := 0
  timestamp : Int64 := 0
  absTime : Int64 := 0
  audioCodec : UInt8 := 0
  audioSampleRate : UInt8 := 0
  audioChannels : UInt8 := 0
  deriving DecidableEq, Repr

/-- mirrors wasm/frame_protocol.c:20-44 -/
structure FragmentEntry where
  frameId : UInt16 := 0
  totalFragments : UInt16 := 0
  receivedCount : UInt16 := 0
  fragmentData : Option (List (Option Bytes)) := none
  fragmentSizes : Option (List UInt32) := none
  fragmentPresent : Option (List Bool) := none
  info : FrameMeta := {}
  active : Bool := false
  deriving DecidableEq, Repr

/-- mirrors wasm/frame_protocol.h:17-30 -/
structure ParsedFrame where
  info : FrameMeta := {}
  payload : Option Bytes := none
  payloadSize : UInt32 := 0
  deriving DecidableEq, Repr

/-- `g_fragments` once `frame_protocol_init` has allocated it. -/
structure FragmentTable where
  slots : List FragmentEntry
  length_slots : slots.length = maxEntries

/-- mirrors wasm/frame_protocol.c:207-219 -/
def frameProtocolInit : FragmentTable := ⟨List.replicate maxEntries {}, List.length_replicate⟩

def FragmentTable.set (g : FragmentTable) (i : Nat) (e : FragmentEntry) : FragmentTable :=
  ⟨g.slots.set i e, by rw [List.length_set, g.length_slots]⟩

/-- What the allocation sites of one call return: the three `calloc`s of a
new slot, the fragment buffer, the reassembly buffer and the payload copy. -/
structure Mallocs where
  fragmentData : Bool := true
  fragmentSizes : Bool := true
  fragmentPresent : Bool := true
  fragment : Bool := true
  reassembled : Bool := true
  payload : Bool := true

/-! ## Checked reads -/

/-- `len` bytes of the input at `off`. -/
def readInput (data : Bytes) (off len : Nat) : Except Fault Bytes :=
  if off + len ≤ data.length then .ok ((data.drop off).take len) else .error .inputRead

def readByte (data : Bytes) (off : Nat) : Except Fault UInt8 :=
  match data[off]? with
  | some b => .ok b
  | none => .error .inputRead

/-- mirrors wasm/frame_protocol.c:52-54 -/
def readBe16 (data : Bytes) (off : Nat) : Except Fault UInt16 :=
  (readInput data off 2).map fun bs => UInt16.ofNat (beNat bs)

/-- mirrors wasm/frame_protocol.c:56-59 -/
def readBe32 (data : Bytes) (off : Nat) : Except Fault UInt32 :=
  (readInput data off 4).map fun bs => UInt32.ofNat (beNat bs)

/-- mirrors wasm/frame_protocol.c:61-67 -/
def readBe64 (data : Bytes) (off : Nat) : Except Fault Int64 :=
  (readInput data off 8).map fun bs => (UInt64.ofNat (beNat bs)).toInt64

/-- `a[i]` through an array pointer. -/
def arrGet {α : Type} (a : Option (List α)) (i : Nat) : Except Fault α :=
  match a with
  | none => .error .nullPointer
  | some xs =>
    match xs[i]? with
    | some x => .ok x
    | none => .error .heap

/-- `a[i] = x` through an array pointer. -/
def arrSet {α : Type} (a : Option (List α)) (i : Nat) (x : α) : Except Fault (Option (List α)) :=
  match a with
  | none => .error .nullPointer
  | some xs => if i < xs.length then .ok (some (xs.set i x)) else .error .heap

/-! ## The slot table -/

/-- mirrors wasm/frame_protocol.c:69-88 -/
def freeFragmentEntry (e : FragmentEntry) : FragmentEntry :=
  { e with fragmentData := none, fragmentSizes := none, fragmentPresent := none, active := false }

/-- The index of the slot found.
mirrors wasm/frame_protocol.c:90-97 -/
def findFragmentEntry (g : FragmentTable) (frameId : UInt16) : Option Nat :=
  g.slots.findIdx? fun e => e.active && e.frameId == frameId

/-- `calloc` of an array. -/
def calloc {α : Type} (ok : Bool) (n : Nat) (zero : α) : Option (List α) :=
  if ok then some (List.replicate n zero) else none

/-- The slot after `memset` and the field assignments.
mirrors wasm/frame_protocol.c:117-127 -/
def newEntry (m : Mallocs) (frameId totalFragments : UInt16) : FragmentEntry :=
  if 0 < totalFragments.toNat ∧ totalFragments.toNat ≤ MAX_FRAGMENTS then
    { frameId, totalFragments, active := true
      fragmentData := calloc m.fragmentData totalFragments.toNat none
      fragmentSizes := calloc m.fragmentSizes totalFragments.toNat 0
      fragmentPresent := calloc m.fragmentPresent totalFragments.toNat false }
  else { frameId, totalFragments, active := true }

/-- The first free slot, or slot 0 after freeing it.
mirrors wasm/frame_protocol.c:99-129 -/
def allocFragmentEntry (m : Mallocs) (g : FragmentTable) (frameId totalFragments : UInt16) :
    FragmentTable × Nat :=
  match g.slots.findIdx? fun e => !e.active with
  | some i => (g.set i (newEntry m frameId totalFragments), i)
  | none =>
    let g := g.set 0 (freeFragmentEntry (g.slots.getD 0 {}))
    (g.set 0 (newEntry m frameId totalFragments), 0)

/-- `memcpy(buf + offset, ...)` of one fragment: the source must have
`fragment_sizes[i]` bytes and the destination room for them; `buf` is what
has been written, so `offset` is its length.
mirrors wasm/frame_protocol.c:144-147 -/
def copyFragment (e : FragmentEntry) (total : UInt32) (buf : Bytes) (i : Nat) : Except Fault Bytes := do
  let piece ← arrGet e.fragmentData i
  let size ← arrGet e.fragmentSizes i
  match piece with
  | none => .error .nullPointer
  | some p =>
    if size.toNat ≤ p.length ∧ buf.length + size.toNat ≤ total.toNat then
      .ok (buf ++ p.take size.toNat)
    else .error .heap

/-- The buffer (`none` for NULL) and `*out_size`.
mirrors wasm/frame_protocol.c:131-151 -/
def reassembleFragments (m : Mallocs) (e : FragmentEntry) : Except Fault (Option (Bytes × UInt32)) := do
  let indices := List.range e.totalFragments.toNat
  let total ← indices.foldlM (fun total i => (arrGet e.fragmentSizes i).map (total + ·)) 0
  if m.reassembled then
    let buf ← indices.foldlM (copyFragment e total) []
    pure (some (buf, total))
  else pure none

/-! ## Extension headers -/

/-- The out-parameters of `parse_ext_headers`, zero where nothing is read. -/
structure ExtFields where
  frameId : UInt16 := 0
  fragIndex : UInt16 := 0
  totalFrags : UInt16 := 0
  absTime : Int64 := 0
  videoCodec : UInt8 := 0
  videoFrameType : UInt8 := 0
  videoResolution : UInt16 := 0
  audioCodec : UInt8 := 0
  audioSampleRate : UInt8 := 0
  audioChannels : UInt8 := 0
  deriving DecidableEq, Repr

/-- Layer 1. `ext_data` is `data + 20`; `offset` is a `uint8_t`, compared
after promotion to `int`.
mirrors wasm/frame_protocol.c:169-174 -/
def parseFragmentLayer (data : Bytes) (extLength flags : UInt8) (f : ExtFields) :
    Except Fault (UInt8 × ExtFields) :=
  if flags &&& FLAG_FRAGMENT ≠ 0 ∧ FRAGMENT_EXT_SIZE ≤ extLength.toNat then do
    let frameId ← readBe16 data FIXED_HEADER_SIZE
    let fragIndex ← readBe16 data (FIXED_HEADER_SIZE + 2)
    let totalFrags ← readBe16 data (FIXED_HEADER_SIZE + 4)
    pure (6, { f with frameId, fragIndex, totalFrags })
  else pure (0, f)

/-- Layer 2; `offset += common_length` wraps at 256.
mirrors wasm/frame_protocol.c:177-191 -/
def parseCommonLayer (data : Bytes) (extLength flags offset : UInt8) (f : ExtFields) :
    Except Fault (UInt8 × ExtFields) :=
  if flags &&& FLAG_HAS_COMMON ≠ 0 ∧ offset.toNat + 2 ≤ extLength.toNat then do
    let commonLength ← readByte data (FIXED_HEADER_SIZE + offset.toNat)
    let commonFlags ← readByte data (FIXED_HEADER_SIZE + offset.toNat + 1)
    if commonFlags &&& COMMON_ABS_TIME ≠ 0 ∧ 2 + 8 ≤ commonLength.toNat ∧
        offset.toNat + 2 + 8 ≤ extLength.toNat then do
      let absTime ← readBe64 data (FIXED_HEADER_SIZE + offset.toNat + 2)
      pure (offset + commonLength, { f with absTime })
    else pure (offset + commonLength, f)
  else pure (offset, f)

/-- Layer 3.
mirrors wasm/frame_protocol.c:194-204 -/
def parseTypeLayer (data : Bytes) (extLength msgType offset : UInt8) (f : ExtFields) :
    Except Fault ExtFields :=
  if msgType = 0x01 ∧ offset.toNat + 4 ≤ extLength.toNat then do
    let videoCodec ← readByte data (FIXED_HEADER_SIZE + offset.toNat)
    let videoFrameType ← readByte data (FIXED_HEADER_SIZE + offset.toNat + 1)
    let videoResolution ← readBe16 data (FIXED_HEADER_SIZE + offset.toNat + 2)
    pure { f with videoCodec, videoFrameType, videoResolution }
  else if msgType = 0x02 ∧ offset.toNat + 4 ≤ extLength.toNat then do
    let audioCodec ← readByte data (FIXED_HEADER_SIZE + offset.toNat)
    let audioSampleRate ← readByte data (FIXED_HEADER_SIZE + offset.toNat + 1)
    let audioChannels ← readByte data (FIXED_HEADER_SIZE + offset.toNat + 2)
    pure { f with audioCodec, audioSampleRate, audioChannels }
  else pure f

/-- mirrors wasm/frame_protocol.c:153-205 -/
def parseExtHeaders (data : Bytes) (extLength flags msgType : UInt8) : Except Fault ExtFields := do
  let (offset, f) ← parseFragmentLayer data extLength flags {}
  let (offset, f) ← parseCommonLayer data extLength flags offset f
  parseTypeLayer data extLength msgType offset f

/-! ## The parser -/

structure FixedHeader where
  msgType : UInt8
  flags : UInt8
  timestamp : Int64
  extLength : UInt8
  payloadLength : UInt32
  deriving DecidableEq, Repr

/-- `size < FIXED_HEADER_SIZE + ext_length + (int)payload_length`, in 32-bit
`int` arithmetic. -/
def sizeTooSmall (size : Int) (extLength : UInt8) (payloadLength : UInt32) : Bool :=
  size < int32 (FIXED_HEADER_SIZE + extLength.toNat + int32 payloadLength.toNat)

/-- mirrors wasm/frame_protocol.c:244-249 -/
def readFixedHeader (data : Bytes) : Except Fault FixedHeader := do
  let msgType ← readByte data 3
  let flags ← readByte data 4
  let timestamp ← readBe64 data 5
  let extLength ← readByte data 13
  let payloadLength ← readBe32 data 14
  pure { msgType, flags, timestamp, extLength, payloadLength }

/-- Everything up to the size validation: a status to return, or the header.
mirrors wasm/frame_protocol.c:227-257 -/
def validateHeader (data : Bytes) : Except Fault (Except FrameParseStatus FixedHeader) :=
  let size := int32 data.length
  if size < FIXED_HEADER_SIZE then pure (.error .error)
  else do
    let magic ← readBe16 data 0
    if magic ≠ PROTOCOL_MAGIC then pure (.error .error)
    else do
      let version ← readByte data 2
      if version ≠ PROTOCOL_VERSION then pure (.error .skip)
      else do
        let h ← readFixedHeader data
        if sizeTooSmall size h.extLength h.payloadLength then pure (.error .error)
        else pure (.ok h)

/-- The metadata of a frame from its headers. -/
def FixedHeader.info (h : FixedHeader) (f : ExtFields) : FrameMeta :=
  { msgType := h.msgType, videoCodec := f.videoCodec, videoFrameType := f.videoFrameType
    videoResolution := f.videoResolution, timestamp := h.timestamp, absTime := f.absTime
    audioCodec := f.audioCodec, audioSampleRate := f.audioSampleRate, audioChannels := f.audioChannels }

/-- `payload_length` bytes at `payload_data`. -/
def FixedHeader.payload (h : FixedHeader) (data : Bytes) : Except Fault Bytes :=
  readInput data (FIXED_HEADER_SIZE + h.extLength.toNat) h.payloadLength.toNat

/-- The non-fragmented path.
mirrors wasm/frame_protocol.c:277-305 -/
def parseSingle (m : Mallocs) (h : FixedHeader) (f : ExtFields) (data : Bytes) :
    Except Fault (FrameParseStatus × ParsedFrame) :=
  let result : ParsedFrame := { info := h.info f, payload := none, payloadSize := h.payloadLength }
  if 0 < h.payloadLength.toNat then
    if m.payload then do
      let copy ← h.payload data
      pure (.complete, { result with payload := some copy })
    else pure (.error, result)
  else pure (.complete, result)

/-- Store the fragment's payload unless it is already there or its index is
out of range; `false`: the buffer could not be allocated.
mirrors wasm/frame_protocol.c:336-345 -/
def storeFragment (m : Mallocs) (h : FixedHeader) (data : Bytes) (idx : Nat) (e : FragmentEntry) :
    Except Fault (Bool × FragmentEntry) := do
  if idx < e.totalFragments.toNat then
    let present ← arrGet e.fragmentPresent idx
    if present then pure (true, e)
    else if m.fragment then
      let piece ← h.payload data
      let fragmentData ← arrSet e.fragmentData idx (some piece)
      let fragmentSizes ← arrSet e.fragmentSizes idx h.payloadLength
      let fragmentPresent ← arrSet e.fragmentPresent idx true
      pure (true, { e with fragmentData, fragmentSizes, fragmentPresent
                           receivedCount := e.receivedCount + 1 })
    else do
      let fragmentData ← arrSet e.fragmentData idx none
      pure (false, { e with fragmentData })
  else pure (true, e)

/-- From the slot on: metadata, payload, and reassembly once all are in.
mirrors wasm/frame_protocol.c:321-378 -/
def fileFragment (m : Mallocs) (g : FragmentTable) (result : ParsedFrame) (h : FixedHeader)
    (f : ExtFields) (data : Bytes) (slot : Nat) :
    Except Fault (FrameParseStatus × FragmentTable × ParsedFrame) := do
  let e := g.slots.getD slot {}
  let e := if f.fragIndex = 0 then { e with info := h.info f } else e
  let (stored, e) ← storeFragment m h data f.fragIndex.toNat e
  if !stored then pure (.error, g.set slot e, result)
  else if e.totalFragments.toNat ≤ e.receivedCount.toNat then
    match ← reassembleFragments m e with
    | none => pure (.error, g.set slot (freeFragmentEntry e), result)
    | some (buf, size) =>
      pure (.complete, g.set slot (freeFragmentEntry e),
        { info := e.info, payload := some buf, payloadSize := size })
  else pure (.fragmentPending, g.set slot e, result)

/-- The fragmented path: find the slot of the frame id or create one.
mirrors wasm/frame_protocol.c:307-378 -/
def parseFragment (m : Mallocs) (g : FragmentTable) (result : ParsedFrame) (h : FixedHeader)
    (f : ExtFields) (data : Bytes) : Except Fault (FrameParseStatus × FragmentTable × ParsedFrame) :=
  if f.totalFrags.toNat = 0 ∨ MAX_FRAGMENTS < f.totalFrags.toNat then pure (.error, g, result)
  else
    match findFragmentEntry g f.frameId with
    | some slot => fileFragment m g result h f data slot
    | none =>
      let (g, slot) := allocFragmentEntry m g f.frameId f.totalFrags
      if (g.slots.getD slot {}).fragmentData.isNone then pure (.error, g, result)
      else fileFragment m g result h f data slot

/-- The status, the table and the result struct after the call.
mirrors wasm/frame_protocol.c:221-379 -/
def frameProtocolParse (m : Mallocs) (g : FragmentTable) (result : ParsedFrame) (data : Bytes) :
    Except Fault (FrameParseStatus × FragmentTable × ParsedFrame) := do
  match ← validateHeader data with
  | .error status => pure (status, g, result)
  | .ok h =>
    let f ← parseExtHeaders data h.extLength h.flags h.msgType
    if h.flags &&& FLAG_FRAGMENT = 0 then
      let (status, result) ← parseSingle m h f data
      pure (status, g, result)
    else parseFragment m g result h f data

end WebPlayer.L1.FrameParser
