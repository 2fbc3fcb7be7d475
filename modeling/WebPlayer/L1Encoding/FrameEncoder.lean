import WebPlayer.Core.Bytes
import Mathlib.Data.List.Range

/-!
# The server's frame encoder (`server/frame_protocol.cpp`)

A protocol frame is the 20-byte fixed header, the extension headers and the
payload, all integers big-endian. `EncodeVideoFrame` and `EncodeAudioFrame`
differ only in the message type and in their 4-byte extension, so both are
`encodeFrame` with that extension: one frame up to `FRAGMENT_THRESHOLD`
payload bytes, above it one fragment for each 16 KiB, the first carrying the
common and the type-specific header, the others only the fragment header.

A buffer the source appends to is the list of what is appended.

* `encodeFrame_single`, `encodeFrame_fragments`: the two shapes of the result.
* `chunks_flatten`: the fragments' payloads concatenate to the payload.
* `encode_length_pos`: up to 4 MiB every call produces at least one frame.
-/
namespace WebPlayer.L1.FrameEncoder
open WebPlayer.Core

/-! ## Constants and enumerations (`server/frame_protocol.h:10-62`) -/

def PROTOCOL_MAGIC : UInt16 := 0xEB01
def PROTOCOL_VERSION : UInt8 := 1
def FIXED_HEADER_SIZE : Nat := 20
def FRAGMENT_THRESHOLD : Nat := 16384

inductive MsgType where
  | video | audio | image | metadata | control
  deriving DecidableEq, Repr

def MsgType.toByte : MsgType → UInt8
  | .video => 0x01
  | .audio => 0x02
  | .image => 0x03
  | .metadata => 0x04
  | .control => 0x05

def FLAG_FRAGMENT : UInt8 := 0x01
def FLAG_HAS_COMMON : UInt8 := 0x08
def COMMON_ABS_TIME : UInt8 := 0x01

inductive VideoCodec where
  | h264 | h265 | mjpeg
  deriving DecidableEq, Repr

def VideoCodec.toByte : VideoCodec → UInt8
  | .h264 => 1
  | .h265 => 2
  | .mjpeg => 3

inductive AudioCodec where
  | g711a | g711u | g726 | aac
  deriving DecidableEq, Repr

def AudioCodec.toByte : AudioCodec → UInt8
  | .g711a => 1
  | .g711u => 2
  | .g726 => 3
  | .aac => 4

inductive SampleRateCode where
  | rate8000 | rate16000 | rate44100 | rate48000
  deriving DecidableEq, Repr

def SampleRateCode.toByte : SampleRateCode → UInt8
  | .rate8000 => 0
  | .rate16000 => 1
  | .rate44100 => 2
  | .rate48000 => 3

inductive VideoFrameType where
  | idr | iFrame | pFrame | bFrame | spsPps | vps
  deriving DecidableEq, Repr

def VideoFrameType.toByte : VideoFrameType → UInt8
  | .idr => 1
  | .iFrame => 2
  | .pFrame => 3
  | .bFrame => 4
  | .spsPps => 5
  | .vps => 6

/-! ## Header writers -/

/-- mirrors server/frame_protocol.cpp:7-10 -/
def writeBE16 (val : UInt16) : Bytes := beBytes 2 val.toNat

/-- mirrors server/frame_protocol.cpp:12-17 -/
def writeBE32 (val : UInt32) : Bytes := beBytes 4 val.toNat

/-- mirrors server/frame_protocol.cpp:19-24 -/
def writeBE64 (val : Int64) : Bytes := beBytes 8 val.toUInt64.toNat

/-- mirrors server/frame_protocol.cpp:26-49 -/
def writeFixedHeader (msgType : MsgType) (flags : UInt8) (timestamp : Int64) (extLength : UInt8)
    (payloadLength : UInt32) : Bytes :=
  writeBE16 PROTOCOL_MAGIC ++ [PROTOCOL_VERSION, msgType.toByte, flags] ++ writeBE64 timestamp ++
    [extLength] ++ writeBE32 payloadLength ++ [0, 0]

/-- mirrors server/frame_protocol.cpp:51-59 -/
def writeCommonExtHeader (absTimeMs : Int64) : Bytes := [10, COMMON_ABS_TIME] ++ writeBE64 absTimeMs

/-- mirrors server/frame_protocol.cpp:61-70 -/
def writeVideoExtHeader (codec : VideoCodec) (frameType : VideoFrameType) : Bytes :=
  [codec.toByte, frameType.toByte] ++ writeBE16 0

/-- mirrors server/frame_protocol.cpp:158-166 -/
def writeAudioExtHeader (codec : AudioCodec) (sampleRate : SampleRateCode) (channels : UInt8) : Bytes :=
  [codec.toByte, sampleRate.toByte, channels, 0]

/-- mirrors server/frame_protocol.cpp:72-79 -/
def writeFragmentExtHeader (frameId fragmentIndex totalFragments : UInt16) : Bytes :=
  writeBE16 frameId ++ writeBE16 fragmentIndex ++ writeBE16 totalFragments

/-- mirrors server/frame_protocol.cpp:168-176 -/
def sampleRateToCode (sampleRate : Int) : SampleRateCode :=
  if sampleRate = 8000 then .rate8000
  else if sampleRate = 16000 then .rate16000
  else if sampleRate = 44100 then .rate44100
  else if sampleRate = 48000 then .rate48000
  else .rate8000

/-! ## Encoding -/

/-- `totalFragments`, truncated to 16 bits as the cast does. -/
def totalFragments (payload : Bytes) : UInt16 :=
  UInt16.ofNat ((payload.length + FRAGMENT_THRESHOLD - 1) / FRAGMENT_THRESHOLD)

/-- The `i`-th piece of at most `FRAGMENT_THRESHOLD` bytes. -/
def chunk (payload : Bytes) (i : Nat) : Bytes :=
  (payload.drop (i * FRAGMENT_THRESHOLD)).take FRAGMENT_THRESHOLD

/-- One iteration of the fragmentation loop.
mirrors server/frame_protocol.cpp:117-152, 213-245 -/
def encodeFragment (msgType : MsgType) (typeExt payload : Bytes) (timestampMs absTimeMs : Int64)
    (frameId total : UInt16) (i : Nat) : Bytes :=
  let piece := chunk payload i
  let len := UInt32.ofNat piece.length
  let frag := writeFragmentExtHeader frameId (UInt16.ofNat i) total
  if i = 0 then
    writeFixedHeader msgType (FLAG_FRAGMENT ||| FLAG_HAS_COMMON) timestampMs (6 + 10 + 4) len ++ frag ++
      writeCommonExtHeader absTimeMs ++ typeExt ++ piece
  else
    writeFixedHeader msgType FLAG_FRAGMENT timestampMs 6 len ++ frag ++ piece

/-- The body shared by the two encoders; `typeExt` is the 4-byte
type-specific header.
mirrors server/frame_protocol.cpp:89-155, 187-248 -/
def encodeFrame (msgType : MsgType) (typeExt payload : Bytes) (timestampMs absTimeMs : Int64)
    (frameId : UInt16) : List Bytes :=
  if payload.length ≤ FRAGMENT_THRESHOLD then
    [writeFixedHeader msgType FLAG_HAS_COMMON timestampMs (10 + 4) (UInt32.ofNat payload.length) ++
      writeCommonExtHeader absTimeMs ++ typeExt ++ payload]
  else
    (List.range (totalFragments payload).toNat).map
      (encodeFragment msgType typeExt payload timestampMs absTimeMs frameId (totalFragments payload))

/-- mirrors server/frame_protocol.cpp:81-156 -/
def encodeVideoFrame (payload : Bytes) (codec : VideoCodec) (frameType : VideoFrameType)
    (timestampMs absTimeMs : Int64) (frameId : UInt16) : List Bytes :=
  encodeFrame .video (writeVideoExtHeader codec frameType) payload timestampMs absTimeMs frameId

/-- mirrors server/frame_protocol.cpp:178-249 -/
def encodeAudioFrame (payload : Bytes) (codec : AudioCodec) (sampleRate : SampleRateCode)
    (channels : UInt8) (timestampMs absTimeMs : Int64) (frameId : UInt16) : List Bytes :=
  encodeFrame .audio (writeAudioExtHeader codec sampleRate channels) payload timestampMs absTimeMs frameId

/-! ## Calls -/

/-- The arguments that depend on the media type. -/
inductive Media where
  | video (codec : VideoCodec) (frameType : VideoFrameType)
  | audio (codec : AudioCodec) (sampleRate : SampleRateCode) (channels : UInt8)
  deriving DecidableEq, Repr

/-- One call of `EncodeVideoFrame` or `EncodeAudioFrame`. -/
structure EncodeCall where
  payload : Bytes
  media : Media
  timestampMs : Int64
  absTimeMs : Int64
  frameId : UInt16
  deriving DecidableEq, Repr

def Media.msgType : Media → MsgType
  | .video _ _ => .video
  | .audio _ _ _ => .audio

def Media.ext : Media → Bytes
  | .video codec frameType => writeVideoExtHeader codec frameType
  | .audio codec sampleRate channels => writeAudioExtHeader codec sampleRate channels

def EncodeCall.encode (c : EncodeCall) : List Bytes :=
  match c.media with
  | .video codec frameType =>
    encodeVideoFrame c.payload codec frameType c.timestampMs c.absTimeMs c.frameId
  | .audio codec sampleRate channels =>
    encodeAudioFrame c.payload codec sampleRate channels c.timestampMs c.absTimeMs c.frameId

theorem EncodeCall.encode_eq (c : EncodeCall) : c.encode =
    encodeFrame c.media.msgType c.media.ext c.payload c.timestampMs c.absTimeMs c.frameId := by
  unfold EncodeCall.encode
  cases c.media <;> rfl

/-- The payload does not fit one protocol frame. -/
def EncodeCall.Fragmented (c : EncodeCall) : Prop := FRAGMENT_THRESHOLD < c.payload.length

instance (c : EncodeCall) : Decidable c.Fragmented := inferInstanceAs (Decidable (_ < _))

/-- The largest payload whose fragments the parser accepts, 256 pieces. -/
def maxPayload : Nat := 256 * FRAGMENT_THRESHOLD

/-! ## The shapes of the result -/

theorem encodeFrame_single {payload : Bytes} (h : payload.length ≤ FRAGMENT_THRESHOLD)
    (msgType : MsgType) (typeExt : Bytes) (ts abs : Int64) (id : UInt16) :
    encodeFrame msgType typeExt payload ts abs id =
      [writeFixedHeader msgType FLAG_HAS_COMMON ts (10 + 4) (UInt32.ofNat payload.length) ++
        writeCommonExtHeader abs ++ typeExt ++ payload] := if_pos h

theorem encodeFrame_fragments {payload : Bytes} (h : FRAGMENT_THRESHOLD < payload.length)
    (msgType : MsgType) (typeExt : Bytes) (ts abs : Int64) (id : UInt16) :
    encodeFrame msgType typeExt payload ts abs id =
      (List.range (totalFragments payload).toNat).map
        (encodeFragment msgType typeExt payload ts abs id (totalFragments payload)) :=
  if_neg (by omega)

/-- `ceil(len / 16384)`: within 4 MiB nothing is cut off. -/
theorem totalFragments_toNat {payload : Bytes} (h : payload.length ≤ maxPayload) :
    (totalFragments payload).toNat =
      (payload.length + FRAGMENT_THRESHOLD - 1) / FRAGMENT_THRESHOLD := by
  simp only [maxPayload, FRAGMENT_THRESHOLD] at h
  rw [totalFragments, UInt16.toNat_ofNat', Nat.mod_eq_of_lt]
  simp only [FRAGMENT_THRESHOLD]
  omega

theorem totalFragments_bounds {payload : Bytes} (h : payload.length ≤ maxPayload)
    (hf : FRAGMENT_THRESHOLD < payload.length) :
    2 ≤ (totalFragments payload).toNat ∧ (totalFragments payload).toNat ≤ 256 := by
  rw [totalFragments_toNat h]
  simp only [maxPayload, FRAGMENT_THRESHOLD] at h hf ⊢
  omega

theorem chunk_length_le (payload : Bytes) (i : Nat) : (chunk payload i).length ≤ FRAGMENT_THRESHOLD := by
  simp [chunk, FRAGMENT_THRESHOLD]

/-- The first `n` pieces are the first `n * 16384` bytes. -/
theorem chunks_take (payload : Bytes) (n : Nat) :
    ((List.range n).map (chunk payload)).flatten = payload.take (n * FRAGMENT_THRESHOLD) := by
  induction n with
  | zero => simp
  | succ n ih =>
    rw [List.range_succ, List.map_append, List.flatten_append, ih, Nat.succ_mul, List.take_add]
    simp [chunk]

/-- The pieces concatenate to the payload. -/
theorem chunks_flatten {payload : Bytes} (h : payload.length ≤ maxPayload) :
    ((List.range (totalFragments payload).toNat).map (chunk payload)).flatten = payload := by
  rw [chunks_take, totalFragments_toNat h, List.take_of_length_le]
  simp only [FRAGMENT_THRESHOLD]
  omega

theorem Media.ext_length (m : Media) : m.ext.length = 4 := by
  cases m <;> simp [Media.ext, writeVideoExtHeader, writeAudioExtHeader, writeBE16]

theorem encode_length (c : EncodeCall) :
    c.encode.length = if c.Fragmented then (totalFragments c.payload).toNat else 1 := by
  rw [c.encode_eq]
  by_cases hf : c.Fragmented
  · rw [if_pos hf, encodeFrame_fragments hf]; simp
  · rw [if_neg hf, encodeFrame_single (Nat.not_lt.mp hf)]; simp

theorem encode_length_pos {c : EncodeCall} (h : c.payload.length ≤ maxPayload) : 0 < c.encode.length := by
  rw [encode_length c]
  split
  · rename_i hf; have := totalFragments_bounds h hf; omega
  · omega

end WebPlayer.L1.FrameEncoder
