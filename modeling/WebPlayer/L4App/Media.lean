import WebPlayer.Core.Double
import WebPlayer.L1Encoding.EncodedFrames
import WebPlayer.L3Protocol.Session

/-!
# Media (`server/main.cpp:378-566`)

What a timer tick does for one STREAMING connection: which packets or access
units it sends and as which protocol frames, and the connection's indexes
and playback clock afterwards. Sending itself is the server's.

The effective PTS is computed in 64 bits as the source does, signed up to the
sum and unsigned from there.

**Numbers.** A `double` of the playback clock is a whole number, rounded to
nearest (`Core.Double`). The raw mode's timestamps, a product with the frame
interval, are a parameter.

**The clocks.** The system clock is read anew for each packet or unit, and may
give anything.
-/
namespace WebPlayer.L4.Media
open WebPlayer.Core WebPlayer.L1.FrameEncoder WebPlayer.L3.Session

/-! ## Types -/

/-- mirrors server/mp4_demuxer.h:10-13 -/
inductive MediaType where
  | video | audio
  deriving DecidableEq, Repr

/-- mirrors server/mp4_demuxer.h:18-22 -/
structure MediaPacket where
  type : MediaType
  data : Bytes
  ptsMs : Int64
  deriving DecidableEq, Repr

/-- mirrors server/nal_parser.h:13-15 -/
structure NalUnit where
  data : Bytes
  deriving DecidableEq, Repr

/-- mirrors server/nal_parser.h:20-22 -/
structure AccessUnit where
  nalUnits : List NalUnit
  deriving DecidableEq, Repr

/-- The loaded file. -/
structure Source where
  packets : List MediaPacket
  accessUnits : List AccessUnit
  rawTimestampMs : Nat → Int64

def MediaType.msgType : MediaType → MsgType
  | .video => .video
  | .audio => .audio

/-! ## Frame types -/

/-- Behind a 3- or 4-byte start code; 0 without one. -/
def startCodeLength (data : Bytes) : Nat :=
  if data.getD 0 0 = 0 ∧ data.getD 1 0 = 0 then
    if data.getD 2 0 = 0 ∧ data.getD 3 0 = 1 then 4
    else if data.getD 2 0 = 1 then 3
    else 0
  else 0

def nalTypeH265 (b : UInt8) : UInt8 := (b >>> 1) &&& 0x3F

def nalTypeH264 (b : UInt8) : UInt8 := b &&& 0x1F

/-- mirrors server/main.cpp:391-407 -/
def classifyNal (isH265 : Bool) (b : UInt8) : Option VideoFrameType :=
  if isH265 then
    let nalType := nalTypeH265 b
    if nalType = 32 then some .vps
    else if nalType = 33 ∨ nalType = 34 then some .spsPps
    else if nalType = 19 ∨ nalType = 20 then some .idr
    else if 16 ≤ nalType ∧ nalType ≤ 23 then some .iFrame
    else if nalType ≤ 15 then some .pFrame
    else none
  else
    let nalType := nalTypeH264 b
    if nalType = 7 ∨ nalType = 8 then some .spsPps
    else if nalType = 5 then some .idr
    else if nalType = 1 then some .pFrame
    else none

/-- The first NAL unit that decides.
mirrors server/main.cpp:378-410 -/
def detectFrameType (isH265 : Bool) (au : AccessUnit) : VideoFrameType :=
  let decides (nal : NalUnit) : Option VideoFrameType :=
    let offset := if 4 ≤ nal.data.length then startCodeLength nal.data else 0
    if offset = 0 ∨ nal.data.length ≤ offset then none
    else classifyNal isH265 (nal.data.getD offset 0)
  (au.nalUnits.findSome? decides).getD .pFrame

/-- mirrors server/main.cpp:412-445 -/
def detectFrameTypeFromPacket (isH265 : Bool) (data : Bytes) : VideoFrameType :=
  if data.length < 5 then .pFrame
  else
    let offset := if startCodeLength data = 0 then 4 else startCodeLength data
    let b := data.getD offset 0
    if isH265 then
      let nalType := nalTypeH265 b
      if nalType = 32 then .vps
      else if nalType = 33 ∨ nalType = 34 then .spsPps
      else if nalType = 19 ∨ nalType = 20 then .idr
      else if 16 ≤ nalType ∧ nalType ≤ 23 then .iFrame
      else .pFrame
    else
      let nalType := nalTypeH264 b
      if nalType = 7 ∨ nalType = 8 then .spsPps
      else if nalType = 5 then .idr
      else .pFrame

/-! ## Protocol frames -/

def videoCodec (env : Env) : VideoCodec := if env.isH265 then .h265 else .h264

/-- mirrors server/main.cpp:37-43 -/
def audioCodecNameToEnum (name : Bytes) : AudioCodec :=
  if name = ascii "pcm_alaw" then .g711a
  else if name = ascii "pcm_mulaw" then .g711u
  else if name = ascii "g726" then .g726
  else if name = ascii "aac" then .aac
  else .aac

/-- The protocol frames of `SendPacket`; their timestamp is the packet's own
PTS.
mirrors server/main.cpp:447-470 -/
def packetFrames (env : Env) (absTimeMs : Int64) (frameId : UInt16) (pkt : MediaPacket) : List Bytes :=
  match pkt.type with
  | .video =>
    encodeVideoFrame pkt.data (videoCodec env) (detectFrameTypeFromPacket env.isH265 pkt.data) pkt.ptsMs
      absTimeMs frameId
  | .audio =>
    encodeAudioFrame pkt.data (audioCodecNameToEnum env.audio.codecName)
      (sampleRateToCode env.audio.sampleRate) (UInt8.ofNat (env.audio.channels % 256).toNat) pkt.ptsMs
      absTimeMs frameId

/-- mirrors server/main.cpp:535-551 -/
def accessUnitFrames (env : Env) (src : Source) (absTimeMs : Int64) (frameId : UInt16) (auIndex : Nat)
    (au : AccessUnit) : List Bytes :=
  encodeVideoFrame (au.nalUnits.flatMap (·.data)) (videoCodec env) (detectFrameType env.isH265 au)
    (src.rawTimestampMs auIndex) absTimeMs frameId

/-! ## The schedulers -/

/-- mirrors server/mp4_demuxer.cpp:197-202 -/
def getPacket (packets : List MediaPacket) (index : Nat) : Option MediaPacket := packets[index]?

/-- At least 1. -/
def totalDurationMs (first last : MediaPacket) : Int64 :=
  if last.ptsMs - first.ptsMs ≤ 0 then 1 else last.ptsMs - first.ptsMs

/-- When the packet of that index is due, counting on through the passes over
the file. `int64_t + size_t * int64_t` is unsigned. -/
def effectivePtsMs (packets : List MediaPacket) (packetIndex : Nat) : Option Nat := do
  let first ← getPacket packets 0
  let last ← getPacket packets (packets.length - 1)
  let pkt ← getPacket packets (packetIndex % packets.length)
  let loopCount := UInt64.ofNat (packetIndex / packets.length)
  pure (toDouble ((pkt.ptsMs - first.ptsMs).toUInt64 + loopCount * (totalDurationMs first last).toUInt64).toNat)

/-- The loop: the packets sent and the next index. -/
def sendDue (packets : List MediaPacket) (playbackTimeMs : Nat) : Nat → Nat → List MediaPacket × Nat
  | 0, packetIndex => ([], packetIndex)
  | fuel + 1, packetIndex =>
    match getPacket packets (packetIndex % packets.length), effectivePtsMs packets packetIndex with
    | some pkt, some effective =>
      if playbackTimeMs < effective then ([], packetIndex)
      else
        let r := sendDue packets playbackTimeMs fuel (packetIndex + 1)
        (pkt :: r.1, r.2)
    | _, _ => ([], packetIndex)

/-- An index that is not due at `playbackTimeMs`, and one more. -/
def dueFuel (packets : List MediaPacket) (playbackTimeMs : Nat) : Nat :=
  match getPacket packets 0, getPacket packets (packets.length - 1) with
  | some first, some last =>
    packets.length * (2 * playbackTimeMs / (totalDurationMs first last).toUInt64.toNat + 1) + 1
  | _, _ => 0

/-- The packets due, and the record after the tick.
mirrors server/main.cpp:484-521 -/
def onTimerMp4 (packets : List MediaPacket) (conn : Connection) : List MediaPacket × Connection :=
  if packets.length = 0 then ([], conn)
  else
    let r := sendDue packets conn.playbackTimeMs (dueFuel packets conn.playbackTimeMs) conn.packetIndex
    (r.1, { conn with packetIndex := r.2, playbackTimeMs := toDouble (conn.playbackTimeMs + 10) })

/-- The access unit sent, and the record after the tick.
mirrors server/main.cpp:523-566 -/
def onTimerRaw (accessUnits : List AccessUnit) (conn : Connection) : Option AccessUnit × Connection :=
  if accessUnits.length = 0 then (none, conn)
  else
    match accessUnits[conn.auIndex % accessUnits.length]? with
    | none => (none, conn)
    | some au => (some au, { conn with auIndex := conn.auIndex + 1 })

end WebPlayer.L4.Media
