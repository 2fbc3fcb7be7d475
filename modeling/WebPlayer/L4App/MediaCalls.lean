import WebPlayer.L4App.Playback

/-!
# The calls behind the protocol frames

`SendPacket` and `OnTimerRaw` make one encoder call for each packet and each
access unit. `SourceCall` says which call belongs to a position of a
connection: the packet or the unit that the position falls on, counting on
through the passes over the file.

* `sendDue_calls`: the packets of a tick are those of the next positions.
-/
namespace WebPlayer.L4.Media
open WebPlayer.Core WebPlayer.L1.FrameEncoder WebPlayer.L3.Session

/-- mirrors server/main.cpp:454-470 -/
def packetMedia (env : Env) (pkt : MediaPacket) : L1.FrameEncoder.Media :=
  match pkt.type with
  | .video => .video (videoCodec env) (detectFrameTypeFromPacket env.isH265 pkt.data)
  | .audio => .audio (audioCodecNameToEnum env.audio.codecName) (sampleRateToCode env.audio.sampleRate)
      (UInt8.ofNat (env.audio.channels % 256).toNat)

/-- The call of `SendPacket`. -/
def packetCall (env : Env) (absTimeMs : Int64) (frameId : UInt16) (pkt : MediaPacket) : EncodeCall where
  payload := pkt.data
  media := packetMedia env pkt
  timestampMs := pkt.ptsMs
  absTimeMs := absTimeMs
  frameId := frameId

/-- The call of `OnTimerRaw`. -/
def accessUnitCall (env : Env) (src : Source) (absTimeMs : Int64) (frameId : UInt16) (auIndex : Nat) (au : AccessUnit) :
    EncodeCall where
  payload := au.nalUnits.flatMap (·.data)
  media := .video (videoCodec env) (detectFrameType env.isH265 au)
  timestampMs := src.rawTimestampMs auIndex
  absTimeMs := absTimeMs
  frameId := frameId

theorem packetFrames_eq (env : Env) (absTimeMs : Int64) (frameId : UInt16) (pkt : MediaPacket) :
    packetFrames env absTimeMs frameId pkt = (packetCall env absTimeMs frameId pkt).encode := by
  unfold packetFrames packetCall packetMedia EncodeCall.encode
  cases pkt.type <;> rfl

theorem accessUnitFrames_eq (env : Env) (src : Source) (absTimeMs : Int64) (frameId : UInt16) (auIndex : Nat)
    (au : AccessUnit) : accessUnitFrames env src absTimeMs frameId auIndex au =
      (accessUnitCall env src absTimeMs frameId auIndex au).encode := rfl

/-! ## Positions -/

/-- How many packets, or access units, a connection has been sent. -/
def position (env : Env) (conn : Connection) : Nat := if env.isMp4Mode then conn.packetIndex else conn.auIndex

/-- The access unit of a position. -/
def cyclicUnit (accessUnits : List AccessUnit) (k : Nat) : Option AccessUnit := accessUnits[k % accessUnits.length]?

/-- `c` is the call of position `k`, at some time and under some frame id. -/
def SourceCall (env : Env) (src : Source) (k : Nat) (c : EncodeCall) : Prop :=
  if env.isMp4Mode then ∃ pkt, cyclic src.packets k = some pkt ∧ c = packetCall env c.absTimeMs c.frameId pkt
  else ∃ au, cyclicUnit src.accessUnits k = some au ∧ c = accessUnitCall env src c.absTimeMs c.frameId k au

/-- A segment of the cyclic order has one packet for each position. -/
theorem cyclic_segment {packets : List MediaPacket} (hne : packets ≠ []) (i n : Nat) :
    ((List.range' i n).filterMap (cyclic packets)).length = n ∧
      ∀ j, j < n → ((List.range' i n).filterMap (cyclic packets))[j]? = cyclic packets (i + j) := by
  induction n generalizing i with
  | zero => exact ⟨rfl, fun j hj => absurd hj (Nat.not_lt_zero j)⟩
  | succ n ih =>
    obtain ⟨pkt, hpkt⟩ := cyclic_some hne i
    obtain ⟨hlen, hget⟩ := ih (i + 1)
    rw [List.range'_succ, List.filterMap_cons_some hpkt]
    refine ⟨by simp [hlen], fun j hj => ?_⟩
    cases j with
    | zero => simp [hpkt]
    | succ j =>
      rw [List.getElem?_cons_succ, hget j (by omega)]
      congr 1
      omega

/-- **The packets of a tick** are those of the next positions. -/
theorem sendDue_calls {packets : List MediaPacket} (hne : packets ≠ []) (p fuel i : Nat) :
    (sendDue packets p fuel i).2 = i + (sendDue packets p fuel i).1.length ∧
      ∀ j, j < (sendDue packets p fuel i).1.length → (sendDue packets p fuel i).1[j]? = cyclic packets (i + j) := by
  obtain ⟨hle, -, hpkts⟩ := sendDue_segment packets p fuel i
  obtain ⟨hlen, hget⟩ := cyclic_segment hne i ((sendDue packets p fuel i).2 - i)
  rw [← hpkts] at hlen hget
  rw [hlen]
  exact ⟨by omega, hget⟩

/-- The record after a tick moves on by what was sent. -/
theorem onTimerMp4_position {packets : List MediaPacket} (conn : Connection) :
    (onTimerMp4 packets conn).2.packetIndex = conn.packetIndex + (onTimerMp4 packets conn).1.length ∧
      ∀ j, j < (onTimerMp4 packets conn).1.length →
        (onTimerMp4 packets conn).1[j]? = cyclic packets (conn.packetIndex + j) := by
  unfold onTimerMp4
  split
  · simp
  · rename_i hlen
    apply sendDue_calls
    intro hnil
    simp [hnil] at hlen

theorem onTimerRaw_position {accessUnits : List AccessUnit} (conn : Connection) {au : AccessUnit}
    (h : (onTimerRaw accessUnits conn).1 = some au) :
    cyclicUnit accessUnits conn.auIndex = some au ∧ (onTimerRaw accessUnits conn).2.auIndex = conn.auIndex + 1 := by
  unfold onTimerRaw at h ⊢
  unfold cyclicUnit
  split at h
  · cases h
  · rename_i hlen
    rw [if_neg hlen]
    cases hau : accessUnits[conn.auIndex % accessUnits.length]? with
    | none =>
      rw [hau] at h
      cases h
    | some au' =>
      rw [hau] at h
      cases h
      exact ⟨rfl, rfl⟩

end WebPlayer.L4.Media
