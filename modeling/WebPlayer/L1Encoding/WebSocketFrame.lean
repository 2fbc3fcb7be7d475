import WebPlayer.Core.Bytes
import WebPlayer.Core.Faults
import WebPlayer.Core.Framing

/-!
# WebSocket frames (`server/websocket.cpp`)

`ParseFrame` with its checks as written: `offset + payloadLen` is a 64-bit
sum and wraps, `resize` throws `length_error` above the largest vector, and a
read outside `data` is the fault `outOfBounds`. `headerLength` and
`declaredLength` say independently what the first bytes declare.

* `parseFrame_eq`: which of the four outcomes an input has.
* `parseSafe_iff`: the parser is safe exactly where the header and the
  payload together stay below `2^64`.
* `frameParser`: it is a stable parser, for the loop that drains a buffer.
-/
namespace WebPlayer.L1.WebSocket
open WebPlayer.Core

/-! ## Types -/

/-- mirrors server/websocket.h:13-20; the cast in `ParseFrame` can leave the
named values. -/
inductive WsOpcode where
  | continuation | text | binary | close | ping | pong
  | reserved (b : UInt8)
  deriving DecidableEq, Repr

def WsOpcode.toByte : WsOpcode → UInt8
  | .continuation => 0x0
  | .text => 0x1
  | .binary => 0x2
  | .close => 0x8
  | .ping => 0x9
  | .pong => 0xA
  | .reserved b => b

/-- `static_cast<WsOpcode>` -/
def WsOpcode.ofByte (b : UInt8) : WsOpcode :=
  if b = 0x0 then .continuation
  else if b = 0x1 then .text
  else if b = 0x2 then .binary
  else if b = 0x8 then .close
  else if b = 0x9 then .ping
  else if b = 0xA then .pong
  else .reserved b

/-- mirrors server/websocket.h:25-32; `maskKey` is not written for an
unmasked frame. -/
structure WsFrame where
  fin : Bool
  opcode : WsOpcode
  masked : Bool
  payloadLen : UInt64
  maskKey : Bytes
  payload : Bytes
  deriving DecidableEq, Repr

inductive WsFault where
  | outOfBounds
  | lengthError
  deriving DecidableEq, Repr

/-! ## Parsing -/

def byteAt (data : Bytes) (i : Nat) : Except WsFault UInt8 :=
  match data[i]? with
  | some b => .ok b
  | none => .error .outOfBounds

def bytesAt (data : Bytes) (off len : Nat) : Except WsFault Bytes :=
  if off + len ≤ data.length then .ok ((data.drop off).take len) else .error .outOfBounds

/-- The largest `std::vector<uint8_t>`. -/
def maxVector : Nat := 2 ^ 63 - 1

def vectorResize (n : Nat) : Except WsFault Unit :=
  if n ≤ maxVector then .ok () else .error .lengthError

/-- `payloadLen` and `offset` after the length field; `none`: return false.
mirrors server/websocket.cpp:94-112 -/
def readLength (data : Bytes) (len7 : UInt8) : Except WsFault (Option (UInt64 × Nat)) :=
  if len7 = 126 then
    if data.length < 4 then .ok none
    else (bytesAt data 2 2).map fun bs => some (UInt64.ofNat (beNat bs), 4)
  else if len7 = 127 then
    if data.length < 10 then .ok none
    else (bytesAt data 2 8).map fun bs => some (UInt64.ofNat (beNat bs), 10)
  else .ok (some (UInt64.ofNat len7.toNat, 2))

/-- mirrors server/websocket.cpp:116-122 -/
def readMaskKey (data : Bytes) (masked : Bool) (offset : Nat) : Except WsFault (Option (Bytes × Nat)) :=
  if masked then
    if data.length < offset + 4 then .ok none
    else (bytesAt data offset 4).map fun key => some (key, offset + 4)
  else .ok (some ([], offset))

/-- What is known once the length checks are passed. -/
structure WsHeader where
  fin : Bool
  opcode : WsOpcode
  masked : Bool
  payloadLen : UInt64
  maskKey : Bytes
  offset : Nat
  deriving DecidableEq, Repr

/-- Up to `if (len < offset + payloadLen)`, a sum of two `uint64_t`.
mirrors server/websocket.cpp:83-126 -/
def checkLengths (data : Bytes) : Except WsFault (Option WsHeader) :=
  if data.length < 2 then .ok none
  else do
    let b0 ← byteAt data 0
    let b1 ← byteAt data 1
    match ← readLength data (b1 &&& 0x7F) with
    | none => pure none
    | some (payloadLen, offset) =>
      match ← readMaskKey data (b1 &&& 0x80 ≠ 0) offset with
      | none => pure none
      | some (maskKey, offset) =>
        if data.length < (offset + payloadLen.toNat) % 2 ^ 64 then pure none
        else pure (some { fin := b0 &&& 0x80 ≠ 0, opcode := .ofByte (b0 &&& 0x0F), masked := b1 &&& 0x80 ≠ 0
                          payloadLen, maskKey, offset })

/-- `payload[i] ^= maskKey[i % 4]` -/
def unmask (maskKey payload : Bytes) : Bytes := payload.mapIdx fun i b => b ^^^ maskKey.getD (i % 4) 0

/-- `resize`, `memcpy` and unmasking; the frame and `consumed`.
mirrors server/websocket.cpp:128-139 -/
def takePayload (data : Bytes) (h : WsHeader) : Except WsFault (WsFrame × Nat) := do
  vectorResize h.payloadLen.toNat
  let raw ← bytesAt data h.offset h.payloadLen.toNat
  let payload := if h.masked then unmask h.maskKey raw else raw
  pure ({ fin := h.fin, opcode := h.opcode, masked := h.masked, payloadLen := h.payloadLen
          maskKey := h.maskKey, payload }, (h.offset + h.payloadLen.toNat) % 2 ^ 64)

/-- `none`: return false.
mirrors server/websocket.cpp:83-140 -/
def parseFrame (data : Bytes) : Except WsFault (Option (WsFrame × Nat)) := do
  match ← checkLengths data with
  | none => pure none
  | some h => (takePayload data h).map some

/-! ## Building -/

/-- mirrors server/websocket.cpp:142-167 -/
def encodeFrame (opcode : WsOpcode) (payload : Bytes) : Bytes :=
  let len := payload.length
  (0x80 ||| opcode.toByte) ::
    ((if len < 126 then [UInt8.ofNat len]
      else if len ≤ 0xFFFF then 126 :: beBytes 2 len
      else 127 :: beBytes 8 len) ++ payload)

/-- mirrors server/websocket.cpp:169-176 -/
def createCloseFrame (code : UInt16) (reason : Bytes) : Bytes :=
  encodeFrame .close (beBytes 2 code.toNat ++ reason)

/-- mirrors server/websocket.cpp:178-180 -/
def createPongFrame (pingPayload : Bytes) : Bytes := encodeFrame .pong pingPayload

/-! ## What the bytes declare -/

def length7 (data : Bytes) : UInt8 := data.getD 1 0 &&& 0x7F

def isMasked (data : Bytes) : Bool := data.getD 1 0 &&& 0x80 ≠ 0

/-- Up to and with the length field. -/
def prefixLength (data : Bytes) : Nat := if length7 data = 126 then 4 else if length7 data = 127 then 10 else 2

/-- 2, 4 or 10 bytes, and 4 more for a mask. -/
def headerLength (data : Bytes) : Nat := prefixLength data + if isMasked data then 4 else 0

/-- The payload length in whichever of the three forms is used. -/
def declaredLength (data : Bytes) : Nat :=
  if length7 data = 126 then beNat ((data.drop 2).take 2)
  else if length7 data = 127 then beNat ((data.drop 2).take 8)
  else (length7 data).toNat

def maskKeyOf (data : Bytes) : Bytes := if isMasked data then (data.drop (prefixLength data)).take 4 else []

def headerOf (data : Bytes) : WsHeader where
  fin := data.getD 0 0 &&& 0x80 ≠ 0
  opcode := .ofByte (data.getD 0 0 &&& 0x0F)
  masked := isMasked data
  payloadLen := UInt64.ofNat (declaredLength data)
  maskKey := maskKeyOf data
  offset := headerLength data

/-- The payload bytes behind the header, unmasked. -/
def payloadOf (data : Bytes) : Bytes :=
  let raw := (data.drop (headerLength data)).take (declaredLength data)
  if isMasked data then unmask (maskKeyOf data) raw else raw

def frameOf (data : Bytes) : WsFrame where
  fin := (headerOf data).fin
  opcode := (headerOf data).opcode
  masked := isMasked data
  payloadLen := UInt64.ofNat (declaredLength data)
  maskKey := maskKeyOf data
  payload := payloadOf data

theorem prefixLength_bounds (data : Bytes) : 2 ≤ prefixLength data ∧ prefixLength data ≤ headerLength data ∧
    headerLength data ≤ 14 := by
  unfold headerLength prefixLength
  split
  · split <;> omega
  · split <;> split <;> omega

theorem declaredLength_lt (data : Bytes) : declaredLength data < 2 ^ 64 := by
  have hbe : ∀ (bs : Bytes) (n : Nat), bs.length ≤ n → n ≤ 8 → beNat bs < 2 ^ 64 := by
    intro bs n hbs hn
    have h8 : (256 : Nat) ^ bs.length ≤ 256 ^ 8 := Nat.pow_le_pow_right (by decide) (by omega)
    exact Nat.lt_of_lt_of_le (beNat_lt bs) h8
  unfold declaredLength
  split
  · exact hbe _ 2 (List.length_take_le ..) (by decide)
  · split
    · exact hbe _ 8 (List.length_take_le ..) (by decide)
    · have := (length7 data).toNat_lt
      omega

theorem byteAt_ok {data : Bytes} {i : Nat} (h : i < data.length) : byteAt data i = .ok (data.getD i 0) := by
  simp [byteAt, List.getElem?_eq_getElem h, List.getD_eq_getElem?_getD]

theorem bytesAt_ok {data : Bytes} {off len : Nat} (h : off + len ≤ data.length) :
    bytesAt data off len = .ok ((data.drop off).take len) := if_pos h

theorem readLength_eq {data : Bytes} (h2 : 2 ≤ data.length) : readLength data (length7 data) =
    .ok (if prefixLength data ≤ data.length then some (UInt64.ofNat (declaredLength data), prefixLength data)
      else none) := by
  unfold readLength prefixLength declaredLength
  by_cases h126 : length7 data = 126
  · simp only [h126, if_true]
    split
    · rw [if_neg (by omega)]
    · rw [if_pos (by omega), bytesAt_ok (by omega), ok_map]
  · simp only [h126, if_false]
    by_cases h127 : length7 data = 127
    · simp only [h127, if_true]
      split
      · rw [if_neg (by omega)]
      · rw [if_pos (by omega), bytesAt_ok (by omega), ok_map]
    · simp only [h127, if_false]
      rw [if_pos h2]

theorem readMaskKey_eq {data : Bytes} : readMaskKey data (isMasked data) (prefixLength data) =
    .ok (if headerLength data ≤ data.length ∨ isMasked data = false then
      some (maskKeyOf data, headerLength data) else none) := by
  unfold readMaskKey headerLength maskKeyOf
  cases hm : isMasked data with
  | false => simp
  | true =>
    simp only [if_true, Bool.true_eq_false, or_false]
    split
    · rw [if_neg (by omega)]
    · rw [if_pos (by omega), bytesAt_ok (by omega), ok_map]

/-- The length checks pass iff the header is there and the wrapped sum is
within the input. -/
theorem checkLengths_eq (data : Bytes) : checkLengths data =
    .ok (if headerLength data ≤ data.length ∧ (headerLength data + declaredLength data) % 2 ^ 64 ≤ data.length
      then some (headerOf data) else none) := by
  have hpre := prefixLength_bounds data
  have hdec := declaredLength_lt data
  unfold checkLengths
  by_cases h2 : data.length < 2
  · rw [if_pos h2, if_neg (by omega)]
  · rw [if_neg h2, byteAt_ok (by omega), ok_bind, byteAt_ok (by omega), ok_bind]
    have hlen := @readLength_eq data (by omega)
    rw [length7] at hlen
    rw [hlen, ok_bind]
    by_cases hp : prefixLength data ≤ data.length
    · simp only [if_pos hp]
      have hkey := @readMaskKey_eq data
      rw [isMasked] at hkey
      rw [hkey, ok_bind]
      by_cases hh : headerLength data ≤ data.length
      · rw [if_pos (.inl hh)]
        simp only [hh, true_and, UInt64.toNat_ofNat_of_lt' hdec]
        split
        · rw [if_neg (by omega)]; rfl
        · rw [if_pos (by omega)]; rfl
      · have hmask : isMasked data ≠ false := by
          intro h0
          rw [headerLength, h0] at hh
          exact hh hp
        rw [if_neg (fun h => h.elim hh hmask), if_neg (fun h => hh h.1)]
        rfl
    · simp only [if_neg hp]
      rw [if_neg (by omega)]
      rfl

theorem takePayload_eq (data : Bytes) : takePayload data (headerOf data) =
    if maxVector < declaredLength data then .error .lengthError
    else if data.length < headerLength data + declaredLength data then .error .outOfBounds
    else .ok (frameOf data, (headerLength data + declaredLength data) % 2 ^ 64) := by
  have hlen : (headerOf data).payloadLen.toNat = declaredLength data :=
    UInt64.toNat_ofNat_of_lt' (declaredLength_lt data)
  have hoff : (headerOf data).offset = headerLength data := rfl
  unfold takePayload
  rw [hlen, hoff]
  by_cases hmax : maxVector < declaredLength data
  · rw [if_pos hmax, vectorResize, if_neg (by omega), error_bind]
  · rw [if_neg hmax, vectorResize, if_pos (by omega), ok_bind]
    by_cases hwhole : data.length < headerLength data + declaredLength data
    · rw [if_pos hwhole, bytesAt, if_neg (by omega), error_bind]
    · rw [if_neg hwhole, bytesAt_ok (by omega), ok_bind]
      rfl

/-- **The outcomes.** Header or payload incomplete: false. A sum of `2^64` or
more wraps below the header length, passes, and the resize throws. -/
theorem parseFrame_eq (data : Bytes) : parseFrame data =
    if data.length < headerLength data then .ok none
    else if 2 ^ 64 ≤ headerLength data + declaredLength data then .error .lengthError
    else if data.length < headerLength data + declaredLength data then .ok none
    else if maxVector < declaredLength data then .error .lengthError
    else .ok (some (frameOf data, headerLength data + declaredLength data)) := by
  have hpre := prefixLength_bounds data
  have hdec := declaredLength_lt data
  unfold parseFrame
  rw [checkLengths_eq, ok_bind]
  by_cases hh : data.length < headerLength data
  · rw [if_pos hh, if_neg (by omega)]
    rfl
  rw [if_neg hh]
  by_cases hsum : 2 ^ 64 ≤ headerLength data + declaredLength data
  · -- the wrapped sum is below the header length
    rw [if_pos hsum, if_pos (by omega)]
    simp only [takePayload_eq data]
    rw [if_pos (by simp only [maxVector]; omega)]
    rfl
  rw [if_neg hsum, Nat.mod_eq_of_lt (Nat.not_le.mp hsum)]
  by_cases hwhole : data.length < headerLength data + declaredLength data
  · rw [if_pos hwhole, if_neg (by omega)]
    rfl
  rw [if_neg hwhole, if_pos (by omega)]
  simp only [takePayload_eq data, if_neg hwhole, Nat.mod_eq_of_lt (Nat.not_le.mp hsum)]
  by_cases hmax : maxVector < declaredLength data
  · rw [if_pos hmax, if_pos hmax]
    rfl
  · rw [if_neg hmax, if_neg hmax]
    rfl

/-! ## Safety -/

/-- Parsing one input is safe: whatever passes the length checks is inside
`data`, the call returns, and a frame has exactly the declared payload, from
`data`, with `consumed` the whole frame. -/
structure ParseSafe (data : Bytes) : Prop where
  within : ∀ h, checkLengths data = .ok (some h) → h.offset + h.payloadLen.toNat ≤ data.length
  returns : ∃ r, parseFrame data = .ok r
  frame : ∀ f consumed, parseFrame data = .ok (some (f, consumed)) →
    headerLength data + declaredLength data ≤ data.length ∧ f.payloadLen.toNat = declaredLength data ∧
    f.payload = payloadOf data ∧ f.payload.length = declaredLength data ∧
    consumed = headerLength data + declaredLength data ∧ 2 ≤ consumed

/-- The header is incomplete, or header and payload together stay below
`2^64`. -/
def Fits (data : Bytes) : Prop :=
  data.length < headerLength data ∨ headerLength data + declaredLength data < 2 ^ 64

instance (data : Bytes) : Decidable (Fits data) := inferInstanceAs (Decidable (_ ∨ _))

theorem unmask_length (key payload : Bytes) : (unmask key payload).length = payload.length := by
  simp [unmask]

theorem payloadOf_length {data : Bytes} (h : headerLength data + declaredLength data ≤ data.length) :
    (payloadOf data).length = declaredLength data := by
  have hraw : ((data.drop (headerLength data)).take (declaredLength data)).length = declaredLength data := by
    rw [List.length_take, List.length_drop]
    omega
  unfold payloadOf
  split
  · rw [unmask_length, hraw]
  · exact hraw

theorem parseFrame_some {data : Bytes} {f : WsFrame} {k : Nat} (h : parseFrame data = .ok (some (f, k))) :
    headerLength data + declaredLength data ≤ data.length ∧ declaredLength data ≤ maxVector ∧
      f = frameOf data ∧ k = headerLength data + declaredLength data := by
  rw [parseFrame_eq] at h
  split at h
  · cases h
  split at h
  · cases h
  split at h
  · cases h
  split at h
  · cases h
  · cases h
    exact ⟨by omega, by omega, rfl, rfl⟩

theorem parseFrame_whole {data : Bytes} (h : headerLength data + declaredLength data ≤ data.length)
    (hmax : declaredLength data ≤ maxVector) :
    parseFrame data = .ok (some (frameOf data, headerLength data + declaredLength data)) := by
  have hpre := prefixLength_bounds data
  simp only [maxVector] at hmax
  rw [parseFrame_eq, if_neg (by omega), if_neg (by omega), if_neg (by omega), if_neg (by simp only [maxVector]; omega)]

/-- **Safety, exactly.** -/
theorem parseSafe_iff {data : Bytes} (hlt : data.length < 2 ^ 63) : ParseSafe data ↔ Fits data := by
  have hpre := prefixLength_bounds data
  constructor
  · intro hs
    by_contra hfit
    have hf : ¬ (data.length < headerLength data) ∧ ¬ (headerLength data + declaredLength data < 2 ^ 64) :=
      not_or.mp hfit
    obtain ⟨r, hr⟩ := hs.returns
    rw [parseFrame_eq, if_neg hf.1, if_pos (by omega)] at hr
    cases hr
  · intro hfit
    refine ⟨fun h hc => ?_, ?_, fun f consumed hp => ?_⟩
    · rw [checkLengths_eq] at hc
      split at hc
      · rename_i hpass
        cases hc
        have hsum : headerLength data + declaredLength data < 2 ^ 64 := hfit.resolve_left (by omega)
        rw [Nat.mod_eq_of_lt hsum] at hpass
        rw [headerOf, UInt64.toNat_ofNat_of_lt' (declaredLength_lt data)]
        exact hpass.2
      · cases hc
    · rw [parseFrame_eq]
      by_cases hh : data.length < headerLength data
      · exact ⟨_, if_pos hh⟩
      · rw [if_neg hh, if_neg (by have := hfit.resolve_left hh; omega)]
        split
        · exact ⟨_, rfl⟩
        · rw [if_neg (by simp only [maxVector]; omega)]
          exact ⟨_, rfl⟩
    · obtain ⟨hle, -, rfl, rfl⟩ := parseFrame_some hp
      exact ⟨hle, UInt64.toNat_ofNat_of_lt' (declaredLength_lt data), rfl, payloadOf_length hle, rfl, by omega⟩

/-! ## A stable parser -/

section
variable {data : Bytes} (h : headerLength data ≤ data.length) (t : Bytes)
include h

theorem length7_append : length7 (data ++ t) = length7 data := by
  have := prefixLength_bounds data
  rw [length7, getD_append_left (by omega), length7]

theorem isMasked_append : isMasked (data ++ t) = isMasked data := by
  have := prefixLength_bounds data
  rw [isMasked, getD_append_left (by omega), isMasked]

theorem prefixLength_append : prefixLength (data ++ t) = prefixLength data := by
  rw [prefixLength, length7_append h, prefixLength]

theorem headerLength_append : headerLength (data ++ t) = headerLength data := by
  rw [headerLength, prefixLength_append h, isMasked_append h, headerLength]

theorem declaredLength_append : declaredLength (data ++ t) = declaredLength data := by
  have hpre := prefixLength_bounds data
  unfold declaredLength
  rw [length7_append h]
  split
  · rename_i h126
    rw [prefixLength, if_pos h126] at hpre
    rw [slice_append_left (by omega)]
  · rename_i h126
    split
    · rename_i h127
      rw [prefixLength, if_neg h126, if_pos h127] at hpre
      rw [slice_append_left (by omega)]
    · rfl

theorem maskKeyOf_append : maskKeyOf (data ++ t) = maskKeyOf data := by
  unfold maskKeyOf
  rw [isMasked_append h, prefixLength_append h]
  split
  · rename_i hm
    rw [headerLength, if_pos hm] at h
    exact slice_append_left h t
  · rfl

end

theorem frameOf_append {data : Bytes} (h : headerLength data + declaredLength data ≤ data.length) (t : Bytes) :
    frameOf (data ++ t) = frameOf data := by
  have hpre := prefixLength_bounds data
  have hh : headerLength data ≤ data.length := by omega
  have hpay : payloadOf (data ++ t) = payloadOf data := by
    simp only [payloadOf, isMasked_append hh, maskKeyOf_append hh, headerLength_append hh,
      declaredLength_append hh, slice_append_left h]
  simp only [frameOf, headerOf, hpay, isMasked_append hh, maskKeyOf_append hh, declaredLength_append hh,
    getD_append_left (show 0 < data.length by omega)]

/-- A complete frame is read the same whatever follows it. -/
def frameParser : Framing.Parser UInt8 WsFrame WsFault where
  parse := parseFrame
  pos {b a k} hp := by
    obtain ⟨-, -, -, rfl⟩ := parseFrame_some hp
    have := prefixLength_bounds b
    omega
  le {b a k} hp := by
    obtain ⟨hle, -, -, rfl⟩ := parseFrame_some hp
    exact hle
  stable {b a k} t hp := by
    obtain ⟨hle, hmax, rfl, rfl⟩ := parseFrame_some hp
    have hh : headerLength b ≤ b.length := by omega
    have h := @parseFrame_whole (b ++ t)
      (by rw [headerLength_append hh, declaredLength_append hh, List.length_append]; omega)
      (by rw [declaredLength_append hh]; exact hmax)
    rwa [headerLength_append hh, declaredLength_append hh, frameOf_append hle] at h

end WebPlayer.L1.WebSocket
