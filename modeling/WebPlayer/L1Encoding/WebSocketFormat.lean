import WebPlayer.L1Encoding.WebSocketFrame

/-!
# The wire format of WebSocket frames

`wireFrame` builds a frame from its fields: the payload length in any of the
three forms that can hold it, the payload masked if there is a key. The
encoder builds the unmasked frames of the shortest form, clients send masked
ones.

* `parseFrame_wireFrame`: the parser reads every frame back, whatever follows.
* `parseFrame_take`: it waits on every proper prefix of one.
* `framing_round_trip`: both, for the encoder's frames and for the clients'.
-/
namespace WebPlayer.L1.WebSocket
open WebPlayer.Core

/-- Where the payload length stands: in the second byte, or behind it in 16 or
64 bits. -/
inductive LengthForm where
  | bits7
  | bits16
  | bits64
  deriving DecidableEq, Repr

namespace LengthForm

/-- Lengths of the form; the top bit of a 64-bit length is 0. -/
def Admits : LengthForm → Nat → Prop
  | bits7, len => len < 126
  | bits16, len => len < 2 ^ 16
  | bits64, len => len < 2 ^ 63

instance : (form : LengthForm) → (len : Nat) → Decidable (form.Admits len)
  | bits7, len => inferInstanceAs (Decidable (len < 126))
  | bits16, len => inferInstanceAs (Decidable (len < 2 ^ 16))
  | bits64, len => inferInstanceAs (Decidable (len < 2 ^ 63))

def code : LengthForm → Nat → UInt8
  | bits7, len => UInt8.ofNat len
  | bits16, _ => 126
  | bits64, _ => 127

def extended : LengthForm → Nat → Bytes
  | bits7, _ => []
  | bits16, len => beBytes 2 len
  | bits64, len => beBytes 8 len

/-- The form that the encoder chooses. -/
def shortest (len : Nat) : LengthForm := if len < 126 then bits7 else if len ≤ 0xFFFF then bits16 else bits64

end LengthForm

abbrev MaskKey := Vector UInt8 4

/-- Byte `i` is combined with byte `i mod 4` of the key. -/
def mask (key : MaskKey) (payload : Bytes) : Bytes :=
  payload.mapIdx fun i b => b ^^^ key.get ⟨i % 4, Nat.mod_lt i (by decide)⟩

def maskBit (key : Option MaskKey) : UInt8 := if key.isSome then 0x80 else 0

def keyBytes : Option MaskKey → Bytes
  | some key => key.toList
  | none => []

/-- Up to and with the mask key. -/
def wireHeader (fin : Bool) (opcode : WsOpcode) (key : Option MaskKey) (form : LengthForm) (len : Nat) : Bytes :=
  ((if fin then 0x80 else 0) ||| opcode.toByte) :: (maskBit key ||| form.code len) ::
    (form.extended len ++ keyBytes key)

def wirePayload (key : Option MaskKey) (payload : Bytes) : Bytes :=
  match key with
  | some key => mask key payload
  | none => payload

def wireFrame (fin : Bool) (opcode : WsOpcode) (key : Option MaskKey) (form : LengthForm) (payload : Bytes) : Bytes :=
  wireHeader fin opcode key form payload.length ++ wirePayload key payload

/-- A four-bit value, under its name if it has one. -/
def WsOpcode.FourBit (opcode : WsOpcode) : Prop := opcode.toByte < 16 ∧ WsOpcode.ofByte opcode.toByte = opcode

/-- The encoder's frames. -/
theorem encodeFrame_eq_wireFrame (opcode : WsOpcode) (payload : Bytes) :
    encodeFrame opcode payload = wireFrame true opcode none (.shortest payload.length) payload := by
  unfold encodeFrame wireFrame wireHeader wirePayload maskBit keyBytes LengthForm.shortest
  by_cases h126 : payload.length < 126
  · simp [h126, LengthForm.code, LengthForm.extended]
  · by_cases h16 : payload.length ≤ 0xFFFF
    · simp [h126, h16, LengthForm.code, LengthForm.extended]
    · simp [h126, h16, LengthForm.code, LengthForm.extended]

theorem shortest_admits {len : Nat} (h : len < 2 ^ 63) : (LengthForm.shortest len).Admits len := by
  unfold LengthForm.shortest
  split
  · assumption
  · split
    · simp only [LengthForm.Admits]
      omega
    · exact h

/-! ## What the header declares -/

/-- A flag in the top bit and a value in the others. -/
theorem flag_or : ∀ (flag : Bool) (n : Fin 128),
    (((if flag then 0x80 else 0) ||| UInt8.ofNat n) &&& 0x7F = UInt8.ofNat n) ∧
    (decide (((if flag then 0x80 else 0) ||| UInt8.ofNat n) &&& 0x80 ≠ 0) = flag) ∧
    (n < 16 → ((if flag then 0x80 else 0) ||| UInt8.ofNat n) &&& 0x0F = UInt8.ofNat n) := by
  decide

theorem ofNat_toByte {opcode : WsOpcode} : UInt8.ofNat opcode.toByte.toNat = opcode.toByte := UInt8.ofNat_toNat

theorem code_lt {form : LengthForm} {len : Nat} (h : form.Admits len) : ∃ n : Fin 128, form.code len = UInt8.ofNat n ∧
    (form = .bits7 → n = len) := by
  cases form with
  | bits7 =>
    simp only [LengthForm.Admits] at h
    exact ⟨⟨len, by omega⟩, rfl, fun _ => rfl⟩
  | bits16 => exact ⟨126, rfl, fun h => by cases h⟩
  | bits64 => exact ⟨127, rfl, fun h => by cases h⟩

section
variable {fin : Bool} {opcode : WsOpcode} {key : Option MaskKey} {form : LengthForm} {len : Nat} (t : Bytes)

theorem header_fin (hop : opcode.FourBit) :
    decide ((wireHeader fin opcode key form len).getD 0 0 &&& 0x80 ≠ 0) = fin ∧
      WsOpcode.ofByte ((wireHeader fin opcode key form len).getD 0 0 &&& 0x0F) = opcode := by
  obtain ⟨hlt, hname⟩ := hop
  have hn : opcode.toByte.toNat < 16 := UInt8.lt_iff_toNat_lt.mp hlt
  obtain ⟨-, hfin, hop⟩ := flag_or fin ⟨opcode.toByte.toNat, by omega⟩
  rw [ofNat_toByte] at hfin hop
  exact ⟨hfin, by rw [wireHeader, List.getD_cons_zero, hop hn, hname]⟩

variable (hform : form.Admits len)
include hform

theorem header_masked : isMasked (wireHeader fin opcode key form len) = key.isSome := by
  obtain ⟨n, hn, -⟩ := code_lt hform
  rw [isMasked, wireHeader, List.getD_cons_succ, List.getD_cons_zero, maskBit, hn]
  exact (flag_or key.isSome n).2.1

theorem header_length7 : length7 (wireHeader fin opcode key form len) = form.code len := by
  obtain ⟨n, hn, -⟩ := code_lt hform
  rw [length7, wireHeader, List.getD_cons_succ, List.getD_cons_zero, maskBit, hn]
  exact (flag_or key.isSome n).1

theorem code_bits7 (h : form = .bits7) : form.code len ≠ 126 ∧ form.code len ≠ 127 ∧ (form.code len).toNat = len := by
  subst h
  simp only [LengthForm.Admits] at hform
  have hnat : (LengthForm.bits7.code len).toNat = len := by
    rw [LengthForm.code, UInt8.toNat_ofNat']
    omega
  refine ⟨fun h => ?_, fun h => ?_, hnat⟩
  · rw [h] at hnat
    simp at hnat
    omega
  · rw [h] at hnat
    simp at hnat
    omega

theorem header_prefixLength : prefixLength (wireHeader fin opcode key form len) = 2 + (form.extended len).length := by
  rw [prefixLength, header_length7 hform]
  cases form with
  | bits7 =>
    obtain ⟨h126, h127, -⟩ := code_bits7 hform rfl
    rw [if_neg h126, if_neg h127]
    rfl
  | bits16 => rfl
  | bits64 => rfl

theorem header_length : headerLength (wireHeader fin opcode key form len) =
    (wireHeader fin opcode key form len).length := by
  rw [headerLength, header_prefixLength hform, header_masked hform]
  cases key with
  | none => simp [wireHeader, keyBytes]; omega
  | some key => simp [wireHeader, keyBytes]; omega

theorem header_declaredLength : declaredLength (wireHeader fin opcode key form len) = len := by
  rw [declaredLength, header_length7 hform]
  cases form with
  | bits7 =>
    obtain ⟨h126, h127, hlen⟩ := code_bits7 hform rfl
    rw [if_neg h126, if_neg h127, hlen]
  | bits16 =>
    simp only [LengthForm.code, if_true]
    exact @beNat_beBytes_of_lt 2 len hform
  | bits64 =>
    have hlt : len < 256 ^ 8 := Nat.lt_trans hform (by decide)
    have hne : (127 : UInt8) ≠ 126 := by decide
    simp only [LengthForm.code, if_neg hne, if_true]
    exact beNat_beBytes_of_lt hlt

theorem header_maskKey : maskKeyOf (wireHeader fin opcode key form len) = keyBytes key := by
  rw [maskKeyOf, header_masked hform, header_prefixLength hform]
  cases key with
  | none => rfl
  | some key =>
    have hdrop : (wireHeader fin opcode (some key) form len).drop (2 + (form.extended len).length) = key.toList := by
      simp [wireHeader, keyBytes, Nat.add_comm 2]
    rw [hdrop]
    exact List.take_of_length_le (Nat.le_of_eq key.length_toList)

end

/-! ## Reading back -/

theorem unmask_mask (key : MaskKey) (payload : Bytes) : unmask key.toList (mask key payload) = payload := by
  have hkey : ∀ i, key.toList.getD (i % 4) 0 = key.get ⟨i % 4, Nat.mod_lt i (by decide)⟩ := by
    intro i
    have hi : i % 4 < key.toList.length := by
      rw [Vector.length_toList]
      exact Nat.mod_lt i (by decide)
    rw [List.getD_eq_getElem?_getD, List.getElem?_eq_getElem hi]
    rfl
  rw [unmask, mask, List.mapIdx_mapIdx, List.mapIdx_eq_iff]
  intro i
  cases payload[i]? with
  | none => rfl
  | some b =>
    rw [Option.map_some, Function.comp, hkey, UInt8.xor_assoc, UInt8.xor_self, UInt8.xor_zero]

theorem wirePayload_length (key : Option MaskKey) (payload : Bytes) :
    (wirePayload key payload).length = payload.length := by
  cases key with
  | none => rfl
  | some key => exact List.length_mapIdx

section
variable {fin : Bool} {opcode : WsOpcode} {key : Option MaskKey} {form : LengthForm} {payload : Bytes}
  (hform : form.Admits payload.length)
include hform

/-- The bytes of the frame, as the parser divides them. -/
theorem wireFrame_length : headerLength (wireFrame fin opcode key form payload) +
    declaredLength (wireFrame fin opcode key form payload) = (wireFrame fin opcode key form payload).length ∧
    declaredLength (wireFrame fin opcode key form payload) = payload.length := by
  have hlen := @header_length fin opcode key form _ hform
  rw [wireFrame, headerLength_append (Nat.le_of_eq hlen), declaredLength_append (Nat.le_of_eq hlen), hlen,
    header_declaredLength hform, List.length_append, wirePayload_length]
  exact ⟨rfl, rfl⟩

theorem frameOf_wireFrame (hop : opcode.FourBit) : frameOf (wireFrame fin opcode key form payload) =
    { fin, opcode, masked := key.isSome, payloadLen := UInt64.ofNat payload.length, maskKey := keyBytes key
      payload } := by
  have hlen := @header_length fin opcode key form _ hform
  have hle := Nat.le_of_eq hlen
  have hpos : 0 < (wireHeader fin opcode key form payload.length).length := Nat.succ_pos _
  obtain ⟨hfin, hopcode⟩ := @header_fin fin opcode key form payload.length hop
  have hpay : payloadOf (wireFrame fin opcode key form payload) = payload := by
    rw [payloadOf, (wireFrame_length hform).2, wireFrame, isMasked_append hle, headerLength_append hle, hlen,
      maskKeyOf_append hle, header_masked hform, header_maskKey hform, List.drop_left, List.take_of_length_le]
    · cases key with
      | none => rfl
      | some key => exact unmask_mask key payload
    · exact Nat.le_of_eq (wirePayload_length key payload)
  rw [frameOf, headerOf, hpay, (wireFrame_length hform).2, wireFrame, isMasked_append hle, maskKeyOf_append hle,
    getD_append_left hpos, header_masked hform, header_maskKey hform, hfin, hopcode]

end

theorem admits_lt {form : LengthForm} {len : Nat} (h : form.Admits len) : len < 2 ^ 63 := by
  cases form with
  | bits7 => exact Nat.lt_trans h (by decide)
  | bits16 => exact Nat.lt_trans h (by decide)
  | bits64 => exact h

theorem parseFrame_wireFrame {fin : Bool} {opcode : WsOpcode} (hop : opcode.FourBit) {key : Option MaskKey}
    {form : LengthForm} {payload : Bytes} (hform : form.Admits payload.length) (rest : Bytes) :
    parseFrame (wireFrame fin opcode key form payload ++ rest) = .ok (some (
      { fin, opcode, masked := key.isSome, payloadLen := UInt64.ofNat payload.length, maskKey := keyBytes key, payload },
      (wireFrame fin opcode key form payload).length)) := by
  obtain ⟨hsum, hdec⟩ := @wireFrame_length fin opcode key form payload hform
  have hmax : declaredLength (wireFrame fin opcode key form payload) ≤ maxVector := by
    have := admits_lt hform
    rw [hdec, maxVector]
    omega
  rw [← frameOf_wireFrame hform hop, ← hsum]
  exact frameParser.stable rest (parseFrame_whole (Nat.le_of_eq hsum) hmax)

/-- A frame cut short is not read. -/
theorem parseFrame_take {fin : Bool} {opcode : WsOpcode} {key : Option MaskKey} {form : LengthForm} {payload : Bytes}
    (hform : form.Admits payload.length) {n : Nat} (hn : n < (wireFrame fin opcode key form payload).length) :
    parseFrame ((wireFrame fin opcode key form payload).take n) = .ok none := by
  obtain ⟨hsum, hdec⟩ := @wireFrame_length fin opcode key form payload hform
  have hlen : ((wireFrame fin opcode key form payload).take n).length = n := by
    rw [List.length_take]
    omega
  rw [parseFrame_eq, hlen]
  by_cases hh : n < headerLength ((wireFrame fin opcode key form payload).take n)
  · rw [if_pos hh]
  · have hle : headerLength ((wireFrame fin opcode key form payload).take n) ≤
        ((wireFrame fin opcode key form payload).take n).length := by omega
    -- a whole header declares what the whole frame declares
    have hhead := headerLength_append hle ((wireFrame fin opcode key form payload).drop n)
    have hdecl := declaredLength_append hle ((wireFrame fin opcode key form payload).drop n)
    rw [List.take_append_drop] at hhead hdecl
    have := admits_lt hform
    have := prefixLength_bounds (wireFrame fin opcode key form payload)
    rw [← hhead] at hh ⊢
    rw [← hdecl, if_neg hh, if_neg (by omega), if_pos (by omega)]

/-- **Round trip.** The parser reads back every frame of the encoder and every
masked frame of a client, and waits on every proper prefix. -/
theorem framing_round_trip {opcode : WsOpcode} (hop : opcode.FourBit) {payload : Bytes}
    (hlen : payload.length < 2 ^ 63) (rest : Bytes) :
    parseFrame (encodeFrame opcode payload ++ rest) = .ok (some (
      { fin := true, opcode, masked := false, payloadLen := UInt64.ofNat payload.length, maskKey := [], payload },
      (encodeFrame opcode payload).length)) ∧
    (∀ n, n < (encodeFrame opcode payload).length → parseFrame ((encodeFrame opcode payload).take n) = .ok none) ∧
    ∀ (fin : Bool) (key : MaskKey) (form : LengthForm), form.Admits payload.length →
      parseFrame (wireFrame fin opcode (some key) form payload ++ rest) = .ok (some (
        { fin, opcode, masked := true, payloadLen := UInt64.ofNat payload.length, maskKey := key.toList, payload },
        (wireFrame fin opcode (some key) form payload).length)) ∧
      ∀ n, n < (wireFrame fin opcode (some key) form payload).length →
        parseFrame ((wireFrame fin opcode (some key) form payload).take n) = .ok none := by
  have hshort := shortest_admits hlen
  rw [encodeFrame_eq_wireFrame]
  refine ⟨parseFrame_wireFrame hop hshort rest, fun n hn => parseFrame_take hshort hn, fun fin key form hform => ?_⟩
  exact ⟨parseFrame_wireFrame hop hform rest, fun n hn => parseFrame_take hform hn⟩

theorem framing_round_trip_hi :
    parseFrame (encodeFrame .text [104, 105] ++ [0x89]) = .ok (some (
      { fin := true, opcode := .text, masked := false, payloadLen := 2, maskKey := [], payload := [104, 105] }, 4)) ∧
    wireFrame true .text (some #v[1, 2, 3, 4]) .bits16 [104, 105] =
      [0x81, 0xFE, 0, 2, 1, 2, 3, 4, 105, 107] ∧
    parseFrame [0x81, 0xFE, 0, 2, 1, 2, 3, 4, 105] = .ok none := by
  obtain ⟨henc, -, hmask⟩ := @framing_round_trip .text ⟨by decide, rfl⟩ [104, 105] (by decide) [0x89]
  exact ⟨henc, by decide, (hmask true #v[1, 2, 3, 4] .bits16 (by decide)).2 9 (by decide)⟩

end WebPlayer.L1.WebSocket
