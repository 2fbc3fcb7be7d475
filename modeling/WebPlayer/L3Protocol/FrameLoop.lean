import WebPlayer.L3Protocol.Session

/-!
# The frame loop on hostile input

`HandleWebSocketFrame` drains `recvBuffer` with `ParseFrame`. Each iteration
shrinks the buffer; the loop throws exactly when the parser does at one of
its heads, and that is when a header declares a length within 14 of `2^64`.

* `frame_loop_safe_iff`: parser and loop are safe exactly on the buffers that
  fit.
* `parseFrame_wraps`: ten bytes that end the server.
-/
namespace WebPlayer.L3.Session
open WebPlayer.Core WebPlayer.L1.WebSocket

/-- The loop comes to a head with the buffer `b`. -/
def LoopHead (conn : Connection) (b : Bytes) : Prop :=
  ∃ c, frameParser.Head handleFrame conn conn.recvBuffer c b

theorem loopHead_length {conn : Connection} {b : Bytes} (h : LoopHead conn b) :
    b.length ≤ conn.recvBuffer.length := by
  obtain ⟨c, hc⟩ := h
  generalize conn.recvBuffer = buf at hc
  induction hc with
  | start => exact Nat.le_refl _
  | next _ hp _ _ ih =>
    have := Framing.Parser.length_drop_lt hp
    omega

theorem fits_nil : Fits [] := by decide

/-- Short of `2^63` bytes the parser throws iff the input does not fit. -/
theorem parseFrame_throws_iff {b : Bytes} (hlt : b.length < 2 ^ 63) :
    (∃ e, parseFrame b = .error e) ↔ ¬ Fits b := by
  rw [← parseSafe_iff hlt]
  constructor
  · rintro ⟨e, he⟩ hs
    obtain ⟨r, hr⟩ := hs.returns
    rw [he] at hr
    cases hr
  · intro hs
    by_contra hno
    have hfit : Fits b := by
      by_contra hf
      have hf' := not_or.mp hf
      exact hno ⟨.lengthError, by rw [parseFrame_eq, if_neg hf'.1, if_pos (Nat.not_lt.mp hf'.2)]⟩
    exact hs ((parseSafe_iff hlt).mpr hfit)

/-- The loop ends without an exception iff every loop head fits. -/
theorem loop_returns_iff {conn : Connection} (hlt : conn.recvBuffer.length < 2 ^ 63) :
    (handleWebSocketFrame conn).threw = none ↔ ∀ b, LoopHead conn b → Fits b := by
  have hthrew : (handleWebSocketFrame conn).threw = none ↔
      ¬ ∃ e, (frameParser.drain handleFrame conn conn.recvBuffer).ending = .threw e := by
    simp only [handleWebSocketFrame]
    cases (frameParser.drain handleFrame conn conn.recvBuffer).ending <;> simp [thrown]
  rw [hthrew, Framing.Parser.threw_iff]
  constructor
  · intro hno b hb
    by_contra hfit
    obtain ⟨e, he⟩ := (parseFrame_throws_iff (by have := loopHead_length hb; omega)).mpr hfit
    obtain ⟨c, hc⟩ := hb
    exact hno ⟨c, b, e, hc, by rintro rfl; exact hfit fits_nil, he⟩
  · rintro hall ⟨c, b, e, hc, -, he⟩
    have hb : LoopHead conn b := ⟨c, hc⟩
    exact (parseFrame_throws_iff (by have := loopHead_length hb; omega)).mp ⟨e, he⟩ (hall b hb)

/-- **Safety of parser and loop.** On an input `data`, and in a loop over a
connection's buffer, both shorter than `2^63`, nothing goes wrong exactly
when the input, and every buffer at a loop head, fits. Each iteration shrinks
the buffer, so more iterations than bytes are never made. -/
theorem frame_loop_safe_iff (data : Bytes) (hdata : data.length < 2 ^ 63) (conn : Connection)
    (hbuf : conn.recvBuffer.length < 2 ^ 63) :
    (ParseSafe data ↔ Fits data) ∧
    ((handleWebSocketFrame conn).threw = none ↔ ∀ b, LoopHead conn b → Fits b) ∧
    (∀ b f consumed, LoopHead conn b → parseFrame b = .ok (some (f, consumed)) →
      (b.drop consumed).length < b.length) ∧
    ∀ n, conn.recvBuffer.length ≤ n → frameParser.drainN handleFrame n conn conn.recvBuffer =
      frameParser.drain handleFrame conn conn.recvBuffer :=
  ⟨parseSafe_iff hdata, loop_returns_iff hbuf, fun _ _ _ _ hp => Framing.Parser.length_drop_lt (P := frameParser) hp,
    fun _ hn => Framing.Parser.drain_enough hn conn⟩

/-- A TEXT frame and an incomplete one. -/
theorem frame_loop_safe_iff_text :
    ParseSafe [0x81, 0x01, 0x61] ∧
      (handleWebSocketFrame { fd := 7, id := 1, state := .streaming, recvBuffer := [0x81, 0x01, 0x61, 0x82] }).threw = none := by
  have h := frame_loop_safe_iff [0x81, 0x01, 0x61] (by decide)
    { fd := 7, id := 1, state := .streaming, recvBuffer := [0x81, 0x01, 0x61, 0x82] } (by decide)
  exact ⟨h.1.mpr (by decide), by decide⟩

/-- A header that declares `2^64 - 1` bytes. -/
def hugeFrame : Bytes := [0x82, 0x7F, 0xFF, 0xFF, 0xFF, 0xFF, 0xFF, 0xFF, 0xFF, 0xFF]

/-- **The check wraps.** `10 + (2^64 - 1)` is 9 modulo `2^64`, so the header
passes, and `resize` throws out of the frame loop. -/
theorem parseFrame_wraps : ¬ ParseSafe hugeFrame ∧
    (∃ h, checkLengths hugeFrame = .ok (some h) ∧ ¬ h.offset + h.payloadLen.toNat ≤ hugeFrame.length) ∧
    parseFrame hugeFrame = .error .lengthError ∧
    (handleWebSocketFrame { fd := 7, id := 1, state := .streaming, recvBuffer := hugeFrame }).threw =
      some .lengthError := by
  have hp : parseFrame hugeFrame = .error .lengthError := by decide
  refine ⟨fun hs => ?_, ⟨headerOf hugeFrame, by decide, by decide⟩, hp, by decide⟩
  obtain ⟨r, hr⟩ := hs.returns
  rw [hp] at hr
  cases hr

end WebPlayer.L3.Session
