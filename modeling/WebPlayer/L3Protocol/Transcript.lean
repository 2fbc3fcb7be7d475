import WebPlayer.L3Protocol.Closing

/-!
# What the session puts out

`Says` lists, state by state, what the handlers put out between two reads of
`conn->state`, and the state they leave: the upgrade, an answer, a frame that
only gets a reply, the close. Nothing else is ever put out.

* `handleData_transcript`: `HandleData` puts out such a sequence.
-/
namespace WebPlayer.L3.Session
open WebPlayer.Core WebPlayer.L1.WebSocket

inductive Says (env : Env) : ConnState → List Out → ConnState → Prop where
  | quiet (s : ConnState) : Says env s [] s
  | receive (s : ConnState) (opcode : WsOpcode) (payload : Bytes) : Says env s [.dispatch opcode payload] s
  | pong (s : ConnState) (payload : Bytes) : Says env s [.dispatch .ping payload, .send (.frame .pong payload)] s
  | accept {payload : Bytes} (h : acceptsOffer payload = true) :
      Says env .negotiating [.dispatch .text payload, .setState .streaming] .streaming
  | reject (payload : Bytes) :
      Says env .negotiating [.dispatch .text payload, .setState .closing, .send (closeMsg 1000 "Negotiation rejected"), .close]
        .closing
  | close (s : ConnState) (payload : Bytes) : Says env s [.dispatch .close payload, .setState .closing, .close] .closing
  | refuse : Says env .handshakingWs [.close] .handshakingWs
  | upgrade (text : Bytes) :
      Says env .handshakingWs [.send (.response text), .setState .connected, .send (.frame .text (buildMediaOffer env)),
        .setState .negotiating] .negotiating
  | trans {s₁ s₂ s₃ : ConnState} {o₁ o₂ : List Out} (h₁ : Says env s₁ o₁ s₂) (h₂ : Says env s₂ o₂ s₃) :
      Says env s₁ (o₁ ++ o₂) s₃

theorem stepState_transcript (env : Env) (s : ConnState) (frame : WsFrame) :
    Says env s (stepState s frame).2.1 (stepState s frame).1 := by
  unfold stepState handleFrame
  cases frame.opcode with
  | text =>
    by_cases hn : s = .negotiating
    · subst hn
      simp only [if_true, handleNegotiation]
      by_cases ht : extractJsonString frame.payload "type" = ascii "media-answer"
      · cases ha : extractJsonBool frame.payload "accepted" false with
        | true =>
          simp only [ht, ne_eq, not_true_eq_false, if_false, if_true]
          exact .accept (by simp [acceptsOffer, ht, ha])
        | false =>
          simp only [ht, ne_eq, not_true_eq_false, if_false, Bool.false_eq_true]
          exact .reject _
      · simp only [ht, ne_eq, not_false_eq_true, if_true]
        exact .receive ..
    · simp only [hn, if_false]
      exact .receive ..
  | ping => exact .pong ..
  | close => exact .close ..
  | _ => exact .receive ..

theorem loop_transcript (env : Env) (s : ConnState) (b : Bytes) : Says env s (loop s b).outs (loop s b).state :=
  Framing.Parser.drain_rel (R := Says env) .quiet (stepState_transcript env) (fun _ _ _ _ _ => .trans) s b

theorem handleUpgrade_transcript (env : Env) (now : Int) {conn : Connection} (hs : conn.state = .handshakingWs) :
    Says env conn.state (handleUpgrade env now conn).outs (handleUpgrade env now conn).conn.state := by
  unfold handleUpgrade
  split
  · exact .quiet _
  · split
    · rw [hs]
      exact .refuse
    · split
      · rw [hs]
        exact .refuse
      · rw [hs]
        exact .upgrade _

/-- The branches of `HandleData`. -/
theorem handleData_cases (env : Env) (now : Int) (conn : Connection) (data : Bytes) :
    (conn.state = .handshakingWs ∧
      handleData env now conn data = handleUpgrade env now { conn with recvBuffer := conn.recvBuffer ++ data }) ∨
    (ReadsFrames conn.state ∧
      handleData env now conn data = handleWebSocketFrame { conn with recvBuffer := conn.recvBuffer ++ data }) ∨
    handleData env now conn data = { conn := { conn with recvBuffer := conn.recvBuffer ++ data }, outs := [] } := by
  unfold handleData ReadsFrames
  cases conn.state <;> simp

/-- **All that is put out.** -/
theorem handleData_transcript (env : Env) (now : Int) (conn : Connection) (data : Bytes) :
    Says env conn.state (handleData env now conn data).outs (handleData env now conn data).conn.state := by
  rcases handleData_cases env now conn data with ⟨hs, heq⟩ | ⟨-, heq⟩ | heq
  · rw [heq]
    exact @handleUpgrade_transcript env now { conn with recvBuffer := conn.recvBuffer ++ data } hs
  · rw [heq, handleWebSocketFrame_eq]
    exact loop_transcript env conn.state _
  · rw [heq]
    exact .quiet _

/-- The record keeps its key. -/
theorem handleData_fd (env : Env) (now : Int) (conn : Connection) (data : Bytes) :
    (handleData env now conn data).conn.fd = conn.fd := by
  rcases handleData_cases env now conn data with ⟨-, heq⟩ | ⟨-, heq⟩ | heq
  · rw [heq]
    unfold handleUpgrade
    split
    · rfl
    · split
      · rfl
      · split <;> rfl
  · rw [heq, handleWebSocketFrame_eq]
  · rw [heq]

end WebPlayer.L3.Session
