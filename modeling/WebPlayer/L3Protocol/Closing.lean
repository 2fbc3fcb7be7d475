import WebPlayer.L3Protocol.Chunking

/-!
# Which data make the server close

A connection is closed by the session for one of three things it receives: a
complete upgrade request that is refused, a CLOSE frame, or a media-answer
that rejects the offer. `Closes` says so of a record and the next data.

* `closes_iff`: `HandleData` calls `CloseConnection` exactly on such data.
-/
namespace WebPlayer.L3.Session
open WebPlayer.Core WebPlayer.L1.WebSocket

/-- A media-answer that does not accept. -/
def rejectsOffer (msg : Bytes) : Bool :=
  extractJsonString msg "type" == ascii "media-answer" && !extractJsonBool msg "accepted" false

/-- A CLOSE frame, or a rejection that is waited for. -/
def FrameCloses (s : ConnState) (frame : WsFrame) : Prop :=
  frame.opcode = .close ∨ (frame.opcode = .text ∧ s = .negotiating ∧ rejectsOffer frame.payload = true)

/-- The state after a frame that does not close. -/
def afterFrame (s : ConnState) (frame : WsFrame) : ConnState :=
  if frame.opcode = .text ∧ s = .negotiating ∧ acceptsOffer frame.payload = true then .streaming else s

/-- The frames that open `b` come to one that closes. -/
inductive FramesClose : ConnState → Bytes → Prop where
  | here {s : ConnState} {b : Bytes} {frame : WsFrame} {k : Nat} (hp : parseFrame b = .ok (some (frame, k)))
      (h : FrameCloses s frame) : FramesClose s b
  | later {s : ConnState} {b : Bytes} {frame : WsFrame} {k : Nat} (hp : parseFrame b = .ok (some (frame, k)))
      (hgo : ¬ FrameCloses s frame) (h : FramesClose (afterFrame s frame) (b.drop k)) : FramesClose s b

/-- A complete request that is not a GET or has no key. -/
def Refused (env : Env) (request : Bytes) : Prop :=
  (find request crlfcrlf 0).isSome = true ∧ ¬ (isHttpRequest request = true ∧ (handleHandshake env request).isSome = true)

/-- The session closes when `data` comes behind what the record has. -/
def Closes (env : Env) (conn : Connection) (data : Bytes) : Prop :=
  match conn.state with
  | .handshakingWs => Refused env (conn.recvBuffer ++ data)
  | .negotiating => FramesClose .negotiating (conn.recvBuffer ++ data)
  | .streaming => FramesClose .streaming (conn.recvBuffer ++ data)
  | _ => False

theorem stepState_closes {s : ConnState} {frame : WsFrame} : .close ∈ (stepState s frame).2.1 ↔ FrameCloses s frame := by
  unfold stepState handleFrame FrameCloses
  cases frame.opcode with
  | close => simp
  | text =>
    by_cases hn : s = .negotiating
    · simp only [hn, if_true, handleNegotiation, rejectsOffer]
      by_cases ht : extractJsonString frame.payload "type" = ascii "media-answer"
      · cases ha : extractJsonBool frame.payload "accepted" false <;> simp [ht]
      · simp [ht]
    · simp [hn]
  | _ => simp

theorem stepState_after {s : ConnState} {frame : WsFrame} (h : ¬ FrameCloses s frame) :
    (stepState s frame).1 = afterFrame s frame ∧ (stepState s frame).2.2 = false := by
  unfold FrameCloses at h
  unfold stepState handleFrame afterFrame
  cases ho : frame.opcode with
  | close => exact absurd (.inl ho) h
  | text =>
    by_cases hn : s = .negotiating
    · simp only [hn, if_true, handleNegotiation, acceptsOffer, true_and]
      by_cases ht : extractJsonString frame.payload "type" = ascii "media-answer"
      · cases ha : extractJsonBool frame.payload "accepted" false with
        | true => simp [ht]
        | false => exact absurd (.inr ⟨ho, hn, by simp [rejectsOffer, ht, ha]⟩) h
      · simp [ht]
    · simp [hn]
  | _ => simp

theorem loop_closes (s : ConnState) (b : Bytes) : .close ∈ (loop s b).outs ↔ FramesClose s b := by
  constructor
  · induction b using Framing.Parser.frames_induction (P := frameParser) generalizing s with
    | h b ih =>
      intro hclose
      by_cases hne : b = []
      · subst hne
        cases hclose
      cases hp : parseFrame b with
      | error e => rw [loop, Framing.Parser.drain_error hne hp] at hclose; cases hclose
      | ok o =>
        cases o with
        | none => rw [loop, Framing.Parser.drain_none hne hp] at hclose; cases hclose
        | some fk =>
          by_cases hc : FrameCloses s fk.1
          · exact .here hp hc
          · obtain ⟨hst, hgo⟩ := stepState_after hc
            rw [loop, Framing.Parser.drain_go hne hp hgo] at hclose
            rcases List.mem_append.mp hclose with h | h
            · exact absurd (stepState_closes.mp h) hc
            · exact .later hp hc (hst ▸ ih fk.1 fk.2 hp _ h)
  · intro h
    induction h with
    | @here s b frame k hp h =>
      have hne : b ≠ [] := by rintro rfl; cases hp
      have hclose := stepState_closes.mpr h
      cases hh : (stepState s frame).2.2 with
      | true => rw [loop, Framing.Parser.drain_halt hne hp hh]; exact hclose
      | false => rw [loop, Framing.Parser.drain_go hne hp hh]; exact List.mem_append_left _ hclose
    | @later s b frame k hp hgo _ ih =>
      have hne : b ≠ [] := by rintro rfl; cases hp
      obtain ⟨hst, hh⟩ := stepState_after hgo
      rw [loop, Framing.Parser.drain_go hne hp hh, hst]
      exact List.mem_append_right _ ih

theorem handleUpgrade_closes (env : Env) (now : Int) (conn : Connection) :
    .close ∈ (handleUpgrade env now conn).outs ↔ Refused env conn.recvBuffer := by
  unfold handleUpgrade Refused
  cases hf : find conn.recvBuffer crlfcrlf 0 with
  | none => simp
  | some i =>
    cases hget : isHttpRequest conn.recvBuffer with
    | false => simp
    | true =>
      cases hh : handleHandshake env conn.recvBuffer with
      | none => simp
      | some text => simp [sendMediaOffer]

/-- **Closing data.** -/
theorem closes_iff (env : Env) (now : Int) (conn : Connection) (data : Bytes) :
    .close ∈ (handleData env now conn data).outs ↔ Closes env conn data := by
  unfold Closes
  cases hst : conn.state with
  | handshakingWs =>
    have h : handleData env now conn data = handleUpgrade env now { conn with recvBuffer := conn.recvBuffer ++ data } := by
      unfold handleData
      simp only [hst]
    rw [h, handleUpgrade_closes]
  | negotiating => rw [handleData_reads (.inl hst), handleWebSocketFrame_eq, loop_closes, hst]
  | streaming => rw [handleData_reads (.inr hst), handleWebSocketFrame_eq, loop_closes, hst]
  | _ =>
    unfold handleData
    simp [hst]

end WebPlayer.L3.Session
