import WebPlayer.L3Protocol.FrameLoop

/-!
# Chunks of the decrypted stream

An upgrade request and then frames, each cut into chunks for `HandleData` in
any way. The frame loop on one buffer (`stepState`, drained) is the
reference; a run over chunks follows it up to the first close, after which
the loop may go on in the same chunk but not in the next.

`chunking_independent`: two ways of cutting give the same outputs up to the
first close, the same state and, if nothing closed, the same remainder.
-/
namespace WebPlayer.L3.Session
open WebPlayer.Core WebPlayer.L1.WebSocket

/-! ## Runs over chunks -/

/-- The calls of `HandleData`, each at its time; an exception ends the
program. -/
def feedAll (env : Env) (conn : Connection) : List (Int × Bytes) → Handled
  | [] => { conn, outs := [] }
  | (now, data) :: rest =>
    let h := handleData env now conn data
    if h.threw.isSome then h
    else
      let r := feedAll env h.conn rest
      { r with outs := h.outs ++ r.outs }

/-- The bytes of a list of chunks. -/
def stream (chunks : List (Int × Bytes)) : Bytes := (chunks.map (·.2)).flatten

/-- Up to and with the first close. -/
def uptoClose : List Out → List Out
  | [] => []
  | .close :: _ => [.close]
  | o :: outs => o :: uptoClose outs

/-- `b` is what is left of `F` at a frame boundary. -/
inductive Boundary (F : Bytes) : Bytes → Prop where
  | start : Boundary F F
  | next {b : Bytes} (h : Boundary F b) (hwhole : headerLength b + declaredLength b ≤ b.length) :
      Boundary F (b.drop (headerLength b + declaredLength b))

/-- Every frame of `F` declares a length below `2^63`. -/
def DeclaresBelow (F : Bytes) : Prop := ∀ b, Boundary F b → headerLength b ≤ b.length → declaredLength b < 2 ^ 63

theorem uptoClose_append {o₁ : List Out} (h : .close ∈ o₁) (o₂ : List Out) :
    uptoClose (o₁ ++ o₂) = uptoClose o₁ := by
  induction o₁ with
  | nil => cases h
  | cons o o₁ ih =>
    cases o with
    | close => rfl
    | _ =>
      rw [List.cons_append, uptoClose, uptoClose, ih (by simpa using h)]
      all_goals nofun

/-! ## The frame loop on states -/

/-- `handleFrame` on the state alone. -/
def stepState (s : ConnState) (frame : WsFrame) : ConnState × List Out × Bool :=
  let r := handleFrame { fd := 0, id := 0, state := s } frame
  (r.1.state, r.2)

theorem handleNegotiation_eq (conn : Connection) (msg : Bytes) : handleNegotiation conn msg =
    ({ conn with state := (handleNegotiation { fd := 0, id := 0, state := conn.state } msg).1.state },
      (handleNegotiation { fd := 0, id := 0, state := conn.state } msg).2) := by
  unfold handleNegotiation
  split
  · rfl
  · split <;> rfl

theorem handleFrame_eq (conn : Connection) (frame : WsFrame) : handleFrame conn frame =
    ({ conn with state := (stepState conn.state frame).1 }, (stepState conn.state frame).2) := by
  unfold stepState handleFrame
  cases frame.opcode with
  | text =>
    by_cases hn : conn.state = .negotiating
    · simp only [hn, if_true]
      rw [handleNegotiation_eq, hn]
    · simp only [hn, if_false]
  | _ => rfl

theorem stepState_eq (conn : Connection) (frame : WsFrame) :
    ((handleFrame conn frame).1.state, (handleFrame conn frame).2) = stepState conn.state frame := by
  rw [handleFrame_eq]

/-- The states in which frames are read. -/
def ReadsFrames (s : ConnState) : Prop := s = .negotiating ∨ s = .streaming

/-- What calls of the handler do to the state: a close leaves it closing, and
closing stays. -/
structure Moves (s : ConnState) (outs : List Out) (s' : ConnState) : Prop where
  closes : .close ∈ outs → s' = .closing
  stays : s = .closing → s' = .closing
  reads : ReadsFrames s → .close ∉ outs → ReadsFrames s'

theorem moves_trans {s₁ s₂ s₃ : ConnState} {o₁ o₂ : List Out} (h₁ : Moves s₁ o₁ s₂) (h₂ : Moves s₂ o₂ s₃) :
    Moves s₁ (o₁ ++ o₂) s₃ where
  closes h := by
    rcases List.mem_append.mp h with h | h
    · exact h₂.stays (h₁.closes h)
    · exact h₂.closes h
  stays h := h₂.stays (h₁.stays h)
  reads h hno := h₂.reads (h₁.reads h fun h' => hno (List.mem_append_left _ h'))
    fun h' => hno (List.mem_append_right _ h')

theorem moves_step (s : ConnState) (frame : WsFrame) :
    Moves s (stepState s frame).2.1 (stepState s frame).1 := by
  unfold stepState handleFrame
  cases frame.opcode with
  | text =>
    by_cases hn : s = .negotiating
    · subst hn
      simp only [if_true, handleNegotiation]
      split
      · exact ⟨by simp, nofun, fun h _ => h⟩
      · split
        · exact ⟨by simp, nofun, fun _ _ => .inr rfl⟩
        · exact ⟨fun _ => rfl, nofun, fun _ h => absurd (by simp) h⟩
    · simp only [hn, if_false]
      exact ⟨by simp, id, fun h _ => h⟩
  | close => exact ⟨fun _ => rfl, fun _ => rfl, fun _ h => absurd (by simp) h⟩
  | _ => exact ⟨by simp, id, fun h _ => h⟩

theorem halts_closes {s : ConnState} {frame : WsFrame} (h : (stepState s frame).2.2 = true) :
    .close ∈ (stepState s frame).2.1 := by
  unfold stepState handleFrame at h ⊢
  cases ho : frame.opcode with
  | close => simp
  | text =>
    simp only [ho] at h
    by_cases hn : s = .negotiating
    · rw [if_pos hn] at h
      cases h
    · rw [if_neg hn] at h
      cases h
  | _ =>
    simp only [ho] at h
    cases h

/-- The reference: the loop over `P` from a state. -/
abbrev loop (s : ConnState) (P : Bytes) : Framing.Drained ConnState UInt8 Out WsFault :=
  frameParser.drain stepState s P

theorem loop_moves (s : ConnState) (P : Bytes) : Moves s (loop s P).outs (loop s P).state :=
  Framing.Parser.drain_rel (R := Moves) (fun _ => ⟨by simp, id, fun h _ => h⟩) moves_step
    (fun _ _ _ _ _ => moves_trans) s P

/-- Chunks, for the reference. -/
theorem loop_append (s : ConnState) (a b : Bytes) :
    ((loop s a).ending = .starved →
      loop s (a ++ b) = (loop (loop s a).state ((loop s a).rest ++ b)).after (loop s a).outs) ∧
    ((loop s a).ending = .halted → loop s (a ++ b) = { loop s a with rest := (loop s a).rest ++ b }) :=
  Framing.Parser.drain_append s a b

theorem loop_halted {s : ConnState} {P : Bytes} (h : (loop s P).ending = .halted) : .close ∈ (loop s P).outs := by
  obtain ⟨s₁, frame, hh, hsuf⟩ := Framing.Parser.halted_outs h
  exact hsuf.subset (halts_closes hh)

/-- The handlers touch nothing of the record but its state. -/
theorem loop_record (conn : Connection) (P : Bytes) :
    (frameParser.drain handleFrame conn P).state =
      { conn with state := (frameParser.drain handleFrame conn P).state.state } := by
  refine Framing.Parser.drain_rel (P := frameParser) (R := fun c _ c' => c' = { c with state := c'.state })
    (fun _ => rfl) (fun c frame => ?_) ?_ conn P
  · rw [handleFrame_eq]
  · intro c₁ c₂ c₃ _ _ h₁ h₂
    rw [h₂, h₁]

/-- `HandleWebSocketFrame` is the loop on the state. -/
theorem handleWebSocketFrame_eq (conn : Connection) : handleWebSocketFrame conn =
    { conn := { conn with state := (loop conn.state conn.recvBuffer).state
                          recvBuffer := (loop conn.state conn.recvBuffer).rest }
      outs := (loop conn.state conn.recvBuffer).outs
      threw := thrown (loop conn.state conn.recvBuffer).ending } := by
  have hmap : loop conn.state conn.recvBuffer = _ :=
    Framing.Parser.drain_map (·.state) stepState_eq conn conn.recvBuffer
  rw [hmap, handleWebSocketFrame]
  simp only
  rw [loop_record]

/-! ## No exception -/

theorem head_boundary {F P b t : Bytes} {s s₁ : ConnState} (hP : Boundary F (P ++ t))
    (h : frameParser.Head stepState s P s₁ b) : Boundary F (b ++ t) := by
  induction h with
  | start => exact hP
  | @next s s₁ buf b frame k _ hp _ _ ih =>
    obtain ⟨hle, -, -, hk⟩ := parseFrame_some (frameParser.stable t hp)
    refine ih ?_
    have hdrop : buf.drop k ++ t = (buf ++ t).drop k := (List.drop_append_of_le_length (frameParser.le hp)).symm
    rw [hdrop, hk]
    exact .next hP hle

/-- The loop over any prefix of such a stream does not throw. -/
theorem loop_returns {P t : Bytes} (h : DeclaresBelow (P ++ t)) (s : ConnState) (e : WsFault) :
    (loop s P).ending ≠ .threw e := by
  intro he
  obtain ⟨s₁, b, e', hhead, -, hthrow⟩ := (Framing.Parser.threw_iff s P).mp ⟨e, he⟩
  have hthrow : parseFrame b = .error e' := hthrow
  rw [parseFrame_eq] at hthrow
  by_cases hh : b.length < headerLength b
  · rw [if_pos hh] at hthrow
    cases hthrow
  -- the header is complete, so it declares in `b` what it declares in the stream
  have hpre := prefixLength_bounds b
  have hdec := h _ (head_boundary .start hhead) (by
    rw [headerLength_append (Nat.not_lt.mp hh), List.length_append]
    omega)
  rw [declaredLength_append (Nat.not_lt.mp hh)] at hdec
  rw [if_neg hh, if_neg (by omega)] at hthrow
  split at hthrow
  · cases hthrow
  · rw [if_neg (by simp only [maxVector]; omega)] at hthrow
    cases hthrow

/-! ## The run against the reference -/

/-- A connection that has put out `outs` since `s`, against the reference `D`
on the bytes received since then. -/
structure Follows (D : Framing.Drained ConnState UInt8 Out WsFault) (conn : Connection) (outs : List Out) : Prop where
  upto : uptoClose outs = uptoClose D.outs
  state : conn.state = D.state
  going : .close ∉ D.outs → outs = D.outs ∧ conn.recvBuffer = D.rest ∧ D.ending = .starved

theorem handleData_reads {conn : Connection} (h : ReadsFrames conn.state) (env : Env) (now : Int) (data : Bytes) :
    handleData env now conn data = handleWebSocketFrame { conn with recvBuffer := conn.recvBuffer ++ data } := by
  unfold handleData
  rcases h with h | h
  · simp only [h]
  · simp only [h]

theorem handleData_closing {conn : Connection} (h : conn.state = .closing) (env : Env) (now : Int) (data : Bytes) :
    handleData env now conn data = { conn := { conn with recvBuffer := conn.recvBuffer ++ data }, outs := [] } := by
  unfold handleData
  simp only [h]

/-- A close in the reference stands, whatever follows. -/
theorem closed_append {s : ConnState} {P : Bytes} (hclose : .close ∈ (loop s P).outs)
    (hret : ∀ e, (loop s P).ending ≠ .threw e) (d : Bytes) :
    uptoClose (loop s (P ++ d)).outs = uptoClose (loop s P).outs ∧ .close ∈ (loop s (P ++ d)).outs := by
  cases he : (loop s P).ending with
  | starved =>
    rw [(loop_append s P d).1 he]
    exact ⟨uptoClose_append hclose _, List.mem_append_left _ hclose⟩
  | halted =>
    rw [(loop_append s P d).2 he]
    exact ⟨rfl, hclose⟩
  | threw e => exact absurd he (hret e)

/-- **One chunk.** -/
theorem follows_step {s : ConnState} {P d t : Bytes} {conn : Connection} {outs : List Out} (env : Env) (now : Int)
    (hs : ReadsFrames s) (hF : DeclaresBelow (P ++ d ++ t)) (h : Follows (loop s P) conn outs) :
    (handleData env now conn d).threw = none ∧
      Follows (loop s (P ++ d)) (handleData env now conn d).conn (outs ++ (handleData env now conn d).outs) := by
  have hret : ∀ e, (loop s P).ending ≠ .threw e := loop_returns (t := d ++ t) (by rwa [← List.append_assoc]) s
  have hret' : ∀ e, (loop s (P ++ d)).ending ≠ .threw e := loop_returns hF s
  by_cases hclose : .close ∈ (loop s P).outs
  · -- the state is closing, and the chunk is only buffered
    obtain ⟨hupto, hclose'⟩ := closed_append hclose hret d
    have hst : conn.state = .closing := h.state.trans ((loop_moves s P).closes hclose)
    rw [handleData_closing hst, List.append_nil]
    exact ⟨rfl, by rw [hupto, h.upto], hst.trans ((loop_moves s (P ++ d)).closes hclose').symm,
      fun hno => absurd hclose' hno⟩
  · obtain ⟨houts, hbuf, hend⟩ := h.going hclose
    have happ := (loop_append s P d).1 hend
    have hreads : ReadsFrames conn.state := h.state ▸ (loop_moves s P).reads hs hclose
    rw [handleData_reads hreads, handleWebSocketFrame_eq]
    simp only [h.state, hbuf]
    rw [happ] at hret' ⊢
    have hthrew : thrown (loop (loop s P).state ((loop s P).rest ++ d)).ending = none := by
      cases he : (loop (loop s P).state ((loop s P).rest ++ d)).ending with
      | threw e => exact absurd he (hret' e)
      | _ => rfl
    refine ⟨hthrew, by rw [houts]; rfl, rfl, fun hno => ⟨by rw [houts]; rfl, rfl, ?_⟩⟩
    -- a loop that halts has closed
    cases he : (loop (loop s P).state ((loop s P).rest ++ d)).ending with
    | starved => exact he
    | halted => exact absurd (List.mem_append_right _ (loop_halted he)) hno
    | threw e => exact absurd he (hret' e)

/-- Chunks of frames. -/
theorem follows_run {s : ConnState} (env : Env) (hs : ReadsFrames s) (chunks : List (Int × Bytes)) :
    ∀ {P : Bytes} {conn : Connection} {outs : List Out}, DeclaresBelow (P ++ stream chunks) →
      Follows (loop s P) conn outs →
      (feedAll env conn chunks).threw = none ∧
        Follows (loop s (P ++ stream chunks)) (feedAll env conn chunks).conn (outs ++ (feedAll env conn chunks).outs) := by
  induction chunks with
  | nil =>
    intro P conn outs _ h
    simpa [feedAll, stream] using h
  | cons chunk chunks ih =>
    obtain ⟨now, d⟩ := chunk
    intro P conn outs hF h
    have hstream : P ++ stream ((now, d) :: chunks) = P ++ d ++ stream chunks := by simp [stream]
    rw [hstream] at hF ⊢
    obtain ⟨hret, hstep⟩ := follows_step env now hs hF h
    obtain ⟨hret', hrun⟩ := ih hF hstep
    simp only [feedAll, hret, Option.isSome_none, Bool.false_eq_true, if_false]
    exact ⟨hret', by rw [← List.append_assoc outs]; exact hrun⟩

/-! ## The upgrade request -/

/-- What an accepted request puts out. -/
def upgradeOuts (env : Env) (R : Bytes) : List Out :=
  [.send (.response ((handleHandshake env R).getD [])), .setState .connected,
    .send (.frame .text (buildMediaOffer env)), .setState .negotiating]

/-- A request that `HandleHandshake` accepts, with its first CRLFCRLF at its
end. -/
structure Accepted (env : Env) (R : Bytes) : Prop where
  ends : find R crlfcrlf 0 = some (R.length - 4)
  get : isHttpRequest R = true
  upgrades : (handleHandshake env R).isSome = true

/-- Before the last byte there is no CRLFCRLF. -/
theorem find_prefix_none {env : Env} {Q t : Bytes} (h : Accepted env (Q ++ t)) (ht : t ≠ []) :
    find Q crlfcrlf 0 = none := by
  have hends := h.ends
  have hlen : 0 < t.length := List.length_pos_iff.mpr ht
  rw [find, if_pos (Nat.zero_le _), Option.map_eq_none_iff, List.drop_zero]
  cases hq : findFirst crlfcrlf Q with
  | none => rfl
  | some i =>
    have hle := findFirst_le hq
    rw [find, if_pos (Nat.zero_le _), List.drop_zero, findFirst_append hq, List.length_append] at hends
    simp only [Option.map_some, Option.some.injEq, crlfcrlf, List.length_cons, List.length_nil] at hends hle
    omega

theorem handleUpgrade_accepted {env : Env} {conn : Connection} (now : Int) (h : Accepted env conn.recvBuffer) :
    handleUpgrade env now conn =
      { conn := { conn with recvBuffer := [], state := .negotiating, negotiateOfferTime := now }
        outs := upgradeOuts env conn.recvBuffer } := by
  obtain ⟨text, htext⟩ := Option.isSome_iff_exists.mp h.upgrades
  rw [handleUpgrade, h.ends, h.get, upgradeOuts, htext]
  rfl

/-- **The upgrade**, in whichever chunk it is completed, and the frames
behind it. -/
theorem upgrade_run {env : Env} {R : Bytes} (hR : Accepted env R) {fs : List (Int × Bytes)}
    (hF : DeclaresBelow (stream fs)) (rs : List (Int × Bytes)) :
    ∀ {conn : Connection}, conn.state = .handshakingWs → conn.recvBuffer ++ stream rs = R → conn.recvBuffer ≠ R →
      (feedAll env conn (rs ++ fs)).threw = none ∧
        ∃ outs, (feedAll env conn (rs ++ fs)).outs = upgradeOuts env R ++ outs ∧
          Follows (loop .negotiating (stream fs)) (feedAll env conn (rs ++ fs)).conn outs := by
  induction rs with
  | nil =>
    intro conn _ hall hne
    exact absurd (by simpa [stream] using hall) hne
  | cons chunk rs ih =>
    obtain ⟨now, d⟩ := chunk
    intro conn hst hall hne
    have hall : (conn.recvBuffer ++ d) ++ stream rs = R := by simpa [stream] using hall
    have hdata : handleData env now conn d = handleUpgrade env now { conn with recvBuffer := conn.recvBuffer ++ d } := by
      unfold handleData
      simp only [hst]
    rw [List.cons_append, feedAll]
    simp only [hdata]
    by_cases hdone : conn.recvBuffer ++ d = R
    · have hnil : stream rs = [] := by simpa [hdone] using hall
      have hfs : stream (rs ++ fs) = stream fs := by
        rw [stream, List.map_append, List.flatten_append]
        exact (congrArg (· ++ stream fs) hnil)
      rw [handleUpgrade_accepted now (by rw [hdone]; exact hR)]
      simp only [Option.isSome_none, Bool.false_eq_true, if_false, hdone]
      obtain ⟨hret, hrun⟩ := follows_run (P := []) env (.inl rfl) (rs ++ fs) (by rwa [hfs])
        (show Follows (loop .negotiating []) { conn with recvBuffer := [], state := .negotiating, negotiateOfferTime := now } []
          from ⟨rfl, rfl, fun _ => ⟨rfl, rfl, rfl⟩⟩)
      rw [hfs] at hrun
      exact ⟨hret, _, rfl, hrun⟩
    · have hne' : stream rs ≠ [] := by
        intro h0
        rw [h0, List.append_nil] at hall
        exact hdone hall
      have hnone := find_prefix_none (hall ▸ hR) hne'
      have hup : handleUpgrade env now { conn with recvBuffer := conn.recvBuffer ++ d } =
          { conn := { conn with recvBuffer := conn.recvBuffer ++ d }, outs := [] } := by
        rw [handleUpgrade, hnone]
        rfl
      rw [hup]
      exact ih hst hall hdone

theorem mem_uptoClose {outs : List Out} : .close ∈ uptoClose outs ↔ .close ∈ outs := by
  induction outs with
  | nil => simp [uptoClose]
  | cons o outs ih => cases o <;> simp [uptoClose, ih]

/-- **Chunking.** Cut the request and the frames behind it in two ways: the
responses and the frames dispatched are the same up to the first close, and
so is the state; if nothing closed, so is what is left to parse. -/
theorem chunking_independent (env : Env) (fd : Int) (id : Nat) {R F : Bytes} (hR : Accepted env R)
    (hF : DeclaresBelow F) {rs₁ fs₁ rs₂ fs₂ : List (Int × Bytes)} (hrs₁ : stream rs₁ = R) (hfs₁ : stream fs₁ = F)
    (hrs₂ : stream rs₂ = R) (hfs₂ : stream fs₂ = F) :
    let h₁ := feedAll env { fd, id } (rs₁ ++ fs₁)
    let h₂ := feedAll env { fd, id } (rs₂ ++ fs₂)
    h₁.threw = none ∧ h₂.threw = none ∧ uptoClose h₁.outs = uptoClose h₂.outs ∧ h₁.conn.state = h₂.conn.state ∧
      (.close ∉ h₁.outs → h₁.outs = h₂.outs ∧ h₁.conn.recvBuffer = h₂.conn.recvBuffer) := by
  have hne : ([] : Bytes) ≠ R := by
    rintro rfl
    cases hR.get
  obtain ⟨hret₁, o₁, ho₁, hf₁⟩ := @upgrade_run env R hR fs₁ (hfs₁ ▸ hF) rs₁ { fd, id } rfl hrs₁ hne
  obtain ⟨hret₂, o₂, ho₂, hf₂⟩ := @upgrade_run env R hR fs₂ (hfs₂ ▸ hF) rs₂ { fd, id } rfl hrs₂ hne
  rw [hfs₁] at hf₁
  rw [hfs₂] at hf₂
  refine ⟨hret₁, hret₂, ?_, hf₁.state.trans hf₂.state.symm, fun hno => ?_⟩
  · rw [ho₁, ho₂]
    simp only [upgradeOuts, List.cons_append, List.nil_append, uptoClose, hf₁.upto, hf₂.upto]
  · have hopen : .close ∉ (loop .negotiating F).outs := by
      intro hclose
      rw [ho₁] at hno
      exact hno (List.mem_append_right _ (mem_uptoClose.mp (hf₁.upto ▸ mem_uptoClose.mpr hclose)))
    obtain ⟨e₁, b₁, -⟩ := hf₁.going hopen
    obtain ⟨e₂, b₂, -⟩ := hf₂.going hopen
    exact ⟨by rw [ho₁, ho₂, e₁, e₂], b₁.trans b₂.symm⟩

/-- A server without audio, with short digests. -/
def sampleEnv : Env where
  sha1 data := data.take 1
  base64Encode data := data
  isH265 := false
  isMp4Mode := false
  framerate := ascii "25.00"
  audio := { codecName := [], sampleRate := 0, channels := 0, present := false }

def sampleRequest : Bytes := ascii "GET / HTTP/1.1\r\nSec-WebSocket-Key: a\r\n\r\n"

/-- A masked TEXT frame and the first byte of another. -/
def sampleFrames : Bytes := [0x81, 0x81, 0x01, 0x02, 0x03, 0x04, 0x60, 0x88]

theorem sampleFrames_below : DeclaresBelow sampleFrames := by
  have hall : ∀ b, Boundary sampleFrames b → b = sampleFrames ∨ b = [0x88] := by
    intro b hb
    induction hb with
    | start => exact .inl rfl
    | next _ hwhole ih =>
      rcases ih with rfl | rfl
      · exact .inr (by decide)
      · exact absurd hwhole (by decide)
  intro b hb _
  rcases hall b hb with rfl | rfl <;> decide

/-- The request and the frames in one piece each, and in two. -/
theorem chunking_independent_sample :
    (feedAll sampleEnv { fd := 7, id := 1 } [(0, sampleRequest), (1, sampleFrames)]).outs =
      (feedAll sampleEnv { fd := 7, id := 1 } [(0, sampleRequest.take 9), (0, sampleRequest.drop 9),
        (1, sampleFrames.take 3), (2, sampleFrames.drop 3)]).outs := by
  have hR : Accepted sampleEnv sampleRequest := ⟨by decide, by decide, by decide⟩
  have hrs₁ : stream [(0, sampleRequest)] = sampleRequest := by decide
  have hfs₁ : stream [(1, sampleFrames)] = sampleFrames := by decide
  have hrs₂ : stream [(0, sampleRequest.take 9), (0, sampleRequest.drop 9)] = sampleRequest := by decide
  have hfs₂ : stream [(1, sampleFrames.take 3), (2, sampleFrames.drop 3)] = sampleFrames := by decide
  exact ((chunking_independent sampleEnv 7 1 hR sampleFrames_below hrs₁ hfs₁ hrs₂ hfs₂).2.2.2.2 (by decide)).1

end WebPlayer.L3.Session
