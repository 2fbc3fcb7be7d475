import WebPlayer.L4App.StreamInstance

/-!
# Superseded sockets

After `disconnect` and another `connect`, events of the old socket still
arrive, and its suspended handlers still go on. They act on the fields of the
new connection.

* `superseded_inert_iff`: the runs in which they are inert, and the status
  is `connected` just as long as the current socket has negotiated and is not
  closed, are the runs whose steps are all `Harmless`.
-/
namespace WebPlayer.L4.Stream
open WebPlayer.Core StreamInstance

/-! ## What should hold -/

/-- The socket that a step belongs to. -/
def Event.socket (s : StreamInstance) : Event → Option Nat
  | .onopen k | .peerCloses k | .onmessage k .. | .onerror k | .onclose k => some k
  | .resume i _ => s.handlers[i]?.map Handler.socket
  | .connect | .disconnect | .resumeQueue .. => none

/-- Nothing of the current connection is changed, and nothing is sent on it. -/
structure Inert (s s' : StreamInstance) : Prop where
  status : s'.status = s.status
  processing : s'.processing = s.processing
  decoder : s'.decoder = s.decoder
  sent : s'.sent = s.sent

/-- The current socket has completed its own negotiation and is not closed. -/
def Negotiated (s : StreamInstance) : Prop :=
  ∃ k, s.ws = some k ∧ (s.sockets k).negotiated = true ∧ (s.sockets k).closed = false

def Consistent (s : StreamInstance) : Prop := s.status = .connected ↔ Negotiated s

/-- A step of a superseded socket is inert, and the status is right behind
any step. -/
def Holds (s : StreamInstance) (e : Event) : Prop :=
  ∀ s', step s e = some s' → (∀ k, e.socket s = some k → s.ws ≠ some k → Inert s s') ∧ Consistent s'

/-! ## When it does -/

/-- What is sent now is lost. -/
def Discards (s : StreamInstance) : Prop := ∀ k, s.ws = some k → (s.sockets k).readyState ≠ .OPEN

/-- The handler waits again: for the audio decoder, or behind what it has
posted. -/
def suspends (s : StreamInstance) (h : Handler) (ok : Bool) : Bool :=
  match h.await with
  | .initDecoder audioStream => ok && (audioStream.bind audioConfig).isSome && s.decoder.isSome
  | .initAudio .. => ok
  | .posted => false

/-- It posts an audio configuration to the decoder that there is now. -/
def reconfigures (s : StreamInstance) (h : Handler) (ok : Bool) : Prop :=
  ∃ d config, ok = true ∧ h.await = .initAudio d.id config ∧ s.decoder = some d

/-- A handler that finishes accepts. -/
def accepts (h : Handler) (ok : Bool) : Bool := ok || h.await = .posted

/-- A handler of the current socket that finishes must not do so behind its
close event. One of a superseded socket must not configure the decoder, and
must not finish, unless its answer is lost and the status is as it would set
it. -/
def MayResume (s : StreamInstance) (h : Handler) (ok : Bool) : Prop :=
  if s.ws = some h.socket then suspends s h ok = true ∨ (accepts h ok = true → (s.sockets h.socket).closed = false)
  else if suspends s h ok = true then ¬ reconfigures s h ok
  else s.canSend = false ∨
    (Discards s ∧ if accepts h ok then s.status = .connected else (s.sockets h.socket).settled = true ∨ s.status = .error)

/-- Of a superseded socket: no offer for which a decoder is made, no data that
starts `processQueue`, no error before its promise is settled, no close event
unless the instance is disconnected and idle. -/
def Harmless (s : StreamInstance) : Event → Prop
  | .onmessage k (.text offer) created =>
    s.ws = some k ∨ (s.sockets k).negotiated = true ∨ offer = none ∨ created = false
  | .onmessage k (.binary _) _ => s.ws = some k ∨ s.processing = true ∨ s.decoder = none
  | .onerror k => s.ws = some k ∨ (s.sockets k).settled = true ∨ s.status = .error
  | .onclose k => s.ws = some k ∨ (s.status = .disconnected ∧ s.processing = false)
  | .resume i ok => ∀ h, s.handlers[i]? = some h → MayResume s h ok
  | _ => True

/-! ## What a socket can touch -/

structure Socket.Ok (x : Socket) : Prop where
  closed : x.closed = true → x.readyState = .CLOSED
  negotiated : x.negotiated = true → x.settled = true

structure Ok (s : StreamInstance) : Prop where
  sockets : ∀ k, (s.sockets k).Ok
  decoder : ∀ id, s.decoder.map (·.id) = some id → id < s.decoders

/-- Only the closure of socket `k`, and fields that belong to none. -/
structure Touches (k : Nat) (s s' : StreamInstance) : Prop where
  ws : s'.ws = s.ws
  others : ∀ j, j ≠ k → s'.sockets j = s.sockets j
  ok : Ok s → Ok s'

variable {s s' s₁ : StreamInstance} {k : Nat}

theorem Ok.of_same (hok : Ok s) (hsockets : s'.sockets = s.sockets)
    (hdecoder : s'.decoder.map (·.id) = s.decoder.map (·.id)) (hdecoders : s'.decoders = s.decoders) : Ok s' where
  sockets := hsockets ▸ hok.sockets
  decoder := hdecoders ▸ hdecoder ▸ hok.decoder

theorem Touches.of_same (hws : s'.ws = s.ws) (hsockets : s'.sockets = s.sockets)
    (hdecoder : s'.decoder.map (·.id) = s.decoder.map (·.id)) (hdecoders : s'.decoders = s.decoders) :
    Touches k s s' where
  ws := hws
  others _ _ := by rw [hsockets]
  ok hok := hok.of_same hsockets hdecoder hdecoders

theorem Touches.trans (h : Touches k s s₁) (h' : Touches k s₁ s') : Touches k s s' where
  ws := h'.ws.trans h.ws
  others j hj := (h'.others j hj).trans (h.others j hj)
  ok hok := h'.ok (h.ok hok)

theorem Touches.updateStatus (h : Touches k s s') (status : StreamStatus) : Touches k s (s'.updateStatus status) :=
  h.trans (.of_same rfl rfl rfl rfl)

theorem updateSocket_same (s : StreamInstance) (k : Nat) (f : Socket → Socket) :
    (s.updateSocket k f).sockets k = f (s.sockets k) := if_pos rfl

theorem updateSocket_other (s : StreamInstance) {j : Nat} (f : Socket → Socket) (hj : j ≠ k) :
    (s.updateSocket k f).sockets j = s.sockets j := if_neg hj

/-- An update that is not seen in the status. -/
theorem updateSocket_flags (s : StreamInstance) (k : Nat) {f : Socket → Socket}
    (hneg : (f (s.sockets k)).negotiated = (s.sockets k).negotiated) (hclosed : (f (s.sockets k)).closed = (s.sockets k).closed)
    (j : Nat) : ((s.updateSocket k f).sockets j).negotiated = (s.sockets j).negotiated ∧
      ((s.updateSocket k f).sockets j).closed = (s.sockets j).closed := by
  by_cases hj : j = k
  · subst hj
    rw [updateSocket_same]
    exact ⟨hneg, hclosed⟩
  · rw [updateSocket_other s f hj]
    exact ⟨rfl, rfl⟩

theorem updateSocket_touches {f : Socket → Socket} (hf : (s.sockets k).Ok → (f (s.sockets k)).Ok) :
    Touches k s (s.updateSocket k f) where
  ws := rfl
  others _ hj := updateSocket_other s f hj
  ok hok := by
    refine ⟨fun j => ?_, hok.decoder⟩
    by_cases hj : j = k
    · subst hj
      rw [updateSocket_same]
      exact hf (hok.sockets j)
    · rw [updateSocket_other s f hj]
      exact hok.sockets j

theorem send_touches (answer : Answer) : Touches k s (s.send answer) := by
  unfold send
  split
  · exact .of_same rfl rfl rfl rfl
  · split
    · exact .of_same rfl rfl rfl rfl
    · exact .of_same rfl rfl rfl rfl

theorem reject_touches : Touches k s (s.reject k) := by
  unfold reject
  split
  · exact .of_same rfl rfl rfl rfl
  · exact (updateSocket_touches fun hok => ⟨hok.closed, fun _ => rfl⟩).updateStatus _

theorem refuse_touches : Touches k s (s.refuse k) := by
  unfold refuse
  split
  · exact (send_touches .rejected).trans reject_touches
  · exact .of_same rfl rfl rfl rfl

theorem accept_touches : Touches k s (s.accept k) := by
  unfold accept
  split
  · exact ((send_touches .accepted).trans (updateSocket_touches fun hok => ⟨hok.closed, fun _ => rfl⟩)).updateStatus _
  · exact refuse_touches

theorem resume_touches (h : Handler) (ok : Bool) : Touches h.socket s (s.resume h ok) := by
  unfold resume
  split
  · unfold StreamInstance.initAudio
    split
    · exact .of_same rfl rfl rfl rfl
    · exact accept_touches
  · exact .of_same rfl rfl (postAudio_id ..) rfl
  · exact accept_touches
  · exact refuse_touches

/-- Only the queue, its runs and `processing`. -/
structure QueueOnly (s s' : StreamInstance) : Prop where
  ws : s'.ws = s.ws
  sockets : s'.sockets = s.sockets
  status : s'.status = s.status
  decoder : s'.decoder = s.decoder
  decoders : s'.decoders = s.decoders
  sent : s'.sent = s.sent

theorem runQueue_only (s : StreamInstance) : QueueOnly s s.runQueue := by
  unfold runQueue
  split <;> exact ⟨rfl, rfl, rfl, rfl, rfl, rfl⟩

theorem processQueue_only (s : StreamInstance) : QueueOnly s s.processQueue := by
  unfold processQueue
  split
  · exact ⟨rfl, rfl, rfl, rfl, rfl, rfl⟩
  · obtain ⟨h₁, h₂, h₃, h₄, h₅, h₆⟩ := runQueue_only { s with processing := true }
    exact ⟨h₁, h₂, h₃, h₄, h₅, h₆⟩

theorem onmessage_touches (msg : Message) (created : Bool) : Touches k s (s.onmessage k msg created) := by
  unfold onmessage
  split
  · split
    · unfold onOffer initDecoder
      split
      · refine ⟨rfl, fun _ _ => rfl, fun hok => ⟨hok.sockets, fun d hd => ?_⟩⟩
        cases hd
        exact Nat.lt_succ_self _
      · exact .of_same rfl rfl rfl rfl
    · exact .of_same rfl rfl rfl rfl
  · rename_i packet
    have h := processQueue_only { s with queue := s.queue.enqueue Packet.size packet }
    exact .of_same h.ws h.sockets (congrArg _ h.decoder) h.decoders

theorem onerror_touches : Touches k s (s.onerror k) :=
  .trans (updateSocket_touches fun hok => ⟨fun _ => rfl, hok.negotiated⟩) reject_touches

theorem onclose_touches : Touches k s (s.onclose k) :=
  .trans (updateSocket_touches (f := fun x => { x with readyState := .CLOSED, closed := true })
    fun hok => ⟨fun _ => rfl, hok.negotiated⟩) (.of_same rfl rfl rfl rfl)

/-! ## One step -/

theorem consistent_congr (hstatus : s'.status = s.status) (hws : s'.ws = s.ws)
    (hflags : ∀ k, s.ws = some k → (s'.sockets k).negotiated = (s.sockets k).negotiated ∧
      (s'.sockets k).closed = (s.sockets k).closed) : Consistent s' ↔ Consistent s := by
  have hnegotiated : Negotiated s' ↔ Negotiated s := by
    unfold Negotiated
    rw [hws]
    refine exists_congr fun k => and_congr_right fun hk => ?_
    rw [(hflags k hk).1, (hflags k hk).2]
  unfold Consistent
  rw [hstatus, hnegotiated]

/-- What a superseded socket leaves consistent. -/
theorem Touches.consistent (ht : Touches k s s') (hstale : s.ws ≠ some k) (hstatus : s'.status = s.status)
    (hcons : Consistent s) : Consistent s' := by
  refine (consistent_congr hstatus ht.ws fun j hj => ?_).mpr hcons
  rw [ht.others j fun h => hstale (h ▸ hj)]
  exact ⟨rfl, rfl⟩

/-- A step of socket `k`. -/
theorem holds_socket_iff {e : Event} (hcons : Consistent s) (h : step s e = some s') (hsocket : e.socket s = some k)
    (ht : Touches k s s') : Holds s e ↔ if s.ws = some k then Consistent s' else Inert s s' := by
  have hholds : Holds s e ↔ (s.ws ≠ some k → Inert s s') ∧ Consistent s' := by
    constructor
    · intro hh
      obtain ⟨hinert, hcons'⟩ := hh s' h
      exact ⟨hinert k hsocket, hcons'⟩
    · rintro ⟨hinert, hcons'⟩ s'' h''
      rw [h] at h''
      cases h''
      refine ⟨fun j hj => ?_, hcons'⟩
      rw [hsocket] at hj
      cases hj
      exact hinert
  rw [hholds]
  split
  · rename_i hcur
    exact ⟨And.right, fun hc => ⟨fun hne => absurd hcur hne, hc⟩⟩
  · rename_i hstale
    exact ⟨fun hh => hh.1 hstale, fun hi => ⟨fun _ => hi, ht.consistent hstale hi.status hcons⟩⟩

/-- A call, or a step of `processQueue`. -/
theorem holds_call {e : Event} (h : step s e = some s') (hsocket : e.socket s = none) (hcons : Consistent s') :
    Holds s e := by
  intro s'' h''
  rw [h] at h''
  cases h''
  refine ⟨fun k hk => ?_, hcons⟩
  rw [hsocket] at hk
  cases hk

theorem not_negotiated (hws : s.ws = none) : ¬Negotiated s := by
  rintro ⟨k, hk, -⟩
  rw [hws] at hk
  cases hk

theorem connect_consistent (hcons : Consistent s) : Consistent s.connect := by
  unfold connect
  split
  · exact hcons
  · refine ⟨nofun, ?_⟩
    rintro ⟨k, hk, hneg, -⟩
    cases hk
    rw [show (_ : StreamInstance).sockets s.created = ({} : Socket) from if_pos rfl] at hneg
    cases hneg

theorem disconnect_consistent : Consistent s.disconnect := by
  have hws : s.disconnect.ws = none := by
    simp only [disconnect, updateStatus]
    split
    · assumption
    · rfl
  exact ⟨nofun, fun h => absurd h (not_negotiated hws)⟩

/-! ### Answers -/

theorem canSend_eq_false_iff : s.canSend = false ↔ ∀ k, s.ws = some k → (s.sockets k).readyState = .CONNECTING := by
  unfold canSend
  cases s.ws with
  | none => simp
  | some k => simp

theorem send_same (s : StreamInstance) (answer : Answer) : (s.send answer).ws = s.ws ∧
    (s.send answer).sockets = s.sockets ∧ (s.send answer).status = s.status ∧
    (s.send answer).processing = s.processing ∧ (s.send answer).decoder = s.decoder := by
  unfold send
  split
  · exact ⟨rfl, rfl, rfl, rfl, rfl⟩
  · split <;> exact ⟨rfl, rfl, rfl, rfl, rfl⟩

theorem send_sent_iff (answer : Answer) : (s.send answer).sent = s.sent ↔ Discards s := by
  unfold send Discards
  cases hws : s.ws with
  | none => simp
  | some j =>
    by_cases hopen : (s.sockets j).readyState = .OPEN
    · simp [hopen]
    · simp [hopen]

theorem reject_status (s : StreamInstance) (k : Nat) :
    (s.reject k).status = if (s.sockets k).settled then s.status else .error := by
  unfold reject
  split <;> rfl

theorem reject_status_iff (s : StreamInstance) (k : Nat) :
    (s.reject k).status = s.status ↔ (s.sockets k).settled = true ∨ s.status = .error := by
  rw [reject_status]
  split
  · rename_i hsettled
    exact ⟨fun _ => .inl hsettled, fun _ => rfl⟩
  · rename_i hsettled
    exact ⟨fun h => .inr h.symm, fun h => (h.resolve_left hsettled).symm⟩

theorem reject_same (s : StreamInstance) (k : Nat) : (s.reject k).processing = s.processing ∧
    (s.reject k).decoder = s.decoder ∧ (s.reject k).sent = s.sent := by
  unfold reject
  split <;> exact ⟨rfl, rfl, rfl⟩

/-- A rejection leaves what the status is about. -/
theorem reject_flags (s : StreamInstance) (k j : Nat) : ((s.reject k).sockets j).negotiated = (s.sockets j).negotiated ∧
    ((s.reject k).sockets j).closed = (s.sockets j).closed := by
  unfold reject
  split
  · exact ⟨rfl, rfl⟩
  · exact updateSocket_flags s k (f := fun x => { x with settled := true }) rfl rfl j

theorem Inert.refl (s : StreamInstance) : Inert s s := ⟨rfl, rfl, rfl, rfl⟩

theorem refuse_inert_iff : Inert s (s.refuse k) ↔
    s.canSend = false ∨ (Discards s ∧ ((s.sockets k).settled = true ∨ s.status = .error)) := by
  unfold refuse
  cases hsend : s.canSend with
  | false => exact ⟨fun _ => .inl rfl, fun _ => .refl s⟩
  | true =>
    obtain ⟨-, hsockets, hstatus, hprocessing, hdecoder⟩ := send_same s .rejected
    obtain ⟨hprocessing', hdecoder', hsent'⟩ := reject_same (s.send .rejected) k
    have hkeeps := reject_status_iff (s.send .rejected) k
    rw [hsockets, hstatus] at hkeeps
    rw [if_pos rfl, ← send_sent_iff .rejected, ← hkeeps]
    constructor
    · intro hi
      exact .inr ⟨hsent'.symm.trans hi.sent, hi.status⟩
    · rintro (hfalse | ⟨hsent, hkeep⟩)
      · cases hfalse
      · exact ⟨hkeep, hprocessing'.trans hprocessing, hdecoder'.trans hdecoder, hsent'.trans hsent⟩

theorem accept_inert_iff : Inert s (s.accept k) ↔ s.canSend = false ∨ (Discards s ∧ s.status = .connected) := by
  unfold accept
  cases hsend : s.canSend with
  | false =>
    rw [if_neg Bool.false_ne_true, refuse_inert_iff, hsend]
    exact ⟨fun _ => .inl rfl, fun _ => .inl rfl⟩
  | true =>
    obtain ⟨-, -, -, hprocessing, hdecoder⟩ := send_same s .accepted
    rw [if_pos rfl, ← send_sent_iff .accepted]
    constructor
    · intro hi
      exact .inr ⟨hi.sent, hi.status.symm⟩
    · rintro (hfalse | ⟨hsent, hstatus⟩)
      · cases hfalse
      · exact ⟨hstatus.symm, hprocessing, hdecoder, hsent⟩

/-! ### The current socket -/

theorem reject_consistent (hok : Ok s) (hcons : Consistent s) (hcur : s.ws = some k) : Consistent (s.reject k) := by
  by_cases hsettled : (s.sockets k).settled = true
  · rw [reject, if_pos hsettled]
    exact hcons
  · have hstatus : (s.reject k).status = .error := by rw [reject_status, if_neg hsettled]
    have hnot : ¬Negotiated (s.reject k) := by
      rintro ⟨j, hj, hneg, -⟩
      rw [reject_touches.ws, hcur] at hj
      cases hj
      rw [(reject_flags s k k).1] at hneg
      exact hsettled ((hok.sockets k).negotiated hneg)
    rw [Consistent, hstatus]
    exact ⟨nofun, fun h => absurd h hnot⟩

theorem refuse_consistent (hok : Ok s) (hcons : Consistent s) (hcur : s.ws = some k) : Consistent (s.refuse k) := by
  unfold refuse
  split
  · obtain ⟨hws, hsockets, hstatus, -⟩ := send_same s .rejected
    have hflags := (consistent_congr hstatus hws fun j _ => ⟨by rw [hsockets], by rw [hsockets]⟩).mpr hcons
    exact reject_consistent ((send_touches (k := k) .rejected).ok hok) hflags (hws.trans hcur)
  · exact hcons

/-- A socket that finishes its negotiation must not be closed. -/
theorem accept_consistent_iff (hok : Ok s) (hcons : Consistent s) (hcur : s.ws = some k) :
    Consistent (s.accept k) ↔ (s.sockets k).closed = false := by
  unfold accept
  cases hsend : s.canSend with
  | false =>
    -- a socket that was never open has no close event behind it
    have hopen := canSend_eq_false_iff.mp hsend k hcur
    rw [if_neg Bool.false_ne_true, refuse, hsend, if_neg Bool.false_ne_true]
    refine ⟨fun _ => ?_, fun _ => hcons⟩
    cases hclosed : (s.sockets k).closed with
    | false => rfl
    | true =>
      rw [(hok.sockets k).closed hclosed] at hopen
      cases hopen
  | true =>
    obtain ⟨hws, hsockets, -⟩ := send_same s .accepted
    have hsame := updateSocket_same (s.send .accepted) k fun x => { x with negotiated := true, settled := true }
    rw [hsockets] at hsame
    rw [if_pos rfl]
    constructor
    · intro hc
      obtain ⟨j, hj, -, hclosed⟩ := hc.mp rfl
      cases (hws.trans hcur).symm.trans hj
      exact (congrArg Socket.closed hsame).symm.trans hclosed
    · intro hclosed
      refine ⟨fun _ => ⟨k, hws.trans hcur, congrArg Socket.negotiated hsame, ?_⟩, fun _ => rfl⟩
      exact (congrArg Socket.closed hsame).trans hclosed

/-! ### Suspended handlers -/

variable {h : Handler} {ok : Bool}

theorem resume_suspends (hs : suspends s h ok = true) : (s.resume h ok).sockets = s.sockets ∧
    (s.resume h ok).status = s.status ∧ (s.resume h ok).processing = s.processing ∧ (s.resume h ok).sent = s.sent ∧
    ((s.resume h ok).decoder = s.decoder ↔ ¬ reconfigures s h ok) := by
  unfold suspends at hs
  split at hs
  · rename_i audioStream hawait
    rw [Bool.and_eq_true, Bool.and_eq_true] at hs
    obtain ⟨⟨hok, hconfig⟩, hdecoder⟩ := hs
    obtain ⟨config, hconfig⟩ := Option.isSome_iff_exists.mp hconfig
    obtain ⟨decoder, hdecoder⟩ := Option.isSome_iff_exists.mp hdecoder
    simp [resume, hok, hawait, StreamInstance.initAudio, hconfig, hdecoder, reconfigures]
  · rename_i id config hawait
    have hok : ok = true := hs
    simp only [resume, hok, hawait]
    refine ⟨trivial, trivial, trivial, trivial, ?_⟩
    cases hdecoder : s.decoder with
    | none => simp [reconfigures, hdecoder]
    | some d =>
      have hiff : reconfigures s h true ↔ d.id = id := by simp [reconfigures, hawait, hdecoder, eq_comm]
      rw [hiff, Option.map_some, Option.some.injEq, Decoder.postAudio]
      split
      · rename_i hid
        refine ⟨fun hsame => ?_, fun hne => absurd hid hne⟩
        simpa using congrArg Decoder.audio hsame
      · rename_i hid
        exact ⟨fun _ => hid, fun _ => rfl⟩
  · cases hs

theorem resume_finishes (hs : suspends s h ok = false) :
    s.resume h ok = if accepts h ok then s.accept h.socket else s.refuse h.socket := by
  unfold resume accepts
  unfold suspends at hs
  split
  · rename_i audioStream hawait
    simp only [hawait, Bool.true_and] at hs
    unfold StreamInstance.initAudio
    split
    · rename_i hconfig hdecoder
      rw [hconfig, hdecoder] at hs
      cases hs
    · simp
  · rename_i hawait
    rw [hawait] at hs
    cases hs
  · rename_i hawait
    simp [hawait]
  · rename_i hnot
    rw [Bool.false_or, if_neg (by simpa using hnot)]

/-- A handler of a superseded socket. -/
theorem resume_inert_iff (hstale : s.ws ≠ some h.socket) : Inert s (s.resume h ok) ↔ MayResume s h ok := by
  unfold MayResume
  rw [if_neg hstale]
  cases hs : suspends s h ok with
  | true =>
    obtain ⟨-, hstatus, hprocessing, hsent, hdecoder⟩ := resume_suspends hs
    rw [if_pos rfl, ← hdecoder]
    exact ⟨fun hi => hi.decoder, fun hd => ⟨hstatus, hprocessing, hd, hsent⟩⟩
  | false =>
    rw [resume_finishes hs, if_neg Bool.false_ne_true]
    cases accepts h ok with
    | false => simpa using refuse_inert_iff
    | true => simpa using accept_inert_iff

/-- A handler of the current one. -/
theorem resume_consistent_iff (hok : Ok s) (hcons : Consistent s) (hcur : s.ws = some h.socket) :
    Consistent (s.resume h ok) ↔ MayResume s h ok := by
  unfold MayResume
  rw [if_pos hcur]
  cases hs : suspends s h ok with
  | true =>
    obtain ⟨hsockets, hstatus, -⟩ := resume_suspends hs
    refine ⟨fun _ => .inl rfl, fun _ => ?_⟩
    exact (consistent_congr hstatus (resume_touches h ok).ws fun j _ => by rw [hsockets]; exact ⟨rfl, rfl⟩).mpr hcons
  | false =>
    rw [resume_finishes hs, or_iff_right Bool.false_ne_true]
    cases accepts h ok with
    | false =>
      have hrefuse := refuse_consistent hok hcons hcur
      simpa using hrefuse
    | true => simpa using accept_consistent_iff hok hcons hcur

/-! ### Events -/

theorem onmessage_same (s : StreamInstance) (k : Nat) (msg : Message) (created : Bool) :
    (s.onmessage k msg created).sockets = s.sockets ∧ (s.onmessage k msg created).status = s.status := by
  unfold onmessage
  split
  · split
    · unfold onOffer initDecoder
      split <;> exact ⟨rfl, rfl⟩
    · exact ⟨rfl, rfl⟩
  · exact ⟨(processQueue_only _).sockets, (processQueue_only _).status⟩

/-- An offer replaces the decoder. -/
theorem offer_inert_iff (hok : Ok s) {offer : Option Offer} {created : Bool} :
    Inert s (s.onmessage k (.text offer) created) ↔
      (s.sockets k).negotiated = true ∨ offer = none ∨ created = false := by
  unfold onmessage
  cases hneg : (s.sockets k).negotiated with
  | true => exact ⟨fun _ => .inl rfl, fun _ => .refl s⟩
  | false =>
    cases offer with
    | none => exact ⟨fun _ => .inr (.inl rfl), fun _ => .refl s⟩
    | some offer =>
      cases created with
      | false => exact ⟨fun _ => .inr (.inr rfl), fun _ => ⟨rfl, rfl, rfl, rfl⟩⟩
      | true =>
        constructor
        · intro hi
          exact absurd (hok.decoder s.decoders (congrArg _ hi.decoder.symm)) (Nat.lt_irrefl _)
        · rintro (h | h | h) <;> cases h

theorem processQueue_processing (s : StreamInstance) : s.processQueue.processing =
    (s.processing || (s.decoder.isSome && (s.queue.dequeue Packet.size).isSome)) := by
  unfold processQueue
  cases hproc : s.processing with
  | true => rw [if_pos rfl, hproc, Bool.true_or]
  | false =>
    rw [if_neg Bool.false_ne_true, Bool.false_or]
    unfold runQueue
    split
    · rename_i hdecoder hdequeue
      rw [hdecoder, hdequeue]
      rfl
    · rename_i hnone
      cases hdecoder : s.decoder with
      | none => rfl
      | some decoder =>
        cases hdequeue : s.queue.dequeue Packet.size with
        | none => rfl
        | some r => exact absurd hdequeue (hnone decoder r.1 r.2 hdecoder)

/-- Data start `processQueue`. -/
theorem data_inert_iff {packet : Packet} {created : Bool} :
    Inert s (s.onmessage k (.binary packet) created) ↔ s.processing = true ∨ s.decoder = none := by
  have honly := processQueue_only { s with queue := s.queue.enqueue Packet.size packet }
  have hproc := processQueue_processing { s with queue := s.queue.enqueue Packet.size packet }
  simp only [DataBufferQueue.dequeue_enqueue, Bool.and_true] at hproc
  rw [onmessage]
  constructor
  · intro hi
    have hkeep := hproc.symm.trans hi.processing
    cases hp : s.processing with
    | true => exact .inl rfl
    | false =>
      rw [hp, Bool.false_or, Option.isSome_eq_false_iff, Option.isNone_iff_eq_none] at hkeep
      exact .inr hkeep
  · intro h
    refine ⟨honly.status, hproc.trans ?_, honly.decoder, honly.sent⟩
    rcases h with h | h
    · rw [h, Bool.true_or]
    · rw [h, Option.isSome_none, Bool.or_false]

theorem onerror_inert_iff : Inert s (s.onerror k) ↔ (s.sockets k).settled = true ∨ s.status = .error := by
  have hsettled : ((s.updateSocket k fun x => { x with readyState := .CLOSED }).sockets k).settled = (s.sockets k).settled := by
    rw [updateSocket_same]
  obtain ⟨hprocessing, hdecoder, hsent⟩ := reject_same (s.updateSocket k fun x => { x with readyState := .CLOSED }) k
  have hkeeps := reject_status_iff (s.updateSocket k fun x => { x with readyState := .CLOSED }) k
  rw [hsettled] at hkeeps
  refine ⟨fun hi => hkeeps.mp hi.status, fun h => ?_⟩
  exact ⟨hkeeps.mpr h, hprocessing, hdecoder, hsent⟩

theorem onclose_inert_iff : Inert s (s.onclose k) ↔ s.status = .disconnected ∧ s.processing = false :=
  ⟨fun h => ⟨h.status.symm, h.processing.symm⟩, fun h => ⟨h.1.symm, h.2.symm, rfl, rfl⟩⟩

/-- A change of the ready state is not seen in the status. -/
theorem readyState_consistent (hcons : Consistent s) (state : ReadyState) :
    Consistent (s.updateSocket k fun x => { x with readyState := state }) := by
  have hcongr : Consistent (s.updateSocket k fun x => { x with readyState := state }) ↔ Consistent s :=
    consistent_congr rfl rfl fun j _ => updateSocket_flags s k (f := fun x => { x with readyState := state }) rfl rfl j
  exact hcongr.mpr hcons

theorem onerror_consistent (hok : Ok s) (hcons : Consistent s) (hcur : s.ws = some k) : Consistent (s.onerror k) := by
  have hok' : Ok (s.updateSocket k fun x => { x with readyState := .CLOSED }) :=
    (updateSocket_touches fun hx => ⟨fun _ => rfl, hx.negotiated⟩).ok hok
  exact reject_consistent hok' (readyState_consistent hcons .CLOSED) hcur

theorem onclose_consistent (hcur : s.ws = some k) : Consistent (s.onclose k) := by
  refine ⟨nofun, ?_⟩
  rintro ⟨j, hj, -, hclosed⟩
  cases hcur.symm.trans hj
  have hsame := updateSocket_same s k fun x => { x with readyState := .CLOSED, closed := true }
  rw [show (s.onclose k).sockets k = _ from hsame] at hclosed
  cases hclosed

/-! ### Any step -/

/-- The ready state of a socket that is not closed yet. -/
theorem readyState_touches {state : ReadyState} (hne : (s.sockets k).readyState ≠ .CLOSED) :
    Touches k s (s.updateSocket k fun x => { x with readyState := state }) :=
  updateSocket_touches fun hx => ⟨fun hclosed => absurd (hx.closed hclosed) hne, hx.negotiated⟩

/-- What the steps of socket `k` do. -/
inductive SocketStep (s : StreamInstance) (k : Nat) : Event → StreamInstance → Prop where
  | onopen (hstate : (s.sockets k).readyState ≠ .CLOSED) :
      SocketStep s k (.onopen k) (s.updateSocket k fun x => { x with readyState := .OPEN })
  | peerCloses (hstate : (s.sockets k).readyState ≠ .CLOSED) :
      SocketStep s k (.peerCloses k) (s.updateSocket k fun x => { x with readyState := .CLOSING })
  | onmessage (msg : Message) (created : Bool) : SocketStep s k (.onmessage k msg created) (s.onmessage k msg created)
  | onerror : SocketStep s k (.onerror k) (s.onerror k)
  | onclose : SocketStep s k (.onclose k) (s.onclose k)
  | resume {i : Nat} {h : Handler} (ok : Bool) (hi : s.handlers[i]? = some h) (hk : h.socket = k) :
      SocketStep s k (.resume i ok) ({ s with handlers := s.handlers.eraseIdx i }.resume h ok)

/-- And the others. -/
inductive CallStep (s : StreamInstance) : Event → StreamInstance → Prop where
  | connect : CallStep s .connect s.connect
  | disconnect : CallStep s .disconnect s.disconnect
  | resumeQueue (i : Nat) (await : QueueAwait) (ok : Bool) :
      CallStep s (.resumeQueue i ok) ({ s with queueRuns := s.queueRuns.eraseIdx i }.resumeQueue await ok)

theorem step_cases {e : Event} (h : step s e = some s') :
    (∃ k, e.socket s = some k ∧ SocketStep s k e s') ∨ (e.socket s = none ∧ CallStep s e s') := by
  cases e with
  | connect =>
    cases h
    exact .inr ⟨rfl, .connect⟩
  | disconnect =>
    cases h
    exact .inr ⟨rfl, .disconnect⟩
  | onopen k =>
    obtain ⟨⟨-, hstate⟩, hs'⟩ := Option.ite_none_right_eq_some.mp h
    cases hs'
    exact .inl ⟨k, rfl, .onopen (by rw [hstate]; decide)⟩
  | peerCloses k =>
    obtain ⟨⟨-, hstate⟩, hs'⟩ := Option.ite_none_right_eq_some.mp h
    cases hs'
    exact .inl ⟨k, rfl, .peerCloses (by rw [hstate]; decide)⟩
  | onmessage k msg created =>
    obtain ⟨-, hs'⟩ := Option.ite_none_right_eq_some.mp h
    cases hs'
    exact .inl ⟨k, rfl, .onmessage msg created⟩
  | onerror k =>
    obtain ⟨-, hs'⟩ := Option.ite_none_right_eq_some.mp h
    cases hs'
    exact .inl ⟨k, rfl, .onerror⟩
  | onclose k =>
    obtain ⟨-, hs'⟩ := Option.ite_none_right_eq_some.mp h
    cases hs'
    exact .inl ⟨k, rfl, .onclose⟩
  | resume i ok =>
    obtain ⟨handler, hi, rfl⟩ := Option.map_eq_some_iff.mp h
    exact .inl ⟨handler.socket, by rw [Event.socket, hi]; rfl, .resume ok hi rfl⟩
  | resumeQueue i ok =>
    obtain ⟨await, -, rfl⟩ := Option.map_eq_some_iff.mp h
    exact .inr ⟨rfl, .resumeQueue i await ok⟩

theorem SocketStep.touches {e : Event} (h : SocketStep s k e s') : Touches k s s' := by
  cases h with
  | onopen hstate => exact readyState_touches hstate
  | peerCloses hstate => exact readyState_touches hstate
  | onmessage msg created => exact onmessage_touches msg created
  | onerror => exact onerror_touches
  | onclose => exact onclose_touches
  | @resume i handler ok hi hk =>
    subst hk
    have herase : Touches handler.socket s { s with handlers := s.handlers.eraseIdx i } := .of_same rfl rfl rfl rfl
    exact herase.trans (resume_touches handler ok)

theorem resumeQueue_only (s : StreamInstance) (await : QueueAwait) (ok : Bool) : QueueOnly s (s.resumeQueue await ok) := by
  unfold resumeQueue
  split
  · exact runQueue_only s
  · split
    · exact ⟨rfl, rfl, rfl, rfl, rfl, rfl⟩
    · exact runQueue_only s

theorem QueueOnly.consistent (h : QueueOnly s s') (hcons : Consistent s) : Consistent s' :=
  (consistent_congr h.status h.ws fun _ _ => by rw [h.sockets]; exact ⟨rfl, rfl⟩).mpr hcons

theorem connect_ok (hok : Ok s) : Ok s.connect := by
  unfold connect
  split
  · exact hok
  · have hfresh : Ok (s.updateSocket s.created fun _ => {}) :=
      (updateSocket_touches fun _ => ⟨fun h => absurd h Bool.false_ne_true, fun h => absurd h Bool.false_ne_true⟩).ok hok
    exact ⟨hfresh.sockets, hfresh.decoder⟩

theorem disconnect_ok (hok : Ok s) : Ok s.disconnect := by
  simp only [disconnect, updateStatus]
  split
  · exact ⟨hok.sockets, nofun⟩
  · rename_i k hws
    have hclose : Ok (s.updateSocket k Socket.close) := by
      refine (updateSocket_touches fun hx => ⟨fun hclosed => ?_, hx.negotiated⟩).ok hok
      have hstate : (s.sockets k).readyState = .CLOSED := hx.closed hclosed
      simp only [Socket.close, hstate, if_true]
    exact ⟨hclose.sockets, nofun⟩

theorem step_ok {e : Event} (hok : Ok s) (h : step s e = some s') : Ok s' := by
  rcases step_cases h with ⟨k, -, hstep⟩ | ⟨-, hstep⟩
  · exact hstep.touches.ok hok
  · cases hstep with
    | connect => exact connect_ok hok
    | disconnect => exact disconnect_ok hok
    | resumeQueue i await ok =>
      have honly := resumeQueue_only { s with queueRuns := s.queueRuns.eraseIdx i } await ok
      exact hok.of_same honly.sockets (congrArg _ honly.decoder) honly.decoders

theorem CallStep.consistent {e : Event} (h : CallStep s e s') (hcons : Consistent s) : Consistent s' := by
  cases h with
  | connect => exact connect_consistent hcons
  | disconnect => exact disconnect_consistent
  | resumeQueue i await ok =>
    exact (resumeQueue_only { s with queueRuns := s.queueRuns.eraseIdx i } await ok).consistent hcons

theorem harmless_resume_iff {i : Nat} (hi : s.handlers[i]? = some h) :
    Harmless s (.resume i ok) ↔ MayResume s h ok := by
  refine ⟨fun hh => hh h hi, fun hm h' hi' => ?_⟩
  cases hi.symm.trans hi'
  exact hm

theorem SocketStep.inert_iff {e : Event} (h : SocketStep s k e s') (hok : Ok s) (hstale : s.ws ≠ some k) :
    Inert s s' ↔ Harmless s e := by
  cases h with
  | onopen => exact ⟨fun _ => trivial, fun _ => ⟨rfl, rfl, rfl, rfl⟩⟩
  | peerCloses => exact ⟨fun _ => trivial, fun _ => ⟨rfl, rfl, rfl, rfl⟩⟩
  | onmessage msg created =>
    cases msg with
    | text offer => rw [offer_inert_iff hok, Harmless, or_iff_right hstale]
    | binary packet => rw [data_inert_iff, Harmless, or_iff_right hstale]
  | onerror => rw [onerror_inert_iff, Harmless, or_iff_right hstale]
  | onclose => rw [onclose_inert_iff, Harmless, or_iff_right hstale]
  | @resume i handler ok hi hk =>
    subst hk
    have hinert : Inert { s with handlers := s.handlers.eraseIdx i } _ ↔ MayResume s handler ok := resume_inert_iff hstale
    rw [harmless_resume_iff hi, ← hinert]
    exact ⟨fun h => ⟨h.status, h.processing, h.decoder, h.sent⟩, fun h => ⟨h.status, h.processing, h.decoder, h.sent⟩⟩

theorem SocketStep.consistent_iff {e : Event} (h : SocketStep s k e s') (hok : Ok s) (hcons : Consistent s)
    (hcur : s.ws = some k) : Consistent s' ↔ Harmless s e := by
  cases h with
  | onopen => exact ⟨fun _ => trivial, fun _ => readyState_consistent hcons .OPEN⟩
  | peerCloses => exact ⟨fun _ => trivial, fun _ => readyState_consistent hcons .CLOSING⟩
  | onmessage msg created =>
    obtain ⟨hsockets, hstatus⟩ := onmessage_same s k msg created
    have hkeep : Consistent (s.onmessage k msg created) ↔ Consistent s :=
      consistent_congr hstatus (onmessage_touches msg created).ws fun _ _ => by rw [hsockets]; exact ⟨rfl, rfl⟩
    cases msg <;> exact ⟨fun _ => .inl hcur, fun _ => hkeep.mpr hcons⟩
  | onerror => exact ⟨fun _ => .inl hcur, fun _ => onerror_consistent hok hcons hcur⟩
  | onclose => exact ⟨fun _ => .inl hcur, fun _ => onclose_consistent hcur⟩
  | @resume i handler ok hi hk =>
    subst hk
    have hok' : Ok { s with handlers := s.handlers.eraseIdx i } := ⟨hok.sockets, hok.decoder⟩
    have hcons' : Consistent { s with handlers := s.handlers.eraseIdx i } := hcons
    rw [harmless_resume_iff hi]
    exact resume_consistent_iff hok' hcons' hcur

/-- **One step.** -/
theorem holds_iff_harmless {e : Event} (hok : Ok s) (hcons : Consistent s) (h : step s e = some s') :
    Holds s e ↔ Harmless s e := by
  rcases step_cases h with ⟨k, hsocket, hstep⟩ | ⟨hsocket, hstep⟩
  · rw [holds_socket_iff hcons h hsocket hstep.touches]
    split
    · rename_i hcur
      exact hstep.consistent_iff hok hcons hcur
    · rename_i hstale
      exact hstep.inert_iff hok hstale
  · refine ⟨fun _ => ?_, fun _ => holds_call h hsocket (hstep.consistent hcons)⟩
    cases hstep <;> trivial

/-! ## Runs -/

theorem fresh_consistent (maxSize maxBytes : Nat) : Consistent (fresh maxSize maxBytes) :=
  ⟨nofun, fun h => absurd h (not_negotiated rfl)⟩

theorem fresh_ok (maxSize maxBytes : Nat) : Ok (fresh maxSize maxBytes) where
  sockets _ := ⟨fun h => absurd h Bool.false_ne_true, fun h => absurd h Bool.false_ne_true⟩
  decoder := nofun

/-- The second socket has negotiated when the close event of the first one
arrives. -/
def reconnected : List Event :=
  [.connect, .disconnect, .connect, .onopen 1, .onmessage 1 (.text (some { videoCodec := some "h264", audioStream := none })) true,
    .resume 0 true]

/-- The status, the current socket and what its closure and its events say. -/
def view (s : StreamInstance) : StreamStatus × Option Nat × Bool × Bool :=
  (s.status, s.ws, (s.sockets 1).negotiated, (s.sockets 1).closed)

end WebPlayer.L4.Stream
