import WebPlayer.L3Protocol.Transcript
import WebPlayer.L4App.VideoServer

/-!
# The server, one descriptor at a time

A `View` is what the three layers hold of one descriptor, with the part of
the log that is about it: the socket, the entry of `tlsConnections_` with its
`handshakeComplete`, the connection record. Each server function changes the
view of its own descriptor and of no other, and the new view depends on the
old one alone: the `view_*` lemmas say how, one for each function.
-/
namespace WebPlayer.L5.Server
open WebPlayer.Core WebPlayer.L1.WebSocket WebPlayer.L3.Session WebPlayer.L3.Tls WebPlayer.L4.Media WebPlayer.L4.VideoServer

structure View where
  opened : Bool
  /-- `none` without an entry. -/
  link : Option Bool
  conn : Option Connection
  log : List Obs

variable {τ : Type}

def logOf (fd : Fd) (log : List Obs) : List Obs := log.filter fun o => o.fd = fd

def view (net : Server τ) (fd : Fd) : View where
  opened := net.opened fd
  link := (net.tls fd).map (·.handshakeComplete)
  conn := net.user.connections fd
  log := logOf fd net.log

/-! ## What happens to a view -/

namespace View
variable (fd : Fd) (v : View)

def emit (os : List Obs) : View := { v with log := v.log ++ os }

/-- The entry goes, if there is one. -/
def erasure : List Obs := if v.link.isSome then [.erase fd] else []

/-- `TcpServer::RemoveClient` -/
def removed (caller : Caller) : View where
  opened := false
  link := none
  conn := if v.link = some true then none else v.conn
  log := v.log ++ .remove fd caller :: (v.erasure fd ++ (if v.link = some true then [.disconnect fd] else []) ++ [.close fd])

/-- `TlsServer::CloseConnection` -/
def closed : View where
  opened := false
  link := none
  conn := v.conn
  log := v.log ++ (v.erasure fd ++ [.remove fd .app, .close fd])

def read (ret : ReadRet) : View := v.emit [if v.link.isSome then .sslRead fd ret else .strayRead fd ret]

end View

/-- Nothing is sent without a complete handshake. -/
def Sent (v : View) (n : Nat) : Prop := 0 < n → v.link = some true

section
variable (fd : Fd)

inductive Accepts (v : View) : View → Prop where
  | refused : Accepts v { v.emit [.accept fd, .close fd] with opened := false }
  | failed : Accepts v (View.removed fd { v.emit [.accept fd] with opened := true } .connect)
  | client : Accepts v { v.emit [.accept fd] with opened := true, link := some false }

inductive Shakes (v : View) : View → Prop where
  | want : Shakes v (v.emit [.handshake fd .want])
  | fail : Shakes v ((v.emit [.handshake fd .fail]).removed fd .handshake)
  | done (id : Nat) :
      Shakes v { v.emit [.handshake fd .done, .connect fd] with link := some true, conn := some { fd, id } }

/-- The outputs of the session, one after another. -/
inductive Performs : View → List Out → View → Prop where
  | nil (v : View) : Performs v [] v
  | dispatch {v v' : View} {opcode payload outs} (h : Performs (v.emit [.frame fd opcode payload]) outs v') :
      Performs v (.dispatch opcode payload :: outs) v'
  | setState {v v' : View} {state outs} (h : Performs (v.emit [.state fd state]) outs v') :
      Performs v (.setState state :: outs) v'
  | send {v v' : View} {msg n outs} (hn : Sent v n) (h : Performs (v.emit [.send fd msg n]) outs v') :
      Performs v (.send msg :: outs) v'
  | close {v v' : View} {outs} (h : Performs (v.closed fd) outs v') : Performs v (.close :: outs) v'

/-- What the session does short of closing. -/
inductive Talk (v : View) : Obs → Prop where
  | frame (opcode : WsOpcode) (payload : Bytes) : Talk v (.frame fd opcode payload)
  | state (s : ConnState) : Talk v (.state fd s)
  | send (msg : Msg) {n : Nat} (hn : Sent v n) : Talk v (.send fd msg n)

/-- `HandleData` with a record. -/
inductive Receives (env : Env) (v : View) : View → Prop where
  | data {conn : Connection} {now : Int} {p : Bytes} {v' : View} (hconn : v.conn = some conn)
      (h : Performs fd { v.emit [.data fd conn p] with conn := some (handleData env now conn p).conn }
        (handleData env now conn p).outs v') : Receives env v v'

/-- Only the counters have changed. -/
structure SameSession (conn conn' : Connection) : Prop where
  fd : conn'.fd = conn.fd
  state : conn'.state = conn.state

def BinarySend (v : View) (o : Obs) : Prop := ∃ frame n, o = .send fd (.frame .binary frame) n ∧ Sent v n

/-- One iteration of the loop of `OnTimer`; `true`: the offer has timed out. -/
inductive Visit (v : View) : View → Bool → Prop where
  | skip {conn : Connection} {now : Int} (hconn : v.conn = some conn) (htime : ¬ TimesOut conn now)
      (hstate : conn.state ≠ .streaming) : Visit v (v.emit [.visit fd conn now]) false
  | stream {conn conn' : Connection} {now : Int} {os : List Obs} (hconn : v.conn = some conn)
      (hstate : conn.state = .streaming) (hsame : SameSession conn conn') (hos : ∀ o ∈ os, BinarySend fd v o) :
      Visit v { v.emit (.visit fd conn now :: os) with conn := some conn' } false
  | timeout {conn : Connection} {now : Int} {n : Nat} (hconn : v.conn = some conn) (htime : TimesOut conn now)
      (hn : Sent v n) :
      Visit v { v.emit [.visit fd conn now, .send fd (closeMsg 1008 "Negotiation timeout") n, .state fd .closing] with
        conn := some { conn with state := .closing } } true

end

theorem performs_log {fd : Fd} {v v' : View} {outs : List Out} (h : Performs fd v outs v') :
    ∃ os, v'.log = v.log ++ os := by
  induction h with
  | nil => exact ⟨[], (List.append_nil _).symm⟩
  | dispatch _ ih | setState _ ih | send _ _ ih | close _ ih =>
    obtain ⟨os, hos⟩ := ih
    exact ⟨_, hos.trans (List.append_assoc ..)⟩

theorem performs_open {fd : Fd} {v v' : View} {outs : List Out} (h : Performs fd v outs v') (hno : .close ∉ outs) :
    ∃ os, v' = v.emit os ∧ ∀ o ∈ os, Talk fd v o := by
  have hcons : ∀ {v v' : View} {o : Obs}, Talk fd v o → (∃ os, v' = (v.emit [o]).emit os ∧ ∀ o' ∈ os, Talk fd v o') →
      ∃ os, v' = v.emit os ∧ ∀ o' ∈ os, Talk fd v o' := by
    rintro v v' o ho ⟨os, rfl, hos⟩
    refine ⟨o :: os, by simp [View.emit], fun o' h' => ?_⟩
    rcases List.mem_cons.mp h' with rfl | h'
    · exact ho
    · exact hos o' h'
  -- a view with more in its log talks the same
  have hsame : ∀ {v : View} {o o' : Obs}, Talk fd (v.emit [o]) o' → Talk fd v o' := by
    intro v o o' h
    cases h with
    | frame opcode payload => exact .frame ..
    | state s => exact .state s
    | send msg hn => exact .send msg hn
  induction h with
  | nil v => exact ⟨[], by simp [View.emit], List.forall_mem_nil _⟩
  | dispatch _ ih =>
    obtain ⟨os, heq, hos⟩ := ih fun h => hno (List.mem_cons_of_mem _ h)
    exact hcons (.frame ..) ⟨os, heq, fun o h => hsame (hos o h)⟩
  | setState _ ih =>
    obtain ⟨os, heq, hos⟩ := ih fun h => hno (List.mem_cons_of_mem _ h)
    exact hcons (.state _) ⟨os, heq, fun o h => hsame (hos o h)⟩
  | send hn _ ih =>
    obtain ⟨os, heq, hos⟩ := ih fun h => hno (List.mem_cons_of_mem _ h)
    exact hcons (.send _ hn) ⟨os, heq, fun o h => hsame (hos o h)⟩
  | close => exact absurd List.mem_cons_self hno

/-! ## The servers below -/

theorem logOf_append (fd : Fd) (l l' : List Obs) : logOf fd (l ++ l') = logOf fd l ++ logOf fd l' := List.filter_append ..

theorem logOf_own {fd : Fd} {os : List Obs} (h : ∀ o ∈ os, o.fd = fd) : logOf fd os = os :=
  List.filter_eq_self.mpr fun o ho => decide_eq_true (h o ho)

theorem logOf_other {fd fd' : Fd} {os : List Obs} (h : ∀ o ∈ os, o.fd = fd) (hne : fd' ≠ fd) : logOf fd' os = [] :=
  List.filter_eq_nil_iff.mpr fun o ho heq => hne ((of_decide_eq_true heq).symm.trans (h o ho))

/-- What only `fd` is concerned in. -/
theorem view_put {net net' : Server τ} {fd : Fd} {os : List Obs} (hos : ∀ o ∈ os, o.fd = fd)
    (hlog : net'.log = net.log ++ os) (hopened : ∀ fd', fd' ≠ fd → net'.opened fd' = net.opened fd')
    (htls : ∀ fd', fd' ≠ fd → net'.tls fd' = net.tls fd')
    (hconn : ∀ fd', fd' ≠ fd → net'.user.connections fd' = net.user.connections fd') :
    view net' = put (view net) fd
      { opened := net'.opened fd
        link := (net'.tls fd).map (·.handshakeComplete)
        conn := net'.user.connections fd
        log := (view net fd).log ++ os } := by
  funext fd'
  by_cases h : fd' = fd
  · subst h
    rw [put_self, view, view, hlog, logOf_append, logOf_own hos]
  · rw [put_other _ h, view, view, hlog, logOf_append, logOf_other hos h, List.append_nil, hopened fd' h, htls fd' h,
      hconn fd' h]

theorem complete_iff (net : Server τ) (fd : Fd) : net.complete fd = true ↔ (view net fd).link = some true := by
  unfold Net.complete view
  cases net.tls fd <;> simp

theorem view_emit (net : Server τ) (o : Obs) : view (net.emit o) = put (view net) o.fd ((view net o.fd).emit [o]) := by
  have hos : ∀ o' ∈ [o], o'.fd = o.fd := by simp
  exact view_put hos rfl (fun _ _ => rfl) (fun _ _ => rfl) (fun _ _ => rfl)

theorem view_removeClient (caller : Caller) (fd : Fd) (net : Server τ) :
    view (removeClient removeConnection caller fd net) = put (view net) fd ((view net fd).removed fd caller) := by
  have hlink : (view net fd).link.isSome = (net.tls fd).isSome := Option.isSome_map ..
  rw [removeClient_eq, @view_put τ net _ fd (.remove fd caller :: ((if (net.tls fd).isSome then [.erase fd] else []) ++
    (if net.complete fd then [.disconnect fd] else []) ++ [.close fd]))]
  · congr 1
    simp only [View.removed, View.erasure, hlink, put_self, without, ← complete_iff]
    congr 1
    split
    · exact put_self ..
    · rfl
  · intro o ho
    simp only [List.mem_cons, List.mem_append, List.mem_ite_nil_right, List.not_mem_nil, or_false] at ho
    rcases ho with rfl | (⟨-, rfl⟩ | ⟨-, rfl⟩) | rfl <;> rfl
  · rfl
  · exact fun fd' h => put_other _ h _
  · exact fun fd' h => put_other _ h _
  · intro fd' h
    dsimp only
    split
    · exact put_other _ h _
    · rfl

theorem view_closeConnection (fd : Fd) (net : Server τ) :
    view (closeConnection removeConnection fd net) = put (view net) fd ((view net fd).closed fd) := by
  have hlink : (view net fd).link.isSome = (net.tls fd).isSome := Option.isSome_map ..
  rw [closeConnection_eq, @view_put τ net _ fd ((if (net.tls fd).isSome then [.erase fd] else []) ++
    [.remove fd .app, .close fd])]
  · simp only [View.closed, View.erasure, hlink, put_self, without]
    rfl
  · intro o ho
    simp only [List.mem_cons, List.mem_append, List.mem_ite_nil_right, List.not_mem_nil, or_false] at ho
    rcases ho with ⟨-, rfl⟩ | rfl | rfl <;> rfl
  · exact List.append_assoc ..
  · exact fun fd' h => put_other _ h _
  · exact fun fd' h => put_other _ h _
  · exact fun _ _ => rfl

/-- What TLS keeps of a connection does not show. -/
theorem view_insert {net : Server τ} {fd : Fd} {c : TlsConnection τ} (htls : net.tls fd = some c) (t : τ) :
    view (net.setTls fd (some { c with ssl := t })) = view net := by
  funext fd'
  by_cases h : fd' = fd
  · simp [view, Net.setTls, h, htls]
  · simp [view, Net.setTls, put_other _ h]

theorem view_insert_emit {net : Server τ} {fd : Fd} {c : TlsConnection τ} (htls : net.tls fd = some c) (t : τ) (o : Obs) :
    view ((net.setTls fd (some { c with ssl := t })).emit o) = put (view net) o.fd ((view net o.fd).emit [o]) := by
  rw [view_emit, view_insert htls]

theorem view_sendData (S : Ssl τ) (fd : Fd) (msg : Msg) (net : Server τ) : ∃ n, Sent (view net fd) n ∧
    view (sendData S fd msg net).2 = put (view net) fd ((view net fd).emit [.send fd msg n]) := by
  have hnot : view (net.emit (.send fd msg 0)) = put (view net) fd ((view net fd).emit [.send fd msg 0]) := view_emit ..
  have hzero : Sent (view net fd) 0 := fun h => absurd h (Nat.lt_irrefl 0)
  unfold sendData
  cases htls : net.tls fd with
  | none => exact ⟨0, hzero, hnot⟩
  | some c =>
    cases hc : c.handshakeComplete with
    | false => exact ⟨0, hzero, by simpa [hc] using hnot⟩
    | true =>
      have hlink : (view net fd).link = some true := by simp [view, htls, hc]
      refine ⟨min (S.write c.ssl msg.bytes.length).1 msg.bytes.length, fun _ => hlink, ?_⟩
      simpa [hc, Obs.fd] using view_insert_emit htls (S.write c.ssl msg.bytes.length).2
        (.send fd msg (min (S.write c.ssl msg.bytes.length).1 msg.bytes.length))

theorem view_continueTlsHandshake {cfg : Config τ} {fd : Fd} {net : Server τ} (hlink : (view net fd).link ≠ none) :
    ∃ v, Shakes fd (view net fd) v ∧
      view (continueTlsHandshake (callbacks cfg) cfg.ssl fd net) = put (view net) fd v := by
  cases htls : net.tls fd with
  | none => exact absurd (by simp [view, htls]) hlink
  | some c =>
    have hemit : view ((net.setTls fd (some { c with ssl := (cfg.ssl.handshake c.ssl).2 })).emit
        (.handshake fd (cfg.ssl.handshake c.ssl).1)) =
        put (view net) fd ((view net fd).emit [.handshake fd (cfg.ssl.handshake c.ssl).1]) := view_insert_emit htls ..
    simp only [continueTlsHandshake, htls]
    cases hret : (cfg.ssl.handshake c.ssl).1 with
    | want =>
      rw [hret] at hemit
      exact ⟨_, .want, hemit⟩
    | fail =>
      rw [hret] at hemit
      refine ⟨_, .fail, ?_⟩
      rw [callbacks, view_removeClient, hemit, put_self, put_put]
    | done =>
      refine ⟨_, .done (net.user.totalConnections + 1), ?_⟩
      rw [@view_put τ net _ fd [.handshake fd .done, .connect fd]]
      · simp [View.emit, Net.emit, Net.setTls, view, callbacks, addConnection]
      · simp [Obs.fd]
      · simp [Net.emit, Net.setTls]
      · exact fun _ _ => rfl
      · intro fd' h
        simp only [Net.emit, Net.setTls, put_other _ h]
      · exact fun fd' h => put_other _ h _

theorem view_sslRead (S : Ssl τ) (fd : Fd) (net : Server τ) :
    view (sslRead S fd net).2 = put (view net) fd ((view net fd).read fd (sslRead S fd net).1) := by
  unfold sslRead
  cases htls : net.tls fd with
  | some c =>
    have hread : (view net fd).read fd (S.read c.ssl).1 = (view net fd).emit [.sslRead fd (S.read c.ssl).1] := by
      simp [View.read, view, htls]
    exact hread.symm ▸ view_insert_emit htls ..
  | none =>
    have hread : ∀ r, (view net fd).read fd r = (view net fd).emit [.strayRead fd r] := by
      intro r
      simp [View.read, view, htls]
    cases hs : net.stray with
    | nil => exact (hread .want).symm ▸ view_emit ..
    | cons r rs =>
      have hsame : view { net.emit (.strayRead fd r) with stray := rs } = view (net.emit (.strayRead fd r)) := rfl
      exact (hread r).symm ▸ hsame.trans (view_emit ..)

theorem view_acceptOne (cfg : Config τ) (net : Server τ) (ret : AcceptRet τ) :
    view (acceptOne (callbacks cfg) net ret) = view net ∨ ((view net ret.fd).opened = false ∧
      ∃ v, Accepts ret.fd (view net ret.fd) v ∧ view (acceptOne (callbacks cfg) net ret) = put (view net) ret.fd v) := by
  unfold acceptOne
  cases hopen : net.opened ret.fd with
  | true => exact .inl rfl
  | false =>
    refine .inr ⟨hopen, ?_⟩
    simp only [Bool.false_eq_true, if_false]
    have hemit : view { net.emit (.accept ret.fd) with opened := put net.opened ret.fd true } =
        put (view net) ret.fd { (view net ret.fd).emit [.accept ret.fd] with opened := true } := by
      rw [@view_put τ net _ ret.fd [.accept ret.fd]]
      · simp [View.emit, Net.emit, view]
      · simp [Obs.fd]
      · rfl
      · exact fun fd' h => put_other _ h _
      · exact fun _ _ => rfl
      · exact fun _ _ => rfl
    cases ret with
    | refused fd =>
      refine ⟨_, .refused, ?_⟩
      rw [@view_put τ net _ fd [.accept fd, .close fd]]
      · simp [View.emit, Net.emit, view, closeFd, AcceptRet.fd]
      · simp [Obs.fd]
      · simp [closeFd, Net.emit, AcceptRet.fd]
      · intro fd' h
        simp only [closeFd, Net.emit, AcceptRet.fd, put_other _ h]
      · exact fun _ _ => rfl
      · exact fun _ _ => rfl
    | client fd ssl =>
      cases ssl with
      | none =>
        refine ⟨_, .failed, ?_⟩
        simp only [AcceptRet.fd] at hemit ⊢
        simp only [onTcpConnect, callbacks, view_removeClient, hemit, put_self, put_put]
      | some t =>
        refine ⟨_, .client, ?_⟩
        rw [@view_put τ net _ fd [.accept fd]]
        · simp [View.emit, Net.emit, view, onTcpConnect, Net.setTls, AcceptRet.fd]
        · simp [Obs.fd]
        · rfl
        · exact fun fd' h => put_other _ h _
        · exact fun fd' h => put_other _ h _
        · exact fun _ _ => rfl

/-! ## `VideoServer` -/

theorem view_setConnection (net : Server τ) (fd : Fd) (conn : Connection) :
    view (setConnection net fd conn) = put (view net) fd { view net fd with conn := some conn } := by
  rw [@view_put τ net _ fd []]
  · simp [setConnection, view]
  · exact List.forall_mem_nil _
  · exact (List.append_nil _).symm
  · exact fun _ _ => rfl
  · exact fun _ _ => rfl
  · exact fun fd' h => put_other _ h _

theorem view_performs (cfg : Config τ) (fd : Fd) (outs : List Out) (net : Server τ) :
    ∃ v, Performs fd (view net fd) outs v ∧ view (outs.foldl (perform cfg fd) net) = put (view net) fd v := by
  induction outs generalizing net with
  | nil => exact ⟨_, .nil _, (put_same ..).symm⟩
  | cons o outs ih =>
    obtain ⟨v, hv, heq⟩ := ih (perform cfg fd net o)
    have hdone : ∀ {w : View}, view (perform cfg fd net o) = put (view net) fd w →
        Performs fd w outs v ∧ view ((o :: outs).foldl (perform cfg fd) net) = put (view net) fd v := by
      intro w hw
      rw [hw, put_self] at hv
      rw [hw, put_put] at heq
      exact ⟨hv, heq⟩
    cases o with
    | dispatch opcode payload =>
      obtain ⟨h, heq⟩ := hdone (view_emit ..)
      exact ⟨v, .dispatch h, heq⟩
    | setState state =>
      obtain ⟨h, heq⟩ := hdone (view_emit ..)
      exact ⟨v, .setState h, heq⟩
    | send msg =>
      obtain ⟨n, hn, hw⟩ := view_sendData cfg.ssl fd msg net
      obtain ⟨h, heq⟩ := hdone hw
      exact ⟨v, .send hn h, heq⟩
    | close =>
      obtain ⟨h, heq⟩ := hdone (view_closeConnection ..)
      exact ⟨v, .close h, heq⟩

theorem view_handleData (cfg : Config τ) (now : Int) (fd : Fd) (data : Bytes) (net : Server τ) :
    view (handleData cfg now fd data net) = view net ∨
      ∃ v, Receives fd cfg.env (view net fd) v ∧ view (handleData cfg now fd data net) = put (view net) fd v := by
  unfold L4.VideoServer.handleData
  cases hconn : net.user.connections fd with
  | none => exact .inl rfl
  | some conn =>
    obtain ⟨v, hv, heq⟩ := view_performs cfg fd (L3.Session.handleData cfg.env now conn data).outs
      (setConnection (net.emit (.data fd conn data)) fd (L3.Session.handleData cfg.env now conn data).conn)
    have hemit : view (net.emit (.data fd conn data)) = put (view net) fd ((view net fd).emit [.data fd conn data]) :=
      view_emit ..
    rw [view_setConnection, hemit, put_put, put_self, put_self] at hv
    rw [view_setConnection, hemit, put_put, put_put] at heq
    exact .inr ⟨v, .data hconn hv, heq⟩

/-- Media sent to a connection: `r` from `conn` and `net`. -/
structure Streams (conn : Connection) (net : Server τ) (r : Connection × Server τ) : Prop where
  same : SameSession conn r.1
  sends : ∃ os, (∀ o ∈ os, BinarySend conn.fd (view net conn.fd) o) ∧
    view r.2 = put (view net) conn.fd ((view net conn.fd).emit os)

theorem streams_refl (conn : Connection) (net : Server τ) : Streams conn net (conn, net) := by
  refine ⟨⟨rfl, rfl⟩, [], List.forall_mem_nil _, ?_⟩
  simp [View.emit, put_same]

theorem streams_trans {conn conn₁ : Connection} {net net₁ : Server τ} {r : Connection × Server τ}
    (h : Streams conn net (conn₁, net₁)) (h' : Streams conn₁ net₁ r) : Streams conn net r := by
  obtain ⟨⟨hfd, hstate⟩, os, hos, heq⟩ := h
  obtain ⟨⟨hfd', hstate'⟩, os', hos', heq'⟩ := h'
  simp only at hfd hstate heq
  rw [hfd, heq, put_self] at hos'
  rw [hfd, heq, put_self, put_put] at heq'
  refine ⟨⟨hfd'.trans hfd, hstate'.trans hstate⟩, os ++ os', fun o ho => ?_, ?_⟩
  · rcases List.mem_append.mp ho with ho | ho
    · exact hos o ho
    · exact hos' o ho
  · rw [heq']
    simp [View.emit]

section
variable (cfg : Config τ)

theorem sendFrames_streams (conn : Connection) (net : Server τ) (frames : List Bytes) :
    Streams conn net (sendFrames cfg conn net frames) := by
  induction frames generalizing conn net with
  | nil => exact streams_refl conn net
  | cons frame frames ih =>
    obtain ⟨n, hn, heq⟩ := view_sendData cfg.ssl conn.fd (.frame .binary frame) net
    have hos : ∀ o ∈ [Obs.send conn.fd (.frame .binary frame) n], BinarySend conn.fd (view net conn.fd) o := by
      intro o ho
      exact ⟨frame, n, List.mem_singleton.mp ho, hn⟩
    rw [sendFrames]
    refine streams_trans ⟨?_, _, hos, heq⟩ (ih _ _)
    split <;> exact ⟨rfl, rfl⟩

theorem sendPacket_streams (r : Connection × Server τ) (pkt : MediaPacket) : Streams r.1 r.2 (sendPacket cfg r pkt) := by
  obtain ⟨hsame, os, hos, heq⟩ := sendFrames_streams cfg r.1 r.2
    (packetFrames cfg.env (cfg.systemClock r.2.log.length) r.2.user.frameId pkt)
  exact ⟨hsame, os, hos, heq⟩

theorem sendPackets_streams (pkts : List MediaPacket) (conn : Connection) (net : Server τ) :
    Streams conn net (pkts.foldl (sendPacket cfg) (conn, net)) := by
  suffices H : ∀ r, Streams conn net r → Streams conn net (pkts.foldl (sendPacket cfg) r) from H _ (streams_refl conn net)
  induction pkts with
  | nil => exact fun r h => h
  | cons pkt pkts ih => exact fun r h => ih _ (streams_trans h (sendPacket_streams cfg r pkt))

theorem tickMp4_streams (conn : Connection) (net : Server τ) : Streams conn net (tickMp4 cfg conn net) := by
  obtain ⟨⟨hfd, hstate⟩, hsends⟩ := sendPackets_streams cfg (onTimerMp4 cfg.src.packets conn).1 conn net
  exact ⟨⟨hfd, hstate⟩, hsends⟩

theorem tickRaw_streams (conn : Connection) (net : Server τ) : Streams conn net (tickRaw cfg conn net) := by
  unfold tickRaw
  cases hau : (onTimerRaw cfg.src.accessUnits conn).1 with
  | none =>
    simp only [hau]
    exact streams_refl conn net
  | some au =>
    simp only [hau]
    obtain ⟨⟨hfd, hstate⟩, hsends⟩ := sendFrames_streams cfg conn net (accessUnitFrames cfg.env cfg.src
      (cfg.systemClock net.log.length) net.user.frameId conn.auIndex au)
    exact ⟨⟨hfd, hstate⟩, hsends⟩

/-- `out` is the list of timeouts, before and after. -/
theorem view_visitConnection (now : Fd → Int) (r : Server τ × List Fd) (fd : Fd)
    (hfd : ∀ conn, (view r.1 fd).conn = some conn → conn.fd = fd) :
    visitConnection cfg now r fd = r ∨ ∃ v late, Visit fd (view r.1 fd) v late ∧
      view (visitConnection cfg now r fd).1 = put (view r.1) fd v ∧
      (visitConnection cfg now r fd).2 = r.2 ++ if late then [fd] else [] := by
  unfold visitConnection
  cases hconn : r.1.user.connections fd with
  | none => exact .inl rfl
  | some conn =>
    have hemit : view (r.1.emit (.visit fd conn (now fd))) =
        put (view r.1) fd ((view r.1 fd).emit [.visit fd conn (now fd)]) := view_emit ..
    have hcfd : conn.fd = fd := hfd conn hconn
    right
    by_cases htime : TimesOut conn (now fd)
    · obtain ⟨n, hn, heq⟩ := view_sendData cfg.ssl conn.fd (closeMsg 1008 "Negotiation timeout")
        (r.1.emit (.visit fd conn (now fd)))
      rw [hcfd, hemit, put_self] at hn
      rw [hcfd, hemit, put_self, put_put] at heq
      have hstate : ∀ net : Server τ, view (net.emit (.state fd .closing)) =
          put (view net) fd ((view net fd).emit [.state fd .closing]) := fun net => view_emit ..
      refine ⟨_, true, .timeout hconn htime hn, ?_, ?_⟩
      · simp only [if_pos htime, if_pos htime.1, hcfd, view_setConnection, hstate, heq, put_self, put_put]
        simp [View.emit]
      · simp only [if_pos htime, if_pos htime.1, hcfd, if_true]
    · by_cases hneg : conn.state = .negotiating
      · refine ⟨_, false, .skip hconn htime (by simp [hneg]), ?_, ?_⟩
        · simpa only [if_pos hneg, if_neg htime] using hemit
        · simp [hneg, htime]
      · by_cases hstream : conn.state = .streaming
        · have hticks : Streams conn (r.1.emit (.visit fd conn (now fd)))
              (if cfg.env.isMp4Mode then tickMp4 cfg conn (r.1.emit (.visit fd conn (now fd)))
                else tickRaw cfg conn (r.1.emit (.visit fd conn (now fd)))) := by
            split
            · exact tickMp4_streams cfg conn _
            · exact tickRaw_streams cfg conn _
          obtain ⟨hsame, os, hos, heq⟩ := hticks
          rw [hcfd, hemit, put_self] at hos
          rw [hcfd, hemit, put_self, put_put] at heq
          refine ⟨_, false, @Visit.stream fd _ conn _ (now fd) os hconn hstream hsame hos, ?_, ?_⟩
          · simp only [if_neg hneg, if_neg (not_not.mpr hstream), view_setConnection, heq, put_self, put_put]
            simp [View.emit]
          · simp [hstream]
        · refine ⟨_, false, .skip hconn htime hstream, ?_, ?_⟩
          · simpa only [if_neg hneg, ne_eq, hstream, not_false_eq_true, if_true] using hemit
          · simp [hneg, hstream]

end

end WebPlayer.L5.Server
