import WebPlayer.L4App.Schedule
import WebPlayer.L5Server.EventLoop

/-!
# The playback clock and the timer

`Timer::Read` returns how often the timer has expired since the last read.
`OnTimer` calls it for its side effect and drops the count, and each
connection's clock advances by 10 ms a callback, however many expirations the
callback stands for.

**The kernel's timer.** `Timer::Read` returns at least 1 when epoll has
reported it. Nothing is assumed of how the callbacks are scheduled.

**Results.**
* `Keeps`: what the user's callbacks keep, the event loop keeps.
* `onTimer_clock`: one callback, for one streaming connection.
* `clock_follows_iff`: over any run, the clock is 10 ms for each expiration
  iff no callback stands for more than one.
-/
namespace WebPlayer.L5.Server
open WebPlayer.Core WebPlayer.L3.Session WebPlayer.L3.Tls WebPlayer.L4.Media WebPlayer.L4.VideoServer

/-! ## What the callbacks keep -/

/-- A relation on the user's state that holds across each callback for `fd`. -/
structure Keeps {τ υ : Type} (cb : Callbacks τ υ) (fd : Fd) (Q : υ → υ → Prop) : Prop where
  refl (u : υ) : Q u u
  trans {u v w : υ} (h : Q u v) (h' : Q v w) : Q u w
  connect (u : υ) : Q u (cb.onConnect fd u)
  disconnect (u : υ) : Q u (cb.onDisconnect fd u)
  data (now : Int) (p : Bytes) (net : Net τ υ) : Q net.user (cb.onData now fd p net).user

namespace Keeps
variable {τ υ : Type} {cb : Callbacks τ υ} {Q : υ → υ → Prop}

section
variable {fd : Fd} (K : Keeps cb fd Q)
include K

theorem removeClient (caller : Caller) (net : Net τ υ) : Q net.user (L3.Tls.removeClient cb.onDisconnect caller fd net).user := by
  rw [removeClient_eq]
  simp only
  split
  · exact K.disconnect net.user
  · exact K.refl net.user

variable (S : Ssl τ)

theorem continueTlsHandshake (net : Net τ υ) :
    Q net.user (L3.Tls.continueTlsHandshake cb S fd net).user := by
  unfold L3.Tls.continueTlsHandshake
  cases net.tls fd with
  | none => exact K.refl net.user
  | some c =>
    simp only
    split
    · exact K.refl net.user
    · exact K.removeClient .handshake ((net.setTls fd _).emit _)
    · exact K.connect net.user

omit K in
theorem sslRead_user (fd : Fd) (net : Net τ υ) : (sslRead S fd net).2.user = net.user := by
  unfold sslRead
  cases net.tls fd with
  | some c => rfl
  | none => cases net.stray <;> rfl

theorem readLoop (now : Int) (n : Nat) (net : Net τ υ) :
    Q net.user (L3.Tls.readLoop cb S now fd n net).user := by
  induction n generalizing net with
  | zero => exact K.refl net.user
  | succ n ih =>
    rw [L3.Tls.readLoop, ← sslRead_user S fd net]
    cases (sslRead S fd net).1 with
    | want => exact K.refl _
    | closed => exact K.removeClient .read _
    | data p =>
      have hdata := K.data now p (sslRead S fd net).2
      simp only
      split
      · exact hdata
      · exact K.trans hdata (ih _)

theorem onTcpData (now : Int) (data : Bytes) (net : Net τ υ) :
    Q net.user (L3.Tls.onTcpData cb S now fd data net).user := by
  unfold L3.Tls.onTcpData
  cases net.tls fd with
  | none => exact K.refl net.user
  | some c =>
    simp only
    split
    · exact K.continueTlsHandshake S (net.setTls fd _)
    · exact K.readLoop S now _ (net.setTls fd _)

theorem handleClientData (rets : List RecvRet) (net : Net τ υ) :
    Q net.user (L3.Tls.handleClientData cb S fd rets net).user := by
  induction rets generalizing net with
  | nil =>
    simp only [L3.Tls.handleClientData]
    split
    · exact K.refl net.user
    · exact K.removeClient .recv (net.emit _)
  | cons ret rets ih =>
    simp only [L3.Tls.handleClientData]
    split
    · exact K.removeClient .recv (net.emit _)
    · cases ret with
      | eof => exact K.removeClient .recv (net.emit _)
      | error => exact K.removeClient .recv (net.emit _)
      | data now bytes =>
        have hdata := K.onTcpData S now bytes (net.emit (.recv fd))
        simp only
        split
        · exact hdata
        · exact K.trans hdata (ih _)

theorem clientEvent (hup : Bool) (rets : List RecvRet) (net : Net τ υ) :
    Q net.user (L3.Tls.clientEvent cb S fd hup rets net).user := by
  unfold L3.Tls.clientEvent
  split
  · exact K.removeClient .event (net.emit _)
  · exact K.handleClientData S rets (net.emit _)

end

theorem acceptConnection (K : ∀ fd, Keeps cb fd Q) (rets : List (AcceptRet τ)) (net : Net τ υ) :
    Q net.user (L3.Tls.acceptConnection cb rets net).user := by
  induction rets generalizing net with
  | nil => exact (K 0).refl net.user
  | cons ret rets ih =>
    refine (K ret.fd).trans ?_ (ih _)
    unfold acceptOne
    split
    · exact (K ret.fd).refl net.user
    · cases ret with
      | refused fd => exact (K fd).refl net.user
      | client fd ssl =>
        cases ssl with
        | none => exact (K fd).removeClient .connect { net.emit (.accept fd) with opened := put net.opened fd true }
        | some t => exact (K fd).refl net.user

end Keeps

/-! ## Records outside the timer -/

variable {τ : Type} (cfg : Config τ)

/-- A record of `v'` is new, or was there in `v` with the same clock. -/
structure Carried (v v' : Video) : Prop where
  total : v.totalConnections ≤ v'.totalConnections
  record : ∀ fd conn', v'.connections fd = some conn' →
    (v.totalConnections < conn'.id ∧ conn'.id ≤ v'.totalConnections) ∨
      ∃ conn, v.connections fd = some conn ∧ conn.id = conn'.id ∧ conn.playbackTimeMs = conn'.playbackTimeMs

theorem Carried.put {v : Video} {fd : Fd} {c : Option Connection} {n : Nat} (hn : v.totalConnections ≤ n)
    (hc : ∀ conn', c = some conn' → (v.totalConnections < conn'.id ∧ conn'.id ≤ n) ∨
      ∃ conn, v.connections fd = some conn ∧ conn.id = conn'.id ∧ conn.playbackTimeMs = conn'.playbackTimeMs) :
    Carried v { v with totalConnections := n, connections := put v.connections fd c } := by
  refine ⟨hn, fun fd' conn' hconn' => ?_⟩
  by_cases hfd : fd' = fd
  · simp only [hfd, put_self] at hconn' ⊢
    exact hc conn' hconn'
  · simp only [put_other _ hfd] at hconn'
    exact .inr ⟨conn', hconn', rfl, rfl⟩

theorem Carried.refl (v : Video) : Carried v v := ⟨Nat.le_refl _, fun _ conn h => .inr ⟨conn, h, rfl, rfl⟩⟩

theorem Carried.trans {v v' v'' : Video} (h : Carried v v') (h' : Carried v' v'') : Carried v v'' := by
  have htotal := h.total
  have htotal' := h'.total
  refine ⟨Nat.le_trans htotal htotal', fun fd conn'' hconn'' => ?_⟩
  rcases h'.record fd conn'' hconn'' with ⟨hlt, hle⟩ | ⟨conn', hconn', hid', hclock'⟩
  · exact .inl ⟨by omega, hle⟩
  · rcases h.record fd conn' hconn' with ⟨hlt, hle⟩ | ⟨conn, hconn, hid, hclock⟩
    · exact .inl ⟨by omega, by omega⟩
    · exact .inr ⟨conn, hconn, hid.trans hid', hclock.trans hclock'⟩

/-- Ids are handed out in order. -/
def Registered (v : Video) : Prop := ∀ fd conn, v.connections fd = some conn → conn.id ≤ v.totalConnections

theorem Carried.registered {v v' : Video} (h : Carried v v') (hv : Registered v) : Registered v' := by
  intro fd conn' hconn'
  rcases h.record fd conn' hconn' with ⟨-, hle⟩ | ⟨conn, hconn, hid, -⟩
  · exact hle
  · have hle := hv fd conn hconn
    have htotal := h.total
    omega

theorem perform_user (fd : Fd) (net : Server τ) (o : Out) : (perform cfg fd net o).user = net.user := by
  cases o with
  | dispatch opcode payload => rfl
  | setState state => rfl
  | send msg =>
    unfold perform sendData
    cases net.tls fd with
    | none => rfl
    | some c =>
      simp only
      split <;> rfl
  | close => simp only [perform, closeConnection_eq]

theorem performs_user (fd : Fd) (outs : List Out) (net : Server τ) : (outs.foldl (perform cfg fd) net).user = net.user := by
  induction outs generalizing net with
  | nil => rfl
  | cons o outs ih => exact (ih _).trans (perform_user cfg fd net o)

/-- The session never touches the clock. -/
theorem handleData_clock (env : Env) (now : Int) (conn : Connection) (data : Bytes) :
    (L3.Session.handleData env now conn data).conn.id = conn.id ∧
      (L3.Session.handleData env now conn data).conn.playbackTimeMs = conn.playbackTimeMs := by
  rcases handleData_cases env now conn data with ⟨-, heq⟩ | ⟨-, heq⟩ | heq
  · rw [heq]
    unfold handleUpgrade
    split
    · exact ⟨rfl, rfl⟩
    · split
      · exact ⟨rfl, rfl⟩
      · split <;> exact ⟨rfl, rfl⟩
  · rw [heq, handleWebSocketFrame_eq]
    exact ⟨rfl, rfl⟩
  · rw [heq]
    exact ⟨rfl, rfl⟩

theorem carried_data (now : Int) (fd : Fd) (p : Bytes) (net : Server τ) :
    Carried net.user (L4.VideoServer.handleData cfg now fd p net).user := by
  unfold L4.VideoServer.handleData
  cases hconn : net.user.connections fd with
  | none => exact .refl _
  | some conn =>
    simp only [performs_user]
    refine Carried.put (Nat.le_refl _) fun conn' hconn' => ?_
    obtain ⟨hid, hclock⟩ := handleData_clock cfg.env now conn p
    cases hconn'
    exact .inr ⟨conn, hconn, hid.symm, hclock.symm⟩

theorem carried_keeps (fd : Fd) : Keeps (callbacks cfg) fd Carried where
  refl := .refl
  trans := .trans
  connect v := by
    refine Carried.put (Nat.le_succ _) fun conn' hconn' => ?_
    cases hconn'
    exact .inl ⟨Nat.lt_succ_self _, Nat.le_refl _⟩
  disconnect v := Carried.put (Nat.le_refl _) nofun
  data now p net := carried_data cfg now fd p net

/-- The callbacks for one descriptor leave the others' records alone. -/
theorem other_keeps {fd fd' : Fd} (hne : fd' ≠ fd) :
    Keeps (callbacks cfg) fd (fun v v' => v'.connections fd' = v.connections fd') where
  refl _ := rfl
  trans h h' := h'.trans h
  connect _ := put_other _ hne _
  disconnect _ := put_other _ hne _
  data now p net := by
    show (L4.VideoServer.handleData cfg now fd p net).user.connections fd' = _
    unfold L4.VideoServer.handleData
    cases hconn : net.user.connections fd with
    | none => rfl
    | some conn =>
      simp only [performs_user]
      exact put_other _ hne _

/-! ## The timer -/

theorem sendData_user (S : Ssl τ) (fd : Fd) (msg : Msg) (net : Server τ) : (sendData S fd msg net).2.user = net.user := by
  unfold sendData
  cases net.tls fd with
  | none => rfl
  | some c =>
    simp only
    split <;> rfl

theorem sendFrames_user (frames : List Bytes) (conn : Connection) (net : Server τ) :
    (sendFrames cfg conn net frames).2.user = net.user := by
  induction frames generalizing conn net with
  | nil => rfl
  | cons frame frames ih => rw [sendFrames, ih, sendData_user]

theorem sendFrames_id (frames : List Bytes) (conn : Connection) (net : Server τ) :
    (sendFrames cfg conn net frames).1.id = conn.id := by
  induction frames generalizing conn net with
  | nil => rfl
  | cons frame frames ih =>
    rw [sendFrames, ih]
    split <;> rfl

/-- Media change no record but the connection's own, which keeps its id. -/
structure Ticked (conn : Connection) (net : Server τ) (r : Connection × Server τ) : Prop where
  id : r.1.id = conn.id
  total : r.2.user.totalConnections = net.user.totalConnections
  connections : r.2.user.connections = net.user.connections

theorem sendPackets_ticked (pkts : List MediaPacket) (conn : Connection) (net : Server τ) :
    Ticked conn net (pkts.foldl (sendPacket cfg) (conn, net)) := by
  induction pkts generalizing conn net with
  | nil => exact ⟨rfl, rfl, rfl⟩
  | cons pkt pkts ih =>
    have hstep : Ticked conn net (sendPacket cfg (conn, net) pkt) := by
      constructor <;> simp only [sendPacket, countFrame, sendFrames_id, sendFrames_user]
    obtain ⟨hid, htotal, hconns⟩ := ih (sendPacket cfg (conn, net) pkt).1 (sendPacket cfg (conn, net) pkt).2
    exact ⟨hid.trans hstep.id, htotal.trans hstep.total, hconns.trans hstep.connections⟩

theorem tickMp4_ticked (conn : Connection) (net : Server τ) : Ticked conn net (tickMp4 cfg conn net) := by
  obtain ⟨hid, htotal, hconns⟩ := sendPackets_ticked cfg (onTimerMp4 cfg.src.packets conn).1 conn net
  exact ⟨hid, htotal, hconns⟩

theorem tickRaw_ticked (conn : Connection) (net : Server τ) : Ticked conn net (tickRaw cfg conn net) := by
  unfold tickRaw
  cases hau : (onTimerRaw cfg.src.accessUnits conn).1 with
  | none =>
    simp only [hau]
    exact ⟨rfl, rfl, rfl⟩
  | some au =>
    simp only [hau]
    constructor <;> simp only [countFrame, sendFrames_id, sendFrames_user]

/-- Records go, or keep their id. -/
structure SameIds (v v' : Video) : Prop where
  total : v'.totalConnections = v.totalConnections
  record : ∀ fd conn', v'.connections fd = some conn' → ∃ conn, v.connections fd = some conn ∧ conn.id = conn'.id

theorem SameIds.refl (v : Video) : SameIds v v := ⟨rfl, fun _ conn h => ⟨conn, h, rfl⟩⟩

theorem SameIds.trans {v v' v'' : Video} (h : SameIds v v') (h' : SameIds v' v'') : SameIds v v'' := by
  refine ⟨h'.total.trans h.total, fun fd conn'' hconn'' => ?_⟩
  obtain ⟨conn', hconn', hid'⟩ := h'.record fd conn'' hconn''
  obtain ⟨conn, hconn, hid⟩ := h.record fd conn' hconn'
  exact ⟨conn, hconn, hid.trans hid'⟩

theorem SameIds.registered {v v' : Video} (h : SameIds v v') (hv : Registered v) : Registered v' := by
  intro fd conn' hconn'
  obtain ⟨conn, hconn, hid⟩ := h.record fd conn' hconn'
  rw [h.total, ← hid]
  exact hv fd conn hconn

theorem setConnection_sameIds (net : Server τ) {net' : Server τ} {fd : Fd} {conn conn' : Connection}
    (hconn : net.user.connections fd = some conn) (hm : Ticked conn net (conn', net')) :
    SameIds net.user (setConnection net' fd conn').user := by
  refine ⟨hm.total, fun fd' conn'' hconn'' => ?_⟩
  by_cases hfd : fd' = fd
  · simp only [setConnection, hfd, put_self, Option.some.injEq] at hconn''
    exact ⟨conn, hfd ▸ hconn, hconn'' ▸ hm.id.symm⟩
  · simp only [setConnection, put_other _ hfd] at hconn''
    exact ⟨conn'', (congrFun hm.connections fd').symm.trans hconn'', rfl⟩

theorem visit_sameIds (now : Fd → Int) (r : Server τ × List Fd) (fd : Fd) :
    SameIds r.1.user (visitConnection cfg now r fd).1.user := by
  unfold visitConnection
  cases hconn : r.1.user.connections fd with
  | none => exact .refl _
  | some conn =>
    simp only
    split
    · split
      · refine setConnection_sameIds r.1 hconn ⟨rfl, ?_, ?_⟩
        · exact congrArg _ (sendData_user cfg.ssl _ _ _)
        · exact congrArg _ (sendData_user cfg.ssl _ _ _)
      · exact .refl _
    · split
      · exact .refl _
      · apply setConnection_sameIds (r.1.emit (.visit fd conn (now fd))) hconn
        split
        · exact tickMp4_ticked cfg conn _
        · exact tickRaw_ticked cfg conn _

theorem timeouts_user (late : List Fd) (net : Server τ) :
    (late.foldl (fun net fd => closeConnection removeConnection fd net) net).user = net.user := by
  induction late generalizing net with
  | nil => rfl
  | cons fd late ih => exact (ih _).trans (by simp only [closeConnection_eq])

theorem onTimer_sameIds (now : Fd → Int) (order : List Fd) (net : Server τ) : SameIds net.user (onTimer cfg now order net).user := by
  have hvisits : ∀ (order : List Fd) (r : Server τ × List Fd), SameIds r.1.user (order.foldl (visitConnection cfg now) r).1.user := by
    intro order
    induction order with
    | nil => exact fun r => .refl _
    | cons fd order ih => exact fun r => (visit_sameIds cfg now r fd).trans (ih _)
  rw [onTimer, timeouts_user]
  exact hvisits order (net, [])

theorem processItem_registered {net : Server τ} (h : Registered net.user) (item : Item τ) :
    Registered (processItem cfg net item).user := by
  cases item with
  | listen rets => exact (Keeps.acceptConnection (carried_keeps cfg) rets net).registered h
  | timer now order => exact (onTimer_sameIds cfg now order net).registered h
  | client fd hup rets => exact ((carried_keeps cfg fd).clientEvent cfg.ssl hup rets net).registered h

theorem reachable_registered {s : Sys τ} (h : (system cfg).Reachable s) : Registered s.net.user := by
  have hfarewell : ∀ (order : List Fd) (msg : Msg) (net : Server τ),
      (order.foldl (fun net fd => (sendData cfg.ssl fd msg net).2) net).user = net.user := by
    intro order msg
    induction order with
    | nil => exact fun net => rfl
    | cons fd order ih => exact fun net => (ih _).trans (sendData_user cfg.ssl fd msg net)
  refine Lts.Inductive.reachable (I := fun s => Registered s.net.user) ⟨?_, ?_⟩ h
  · rintro s ⟨stray, rfl⟩
    exact nofun
  · rintro s l s' hs (⟨-, -⟩ | ⟨-, -⟩ | ⟨-, -⟩)
    · exact hs
    · exact processItem_registered cfg hs _
    · simp only [shutdown, stop, hfarewell]
      exact hs

/-! ## One callback -/

theorem visit_other (now : Fd → Int) (r : Server τ × List Fd) {fd fd' : Fd} (hne : fd ≠ fd') :
    (visitConnection cfg now r fd').1.user.connections fd = r.1.user.connections fd := by
  unfold visitConnection
  cases r.1.user.connections fd' with
  | none => rfl
  | some conn =>
    simp only
    split
    · split
      · simp only [setConnection, put_other _ hne, Net.emit, sendData_user]
      · rfl
    · split
      · rfl
      · simp only [setConnection, put_other _ hne]
        split
        · exact congrFun (tickMp4_ticked cfg conn _).connections fd
        · exact congrFun (tickRaw_ticked cfg conn _).connections fd

theorem visits_other (now : Fd → Int) (order : List Fd) (r : Server τ × List Fd) {fd : Fd} (hfd : fd ∉ order) :
    (order.foldl (visitConnection cfg now) r).1.user.connections fd = r.1.user.connections fd := by
  induction order generalizing r with
  | nil => rfl
  | cons fd' order ih =>
    obtain ⟨hne, hrest⟩ := List.ne_and_not_mem_of_not_mem_cons hfd
    rw [List.foldl_cons, ih _ hrest, visit_other cfg now r hne]

theorem visit_streaming (hmp4 : cfg.env.isMp4Mode = true) (now : Fd → Int) {r : Server τ × List Fd} {fd : Fd}
    {conn : Connection} (hconn : r.1.user.connections fd = some conn) (hstate : conn.state = .streaming) :
    ∃ conn', (visitConnection cfg now r fd).1.user.connections fd = some conn' ∧ conn'.id = conn.id ∧
      conn'.state = .streaming ∧ conn'.playbackTimeMs = (onTimerMp4 cfg.src.packets conn).2.playbackTimeMs ∧
      conn'.packetIndex = (onTimerMp4 cfg.src.packets conn).2.packetIndex := by
  have hneg : conn.state ≠ .negotiating := by
    rw [hstate]
    decide
  simp only [visitConnection, hconn, if_neg hneg, if_neg (not_not.mpr hstate), if_pos hmp4, setConnection, put_self]
  exact ⟨_, rfl, (tickMp4_ticked cfg conn _).id, (tickMp4_streams cfg conn _).same.state.trans hstate, rfl, rfl⟩

/-- One streaming connection of an MP4 file, after `OnTimer`. -/
theorem onTimer_clock (hmp4 : cfg.env.isMp4Mode = true) (now : Fd → Int) {order : List Fd} {net : Server τ}
    (hok : Visits net order) {fd : Fd} {conn : Connection} (hconn : net.user.connections fd = some conn)
    (hstate : conn.state = .streaming) :
    ∃ conn', (onTimer cfg now order net).user.connections fd = some conn' ∧ conn'.id = conn.id ∧
      conn'.state = .streaming ∧ conn'.playbackTimeMs = (onTimerMp4 cfg.src.packets conn).2.playbackTimeMs ∧
      conn'.packetIndex = (onTimerMp4 cfg.src.packets conn).2.packetIndex := by
  have hmem : fd ∈ order := (hok.2 fd).mpr (by rw [hconn]; rfl)
  obtain ⟨before, after, rfl⟩ := List.append_of_mem hmem
  have hnd := List.nodup_middle.mp hok.1
  have hout := (List.nodup_cons.mp hnd).1
  rw [List.mem_append, not_or] at hout
  have hbefore := visits_other cfg now before (net, []) hout.1
  rw [hconn] at hbefore
  obtain ⟨conn', hconn', hid, hstill, hclock⟩ := visit_streaming cfg hmp4 now hbefore hstate
  refine ⟨conn', ?_, hid, hstill, hclock⟩
  rw [onTimer, timeouts_user, List.foldl_append, List.foldl_cons, visits_other cfg now after _ hout.2]
  exact hconn'

/-! ## Runs -/

/-- An event of the loop; with the timer's, what `Timer::Read` returns. -/
inductive Event (τ : Type) where
  | timer (expirations : Nat) (now : Fd → Int) (order : List Fd)
  | listen (rets : List (AcceptRet τ))
  | client (fd : Fd) (hup : Bool) (rets : List RecvRet)

/-- `timer_.Read();` drops the count.
mirrors server/main.cpp:568-569 -/
def Event.item : Event τ → Item τ
  | .timer _ now order => .timer now order
  | .listen rets => .listen rets
  | .client fd hup rets => .client fd hup rets

/-- The expirations of the timer's events. -/
def Event.expirations : Event τ → List Nat
  | .timer expirations _ _ => [expirations]
  | _ => []

/-- Connection `id`, under `fd`, is STREAMING, and its clock shows `t`. -/
def StreamingAt (fd : Fd) (id : Nat) (net : Server τ) (t : Nat) : Prop :=
  ∃ conn, net.user.connections fd = some conn ∧ conn.id = id ∧ conn.state = .streaming ∧ conn.playbackTimeMs = t

/-- A run between whose events the connection is STREAMING. -/
inductive StreamingRun (fd : Fd) (id : Nat) : Server τ → List (Event τ) → Server τ → Prop where
  | nil {net : Server τ} (h : ∃ t, StreamingAt fd id net t) : StreamingRun fd id net [] net
  | cons {net net' : Server τ} {e : Event τ} {es : List (Event τ)} (h : ∃ t, StreamingAt fd id net t)
      (hcr : net.crashed = false) (hok : ItemOk net e.item)
      (hrun : StreamingRun fd id (processItem cfg net e.item) es net') : StreamingRun fd id net (e :: es) net'

def expirations (es : List (Event τ)) : List Nat := es.flatMap Event.expirations

/-- The callbacks that advance the clock. -/
def ticks (packets : List MediaPacket) (es : List (Event τ)) : Nat := if packets = [] then 0 else (expirations es).length

theorem ticks_cons (packets : List MediaPacket) (e : Event τ) (es : List (Event τ)) :
    ticks packets (e :: es) = ticks packets [e] + ticks packets es := by
  unfold ticks
  split
  · rfl
  · simp [expirations]

theorem onTimerMp4_clock (packets : List MediaPacket) {conn : Connection} {m : Nat} (h : conn.playbackTimeMs = clock m) :
    (onTimerMp4 packets conn).2.playbackTimeMs = clock (m + if packets = [] then 0 else 1) := by
  unfold onTimerMp4
  by_cases hnil : packets = []
  · simp [hnil, h]
  · simp only [List.length_eq_zero_iff, if_neg hnil, h]
    rfl

/-- One event. -/
theorem StreamingAt.step (hmp4 : cfg.env.isMp4Mode = true) {fd : Fd} {id : Nat} {net : Server τ} {m t : Nat}
    (h : StreamingAt fd id net (clock m)) (hreg : Registered net.user) {e : Event τ} (hok : ItemOk net e.item)
    (h' : StreamingAt fd id (processItem cfg net e.item) t) : t = clock (m + ticks cfg.src.packets [e]) := by
  obtain ⟨conn, hconn, hid, hstate, hclock⟩ := h
  obtain ⟨conn', hconn', hid', -, rfl⟩ := h'
  have hother : Carried net.user (processItem cfg net e.item).user → e.expirations = [] →
      conn'.playbackTimeMs = clock (m + ticks cfg.src.packets [e]) := by
    intro hcarried hnone
    have hle := hreg fd conn hconn
    have hzero : ticks cfg.src.packets [e] = 0 := by simp [ticks, expirations, hnone]
    rcases hcarried.record fd conn' hconn' with ⟨hlt, -⟩ | ⟨conn'', hconn'', -, hsame⟩
    · omega
    · rw [hconn] at hconn''
      cases hconn''
      rw [← hsame, hclock, hzero, Nat.add_zero]
  cases e with
  | timer expirations now order =>
    obtain ⟨conn'', hconn'', -, -, hnext, -⟩ := onTimer_clock cfg hmp4 now hok hconn hstate
    have heq : conn'' = conn' := Option.some.inj (hconn''.symm.trans hconn')
    rw [← heq, hnext, onTimerMp4_clock _ hclock]
    rfl
  | listen rets => exact hother (Keeps.acceptConnection (carried_keeps cfg) rets net) rfl
  | client fd' hup rets => exact hother ((carried_keeps cfg fd').clientEvent cfg.ssl hup rets net) rfl

theorem StreamingRun.first {fd : Fd} {id : Nat} {net net' : Server τ} {es : List (Event τ)}
    (h : StreamingRun cfg fd id net es net') : ∃ t, StreamingAt fd id net t := by
  cases h with
  | nil h => exact h
  | cons h => exact h

/-- A run: the clock counts the callbacks. -/
theorem StreamingRun.clock (hmp4 : cfg.env.isMp4Mode = true) {fd : Fd} {id : Nat} {net net' : Server τ}
    {es : List (Event τ)} (hrun : StreamingRun cfg fd id net es net') {m : Nat} (h : StreamingAt fd id net (clock m))
    (hreg : Registered net.user) : StreamingAt fd id net' (clock (m + ticks cfg.src.packets es)) := by
  induction hrun generalizing m with
  | nil =>
    have hzero : ticks cfg.src.packets ([] : List (Event τ)) = 0 := by simp [ticks, expirations]
    rwa [hzero]
  | cons hany hcr hok hrun ih =>
    obtain ⟨t, ht⟩ := hrun.first
    have hstep := h.step cfg hmp4 hreg hok ht
    rw [ticks_cons, ← Nat.add_assoc]
    exact ih (hstep ▸ ht) (processItem_registered cfg hreg _)

/-- A callback alone is such a run. -/
theorem StreamingAt.tick (hmp4 : cfg.env.isMp4Mode = true) {fd : Fd} {id t : Nat} {net : Server τ}
    (h : StreamingAt fd id net t) (hcr : net.crashed = false) {order : List Fd} (hok : Visits net order) (n : Nat)
    (now : Fd → Int) : StreamingRun cfg fd id net [.timer n now order] (onTimer cfg now order net) := by
  have ⟨conn, hconn, hid, hstate, _⟩ := h
  obtain ⟨conn', hconn', hid', hstate', -⟩ := onTimer_clock cfg hmp4 now hok hconn hstate
  exact .cons ⟨t, h⟩ hcr hok (.nil ⟨_, conn', hconn', hid'.trans hid, hstate', rfl⟩)

theorem StreamingRun.append {fd : Fd} {id : Nat} {net net₁ net' : Server τ} {es es' : List (Event τ)}
    (h : StreamingRun cfg fd id net es net₁) (h' : StreamingRun cfg fd id net₁ es' net') :
    StreamingRun cfg fd id net (es ++ es') net' := by
  induction h with
  | nil => exact h'
  | cons hany hcr hok _ ih => exact .cons hany hcr hok (ih h')

theorem StreamingAt.unique {fd : Fd} {id : Nat} {net : Server τ} {t t' : Nat} (h : StreamingAt fd id net t)
    (h' : StreamingAt fd id net t') : t = t' := by
  obtain ⟨conn, hconn, -, -, ht⟩ := h
  obtain ⟨conn', hconn', -, -, ht'⟩ := h'
  rw [hconn] at hconn'
  cases hconn'
  exact ht.symm.trans ht'

/-- Positive numbers sum to their count iff each is 1. -/
theorem sum_eq_length_iff {l : List Nat} (h : ∀ e ∈ l, 1 ≤ e) : l.sum = l.length ↔ ∀ e ∈ l, e = 1 := by
  induction l with
  | nil => simp
  | cons e l ih =>
    obtain ⟨he, hl⟩ := List.forall_mem_cons.mp h
    have hle : l.length ≤ l.sum := List.length_le_sum_of_one_le l hl
    rw [List.forall_mem_cons, ← ih hl, List.sum_cons, List.length_cons]
    omega

/-- **The clock and the timer.** In a run in which a connection streams
throughout, from clock 0: the clock shows 10 ms for each expiration of the
timer iff every callback stands for exactly one. -/
theorem clock_follows_iff {s : Sys τ} (hreach : (system cfg).Reachable s) (hmp4 : cfg.env.isMp4Mode = true) {fd : Fd}
    {id : Nat} (hzero : StreamingAt fd id s.net 0) {es : List (Event τ)} {net' : Server τ}
    (hrun : StreamingRun cfg fd id s.net es net') (hpos : ∀ e ∈ expirations es, 1 ≤ e)
    (hexact : 10 * (expirations es).sum ≤ 2 ^ 53) :
    StreamingAt fd id net' (10 * (expirations es).sum) ↔
      expirations es = [] ∨ (cfg.src.packets ≠ [] ∧ ∀ e ∈ expirations es, e = 1) := by
  have hend := hrun.clock cfg hmp4 (m := 0) hzero (reachable_registered cfg hreach)
  have hle : (expirations es).length ≤ (expirations es).sum := List.length_le_sum_of_one_le _ hpos
  have hticks : ticks cfg.src.packets es ≤ (expirations es).length := by
    unfold ticks
    split
    · exact Nat.zero_le _
    · exact Nat.le_refl _
  rw [Nat.zero_add, clock_eq (by omega)] at hend
  have hiff : StreamingAt fd id net' (10 * (expirations es).sum) ↔ ticks cfg.src.packets es = (expirations es).sum := by
    constructor
    · intro h
      have heq := h.unique hend
      omega
    · intro h
      rwa [← h]
  rw [hiff, ← sum_eq_length_iff hpos, ticks]
  by_cases hnil : cfg.src.packets = []
  · rw [if_pos hnil, ← List.length_eq_zero_iff]
    constructor
    · intro h
      exact .inl (by omega)
    · rintro (h | ⟨hne, -⟩)
      · have hsum : (expirations es).sum = 0 := by rw [List.length_eq_zero_iff.mp h]; rfl
        exact hsum.symm
      · exact absurd hnil hne
  · rw [if_neg hnil]
    constructor
    · exact fun h => .inr ⟨hnil, h.symm⟩
    · rintro (h | ⟨-, h⟩)
      · simp [h]
      · exact h.symm

/-- The last packet takes two protocol frames. -/
def filePackets : List MediaPacket :=
  [⟨.video, [0, 0, 0, 1, 0x65], 5⟩, ⟨.audio, [7], 15⟩, ⟨.video, List.replicate 16385 0x41, 25⟩]

/-- The plain server with a file of three packets. -/
def mp4Config : Config Bytes :=
  { plainConfig with env := { sampleEnv with isMp4Mode := true }
                     src := { plainConfig.src with packets := filePackets } }

def plainAnswer : Bytes :=
  let text := ascii "\x7b\"type\":\"media-answer\",\"payload\":\x7b\"accepted\":true\x7d\x7d"
  [0x81, UInt8.ofNat (0x80 + text.length), 0, 0, 0, 0] ++ text

section
variable (cfg : Config Bytes)

/-- Descriptor 5 after so many of its receptions. -/
def plainSession (received : List Bytes) : Server Bytes :=
  received.foldl (fun net p => processItem cfg net (.client 5 false [.data 0 p]))
    (processItem cfg (initial []) (.listen [.client 5 (some [])]))

/-- And, after its answer, so many callbacks of the timer. -/
def plainTicks : Nat → Server Bytes
  | 0 => plainSession cfg [[1], sampleRequest, plainAnswer]
  | n + 1 => onTimer cfg (fun _ => 0) [5] (plainTicks n)

variable {cfg}

/-- Descriptor 5 is open and there was no fault. -/
def Fine (net : Server Bytes) : Prop := net.crashed = false ∧ net.opened 5 = true

instance (net : Server Bytes) : Decidable (Fine net) := inferInstanceAs (Decidable (_ ∧ _))

theorem reachable_listen : (system cfg).Reachable ⟨plainSession cfg [], [], false⟩ := by
  unfold plainSession
  apply reachable_item (Lts.reachable_init ⟨[], rfl⟩)
  · rfl
  · exact ⟨List.nodup_nil, nofun⟩
  · trivial

theorem reachable_received {received : List Bytes} (h : (system cfg).Reachable ⟨plainSession cfg received, [], false⟩)
    (p : Bytes) (hfine : Fine (plainSession cfg received)) : (system cfg).Reachable ⟨plainSession cfg (received ++ [p]), [], false⟩ := by
  have hnext : plainSession cfg (received ++ [p]) =
      processItem cfg (plainSession cfg received) (.client 5 false [.data 0 p]) := by
    rw [plainSession, List.foldl_append]
    rfl
  rw [hnext]
  refine reachable_item h hfine.1 ⟨List.nodup_singleton _, ?_⟩ trivial
  intro fd hfd
  rw [List.mem_singleton.mp hfd]
  exact hfine.2

theorem reachable_answered (h₀ : Fine (plainSession cfg [])) (h₁ : Fine (plainSession cfg [[1]]))
    (h₂ : Fine (plainSession cfg [[1], sampleRequest])) : (system cfg).Reachable ⟨plainTicks cfg 0, [], false⟩ :=
  reachable_received (reachable_received (reachable_received reachable_listen [1] h₀) sampleRequest h₁) plainAnswer h₂

/-- No other descriptor has a record. -/
theorem plainTicks_other {fd : Fd} (hfd : fd ≠ 5) (n : Nat) : (plainTicks cfg n).user.connections fd = none := by
  induction n with
  | zero =>
    have hstep : ∀ net p, (processItem cfg net (.client 5 false [.data 0 p])).user.connections fd =
        net.user.connections fd := fun net p => (other_keeps cfg hfd).clientEvent cfg.ssl false _ net
    simp only [plainTicks, plainSession, List.foldl_cons, List.foldl_nil, hstep]
    rfl
  | succ n ih =>
    have hout : fd ∉ [5] := by simpa using hfd
    rw [plainTicks, onTimer, timeouts_user, visits_other cfg _ [5] _ hout]
    exact ih

theorem plainTicks_visits {n : Nat} {conn : Connection} (h : (plainTicks cfg n).user.connections 5 = some conn) :
    Visits (plainTicks cfg n) [5] := by
  refine ⟨List.nodup_singleton _, fun fd => ?_⟩
  rw [List.mem_singleton]
  by_cases hfd : fd = 5
  · rw [hfd, h]
    exact ⟨fun _ => rfl, fun _ => rfl⟩
  · rw [plainTicks_other hfd n]
    exact ⟨fun h => absurd h hfd, nofun⟩

theorem reachable_tick {n : Nat} {conn : Connection} (h : (system cfg).Reachable ⟨plainTicks cfg n, [], false⟩)
    (hcr : (plainTicks cfg n).crashed = false) (hconn : (plainTicks cfg n).user.connections 5 = some conn) :
    (system cfg).Reachable ⟨plainTicks cfg (n + 1), [], false⟩ := by
  show (system cfg).Reachable ⟨processItem cfg (plainTicks cfg n) (.timer (fun _ => 0) [5]), [], false⟩
  apply reachable_item h hcr
  · exact ⟨List.nodup_nil, fun fd hfd => absurd hfd List.not_mem_nil⟩
  · exact plainTicks_visits hconn

end

def plainStreaming : Server Bytes := plainTicks mp4Config 0

theorem reachable_streaming : (system mp4Config).Reachable ⟨plainStreaming, [], false⟩ :=
  reachable_answered (by decide) (by decide) (by decide)

theorem plainStreaming_state : plainStreaming.crashed = false ∧
    plainStreaming.user.connections 5 = some { fd := 5, id := 1, state := .streaming } := by decide

theorem plainStreaming_conn : plainStreaming.user.connections 5 = some { fd := 5, id := 1, state := .streaming } :=
  plainStreaming_state.2

/-- One callback, for so many expirations. -/
def plainTick (expirations : Nat) : Event Bytes := .timer expirations (fun _ => 0) [5]

theorem plainStreaming_at : StreamingAt 5 1 plainStreaming 0 := ⟨_, plainStreaming_conn, rfl, rfl, rfl⟩

theorem plainTicks_tick {n t : Nat} (h : StreamingAt 5 1 (plainTicks mp4Config n) t)
    (hcr : (plainTicks mp4Config n).crashed = false) (expirations : Nat) :
    StreamingRun mp4Config 5 1 (plainTicks mp4Config n) [plainTick expirations] (plainTicks mp4Config (n + 1)) := by
  obtain ⟨conn, hconn, -⟩ := id h
  exact h.tick mp4Config rfl hcr (plainTicks_visits hconn) expirations _

/-- Descriptor 5 after two callbacks. -/
def tickedConn : Connection :=
  { fd := 5, id := 1, state := .streaming, packetIndex := 2, messagesSent := 2, bytesSent := 74, playbackTimeMs := 20 }

theorem plainTicks_once : (plainTicks mp4Config 1).crashed = false ∧
    ((plainTicks mp4Config 1).user.connections 5).map (fun conn => (conn.id, conn.state, conn.playbackTimeMs)) =
      some (1, .streaming, 10) := by decide

theorem plainTicks_twice : (plainTicks mp4Config 2).crashed = false ∧
    (plainTicks mp4Config 2).user.connections 5 = some tickedConn := by decide +kernel

/-- The third callback sends the long packet, and the first one again. -/
theorem plainTicks_thrice : ∃ conn, (plainTicks mp4Config 3).user.connections 5 = some conn ∧ conn.packetIndex = 4 := by
  obtain ⟨-, hconn⟩ := plainTicks_twice
  obtain ⟨conn, hconn', -, -, -, hindex⟩ := onTimer_clock mp4Config rfl (fun _ => 0) (plainTicks_visits hconn) hconn rfl
  have hnext : plainTicks mp4Config 3 = onTimer mp4Config (fun _ => 0) [5] (plainTicks mp4Config 2) := rfl
  have hdue : (onTimerMp4 mp4Config.src.packets tickedConn).2.packetIndex = 4 := by decide
  exact ⟨conn, hnext ▸ hconn', hindex.trans hdue⟩

theorem plainTicks_run :
    StreamingRun mp4Config 5 1 plainStreaming [plainTick 1, plainTick 1, plainTick 1] (plainTicks mp4Config 3) := by
  obtain ⟨hcr, hview⟩ := plainTicks_once
  obtain ⟨conn, hconn, hfields⟩ := Option.map_eq_some_iff.mp hview
  have honce : StreamingAt 5 1 (plainTicks mp4Config 1) 10 := by
    simp only [Prod.mk.injEq] at hfields
    exact ⟨conn, hconn, hfields.1, hfields.2.1, hfields.2.2⟩
  have htwice : StreamingAt 5 1 (plainTicks mp4Config 2) 20 := ⟨_, plainTicks_twice.2, rfl, rfl, rfl⟩
  have hfirst := plainTicks_tick (n := 0) plainStreaming_at plainStreaming_state.1 1
  exact hfirst.append _ ((plainTicks_tick honce hcr 1).append _ (plainTicks_tick htwice plainTicks_twice.1 1))

theorem clock_follows_iff_thrice : StreamingAt 5 1 (plainTicks mp4Config 3) 30 := by
  refine (clock_follows_iff mp4Config reachable_streaming rfl plainStreaming_at plainTicks_run (by decide) (by decide)).mpr ?_
  exact .inr ⟨by decide, by decide⟩

/-- One callback for two expirations: the clock is at 10 ms and not at 20. -/
theorem clock_behind : (system mp4Config).Reachable ⟨plainStreaming, [], false⟩ ∧ StreamingAt 5 1 plainStreaming 0 ∧
    StreamingRun mp4Config 5 1 plainStreaming [plainTick 2] (onTimer mp4Config (fun _ => 0) [5] plainStreaming) ∧
    expirations [plainTick 2] = [2] ∧
    StreamingAt 5 1 (onTimer mp4Config (fun _ => 0) [5] plainStreaming) 10 ∧
    ¬ StreamingAt 5 1 (onTimer mp4Config (fun _ => 0) [5] plainStreaming) (10 * [2].sum) := by
  have htick := plainTicks_tick (n := 0) plainStreaming_at plainStreaming_state.1 2
  have hten : StreamingAt 5 1 (onTimer mp4Config (fun _ => 0) [5] plainStreaming) 10 :=
    htick.clock mp4Config rfl (m := 0) plainStreaming_at (reachable_registered mp4Config reachable_streaming)
  refine ⟨reachable_streaming, plainStreaming_at, htick, rfl, hten, fun h => ?_⟩
  exact absurd (h.unique hten) (by decide)

theorem reachable_twice : (system mp4Config).Reachable ⟨plainTicks mp4Config 2, [], false⟩ := by
  obtain ⟨hcr, hview⟩ := plainTicks_once
  obtain ⟨conn, hconn, -⟩ := Option.map_eq_some_iff.mp hview
  exact reachable_tick (reachable_tick reachable_streaming plainStreaming_state.1 plainStreaming_conn) hcr hconn

theorem reachable_thrice : (system mp4Config).Reachable ⟨plainTicks mp4Config 3, [], false⟩ :=
  reachable_tick reachable_twice plainTicks_twice.1 plainTicks_twice.2

-- the long packet is not to be unfolded
attribute [irreducible] plainTicks

end WebPlayer.L5.Server
