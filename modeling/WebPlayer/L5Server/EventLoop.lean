import WebPlayer.L5Server.Views

/-!
# What every run of the event loop keeps

A property of the server that is about one descriptor at a time is kept by
every run if each thing that happens to a view keeps it. `Rule` lists these
things, with what may be assumed where they happen: `idle` between two
events, `busy` while the data of the descriptor are being received,
`reading` in the loop of `mbedtls_ssl_read`, `timed` once its offer has timed
out and before it is closed, `down` after `Shutdown`.

* `Rule.reachable`: the rule for runs.
* `readLoop_returns`: the reads of this server end.
-/
namespace WebPlayer.L5.Server
open WebPlayer.Core WebPlayer.L3.Session WebPlayer.L3.Tls WebPlayer.L4.Media WebPlayer.L4.VideoServer

/-! ## The rule -/

def View.initial : View where
  opened := false
  link := none
  conn := none
  log := []

structure Rule (env : Env) (idle busy reading timed down : Fd → View → Prop) : Prop where
  init (fd : Fd) : idle fd .initial
  accept {fd : Fd} {v v' : View} (h : idle fd v) (hclosed : v.opened = false) (ha : Accepts fd v v') : idle fd v'
  hup {fd : Fd} {v : View} (h : idle fd v) : idle fd ((v.emit [.event fd v.opened]).removed fd .event)
  enter {fd : Fd} {v : View} (h : idle fd v) : busy fd (v.emit [.event fd v.opened])
  leave {fd : Fd} {v : View} (h : busy fd v) : idle fd v
  recv {fd : Fd} {v : View} (h : busy fd v) : busy fd (v.emit [.recv fd])
  gone {fd : Fd} {v : View} (h : busy fd v) : idle fd ((v.emit [.recv fd]).removed fd .recv)
  shake {fd : Fd} {v v' : View} (h : busy fd v) (hlink : v.link = some false) (hs : Shakes fd v v') : busy fd v'
  start {fd : Fd} {v : View} (h : busy fd v) (hlink : v.link = some true) : reading fd v
  read {fd : Fd} {v : View} (ret : ReadRet) (h : reading fd v) : reading fd (v.read fd ret)
  data {fd : Fd} {v v' : View} (h : reading fd v) (hr : Receives fd env v v') : reading fd v'
  shut {fd : Fd} {v : View} (h : reading fd v) : busy fd ((v.read fd .closed).removed fd .read)
  finish {fd : Fd} {v : View} (h : reading fd v) : busy fd v
  visit {fd : Fd} {v v' : View} (h : idle fd v) (hv : Visit fd v v' false) : idle fd v'
  late {fd : Fd} {v v' : View} (h : idle fd v) (hv : Visit fd v v' true) : timed fd v'
  expire {fd : Fd} {v : View} (h : timed fd v) : idle fd (v.closed fd)
  bye {fd : Fd} {v : View} {n : Nat} (h : idle fd v) (hn : Sent v n) :
    down fd { v.emit [.send fd (closeMsg 1000 "Server is shutting down") n] with link := none }
  halt {fd : Fd} {v : View} (h : idle fd v) (hconn : v.conn = none) : down fd { v with link := none }

/-- `P` at `fd`, `idle` elsewhere. -/
structure At (idle P : Fd → View → Prop) (fd : Fd) (m : Fd → View) : Prop where
  here : P fd (m fd)
  elsewhere : ∀ fd', fd' ≠ fd → idle fd' (m fd')

theorem At.set {idle P Q : Fd → View → Prop} {fd : Fd} {m : Fd → View} {v : View} (h : At idle P fd m)
    (hv : Q fd v) : At idle Q fd (put m fd v) := by
  refine ⟨?_, fun fd' hne => ?_⟩
  · rwa [put_self]
  · rw [put_other _ hne]
    exact h.elsewhere fd' hne

theorem At.all {idle : Fd → View → Prop} {fd : Fd} {m : Fd → View} (h : At idle idle fd m) (fd' : Fd) : idle fd' (m fd') := by
  by_cases hfd : fd' = fd
  · exact hfd ▸ h.here
  · exact h.elsewhere fd' hfd

theorem At.mono {idle P Q : Fd → View → Prop} {fd : Fd} {m : Fd → View} (h : At idle P fd m)
    (hPQ : P fd (m fd) → Q fd (m fd)) : At idle Q fd m := ⟨hPQ h.here, h.elsewhere⟩

theorem at_of_all {idle : Fd → View → Prop} {m : Fd → View} (h : ∀ fd, idle fd (m fd)) (fd : Fd) : At idle idle fd m :=
  ⟨h fd, fun fd' _ => h fd'⟩

variable {τ : Type} {cfg : Config τ} {idle busy reading timed down : Fd → View → Prop}

section
variable (R : Rule cfg.env idle busy reading timed down)
include R

/-! ## Accepting and receiving -/

theorem acceptConnection_keeps {net : Server τ} (h : ∀ fd, idle fd (view net fd)) (rets : List (AcceptRet τ)) :
    ∀ fd, idle fd (view (acceptConnection (callbacks cfg) rets net) fd) := by
  unfold acceptConnection
  induction rets generalizing net with
  | nil => exact h
  | cons ret rets ih =>
    apply ih
    rcases view_acceptOne cfg net ret with hsame | ⟨hclosed, v, hv, heq⟩
    · rwa [hsame]
    · rw [heq]
      exact ((at_of_all h ret.fd).set (R.accept (h ret.fd) hclosed hv)).all

theorem readLoop_keeps (now : Int) {fd : Fd} (n : Nat) {net : Server τ} (h : At idle reading fd (view net)) :
    At idle busy fd (view (readLoop (callbacks cfg) cfg.ssl now fd n net)) := by
  induction n generalizing net with
  | zero => exact h.mono R.finish
  | succ n ih =>
    have hread := view_sslRead cfg.ssl fd net
    rw [readLoop]
    cases hret : (sslRead cfg.ssl fd net).1 with
    | want =>
      rw [hread]
      exact h.set (R.finish (R.read _ h.here))
    | closed =>
      rw [callbacks, view_removeClient, hread, hret, put_self, put_put]
      exact h.set (R.shut h.here)
    | data p =>
      have hgo : At idle reading fd (view (sslRead cfg.ssl fd net).2) := by
        rw [hread]
        exact h.set (R.read _ h.here)
      have hdata : At idle reading fd (view (handleData cfg now fd p (sslRead cfg.ssl fd net).2)) := by
        rcases view_handleData cfg now fd p (sslRead cfg.ssl fd net).2 with hsame | ⟨v, hv, heq⟩
        · rwa [hsame]
        · rw [heq]
          exact hgo.set (R.data hgo.here hv)
      simp only
      split
      · exact hdata.mono R.finish
      · exact ih hdata

theorem onTcpData_keeps (now : Int) {fd : Fd} (data : Bytes) {net : Server τ} (h : At idle busy fd (view net)) :
    At idle busy fd (view (onTcpData (callbacks cfg) cfg.ssl now fd data net)) := by
  unfold onTcpData
  cases htls : net.tls fd with
  | none => exact h
  | some c =>
    have hins := view_insert htls (cfg.ssl.insert c.ssl data)
    have hbusy : At idle busy fd (view (net.setTls fd (some { c with ssl := cfg.ssl.insert c.ssl data }))) := by
      rwa [hins]
    have hlink : (view (net.setTls fd (some { c with ssl := cfg.ssl.insert c.ssl data })) fd).link =
        some c.handshakeComplete := by
      rw [hins]
      simp [view, htls]
    cases hc : c.handshakeComplete with
    | false =>
      rw [hc] at hlink hbusy
      simp only [hc, Bool.not_false, if_true]
      have hsome : (view (net.setTls fd (some { ssl := cfg.ssl.insert c.ssl data, handshakeComplete := false })) fd).link ≠
          none := by
        rw [hlink]
        exact Option.some_ne_none false
      obtain ⟨v, hv, heq⟩ := view_continueTlsHandshake hsome
      rw [heq]
      exact hbusy.set (R.shake hbusy.here hlink hv)
    | true =>
      rw [hc] at hlink hbusy
      simp only [hc, Bool.not_true, Bool.false_eq_true, if_false]
      apply readLoop_keeps R
      exact hbusy.mono fun h => R.start h hlink

theorem handleClientData_keeps {fd : Fd} (rets : List RecvRet) {net : Server τ} (h : At idle busy fd (view net)) :
    ∀ fd', idle fd' (view (handleClientData (callbacks cfg) cfg.ssl fd rets net) fd') := by
  have hrecv : ∀ net : Server τ, view (net.emit (.recv fd)) = put (view net) fd ((view net fd).emit [.recv fd]) :=
    fun net => view_emit ..
  have hgone : ∀ net : Server τ, At idle busy fd (view net) →
      ∀ fd', idle fd' (view (removeClient removeConnection .recv fd (net.emit (.recv fd))) fd') := by
    intro net h
    rw [view_removeClient, hrecv, put_self, put_put]
    exact (h.set (R.gone h.here)).all
  have hgo : ∀ net : Server τ, At idle busy fd (view net) → At idle busy fd (view (net.emit (.recv fd))) := by
    intro net h
    rw [hrecv]
    exact h.set (R.recv h.here)
  induction rets generalizing net with
  | nil =>
    simp only [handleClientData]
    split
    · exact ((hgo net h).mono R.leave).all
    · exact hgone net h
  | cons ret rets ih =>
    simp only [handleClientData]
    split
    · exact hgone net h
    · cases ret with
      | eof => exact hgone net h
      | error => exact hgone net h
      | data now bytes =>
        have hdata := onTcpData_keeps R now bytes (hgo net h)
        simp only
        split
        · exact (hdata.mono R.leave).all
        · exact ih hdata

theorem clientEvent_keeps {net : Server τ} (h : ∀ fd, idle fd (view net fd)) (fd : Fd) (hup : Bool) (rets : List RecvRet) :
    ∀ fd', idle fd' (view (clientEvent (callbacks cfg) cfg.ssl fd hup rets net) fd') := by
  have hevent : view (net.emit (.event fd (net.opened fd))) =
      put (view net) fd ((view net fd).emit [.event fd (view net fd).opened]) := view_emit ..
  unfold clientEvent
  cases hup with
  | true =>
    simp only [if_true]
    rw [callbacks, view_removeClient, hevent, put_self, put_put]
    exact ((at_of_all h fd).set (R.hup (h fd))).all
  | false =>
    simp only [Bool.false_eq_true, if_false]
    apply handleClientData_keeps R
    rw [hevent]
    exact (at_of_all h fd).set (R.enter (h fd))

/-! ## The timer and the end -/

/-- In the loop of `OnTimer`, with the timeouts so far. -/
structure Timing (idle timed : Fd → View → Prop) (late : List Fd) (m : Fd → View) : Prop where
  nodup : late.Nodup
  timed : ∀ fd, fd ∈ late → timed fd (m fd)
  idle : ∀ fd, fd ∉ late → idle fd (m fd)

omit R in
/-- One iteration that leaves the offer waiting. -/
theorem Timing.set {late : List Fd} {m : Fd → View} {fd : Fd} {v : View} (h : Timing idle timed late m) (hfd : fd ∉ late)
    (hv : idle fd v) : Timing idle timed late (put m fd v) := by
  refine ⟨h.nodup, fun fd' h' => ?_, fun fd' h' => ?_⟩
  · rw [put_other _ (ne_of_mem_of_not_mem h' hfd)]
    exact h.timed fd' h'
  · by_cases heq : fd' = fd
    · rw [heq, put_self]
      exact hv
    · rw [put_other _ heq]
      exact h.idle fd' h'

omit R in
/-- One iteration that finds a timeout. -/
theorem Timing.add {late : List Fd} {m : Fd → View} {fd : Fd} {v : View} (h : Timing idle timed late m) (hfd : fd ∉ late)
    (hv : timed fd v) : Timing idle timed (late ++ [fd]) (put m fd v) := by
  refine ⟨?_, fun fd' h' => ?_, fun fd' h' => ?_⟩
  · refine List.nodup_append.mpr ⟨h.nodup, List.pairwise_singleton .., fun fd' h' fd'' h'' => ?_⟩
    rw [List.mem_singleton.mp h'']
    exact ne_of_mem_of_not_mem h' hfd
  · by_cases heq : fd' = fd
    · rw [heq, put_self]
      exact hv
    · rw [put_other _ heq]
      rcases List.mem_append.mp h' with h' | h'
      · exact h.timed fd' h'
      · exact absurd (List.mem_singleton.mp h') heq
  · rw [List.mem_append, List.mem_singleton, not_or] at h'
    rw [put_other _ h'.2]
    exact h.idle fd' h'.1

theorem visits_keep (hown : ∀ fd v conn, idle fd v → v.conn = some conn → conn.fd = fd) (now : Fd → Int)
    {order : List Fd} (hnd : order.Nodup) {r : Server τ × List Fd} (hnew : ∀ fd, fd ∈ order → fd ∉ r.2)
    (h : Timing idle timed r.2 (view r.1)) :
    Timing idle timed (order.foldl (visitConnection cfg now) r).2 (view (order.foldl (visitConnection cfg now) r).1) := by
  induction order generalizing r with
  | nil => exact h
  | cons fd order ih =>
    obtain ⟨hfd, hnd⟩ := List.nodup_cons.mp hnd
    have hfresh : fd ∉ r.2 := hnew fd List.mem_cons_self
    have hidle := h.idle fd hfresh
    have hrest : ∀ fd', fd' ∈ order → fd' ∉ r.2 := fun fd' h' => hnew fd' (List.mem_cons_of_mem _ h')
    rw [List.foldl_cons]
    rcases view_visitConnection cfg now r fd (hown fd _ · hidle) with hsame | ⟨v, late, hv, hview, hlist⟩
    · rw [hsame]
      exact ih hnd hrest h
    · cases late with
      | false =>
        have hlist : (visitConnection cfg now r fd).2 = r.2 := by simpa using hlist
        apply ih hnd
        · rwa [hlist]
        · rw [hlist, hview]
          exact h.set hfresh (R.visit hidle hv)
      | true =>
        have hlist : (visitConnection cfg now r fd).2 = r.2 ++ [fd] := by simpa using hlist
        apply ih hnd
        · intro fd' h' hmem
          rw [hlist, List.mem_append, List.mem_singleton] at hmem
          rcases hmem with hmem | hmem
          · exact hrest fd' h' hmem
          · exact hfd (hmem ▸ h')
        · rw [hlist, hview]
          exact h.add hfresh (R.late hidle hv)

theorem timeouts_keep {late : List Fd} {net : Server τ} (h : Timing idle timed late (view net)) :
    ∀ fd, idle fd (view (late.foldl (fun net fd => closeConnection removeConnection fd net) net) fd) := by
  induction late generalizing net with
  | nil => exact fun fd => h.idle fd List.not_mem_nil
  | cons fd late ih =>
    obtain ⟨hfd, hnd⟩ := List.nodup_cons.mp h.nodup
    apply ih
    rw [view_closeConnection]
    refine ⟨hnd, fun fd' h' => ?_, fun fd' h' => ?_⟩
    · rw [put_other _ (ne_of_mem_of_not_mem h' hfd)]
      exact h.timed fd' (List.mem_cons_of_mem _ h')
    · by_cases heq : fd' = fd
      · rw [heq, put_self]
        exact R.expire (h.timed fd List.mem_cons_self)
      · rw [put_other _ heq]
        exact h.idle fd' fun hmem => (List.mem_cons.mp hmem).elim heq h'

theorem onTimer_keeps (hown : ∀ fd v conn, idle fd v → v.conn = some conn → conn.fd = fd) (now : Fd → Int)
    {order : List Fd} (hnd : order.Nodup) {net : Server τ} (h : ∀ fd, idle fd (view net fd)) :
    ∀ fd, idle fd (view (onTimer cfg now order net) fd) := by
  apply timeouts_keep R
  exact visits_keep R hown now hnd (fun _ _ => List.not_mem_nil) ⟨List.nodup_nil, nofun, fun fd _ => h fd⟩

omit R in
/-- The close frames of `Shutdown`. -/
theorem view_farewell (S : Ssl τ) (msg : Msg) {order : List Fd} (hnd : order.Nodup) (net : Server τ) (fd : Fd) :
    (fd ∉ order ∧ view (order.foldl (fun net fd => (sendData S fd msg net).2) net) fd = view net fd) ∨
      (fd ∈ order ∧ ∃ n, Sent (view net fd) n ∧
        view (order.foldl (fun net fd => (sendData S fd msg net).2) net) fd = (view net fd).emit [.send fd msg n]) := by
  induction order generalizing net with
  | nil => exact .inl ⟨List.not_mem_nil, rfl⟩
  | cons fd' order ih =>
    obtain ⟨hfd, hrest⟩ := List.nodup_cons.mp hnd
    obtain ⟨n, hn, heq⟩ := view_sendData S fd' msg net
    have h := ih hrest (sendData S fd' msg net).2
    rw [List.foldl_cons]
    by_cases hself : fd = fd'
    · rw [← hself] at hfd hn heq h ⊢
      rcases h with ⟨-, h⟩ | ⟨hmem, -⟩
      · exact .inr ⟨List.mem_cons_self, n, hn, by rw [h, heq, put_self]⟩
      · exact absurd hmem hfd
    · have hsame : view (sendData S fd' msg net).2 fd = view net fd := by rw [heq, put_other _ hself]
      rw [hsame] at h
      rcases h with ⟨hno, h⟩ | ⟨hmem, h⟩
      · exact .inl ⟨fun hmem => (List.mem_cons.mp hmem).elim hself hno, h⟩
      · exact .inr ⟨List.mem_cons_of_mem _ hmem, h⟩

theorem shutdown_keeps {order : List Fd} {net : Server τ} (hvis : Visits net order) (h : ∀ fd, idle fd (view net fd)) :
    ∀ fd, down fd (view (shutdown cfg order net) fd) := by
  intro fd
  have hstop : ∀ net : Server τ, view (stop net) fd = { view net fd with link := none } := fun _ => rfl
  rw [shutdown, hstop]
  rcases view_farewell cfg.ssl (closeMsg 1000 "Server is shutting down") hvis.1 net fd with ⟨hno, heq⟩ | ⟨-, n, hn, heq⟩
  · rw [heq]
    apply R.halt (h fd)
    cases hconn : (view net fd).conn with
    | none => rfl
    | some conn =>
      have hmem := (hvis.2 fd).mpr (show (view net fd).conn.isSome = true by rw [hconn]; rfl)
      exact absurd hmem hno
  · rw [heq]
    exact R.bye (h fd) hn

/-! ## Runs -/

theorem processItem_keeps (hown : ∀ fd v conn, idle fd v → v.conn = some conn → conn.fd = fd) {net : Server τ}
    {item : Item τ} (hok : ItemOk net item) (h : ∀ fd, idle fd (view net fd)) :
    ∀ fd, idle fd (view (processItem cfg net item) fd) := by
  cases item with
  | listen rets => exact acceptConnection_keeps R h rets
  | timer now order => exact onTimer_keeps R hown now hok.1 h
  | client fd hup rets => exact clientEvent_keeps R h fd hup rets

theorem reachable_owned (hown : ∀ fd v conn, idle fd v → v.conn = some conn → conn.fd = fd) {s : Sys τ}
    (h : (system cfg).Reachable s) :
    (s.stopped = false → ∀ fd, idle fd (view s.net fd)) ∧ (s.stopped = true → ∀ fd, down fd (view s.net fd)) := by
  apply Lts.Inductive.reachable _ h
  constructor
  · rintro s ⟨stray, rfl⟩
    exact ⟨fun _ fd => R.init fd, nofun⟩
  · rintro s l s' hs (⟨hcr, hok⟩ | ⟨hcr, hok⟩ | ⟨hcr, hok⟩)
    · exact hs
    · exact ⟨fun _ => processItem_keeps R hown hok (hs.1 rfl), nofun⟩
    · exact ⟨nofun, fun _ => shutdown_keeps R hok (hs.1 rfl)⟩

end

/-- A batch of one event. -/
theorem reachable_item {net : Server τ} {item : Item τ} (h : (system cfg).Reachable ⟨net, [], false⟩)
    (hcr : net.crashed = false) (hbatch : BatchOk net [item]) (hok : ItemOk net item) :
    (system cfg).Reachable ⟨processItem cfg net item, [], false⟩ :=
  (h.step (Step.poll hcr hbatch)).step (Step.next hcr hok)

/-! ## Records are filed under their own descriptor -/

def Own (fd : Fd) (v : View) : Prop := ∀ conn, v.conn = some conn → conn.fd = fd

theorem Own.removed {fd fd' : Fd} {v : View} (h : Own fd v) (caller : Caller) : Own fd (v.removed fd' caller) := by
  intro conn hconn
  simp only [View.removed] at hconn
  split at hconn
  · cases hconn
  · exact h conn hconn

theorem Own.performs {fd : Fd} {v v' : View} {outs : List Out} (h : Own fd v) (hp : Performs fd v outs v') : Own fd v' := by
  induction hp with
  | nil => exact h
  | dispatch _ ih => exact ih h
  | setState _ ih => exact ih h
  | send _ _ ih => exact ih h
  | close _ ih => exact ih h

section
variable {env : Env}
variable (R : Rule env idle busy reading timed down)
include R

theorem Rule.own : Rule env (fun fd v => Own fd v ∧ idle fd v) (fun fd v => Own fd v ∧ busy fd v)
    (fun fd v => Own fd v ∧ reading fd v) (fun fd v => Own fd v ∧ timed fd v) down where
  init fd := ⟨nofun, R.init fd⟩
  accept h hclosed ha := by
    refine ⟨?_, R.accept h.2 hclosed ha⟩
    cases ha with
    | refused => exact h.1
    | failed => exact Own.removed (v := { View.emit _ _ with opened := true }) h.1 _
    | client => exact h.1
  hup h := ⟨Own.removed (v := View.emit _ _) h.1 _, R.hup h.2⟩
  enter h := ⟨h.1, R.enter h.2⟩
  leave h := ⟨h.1, R.leave h.2⟩
  recv h := ⟨h.1, R.recv h.2⟩
  gone h := ⟨Own.removed (v := View.emit _ _) h.1 _, R.gone h.2⟩
  shake h hlink hs := by
    refine ⟨?_, R.shake h.2 hlink hs⟩
    cases hs with
    | want => exact h.1
    | fail => exact Own.removed (v := View.emit _ _) h.1 _
    | done id =>
      intro conn hconn
      cases hconn
      rfl
  start h hlink := ⟨h.1, R.start h.2 hlink⟩
  read ret h := ⟨h.1, R.read ret h.2⟩
  data h hr := by
    refine ⟨?_, R.data h.2 hr⟩
    cases hr with
    | @data conn now p v' hconn hp =>
      apply Own.performs _ hp
      intro conn' hconn'
      cases hconn'
      rw [handleData_fd]
      exact h.1 conn hconn
  shut h := ⟨Own.removed (v := View.read _ _ _) h.1 _, R.shut h.2⟩
  finish h := ⟨h.1, R.finish h.2⟩
  visit h hv := by
    refine ⟨?_, R.visit h.2 hv⟩
    cases hv with
    | skip => exact h.1
    | stream hconn _ hsame =>
      intro conn' hconn'
      cases hconn'
      rw [hsame.fd]
      exact h.1 _ hconn
  late h hv := by
    refine ⟨?_, R.late h.2 hv⟩
    cases hv with
    | timeout hconn =>
      have hfd := h.1 _ hconn
      intro conn' hconn'
      cases hconn'
      exact hfd
  expire h := ⟨h.1, R.expire h.2⟩
  bye h hn := R.bye h.2 hn
  halt h hconn := R.halt h.2 hconn

end

/-- **The rule for runs.** -/
theorem Rule.reachable (R : Rule cfg.env idle busy reading timed down) {s : Sys τ} (h : (system cfg).Reachable s) :
    (s.stopped = false → ∀ fd, idle fd (view s.net fd)) ∧ (s.stopped = true → ∀ fd, down fd (view s.net fd)) := by
  obtain ⟨hrun, hdown⟩ := reachable_owned R.own (fun fd v conn h => h.1 conn) h
  exact ⟨fun hs fd => (hrun hs fd).2, hdown⟩

/-! ## The reads end -/

theorem perform_fuel (cfg : Config τ) (fd : Fd) (net : Server τ) (o : Out) :
    readFuel cfg.ssl fd (perform cfg fd net o) ≤ readFuel cfg.ssl fd net := by
  cases o with
  | dispatch opcode payload => exact Nat.le_refl _
  | setState state => exact Nat.le_refl _
  | send msg =>
    simp only [perform, sendData]
    cases htls : net.tls fd with
    | none => exact Nat.le_refl _
    | some c =>
      cases hc : c.handshakeComplete with
      | false => simp [hc, readFuel, Net.emit]
      | true =>
        have hle := cfg.ssl.fuel_write c.ssl msg.bytes.length
        simp only [hc, Bool.not_true, Bool.false_eq_true, if_false, readFuel, Net.emit, Net.setTls, put_self, htls]
        exact Nat.add_le_add_right hle _
  | close =>
    have hnone : without net.tls fd fd = none := put_self ..
    simp only [perform, closeConnection_eq, readFuel, hnone, Nat.zero_add]
    exact Nat.le_add_left ..

theorem handleData_fuel (cfg : Config τ) (now : Int) (fd : Fd) (p : Bytes) (net : Server τ) :
    readFuel cfg.ssl fd (handleData cfg now fd p net) ≤ readFuel cfg.ssl fd net := by
  have hfold : ∀ (outs : List Out) (net : Server τ),
      readFuel cfg.ssl fd (outs.foldl (perform cfg fd) net) ≤ readFuel cfg.ssl fd net := by
    intro outs
    induction outs with
    | nil => exact fun net => Nat.le_refl _
    | cons o outs ih => exact fun net => Nat.le_trans (ih _) (perform_fuel cfg fd net o)
  unfold L4.VideoServer.handleData
  cases hconn : net.user.connections fd with
  | none => exact Nat.le_refl _
  | some conn => exact hfold _ (setConnection (net.emit (.data fd conn p)) fd _)

/-- **The reads of this server end.** -/
theorem readLoop_returns (now : Int) (fd : Fd) {n : Nat} {net : Server τ} (hn : readFuel cfg.ssl fd net < n) :
    readLoop (callbacks cfg) cfg.ssl now fd n net =
      readLoop (callbacks cfg) cfg.ssl now fd (readFuel cfg.ssl fd net + 1) net :=
  readLoop_enough (handleData_fuel cfg) now fd hn

/-! ## A small server

Its TLS is plain text: the first bytes are the handshake, and a zero byte is
close_notify. -/

def plainSsl : Ssl Bytes where
  insert t data := t ++ data
  handshake _ := (.done, [])
  read t := if t = [] then (.want, []) else if t = [0] then (.closed, []) else (.data t, [])
  write t n := (n, t)
  fuel t := t.length
  fuel_read {t p t'} h := by
    by_cases hnil : t = []
    · simp [hnil] at h
    · by_cases hzero : t = [0]
      · simp [hzero] at h
      · rw [if_neg hnil, if_neg hzero] at h
        cases h
        exact List.length_pos_iff.mpr hnil
  fuel_write _ _ := Nat.le_refl _

def plainConfig : Config Bytes where
  ssl := plainSsl
  env := sampleEnv
  src := { packets := [], accessUnits := [], rawTimestampMs := fun _ => 0 }
  systemClock _ := 0

/-- A client connects as descriptor 5 and shakes hands. -/
def plainConnected : Server Bytes :=
  processItem plainConfig (processItem plainConfig (initial []) (.listen [.client 5 (some [])]))
    (.client 5 false [.data 0 [1]])

theorem reachable_connected : (system plainConfig).Reachable ⟨plainConnected, [], false⟩ := by
  apply reachable_item
  · apply reachable_item
    · exact Lts.reachable_init ⟨[], rfl⟩
    · rfl
    · exact ⟨List.nodup_nil, nofun⟩
    · trivial
  · rfl
  · exact ⟨by decide, by decide⟩
  · trivial

/-- It leaves. -/
def plainLeft : Server Bytes := processItem plainConfig plainConnected (.client 5 false [.eof])

theorem reachable_left : (system plainConfig).Reachable ⟨plainLeft, [], false⟩ := by
  apply reachable_item reachable_connected
  · rfl
  · exact ⟨by decide, by decide⟩
  · trivial

theorem plainLeft_log : plainLeft.log = [.accept 5, .event 5 true, .recv 5, .handshake 5 .done, .connect 5, .recv 5,
    .event 5 true, .recv 5, .remove 5 .recv, .erase 5, .disconnect 5, .close 5] := by decide

end WebPlayer.L5.Server
