import WebPlayer.Core.Monitor
import WebPlayer.L5Server.EventLoop

/-!
# Tearing a connection down

`ConnectionManager` has a record of every descriptor whose TLS handshake is
complete, and of no other, as long as no connection is closed through
`TlsServer::CloseConnection`. That function erases the entry before
`OnTcpDisconnect` looks it up, so the user is never told and the record
stays. The session closes so on the data of `Closes`, the timer on a
timeout; every other way down tells the user.

* `connections_agree`: the agreement, in every run without such a close.
* `record_left_behind`: a bad request leaves a record of a closed descriptor.
-/
namespace WebPlayer.L5.Server
open WebPlayer.Core WebPlayer.L1.WebSocket WebPlayer.L3.Session WebPlayer.L3.Tls WebPlayer.L4.VideoServer

/-- `onConnect` and `onDisconnect` take turns; the state is whether the user
has a session. -/
def tell (told : Bool) : Obs → Option Bool
  | .connect _ => if told then none else some true
  | .disconnect _ => if told then some false else none
  | _ => some told

/-- The records are those of the complete handshakes, and so are the sessions
the user has been told of. -/
def Agree {τ : Type} (net : Server τ) : Prop :=
  ∀ fd, ((net.user.connections fd).isSome = true ↔ net.complete fd = true) ∧
    Monitor.follow tell false (logOf fd net.log) = some (net.complete fd)

/-- Nothing has come for which the server closes a connection by itself: no
such data, and no timeout. -/
def Spared (env : Env) (log : List Obs) : Prop :=
  (∀ fd conn p, .data fd conn p ∈ log → ¬ Closes env conn p) ∧ ∀ fd conn now, .visit fd conn now ∈ log → ¬ TimesOut conn now

theorem Spared.prefix {env : Env} {log os : List Obs} (h : Spared env (log ++ os)) : Spared env log :=
  ⟨fun fd conn p hmem => h.1 fd conn p (List.mem_append_left _ hmem),
    fun fd conn now hmem => h.2 fd conn now (List.mem_append_left _ hmem)⟩

/-! ## One descriptor -/

/-- `Agree` for one view, with the socket. -/
structure Settled (v : View) : Prop where
  closed : v.opened = false → v.link = none
  record : v.conn.isSome = true ↔ v.link = some true
  told : Monitor.follow tell false v.log = some (decide (v.link = some true))

/-- Not a call of the user. -/
def Untold (o : Obs) : Prop := ∀ told, tell told o = some told

theorem settled_told {v : View} {os : List Obs} (h : Settled v) (hos : ∀ o ∈ os, Untold o) :
    Monitor.follow tell false (v.log ++ os) = some (decide (v.link = some true)) := by
  rw [Monitor.follow_append, h.told]
  exact Monitor.follow_inert fun o ho => hos o ho _

theorem Settled.emit {v : View} {os : List Obs} (h : Settled v) (hos : ∀ o ∈ os, Untold o) : Settled (v.emit os) :=
  ⟨h.closed, h.record, settled_told h hos⟩

/-- `RemoveClient` finds the entry, and tells the user if there is a session. -/
theorem Settled.removed {v : View} (h : Settled v) (fd : Fd) (caller : Caller) : Settled (v.removed fd caller) := by
  have herase : ∀ o ∈ v.erasure fd, Untold o := by
    intro o ho told
    unfold View.erasure at ho
    split at ho
    · cases List.mem_singleton.mp ho
      rfl
    · cases ho
  refine ⟨fun _ => rfl, ?_, ?_⟩
  · by_cases hlink : v.link = some true
    · simp [View.removed, hlink]
    · have hnone : v.conn.isSome = false := by simpa [hlink] using h.record
      simp [View.removed, hlink, hnone]
  · have hbefore : Monitor.follow tell false (v.log ++ .remove fd caller :: v.erasure fd) =
        some (decide (v.link = some true)) := by
      apply settled_told h
      intro o ho
      rcases List.mem_cons.mp ho with rfl | ho
      · exact fun _ => rfl
      · exact herase o ho
    have hlog : (v.removed fd caller).log = (v.log ++ .remove fd caller :: v.erasure fd) ++
        ((if v.link = some true then [.disconnect fd] else []) ++ [.close fd]) := by simp [View.removed]
    rw [hlog, Monitor.follow_append, hbefore]
    by_cases hlink : v.link = some true
    · simp [hlink, View.removed, Monitor.follow, tell]
    · simp [hlink, View.removed, Monitor.follow, tell]

theorem talk_untold {fd : Fd} {v : View} {o : Obs} (h : Talk fd v o) : Untold o := by
  cases h <;> exact fun _ => rfl

section
variable (env : Env)

/-- Settled, if nothing has come to close the connection. -/
def Kept (v : View) : Prop := Spared env v.log → Settled v

variable {env}

theorem Kept.emit {v : View} {os : List Obs} (h : Kept env v) (hos : ∀ o ∈ os, Untold o) : Kept env (v.emit os) :=
  fun hs => (h hs.prefix).emit hos

theorem Kept.removed {v : View} (h : Kept env v) (fd : Fd) (caller : Caller) : Kept env (v.removed fd caller) :=
  fun hs => (h hs.prefix).removed fd caller

theorem kept_accepts {fd : Fd} {v v' : View} (h : Kept env v) (hclosed : v.opened = false) (ha : Accepts fd v v') :
    Kept env v' := by
  have haccept : ∀ o ∈ [Obs.accept fd], Untold o := by simp [Untold, tell]
  cases ha with
  | refused =>
    intro hs
    have hv := h hs.prefix
    exact ⟨fun _ => hv.closed hclosed, hv.record, settled_told hv (by simp [Untold, tell])⟩
  | failed =>
    refine Kept.removed (v := { View.emit _ _ with opened := true }) (fun hs => ?_) fd .connect
    have hv := h hs.prefix
    exact ⟨nofun, hv.record, settled_told hv haccept⟩
  | client =>
    intro hs
    have hv := h hs.prefix
    have hlink := hv.closed hclosed
    have htold := settled_told hv haccept
    have hrecord := hv.record
    rw [hlink] at htold hrecord
    exact ⟨nofun, by simpa [View.emit] using hrecord, by simpa [View.emit] using htold⟩

theorem kept_shakes {fd : Fd} {v v' : View} (h : Kept env v) (hlink : v.link = some false) (hs : Shakes fd v v') :
    Kept env v' := by
  cases hs with
  | want => exact h.emit (by simp [Untold, tell])
  | fail => exact Kept.removed (h.emit (by simp [Untold, tell])) fd .handshake
  | done id =>
    intro hs
    have hv := h hs.prefix
    refine ⟨fun hopen => ?_, by simp, ?_⟩
    · have hnone := hv.closed hopen
      rw [hlink] at hnone
      cases hnone
    · have htold := hv.told
      rw [hlink] at htold
      simp only [View.emit]
      rw [Monitor.follow_append, htold]
      rfl

theorem kept_receives {fd : Fd} {v v' : View} (h : Kept env v) (hr : Receives fd env v v') : Kept env v' := by
  cases hr with
  | @data conn now p v' hconn hp =>
    intro hs
    obtain ⟨os, hlog⟩ := performs_log hp
    have hdata : Obs.data fd conn p ∈ v'.log := by
      rw [hlog]
      simp [View.emit]
    have hgo : .close ∉ (handleData env now conn p).outs := fun hclose => hs.1 fd conn p hdata ((closes_iff ..).mp hclose)
    obtain ⟨os, rfl, hos⟩ := performs_open hp hgo
    have hv := (h hs.prefix.prefix).emit (show ∀ o ∈ [Obs.data fd conn p], Untold o by simp [Untold, tell])
    have hrecord : Settled { v.emit [.data fd conn p] with conn := some (handleData env now conn p).conn } := by
      refine ⟨hv.closed, ?_, hv.told⟩
      rw [← hv.record]
      simp [View.emit, hconn]
    exact hrecord.emit fun o ho => talk_untold (hos o ho)

theorem kept_visit {fd : Fd} {v v' : View} (h : Kept env v) (hv : Visit fd v v' false) : Kept env v' := by
  cases hv with
  | skip => exact h.emit (by simp [Untold, tell])
  | @stream conn conn' now os hconn hstate hsame hos =>
    intro hs
    have hv := h hs.prefix
    have huntold : ∀ o ∈ Obs.visit fd conn now :: os, Untold o := by
      intro o ho
      rcases List.mem_cons.mp ho with rfl | ho
      · exact fun _ => rfl
      · obtain ⟨frame, n, rfl, -⟩ := hos o ho
        exact fun _ => rfl
    refine ⟨hv.closed, ?_, settled_told hv huntold⟩
    have hrecord := hv.record
    rw [hconn] at hrecord
    exact hrecord

theorem kept_read {v : View} (h : Kept env v) (fd : Fd) (ret : ReadRet) : Kept env (v.read fd ret) := by
  apply h.emit
  intro o ho
  rw [List.mem_singleton.mp ho]
  split <;> exact fun _ => rfl

theorem late_not_spared {fd : Fd} {v v' : View} (hv : Visit fd v v' true) : ¬ Spared env v'.log := by
  intro hs
  cases hv with
  | @timeout conn now n hconn htime hn => exact hs.2 fd conn now (by simp [View.emit]) htime

end

/-- `timed` never comes about. -/
theorem teardown_rule (env : Env) : Rule env (fun _ v => Kept env v) (fun _ v => Kept env v) (fun _ v => Kept env v)
    (fun _ v => ¬ Spared env v.log) (fun _ _ => True) where
  init _ := fun _ => ⟨fun _ => rfl, by simp [View.initial], rfl⟩
  accept h hclosed ha := kept_accepts h hclosed ha
  hup h := Kept.removed (h.emit (by simp [Untold, tell])) _ _
  enter h := h.emit (by simp [Untold, tell])
  leave h := h
  recv h := h.emit (by simp [Untold, tell])
  gone h := Kept.removed (h.emit (by simp [Untold, tell])) _ _
  shake h hlink hs := kept_shakes h hlink hs
  start h _ := h
  read ret h := kept_read h _ ret
  data h hr := kept_receives h hr
  shut h := (kept_read h _ .closed).removed _ _
  finish h := h
  visit h hv := kept_visit h hv
  late _ hv := late_not_spared hv
  expire h := fun hs => absurd hs.prefix h
  bye _ _ := trivial
  halt _ _ := trivial

/-! ## Every descriptor -/

theorem spared_logOf {env : Env} {log : List Obs} (h : Spared env log) (fd : Fd) : Spared env (logOf fd log) :=
  ⟨fun fd' conn p hmem => h.1 fd' conn p (List.mem_of_mem_filter hmem),
    fun fd' conn now hmem => h.2 fd' conn now (List.mem_of_mem_filter hmem)⟩

/-- **The layers agree** whenever the event loop is back, as long as the
server has closed nothing by itself. -/
theorem connections_agree {τ : Type} {cfg : Config τ} {s : Sys τ} (h : (system cfg).Reachable s) (hrun : s.stopped = false)
    (hspared : Spared cfg.env s.net.log) : Agree s.net := by
  intro fd
  have hv := ((teardown_rule cfg.env).reachable h).1 hrun fd (spared_logOf hspared fd)
  refine ⟨hv.record.trans (complete_iff s.net fd).symm, hv.told.trans ?_⟩
  cases hc : s.net.complete fd with
  | true => simp [(complete_iff ..).mp hc]
  | false => simp [← complete_iff, hc]

theorem connections_agree_left : (system plainConfig).Reachable ⟨plainLeft, [], false⟩ ∧ Agree plainLeft := by
  refine ⟨reachable_left, connections_agree reachable_left rfl ⟨fun fd conn p => ?_, fun fd conn now => ?_⟩⟩
  · simp [plainLeft_log]
  · simp [plainLeft_log]

/-- Descriptor 5 sends a request that is no GET. -/
def plainRefused : Server Bytes := processItem plainConfig plainConnected (.client 5 false [.data 1 crlfcrlf])

/-- **A record is left behind**: the connection is closed, its user is not
told, and the record stays. -/
theorem record_left_behind : (system plainConfig).Reachable ⟨plainRefused, [], false⟩ ∧ ¬ Agree plainRefused := by
  constructor
  · apply reachable_item reachable_connected
    · rfl
    · exact ⟨by decide, by decide⟩
    · trivial
  · intro h
    have hrecord : (plainRefused.user.connections 5).isSome = true := by decide
    have hcomplete := (h 5).1.mp hrecord
    revert hcomplete
    decide

end WebPlayer.L5.Server
