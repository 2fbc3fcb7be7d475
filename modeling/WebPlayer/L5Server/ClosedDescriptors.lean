import WebPlayer.Core.Monitor
import WebPlayer.L5Server.EventLoop

/-!
# Using a closed descriptor

Between two accepts of one descriptor it is closed once, and from then on, or
from when its TLS entry is gone, nothing receives on it, reads from its
session or removes it, as long as no connection is closed from inside the
loops that serve it. A failed handshake, a close_notify and the closing data
of the session do close it there, and `HandleClientData` then goes on to
`recv`; so does an event that comes in one batch with the tick that closed
its descriptor.

* `closed_unused`: the property, in every run without these.
* `closed_twice`: a close_notify is enough.
-/
namespace WebPlayer.L5.Server
open WebPlayer.Core WebPlayer.L1.WebSocket WebPlayer.L3.Session WebPlayer.L3.Tls WebPlayer.L4.VideoServer

/-! ## The property -/

def isAccept : Obs → Bool
  | .accept _ => true
  | _ => false

def isClose : Obs → Bool
  | .close _ => true
  | _ => false

def isErase : Obs → Bool
  | .erase _ => true
  | _ => false

/-- A read through an erased entry. -/
def isStray : Obs → Bool
  | .strayRead _ _ => true
  | _ => false

/-- What `HandleClientData`, the read loop and the events do to a
descriptor; `CloseConnection` calls `RemoveClient` as `app`. -/
def isUse : Obs → Bool
  | .recv _ => true
  | .sslRead _ _ => true
  | .strayRead _ _ => true
  | .remove _ caller => caller != .app
  | _ => false

/-- What is observed of a descriptor from one accept on, up to the next. -/
structure Proper (life : List Obs) : Prop where
  once : life.countP isClose ≤ 1
  held : ∀ o, o ∈ life → isStray o = false
  unused : ∀ pre o post, life = pre ++ o :: post → (∃ o', o' ∈ pre ∧ (isClose o' = true ∨ isErase o' = true)) → isUse o = false

/-- Every part of the log of every descriptor that lies between two accepts. -/
def ClosedUnused (log : List Obs) : Prop :=
  ∀ fd pre o life post, logOf fd log = pre ++ o :: (life ++ post) → isAccept o = true → (∀ o', o' ∈ life → isAccept o' = false) →
    Proper life

/-- No connection is closed inside the loops that serve it, and no event
comes for a socket that is no longer open. -/
structure Orderly (env : Env) (log : List Obs) : Prop where
  event : ∀ fd, .event fd false ∉ log
  handshake : ∀ fd, .handshake fd .fail ∉ log
  read : ∀ fd, .sslRead fd .closed ∉ log
  data : ∀ fd conn p, .data fd conn p ∈ log → ¬ Closes env conn p

theorem Orderly.prefix {env : Env} {log os : List Obs} (h : Orderly env (log ++ os)) : Orderly env log where
  event fd hmem := h.event fd (List.mem_append_left _ hmem)
  handshake fd hmem := h.handshake fd (List.mem_append_left _ hmem)
  read fd hmem := h.read fd (List.mem_append_left _ hmem)
  data fd conn p hmem := h.data fd conn p (List.mem_append_left _ hmem)

/-! ## A monitor for it -/

inductive Phase where
  | shut | live | erased
  deriving DecidableEq

def watch : Phase → Obs → Option Phase
  | _, .accept _ => some .live
  | .shut, .close _ => none
  | _, .close _ => some .shut
  | .shut, .erase _ => some .shut
  | _, .erase _ => some .erased
  | .live, .recv _ => some .live
  | .live, .sslRead _ _ => some .live
  | .live, .remove _ _ => some .live
  | .erased, .remove _ .app => some .erased
  | _, .recv _ => none
  | _, .sslRead _ _ => none
  | _, .strayRead _ _ => none
  | _, .remove _ _ => none
  | p, _ => some p

section
variable {u u' : Phase} {o : Obs} (h : watch u o = some u')
include h

theorem watch_close (hc : isClose o = true) : u ≠ .shut ∧ u' = .shut := by
  cases o with
  | close fd => cases u <;> cases h <;> simp
  | _ => cases hc

theorem watch_use (hu : isUse o = true) : u = .live := by
  cases o with
  | recv fd | sslRead fd ret =>
    cases u <;> cases h
    rfl
  | remove fd caller => cases u <;> cases caller <;> cases h <;> simp_all [isUse]
  | strayRead fd ret => cases u <;> cases h
  | _ => cases hu

theorem watch_stray : isStray o = false := by
  cases o with
  | strayRead fd ret => cases u <;> cases h
  | _ => rfl

theorem watch_shut (ha : isAccept o = false) (hu : u = .shut) : u' = .shut := by
  subst hu
  cases o with
  | accept fd => cases ha
  | _ => cases h <;> rfl

theorem watch_live (ha : isAccept o = false) (hu : u' = .live) : u = .live ∧ isErase o = false := by
  subst hu
  cases o with
  | accept fd => cases ha
  | remove fd caller => cases u <;> cases caller <;> cases h <;> exact ⟨rfl, rfl⟩
  | _ => cases u <;> cases h <;> exact ⟨rfl, rfl⟩

end

/-- What the phase says of the life so far. -/
structure Watched (u : Phase) (life : List Obs) : Prop where
  proper : Proper life
  unclosed : u ≠ .shut → ∀ o, o ∈ life → isClose o = false
  entry : u = .live → ∀ o, o ∈ life → isErase o = false

theorem Watched.snoc {u u' : Phase} {life : List Obs} {o : Obs} (hw : Watched u life) (h : watch u o = some u')
    (ha : isAccept o = false) : Watched u' (life ++ [o]) := by
  have hcount : ∀ hc : isClose o = true, life.countP isClose = 0 := fun hc =>
    List.countP_eq_zero.mpr fun o' ho' => by simp [hw.unclosed (watch_close h hc).1 o' ho']
  refine ⟨⟨?_, fun o' ho' => ?_, fun pre o' post heq hgone => ?_⟩, fun hu o' ho' => ?_, fun hu o' ho' => ?_⟩
  · rw [List.countP_append]
    cases hc : isClose o with
    | true => simp [hcount hc, hc]
    | false => simpa [hc] using hw.proper.once
  · rcases List.mem_append.mp ho' with ho' | ho'
    · exact hw.proper.held o' ho'
    · rw [List.mem_singleton.mp ho']
      exact watch_stray h
  · rcases Monitor.snoc_split heq with ⟨rfl, rfl, -⟩ | ⟨post', hlife, -⟩
    · -- a use finds the descriptor live
      cases huse : isUse o with
      | false => rfl
      | true =>
        have hlive := watch_use h huse
        obtain ⟨o', ho', hc | he⟩ := hgone
        · rw [hw.unclosed (by simp [hlive]) o' ho'] at hc
          cases hc
        · rw [hw.entry hlive o' ho'] at he
          cases he
    · exact hw.proper.unused pre o' post' hlife hgone
  · have hne : u ≠ .shut := fun hs => hu (watch_shut h ha hs)
    rcases List.mem_append.mp ho' with ho' | ho'
    · exact hw.unclosed hne o' ho'
    · rw [List.mem_singleton.mp ho']
      cases hc : isClose o with
      | false => rfl
      | true => exact absurd (watch_close h hc).2 hu
  · obtain ⟨hlive, he⟩ := watch_live h ha hu
    rcases List.mem_append.mp ho' with ho' | ho'
    · exact hw.entry hlive o' ho'
    · rw [List.mem_singleton.mp ho']
      exact he

/-- What can be followed is proper between two accepts. -/
theorem watched_proper {log pre life post : List Obs} {o : Obs} {t : Phase} (h : Monitor.follow watch .shut log = some t)
    (hlog : log = pre ++ o :: (life ++ post)) (ho : isAccept o = true) (hlife : ∀ o', o' ∈ life → isAccept o' = false) :
    Proper life := by
  have hreset : ∀ u u', watch u o = some u' → u' = .live := by
    intro u u' hnext
    cases o with
    | accept fd => cases u <;> exact (Option.some.inj hnext).symm
    | _ => cases ho
  obtain ⟨w, h, -⟩ := Monitor.follow_reset h hlog hreset
  have hw : Watched w life := by
    apply Monitor.follow_induction h
    · exact ⟨⟨Nat.zero_le _, List.forall_mem_nil _, fun pre o post heq => absurd heq (by simp)⟩,
        fun _ => List.forall_mem_nil _, fun _ => List.forall_mem_nil _⟩
    · exact fun u u' done o hmem ih hnext => ih.snoc hnext (hlife o hmem)
  exact hw.proper

/-! ## One descriptor -/

/-- Between two events: live while the socket is open, and every record that
is not closing has a session. -/
structure Sound (v : View) : Prop where
  phase : Monitor.follow watch .shut v.log = some (bif v.opened then .live else .shut)
  entry : v.opened = false → v.link = none
  record : ∀ conn, v.conn = some conn → conn.state ≠ .closing → v.link = some true

/-- Changes no phase. -/
def Unwatched (o : Obs) : Prop := ∀ u, watch u o = some u

theorem sound_phase {v : View} {os : List Obs} (h : Sound v) (hos : ∀ o ∈ os, Unwatched o) :
    Monitor.follow watch .shut (v.log ++ os) = some (bif v.opened then .live else .shut) := by
  rw [Monitor.follow_append, h.phase]
  exact Monitor.follow_inert fun o ho => hos o ho _

theorem Sound.emit {v : View} {os : List Obs} (h : Sound v) (hos : ∀ o ∈ os, Unwatched o) : Sound (v.emit os) :=
  ⟨sound_phase h hos, h.entry, h.record⟩

/-- An open descriptor is received on and read from. -/
theorem Sound.emit_open {v : View} {os : List Obs} (h : Sound v) (hopen : v.opened = true)
    (hos : ∀ o ∈ os, watch .live o = some .live) : Sound (v.emit os) := by
  refine ⟨?_, h.entry, h.record⟩
  simp only [View.emit]
  rw [Monitor.follow_append, h.phase, hopen]
  exact Monitor.follow_inert hos

theorem Sound.removed {v : View} (h : Sound v) (hopen : v.opened = true) (fd : Fd) (caller : Caller) :
    Sound (v.removed fd caller) := by
  refine ⟨?_, fun _ => rfl, fun conn hconn hstate => ?_⟩
  · simp only [View.removed]
    rw [Monitor.follow_append, h.phase, hopen]
    unfold View.erasure
    cases v.link with
    | none => rfl
    | some complete => cases complete <;> rfl
  · simp only [View.removed] at hconn
    by_cases hlink : v.link = some true
    · rw [if_pos hlink] at hconn
      cases hconn
    · rw [if_neg hlink] at hconn
      exact absurd (h.record conn hconn hstate) hlink

theorem Sound.closed {v : View} (h : Sound v) (hopen : v.opened = true)
    (hclosing : ∀ conn, v.conn = some conn → conn.state = .closing) (fd : Fd) : Sound (v.closed fd) := by
  refine ⟨?_, fun _ => rfl, fun conn hconn hstate => absurd (hclosing conn hconn) hstate⟩
  simp only [View.closed]
  rw [Monitor.follow_append, h.phase, hopen]
  unfold View.erasure
  cases v.link <;> rfl

theorem talk_unwatched {fd : Fd} {v : View} {o : Obs} (h : Talk fd v o) : Unwatched o := by
  cases h <;> exact fun u => by cases u <;> rfl

section
variable {env : Env}

/-- Between two events. -/
def Standing (env : Env) (v : View) : Prop := Orderly env v.log → Sound v

/-- While the descriptor is served. -/
def Served (env : Env) (v : View) : Prop := Orderly env v.log → Sound v ∧ v.opened = true

def Reading (env : Env) (v : View) : Prop := Orderly env v.log → (Sound v ∧ v.opened = true) ∧ v.link = some true

theorem standing_accepts {fd : Fd} {v v' : View} (h : Standing env v) (hclosed : v.opened = false)
    (ha : Accepts fd v v') : Standing env v' := by
  have hphase : Sound v → Monitor.follow watch .shut v.log = some .shut := by
    intro h
    rw [h.phase, hclosed]
    rfl
  intro ho
  cases ha with
  | refused =>
    have hv := h ho.prefix
    refine ⟨?_, fun _ => hv.entry hclosed, hv.record⟩
    simp only [View.emit]
    rw [Monitor.follow_append, hphase hv]
    rfl
  | failed =>
    have hv := h ho.prefix.prefix
    refine Sound.removed (v := { View.emit _ _ with opened := true }) ⟨?_, fun h => Bool.noConfusion h, hv.record⟩ rfl fd
      .connect
    simp only [View.emit]
    rw [Monitor.follow_append, hphase hv]
    rfl
  | client =>
    have hv := h ho.prefix
    refine ⟨?_, fun h => Bool.noConfusion h, fun conn hconn hstate => ?_⟩
    · simp only [View.emit]
      rw [Monitor.follow_append, hphase hv]
      rfl
    · have hlink := hv.record conn hconn hstate
      rw [hv.entry hclosed] at hlink
      cases hlink

/-- An event comes only for an open descriptor. -/
theorem served_enter {fd : Fd} {v : View} (h : Standing env v) : Served env (v.emit [.event fd v.opened]) := by
  intro ho
  have hopen : v.opened = true := by
    cases hopened : v.opened with
    | true => rfl
    | false => exact absurd (by simp [View.emit, hopened]) (ho.event fd)
  exact ⟨(h ho.prefix).emit_open hopen (by simp [watch]), hopen⟩

theorem standing_removed {v : View} (h : Served env v) (fd : Fd) (caller : Caller) : Standing env (v.removed fd caller) :=
  fun ho => (h ho.prefix).1.removed (h ho.prefix).2 fd caller

theorem served_recv {fd : Fd} {v : View} (h : Served env v) : Served env (v.emit [.recv fd]) :=
  fun ho => ⟨(h ho.prefix).1.emit_open (h ho.prefix).2 (by simp [watch]), (h ho.prefix).2⟩

theorem served_shakes {fd : Fd} {v v' : View} (h : Served env v) (hs : Shakes fd v v') : Served env v' := by
  intro ho
  cases hs with
  | want =>
    obtain ⟨hv, hopen⟩ := h ho.prefix
    exact ⟨hv.emit_open hopen (by simp [watch]), hopen⟩
  | fail => exact absurd (by simp [View.removed, View.emit]) (ho.handshake fd)
  | done id =>
    obtain ⟨hv, hopen⟩ := h ho.prefix
    have hemit := hv.emit_open hopen (show ∀ o ∈ [Obs.handshake fd .done, .connect fd], _ by simp [watch])
    exact ⟨⟨hemit.phase, fun hclosed => Bool.noConfusion (hopen.symm.trans hclosed), fun _ _ _ => rfl⟩, hopen⟩

theorem reading_read {fd : Fd} {v : View} (h : Reading env v) (ret : ReadRet) : Reading env (v.read fd ret) := by
  intro ho
  obtain ⟨⟨hv, hopen⟩, hlink⟩ := h ho.prefix
  refine ⟨⟨hv.emit_open hopen ?_, hopen⟩, hlink⟩
  simp [hlink, watch]

theorem reading_shut {fd : Fd} {v : View} (h : Reading env v) : ¬ Orderly env ((v.read fd .closed).removed fd .read).log := by
  intro ho
  obtain ⟨-, hlink⟩ := h ho.prefix.prefix
  exact ho.read fd (by simp [View.removed, View.read, View.emit, hlink])

theorem reading_receives {fd : Fd} {v v' : View} (h : Reading env v) (hr : Receives fd env v v') : Reading env v' := by
  cases hr with
  | @data conn now p v' hconn hp =>
    intro ho
    obtain ⟨os, hlog⟩ := performs_log hp
    have hdata : Obs.data fd conn p ∈ v'.log := by
      rw [hlog]
      simp [View.emit]
    have hgo : .close ∉ (handleData env now conn p).outs :=
      fun hclose => ho.data fd conn p hdata ((closes_iff ..).mp hclose)
    obtain ⟨os, rfl, hos⟩ := performs_open hp hgo
    obtain ⟨⟨hv, hopen⟩, hlink⟩ := h ho.prefix.prefix
    have hemit := hv.emit_open hopen (show ∀ o ∈ [Obs.data fd conn p], _ by simp [watch])
    have hset : Sound { v.emit [.data fd conn p] with conn := some (handleData env now conn p).conn } :=
      ⟨hemit.phase, hemit.entry, fun _ _ _ => hlink⟩
    exact ⟨⟨hset.emit fun o ho => talk_unwatched (hos o ho), hopen⟩, hlink⟩

theorem standing_visit {fd : Fd} {v v' : View} (h : Standing env v) (hv : Visit fd v v' false) : Standing env v' := by
  have hvisit : ∀ conn now, Unwatched (.visit fd conn now) := fun conn now u => by cases u <;> rfl
  intro ho
  cases hv with
  | skip =>
    apply (h ho.prefix).emit
    intro o ho
    rw [List.mem_singleton.mp ho]
    exact hvisit _ _
  | @stream conn conn' now os hconn hstate hsame hos =>
    have hv := h ho.prefix
    have hstream := hv.record conn hconn (by simp [hstate])
    refine ⟨sound_phase hv fun o ho => ?_, hv.entry, fun _ _ _ => hstream⟩
    rcases List.mem_cons.mp ho with rfl | ho
    · exact hvisit _ _
    · obtain ⟨frame, n, rfl, hn⟩ := hos o ho
      exact talk_unwatched (.send _ hn)

/-- Timed out, and not yet closed. -/
def Overdue (env : Env) (v : View) : Prop :=
  Orderly env v.log → (Sound v ∧ v.opened = true) ∧ ∀ conn, v.conn = some conn → conn.state = .closing

theorem overdue_late {fd : Fd} {v v' : View} (h : Standing env v) (hv : Visit fd v v' true) :
    Overdue env v' := by
  intro ho
  cases hv with
  | @timeout conn now n hconn htime hn =>
    have hv := h ho.prefix
    have hlink := hv.record conn hconn (by simp [htime.1])
    have hopen : v.opened = true := by
      cases hopened : v.opened with
      | true => rfl
      | false => exact absurd ((hv.entry hopened).symm.trans hlink) nofun
    have hemit := hv.emit_open hopen (show ∀ o ∈ [Obs.visit fd conn now, .send fd (closeMsg 1008 "Negotiation timeout") n,
      .state fd .closing], _ by simp [watch])
    refine ⟨⟨⟨hemit.phase, hemit.entry, fun _ _ _ => hlink⟩, hopen⟩, fun conn' hconn' => ?_⟩
    cases hconn'
    rfl

theorem standing_expire {v : View} (h : Overdue env v) (fd : Fd) : Standing env (v.closed fd) :=
  fun ho => (h ho.prefix).1.1.closed (h ho.prefix).1.2 (h ho.prefix).2 fd

theorem followed_bye {v : View} (h : Standing env v) (fd : Fd) (msg : Msg) (n : Nat) :
    Orderly env (v.emit [.send fd msg n]).log → ∃ u, Monitor.follow watch .shut (v.emit [.send fd msg n]).log = some u := by
  intro ho
  refine ⟨_, sound_phase (h ho.prefix) fun o ho u => ?_⟩
  rw [List.mem_singleton.mp ho]
  cases u <;> rfl

end

theorem closed_rule (env : Env) : Rule env (fun _ v => Standing env v) (fun _ v => Served env v)
    (fun _ v => Reading env v) (fun _ v => Overdue env v)
    (fun _ v => Orderly env v.log → ∃ u, Monitor.follow watch .shut v.log = some u) where
  init _ := fun _ => ⟨rfl, fun _ => rfl, nofun⟩
  accept h hclosed ha := standing_accepts h hclosed ha
  hup h := standing_removed (served_enter h) _ _
  enter h := served_enter h
  leave h := fun ho => (h ho).1
  recv h := served_recv h
  gone h := standing_removed (served_recv h) _ _
  shake h _ hs := served_shakes h hs
  start h hlink := fun ho => ⟨h ho, hlink⟩
  read ret h := reading_read h ret
  data h hr := reading_receives h hr
  shut h := fun ho => absurd ho (reading_shut h)
  finish h := fun ho => (h ho).1
  visit h hv := standing_visit h hv
  late h hv := overdue_late h hv
  expire h := standing_expire h _
  bye h _ := followed_bye h _ _ _
  halt h _ := fun ho => ⟨_, (h ho).phase⟩

/-! ## Every descriptor -/

theorem orderly_logOf {env : Env} {log : List Obs} (h : Orderly env log) (fd : Fd) : Orderly env (logOf fd log) where
  event fd' hmem := h.event fd' (List.mem_of_mem_filter hmem)
  handshake fd' hmem := h.handshake fd' (List.mem_of_mem_filter hmem)
  read fd' hmem := h.read fd' (List.mem_of_mem_filter hmem)
  data fd' conn p hmem := h.data fd' conn p (List.mem_of_mem_filter hmem)

/-- **Nothing closed is used**, as long as no connection is closed from
inside and no event comes late. -/
theorem closed_unused {τ : Type} {cfg : Config τ} {s : Sys τ} (h : (system cfg).Reachable s)
    (horderly : Orderly cfg.env s.net.log) : ClosedUnused s.net.log := by
  intro fd pre o life post hlog ho hlife
  have hfd := orderly_logOf horderly fd
  have hwatch : ∃ u, Monitor.follow watch .shut (logOf fd s.net.log) = some u := by
    cases hs : s.stopped with
    | false => exact ⟨_, (((closed_rule cfg.env).reachable h).1 hs fd hfd).phase⟩
    | true => exact ((closed_rule cfg.env).reachable h).2 hs fd hfd
  obtain ⟨u, hu⟩ := hwatch
  exact watched_proper hu hlog ho hlife

theorem closed_unused_left : ClosedUnused plainLeft.log := by
  apply closed_unused reachable_left
  constructor <;> simp [plainLeft_log]

/-- Descriptor 5 ends its TLS session. -/
def plainNotified : Server Bytes := processItem plainConfig plainConnected (.client 5 false [.data 1 [0]])

/-- **A close_notify closes twice**: the read loop removes the client, and
`HandleClientData` receives on the closed descriptor and removes it again. -/
theorem closed_twice : (system plainConfig).Reachable ⟨plainNotified, [], false⟩ ∧ ¬ ClosedUnused plainNotified.log := by
  constructor
  · apply reachable_item reachable_connected
    · rfl
    · exact ⟨by decide, by decide⟩
    · trivial
  · intro h
    have hlife := h 5 [] (.accept 5) (plainNotified.log.drop 1) [] (by decide) rfl (by decide)
    have honce := hlife.once
    revert honce
    decide

end WebPlayer.L5.Server
