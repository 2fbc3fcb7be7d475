import Mathlib.Data.List.TakeWhile
import WebPlayer.L3Protocol.InOrder
import WebPlayer.L5Server.Descriptors
import WebPlayer.L5Server.PlaybackClock
import WebPlayer.L5Server.SessionStates

/-!
# What the client of a session is sent

In every run, the BINARY messages of a session are the protocol frames of
the encoder calls for the packets, or access units, from the first on and
around the file, one call after another. The record of the connection counts
them: its index is the number of calls, its statistics are those of the
messages that were written whole.

* `record_counts`: the record, in every run.
* `session_delivered`: a client whose messages all arrive completes each of
  these calls, in order.
-/
namespace WebPlayer.L5.Server
open WebPlayer.Core WebPlayer.L1.WebSocket WebPlayer.L1.FrameEncoder WebPlayer.L1.FrameParser WebPlayer.L3.Session
  WebPlayer.L3.Tls WebPlayer.L3.Interleaving WebPlayer.L4.Media WebPlayer.L4.VideoServer

/-! ## Sessions -/

def addObs (ss : List (List Obs)) (o : Obs) : List (List Obs) :=
  if isConnect o then [] :: ss
  else
    match ss with
    | [] => []
    | session :: ss => (session ++ [o]) :: ss

/-- The sessions of a log, the last one first. -/
def sessions (log : List Obs) : List (List Obs) := log.foldl addObs []

def isMedia : Obs → Bool
  | .send _ (.frame .binary _) _ => true
  | _ => false

/-- Neither opens a session nor is media. -/
def Plain (o : Obs) : Prop := isConnect o = false ∧ isMedia o = false

instance (o : Obs) : Decidable (Plain o) := inferInstanceAs (Decidable (_ ∧ _))

theorem plain_media {os : List Obs} (h : ∀ o ∈ os, Plain o) : mediaOf os = [] ∧ wholeMediaOf os = [] := by
  constructor
  all_goals
    refine List.filterMap_eq_nil_iff.mpr fun o ho => ?_
    obtain ⟨-, hmedia⟩ := h o ho
    cases o with
    | send fd msg n =>
      cases msg with
      | response text => rfl
      | frame opcode p =>
        cases opcode with
        | binary => cases hmedia
        | _ => rfl
    | _ => rfl

/-- What is observed within a session. -/
theorem sessions_append (log : List Obs) {os : List Obs} (h : ∀ o ∈ os, isConnect o = false) :
    sessions (log ++ os) = match sessions log with
      | [] => []
      | session :: ss => (session ++ os) :: ss := by
  unfold sessions
  rw [List.foldl_append]
  generalize log.foldl addObs [] = ss
  induction os generalizing ss with
  | nil => cases ss <;> simp
  | cons o os ih =>
    have ho := h o List.mem_cons_self
    rw [List.foldl_cons, ih fun o' h' => h o' (List.mem_cons_of_mem _ h')]
    cases ss <;> simp [addObs, ho]

theorem sessions_connect (log : List Obs) (fd : Fd) : sessions (log ++ [.connect fd]) = [] :: sessions log := by
  rw [sessions, List.foldl_append]
  rfl

/-! ## What a session is sent -/

/-- The messages are those of the calls, from the first position on. -/
structure FromFile (env : Env) (src : Source) (session : List Obs) (calls : List EncodeCall) : Prop where
  media : mediaOf session = calls.flatMap EncodeCall.encode
  source : ∀ k c, calls[k]? = some c → SourceCall env src k c

/-- What the record says of the session. -/
structure Recorded (env : Env) (conn : Connection) (session : List Obs) (calls : List EncodeCall) : Prop where
  position : position env conn = calls.length
  messagesSent : conn.messagesSent = (wholeMediaOf session).length
  bytesSent : conn.bytesSent = ((wholeMediaOf session).map List.length).sum

/-- And what is to hold of the calls of each session. -/
structure Delivering (env : Env) (src : Source) (ok : List EncodeCall → Prop) (v : View) : Prop where
  all : ∀ session ∈ sessions v.log, ∃ calls, ok calls ∧ FromFile env src session calls
  record : ∀ conn, v.conn = some conn → ∃ session ss calls, sessions v.log = session :: ss ∧ ok calls ∧
    FromFile env src session calls ∧ Recorded env conn session calls

/-- The record counts what it did. -/
structure SameCounts (conn conn' : Connection) : Prop where
  auIndex : conn'.auIndex = conn.auIndex
  packetIndex : conn'.packetIndex = conn.packetIndex
  messagesSent : conn'.messagesSent = conn.messagesSent
  bytesSent : conn'.bytesSent = conn.bytesSent

theorem SameCounts.refl (conn : Connection) : SameCounts conn conn := ⟨rfl, rfl, rfl, rfl⟩

theorem SameCounts.position {conn conn' : Connection} (h : SameCounts conn conn') (env : Env) :
    position env conn' = position env conn := by
  rw [L4.Media.position, L4.Media.position, h.auIndex, h.packetIndex]

section
variable {env : Env} {src : Source} {ok ok' : List EncodeCall → Prop} {v v' : View}

theorem FromFile.append {session os : List Obs} {calls calls' : List EncodeCall} (h : FromFile env src session calls)
    (hmedia : mediaOf os = calls'.flatMap EncodeCall.encode)
    (hsource : ∀ j c, calls'[j]? = some c → SourceCall env src (calls.length + j) c) :
    FromFile env src (session ++ os) (calls ++ calls') where
  media := by rw [mediaOf_append, h.media, hmedia, List.flatMap_append]
  source k c hc := by
    by_cases hk : k < calls.length
    · rw [List.getElem?_append_left hk] at hc
      exact h.source k c hc
    · rw [List.getElem?_append_right (Nat.not_lt.mp hk)] at hc
      have := hsource (k - calls.length) c hc
      rwa [Nat.add_sub_cancel' (Nat.not_lt.mp hk)] at this

theorem FromFile.plain {session os : List Obs} {calls : List EncodeCall} (h : FromFile env src session calls)
    (hos : ∀ o ∈ os, Plain o) : FromFile env src (session ++ os) calls := by
  have hnone : ∀ j c, ([] : List EncodeCall)[j]? = some c → SourceCall env src (calls.length + j) c := by simp
  simpa using h.append (plain_media hos).1 hnone

theorem Delivering.mono (h : Delivering env src ok v) (hold : ∀ calls, ok calls → ok' calls) : Delivering env src ok' v where
  all session hsession := by
    obtain ⟨calls, hok, hcalls⟩ := h.all session hsession
    exact ⟨calls, hold calls hok, hcalls⟩
  record conn hconn := by
    obtain ⟨session, ss, calls, hss, hok, hrest⟩ := h.record conn hconn
    exact ⟨session, ss, calls, hss, hold calls hok, hrest⟩

/-- Nothing is sent. -/
theorem Delivering.plain {os : List Obs} (h : Delivering env src ok v) (hlog : v'.log = v.log ++ os)
    (hos : ∀ o ∈ os, Plain o)
    (hconn : ∀ conn', v'.conn = some conn' → ∃ conn, v.conn = some conn ∧ SameCounts conn conn') : Delivering env src ok v' := by
  have hsessions := sessions_append v.log fun o ho => (hos o ho).1
  rw [← hlog] at hsessions
  constructor
  · intro session hsession
    rw [hsessions] at hsession
    cases hss : sessions v.log with
    | nil =>
      rw [hss] at hsession
      exact absurd hsession List.not_mem_nil
    | cons last ss =>
      rw [hss] at hsession
      rcases List.mem_cons.mp hsession with rfl | hsession
      · obtain ⟨calls, hok, hcalls⟩ := h.all last (by simp [hss])
        exact ⟨calls, hok, hcalls.plain hos⟩
      · exact h.all session (by simp [hss, hsession])
  · intro conn' hconn'
    obtain ⟨conn, hconn, hsame⟩ := hconn conn' hconn'
    obtain ⟨session, ss, calls, hss, hok, hcalls, hrec⟩ := h.record conn hconn
    refine ⟨session ++ os, ss, calls, by rw [hsessions, hss], hok, hcalls.plain hos, ?_, ?_, ?_⟩
    · rw [hsame.position, hrec.position]
    · rw [hsame.messagesSent, hrec.messagesSent, wholeMediaOf_append, (plain_media hos).2, List.append_nil]
    · rw [hsame.bytesSent, hrec.bytesSent, wholeMediaOf_append, (plain_media hos).2, List.append_nil]

theorem Delivering.emit (h : Delivering env src ok v) {os : List Obs} (hos : ∀ o ∈ os, Plain o) :
    Delivering env src ok (v.emit os) := h.plain rfl hos fun conn hconn => ⟨conn, hconn, .refl conn⟩

theorem Delivering.removed (h : Delivering env src ok v) (fd : Fd) (caller : Caller) :
    Delivering env src ok (v.removed fd caller) := by
  refine h.plain rfl (fun o ho => ?_) fun conn' hconn' => ?_
  · simp only [View.erasure, List.mem_cons, List.mem_append, List.mem_ite_nil_right, List.not_mem_nil, or_false] at ho
    rcases ho with rfl | (⟨-, rfl⟩ | ⟨-, rfl⟩) | rfl <;> exact ⟨rfl, rfl⟩
  · simp only [View.removed] at hconn'
    split at hconn'
    · cases hconn'
    · exact ⟨conn', hconn', .refl conn'⟩

/-! ## Receiving -/

theorem closed_plain (fd : Fd) (v : View) : ∀ o ∈ v.erasure fd ++ [Obs.remove fd .app, .close fd], Plain o := by
  intro o ho
  simp only [View.erasure, List.mem_append, List.mem_ite_nil_right, List.mem_cons, List.not_mem_nil, or_false] at ho
  rcases ho with ⟨-, rfl⟩ | rfl | rfl <;> exact ⟨rfl, rfl⟩

/-- No media among the outputs of the session. -/
def NoMedia (outs : List Out) : Prop := ∀ p, .send (.frame .binary p) ∉ outs

theorem says_noMedia {s s' : ConnState} {outs : List Out} (h : Says env s outs s') : NoMedia outs := by
  induction h with
  | trans _ _ ih₁ ih₂ =>
    intro p hp
    rcases List.mem_append.mp hp with hp | hp
    · exact ih₁ p hp
    · exact ih₂ p hp
  | _ => simp [NoMedia, closeMsg]

theorem performs_plain {fd : Fd} {outs : List Out} (hp : Performs fd v outs v') (hout : NoMedia outs) :
    ∃ os, v'.log = v.log ++ os ∧ ∀ o ∈ os, Plain o := by
  have hcons : ∀ {v v' : View} {os₁ : List Obs}, (∀ o ∈ os₁, Plain o) →
      (∃ os, v'.log = (v.log ++ os₁) ++ os ∧ ∀ o ∈ os, Plain o) → ∃ os, v'.log = v.log ++ os ∧ ∀ o ∈ os, Plain o := by
    intro v v' os₁ h₁ h
    obtain ⟨os, hlog, hos⟩ := h
    refine ⟨os₁ ++ os, by rw [hlog, List.append_assoc], fun o ho => ?_⟩
    rcases List.mem_append.mp ho with ho | ho
    · exact h₁ o ho
    · exact hos o ho
  have htail : ∀ {o : Out} {outs : List Out}, NoMedia (o :: outs) → NoMedia outs :=
    fun h p hp => h p (List.mem_cons_of_mem _ hp)
  induction hp with
  | nil => exact ⟨[], (List.append_nil _).symm, List.forall_mem_nil _⟩
  | dispatch _ ih => exact hcons (by simp [Plain, isConnect, isMedia]) (ih (htail hout))
  | setState _ ih => exact hcons (by simp [Plain, isConnect, isMedia]) (ih (htail hout))
  | @send v v' msg n outs hn _ ih =>
    refine hcons ?_ (ih (htail hout))
    intro o ho
    rw [List.mem_singleton.mp ho]
    refine ⟨rfl, ?_⟩
    cases msg with
    | response text => rfl
    | frame opcode p =>
      cases opcode with
      | binary => exact absurd List.mem_cons_self (hout p)
      | _ => rfl
  | close _ ih => exact hcons (closed_plain _ _) (ih (htail hout))

theorem handleData_counts (now : Int) (conn : Connection) (data : Bytes) :
    SameCounts conn (handleData env now conn data).conn := by
  rcases handleData_cases env now conn data with ⟨-, heq⟩ | ⟨-, heq⟩ | heq
  · rw [heq]
    unfold handleUpgrade
    split
    · exact ⟨rfl, rfl, rfl, rfl⟩
    · split
      · exact ⟨rfl, rfl, rfl, rfl⟩
      · split <;> exact ⟨rfl, rfl, rfl, rfl⟩
  · rw [heq, handleWebSocketFrame_eq]
    exact ⟨rfl, rfl, rfl, rfl⟩
  · rw [heq]
    exact ⟨rfl, rfl, rfl, rfl⟩

theorem Delivering.receives {fd : Fd} (h : Delivering env src ok v) (hr : Receives fd env v v') : Delivering env src ok v' := by
  cases hr with
  | @data conn now p v' hconn hp =>
    obtain ⟨os, hlog, hos⟩ := performs_plain hp (says_noMedia (handleData_transcript env now conn p))
    refine h.plain (hlog.trans (List.append_assoc ..)) ?_ fun conn' hconn' => ?_
    · intro o ho
      rcases List.mem_append.mp ho with ho | ho
      · rw [List.mem_singleton.mp ho]
        exact ⟨rfl, rfl⟩
      · exact hos o ho
    · rw [performs_conn hp] at hconn'
      cases hconn'
      exact ⟨conn, hconn, handleData_counts now conn p⟩

/-! ## Sending -/

/-- A tick goes on with the calls of the session. -/
theorem Delivering.streamed {fd : Fd} {conn conn' : Connection} {now : Int} {calls' : List EncodeCall} {os : List Obs}
    (h : Delivering env src ok v) (hconn : v.conn = some conn) (hos : ∀ o ∈ os, BinarySend fd v o)
    (hs : Streamed env src conn calls' os conn') (hold : ∀ calls, ok calls → ok' calls)
    (hnew : ∀ calls, ok calls → ok' (calls ++ calls')) :
    Delivering env src ok' { v.emit (.visit fd conn now :: os) with conn := some conn' } := by
  obtain ⟨session, ss, calls, hss, hok, hcalls, hrec⟩ := h.record conn hconn
  have hquiet : ∀ o ∈ .visit fd conn now :: os, isConnect o = false := by
    intro o ho
    rcases List.mem_cons.mp ho with rfl | ho
    · rfl
    · obtain ⟨frame, n, rfl, -⟩ := hos o ho
      rfl
  have hsessions : sessions (v.log ++ .visit fd conn now :: os) = (session ++ .visit fd conn now :: os) :: ss := by
    rw [sessions_append v.log hquiet, hss]
  have hfile : FromFile env src (session ++ .visit fd conn now :: os) (calls ++ calls') :=
    hcalls.append hs.media fun j c hc => hrec.position ▸ hs.source j c hc
  have hwhole : wholeMediaOf (session ++ .visit fd conn now :: os) = wholeMediaOf session ++ wholeMediaOf os :=
    wholeMediaOf_append ..
  constructor
  · intro session' h'
    simp only [View.emit, hsessions] at h'
    rcases List.mem_cons.mp h' with rfl | h'
    · exact ⟨_, hnew calls hok, hfile⟩
    · exact (h.mono hold).all session' (by simp [hss, h'])
  · intro conn'' h''
    cases h''
    refine ⟨_, ss, calls ++ calls', hsessions, hnew calls hok, hfile, ?_, ?_, ?_⟩
    · rw [hs.index, hrec.position, List.length_append]
    · rw [hwhole, hs.messagesSent, hrec.messagesSent, List.length_append]
    · rw [hwhole, hs.bytesSent, hrec.bytesSent, List.map_append, List.sum_append]

end

/-! ## Every run -/

theorem delivering_step {τ : Type} {cfg : Config τ} {ok ok' : List EncodeCall → Prop} {fd : Fd} {v v' : View}
    {calls : List EncodeCall} (h : Delivering cfg.env cfg.src ok v) (hs : Happens cfg fd v calls v') (hnil : ok [])
    (hold : ∀ before, ok before → ok' before) (hnew : ∀ before, ok before → ok' (before ++ calls)) :
    Delivering cfg.env cfg.src ok' v' := by
  cases hs with
  | stream hconn _ hos hs => exact h.streamed hconn hos hs hold hnew
  | accept hclosed ha =>
    apply Delivering.mono _ hold
    cases ha with
    | refused => exact h.plain rfl (by simp [Plain, isConnect, isMedia]) fun conn hconn => ⟨conn, hconn, .refl conn⟩
    | failed =>
      refine Delivering.removed (v := { View.emit _ _ with opened := true }) ?_ fd .connect
      exact h.plain rfl (by simp [Plain, isConnect, isMedia]) fun conn hconn => ⟨conn, hconn, .refl conn⟩
    | client => exact h.plain rfl (by simp [Plain, isConnect, isMedia]) fun conn hconn => ⟨conn, hconn, .refl conn⟩
  | event => exact (h.emit (by simp [Plain, isConnect, isMedia])).mono hold
  | recv => exact (h.emit (by simp [Plain, isConnect, isMedia])).mono hold
  | remove caller => exact (h.removed fd caller).mono hold
  | shake hlink hs =>
    apply Delivering.mono _ hold
    cases hs with
    | want => exact h.emit (by simp [Plain, isConnect, isMedia])
    | fail => exact Delivering.removed (h.emit (by simp [Plain, isConnect, isMedia])) fd .handshake
    | done id =>
      -- a session opens
      have hopen : sessions (v.log ++ [.handshake fd .done, .connect fd]) = [] :: sessions (v.log ++ [.handshake fd .done]) := by
        rw [← sessions_connect, List.append_assoc]
        rfl
      have hnone : FromFile cfg.env cfg.src [] [] := ⟨rfl, fun k c hc => by simp at hc⟩
      have hlast : Delivering cfg.env cfg.src ok (v.emit [.handshake fd .done]) := h.emit (by simp [Plain, isConnect, isMedia])
      constructor
      · intro session hsession
        simp only [View.emit, hopen] at hsession
        rcases List.mem_cons.mp hsession with rfl | hsession
        · exact ⟨[], hnil, hnone⟩
        · exact hlast.all session hsession
      · intro conn hconn
        cases hconn
        refine ⟨[], _, [], hopen, hnil, hnone, ?_, rfl, rfl⟩
        simp [position]
  | read ret =>
    apply Delivering.mono _ hold
    apply h.emit
    intro o ho
    rw [List.mem_singleton.mp ho]
    split <;> exact ⟨rfl, rfl⟩
  | receive hr => exact (h.receives hr).mono hold
  | skip => exact (h.emit (by simp [Plain, isConnect, isMedia])).mono hold
  | @timeout conn now n hconn htime hn =>
    apply Delivering.mono _ hold
    refine h.plain rfl (by simp [Plain, isConnect, isMedia, closeMsg]) fun conn' hconn' => ?_
    cases hconn'
    exact ⟨conn, hconn, ⟨rfl, rfl, rfl, rfl⟩⟩
  | expire =>
    apply Delivering.mono _ hold
    exact h.plain rfl (closed_plain fd v) fun conn hconn => ⟨conn, hconn, .refl conn⟩
  | bye =>
    apply Delivering.mono _ hold
    exact h.plain rfl (by simp [Plain, isConnect, isMedia, closeMsg]) fun conn hconn => ⟨conn, hconn, .refl conn⟩
  | halt =>
    apply Delivering.mono _ hold
    exact h.plain (List.append_nil _).symm (List.forall_mem_nil _) fun conn hconn => ⟨conn, hconn, .refl conn⟩

theorem delivering_initial (env : Env) (src : Source) (ok : List EncodeCall → Prop) : Delivering env src ok .initial where
  all session hsession := absurd hsession List.not_mem_nil
  record conn hconn := by cases hconn

theorem reachable_delivering {τ : Type} {cfg : Config τ} {s : Sys τ} (h : (system cfg).Reachable s) (fd : Fd) :
    Delivering cfg.env cfg.src (fun _ => True) (view s.net fd) :=
  descriptor_induction (delivering_initial ..)
    (fun _ _ _ hv hs => delivering_step hv hs trivial (fun _ _ => trivial) fun _ _ => trivial) (descriptor_reachable h fd)

/-- The session of a connection, which is the last one. -/
def lastSession (fd : Fd) (log : List Obs) : List Obs := (sessions (logOf fd log)).headD []

theorem lastSession_mem {τ : Type} {cfg : Config τ} {s : Sys τ} (h : (system cfg).Reachable s) {fd : Fd} {conn : Connection}
    (hconn : s.net.user.connections fd = some conn) : lastSession fd s.net.log ∈ sessions (logOf fd s.net.log) := by
  obtain ⟨session, ss, calls, hsessions, -⟩ := (reachable_delivering h fd).record conn hconn
  have hlog : sessions (logOf fd s.net.log) = session :: ss := hsessions
  rw [lastSession, hlog]
  exact List.mem_cons_self

/-- **The record counts the session** in every run: its index is the number
of calls since `onConnect`, its statistics are the messages written whole and
the bytes in them. -/
theorem record_counts {τ : Type} {cfg : Config τ} {s : Sys τ} (h : (system cfg).Reachable s) {fd : Fd} {conn : Connection}
    (hconn : s.net.user.connections fd = some conn) :
    ∃ session ss calls, sessions (logOf fd s.net.log) = session :: ss ∧
      FromFile cfg.env cfg.src session calls ∧ Recorded cfg.env conn session calls := by
  obtain ⟨session, ss, calls, hss, -, hcalls, hrec⟩ := (reachable_delivering h fd).record conn hconn
  exact ⟨session, ss, calls, hss, hcalls, hrec⟩

theorem record_counts_ticked : ∃ session ss calls, sessions (logOf 5 (plainTicks mp4Config 2).log) = session :: ss ∧
    FromFile mp4Config.env mp4Config.src session calls ∧ Recorded mp4Config.env tickedConn session calls :=
  record_counts reachable_twice plainTicks_twice.2

/-! ## The client -/

/-- `SendData` wrote all of the message. -/
def isWhole : Obs → Bool
  | .send _ msg n => n = msg.bytes.length
  | _ => true

/-- The BINARY messages that reach the client: those before the first message
that is cut short. -/
def arrived (session : List Obs) : List Bytes := mediaOf (session.takeWhile isWhole)

theorem arrived_prefix (session : List Obs) : ∃ rest, mediaOf session = arrived session ++ rest :=
  ⟨mediaOf (session.dropWhile isWhole), by rw [arrived, ← mediaOf_append, List.takeWhile_append_dropWhile]⟩

theorem arrived_whole {session : List Obs} (h : ∀ o ∈ session, isWhole o = true) : arrived session = mediaOf session := by
  rw [arrived, List.takeWhile_eq_self_iff.mpr h]

/-- No packet or access unit has more than 256 pieces. -/
structure Fits (src : Source) : Prop where
  packets : ∀ pkt ∈ src.packets, pkt.data.length ≤ maxPayload
  accessUnits : ∀ au ∈ src.accessUnits, (au.nalUnits.flatMap (·.data)).length ≤ maxPayload

theorem sourceCall_fits {env : Env} {src : Source} (hfit : Fits src) {k : Nat} {c : EncodeCall} (h : SourceCall env src k c) :
    c.payload.length ≤ maxPayload := by
  unfold SourceCall at h
  split at h
  · obtain ⟨pkt, hpkt, hc⟩ := h
    rw [hc]
    exact hfit.packets pkt (List.mem_of_getElem? hpkt)
  · obtain ⟨au, hau, hc⟩ := h
    rw [hc]
    exact hfit.accessUnits au (List.mem_of_getElem? hau)

/-- What the client's parser makes of the calls of a session. -/
structure Delivered (session : List Obs) (calls : List EncodeCall) (r : ParsedFrame) (reports : List Report) : Prop where
  completes : Completes calls r (arrived session) reports
  /-- All of them, if every message was written whole. -/
  whole : (∀ o ∈ session, isWhole o = true) → results reports = calls.map callFrame

theorem FromFile.delivered {env : Env} {src : Source} {session : List Obs} {calls : List EncodeCall}
    (h : FromFile env src session calls) (hfit : Fits src) (r : ParsedFrame) :
    ∃ reports, Delivered session calls r reports := by
  have hb : ∀ c ∈ calls, c.payload.length ≤ maxPayload := by
    intro c hc
    obtain ⟨k, hk⟩ := List.getElem?_of_mem hc
    exact sourceCall_fits hfit (h.source k c hk)
  obtain ⟨rest, hrest⟩ := arrived_prefix session
  obtain ⟨reports, hreports⟩ := parse_begun hb (h.media.symm.trans hrest) r
  refine ⟨reports, hreports, fun hwhole => ?_⟩
  rw [arrived_whole hwhole, h.media] at hreports
  exact hreports.whole

/-- **The session is delivered.** In every run, for every session, whose
messages are those of the calls from the first position on, and from a fresh
parser: it completes these calls in order and without a gap, just those whose
messages reach the client, and all of them if every message was written
whole. -/
theorem session_delivered {τ : Type} {cfg : Config τ} {s : Sys τ} (h : (system cfg).Reachable s) (hfit : Fits cfg.src)
    (fd : Fd) (r : ParsedFrame) : ∀ session ∈ sessions (logOf fd s.net.log), ∃ (calls : List EncodeCall) (reports : List Report),
      FromFile cfg.env cfg.src session calls ∧ Delivered session calls r reports := by
  intro session hsession
  obtain ⟨calls, -, hcalls⟩ := (reachable_delivering h fd).all session hsession
  obtain ⟨reports, hreports⟩ := hcalls.delivered hfit r
  exact ⟨calls, reports, hcalls, hreports⟩

theorem filePackets_fit : Fits mp4Config.src where
  packets pkt hpkt := by
    have hlen : ∀ n, (List.replicate n (0x41 : UInt8)).length = n := fun n => List.length_replicate
    have hmem : pkt ∈ filePackets := hpkt
    simp only [filePackets, List.mem_cons, List.not_mem_nil, or_false] at hmem
    rcases hmem with rfl | rfl | rfl
    · decide
    · decide
    · rw [hlen]
      decide
  accessUnits := List.forall_mem_nil _

theorem session_delivered_ticked : (∃ conn, (plainTicks mp4Config 3).user.connections 5 = some conn ∧ conn.packetIndex = 4) ∧
    ∃ (calls : List EncodeCall) (reports : List Report),
      FromFile mp4Config.env mp4Config.src (lastSession 5 (plainTicks mp4Config 3).log) calls ∧
      Delivered (lastSession 5 (plainTicks mp4Config 3).log) calls {} reports := by
  obtain ⟨conn, hconn, hindex⟩ := plainTicks_thrice
  have hlast := lastSession_mem reachable_thrice hconn
  exact ⟨⟨conn, hconn, hindex⟩, session_delivered reachable_thrice filePackets_fit 5 {} _ hlast⟩

end WebPlayer.L5.Server
