import WebPlayer.Core.Monitor
import WebPlayer.L5Server.EventLoop

/-!
# The states of a session

A session of a descriptor is what is observed of it from `onConnect` on, up
to the next. In every run its `ConnState` only moves forward, the media-offer
goes out at most once and behind the upgrade response, media only while
STREAMING and behind an accepting answer, and nothing after a CLOSE frame.

The sends of a record that outlived its connection fail, since there is no
complete handshake until the next `onConnect` replaces the record.

* `sessions_safe`: this, for every session of every run.
-/
namespace WebPlayer.L5.Server
open WebPlayer.Core WebPlayer.L1.WebSocket WebPlayer.L3.Session WebPlayer.L3.Tls WebPlayer.L4.VideoServer

/-! ## The property -/

def rank : ConnState → Nat
  | .handshakingTls => 0
  | .handshakingWs => 1
  | .connected => 2
  | .negotiating => 3
  | .streaming => 4
  | .closing => 5

def isConnect : Obs → Bool
  | .connect _ => true
  | _ => false

def isOffer : Obs → Bool
  | .send _ (.frame .text _) _ => true
  | _ => false

/-- The states assigned. -/
def statesOf (session : List Obs) : List ConnState :=
  session.filterMap fun
    | .state _ s => some s
    | _ => none

/-- The state a session is in. -/
def stateAfter (session : List Obs) : ConnState := (statesOf session).getLastD .handshakingWs

/-- A TEXT frame was handled in NEGOTIATING that accepts the offer. -/
def Answered (session : List Obs) : Prop :=
  ∃ pre fd p post, session = pre ++ .frame fd .text p :: post ∧ stateAfter pre = .negotiating ∧ acceptsOffer p = true

structure SessionSafe (env : Env) (session : List Obs) : Prop where
  forward : (.handshakingWs :: statesOf session).Pairwise fun s s' => rank s ≤ rank s'
  offers : session.countP isOffer ≤ 1
  offer : ∀ pre fd p n post, session = pre ++ .send fd (.frame .text p) n :: post →
    p = buildMediaOffer env ∧ ∃ fd' text k, .send fd' (.response text) k ∈ pre
  media : ∀ pre fd p n post, session = pre ++ .send fd (.frame .binary p) n :: post →
    stateAfter pre = .streaming ∧ Answered pre
  silent : ∀ pre fd p n post, session = pre ++ .send fd (.frame .close p) n :: post →
    ∀ fd' msg k, .send fd' msg k ∈ post → k = 0

/-- Every session, and the records of the last ones. -/
def SessionsSafe {τ : Type} (env : Env) (net : Server τ) : Prop :=
  ∀ fd pre o session post, logOf fd net.log = pre ++ o :: (session ++ post) → isConnect o = true →
    (∀ o', o' ∈ session → isConnect o' = false) →
    SessionSafe env session ∧
      (post = [] → ∀ conn, net.user.connections fd = some conn → conn.state = stateAfter session)

/-! ## A monitor for it -/

structure Track where
  state : ConnState := .handshakingWs
  responded : Bool := false
  offered : Bool := false
  answered : Bool := false
  closed : Bool := false

section
variable (env : Env)

def track (t : Track) : Obs → Option Track
  | .connect _ => some {}
  | .state _ s => if rank t.state ≤ rank s then some { t with state := s } else none
  | .frame _ .text p =>
    some { t with answered := t.answered || (decide (t.state = .negotiating) && acceptsOffer p) }
  | .send _ msg n =>
    if t.closed ∧ 0 < n then none
    else
      match msg with
      | .response _ => some { t with responded := true }
      | .frame .text p =>
        if t.responded ∧ t.offered = false ∧ p = buildMediaOffer env then some { t with offered := true } else none
      | .frame .binary _ => if t.state = .streaming ∧ t.answered then some t else none
      | .frame .close _ => some { t with closed := true }
      | .frame _ _ => some t
  | _ => some t

/-- What the track passes over. -/
def isPlain : Obs → Bool
  | .connect _ => false
  | .state _ _ => false
  | .frame _ .text _ => false
  | .send _ (.response _) _ => false
  | .send _ (.frame .text _) _ => false
  | .send _ (.frame .binary _) _ => false
  | .send _ (.frame .close _) _ => false
  | _ => true

/-- The steps of `track` within a session. -/
inductive Tracks (t : Track) : Obs → Track → Prop where
  | state (fd : Fd) {s : ConnState} (h : rank t.state ≤ rank s) : Tracks t (.state fd s) { t with state := s }
  | text (fd : Fd) (p : Bytes) : Tracks t (.frame fd .text p)
      { t with answered := t.answered || (decide (t.state = .negotiating) && acceptsOffer p) }
  | response (fd : Fd) (text : Bytes) {n : Nat} (hn : t.closed = true → n = 0) :
      Tracks t (.send fd (.response text) n) { t with responded := true }
  | offer (fd : Fd) {n : Nat} (hn : t.closed = true → n = 0) (hr : t.responded = true) (ho : t.offered = false) :
      Tracks t (.send fd (.frame .text (buildMediaOffer env)) n) { t with offered := true }
  | media (fd : Fd) (p : Bytes) {n : Nat} (hn : t.closed = true → n = 0) (hs : t.state = .streaming)
      (ha : t.answered = true) : Tracks t (.send fd (.frame .binary p) n) t
  | close (fd : Fd) (p : Bytes) {n : Nat} (hn : t.closed = true → n = 0) :
      Tracks t (.send fd (.frame .close p) n) { t with closed := true }
  | plain {o : Obs} (ho : isPlain o = true) (hn : ∀ fd msg n, o = .send fd msg n → t.closed = true → n = 0) : Tracks t o t

variable {env}

theorem track_send_cases {t t' : Track} {fd : Fd} {msg : Msg} {n : Nat} (h : track env t (.send fd msg n) = some t') :
    Tracks env t (.send fd msg n) t' := by
  simp only [track] at h
  by_cases hcl : t.closed = true ∧ 0 < n
  · rw [if_pos hcl] at h
    cases h
  rw [if_neg hcl] at h
  have hn : t.closed = true → n = 0 := fun hclosed => Nat.eq_zero_of_not_pos fun hpos => hcl ⟨hclosed, hpos⟩
  cases msg with
  | response text =>
    cases h
    exact .response fd text hn
  | frame opcode p =>
    cases opcode with
    | text =>
      by_cases hgo : t.responded = true ∧ t.offered = false ∧ p = buildMediaOffer env
      · simp only [if_pos hgo] at h
        cases h
        obtain ⟨hr, ho, rfl⟩ := hgo
        exact .offer fd hn hr ho
      · simp only [if_neg hgo] at h
        cases h
    | binary =>
      by_cases hgo : t.state = .streaming ∧ t.answered = true
      · simp only [if_pos hgo] at h
        cases h
        exact .media fd p hn hgo.1 hgo.2
      · simp only [if_neg hgo] at h
        cases h
    | close =>
      cases h
      exact .close fd p hn
    | _ =>
      cases h
      refine .plain rfl fun fd' msg' n' heq => ?_
      cases heq
      exact hn

theorem track_cases {t t' : Track} {o : Obs} (h : track env t o = some t') (hc : isConnect o = false) : Tracks env t o t' := by
  cases o with
  | connect fd => cases hc
  | send fd msg n => exact track_send_cases h
  | state fd s =>
    simp only [track] at h
    by_cases hle : rank t.state ≤ rank s
    · rw [if_pos hle] at h
      cases h
      exact .state fd hle
    · rw [if_neg hle] at h
      cases h
  | frame fd opcode p =>
    cases opcode with
    | text =>
      cases h
      exact .text fd p
    | _ =>
      cases h
      exact .plain rfl nofun
  | _ =>
    cases h
    exact .plain rfl nofun

section
variable {t t' : Track} {o : Obs}

theorem plain_states (ho : isPlain o = true) : statesOf [o] = [] := by
  cases o with
  | state fd s => cases ho
  | _ => rfl

theorem plain_offer (ho : isPlain o = true) : isOffer o = false := by
  cases o with
  | send fd msg n =>
    cases msg with
    | response text => rfl
    | frame opcode p =>
      cases opcode with
      | text => cases ho
      | _ => rfl
  | _ => rfl

variable (h : Tracks env t o t')
include h

theorem Tracks.states : (statesOf [o] = [] ∧ t'.state = t.state) ∨
    ∃ s, statesOf [o] = [s] ∧ t'.state = s ∧ rank t.state ≤ rank s := by
  cases h with
  | @state fd s hle => exact .inr ⟨s, rfl, rfl, hle⟩
  | plain ho => exact .inl ⟨plain_states ho, rfl⟩
  | _ => exact .inl ⟨rfl, rfl⟩

theorem Tracks.offers : (isOffer o = false ∧ t'.offered = t.offered) ∨
    (isOffer o = true ∧ t.offered = false ∧ t'.offered = true) := by
  cases h with
  | offer fd hn hr ho => exact .inr ⟨rfl, ho, rfl⟩
  | plain ho => exact .inl ⟨plain_offer ho, rfl⟩
  | _ => exact .inl ⟨rfl, rfl⟩

theorem Tracks.sends {fd : Fd} {msg : Msg} {n : Nat} (heq : o = .send fd msg n) : t.closed = true → n = 0 := by
  cases h with
  | state => cases heq
  | text => cases heq
  | plain ho hn => exact hn fd msg n heq
  | response fd text hn => cases heq; exact hn
  | offer fd hn => cases heq; exact hn
  | media fd p hn => cases heq; exact hn
  | close fd p hn => cases heq; exact hn

end

/-! ## What the monitor says -/

variable (env)

/-- What the track says of the session so far. -/
structure Mirrors (t : Track) (session : List Obs) : Prop where
  state : t.state = stateAfter session
  bound : ∀ s, s ∈ ConnState.handshakingWs :: statesOf session → rank s ≤ rank t.state
  responded : t.responded = true → ∃ fd text k, .send fd (.response text) k ∈ session
  offered : t.offered = false → session.countP isOffer = 0
  answered : t.answered = true → Answered session
  closed : ∀ fd p n, .send fd (.frame .close p) n ∈ session → t.closed = true
  safe : SessionSafe env session

variable {env}

theorem mirrors_nil : Mirrors env {} [] where
  state := rfl
  bound s hs := by
    rw [List.mem_singleton.mp hs]
  responded := nofun
  offered _ := rfl
  answered := nofun
  closed := nofun
  safe :=
    { forward := List.pairwise_singleton ..
      offers := Nat.zero_le _
      offer := fun pre fd p n post h => absurd h (by simp)
      media := fun pre fd p n post h => absurd h (by simp)
      silent := fun pre fd p n post h => absurd h (by simp) }

theorem answered_snoc {session : List Obs} (h : Answered session) (o : Obs) : Answered (session ++ [o]) := by
  obtain ⟨pre, fd, p, post, rfl, hstate, hp⟩ := h
  exact ⟨pre, fd, p, post ++ [o], by simp, hstate, hp⟩

theorem statesOf_snoc (session : List Obs) (o : Obs) : statesOf (session ++ [o]) = statesOf session ++ statesOf [o] :=
  List.filterMap_append ..

section
variable {t t' : Track} {session : List Obs} {o : Obs} (hm : Mirrors env t session) (h : Tracks env t o t')
include hm h

/-- One more observation. -/
theorem safe_snoc : SessionSafe env (session ++ [o]) := by
  refine ⟨?_, ?_, fun pre fd p n post heq => ?_, fun pre fd p n post heq => ?_, fun pre fd p n post heq => ?_⟩
  · rw [statesOf_snoc, ← List.cons_append, List.pairwise_append]
    rcases h.states with ⟨hnone, -⟩ | ⟨s, hs, -, hle⟩
    · rw [hnone]
      exact ⟨hm.safe.forward, .nil, fun _ _ _ => nofun⟩
    · rw [hs]
      refine ⟨hm.safe.forward, List.pairwise_singleton .., fun s₁ h₁ s₂ h₂ => ?_⟩
      rw [List.mem_singleton.mp h₂]
      exact Nat.le_trans (hm.bound s₁ h₁) hle
  · rw [List.countP_append]
    rcases h.offers with ⟨hno, -⟩ | ⟨hyes, hfirst, -⟩
    · simpa [hno] using hm.safe.offers
    · simp [hyes, hm.offered hfirst]
  · rcases Monitor.snoc_split heq with ⟨rfl, rfl, -⟩ | ⟨post', heq, -⟩
    · cases h with
      | offer fd hn hr => exact ⟨rfl, hm.responded hr⟩
      | plain ho => cases ho
    · exact hm.safe.offer pre fd p n post' heq
  · rcases Monitor.snoc_split heq with ⟨rfl, rfl, -⟩ | ⟨post', heq, -⟩
    · cases h with
      | media fd p hn hs ha => exact ⟨hm.state ▸ hs, hm.answered ha⟩
      | plain ho => cases ho
    · exact hm.safe.media pre fd p n post' heq
  · rcases Monitor.snoc_split heq with ⟨rfl, rfl, rfl⟩ | ⟨post', hold, rfl⟩
    · nofun
    · intro fd' msg k hmem
      rcases List.mem_append.mp hmem with hmem | hmem
      · exact hm.safe.silent pre fd p n post' hold fd' msg k hmem
      · apply h.sends (List.mem_singleton.mp hmem).symm
        exact hm.closed fd p n (by simp [hold])

theorem Mirrors.snoc : Mirrors env t' (session ++ [o]) where
  state := by
    unfold stateAfter
    rw [statesOf_snoc]
    rcases h.states with ⟨hnone, hsame⟩ | ⟨s, hs, hst, -⟩
    · rw [hnone, List.append_nil, hsame]
      exact hm.state
    · rw [hs, hst]
      simp
  bound s₁ h₁ := by
    rw [statesOf_snoc, ← List.cons_append] at h₁
    rcases h.states with ⟨hnone, hsame⟩ | ⟨s, hs, hst, hle⟩
    · rw [hnone, List.append_nil] at h₁
      exact hsame ▸ hm.bound s₁ h₁
    · rw [hs] at h₁
      rw [hst]
      rcases List.mem_append.mp h₁ with h₁ | h₁
      · exact Nat.le_trans (hm.bound s₁ h₁) hle
      · rw [List.mem_singleton.mp h₁]
  responded hr := by
    have hold : t.responded = true → ∃ fd text k, .send fd (.response text) k ∈ session ++ [o] := by
      intro hr
      obtain ⟨fd, text, k, hmem⟩ := hm.responded hr
      exact ⟨fd, text, k, List.mem_append_left _ hmem⟩
    cases h with
    | @response fd text n hn => exact ⟨fd, text, n, by simp⟩
    | _ => exact hold hr
  offered ho := by
    rw [List.countP_append]
    rcases h.offers with ⟨hno, hsame⟩ | ⟨-, -, hyes⟩
    · simp [hno, hm.offered (hsame ▸ ho)]
    · rw [hyes] at ho
      cases ho
  answered ha := by
    cases h with
    | text fd p =>
      cases hold : t.answered with
      | true => exact answered_snoc (hm.answered hold) _
      | false =>
        simp only [hold, Bool.false_or, Bool.and_eq_true, decide_eq_true_eq] at ha
        exact ⟨session, fd, p, [], rfl, hm.state ▸ ha.1, ha.2⟩
    | _ => exact answered_snoc (hm.answered ha) _
  closed fd p n hmem := by
    have hstay : t.closed = true → t'.closed = true := by
      intro hc
      cases h with
      | close => rfl
      | _ => exact hc
    rcases List.mem_append.mp hmem with hmem | hmem
    · exact hstay (hm.closed fd p n hmem)
    · cases List.mem_singleton.mp hmem
      cases h with
      | close => rfl
      | plain ho => cases ho
  safe := safe_snoc hm h

end

theorem track_safe {log pre session post : List Obs} {o : Obs} {t : Track}
    (h : Monitor.follow (track env) {} log = some t) (hlog : log = pre ++ o :: (session ++ post)) (ho : isConnect o = true)
    (hsession : ∀ o', o' ∈ session → isConnect o' = false) :
    SessionSafe env session ∧ (post = [] → t.state = stateAfter session) := by
  have hreset : ∀ u u', track env u o = some u' → u' = {} := by
    intro u u' hnext
    cases o with
    | connect fd => exact (Option.some.inj hnext).symm
    | _ => cases ho
  obtain ⟨w, h, hpost⟩ := Monitor.follow_reset h hlog hreset
  have hw : Mirrors env w session := by
    apply Monitor.follow_induction h
    · exact mirrors_nil
    · exact fun u u' done o hmem ih hnext => ih.snoc (track_cases hnext (hsession o hmem))
  refine ⟨hw.safe, fun hnil => ?_⟩
  subst hnil
  cases hpost
  exact hw.state

/-! ## One descriptor -/

variable (env)

/-- The log is followed; a session in its first state has offered nothing,
and one that streams was answered. -/
structure Tracked (log : List Obs) (t : Track) : Prop where
  follows : Monitor.follow (track env) {} log = some t
  fresh : t.state = .handshakingWs → t.offered = false
  answered : t.state = .streaming → t.answered = true

def Untracked (o : Obs) : Prop := ∀ t, track env t o = some t

/-- After a CLOSE frame there is no session to send in. -/
def Silent (v : View) (t : Track) : Prop := t.closed = true → v.link ≠ some true

def RecordIn (v : View) (t : Track) : Prop := ∀ conn, v.conn = some conn → conn.state = t.state

variable {env}

theorem Tracked.step {log : List Obs} {t t' : Track} {o : Obs} (h : Tracked env log t) (hnext : track env t o = some t')
    (hfresh : t'.state = .handshakingWs → t'.offered = false) (hanswered : t'.state = .streaming → t'.answered = true) :
    Tracked env (log ++ [o]) t' := by
  refine ⟨?_, hfresh, hanswered⟩
  rw [Monitor.follow_append, h.follows]
  simpa [Monitor.follow] using hnext

theorem Tracked.quiet {log os : List Obs} {t : Track} (h : Tracked env log t) (hos : ∀ o ∈ os, Untracked env o) :
    Tracked env (log ++ os) t := by
  refine ⟨?_, h.fresh, h.answered⟩
  rw [Monitor.follow_append, h.follows]
  exact Monitor.follow_inert fun o ho => hos o ho t

theorem track_frame (t : Track) (fd : Fd) (opcode : WsOpcode) (p : Bytes) :
    ∃ b, track env t (.frame fd opcode p) = some { t with answered := b } ∧ (t.answered = true → b = true) := by
  cases opcode with
  | text => exact ⟨_, rfl, fun h => by simp [h]⟩
  | _ => exact ⟨_, rfl, id⟩

theorem track_state {t : Track} {s : ConnState} (fd : Fd) (h : rank t.state ≤ rank s) :
    track env t (.state fd s) = some { t with state := s } := if_pos h

/-- What is sent in a session that is not over. -/
theorem track_send {v : View} {t : Track} {n : Nat} (hs : Silent v t) (hn : Sent v n) : ¬ (t.closed = true ∧ 0 < n) :=
  fun h => hs h.1 (hn h.2)

theorem Tracked.frame {v : View} {t : Track} (h : Tracked env v.log t) (fd : Fd) (opcode : WsOpcode) (p : Bytes) :
    ∃ b, Tracked env (v.log ++ [.frame fd opcode p]) { t with answered := b } := by
  obtain ⟨b, hnext, hb⟩ := track_frame t fd opcode p
  exact ⟨b, h.step hnext h.fresh fun hs => hb (h.answered hs)⟩

theorem removal_untracked (fd : Fd) (v : View) (caller : Caller) :
    ∀ o ∈ .remove fd caller :: (v.erasure fd ++ (if v.link = some true then [.disconnect fd] else []) ++ [.close fd]),
      Untracked env o := by
  intro o ho t
  unfold View.erasure at ho
  simp only [List.mem_cons, List.mem_append, List.mem_ite_nil_right, List.not_mem_nil, or_false] at ho
  rcases ho with rfl | (⟨-, rfl⟩ | ⟨-, rfl⟩) | rfl <;> rfl

theorem closing_untracked (fd : Fd) (v : View) :
    ∀ o ∈ v.erasure fd ++ [.remove fd .app, .close fd], Untracked env o := by
  intro o ho t
  unfold View.erasure at ho
  simp only [List.mem_cons, List.mem_append, List.mem_ite_nil_right, List.not_mem_nil, or_false] at ho
  rcases ho with ⟨-, rfl⟩ | rfl | rfl <;> rfl

theorem performs_append {fd : Fd} {v v' : View} {o₁ o₂ : List Out} (h : Performs fd v (o₁ ++ o₂) v') :
    ∃ w, Performs fd v o₁ w ∧ Performs fd w o₂ v' := by
  induction o₁ generalizing v with
  | nil => exact ⟨v, .nil v, h⟩
  | cons o o₁ ih =>
    cases h with
    | dispatch h =>
      obtain ⟨w, h₁, h₂⟩ := ih h
      exact ⟨w, .dispatch h₁, h₂⟩
    | setState h =>
      obtain ⟨w, h₁, h₂⟩ := ih h
      exact ⟨w, .setState h₁, h₂⟩
    | send hn h =>
      obtain ⟨w, h₁, h₂⟩ := ih h
      exact ⟨w, .send hn h₁, h₂⟩
    | close h =>
      obtain ⟨w, h₁, h₂⟩ := ih h
      exact ⟨w, .close h₁, h₂⟩

section
variable {fd : Fd} {v v' : View} {t : Track} (h : Tracked env v.log t) (hs : Silent v t)
include h hs

theorem upgrade_tracked {text : Bytes} (hp : Performs fd v [.send (.response text), .setState .connected,
    .send (.frame .text (buildMediaOffer env)), .setState .negotiating] v') (hstate : t.state = .handshakingWs) :
    ∃ t', Tracked env v'.log t' ∧ Silent v' t' ∧ t'.state = .negotiating := by
  cases hp with | send hn hp =>
  cases hp with | setState hp =>
  cases hp with | send hn' hp =>
  cases hp with | setState hp =>
  cases hp
  have hoffered := h.fresh hstate
  have h₁ := h.step (o := .send fd (.response text) _) (if_neg (track_send hs hn)) (fun _ => hoffered) h.answered
  have hrank : rank t.state ≤ rank .connected := by rw [hstate]; decide
  have h₂ := h₁.step (track_state fd hrank) nofun nofun
  have hoffer : track env { t with responded := true, state := .connected }
      (.send fd (.frame .text (buildMediaOffer env)) _) = _ :=
    (if_neg (track_send (t := { t with responded := true, state := .connected }) hs hn')).trans (if_pos ⟨rfl, hoffered, rfl⟩)
  have h₃ := h₂.step hoffer nofun nofun
  have hlast : rank .connected ≤ rank .negotiating := by decide
  exact ⟨_, h₃.step (track_state fd hlast) nofun nofun, hs, rfl⟩

theorem accept_tracked {payload : Bytes} (hp : Performs fd v [.dispatch .text payload, .setState .streaming] v')
    (ha : acceptsOffer payload = true) (hstate : t.state = .negotiating) :
    ∃ t', Tracked env v'.log t' ∧ Silent v' t' ∧ t'.state = .streaming := by
  cases hp with | dispatch hp =>
  cases hp with | setState hp =>
  cases hp
  have hframe : track env t (.frame fd .text payload) = some { t with answered := true } := by simp [track, hstate, ha]
  have h₁ := h.step hframe h.fresh fun _ => rfl
  have hrank : rank t.state ≤ rank .streaming := by rw [hstate]; decide
  exact ⟨_, h₁.step (track_state fd hrank) nofun fun _ => rfl, hs, rfl⟩

/-- The CLOSE frame is the last thing sent: the entry goes at once. -/
theorem reject_tracked {payload : Bytes} (hp : Performs fd v [.dispatch .text payload, .setState .closing,
    .send (closeMsg 1000 "Negotiation rejected"), .close] v') (hstate : t.state = .negotiating) :
    ∃ t', Tracked env v'.log t' ∧ Silent v' t' ∧ t'.state = .closing := by
  cases hp with | dispatch hp =>
  cases hp with | setState hp =>
  cases hp with | send hn hp =>
  cases hp with | close hp =>
  cases hp
  obtain ⟨b, h₁⟩ := h.frame fd .text payload
  have hrank : rank t.state ≤ rank .closing := by rw [hstate]; decide
  have h₂ := h₁.step (track_state fd hrank) nofun nofun
  have h₃ := h₂.step (o := .send fd (closeMsg 1000 "Negotiation rejected") _) (if_neg (track_send hs hn)) nofun nofun
  exact ⟨_, h₃.quiet (closing_untracked fd _), fun _ => nofun, rfl⟩

omit hs in
theorem close_tracked {payload : Bytes} (hp : Performs fd v [.dispatch .close payload, .setState .closing, .close] v') :
    ∃ t', Tracked env v'.log t' ∧ Silent v' t' ∧ t'.state = .closing := by
  cases hp with | dispatch hp =>
  cases hp with | setState hp =>
  cases hp with | close hp =>
  cases hp
  obtain ⟨b, h₁⟩ := h.frame fd .close payload
  have hrank : rank t.state ≤ rank .closing := by cases t.state <;> decide
  have h₂ := h₁.step (track_state fd hrank) nofun nofun
  exact ⟨_, h₂.quiet (closing_untracked fd _), fun _ => nofun, rfl⟩

end

/-- What the session puts out is permitted, in the state it is put out in. -/
theorem transcript_tracked {fd : Fd} {s s' : ConnState} {outs : List Out} (htrans : Says env s outs s') {v v' : View}
    {t : Track} (hp : Performs fd v outs v') (h : Tracked env v.log t) (hs : Silent v t) (hstate : t.state = s) :
    ∃ t', Tracked env v'.log t' ∧ Silent v' t' ∧ t'.state = s' := by
  induction htrans generalizing v v' t with
  | quiet s =>
    cases hp
    exact ⟨t, h, hs, hstate⟩
  | receive s opcode payload =>
    cases hp with | dispatch hp =>
    cases hp
    obtain ⟨b, h₁⟩ := h.frame fd opcode payload
    exact ⟨_, h₁, hs, hstate⟩
  | pong s payload =>
    cases hp with | dispatch hp =>
    cases hp with | send hn hp =>
    cases hp
    obtain ⟨b, h₁⟩ := h.frame fd .ping payload
    exact ⟨_, h₁.step (if_neg (track_send hs hn)) h₁.fresh h₁.answered, hs, hstate⟩
  | accept ha => exact accept_tracked h hs hp ha hstate
  | reject payload => exact reject_tracked h hs hp hstate
  | close s payload => exact close_tracked h hp
  | refuse =>
    cases hp with | close hp =>
    cases hp
    exact ⟨t, h.quiet (closing_untracked fd v), fun _ => nofun, hstate⟩
  | upgrade text => exact upgrade_tracked h hs hp hstate
  | trans _ _ ih₁ ih₂ =>
    obtain ⟨w, hp₁, hp₂⟩ := performs_append hp
    obtain ⟨t₁, h₁, hs₁, hstate₁⟩ := ih₁ hp₁ h hs hstate
    exact ih₂ hp₂ h₁ hs₁ hstate₁

/-- Between two things that happen to the descriptor. -/
def InSession (env : Env) (v : View) : Prop := ∃ t, Tracked env v.log t ∧ Silent v t ∧ RecordIn v t

/-- Timed out, or shut down: a CLOSE frame may have gone out. -/
def Ending (env : Env) (v : View) : Prop := ∃ t, Tracked env v.log t ∧ RecordIn v t

theorem InSession.emit {v : View} {os : List Obs} (h : InSession env v) (hos : ∀ o ∈ os, Untracked env o) :
    InSession env (v.emit os) := by
  obtain ⟨t, ht, hs, hr⟩ := h
  exact ⟨t, ht.quiet hos, hs, hr⟩

theorem InSession.removed {v : View} (h : InSession env v) (fd : Fd) (caller : Caller) :
    InSession env (v.removed fd caller) := by
  obtain ⟨t, ht, -, hr⟩ := h
  refine ⟨t, ht.quiet (removal_untracked fd v caller), fun _ => nofun, fun conn hconn => ?_⟩
  simp only [View.removed] at hconn
  split at hconn
  · cases hconn
  · exact hr conn hconn

theorem session_accepts {fd : Fd} {v v' : View} (h : InSession env v) (ha : Accepts fd v v') : InSession env v' := by
  obtain ⟨t, ht, hs, hr⟩ := h
  cases ha with
  | refused => exact ⟨t, ht.quiet (by simp [Untracked, track]), hs, hr⟩
  | failed =>
    refine InSession.removed (v := { View.emit _ _ with opened := true }) ⟨t, ?_, hs, hr⟩ fd .connect
    exact ht.quiet (by simp [Untracked, track])
  | client => exact ⟨t, ht.quiet (by simp [Untracked, track]), fun _ => nofun, hr⟩

theorem session_shakes {fd : Fd} {v v' : View} (h : InSession env v) (hs : Shakes fd v v') : InSession env v' := by
  cases hs with
  | want => exact h.emit (by simp [Untracked, track])
  | fail => exact InSession.removed (h.emit (by simp [Untracked, track])) fd .handshake
  | done id =>
    obtain ⟨t, ht, -, -⟩ := h
    have h₁ := ht.quiet (show ∀ o ∈ [Obs.handshake fd .done], Untracked env o by simp [Untracked, track])
    have h₂ := h₁.step (o := .connect fd) rfl (fun _ => rfl) nofun
    refine ⟨{}, by simpa [View.emit] using h₂, nofun, fun conn hconn => ?_⟩
    cases hconn
    rfl

theorem performs_conn {fd : Fd} {v v' : View} {outs : List Out} (hp : Performs fd v outs v') : v'.conn = v.conn := by
  induction hp with
  | nil => rfl
  | dispatch _ ih | setState _ ih | send _ _ ih | close _ ih => exact ih

theorem session_receives {fd : Fd} {v v' : View} (h : InSession env v) (hr : Receives fd env v v') : InSession env v' := by
  obtain ⟨t, ht, hs, hrec⟩ := h
  cases hr with
  | @data conn now p v' hconn hp =>
    have hquiet : Tracked env (v.log ++ [.data fd conn p]) t := ht.quiet (by simp [Untracked, track])
    obtain ⟨t', ht', hs', hstate'⟩ := transcript_tracked (handleData_transcript env now conn p) hp hquiet hs (hrec conn hconn).symm
    refine ⟨t', ht', hs', fun conn' hconn' => ?_⟩
    rw [performs_conn hp] at hconn'
    cases hconn'
    exact hstate'.symm

theorem session_visit {fd : Fd} {v v' : View} (h : InSession env v) (hv : Visit fd v v' false) : InSession env v' := by
  obtain ⟨t, ht, hs, hrec⟩ := h
  cases hv with
  | skip => exact ⟨t, ht.quiet (by simp [Untracked, track]), hs, hrec⟩
  | @stream conn conn' now os hconn hstate hsame hos =>
    have hst : t.state = .streaming := (hrec conn hconn).symm.trans hstate
    have hsend : ∀ o ∈ os, track env t o = some t := by
      intro o ho
      obtain ⟨frame, n, rfl, hn⟩ := hos o ho
      exact (if_neg (track_send hs hn)).trans (if_pos ⟨hst, ht.answered hst⟩)
    refine ⟨t, ⟨?_, ht.fresh, ht.answered⟩, hs, fun conn'' hconn'' => ?_⟩
    · simp only [View.emit]
      rw [Monitor.follow_append, ht.follows]
      refine Monitor.follow_inert fun o ho => ?_
      rcases List.mem_cons.mp ho with rfl | ho
      · rfl
      · exact hsend o ho
    · cases hconn''
      exact hsame.state.trans (hrec conn hconn)

theorem session_late {fd : Fd} {v v' : View} (h : InSession env v) (hv : Visit fd v v' true) : Ending env v' := by
  obtain ⟨t, ht, hs, hrec⟩ := h
  cases hv with
  | @timeout conn now n hconn htime hn =>
    have hst : t.state = .negotiating := (hrec conn hconn).symm.trans htime.1
    have h₁ := ht.quiet (show ∀ o ∈ [Obs.visit fd conn now], Untracked env o by simp [Untracked, track])
    have h₂ := h₁.step (o := .send fd (closeMsg 1008 "Negotiation timeout") n) (if_neg (track_send hs hn)) ht.fresh ht.answered
    have hrank : rank t.state ≤ rank .closing := by rw [hst]; decide
    have h₃ := h₂.step (track_state fd hrank) nofun nofun
    refine ⟨_, by simpa [View.emit] using h₃, fun conn' hconn' => ?_⟩
    cases hconn'
    rfl

theorem session_expire {v : View} (h : Ending env v) (fd : Fd) : InSession env (v.closed fd) := by
  obtain ⟨t, ht, hrec⟩ := h
  exact ⟨t, ht.quiet (closing_untracked fd v), fun _ => nofun, hrec⟩

theorem session_bye {fd : Fd} {v : View} {n : Nat} (h : InSession env v) (hn : Sent v n) :
    Ending env { v.emit [.send fd (closeMsg 1000 "Server is shutting down") n] with link := none } := by
  obtain ⟨t, ht, hs, hrec⟩ := h
  exact ⟨_, ht.step (if_neg (track_send hs hn)) ht.fresh ht.answered, hrec⟩

theorem session_read {fd : Fd} {v : View} (h : InSession env v) (ret : ReadRet) : InSession env (v.read fd ret) := by
  apply h.emit
  intro o ho t
  rw [List.mem_singleton.mp ho]
  split <;> rfl

end

theorem session_rule (env : Env) : Rule env (fun _ v => InSession env v) (fun _ v => InSession env v)
    (fun _ v => InSession env v) (fun _ v => Ending env v) (fun _ v => Ending env v) where
  init _ := ⟨{}, ⟨rfl, fun _ => rfl, nofun⟩, nofun, nofun⟩
  accept h _ ha := session_accepts h ha
  hup h := InSession.removed (h.emit (by simp [Untracked, track])) _ _
  enter h := h.emit (by simp [Untracked, track])
  leave h := h
  recv h := h.emit (by simp [Untracked, track])
  gone h := InSession.removed (h.emit (by simp [Untracked, track])) _ _
  shake h _ hs := session_shakes h hs
  start h _ := h
  read ret h := session_read h ret
  data h hr := session_receives h hr
  shut h := InSession.removed (session_read h .closed) _ _
  finish h := h
  visit h hv := session_visit h hv
  late h hv := session_late h hv
  expire h := session_expire h _
  bye h hn := session_bye h hn
  halt h _ := by
    obtain ⟨t, ht, -, hrec⟩ := h
    exact ⟨t, ht, hrec⟩

/-! ## Every session -/

/-- **Connection states are safe** in every run. -/
theorem sessions_safe {τ : Type} {cfg : Config τ} {s : Sys τ} (h : (system cfg).Reachable s) :
    SessionsSafe cfg.env s.net := by
  intro fd pre o session post hlog ho hsession
  have hend : Ending cfg.env (view s.net fd) := by
    cases hs : s.stopped with
    | false =>
      obtain ⟨t, ht, -, hrec⟩ := ((session_rule cfg.env).reachable h).1 hs fd
      exact ⟨t, ht, hrec⟩
    | true => exact ((session_rule cfg.env).reachable h).2 hs fd
  obtain ⟨t, ht, hrec⟩ := hend
  obtain ⟨hsafe, hlast⟩ := track_safe ht.follows hlog ho hsession
  exact ⟨hsafe, fun hnil conn hconn => (hrec conn hconn).trans (hlast hnil)⟩

/-- Descriptor 5 asks for the upgrade. -/
def plainOffered : Server Bytes := processItem plainConfig plainConnected (.client 5 false [.data 1 sampleRequest])

theorem sessions_safe_offered : (system plainConfig).Reachable ⟨plainOffered, [], false⟩ ∧
    SessionsSafe sampleEnv plainOffered := by
  have hreach : (system plainConfig).Reachable ⟨plainOffered, [], false⟩ := by
    apply reachable_item reachable_connected
    · rfl
    · exact ⟨by decide, by decide⟩
    · trivial
  exact ⟨hreach, sessions_safe hreach⟩

end WebPlayer.L5.Server
