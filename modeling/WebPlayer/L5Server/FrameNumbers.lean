import Mathlib.Data.List.Basic
import Mathlib.Tactic.Ring
import WebPlayer.L5Server.MediaDelivery

/-!
# Frame ids

`frameId_` counts the packets and access units of all connections. In every
run the units that were sent, in the order in which they were sent, carry
0, 1, 2 and so on modulo 2^16, and what a session is sent is part of this
list, in order.

* `frames_numbered`: the numbering, in every run.
-/
namespace WebPlayer.L5.Server
open WebPlayer.Core WebPlayer.L1.WebSocket WebPlayer.L1.FrameEncoder WebPlayer.L3.Session WebPlayer.L3.Tls
  WebPlayer.L4.Media WebPlayer.L4.VideoServer

/-! ## The media of a step -/

theorem removed_media (fd : Fd) (v : View) (caller : Caller) : mediaOf (v.removed fd caller).log = mediaOf v.log := by
  unfold View.removed View.erasure
  split <;> split <;> simp [mediaOf]

theorem closed_media (fd : Fd) (v : View) : mediaOf (v.closed fd).log = mediaOf v.log := by
  unfold View.closed View.erasure
  split <;> simp [mediaOf]

/-- A step sends the protocol frames of its calls. -/
theorem happens_media {τ : Type} {cfg : Config τ} {fd : Fd} {v v' : View} {calls : List EncodeCall}
    (h : Happens cfg fd v calls v') : mediaOf v'.log = mediaOf v.log ++ calls.flatMap EncodeCall.encode := by
  cases h with
  | @stream conn conn' now _ os _ _ _ hs =>
    have hvisit : mediaOf (.visit fd conn now :: os) = mediaOf os := rfl
    rw [View.emit, mediaOf_append, hvisit, hs.media]
  | accept _ ha =>
    cases ha with
    | refused => simp [View.emit, mediaOf]
    | failed =>
      rw [removed_media]
      simp [View.emit, mediaOf]
    | client => simp [View.emit, mediaOf]
  | event => simp [View.emit, mediaOf]
  | recv => simp [View.emit, mediaOf]
  | remove caller => simp [removed_media]
  | shake _ hs =>
    cases hs with
    | want => simp [View.emit, mediaOf]
    | fail =>
      rw [removed_media]
      simp [View.emit, mediaOf]
    | done id => simp [View.emit, mediaOf]
  | read ret =>
    unfold View.read
    split <;> simp [View.emit, mediaOf]
  | receive hr =>
    cases hr with
    | @data conn now p _ hconn hp =>
      obtain ⟨os, hlog, hos⟩ := performs_plain hp (says_noMedia (handleData_transcript cfg.env now conn p))
      rw [hlog, mediaOf_append, (plain_media hos).1]
      simp [View.emit, mediaOf]
  | skip => simp [View.emit, mediaOf]
  | timeout => simp [View.emit, mediaOf, closeMsg]
  | expire => simp [closed_media]
  | bye => simp [View.emit, mediaOf, closeMsg]
  | halt => simp

/-! ## The numbering -/

/-- The calls are among the units, each at a place of its own. -/
def Among (units calls : List EncodeCall) : Prop := ∃ own : List (EncodeCall × Nat), own.Sublist units.zipIdx ∧
  own.map Prod.fst = calls

theorem among_nil (units : List EncodeCall) : Among units [] := ⟨[], List.nil_sublist _, rfl⟩

theorem Among.append {units calls : List EncodeCall} (h : Among units calls) (more : List EncodeCall) :
    Among (units ++ more) calls := by
  obtain ⟨own, hown, hcalls⟩ := h
  rw [Among, List.zipIdx_append]
  exact ⟨own, hown.trans (List.sublist_append_left ..), hcalls⟩

theorem Among.extend {units calls : List EncodeCall} (h : Among units calls) (more : List EncodeCall) :
    Among (units ++ more) (calls ++ more) := by
  obtain ⟨own, hown, hcalls⟩ := h
  rw [Among, List.zipIdx_append]
  refine ⟨own ++ more.zipIdx (0 + units.length), hown.append (List.Sublist.refl _), ?_⟩
  rw [List.map_append, hcalls, List.zipIdx_map_fst]

structure Numbered {τ : Type} (cfg : Config τ) (net : Server τ) (units : List EncodeCall) : Prop where
  ids : NumberedFrom 0 units
  next : net.user.frameId = UInt16.ofNat units.length
  log : mediaOf net.log = units.flatMap EncodeCall.encode
  sessions : ∀ fd, Delivering cfg.env cfg.src (Among units) (view net fd)

section
variable {τ : Type} {cfg : Config τ} {fd : Fd} {net net' : Server τ} {units calls : List EncodeCall}

theorem NumberedFrom.append (h : NumberedFrom 0 units) (h' : NumberedFrom (UInt16.ofNat units.length) calls) :
    NumberedFrom 0 (units ++ calls) := by
  intro k c hc
  by_cases hk : k < units.length
  · rw [List.getElem?_append_left hk] at hc
    exact h k c hc
  · rw [List.getElem?_append_right (Nat.not_lt.mp hk)] at hc
    rw [h' _ c hc, ← UInt16.ofNat_add, Nat.add_sub_cancel' (Nat.not_lt.mp hk), UInt16.zero_add]

/-- What a step adds to the log, seen by its descriptor. -/
theorem Advances.media {n : Nat} (h : Advances fd n net net') {sent : List Bytes}
    (hview : mediaOf (view net' fd).log = mediaOf (view net fd).log ++ sent) : mediaOf net'.log = mediaOf net.log ++ sent := by
  obtain ⟨os, hlog, hos⟩ := h.log
  simp only [view, hlog, logOf_append, logOf_own hos, mediaOf_append] at hview
  rw [hlog, mediaOf_append, List.append_cancel_left hview]

theorem Numbered.move (h : Numbered cfg net units) (hm : Moves cfg fd net calls net') : Numbered cfg net' (units ++ calls) := by
  obtain ⟨v, hv, hview⟩ := hm.happens
  refine ⟨h.ids.append (h.next ▸ hm.numbered), ?_, ?_, fun fd' => ?_⟩
  · rw [hm.advances.frameId, h.next, List.length_append, UInt16.ofNat_add]
  · rw [hm.advances.media (by rw [hview, put_self]; exact happens_media hv), h.log, List.flatMap_append]
  · rw [hview]
    by_cases hfd : fd' = fd
    · rw [hfd, put_self]
      exact delivering_step (h.sessions fd) hv (among_nil units) (fun _ h => h.append calls) fun _ h => h.extend calls
    · rw [put_other _ hfd]
      exact (h.sessions fd').mono fun _ h => h.append calls

theorem Numbered.unseen (h : Numbered cfg net units) (hview : view net' = view net) (hadv : Advances fd 0 net net') :
    Numbered cfg net' units := by
  refine ⟨h.ids, ?_, ?_, fun fd' => ?_⟩
  · rw [hadv.frameId, h.next]
    exact UInt16.add_zero _
  · rw [hadv.media (by rw [hview, List.append_nil]), List.append_nil, h.log]
  · rw [hview]
    exact h.sessions fd'

theorem MovesTo.numbered (hm : MovesTo cfg net net') (h : ∃ units, Numbered cfg net units) :
    ∃ units, Numbered cfg net' units := by
  induction hm with
  | refl => exact h
  | unseen _ hview hadv ih =>
    obtain ⟨units, hunits⟩ := ih
    exact ⟨units, hunits.unseen hview hadv⟩
  | step _ hm ih =>
    obtain ⟨units, hunits⟩ := ih
    exact ⟨_, hunits.move hm⟩

/-! ## The end -/

theorem sendData_log (S : Ssl τ) (fd : Fd) (msg : Msg) (net : Server τ) :
    ∃ n, (sendData S fd msg net).2.log = net.log ++ [.send fd msg n] ∧ (sendData S fd msg net).2.user = net.user := by
  unfold sendData
  cases net.tls fd with
  | none => exact ⟨0, rfl, rfl⟩
  | some c =>
    dsimp only
    split
    · exact ⟨0, rfl, rfl⟩
    · exact ⟨_, rfl, rfl⟩

theorem farewell_same (S : Ssl τ) (order : List Fd) (net : Server τ) :
    mediaOf (order.foldl (fun net fd => (sendData S fd (closeMsg 1000 "Server is shutting down") net).2) net).log =
        mediaOf net.log ∧
      (order.foldl (fun net fd => (sendData S fd (closeMsg 1000 "Server is shutting down") net).2) net).user = net.user := by
  induction order generalizing net with
  | nil => exact ⟨rfl, rfl⟩
  | cons fd order ih =>
    obtain ⟨hmedia, huser⟩ := ih (sendData S fd (closeMsg 1000 "Server is shutting down") net).2
    obtain ⟨n, hlog, hsame⟩ := sendData_log S fd (closeMsg 1000 "Server is shutting down") net
    rw [List.foldl_cons, hmedia, huser, hlog, hsame, mediaOf_append]
    exact ⟨List.append_nil _, rfl⟩

theorem numbered_shutdown {order : List Fd} (hvis : Visits net order) (h : Numbered cfg net units) :
    Numbered cfg (shutdown cfg order net) units := by
  obtain ⟨hmedia, huser⟩ := farewell_same cfg.ssl order net
  refine ⟨h.ids, ?_, hmedia.trans h.log, fun fd => ?_⟩
  · rw [← h.next]
    exact congrArg Video.frameId huser
  · obtain ⟨v, hv, heq⟩ := @shutdown_happens _ cfg _ _ hvis fd
    rw [heq]
    exact delivering_step (h.sessions fd) hv (among_nil units) (fun _ h => h) fun _ h => by rwa [List.append_nil]

end

/-! ## Runs -/

theorem numbered_initial {τ : Type} (cfg : Config τ) (stray : List ReadRet) : Numbered cfg (initial stray) [] where
  ids := numbered_nil 0
  next := rfl
  log := rfl
  sessions _ := delivering_initial ..

theorem reachable_numbered {τ : Type} {cfg : Config τ} {s : Sys τ} (h : (system cfg).Reachable s) :
    ∃ units, Numbered cfg s.net units := by
  have hall : Followed cfg s.net ∧ ∃ units, Numbered cfg s.net units := by
    refine Lts.Inductive.reachable (I := fun s => Followed cfg s.net ∧ ∃ units, Numbered cfg s.net units)
      ⟨fun s hs => ?_, fun s l s' hs hstep => ?_⟩ h
    · obtain ⟨stray, rfl⟩ := hs
      exact ⟨fun fd => Lts.reachable_init rfl, [], numbered_initial cfg stray⟩
    · cases hstep with
      | poll => exact hs
      | next hcr hok =>
        have hmoves := moves_item cfg hok hs.1.own
        exact ⟨hmoves.followed hs.1, hmoves.numbered hs.2⟩
      | shutdown hcr hok =>
        obtain ⟨units, hunits⟩ := hs.2
        exact ⟨followed_shutdown hok hs.1, units, numbered_shutdown hok hunits⟩
  exact hall.2

/-- **The frames are numbered** in every run: all units that were handed to
`SendData`, in order and whatever the connection, carry 0, 1, 2 and so on
modulo 2^16, and each session was sent the units at some of these places, in
order, which are those of its file. -/
theorem frames_numbered {τ : Type} {cfg : Config τ} {s : Sys τ} (h : (system cfg).Reachable s) : ∃ units : List EncodeCall,
    (∀ k c, units[k]? = some c → c.frameId = UInt16.ofNat k) ∧ s.net.user.frameId = UInt16.ofNat units.length ∧
      mediaOf s.net.log = units.flatMap EncodeCall.encode ∧
      ∀ fd, ∀ session ∈ sessions (logOf fd s.net.log), ∃ own : List (EncodeCall × Nat), own.Sublist units.zipIdx ∧
        FromFile cfg.env cfg.src session (own.map Prod.fst) := by
  obtain ⟨units, hunits⟩ := reachable_numbered h
  refine ⟨units, fun k c hc => ?_, hunits.next, hunits.log, fun fd session hsession => ?_⟩
  · rw [hunits.ids k c hc, UInt16.zero_add]
  · obtain ⟨calls, ⟨own, hown, rfl⟩, hfile⟩ := (hunits.sessions fd).all session hsession
    exact ⟨own, hown, hfile⟩

theorem frames_numbered_ticked : ∃ units : List EncodeCall,
    (∀ k c, units[k]? = some c → c.frameId = UInt16.ofNat k) ∧ (plainTicks mp4Config 3).user.frameId = UInt16.ofNat units.length ∧
      mediaOf (plainTicks mp4Config 3).log = units.flatMap EncodeCall.encode ∧
      ∀ fd, ∀ session ∈ sessions (logOf fd (plainTicks mp4Config 3).log), ∃ own : List (EncodeCall × Nat), own.Sublist units.zipIdx ∧
        FromFile mp4Config.env mp4Config.src session (own.map Prod.fst) := frames_numbered reachable_thrice

end WebPlayer.L5.Server
