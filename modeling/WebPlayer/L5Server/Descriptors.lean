import WebPlayer.L4App.MediaCalls
import WebPlayer.L5Server.EventLoop

/-!
# The server as one machine for each descriptor

The view of a descriptor is itself a machine: `descriptor` has a step for
each thing the three layers do to it, and what a tick of the timer sends is
said exactly, packet by packet. Other descriptors show in it only through
the frame ids and the numbers given to connections, which are arbitrary here.

* `descriptor_reachable`: in every run of the server each view is a reachable
  state of the machine of its descriptor, so what holds of every run of that
  machine holds of every connection.
-/
namespace WebPlayer.L5.Server
open WebPlayer.Core WebPlayer.L1.WebSocket WebPlayer.L1.FrameEncoder WebPlayer.L3.Session WebPlayer.L3.Tls WebPlayer.L4.Media
  WebPlayer.L4.VideoServer

/-! ## Media in a log -/

/-- The BINARY messages handed to `SendData`. -/
def mediaOf (log : List Obs) : List Bytes :=
  log.filterMap fun
    | .send _ (.frame .binary p) _ => some p
    | _ => none

/-- Those that were written whole. -/
def wholeMediaOf (log : List Obs) : List Bytes :=
  log.filterMap fun
    | .send _ (.frame .binary p) n => if n = (Msg.frame .binary p).bytes.length then some p else none
    | _ => none

@[simp] theorem mediaOf_append (l l' : List Obs) : mediaOf (l ++ l') = mediaOf l ++ mediaOf l' := List.filterMap_append

@[simp] theorem wholeMediaOf_append (l l' : List Obs) : wholeMediaOf (l ++ l') = wholeMediaOf l ++ wholeMediaOf l' :=
  List.filterMap_append

/-- What is sent to a client and what its record counts of it. -/
structure Counted (conn : Connection) (os : List Obs) (conn' : Connection) : Prop where
  fd : conn'.fd = conn.fd
  state : conn'.state = conn.state
  auIndex : conn'.auIndex = conn.auIndex
  packetIndex : conn'.packetIndex = conn.packetIndex
  messagesSent : conn'.messagesSent = conn.messagesSent + (wholeMediaOf os).length
  bytesSent : conn'.bytesSent = conn.bytesSent + ((wholeMediaOf os).map List.length).sum

theorem Counted.refl (conn : Connection) : Counted conn [] conn := ⟨rfl, rfl, rfl, rfl, rfl, rfl⟩

theorem Counted.trans {conn conn₁ conn₂ : Connection} {os os' : List Obs} (h : Counted conn os conn₁)
    (h' : Counted conn₁ os' conn₂) : Counted conn (os ++ os') conn₂ where
  fd := h'.fd.trans h.fd
  state := h'.state.trans h.state
  auIndex := h'.auIndex.trans h.auIndex
  packetIndex := h'.packetIndex.trans h.packetIndex
  messagesSent := by
    rw [h'.messagesSent, h.messagesSent, wholeMediaOf_append, List.length_append]
    omega
  bytesSent := by
    rw [h'.bytesSent, h.bytesSent, wholeMediaOf_append, List.map_append, List.sum_append]
    omega

/-- What a tick sends to a client: the calls of the next positions. -/
structure Streamed (env : Env) (src : Source) (conn : Connection) (calls : List EncodeCall) (os : List Obs)
    (conn' : Connection) : Prop where
  fd : conn'.fd = conn.fd
  state : conn'.state = conn.state
  media : mediaOf os = calls.flatMap EncodeCall.encode
  index : position env conn' = position env conn + calls.length
  source : ∀ j c, calls[j]? = some c → SourceCall env src (position env conn + j) c
  messagesSent : conn'.messagesSent = conn.messagesSent + (wholeMediaOf os).length
  bytesSent : conn'.bytesSent = conn.bytesSent + ((wholeMediaOf os).map List.length).sum

/-! ## The machine -/

section
variable {τ : Type} (cfg : Config τ) (fd : Fd)

/-- The calls are those whose protocol frames are sent. -/
inductive Happens (v : View) : List EncodeCall → View → Prop where
  | accept {v' : View} (hclosed : v.opened = false) (h : Accepts fd v v') : Happens v [] v'
  | event : Happens v [] (v.emit [.event fd v.opened])
  | recv : Happens v [] (v.emit [.recv fd])
  | remove (caller : Caller) : Happens v [] (v.removed fd caller)
  | shake {v' : View} (hlink : v.link = some false) (h : Shakes fd v v') : Happens v [] v'
  | read (ret : ReadRet) : Happens v [] (v.read fd ret)
  | receive {v' : View} (h : Receives fd cfg.env v v') : Happens v [] v'
  | skip {conn : Connection} {now : Int} (hconn : v.conn = some conn) (htime : ¬ TimesOut conn now)
      (hstate : conn.state ≠ .streaming) : Happens v [] (v.emit [.visit fd conn now])
  | stream {conn conn' : Connection} {now : Int} {calls : List EncodeCall} {os : List Obs} (hconn : v.conn = some conn)
      (hstate : conn.state = .streaming) (hos : ∀ o ∈ os, BinarySend fd v o)
      (h : Streamed cfg.env cfg.src conn calls os conn') :
      Happens v calls { v.emit (.visit fd conn now :: os) with conn := some conn' }
  | timeout {conn : Connection} {now : Int} {n : Nat} (hconn : v.conn = some conn) (htime : TimesOut conn now)
      (hn : Sent v n) :
      Happens v [] { v.emit [.visit fd conn now, .send fd (closeMsg 1008 "Negotiation timeout") n, .state fd .closing] with
        conn := some { conn with state := .closing } }
  | expire (h : ∃ conn, v.conn = some conn ∧ conn.state = .closing) : Happens v [] (v.closed fd)
  | bye {n : Nat} (hn : Sent v n) :
      Happens v [] { v.emit [.send fd (closeMsg 1000 "Server is shutting down") n] with link := none }
  | halt (hconn : v.conn = none) : Happens v [] { v with link := none }

/-- The machine of a descriptor. -/
def descriptor : Lts View (List EncodeCall) where
  init v := v = .initial
  step := Happens cfg fd

end

variable {τ : Type} {cfg : Config τ} {fd : Fd}

/-- What every step keeps holds of every run. -/
theorem descriptor_induction {I : View → Prop} (hinit : I .initial)
    (hstep : ∀ v calls v', I v → Happens cfg fd v calls v' → I v') {v : View} (h : (descriptor cfg fd).Reachable v) : I v := by
  refine Lts.Inductive.reachable ⟨fun v hv => ?_, hstep⟩ h
  rw [hv]
  exact hinit

theorem Own.happens {v v' : View} {calls : List EncodeCall} (hv : Own fd v) (hs : Happens cfg fd v calls v') : Own fd v' := by
  cases hs with
  | accept hclosed ha =>
    cases ha with
    | refused => exact hv
    | failed => exact Own.removed (v := { View.emit _ _ with opened := true }) hv _
    | client => exact hv
  | event => exact hv
  | recv => exact hv
  | remove caller => exact hv.removed caller
  | shake hlink h =>
    cases h with
    | want => exact hv
    | fail => exact Own.removed (v := View.emit _ _) hv _
    | done id =>
      intro conn hconn
      cases hconn
      rfl
  | read ret => exact hv
  | receive h =>
    cases h with
    | @data conn now p v' hconn hp =>
      apply Own.performs _ hp
      intro conn' hconn'
      cases hconn'
      rw [handleData_fd]
      exact hv conn hconn
  | skip => exact hv
  | stream hconn _ _ h =>
    intro conn' hconn'
    cases hconn'
    rw [h.fd]
    exact hv _ hconn
  | timeout hconn =>
    have hfd := hv _ hconn
    intro conn' hconn'
    cases hconn'
    exact hfd
  | expire => exact hv
  | bye => exact hv
  | halt => exact hv

theorem own_initial (fd : Fd) : Own fd .initial := by
  intro conn hconn
  cases hconn

/-! ## The log and the frame ids -/

/-- The calls have the frame ids from `first` on. -/
def NumberedFrom (first : UInt16) (calls : List EncodeCall) : Prop :=
  ∀ j c, calls[j]? = some c → c.frameId = first + UInt16.ofNat j

theorem numbered_nil (first : UInt16) : NumberedFrom first [] := by simp [NumberedFrom]

theorem NumberedFrom.cons {first : UInt16} {c : EncodeCall} {calls : List EncodeCall} (hc : c.frameId = first)
    (h : NumberedFrom (first + 1) calls) : NumberedFrom first (c :: calls) := by
  intro j c' hj
  cases j with
  | zero =>
    cases hj
    simpa using hc
  | succ j =>
    rw [h j c' hj, UInt16.add_assoc, Nat.succ_eq_add_one, UInt16.ofNat_add, UInt16.add_comm 1]
    rfl

/-- Only the log of `fd` grows, and `n` frames are counted. -/
structure Advances (fd : Fd) (n : Nat) (net net' : Server τ) : Prop where
  log : ∃ os, net'.log = net.log ++ os ∧ ∀ o ∈ os, o.fd = fd
  frameId : net'.user.frameId = net.user.frameId + UInt16.ofNat n

namespace Advances
variable {net net₁ net' : Server τ} {n m : Nat}

theorem refl (fd : Fd) (net : Server τ) : Advances fd 0 net net :=
  ⟨⟨[], (List.append_nil _).symm, List.forall_mem_nil _⟩, (UInt16.add_zero _).symm⟩

theorem trans (h : Advances fd n net net₁) (h' : Advances fd m net₁ net') : Advances fd (n + m) net net' := by
  obtain ⟨⟨os, hlog, hos⟩, hid⟩ := h
  obtain ⟨⟨os', hlog', hos'⟩, hid'⟩ := h'
  refine ⟨⟨os ++ os', by rw [hlog', hlog, List.append_assoc], fun o ho => ?_⟩, ?_⟩
  · exact (List.mem_append.mp ho).elim (hos o) (hos' o)
  · rw [hid', hid, UInt16.add_assoc, UInt16.ofNat_add]

theorem also (h : Advances fd n net net₁) (h' : Advances fd 0 net₁ net') : Advances fd n net net' := h.trans h'

/-- What only writes to the log of `fd`. -/
theorem writes {os : List Obs} (hlog : net'.log = net.log ++ os) (hos : ∀ o ∈ os, o.fd = fd)
    (hid : net'.user.frameId = net.user.frameId) : Advances fd 0 net net' :=
  ⟨⟨os, hlog, hos⟩, hid.trans (UInt16.add_zero _).symm⟩

theorem one {o : Obs} (ho : o.fd = fd) (hlog : net'.log = net.log ++ [o])
    (hid : net'.user.frameId = net.user.frameId) : Advances fd 0 net net' := writes hlog (by simpa using ho) hid

theorem emit (fd : Fd) (net : Server τ) {o : Obs} (ho : o.fd = fd) : Advances fd 0 net (net.emit o) := one ho rfl rfl

theorem removeClient (caller : Caller) (fd : Fd) (net : Server τ) :
    Advances fd 0 net (L3.Tls.removeClient removeConnection caller fd net) := by
  rw [removeClient_eq]
  refine writes rfl (fun o ho => ?_) ?_
  · simp only [List.mem_cons, List.mem_append, List.mem_ite_nil_right, List.not_mem_nil, or_false] at ho
    rcases ho with rfl | (⟨-, rfl⟩ | ⟨-, rfl⟩) | rfl <;> rfl
  · dsimp only
    split <;> rfl

theorem closeConnection (fd : Fd) (net : Server τ) :
    Advances fd 0 net (L3.Tls.closeConnection removeConnection fd net) := by
  rw [closeConnection_eq]
  refine writes (List.append_assoc ..) (fun o ho => ?_) rfl
  simp only [List.mem_cons, List.mem_append, List.mem_ite_nil_right, List.not_mem_nil, or_false] at ho
  rcases ho with ⟨-, rfl⟩ | rfl | rfl <;> rfl

theorem sendData (S : Ssl τ) (fd : Fd) (msg : Msg) (net : Server τ) :
    Advances fd 0 net (L3.Tls.sendData S fd msg net).2 := by
  unfold L3.Tls.sendData
  cases net.tls fd with
  | none => exact one (o := .send fd msg 0) rfl rfl rfl
  | some c =>
    dsimp only
    split
    · exact emit fd net rfl
    · exact one rfl rfl rfl

variable (cfg : Config τ)

theorem continueTlsHandshake (fd : Fd) (net : Server τ) :
    Advances fd 0 net (L3.Tls.continueTlsHandshake (callbacks cfg) cfg.ssl fd net) := by
  unfold L3.Tls.continueTlsHandshake
  cases htls : net.tls fd with
  | none => exact refl fd net
  | some c =>
    simp only
    have hgo : Advances fd 0 net ((net.setTls fd (some { c with ssl := (cfg.ssl.handshake c.ssl).2 })).emit
        (.handshake fd (cfg.ssl.handshake c.ssl).1)) := one rfl rfl rfl
    split
    · exact hgo
    · exact hgo.trans (removeClient .handshake fd _)
    · refine hgo.also ?_
      exact one (o := .connect fd) rfl rfl rfl

theorem sslRead (S : Ssl τ) (fd : Fd) (net : Server τ) : Advances fd 0 net (L3.Tls.sslRead S fd net).2 := by
  unfold L3.Tls.sslRead
  cases net.tls fd with
  | some c => exact one (o := .sslRead fd _) rfl rfl rfl
  | none =>
    cases net.stray with
    | nil => exact emit fd net rfl
    | cons r rs => exact one (o := .strayRead fd r) rfl rfl rfl

theorem acceptOne (net : Server τ) (ret : AcceptRet τ) :
    Advances ret.fd 0 net (L3.Tls.acceptOne (callbacks cfg) net ret) := by
  unfold L3.Tls.acceptOne
  split
  · exact refl ret.fd net
  · have hopen : Advances ret.fd 0 net { net.emit (.accept ret.fd) with opened := put net.opened ret.fd true } :=
      one rfl rfl rfl
    cases ret with
    | refused fd =>
      refine hopen.also ?_
      exact one (o := .close fd) rfl rfl rfl
    | client fd ssl =>
      cases ssl with
      | none => exact hopen.trans (removeClient .connect fd _)
      | some t => exact one (o := .accept fd) rfl rfl rfl

theorem performs (fd : Fd) (outs : List Out) (net : Server τ) : Advances fd 0 net (outs.foldl (perform cfg fd) net) := by
  induction outs generalizing net with
  | nil => exact refl fd net
  | cons o outs ih =>
    have hone : Advances fd 0 net (perform cfg fd net o) := by
      cases o with
      | dispatch opcode payload => exact emit fd net rfl
      | setState state => exact emit fd net rfl
      | send msg => exact sendData cfg.ssl fd msg net
      | close => exact closeConnection fd net
    exact hone.trans (ih _)

theorem handleData (now : Int) (fd : Fd) (data : Bytes) (net : Server τ) :
    Advances fd 0 net (L4.VideoServer.handleData cfg now fd data net) := by
  unfold L4.VideoServer.handleData
  cases net.user.connections fd with
  | none => exact refl fd net
  | some conn =>
    have hset : Advances fd 0 net (setConnection (net.emit (.data fd conn data)) fd
        (L3.Session.handleData cfg.env now conn data).conn) := one rfl rfl rfl
    have hall := hset.trans (performs cfg fd (L3.Session.handleData cfg.env now conn data).outs _)
    exact ⟨hall.log, hall.frameId⟩

theorem sendFrames (conn : Connection) (net : Server τ) (frames : List Bytes) :
    Advances conn.fd 0 net (L4.VideoServer.sendFrames cfg conn net frames).2 := by
  induction frames generalizing conn net with
  | nil => exact refl conn.fd net
  | cons frame frames ih =>
    -- A sent frame only counts in the record: the descriptor stays.
    have hrest : ∀ (conn' : Connection) (net' : Server τ), conn'.fd = conn.fd →
        Advances conn.fd 0 net' (L4.VideoServer.sendFrames cfg conn' net' frames).2 := by
      intro conn' net' hfd
      rw [← hfd]
      exact ih conn' net'
    rw [L4.VideoServer.sendFrames]
    refine (sendData cfg.ssl conn.fd (.frame .binary frame) net).trans (hrest _ _ ?_)
    split <;> rfl

theorem countFrame (fd : Fd) (net : Server τ) : Advances fd 1 net (L4.VideoServer.countFrame net) :=
  ⟨⟨[], (List.append_nil _).symm, List.forall_mem_nil _⟩, rfl⟩

end Advances

/-! ## What a tick sends -/

theorem frame_bytes_ne (opcode : WsOpcode) (p : Bytes) : (Msg.frame opcode p).bytes.length ≠ 0 := by
  simp [Msg.bytes, L1.WebSocket.encodeFrame]

/-- A BINARY message, and whether it was sent. -/
theorem sendData_whole (S : Ssl τ) (fd : Fd) (p : Bytes) (net : Server τ) : ∃ n, Sent (view net fd) n ∧
    view (sendData S fd (.frame .binary p) net).2 = put (view net) fd ((view net fd).emit [.send fd (.frame .binary p) n]) ∧
    (sendData S fd (.frame .binary p) net).1 =
      if n = (Msg.frame .binary p).bytes.length then some (Msg.frame .binary p).bytes.length else none := by
  have hnot : view (net.emit (.send fd (.frame .binary p) 0)) =
      put (view net) fd ((view net fd).emit [.send fd (.frame .binary p) 0]) := view_emit ..
  have hzero : Sent (view net fd) 0 := fun h => absurd h (Nat.lt_irrefl 0)
  have hshort : (none : Option Nat) =
      if 0 = (Msg.frame .binary p).bytes.length then some (Msg.frame .binary p).bytes.length else none :=
    (if_neg (frame_bytes_ne .binary p).symm).symm
  unfold sendData
  cases htls : net.tls fd with
  | none => exact ⟨0, hzero, hnot, hshort⟩
  | some c =>
    cases hc : c.handshakeComplete with
    | false =>
      simp only [hc, Bool.not_false, if_true]
      exact ⟨0, hzero, hnot, hshort⟩
    | true =>
      simp only [hc, Bool.not_true, Bool.false_eq_true, if_false]
      refine ⟨_, fun _ => by simp [view, htls, hc], ?_, rfl⟩
      simpa [hc, Obs.fd] using view_insert_emit htls (S.write c.ssl (Msg.frame .binary p).bytes.length).2 (.send fd
        (.frame .binary p) (min (S.write c.ssl (Msg.frame .binary p).bytes.length).1 (Msg.frame .binary p).bytes.length))

/-- Messages sent on the record's own descriptor. -/
structure Sends (conn : Connection) (net : Server τ) (frames : List Bytes) (r : Connection × Server τ) : Prop where
  sends : ∃ os, (∀ o ∈ os, BinarySend conn.fd (view net conn.fd) o) ∧ mediaOf os = frames ∧ Counted conn os r.1 ∧
    view r.2 = put (view net) conn.fd ((view net conn.fd).emit os)

theorem sends_fd {conn : Connection} {net : Server τ} {frames : List Bytes} {r : Connection × Server τ}
    (h : Sends conn net frames r) : r.1.fd = conn.fd := by
  obtain ⟨os, -, -, hcount, -⟩ := h
  exact hcount.fd

theorem sends_nil (conn : Connection) (net : Server τ) : Sends conn net [] (conn, net) := by
  refine ⟨[], List.forall_mem_nil _, rfl, .refl conn, ?_⟩
  simp [View.emit, put_same]

theorem Sends.trans {conn conn₁ : Connection} {net net₁ : Server τ} {frames frames' : List Bytes}
    {r : Connection × Server τ} (h : Sends conn net frames (conn₁, net₁)) (h' : Sends conn₁ net₁ frames' r) :
    Sends conn net (frames ++ frames') r := by
  obtain ⟨os, hos, hmedia, hcount, heq⟩ := h
  obtain ⟨os', hos', hmedia', hcount', heq'⟩ := h'
  simp only at hcount heq
  rw [hcount.fd, heq, put_self] at hos'
  rw [hcount.fd, heq, put_self, put_put] at heq'
  refine ⟨os ++ os', fun o ho => ?_, ?_, hcount.trans hcount', ?_⟩
  · rcases List.mem_append.mp ho with ho | ho
    · exact hos o ho
    · exact hos' o ho
  · rw [mediaOf_append, hmedia, hmedia']
  · rw [heq']
    simp [View.emit]

section
variable (cfg : Config τ)

theorem sendFrames_sends (conn : Connection) (net : Server τ) (frames : List Bytes) :
    Sends conn net frames (sendFrames cfg conn net frames) := by
  induction frames generalizing conn net with
  | nil => exact sends_nil conn net
  | cons frame frames ih =>
    obtain ⟨n, hn, heq, hret⟩ := sendData_whole cfg.ssl conn.fd frame net
    have hos : ∀ o ∈ [Obs.send conn.fd (.frame .binary frame) n], BinarySend conn.fd (view net conn.fd) o := by
      intro o ho
      exact ⟨frame, n, List.mem_singleton.mp ho, hn⟩
    have hlen := frame_bytes_ne .binary frame
    rw [sendFrames]
    rw [← List.singleton_append]
    refine Sends.trans ⟨_, hos, rfl, ?_, heq⟩ (ih _ _)
    rw [hret]
    obtain ⟨m, hm⟩ := Nat.exists_eq_succ_of_ne_zero hlen
    by_cases hwhole : n = m + 1
    · constructor <;> simp [wholeMediaOf, hm, hwhole]
    · constructor <;> simp [wholeMediaOf, hm, hwhole]

theorem sendPacket_sends (r : Connection × Server τ) (pkt : MediaPacket) : ∃ c : EncodeCall,
    c = packetCall cfg.env c.absTimeMs c.frameId pkt ∧ c.frameId = r.2.user.frameId ∧
      Sends r.1 r.2 c.encode (sendPacket cfg r pkt) ∧ Advances r.1.fd 1 r.2 (sendPacket cfg r pkt).2 := by
  obtain ⟨os, hos, hmedia, hcount, heq⟩ := sendFrames_sends cfg r.1 r.2
    (packetFrames cfg.env (cfg.systemClock r.2.log.length) r.2.user.frameId pkt)
  rw [packetFrames_eq] at hmedia
  exact ⟨_, rfl, rfl, ⟨os, hos, hmedia, hcount, heq⟩, (Advances.sendFrames cfg r.1 r.2 _).trans (Advances.countFrame r.1.fd _)⟩

theorem sendPackets_sends (pkts : List MediaPacket) (r : Connection × Server τ) : ∃ calls : List EncodeCall,
    calls.length = pkts.length ∧
      (∀ (j : Nat) c, calls[j]? = some c → ∃ pkt, pkts[j]? = some pkt ∧ c = packetCall cfg.env c.absTimeMs c.frameId pkt) ∧
      NumberedFrom r.2.user.frameId calls ∧
      Sends r.1 r.2 (calls.flatMap EncodeCall.encode) (pkts.foldl (sendPacket cfg) r) ∧
      Advances r.1.fd calls.length r.2 (pkts.foldl (sendPacket cfg) r).2 := by
  induction pkts generalizing r with
  | nil => exact ⟨[], rfl, fun j c hc => by simp at hc, numbered_nil _, sends_nil r.1 r.2, .refl r.1.fd r.2⟩
  | cons pkt pkts ih =>
    obtain ⟨c, hc, hid, hsend, hadv⟩ := sendPacket_sends cfg r pkt
    obtain ⟨calls, hlen, hcalls, hnum, hsends, hadvs⟩ := ih (sendPacket cfg r pkt)
    rw [sends_fd hsend] at hadvs
    rw [hadv.frameId] at hnum
    refine ⟨c :: calls, by simp [hlen], fun j c' hc' => ?_, hnum.cons hid, hsend.trans hsends, ?_⟩
    · cases j with
      | zero =>
        cases hc'
        exact ⟨pkt, rfl, hc⟩
      | succ j => exact hcalls j c' hc'
    · rw [List.length_cons, Nat.add_comm]
      exact hadv.trans hadvs

/-- A tick that sends these calls. -/
structure Plays (conn : Connection) (net : Server τ) (calls : List EncodeCall) (r : Connection × Server τ) : Prop where
  view : ∃ os, (∀ o ∈ os, BinarySend conn.fd (view net conn.fd) o) ∧ Streamed cfg.env cfg.src conn calls os r.1 ∧
    view r.2 = put (view net) conn.fd ((view net conn.fd).emit os)
  numbered : NumberedFrom net.user.frameId calls
  advances : Advances conn.fd calls.length net r.2

theorem tickMp4_plays (hmp4 : cfg.env.isMp4Mode = true) (conn : Connection) (net : Server τ) :
    ∃ calls, Plays cfg conn net calls (tickMp4 cfg conn net) := by
  obtain ⟨calls, hlen, hcalls, hnum, ⟨os, hos, hmedia, hcount, heq⟩, hadv⟩ :=
    sendPackets_sends cfg (onTimerMp4 cfg.src.packets conn).1 (conn, net)
  obtain ⟨hindex, hget⟩ := @onTimerMp4_position cfg.src.packets conn
  refine ⟨calls, ⟨os, hos, ⟨hcount.fd, hcount.state, hmedia, ?_, fun j c hc => ?_, hcount.messagesSent,
    hcount.bytesSent⟩, heq⟩, hnum, hadv⟩
  · simp only [tickMp4, position, hmp4, if_true]
    rw [hindex, hlen]
  · obtain ⟨hj, -⟩ := List.getElem?_eq_some_iff.mp hc
    obtain ⟨pkt, hpkt, hcall⟩ := hcalls j c hc
    simp only [SourceCall, position, hmp4, if_true]
    refine ⟨pkt, ?_, hcall⟩
    rw [← hget j (hlen ▸ hj), hpkt]

theorem tickRaw_plays (hraw : cfg.env.isMp4Mode = false) (conn : Connection) (net : Server τ) :
    ∃ calls, Plays cfg conn net calls (tickRaw cfg conn net) := by
  unfold tickRaw
  cases hau : (onTimerRaw cfg.src.accessUnits conn).1 with
  | none =>
    simp only [hau]
    refine ⟨[], ⟨[], List.forall_mem_nil _, ⟨rfl, rfl, rfl, rfl, fun j c hc => ?_, rfl, rfl⟩, ?_⟩, numbered_nil _,
      .refl conn.fd net⟩
    · simp at hc
    · simp [View.emit, put_same]
  | some au =>
    obtain ⟨hunit, hindex⟩ := onTimerRaw_position conn hau
    simp only [hau]
    obtain ⟨os, hos, hmedia, hcount, heq⟩ := sendFrames_sends cfg conn net (accessUnitFrames cfg.env cfg.src
      (cfg.systemClock net.log.length) net.user.frameId conn.auIndex au)
    rw [accessUnitFrames_eq] at hmedia
    refine ⟨[accessUnitCall cfg.env cfg.src (cfg.systemClock net.log.length) net.user.frameId conn.auIndex au],
      ⟨os, hos, ⟨hcount.fd, hcount.state, by simpa using hmedia, ?_, fun j c hc => ?_, hcount.messagesSent,
      hcount.bytesSent⟩, heq⟩, (numbered_nil _).cons rfl,
      (Advances.sendFrames cfg conn net _).trans (Advances.countFrame conn.fd _)⟩
    · simp [position, hraw, hindex]
    · cases j with
      | zero =>
        cases hc
        simp only [SourceCall, position, hraw, Bool.false_eq_true, if_false]
        exact ⟨au, hunit, rfl⟩
      | succ j => simp at hc

end

/-! ## The server moves one descriptor -/

/-- One step of one machine; what is sent takes the next frame ids. -/
structure Moves (cfg : Config τ) (fd : Fd) (net : Server τ) (calls : List EncodeCall) (net' : Server τ) : Prop where
  happens : ∃ v, Happens cfg fd (view net fd) calls v ∧ view net' = put (view net) fd v
  numbered : NumberedFrom net.user.frameId calls
  advances : Advances fd calls.length net net'

/-- The server from one state to another, a step of a machine at a time. -/
inductive MovesTo (cfg : Config τ) (net : Server τ) : Server τ → Prop where
  | refl : MovesTo cfg net net
  | unseen {fd : Fd} {net₁ net' : Server τ} (h : MovesTo cfg net net₁) (hview : view net' = view net₁)
      (hadv : Advances fd 0 net₁ net') : MovesTo cfg net net'
  | step {fd : Fd} {calls : List EncodeCall} {net₁ net' : Server τ} (h : MovesTo cfg net net₁)
      (hm : Moves cfg fd net₁ calls net') : MovesTo cfg net net'

section
variable {net net₁ net' : Server τ}

theorem MovesTo.trans (h : MovesTo cfg net net₁) (h' : MovesTo cfg net₁ net') : MovesTo cfg net net' := by
  induction h' with
  | refl => exact h
  | unseen _ hview hadv ih => exact .unseen ih hview hadv
  | step _ hm ih => exact .step ih hm

theorem Moves.to {calls : List EncodeCall} (h : Moves cfg fd net calls net') : MovesTo cfg net net' := .step .refl h

/-- A step that sends no media. -/
theorem moves_quiet {v : View} (h : Happens cfg fd (view net fd) [] v) (hview : view net' = put (view net) fd v)
    (hadv : Advances fd 0 net net') : MovesTo cfg net net' :=
  Moves.to ⟨⟨v, h, hview⟩, numbered_nil _, hadv⟩

/-- Each record has its descriptor. -/
def AllOwn (net : Server τ) : Prop := ∀ fd, Own fd (view net fd)

theorem MovesTo.own (h : MovesTo cfg net net') (hown : AllOwn net) : AllOwn net' := by
  induction h with
  | refl => exact hown
  | unseen _ hview _ ih =>
    intro fd
    rw [hview]
    exact ih fd
  | @step fd _ _ _ _ hm ih =>
    obtain ⟨v, hv, hview⟩ := hm.happens
    intro fd'
    rw [hview]
    exact ((at_of_all ih fd).set (Q := Own) ((ih fd).happens hv)).all fd'

variable (cfg)

theorem moves_remove (caller : Caller) (fd : Fd) (net : Server τ) :
    MovesTo cfg net (removeClient removeConnection caller fd net) :=
  moves_quiet (.remove caller) (view_removeClient ..) (.removeClient caller fd net)

theorem moves_accept (rets : List (AcceptRet τ)) (net : Server τ) :
    MovesTo cfg net (acceptConnection (callbacks cfg) rets net) := by
  unfold acceptConnection
  induction rets generalizing net with
  | nil => exact .refl
  | cons ret rets ih =>
    refine MovesTo.trans ?_ (ih _)
    have hadv := Advances.acceptOne cfg net ret
    rcases view_acceptOne cfg net ret with hsame | ⟨hclosed, v, hv, heq⟩
    · exact .unseen .refl hsame hadv
    · exact moves_quiet (.accept hclosed hv) heq hadv

theorem moves_readLoop (now : Int) (fd : Fd) (n : Nat) (net : Server τ) :
    MovesTo cfg net (readLoop (callbacks cfg) cfg.ssl now fd n net) := by
  induction n generalizing net with
  | zero => exact .refl
  | succ n ih =>
    have hread : MovesTo cfg net (sslRead cfg.ssl fd net).2 := moves_quiet (.read _) (view_sslRead ..) (.sslRead cfg.ssl fd net)
    rw [readLoop]
    cases hret : (sslRead cfg.ssl fd net).1 with
    | want => exact hread
    | closed => exact hread.trans (moves_remove cfg .read fd _)
    | data p =>
      have hadv := Advances.handleData cfg now fd p (sslRead cfg.ssl fd net).2
      have hdata : MovesTo cfg net (handleData cfg now fd p (sslRead cfg.ssl fd net).2) := by
        rcases view_handleData cfg now fd p (sslRead cfg.ssl fd net).2 with hsame | ⟨v, hv, heq⟩
        · exact .unseen hread hsame hadv
        · exact hread.trans (moves_quiet (.receive hv) heq hadv)
      simp only
      split
      · exact hdata
      · exact hdata.trans (ih _)

theorem moves_data (now : Int) (fd : Fd) (data : Bytes) (net : Server τ) :
    MovesTo cfg net (onTcpData (callbacks cfg) cfg.ssl now fd data net) := by
  unfold onTcpData
  cases htls : net.tls fd with
  | none => exact .refl
  | some c =>
    have hins := view_insert htls (cfg.ssl.insert c.ssl data)
    have hgo : MovesTo cfg net (net.setTls fd (some { c with ssl := cfg.ssl.insert c.ssl data })) := by
      have hadv : Advances fd 0 net (net.setTls fd (some { c with ssl := cfg.ssl.insert c.ssl data })) :=
        .writes (List.append_nil _).symm (List.forall_mem_nil _) rfl
      exact .unseen .refl hins hadv
    cases hc : c.handshakeComplete with
    | true =>
      rw [hc] at hgo
      simp only [hc, Bool.not_true, Bool.false_eq_true, if_false]
      exact hgo.trans (moves_readLoop cfg now fd _ _)
    | false =>
      have hlink : (view (net.setTls fd (some { c with ssl := cfg.ssl.insert c.ssl data })) fd).link = some false := by
        rw [hins]
        simp [view, htls, hc]
      have hsome : (view (net.setTls fd (some { c with ssl := cfg.ssl.insert c.ssl data })) fd).link ≠ none := by
        rw [hlink]
        exact Option.some_ne_none false
      obtain ⟨v, hv, heq⟩ := @view_continueTlsHandshake _ cfg _ _ hsome
      rw [hc] at hgo hlink hv heq
      simp only [hc, Bool.not_false, if_true]
      exact hgo.trans (moves_quiet (.shake hlink hv) heq (.continueTlsHandshake cfg fd _))

theorem moves_client (fd : Fd) (rets : List RecvRet) (net : Server τ) :
    MovesTo cfg net (handleClientData (callbacks cfg) cfg.ssl fd rets net) := by
  have hrecv : ∀ net : Server τ, MovesTo cfg net (net.emit (.recv fd)) := fun net =>
    moves_quiet .recv (view_emit ..) (.emit fd net rfl)
  induction rets generalizing net with
  | nil =>
    simp only [handleClientData]
    split
    · exact hrecv net
    · exact (hrecv net).trans (moves_remove cfg .recv fd _)
  | cons ret rets ih =>
    simp only [handleClientData]
    split
    · exact (hrecv net).trans (moves_remove cfg .recv fd _)
    · cases ret with
      | eof => exact (hrecv net).trans (moves_remove cfg .recv fd _)
      | error => exact (hrecv net).trans (moves_remove cfg .recv fd _)
      | data now bytes =>
        have hdata := (hrecv net).trans (moves_data cfg now fd bytes _)
        simp only
        split
        · exact hdata
        · exact hdata.trans (ih _)

theorem moves_event (fd : Fd) (hup : Bool) (rets : List RecvRet) (net : Server τ) :
    MovesTo cfg net (clientEvent (callbacks cfg) cfg.ssl fd hup rets net) := by
  have hevent : MovesTo cfg net (net.emit (.event fd (net.opened fd))) :=
    moves_quiet .event (view_emit ..) (.emit fd net rfl)
  unfold clientEvent
  cases hup with
  | true => exact hevent.trans (moves_remove cfg .event fd _)
  | false => exact hevent.trans (moves_client cfg fd rets _)

/-- One iteration of the loop of `OnTimer`. -/
theorem moves_visit (now : Fd → Int) (r : Server τ × List Fd) (fd : Fd) (hown : Own fd (view r.1 fd)) :
    visitConnection cfg now r fd = r ∨ ∃ calls late, Moves cfg fd r.1 calls (visitConnection cfg now r fd).1 ∧
      (late = true → ∃ conn, (view (visitConnection cfg now r fd).1 fd).conn = some conn ∧ conn.state = .closing) ∧
      (visitConnection cfg now r fd).2 = r.2 ++ if late then [fd] else [] := by
  rcases view_visitConnection cfg now r fd hown with hsame | ⟨v, late, hv, hview, hlist⟩
  · exact .inl hsame
  right
  have hvisit : ∀ conn, Advances fd 0 r.1 (r.1.emit (.visit fd conn (now fd))) := fun conn => .emit fd r.1 rfl
  cases hv with
  | @skip conn now' hconn htime hstate =>
    have hrecord : r.1.user.connections fd = some conn := hconn
    have hskip : (visitConnection cfg now r fd).1 = r.1.emit (.visit fd conn (now fd)) := by
      have htime' : ¬ TimesOut conn (now fd) := by
        intro hto
        simp [visitConnection, hrecord, hto, hto.1] at hlist
      by_cases hneg : conn.state = .negotiating <;> simp [visitConnection, hrecord, hneg, htime', hstate]
    refine ⟨[], false, ⟨⟨_, .skip hconn htime hstate, hview⟩, numbered_nil _, ?_⟩, Bool.noConfusion, hlist⟩
    rw [hskip]
    exact hvisit conn
  | @timeout conn now' n hconn htime hn =>
    have hrecord : r.1.user.connections fd = some conn := hconn
    refine ⟨[], true, ⟨⟨_, .timeout hconn htime hn, hview⟩, numbered_nil _, ?_⟩, fun _ => ?_, hlist⟩
    · have htime' : TimesOut conn (now fd) := by
        by_contra hto
        by_cases hneg : conn.state = .negotiating
        · simp [visitConnection, hrecord, hneg, hto] at hlist
        · exact hneg htime.1
      have hcfd : conn.fd = fd := hown conn hconn
      have hvisited : (visitConnection cfg now r fd).1 = setConnection ((sendData cfg.ssl conn.fd
          (closeMsg 1008 "Negotiation timeout") (r.1.emit (.visit fd conn (now fd)))).2.emit (.state fd .closing)) fd
          { conn with state := .closing } := by
        simp [visitConnection, hrecord, htime', htime'.1]
      rw [hvisited, hcfd]
      refine ((hvisit conn).also (.sendData cfg.ssl fd (closeMsg 1008 "Negotiation timeout") _)).also ?_
      exact .one (o := .state fd .closing) rfl rfl rfl
    · rw [hview, put_self]
      exact ⟨_, rfl, rfl⟩
  | @stream conn conn' now' os hconn hstate hsame hos =>
    -- `Visit` does not say what was sent
    have hcfd : conn.fd = fd := hown conn hconn
    have hemit : view (r.1.emit (.visit fd conn (now fd))) =
        put (view r.1) fd ((view r.1 fd).emit [.visit fd conn (now fd)]) := view_emit ..
    have hplays : ∃ calls, Plays cfg conn (r.1.emit (.visit fd conn (now fd))) calls
        (if cfg.env.isMp4Mode then tickMp4 cfg conn (r.1.emit (.visit fd conn (now fd)))
          else tickRaw cfg conn (r.1.emit (.visit fd conn (now fd)))) := by
      cases hmode : cfg.env.isMp4Mode with
      | true => exact tickMp4_plays cfg hmode conn _
      | false => exact tickRaw_plays cfg hmode conn _
    obtain ⟨calls, ⟨os, hos, hstreamed, heq⟩, hnum, hadv⟩ := hplays
    rw [hcfd, hemit, put_self] at hos
    rw [hcfd, hemit, put_self, put_put] at heq
    rw [hcfd] at hadv
    have hrecord : r.1.user.connections fd = some conn := hconn
    have hvisited : visitConnection cfg now r fd =
        (setConnection (if cfg.env.isMp4Mode then tickMp4 cfg conn (r.1.emit (.visit fd conn (now fd)))
          else tickRaw cfg conn (r.1.emit (.visit fd conn (now fd)))).2 fd
          (if cfg.env.isMp4Mode then tickMp4 cfg conn (r.1.emit (.visit fd conn (now fd)))
          else tickRaw cfg conn (r.1.emit (.visit fd conn (now fd)))).1, r.2) := by
      simp [visitConnection, hrecord, hstate]
    rw [hvisited]
    refine ⟨calls, false, ⟨⟨_, @Happens.stream τ cfg fd _ conn _ (now fd) calls os hconn hstate hos hstreamed, ?_⟩, hnum, ?_⟩,
      Bool.noConfusion, by simp⟩
    · rw [view_setConnection, heq, put_self, put_put]
      simp [View.emit]
    · have hall := (hvisit conn).trans hadv
      rw [Nat.zero_add] at hall
      exact ⟨hall.log, hall.frameId⟩

/-- The views in the loop of `OnTimer`: the timed out ones are closing. -/
abbrev Visiting (late : List Fd) (m : Fd → View) : Prop :=
  Timing Own (fun fd v => Own fd v ∧ ∃ conn, v.conn = some conn ∧ conn.state = .closing) late m

theorem moves_visits (now : Fd → Int) {order : List Fd} (hnd : order.Nodup) {r : Server τ × List Fd}
    (hnew : ∀ fd, fd ∈ order → fd ∉ r.2) (h : Visiting r.2 (view r.1)) :
    MovesTo cfg r.1 (order.foldl (visitConnection cfg now) r).1 ∧
      Visiting (order.foldl (visitConnection cfg now) r).2 (view (order.foldl (visitConnection cfg now) r).1) := by
  induction order generalizing r with
  | nil => exact ⟨.refl, h⟩
  | cons fd order ih =>
    obtain ⟨hfd, hnd⟩ := List.nodup_cons.mp hnd
    have hfresh : fd ∉ r.2 := hnew fd List.mem_cons_self
    have hrest : ∀ fd', fd' ∈ order → fd' ∉ r.2 := fun fd' h' => hnew fd' (List.mem_cons_of_mem _ h')
    have hown := h.idle fd hfresh
    rw [List.foldl_cons]
    rcases moves_visit cfg now r fd hown with hsame | ⟨calls, late, hmoves, hclosing, hlist⟩
    · rw [hsame]
      exact ih hnd hrest h
    obtain ⟨v, hv, hview⟩ := hmoves.happens
    have hown' := hown.happens hv
    have hgo : (∀ fd', fd' ∈ order → fd' ∉ (visitConnection cfg now r fd).2) ∧
        Visiting (visitConnection cfg now r fd).2 (view (visitConnection cfg now r fd).1) := by
      cases late with
      | false =>
        have hlist : (visitConnection cfg now r fd).2 = r.2 := by simpa using hlist
        rw [hlist, hview]
        exact ⟨hrest, h.set hfresh hown'⟩
      | true =>
        have hlist : (visitConnection cfg now r fd).2 = r.2 ++ [fd] := by simpa using hlist
        rw [hview, put_self] at hclosing
        rw [hlist, hview]
        refine ⟨fun fd' h' hmem => ?_, h.add hfresh ⟨hown', hclosing rfl⟩⟩
        rw [List.mem_append, List.mem_singleton] at hmem
        rcases hmem with hmem | hmem
        · exact hrest fd' h' hmem
        · exact hfd (hmem ▸ h')
    obtain ⟨hall, htiming⟩ := ih hnd hgo.1 hgo.2
    exact ⟨hmoves.to.trans hall, htiming⟩

theorem moves_timeouts {late : List Fd} {net : Server τ} (h : Visiting late (view net)) :
    MovesTo cfg net (late.foldl (fun net fd => closeConnection removeConnection fd net) net) := by
  induction late generalizing net with
  | nil => exact .refl
  | cons fd late ih =>
    obtain ⟨hfd, hnd⟩ := List.nodup_cons.mp h.nodup
    obtain ⟨hown, hclosing⟩ := h.timed fd List.mem_cons_self
    have hclose : MovesTo cfg net (closeConnection removeConnection fd net) :=
      moves_quiet (.expire hclosing) (view_closeConnection ..) (.closeConnection fd net)
    refine hclose.trans (ih ?_)
    rw [view_closeConnection]
    refine ⟨hnd, fun fd' h' => ?_, fun fd' h' => ?_⟩
    · rw [put_other _ (ne_of_mem_of_not_mem h' hfd)]
      exact h.timed fd' (List.mem_cons_of_mem _ h')
    · by_cases heq : fd' = fd
      · rw [heq, put_self]
        exact hown
      · rw [put_other _ heq]
        exact h.idle fd' fun hmem => (List.mem_cons.mp hmem).elim heq h'

theorem moves_timer (now : Fd → Int) {order : List Fd} (hnd : order.Nodup) {net : Server τ} (hown : AllOwn net) :
    MovesTo cfg net (onTimer cfg now order net) := by
  have hstart : Visiting [] (view net) := ⟨List.nodup_nil, fun fd hfd => absurd hfd List.not_mem_nil, fun fd _ => hown fd⟩
  obtain ⟨hvisits, htiming⟩ := @moves_visits _ cfg now order hnd (net, []) (fun _ _ => List.not_mem_nil) hstart
  exact hvisits.trans (moves_timeouts cfg htiming)

/-- All but the end, which leaves the clients together. -/
theorem moves_item {net : Server τ} {item : Item τ} (hok : ItemOk net item) (hown : AllOwn net) :
    MovesTo cfg net (processItem cfg net item) := by
  cases item with
  | listen rets => exact moves_accept cfg rets net
  | timer now order => exact moves_timer cfg now hok.1 hown
  | client fd hup rets => exact moves_event cfg fd hup rets net

end

/-! ## Runs -/

section
variable {net net' : Server τ}

/-- Every view is a reachable state of its machine. -/
def Followed (cfg : Config τ) (net : Server τ) : Prop := ∀ fd, (descriptor cfg fd).Reachable (view net fd)

theorem Followed.own (h : Followed cfg net) : AllOwn net := fun fd =>
  descriptor_induction (own_initial fd) (fun _ _ _ hown hs => hown.happens hs) (h fd)

theorem Followed.put {fd : Fd} {calls : List EncodeCall} {v : View} (h : Followed cfg net)
    (hv : Happens cfg fd (view net fd) calls v) (heq : view net' = put (view net) fd v) : Followed cfg net' := by
  intro fd'
  rw [heq]
  exact ((at_of_all h fd).set (Q := fun fd v => (descriptor cfg fd).Reachable v) ((h fd).step hv)).all fd'

theorem MovesTo.followed (hm : MovesTo cfg net net') (h : Followed cfg net) : Followed cfg net' := by
  induction hm with
  | refl => exact h
  | unseen _ hview _ ih =>
    intro fd
    rw [hview]
    exact ih fd
  | step _ hm ih =>
    obtain ⟨v, hv, hview⟩ := hm.happens
    exact ih.put hv hview

theorem shutdown_happens {order : List Fd} (hvis : Visits net order) (fd : Fd) :
    ∃ v, Happens cfg fd (view net fd) [] v ∧ view (shutdown cfg order net) fd = v := by
  have hstop : ∀ net : Server τ, view (stop net) fd = { view net fd with link := none } := fun _ => rfl
  rw [shutdown, hstop]
  rcases view_farewell cfg.ssl (closeMsg 1000 "Server is shutting down") hvis.1 net fd with ⟨hno, heq⟩ | ⟨-, n, hn, heq⟩
  · rw [heq]
    refine ⟨_, .halt ?_, rfl⟩
    cases hconn : (view net fd).conn with
    | none => rfl
    | some conn =>
      have hmem := (hvis.2 fd).mpr (show (view net fd).conn.isSome = true by rw [hconn]; rfl)
      exact absurd hmem hno
  · rw [heq]
    exact ⟨_, .bye hn, rfl⟩

theorem followed_shutdown {order : List Fd} (hvis : Visits net order) (h : Followed cfg net) :
    Followed cfg (shutdown cfg order net) := by
  intro fd
  obtain ⟨v, hv, heq⟩ := @shutdown_happens _ cfg _ _ hvis fd
  rw [heq]
  exact (h fd).step hv

end

/-- **Each descriptor follows its machine** in every run. -/
theorem descriptor_reachable {s : Sys τ} (h : (system cfg).Reachable s) : Followed cfg s.net := by
  refine Lts.Inductive.reachable (I := fun s => Followed cfg s.net) ⟨fun s hs => ?_, fun s l s' hs hstep => ?_⟩ h
  · obtain ⟨stray, rfl⟩ := hs
    exact fun fd => Lts.reachable_init rfl
  · cases hstep with
    | poll => exact hs
    | next hcr hok => exact (moves_item cfg hok hs.own).followed hs
    | shutdown hcr hok => exact followed_shutdown hok hs

end WebPlayer.L5.Server
