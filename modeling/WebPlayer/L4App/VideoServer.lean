import WebPlayer.Core.Lts
import WebPlayer.L3Protocol.TlsServer
import WebPlayer.L4App.Media

/-!
# The server (`server/main.cpp:170-618`, `server/connection.cpp`)

`VideoServer` is the user of `TlsServer`: its callbacks add, remove and serve
connection records. The program is the event loop: `ProcessEvents` gets a
batch of epoll events, for clients whose sockets are open at that moment, and
handles them one after another, so an event may come when its socket has been
closed or the descriptor is in use again.

An exception ends the program.

**epoll (`BatchOk`).** A batch has at most one event for a client, and only for
sockets that are open when it is returned. Nothing is assumed of the order.

**`unordered_map` (`Visits`).** A loop visits each record once, in any order.

**The libraries (`Config`, a parameter).** mbedtls, the session's surroundings,
the media and the readings of the system clock, any of each. The steady clock
is read anew wherever it is read, and may give anything.
-/
namespace WebPlayer.L4.VideoServer
open WebPlayer.Core WebPlayer.L3.Session WebPlayer.L3.Tls WebPlayer.L4.Media

/-! ## State -/

/-- mirrors server/connection.h:54-116 and `frameId_`. -/
structure Video where
  connections : Fd → Option Connection
  totalConnections : Nat
  frameId : UInt16

/-- What does not change: the libraries, the settings, the media, and the
system clock at each point of the log. -/
structure Config (τ : Type) where
  ssl : Ssl τ
  env : Env
  src : Source
  systemClock : Nat → Int64

abbrev Server (τ : Type) := Net τ Video

/-- mirrors server/connection.cpp:10-31 -/
def addConnection (fd : Fd) (v : Video) : Video :=
  { v with totalConnections := v.totalConnections + 1
           connections := put v.connections fd (some { fd, id := v.totalConnections + 1 }) }

/-- mirrors server/connection.cpp:33-40 -/
def removeConnection (fd : Fd) (v : Video) : Video := { v with connections := put v.connections fd none }

section
variable {τ : Type}

def setConnection (net : Server τ) (fd : Fd) (conn : Connection) : Server τ :=
  { net with user := { net.user with connections := put net.user.connections fd (some conn) } }

variable (cfg : Config τ)

/-! ## Received data -/

/-- What a handler of the session does to the servers below. -/
def perform (fd : Fd) (net : Server τ) : Out → Server τ
  | .dispatch opcode payload => net.emit (.frame fd opcode payload)
  | .setState state => net.emit (.state fd state)
  | .send msg => (sendData cfg.ssl fd msg net).2
  | .close => closeConnection removeConnection fd net

/-- mirrors server/main.cpp:203-218 -/
def handleData (now : Int) (fd : Fd) (data : Bytes) (net : Server τ) : Server τ :=
  match net.user.connections fd with
  | none => net
  | some conn =>
    let h := L3.Session.handleData cfg.env now conn data
    let net := h.outs.foldl (perform cfg fd) (setConnection (net.emit (.data fd conn data)) fd h.conn)
    { net with crashed := net.crashed || h.threw.isSome }

/-- mirrors server/main.cpp:181-201 -/
def callbacks : Callbacks τ Video where
  onConnect := addConnection
  onDisconnect := removeConnection
  onData := handleData cfg

/-! ## Media -/

/-- BINARY frames, each counted if all of it was sent.
mirrors server/main.cpp:472-479, 553-561 -/
def sendFrames (conn : Connection) (net : Server τ) : List Bytes → Connection × Server τ
  | [] => (conn, net)
  | frame :: frames =>
    let r := sendData cfg.ssl conn.fd (.frame .binary frame) net
    let conn := match r.1 with
      | some (_ + 1) => { conn with messagesSent := conn.messagesSent + 1
                                    bytesSent := conn.bytesSent + frame.length }
      | _ => conn
    sendFrames conn r.2 frames

def countFrame (net : Server τ) : Server τ := { net with user := { net.user with frameId := net.user.frameId + 1 } }

/-- mirrors server/main.cpp:447-482 -/
def sendPacket (r : Connection × Server τ) (pkt : MediaPacket) : Connection × Server τ :=
  let frames := packetFrames cfg.env (cfg.systemClock r.2.log.length) r.2.user.frameId pkt
  let s := sendFrames cfg r.1 r.2 frames
  (s.1, countFrame s.2)

/-- mirrors server/main.cpp:484-521 -/
def tickMp4 (conn : Connection) (net : Server τ) : Connection × Server τ :=
  let r := onTimerMp4 cfg.src.packets conn
  let s := r.1.foldl (sendPacket cfg) (conn, net)
  ({ s.1 with packetIndex := r.2.packetIndex, playbackTimeMs := r.2.playbackTimeMs }, s.2)

/-- mirrors server/main.cpp:523-566 -/
def tickRaw (conn : Connection) (net : Server τ) : Connection × Server τ :=
  let r := onTimerRaw cfg.src.accessUnits conn
  match r.1 with
  | none => (conn, net)
  | some au =>
    let frames := accessUnitFrames cfg.env cfg.src (cfg.systemClock net.log.length) net.user.frameId conn.auIndex au
    let s := sendFrames cfg conn net frames
    ({ s.1 with auIndex := r.2.auIndex }, countFrame s.2)

/-! ## The timer -/

/-- The offer has been waiting for more than 5 s. -/
def TimesOut (conn : Connection) (now : Int) : Prop :=
  conn.state = .negotiating ∧ 5000000000 < now - conn.negotiateOfferTime

instance (conn : Connection) (now : Int) : Decidable (TimesOut conn now) := inferInstanceAs (Decidable (_ ∧ _))

/-- One iteration of the loop over the connections; the list is
`negotiationTimeouts`.
mirrors server/main.cpp:574-598 -/
def visitConnection (now : Fd → Int) (r : Server τ × List Fd) (fd : Fd) : Server τ × List Fd :=
  match r.1.user.connections fd with
  | none => r
  | some conn =>
    let net := r.1.emit (.visit fd conn (now fd))
    if conn.state = .negotiating then
      if TimesOut conn (now fd) then
        let net := (sendData cfg.ssl conn.fd (closeMsg 1008 "Negotiation timeout") net).2
        (setConnection (net.emit (.state fd .closing)) fd { conn with state := .closing }, r.2 ++ [conn.fd])
      else (net, r.2)
    else if conn.state ≠ .streaming then (net, r.2)
    else
      let s := if cfg.env.isMp4Mode then tickMp4 cfg conn net else tickRaw cfg conn net
      (setConnection s.2 fd s.1, r.2)

/-- mirrors server/main.cpp:568-603 -/
def onTimer (now : Fd → Int) (order : List Fd) (net : Server τ) : Server τ :=
  let r := order.foldl (visitConnection cfg now) (net, [])
  r.2.foldl (fun net fd => closeConnection removeConnection fd net) r.1

/-- mirrors server/main.cpp:605-618 -/
def shutdown (order : List Fd) (net : Server τ) : Server τ :=
  stop (order.foldl (fun net fd => (sendData cfg.ssl fd (closeMsg 1000 "Server is shutting down") net).2) net)

/-! ## The event loop -/

/-- An epoll event: the listening socket, the timer, or a client. -/
inductive Item (τ : Type) where
  | listen (rets : List (AcceptRet τ))
  | timer (now : Fd → Int) (order : List Fd)
  | client (fd : Fd) (hup : Bool) (rets : List RecvRet)

def Item.client? : Item τ → Option Fd
  | .client fd _ _ => some fd
  | _ => none

/-- mirrors server/tcp_server.cpp:141-157 -/
def processItem (net : Server τ) : Item τ → Server τ
  | .listen rets => acceptConnection (callbacks cfg) rets net
  | .timer now order => onTimer cfg now order net
  | .client fd hup rets => clientEvent (callbacks cfg) cfg.ssl fd hup rets net

structure Sys (τ : Type) where
  net : Server τ
  batch : List (Item τ)
  stopped : Bool

inductive Label (τ : Type) where
  | poll (batch : List (Item τ))
  | next
  | shutdown (order : List Fd)

/-- The order in which a loop visits the connections. -/
def Visits (net : Server τ) (order : List Fd) : Prop :=
  order.Nodup ∧ ∀ fd, fd ∈ order ↔ (net.user.connections fd).isSome

def ItemOk (net : Server τ) : Item τ → Prop
  | .timer _ order => Visits net order
  | _ => True

/-- What `epoll_wait` returns: at most one event for a socket, and only for
open ones. -/
def BatchOk (net : Server τ) (batch : List (Item τ)) : Prop :=
  (batch.filterMap Item.client?).Nodup ∧ ∀ fd, fd ∈ batch.filterMap Item.client? → net.opened fd = true

inductive Step : Sys τ → Label τ → Sys τ → Prop where
  | poll {net : Server τ} {batch : List (Item τ)} (hcr : net.crashed = false) (hok : BatchOk net batch) :
      Step ⟨net, [], false⟩ (.poll batch) ⟨net, batch, false⟩
  | next {net : Server τ} {item : Item τ} {batch : List (Item τ)} (hcr : net.crashed = false) (hok : ItemOk net item) :
      Step ⟨net, item :: batch, false⟩ .next ⟨processItem cfg net item, batch, false⟩
  | shutdown {net : Server τ} {order : List Fd} (hcr : net.crashed = false) (hok : Visits net order) :
      Step ⟨net, [], false⟩ (.shutdown order) ⟨L4.VideoServer.shutdown cfg order net, [], true⟩

/-- After `Initialize`; `stray` is arbitrary. -/
def initial (stray : List ReadRet) : Server τ where
  opened _ := false
  tls _ := none
  user := { connections := fun _ => none, totalConnections := 0, frameId := 0 }
  stray := stray
  log := []
  crashed := false

/-- mirrors server/main.cpp:104-113 -/
def system : Lts (Sys τ) (Label τ) where
  init s := ∃ stray, s = ⟨initial stray, [], false⟩
  step := Step cfg

end

end WebPlayer.L4.VideoServer
