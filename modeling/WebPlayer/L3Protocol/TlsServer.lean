import WebPlayer.L3Protocol.Session

/-!
# The TCP and TLS servers (`server/tcp_server.cpp`, `server/tls_server.cpp`)

Both servers as functions on one state: the open sockets, `tlsConnections_`
and the user's state behind the callbacks. Closing goes down through the
layers and back up: `TlsServer::CloseConnection` erases the entry and calls
`TcpServer::RemoveClient`, which calls `OnTcpDisconnect`, which may call the
user.

`it` is an iterator into the map; a `ssl_read` through an erased one is
undefined, and here its result is taken from `stray`, any list. The log
records what the environment answered and what the servers did.

**mbedtls (`Ssl`, a parameter).** What its calls return for a context and its
receive buffer, any functions whatever, but that a context has no unbounded
supply of data to return.

**The kernel.**
* `accept` returns no descriptor that is open. Setting a client up may fail.
* `recv` returns data, the end or an error, and at last `EAGAIN`; all of it
  comes with the event, in any amount.
* `close` closes what is open and else fails with `EBADF`.

**The heap.** No `new` or `insert` fails.

**Results.**
* `readLoop_enough`: the read loop ends by itself.
-/
namespace WebPlayer.L3.Tls
open WebPlayer.Core WebPlayer.L1.WebSocket WebPlayer.L3.Session

/-! ## Types -/

abbrev Fd := Int

/-- `mbedtls_ssl_handshake`: 0, `WANT_*`, or another error. -/
inductive HandshakeRet where
  | done | want | fail
  deriving DecidableEq, Repr

/-- `mbedtls_ssl_read`: decrypted bytes, `WANT_*`, or close_notify or another
error. -/
inductive ReadRet where
  | data (bytes : Bytes)
  | want
  | closed
  deriving DecidableEq, Repr

/-- `recv`; no more results stand for `EAGAIN`. -/
inductive RecvRet where
  | data (now : Int) (bytes : Bytes)
  | eof
  | error
  deriving DecidableEq, Repr

/-- Who calls `RemoveClient`. -/
inductive Caller where
  | event | recv | connect | handshake | read | app
  deriving DecidableEq, Repr

inductive Obs where
  | event (fd : Fd) (opened : Bool)
  | accept (fd : Fd)
  | recv (fd : Fd)
  | remove (fd : Fd) (caller : Caller)
  | close (fd : Fd)
  | handshake (fd : Fd) (ret : HandshakeRet)
  | sslRead (fd : Fd) (ret : ReadRet)
  | strayRead (fd : Fd) (ret : ReadRet)
  | erase (fd : Fd)
  | send (fd : Fd) (msg : Msg) (sent : Nat)
  | connect (fd : Fd)
  | disconnect (fd : Fd)
  | data (fd : Fd) (conn : Connection) (bytes : Bytes)
  | frame (fd : Fd) (opcode : WsOpcode) (payload : Bytes)
  | state (fd : Fd) (state : ConnState)
  | visit (fd : Fd) (conn : Connection) (now : Int)
  deriving DecidableEq, Repr

def Obs.fd : Obs → Fd
  | .event fd _ => fd
  | .accept fd => fd
  | .recv fd => fd
  | .remove fd _ => fd
  | .close fd => fd
  | .handshake fd _ => fd
  | .sslRead fd _ => fd
  | .strayRead fd _ => fd
  | .erase fd => fd
  | .send fd _ _ => fd
  | .connect fd => fd
  | .disconnect fd => fd
  | .data fd _ _ => fd
  | .frame fd _ _ => fd
  | .state fd _ => fd
  | .visit fd _ _ => fd

/-- A context with its receive buffer. `write` is how many of so many bytes
`ssl_write` takes before it fails; `fuel` bounds the reads that return data. -/
structure Ssl (τ : Type) where
  insert : τ → Bytes → τ
  handshake : τ → HandshakeRet × τ
  read : τ → ReadRet × τ
  write : τ → Nat → Nat × τ
  fuel : τ → Nat
  fuel_read : ∀ {t p t'}, read t = (.data p, t') → fuel t' < fuel t
  fuel_write : ∀ t n, fuel (write t n).2 ≤ fuel t

/-- mirrors server/tls_server.h:16-22; `fd` is the key, the receive buffer is
part of `ssl`. -/
structure TlsConnection (τ : Type) where
  ssl : τ
  handshakeComplete : Bool
  deriving DecidableEq, Repr

/-- `clientIps_` is never read and left out. -/
structure Net (τ υ : Type) where
  opened : Fd → Bool
  tls : Fd → Option (TlsConnection τ)
  user : υ
  stray : List ReadRet
  log : List Obs
  /-- An exception has left a callback. -/
  crashed : Bool

/-- mirrors server/tcp_server.h:16-20, as `userCallbacks_`. -/
structure Callbacks (τ υ : Type) where
  onConnect : Fd → υ → υ
  onDisconnect : Fd → υ → υ
  onData : Int → Fd → Bytes → Net τ υ → Net τ υ

section
variable {τ υ : Type}

def put {α : Type} (m : Fd → α) (fd : Fd) (a : α) : Fd → α := fun fd' => if fd' = fd then a else m fd'

@[simp] theorem put_self {α : Type} (m : Fd → α) (fd : Fd) (a : α) : put m fd a fd = a := if_pos rfl

theorem put_other {α : Type} (m : Fd → α) {fd fd' : Fd} (h : fd' ≠ fd) (a : α) : put m fd a fd' = m fd' := if_neg h

theorem put_put {α : Type} (m : Fd → α) (fd : Fd) (a b : α) : put (put m fd a) fd b = put m fd b := by
  funext fd'
  by_cases h : fd' = fd
  · rw [h, put_self, put_self]
  · rw [put_other _ h, put_other _ h, put_other _ h]

theorem put_same {α : Type} (m : Fd → α) (fd : Fd) : put m fd (m fd) = m := by
  funext fd'
  by_cases h : fd' = fd
  · rw [h, put_self]
  · rw [put_other _ h]

def Net.emit (net : Net τ υ) (o : Obs) : Net τ υ := { net with log := net.log ++ [o] }

def Net.setTls (net : Net τ υ) (fd : Fd) (c : Option (TlsConnection τ)) : Net τ υ :=
  { net with tls := put net.tls fd c }

/-- `handshakeComplete`, false without an entry. -/
def Net.complete (net : Net τ υ) (fd : Fd) : Bool := (net.tls fd).any (·.handshakeComplete)

/-! ## Closing -/

/-- `close(fd)`; a second one fails with `EBADF`. -/
def closeFd (fd : Fd) (net : Net τ υ) : Net τ υ := { net.emit (.close fd) with opened := put net.opened fd false }

/-- mirrors server/tls_server.cpp:208-215 -/
def removeTlsConnection (fd : Fd) (net : Net τ υ) : Net τ υ :=
  if (net.tls fd).isSome then (net.emit (.erase fd)).setTls fd none else net

section
variable (onDisconnect : Fd → υ → υ)

/-- `onDisconnect` is the user's.
mirrors server/tls_server.cpp:78-88 -/
def onTcpDisconnect (fd : Fd) (net : Net τ υ) : Net τ υ :=
  let wasConnected := net.complete fd
  let net := removeTlsConnection fd net
  if wasConnected then { net.emit (.disconnect fd) with user := onDisconnect fd net.user } else net

/-- Also `TcpServer::CloseConnection`.
mirrors server/tcp_server.cpp:225-234, 253-255 -/
def removeClient (caller : Caller) (fd : Fd) (net : Net τ υ) : Net τ υ :=
  closeFd fd (onTcpDisconnect onDisconnect fd (net.emit (.remove fd caller)))

/-- `TlsServer::CloseConnection`
mirrors server/tls_server.cpp:203-206 -/
def closeConnection (fd : Fd) (net : Net τ υ) : Net τ υ :=
  removeClient onDisconnect .app fd (removeTlsConnection fd net)

variable (fd : Fd) (net : Net τ υ) (caller : Caller)

/-- The entry of `fd` gone. -/
def without {α : Type} (m : Fd → Option α) (fd : Fd) : Fd → Option α := put m fd none

omit onDisconnect in
theorem removeTlsConnection_eq : removeTlsConnection fd net =
    { net with tls := without net.tls fd
               log := net.log ++ if (net.tls fd).isSome then [.erase fd] else [] } := by
  unfold removeTlsConnection
  cases htls : net.tls fd with
  | some c => rfl
  | none =>
    have hsame : without net.tls fd = net.tls := by
      funext fd'
      by_cases hfd : fd' = fd
      · rw [hfd, without, put_self, htls]
      · rw [without, put_other _ hfd]
    simp [hsame]

/-- `RemoveClient` in terms of what it found. -/
theorem removeClient_eq : removeClient onDisconnect caller fd net =
    { opened := put net.opened fd false
      tls := without net.tls fd
      user := if net.complete fd then onDisconnect fd net.user else net.user
      stray := net.stray
      log := net.log ++ .remove fd caller :: ((if (net.tls fd).isSome then [.erase fd] else []) ++
        (if net.complete fd then [.disconnect fd] else []) ++ [.close fd])
      crashed := net.crashed } := by
  have hcomplete : (net.emit (.remove fd caller)).complete fd = net.complete fd := rfl
  rw [removeClient, closeFd, onTcpDisconnect, hcomplete, removeTlsConnection_eq]
  cases hc : net.complete fd with
  | true =>
    simp [Net.emit]
    rfl
  | false =>
    simp [Net.emit]
    rfl

/-- `TlsServer::CloseConnection` erases the entry first, so that
`OnTcpDisconnect` does not find it: the user is not told. -/
theorem closeConnection_eq : closeConnection onDisconnect fd net =
    { opened := put net.opened fd false
      tls := without net.tls fd
      user := net.user
      stray := net.stray
      log := net.log ++ (if (net.tls fd).isSome then [.erase fd] else []) ++ [.remove fd .app, .close fd]
      crashed := net.crashed } := by
  have hnone : without net.tls fd fd = none := put_self ..
  rw [closeConnection, removeTlsConnection_eq, removeClient_eq]
  simp only [Net.complete, hnone, Option.any_none, Option.isSome_none, Bool.false_eq_true, if_false, List.nil_append]
  congr 1
  funext fd'
  by_cases hfd : fd' = fd
  · rw [hfd, without, put_self, hnone]
  · rw [without, put_other _ hfd]

end

/-! ## Opening -/

variable (cb : Callbacks τ υ)

/-- What `accept` gave: a socket that could not be set up, or a client with
its context (`none`: `mbedtls_ssl_setup` failed). -/
inductive AcceptRet (τ : Type) where
  | refused (fd : Fd)
  | client (fd : Fd) (ssl : Option τ)

def AcceptRet.fd : AcceptRet τ → Fd
  | .refused fd => fd
  | .client fd _ => fd

/-- mirrors server/tls_server.cpp:71-76, 127-150 -/
def onTcpConnect (fd : Fd) (ssl : Option τ) (net : Net τ υ) : Net τ υ :=
  match ssl with
  | none => removeClient cb.onDisconnect .connect fd net
  | some t => net.setTls fd (some { ssl := t, handshakeComplete := false })

/-- One iteration of the accept loop; `accept` returns no descriptor that is
open.
mirrors server/tcp_server.cpp:160-198 -/
def acceptOne (net : Net τ υ) (ret : AcceptRet τ) : Net τ υ :=
  if net.opened ret.fd then net
  else
    let opened := { net.emit (.accept ret.fd) with opened := put net.opened ret.fd true }
    match ret with
    | .refused fd => closeFd fd opened
    | .client fd ssl => onTcpConnect cb fd ssl opened

def acceptConnection (rets : List (AcceptRet τ)) (net : Net τ υ) : Net τ υ := rets.foldl (acceptOne cb) net

/-! ## Data -/

variable (S : Ssl τ)

/-- `none` is -1.
mirrors server/tls_server.cpp:179-201 -/
def sendData (fd : Fd) (msg : Msg) (net : Net τ υ) : Option Nat × Net τ υ :=
  match net.tls fd with
  | none => (none, net.emit (.send fd msg 0))
  | some c =>
    if !c.handshakeComplete then (none, net.emit (.send fd msg 0))
    else
      let len := msg.bytes.length
      let w := S.write c.ssl len
      let sent := min w.1 len
      (if sent = len then some len else none,
        (net.setTls fd (some { c with ssl := w.2 })).emit (.send fd msg sent))

/-- mirrors server/tls_server.cpp:152-177 -/
def continueTlsHandshake (fd : Fd) (net : Net τ υ) : Net τ υ :=
  match net.tls fd with
  | none => net
  | some c =>
    let r := S.handshake c.ssl
    let net := (net.setTls fd (some { c with ssl := r.2 })).emit (.handshake fd r.1)
    match r.1 with
    | .want => net
    | .fail => removeClient cb.onDisconnect .handshake fd net
    | .done =>
      let net := (net.setTls fd (some { ssl := r.2, handshakeComplete := true })).emit (.connect fd)
      { net with user := cb.onConnect fd net.user }

/-- `mbedtls_ssl_read(&it->second.ssl, ...)`, where `it` was found before the
callbacks. -/
def sslRead (fd : Fd) (net : Net τ υ) : ReadRet × Net τ υ :=
  match net.tls fd with
  | some c =>
    let r := S.read c.ssl
    (r.1, (net.setTls fd (some { c with ssl := r.2 })).emit (.sslRead fd r.1))
  | none =>
    match net.stray with
    | [] => (.want, net.emit (.strayRead fd .want))
    | r :: rs => (r, { net.emit (.strayRead fd r) with stray := rs })

/-- mirrors server/tls_server.cpp:105-124 -/
def readLoop (now : Int) (fd : Fd) : Nat → Net τ υ → Net τ υ
  | 0, net => net
  | n + 1, net =>
    let r := sslRead S fd net
    match r.1 with
    | .want => r.2
    | .closed => removeClient cb.onDisconnect .read fd r.2
    | .data p =>
      let net := cb.onData now fd p r.2
      if net.crashed then net else readLoop now fd n net

/-- How many reads can still return data. -/
def readFuel (fd : Fd) (net : Net τ υ) : Nat :=
  (match net.tls fd with
    | some c => S.fuel c.ssl
    | none => 0) + net.stray.length

/-- mirrors server/tls_server.cpp:90-125 -/
def onTcpData (now : Int) (fd : Fd) (data : Bytes) (net : Net τ υ) : Net τ υ :=
  match net.tls fd with
  | none => net
  | some c =>
    let net := net.setTls fd (some { c with ssl := S.insert c.ssl data })
    if !c.handshakeComplete then continueTlsHandshake cb S fd net
    else readLoop cb S now fd (readFuel S fd net + 1) net

/-- `recv` on a descriptor that is not open fails with `EBADF`.
mirrors server/tcp_server.cpp:200-223 -/
def handleClientData (fd : Fd) : List RecvRet → Net τ υ → Net τ υ
  | [], net =>
    let net := net.emit (.recv fd)
    if net.opened fd then net else removeClient cb.onDisconnect .recv fd net
  | ret :: rets, net =>
    let net := net.emit (.recv fd)
    if !net.opened fd then removeClient cb.onDisconnect .recv fd net
    else
      match ret with
      | .eof => removeClient cb.onDisconnect .recv fd net
      | .error => removeClient cb.onDisconnect .recv fd net
      | .data now bytes =>
        let net := onTcpData cb S now fd bytes net
        if net.crashed then net else handleClientData fd rets net

/-- A client's epoll event.
mirrors server/tcp_server.cpp:150-155 -/
def clientEvent (fd : Fd) (hup : Bool) (rets : List RecvRet) (net : Net τ υ) : Net τ υ :=
  let net := net.emit (.event fd (net.opened fd))
  if hup then removeClient cb.onDisconnect .event fd net else handleClientData cb S fd rets net

/-- mirrors server/tls_server.cpp:42-49; `TcpServer::Stop` closes the
listening socket. -/
def stop (net : Net τ υ) : Net τ υ := { net with tls := fun _ => none }

/-! ## The read loop ends -/

variable {cb S}

theorem sslRead_fuel {fd : Fd} {net : Net τ υ} {p : Bytes} (h : (sslRead S fd net).1 = .data p) :
    readFuel S fd (sslRead S fd net).2 < readFuel S fd net := by
  unfold sslRead at h ⊢
  cases hc : net.tls fd with
  | some c =>
    simp only [hc] at h ⊢
    have hlt := S.fuel_read (t := c.ssl) (p := p) (Prod.ext h rfl)
    simp only [readFuel, Net.emit, Net.setTls, put_self, hc]
    exact Nat.add_lt_add_right hlt net.stray.length
  | none =>
    simp only [hc] at h ⊢
    cases hs : net.stray with
    | nil =>
      rw [hs] at h
      cases h
    | cons r rs =>
      simp only [readFuel, Net.emit, hc, hs, List.length_cons]
      omega

/-- **The read loop ends by itself**, if the callback adds no input: more
fuel than there is to read changes nothing. -/
theorem readLoop_enough (hcb : ∀ now fd p (net : Net τ υ), readFuel S fd (cb.onData now fd p net) ≤ readFuel S fd net)
    (now : Int) (fd : Fd) {n : Nat} {net : Net τ υ} (hn : readFuel S fd net < n) :
    readLoop cb S now fd n net = readLoop cb S now fd (readFuel S fd net + 1) net := by
  suffices H : ∀ n m net, readFuel S fd net < n → readFuel S fd net < m →
      readLoop cb S now fd n net = readLoop cb S now fd m net from H n _ net hn (Nat.lt_succ_self _)
  intro n
  induction n with
  | zero =>
    intro m net hn
    omega
  | succ n ih =>
    intro m net hn hm
    cases m with
    | zero => omega
    | succ m =>
      simp only [readLoop]
      cases hr : (sslRead S fd net).1 with
      | want => rfl
      | closed => rfl
      | data p =>
        have hlt := sslRead_fuel hr
        have hle := hcb now fd p (sslRead S fd net).2
        simp only [ih m (cb.onData now fd p (sslRead S fd net).2) (by omega) (by omega)]

end

end WebPlayer.L3.Tls
