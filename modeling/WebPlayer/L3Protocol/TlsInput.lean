import WebPlayer.Core.Consumer
import WebPlayer.L3Protocol.TlsServer
import Mathlib.Data.List.Induction

/-!
# TLS input and TCP segmentation (`server/tls_server.cpp:90-177, 229-247`)

`OnTcpData` on a chunk that completes the handshake returns without reading,
so what stands behind the handshake in that chunk waits for the next one.

**mbedtls (`TlsMachine`, a parameter).** With the receive buffer it is one of
the libraries `TlsServer` is defined over.
* It gets its bytes through `SslRecv` only. It asks for what it needs of a
  record and no more, and returns `WANT_READ` when there are no bytes.
* A new context waits for the ClientHello. The handshake does not ask past its
  end.
* It makes no more pieces of data than it took bytes.

**TCP.** The chunks are what `recv` returned, in this order; they may be cut
anywhere.

**Results.**
* `sslRecv_pending`: the compacting buffer is a queue.
* `run_tracks`: the state after any chunks, against the stream in one piece.
* `input_chunking_iff`: two ways of cutting a stream deliver the same, and
  leave nothing undelivered behind any call, exactly when neither completes
  the handshake in a chunk that has application data behind it.
-/
namespace WebPlayer.L3.Tls
open WebPlayer.Core WebPlayer.L3.Session

/-! ## The receive buffer -/

/-- `recvBuf` and `recvBufOffset`. -/
structure RecvBuf where
  recvBuf : Bytes
  recvBufOffset : Nat
  le : recvBufOffset ≤ recvBuf.length
  deriving DecidableEq

namespace RecvBuf

def empty : RecvBuf := ⟨[], 0, Nat.le_refl 0⟩

/-- What `SslRecv` still gives. -/
def pending (b : RecvBuf) : Bytes := b.recvBuf.drop b.recvBufOffset

/-- mirrors server/tls_server.cpp:97 -/
def insert (b : RecvBuf) (data : Bytes) : RecvBuf :=
  ⟨b.recvBuf ++ data, b.recvBufOffset, by rw [List.length_append]; exact Nat.le_add_right_of_le b.le⟩

def available (b : RecvBuf) : Nat := b.recvBuf.length - b.recvBufOffset

/-- `recvBufOffset += toRead`, for `toRead` up to `available`. -/
def skip (b : RecvBuf) (toRead : Nat) : RecvBuf :=
  ⟨b.recvBuf, b.recvBufOffset + min toRead b.available, by have := b.le; simp only [available]; omega⟩

def compact (b : RecvBuf) : RecvBuf := if b.recvBufOffset = b.recvBuf.length then empty else b

/-- `none`: `WANT_READ`.
mirrors server/tls_server.cpp:229-247 -/
def sslRecv (b : RecvBuf) (len : Nat) : Option (Bytes × RecvBuf) :=
  if b.available = 0 then none
  else
    let toRead := if len < b.available then len else b.available
    some ((b.recvBuf.drop b.recvBufOffset).take toRead, (b.skip toRead).compact)

@[simp] theorem pending_empty : empty.pending = [] := rfl

@[simp] theorem pending_insert (b : RecvBuf) (data : Bytes) : (b.insert data).pending = b.pending ++ data :=
  List.drop_append_of_le_length b.le

theorem pending_length (b : RecvBuf) : b.pending.length = b.available := List.length_drop

@[simp] theorem pending_compact (b : RecvBuf) : b.compact.pending = b.pending := by
  unfold compact
  split
  · rename_i h
    exact (List.drop_eq_nil_iff.mpr (Nat.le_of_eq h.symm)).symm
  · rfl

theorem pending_skip (b : RecvBuf) (n : Nat) : (b.skip n).pending = b.pending.drop n := by
  have hlen := b.pending_length
  have hskip : (b.skip n).pending = b.pending.drop (min n b.available) := by
    simp only [skip, pending, ← List.drop_drop]
  rw [hskip]
  rcases Nat.le_total n b.available with h | h
  · rw [Nat.min_eq_left h]
  · rw [Nat.min_eq_right h, List.drop_of_length_le (by omega), List.drop_of_length_le (by omega)]

theorem sslRecv_none {b : RecvBuf} {len : Nat} : b.sslRecv len = none ↔ b.pending = [] := by
  rw [← List.length_eq_zero_iff, pending_length]
  unfold sslRecv
  split
  · rename_i h
    exact ⟨fun _ => h, fun _ => rfl⟩
  · rename_i h
    exact ⟨fun h' => (by cases h'), fun h' => absurd h' h⟩

/-- **The buffer is a queue.** -/
theorem sslRecv_pending {b b' : RecvBuf} {len : Nat} {bytes : Bytes} (h : b.sslRecv len = some (bytes, b')) :
    bytes = b.pending.take len ∧ b'.pending = b.pending.drop len := by
  have hlen := b.pending_length
  unfold sslRecv at h
  split at h
  · cases h
  cases h
  rw [pending_compact, pending_skip]
  split
  · exact ⟨rfl, rfl⟩
  · -- everything there is
    rw [← pending, List.take_of_length_le (by omega), List.take_of_length_le (by omega),
      List.drop_of_length_le (by omega), List.drop_of_length_le (by omega)]
    exact ⟨rfl, rfl⟩

end RecvBuf

/-! ## mbedtls as a consumer -/

/-- A TLS server's context. `reader` is what `ssl_read` does: ask, decrypt and
emit, or stop on close_notify or an error. The handshake asks in the same way
until it is over, and does not ask past its end. -/
structure TlsMachine (σ : Type) where
  reader : Consumer σ UInt8 Bytes
  ended : σ → Bool
  fresh : σ
  write : σ → Nat → Nat × σ
  fresh_ended : ended fresh = false
  /-- It waits for the ClientHello. -/
  fresh_want : reader.want fresh ≠ 0
  ended_exact : ∀ {s n} (b : UInt8), ended s = false → reader.want s = n + 2 → ended (reader.absorb s b) = false
  rank_write : ∀ s n, reader.rank (write s n).2 ≤ reader.rank s

section
variable {σ : Type} (M : TlsMachine σ)

/-- What `ssl_handshake` does. -/
def TlsMachine.handshaker : Consumer σ UInt8 Bytes where
  want s := if M.ended s then 0 else M.reader.want s
  absorb := M.reader.absorb
  emit _ := none
  rank := M.reader.rank
  exact {s n} b h := by
    cases ho : M.ended s with
    | true =>
      rw [ho] at h
      cases h
    | false =>
      rw [ho] at h
      simp only [M.ended_exact b ho h, M.reader.exact b h, Bool.false_eq_true, if_false]
  rank_absorb := M.reader.rank_absorb
  rank_emit h := by cases h

/-- A call into the library: `SslRecv` for what it asks, until it asks for
nothing or gets nothing. -/
def pullLoop (C : Consumer σ UInt8 Bytes) : Nat → σ × RecvBuf → σ × RecvBuf
  | 0, t => t
  | n + 1, (s, buf) =>
    if C.want s = 0 then (s, buf)
    else
      match buf.sslRecv (C.want s) with
      | none => (s, buf)
      | some (bytes, buf') => pullLoop C n (bytes.foldl C.absorb s, buf')

/-- Each `SslRecv` takes a byte, so this is enough. -/
def pull (C : Consumer σ UInt8 Bytes) (t : σ × RecvBuf) : σ × RecvBuf := pullLoop C (t.2.pending.length + 1) t

/-- The calls see the buffer as a queue. -/
theorem pull_eq (C : Consumer σ UInt8 Bytes) (t : σ × RecvBuf) :
    (pull C t).1 = (C.advance t.1 t.2.pending).1 ∧ (pull C t).2.pending = (C.advance t.1 t.2.pending).2 := by
  suffices H : ∀ n (t : σ × RecvBuf), t.2.pending.length < n →
      (pullLoop C n t).1 = (C.advance t.1 t.2.pending).1 ∧
        (pullLoop C n t).2.pending = (C.advance t.1 t.2.pending).2 from H _ t (Nat.lt_succ_self _)
  intro n
  induction n with
  | zero =>
    intro t hn
    omega
  | succ n ih =>
    rintro ⟨s, buf⟩ hn
    rw [pullLoop]
    by_cases h0 : C.want s = 0
    · rw [if_pos h0, Consumer.advance_idle h0]
      exact ⟨rfl, rfl⟩
    · rw [if_neg h0]
      cases hr : buf.sslRecv (C.want s) with
      | none =>
        have hnil := RecvBuf.sslRecv_none.mp hr
        simp only [hnil, Consumer.advance, and_self]
      | some r =>
        obtain ⟨bytes, buf'⟩ := r
        obtain ⟨rfl, hpend⟩ := RecvBuf.sslRecv_pending hr
        have hne : buf.pending ≠ [] := fun hnil => by rw [RecvBuf.sslRecv_none.mpr hnil] at hr; cases hr
        have hpos := List.length_pos_iff.mpr hne
        have hdrop : buf'.pending.length < n := by
          rw [hpend, List.length_drop]
          simp only at hn
          omega
        have hih := ih ((buf.pending.take (C.want s)).foldl C.absorb s, buf') hdrop
        rw [Consumer.advance_pull buf.pending (Nat.le_refl (C.want s)), ← hpend]
        exact hih

/-- The library behind `TlsServer`. -/
def TlsMachine.ssl : Ssl (σ × RecvBuf) where
  insert t data := (t.1, t.2.insert data)
  handshake t :=
    let r := pull M.handshaker t
    (if M.ended r.1 then .done else if M.reader.want r.1 = 0 then .fail else .want, r)
  read t :=
    let r := pull M.reader t
    if M.reader.want r.1 ≠ 0 then (.want, r)
    else
      match M.reader.emit r.1 with
      | none => (.closed, r)
      | some (p, s) => (.data p, (s, r.2))
  write t n := ((M.write t.1 n).1, ((M.write t.1 n).2, t.2))
  fuel t := M.reader.rank t.1 + t.2.pending.length
  fuel_read {t p t'} h := by
    obtain ⟨hs, hb⟩ := pull_eq M.reader t
    by_cases h0 : M.reader.want (pull M.reader t).1 = 0
    · simp only [h0, ne_eq, not_true, if_false] at h
      cases he : M.reader.emit (pull M.reader t).1 with
      | none =>
        rw [he] at h
        cases h
      | some ps =>
        rw [he] at h
        cases h
        rw [hs] at he
        simp only [hb]
        exact Consumer.emit_lt (a := ps.1) (t := ps.2) he
    · simp only [h0, ne_eq, not_false_iff, if_true] at h
      cases h
  fuel_write t n := Nat.add_le_add_right (M.rank_write t.1 n) _

/-! ## The stream in one piece -/

/-- The handshake over a stream: the context, and the bytes behind it. -/
def TlsMachine.shake (P : Bytes) : σ × Bytes := M.handshaker.advance M.fresh P

/-- The handshake is over within `P`. -/
def TlsMachine.Shaken (P : Bytes) : Prop := M.ended (M.shake P).1 = true

instance (P : Bytes) : Decidable (M.Shaken P) := inferInstanceAs (Decidable (_ = true))

/-- What reading everything behind the handshake gives. -/
def TlsMachine.plaintext (P : Bytes) : List Bytes :=
  if M.Shaken P then (M.reader.drain (M.shake P).1 (M.shake P).2).outs else []

/-! ## A run of `OnTcpData` -/

/-- A user that keeps what it gets. -/
def recorder {τ : Type} : Callbacks τ (List Bytes) where
  onConnect _ user := user
  onDisconnect _ user := user
  onData _ _ p net := { net with user := net.user ++ [p] }

/-- `fd` accepted. -/
def accepted (fd : Fd) : Net (σ × RecvBuf) (List Bytes) where
  opened := put (fun _ => false) fd true
  tls := put (fun _ => none) fd (some { ssl := (M.fresh, .empty), handshakeComplete := false })
  user := []
  stray := []
  log := []
  crashed := false

def runChunks (fd : Fd) (chunks : List Bytes) : Net (σ × RecvBuf) (List Bytes) :=
  chunks.foldl (fun net data => onTcpData recorder M.ssl 0 fd data net) (accepted M fd)

/-- What `onData` has been given. -/
def delivered (fd : Fd) (chunks : List Bytes) : Bytes := (runChunks M fd chunks).user.flatten

/-- What more reads would give. -/
def undelivered (fd : Fd) (chunks : List Bytes) : List Bytes :=
  match (runChunks M fd chunks).tls fd with
  | some c => if c.handshakeComplete then (M.reader.drain c.ssl.1 c.ssl.2.pending).outs else []
  | none => []

/-- No call leaves anything for more reads to give. -/
def Prompt (fd : Fd) (chunks : List Bytes) : Prop := ∀ n, undelivered M fd (chunks.take n) = []

/-- The last chunk completes the handshake and has application data behind
it. -/
def EndsLate (chunks : List Bytes) : Prop :=
  ∃ init last, chunks = init ++ [last] ∧ ¬ M.Shaken init.flatten ∧ M.plaintext chunks.flatten ≠ []

/-- Some chunk does, the last or not. -/
def Late (chunks : List Bytes) : Prop :=
  ∃ n, n < chunks.length ∧ ¬ M.Shaken (chunks.take n).flatten ∧ M.plaintext (chunks.take (n + 1)).flatten ≠ []

instance (chunks : List Bytes) : Decidable (Late M chunks) := inferInstanceAs (Decidable (∃ n, n < chunks.length ∧ _))

variable {M}

/-! ## The calls in terms of the consumer -/

section
variable {s : σ} {buf : RecvBuf}

theorem read_starved (h : M.reader.want (M.reader.advance s buf.pending).1 ≠ 0) : ∃ buf',
    M.ssl.read (s, buf) = (.want, ((M.reader.advance s buf.pending).1, buf')) ∧ buf'.pending = [] := by
  obtain ⟨hs, hb⟩ := pull_eq M.reader (s, buf)
  refine ⟨(pull M.reader (s, buf)).2, ?_, hb.trans (Consumer.advance_starved h)⟩
  simp only [TlsMachine.ssl, hs, if_pos h]
  rw [← hs]

theorem read_stopped (h : M.reader.want (M.reader.advance s buf.pending).1 = 0)
    (he : M.reader.emit (M.reader.advance s buf.pending).1 = none) : ∃ t, M.ssl.read (s, buf) = (.closed, t) := by
  obtain ⟨hs, -⟩ := pull_eq M.reader (s, buf)
  simp only [TlsMachine.ssl, hs, if_neg (not_not.mpr h), he]
  exact ⟨_, rfl⟩

theorem read_emit {p : Bytes} {s' : σ} (h : M.reader.want (M.reader.advance s buf.pending).1 = 0)
    (he : M.reader.emit (M.reader.advance s buf.pending).1 = some (p, s')) : ∃ buf',
    M.ssl.read (s, buf) = (.data p, (s', buf')) ∧ buf'.pending = (M.reader.advance s buf.pending).2 := by
  obtain ⟨hs, hb⟩ := pull_eq M.reader (s, buf)
  refine ⟨(pull M.reader (s, buf)).2, ?_, hb⟩
  simp only [TlsMachine.ssl, hs, if_neg (not_not.mpr h), he]

theorem handshake_eq : ∃ buf', M.ssl.handshake (s, buf) =
    (if M.ended (M.handshaker.advance s buf.pending).1 then .done
      else if M.reader.want (M.handshaker.advance s buf.pending).1 = 0 then .fail else .want,
      ((M.handshaker.advance s buf.pending).1, buf')) ∧ buf'.pending = (M.handshaker.advance s buf.pending).2 := by
  obtain ⟨hs, hb⟩ := pull_eq M.handshaker (s, buf)
  refine ⟨(pull M.handshaker (s, buf)).2, ?_, hb⟩
  simp only [TlsMachine.ssl, hs]
  rw [← hs]

end

/-- An entry of `fd` with that context and those bytes pending. -/
def Holds (fd : Fd) (net : Net (σ × RecvBuf) (List Bytes)) (s : σ) (pending : Bytes) (complete : Bool) : Prop :=
  ∃ buf, net.tls fd = some { ssl := (s, buf), handshakeComplete := complete } ∧ buf.pending = pending

/-- The read loop drains the context and its buffer. -/
theorem readLoop_drain (now : Int) (fd : Fd) (n : Nat) :
    ∀ {net : Net (σ × RecvBuf) (List Bytes)} {s : σ} {pending : Bytes},
    Holds fd net s pending true → net.crashed = false → M.reader.rank s + pending.length < n →
    let net' := readLoop recorder M.ssl now fd n net
    let d := M.reader.drain s pending
    net'.crashed = false ∧ net'.user = net.user ++ d.outs ∧
      (M.reader.want d.state = 0 → net'.tls fd = none) ∧
      (M.reader.want d.state ≠ 0 → Holds fd net' d.state [] true) := by
  induction n with
  | zero =>
    intro net s pending _ _ hn
    omega
  | succ n ih =>
    rintro net s _ ⟨buf, htls, rfl⟩ hcr hn
    simp only [readLoop, sslRead, htls]
    by_cases h0 : M.reader.want (M.reader.advance s buf.pending).1 = 0
    · cases he : M.reader.emit (M.reader.advance s buf.pending).1 with
      | none =>
        obtain ⟨t, hread⟩ := read_stopped h0 he
        rw [Consumer.drain_stopped h0 he, hread]
        simp only [removeClient_eq]
        refine ⟨hcr, ?_, fun _ => put_self .., fun h => absurd h0 h⟩
        split <;> exact (List.append_nil _).symm
      | some ps =>
        obtain ⟨p, s'⟩ := ps
        have hlt := Consumer.emit_lt he
        obtain ⟨buf', hread, hpend⟩ := read_emit h0 he
        rw [Consumer.drain_emit h0 he, hread]
        simp only [recorder, Net.emit, Net.setTls, hcr, Bool.false_eq_true, if_false]
        obtain ⟨hcr', huser, hstop, hgo⟩ := @ih
          { opened := net.opened, tls := put net.tls fd (some { ssl := (s', buf'), handshakeComplete := true })
            user := net.user ++ [p], stray := net.stray, log := net.log ++ [.sslRead fd (.data p)], crashed := false }
          s' (M.reader.advance s buf.pending).2 ⟨buf', put_self .., hpend⟩ rfl (by omega)
        exact ⟨hcr', huser.trans (List.append_cons ..).symm, hstop, hgo⟩
    · obtain ⟨buf', hread, hpend⟩ := read_starved h0
      rw [Consumer.drain_starved h0, hread]
      exact ⟨hcr, (List.append_nil _).symm, fun h => absurd h h0, fun _ => ⟨buf', put_self .., hpend⟩⟩

/-! ## The run against the stream -/

/-- The last chunk completed the handshake. -/
def JustShaken (M : TlsMachine σ) (chunks : List Bytes) : Prop :=
  ∃ init last, chunks = init ++ [last] ∧ ¬ M.Shaken init.flatten ∧ M.Shaken chunks.flatten

/-- The state after `chunks`: shaking hands or failed at it, just done with
it and not yet reading, or reading or stopped. -/
inductive Tracks (M : TlsMachine σ) (fd : Fd) (chunks : List Bytes) (net : Net (σ × RecvBuf) (List Bytes)) : Prop where
  | shaking (hnot : ¬ M.Shaken chunks.flatten) (hwant : M.reader.want (M.shake chunks.flatten).1 ≠ 0)
      (hold : Holds fd net (M.shake chunks.flatten).1 [] false) (huser : net.user = [])
  | failed (hnot : ¬ M.Shaken chunks.flatten) (hwant : M.reader.want (M.shake chunks.flatten).1 = 0)
      (hnone : net.tls fd = none) (huser : net.user = [])
  | done (hjust : JustShaken M chunks)
      (hold : Holds fd net (M.shake chunks.flatten).1 (M.shake chunks.flatten).2 true) (huser : net.user = [])
  | reading (hshaken : M.Shaken chunks.flatten) (hnot : ¬ JustShaken M chunks)
      (huser : net.user = M.plaintext chunks.flatten)
      (hwant : M.reader.want (M.reader.drain (M.shake chunks.flatten).1 (M.shake chunks.flatten).2).state ≠ 0)
      (hold : Holds fd net (M.reader.drain (M.shake chunks.flatten).1 (M.shake chunks.flatten).2).state [] true)
  | stopped (hshaken : M.Shaken chunks.flatten) (hnot : ¬ JustShaken M chunks)
      (huser : net.user = M.plaintext chunks.flatten)
      (hwant : M.reader.want (M.reader.drain (M.shake chunks.flatten).1 (M.shake chunks.flatten).2).state = 0)
      (hnone : net.tls fd = none)

theorem shake_append (P d : Bytes) : M.shake (P ++ d) =
    if M.handshaker.want (M.shake P).1 = 0 then ((M.shake P).1, (M.shake P).2 ++ d)
    else M.handshaker.advance (M.shake P).1 d := Consumer.advance_append M.fresh P d

/-- Once over, the rest is behind the handshake. -/
theorem shaken_append {P : Bytes} (h : M.Shaken P) (d : Bytes) : M.shake (P ++ d) = ((M.shake P).1, (M.shake P).2 ++ d) := by
  rw [shake_append, if_pos]
  exact if_pos h

theorem flatten_snoc (init : List Bytes) (last : Bytes) : (init ++ [last]).flatten = init.flatten ++ last := by
  simp

theorem not_justShaken {init : List Bytes} (h : M.Shaken init.flatten) (last : Bytes) :
    ¬ JustShaken M (init ++ [last]) := by
  rintro ⟨init', last', happ, hnot, -⟩
  obtain ⟨rfl, -⟩ := List.append_inj' happ rfl
  exact hnot h

section
variable {fd : Fd} {init : List Bytes} {last : Bytes} {net : Net (σ × RecvBuf) (List Bytes)} {now : Int}

/-- A chunk into a handshake that still asks. -/
theorem shaking_step (hcr : net.crashed = false) (hnot : ¬ M.Shaken init.flatten)
    (hwant : M.reader.want (M.shake init.flatten).1 ≠ 0) (hold : Holds fd net (M.shake init.flatten).1 [] false)
    (huser : net.user = []) :
    (onTcpData recorder M.ssl now fd last net).crashed = false ∧
      Tracks M fd (init ++ [last]) (onTcpData recorder M.ssl now fd last net) := by
  obtain ⟨buf, htls, hpend⟩ := hold
  have hasks : M.handshaker.want (M.shake init.flatten).1 ≠ 0 := by
    rw [show M.handshaker.want (M.shake init.flatten).1 = M.reader.want (M.shake init.flatten).1 from if_neg hnot]
    exact hwant
  have hshake := shake_append (M := M) init.flatten last
  rw [if_neg hasks, ← flatten_snoc] at hshake
  obtain ⟨buf', hret, hpend'⟩ := @handshake_eq σ M (M.shake init.flatten).1 (buf.insert last)
  rw [RecvBuf.pending_insert, hpend, List.nil_append, ← hshake] at hret hpend'
  have hdata : onTcpData recorder M.ssl now fd last net = continueTlsHandshake recorder M.ssl fd
      (net.setTls fd (some { ssl := ((M.shake init.flatten).1, buf.insert last), handshakeComplete := false })) := by
    simp only [onTcpData, htls]
    rfl
  rw [hdata]
  simp only [continueTlsHandshake, Net.setTls, put_self, hret]
  by_cases hover : M.ended (M.shake (init ++ [last]).flatten).1 = true
  · rw [if_pos hover]
    exact ⟨hcr, .done ⟨init, last, rfl, hnot, hover⟩ ⟨buf', put_self .., hpend'⟩ huser⟩
  · rw [if_neg hover]
    by_cases h0 : M.reader.want (M.shake (init ++ [last]).flatten).1 = 0
    · rw [if_pos h0]
      simp only [removeClient_eq]
      refine ⟨hcr, .failed hover h0 (put_self ..) ?_⟩
      split <;> exact huser
    · rw [if_neg h0]
      refine ⟨hcr, .shaking hover h0 ⟨buf', put_self .., ?_⟩ huser⟩
      rw [hpend', hshake]
      exact Consumer.advance_starved (by
        rw [← hshake, show M.handshaker.want _ = M.reader.want _ from if_neg hover]
        exact h0)

/-- A chunk after the handshake: the loop reads on. -/
theorem reading_step {s : σ} {pending : Bytes} (hcr : net.crashed = false) (hshaken : M.Shaken init.flatten)
    (hold : Holds fd net s pending true)
    (hdrain : M.reader.drain (M.shake (init ++ [last]).flatten).1 (M.shake (init ++ [last]).flatten).2 =
      { M.reader.drain s (pending ++ last) with outs := net.user ++ (M.reader.drain s (pending ++ last)).outs }) :
    (onTcpData recorder M.ssl now fd last net).crashed = false ∧
      Tracks M fd (init ++ [last]) (onTcpData recorder M.ssl now fd last net) := by
  obtain ⟨buf, htls, rfl⟩ := hold
  have hshaken' : M.Shaken (init ++ [last]).flatten := by
    rw [flatten_snoc, TlsMachine.Shaken, shaken_append hshaken]
    exact hshaken
  have hnot := not_justShaken hshaken last
  have hfuel : readFuel M.ssl fd (net.setTls fd (some { ssl := (s, buf.insert last), handshakeComplete := true })) + 1 =
      M.reader.rank s + (buf.pending ++ last).length + net.stray.length + 1 := by
    simp only [readFuel, Net.setTls, put_self, TlsMachine.ssl, RecvBuf.pending_insert]
  obtain ⟨hcr', huser, hstop, hgo⟩ := @readLoop_drain σ M now fd
    (M.reader.rank s + (buf.pending ++ last).length + net.stray.length + 1)
    (net.setTls fd (some { ssl := (s, buf.insert last), handshakeComplete := true })) s (buf.pending ++ last)
    ⟨buf.insert last, put_self .., RecvBuf.pending_insert ..⟩ hcr (by omega)
  have hdata : onTcpData recorder M.ssl now fd last net = readLoop recorder M.ssl now fd
      (M.reader.rank s + (buf.pending ++ last).length + net.stray.length + 1)
      (net.setTls fd (some { ssl := (s, buf.insert last), handshakeComplete := true })) := by
    rw [← hfuel]
    simp only [onTcpData, htls]
    rfl
  rw [hdata]
  have hplain : M.plaintext (init ++ [last]).flatten = net.user ++ (M.reader.drain s (buf.pending ++ last)).outs := by
    rw [TlsMachine.plaintext, if_pos hshaken', hdrain]
  refine ⟨hcr', ?_⟩
  by_cases h0 : M.reader.want (M.reader.drain s (buf.pending ++ last)).state = 0
  · exact .stopped hshaken' hnot (huser.trans hplain.symm) (by rw [hdrain]; exact h0) (hstop h0)
  · exact .reading hshaken' hnot (huser.trans hplain.symm) (by rw [hdrain]; exact h0) (by rw [hdrain]; exact hgo h0)

/-- **One chunk.** -/
theorem tracks_step (hcr : net.crashed = false) (h : Tracks M fd init net) :
    (onTcpData recorder M.ssl now fd last net).crashed = false ∧
      Tracks M fd (init ++ [last]) (onTcpData recorder M.ssl now fd last net) := by
  have hgone : net.tls fd = none → onTcpData recorder M.ssl now fd last net = net := by
    intro hnone
    simp only [onTcpData, hnone]
  have hflat : (init ++ [last]).flatten = init.flatten ++ last := flatten_snoc init last
  cases h with
  | shaking hnot hwant hold huser => exact shaking_step hcr hnot hwant hold huser
  | failed hnot hwant hnone huser =>
    have hasks : M.handshaker.want (M.shake init.flatten).1 = 0 := (if_neg hnot).trans hwant
    have hshake : M.shake (init ++ [last]).flatten = ((M.shake init.flatten).1, (M.shake init.flatten).2 ++ last) := by
      rw [hflat, shake_append, if_pos hasks]
    rw [hgone hnone]
    refine ⟨hcr, .failed ?_ ?_ hnone huser⟩
    · rw [TlsMachine.Shaken, hshake]
      exact hnot
    · rw [hshake]
      exact hwant
  | done hjust hold huser =>
    obtain ⟨-, -, -, -, hshaken⟩ := hjust
    refine reading_step hcr hshaken hold ?_
    rw [hflat, shaken_append hshaken, huser]
    rfl
  | reading hshaken hnot huser hwant hold =>
    refine reading_step hcr hshaken hold ?_
    rw [hflat, shaken_append hshaken, Consumer.drain_append, if_neg hwant, huser, TlsMachine.plaintext, if_pos hshaken,
      List.nil_append]
  | stopped hshaken hnot huser hwant hnone =>
    have hshake : M.shake (init ++ [last]).flatten = ((M.shake init.flatten).1, (M.shake init.flatten).2 ++ last) := by
      rw [hflat, shaken_append hshaken]
    have hshaken' : M.Shaken (init ++ [last]).flatten := by
      rw [TlsMachine.Shaken, hshake]
      exact hshaken
    have hdrain := Consumer.drain_append (C := M.reader) (M.shake init.flatten).1 (M.shake init.flatten).2 last
    rw [if_pos hwant] at hdrain
    rw [hgone hnone]
    refine ⟨hcr, .stopped hshaken' (not_justShaken hshaken last) ?_ ?_ hnone⟩
    · rw [huser, TlsMachine.plaintext, TlsMachine.plaintext, if_pos hshaken, if_pos hshaken', hshake, hdrain]
    · rw [hshake, hdrain]
      exact hwant

end

/-- **Any chunks.** -/
theorem run_tracks (M : TlsMachine σ) (fd : Fd) (chunks : List Bytes) :
    (runChunks M fd chunks).crashed = false ∧ Tracks M fd chunks (runChunks M fd chunks) := by
  induction chunks using List.reverseRecOn with
  | nil =>
    have hnot : ¬ M.Shaken [] := by
      rw [TlsMachine.Shaken, show (M.shake []).1 = M.fresh from rfl, M.fresh_ended]
      exact Bool.false_ne_true
    exact ⟨rfl, .shaking hnot M.fresh_want ⟨.empty, put_self (fun _ => none) fd _, rfl⟩ rfl⟩
  | append_singleton init last ih =>
    rw [runChunks, List.foldl_append]
    exact tracks_step ih.1 ih.2

theorem drain_idle (s : σ) (h : M.reader.want s ≠ 0) : (M.reader.drain s []).outs = [] := by
  rw [Consumer.drain_starved (show M.reader.want (M.reader.advance s []).1 ≠ 0 from h)]

/-- Behind a chunk that is not late everything is delivered; behind a late one
nothing is. -/
theorem delivered_eq (M : TlsMachine σ) (fd : Fd) (chunks : List Bytes) :
    (¬ EndsLate M chunks → delivered M fd chunks = (M.plaintext chunks.flatten).flatten ∧ undelivered M fd chunks = []) ∧
    (EndsLate M chunks → undelivered M fd chunks ≠ []) := by
  obtain ⟨-, htracks⟩ := run_tracks M fd chunks
  unfold delivered undelivered
  cases htracks with
  | shaking hnot hwant hold huser =>
    obtain ⟨buf, htls, -⟩ := hold
    have hplain : M.plaintext chunks.flatten = [] := if_neg hnot
    rw [huser, htls, hplain]
    refine ⟨fun _ => ⟨rfl, rfl⟩, ?_⟩
    rintro ⟨init, last, -, -, hne⟩
    exact absurd hplain hne
  | failed hnot hwant hnone huser =>
    have hplain : M.plaintext chunks.flatten = [] := if_neg hnot
    rw [huser, hnone, hplain]
    refine ⟨fun _ => ⟨rfl, rfl⟩, ?_⟩
    rintro ⟨init, last, -, -, hne⟩
    exact absurd hplain hne
  | done hjust hold huser =>
    obtain ⟨buf, htls, hpend⟩ := hold
    obtain ⟨init, last, hsplit, hnot, hshaken⟩ := hjust
    have hplain : M.plaintext chunks.flatten =
      (M.reader.drain (M.shake chunks.flatten).1 (M.shake chunks.flatten).2).outs := if_pos hshaken
    rw [huser, htls]
    simp only [if_true, hpend, ← hplain]
    constructor
    · intro hlate
      have hnil : M.plaintext chunks.flatten = [] := by
        by_contra hne
        exact hlate ⟨init, last, hsplit, hnot, hne⟩
      rw [hnil]
      exact ⟨rfl, rfl⟩
    · rintro ⟨-, -, -, -, hne⟩
      exact hne
  | reading hshaken hnot huser hwant hold =>
    obtain ⟨buf, htls, hpend⟩ := hold
    rw [huser, htls]
    simp only [if_true, hpend, drain_idle _ hwant, true_and, and_self, implies_true]
    rintro ⟨init, last, hsplit, hnot', -⟩
    exact absurd ⟨init, last, hsplit, hnot', hshaken⟩ hnot
  | stopped hshaken hnot huser hwant hnone =>
    rw [huser, hnone]
    simp only [true_and, and_self, implies_true]
    rintro ⟨init, last, hsplit, hnot', -⟩
    exact absurd ⟨init, last, hsplit, hnot', hshaken⟩ hnot

/-- A late chunk is the last of those so far. -/
theorem late_iff (M : TlsMachine σ) (chunks : List Bytes) : Late M chunks ↔ ∃ n, EndsLate M (chunks.take n) := by
  constructor
  · rintro ⟨n, hn, hnot, hne⟩
    exact ⟨n + 1, chunks.take n, chunks[n], List.take_succ_eq_append_getElem hn, hnot, hne⟩
  · rintro ⟨n, init, last, hsplit, hnot, hne⟩
    have hlen := congrArg List.length hsplit
    rw [List.length_take, List.length_append, List.length_singleton] at hlen
    have hinit : chunks.take init.length = init := by
      have htake := congrArg (List.take init.length) hsplit
      rwa [List.take_take, Nat.min_eq_left (by omega), List.take_left] at htake
    have hwhole : chunks.take (init.length + 1) = chunks.take n :=
      List.take_eq_take_iff.mpr (by omega)
    exact ⟨init.length, by omega, by rwa [hinit], by rwa [hwhole]⟩

theorem prompt_iff (M : TlsMachine σ) (fd : Fd) (chunks : List Bytes) : Prompt M fd chunks ↔ ¬ Late M chunks := by
  rw [late_iff, not_exists]
  refine forall_congr' fun n => ?_
  obtain ⟨hall, hlate⟩ := delivered_eq M fd (chunks.take n)
  exact ⟨fun hnil hends => hlate hends hnil, fun hno => (hall hno).2⟩

/-- A run without a late chunk has delivered all that the stream gives. -/
theorem delivered_all {M : TlsMachine σ} {chunks : List Bytes} (h : ¬ Late M chunks) (fd : Fd) :
    delivered M fd chunks = (M.plaintext chunks.flatten).flatten := by
  have hends : ¬ EndsLate M chunks := fun hends =>
    h ((late_iff M chunks).mpr ⟨chunks.length, by rwa [List.take_length]⟩)
  exact ((delivered_eq M fd chunks).1 hends).1

/-- **Segmentation.** Two ways of cutting one stream deliver the same bytes,
and no call returns with something left undelivered, iff neither completes the
handshake in a chunk that has application data behind it. -/
theorem input_chunking_iff (M : TlsMachine σ) (fd : Fd) {chunks₁ chunks₂ : List Bytes}
    (hstream : chunks₁.flatten = chunks₂.flatten) :
    (delivered M fd chunks₁ = delivered M fd chunks₂ ∧ Prompt M fd chunks₁ ∧ Prompt M fd chunks₂) ↔
      ¬ Late M chunks₁ ∧ ¬ Late M chunks₂ := by
  rw [prompt_iff, prompt_iff, and_iff_right_iff_imp]
  rintro ⟨hnot₁, hnot₂⟩
  rw [delivered_all hnot₁, delivered_all hnot₂, hstream]

end

/-! ## A small library -/

/-- A handshake of two bytes; each record is one byte. -/
def twoByteShake : TlsMachine (Nat × Option UInt8) where
  reader :=
    { want := fun s => if s.2.isSome then 0 else if s.1 = 0 then 2 else 1
      absorb := fun s b => if s.1 < 2 then (s.1 + 1, none) else (s.1, some b)
      emit := fun s => s.2.map fun b => ([b], (s.1, none))
      rank := fun s => if s.2.isSome then 1 else 0
      exact := by
        intro s n b h
        obtain ⟨k, o⟩ := s
        cases o with
        | some x => cases h
        | none =>
          by_cases hk : k = 0
          · subst hk
            cases h
            rfl
          · simp [hk] at h
      rank_absorb := by
        intro s b
        by_cases hs : s.1 < 2
        · simp [hs]
        · simp [hs]
      rank_emit := by
        intro s a s' h
        obtain ⟨b, hb, hs⟩ := Option.map_eq_some_iff.mp h
        cases hs
        rw [hb]
        exact Nat.zero_lt_one }
  ended s := s.1 = 2
  fresh := (0, none)
  write s n := (n, s)
  fresh_ended := rfl
  fresh_want := by decide
  ended_exact := by
    intro s n b _ h
    obtain ⟨k, o⟩ := s
    by_cases hk : k = 0
    · subst hk
      rfl
    · cases o <;> simp [hk] at h
  rank_write _ _ := Nat.le_refl _

/-- The handshake in one chunk and in two, the record behind it in its own. -/
theorem input_chunking_iff_sample :
    delivered twoByteShake 7 [[1], [2], [3]] = delivered twoByteShake 7 [[1, 2], [3]] ∧
      Prompt twoByteShake 7 [[1], [2], [3]] ∧ Prompt twoByteShake 7 [[1, 2], [3]] :=
  (input_chunking_iff twoByteShake 7 (by decide)).mpr (by decide)

/-- **A record behind the handshake.** In one chunk with the handshake the
record is not delivered, until another chunk comes; in a chunk of its own it
is. -/
theorem onTcpData_late : delivered twoByteShake 7 [[1, 2, 3]] = [] ∧ undelivered twoByteShake 7 [[1, 2, 3]] = [[3]] ∧
    delivered twoByteShake 7 [[1, 2], [3]] = [3] ∧ delivered twoByteShake 7 [[1, 2, 3], [4]] = [3, 4] := by decide

end WebPlayer.L3.Tls
