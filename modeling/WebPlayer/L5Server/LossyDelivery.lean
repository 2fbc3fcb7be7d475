import WebPlayer.L3Protocol.LossOrder
import WebPlayer.L5Server.FrameNumbers

/-!
# What a client completes that loses messages

The client's queue drops messages when it is full
(`js/buffer/DataBufferQueue.ts:47-59`). The ids of a session's frames differ
as long as fewer than 2^16 units are sent, to all clients together, between
its first and its last.

* `session_lossy`: then, in every run and whatever is dropped, the client
  completes the packets, or access units, of which nothing was dropped.
-/
namespace WebPlayer.L5.Server
open WebPlayer.Core WebPlayer.L1.FrameEncoder WebPlayer.L1.FrameParser WebPlayer.L3.Session WebPlayer.L3.Tls
  WebPlayer.L2.Reassembler WebPlayer.L3.Interleaving WebPlayer.L4.Media WebPlayer.L4.VideoServer

/-- All within 2^16 places of each other. -/
def Near (own : List (EncodeCall × Nat)) : Prop := ∀ p ∈ own, ∀ q ∈ own, q.2 < p.2 + 2 ^ 16

section
variable {units : List EncodeCall} {own : List (EncodeCall × Nat)}

theorem places_sorted (h : own.Sublist units.zipIdx) : own.Pairwise fun p q => p.2 < q.2 := by
  refine List.Pairwise.sublist h (List.pairwise_iff_getElem.mpr fun i j hi hj hij => ?_)
  simpa using hij

theorem places_ids (hids : NumberedFrom 0 units) (h : own.Sublist units.zipIdx) {p : EncodeCall × Nat} (hp : p ∈ own) :
    p.1.frameId = UInt16.ofNat p.2 := by
  have hget := List.mk_mem_zipIdx_iff_getElem?.mp (h.subset hp)
  rw [hids _ _ hget, UInt16.zero_add]

theorem ofNat_ne {m n : Nat} (hlt : m < n) (hnear : n < m + 2 ^ 16) : UInt16.ofNat m ≠ UInt16.ofNat n := by
  intro heq
  have hmod := congrArg UInt16.toNat heq
  simp only [UInt16.toNat_ofNat'] at hmod
  omega

/-- The calls of a session have ids of their own. -/
theorem ownIds_of_near (hids : NumberedFrom 0 units) (h : own.Sublist units.zipIdx) (hnear : Near own) :
    OwnIds (own.map Prod.fst) := by
  refine List.pairwise_map.mpr ((places_sorted h).imp_of_mem fun {p q} hp hq hlt _ _ => ?_)
  rw [places_ids hids h hp, places_ids hids h hq]
  exact ofNat_ne hlt (hnear p hp q hq)

end

/-- **A session with losses.** In every run, for every session and whatever
messages of those that reach the client are dropped before its parser: if
fewer than 2^16 units lie between the first and the last of the session, the
parser completes, in order, those units of which no message was dropped, as
they were sent, and nothing else. -/
theorem session_lossy {τ : Type} {cfg : Config τ} {s : Sys τ} (h : (system cfg).Reachable s) (hfit : Fits cfg.src) (fd : Fd) :
    ∃ units : List EncodeCall, mediaOf s.net.log = units.flatMap EncodeCall.encode ∧
      ∀ session ∈ sessions (logOf fd s.net.log), ∃ own : List (EncodeCall × Nat), own.Sublist units.zipIdx ∧
        FromFile cfg.env cfg.src session (own.map Prod.fst) ∧
        (Near own → ∀ r seen, seen.Sublist (arrived session) → ∃ got reports, Lossy (own.map Prod.fst) seen got ∧
          parseAll frameProtocolInit r seen = .ok reports ∧ results reports = got.map callFrame) := by
  obtain ⟨units, hunits⟩ := reachable_numbered h
  refine ⟨units, hunits.log, fun session hsession => ?_⟩
  obtain ⟨calls, ⟨own, hown, rfl⟩, hfile⟩ := (hunits.sessions fd).all session hsession
  refine ⟨own, hown, hfile, fun hnear r seen hseen => ?_⟩
  have hb : ∀ c ∈ own.map Prod.fst, c.payload.length ≤ maxPayload := by
    intro c hc
    obtain ⟨k, hk⟩ := List.getElem?_of_mem hc
    exact sourceCall_fits hfit (hfile.source k c hk)
  obtain ⟨rest, hrest⟩ := arrived_prefix session
  have hsub : seen.Sublist ((own.map Prod.fst).flatMap EncodeCall.encode) := by
    rw [← hfile.media, hrest]
    exact hseen.trans (List.sublist_append_left ..)
  obtain ⟨got, hgot⟩ := lossy_of_sublist hsub
  obtain ⟨reports, hall, hout⟩ := lossy_yields hgot hb (ownIds_of_near hunits.ids hown hnear)
    (represents_init Receiving) (fun _ _ _ => rfl) r
  exact ⟨got, reports, hgot, hall, hout⟩

theorem session_lossy_ticked : ∃ units : List EncodeCall, mediaOf (plainTicks mp4Config 3).log = units.flatMap EncodeCall.encode ∧
    ∀ session ∈ sessions (logOf 5 (plainTicks mp4Config 3).log), ∃ own : List (EncodeCall × Nat), own.Sublist units.zipIdx ∧
      FromFile mp4Config.env mp4Config.src session (own.map Prod.fst) ∧
      (Near own → ∀ r seen, seen.Sublist (arrived session) → ∃ got reports, Lossy (own.map Prod.fst) seen got ∧
        parseAll frameProtocolInit r seen = .ok reports ∧ results reports = got.map callFrame) := by
  exact session_lossy reachable_thrice filePackets_fit 5

end WebPlayer.L5.Server
