import WebPlayer.L4App.Media
import Mathlib.Data.List.Pairwise

/-!
# The playback clock over whole runs

A connection ticks from its first packet on. The packets sent by then are a
segment of the cyclic order of the file: all up to the first that is not due.
Each protocol frame carries its packet's own PTS, so the timestamps fall back
when the second pass begins.

* `sendDue_stops`: the loop of a tick ends at a packet that is not due.
* `play_index`: what has been sent after `n` ticks.
* `stamps_ordered_iff`: the timestamps of each media type are nondecreasing
  exactly as long as no second pass reaches a packet of that type, unless
  its packets share one PTS.
-/
namespace WebPlayer.L4.Media
open WebPlayer.Core WebPlayer.L1.FrameEncoder WebPlayer.L1.FrameParser WebPlayer.L3.Session

/-! ## Runs -/

/-- What a tick finds: the shared frame counter and the system clock at each
packet. -/
structure Tick where
  frameId : UInt16
  absTimeMs : Nat → Int64

/-- The protocol frames of the packets sent in a tick. -/
def tickFrames (env : Env) (tick : Tick) : List MediaPacket → List Bytes
  | [] => []
  | pkt :: pkts => packetFrames env (tick.absTimeMs 0) tick.frameId pkt ++
      tickFrames env ⟨tick.frameId + 1, fun j => tick.absTimeMs (j + 1)⟩ pkts

/-- Ticks of a STREAMING connection: the protocol frames, in order, and the
record. -/
def play (env : Env) (packets : List MediaPacket) (conn : Connection) : List Tick → List Bytes × Connection
  | [] => ([], conn)
  | tick :: ticks =>
    let r := onTimerMp4 packets conn
    let rest := play env packets r.2 ticks
    (tickFrames env tick r.1 ++ rest.1, rest.2)

/-- The timestamp of a frame of the type, as the client reads it. -/
def stamp (t : MediaType) (frame : Bytes) : Option Int :=
  match readFixedHeader frame with
  | .ok h => if h.msgType = t.msgType.toByte then some h.timestamp.toInt else none
  | .error _ => none

def stamps (t : MediaType) (frames : List Bytes) : List Int := frames.filterMap (stamp t)

/-! ## Due packets -/

/-- The `i`-th packet of the cyclic order. -/
def cyclic (packets : List MediaPacket) (i : Nat) : Option MediaPacket := getPacket packets (i % packets.length)

/-- Due at `p`. -/
def Due (packets : List MediaPacket) (p i : Nat) : Prop := ∃ e, effectivePtsMs packets i = some e ∧ e ≤ p

/-- The clock after `n` ticks. -/
def clock : Nat → Nat
  | 0 => 0
  | n + 1 => toDouble (clock n + 10)

/-- Due at one of the first `n` ticks. -/
def DueBy (packets : List MediaPacket) (n i : Nat) : Prop := ∃ k, k < n ∧ Due packets (clock k) i

theorem clock_double (n : Nat) : toDouble (clock n) = clock n := by
  cases n with
  | zero => rfl
  | succ n => exact toDouble_idem _

theorem clock_mono {m n : Nat} (h : m ≤ n) : clock m ≤ clock n := by
  induction h with
  | refl => exact Nat.le_refl _
  | @step n _ ih =>
    calc clock m ≤ clock n := ih
      _ = toDouble (clock n) := (clock_double n).symm
      _ ≤ clock (n + 1) := toDouble_mono (Nat.le_add_right _ 10)

/-- Where adding 10 no longer changes a double. -/
theorem clock_le (n : Nat) : clock n ≤ 2 ^ 57 := by
  induction n with
  | zero => decide
  | succ n ih =>
    calc clock (n + 1) ≤ toDouble (2 ^ 57 + 10) := toDouble_mono (by omega)
      _ = 2 ^ 57 := by decide

theorem Due.mono {packets : List MediaPacket} {p q i : Nat} (h : Due packets p i) (hpq : p ≤ q) : Due packets q i := by
  obtain ⟨e, he, hle⟩ := h
  exact ⟨e, he, by omega⟩

theorem getPacket_some {packets : List MediaPacket} {i : Nat} (h : i < packets.length) :
    getPacket packets i = some (packets.get ⟨i, h⟩) := List.getElem?_eq_getElem h

section
variable {packets : List MediaPacket} (hne : packets ≠ [])
include hne

theorem cyclic_some (i : Nat) : ∃ pkt, cyclic packets i = some pkt :=
  ⟨_, getPacket_some (Nat.mod_lt i (List.length_pos_iff.mpr hne))⟩

omit hne in
theorem totalDurationMs_pos (first last : MediaPacket) :
    0 < (totalDurationMs first last).toUInt64.toNat ∧ (totalDurationMs first last).toUInt64.toNat < 2 ^ 63 := by
  have hpos : 0 < totalDurationMs first last := by
    unfold totalDurationMs
    split
    · decide
    · rename_i h
      exact Int64.not_le.mp h
  have hint : 0 < (totalDurationMs first last).toInt := by simpa using Int64.lt_iff_toInt_lt.mp hpos
  have hlt := (totalDurationMs first last).toInt_lt
  rw [Int64.toNat_toUInt64_of_le (Int64.le_of_lt hpos), ← Int64.toNat_toInt]
  omega

omit hne in
/-- A pass that begins after `2 * p` is not due at `p`, and the 64-bit
product does not wrap. -/
theorem far_pass {p : Nat} (hp : p ≤ 2 ^ 57) {d : UInt64} (hd : 0 < d.toNat) (hd63 : d.toNat < 2 ^ 63) :
    p < toDouble (UInt64.ofNat (2 * p / d.toNat + 1) * d).toNat := by
  have hlt : 2 * p < (2 * p / d.toNat + 1) * d.toNat := by
    rw [Nat.add_mul, Nat.one_mul]
    exact Nat.lt_div_mul_add hd
  have hle : 2 * p / d.toNat * d.toNat ≤ 2 * p := Nat.div_mul_le_self ..
  have hloops : 2 * p / d.toNat ≤ 2 * p := Nat.div_le_self ..
  have hmul : (UInt64.ofNat (2 * p / d.toNat + 1) * d).toNat = (2 * p / d.toNat + 1) * d.toNat := by
    rw [UInt64.toNat_mul, UInt64.toNat_ofNat_of_lt' (by simp only [UInt64.size]; omega), Nat.mod_eq_of_lt]
    rw [Nat.succ_mul]
    omega
  rw [hmul]
  have := le_two_mul_toDouble ((2 * p / d.toNat + 1) * d.toNat)
  omega

/-- The fuel of a tick covers a packet that is not due. -/
theorem dueFuel_covers {p : Nat} (hp : p ≤ 2 ^ 57) : ∃ b, dueFuel packets p = b + 1 ∧ ¬ Due packets p b := by
  have hpos := List.length_pos_iff.mpr hne
  have hfirst := @getPacket_some packets 0 hpos
  have hlast := @getPacket_some packets (packets.length - 1) (by omega)
  generalize packets.get ⟨0, hpos⟩ = first at hfirst
  generalize packets.get ⟨packets.length - 1, _⟩ = last at hlast
  obtain ⟨hd, hd63⟩ := totalDurationMs_pos first last
  refine ⟨_, by rw [dueFuel, hfirst, hlast], ?_⟩
  rintro ⟨e, he, hle⟩
  -- the packet opens a pass
  rw [effectivePtsMs, hfirst, hlast, Nat.mul_mod_right, Nat.mul_div_cancel_left _ hpos, hfirst] at he
  simp only [bind, Option.bind, pure, Option.some.injEq, Int64.toUInt64_sub, UInt64.sub_self, UInt64.zero_add] at he
  have hfar := far_pass hp hd hd63
  omega

end

/-! ## One tick -/

theorem Due.cyclic {packets : List MediaPacket} {p i : Nat} (h : Due packets p i) : ∃ pkt, cyclic packets i = some pkt := by
  refine cyclic_some (fun hnil => ?_) i
  subst hnil
  obtain ⟨e, he, -⟩ := h
  cases he

section
variable {packets : List MediaPacket} {p i : Nat} (fuel : Nat)

theorem sendDue_due (h : Due packets p i) : ∃ pkt, cyclic packets i = some pkt ∧
    sendDue packets p (fuel + 1) i =
      (pkt :: (sendDue packets p fuel (i + 1)).1, (sendDue packets p fuel (i + 1)).2) := by
  obtain ⟨pkt, hpkt⟩ := h.cyclic
  obtain ⟨e, he, hle⟩ := h
  refine ⟨pkt, hpkt, ?_⟩
  rw [Media.cyclic] at hpkt
  rw [sendDue, hpkt, he]
  simp only [if_neg (Nat.not_lt.mpr hle)]

theorem sendDue_break (h : ¬ Due packets p i) : sendDue packets p (fuel + 1) i = ([], i) := by
  rw [sendDue]
  cases hpkt : getPacket packets (i % packets.length) with
  | none => rfl
  | some pkt =>
    cases he : effectivePtsMs packets i with
    | none => rfl
    | some e =>
      by_cases hlt : p < e
      · simp only [if_pos hlt]
      · exact absurd ⟨e, he, Nat.not_lt.mp hlt⟩ h

end

/-- A tick sends a segment of the cyclic order, all of it due. -/
theorem sendDue_segment (packets : List MediaPacket) (p fuel i : Nat) :
    i ≤ (sendDue packets p fuel i).2 ∧ (∀ k, i ≤ k → k < (sendDue packets p fuel i).2 → Due packets p k) ∧
      (sendDue packets p fuel i).1 =
        (List.range' i ((sendDue packets p fuel i).2 - i)).filterMap (cyclic packets) := by
  induction fuel generalizing i with
  | zero => exact ⟨Nat.le_refl _, fun k h₁ h₂ => by simp only [sendDue] at h₂; omega, by simp [sendDue]⟩
  | succ fuel ih =>
    by_cases hdue : Due packets p i
    · obtain ⟨pkt, hpkt, h⟩ := sendDue_due fuel hdue
      obtain ⟨hle, hall, hpkts⟩ := ih (i + 1)
      rw [h]
      refine ⟨by omega, fun k h₁ h₂ => ?_, ?_⟩
      · rcases Nat.lt_or_eq_of_le h₁ with hlt | rfl
        · exact hall k hlt h₂
        · exact hdue
      · simp only
        have hlen : (sendDue packets p fuel (i + 1)).2 - i = (sendDue packets p fuel (i + 1)).2 - (i + 1) + 1 := by omega
        rw [hlen, List.range'_succ, List.filterMap_cons_some hpkt, ← hpkts]
    · rw [sendDue_break fuel hdue]
      exact ⟨Nat.le_refl _, fun k h₁ h₂ => by simp only at h₂; omega, by simp⟩

/-- **The loop stops by itself**: with a packet within its fuel that is not
due, it ends at one. -/
theorem sendDue_stops {packets : List MediaPacket} {p b : Nat} (hb : ¬ Due packets p b) (fuel i : Nat) (hib : i ≤ b)
    (hfuel : b < i + fuel) : ¬ Due packets p (sendDue packets p fuel i).2 := by
  induction fuel generalizing i with
  | zero => omega
  | succ fuel ih =>
    by_cases hdue : Due packets p i
    · obtain ⟨pkt, -, h⟩ := sendDue_due fuel hdue
      rw [h]
      have hne : i ≠ b := by
        rintro rfl
        exact hb hdue
      exact ih (i + 1) (by omega) (by omega)
    · rw [sendDue_break fuel hdue]
      exact hdue

/-! ## Runs of ticks -/

/-- After `n` ticks: the clock, and everything before the index was due. -/
structure Played (packets : List MediaPacket) (n : Nat) (conn : Connection) : Prop where
  playbackTimeMs : conn.playbackTimeMs = clock n
  sent : ∀ j, j < conn.packetIndex → DueBy packets n j

theorem DueBy.due {packets : List MediaPacket} {n j : Nat} (h : DueBy packets n j) : Due packets (clock n) j := by
  obtain ⟨k, hk, hdue⟩ := h
  exact hdue.mono (clock_mono (Nat.le_of_lt hk))

/-- One tick: the packets between the old and the new index, and the new
index is not due. -/
theorem onTimerMp4_played {packets : List MediaPacket} (hne : packets ≠ []) {n : Nat} {conn : Connection}
    (h : Played packets n conn) :
    let r := onTimerMp4 packets conn
    Played packets (n + 1) r.2 ∧ conn.packetIndex ≤ r.2.packetIndex ∧ ¬ DueBy packets (n + 1) r.2.packetIndex ∧
      r.1 = (List.range' conn.packetIndex (r.2.packetIndex - conn.packetIndex)).filterMap (cyclic packets) := by
  have hlen : packets.length ≠ 0 := fun h0 => hne (List.length_eq_zero_iff.mp h0)
  obtain ⟨b, hfuel, hb⟩ := dueFuel_covers hne (clock_le n)
  have hib : conn.packetIndex ≤ b := by
    by_contra hlt
    exact hb (h.sent b (Nat.not_le.mp hlt)).due
  obtain ⟨hle, hall, hpkts⟩ := sendDue_segment packets (clock n) (dueFuel packets (clock n)) conn.packetIndex
  have hstop := sendDue_stops hb (dueFuel packets (clock n)) conn.packetIndex hib (by omega)
  simp only [onTimerMp4, if_neg hlen, h.playbackTimeMs]
  refine ⟨⟨rfl, fun j hj => ?_⟩, hle, ?_, hpkts⟩
  · by_cases hlt : j < conn.packetIndex
    · obtain ⟨k, hk, hdue⟩ := h.sent j hlt
      exact ⟨k, by omega, hdue⟩
    · exact ⟨n, Nat.lt_succ_self n, hall j (Nat.not_lt.mp hlt) hj⟩
  · rintro ⟨k, hk, hdue⟩
    exact hstop (hdue.mono (clock_mono (Nat.le_of_lt_succ hk)))

/-! ## Timestamps -/

/-- How many protocol frames a payload becomes. -/
def frameCount (data : Bytes) : Nat :=
  if data.length ≤ FRAGMENT_THRESHOLD then 1 else (totalFragments data).toNat

/-- A packet of the type that becomes at least one protocol frame: at
`2 ^ 30` bytes the 16-bit fragment count is 0. -/
def Carries (t : MediaType) (pkt : MediaPacket) : Prop := pkt.type = t ∧ frameCount pkt.data ≠ 0

instance (t : MediaType) (pkt : MediaPacket) : Decidable (Carries t pkt) := inferInstanceAs (Decidable (_ ∧ _))

/-- The timestamps of type `t` that a packet contributes. -/
def stampsOf (t : MediaType) (pkt : MediaPacket) : List Int :=
  if pkt.type = t then List.replicate (frameCount pkt.data) pkt.ptsMs.toInt else []

theorem mem_stampsOf {t : MediaType} {pkt : MediaPacket} {x : Int} :
    x ∈ stampsOf t pkt ↔ Carries t pkt ∧ x = pkt.ptsMs.toInt := by
  unfold stampsOf Carries
  split
  · rename_i ht
    rw [List.mem_replicate]
    exact ⟨fun h => ⟨⟨ht, h.1⟩, h.2⟩, fun h => ⟨h.1.2, h.2⟩⟩
  · rename_i ht
    exact ⟨fun h => absurd h List.not_mem_nil, fun h => absurd h.1.1 ht⟩

/-- Every protocol frame of a payload opens with the fixed header. -/
theorem encodeFrame_header {mt : MsgType} {ext payload frame : Bytes} {ts abs : Int64} {id : UInt16}
    (h : frame ∈ encodeFrame mt ext payload ts abs id) :
    ∃ fl el pl rest, frame = writeFixedHeader mt fl ts el pl ++ rest := by
  unfold encodeFrame at h
  split at h
  · rw [List.mem_singleton.mp h]
    exact ⟨_, _, _, _, by simp only [List.append_assoc]; rfl⟩
  · obtain ⟨i, -, rfl⟩ := List.mem_map.mp h
    unfold encodeFragment
    by_cases hi : i = 0
    · simp only [if_pos hi]
      exact ⟨_, _, _, _, by simp only [List.append_assoc]; rfl⟩
    · simp only [if_neg hi]
      exact ⟨_, _, _, _, by simp only [List.append_assoc]; rfl⟩

theorem encodeFrame_length {mt : MsgType} {ext payload : Bytes} {ts abs : Int64} {id : UInt16} :
    (encodeFrame mt ext payload ts abs id).length = frameCount payload := by
  unfold encodeFrame frameCount
  split
  · rfl
  · simp

theorem MediaType.toByte_inj {t u : MediaType} : t.msgType.toByte = u.msgType.toByte ↔ t = u := by
  cases t <;> cases u <;> decide

/-- A packet's frames carry its own PTS. -/
theorem stamps_packet (env : Env) (abs : Int64) (id : UInt16) (pkt : MediaPacket) (t : MediaType) :
    stamps t (packetFrames env abs id pkt) = stampsOf t pkt := by
  obtain ⟨ext, hext⟩ : ∃ ext, packetFrames env abs id pkt =
      encodeFrame pkt.type.msgType ext pkt.data pkt.ptsMs abs id := by
    unfold packetFrames
    cases pkt.type <;> exact ⟨_, rfl⟩
  have hstamp : ∀ frame, frame ∈ packetFrames env abs id pkt →
      stamp t frame = if pkt.type = t then some pkt.ptsMs.toInt else none := by
    intro frame hmem
    rw [hext] at hmem
    obtain ⟨fl, el, pl, rest, rfl⟩ := encodeFrame_header hmem
    rw [stamp, readFixedHeader_write]
    simp only [MediaType.toByte_inj]
  rw [stamps, List.filterMap_congr hstamp, stampsOf]
  by_cases ht : pkt.type = t
  · simp only [if_pos ht]
    rw [List.filterMap_eq_map', List.map_const', hext, encodeFrame_length]
  · simp only [if_neg ht]
    exact List.filterMap_eq_nil_iff.mpr fun _ _ => rfl

theorem stamps_append (t : MediaType) (f₁ f₂ : List Bytes) : stamps t (f₁ ++ f₂) = stamps t f₁ ++ stamps t f₂ :=
  List.filterMap_append

theorem stamps_tick (env : Env) (t : MediaType) (pkts : List MediaPacket) (tick : Tick) :
    stamps t (tickFrames env tick pkts) = pkts.flatMap (stampsOf t) := by
  induction pkts generalizing tick with
  | nil => rfl
  | cons pkt pkts ih => rw [tickFrames, stamps_append, stamps_packet, ih, List.flatMap_cons]

/-- **A run.** What has been sent is everything up to an index that was not
due. -/
theorem play_index {packets : List MediaPacket} (hne : packets ≠ []) (env : Env) (t : MediaType) (ticks : List Tick) :
    ∀ {n : Nat} {conn : Connection}, Played packets n conn → ¬ DueBy packets n conn.packetIndex →
      let r := play env packets conn ticks
      Played packets (n + ticks.length) r.2 ∧ conn.packetIndex ≤ r.2.packetIndex ∧
        ¬ DueBy packets (n + ticks.length) r.2.packetIndex ∧
        stamps t r.1 = ((List.range' conn.packetIndex (r.2.packetIndex - conn.packetIndex)).filterMap
          (cyclic packets)).flatMap (stampsOf t) := by
  induction ticks with
  | nil =>
    intro n conn hp hnot
    exact ⟨hp, Nat.le_refl _, hnot, by simp [play, stamps]⟩
  | cons tick ticks ih =>
    intro n conn hp _
    obtain ⟨hp₁, hle₁, hnot₁, hpkts⟩ := onTimerMp4_played hne hp
    obtain ⟨hp₂, hle₂, hnot₂, hstamps⟩ := ih hp₁ hnot₁
    have hn : n + (tick :: ticks).length = n + 1 + ticks.length := by rw [List.length_cons]; omega
    rw [hn]
    refine ⟨hp₂, Nat.le_trans hle₁ hle₂, hnot₂, ?_⟩
    simp only [play] at hstamps hle₂ ⊢
    rw [stamps_append, stamps_tick, hstamps, hpkts, ← List.flatMap_append, ← List.filterMap_append]
    congr 2
    have h := @List.range'_append conn.packetIndex ((onTimerMp4 packets conn).2.packetIndex - conn.packetIndex)
      ((play env packets (onTimerMp4 packets conn).2 ticks).2.packetIndex - (onTimerMp4 packets conn).2.packetIndex) 1
    rw [Nat.one_mul, Nat.add_sub_cancel' hle₁] at h
    rw [h]
    congr 1
    omega

/-! ## Monotone timestamps -/

/-- The packets of the type share one PTS. -/
def SamePts (t : MediaType) (packets : List MediaPacket) : Prop :=
  ∀ a, a ∈ packets → ∀ b, b ∈ packets → Carries t a → Carries t b → a.ptsMs = b.ptsMs

/-- The first `n` packets of the cyclic order, by type. -/
def Ordered (t : MediaType) (packets : List MediaPacket) (n : Nat) : Prop :=
  ∀ i j a b, i < j → j < n → cyclic packets i = some a → cyclic packets j = some b → Carries t a → Carries t b →
    a.ptsMs.toInt ≤ b.ptsMs.toInt

theorem ordered_iff_pairwise (t : MediaType) (packets : List MediaPacket) (n : Nat) :
    (((List.range' 0 n).filterMap (cyclic packets)).flatMap (stampsOf t)).Pairwise (· ≤ ·) ↔ Ordered t packets n := by
  rw [List.pairwise_flatMap, List.pairwise_filterMap, List.pairwise_iff_getElem]
  constructor
  · rintro ⟨-, h⟩ i j a b hij hj ha hb hca hcb
    have := h i j (by simp; omega) (by simp; omega) hij a (by simpa using ha) b (by simpa using hb)
    exact this _ (mem_stampsOf.mpr ⟨hca, rfl⟩) _ (mem_stampsOf.mpr ⟨hcb, rfl⟩)
  · intro h
    refine ⟨fun a _ => ?_, fun i j hi hj hij a ha b hb x hx y hy => ?_⟩
    · unfold stampsOf
      split
      · exact List.pairwise_replicate.mpr (.inr (le_refl _))
      · exact .nil
    · obtain ⟨hca, rfl⟩ := mem_stampsOf.mp hx
      obtain ⟨hcb, rfl⟩ := mem_stampsOf.mp hy
      exact h i j a b hij (by simpa using hj) (by simpa using ha) (by simpa using hb) hca hcb

theorem sorted_le {packets : List MediaPacket} (hsorted : packets.Pairwise (·.ptsMs.toInt ≤ ·.ptsMs.toInt))
    {i j : Nat} {a b : MediaPacket} (ha : packets[i]? = some a) (hb : packets[j]? = some b) (hij : i ≤ j) :
    a.ptsMs.toInt ≤ b.ptsMs.toInt := by
  obtain ⟨hi, rfl⟩ := List.getElem?_eq_some_iff.mp ha
  obtain ⟨hj, rfl⟩ := List.getElem?_eq_some_iff.mp hb
  rcases Nat.lt_or_eq_of_le hij with hlt | rfl
  · exact List.pairwise_iff_getElem.mp hsorted i j hi hj hlt
  · exact le_refl _

/-- The same packet a pass later. -/
theorem cyclic_pass {packets : List MediaPacket} {i : Nat} {a : MediaPacket} (h : packets[i]? = some a) :
    cyclic packets i = some a ∧ cyclic packets (packets.length + i) = some a := by
  obtain ⟨hi, -⟩ := List.getElem?_eq_some_iff.mp h
  constructor
  · rw [cyclic, getPacket, Nat.mod_eq_of_lt hi, h]
  · rw [cyclic, getPacket, Nat.add_mod_left, Nat.mod_eq_of_lt hi, h]

/-- In a sorted file the order lasts as long as no second pass reaches a
packet of the type. -/
theorem ordered_iff {packets : List MediaPacket} (hsorted : packets.Pairwise (·.ptsMs.toInt ≤ ·.ptsMs.toInt))
    (t : MediaType) (n : Nat) : Ordered t packets n ↔
      SamePts t packets ∨ ∀ f pkt, packets[f]? = some pkt → Carries t pkt → n ≤ packets.length + f := by
  constructor
  · intro hord
    by_contra hno
    obtain ⟨hsame, hreach⟩ := not_or.mp hno
    simp only [not_forall, Nat.not_le] at hreach
    obtain ⟨f, pkt, hf, hcf, hn⟩ := hreach
    -- an earlier packet `a` and a later one `b` with a larger PTS
    obtain ⟨i, j, a, b, ha, hb, hca, hcb, hlt⟩ : ∃ i j a b, packets[i]? = some a ∧ packets[j]? = some b ∧
        Carries t a ∧ Carries t b ∧ a.ptsMs.toInt < b.ptsMs.toInt := by
      simp only [SamePts, not_forall] at hsame
      obtain ⟨a, ha, b, hb, hca, hcb, hne⟩ := hsame
      obtain ⟨i, hi⟩ := List.mem_iff_getElem?.mp ha
      obtain ⟨j, hj⟩ := List.mem_iff_getElem?.mp hb
      have hne' : a.ptsMs.toInt ≠ b.ptsMs.toInt := fun h => hne (Int64.toInt_inj.mp h)
      rcases lt_or_gt_of_ne hne' with h | h
      · exact ⟨i, j, a, b, hi, hj, hca, hcb, h⟩
      · exact ⟨j, i, b, a, hj, hi, hcb, hca, h⟩
    obtain ⟨hjlen, -⟩ := List.getElem?_eq_some_iff.mp hb
    -- the second pass reaches `a` or something before it, after `b`
    rcases Nat.le_total i f with hif | hfi
    · have := hord j (packets.length + i) b a (by omega) (by omega) (cyclic_pass hb).1 (cyclic_pass ha).2 hcb hca
      omega
    · have h₁ := hord j (packets.length + f) b pkt (by omega) (by omega) (cyclic_pass hb).1 (cyclic_pass hf).2 hcb hcf
      have h₂ := sorted_le hsorted hf ha hfi
      omega
  · rintro (hsame | hreach) i j a b hij hj ha hb hca hcb
    · rw [hsame a (List.mem_of_getElem? ha) b (List.mem_of_getElem? hb) hca hcb]
    · -- `j` is still in the first pass
      have hjn := hreach _ b hb hcb
      have hdiv := Nat.mod_add_div j packets.length
      obtain ⟨hmod, -⟩ := List.getElem?_eq_some_iff.mp (show packets[j % packets.length]? = some b from hb)
      have hj' : j < packets.length := by
        by_contra hge
        have := Nat.le_mul_of_pos_right packets.length (Nat.div_pos (Nat.not_lt.mp hge) (by omega))
        omega
      rw [cyclic, getPacket, Nat.mod_eq_of_lt (by omega)] at ha hb
      exact sorted_le hsorted ha hb (Nat.le_of_lt hij)

theorem played_zero (packets : List MediaPacket) (fd : Int) (id : Nat) :
    Played packets 0 { fd, id, state := .streaming } := ⟨rfl, fun _ hj => absurd hj (Nat.not_lt_zero _)⟩

/-- **Timestamps.** For a sorted file and any ticks from the start of
streaming, the timestamps of each media type are nondecreasing iff its
packets share one PTS or, before each of them in the second pass, some packet
is not yet due. -/
theorem stamps_ordered_iff (env : Env) {packets : List MediaPacket}
    (hsorted : packets.Pairwise (·.ptsMs.toInt ≤ ·.ptsMs.toInt)) (fd : Int) (id : Nat) (ticks : List Tick)
    (t : MediaType) :
    (stamps t (play env packets { fd, id, state := .streaming } ticks).1).Pairwise (· ≤ ·) ↔
      SamePts t packets ∨ ∀ f pkt, packets[f]? = some pkt → Carries t pkt →
        ∃ i, i ≤ packets.length + f ∧ ¬ DueBy packets ticks.length i := by
  by_cases hne : packets = []
  · subst hne
    have hnil : ∀ (conn : Connection) (ticks : List Tick), (play env [] conn ticks).1 = [] := by
      intro conn ticks
      induction ticks generalizing conn with
      | nil => rfl
      | cons tick ticks ih => exact ih _
    rw [hnil]
    exact ⟨fun _ => .inl fun a ha => absurd ha List.not_mem_nil, fun _ => .nil⟩
  · have hstart : ¬ DueBy packets 0 0 := fun ⟨k, hk, _⟩ => Nat.not_lt_zero k hk
    obtain ⟨hp, -, hnot, hstamps⟩ := play_index hne env t ticks (played_zero packets fd id) hstart
    rw [Nat.zero_add] at hp hnot
    rw [hstamps, Nat.sub_zero, ordered_iff_pairwise, ordered_iff hsorted]
    refine or_congr Iff.rfl (forall_congr' fun f => forall_congr' fun pkt => imp_congr Iff.rfl (imp_congr Iff.rfl ?_))
    constructor
    · exact fun hle => ⟨_, hle, hnot⟩
    · rintro ⟨i, hi, hdue⟩
      by_contra hlt
      exact hdue (hp.sent i (by omega))

/-- A video file of two packets, 40 ms apart. -/
def twoPackets : List MediaPacket := [⟨.video, [], 0⟩, ⟨.video, [], 40⟩]

/-- With two audio packets between them. -/
def fourPackets : List MediaPacket := [⟨.video, [], 0⟩, ⟨.audio, [], 10⟩, ⟨.audio, [], 30⟩, ⟨.video, [], 40⟩]

def twoPacketsEnv : Env where
  sha1 := id
  base64Encode := id
  isH265 := false
  isMp4Mode := true
  framerate := []
  audio := ⟨[], 0, 0, false⟩

/-- Ticks of 10 ms. -/
def ticks10 (n : Nat) : List Tick := List.replicate n ⟨0, fun _ => 0⟩

/-- Within the first five ticks the second pass begins with its first packet,
and no audio packet of it is due. -/
theorem stamps_ordered_iff_audio :
    stamps .audio (play twoPacketsEnv fourPackets { fd := 7, id := 1, state := .streaming } (ticks10 5)).1 = [10, 30] ∧
      (stamps .audio (play twoPacketsEnv fourPackets { fd := 7, id := 1, state := .streaming } (ticks10 5)).1).Pairwise
        (· ≤ ·) := by
  refine ⟨by decide, (stamps_ordered_iff twoPacketsEnv (by decide) 7 1 (ticks10 5) .audio).mpr (.inr fun f pkt hf ht => ?_)⟩
  have hlen : fourPackets.length = 4 := rfl
  have hpos : 1 ≤ f := by
    cases f with
    | zero =>
      cases hf
      cases ht.1
    | succ f => exact Nat.le_add_left 1 f
  refine ⟨5, by omega, ?_⟩
  rintro ⟨k, hk, e, he, hle⟩
  have hclock : clock k ≤ clock 4 := clock_mono (Nat.le_of_lt_succ hk)
  have h40 : clock 4 = 40 := by decide
  have h50 : effectivePtsMs fourPackets 5 = some 50 := by decide
  rw [h50] at he
  cases he
  omega

/-- **The wrap.** After the packet at 40 ms comes the packet at 0 ms again. -/
theorem stamps_fall_back : twoPackets.Pairwise (·.ptsMs.toInt ≤ ·.ptsMs.toInt) ∧
    stamps .video (play twoPacketsEnv twoPackets { fd := 7, id := 1, state := .streaming } (ticks10 5)).1 = [0, 40, 0] ∧
    ¬ (stamps .video (play twoPacketsEnv twoPackets { fd := 7, id := 1, state := .streaming } (ticks10 5)).1).Pairwise
      (· ≤ ·) := by
  have h : stamps .video (play twoPacketsEnv twoPackets { fd := 7, id := 1, state := .streaming } (ticks10 5)).1 =
      [0, 40, 0] := by decide
  rw [h]
  exact ⟨by decide, rfl, by decide⟩

end WebPlayer.L4.Media
