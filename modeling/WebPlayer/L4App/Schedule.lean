import WebPlayer.Core.Laps
import WebPlayer.L4App.Playback

/-!
# The MP4 scheduler is exact

`OnTimerMp4` sends what is due at its clock, pass after pass over the file.
While all values are whole doubles below `2^53`, its order of due times is
that of a periodic schedule (`Core.Laps`) whose period is the file's duration,
at least 1 ms.

* `effectivePtsMs_eq`: the 64-bit and double arithmetic computes the time of
  the schedule.
* `schedule_exact`: the calls terminate and send exactly what is due, in the
  cyclic order.
-/
namespace WebPlayer.L4.Media
open WebPlayer.Core WebPlayer.L3.Session

/-! ## Calls -/

/-- So many calls of `OnTimerMp4`: the packets sent and the record. -/
def calls (packets : List MediaPacket) (conn : Connection) : Nat → List MediaPacket × Connection
  | 0 => ([], conn)
  | k + 1 =>
    let r := onTimerMp4 packets (calls packets conn k).2
    ((calls packets conn k).1 ++ r.1, r.2)

/-- The `while` loop ends: with enough iterations the outcome is `r`. -/
def Ends (packets : List MediaPacket) (p i : Nat) (r : List MediaPacket × Nat) : Prop :=
  ∃ n, ∀ fuel, n ≤ fuel → sendDue packets p fuel i = r

/-- `ptsMs` of the `i`-th packet. -/
def ptsOf (packets : List MediaPacket) (i : Nat) : Int := (packets[i]?.map (·.ptsMs.toInt)).getD 0

/-- The duration of a pass, at least 1. -/
def durationMs (packets : List MediaPacket) : Int := max 1 (ptsOf packets (packets.length - 1) - ptsOf packets 0)

/-- The pairs of a pass and a packet that are due at `t`. -/
def duePairs (packets : List MediaPacket) (t : Int) : Set (Nat × Nat) :=
  {x | x.2 < packets.length ∧ ptsOf packets x.2 - ptsOf packets 0 + x.1 * durationMs packets ≤ t}

/-- Whole doubles at the call after `k` ones. -/
def Exact (packets : List MediaPacket) (k : Nat) : Prop :=
  ptsOf packets (packets.length - 1) - ptsOf packets 0 + 10 * k < 2 ^ 53

theorem toDouble_small {n : Nat} (h : n ≤ 2 ^ 53) : toDouble n = n := by
  rcases Nat.lt_or_eq_of_le h with hlt | rfl
  · apply toDouble_eq_self
    by_cases h0 : n = 0
    · rw [h0]
      exact Nat.dvd_zero _
    · have hlog : n.log2 < 53 := (Nat.log2_lt h0).mpr hlt
      rw [Nat.sub_eq_zero_of_le (by omega), Nat.pow_zero]
      exact Nat.one_dvd n
  · decide

theorem clock_eq {n : Nat} (h : 10 * n ≤ 2 ^ 53) : clock n = 10 * n := by
  induction n with
  | zero => rfl
  | succ n ih => rw [clock, ih (by omega), ← Nat.mul_succ, toDouble_small h]

/-! ## The loop -/

theorem sendDue_enough {packets : List MediaPacket} {p b : Nat} (hb : ¬ Due packets p b) {fuel fuel' i : Nat}
    (hib : i ≤ b) (hfuel : b < i + fuel) (hle : fuel ≤ fuel') :
    sendDue packets p fuel' i = sendDue packets p fuel i := by
  induction fuel generalizing i fuel' with
  | zero => omega
  | succ fuel ih =>
    obtain ⟨m, rfl⟩ : ∃ m, fuel' = m + 1 := ⟨fuel' - 1, by omega⟩
    by_cases hdue : Due packets p i
    · obtain ⟨pkt, hpkt, h⟩ := sendDue_due fuel hdue
      obtain ⟨pkt', hpkt', h'⟩ := sendDue_due m hdue
      have hne : i ≠ b := by
        rintro rfl
        exact hb hdue
      rw [h, h', Option.some.inj (hpkt.symm.trans hpkt'), ih (by omega) (by omega) (by omega)]
    · rw [sendDue_break fuel hdue, sendDue_break m hdue]

/-- **A call terminates.** -/
theorem onTimerMp4_ends {packets : List MediaPacket} (hne : packets ≠ []) {n : Nat} {conn : Connection}
    (h : Played packets n conn) : Ends packets conn.playbackTimeMs conn.packetIndex
      ((onTimerMp4 packets conn).1, (onTimerMp4 packets conn).2.packetIndex) := by
  have hlen : packets.length ≠ 0 := fun h0 => hne (List.length_eq_zero_iff.mp h0)
  obtain ⟨b, hfuel, hb⟩ := dueFuel_covers hne (clock_le n)
  have hib : conn.packetIndex ≤ b := by
    by_contra hlt
    exact hb (h.sent b (Nat.not_le.mp hlt)).due
  refine ⟨dueFuel packets (clock n), fun fuel hle => ?_⟩
  simp only [onTimerMp4, if_neg hlen, h.playbackTimeMs]
  exact sendDue_enough hb hib (by omega) hle

/-- What the calls have sent. -/
theorem calls_played {packets : List MediaPacket} (hne : packets ≠ []) {conn : Connection} (hi : conn.packetIndex = 0)
    (ht : conn.playbackTimeMs = 0) (k : Nat) :
    let r := calls packets conn k
    Played packets k r.2 ∧ ¬ DueBy packets k r.2.packetIndex ∧
      r.1 = (List.range' 0 r.2.packetIndex).filterMap (cyclic packets) := by
  induction k with
  | zero =>
    refine ⟨⟨ht, fun j hj => ?_⟩, fun ⟨k, hk, _⟩ => Nat.not_lt_zero k hk, ?_⟩
    · simp only [calls, hi] at hj
      exact absurd hj (Nat.not_lt_zero j)
    · simp [calls, hi]
  | succ k ih =>
    obtain ⟨hplayed, -, hsent⟩ := ih
    obtain ⟨hplayed', hle, hnot, hpkts⟩ := onTimerMp4_played hne hplayed
    refine ⟨hplayed', hnot, ?_⟩
    simp only [calls] at hsent hpkts hle ⊢
    generalize (calls packets conn k).2 = conn at *
    have happend := @List.range'_append 0 conn.packetIndex ((onTimerMp4 packets conn).2.packetIndex - conn.packetIndex) 1
    rw [Nat.zero_add, Nat.one_mul, Nat.add_sub_cancel' hle] at happend
    rw [hsent, hpkts, ← List.filterMap_append, happend]

/-- The first packets of the cyclic order. -/
theorem cyclic_list {packets : List MediaPacket} (hne : packets ≠ []) (n : Nat) :
    ((List.range' 0 n).filterMap (cyclic packets)).length = n ∧
      ∀ i, i < n → ((List.range' 0 n).filterMap (cyclic packets))[i]? = packets[i % packets.length]? := by
  have hmod : ∀ i, i % packets.length < packets.length := fun i => Nat.mod_lt i (List.length_pos_iff.mpr hne)
  have hcyclic : cyclic packets = some ∘ fun i => packets.get ⟨i % packets.length, hmod i⟩ := by
    funext i
    exact getPacket_some (hmod i)
  rw [hcyclic, List.filterMap_eq_map]
  refine ⟨by simp, fun i hi => ?_⟩
  rw [List.getElem?_map, List.getElem?_range' (by omega), List.getElem?_eq_getElem (hmod i)]
  simp

/-! ## The schedule -/

theorem ptsOf_get {packets : List MediaPacket} {i : Nat} {pkt : MediaPacket} (h : packets[i]? = some pkt) :
    ptsOf packets i = pkt.ptsMs.toInt := by
  rw [ptsOf, h]
  rfl

theorem int64_sub {a b : Int64} (hle : b.toInt ≤ a.toInt) (hlt : a.toInt - b.toInt < 2 ^ 63) :
    (a - b).toInt = a.toInt - b.toInt := by
  rw [Int64.toInt_sub]
  exact Int.bmod_eq_of_le (by omega) (by omega)

theorem toUInt64_of_nonneg {a : Int64} (h : 0 ≤ a.toInt) : a.toUInt64.toNat = a.toInt.toNat := by
  rw [Int64.toNat_toUInt64_of_le (Int64.le_iff_toInt_le.mpr (by simpa using h)), ← Int64.toNat_toInt]

/-- The duration as the 64-bit factor. -/
theorem totalDurationMs_eq {first last : MediaPacket} (hle : first.ptsMs.toInt ≤ last.ptsMs.toInt)
    (hlt : last.ptsMs.toInt - first.ptsMs.toInt < 2 ^ 63) :
    (totalDurationMs first last).toUInt64.toNat = max 1 (last.ptsMs.toInt - first.ptsMs.toInt).toNat := by
  have hsub := int64_sub hle hlt
  have hzero : last.ptsMs - first.ptsMs ≤ 0 ↔ last.ptsMs.toInt - first.ptsMs.toInt ≤ 0 := by
    rw [Int64.le_iff_toInt_le, hsub]
    rfl
  unfold totalDurationMs
  by_cases h : last.ptsMs - first.ptsMs ≤ 0
  · have := hzero.mp h
    rw [if_pos h, Nat.max_eq_left (by omega)]
    rfl
  · have := mt hzero.mpr h
    rw [if_neg h, toUInt64_of_nonneg (by omega), hsub, Nat.max_eq_right (by omega)]

section
variable {packets : List MediaPacket} (hsorted : packets.Pairwise (·.ptsMs.toInt ≤ ·.ptsMs.toInt))
include hsorted

theorem ptsOf_mono {i j : Nat} (hij : i ≤ j) (hj : j < packets.length) : ptsOf packets i ≤ ptsOf packets j := by
  have hi := List.getElem?_eq_getElem (show i < packets.length by omega)
  have hj := List.getElem?_eq_getElem hj
  rw [ptsOf_get hi, ptsOf_get hj]
  exact sorted_le hsorted hi hj hij

variable (hne : packets ≠ [])

/-- The file as a periodic schedule. -/
def laps : Laps where
  len := packets.length
  offset i := (ptsOf packets i - ptsOf packets 0).toNat
  period := max 1 (ptsOf packets (packets.length - 1) - ptsOf packets 0).toNat
  len_pos := List.length_pos_iff.mpr hne
  period_pos := by omega
  offset_mono i j hij hj := by
    have := ptsOf_mono hsorted hij hj
    omega
  offset_le i hi := by
    have := ptsOf_mono hsorted (show i ≤ packets.length - 1 by omega) (by omega)
    omega

theorem duePairs_eq (p : Nat) : duePairs packets p = (laps hsorted hne).due p := by
  ext x
  refine and_congr_right fun hx => ?_
  have hnonneg := ptsOf_mono hsorted (Nat.zero_le x.2) hx
  have hoff : (((laps hsorted hne).offset x.2 : Nat) : Int) = ptsOf packets x.2 - ptsOf packets 0 :=
    Int.toNat_of_nonneg (by omega)
  have hper : (((laps hsorted hne).period : Nat) : Int) = durationMs packets := by
    simp only [laps, durationMs]
    omega
  rw [← hoff, ← hper]
  norm_cast

variable {k : Nat} (hexact : Exact packets k)
include hexact

/-- The 64-bit arithmetic computes the time of the schedule, modulo `2^64`. -/
theorem effectivePtsMs_eq (i : Nat) :
    effectivePtsMs packets i = some (toDouble (UInt64.ofNat ((laps hsorted hne).time i)).toNat) := by
  have hpos := List.length_pos_iff.mpr hne
  have hmod := Nat.mod_lt i hpos
  have hfirst : getPacket packets 0 = _ := getPacket_some hpos
  have hlast : getPacket packets (packets.length - 1) = _ := getPacket_some (by omega)
  have hpkt := getPacket_some hmod
  have hle := ptsOf_mono hsorted (Nat.zero_le (i % packets.length)) hmod
  have hle' := ptsOf_mono hsorted (show i % packets.length ≤ packets.length - 1 by omega) (by omega)
  rw [Exact] at hexact
  unfold effectivePtsMs
  generalize hf : packets.get ⟨0, hpos⟩ = first at hfirst
  generalize hl : packets.get ⟨packets.length - 1, _⟩ = last at hlast
  generalize hp : packets.get ⟨i % packets.length, hmod⟩ = pkt at hpkt
  have h0 : ptsOf packets 0 = _ := ptsOf_get hfirst
  have h1 : ptsOf packets (packets.length - 1) = _ := ptsOf_get hlast
  have h2 : ptsOf packets (i % packets.length) = _ := ptsOf_get hpkt
  have htime : (laps hsorted hne).time i = (pkt.ptsMs - first.ptsMs).toUInt64.toNat +
      i / packets.length * (totalDurationMs first last).toUInt64.toNat := by
    rw [totalDurationMs_eq (by omega) (by omega), toUInt64_of_nonneg, int64_sub (by omega) (by omega)]
    · simp only [Laps.time, laps]
      rw [h0, h1, h2]
    · rw [int64_sub (by omega) (by omega)]
      omega
  rw [hfirst, hlast, hpkt, htime]
  simp only [bind, Option.bind, pure, UInt64.ofNat_add, UInt64.ofNat_mul, UInt64.ofNat_toNat]

/-- Below `2^64`, what is due is what the schedule says. -/
theorem due_iff {p i : Nat} (hp : p < 2 ^ 53) (hi : (laps hsorted hne).time i < 2 ^ 64) :
    Due packets p i ↔ (laps hsorted hne).time i ≤ p := by
  have heff := effectivePtsMs_eq hsorted hne hexact i
  rw [UInt64.toNat_ofNat_of_lt' hi] at heff
  have hdue : Due packets p i ↔ toDouble ((laps hsorted hne).time i) ≤ p := by
    rw [Due, heff]
    simp
  rw [hdue]
  constructor
  · intro h
    by_contra hlt
    have hmono := toDouble_mono (show p + 1 ≤ (laps hsorted hne).time i by omega)
    rw [toDouble_small hp] at hmono
    omega
  · intro h
    have hmono := toDouble_mono h
    rwa [toDouble_small (Nat.le_of_lt hp)] at hmono

/-- A tick ends at the first packet that the schedule has not due. -/
theorem index_first {n : Nat} {conn : Connection} (hplayed : Played packets (n + 1) conn)
    (hnot : ¬ DueBy packets (n + 1) conn.packetIndex) (hn : n ≤ k) :
    (∀ i, i < conn.packetIndex → (laps hsorted hne).time i ≤ 10 * n) ∧ 10 * n < (laps hsorted hne).time conn.packetIndex := by
  have hspan := ptsOf_mono hsorted (Nat.zero_le (packets.length - 1)) (by have := List.length_pos_iff.mpr hne; omega)
  rw [Exact] at hexact
  have hclock : clock n = 10 * n := clock_eq (by omega)
  obtain ⟨m, hbefore, hat, hnear⟩ := (laps hsorted hne).exists_first (10 * n)
  have hsmall : (laps hsorted hne).time m < 2 ^ 64 := by
    have hzero : (laps hsorted hne).offset 0 = 0 := by simp [laps]
    have hper : (laps hsorted hne).period ≤ 2 ^ 53 := by
      simp only [laps]
      omega
    omega
  have hm : conn.packetIndex = m := by
    rcases Nat.lt_trichotomy conn.packetIndex m with hlt | heq | hgt
    · -- `packetIndex` would be due
      have hle := hbefore _ hlt
      have hdue := (due_iff hsorted hne hexact (show 10 * n < 2 ^ 53 by omega) (by omega)).mpr hle
      rw [← hclock] at hdue
      exact absurd ⟨n, Nat.lt_succ_self n, hdue⟩ hnot
    · exact heq
    · -- `m` would not be
      obtain ⟨j, hj, hdue⟩ := hplayed.sent m hgt
      have hdue' := hdue.mono (clock_mono (Nat.le_of_lt_succ hj))
      rw [hclock, due_iff hsorted hne hexact (by omega) hsmall] at hdue'
      omega
  rw [hm]
  exact ⟨hbefore, hat⟩

include hne in
/-- **The scheduler.** For a sorted file and values that are whole doubles,
the call after `k` calls terminates; then the index counts the pairs that are
due at `10 * k`, and the packets sent are the first so many of the cyclic
order. -/
theorem schedule_exact {conn : Connection} (hi : conn.packetIndex = 0) (ht : conn.playbackTimeMs = 0) :
    let before := (calls packets conn k).2
    let r := calls packets conn (k + 1)
    Ends packets before.playbackTimeMs before.packetIndex
        ((onTimerMp4 packets before).1, (onTimerMp4 packets before).2.packetIndex) ∧
      (duePairs packets (10 * k)).Finite ∧ (duePairs packets (10 * k)).ncard = r.2.packetIndex ∧
      r.1.length = r.2.packetIndex ∧ ∀ i, i < r.2.packetIndex → r.1[i]? = packets[i % packets.length]? := by
  obtain ⟨hplayed, -, -⟩ := calls_played hne hi ht k
  obtain ⟨hplayed', hnot, hsent⟩ := calls_played hne hi ht (k + 1)
  obtain ⟨hbefore, hat⟩ := index_first hsorted hne hexact hplayed' hnot (Nat.le_refl k)
  obtain ⟨hfinite, hcount⟩ := (laps hsorted hne).ncard_due hbefore hat
  have hpairs := duePairs_eq hsorted hne (10 * k)
  rw [Nat.cast_mul, Nat.cast_ofNat] at hpairs
  obtain ⟨hlen, hget⟩ := cyclic_list hne (calls packets conn (k + 1)).2.packetIndex
  refine ⟨onTimerMp4_ends hne hplayed, ?_, ?_, ?_, ?_⟩
  · rw [hpairs]
    exact hfinite
  · rw [hpairs]
    exact hcount
  · rw [hsent]
    exact hlen
  · rw [hsent]
    exact hget

end

/-- Three packets, two of them at the same time. -/
def threePackets : List MediaPacket := [⟨.video, [], 5⟩, ⟨.audio, [], 25⟩, ⟨.video, [], 25⟩]

theorem schedule_exact_three : threePackets ≠ [] ∧ threePackets.Pairwise (·.ptsMs.toInt ≤ ·.ptsMs.toInt) ∧
    Exact threePackets 4 ∧
    (duePairs threePackets (10 * (4 : Nat))).ncard =
      (calls threePackets { fd := 7, id := 1, state := .streaming } 5).2.packetIndex := by
  have hne : threePackets ≠ [] := by decide
  have hsorted : threePackets.Pairwise (·.ptsMs.toInt ≤ ·.ptsMs.toInt) := by decide
  have hexact : Exact threePackets 4 := by unfold Exact; decide
  exact ⟨hne, hsorted, hexact, (schedule_exact hsorted hne hexact rfl rfl).2.2.1⟩

end WebPlayer.L4.Media
