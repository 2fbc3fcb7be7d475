import WebPlayer.Core.Laps
import WebPlayer.L4App.AnnexB
import WebPlayer.L5Server.MediaDelivery

/-!
# The bytes of a raw stream, at the client

`LoadFile` cuts the file twice, `OnTimerRaw` puts the pieces of a unit
together, the encoder cuts them again, and the client's parser puts them
together: what comes out is the file from its first start code on, over and
over.

* `raw_bytes_delivered`: for every file that fits, in every run.
-/
namespace WebPlayer.L5.Server
open WebPlayer.Core WebPlayer.Core.Segments WebPlayer.L1.FrameEncoder WebPlayer.L1.FrameParser WebPlayer.L3.Session
  WebPlayer.L3.Tls WebPlayer.L3.Interleaving WebPlayer.L4.Media WebPlayer.L4.NalParser WebPlayer.L4.StreamTimer
  WebPlayer.L4.VideoServer

/-! ## The file -/

def unitBytes (au : AccessUnit) : Bytes := au.nalUnits.flatMap (·.data)

/-- The first start code that `ParseNalUnits` takes for one. -/
structure FirstCode (file : Bytes) (o : Nat) : Prop where
  le : o ≤ file.length
  code : o < file.length → MarkAt file o ∨ (file.getD o 0 = 0 ∧ MarkAt file (o + 1))
  before : ∀ j, 0 < j → j < o → j + 3 < file.length → ¬ MarkAt file j

/-- No byte behind the first start code is lost in the two passes. -/
theorem loadFile_bytes (isH265 : Bool) (file : Bytes) : ∃ o, FirstCode file o ∧
    (loadFile isH265 file).accessUnits.flatMap unitBytes = file.drop o := by
  have hunits : (loadFile isH265 file).accessUnits.flatMap unitBytes = (parseNalUnits file).flatMap (·.data) := by
    let groups := groupsFrom (isNewAU isH265) [] (parseNalUnits file)
    calc (groupIntoAccessUnits isH265 (parseNalUnits file)).flatMap unitBytes
        = groups.flatMap fun g => g.flatMap (·.data) := List.flatMap_map ..
      _ = (groups.flatMap id).flatMap (·.data) := List.flatMap_assoc.symm
      _ = (parseNalUnits file).flatMap (·.data) := by rw [List.flatMap_id, flatten_groupsFrom, List.nil_append]
  have hfirst : ∀ {o : Nat}, (∀ o' ∈ (serverMarks file).scan (file.length - 3) 0, o ≤ o') →
      ∀ j, 0 < j → j < o → j + 3 < file.length → ¬ MarkAt file j := by
    intro o hle j hpos hj hlen hmark
    have hnone := Marks.hit_eq_none (fun o' ho' => Nat.lt_of_lt_of_le hj (hle o' ho')) (Nat.zero_le j) (by omega)
    rw [hit_of_mark hpos hmark] at hnone
    cases hnone
  have hsorted := (serverMarks file).scan_sorted (n := file.length - 3) (i := 0)
  rw [hunits, parseNalUnits_eq, List.flatMap_map, List.flatMap_id']
  cases hos : (serverMarks file).scan (file.length - 3) 0 with
  | nil =>
    refine ⟨file.length, ⟨Nat.le_refl _, fun h => absurd h (Nat.lt_irrefl _), hfirst ?_⟩, ?_⟩
    · simp [hos]
    · rw [List.drop_length]
      rfl
  | cons o os =>
    have hmem : o ∈ (serverMarks file).scan (file.length - 3) 0 := by
      rw [hos]
      exact List.mem_cons_self
    have hbound := Marks.scan_bounds o hmem
    obtain ⟨k, hhit⟩ := Marks.hit_of_mem hmem
    rw [hos] at hsorted
    refine ⟨o, ⟨by omega, fun _ => (server_finds file).mark o k hhit, hfirst ?_⟩, flatten_cuts hsorted⟩
    intro o' ho'
    rw [hos] at ho'
    rcases List.mem_cons.mp ho' with rfl | ho'
    · exact Nat.le_refl _
    · exact Nat.le_of_lt (List.rel_of_pairwise_cons hsorted ho')

/-! ## At the client -/

/-- The payloads, one behind the other. -/
def framesBytes (frames : List ParsedFrame) : Bytes := frames.flatMap fun frame => frame.payload.getD []

theorem framesBytes_calls (calls : List EncodeCall) : framesBytes (calls.map callFrame) = (calls.map (·.payload)).flatten := by
  rw [framesBytes, List.flatMap_map, ← List.flatMap_def]
  apply List.flatMap_congr
  intro c _
  rw [callFrame]
  split
  · rename_i hnil
    rw [hnil]
    rfl
  · rfl

/-- The payloads of the calls of a raw session go round the units. -/
theorem payload_units {env : Env} {src : Source} (hraw : env.isMp4Mode = false) {calls : List EncodeCall}
    (hsource : ∀ k c, calls[k]? = some c → SourceCall env src k c) :
    ∀ k, k < calls.length → (calls.map (·.payload))[k]? =
      (src.accessUnits.map unitBytes)[k % (src.accessUnits.map unitBytes).length]? := by
  intro k hk
  have hcall := hsource k calls[k] (List.getElem?_eq_getElem hk)
  rw [SourceCall, hraw, if_neg Bool.false_ne_true] at hcall
  obtain ⟨au, hau, hc⟩ := hcall
  rw [List.length_map, List.getElem?_map, List.getElem?_map, List.getElem?_eq_getElem hk, hc]
  rw [cyclicUnit] at hau
  rw [hau]
  rfl

theorem flatten_laps (m : Nat) (units : List Bytes) :
    (List.replicate m units).flatten.flatten = (List.replicate m units.flatten).flatten := by
  rw [List.flatten_flatten, List.map_replicate]

/-- So many frames of a raw session are so many passes over the file. -/
theorem framesBytes_laps {env : Env} {src : Source} (hraw : env.isMp4Mode = false) {calls : List EncodeCall}
    (hsource : ∀ k c, calls[k]? = some c → SourceCall env src k c) {frames : List ParsedFrame}
    (hframes : frames <+: calls.map callFrame) {m : Nat} :
    (frames.length ≤ m * src.accessUnits.length →
      framesBytes frames <+: (List.replicate m (src.accessUnits.flatMap unitBytes)).flatten) ∧
    (frames.length = m * src.accessUnits.length →
      framesBytes frames = (List.replicate m (src.accessUnits.flatMap unitBytes)).flatten) := by
  have hlen : frames.length ≤ calls.length := by simpa using hframes.length_le
  have htake : frames = (calls.take frames.length).map callFrame := by
    rw [List.map_take]
    exact List.prefix_iff_eq_take.mp hframes
  have hcount : ((calls.take frames.length).map (·.payload)).length = frames.length := by simp [hlen]
  have hpre : frames.length ≤ m * src.accessUnits.length →
      (calls.take frames.length).map (·.payload) <+: (List.replicate m (src.accessUnits.map unitBytes)).flatten := by
    intro hm
    apply prefix_laps
    · rw [hcount, List.length_map]
      exact hm
    · rw [hcount]
      intro k hk
      rw [← payload_units hraw hsource k (by omega), List.map_take, List.getElem?_take_of_lt hk]
  rw [List.flatMap_def, ← flatten_laps]
  constructor
  · intro hm
    obtain ⟨more, hmore⟩ := hpre hm
    rw [htake, framesBytes_calls, ← hmore, List.flatten_append]
    exact List.prefix_append ..
  · intro hm
    have heq := (hpre (Nat.le_of_eq hm)).eq_of_length (by
      rw [hcount, List.length_flatten, List.map_replicate, List.sum_replicate, List.length_map, hm]
      rfl)
    rw [htake, framesBytes_calls, heq]

/-- **A raw file arrives.** In every run, for every session, the client's
parser completes the calls of the session whose messages reach it, and all of
them if every message was written whole; what it completes is, put together,
the file from its first start code on, lap after lap: a prefix of as many laps
as the frames need, and `m` whole laps after the frames of `m` laps. -/
theorem raw_bytes_delivered {τ : Type} {cfg : Config τ} {s : Sys τ} (h : (system cfg).Reachable s)
    (hraw : cfg.env.isMp4Mode = false) {file : Bytes} (hload : cfg.src.accessUnits = (loadFile cfg.env.isH265 file).accessUnits)
    (hfit : Fits cfg.src) (fd : Fd) (r : ParsedFrame) : ∃ o, FirstCode file o ∧
      ∀ session ∈ sessions (logOf fd s.net.log), ∃ (calls : List EncodeCall) (reports : List Report),
        FromFile cfg.env cfg.src session calls ∧ Delivered session calls r reports ∧
        ∀ m, ((results reports).length ≤ m * cfg.src.accessUnits.length →
            framesBytes (results reports) <+: (List.replicate m (file.drop o)).flatten) ∧
          ((results reports).length = m * cfg.src.accessUnits.length →
            framesBytes (results reports) = (List.replicate m (file.drop o)).flatten) := by
  obtain ⟨o, hfirst, hbytes⟩ := loadFile_bytes cfg.env.isH265 file
  refine ⟨o, hfirst, fun session hsession => ?_⟩
  obtain ⟨calls, -, hcalls⟩ := (reachable_delivering h fd).all session hsession
  obtain ⟨reports, hreports⟩ := hcalls.delivered hfit r
  refine ⟨calls, reports, hcalls, hreports, fun m => ?_⟩
  rw [← hbytes, ← hload]
  exact framesBytes_laps hraw hcalls.source hreports.completes.inOrder

/-- Two slices. -/
def rawFile : Bytes := [0, 0, 0, 1, 0x65, 0x88, 0, 0, 1, 0x41, 0x9A]

def rawConfig : Config Bytes :=
  { plainConfig with src := { plainConfig.src with accessUnits := (loadFile false rawFile).accessUnits } }

theorem rawTicks_fine : ∀ n, n < 3 → (plainTicks rawConfig n).crashed = false ∧
    ((plainTicks rawConfig n).user.connections 5).map (·.auIndex) = some n := by decide +kernel

/-- One lap and a half. -/
theorem reachable_rawTicks : (system rawConfig).Reachable ⟨plainTicks rawConfig 3, [], false⟩ := by
  have hnext : ∀ n, n < 3 → (system rawConfig).Reachable ⟨plainTicks rawConfig n, [], false⟩ →
      (system rawConfig).Reachable ⟨plainTicks rawConfig (n + 1), [], false⟩ := by
    intro n hn hreach
    obtain ⟨hcr, hview⟩ := rawTicks_fine n hn
    obtain ⟨conn, hconn, -⟩ := Option.map_eq_some_iff.mp hview
    exact reachable_tick hreach hcr hconn
  have hanswered : (system rawConfig).Reachable ⟨plainTicks rawConfig 0, [], false⟩ :=
    reachable_answered (by decide) (by decide) (by decide)
  exact hnext 2 (by decide) (hnext 1 (by decide) (hnext 0 (by decide) hanswered))

theorem raw_bytes_delivered_ticked : (sessions (logOf 5 (plainTicks rawConfig 3).log)).length = 1 ∧
    ∃ o, FirstCode rawFile o ∧
      ∀ session ∈ sessions (logOf 5 (plainTicks rawConfig 3).log), ∃ (calls : List EncodeCall) (reports : List Report),
        FromFile rawConfig.env rawConfig.src session calls ∧ Delivered session calls {} reports ∧
        ∀ m, ((results reports).length ≤ m * rawConfig.src.accessUnits.length →
            framesBytes (results reports) <+: (List.replicate m (rawFile.drop o)).flatten) ∧
          ((results reports).length = m * rawConfig.src.accessUnits.length →
            framesBytes (results reports) = (List.replicate m (rawFile.drop o)).flatten) := by
  have hfit : Fits rawConfig.src := by
    constructor
    · exact List.forall_mem_nil _
    · decide
  exact ⟨by decide +kernel, raw_bytes_delivered reachable_rawTicks rfl rfl hfit 5 {}⟩

end WebPlayer.L5.Server
