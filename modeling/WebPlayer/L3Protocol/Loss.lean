import WebPlayer.Core.Lts
import WebPlayer.L3Protocol.Interleaving

/-!
# Loss in front of the parser

The server numbers media frames with a 16-bit counter (`frameId_++`,
`server/main.cpp:447-482`) and sends their protocol frames in order; the
client's queue drops the oldest when it is full
(`js/buffer/DataBufferQueue.ts:47-59`), so the parser sees a subsequence. A
run delivers or drops the next protocol frame; allocations may fail, and a
call with undefined behaviour ends the run.

A slot is never timed out (`FRAGMENT_TIMEOUT_MS` has no use), so after 65536
frames a fragment can find the slot of an old frame under its id.

* `lossy_integrity`: as long as the first fragment of a frame that gets
  through finds no slot under its id, every completed frame is one that was
  encoded.
* `lossy_mixes_frames`: without that, two frames are mixed.
-/
namespace WebPlayer.L3.Loss
open WebPlayer.Core WebPlayer.L1.FrameEncoder WebPlayer.L1.FrameParser WebPlayer.L2.FragmentSlots
  WebPlayer.L2.Reassembler WebPlayer.L3.Interleaving

/-! ## The system -/

/-- A frame to send; `frameId_` numbers it. -/
structure MediaFrame where
  payload : Bytes
  media : Media
  timestampMs : Int64
  absTimeMs : Int64

def MediaFrame.call (f : MediaFrame) (frameId : UInt16) : EncodeCall :=
  { payload := f.payload, media := f.media, timestampMs := f.timestampMs, absTimeMs := f.absTimeMs, frameId }

/-- The calls of a run of the server, `frameId_` starting at 0. -/
def sendAll (frames : List MediaFrame) : List EncodeCall := frames.mapIdx fun k f => f.call (UInt16.ofNat k)

structure State (calls : List EncodeCall) where
  table : FragmentTable
  result : ParsedFrame
  todo : List (Delivery calls)
  delivered : List (Delivery calls)
  /-- the results returned with `FRAME_COMPLETE` -/
  completed : List ParsedFrame

inductive Label where
  | deliver (m : Mallocs)
  | drop

variable {calls : List EncodeCall}

/-- The state after the call on `d` returned. -/
def returned (s : State calls) (d : Delivery calls) (todo : List (Delivery calls))
    (x : FrameParseStatus × FragmentTable × ParsedFrame) : State calls where
  table := x.2.1
  result := x.2.2
  todo := todo
  delivered := s.delivered ++ [d]
  completed := if x.1 = .complete then s.completed ++ [x.2.2] else s.completed

def next (s : State calls) (l : Label) : Option (State calls) :=
  match s.todo, l with
  | [], _ => none
  | _ :: todo, .drop => some { s with todo }
  | d :: todo, .deliver m =>
    (frameProtocolParse m s.table s.result (bytes d)).toOption.map (returned s d todo)

def lossy (calls : List EncodeCall) : Lts (State calls) Label :=
  .ofFn (fun s => s.table = frameProtocolInit ∧ s.todo = deliveries calls ∧ s.delivered = [] ∧ s.completed = []) next

/-- The first fragment of a frame that gets through finds no slot of its id. -/
def NoStaleSlot (s : State calls) (l : Label) : Prop :=
  ∀ m d todo, l = .deliver m → s.todo = d :: todo → (calls.get d.1).Fragmented → ¬ Touches s.delivered d.1 →
    findFragmentEntry s.table (calls.get d.1).frameId = none

/-! ## Order -/

section
variable {past todo : List (Delivery calls)} {d : Delivery calls} (h : deliveries calls = past ++ d :: todo)
include h

/-- Only the call of `d` lies on both sides of it. -/
theorem eq_of_around {k : Fin calls.length} (hpast : Touches (past ++ [d]) k) (htodo : Touches todo k) :
    k = d.1 := by
  obtain ⟨-, hcons, hcross⟩ := List.pairwise_append.mp (h ▸ @deliveries_sorted calls)
  obtain ⟨e, he, rfl⟩ := htodo
  have hle : d.1 ≤ e.1 := (List.pairwise_cons.mp hcons).1 e he
  rcases touches_snoc.mp hpast with ⟨e', he', hk⟩ | hk
  · have : e'.1 ≤ d.1 := hcross e' he' d List.mem_cons_self
    exact Fin.le_antisymm (hk ▸ this) hle
  · exact hk.symm

theorem split_nodup : d ∉ past ∧ ∀ e ∈ todo, e ∉ past ++ [d] := by
  have hn := h ▸ @nodup_deliveries calls
  obtain ⟨-, hn2, hdis⟩ := List.nodup_append.mp hn
  refine ⟨fun hd => hdis d hd d List.mem_cons_self rfl, fun e he hin => ?_⟩
  rcases List.mem_append.mp hin with hin | hin
  · exact hdis e hin e (List.mem_cons_of_mem _ he) rfl
  · rw [List.mem_singleton.mp hin] at he
    exact (List.nodup_cons.mp hn2).1 he

end

/-! ## The invariant -/

/-- The map holds calls that were sent; the one in progress with what was
delivered of it. -/
structure Tracks (delivered todo : List (Delivery calls)) (A : Filed) : Prop where
  sent : ∀ id c S, A id = some (c, S) → c ∈ calls
  current : ∀ k, (calls.get k).Fragmented → Touches delivered k → Touches todo k →
    ∃ S, A (calls.get k).frameId = some (calls.get k, S) ∧ S ⊆ indices delivered k

structure Inv (s : State calls) : Prop where
  split : ∃ past, deliveries calls = past ++ s.todo ∧ s.delivered ⊆ past
  table : ∃ A, Represents ReceivingOrBroken s.table A ∧ Tracks s.delivered s.todo A
  completed : ∀ r ∈ s.completed, ∃ c ∈ calls, r = callFrame c

theorem inv_init {s : State calls} (h : (lossy calls).init s) : Inv s := by
  obtain ⟨htable, htodo, hdel, hcomp⟩ := h
  refine ⟨⟨[], by rw [htodo]; rfl, by rw [hdel]; exact List.Subset.refl _⟩,
    ⟨fun _ => none, htable ▸ represents_init _, nofun, fun k _ ht => ?_⟩, by rw [hcomp]; nofun⟩
  rw [hdel] at ht
  obtain ⟨_, hd, _⟩ := ht
  cases hd

theorem Tracks.drop {delivered todo : List (Delivery calls)} {d : Delivery calls} {A : Filed}
    (h : Tracks delivered (d :: todo) A) : Tracks delivered todo A :=
  ⟨h.sent, fun k hf hd ht => h.current k hf hd (touches_cons.mpr (.inr ht))⟩

section
variable (hb : ∀ c ∈ calls, c.payload.length ≤ maxPayload) {past delivered todo : List (Delivery calls)}
  {d : Delivery calls} (hsplit : deliveries calls = past ++ d :: todo) (hsub : delivered ⊆ past)
include hsplit hsub

/-- An unfragmented frame leaves the calls in progress alone. -/
theorem Tracks.single {A : Filed} (h : Tracks delivered (d :: todo) A) (hf : ¬ (calls.get d.1).Fragmented) :
    Tracks (delivered ++ [d]) todo A := by
  refine ⟨h.sent, fun k hk hdel htodo => ?_⟩
  have hne : k ≠ d.1 := by rintro rfl; exact hf hk
  have := eq_of_around hsplit (touches_snoc.mpr ((touches_snoc.mp hdel).imp_left
    fun ⟨e, he, hek⟩ => ⟨e, hsub he, hek⟩)) htodo
  exact absurd this hne

/-- After a fragment its call is the only one in progress. -/
theorem Tracks.fragment {A : Filed} (hsent : ∀ id c S, A id = some (c, S) → c ∈ calls)
    (h : Touches todo d.1 → ∃ S, A (calls.get d.1).frameId = some (calls.get d.1, S) ∧
      S ⊆ indices (delivered ++ [d]) d.1) : Tracks (delivered ++ [d]) todo A := by
  refine ⟨hsent, fun k _ hdel htodo => ?_⟩
  obtain rfl := eq_of_around hsplit (touches_snoc.mpr ((touches_snoc.mp hdel).imp_left
    fun ⟨e, he, hek⟩ => ⟨e, hsub he, hek⟩)) htodo
  exact h htodo

include hb

section
variable {g : FragmentTable} {A : Filed} (hg : Represents ReceivingOrBroken g A)
  (hA : Tracks delivered (d :: todo) A) {m : Mallocs} {r : ParsedFrame} {status : FrameParseStatus} {g' : FragmentTable}
  {r' : ParsedFrame} (hp : frameProtocolParse m g r (bytes d) = .ok (status, g', r'))
include hg hA hp

/-- A fragment of a call whose slot is there. -/
theorem known_tracks (hf : (calls.get d.1).Fragmented) (hfirst : Touches delivered d.1) :
    (∃ A', Represents ReceivingOrBroken g' A' ∧ Tracks (delivered ++ [d]) todo A') ∧
      (status = .complete → r' = callFrame (calls.get d.1)) := by
  have hd : d.2 < (calls.get d.1).encode.length := mem_deliveries.mp (by rw [hsplit]; simp)
  obtain ⟨hnew, hlater⟩ := split_nodup hsplit
  have hc := splits_of_fragmented hb d.1 hf
  rw [encode_length, if_pos hf] at hd
  rw [bytes_fragment hf hd] at hp
  obtain ⟨S, hS, hSsub⟩ := hA.current d.1 hf hfirst (touches_cons.mpr (.inl rfl))
  have hrange : S ⊆ Finset.range (fragments (calls.get d.1)) := by
    intro i hi
    have hin : (d.1, i) ∈ deliveries calls := by
      rw [hsplit]; exact List.mem_append_left _ (hsub (mem_indices.mp (hSsub hi)))
    have := mem_deliveries.mp hin
    rw [encode_length, if_pos hf] at this
    exact Finset.mem_range.mpr this
  have hdS : d.2 ∉ S := fun hi => hnew (hsub (mem_indices.mp (hSsub hi)))
  rcases parse_known_any hc hd m r hg hS hrange hdS with he | ⟨status', g₁, r₁, v, he, hg₁, hcomp, hv, hfull⟩
  · rw [he] at hp; cases hp
  rw [he] at hp
  cases hp
  refine ⟨⟨_, hg₁, Tracks.fragment hsplit hsub (fun id c S' hA' => ?_) fun htodo => ?_⟩, hcomp⟩
  · by_cases hid : id = (calls.get d.1).frameId
    · rw [hid, Function.update_self] at hA'
      rw [(hv c S' hA').1]
      exact List.get_mem ..
    · rw [Function.update_of_ne hid] at hA'
      exact hA.sent id c S' hA'
  · rw [Function.update_self]
    cases v with
    | none =>
      -- the slot was full, so nothing of the call is left
      exfalso
      obtain ⟨e, he, hek⟩ := htodo
      have hlt : e.2 < (calls.get e.1).encode.length := mem_deliveries.mp (by rw [hsplit]; simp [he])
      rw [hek, encode_length, if_pos hf] at hlt
      have hin : e.2 ∈ insert d.2 S := by rw [hfull rfl]; exact Finset.mem_range.mpr hlt
      refine hlater e he (List.mem_append.mpr ?_)
      rcases Finset.mem_insert.mp hin with h2 | h2
      · exact .inr (List.mem_singleton.mpr (Prod.ext hek h2))
      · have := hsub (mem_indices.mp (hSsub h2))
        rw [← hek] at this
        exact .inl this
    | some cS =>
      obtain ⟨hc', hS'⟩ := hv cS.1 cS.2 rfl
      refine ⟨cS.2, by rw [← hc'], fun i hi => ?_⟩
      rw [indices_snoc]
      exact Finset.insert_subset_insert _ hSsub (hS' hi)

/-- The first fragment of a call to arrive takes a slot. -/
theorem new_tracks (hf : (calls.get d.1).Fragmented) (hnone : findFragmentEntry g (calls.get d.1).frameId = none) :
    (∃ A', Represents ReceivingOrBroken g' A' ∧ Tracks (delivered ++ [d]) todo A') ∧
      (status = .complete → r' = callFrame (calls.get d.1)) := by
  have hd : d.2 < (calls.get d.1).encode.length := mem_deliveries.mp (by rw [hsplit]; simp)
  have hc := splits_of_fragmented hb d.1 hf
  rw [encode_length, if_pos hf] at hd
  rw [bytes_fragment hf hd] at hp
  have hunfiled := (SlotView.Represents.none_iff_find hg).mpr hnone
  rcases parse_new_any hc hd m r hg hunfiled with he | ⟨status', g₁, A₀, S', he, hne, hS', hg₁, hA₀⟩
  · rw [he] at hp; cases hp
  rw [he] at hp
  cases hp
  refine ⟨⟨_, hg₁, Tracks.fragment hsplit hsub (fun id c S'' hA' => ?_) fun _ => ?_⟩, fun h => absurd h hne⟩
  · by_cases hid : id = (calls.get d.1).frameId
    · rw [hid, Function.update_self] at hA'
      cases hA'
      exact List.get_mem ..
    · rw [Function.update_of_ne hid] at hA'
      rcases hA₀ id with h0 | h0
      · rw [h0] at hA'; cases hA'
      · exact hA.sent id c S'' (h0 ▸ hA')
  · refine ⟨S', Function.update_self .., fun i hi => ?_⟩
    rw [indices_snoc]
    exact Finset.mem_insert.mpr (.inl (Finset.mem_singleton.mp (hS' hi)))

/-- **One delivery.** It keeps the map, and what it completes was sent. -/
theorem deliver_tracks (hfresh : (calls.get d.1).Fragmented → ¬ Touches delivered d.1 →
      findFragmentEntry g (calls.get d.1).frameId = none) :
    (∃ A', Represents ReceivingOrBroken g' A' ∧ Tracks (delivered ++ [d]) todo A') ∧
      (status = .complete → r' = callFrame (calls.get d.1)) := by
  by_cases hf : (calls.get d.1).Fragmented
  · by_cases hfirst : Touches delivered d.1
    · exact known_tracks hb hsplit hsub hg hA hp hf hfirst
    · exact new_tracks hb hsplit hsub hg hA hp hf (hfresh hf hfirst)
  · have hd : d.2 < (calls.get d.1).encode.length := mem_deliveries.mp (by rw [hsplit]; simp)
    rw [encode_length, if_neg hf] at hd
    rw [bytes_single hf (by omega), parse_single hf] at hp
    split at hp <;> cases hp
    · exact ⟨⟨A, hg, hA.single hsplit hsub hf⟩, fun _ => rfl⟩
    · exact ⟨⟨A, hg, hA.single hsplit hsub hf⟩, nofun⟩

end

end

theorem next_cases {s s' : State calls} {l : Label} (h : next s l = some s') :
    ∃ d todo, s.todo = d :: todo ∧ (l = .drop ∧ s' = { s with todo } ∨
      ∃ m x, l = .deliver m ∧ frameProtocolParse m s.table s.result (bytes d) = .ok x ∧
        s' = returned s d todo x) := by
  unfold next at h
  split at h
  · cases h
  · rename_i d todo htodo
    exact ⟨d, todo, htodo, .inl ⟨rfl, (Option.some.inj h).symm⟩⟩
  · rename_i d todo m htodo
    obtain ⟨x, hx, rfl⟩ := Option.map_eq_some_iff.mp h
    refine ⟨d, todo, htodo, .inr ⟨m, x, rfl, ?_, rfl⟩⟩
    generalize frameProtocolParse m s.table s.result (bytes d) = p at hx
    cases p with
    | error _ => cases hx
    | ok y => exact congrArg Except.ok (Option.some.inj hx)

theorem inv_next (hb : ∀ c ∈ calls, c.payload.length ≤ maxPayload) {s s' : State calls} {l : Label} (hI : Inv s)
    (hstep : next s l = some s') (hfresh : NoStaleSlot s l) : Inv s' := by
  obtain ⟨⟨past, hsplit, hsub⟩, ⟨A, hg, hA⟩, hcomp⟩ := hI
  obtain ⟨d, todo, htodo, ⟨-, rfl⟩ | ⟨m, ⟨status, g', r'⟩, rfl, hp, rfl⟩⟩ := next_cases hstep
  · rw [htodo] at hsplit hA
    exact ⟨⟨past ++ [d], by simp [hsplit], fun e he => List.mem_append_left _ (hsub he)⟩, ⟨A, hg, hA.drop⟩, hcomp⟩
  · rw [htodo] at hsplit hA
    obtain ⟨hA', hdone⟩ := deliver_tracks hb hsplit hsub hg hA hp (hfresh m d todo rfl htodo)
    refine ⟨⟨past ++ [d], by simp [hsplit, returned], fun e he => ?_⟩, hA', fun r hr => ?_⟩
    · rcases List.mem_append.mp he with he | he
      · exact List.mem_append_left _ (hsub he)
      · exact List.mem_append_right _ he
    · simp only [returned] at hr
      split at hr
      · rename_i hst
        rcases List.mem_append.mp hr with hr | hr
        · exact hcomp r hr
        · exact ⟨_, List.get_mem .., (List.mem_singleton.mp hr).trans (hdone hst)⟩
      · exact hcomp r hr

theorem inv_inductive (hb : ∀ c ∈ calls, c.payload.length ≤ maxPayload) :
    ((lossy calls).restrict NoStaleSlot).Inductive Inv where
  init _ := inv_init
  step _ _ _ hI h := inv_next hb hI h.1 h.2

/-! ## Integrity -/

theorem step_drop {s : State calls} {d : Delivery calls} {todo : List (Delivery calls)} (h : s.todo = d :: todo) :
    (lossy calls).step s .drop { s with todo } := by
  show next s .drop = _
  unfold next
  rw [h]

theorem next_deliver {s : State calls} {d : Delivery calls} {todo : List (Delivery calls)} (h : s.todo = d :: todo)
    (m : Mallocs) : next s (.deliver m) =
      (frameProtocolParse m s.table s.result (bytes d)).toOption.map (returned s d todo) := by
  unfold next
  rw [h]

theorem step_deliver {s : State calls} {d : Delivery calls} {todo : List (Delivery calls)} (h : s.todo = d :: todo)
    {m : Mallocs} {x : FrameParseStatus × FragmentTable × ParsedFrame}
    (hp : frameProtocolParse m s.table s.result (bytes d) = .ok x) :
    (lossy calls).step s (.deliver m) (returned s d todo x) := by
  have hnext := next_deliver h m
  rw [hp] at hnext
  exact hnext

/-- Every stored piece of the slot is the piece of one call. -/
def OfOneCall (calls : List EncodeCall) (e : FragmentEntry) : Prop :=
  ∃ c ∈ calls, ∀ xs j p, e.fragmentData = some xs → xs[j]? = some (some p) → p = chunk c.payload j

theorem ofOneCall_of_holds {c : EncodeCall} {S : Finset Nat} {e : FragmentEntry} (hc : c ∈ calls)
    (h : ReceivingOrBroken (c, S) e) : OfOneCall calls e := by
  refine ⟨c, hc, fun xs j p hxs hj => ?_⟩
  rcases h with ⟨info, rfl, -⟩ | ⟨-, m, info, rfl, -⟩
  · cases hxs
    obtain ⟨hlt, hget⟩ := List.getElem?_eq_some_iff.mp hj
    simp only [List.getElem_map, List.getElem_range] at hget
    split at hget
    · exact (Option.some.inj hget).symm
    · cases hget
  · -- a fresh array has only NULL buffers
    simp only [newEntry] at hxs
    split at hxs
    · simp only [calloc] at hxs
      split at hxs
      · cases hxs
        cases List.eq_of_mem_replicate (List.mem_of_getElem? hj)
      · cases hxs
    · cases hxs

theorem length_sendAll (frames : List MediaFrame) : (sendAll frames).length = frames.length := by
  simp [sendAll]

theorem mem_sendAll {frames : List MediaFrame} {c : EncodeCall} (h : c ∈ sendAll frames) :
    ∃ f ∈ frames, c.payload = f.payload := by
  obtain ⟨k, hk, rfl⟩ := List.mem_mapIdx.mp h
  exact ⟨frames[k], List.getElem_mem hk, rfl⟩

/-- **Integrity under loss.** In a run where the first fragment of a frame
that gets through never finds a slot of its id, whatever the parser
completes is one encoded frame, and no slot mixes two. -/
theorem lossy_integrity (frames : List MediaFrame) (hb : ∀ f ∈ frames, f.payload.length ≤ 4 * 2 ^ 20)
    {s : State (sendAll frames)} (h : ((lossy (sendAll frames)).restrict NoStaleSlot).Reachable s) :
    (∀ r ∈ s.completed, ∃ c ∈ sendAll frames, r = callFrame c) ∧
      ∀ e ∈ s.table.slots, e.active = true → OfOneCall (sendAll frames) e := by
  have hb' : ∀ c ∈ sendAll frames, c.payload.length ≤ maxPayload := by
    intro c hc
    obtain ⟨f, hf, hp⟩ := mem_sendAll hc
    rw [hp]
    exact hb f hf
  obtain ⟨-, ⟨A, hg, hA⟩, hcomp⟩ := (inv_inductive hb').reachable h
  refine ⟨hcomp, fun e he ha => ?_⟩
  obtain ⟨t, ht⟩ := List.mem_iff_getElem?.mp he
  obtain ⟨⟨c, S⟩, hcS, hholds⟩ := hg.slot t e ht ha
  exact ofOneCall_of_holds (hA.sent _ c S hcS) hholds

/-- A frame of two fragments, the first all `b`. -/
def longFrame (b : UInt8) : MediaFrame where
  payload := List.replicate 16385 b
  media := .video .h264 .idr
  timestampMs := 0
  absTimeMs := 0

theorem length_longFrame (b : UInt8) (id : UInt16) : ((longFrame b).call id).payload.length = 16385 :=
  List.length_replicate

theorem longFrame_splits (b : UInt8) (id : UInt16) :
    Splits ((longFrame b).call id) ∧ (totalFragments ((longFrame b).call id).payload).toNat = 2 := by
  have hlen := length_longFrame b id
  refine ⟨⟨?_, ?_⟩, ?_⟩
  · rw [EncodeCall.Fragmented, hlen]; decide
  · rw [hlen]; decide
  · rw [totalFragments, hlen]; rfl

section
variable {c c' : EncodeCall}

theorem deliveries_two (hc : Splits c) (hc' : Splits c') (h2 : fragments c = 2) (h2' : fragments c' = 2) :
    deliveries [c, c'] = [(0, 0), (0, 1), (1, 0), (1, 1)] := by
  have hlen : c.encode.length = 2 := by rw [encode_length, if_pos hc.fragmented]; exact h2
  have hlen' : c'.encode.length = 2 := by rw [encode_length, if_pos hc'.fragmented]; exact h2'
  have hcalls : List.finRange [c, c'].length = [0, 1] := rfl
  have hrange : List.range 2 = [0, 1] := rfl
  rw [deliveries, hcalls]
  simp [hlen, hlen', hrange]

/-- A slot taken first is not that of another frame. -/
theorem find_other (hid : c.frameId ≠ c'.frameId) (S : Finset Nat) (info : FrameMeta) :
    findFragmentEntry (frameProtocolInit.set 0 (entryOf c S info)) c'.frameId = none := by
  refine List.findIdx?_eq_none_iff.mpr fun e he => ?_
  rcases List.mem_or_eq_of_mem_set he with he | rfl
  · rw [List.eq_of_mem_replicate he]
    rfl
  · simp [entryOf, hid]

/-- Its own is found behind it. -/
theorem find_second (hid : c.frameId ≠ c'.frameId) (S S' : Finset Nat) (info info' : FrameMeta) :
    findFragmentEntry ((frameProtocolInit.set 0 (entryOf c S info)).set 1 (entryOf c' S' info')) c'.frameId = some 1 := by
  show List.findIdx? _ (entryOf c S info :: entryOf c' S' info' :: List.replicate 14 {}) = some 1
  simp [List.findIdx?_cons, entryOf, hid]

/-- The run that loses the second fragment of the first of two calls. -/
theorem reachable_second (hc : Splits c) (hc' : Splits c') (h2 : fragments c = 2) (h2' : fragments c' = 2)
    (hid : c.frameId ≠ c'.frameId) : ∃ s : State [c, c'], ((lossy [c, c']).restrict NoStaleSlot).Reachable s ∧
      s.delivered = [(0, 0), (1, 0), (1, 1)] ∧ s.completed = [callFrame c'] := by
  let s₀ : State [c, c'] :=
    { table := frameProtocolInit, result := {}, todo := deliveries [c, c'], delivered := [], completed := [] }
  have hinit : ((lossy [c, c']).restrict NoStaleSlot).init s₀ := ⟨rfl, rfl, rfl, rfl⟩
  have htodo : s₀.todo = [(0, 0), (0, 1), (1, 0), (1, 1)] := deliveries_two hc hc' h2 h2'
  have hbytes : ∀ i, i < 2 → bytes ((0, i) : Delivery [c, c']) = fragmentFrame c i := fun i hi =>
    bytes_fragment (d := ((0, i) : Delivery [c, c'])) hc.fragmented (h2 ▸ hi)
  have hbytes' : ∀ i, i < 2 → bytes ((1, i) : Delivery [c, c']) = fragmentFrame c' i := fun i hi =>
    bytes_fragment (d := ((1, i) : Delivery [c, c'])) hc'.fragmented (h2' ▸ hi)
  -- fragment 0 of the first call opens slot 0, fragment 1 is lost
  have hfirst := deliver_new hc (i := 0) (by omega) {} frameProtocolInit {} (by rfl) rfl
  rw [if_pos rfl, ← hbytes 0 (by omega)] at hfirst
  have h₁ := (Lts.reachable_init hinit).step ⟨step_deliver htodo hfirst, fun m d todo _ _ _ _ => by rfl⟩
  have h₂ := h₁.step ⟨step_drop rfl, nofun⟩
  -- fragment 0 of the second finds no slot and takes slot 1, fragment 1 completes it
  have hfree := find_other hid {0} (infoAfter c 0 {})
  have hnew := deliver_new hc' (i := 0) (by omega) {} _ {} hfree rfl
  rw [if_pos rfl, ← hbytes' 0 (by omega)] at hnew
  have h₃ := h₂.step ⟨step_deliver rfl hnew, fun m d todo _ htodo _ _ => by cases htodo; exact hfree⟩
  have hinfo : 0 ∈ ({0} : Finset Nat) → callInfo c' = callInfo c' := fun _ => rfl
  have hlast := deliver_known hc' (i := 1) (by omega) {} _ {} (by simp [h2']) (by simp) hinfo
    (find_second hid {0} {0} (infoAfter c 0 {}) (callInfo c')) rfl
  have hall : insert 1 {0} = Finset.range (fragments c') := by rw [h2']; decide
  rw [afterFragment, if_neg (Bool.noConfusion), if_pos hall, if_pos rfl, ← hbytes' 1 (by omega)] at hlast
  have h₄ := h₃.step ⟨step_deliver rfl hlast, fun m d todo _ htodo _ htouch => by
    cases htodo
    exact absurd ⟨(1, 0), by simp [returned], rfl⟩ htouch⟩
  exact ⟨_, h₄, rfl, rfl⟩

end

/-- Of the first frame the second fragment is lost. -/
def lossyFrames : List MediaFrame := [longFrame 0xAA, longFrame 0xBB]

theorem lossy_integrity_sample : ∃ s, ((lossy (sendAll lossyFrames)).restrict NoStaleSlot).Reachable s ∧
    s.delivered.map (fun d => (d.1.val, d.2)) = [(0, 0), (1, 0), (1, 1)] ∧
    s.completed = [callFrame ((longFrame 0xBB).call 1)] ∧
    (∀ r ∈ s.completed, ∃ c ∈ sendAll lossyFrames, r = callFrame c) ∧
    ∀ e ∈ s.table.slots, e.active = true → OfOneCall (sendAll lossyFrames) e := by
  obtain ⟨hc, h2⟩ := longFrame_splits 0xAA 0
  obtain ⟨hc', h2'⟩ := longFrame_splits 0xBB 1
  obtain ⟨s, hreach, hdel, hcomp⟩ := reachable_second hc hc' h2 h2' (by decide)
  have hb : ∀ f ∈ lossyFrames, f.payload.length ≤ 4 * 2 ^ 20 := by
    intro f hf
    have hlen : f.payload.length = 16385 := by
      rcases List.mem_pair.mp hf with rfl | rfl
      · exact length_longFrame 0xAA 0
      · exact length_longFrame 0xBB 1
    omega
  exact ⟨s, hreach, by rw [hdel]; rfl, hcomp, lossy_integrity lossyFrames hb hreach⟩

/-! ## A stale slot

Frame 0 loses its second fragment, frame 65536 its first. -/

theorem drops_run (l : List (Delivery calls)) {s : State calls} {rest : List (Delivery calls)}
    (h : s.todo = l ++ rest) : (lossy calls).Run s (l.map fun _ => .drop) { s with todo := rest } := by
  induction l generalizing s with
  | nil =>
    have hs : { s with todo := rest } = s := by rw [← List.nil_append rest, ← h]
    rw [hs]
    exact Lts.Run.nil s
  | cons d l ih =>
    have hrun := ih (s := { s with todo := l ++ rest }) rfl
    exact Lts.Run.cons (step_drop h) hrun

/-- The run that delivers two protocol frames and drops the others before. -/
theorem reachable_two {a b : Delivery calls} {l₁ l₂ l₃ : List (Delivery calls)}
    (hdel : deliveries calls = l₁ ++ a :: (l₂ ++ b :: l₃)) {x y : FrameParseStatus × FragmentTable × ParsedFrame}
    (hx : frameProtocolParse {} frameProtocolInit {} (bytes a) = .ok x)
    (hy : frameProtocolParse {} x.2.1 x.2.2 (bytes b) = .ok y) (hdone : y.1 = .complete) :
    ∃ s, (lossy calls).Reachable s ∧ y.2.2 ∈ s.completed := by
  let s₀ : State calls :=
    { table := frameProtocolInit, result := {}, todo := deliveries calls, delivered := [], completed := [] }
  have r₁ := drops_run l₁ (s := s₀) hdel
  have r₂ := r₁.snoc (step_deliver rfl hx)
  have r₃ := r₂.append (drops_run l₂ rfl)
  have r₄ := r₃.snoc (step_deliver rfl hy)
  refine ⟨_, ⟨s₀, _, ⟨rfl, rfl, rfl, rfl⟩, r₄⟩, ?_⟩
  simp only [returned, if_pos hdone]
  exact List.mem_append_right _ (List.mem_singleton.mpr rfl)

/-- The slot of a two-fragment `c` with the second fragment of `c'`. -/
def mixedEntry (c c' : EncodeCall) : FragmentEntry where
  frameId := c.frameId
  totalFragments := totalFragments c.payload
  receivedCount := 2
  fragmentData := some [some (chunk c.payload 0), some (chunk c'.payload 1)]
  fragmentSizes := some [UInt32.ofNat (chunk c.payload 0).length, UInt32.ofNat (chunk c'.payload 1).length]
  fragmentPresent := some [true, true]
  info := callInfo c
  active := true

def mixedFrame (c c' : EncodeCall) : ParsedFrame where
  info := callInfo c
  payload := some (chunk c.payload 0 ++ chunk c'.payload 1)
  payloadSize := UInt32.ofNat (chunk c.payload 0).length + UInt32.ofNat (chunk c'.payload 1).length

section
variable {c c' : EncodeCall} (h2 : (totalFragments c.payload).toNat = 2)
include h2

theorem store_foreign {h : FixedHeader} {f : ExtFields} {data : Bytes} (hf : FragmentOf c' 1 h f data) :
    storeFragment {} h data 1 (entryOf c {0} (callInfo c)) = .ok (true, mixedEntry c c') := by
  have hrange : List.range 2 = [0, 1] := rfl
  unfold storeFragment mixedEntry
  simp only [entryOf, fragments, h2, hrange, List.map_cons, List.map_nil]
  simp [arrGet, arrSet, hf.payload, hf.payloadLength]

theorem reassemble_mixed : reassembleFragments {} (mixedEntry c c') =
    .ok (some (chunk c.payload 0 ++ chunk c'.payload 1, (mixedFrame c c').payloadSize)) := by
  have hs0 := chunk_size c.payload 0
  have hs1 := chunk_size c'.payload 1
  have hl0 : (chunk c.payload 0).length ≤ 16384 := chunk_length_le c.payload 0
  have hl1 : (chunk c'.payload 1).length ≤ 16384 := chunk_length_le c'.payload 1
  have htotal : (UInt32.ofNat (chunk c.payload 0).length + UInt32.ofNat (chunk c'.payload 1).length).toNat =
      (chunk c.payload 0).length + (chunk c'.payload 1).length := by
    rw [UInt32.toNat_add, hs0, hs1, Nat.mod_eq_of_lt (by omega)]
  have hrange : List.range 2 = [0, 1] := rfl
  unfold reassembleFragments mixedEntry mixedFrame
  simp only [h2, hrange]
  simp [arrGet, copyFragment, hs0, hs1, htotal]

/-- The second fragment of `c'` completes a slot that has the first of `c`. -/
theorem file_foreign {h : FixedHeader} {f : ExtFields} {data : Bytes} (hf : FragmentOf c' 1 h f data)
    {g : FragmentTable} {slot : Nat} (hslot : g.slots.getD slot {} = entryOf c {0} (callInfo c)) (r : ParsedFrame) :
    fileFragment {} g r h f data slot =
      .ok (.complete, g.set slot (freeFragmentEntry (mixedEntry c c')), mixedFrame c c') := by
  have hidx : f.fragIndex.toNat = 1 := by rw [hf.fragIndex]; rfl
  have hne : f.fragIndex ≠ 0 := by
    intro h0
    rw [h0] at hidx
    cases hidx
  have hcount : (mixedEntry c c').totalFragments.toNat ≤ (mixedEntry c c').receivedCount.toNat := by
    show (totalFragments c.payload).toNat ≤ 2
    omega
  unfold fileFragment
  simp only [hslot, if_neg hne, hidx, store_foreign h2 hf, ok_bind, Bool.not_true, Bool.false_eq_true,
    if_false, if_pos hcount, reassemble_mixed h2]
  rfl

end

/-- Two long frames with 65535 empty audio frames in between. -/
def staleFrames : List MediaFrame :=
  longFrame 0xAA ::
    (List.replicate 65535 { payload := [], media := .audio .g711a .rate8000 1, timestampMs := 0, absTimeMs := 0 } ++
      [longFrame 0xBB])

theorem length_staleFrames : (sendAll staleFrames).length = 65537 := by
  rw [length_sendAll, staleFrames, List.length_cons, List.length_append, List.length_replicate]
  rfl

def staleFirst : Fin (sendAll staleFrames).length := ⟨0, by rw [length_staleFrames]; decide⟩

def staleLast : Fin (sendAll staleFrames).length := ⟨65536, by rw [length_staleFrames]; decide⟩

theorem get_staleFirst : (sendAll staleFrames).get staleFirst = (longFrame 0xAA).call 0 := by
  rw [List.get_eq_getElem]
  simp only [sendAll, List.getElem_mapIdx, staleFirst, staleFrames, List.getElem_cons_zero]
  rfl

theorem get_staleLast : (sendAll staleFrames).get staleLast = (longFrame 0xBB).call 0 := by
  have hlast : ∀ (n : Nat) (x y z : MediaFrame), (x :: (List.replicate n y ++ [z]))[n + 1]? = some z := by
    intro n x y z
    rw [List.getElem?_cons_succ, List.getElem?_append_right (by rw [List.length_replicate]), List.length_replicate,
      Nat.sub_self]
    rfl
  have hget : staleFrames[65536]? = some (longFrame 0xBB) := hlast 65535 _ _ _
  have : (sendAll staleFrames)[65536]? = some ((longFrame 0xBB).call 0) := by
    rw [sendAll, List.getElem?_mapIdx, hget]
    rfl
  exact (List.getElem?_eq_some_iff.mp this).2

theorem mixed_payload : (mixedFrame ((longFrame 0xAA).call 0) ((longFrame 0xBB).call 0)).payload =
    some (List.replicate 16384 0xAA ++ [0xBB]) := by
  have h0 : chunk ((longFrame 0xAA).call 0).payload 0 = List.replicate 16384 0xAA := by
    simp only [chunk, longFrame, MediaFrame.call, Nat.zero_mul, List.drop_zero, List.take_replicate]
    rfl
  have h1 : chunk ((longFrame 0xBB).call 0).payload 1 = [0xBB] := by
    simp only [chunk, longFrame, MediaFrame.call, List.drop_replicate, List.take_replicate]
    rfl
  rw [mixedFrame, h0, h1]

/-- No call carries the mixed payload. -/
theorem mixed_not_sent {c : EncodeCall} (hc : c ∈ sendAll staleFrames) :
    mixedFrame ((longFrame 0xAA).call 0) ((longFrame 0xBB).call 0) ≠ callFrame c := by
  intro heq
  obtain ⟨f, hf, hp⟩ := mem_sendAll hc
  have hpay := congrArg ParsedFrame.payload heq
  rw [mixed_payload, callFrame, hp] at hpay
  have hne : f.payload = List.replicate 16384 0xAA ++ [0xBB] := by
    dsimp only at hpay
    split at hpay
    · cases hpay
    · exact (Option.some.inj hpay).symm
  rw [staleFrames, List.mem_cons, List.mem_append, List.mem_replicate, List.mem_singleton] at hf
  have hmem : (0xAA : UInt8) ∈ f.payload ∧ (0xBB : UInt8) ∈ f.payload := by
    rw [hne]
    exact ⟨List.mem_append_left _ (List.mem_replicate.mpr ⟨by decide, rfl⟩), List.mem_append_right _ (List.mem_singleton.mpr rfl)⟩
  rcases hf with rfl | ⟨-, rfl⟩ | rfl
  · exact absurd (List.eq_of_mem_replicate hmem.2) (by decide)
  · cases hmem.1
  · exact absurd (List.eq_of_mem_replicate hmem.1) (by decide)

theorem bytes_staleFirst : bytes ((staleFirst, 0) : Delivery (sendAll staleFrames)) =
    fragmentFrame ((longFrame 0xAA).call 0) 0 := by
  obtain ⟨hc, h2⟩ := longFrame_splits 0xAA 0
  have hbytes := bytes_fragment (d := ((staleFirst, 0) : Delivery (sendAll staleFrames)))
  rw [show ((staleFirst, 0) : Delivery (sendAll staleFrames)).1 = staleFirst from rfl, get_staleFirst] at hbytes
  exact hbytes hc.fragmented (by unfold fragments; omega)

theorem bytes_staleLast : bytes ((staleLast, 1) : Delivery (sendAll staleFrames)) =
    fragmentFrame ((longFrame 0xBB).call 0) 1 := by
  obtain ⟨hc, h2⟩ := longFrame_splits 0xBB 0
  have hbytes := bytes_fragment (d := ((staleLast, 1) : Delivery (sendAll staleFrames)))
  rw [show ((staleLast, 1) : Delivery (sendAll staleFrames)).1 = staleLast from rfl, get_staleLast] at hbytes
  exact hbytes hc.fragmented (by unfold fragments; omega)

theorem deliveries_stale : ∃ l₁ l₂ l₃, deliveries (sendAll staleFrames) =
    l₁ ++ (staleFirst, 0) :: (l₂ ++ (staleLast, 1) :: l₃) := by
  have hfirst : ((staleFirst, 0) : Delivery (sendAll staleFrames)) ∈ deliveries (sendAll staleFrames) := by
    rw [mem_deliveries]
    show 0 < ((sendAll staleFrames).get staleFirst).encode.length
    rw [get_staleFirst, encode_length, if_pos (longFrame_splits _ _).1.fragmented, (longFrame_splits _ _).2]
    decide
  have hlast : ((staleLast, 1) : Delivery (sendAll staleFrames)) ∈ deliveries (sendAll staleFrames) := by
    rw [mem_deliveries]
    show 1 < ((sendAll staleFrames).get staleLast).encode.length
    rw [get_staleLast, encode_length, if_pos (longFrame_splits _ _).1.fragmented, (longFrame_splits _ _).2]
    decide
  obtain ⟨l₁, rest, hl₁⟩ := List.append_of_mem hfirst
  -- the last call comes after the first
  have hrest : ((staleLast, 1) : Delivery (sendAll staleFrames)) ∈ rest := by
    rw [hl₁] at hlast
    have hlt : staleFirst < staleLast := by simp [staleFirst, staleLast, Fin.lt_def]
    rcases List.mem_append.mp hlast with h | h
    · obtain ⟨-, -, hcross⟩ := List.pairwise_append.mp (hl₁ ▸ deliveries_sorted)
      exact absurd (hcross _ h _ List.mem_cons_self) (not_le_of_gt hlt)
    · rcases List.mem_cons.mp h with h | h
      · exact absurd (congrArg Prod.fst h) (ne_of_gt hlt)
      · exact h
  obtain ⟨l₂, l₃, hl₂⟩ := List.append_of_mem hrest
  exact ⟨l₁, l₂, l₃, by rw [hl₁, hl₂]⟩

/-- **A stale slot is taken.** Frames 0 and 65536 share the id 0; with one
fragment of each the parser completes a frame that was never encoded. -/
theorem lossy_mixes_frames : (∀ f ∈ staleFrames, f.payload.length ≤ 4 * 2 ^ 20) ∧
    ∃ s, (lossy (sendAll staleFrames)).Reachable s ∧
      ∃ r ∈ s.completed, ∀ c ∈ sendAll staleFrames, r ≠ callFrame c := by
  refine ⟨fun f hf => ?_, ?_⟩
  · rw [staleFrames, List.mem_cons, List.mem_append, List.mem_replicate, List.mem_singleton] at hf
    rcases hf with rfl | ⟨-, rfl⟩ | rfl
    · rw [show (longFrame 0xAA).payload.length = 16385 from List.length_replicate]; decide
    · decide
    · rw [show (longFrame 0xBB).payload.length = 16385 from List.length_replicate]; decide
  obtain ⟨hc, h2⟩ := longFrame_splits 0xAA 0
  obtain ⟨hc', h2'⟩ := longFrame_splits 0xBB 0
  obtain ⟨l₁, l₂, l₃, hdel⟩ := deliveries_stale
  -- the first fragment of frame 0 opens slot 0
  have hfirst := deliver_new hc (i := 0) (by unfold fragments; omega) {} frameProtocolInit {} (by rfl) rfl
  rw [if_pos rfl, ← bytes_staleFirst] at hfirst
  -- the second fragment of frame 65536 finds it
  obtain ⟨h, f, hf, hlast⟩ := deliver_found hc' {}
    (frameProtocolInit.set (allocSlot frameProtocolInit) (entryOf ((longFrame 0xAA).call 0) {0} (callInfo _))) {} 1
    (k := 0) (by rfl)
  rw [file_foreign h2 hf (by rfl), ← bytes_staleLast] at hlast
  obtain ⟨s, hs, hcomp⟩ := reachable_two hdel hfirst hlast rfl
  exact ⟨s, hs, _, hcomp, fun c hc => mixed_not_sent hc⟩

end WebPlayer.L3.Loss
