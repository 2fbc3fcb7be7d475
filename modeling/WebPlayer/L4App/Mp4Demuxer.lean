import WebPlayer.Core.StdSort
import WebPlayer.L4App.Media

/-!
# The MP4 demuxer (`server/mp4_demuxer.cpp`)

`LoadFile` reads every packet of the first video and the first audio stream,
video through a bitstream filter, and sorts them by PTS. The frame rate is the
quotient that `av_q2d` takes.

**libav (`AvFile`, a parameter).** Which of its calls succeed, the streams, the
packets that are read and what the filter makes of each, and `av_rescale_q` to
milliseconds: any answers whatever.

**`std::sort`.** It may put equal keys in any order, so `LoadFile` is a
relation.

**Results.**
* `loadFile_packets`: the packets are those delivered, sorted, and keep the
  order of a stream iff its PTS ascend.
-/
namespace WebPlayer.L4.Mp4Demuxer
open WebPlayer.Core WebPlayer.L3.Session WebPlayer.L4.Media

/-! ## What libav gives -/

inductive AvMediaType where
  | video | audio | other
  deriving DecidableEq, Repr

inductive AvCodecId where
  | hevc | aac | pcmAlaw | pcmMulaw | adpcmG726 | other
  deriving DecidableEq, Repr

structure AvRational where
  num : Int
  den : Int
  deriving DecidableEq, Repr

structure AvStream where
  codecType : AvMediaType
  codecId : AvCodecId
  timeBase : AvRational
  avgFrameRate : AvRational
  rFrameRate : AvRational
  sampleRate : Int
  channels : Int
  deriving DecidableEq, Repr

/-- `pts`: none for `AV_NOPTS_VALUE`. -/
structure AvPacket where
  streamIndex : Nat
  data : Bytes
  pts : Option Int64
  deriving DecidableEq, Repr

/-- A file: which calls succeed, the streams, and each packet of
`av_read_frame` with what the filter gives for it (none: it does not take the
packet). `rescale` is `av_rescale_q` to 1/1000. -/
structure AvFile where
  openInput : Bool := true
  findStreamInfo : Bool := true
  streams : List AvStream
  bsfAlloc : Bool := true
  bsfInit : Bool := true
  packetAlloc : Bool := true
  reads : List (AvPacket × Option (List AvPacket))
  rescale : Int64 → AvRational → Int64

/-! ## `LoadFile` -/

/-- mirrors server/mp4_demuxer.h:37-42 -/
structure VideoInfo where
  codecName : Bytes
  frameRate : AvRational
  isH265 : Bool
  present : Bool
  deriving DecidableEq, Repr

/-- mirrors server/mp4_demuxer.h:91-94 -/
structure Demuxer where
  packets : List MediaPacket
  videoInfo : VideoInfo
  audioInfo : AudioInfo

/-- mirrors server/mp4_demuxer.cpp:39-46 -/
def streamIndex (file : AvFile) (type : AvMediaType) : Option Nat := file.streams.findIdx? (·.codecType == type)

/-- mirrors server/mp4_demuxer.cpp:58-68 -/
def videoInfoOf (stream : AvStream) : VideoInfo where
  present := true
  isH265 := stream.codecId == .hevc
  codecName := if stream.codecId == .hevc then ascii "h265" else ascii "h264"
  frameRate :=
    if 0 < stream.avgFrameRate.den then stream.avgFrameRate
    else if 0 < stream.rFrameRate.den then stream.rFrameRate
    else ⟨25, 1⟩

/-- `none`: not supported.
mirrors server/mp4_demuxer.cpp:96-114 -/
def audioCodecName : AvCodecId → Option Bytes
  | .aac => some (ascii "aac")
  | .pcmAlaw => some (ascii "pcm_alaw")
  | .pcmMulaw => some (ascii "pcm_mulaw")
  | .adpcmG726 => some (ascii "g726")
  | _ => none

/-- mirrors server/mp4_demuxer.cpp:92-123 -/
def audioInfoOf (stream : Option AvStream) : AudioInfo :=
  match stream with
  | none => ⟨[], 0, 0, false⟩
  | some stream =>
    match audioCodecName stream.codecId with
    | none => ⟨[], 0, 0, false⟩
    | some codecName => ⟨codecName, stream.sampleRate, stream.channels, true⟩

/-- mirrors server/mp4_demuxer.cpp:155-163, 168-176 -/
def mediaPacket (file : AvFile) (type : MediaType) (timeBase : AvRational) (pkt : AvPacket) : MediaPacket where
  type := type
  data := pkt.data
  ptsMs := match pkt.pts with
    | some pts => file.rescale pts timeBase
    | none => 0

/-- What one `av_read_frame` adds to `packets_`; an index that is no stream's
is not returned.
mirrors server/mp4_demuxer.cpp:133-179 -/
def readPacket (file : AvFile) (video : Nat) (audio : Option Nat) (audioInfo : AudioInfo)
    (read : AvPacket × Option (List AvPacket)) : List MediaPacket :=
  let pkt := read.1
  if pkt.streamIndex ≠ video ∧ some pkt.streamIndex ≠ audio then []
  else if some pkt.streamIndex = audio ∧ !audioInfo.present then []
  else
    match file.streams[pkt.streamIndex]? with
    | none => []
    | some stream =>
      if pkt.streamIndex = video then
        match read.2 with
        | none => []
        | some outs => outs.map (mediaPacket file .video stream.timeBase)
      else [mediaPacket file .audio stream.timeBase pkt]

/-- Up to the sort; `none` for false.
mirrors server/mp4_demuxer.cpp:22-184 -/
def readFile (file : AvFile) : Option Demuxer :=
  if !file.openInput then none
  else if !file.findStreamInfo then none
  else
    match streamIndex file .video with
    | none => none
    | some video =>
      match file.streams[video]? with
      | none => none
      | some stream =>
        if !file.bsfAlloc then none
        else if !file.bsfInit then none
        else
          let audio := streamIndex file .audio
          let audioInfo := audioInfoOf (audio.bind fun i => file.streams[i]?)
          if !file.packetAlloc then none
          else some { packets := file.reads.flatMap (readPacket file video audio audioInfo)
                      videoInfo := videoInfoOf stream
                      audioInfo }

/-- mirrors server/mp4_demuxer.cpp:22-195 -/
def LoadFile (file : AvFile) (r : Option Demuxer) : Prop :=
  match readFile file with
  | none => r = none
  | some d => ∃ packets, StdSort (fun pkt : MediaPacket => pkt.ptsMs.toInt) d.packets packets ∧ r = some { d with packets }

/-! ## What was delivered -/

/-- What one `av_read_frame` delivers of a stream: itself the audio, through
the filter the video. -/
def deliveredBy (file : AvFile) (type : MediaType) (read : AvPacket × Option (List AvPacket)) : List MediaPacket :=
  match file.streams[read.1.streamIndex]? with
  | none => []
  | some stream =>
    match type with
    | .video =>
      if some read.1.streamIndex = streamIndex file .video then
        (read.2.getD []).map (mediaPacket file .video stream.timeBase)
      else []
    | .audio =>
      if some read.1.streamIndex = streamIndex file .audio ∧ (audioCodecName stream.codecId).isSome then
        [mediaPacket file .audio stream.timeBase read.1]
      else []

/-- The packets of a stream in the order of delivery. -/
def delivered (file : AvFile) (type : MediaType) : List MediaPacket := file.reads.flatMap (deliveredBy file type)

theorem filter_mediaPacket (file : AvFile) (type type' : MediaType) (timeBase : AvRational) (pkts : List AvPacket) :
    (pkts.map (mediaPacket file type timeBase)).filter (·.type == type') =
      if type = type' then pkts.map (mediaPacket file type timeBase) else [] := by
  by_cases h : type = type'
  · subst h
    simp [mediaPacket]
  · simp [mediaPacket, h]

/-- The first stream of a type is of that type. -/
theorem streamIndex_type {file : AvFile} {type : AvMediaType} {i : Nat} (h : streamIndex file type = some i) :
    ∃ stream, file.streams[i]? = some stream ∧ stream.codecType = type := by
  obtain ⟨hi, hp, -⟩ := List.findIdx?_eq_some_iff_getElem.mp h
  exact ⟨_, List.getElem?_eq_getElem hi, by simpa using hp⟩

/-- No stream is both. -/
theorem streamIndex_ne {file : AvFile} {i : Nat} (h : streamIndex file .video = some i) :
    some i ≠ streamIndex file .audio := by
  intro ha
  obtain ⟨stream, hs, hv⟩ := streamIndex_type h
  obtain ⟨stream', hs', ha'⟩ := streamIndex_type ha.symm
  rw [hs] at hs'
  cases hs'
  rw [hv] at ha'
  cases ha'

/-- The audio is announced iff its codec is supported. -/
theorem audioInfoOf_present (stream : AvStream) :
    (audioInfoOf (some stream)).present = (audioCodecName stream.codecId).isSome := by
  simp only [audioInfoOf]
  cases audioCodecName stream.codecId with
  | none => rfl
  | some codecName => rfl

theorem readPacket_filter {file : AvFile} {video : Nat} (hv : streamIndex file .video = some video) (type : MediaType)
    (read : AvPacket × Option (List AvPacket)) :
    (readPacket file video (streamIndex file .audio)
        (audioInfoOf ((streamIndex file .audio).bind fun i => file.streams[i]?)) read).filter (·.type == type) =
      deliveredBy file type read := by
  unfold readPacket deliveredBy
  simp only [hv, Option.some.injEq]
  cases hs : file.streams[read.1.streamIndex]? with
  | none =>
    split
    · rfl
    · split <;> rfl
  | some stream =>
    by_cases hvideo : read.1.streamIndex = video
    · have hna : some read.1.streamIndex ≠ streamIndex file .audio := hvideo ▸ streamIndex_ne hv
      rw [if_neg (fun h => h.1 hvideo), if_neg (fun h => hna h.1)]
      simp only [if_pos hvideo]
      cases type with
      | video =>
        cases read.2 with
        | none => rfl
        | some outs =>
          rw [filter_mediaPacket, if_pos rfl]
          rfl
      | audio =>
        simp only [if_neg (fun h : _ ∧ _ => hna h.1)]
        cases read.2 with
        | none => rfl
        | some outs => rw [filter_mediaPacket, if_neg (by decide)]
    · by_cases haudio : some read.1.streamIndex = streamIndex file .audio
      · rw [if_neg (fun h => h.2 haudio)]
        simp only [← haudio, Option.bind_some, hs, audioInfoOf_present, true_and, if_neg hvideo]
        cases hc : (audioCodecName stream.codecId).isSome with
        | false =>
          cases type with
          | video => rfl
          | audio => rfl
        | true =>
          have hfilter := filter_mediaPacket file .audio type stream.timeBase [read.1]
          rw [List.map_singleton] at hfilter
          simp only [Bool.not_true, Bool.false_eq_true, if_false, if_true]
          rw [hfilter]
          cases type with
          | video => rfl
          | audio => rfl
      · rw [if_pos ⟨hvideo, haudio⟩]
        cases type with
        | video => simp [hvideo]
        | audio => simp [haudio]

/-- Of what was read, the packets of a type are those delivered. -/
theorem readFile_filter {file : AvFile} {d : Demuxer} (h : readFile file = some d) (type : MediaType) :
    d.packets.filter (·.type == type) = delivered file type := by
  unfold readFile at h
  split at h
  · cases h
  split at h
  · cases h
  split at h
  · cases h
  rename_i video hvideo
  split at h
  · cases h
  split at h
  · cases h
  split at h
  · cases h
  simp only at h
  split at h
  · cases h
  cases h
  simp only [List.filter_flatMap, readPacket_filter hvideo, delivered]

/-- **Demuxing.** The packets are those delivered, by ascending PTS; whatever
`std::sort` does with equal ones, each stream keeps its order exactly when its
PTS ascend strictly, but for repetitions of a packet. -/
theorem loadFile_packets (file : AvFile) :
    (∀ d, LoadFile file (some d) → (d.packets.Pairwise fun a b => a.ptsMs.toInt ≤ b.ptsMs.toInt) ∧
      ∀ type, (d.packets.filter (·.type == type)).Perm (delivered file type)) ∧
    ((∀ d, LoadFile file (some d) → ∀ type, d.packets.filter (·.type == type) = delivered file type) ↔
      LoadFile file none ∨ ∀ type, (delivered file type).Pairwise (Precedes fun pkt => pkt.ptsMs.toInt)) := by
  unfold LoadFile
  cases h : readFile file with
  | none =>
    simp only [reduceCtorEq, false_implies, implies_true, true_and, true_iff]
    exact .inl trivial
  | some d =>
    have hfilter := readFile_filter h
    refine ⟨?_, ?_⟩
    · rintro _ ⟨packets, hsort, hd⟩
      cases hd
      exact ⟨hsort.sorted, fun type => hfilter type ▸ hsort.perm.filter _⟩
    · simp only [← hfilter]
      constructor
      · intro hkeep
        exact .inr fun type => (StdSort.keeps_iff d.packets _).mp fun out hout =>
          hkeep { d with packets := out } ⟨out, hout, rfl⟩ type
      · rintro (⟨_, _, hnone⟩ | hpre) _ ⟨packets, hsort, hd⟩ type
        · cases hnone
        · cases hd
          exact (StdSort.keeps_iff d.packets _).mpr (hpre type) packets hsort

/-- Three pictures in decode order I P B, a millisecond to a unit. -/
def reordered : AvFile where
  streams := [⟨.video, .other, ⟨1, 1000⟩, ⟨25, 1⟩, ⟨25, 1⟩, 0, 0⟩]
  reads := [(⟨0, [1], some 0⟩, some [⟨0, [1], some 0⟩]), (⟨0, [2], some 120⟩, some [⟨0, [2], some 120⟩]),
    (⟨0, [3], some 40⟩, some [⟨0, [3], some 40⟩])]
  rescale pts _ := pts

/-- The B picture comes before the P picture it needs. -/
theorem reordered_by_pts :
    ∃ d, LoadFile reordered (some d) ∧ d.packets = [⟨.video, [1], 0⟩, ⟨.video, [3], 40⟩, ⟨.video, [2], 120⟩] ∧
      delivered reordered .video = [⟨.video, [1], 0⟩, ⟨.video, [2], 120⟩, ⟨.video, [3], 40⟩] ∧
      d.packets.filter (·.type == .video) ≠ delivered reordered .video := by
  refine ⟨⟨_, _, _⟩, ⟨_, ⟨?_, ?_⟩, rfl⟩, rfl, by decide, by decide⟩
  · decide
  · decide

end WebPlayer.L4.Mp4Demuxer
