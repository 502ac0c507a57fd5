import RsMatter.FixedCapacity
import RsMatter.Prog
import RsMatter.Suspension

/-!
# Video streams (`dm/clusters/app/cam_av_stream.rs`)

The camera keeps a table of the video streams that are allocated, with a count of who uses each.
The commands check the table, wait for the encoder, and then change the table. Other parts of the
camera take and give back streams in between, without waiting.
-/

namespace RsMatter

namespace CameraAv

open Stop

/-- `VideoCodecEnum`. -/
inductive VideoCodec where
  | h264
  | hevc
  | vvc
  | av1
  deriving DecidableEq

inductive CamAvError where
  | resourceExhausted
  | dynamicConstraint
  | notFound
  | failure
  deriving DecidableEq

def CamAvError.toError : CamAvError → ErrorCode
  | resourceExhausted => .resourceExhausted
  | dynamicConstraint => .constraintError
  | notFound => .notFound
  | failure => .failure

/-- `VideoStream`. -/
structure VideoStream where
  videoStreamId : BitVec 16
  streamUsage : StreamUsage
  videoCodec : VideoCodec
  minFrameRate : BitVec 16
  maxFrameRate : BitVec 16
  minWidth : BitVec 16
  minHeight : BitVec 16
  maxWidth : BitVec 16
  maxHeight : BitVec 16
  minBitRate : BitVec 32
  maxBitRate : BitVec 32
  keyFrameInterval : BitVec 16
  watermarkEnabled : Option Bool
  osdEnabled : Option Bool
  referenceCount : BitVec 8
  deriving DecidableEq

structure Config where
  sensorWidth : BitVec 16
  sensorHeight : BitVec 16
  maxFps : BitVec 16
  minViewport : BitVec 16 × BitVec 16
  supportedStreamUsages : List StreamUsage
  defaultStreamUsagePriorities : List StreamUsage
  rateDistortionPoints : List VideoCodec
  features : BitVec 32

/-- `Feature::WATERMARK`. -/
def featureWatermark : BitVec 32 := 0x40

/-- `Feature::ON_SCREEN_DISPLAY`. -/
def featureOnScreenDisplay : BitVec 32 := 0x80

/-- `has_feature`. -/
def Config.hasFeature (config : Config) (bit : BitVec 32) : Bool := config.features &&& bit != 0

/-- `MAX_STREAM_USAGES`. -/
abbrev MAX_STREAM_USAGES : ℕ := 8

structure State (NV : ℕ) where
  videos : HVec VideoStream NV
  /-- what streams are for, the most important first -/
  streamUsagePriorities : HVec StreamUsage MAX_STREAM_USAGES
  nextId : BitVec 16

/-! ## Requests -/

structure VideoResolution where
  width : Except ErrorCode (BitVec 16)
  height : Except ErrorCode (BitVec 16)

/-- `VideoStreamAllocateRequest`. A field is decoded when it is asked for. -/
structure VideoStreamAllocateRequest where
  streamUsage : Except ErrorCode StreamUsage
  videoCodec : Except ErrorCode VideoCodec
  minFrameRate : Except ErrorCode (BitVec 16)
  maxFrameRate : Except ErrorCode (BitVec 16)
  minResolution : Except ErrorCode VideoResolution
  maxResolution : Except ErrorCode VideoResolution
  minBitRate : Except ErrorCode (BitVec 32)
  maxBitRate : Except ErrorCode (BitVec 32)
  keyFrameInterval : Except ErrorCode (BitVec 16)
  watermarkEnabled : Except ErrorCode (Option Bool)
  osdEnabled : Except ErrorCode (Option Bool)

inductive Command where
  | videoStreamAllocate (request : VideoStreamAllocateRequest)
  | videoStreamModify (videoStreamId : Except ErrorCode (BitVec 16))
    (watermarkEnabled osdEnabled : Except ErrorCode (Option Bool))
  | videoStreamDeallocate (videoStreamId : Except ErrorCode (BitVec 16))
  | setStreamPriorities (streamPriorities : Except ErrorCode (List (Except ErrorCode StreamUsage)))
  | addPreallocatedVideo (stream : VideoStream)
  /-- another part of the camera uses a stream -/
  | acquireVideo (videoStreamId : BitVec 16)
  /-- another part of the camera does not use it any more -/
  | releaseVideo (videoStreamId : BitVec 16)

inductive Task where
  | allocateVideo (stream : VideoStream)
  | modifyVideo (videoStreamId : BitVec 16) (watermarkEnabled osdEnabled : Option Bool)
  | deallocateVideo (videoStreamId : BitVec 16)
  /-- an allocated stream that found no room -/
  | tidyUp (videoStreamId : BitVec 16)
  deriving DecidableEq

/-- What follows: a wait or the end, perhaps with an id. -/
inductive Next where
  | wait (t : Task)
  | videoStreamId (id : BitVec 16)
  | done
  deriving DecidableEq

def Next.task? : Next → Option Task
  | wait t => some t
  | videoStreamId _ | done => none

namespace State

variable {NV : ℕ} (config : Config)

def new : State NV := ⟨.new, .new, 1⟩

/-- `find_video_mut`: where the stream is. -/
def findVideo (s : State NV) (id : BitVec 16) : Option ℕ :=
  s.videos.1.findIdx? (·.videoStreamId == id)

def modifyAt (s : State NV) (i : ℕ) (f : VideoStream → VideoStream) : State NV :=
  { s with videos := ⟨s.videos.1.modify i f, by rw [List.length_modify]; exact s.videos.2⟩ }

/-- `acquire_video`. -/
def acquireVideo (id : BitVec 16) : Prog (Stop ErrorCode) (State NV) Unit := do
  let s ← Prog.get
  match s.findVideo id with
  | some i => Prog.modify (modifyAt · i fun row =>
      { row with referenceCount := if row.referenceCount = 255 then 255 else row.referenceCount + 1 })
  | none => Prog.throw (.error .notFound)

/-- `release_video`. -/
def releaseVideo (id : BitVec 16) : Prog (Stop ErrorCode) (State NV) Unit := do
  let s ← Prog.get
  match s.findVideo id with
  | some i => Prog.modify (modifyAt · i fun row =>
      { row with referenceCount := if row.referenceCount = 0 then 0 else row.referenceCount - 1 })
  | none => return ()

def nextVideoId (s : State NV) : BitVec 16 := if s.nextId = 0 then 1 else s.nextId

/-- `alloc_video_id`. -/
def allocVideoId : Prog (Stop ErrorCode) (State NV) (BitVec 16) := do
  let s ← Prog.get
  let id := s.nextVideoId
  Prog.modify fun s => { s with nextId := if id + 1 = 0 then 1 else id + 1 }
  return id

/-- Add a stream to the table, if there is room. -/
def pushVideo (stream : VideoStream) : Prog (Stop ErrorCode) (State NV) Bool := do
  let s ← Prog.get
  match s.videos.push stream .resourceExhausted with
  | .ok videos => do
    Prog.modify fun s => { s with videos }
    return true
  | .error _ => return false

/-- `add_preallocated_video`. -/
def addPreallocatedVideo (stream : VideoStream) : Prog (Stop ErrorCode) (State NV) (BitVec 16) := do
  let id ← allocVideoId
  let pushed ← pushVideo { stream with referenceCount := 0, videoStreamId := id }
  if pushed then return id else Prog.throw (.error .resourceExhausted)

/-- Add usages to the list, as far as there is room. -/
def pushUsages : List StreamUsage → HVec StreamUsage MAX_STREAM_USAGES →
    HVec StreamUsage MAX_STREAM_USAGES
  | [], usages => usages
  | usage :: rest, usages =>
    match usages.push usage .resourceExhausted with
    | .ok usages' => pushUsages rest usages'
    | .error _ => pushUsages rest usages

/-- `ensure_priorities_seeded`. -/
def ensurePrioritiesSeeded (s : State NV) : State NV :=
  if s.streamUsagePriorities.1 = [] then
    { s with streamUsagePriorities := pushUsages config.defaultStreamUsagePriorities s.streamUsagePriorities }
  else s

/-- `validate_video_alloc`. -/
def validateVideoAlloc (priorities : List StreamUsage) (request : VideoStreamAllocateRequest) :
    Except ErrorCode VideoStream := do
  let streamUsage ← request.streamUsage
  let videoCodec ← request.videoCodec
  let minFrameRate ← request.minFrameRate
  let maxFrameRate ← request.maxFrameRate
  let minResolution ← request.minResolution
  let maxResolution ← request.maxResolution
  let minBitRate ← request.minBitRate
  let maxBitRate ← request.maxBitRate
  let keyFrameInterval ← request.keyFrameInterval
  let watermarkEnabled ← request.watermarkEnabled
  let osdEnabled ← request.osdEnabled
  let minWidth ← minResolution.width
  let minHeight ← minResolution.height
  let maxWidth ← maxResolution.width
  let maxHeight ← maxResolution.height
  -- the usage is reserved, or not one of the camera
  if streamUsage = .internal then .error .constraintError
  else if ¬config.supportedStreamUsages.contains streamUsage then .error .constraintError
  else if ¬priorities.contains streamUsage then .error .invalidAction
  else if ¬config.rateDistortionPoints.contains videoCodec then .error .constraintError
  else if minFrameRate = 0 ∨ maxFrameRate < minFrameRate ∨ maxBitRate < minBitRate ∨ minWidth = 0 ∨
      minHeight = 0 ∨ maxWidth < minWidth ∨ maxHeight < minHeight then .error .constraintError
  else if config.maxFps < maxFrameRate then .error .constraintError
  else if config.sensorWidth < maxWidth ∨ config.sensorHeight < maxHeight ∨
      minWidth < config.minViewport.1 ∨ minHeight < config.minViewport.2 then .error .constraintError
  else if watermarkEnabled.isSome ∧ ¬config.hasFeature featureWatermark then .error .constraintError
  else if osdEnabled.isSome ∧ ¬config.hasFeature featureOnScreenDisplay then .error .constraintError
  else return {
    videoStreamId := 0
    streamUsage, videoCodec, minFrameRate, maxFrameRate, minWidth, minHeight, maxWidth, maxHeight
    minBitRate, maxBitRate, keyFrameInterval, watermarkEnabled, osdEnabled
    referenceCount := 0 }

/-- Two streams are alike, but for their ids and for how many use them. -/
def sameParams (s candidate : VideoStream) : Bool :=
  s.streamUsage == candidate.streamUsage && s.videoCodec == candidate.videoCodec &&
    s.minFrameRate == candidate.minFrameRate && s.maxFrameRate == candidate.maxFrameRate &&
    s.minWidth == candidate.minWidth && s.minHeight == candidate.minHeight &&
    s.maxWidth == candidate.maxWidth && s.maxHeight == candidate.maxHeight &&
    s.minBitRate == candidate.minBitRate && s.maxBitRate == candidate.maxBitRate &&
    s.keyFrameInterval == candidate.keyFrameInterval &&
    s.watermarkEnabled == candidate.watermarkEnabled && s.osdEnabled == candidate.osdEnabled

/-- `find_matching_existing`. -/
def findMatchingExisting (s : State NV) (candidate : VideoStream) : Option (BitVec 16) :=
  (s.videos.1.find? (sameParams · candidate)).map (·.videoStreamId)

/-- `handle_video_stream_allocate`, up to the wait. -/
def handleVideoStreamAllocate (request : VideoStreamAllocateRequest) :
    Prog (Stop ErrorCode) (State NV) Next := do
  Prog.modify (ensurePrioritiesSeeded config)
  let s ← Prog.get
  let candidate ← Prog.ofExcept (lift (validateVideoAlloc config s.streamUsagePriorities.1 request))
  match s.findMatchingExisting candidate with
  | some existing => return .videoStreamId existing
  | none => do
    Prog.ensure (s.videos.1.length < NV) (.error .resourceExhausted)
    let id ← allocVideoId
    return .wait (.allocateVideo { candidate with videoStreamId := id })

/-- `handle_video_stream_modify`, up to the wait. -/
def handleVideoStreamModify (videoStreamId : Except ErrorCode (BitVec 16))
    (watermarkEnabled osdEnabled : Except ErrorCode (Option Bool)) :
    Prog (Stop ErrorCode) (State NV) Next := do
  let id ← Prog.ofExcept (lift videoStreamId)
  let watermark ← Prog.ofExcept (lift watermarkEnabled)
  let osd ← Prog.ofExcept (lift osdEnabled)
  Prog.ensure (watermark.isSome → config.hasFeature featureWatermark) (.error .constraintError)
  Prog.ensure (osd.isSome → config.hasFeature featureOnScreenDisplay) (.error .constraintError)
  let s ← Prog.get
  Prog.ensure (s.videos.1.any (·.videoStreamId == id)) (.error .notFound)
  return .wait (.modifyVideo id watermark osd)

/-- `handle_video_stream_deallocate`, up to the wait. -/
def handleVideoStreamDeallocate (videoStreamId : Except ErrorCode (BitVec 16)) :
    Prog (Stop ErrorCode) (State NV) Next := do
  let id ← Prog.ofExcept (lift videoStreamId)
  let s ← Prog.get
  match s.videos.1.find? (·.videoStreamId == id) with
  | none => Prog.throw (.error .notFound)
  | some row => do
    Prog.ensure (row.referenceCount = 0) (.error .invalidAction)
    return .wait (.deallocateVideo id)

/-- The loop of `handle_set_stream_priorities`. -/
def newPriorities : List (Except ErrorCode StreamUsage) → HVec StreamUsage MAX_STREAM_USAGES →
    Except (Stop ErrorCode) (HVec StreamUsage MAX_STREAM_USAGES)
  | [], buffer => .ok buffer
  | entry :: rest, buffer => do
    let usage ← lift entry
    if ¬config.supportedStreamUsages.contains usage then .error (.error .constraintError)
    else if buffer.1.contains usage then .error (.error .constraintError)
    else do
      let buffer ← buffer.push usage .resourceExhausted
      newPriorities rest buffer

/-- `handle_set_stream_priorities`. -/
def handleSetStreamPriorities (streamPriorities : Except ErrorCode (List (Except ErrorCode StreamUsage))) :
    Prog (Stop ErrorCode) (State NV) Next := do
  let entries ← Prog.ofExcept (lift streamPriorities)
  let buffer ← Prog.ofExcept (newPriorities config entries .new)
  Prog.modify fun s => { s with streamUsagePriorities := buffer }
  return .done

def start : Command → Prog (Stop ErrorCode) (State NV) Next
  | .videoStreamAllocate request => handleVideoStreamAllocate config request
  | .videoStreamModify videoStreamId watermarkEnabled osdEnabled =>
    handleVideoStreamModify config videoStreamId watermarkEnabled osdEnabled
  | .videoStreamDeallocate videoStreamId => handleVideoStreamDeallocate videoStreamId
  | .setStreamPriorities streamPriorities => handleSetStreamPriorities config streamPriorities
  | .addPreallocatedVideo stream => Next.videoStreamId <$> addPreallocatedVideo stream
  | .acquireVideo videoStreamId => do
    acquireVideo videoStreamId
    return .done
  | .releaseVideo videoStreamId => do
    releaseVideo videoStreamId
    return .done

/-- The error of the encoder, as the peer gets it. -/
def ofHook : Except CamAvError Unit → Except (Stop ErrorCode) Unit
  | .ok () => .ok ()
  | .error e => .error (.error e.toError)

def toggled (watermark osd : Option Bool) (row : VideoStream) : VideoStream :=
  { row with
    watermarkEnabled := watermark.or row.watermarkEnabled
    osdEnabled := osd.or row.osdEnabled }

def resume : Task → Except CamAvError Unit → Prog (Stop ErrorCode) (State NV) Next
  | .allocateVideo stream, r => do
    Prog.ofExcept (ofHook r)
    let pushed ← pushVideo stream
    return if pushed then .videoStreamId stream.videoStreamId else .wait (.tidyUp stream.videoStreamId)
  | .modifyVideo id watermark osd, r => do
    Prog.ofExcept (ofHook r)
    Prog.modify fun s =>
      match s.findVideo id with
      | some i => s.modifyAt i (toggled watermark osd)
      | none => s
    return .done
  | .deallocateVideo id, r => do
    Prog.ofExcept (ofHook r)
    Prog.modify fun s => { s with videos := ⟨s.videos.1.filter fun row => row.videoStreamId != id,
      Nat.le_trans (List.length_filter_le _ _) s.videos.2⟩ }
    return .done
  | .tidyUp _, _ => Prog.throw (.error .resourceExhausted)

end State

/-! ## Who uses what -/

/-- The camera, and what is known of each stream. -/
structure Traced (NV : ℕ) where
  state : State NV
  /-- how often each stream has been acquired and not yet released -/
  held : BitVec 16 → ℕ
  allocated : BitVec 16 → Bool

namespace Traced

variable {NV : ℕ} (config : Config)

def new : Traced NV := ⟨.new, fun _ => 0, fun _ => false⟩

def noteStart (s : Traced NV) : Command → Except (Stop ErrorCode) Next → Traced NV
  | .acquireVideo id, .ok _ => { s with held := Function.update s.held id (s.held id + 1) }
  | .releaseVideo id, _ => { s with held := Function.update s.held id (s.held id - 1) }
  | .addPreallocatedVideo _, .ok (.videoStreamId id) =>
    { s with allocated := Function.update s.allocated id false }
  | _, _ => s

def noteResume (s : Traced NV) : Task → Except (Stop ErrorCode) Next → Traced NV
  | .allocateVideo _, .ok (.videoStreamId id) =>
    { s with allocated := Function.update s.allocated id true }
  | _, _ => s

def task? : Except (Stop ErrorCode) Next → Option Task
  | .ok next => next.task?
  | .error _ => none

def start (s : Traced NV) (c : Command) : Option (Traced NV × Option Task) :=
  let (state, r) := (State.start config c).run s.state
  some (noteStart { s with state } c r, task? r)

def resume (s : Traced NV) (t : Task) (o : Except CamAvError Unit) : Option (Traced NV × Option Task) :=
  let (state, r) := (State.resume t o).run s.state
  some (noteResume { s with state } t r, task? r)

def program (NV : ℕ) (config : Config) : Suspending (Traced NV) Command Task (Except CamAvError Unit) :=
  ⟨start config, resume⟩

end Traced

end CameraAv

end RsMatter
