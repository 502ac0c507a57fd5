import RsMatter.CameraAvStream
import RsMatter.KeyedRows

/-!
# Video streams over whole runs

The checks of a command are made before the encoder has answered, and the table is changed
afterwards. What keeps them good is that of the commands that wait no two allocate the same id or
the same stream, and that nobody takes a stream while it is being deallocated.
-/

namespace RsMatter

open Prog

namespace CameraAv

variable {NV : ℕ}

/-! ## Streams that are alike -/

namespace VideoStream

def params (s : VideoStream) : VideoStream := { s with videoStreamId := 0, referenceCount := 0 }

theorem sameParams_iff {s t : VideoStream} : State.sameParams s t = true ↔ s.params = t.params := by
  cases s
  cases t
  simp [State.sameParams, params, and_assoc]

end VideoStream

open VideoStream

/-! ## What each part does to the table -/

namespace State

variable {s s' : State NV} {id : BitVec 16}

def Has (s : State NV) (id : BitVec 16) : Prop := Rows.Has VideoStream.videoStreamId s.videos.1 id

theorem nextVideoId_ne_zero (s : State NV) : s.nextVideoId ≠ 0 := by
  rw [nextVideoId]
  split
  · exact nofun
  · assumption

/-- The streams after a change of one are those before, but for that one. -/
structure Changed (s s' : State NV) (id : BitVec 16) (g : VideoStream → VideoStream) : Prop where
  ids : s'.videos.1.map (·.videoStreamId) = s.videos.1.map (·.videoStreamId)
  /-- a stream is the changed one, or was there -/
  row (hnodup : (s.videos.1.map (·.videoStreamId)).Nodup) (r : VideoStream) (hr : r ∈ s'.videos.1) :
    (r ∈ s.videos.1 ∧ r.videoStreamId ≠ id) ∨ ∃ r₀ ∈ s.videos.1, r₀.videoStreamId = id ∧ r = g r₀

theorem changed_modifyAt {g : VideoStream → VideoStream} {i : ℕ} (hfind : s.findVideo id = some i)
    (hg : ∀ r, (g r).videoStreamId = r.videoStreamId) : Changed s (s.modifyAt i g) id g :=
  ⟨Rows.map_key_modify (f := VideoStream.videoStreamId) hfind hg,
    fun hnodup _ hr => Rows.mem_modify_cases (f := VideoStream.videoStreamId) hnodup hfind hr⟩

theorem Changed.has_iff {g : VideoStream → VideoStream} (h : Changed s s' id g) (i : BitVec 16) :
    s'.Has i ↔ s.Has i := Rows.has_congr h.ids

def acquired (row : VideoStream) : VideoStream :=
  { row with referenceCount := if row.referenceCount = 255 then 255 else row.referenceCount + 1 }

def released (row : VideoStream) : VideoStream :=
  { row with referenceCount := if row.referenceCount = 0 then 0 else row.referenceCount - 1 }

theorem toNat_acquired {row : VideoStream} (h : row.referenceCount ≠ 255) :
    (acquired row).referenceCount.toNat = row.referenceCount.toNat + 1 := by
  rw [acquired, if_neg h]
  bv_omega

theorem toNat_released (row : VideoStream) :
    (released row).referenceCount.toNat = row.referenceCount.toNat - 1 := by
  rw [released]
  split
  · next h =>
    rw [h]
    rfl
  · bv_omega

theorem acquireVideo_spec (s : State NV) (id : BitVec 16) :
    (∃ s', s.Has id ∧ (acquireVideo id).run s = (s', .ok ()) ∧ Changed s s' id acquired) ∨
      (¬s.Has id ∧ (acquireVideo id).run s = (s, .error (.error .notFound))) := by
  unfold acquireVideo
  rw [run_bind_of_ok (run_get _)]
  cases hfind : s.findVideo id with
  | some i =>
    obtain ⟨r, hr, hid⟩ := Rows.findIdx?_eq_some (f := VideoStream.videoStreamId) hfind
    exact .inl ⟨_, ⟨r, List.mem_of_getElem? hr, hid⟩, rfl, changed_modifyAt hfind fun _ => rfl⟩
  | none => exact .inr ⟨Rows.findIdx?_eq_none.mp hfind, rfl⟩

theorem releaseVideo_spec (s : State NV) (id : BitVec 16) :
    (∃ s', s.Has id ∧ (releaseVideo id).run s = (s', .ok ()) ∧ Changed s s' id released) ∨
      (¬s.Has id ∧ (releaseVideo id).run s = (s, .ok ())) := by
  unfold releaseVideo
  rw [run_bind_of_ok (run_get _)]
  cases hfind : s.findVideo id with
  | some i =>
    obtain ⟨r, hr, hid⟩ := Rows.findIdx?_eq_some (f := VideoStream.videoStreamId) hfind
    exact .inl ⟨_, ⟨r, List.mem_of_getElem? hr, hid⟩, rfl, changed_modifyAt hfind fun _ => rfl⟩
  | none => exact .inr ⟨Rows.findIdx?_eq_none.mp hfind, rfl⟩

theorem pushVideo_spec (s : State NV) (stream : VideoStream) :
    (∃ s', (pushVideo stream).run s = (s', .ok true) ∧ s.videos.1.length < NV ∧
      s'.videos.1 = s.videos.1 ++ [stream]) ∨
      (¬s.videos.1.length < NV ∧ (pushVideo stream).run s = (s, .ok false)) := by
  unfold pushVideo
  rw [run_bind_of_ok (run_get _)]
  cases hpush : s.videos.push stream .resourceExhausted with
  | ok videos =>
    obtain ⟨hroom, hvideos⟩ := HVec.push_eq_ok.mp hpush
    exact .inl ⟨_, rfl, hroom, hvideos⟩
  | error e =>
    refine .inr ⟨fun hroom => ?_, rfl⟩
    rw [HVec.push, dif_pos hroom] at hpush
    cases hpush

theorem run_allocVideoId (s : State NV) : ∃ nextId,
    allocVideoId.run s = ({ s with nextId }, .ok s.nextVideoId) := ⟨_, rfl⟩

theorem addPreallocatedVideo_spec (s : State NV) (stream : VideoStream) :
    (∃ s', (addPreallocatedVideo stream).run s = (s', .ok s.nextVideoId) ∧ s.videos.1.length < NV ∧
      s'.videos.1 = s.videos.1 ++ [{ stream with referenceCount := 0, videoStreamId := s.nextVideoId }]) ∨
      ∃ s' e, (addPreallocatedVideo stream).run s = (s', .error e) ∧ s'.videos = s.videos := by
  obtain ⟨nextId, halloc⟩ := s.run_allocVideoId
  unfold addPreallocatedVideo
  rw [run_bind_of_ok halloc]
  rcases pushVideo_spec { s with nextId } { stream with referenceCount := 0, videoStreamId := s.nextVideoId }
    with ⟨s', hrun, hroom, hvideos⟩ | ⟨_, hrun⟩
  · rw [run_bind_of_ok hrun]
    exact .inl ⟨s', rfl, hroom, hvideos⟩
  · rw [run_bind_of_ok hrun]
    exact .inr ⟨_, _, rfl, rfl⟩

variable {config : Config}

theorem ensurePrioritiesSeeded_videos (s : State NV) (config : Config) :
    (s.ensurePrioritiesSeeded config).videos = s.videos ∧
      (s.ensurePrioritiesSeeded config).nextId = s.nextId := by
  rw [ensurePrioritiesSeeded]
  split <;> exact ⟨rfl, rfl⟩

theorem referenceCount_of_validate {priorities : List StreamUsage} {request : VideoStreamAllocateRequest}
    {candidate : VideoStream} (h : validateVideoAlloc config priorities request = .ok candidate) :
    candidate.referenceCount = 0 := by
  have hbind {α : Type} (x : Except ErrorCode α) {k : α → Except ErrorCode VideoStream}
      (hk : ∀ a c, k a = .ok c → c.referenceCount = 0) (c : VideoStream) (hc : (x >>= k) = .ok c) :
      c.referenceCount = 0 := by
    obtain ⟨a, _, hc⟩ := except_bind_eq_ok.mp hc
    exact hk a c hc
  have hcheck {p : Prop} [Decidable p] {x : Except ErrorCode VideoStream}
      (hx : ∀ c, x = .ok c → c.referenceCount = 0) (c : VideoStream)
      (hc : (if p then .error .constraintError else x) = .ok c) : c.referenceCount = 0 := by
    split at hc
    · cases hc
    · exact hx c hc
  refine hbind request.streamUsage (fun streamUsage => ?_) candidate h
  refine hbind request.videoCodec fun videoCodec => ?_
  refine hbind request.minFrameRate fun minFrameRate => ?_
  refine hbind request.maxFrameRate fun maxFrameRate => ?_
  refine hbind request.minResolution fun minResolution => ?_
  refine hbind request.maxResolution fun maxResolution => ?_
  refine hbind request.minBitRate fun minBitRate => ?_
  refine hbind request.maxBitRate fun maxBitRate => ?_
  refine hbind request.keyFrameInterval fun keyFrameInterval => ?_
  refine hbind request.watermarkEnabled fun watermarkEnabled => ?_
  refine hbind request.osdEnabled fun osdEnabled => ?_
  refine hbind minResolution.width fun minWidth => ?_
  refine hbind minResolution.height fun minHeight => ?_
  refine hbind maxResolution.width fun maxWidth => ?_
  refine hbind maxResolution.height fun maxHeight => ?_
  refine hcheck (hcheck fun c hc => ?_)
  split at hc
  · cases hc
  · refine hcheck (hcheck (hcheck (hcheck (hcheck (hcheck fun c hc => ?_))))) c hc
    obtain rfl := Except.ok.inj hc
    rfl

/-- What an allocation has seen when it waits for the encoder. -/
structure Asked (config : Config) (s : State NV) (request : VideoStreamAllocateRequest)
    (candidate : VideoStream) : Prop where
  valid : validateVideoAlloc config (s.ensurePrioritiesSeeded config).streamUsagePriorities.1 request =
    .ok candidate
  fresh : s.findMatchingExisting candidate = none
  room : s.videos.1.length < NV

theorem handleVideoStreamAllocate_spec (s : State NV) (request : VideoStreamAllocateRequest) :
    (∃ s' candidate, Asked config s request candidate ∧ s'.videos = s.videos ∧
      (handleVideoStreamAllocate config request).run s =
        (s', .ok (.wait (.allocateVideo { candidate with videoStreamId := s.nextVideoId })))) ∨
      ∃ s' r, (handleVideoStreamAllocate config request).run s = (s', r) ∧ s'.videos = s.videos ∧
        Traced.task? r = none := by
  obtain ⟨hvideos, hnextId⟩ := s.ensurePrioritiesSeeded_videos config
  unfold handleVideoStreamAllocate
  rw [run_bind_of_ok (run_modify _ s), run_bind_of_ok (run_get _)]
  cases hvalid : validateVideoAlloc config (s.ensurePrioritiesSeeded config).streamUsagePriorities.1 request with
  | error e => exact .inr ⟨_, _, rfl, hvideos, rfl⟩
  | ok candidate =>
    rw [run_bind_of_ok (run_ofExcept (Stop.lift (.ok candidate)) _)]
    have hsame : (s.ensurePrioritiesSeeded config).findMatchingExisting candidate =
        s.findMatchingExisting candidate := by
      rw [findMatchingExisting, hvideos, findMatchingExisting]
    rw [hsame]
    cases hmatch : s.findMatchingExisting candidate with
    | some existing => exact .inr ⟨_, _, rfl, hvideos, rfl⟩
    | none =>
      change (∃ s' c, _ ∧ _ ∧ (Prog.ensure _ _ >>= fun _ => _ : Prog _ _ Next).run _ = _) ∨
        ∃ s' r, (Prog.ensure _ _ >>= fun _ => _ : Prog _ _ Next).run _ = _ ∧ _
      by_cases hroom : (s.ensurePrioritiesSeeded config).videos.1.length < NV
      · rw [run_bind_of_ok (run_ensure_of_pos hroom _ _)]
        have hnext : (s.ensurePrioritiesSeeded config).nextVideoId = s.nextVideoId := by
          rw [nextVideoId, hnextId, nextVideoId]
        obtain ⟨nextId, halloc⟩ := (s.ensurePrioritiesSeeded config).run_allocVideoId
        rw [run_bind_of_ok halloc, hnext]
        exact .inl ⟨{ s.ensurePrioritiesSeeded config with nextId }, candidate,
          ⟨hvalid, hmatch, hvideos ▸ hroom⟩, hvideos, rfl⟩
      · rw [run_bind_of_error (run_ensure_of_neg hroom _ _)]
        exact .inr ⟨_, _, rfl, hvideos, rfl⟩

theorem params_ne_of_fresh {candidate r : VideoStream} (h : s.findMatchingExisting candidate = none)
    (hr : r ∈ s.videos.1) : r.params ≠ candidate.params := by
  rw [findMatchingExisting, Option.map_eq_none_iff, List.find?_eq_none] at h
  exact fun heq => h r hr (sameParams_iff.mpr heq)

theorem handleVideoStreamModify_spec (config : Config) (s : State NV) (videoStreamId : Except ErrorCode (BitVec 16))
    (watermark osd : Except ErrorCode (Option Bool)) :
    ((handleVideoStreamModify config videoStreamId watermark osd).run s).1 = s ∧
      ∀ t, Traced.task? ((handleVideoStreamModify config videoStreamId watermark osd).run s).2 = some t →
        ∃ id w o, t = .modifyVideo id w o := by
  have hkeeps : Prog.Keeps id (handleVideoStreamModify config videoStreamId watermark osd :
      Prog _ (State NV) _) := by
    refine keeps_bind (keeps_ofExcept _) fun _ => ?_
    refine keeps_bind (keeps_ofExcept _) fun _ => ?_
    refine keeps_bind (keeps_ofExcept _) fun _ => ?_
    refine keeps_bind (keeps_ensure _ _) fun _ => ?_
    refine keeps_bind (keeps_ensure _ _) fun _ => ?_
    refine keeps_bind keeps_get fun _ => ?_
    exact keeps_bind (keeps_ensure _ _) fun _ => keeps_pure _
  refine ⟨hkeeps s, fun t ht => ?_⟩
  rcases hrun : (handleVideoStreamModify config videoStreamId watermark osd).run s with ⟨s', _ | next⟩
  · rw [hrun] at ht
    cases ht
  · rw [hrun] at ht
    simp only [handleVideoStreamModify, run_bind_eq_ok] at hrun
    obtain ⟨_, id, _, _, w, _, _, o, _, _, _, _, _, _, _, _, _, _, _, _, _, hrun⟩ := hrun
    obtain rfl := Except.ok.inj (Prod.mk.inj hrun).2
    obtain rfl := Option.some.inj ht
    exact ⟨id, w, o, rfl⟩

theorem handleVideoStreamDeallocate_spec (s : State NV) (videoStreamId : Except ErrorCode (BitVec 16)) :
    ((handleVideoStreamDeallocate videoStreamId).run s).1 = s ∧
      ∀ t, Traced.task? ((handleVideoStreamDeallocate videoStreamId).run s).2 = some t →
        ∃ row ∈ s.videos.1, t = .deallocateVideo row.videoStreamId ∧ row.referenceCount = 0 := by
  unfold handleVideoStreamDeallocate
  cases videoStreamId with
  | error e => exact ⟨rfl, forall_mem_none⟩
  | ok id =>
    rw [run_bind_of_ok (run_ofExcept (Stop.lift (.ok id)) _), run_bind_of_ok (run_get _)]
    cases hfind : s.videos.1.find? (·.videoStreamId == id) with
    | none => exact ⟨rfl, forall_mem_none⟩
    | some row =>
      change ((Prog.ensure _ _ >>= fun _ => _ : Prog _ _ Next).run s).1 = s ∧
        ∀ t, Traced.task? ((Prog.ensure _ _ >>= fun _ => _ : Prog _ _ Next).run s).2 = some t → _
      obtain ⟨hrow, rfl⟩ := Rows.find?_eq_some (f := VideoStream.videoStreamId) hfind
      by_cases hunused : row.referenceCount = 0
      · rw [run_bind_of_ok (run_ensure_of_pos hunused _ _)]
        exact ⟨rfl, fun t ht => ⟨row, hrow, (Option.some.inj ht).symm, hunused⟩⟩
      · rw [run_bind_of_error (run_ensure_of_neg hunused _ _)]
        exact ⟨rfl, forall_mem_none⟩

theorem handleSetStreamPriorities_spec (config : Config) (s : State NV)
    (streamPriorities : Except ErrorCode (List (Except ErrorCode StreamUsage))) :
    ((handleSetStreamPriorities config streamPriorities).run s).1.videos = s.videos ∧
      Traced.task? ((handleSetStreamPriorities config streamPriorities).run s).2 = none := by
  unfold handleSetStreamPriorities
  cases streamPriorities with
  | error e => exact ⟨rfl, rfl⟩
  | ok entries =>
    rw [run_bind_of_ok (run_ofExcept (Stop.lift (.ok entries)) _)]
    cases hbuffer : newPriorities config entries .new with
    | error e => exact ⟨rfl, rfl⟩
    | ok buffer => exact ⟨rfl, rfl⟩

end State

/-! ## What holds of the streams -/

namespace Traced

structure Sound (s : Traced NV) : Prop where
  nodup : (s.state.videos.1.map (·.videoStreamId)).Nodup
  /-- no id is `0` -/
  id_ne_zero (r : VideoStream) (hr : r ∈ s.state.videos.1) : r.videoStreamId ≠ 0
  count (r : VideoStream) (hr : r ∈ s.state.videos.1) : r.referenceCount.toNat = s.held r.videoStreamId
  inUse (id : BitVec 16) (h : 0 < s.held id) : s.state.Has id
  /-- no two streams that peers have allocated are alike -/
  params (r : VideoStream) (hr : r ∈ s.state.videos.1) (r' : VideoStream) (hr' : r' ∈ s.state.videos.1)
    (ha : s.allocated r.videoStreamId = true) (ha' : s.allocated r'.videoStreamId = true)
    (h : r.params = r'.params) : r.videoStreamId = r'.videoStreamId

def Relies (s : Traced NV) : Task → Prop
  | .allocateVideo stream => stream.videoStreamId ≠ 0 ∧ ¬s.state.Has stream.videoStreamId ∧
      stream.referenceCount = 0 ∧ ∀ r ∈ s.state.videos.1, s.allocated r.videoStreamId = true →
        r.params ≠ stream.params
  | .deallocateVideo id => s.held id = 0
  | .modifyVideo .. | .tidyUp _ => True

/-- Two commands get on with each other, unless both allocate the same id or the same stream. -/
def Apart : Task → Task → Prop
  | .allocateVideo s, .allocateVideo t => s.videoStreamId ≠ t.videoStreamId ∧ s.params ≠ t.params
  | _, _ => True

theorem apart_symm (t u : Task) (h : Apart t u) : Apart u t := by
  cases t <;> cases u <;> first | trivial | exact ⟨h.1.symm, h.2.symm⟩

variable {s : Traced NV} {state : State NV}

theorem Sound.of_videos (hs : s.Sound) (h : state.videos = s.state.videos) : Sound { s with state } := by
  obtain ⟨hnodup, hne, hcount, hinUse, hparams⟩ := hs
  simp only [State.Has, ← h] at hnodup hne hcount hinUse hparams
  exact ⟨hnodup, hne, hcount, hinUse, hparams⟩

theorem relies_of_videos {t : Task} (ht : s.Relies t) (h : state.videos = s.state.videos) :
    Relies { s with state } t := by
  cases t with
  | allocateVideo stream =>
    obtain ⟨hne, hnew, hcount, hparams⟩ := ht
    simp only [State.Has, ← h] at hnew hparams
    exact ⟨hne, hnew, hcount, hparams⟩
  | _ => exact ht

theorem Sound.change {id : BitVec 16} {g : VideoStream → VideoStream} {held : BitVec 16 → ℕ}
    (hs : s.Sound) (hchanged : State.Changed s.state state id g)
    (hg : ∀ r, (g r).videoStreamId = r.videoStreamId)
    (hcount : ∀ r ∈ s.state.videos.1, r.videoStreamId = id → (g r).referenceCount.toNat = held id)
    (hheld : ∀ i, i ≠ id → held i = s.held i) (hid : s.state.Has id)
    (hparams : ∀ r ∈ s.state.videos.1, r.videoStreamId = id → s.allocated id = true →
      ∀ r' ∈ s.state.videos.1, s.allocated r'.videoStreamId = true → r'.videoStreamId ≠ id →
        r'.params ≠ (g r).params) :
    Sound { s with state, held } := by
  have hrow := hchanged.row hs.nodup
  refine ⟨hchanged.ids ▸ hs.nodup, fun r hr => ?_, fun r hr => ?_, fun i hi => ?_,
    fun r hr r' hr' ha ha' h => ?_⟩
  · rcases hrow r hr with ⟨hr, _⟩ | ⟨r₀, hr₀, _, rfl⟩
    · exact hs.id_ne_zero r hr
    · exact (hg r₀).symm ▸ hs.id_ne_zero r₀ hr₀
  · rcases hrow r hr with ⟨hr, hne⟩ | ⟨r₀, hr₀, rfl, rfl⟩
    · exact (hs.count r hr).trans (hheld _ hne).symm
    · exact (hcount r₀ hr₀ rfl).trans (congrArg held (hg r₀).symm)
  · refine (hchanged.has_iff i).mpr ?_
    by_cases h : i = id
    · exact h ▸ hid
    · exact hs.inUse i (hheld i h ▸ hi)
  · rcases hrow r hr with ⟨hr, hne⟩ | ⟨r₀, hr₀, rfl, rfl⟩
    · rcases hrow r' hr' with ⟨hr', _⟩ | ⟨r₁, hr₁, rfl, rfl⟩
      · exact hs.params r hr r' hr' ha ha' h
      · exact absurd h (hparams r₁ hr₁ rfl (hg r₁ ▸ ha') r hr ha hne)
    · rcases hrow r' hr' with ⟨hr', hne⟩ | ⟨r₁, _, hr₁, rfl⟩
      · exact absurd h.symm (hparams r₀ hr₀ rfl (hg r₀ ▸ ha) r' hr' ha' hne)
      · exact (hg r₀).trans (hr₁.symm.trans (hg r₁).symm)

theorem Sound.push {row : VideoStream} (hs : s.Sound) (b : Bool)
    (hvideos : state.videos.1 = s.state.videos.1 ++ [row]) (hne : row.videoStreamId ≠ 0)
    (hnew : ¬s.state.Has row.videoStreamId) (hunused : row.referenceCount = 0)
    (hparams : b = true → ∀ r ∈ s.state.videos.1, s.allocated r.videoStreamId = true →
      r.params ≠ row.params) :
    Sound { s with state, allocated := Function.update s.allocated row.videoStreamId b } := by
  have hcases {r : VideoStream} (hr : r ∈ state.videos.1) :
      (r ∈ s.state.videos.1 ∧ r.videoStreamId ≠ row.videoStreamId) ∨ r = row := by
    rw [hvideos] at hr
    rcases List.mem_append.mp hr with hr | hr
    · exact .inl ⟨hr, fun h => hnew ⟨r, hr, h⟩⟩
    · exact .inr (List.mem_singleton.mp hr)
  have hheld : s.held row.videoStreamId = 0 :=
    Nat.eq_zero_of_not_pos fun h => hnew (hs.inUse _ h)
  refine ⟨?_, fun r hr => ?_, fun r hr => ?_, fun i hi => ?_, fun r hr r' hr' ha ha' h => ?_⟩
  · change (state.videos.1.map _).Nodup
    rw [hvideos]
    exact Rows.nodup_append hs.nodup hnew
  · rcases hcases hr with ⟨hr, _⟩ | rfl
    · exact hs.id_ne_zero r hr
    · exact hne
  · rcases hcases hr with ⟨hr, _⟩ | rfl
    · exact hs.count r hr
    · rw [hunused]
      exact hheld.symm
  · change Rows.Has _ state.videos.1 i
    rw [hvideos]
    exact Rows.has_append.mpr (.inl (hs.inUse i hi))
  · change Function.update s.allocated row.videoStreamId b _ = true at ha ha'
    rcases hcases hr with ⟨hold, hne⟩ | rfl
    · rw [Function.update_of_ne hne] at ha
      rcases hcases hr' with ⟨hold', hne'⟩ | rfl
      · rw [Function.update_of_ne hne'] at ha'
        exact hs.params r hold r' hold' ha ha' h
      · rw [Function.update_self] at ha'
        exact absurd h (hparams ha' r hold ha)
    · rcases hcases hr' with ⟨hold', hne'⟩ | rfl
      · rw [Function.update_of_ne hne'] at ha'
        rw [Function.update_self] at ha
        exact absurd h.symm (hparams ha r' hold' ha')
      · rfl

theorem Sound.drop {id : BitVec 16} (hs : s.Sound) (hid : s.held id = 0)
    (hvideos : state.videos.1 = s.state.videos.1.filter fun row => row.videoStreamId != id) :
    Sound { s with state } := by
  have hmem {r : VideoStream} (hr : r ∈ state.videos.1) : r ∈ s.state.videos.1 := by
    rw [hvideos] at hr
    exact List.mem_of_mem_filter hr
  refine ⟨?_, fun r hr => hs.id_ne_zero r (hmem hr), fun r hr => hs.count r (hmem hr), fun i hi => ?_,
    fun r hr r' hr' => hs.params r (hmem hr) r' (hmem hr')⟩
  · change (state.videos.1.map _).Nodup
    rw [hvideos]
    exact Rows.nodup_filter _ hs.nodup
  · obtain ⟨r, hr, rfl⟩ := hs.inUse i hi
    refine ⟨r, ?_, rfl⟩
    change r ∈ state.videos.1
    rw [hvideos]
    refine List.mem_filter.mpr ⟨hr, bne_iff_ne.mpr ?_⟩
    rintro rfl
    exact Nat.ne_of_gt hi hid

theorem relies_change {id : BitVec 16} {g : VideoStream → VideoStream} {held : BitVec 16 → ℕ} {t : Task}
    (hs : s.Sound) (ht : s.Relies t) (hchanged : State.Changed s.state state id g)
    (hg : ∀ r, (g r).videoStreamId = r.videoStreamId)
    (hheld : ∀ i, t = .deallocateVideo i → s.held i = 0 → held i = 0)
    (hparams : ∀ c, t = .allocateVideo c → ∀ r ∈ s.state.videos.1, r.videoStreamId = id →
      s.allocated id = true → (g r).params ≠ c.params) :
    Relies { s with state, held } t := by
  cases t with
  | allocateVideo c =>
    obtain ⟨hne, hnew, hcount, hrows⟩ := ht
    refine ⟨hne, fun h => hnew ((hchanged.has_iff _).mp h), hcount, fun r hr ha => ?_⟩
    rcases hchanged.row hs.nodup r hr with ⟨hr, _⟩ | ⟨r₀, hr₀, rfl, rfl⟩
    · exact hrows r hr ha
    · exact hparams c rfl r₀ hr₀ rfl (hg r₀ ▸ ha)
  | deallocateVideo i => exact hheld i rfl ht
  | _ => trivial

theorem relies_push {row : VideoStream} {b : Bool} {t : Task} (ht : s.Relies t)
    (hvideos : state.videos.1 = s.state.videos.1 ++ [row])
    (happart : ∀ c, t = .allocateVideo c → row.videoStreamId ≠ c.videoStreamId ∧
      (b = true → row.params ≠ c.params)) (hnew : ¬s.state.Has row.videoStreamId) :
    Relies { s with state, allocated := Function.update s.allocated row.videoStreamId b } t := by
  cases t with
  | allocateVideo c =>
    obtain ⟨hne, hfree, hcount, hrows⟩ := ht
    obtain ⟨hid, hparams⟩ := happart c rfl
    refine ⟨hne, fun h => ?_, hcount, fun r hr ha => ?_⟩
    · change Rows.Has _ state.videos.1 _ at h
      rw [hvideos] at h
      exact (Rows.has_append.mp h).elim hfree hid
    · change Function.update s.allocated row.videoStreamId b _ = true at ha
      change r ∈ state.videos.1 at hr
      rw [hvideos] at hr
      rcases List.mem_append.mp hr with hr | hr
      · rw [Function.update_of_ne fun h => hnew ⟨r, hr, h⟩] at ha
        exact hrows r hr ha
      · obtain rfl := List.mem_singleton.mp hr
        rw [Function.update_self] at ha
        exact hparams ha
  | _ => exact ht

theorem relies_drop {t : Task} (ht : s.Relies t) (hvideos : ∀ r ∈ state.videos.1, r ∈ s.state.videos.1) :
    Relies { s with state } t := by
  cases t with
  | allocateVideo c =>
    obtain ⟨hne, hnew, hcount, hrows⟩ := ht
    exact ⟨hne, fun ⟨r, hr, hid⟩ => hnew ⟨r, hvideos r hr, hid⟩, hcount, fun r hr => hrows r (hvideos r hr)⟩
  | _ => exact ht

end Traced

/-! ## The runs -/

/-- The camera, and the commands that wait for the encoder. -/
abbrev World (NV : ℕ) := Suspending.World (Traced NV) Task

/-- Nobody gets in the way of a command that waits: the id of a new stream is not one of the table, nor
one that an allocation waits with; no two allocations of the same stream wait, and no stream is changed
into one that another peer has allocated or waits for; and no stream is taken while it is being
deallocated. A stream is not taken more often than the count goes, and what is given back was taken. -/
def Suits (config : Config) (w : World NV) : Suspending.Act Command (Except CamAvError Unit) → Prop
  | .start (.videoStreamAllocate request) =>
    ∀ candidate, State.Asked config w.state.state request candidate →
      ¬w.state.state.Has w.state.state.nextVideoId ∧ ∀ c, .allocateVideo c ∈ w.waiting →
        c.videoStreamId ≠ w.state.state.nextVideoId ∧ c.params ≠ candidate.params
  | .start (.addPreallocatedVideo _) =>
    w.state.state.videos.1.length < NV →
      ¬w.state.state.Has w.state.state.nextVideoId ∧ ∀ c, .allocateVideo c ∈ w.waiting →
        c.videoStreamId ≠ w.state.state.nextVideoId
  | .start (.acquireVideo id) =>
    w.state.state.Has id → .deallocateVideo id ∉ w.waiting ∧
      ∀ r ∈ w.state.state.videos.1, r.videoStreamId = id → r.referenceCount ≠ 255
  | .start (.releaseVideo id) => 0 < w.state.held id
  | .resume i (.ok ()) =>
    ∀ id watermark osd, w.waiting[i]? = some (.modifyVideo id watermark osd) →
      ∀ r ∈ w.state.state.videos.1, r.videoStreamId = id → w.state.allocated id = true →
        (∀ r' ∈ w.state.state.videos.1, w.state.allocated r'.videoStreamId = true → r'.videoStreamId ≠ id →
          r'.params ≠ (State.toggled watermark osd r).params) ∧
        ∀ c, .allocateVideo c ∈ w.waiting → c.params ≠ (State.toggled watermark osd r).params
  | _ => True

namespace Traced

variable {config : Config} {s' : Traced NV}

theorem use_holds {w : World NV} {state : State NV} {id : BitVec 16} {g : VideoStream → VideoStream} {n : ℕ}
    (hw : Suspending.HoldsApart Sound Relies Apart w) (hchanged : State.Changed w.state.state state id g)
    (hid : ∀ r, (g r).videoStreamId = r.videoStreamId) (hparams : ∀ r, (g r).params = r.params)
    (hcount : ∀ r ∈ w.state.state.videos.1, r.videoStreamId = id → (g r).referenceCount.toNat = n)
    (hhas : w.state.state.Has id) (hnot : .deallocateVideo id ∈ w.waiting → n = 0) :
    Sound { w.state with state, held := Function.update w.state.held id n } ∧
      ∀ u ∈ w.waiting, Relies { w.state with state, held := Function.update w.state.held id n } u := by
  refine ⟨hw.state.change hchanged hid (fun r hr h => ?_) (fun i hi => Function.update_of_ne hi _ _) hhas
    fun r hr h ha r' hr' ha' hne heq => ?_, fun u hu => relies_change hw.state (hw.waiting u hu) hchanged hid
      (fun i hi hzero => ?_) fun c hc r hr h ha => ?_⟩
  · rw [Function.update_self]
    exact hcount r hr h
  · rw [hparams] at heq
    exact hne ((hw.state.params r' hr' r hr ha' (h ▸ ha) heq).trans h)
  · subst hi
    by_cases h : i = id
    · subst h
      rw [Function.update_self]
      exact hnot hu
    · rwa [Function.update_of_ne h]
  · subst hc
    obtain ⟨_, _, _, hrows⟩ := hw.waiting _ hu
    rw [hparams]
    exact hrows r hr (h ▸ ha)

theorem start_holds {w : World NV} {c : Command} {t : Option Task} (hok : Suits config w (.start c))
    (hw : Suspending.HoldsApart Sound Relies Apart w) (hstep : start config w.state c = some (s', t)) :
    Sound s' ∧ (∀ u ∈ t, Relies s' u ∧ ∀ v ∈ w.waiting, Apart u v) ∧ ∀ u ∈ w.waiting, Relies s' u := by
  rcases hrun : (State.start config c).run w.state.state with ⟨state, r⟩
  rw [start, hrun] at hstep
  obtain ⟨rfl, rfl⟩ := Prod.mk.inj (Option.some.inj hstep)
  -- where the table stays as it is
  have hquiet {state : State NV} {t : Option Task} (hvideos : state.videos = w.state.state.videos)
      (hown : ∀ u ∈ t, Relies w.state u ∧ ∀ v ∈ w.waiting, Apart u v) :
      Sound { w.state with state } ∧ (∀ u ∈ t, Relies { w.state with state } u ∧ ∀ v ∈ w.waiting, Apart u v) ∧
        ∀ u ∈ w.waiting, Relies { w.state with state } u :=
    ⟨hw.state.of_videos hvideos, fun u hu => (hown u hu).imp_left fun h => relies_of_videos h hvideos,
      fun u hu => relies_of_videos (hw.waiting u hu) hvideos⟩
  cases c with
  | videoStreamAllocate request =>
    rcases State.handleVideoStreamAllocate_spec w.state.state request with
      ⟨state', candidate, hasked, hvideos, hspec⟩ | ⟨state', r', hspec, hvideos, hr⟩
    · obtain ⟨rfl, rfl⟩ := Prod.mk.inj (hrun.symm.trans hspec)
      obtain ⟨hid, hwaiting⟩ := hok candidate hasked
      refine hquiet hvideos fun u hu => ?_
      obtain rfl := Option.some.inj hu
      have hcount : candidate.referenceCount = 0 := State.referenceCount_of_validate hasked.valid
      refine ⟨⟨State.nextVideoId_ne_zero _, hid, hcount, fun r hr _ => ?_⟩, fun v hv => ?_⟩
      · exact State.params_ne_of_fresh hasked.fresh hr
      · cases v with
        | allocateVideo c => exact ⟨(hwaiting c hv).1.symm, (hwaiting c hv).2.symm⟩
        | _ => trivial
    · obtain ⟨rfl, rfl⟩ := Prod.mk.inj (hrun.symm.trans hspec)
      refine hquiet hvideos fun u hu => ?_
      rw [hr] at hu
      cases hu
  | videoStreamModify id watermark osd =>
    obtain ⟨hstate, htask⟩ := State.handleVideoStreamModify_spec config w.state.state id watermark osd
    change (State.handleVideoStreamModify config id watermark osd).run w.state.state = _ at hrun
    rw [hrun] at hstate htask
    refine hquiet (congrArg State.videos hstate) fun u hu => ?_
    obtain ⟨_, _, _, rfl⟩ := htask u hu
    exact ⟨trivial, fun _ _ => trivial⟩
  | videoStreamDeallocate id =>
    obtain ⟨hstate, htask⟩ := State.handleVideoStreamDeallocate_spec w.state.state id
    change (State.handleVideoStreamDeallocate id).run w.state.state = _ at hrun
    rw [hrun] at hstate htask
    refine hquiet (congrArg State.videos hstate) fun u hu => ?_
    obtain ⟨row, hrow, rfl, hunused⟩ := htask u hu
    refine ⟨?_, fun _ _ => trivial⟩
    rw [Relies, ← hw.state.count row hrow, hunused]
    rfl
  | setStreamPriorities streamPriorities =>
    obtain ⟨hstate, htask⟩ := State.handleSetStreamPriorities_spec config w.state.state streamPriorities
    change (State.handleSetStreamPriorities config streamPriorities).run w.state.state = _ at hrun
    rw [hrun] at hstate htask
    refine hquiet hstate fun u hu => ?_
    rw [htask] at hu
    cases hu
  | addPreallocatedVideo stream =>
    rcases State.addPreallocatedVideo_spec w.state.state stream with
      ⟨state', hspec, hroom, hvideos⟩ | ⟨state', e, hspec, hvideos⟩
    · have hadd : (State.start config (.addPreallocatedVideo stream)).run w.state.state =
          (state', .ok (.videoStreamId w.state.state.nextVideoId)) := run_bind_of_ok hspec
      obtain ⟨rfl, rfl⟩ := Prod.mk.inj (hrun.symm.trans hadd)
      obtain ⟨hid, hwaiting⟩ := hok hroom
      refine ⟨hw.state.push false hvideos (State.nextVideoId_ne_zero _) hid rfl
        fun h => absurd h Bool.false_ne_true, forall_mem_none, fun u hu => ?_⟩
      refine relies_push (hw.waiting u hu) hvideos (fun c hc => ⟨?_, fun h => absurd h Bool.false_ne_true⟩) hid
      subst hc
      exact (hwaiting c hu).symm
    · have hadd : (State.start config (.addPreallocatedVideo stream)).run w.state.state = (state', .error e) :=
        run_bind_of_error hspec
      obtain ⟨rfl, rfl⟩ := Prod.mk.inj (hrun.symm.trans hadd)
      exact hquiet hvideos forall_mem_none
  | acquireVideo id =>
    rcases State.acquireVideo_spec w.state.state id with ⟨state', hid, hspec, hchanged⟩ | ⟨_, hspec⟩
    · have hadd : (State.start config (.acquireVideo id)).run w.state.state = (state', .ok .done) :=
        run_bind_of_ok hspec
      obtain ⟨rfl, rfl⟩ := Prod.mk.inj (hrun.symm.trans hadd)
      obtain ⟨hnot, hroom⟩ := hok hid
      have hcount (r : VideoStream) (hr : r ∈ w.state.state.videos.1) (h : r.videoStreamId = id) :
          (State.acquired r).referenceCount.toNat = w.state.held id + 1 := by
        rw [State.toNat_acquired (hroom r hr h), hw.state.count r hr, h]
      obtain ⟨hsound, hwaiting⟩ := use_holds hw hchanged (fun _ => rfl) (fun _ => rfl) hcount hid
        fun h => absurd h hnot
      exact ⟨hsound, forall_mem_none, hwaiting⟩
    · have hadd : (State.start config (.acquireVideo id)).run w.state.state =
          (w.state.state, .error (.error .notFound)) := run_bind_of_error hspec
      obtain ⟨rfl, rfl⟩ := Prod.mk.inj (hrun.symm.trans hadd)
      exact hquiet rfl forall_mem_none
  | releaseVideo id =>
    rcases State.releaseVideo_spec w.state.state id with ⟨state', hid, hspec, hchanged⟩ | ⟨hnew, _⟩
    · have hadd : (State.start config (.releaseVideo id)).run w.state.state = (state', .ok .done) :=
        run_bind_of_ok hspec
      obtain ⟨rfl, rfl⟩ := Prod.mk.inj (hrun.symm.trans hadd)
      have hcount (r : VideoStream) (hr : r ∈ w.state.state.videos.1) (h : r.videoStreamId = id) :
          (State.released r).referenceCount.toNat = w.state.held id - 1 := by
        rw [State.toNat_released, hw.state.count r hr, h]
      obtain ⟨hsound, hwaiting⟩ := use_holds hw hchanged (fun _ => rfl) (fun _ => rfl) hcount hid
        fun h => absurd (hw.waiting _ h) (Nat.ne_of_gt hok)
      exact ⟨hsound, forall_mem_none, hwaiting⟩
    · exact absurd (hw.state.inUse id hok) hnew

theorem resume_holds {w : World NV} {i : ℕ} {t : Task} {o : Except CamAvError Unit} {u : Option Task}
    (hok : Suits config w (.resume i o)) (hw : Suspending.HoldsApart Sound Relies Apart w)
    (ht : w.waiting[i]? = some t) (hstep : resume w.state t o = some (s', u))
    (happart : ∀ v ∈ w.waiting.eraseIdx i, Apart t v) :
    Sound s' ∧ (∀ v ∈ u, Relies s' v ∧ ∀ x ∈ w.waiting.eraseIdx i, Apart v x) ∧
      ∀ v ∈ w.waiting.eraseIdx i, Relies s' v := by
  rcases hrun : (State.resume t o).run w.state.state with ⟨state, r⟩
  rw [resume, hrun] at hstep
  obtain ⟨rfl, rfl⟩ := Prod.mk.inj (Option.some.inj hstep)
  have hothers (v : Task) (hv : v ∈ w.waiting.eraseIdx i) : Relies w.state v :=
    hw.waiting v (List.mem_of_mem_eraseIdx hv)
  have hself : Relies w.state t := hw.waiting t (List.mem_of_getElem? ht)
  -- where the encoder has failed, or there is nothing to change
  have hfail {e : CamAvError} (ho : o = .error e) : state = w.state.state ∧ task? r = none ∧
      ∀ s : Traced NV, noteResume s t r = s := by
    subst ho
    cases t with
    | tidyUp | allocateVideo | modifyVideo | deallocateVideo =>
      obtain ⟨rfl, rfl⟩ := Prod.mk.inj hrun
      exact ⟨rfl, rfl, fun _ => rfl⟩
  cases o with
  | error e =>
    obtain ⟨rfl, htask, hnote⟩ := hfail rfl
    rw [hnote, htask]
    exact ⟨hw.state, forall_mem_none, hothers⟩
  | ok _ =>
    cases t with
    | allocateVideo stream =>
      obtain ⟨hne, hnew, hunused, hrows⟩ := hself
      have hbind : (State.resume (.allocateVideo stream) (.ok ())).run w.state.state =
        (State.pushVideo stream >>= fun pushed => pure (if pushed then .videoStreamId stream.videoStreamId
          else .wait (.tidyUp stream.videoStreamId)) : Prog _ _ Next).run w.state.state := rfl
      rcases State.pushVideo_spec w.state.state stream with ⟨state', hspec, _, hvideos⟩ | ⟨_, hspec⟩
      · rw [hbind, run_bind_of_ok hspec] at hrun
        obtain ⟨rfl, rfl⟩ := Prod.mk.inj hrun
        refine ⟨hw.state.push true hvideos hne hnew hunused fun _ => hrows, forall_mem_none, fun v hv => ?_⟩
        refine relies_push (s := w.state) (hothers v hv) hvideos (fun c hc => ?_) hnew
        obtain ⟨hid, hparams⟩ : Apart (.allocateVideo stream) (.allocateVideo c) := hc ▸ happart v hv
        exact ⟨hid, fun _ => hparams⟩
      · rw [hbind, run_bind_of_ok hspec] at hrun
        obtain ⟨rfl, rfl⟩ := Prod.mk.inj hrun
        refine ⟨hw.state, fun v hv => ?_, hothers⟩
        obtain rfl := Option.some.inj hv
        exact ⟨trivial, fun _ _ => trivial⟩
    | modifyVideo id watermark osd =>
      cases hfind : w.state.state.findVideo id with
      | none =>
        have hsame : (State.resume (.modifyVideo id watermark osd) (.ok ())).run w.state.state =
            (w.state.state, .ok .done) := by
          rw [State.resume, run_bind_of_ok (run_ofExcept (State.ofHook (.ok ())) _),
            run_bind_of_ok (run_modify _ _), hfind]
          rfl
        obtain ⟨rfl, rfl⟩ := Prod.mk.inj (hrun.symm.trans hsame)
        exact ⟨hw.state, forall_mem_none, hothers⟩
      | some j =>
        have hchange : (State.resume (.modifyVideo id watermark osd) (.ok ())).run w.state.state =
            (w.state.state.modifyAt j (State.toggled watermark osd), .ok .done) := by
          rw [State.resume, run_bind_of_ok (run_ofExcept (State.ofHook (.ok ())) _),
            run_bind_of_ok (run_modify _ _), hfind]
          rfl
        obtain ⟨rfl, rfl⟩ := Prod.mk.inj (hrun.symm.trans hchange)
        obtain ⟨row, hrow, hid⟩ := Rows.findIdx?_eq_some (f := VideoStream.videoStreamId) hfind
        have hchanged := State.changed_modifyAt (g := State.toggled watermark osd) hfind fun _ => rfl
        have halone := hok id watermark osd ht
        refine ⟨hw.state.change hchanged (fun _ => rfl) (fun r hr h => h ▸ hw.state.count r hr) (fun _ _ => rfl)
          ⟨row, List.mem_of_getElem? hrow, hid⟩ fun r hr h ha => (halone r hr h ha).1, forall_mem_none, fun v hv => ?_⟩
        refine relies_change hw.state (hothers v hv) hchanged (fun _ => rfl) (fun _ _ h => h)
          fun c hc r hr h ha => ?_
        exact ((halone r hr h ha).2 c (hc ▸ List.mem_of_mem_eraseIdx hv)).symm
    | deallocateVideo id =>
      obtain ⟨rfl, rfl⟩ := Prod.mk.inj hrun
      refine ⟨hw.state.drop hself rfl, forall_mem_none, fun v hv => ?_⟩
      exact relies_drop (hothers v hv) fun r hr => List.mem_of_mem_filter hr
    | tidyUp id =>
      obtain ⟨rfl, rfl⟩ := Prod.mk.inj hrun
      exact ⟨hw.state, forall_mem_none, hothers⟩

end Traced

/-! ## Whole runs -/

structure Correct (w : World NV) : Prop where
  nodup : (w.state.state.videos.1.map (·.videoStreamId)).Nodup
  /-- no id is `0` -/
  id_ne_zero (r : VideoStream) (hr : r ∈ w.state.state.videos.1) : r.videoStreamId ≠ 0
  /-- the count is what has been taken and not given back -/
  count (r : VideoStream) (hr : r ∈ w.state.state.videos.1) :
    r.referenceCount.toNat = w.state.held r.videoStreamId
  inUse (id : BitVec 16) (h : 0 < w.state.held id) : w.state.state.Has id
  /-- peers have not allocated a stream twice -/
  params (r : VideoStream) (hr : r ∈ w.state.state.videos.1) (r' : VideoStream)
    (hr' : r' ∈ w.state.state.videos.1) (ha : w.state.allocated r.videoStreamId = true)
    (ha' : w.state.allocated r'.videoStreamId = true) (h : State.sameParams r r' = true) : r = r'

def World.new : World NV := ⟨.new, []⟩

theorem holds_new : Suspending.HoldsApart Traced.Sound Traced.Relies Traced.Apart (World.new : World NV) :=
  ⟨⟨⟨List.nodup_nil, fun _ hr => absurd hr List.not_mem_nil, fun _ hr => absurd hr List.not_mem_nil,
    fun _ h => absurd h (Nat.lt_irrefl 0), fun _ hr => absurd hr List.not_mem_nil⟩,
    fun _ h => absurd h List.not_mem_nil⟩, List.Pairwise.nil⟩

theorem holds_of_step {config : Config} (w : World NV) (a : Suspending.Act Command (Except CamAvError Unit))
    (w' : World NV) (hok : Suits config w a)
    (hw : Suspending.HoldsApart Traced.Sound Traced.Relies Traced.Apart w)
    (hstep : (Traced.program NV config).machine.step w a = some w') :
    Suspending.HoldsApart Traced.Sound Traced.Relies Traced.Apart w' :=
  Suspending.holdsApart_step (P := Traced.program NV config) (Suits config) Traced.apart_symm
    (fun _ _ _ _ hok hw => Traced.start_holds hok hw)
    (fun _ _ _ _ _ _ hok hw => Traced.resume_holds hok hw) w a w' hok hw hstep

/-- **Video streams**: where nobody gets in the way of a command that waits, the table is correct after
every run. -/
theorem streams_correct (NV : ℕ) (config : Config)
    (as : List (Suspending.Act Command (Except CamAvError Unit))) (w : World NV)
    (hsuits : (Traced.program NV config).machine.Meets (Suits config) World.new as)
    (hrun : (Traced.program NV config).machine.run World.new as = some w) : Correct w := by
  have hw := Machine.invariant_of_meets holds_of_step holds_new hsuits hrun
  refine ⟨hw.state.nodup, hw.state.id_ne_zero, hw.state.count, hw.state.inUse, fun r hr r' hr' ha ha' h => ?_⟩
  have hid := hw.state.params r hr r' hr' ha ha' (sameParams_iff.mp h)
  exact Rows.eq_of_key_eq (f := VideoStream.videoStreamId) hw.state.nodup hr hr' hid

namespace Sample

def config : Config := ⟨1920, 1080, 30, (320, 240), [.liveView], [.liveView], [.h264], 0⟩

def request : VideoStreamAllocateRequest :=
  ⟨.ok .liveView, .ok .h264, .ok 15, .ok 30, .ok ⟨.ok 640, .ok 480⟩, .ok ⟨.ok 1280, .ok 720⟩,
    .ok 100000, .ok 500000, .ok 60, .ok none, .ok none⟩

def stream (id : BitVec 16) (referenceCount : BitVec 8) : VideoStream :=
  ⟨id, .liveView, .h264, 15, 30, 640, 480, 1280, 720, 100000, 500000, 60, none, none, referenceCount⟩

def used : List (Suspending.Act Command (Except CamAvError Unit)) :=
  [.start (.videoStreamAllocate request), .resume 0 (.ok ()), .start (.acquireVideo 1)]

theorem meets_used : (Traced.program 2 config).machine.Meets (Suits config) World.new used := by
  refine ⟨fun candidate _ => ⟨by rintro ⟨_, ⟨⟩, _⟩, fun _ h => absurd h List.not_mem_nil⟩, fun w hw => ?_⟩
  obtain rfl := Option.some.inj hw
  refine ⟨by rintro _ _ _ ⟨⟩, fun w hw => ?_⟩
  obtain rfl := Option.some.inj hw
  refine ⟨fun _ => ⟨fun h => absurd h List.not_mem_nil, fun r hr _ => ?_⟩, fun _ _ => trivial⟩
  obtain rfl := List.mem_singleton.mp hr
  rintro ⟨⟩

end Sample

theorem streams_correct_used : ∃ w : World 2,
    (Traced.program 2 Sample.config).machine.run World.new Sample.used = some w ∧ Correct w ∧
      w.state.state.videos.1 = [Sample.stream 1 1] ∧ w.state.held 1 = 1 :=
  ⟨_, rfl, streams_correct 2 Sample.config Sample.used _ Sample.meets_used rfl, rfl, rfl⟩

/-- **Commands that get in each other's way.** A stream that is taken while the encoder deallocates it
is gone; and a peer that asks for a stream twice before the encoder has answered gets two that are
alike. -/
theorem stream_in_use_removed :
    (∃ w : World 2, (Traced.program 2 Sample.config).machine.run World.new
        [.start (.videoStreamAllocate Sample.request), .resume 0 (.ok ()),
          .start (.videoStreamDeallocate (.ok 1)), .start (.acquireVideo 1), .resume 0 (.ok ())] = some w ∧
      w.state.held 1 = 1 ∧ w.state.state.videos.1 = []) ∧
    ∃ w : World 2, (Traced.program 2 Sample.config).machine.run World.new
        [.start (.videoStreamAllocate Sample.request), .start (.videoStreamAllocate Sample.request),
          .resume 0 (.ok ()), .resume 0 (.ok ())] = some w ∧
      w.state.state.videos.1 = [Sample.stream 1 0, Sample.stream 2 0] ∧
      w.state.allocated 1 = true ∧ w.state.allocated 2 = true ∧
      State.sameParams (Sample.stream 1 0) (Sample.stream 2 0) = true :=
  ⟨⟨_, rfl, rfl, rfl⟩, ⟨_, rfl, rfl, rfl, rfl, rfl⟩⟩

end CameraAv

end RsMatter
