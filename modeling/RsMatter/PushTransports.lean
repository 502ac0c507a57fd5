import RsMatter.KeyedRows
import RsMatter.PushAvStream

/-!
# Push transports over whole runs

The commands of all fabrics run on one table. What a command of a fabric changes are the rows of this
fabric, whatever the others do while it waits. What it tells the application is an id, so what keeps
the fabrics apart there is that no two connections share one, and that nobody asks for all.
-/

namespace RsMatter

open Prog

namespace PushAv

variable {NC : ℕ}

/-! ## What is kept of what was written -/

/-- What is kept is what was written, under a head of its own. -/
def Copied (written stored : List UInt8) : Prop :=
  ∃ value, TLVElement.HasValue written .struct value ∧ stored = elemBytes .anonymous .struct ++ value

theorem control_of_checkUrl {options : List UInt8} (h : checkUrl options = .ok ()) :
    ∃ tagType, TLVSequence.control options = .ok ⟨tagType, .struct⟩ := by
  obtain ⟨_, hurl, _⟩ := except_bind_eq_ok.mp h
  obtain ⟨elem, helem, _⟩ := except_bind_eq_ok.mp hurl
  obtain ⟨seq, hseq, _⟩ := except_bind_eq_ok.mp (lift_eq_ok.mp helem)
  obtain ⟨⟨tagType, valueType⟩, hc, hmembers⟩ := except_bind_eq_ok.mp hseq
  split at hmembers
  · next htype =>
    obtain rfl : valueType = .struct := htype
    exact ⟨tagType, hc⟩
  · cases hmembers

theorem copied_of_captureOptions {options : List UInt8} {storedOptions : HVec UInt8 MAX_TRANSPORT_OPTIONS_BYTES}
    (hurl : checkUrl options = .ok ()) (h : captureOptions options = .ok storedOptions) :
    Copied options storedOptions.1 := by
  obtain ⟨tagType, hc⟩ := control_of_checkUrl hurl
  obtain ⟨wb, hwb, hfrom⟩ := except_bind_eq_ok.mp h
  rw [lift_eq_ok] at hwb
  -- the copy was made, so the value has an end
  have hvalue : ∃ value, TLVElement.HasValue options .struct value := by
    have hcopy := hwb
    rw [TLVElement.toTlv] at hcopy
    split at hcopy
    · next hempty =>
      rw [List.isEmpty_iff] at hempty
      rw [hempty] at hc
      cases hc
    · rw [hc, ok_bind] at hcopy
      obtain ⟨value, hvalue, _⟩ := except_bind_eq_ok.mp hcopy
      exact ⟨value, tagType, hc, hvalue⟩
  obtain ⟨value, hvalue⟩ := hvalue
  rw [TLVElement.toTlv_of_hasValue hvalue] at hwb
  have hstored : storedOptions.1 = wb.data := by
    rw [HVec.tryFrom, HVec.extendFromSlice] at hfrom
    split at hfrom
    · obtain rfl := Except.ok.inj hfrom
      rfl
    · cases hfrom
  refine ⟨value, hvalue, ?_⟩
  rcases Nat.lt_or_ge MAX_TRANSPORT_OPTIONS_BYTES (elemBytes .anonymous .struct ++ value).length with hlen | hlen
  · rw [WriteBuf.writeRawData_error hlen] at hwb
    cases hwb
  · rw [WriteBuf.writeRawData_ok hlen] at hwb
    obtain rfl := Except.ok.inj hwb
    exact hstored

/-! ## What each part does to the table -/

namespace State

variable {s : State NC} {fabIdx : BitVec 8} {id : BitVec 16}

def Has (s : State NC) (id : BitVec 16) : Prop := Rows.Has PushConnection.connectionId s.connections.1 id

def others (s : State NC) (fabIdx : BitVec 8) : List PushConnection :=
  s.connections.1.filter fun c => c.fabricIndex != fabIdx

theorem nextConnectionId_ne_zero (s : State NC) : s.nextConnectionId ≠ 0 := by
  rw [nextConnectionId]
  split
  · exact nofun
  · assumption

theorem owns_iff : s.owns fabIdx id = true ↔
    ∃ c ∈ s.connections.1, c.connectionId = id ∧ c.fabricIndex = fabIdx := by
  simp [owns]

theorem handleAllocatePushTransport_spec (s : State NC) (fabIdx : BitVec 8)
    (transportOptions : Except ErrorCode (List UInt8)) :
    (∃ s' options storedOptions, s.checkAllocate transportOptions = .ok (options, storedOptions) ∧
      (handleAllocatePushTransport fabIdx transportOptions).run s =
        (s', .ok (.wait (.onAllocate fabIdx s.nextConnectionId options storedOptions))) ∧
      s'.connections = s.connections) ∨
      ∃ e, (handleAllocatePushTransport fabIdx transportOptions).run s = (s, .error e) := by
  unfold handleAllocatePushTransport
  rw [run_bind_of_ok (run_get _)]
  cases hcheck : s.checkAllocate transportOptions with
  | error e => exact .inr ⟨e, rfl⟩
  | ok r => exact .inl ⟨_, r.1, r.2, rfl, rfl, rfl⟩

theorem copied_of_checkAllocate {transportOptions : Except ErrorCode (List UInt8)} {options : List UInt8}
    {storedOptions : HVec UInt8 MAX_TRANSPORT_OPTIONS_BYTES}
    (h : s.checkAllocate transportOptions = .ok (options, storedOptions)) : Copied options storedOptions.1 := by
  obtain ⟨options', _, h⟩ := except_bind_eq_ok.mp h
  obtain ⟨_, hurl, h⟩ := except_bind_eq_ok.mp h
  split at h
  · cases h
  · obtain ⟨storedOptions', hcapture, h⟩ := except_bind_eq_ok.mp h
    obtain ⟨rfl, rfl⟩ := Prod.mk.inj (Except.ok.inj h)
    exact copied_of_captureOptions hurl hcapture

theorem handleDeallocatePushTransport_wait {connectionId : Except ErrorCode (BitVec 16)} {t : Task}
    (h : handleDeallocatePushTransport s fabIdx connectionId = .ok (.wait t)) :
    ∃ id, t = .onDeallocate fabIdx id ∧ s.owns fabIdx id = true := by
  obtain ⟨id, _, h⟩ := except_bind_eq_ok.mp h
  split at h
  · next howns => exact ⟨id, (Next.wait.inj (Except.ok.inj h)).symm, howns⟩
  · cases h

theorem handleModifyPushTransport_wait {connectionId : Except ErrorCode (BitVec 16)}
    {transportOptions : Except ErrorCode (List UInt8)} {t : Task}
    (h : handleModifyPushTransport s fabIdx connectionId transportOptions = .ok (.wait t)) :
    ∃ id options storedOptions, t = .onModify fabIdx id options storedOptions ∧ s.owns fabIdx id = true ∧
      Copied options storedOptions.1 := by
  obtain ⟨id, _, h⟩ := except_bind_eq_ok.mp h
  obtain ⟨options, _, h⟩ := except_bind_eq_ok.mp h
  obtain ⟨_, hurl, h⟩ := except_bind_eq_ok.mp h
  split at h
  · next howns =>
    obtain ⟨storedOptions, hcapture, h⟩ := except_bind_eq_ok.mp h
    exact ⟨id, options, storedOptions, (Next.wait.inj (Except.ok.inj h)).symm, howns,
      copied_of_captureOptions hurl hcapture⟩
  · cases h

theorem handleSetTransportStatus_wait {connectionId : Except ErrorCode (Option (BitVec 16))}
    {transportStatus : Except ErrorCode TransportStatus} {t : Task}
    (h : handleSetTransportStatus s fabIdx connectionId transportStatus = .ok (.wait t)) :
    ∃ id status, t = .onSetStatus fabIdx id status ∧ connectionId = .ok id ∧
      transportStatus = .ok status ∧ id.all (s.owns fabIdx) = true := by
  obtain ⟨id, hid, h⟩ := except_bind_eq_ok.mp h
  obtain ⟨status, hstatus, h⟩ := except_bind_eq_ok.mp h
  split at h
  · next howns =>
    exact ⟨id, status, (Next.wait.inj (Except.ok.inj h)).symm, lift_eq_ok.mp hid, lift_eq_ok.mp hstatus, howns⟩
  · cases h

theorem handleManuallyTriggerTransport_wait {connectionId : Except ErrorCode (BitVec 16)}
    {details : Except ErrorCode Unit} {t : Task}
    (h : handleManuallyTriggerTransport s fabIdx connectionId details = .ok (.wait t)) :
    ∃ id, t = .onManuallyTrigger fabIdx id ∧ s.owns fabIdx id = true := by
  obtain ⟨id, _, h⟩ := except_bind_eq_ok.mp h
  obtain ⟨_, _, h⟩ := except_bind_eq_ok.mp h
  split at h
  · next howns => exact ⟨id, (Next.wait.inj (Except.ok.inj h)).symm, howns⟩
  · cases h

theorem handleFindTransport_eq_ok {connectionId : Except ErrorCode (Option (BitVec 16))} {next : Next}
    (h : handleFindTransport s fabIdx connectionId = .ok next) :
    ∃ id, next = .configurations (s.ownConnections fabIdx id) := by
  obtain ⟨id, _, h⟩ := except_bind_eq_ok.mp h
  change (if (s.ownConnections fabIdx id).isEmpty then _ else _) = _ at h
  split at h
  · cases h
  · exact ⟨id, (Except.ok.inj h).symm⟩

theorem finishAllocate_spec (s : State NC) (c : PushConnection) :
    (∃ s', (finishAllocate c).run s = (s', .ok (.configurations [c])) ∧
      s'.connections.1 = s.connections.1 ++ [c]) ∨
      (finishAllocate c).run s = (s, .ok (.wait (.tidyUp c.fabricIndex c.connectionId))) := by
  unfold finishAllocate
  rw [run_bind_of_ok (run_get _)]
  cases hpush : s.connections.push c .resourceExhausted with
  | error e => exact .inr rfl
  | ok connections =>
    obtain ⟨_, hconnections⟩ := HVec.push_eq_ok.mp hpush
    have hlast : connections.1.getLast? = some c := by rw [hconnections, List.getLast?_concat]
    refine .inl ⟨{ s with connections }, ?_, hconnections⟩
    dsimp only
    rw [run_bind_of_ok (run_modify _ _), run_bind_of_ok (run_get _)]
    dsimp only
    rw [hlast]
    rfl

theorem modified_spec (s : State NC) (fabIdx : BitVec 8) (id : BitVec 16)
    (storedOptions : HVec UInt8 MAX_TRANSPORT_OPTIONS_BYTES) :
    (∃ i r, s.owns fabIdx id = true ∧ s.connections.1[i]? = some r ∧ r.connectionId = id ∧
      r.fabricIndex = fabIdx ∧ (s.modified fabIdx id storedOptions).connections.1 =
        s.connections.1.modify i ({ · with transportOptions := storedOptions })) ∨
      (s.owns fabIdx id = false ∧ s.modified fabIdx id storedOptions = s) := by
  rw [modified]
  split
  · next i hfind =>
    obtain ⟨hi, hr, _⟩ := List.findIdx?_eq_some_iff_getElem.mp hfind
    obtain ⟨hid, hfab⟩ := Bool.and_eq_true_iff.mp hr
    exact .inl ⟨i, _, owns_iff.mpr ⟨_, List.getElem_mem hi, eq_of_beq hid, eq_of_beq hfab⟩,
      List.getElem?_eq_getElem hi, eq_of_beq hid, eq_of_beq hfab, rfl⟩
  · next hfind =>
    refine .inr ⟨?_, rfl⟩
    rw [owns, List.any_eq_false]
    intro c hc
    rw [List.findIdx?_eq_none_iff.mp hfind c hc]
    exact Bool.false_ne_true

/-! ### The ids -/

theorem ids_modified (s : State NC) (fabIdx : BitVec 8) (id : BitVec 16)
    (storedOptions : HVec UInt8 MAX_TRANSPORT_OPTIONS_BYTES) :
    (s.modified fabIdx id storedOptions).connections.1.map PushConnection.connectionId =
      s.connections.1.map PushConnection.connectionId := by
  rcases s.modified_spec fabIdx id storedOptions with ⟨i, r, _, hr, _, _, hrows⟩ | ⟨_, hsame⟩
  · rw [hrows, Rows.modify_eq_set _ hr]
    exact Rows.map_key_set (f := PushConnection.connectionId) hr rfl
  · rw [hsame]

theorem ids_withStatus (s : State NC) (fabIdx : BitVec 8) (id : Option (BitVec 16)) (status : TransportStatus) :
    (s.withStatus fabIdx id status).connections.1.map PushConnection.connectionId =
      s.connections.1.map PushConnection.connectionId := by
  rw [withStatus, List.map_map]
  refine List.map_congr_left fun c _ => ?_
  change PushConnection.connectionId (if _ then _ else _) = _
  split <;> rfl

/-! ### The other fabrics -/

theorem others_append {s s' : State NC} {c : PushConnection} (hc : c.fabricIndex = fabIdx)
    (h : s'.connections.1 = s.connections.1 ++ [c]) : s'.others fabIdx = s.others fabIdx := by
  rw [others, h, List.filter_append, List.filter_cons_of_neg (by simp [hc]), List.filter_nil, List.append_nil,
    others]

theorem others_deallocated (s : State NC) (fabIdx : BitVec 8) (id : BitVec 16) :
    (s.deallocated fabIdx id).others fabIdx = s.others fabIdx := by
  refine Rows.filter_filter_of fun c _ hc => ?_
  have hne : (c.fabricIndex == fabIdx) = false := by simpa using hc
  rw [hne, Bool.and_false]
  rfl

theorem others_modified (s : State NC) (fabIdx : BitVec 8) (id : BitVec 16)
    (storedOptions : HVec UInt8 MAX_TRANSPORT_OPTIONS_BYTES) :
    (s.modified fabIdx id storedOptions).others fabIdx = s.others fabIdx := by
  rcases s.modified_spec fabIdx id storedOptions with ⟨i, r, _, hr, _, hfab, hrows⟩ | ⟨_, hsame⟩
  · have hp : (r.fabricIndex != fabIdx) = false := by simp [hfab]
    rw [others, hrows]
    exact Rows.filter_modify hr hp hp
  · rw [hsame]

theorem others_withStatus (s : State NC) (fabIdx : BitVec 8) (id : Option (BitVec 16))
    (status : TransportStatus) : (s.withStatus fabIdx id status).others fabIdx = s.others fabIdx := by
  refine Rows.filter_map_of (fun c => ?_) fun c hc => ?_
  · split <;> rfl
  · have hne : (c.fabricIndex == fabIdx) = false := by simpa using hc
    rw [hne, Bool.false_and, if_neg Bool.false_ne_true]

end State

/-! ## What holds of the connections -/

namespace Traced

structure Sound (s : Traced NC) : Prop where
  nodup : (s.state.connections.1.map (·.connectionId)).Nodup
  /-- no id is `0` -/
  id_ne_zero (c : PushConnection) (hc : c ∈ s.state.connections.1) : c.connectionId ≠ 0
  /-- the options are those that were written last -/
  copied (c : PushConnection) (hc : c ∈ s.state.connections.1) :
    Copied (s.written c.connectionId) c.transportOptions.1

def Relies (s : Traced NC) : Task → Prop
  | .onAllocate _ id request storedOptions => id ≠ 0 ∧ ¬s.state.Has id ∧ Copied request storedOptions.1
  | .onModify _ _ request storedOptions => Copied request storedOptions.1
  | .onDeallocate .. | .onSetStatus .. | .onManuallyTrigger .. | .tidyUp .. => True

/-- Two commands get on with each other, unless both allocate the same id. -/
def Apart : Task → Task → Prop
  | .onAllocate _ id _ _, .onAllocate _ id' _ _ => id ≠ id'
  | _, _ => True

theorem apart_symm (t u : Task) (h : Apart t u) : Apart u t := by
  cases t <;> cases u <;> first | trivial | exact h.symm

/-- What a step of a command of a fabric may do. -/
structure Isolated (fabIdx : BitVec 8) (s s' : Traced NC) (t : Option Task) : Prop where
  /-- the connections of the other fabrics are as they were -/
  others : s'.state.others fabIdx = s.state.others fabIdx
  own (u : Task) (hu : u ∈ t) : u.fabIdx = fabIdx
  /-- the application is told of connections of the fabric only -/
  told (u : Task) (hu : u ∈ t) (c : PushConnection) (hc : c ∈ s'.state.connections.1)
    (hcovers : u.covers c = true) : c.fabricIndex = fabIdx

variable {s s' : Traced NC} {state : State NC} {fabIdx : BitVec 8} {id : BitVec 16}

theorem Sound.fabricIndex_eq {c : PushConnection} (hs : s.Sound) (howns : s.state.owns fabIdx id = true)
    (hc : c ∈ s.state.connections.1) (hid : id = c.connectionId) : c.fabricIndex = fabIdx := by
  obtain ⟨c', hc', hid', hfab⟩ := State.owns_iff.mp howns
  obtain rfl := Rows.eq_of_key_eq (f := PushConnection.connectionId) hs.nodup hc hc' (hid.symm.trans hid'.symm)
  exact hfab

theorem Sound.of_connections (hs : s.Sound) (h : state.connections = s.state.connections) :
    Sound { s with state } := by
  obtain ⟨hnodup, hne, hcopied⟩ := hs
  simp only [← h] at hnodup hne hcopied
  exact ⟨hnodup, hne, hcopied⟩

theorem relies_of_ids {t : Task} {written : BitVec 16 → List UInt8} (ht : s.Relies t)
    (h : ∀ id, state.Has id → s.state.Has id) : Relies ⟨state, written⟩ t := by
  cases t with
  | onAllocate fabIdx id request storedOptions =>
    obtain ⟨hne, hnew, hcopied⟩ := ht
    exact ⟨hne, fun hid => hnew (h id hid), hcopied⟩
  | _ => exact ht

theorem Sound.push {row : PushConnection} {request : List UInt8} (hs : s.Sound)
    (hrows : state.connections.1 = s.state.connections.1 ++ [row]) (hne : row.connectionId ≠ 0)
    (hnew : ¬s.state.Has row.connectionId) (hcopied : Copied request row.transportOptions.1) :
    Sound ⟨state, Function.update s.written row.connectionId request⟩ := by
  have hcases {c : PushConnection} (hc : c ∈ state.connections.1) :
      (c ∈ s.state.connections.1 ∧ c.connectionId ≠ row.connectionId) ∨ c = row := by
    rw [hrows] at hc
    rcases List.mem_append.mp hc with hc | hc
    · exact .inl ⟨hc, fun h => hnew ⟨c, hc, h⟩⟩
    · exact .inr (List.mem_singleton.mp hc)
  refine ⟨?_, fun c hc => ?_, fun c hc => ?_⟩
  · change (state.connections.1.map _).Nodup
    rw [hrows]
    exact Rows.nodup_append hs.nodup hnew
  · rcases hcases hc with ⟨hc, _⟩ | rfl
    · exact hs.id_ne_zero c hc
    · exact hne
  · change Copied (Function.update s.written row.connectionId request c.connectionId) _
    rcases hcases hc with ⟨hc, hother⟩ | rfl
    · rw [Function.update_of_ne hother]
      exact hs.copied c hc
    · rw [Function.update_self]
      exact hcopied

theorem Sound.deallocated (hs : s.Sound) (fabIdx : BitVec 8) (id : BitVec 16) :
    Sound { s with state := s.state.deallocated fabIdx id } :=
  ⟨Rows.nodup_filter _ hs.nodup, fun c hc => hs.id_ne_zero c (List.mem_of_mem_filter hc),
    fun c hc => hs.copied c (List.mem_of_mem_filter hc)⟩

theorem Sound.modified {request : List UInt8} {storedOptions : HVec UInt8 MAX_TRANSPORT_OPTIONS_BYTES}
    (hs : s.Sound) (fabIdx : BitVec 8) (id : BitVec 16) (hcopied : Copied request storedOptions.1) :
    Sound ⟨s.state.modified fabIdx id storedOptions,
      if s.state.owns fabIdx id then Function.update s.written id request else s.written⟩ := by
  rcases s.state.modified_spec fabIdx id storedOptions with ⟨i, r, howns, hr, rfl, _, hrows⟩ | ⟨howns, hsame⟩
  · rw [howns, if_pos rfl]
    rw [Rows.modify_eq_set _ hr] at hrows
    have hcases {c : PushConnection} (hc : c ∈ (s.state.modified fabIdx r.connectionId storedOptions).connections.1) :
        c = { r with transportOptions := storedOptions } ∨
          (c ∈ s.state.connections.1 ∧ c.connectionId ≠ r.connectionId) := by
      rw [hrows] at hc
      exact Rows.mem_set_cases (f := PushConnection.connectionId) hs.nodup hr hc
    refine ⟨?_, fun c hc => ?_, fun c hc => ?_⟩
    · exact s.state.ids_modified fabIdx r.connectionId storedOptions ▸ hs.nodup
    · rcases hcases hc with rfl | ⟨hc, _⟩
      · exact hs.id_ne_zero r (List.mem_of_getElem? hr)
      · exact hs.id_ne_zero c hc
    · change Copied (Function.update s.written r.connectionId request c.connectionId) _
      rcases hcases hc with rfl | ⟨hc, hother⟩
      · rw [Function.update_self]
        exact hcopied
      · rw [Function.update_of_ne hother]
        exact hs.copied c hc
  · rw [howns, if_neg Bool.false_ne_true, hsame]
    exact hs

theorem Sound.withStatus (hs : s.Sound) (fabIdx : BitVec 8) (id : Option (BitVec 16))
    (status : TransportStatus) : Sound { s with state := s.state.withStatus fabIdx id status } := by
  have hcases {c : PushConnection} (hc : c ∈ (s.state.withStatus fabIdx id status).connections.1) :
      ∃ c₀ ∈ s.state.connections.1, c.connectionId = c₀.connectionId ∧ c.transportOptions = c₀.transportOptions := by
    obtain ⟨c₀, hc₀, rfl⟩ := List.mem_map.mp hc
    refine ⟨c₀, hc₀, ?_⟩
    split <;> exact ⟨rfl, rfl⟩
  refine ⟨s.state.ids_withStatus fabIdx id status ▸ hs.nodup, fun c hc => ?_, fun c hc => ?_⟩
  · obtain ⟨c₀, hc₀, hid, _⟩ := hcases hc
    exact hid ▸ hs.id_ne_zero c₀ hc₀
  · obtain ⟨c₀, hc₀, hid, hoptions⟩ := hcases hc
    exact hid ▸ hoptions ▸ hs.copied c₀ hc₀

theorem task?_eq_some {r : Except (Stop ErrorCode) Next} {u : Task} (h : task? r = some u) :
    r = .ok (.wait u) := by
  cases r with
  | error e => cases h
  | ok next =>
    cases next with
    | wait t => exact congrArg (Except.ok ∘ Next.wait) (Option.some.inj h)
    | _ => cases h

end Traced

/-! ## The steps -/

/-- The connections, and the commands that wait for the application. -/
abbrev World (NC : ℕ) := Suspending.World (Traced NC) Task

/-- The id of a new connection is not one of the table, nor one that an allocation waits with; and who sets
the status of all connections has all of them. -/
def Suits (w : World NC) : Suspending.Act Command (Except PushAvError Unit) → Prop
  | .start (.allocatePushTransport _ transportOptions) =>
    ∀ r, w.state.state.checkAllocate transportOptions = .ok r → ¬w.state.state.Has w.state.state.nextConnectionId ∧
      ∀ fabIdx id request storedOptions, .onAllocate fabIdx id request storedOptions ∈ w.waiting →
        id ≠ w.state.state.nextConnectionId
  | .start (.setTransportStatus fabIdx (.ok none) (.ok _)) =>
    ∀ c ∈ w.state.state.connections.1, c.fabricIndex = fabIdx
  | _ => True

namespace Traced

variable {s' : Traced NC} {w : World NC}

theorem start_holds {c : Command} {t : Option Task} (hok : Suits w (.start c))
    (hw : Suspending.HoldsApart Sound Relies Apart w) (hstep : start w.state c = some (s', t)) :
    (Sound s' ∧ (∀ u ∈ t, Relies s' u ∧ ∀ v ∈ w.waiting, Apart u v) ∧ ∀ u ∈ w.waiting, Relies s' u) ∧
      Isolated c.fabIdx w.state s' t := by
  rcases hrun : (State.start c).run w.state.state with ⟨state, r⟩
  rw [start, hrun] at hstep
  obtain ⟨rfl, rfl⟩ := Prod.mk.inj (Option.some.inj hstep)
  -- no command changes the table before it has asked the application
  have hquiet {state : State NC} {t : Option Task} (hsame : state.connections = w.state.state.connections)
      (hown : ∀ u ∈ t, (Relies w.state u ∧ ∀ v ∈ w.waiting, Apart u v) ∧ u.fabIdx = c.fabIdx ∧
        ∀ row ∈ w.state.state.connections.1, u.covers row = true → row.fabricIndex = c.fabIdx) :
      (Sound { w.state with state } ∧ (∀ u ∈ t, Relies { w.state with state } u ∧ ∀ v ∈ w.waiting, Apart u v) ∧
        ∀ u ∈ w.waiting, Relies { w.state with state } u) ∧ Isolated c.fabIdx w.state { w.state with state } t := by
    have hids (id : BitVec 16) (h : state.Has id) : w.state.state.Has id := by
      rwa [State.Has, hsame] at h
    refine ⟨⟨hw.state.of_connections hsame, fun u hu => (hown u hu).1.imp_left fun h => relies_of_ids h hids,
      fun u hu => relies_of_ids (hw.waiting u hu) hids⟩, ?_, fun u hu => (hown u hu).2.1,
      fun u hu row hrow => (hown u hu).2.2 row ?_⟩
    · rw [State.others, State.others, hsame]
    · exact hsame ▸ hrow
  -- what the application is told is an id that the fabric owns
  have howned {u : Task} {id : BitVec 16} (howns : w.state.state.owns c.fabIdx id = true)
      (hid : u.connectionId? = some id) (row : PushConnection) (hrow : row ∈ w.state.state.connections.1)
      (hcovers : u.covers row = true) : row.fabricIndex = c.fabIdx := by
    rw [Task.covers, hid] at hcovers
    exact hw.state.fabricIndex_eq howns hrow (eq_of_beq hcovers)
  cases c with
  | allocatePushTransport fabIdx transportOptions =>
    rcases w.state.state.handleAllocatePushTransport_spec fabIdx transportOptions with
      ⟨state', options, storedOptions, hcheck, hspec, hsame⟩ | ⟨e, hspec⟩
    · obtain ⟨rfl, rfl⟩ := Prod.mk.inj (hrun.symm.trans hspec)
      obtain ⟨hnew, hwaiting⟩ := hok _ hcheck
      refine hquiet hsame fun u hu => ?_
      obtain rfl := Option.some.inj hu
      refine ⟨⟨⟨State.nextConnectionId_ne_zero _, hnew, State.copied_of_checkAllocate hcheck⟩, fun v hv => ?_⟩, rfl,
        fun row hrow hcovers => absurd ⟨row, hrow, (eq_of_beq hcovers).symm⟩ hnew⟩
      cases v with
      | onAllocate fabIdx' id request storedOptions' => exact (hwaiting fabIdx' id request storedOptions' hv).symm
      | _ => trivial
    · obtain ⟨rfl, rfl⟩ := Prod.mk.inj (hrun.symm.trans hspec)
      exact hquiet rfl nofun
  | deallocatePushTransport fabIdx connectionId =>
    obtain ⟨rfl, rfl⟩ := Prod.mk.inj hrun
    refine hquiet rfl fun u hu => ?_
    obtain ⟨id, rfl, howns⟩ := State.handleDeallocatePushTransport_wait (task?_eq_some hu)
    exact ⟨⟨trivial, fun _ _ => trivial⟩, rfl, howned howns rfl⟩
  | modifyPushTransport fabIdx connectionId transportOptions =>
    obtain ⟨rfl, rfl⟩ := Prod.mk.inj hrun
    refine hquiet rfl fun u hu => ?_
    obtain ⟨id, options, storedOptions, rfl, howns, hcopied⟩ :=
      State.handleModifyPushTransport_wait (task?_eq_some hu)
    exact ⟨⟨hcopied, fun _ _ => trivial⟩, rfl, howned howns rfl⟩
  | setTransportStatus fabIdx connectionId transportStatus =>
    obtain ⟨rfl, rfl⟩ := Prod.mk.inj hrun
    refine hquiet rfl fun u hu => ?_
    obtain ⟨id, status, rfl, rfl, rfl, howns⟩ := State.handleSetTransportStatus_wait (task?_eq_some hu)
    refine ⟨⟨trivial, fun _ _ => trivial⟩, rfl, fun row hrow hcovers => ?_⟩
    cases id with
    | none => exact hok row hrow
    | some id => exact howned howns rfl row hrow hcovers
  | manuallyTriggerTransport fabIdx connectionId details =>
    obtain ⟨rfl, rfl⟩ := Prod.mk.inj hrun
    refine hquiet rfl fun u hu => ?_
    obtain ⟨id, rfl, howns⟩ := State.handleManuallyTriggerTransport_wait (task?_eq_some hu)
    exact ⟨⟨trivial, fun _ _ => trivial⟩, rfl, howned howns rfl⟩
  | findTransport fabIdx connectionId =>
    obtain ⟨rfl, rfl⟩ := Prod.mk.inj hrun
    refine hquiet rfl fun u hu => ?_
    obtain ⟨id, hnext⟩ := State.handleFindTransport_eq_ok (task?_eq_some hu)
    cases hnext

theorem resume_holds {i : ℕ} {t : Task} {o : Except PushAvError Unit} {u : Option Task}
    (hw : Suspending.HoldsApart Sound Relies Apart w) (ht : w.waiting[i]? = some t)
    (hstep : resume w.state t o = some (s', u)) (happart : ∀ v ∈ w.waiting.eraseIdx i, Apart t v) :
    (Sound s' ∧ (∀ v ∈ u, Relies s' v ∧ ∀ x ∈ w.waiting.eraseIdx i, Apart v x) ∧
      ∀ v ∈ w.waiting.eraseIdx i, Relies s' v) ∧ Isolated t.fabIdx w.state s' u := by
  rcases hrun : (State.resume t o).run w.state.state with ⟨state, r⟩
  rw [resume, hrun] at hstep
  obtain ⟨rfl, rfl⟩ := Prod.mk.inj (Option.some.inj hstep)
  have hothers (v : Task) (hv : v ∈ w.waiting.eraseIdx i) : Relies w.state v :=
    hw.waiting v (List.mem_of_mem_eraseIdx hv)
  have hself : Relies w.state t := hw.waiting t (List.mem_of_getElem? ht)
  -- where the command ends without a change
  have hfail (he : ∃ e, r = .error e) (hsame : state = w.state.state) :
      (Sound ⟨state, noteResume w.state.state w.state.written t r⟩ ∧
        (∀ v ∈ task? r, Relies ⟨state, noteResume w.state.state w.state.written t r⟩ v ∧
          ∀ x ∈ w.waiting.eraseIdx i, Apart v x) ∧
        ∀ v ∈ w.waiting.eraseIdx i, Relies ⟨state, noteResume w.state.state w.state.written t r⟩ v) ∧
      Isolated t.fabIdx w.state ⟨state, noteResume w.state.state w.state.written t r⟩ (task? r) := by
    obtain ⟨e, rfl⟩ := he
    subst hsame
    have hnote : noteResume w.state.state w.state.written t (.error e) = w.state.written := by
      cases t <;> rfl
    rw [hnote]
    exact ⟨⟨hw.state, nofun, hothers⟩, rfl, nofun, nofun⟩
  cases o with
  | error e =>
    cases t with
    | onAllocate | onDeallocate | onModify | onSetStatus | onManuallyTrigger | tidyUp =>
      obtain ⟨rfl, rfl⟩ := Prod.mk.inj hrun
      exact hfail ⟨_, rfl⟩ rfl
  | ok _ =>
    cases t with
    | onAllocate fabIdx id request storedOptions =>
      obtain ⟨hne, hnew, hcopied⟩ := hself
      rcases w.state.state.finishAllocate_spec ⟨id, fabIdx, .inactive, storedOptions⟩ with
        ⟨state', hspec, hrows⟩ | hspec
      · obtain ⟨rfl, rfl⟩ := Prod.mk.inj (hrun.symm.trans hspec)
        refine ⟨⟨hw.state.push hrows hne hnew hcopied, nofun, fun v hv => ?_⟩, State.others_append rfl hrows,
          nofun, nofun⟩
        cases v with
        | onAllocate fabIdx' id' request' storedOptions' =>
          obtain ⟨hne', hnew', hcopied'⟩ := hothers _ hv
          refine ⟨hne', fun h => ?_, hcopied'⟩
          rw [State.Has, hrows] at h
          exact (Rows.has_append.mp h).elim hnew' (happart _ hv)
        | _ => exact hothers _ hv
      · obtain ⟨rfl, rfl⟩ := Prod.mk.inj (hrun.symm.trans hspec)
        refine ⟨⟨hw.state, fun v hv => ?_, hothers⟩, rfl, fun v hv => ?_, fun v hv row hrow hcovers => ?_⟩
        · obtain rfl := Option.some.inj hv
          exact ⟨trivial, fun _ _ => trivial⟩
        · obtain rfl := Option.some.inj hv
          rfl
        · obtain rfl := Option.some.inj hv
          exact absurd ⟨row, hrow, (eq_of_beq hcovers).symm⟩ hnew
    | onDeallocate fabIdx id =>
      obtain ⟨rfl, rfl⟩ := Prod.mk.inj hrun
      refine ⟨⟨hw.state.deallocated fabIdx id, nofun, fun v hv => relies_of_ids (hothers v hv) ?_⟩,
        w.state.state.others_deallocated fabIdx id, nofun, nofun⟩
      exact fun id ⟨c, hc, hid⟩ => ⟨c, List.mem_of_mem_filter hc, hid⟩
    | onModify fabIdx id request storedOptions =>
      obtain ⟨rfl, rfl⟩ := Prod.mk.inj hrun
      refine ⟨⟨hw.state.modified fabIdx id hself, nofun, fun v hv => relies_of_ids (hothers v hv) fun i hi => ?_⟩,
        w.state.state.others_modified fabIdx id storedOptions, nofun, nofun⟩
      exact (Rows.has_congr (w.state.state.ids_modified fabIdx id storedOptions)).mp hi
    | onSetStatus fabIdx id status =>
      obtain ⟨rfl, rfl⟩ := Prod.mk.inj hrun
      refine ⟨⟨hw.state.withStatus fabIdx id status, nofun, fun v hv => relies_of_ids (hothers v hv) fun i hi => ?_⟩,
        w.state.state.others_withStatus fabIdx id status, nofun, nofun⟩
      exact (Rows.has_congr (w.state.state.ids_withStatus fabIdx id status)).mp hi
    | onManuallyTrigger fabIdx id =>
      obtain ⟨rfl, rfl⟩ := Prod.mk.inj hrun
      exact ⟨⟨hw.state, nofun, hothers⟩, rfl, nofun, nofun⟩
    | tidyUp fabIdx id =>
      obtain ⟨rfl, rfl⟩ := Prod.mk.inj hrun
      exact hfail ⟨_, rfl⟩ rfl

end Traced

/-! ## Whole runs -/

def World.new : World NC := ⟨.new, []⟩

theorem holds_new : Suspending.HoldsApart Traced.Sound Traced.Relies Traced.Apart (World.new : World NC) :=
  ⟨⟨⟨List.nodup_nil, fun _ hc => absurd hc List.not_mem_nil, fun _ hc => absurd hc List.not_mem_nil⟩,
    fun _ h => absurd h List.not_mem_nil⟩, List.Pairwise.nil⟩

theorem holds_of_step (w : World NC) (a : Suspending.Act Command (Except PushAvError Unit)) (w' : World NC)
    (hok : Suits w a) (hw : Suspending.HoldsApart Traced.Sound Traced.Relies Traced.Apart w)
    (hstep : (Traced.program NC).machine.step w a = some w') :
    Suspending.HoldsApart Traced.Sound Traced.Relies Traced.Apart w' :=
  Suspending.holdsApart_step (P := Traced.program NC) Suits Traced.apart_symm
    (fun _ _ _ _ hok hw hstep => (Traced.start_holds hok hw hstep).1)
    (fun _ _ _ _ _ _ _ hw ht hstep happart => (Traced.resume_holds hw ht hstep happart).1) w a w' hok hw hstep

/-- What is read back of a connection: what was written for it last, byte for byte, under a tag of its
own. -/
def ReadBack (written : List UInt8) (c : PushConnection) : Prop :=
  ∃ value, TLVElement.HasValue written .struct value ∧ ∀ wb tag,
    writeConnection wb tag c = (do
      let wb ← wb.startStruct tag
      let wb ← wb.u16 (.context 0) c.connectionId
      let wb ← wb.u8 (.context 1) c.status.toByte
      let wb ← wb.writeRawData (elemBytes (.context 2) .struct ++ value)
      let wb ← wb.u8 (.context 254) c.fabricIndex
      wb.endContainer)

theorem readBack_of_copied {written : List UInt8} {c : PushConnection}
    (h : Copied written c.transportOptions.1) : ReadBack written c := by
  obtain ⟨value, hvalue, hstored⟩ := h
  have hcopy : TLVElement.HasValue c.transportOptions.1 .struct value :=
    hstored ▸ TLVElement.hasValue_copy .anonymous hvalue
  have hempty : c.transportOptions.1.isEmpty = false := by
    rw [hstored]
    rfl
  refine ⟨value, hvalue, fun wb tag => ?_⟩
  simp only [writeConnection, hempty, Bool.false_eq_true, if_false, TLVElement.toTlv_of_hasValue hcopy]

/-- What the connections are like, and what a command may do next. -/
structure Correct (w : World NC) : Prop where
  nodup : (w.state.state.connections.1.map (·.connectionId)).Nodup
  readBack (c : PushConnection) (hc : c ∈ w.state.state.connections.1) :
    ReadBack (w.state.written c.connectionId) c
  /-- a command that begins keeps to its fabric -/
  start (c : Command) (s' : Traced NC) (t : Option Task) (hok : Suits w (.start c))
    (hstep : Traced.start w.state c = some (s', t)) : Traced.Isolated c.fabIdx w.state s' t
  resume (i : ℕ) (t : Task) (o : Except PushAvError Unit) (s' : Traced NC) (u : Option Task)
    (ht : w.waiting[i]? = some t) (hstep : Traced.resume w.state t o = some (s', u)) :
    Traced.Isolated t.fabIdx w.state s' u
  /-- who allocates a connection is told of this connection -/
  answer (fabIdx : BitVec 8) (id : BitVec 16) (request : List UInt8)
    (storedOptions : HVec UInt8 MAX_TRANSPORT_OPTIONS_BYTES)
    (ht : .onAllocate fabIdx id request storedOptions ∈ w.waiting) (o : Except PushAvError Unit)
    (s' : State NC) (cs : List PushConnection)
    (hrun : (State.resume (.onAllocate fabIdx id request storedOptions) o).run w.state.state =
      (s', .ok (.configurations cs))) :
    cs = [⟨id, fabIdx, .inactive, storedOptions⟩] ∧ cs ⊆ s'.connections.1 ∧
      Copied request storedOptions.1

/-- **Push transports**: while the ids are new and nobody sets the status of the connections of others,
each fabric is on its own after every run. -/
theorem transports_isolated (NC : ℕ) (as : List (Suspending.Act Command (Except PushAvError Unit)))
    (w : World NC) (hsuits : (Traced.program NC).machine.Meets Suits World.new as)
    (hrun : (Traced.program NC).machine.run World.new as = some w) : Correct w := by
  have hw := Machine.invariant_of_meets holds_of_step holds_new hsuits hrun
  refine ⟨hw.state.nodup, fun c hc => readBack_of_copied (hw.state.copied c hc),
    fun c s' t hok hstep => (Traced.start_holds hok hw hstep).2, fun i t o s' u ht hstep => ?_,
    fun fabIdx id request storedOptions ht o s' cs hrun => ?_⟩
  · exact (Traced.resume_holds hw ht hstep fun v hv =>
      Suspending.apart_of_getElem? Traced.apart_symm hw.apart ht hv).2
  · obtain ⟨_, _, hcopied⟩ := hw.waiting _ ht
    cases o with
    | error e => cases hrun
    | ok _ =>
      rcases w.state.state.finishAllocate_spec ⟨id, fabIdx, .inactive, storedOptions⟩ with
        ⟨state', hspec, hrows⟩ | hspec
      · obtain ⟨rfl, hcs⟩ := Prod.mk.inj (hrun.symm.trans hspec)
        obtain rfl := Next.configurations.inj (Except.ok.inj hcs)
        exact ⟨rfl, hrows ▸ List.subset_append_right _ _, hcopied⟩
      · cases hrun.symm.trans hspec

namespace Sample

def options : List UInt8 := [0x15, 0x2c, 0x04, 0x01, 0x61, 0x18]

def storedOptions : HVec UInt8 MAX_TRANSPORT_OPTIONS_BYTES := ⟨options, by decide⟩

def allocate (fabIdx : BitVec 8) : Suspending.Act Command (Except PushAvError Unit) :=
  .start (.allocatePushTransport fabIdx (.ok options))

/-- A fabric has a connection, and another fabric wants one. -/
def allocated : List (Suspending.Act Command (Except PushAvError Unit)) :=
  [allocate 1, .resume 0 (.ok ()), allocate 2]

theorem meets_allocated : (Traced.program 2).machine.Meets Suits World.new allocated := by
  refine ⟨fun _ _ => ⟨?_, nofun⟩, fun w hw => ?_⟩
  · rintro ⟨c, hc, _⟩
    exact absurd hc List.not_mem_nil
  obtain rfl := Option.some.inj hw
  refine ⟨trivial, fun w hw => ?_⟩
  obtain rfl := Option.some.inj hw
  refine ⟨fun _ _ => ⟨?_, nofun⟩, fun _ _ => trivial⟩
  rintro ⟨c, hc, hid⟩
  obtain rfl := List.mem_singleton.mp hc
  exact absurd hid (by decide)

def refused : List (Suspending.Act Command (Except PushAvError Unit)) :=
  [allocate 2, .resume 0 (.error .failure)]

def world (nextId : BitVec 16) : World 2 :=
  ⟨⟨⟨⟨[⟨1, 1, .inactive, storedOptions⟩], by decide⟩, nextId⟩, Function.update (fun _ => []) 1 options⟩, []⟩

theorem run_refused {nextId : BitVec 16} (h : 0 < nextId.toNat) (hlt : nextId.toNat + 1 < 2 ^ 16) :
    (Traced.program 2).machine.run (world nextId) refused = some (world (nextId + 1)) := by
  have hid : (world nextId).state.state.nextConnectionId = nextId := if_neg (by rintro rfl; cases h)
  have hstart : (Traced.program 2).machine.step (world nextId) (allocate 2) = some ⟨⟨⟨⟨[⟨1, 1, .inactive,
      storedOptions⟩], by decide⟩, if nextId + 1 = 0 then 1 else nextId + 1⟩,
      Function.update (fun _ => []) 1 options⟩, [.onAllocate 2 nextId options storedOptions]⟩ := by
    conv_rhs => rw [← hid]
    rfl
  have hne : nextId + 1 ≠ 0 := by
    intro heq
    bv_omega
  rw [if_neg hne] at hstart
  rw [refused, Machine.run_cons, hstart]
  rfl

theorem run_refused_often (n : ℕ) {nextId : BitVec 16} (h : 0 < nextId.toNat) (hlt : nextId.toNat + n < 2 ^ 16) :
    (Traced.program 2).machine.run (world nextId) (List.replicate n refused).flatten =
      some (world (nextId + BitVec.ofNat 16 n)) := by
  induction n generalizing nextId with
  | zero => simp
  | succ n ih =>
    have hnext : (nextId + 1).toNat = nextId.toNat + 1 := by bv_omega
    rw [List.replicate_succ, List.flatten_cons, Machine.run_append, run_refused h (by omega), Option.bind_some,
      ih (by omega) (by omega)]
    congr 2
    bv_omega

end Sample

/-- A fabric has a connection, and another fabric wants one. -/
theorem transports_isolated_allocated : ∃ w : World 2,
    (Traced.program 2).machine.run World.new Sample.allocated = some w ∧ Correct w ∧
      w.state.state.connections.1 = [⟨1, 1, .inactive, Sample.storedOptions⟩] ∧
      w.waiting = [.onAllocate 2 2 Sample.options Sample.storedOptions] :=
  ⟨_, rfl, transports_isolated 2 Sample.allocated _ Sample.meets_allocated rfl, rfl, rfl⟩

/-- **Connections of others.** A fabric sets the status of all connections, and the application is not told
that these are its own; and a fabric gets an id that another fabric has. -/
theorem status_covers_others :
    (∃ w : World 2, (Traced.program 2).machine.run World.new
        [Sample.allocate 1, .resume 0 (.ok ()), .start (.setTransportStatus 2 (.ok none) (.ok .active))] = some w ∧
      w.waiting = [.onSetStatus 2 none .active] ∧
      ∃ c ∈ w.state.state.connections.1, c.fabricIndex ≠ 2 ∧
        Task.covers (.onSetStatus 2 none .active) c = true) ∧
    ∃ as, ∃ w : World 2, (Traced.program 2).machine.run World.new as = some w ∧
      w.state.state.connections.1 =
        [⟨1, 1, .inactive, Sample.storedOptions⟩, ⟨1, 2, .inactive, Sample.storedOptions⟩] := by
  refine ⟨⟨_, rfl, rfl, _, List.mem_singleton.mpr rfl, by decide, rfl⟩,
    [Sample.allocate 1, .resume 0 (.ok ())] ++ ((List.replicate 65533 Sample.refused).flatten ++
      (Sample.refused ++ [Sample.allocate 2, .resume 0 (.ok ())])), ?_⟩
  have hfirst : (Traced.program 2).machine.run World.new [Sample.allocate 1, .resume 0 (.ok ())] =
      some (Sample.world 2) := rfl
  rw [Machine.run_append, hfirst, Option.bind_some, Machine.run_append,
    Sample.run_refused_often 65533 (by decide) (by decide), Option.bind_some]
  exact ⟨_, rfl, rfl⟩

end PushAv

end RsMatter
