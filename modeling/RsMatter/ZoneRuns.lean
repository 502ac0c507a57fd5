import RsMatter.KeyedRows
import RsMatter.ZoneMgmt

/-!
# Zones and triggers over whole runs

What a command does before it has asked the application is seen by the others, and they may build on
it. It can be taken back as long as nobody has: the zone of a failed creation has no trigger, the zone of a
failed change has not been changed again, and the zone of a failed trigger has no other.
-/

namespace RsMatter

open Prog

namespace ZoneMgmt

variable {NZ NV NT : ℕ}

/-! ## What each part does to the tables -/

namespace State

variable {s s' : State NZ NV NT} {id : BitVec 16}

def HasZone (s : State NZ NV NT) (id : BitVec 16) : Prop := Rows.Has Zone.zoneId s.zones.1 id

def zone? (s : State NZ NV NT) (id : BitVec 16) : Option (Zone NV) := s.zones.1.find? (·.zoneId == id)

def trigger? (s : State NZ NV NT) (id : BitVec 16) : Option Trigger := s.triggers.1.find? (·.zoneId == id)

/-- The zones that were there from the beginning. -/
def mfgZones (s : State NZ NV NT) : List (Zone NV) := s.zones.1.filter fun z => z.zoneSource == .mfg

/-- A zone is not one that was there from the beginning. -/
def OfUser (s : State NZ NV NT) (id : BitVec 16) : Prop :=
  ∀ z ∈ s.zones.1, z.zoneId = id → z.zoneSource = .user

theorem zone?_eq_none : s.zone? id = none ↔ ¬s.HasZone id := Rows.find?_eq_none (f := Zone.zoneId)

theorem zone?_congr (h : s'.zones = s.zones) (id : BitVec 16) : s'.zone? id = s.zone? id := by
  rw [zone?, h, zone?]

theorem trigger?_congr (h : s'.triggers = s.triggers) (id : BitVec 16) : s'.trigger? id = s.trigger? id := by
  rw [trigger?, h, trigger?]

theorem nextZoneId_ne_zero (s : State NZ NV NT) : s.nextZoneId ≠ 0 := by
  rw [nextZoneId]
  split
  · exact nofun
  · assumption

theorem run_allocZoneId (s : State NZ NV NT) : ∃ nextId,
    allocZoneId.run s = ({ s with nextId }, .ok s.nextZoneId) := ⟨_, rfl⟩

theorem pushZone_spec (s : State NZ NV NT) (zone : Zone NV) :
    (∃ s', (pushZone zone).run s = (s', .ok true) ∧ s.zones.1.length < NZ ∧
      s'.zones.1 = s.zones.1 ++ [zone] ∧ s'.triggers = s.triggers) ∨
      (¬s.zones.1.length < NZ ∧ (pushZone zone).run s = (s, .ok false)) := by
  unfold pushZone
  rw [run_bind_of_ok (run_get _)]
  cases hpush : s.zones.push zone .resourceExhausted with
  | ok zones =>
    obtain ⟨hroom, hzones⟩ := HVec.push_eq_ok.mp hpush
    exact .inl ⟨_, rfl, hroom, hzones, rfl⟩
  | error e =>
    refine .inr ⟨fun hroom => ?_, rfl⟩
    rw [HVec.push, dif_pos hroom] at hpush
    cases hpush

theorem replaceZone_spec (s : State NZ NV NT) (zone : Zone NV) :
    (∃ i r, s.zones.1[i]? = some r ∧ zone.zoneId = r.zoneId ∧
      (s.replaceZone zone).zones.1 = s.zones.1.set i zone) ∨
      (¬s.HasZone zone.zoneId ∧ s.replaceZone zone = s) := by
  rw [replaceZone]
  split
  · next i hfind =>
    obtain ⟨r, hr, hid⟩ := Rows.findIdx?_eq_some (f := Zone.zoneId) hfind
    exact .inl ⟨i, r, hr, hid.symm, rfl⟩
  · next hfind => exact .inr ⟨Rows.findIdx?_eq_none.mp hfind, rfl⟩

theorem replaceZone_triggers (s : State NZ NV NT) (zone : Zone NV) :
    (s.replaceZone zone).triggers = s.triggers := by
  rw [replaceZone]
  split <;> rfl

/-- What a trigger does to the triggers: it takes the place of that of its zone, or comes to the others. -/
theorem putTrigger_spec (s : State NZ NV NT) (trigger : Trigger) :
    (∃ s' i r, (putTrigger trigger).run s = (s', .ok true) ∧ s'.zones = s.zones ∧
      s.triggers.1[i]? = some r ∧ trigger.zoneId = r.zoneId ∧ s'.triggers.1 = s.triggers.1.set i trigger) ∨
    (∃ s', (putTrigger trigger).run s = (s', .ok true) ∧ s'.zones = s.zones ∧
      ¬Rows.Has Trigger.zoneId s.triggers.1 trigger.zoneId ∧ s'.triggers.1 = s.triggers.1 ++ [trigger]) ∨
    (putTrigger trigger).run s = (s, .ok false) := by
  unfold putTrigger
  rw [run_bind_of_ok (run_get _)]
  cases hfind : s.triggers.1.findIdx? (·.zoneId == trigger.zoneId) with
  | some i =>
    obtain ⟨r, hr, hid⟩ := Rows.findIdx?_eq_some (f := Trigger.zoneId) hfind
    exact .inl ⟨_, i, r, rfl, rfl, hr, hid.symm, rfl⟩
  | none =>
    have hnew := Rows.findIdx?_eq_none.mp hfind
    cases hpush : s.triggers.push trigger .resourceExhausted with
    | ok triggers => exact .inr (.inl ⟨{ s with triggers }, rfl, rfl, hnew, (HVec.push_eq_ok.mp hpush).2⟩)
    | error e => exact .inr (.inr rfl)

/-! ### Looking up -/

theorem zone?_push (hnodup : (s.zones.1.map (·.zoneId)).Nodup) {zone : Zone NV}
    (hnew : ¬s.HasZone zone.zoneId) (hzones : s'.zones.1 = s.zones.1 ++ [zone]) (id : BitVec 16) :
    s'.zone? id = if id = zone.zoneId then some zone else s.zone? id := by
  rw [zone?, hzones]
  exact Rows.find?_append (f := Zone.zoneId) hnodup hnew

theorem zone?_replaceZone (hnodup : (s.zones.1.map (·.zoneId)).Nodup) (zone : Zone NV) (id : BitVec 16) :
    (s.replaceZone zone).zone? id =
      if id = zone.zoneId then (s.zone? id).map fun _ => zone else s.zone? id := by
  rcases s.replaceZone_spec zone with ⟨i, r, hr, hkey, hzones⟩ | ⟨hnone, hsame⟩
  · rw [zone?, hzones, Rows.find?_set (f := Zone.zoneId) hnodup hr hkey, hkey]
    split
    · next h =>
      have hrow : s.zone? id = some r :=
        (Rows.find?_eq_some_iff (f := Zone.zoneId) hnodup).mpr ⟨List.mem_of_getElem? hr, h.symm⟩
      rw [hrow, Option.map_some]
    · rfl
  · rw [hsame]
    split
    · next h =>
      have hrow : s.zone? id = none := zone?_eq_none.mpr (h ▸ hnone)
      rw [hrow, Option.map_none]
    · rfl

theorem zone?_withoutZone (hnodup : (s.zones.1.map (·.zoneId)).Nodup) (zoneId id : BitVec 16) :
    (s.withoutZone zoneId).zone? id = if id = zoneId then none else s.zone? id :=
  Rows.find?_filter_ne (f := Zone.zoneId) hnodup zoneId

theorem trigger?_withoutTrigger (hnodup : (s.triggers.1.map (·.zoneId)).Nodup) (zoneId id : BitVec 16) :
    (s.withoutTrigger zoneId).trigger? id = if id = zoneId then none else s.trigger? id :=
  Rows.find?_filter_ne (f := Trigger.zoneId) hnodup zoneId

/-! ### The zones from the beginning -/

theorem mfgZones_replaceZone {zone : Zone NV} (huser : s.OfUser zone.zoneId) (hzone : zone.zoneSource = .user) :
    (s.replaceZone zone).mfgZones = s.mfgZones := by
  rcases s.replaceZone_spec zone with ⟨i, r, hr, hkey, hzones⟩ | ⟨_, hsame⟩
  · rw [mfgZones, hzones]
    refine Rows.filter_set hr ?_ ?_
    · rw [huser r (List.mem_of_getElem? hr) hkey.symm]
      rfl
    · rw [hzone]
      rfl
  · rw [hsame]

theorem mfgZones_withoutZone (huser : s.OfUser id) : (s.withoutZone id).mfgZones = s.mfgZones := by
  refine Rows.filter_filter_of fun z hz hmfg => bne_iff_ne.mpr fun h => ?_
  rw [huser z hz h] at hmfg
  exact absurd hmfg (by decide)

theorem ofUser_of_zone? (hnodup : (s.zones.1.map (·.zoneId)).Nodup) {z : Zone NV} (hfind : s.zone? id = some z)
    (huser : z.zoneSource = .user) : s.OfUser id := by
  intro z' hz' hid
  obtain ⟨hz, hkey⟩ := Rows.find?_eq_some (f := Zone.zoneId) hfind
  exact Rows.eq_of_key_eq (f := Zone.zoneId) hnodup hz hz' (hkey.trans hid.symm) ▸ huser

theorem ofUser_replaceZone {zone : Zone NV} (hzone : zone.zoneSource = .user) (h : s.OfUser id) :
    (s.replaceZone zone).OfUser id := by
  rcases s.replaceZone_spec zone with ⟨i, r, _, _, hzones⟩ | ⟨_, hsame⟩
  · intro z hz hid
    rw [hzones] at hz
    rcases List.mem_or_eq_of_mem_set hz with hz | rfl
    · exact h z hz hid
    · exact hzone
  · exact hsame.symm ▸ h

theorem ofUser_withoutZone {zoneId : BitVec 16} (h : s.OfUser id) : (s.withoutZone zoneId).OfUser id :=
  fun z hz => h z (List.mem_of_mem_filter hz)

/-! ### The commands -/

variable {config : Config}

theorem addMfgZone_spec (s : State NZ NV NT) (zone : Zone NV) :
    (∃ s', (addMfgZone zone).run s = (s', .ok s.nextZoneId) ∧ s.zones.1.length < NZ ∧
      s'.zones.1 = s.zones.1 ++ [{ zone with zoneSource := .mfg, zoneId := s.nextZoneId }] ∧
      s'.triggers = s.triggers) ∨
      ∃ s' e, (addMfgZone zone).run s = (s', .error e) ∧ s'.zones = s.zones ∧ s'.triggers = s.triggers := by
  obtain ⟨nextId, halloc⟩ := s.run_allocZoneId
  unfold addMfgZone
  rw [run_bind_of_ok halloc]
  rcases pushZone_spec { s with nextId } { zone with zoneSource := .mfg, zoneId := s.nextZoneId } with
    ⟨s', hrun, hroom, hzones, htriggers⟩ | ⟨_, hrun⟩
  · rw [run_bind_of_ok hrun]
    exact .inl ⟨s', rfl, hroom, hzones, htriggers⟩
  · rw [run_bind_of_ok hrun]
    exact .inr ⟨_, _, rfl, rfl, rfl⟩

theorem parseZonePayload_ok {payload : ZonePayload} {parsed : BitVec 16 → ZoneType → Zone NV}
    (h : parseZonePayload config payload = .ok parsed) (id : BitVec 16) (zoneType : ZoneType) :
    (parsed id zoneType).zoneId = id ∧ (parsed id zoneType).zoneSource = .user := by
  obtain ⟨_, _, h⟩ := except_bind_eq_ok.mp h
  obtain ⟨_, _, h⟩ := except_bind_eq_ok.mp h
  obtain ⟨_, _, h⟩ := except_bind_eq_ok.mp h
  obtain ⟨_, _, h⟩ := except_bind_eq_ok.mp h
  obtain ⟨_, _, h⟩ := except_bind_eq_ok.mp h
  split at h
  · cases h
  · obtain ⟨_, _, h⟩ := except_bind_eq_ok.mp h
    obtain ⟨_, _, h⟩ := except_bind_eq_ok.mp h
    obtain rfl := Except.ok.inj h
    exact ⟨rfl, rfl⟩

theorem checkCreate_ok {zone : Except ErrorCode ZonePayload} {parsed : BitVec 16 → ZoneType → Zone NV}
    (h : s.checkCreate config zone = .ok parsed) :
    s.userDefinedZoneCount < config.maxUserDefinedZones.toNat ∧
      ∀ id zoneType, (parsed id zoneType).zoneId = id ∧ (parsed id zoneType).zoneSource = .user := by
  rw [checkCreate] at h
  split at h
  · obtain ⟨_, _, h⟩ := except_bind_eq_ok.mp h
    obtain ⟨parsed', hparsed, h⟩ := except_bind_eq_ok.mp h
    split at h
    · cases h
    · next hcount =>
      obtain rfl := Except.ok.inj h
      exact ⟨Nat.lt_of_not_le hcount, parseZonePayload_ok hparsed⟩
  · cases h

theorem handleCreateTwoDCartesianZone_spec (config : Config) (s : State NZ NV NT) (zone : Except ErrorCode ZonePayload) :
    (∃ s' parsed, s.checkCreate config zone = .ok parsed ∧ s.zones.1.length < NZ ∧
      (handleCreateTwoDCartesianZone config zone).run s =
        (s', .ok (.wait (.zoneCreated (parsed s.nextZoneId .twoDCARTZone)))) ∧
      s'.zones.1 = s.zones.1 ++ [parsed s.nextZoneId .twoDCARTZone] ∧ s'.triggers = s.triggers) ∨
      ∃ s' e, (handleCreateTwoDCartesianZone config zone).run s = (s', .error e) ∧
        s'.zones = s.zones ∧ s'.triggers = s.triggers := by
  unfold handleCreateTwoDCartesianZone
  rw [run_bind_of_ok (run_get _)]
  cases hcheck : s.checkCreate config zone with
  | error e => exact .inr ⟨s, e, rfl, rfl, rfl⟩
  | ok parsed =>
    obtain ⟨nextId, halloc⟩ := s.run_allocZoneId
    rw [run_bind_of_ok (run_ofExcept (.ok parsed) _), run_bind_of_ok halloc]
    rcases pushZone_spec { s with nextId } (parsed s.nextZoneId .twoDCARTZone) with
      ⟨s', hrun, hroom, hzones, htriggers⟩ | ⟨_, hrun⟩
    · refine .inl ⟨s', parsed, rfl, hroom, ?_, hzones, htriggers⟩
      exact run_bind_of_ok hrun
    · refine .inr ⟨{ s with nextId }, .error .resourceExhausted, ?_, rfl, rfl⟩
      exact run_bind_of_ok hrun

theorem checkUpdate_ok {zoneId : Except ErrorCode (BitVec 16)} {zone : Except ErrorCode ZonePayload}
    {updated prev : Zone NV} (h : s.checkUpdate config zoneId zone = .ok (updated, prev)) :
    s.zone? updated.zoneId = some prev ∧ prev.zoneSource = .user ∧ updated.zoneSource = .user := by
  rw [checkUpdate] at h
  split at h
  · obtain ⟨id, _, h⟩ := except_bind_eq_ok.mp h
    obtain ⟨_, _, h⟩ := except_bind_eq_ok.mp h
    obtain ⟨parsed, hparsed, h⟩ := except_bind_eq_ok.mp h
    split at h
    · cases h
    · next prior hfind =>
      split at h
      · cases h
      · next hsource =>
        obtain ⟨rfl, rfl⟩ := Prod.mk.inj (Except.ok.inj h)
        obtain ⟨hid, huser⟩ := parseZonePayload_ok hparsed id prior.zoneType
        exact ⟨hid.symm ▸ hfind, not_not.mp hsource, huser⟩
  · cases h

theorem handleUpdateTwoDCartesianZone_spec (config : Config) (s : State NZ NV NT) (zoneId : Except ErrorCode (BitVec 16))
    (zone : Except ErrorCode ZonePayload) :
    (∃ updated prev, s.zone? updated.zoneId = some prev ∧ prev.zoneSource = .user ∧
      updated.zoneSource = .user ∧ (handleUpdateTwoDCartesianZone config zoneId zone).run s =
        (s.replaceZone updated, .ok (.wait (.zoneUpdated updated prev)))) ∨
      ∃ e, (handleUpdateTwoDCartesianZone config zoneId zone).run s = (s, .error e) := by
  unfold handleUpdateTwoDCartesianZone
  rw [run_bind_of_ok (run_get _)]
  cases hcheck : s.checkUpdate config zoneId zone with
  | error e => exact .inr ⟨e, rfl⟩
  | ok r =>
    obtain ⟨hfind, hprev, hupdated⟩ := checkUpdate_ok hcheck
    exact .inl ⟨r.1, r.2, hfind, hprev, hupdated, rfl⟩

theorem handleRemoveZone_spec (s : State NZ NV NT) (zoneId : Except ErrorCode (BitVec 16)) :
    (∃ id z, s.zone? id = some z ∧ z.zoneSource = .user ∧
      (handleRemoveZone zoneId).run s = (s, .ok (.wait (.zoneRemoved id)))) ∨
      ∃ e, (handleRemoveZone zoneId).run s = (s, .error e) := by
  unfold handleRemoveZone
  cases zoneId with
  | error e => exact .inr ⟨_, rfl⟩
  | ok id =>
    rw [run_bind_of_ok (run_ofExcept (Stop.lift (.ok id)) _), run_bind_of_ok (run_get _)]
    cases hfind : s.zones.1.find? (·.zoneId == id) with
    | none => exact .inr ⟨_, rfl⟩
    | some z =>
      by_cases hsource : z.zoneSource = .user
      · refine .inl ⟨id, z, hfind, hsource, ?_⟩
        exact congrArg (fun m => Prog.run m s) (if_neg (not_not.mpr hsource))
      · refine .inr ⟨.error .invalidAction, ?_⟩
        exact congrArg (fun m => Prog.run m s) (if_pos hsource)

theorem checkTrigger_ok {trigger : Except ErrorCode TriggerPayload} {t : Trigger}
    (h : s.checkTrigger config trigger = .ok t) : s.HasZone t.zoneId := by
  obtain ⟨payload, _, h⟩ := except_bind_eq_ok.mp h
  obtain ⟨zoneId, _, h⟩ := except_bind_eq_ok.mp h
  obtain ⟨_, _, h⟩ := except_bind_eq_ok.mp h
  obtain ⟨_, _, h⟩ := except_bind_eq_ok.mp h
  obtain ⟨_, _, h⟩ := except_bind_eq_ok.mp h
  obtain ⟨_, _, h⟩ := except_bind_eq_ok.mp h
  obtain ⟨_, _, h⟩ := except_bind_eq_ok.mp h
  split at h
  · cases h
  · next hany =>
    obtain ⟨z, hz, hid⟩ := List.any_eq_true.mp (not_not.mp hany)
    split at h
    · cases h
    · split at h
      · cases h
      · obtain rfl := Except.ok.inj h
        exact ⟨z, hz, eq_of_beq hid⟩

theorem handleCreateOrUpdateTrigger_spec (config : Config) (s : State NZ NV NT) (trigger : Except ErrorCode TriggerPayload) :
    (∃ s' t, s.HasZone t.zoneId ∧ (putTrigger t).run s = (s', .ok true) ∧
      (handleCreateOrUpdateTrigger config trigger).run s = (s', .ok (.wait (.triggerSet t)))) ∨
      ∃ e, (handleCreateOrUpdateTrigger config trigger).run s = (s, .error e) := by
  unfold handleCreateOrUpdateTrigger
  rw [run_bind_of_ok (run_get _)]
  cases hcheck : s.checkTrigger config trigger with
  | error e => exact .inr ⟨e, rfl⟩
  | ok t =>
    rw [run_bind_of_ok (run_ofExcept (.ok t) _)]
    rcases s.putTrigger_spec t with ⟨s', _, _, hrun, _⟩ | ⟨s', hrun, _⟩ | hrun
    · exact .inl ⟨s', t, checkTrigger_ok hcheck, hrun, run_bind_of_ok hrun⟩
    · exact .inl ⟨s', t, checkTrigger_ok hcheck, hrun, run_bind_of_ok hrun⟩
    · exact .inr ⟨.error .resourceExhausted, run_bind_of_ok hrun⟩

theorem handleRemoveTrigger_spec (s : State NZ NV NT) (zoneId : Except ErrorCode (BitVec 16)) :
    (∃ id, (handleRemoveTrigger zoneId).run s = (s, .ok (.wait (.triggerRemoved id)))) ∨
      ∃ e, (handleRemoveTrigger zoneId).run s = (s, .error e) := by
  unfold handleRemoveTrigger
  cases zoneId with
  | error e => exact .inr ⟨_, rfl⟩
  | ok id =>
    rw [run_bind_of_ok (run_ofExcept (Stop.lift (.ok id)) _), run_bind_of_ok (run_get _)]
    split
    · exact .inl ⟨id, rfl⟩
    · exact .inr ⟨_, rfl⟩

end State

/-! ## The tables -/

structure Tables (config : Config) (s : State NZ NV NT) : Prop where
  nodup : (s.zones.1.map (·.zoneId)).Nodup
  /-- no id is `0` -/
  id_ne_zero (z : Zone NV) (hz : z ∈ s.zones.1) : z.zoneId ≠ 0
  triggers : (s.triggers.1.map (·.zoneId)).Nodup
  hasZone (t : Trigger) (ht : t ∈ s.triggers.1) : s.HasZone t.zoneId
  userDefined : s.userDefinedZoneCount ≤ config.maxUserDefinedZones.toNat
  length_le : s.zones.1.length ≤ config.maxZones.toNat

namespace State

theorem userDefinedZoneCount_eq (s : State NZ NV NT) :
    s.userDefinedZoneCount = (s.zones.1.map Zone.zoneSource).count .user := by
  rw [userDefinedZoneCount, ← List.countP_eq_length_filter, List.count, List.countP_map]
  rfl

end State

namespace Tables

open State

variable {config : Config} {s s' : State NZ NV NT} {id : BitVec 16}

theorem of_same (hs : Tables config s) (hzones : s'.zones = s.zones) (htriggers : s'.triggers = s.triggers) :
    Tables config s' := by
  obtain ⟨zones, triggers, nextId⟩ := s'
  obtain rfl : zones = s.zones := hzones
  obtain rfl : triggers = s.triggers := htriggers
  exact ⟨hs.nodup, hs.id_ne_zero, hs.triggers, hs.hasZone, hs.userDefined, hs.length_le⟩

theorem push {zone : Zone NV} (hs : Tables config s) (hzones : s'.zones.1 = s.zones.1 ++ [zone])
    (htriggers : s'.triggers = s.triggers) (hne : zone.zoneId ≠ 0) (hnew : ¬s.HasZone zone.zoneId)
    (huser : zone.zoneSource = .user → s.userDefinedZoneCount < config.maxUserDefinedZones.toNat)
    (hroom : s.zones.1.length < config.maxZones.toNat) : Tables config s' := by
  refine ⟨?_, fun z hz => ?_, htriggers ▸ hs.triggers, fun t ht => ?_, ?_, ?_⟩
  · rw [hzones]
    exact Rows.nodup_append hs.nodup hnew
  · rw [hzones] at hz
    rcases List.mem_append.mp hz with hz | hz
    · exact hs.id_ne_zero z hz
    · exact List.mem_singleton.mp hz ▸ hne
  · rw [htriggers] at ht
    rw [HasZone, hzones]
    exact Rows.has_append.mpr (.inl (hs.hasZone t ht))
  · rw [userDefinedZoneCount, hzones, List.filter_append, List.length_append]
    have hcount := hs.userDefined
    rw [userDefinedZoneCount] at hcount
    cases hsource : zone.zoneSource with
    | mfg => simpa [hsource] using hcount
    | user => simpa [hsource, userDefinedZoneCount, Nat.succ_le_iff] using huser hsource
  · rw [hzones, List.length_append]
    exact hroom

theorem replaceZone {zone : Zone NV} (hs : Tables config s) (huser : s.OfUser zone.zoneId)
    (hzone : zone.zoneSource = .user) : Tables config (s.replaceZone zone) := by
  have htriggers := s.replaceZone_triggers zone
  rcases s.replaceZone_spec zone with ⟨i, r, hr, hkey, hzones⟩ | ⟨_, hsame⟩
  · have hmem := List.mem_of_getElem? hr
    have hids : (s.replaceZone zone).zones.1.map (·.zoneId) = s.zones.1.map (·.zoneId) := by
      rw [hzones]
      exact Rows.map_key_set (f := Zone.zoneId) hr hkey
    have hsources : (s.replaceZone zone).zones.1.map (·.zoneSource) = s.zones.1.map (·.zoneSource) := by
      rw [hzones]
      exact Rows.map_key_set (f := Zone.zoneSource) hr (hzone.trans (huser r hmem hkey.symm).symm)
    refine ⟨hids ▸ hs.nodup, fun z hz => ?_, htriggers ▸ hs.triggers, fun t ht => ?_, ?_, ?_⟩
    · rw [hzones] at hz
      rcases Rows.mem_set_cases (f := Zone.zoneId) hs.nodup hr hz with rfl | ⟨hz, _⟩
      · exact hkey ▸ hs.id_ne_zero r hmem
      · exact hs.id_ne_zero z hz
    · exact (Rows.has_congr hids).mpr (hs.hasZone t (htriggers ▸ ht))
    · rw [userDefinedZoneCount_eq, hsources, ← userDefinedZoneCount_eq]
      exact hs.userDefined
    · rw [hzones, List.length_set]
      exact hs.length_le
  · exact hsame.symm ▸ hs

theorem withoutTrigger (hs : Tables config s) (id : BitVec 16) : Tables config (s.withoutTrigger id) :=
  ⟨hs.nodup, hs.id_ne_zero, Rows.nodup_filter _ hs.triggers, fun t ht => hs.hasZone t (List.mem_of_mem_filter ht),
    hs.userDefined, hs.length_le⟩

theorem withoutZone (hs : Tables config s) (htrigger : ∀ t ∈ s.triggers.1, t.zoneId ≠ id) :
    Tables config (s.withoutZone id) := by
  have hle : (s.withoutZone id).userDefinedZoneCount ≤ s.userDefinedZoneCount :=
    ((List.filter_sublist (p := fun z : Zone NV => z.zoneId != id)).filter _).length_le
  refine ⟨Rows.nodup_filter _ hs.nodup, fun z hz => hs.id_ne_zero z (List.mem_of_mem_filter hz), hs.triggers,
    fun t ht => ?_, Nat.le_trans hle hs.userDefined, Nat.le_trans (List.length_filter_le _ _) hs.length_le⟩
  obtain ⟨z, hz, hid⟩ := hs.hasZone t ht
  exact ⟨z, List.mem_filter.mpr ⟨hz, bne_iff_ne.mpr fun h => htrigger t ht (hid.symm.trans h)⟩, hid⟩

theorem remove (hs : Tables config s) (id : BitVec 16) :
    Tables config ((s.withoutZone id).withoutTrigger id) := by
  have hgone : Tables config ((s.withoutTrigger id).withoutZone id) :=
    (hs.withoutTrigger id).withoutZone fun t ht => bne_iff_ne.mp (List.mem_filter.mp ht).2
  exact hgone.of_same rfl rfl

theorem putTrigger {trigger : Trigger} (hs : Tables config s) (hzone : s.HasZone trigger.zoneId)
    (hrun : (State.putTrigger trigger).run s = (s', .ok true)) :
    Tables config s' ∧ s'.zones = s.zones ∧
      ∀ id, s'.trigger? id = if id = trigger.zoneId then some trigger else s.trigger? id := by
  have hkeep (hzones : s'.zones = s.zones) (htriggers : (s'.triggers.1.map (·.zoneId)).Nodup)
      (hmem : ∀ t ∈ s'.triggers.1, t = trigger ∨ t ∈ s.triggers.1) : Tables config s' := by
    obtain ⟨zones, triggers, nextId⟩ := s'
    obtain rfl : zones = s.zones := hzones
    refine ⟨hs.nodup, hs.id_ne_zero, htriggers, fun t ht => ?_, hs.userDefined, hs.length_le⟩
    rcases hmem t ht with rfl | ht
    · exact hzone
    · exact hs.hasZone t ht
  rcases s.putTrigger_spec trigger with ⟨s₁, i, r, hspec, hzones, hr, hkey, htriggers⟩ |
    ⟨s₁, hspec, hzones, hnew, htriggers⟩ | hspec
  · obtain rfl := (Prod.mk.inj (hrun.symm.trans hspec)).1
    refine ⟨hkeep hzones ?_ fun t ht => ?_, hzones, fun id => ?_⟩
    · rw [htriggers, Rows.map_key_set (f := Trigger.zoneId) hr hkey]
      exact hs.triggers
    · rw [htriggers] at ht
      exact (Rows.mem_set_cases (f := Trigger.zoneId) hs.triggers hr ht).imp_right And.left
    · rw [trigger?, htriggers, hkey]
      exact Rows.find?_set (f := Trigger.zoneId) hs.triggers hr hkey
  · obtain rfl := (Prod.mk.inj (hrun.symm.trans hspec)).1
    refine ⟨hkeep hzones ?_ fun t ht => ?_, hzones, fun id => ?_⟩
    · rw [htriggers]
      exact Rows.nodup_append hs.triggers hnew
    · rw [htriggers] at ht
      exact (List.mem_append.mp ht).symm.imp_left List.mem_singleton.mp
    · rw [trigger?, htriggers]
      exact Rows.find?_append (f := Trigger.zoneId) hs.triggers hnew
  · cases hrun.symm.trans hspec

end Tables

/-! ## What has been made of a zone -/

section Writes

variable {n : ℕ} {zone updated prev : Zone NV} {ws ws' : List (ℕ × Zone NV)}

/-- Others than a command have made something of a zone: more of it, or they have taken it back, or the zone
is gone. -/
inductive Rewritten (n : ℕ) (ws : List (ℕ × Zone NV)) : List (ℕ × Zone NV) → Prop
  | same : Rewritten n ws ws
  | gone : Rewritten n ws []
  | more (e : ℕ × Zone NV) (he : e.1 ≠ n) (hws : ws ≠ []) : Rewritten n ws (e :: ws)
  | back (e : ℕ × Zone NV) (he : e.1 ≠ n) (rest : List (ℕ × Zone NV)) (hws : ws = e :: rest) : Rewritten n ws rest

/-- A command has created a zone, unless it is gone. -/
def Created (n : ℕ) (zone : Zone NV) (ws : List (ℕ × Zone NV)) : Prop :=
  ws = [] ∨ ∃ top, ws = top ++ [(n, zone)]

/-- A command has changed a zone from what it was, unless it is gone. -/
def Updated (n : ℕ) (updated prev : Zone NV) (ws : List (ℕ × Zone NV)) : Prop :=
  (∀ e ∈ ws, e.1 ≠ n) ∨ ∃ top m rest, ws = top ++ (n, updated) :: (m, prev) :: rest

theorem Created.of_rewritten (h : Created n zone ws) (hws : Rewritten n ws ws') : Created n zone ws' := by
  cases hws with
  | same => exact h
  | gone => exact .inl rfl
  | more e he hne =>
    obtain ⟨top, rfl⟩ := h.resolve_left hne
    exact .inr ⟨e :: top, rfl⟩
  | back e he rest heq =>
    subst heq
    obtain ⟨top, htop⟩ := h.resolve_left (List.cons_ne_nil e _)
    cases top with
    | nil => exact absurd (congrArg Prod.fst (List.cons.inj htop).1) he
    | cons e' top => exact .inr ⟨top, (List.cons.inj htop).2⟩

theorem Updated.of_rewritten (h : Updated n updated prev ws) (hws : Rewritten n ws ws') :
    Updated n updated prev ws' := by
  cases hws with
  | same => exact h
  | gone => exact .inl fun _ he => absurd he List.not_mem_nil
  | more e he hne =>
    rcases h with h | ⟨top, m, rest, rfl⟩
    · exact .inl fun e' he' => (List.mem_cons.mp he').elim (fun heq => heq ▸ he) (h e')
    · exact .inr ⟨e :: top, m, rest, rfl⟩
  | back e he rest heq =>
    subst heq
    rcases h with h | ⟨top, m, rest', htop⟩
    · exact .inl fun e' he' => h e' (List.mem_cons_of_mem e he')
    · cases top with
      | nil => exact absurd (congrArg Prod.fst (List.cons.inj htop).1) he
      | cons e' top => exact .inr ⟨top, m, rest', (List.cons.inj htop).2⟩

theorem Updated.filter (h : Updated n updated prev ws) (hnodup : (ws.map Prod.fst).Nodup)
    (hlast : ws.head?.map Prod.fst = some n) :
    ∃ m rest, ws = (n, updated) :: (m, prev) :: rest ∧ ws.filter (·.1 != n) = (m, prev) :: rest := by
  rcases h with h | ⟨top, m, rest, rfl⟩
  · obtain ⟨e, he, hn⟩ := Option.map_eq_some_iff.mp hlast
    exact absurd hn (h e (List.mem_of_head? he))
  · cases top with
    | nil =>
      refine ⟨m, rest, rfl, ?_⟩
      rw [List.nil_append, List.filter_cons_of_neg (by simp)]
      refine List.filter_eq_self.mpr fun e he => bne_iff_ne.mpr fun heq => ?_
      have hmem := List.mem_map_of_mem (f := Prod.fst) he
      rw [heq] at hmem
      exact (List.nodup_cons.mp hnodup).1 hmem
    | cons e top =>
      obtain rfl : e.1 = n := Option.some.inj hlast
      have hmem : (e.1, updated) ∈ top ++ (e.1, updated) :: (m, prev) :: rest :=
        List.mem_append_right top List.mem_cons_self
      exact absurd (List.mem_map_of_mem (f := Prod.fst) hmem) (List.nodup_cons.mp hnodup).1

end Writes

/-! ## What holds of the zones and triggers -/

/-- The zone that a command has made or changed, or removes, until it ends. -/
def Task.zoneId? : Task NV → Option (BitVec 16)
  | zoneCreated zone => some zone.zoneId
  | zoneUpdated updated _ => some updated.zoneId
  | zoneRemoved id => some id
  | triggerSet _ | triggerRemoved _ => none

namespace Traced

/-- What holds of the zones and triggers at any time. -/
structure Sound (config : Config) (s : Traced NZ NV NT) : Prop where
  tables : Tables config s.state
  zones (id : BitVec 16) : s.state.zone? id = (s.writes id).head?.map Prod.snd
  triggers (id : BitVec 16) : s.state.trigger? id = (s.settings id).head?.map Prod.snd
  /-- no command has made something of a zone twice -/
  numbers (id : BitVec 16) : ((s.writes id).map Prod.fst).Nodup
  earlier (id : BitVec 16) (e : ℕ × Zone NV) (he : e ∈ s.writes id) : e.1 < s.count

def Relies (s : Traced NZ NV NT) (t : ℕ × Task NV) : Prop :=
  t.1 < s.count ∧ (∀ id ∈ t.2.zoneId?, s.state.OfUser id) ∧
    match t.2 with
    | .zoneCreated zone => Created t.1 zone (s.writes zone.zoneId)
    | .zoneUpdated updated prev => prev.zoneId = updated.zoneId ∧ prev.zoneSource = .user ∧
        Updated t.1 updated prev (s.writes updated.zoneId)
    | .zoneRemoved _ | .triggerSet _ | .triggerRemoved _ => True

def Apart (t u : ℕ × Task NV) : Prop := t.1 ≠ u.1

section Notes

variable (s : Traced NZ NV NT) (c : Command NV)

theorem noteStart_error (e : Stop ErrorCode) : noteStart s c (.error e) = s := by cases c <;> rfl

theorem noteStart_zoneCreated (zone : Zone NV) :
    noteStart s c (.ok (.wait (.zoneCreated zone))) = s.noteCreated zone := by cases c <;> rfl

theorem noteStart_zoneUpdated (updated prev : Zone NV) :
    noteStart s c (.ok (.wait (.zoneUpdated updated prev))) = s.noteUpdated updated := by cases c <;> rfl

theorem noteStart_zoneRemoved (id : BitVec 16) : noteStart s c (.ok (.wait (.zoneRemoved id))) = s := by
  cases c <;> rfl

theorem noteStart_triggerSet (trigger : Trigger) :
    noteStart s c (.ok (.wait (.triggerSet trigger))) = s.noteSet trigger := by cases c <;> rfl

theorem noteStart_triggerRemoved (id : BitVec 16) : noteStart s c (.ok (.wait (.triggerRemoved id))) = s := by
  cases c <;> rfl

end Notes

variable {config : Config} {s s' : Traced NZ NV NT} {state : State NZ NV NT} {id : BitVec 16} {n : ℕ}

/-- A step of another command leaves a zone to a command. -/
structure Spares (n : ℕ) (s s' : Traced NZ NV NT) (id : BitVec 16) : Prop where
  ofUser (h : s.state.OfUser id) : s'.state.OfUser id
  /-- what the command has made of it can be taken back -/
  writes : Rewritten n (s.writes id) (s'.writes id)

theorem Relies.of_spares {t : ℕ × Task NV} (ht : s.Relies t) (hcount : s.count ≤ s'.count)
    (h : ∀ id ∈ t.2.zoneId?, Spares t.1 s s' id) : s'.Relies t := by
  obtain ⟨hn, huser, ht⟩ := ht
  refine ⟨Nat.lt_of_lt_of_le hn hcount, fun id hid => (h id hid).ofUser (huser id hid), ?_⟩
  rcases t with ⟨n, zone | ⟨updated, prev⟩ | _ | _ | _⟩
  · exact ht.of_rewritten (h _ rfl).writes
  · exact ⟨ht.1, ht.2.1, ht.2.2.of_rewritten (h _ rfl).writes⟩
  · trivial
  · trivial
  · trivial

theorem spares_of_zones (hzones : s'.state.zones = s.state.zones) (hwrites : s'.writes = s.writes) :
    Spares n s s' id := by
  refine ⟨fun h => ?_, ?_⟩
  · rw [State.OfUser, hzones]
    exact h
  · rw [hwrites]
    exact .same

theorem Sound.quiet (hs : Sound config s) (hzones : state.zones = s.state.zones)
    (htriggers : state.triggers = s.state.triggers) :
    Sound config { s with state, count := s.count + 1 } :=
  ⟨hs.tables.of_same hzones htriggers, fun id => (State.zone?_congr hzones id).trans (hs.zones id),
    fun id => (State.trigger?_congr htriggers id).trans (hs.triggers id), hs.numbers,
    fun id e he => Nat.lt_succ_of_lt (hs.earlier id e he)⟩

theorem Sound.rewrite {ws : List (ℕ × Zone NV)} {count : ℕ} (hs : Sound config s) (htables : Tables config state)
    (hzone : ∀ i, state.zone? i = if i = id then ws.head?.map Prod.snd else s.state.zone? i)
    (htriggers : state.triggers = s.state.triggers) (hnodup : (ws.map Prod.fst).Nodup)
    (hcount : s.count ≤ count) (hws : ∀ e ∈ ws, e.1 < count) :
    Sound config ⟨state, count, Function.update s.writes id ws, s.settings⟩ := by
  have hat (i : BitVec 16) : Function.update s.writes id ws i = if i = id then ws else s.writes i :=
    Function.update_apply _ _ _ i
  refine ⟨htables, fun i => ?_, fun i => (State.trigger?_congr htriggers i).trans (hs.triggers i),
    fun i => ?_, fun i e he => ?_⟩
  · change state.zone? i = (Function.update s.writes id ws i).head?.map Prod.snd
    rw [hzone, hat, hs.zones]
    split <;> rfl
  · change ((Function.update s.writes id ws i).map Prod.fst).Nodup
    rw [hat]
    split
    · exact hnodup
    · exact hs.numbers i
  · change e ∈ Function.update s.writes id ws i at he
    rw [hat] at he
    split at he
    · exact hws e he
    · exact Nat.lt_of_lt_of_le (hs.earlier i e he) hcount

theorem Sound.reset {ts : List (ℕ × Trigger)} {count : ℕ} (hs : Sound config s) (htables : Tables config state)
    (hzones : state.zones = s.state.zones)
    (htrigger : ∀ i, state.trigger? i = if i = id then ts.head?.map Prod.snd else s.state.trigger? i)
    (hcount : s.count ≤ count) :
    Sound config ⟨state, count, s.writes, Function.update s.settings id ts⟩ := by
  refine ⟨htables, fun i => (State.zone?_congr hzones i).trans (hs.zones i), fun i => ?_, hs.numbers,
    fun i e he => Nat.lt_of_lt_of_le (hs.earlier i e he) hcount⟩
  change state.trigger? i = (Function.update s.settings id ts i).head?.map Prod.snd
  rw [htrigger, Function.update_apply, hs.triggers]
  split <;> rfl

theorem spares_of_ne {ws : List (ℕ × Zone NV)} {settings : BitVec 16 → List (ℕ × Trigger)} {i : BitVec 16}
    {count : ℕ} (huser : s.state.OfUser i → state.OfUser i) (hne : i ≠ id) :
    Spares n s ⟨state, count, Function.update s.writes id ws, settings⟩ i := by
  refine ⟨huser, ?_⟩
  change Rewritten n (s.writes i) (Function.update s.writes id ws i)
  rw [Function.update_of_ne hne]
  exact .same

theorem spares_of_rewritten {ws : List (ℕ × Zone NV)} {settings : BitVec 16 → List (ℕ × Trigger)} {i : BitVec 16}
    {count : ℕ} (huser : s.state.OfUser i → state.OfUser i) (hws : Rewritten n (s.writes id) ws) :
    Spares n s ⟨state, count, Function.update s.writes id ws, settings⟩ i := by
  by_cases h : i = id
  · subst h
    refine ⟨huser, ?_⟩
    change Rewritten n (s.writes i) (Function.update s.writes i ws i)
    rw [Function.update_self]
    exact hws
  · exact spares_of_ne huser h

end Traced

/-! ## The steps -/

/-- The zones and triggers, and the commands that wait for the application. -/
abbrev World (NZ NV NT : ℕ) := Suspending.World (Traced NZ NV NT) (ℕ × Task NV)

/-- A new zone gets an id that no zone has and no command on a zone waits with, and there is room for it. -/
def Fresh (config : Config) (w : World NZ NV NT) : Prop :=
  ¬w.state.state.HasZone w.state.state.nextZoneId ∧
    (∀ t ∈ w.waiting, t.2.zoneId? ≠ some w.state.state.nextZoneId) ∧
    w.state.state.zones.1.length < config.maxZones.toNat

/-- What is new can be taken in, and what has failed can be taken back: a zone whose creation fails has
no trigger; a zone whose change fails has not been changed again, unless it is gone; and a zone whose trigger
fails has no other. -/
def Suits (config : Config) (w : World NZ NV NT) : Suspending.Act (Command NV) (Except ZoneError Unit) → Prop
  | .start (.addMfgZone _) => w.state.state.zones.1.length < NZ → Fresh config w
  | .start (.createTwoDCartesianZone zone) =>
    ∀ parsed, w.state.state.checkCreate config zone = .ok parsed → w.state.state.zones.1.length < NZ →
      Fresh config w
  | .resume i (.error _) => ∀ n,
    (∀ zone, w.waiting[i]? = some (n, .zoneCreated zone) →
      ∀ t ∈ w.state.state.triggers.1, t.zoneId ≠ zone.zoneId) ∧
    (∀ updated prev, w.waiting[i]? = some (n, .zoneUpdated updated prev) →
      w.state.state.HasZone updated.zoneId → (w.state.writes updated.zoneId).head?.map Prod.fst = some n) ∧
    ∀ trigger, w.waiting[i]? = some (n, .triggerSet trigger) → ∀ e ∈ w.state.settings trigger.zoneId, e.1 = n
  | _ => True

namespace Traced

variable {config : Config} {s' : Traced NZ NV NT} {w : World NZ NV NT}

/-- What a step establishes: the rules of the waiting commands, and that the zones from the beginning stay. -/
structure Stepped (config : Config) (w : World NZ NV NT) (s' : Traced NZ NV NT) (t : Option (ℕ × Task NV))
    (others : List (ℕ × Task NV)) : Prop where
  sound : Sound config s'
  own (u : ℕ × Task NV) (hu : u ∈ t) : Relies s' u ∧ ∀ v ∈ others, Apart u v
  others (u : ℕ × Task NV) (hu : u ∈ others) : Relies s' u
  /-- no zone from the beginning goes or changes -/
  mfg : w.state.state.mfgZones <+: s'.state.mfgZones

theorem apart_of_relies (hw : Suspending.HoldsApart (Sound config) Relies Apart w) (task : Task NV)
    (v : ℕ × Task NV) (hv : v ∈ w.waiting) : Apart (w.state.count, task) v :=
  Nat.ne_of_gt (hw.waiting v hv).1

theorem quiet_holds {state : State NZ NV NT} (hw : Suspending.HoldsApart (Sound config) Relies Apart w)
    (hzones : state.zones = w.state.state.zones) (htriggers : state.triggers = w.state.state.triggers)
    {t : Option (Task NV)} (hown : ∀ u ∈ t, Relies { w.state with state, count := w.state.count + 1 }
      (w.state.count, u)) :
    Stepped config w { w.state with state, count := w.state.count + 1 }
      (t.map fun t => (w.state.count, t)) w.waiting := by
  refine ⟨hw.state.quiet hzones htriggers, fun u hu => ?_, fun u hu => ?_, ?_⟩
  · obtain ⟨task, htask, rfl⟩ := Option.map_eq_some_iff.mp hu
    exact ⟨hown task htask, apart_of_relies hw task⟩
  · exact (hw.waiting u hu).of_spares (Nat.le_succ _) fun id _ => spares_of_zones hzones rfl
  · change _ <+: state.zones.1.filter _
    rw [hzones]
    exact List.prefix_rfl

theorem created_holds {state : State NZ NV NT} {zone : Zone NV} {t : Option (Task NV)}
    (hw : Suspending.HoldsApart (Sound config) Relies Apart w) (hfresh : Fresh config w)
    (hid : zone.zoneId = w.state.state.nextZoneId)
    (hzones : state.zones.1 = w.state.state.zones.1 ++ [zone]) (htriggers : state.triggers = w.state.state.triggers)
    (huser : zone.zoneSource = .user →
      w.state.state.userDefinedZoneCount < config.maxUserDefinedZones.toNat)
    (ht : ∀ u ∈ t, u = .zoneCreated zone ∧ zone.zoneSource = .user) :
    Stepped config w { noteCreated { w.state with state } zone with count := w.state.count + 1 }
      (t.map fun t => (w.state.count, t)) w.waiting := by
  obtain ⟨hnew, hwaiting, hroom⟩ := hfresh
  rw [← hid] at hnew hwaiting
  have hne : zone.zoneId ≠ 0 := hid ▸ State.nextZoneId_ne_zero _
  have htables : Tables config state := hw.state.tables.push hzones htriggers hne hnew huser hroom
  have hofUser (i : BitVec 16) (hi : i ≠ zone.zoneId) (h : w.state.state.OfUser i) : state.OfUser i := by
    intro z hz hzi
    rw [hzones] at hz
    rcases List.mem_append.mp hz with hz | hz
    · exact h z hz hzi
    · exact absurd (List.mem_singleton.mp hz ▸ hzi.symm) hi
  refine ⟨?_, fun u hu => ?_, fun u hu => ?_, ?_⟩
  · refine hw.state.rewrite htables (fun i => State.zone?_push hw.state.tables.nodup hnew hzones i) htriggers
      (List.nodup_singleton _) (Nat.le_succ _) fun e he => ?_
    obtain rfl := List.mem_singleton.mp he
    exact Nat.lt_succ_self _
  · obtain ⟨task, htask, rfl⟩ := Option.map_eq_some_iff.mp hu
    obtain ⟨rfl, hsource⟩ := ht task htask
    refine ⟨⟨Nat.lt_succ_self _, fun i hi z hz hzi => ?_, .inr ⟨[], ?_⟩⟩, apart_of_relies hw _⟩
    · obtain rfl := Option.some.inj hi
      change z ∈ state.zones.1 at hz
      rw [hzones] at hz
      rcases List.mem_append.mp hz with hz | hz
      · exact absurd ⟨z, hz, hzi⟩ hnew
      · exact List.mem_singleton.mp hz ▸ hsource
    · exact Function.update_self _ _ _
  · refine (hw.waiting u hu).of_spares (Nat.le_succ _) fun i hi => ?_
    have hother : i ≠ zone.zoneId := fun h => hwaiting u hu (h ▸ hi)
    exact spares_of_ne (hofUser i hother) hother
  · change _ <+: state.zones.1.filter _
    rw [hzones, List.filter_append]
    exact List.prefix_append _ _

theorem updated_holds {updated prev : Zone NV} (hw : Suspending.HoldsApart (Sound config) Relies Apart w)
    (hfind : w.state.state.zone? updated.zoneId = some prev) (hprev : prev.zoneSource = .user)
    (hupdated : updated.zoneSource = .user) :
    Stepped config w { noteUpdated { w.state with state := w.state.state.replaceZone updated } updated with
        count := w.state.count + 1 }
      (some (w.state.count, .zoneUpdated updated prev)) w.waiting := by
  have hnodup := hw.state.tables.nodup
  have huser : w.state.state.OfUser updated.zoneId := State.ofUser_of_zone? hnodup hfind hprev
  obtain ⟨⟨m, z⟩, rest, hws⟩ : ∃ e rest, w.state.writes updated.zoneId = e :: rest := by
    refine List.exists_cons_of_ne_nil fun hnil => ?_
    rw [hw.state.zones, hnil] at hfind
    cases hfind
  obtain rfl : z = prev := by
    rw [hw.state.zones, hws] at hfind
    exact Option.some.inj hfind
  have hearlier (e : ℕ × Zone NV) (he : e ∈ (m, z) :: rest) : e.1 < w.state.count :=
    hw.state.earlier updated.zoneId e (hws ▸ he)
  have hlook (i : BitVec 16) : (w.state.state.replaceZone updated).zone? i =
      if i = updated.zoneId then some updated else w.state.state.zone? i := by
    rw [State.zone?_replaceZone hnodup]
    split
    · next h =>
      rw [h, hfind]
      rfl
    · rfl
  refine ⟨?_, fun u hu => ?_, fun u hu => ?_, ?_⟩
  · refine hw.state.rewrite (hw.state.tables.replaceZone huser hupdated) hlook
      (State.replaceZone_triggers _ _) ?_ (Nat.le_succ _) fun e he => ?_
    · rw [List.map_cons, hws]
      refine List.nodup_cons.mpr ⟨fun hmem => ?_, hws ▸ hw.state.numbers updated.zoneId⟩
      obtain ⟨e, he, hn⟩ := List.mem_map.mp hmem
      exact Nat.ne_of_lt (hearlier e he) hn
    · rcases List.mem_cons.mp he with rfl | he
      · exact Nat.lt_succ_self _
      · exact Nat.lt_succ_of_lt (hearlier e (hws ▸ he))
  · obtain rfl := Option.some.inj hu
    refine ⟨⟨Nat.lt_succ_self _, fun i hi => ?_, ?_, hprev, .inr ⟨[], m, rest, ?_⟩⟩, apart_of_relies hw _⟩
    · obtain rfl := Option.some.inj hi
      exact State.ofUser_replaceZone hupdated huser
    · exact (Rows.find?_eq_some (f := Zone.zoneId) hfind).2
    · exact (Function.update_self _ _ _).trans (congrArg _ hws)
  · refine (hw.waiting u hu).of_spares (Nat.le_succ _) fun i _ => ?_
    refine spares_of_rewritten (State.ofUser_replaceZone hupdated) (.more _ ?_ ?_)
    · exact Nat.ne_of_gt (hw.waiting u hu).1
    · rw [hws]
      exact List.cons_ne_nil _ _
  · exact (State.mfgZones_replaceZone huser hupdated).symm ▸ List.prefix_rfl

theorem set_holds {state : State NZ NV NT} {trigger : Trigger}
    (hw : Suspending.HoldsApart (Sound config) Relies Apart w) (hzone : w.state.state.HasZone trigger.zoneId)
    (hput : (State.putTrigger trigger).run w.state.state = (state, .ok true)) :
    Stepped config w { noteSet { w.state with state } trigger with count := w.state.count + 1 }
      (some (w.state.count, .triggerSet trigger)) w.waiting := by
  obtain ⟨htables, hzones, htrigger⟩ := hw.state.tables.putTrigger hzone hput
  refine ⟨hw.state.reset htables hzones htrigger (Nat.le_succ _), fun u hu => ?_, fun u hu => ?_, ?_⟩
  · obtain rfl := Option.some.inj hu
    exact ⟨⟨Nat.lt_succ_self _, fun _ h => absurd h (Option.not_mem_none _), trivial⟩, apart_of_relies hw _⟩
  · exact (hw.waiting u hu).of_spares (Nat.le_succ _) fun i _ => spares_of_zones hzones rfl
  · change _ <+: state.zones.1.filter _
    rw [hzones]
    exact List.prefix_rfl

theorem start_holds {c : Command NV} {t : Option (ℕ × Task NV)} (hok : Suits config w (.start c))
    (hw : Suspending.HoldsApart (Sound config) Relies Apart w) (hstep : start config w.state c = some (s', t)) :
    Stepped config w s' t w.waiting := by
  rcases hrun : (State.start config c).run w.state.state with ⟨state, r⟩
  rw [start, hrun] at hstep
  obtain ⟨rfl, rfl⟩ := Prod.mk.inj (Option.some.inj hstep)
  cases c with
  | addMfgZone zone =>
    rcases w.state.state.addMfgZone_spec zone with ⟨state', hspec, hroom, hzones, htriggers⟩ |
      ⟨state', e, hspec, hzones, htriggers⟩
    · have hadd : (State.start config (.addMfgZone zone)).run w.state.state =
          (state', .ok (.zoneId w.state.state.nextZoneId)) := run_bind_of_ok hspec
      obtain ⟨rfl, rfl⟩ := Prod.mk.inj (hrun.symm.trans hadd)
      exact created_holds (t := none) hw (hok hroom) rfl hzones htriggers (fun h => ZoneSource.noConfusion h)
        fun _ h => absurd h (Option.not_mem_none _)
    · have hadd : (State.start config (.addMfgZone zone)).run w.state.state = (state', .error e) :=
        run_bind_of_error hspec
      obtain ⟨rfl, rfl⟩ := Prod.mk.inj (hrun.symm.trans hadd)
      rw [noteStart_error]
      exact quiet_holds (t := none) hw hzones htriggers fun _ h => absurd h (Option.not_mem_none _)
  | createTwoDCartesianZone zone =>
    rcases w.state.state.handleCreateTwoDCartesianZone_spec config zone with
      ⟨state', parsed, hcheck, hroom, hspec, hzones, htriggers⟩ | ⟨state', e, hspec, hzones, htriggers⟩
    · obtain ⟨rfl, rfl⟩ := Prod.mk.inj (hrun.symm.trans hspec)
      obtain ⟨hcount, hparsed⟩ := State.checkCreate_ok hcheck
      obtain ⟨hid, hsource⟩ := hparsed w.state.state.nextZoneId .twoDCARTZone
      rw [noteStart_zoneCreated]
      refine created_holds (t := some _) hw (hok parsed hcheck hroom) hid hzones htriggers (fun _ => hcount)
        fun u hu => ⟨(Option.some.inj hu).symm, hsource⟩
    · obtain ⟨rfl, rfl⟩ := Prod.mk.inj (hrun.symm.trans hspec)
      rw [noteStart_error]
      exact quiet_holds (t := none) hw hzones htriggers fun _ h => absurd h (Option.not_mem_none _)
  | updateTwoDCartesianZone zoneId zone =>
    rcases w.state.state.handleUpdateTwoDCartesianZone_spec config zoneId zone with
      ⟨updated, prev, hfind, hprev, hupdated, hspec⟩ | ⟨e, hspec⟩
    · obtain ⟨rfl, rfl⟩ := Prod.mk.inj (hrun.symm.trans hspec)
      rw [noteStart_zoneUpdated]
      exact updated_holds hw hfind hprev hupdated
    · obtain ⟨rfl, rfl⟩ := Prod.mk.inj (hrun.symm.trans hspec)
      rw [noteStart_error]
      exact quiet_holds (t := none) hw rfl rfl fun _ h => absurd h (Option.not_mem_none _)
  | removeZone zoneId =>
    rcases w.state.state.handleRemoveZone_spec zoneId with ⟨id, z, hfind, hsource, hspec⟩ | ⟨e, hspec⟩
    · obtain ⟨rfl, rfl⟩ := Prod.mk.inj (hrun.symm.trans hspec)
      rw [noteStart_zoneRemoved]
      refine quiet_holds (t := some _) hw rfl rfl fun u hu => ?_
      obtain rfl := Option.some.inj hu
      refine ⟨Nat.lt_succ_self _, fun i hi => ?_, trivial⟩
      obtain rfl := Option.some.inj hi
      exact State.ofUser_of_zone? hw.state.tables.nodup hfind hsource
    · obtain ⟨rfl, rfl⟩ := Prod.mk.inj (hrun.symm.trans hspec)
      rw [noteStart_error]
      exact quiet_holds (t := none) hw rfl rfl fun _ h => absurd h (Option.not_mem_none _)
  | createOrUpdateTrigger trigger =>
    rcases w.state.state.handleCreateOrUpdateTrigger_spec config trigger with
      ⟨state', trigger', hzone, hput, hspec⟩ | ⟨e, hspec⟩
    · obtain ⟨rfl, rfl⟩ := Prod.mk.inj (hrun.symm.trans hspec)
      rw [noteStart_triggerSet]
      exact set_holds hw hzone hput
    · obtain ⟨rfl, rfl⟩ := Prod.mk.inj (hrun.symm.trans hspec)
      rw [noteStart_error]
      exact quiet_holds (t := none) hw rfl rfl fun _ h => absurd h (Option.not_mem_none _)
  | removeTrigger zoneId =>
    rcases w.state.state.handleRemoveTrigger_spec zoneId with ⟨id, hspec⟩ | ⟨e, hspec⟩
    · obtain ⟨rfl, rfl⟩ := Prod.mk.inj (hrun.symm.trans hspec)
      rw [noteStart_triggerRemoved]
      refine quiet_holds (t := some _) hw rfl rfl fun u hu => ?_
      obtain rfl := Option.some.inj hu
      exact ⟨Nat.lt_succ_self _, fun _ h => absurd h (Option.not_mem_none _), trivial⟩
    · obtain ⟨rfl, rfl⟩ := Prod.mk.inj (hrun.symm.trans hspec)
      rw [noteStart_error]
      exact quiet_holds (t := none) hw rfl rfl fun _ h => absurd h (Option.not_mem_none _)

theorem Stepped.of_end {others : List (ℕ × Task NV)} (hs : Sound config s')
    (hothers : ∀ u ∈ others, Relies s' u) (hmfg : w.state.state.mfgZones <+: s'.state.mfgZones) :
    Stepped config w s' none others :=
  ⟨hs, fun _ h => absurd h (Option.not_mem_none _), hothers, hmfg⟩

section Ends

variable {others : List (ℕ × Task NV)} {n : ℕ}

theorem createFailed_holds {zone : Zone NV} {e : ZoneError} (hs : Sound config w.state)
    (hothers : ∀ u ∈ others, Relies w.state u) (huser : w.state.state.OfUser zone.zoneId)
    (hself : Created n zone (w.state.writes zone.zoneId))
    (htrigger : ∀ t ∈ w.state.state.triggers.1, t.zoneId ≠ zone.zoneId) :
    Stepped config w (noteResume { w.state with state := w.state.state.withoutZone zone.zoneId } n
      (.zoneCreated zone) (.error e)) none others := by
  have hgone : noteResume { w.state with state := w.state.state.withoutZone zone.zoneId } n
      (.zoneCreated zone) (.error e) = ⟨w.state.state.withoutZone zone.zoneId, w.state.count,
        Function.update w.state.writes zone.zoneId [], w.state.settings⟩ := by
    rw [noteResume]
    split
    · rfl
    · next hnone =>
      rcases hself with hnil | ⟨top, hws⟩
      · rw [← hnil, Function.update_eq_self]
      · refine absurd ?_ hnone
        change (w.state.writes zone.zoneId).any (·.1 == n) = true
        rw [hws, List.any_append]
        simp
  rw [hgone]
  refine .of_end (hs.rewrite (hs.tables.withoutZone htrigger) (State.zone?_withoutZone hs.tables.nodup _)
    rfl List.nodup_nil (Nat.le_refl _) fun _ h => absurd h List.not_mem_nil) (fun u hu => ?_) ?_
  · exact (hothers u hu).of_spares (Nat.le_refl _) fun id _ =>
      spares_of_rewritten State.ofUser_withoutZone .gone
  · exact (State.mfgZones_withoutZone huser).symm ▸ List.prefix_rfl

theorem updateFailed_holds {updated prev : Zone NV} {e : ZoneError} (hs : Sound config w.state)
    (hothers : ∀ u ∈ others, Relies w.state u ∧ n ≠ u.1) (huser : w.state.state.OfUser updated.zoneId)
    (hid : prev.zoneId = updated.zoneId) (hprev : prev.zoneSource = .user)
    (hself : Updated n updated prev (w.state.writes updated.zoneId))
    (hlast : w.state.state.HasZone updated.zoneId →
      (w.state.writes updated.zoneId).head?.map Prod.fst = some n) :
    Stepped config w (noteResume { w.state with state := w.state.state.replaceZone prev } n
      (.zoneUpdated updated prev) (.error e)) none others := by
  have hnodup := hs.tables.nodup
  have hrewrite : ∃ rest, (w.state.writes updated.zoneId).filter (·.1 != n) = rest ∧
      (w.state.state.zone? updated.zoneId).map (fun _ => prev) = rest.head?.map Prod.snd ∧
      (rest.map Prod.fst).Nodup ∧ (∀ e ∈ rest, e.1 < w.state.count) ∧
      ∀ m, m ≠ n → Rewritten m (w.state.writes updated.zoneId) rest := by
    have hearlier := hs.earlier updated.zoneId
    have hnumbers := hs.numbers updated.zoneId
    by_cases hhas : w.state.state.HasZone updated.zoneId
    · obtain ⟨m, rest, hws, hfilter⟩ := hself.filter hnumbers (hlast hhas)
      rw [hws] at hearlier hnumbers
      refine ⟨(m, prev) :: rest, hfilter, ?_, (List.nodup_cons.mp hnumbers).2,
        fun e he => hearlier e (List.mem_cons_of_mem _ he), fun k hk => .back (n, updated) hk.symm _ hws⟩
      rw [hs.zones, hws]
      rfl
    · have hnone := State.zone?_eq_none.mpr hhas
      have hnil : w.state.writes updated.zoneId = [] := by
        have hhead := hnone.symm.trans (hs.zones updated.zoneId)
        exact List.head?_eq_none_iff.mp (Option.map_eq_none_iff.mp hhead.symm)
      rw [hnil, hnone]
      exact ⟨[], rfl, rfl, List.nodup_nil, fun _ h => absurd h List.not_mem_nil, fun _ _ => .same⟩
  obtain ⟨rest, hfilter, hhead, hrestNodup, hrest, hrewritten⟩ := hrewrite
  have hnote : noteResume { w.state with state := w.state.state.replaceZone prev } n
      (.zoneUpdated updated prev) (.error e) = ⟨w.state.state.replaceZone prev, w.state.count,
        Function.update w.state.writes updated.zoneId rest, w.state.settings⟩ := by
    rw [← hfilter]
    rfl
  rw [hnote]
  refine .of_end (hs.rewrite (hs.tables.replaceZone (hid.symm ▸ huser) hprev) (fun i => ?_)
    (State.replaceZone_triggers _ _) hrestNodup (Nat.le_refl _) hrest) (fun u hu => ?_) ?_
  · rw [State.zone?_replaceZone hnodup, hid]
    split
    · next h => rw [h, hhead]
    · rfl
  · obtain ⟨hu, hne⟩ := hothers u hu
    exact hu.of_spares (Nat.le_refl _) fun id _ =>
      spares_of_rewritten (State.ofUser_replaceZone hprev) (hrewritten u.1 hne.symm)
  · exact (State.mfgZones_replaceZone (hid.symm ▸ huser) hprev).symm ▸ List.prefix_rfl

theorem removed_holds {id : BitVec 16} (hs : Sound config w.state) (hothers : ∀ u ∈ others, Relies w.state u)
    (huser : w.state.state.OfUser id) :
    Stepped config w (noteResume { w.state with state := (w.state.state.withoutZone id).withoutTrigger id } n
      (.zoneRemoved id) (.ok ())) none others := by
  refine .of_end ⟨hs.tables.remove id, fun i => ?_, fun i => ?_, fun i => ?_, fun i e he => ?_⟩
    (fun u hu => ?_) ?_
  · change (w.state.state.withoutZone id).zone? i = (Function.update w.state.writes id [] i).head?.map Prod.snd
    rw [State.zone?_withoutZone hs.tables.nodup, Function.update_apply, hs.zones]
    split <;> rfl
  · change (w.state.state.withoutTrigger id).trigger? i =
      (Function.update w.state.settings id [] i).head?.map Prod.snd
    rw [State.trigger?_withoutTrigger hs.tables.triggers, Function.update_apply, hs.triggers]
    split <;> rfl
  · change ((Function.update w.state.writes id [] i).map Prod.fst).Nodup
    rw [Function.update_apply]
    split
    · exact List.nodup_nil
    · exact hs.numbers i
  · change e ∈ Function.update w.state.writes id [] i at he
    rw [Function.update_apply] at he
    split at he
    · exact absurd he List.not_mem_nil
    · exact hs.earlier i e he
  · exact (hothers u hu).of_spares (Nat.le_refl _) fun i _ =>
      spares_of_rewritten State.ofUser_withoutZone .gone
  · exact (State.mfgZones_withoutZone huser).symm ▸ List.prefix_rfl

theorem triggerRemoved_holds {id : BitVec 16} (hs : Sound config w.state)
    (hothers : ∀ u ∈ others, Relies w.state u) :
    Stepped config w ⟨w.state.state.withoutTrigger id, w.state.count, w.state.writes,
      Function.update w.state.settings id []⟩ none others := by
  refine .of_end (hs.reset (hs.tables.withoutTrigger id) rfl
    (State.trigger?_withoutTrigger hs.tables.triggers id) (Nat.le_refl _)) (fun u hu => ?_) List.prefix_rfl
  exact (hothers u hu).of_spares (Nat.le_refl _) fun _ _ => spares_of_zones rfl rfl

end Ends

theorem resume_holds {i : ℕ} {t : ℕ × Task NV} {o : Except ZoneError Unit} {u : Option (ℕ × Task NV)}
    (hok : Suits config w (.resume i o)) (hw : Suspending.HoldsApart (Sound config) Relies Apart w)
    (ht : w.waiting[i]? = some t) (hstep : resume w.state t o = some (s', u))
    (happart : ∀ v ∈ w.waiting.eraseIdx i, Apart t v) : Stepped config w s' u (w.waiting.eraseIdx i) := by
  obtain ⟨rfl, rfl⟩ := Prod.mk.inj (Option.some.inj hstep)
  have hothers (v : ℕ × Task NV) (hv : v ∈ w.waiting.eraseIdx i) : Relies w.state v :=
    hw.waiting v (List.mem_of_mem_eraseIdx hv)
  obtain ⟨hn, huser, hself⟩ := hw.waiting t (List.mem_of_getElem? ht)
  have hsame : Stepped config w w.state none (w.waiting.eraseIdx i) := .of_end hw.state hothers List.prefix_rfl
  rcases t with ⟨n, zone | ⟨updated, prev⟩ | id | trigger | id⟩
  · cases o with
    | ok _ => exact hsame
    | error e => exact createFailed_holds hw.state hothers (huser _ rfl) hself ((hok n).1 zone ht)
  · cases o with
    | ok _ => exact hsame
    | error e =>
      exact updateFailed_holds hw.state (fun u hu => ⟨hothers u hu, happart u hu⟩) (huser _ rfl) hself.1 hself.2.1
        hself.2.2 ((hok n).2.1 updated prev ht)
  · cases o with
    | ok _ => exact removed_holds hw.state hothers (huser _ rfl)
    | error e => exact hsame
  · cases o with
    | ok _ => exact hsame
    | error e =>
      have hfilter : (w.state.settings trigger.zoneId).filter (·.1 != n) = [] :=
        List.filter_eq_nil_iff.mpr fun e he => by simp [(hok n).2.2 trigger ht e he]
      have hnote : noteResume { w.state with state := w.state.state.withoutTrigger trigger.zoneId } n
          (.triggerSet trigger) (.error e) = ⟨w.state.state.withoutTrigger trigger.zoneId, w.state.count,
            w.state.writes, Function.update w.state.settings trigger.zoneId []⟩ := by
        rw [← hfilter]
        rfl
      exact hnote ▸ triggerRemoved_holds hw.state hothers
  · cases o with
    | ok _ => exact triggerRemoved_holds hw.state hothers
    | error e => exact hsame

end Traced

/-! ## Whole runs -/

def World.new : World NZ NV NT := ⟨.new, []⟩

theorem holds_new (config : Config) :
    Suspending.HoldsApart (Traced.Sound config) Traced.Relies Traced.Apart (World.new : World NZ NV NT) := by
  refine ⟨⟨⟨⟨List.nodup_nil, fun _ hz => absurd hz List.not_mem_nil, List.nodup_nil,
    fun _ ht => absurd ht List.not_mem_nil, Nat.zero_le _, Nat.zero_le _⟩, fun _ => rfl, fun _ => rfl,
    fun _ => List.nodup_nil, fun _ _ he => absurd he List.not_mem_nil⟩, ?_⟩, List.Pairwise.nil⟩
  exact fun _ h => absurd h List.not_mem_nil

theorem holds_of_step {config : Config} (w : World NZ NV NT)
    (a : Suspending.Act (Command NV) (Except ZoneError Unit)) (w' : World NZ NV NT) (hok : Suits config w a)
    (hw : Suspending.HoldsApart (Traced.Sound config) Traced.Relies Traced.Apart w)
    (hstep : (Traced.program NZ NV NT config).machine.step w a = some w') :
    Suspending.HoldsApart (Traced.Sound config) Traced.Relies Traced.Apart w' := by
  refine Suspending.holdsApart_step (P := Traced.program NZ NV NT config) (Suits config)
    (fun _ _ h => Ne.symm h) (fun w c s t hok hw hstep => ?_) (fun w i t o s u hok hw ht hstep happart => ?_)
    w a w' hok hw hstep
  · have h := Traced.start_holds hok hw hstep
    exact ⟨h.sound, h.own, h.others⟩
  · have h := Traced.resume_holds hok hw ht hstep happart
    exact ⟨h.sound, h.own, h.others⟩

theorem mfgZones_of_step {config : Config} (w : World NZ NV NT)
    (a : Suspending.Act (Command NV) (Except ZoneError Unit)) (w' : World NZ NV NT) (hok : Suits config w a)
    (hw : Suspending.HoldsApart (Traced.Sound config) Traced.Relies Traced.Apart w)
    (hstep : (Traced.program NZ NV NT config).machine.step w a = some w') :
    w.state.state.mfgZones <+: w'.state.state.mfgZones := by
  cases a with
  | start c =>
    obtain ⟨s, t, hrun, rfl⟩ := Suspending.step_start_eq_some.mp hstep
    exact (Traced.start_holds hok hw hrun).mfg
  | resume i o =>
    obtain ⟨t, s, u, ht, hrun, rfl⟩ := Suspending.step_resume_eq_some.mp hstep
    refine (Traced.resume_holds hok hw ht hrun fun v hv => ?_).mfg
    exact Suspending.apart_of_getElem? (R := Traced.Apart) (fun _ _ h => Ne.symm h) hw.apart ht hv

structure Correct (config : Config) (w : World NZ NV NT) : Prop where
  /-- the ids are distinct and not `0`, each trigger has a zone of its own, and there are not too many -/
  tables : Tables config w.state.state
  /-- a zone is what the last command has made it that has not failed -/
  zones (id : BitVec 16) : w.state.state.zone? id = (w.state.writes id).head?.map Prod.snd
  triggers (id : BitVec 16) : w.state.state.trigger? id = (w.state.settings id).head?.map Prod.snd
  /-- the zones from the beginning stay as they are -/
  mfg (a : Suspending.Act (Command NV) (Except ZoneError Unit)) (w' : World NZ NV NT) (hok : Suits config w a)
    (hstep : (Traced.program NZ NV NT config).machine.step w a = some w') :
    w.state.state.mfgZones <+: w'.state.state.mfgZones

/-- **Zones and triggers**: where what is new can be taken in and what has failed can be taken back, the
tables are consistent after every run, and a command that has failed has done nothing. -/
theorem zones_consistent (NZ NV NT : ℕ) (config : Config)
    (as : List (Suspending.Act (Command NV) (Except ZoneError Unit))) (w : World NZ NV NT)
    (hsuits : (Traced.program NZ NV NT config).machine.Meets (Suits config) World.new as)
    (hrun : (Traced.program NZ NV NT config).machine.run World.new as = some w) : Correct config w := by
  have hw := Machine.invariant_of_meets holds_of_step (holds_new config) hsuits hrun
  exact ⟨hw.state.tables, hw.state.zones, hw.state.triggers,
    fun a w' hok hstep => mfgZones_of_step w a w' hok hw hstep⟩

namespace Sample

/-- A small camera, with room for two zones of which one is a user's. -/
def config : Config := ⟨2, 1, 10, (1920, 1080), featureUserDefined⟩

def vertex (x y : BitVec 16) : Except ErrorCode VertexPayload := .ok ⟨.ok x, .ok y⟩

def payload (zoneUse : ZoneUse) : ZonePayload :=
  ⟨.ok "a", .ok zoneUse, .ok [vertex 0 0, vertex 1 0, vertex 0 1], .ok none⟩

def zone (zoneUse : ZoneUse) : Zone 3 :=
  ⟨1, .twoDCARTZone, .user, ⟨"a", by decide⟩, zoneUse, ⟨[(0, 0), (1, 0), (0, 1)], by decide⟩, none⟩

def triggerPayload (blindDuration : BitVec 32) : TriggerPayload :=
  ⟨.ok 1, .ok 10, .ok 0, .ok 20, .ok blindDuration, .ok none⟩

def trigger (blindDuration : BitVec 32) : Trigger := ⟨1, 10, 0, 20, blindDuration, none⟩

/-- A zone is created, and its first trigger fails. -/
def failing : List (Suspending.Act (Command 3) (Except ZoneError Unit)) :=
  [.start (.createTwoDCartesianZone (.ok (payload .motion))), .resume 0 (.ok ()),
    .start (.createOrUpdateTrigger (.ok (triggerPayload 1))), .resume 0 (.error .failure)]

theorem meets_failing : (Traced.program 2 3 2 config).machine.Meets (Suits config) World.new failing := by
  refine ⟨fun _ _ _ => ⟨?_, fun _ h => absurd h List.not_mem_nil, by decide⟩, fun w hw => ?_⟩
  · rintro ⟨z, hz, _⟩
    exact absurd hz List.not_mem_nil
  obtain rfl := Option.some.inj hw
  refine ⟨trivial, fun w hw => ?_⟩
  obtain rfl := Option.some.inj hw
  refine ⟨trivial, fun w hw => ?_⟩
  have hwaiting : w.waiting = [(1, .triggerSet (trigger 1))] := by
    obtain rfl := Option.some.inj hw
    rfl
  have hsettings : w.state.settings 1 = [(1, trigger 1)] := by
    obtain rfl := Option.some.inj hw
    rfl
  refine ⟨fun n => ?_, fun _ _ => trivial⟩
  rw [hwaiting]
  refine ⟨fun zone h => ?_, fun updated prev h _ => ?_, fun trigger' h e he => ?_⟩
  · cases h
  · cases h
  · obtain ⟨rfl, htask⟩ := Prod.mk.inj (Option.some.inj h)
    obtain rfl := Task.triggerSet.inj htask
    change e ∈ w.state.settings 1 at he
    rw [hsettings] at he
    obtain rfl := List.mem_singleton.mp he
    rfl

end Sample

/-- A zone is created, and its first trigger fails. -/
theorem zones_consistent_failing : ∃ w : World 2 3 2,
    (Traced.program 2 3 2 Sample.config).machine.run World.new Sample.failing = some w ∧
      Correct Sample.config w ∧ w.state.state.zones.1 = [Sample.zone .motion] ∧ w.state.state.triggers.1 = [] :=
  ⟨_, rfl, zones_consistent 2 3 2 Sample.config Sample.failing _ Sample.meets_failing rfl, rfl, rfl⟩

/-- **What is taken back too much.** A trigger that fails takes the one before with it; a zone whose creation
fails leaves its trigger behind; a change that fails undoes the change of another command that has
succeeded; and there are more zones than there may be. -/
theorem failed_trigger_removes :
    (∃ w : World 2 3 2, (Traced.program 2 3 2 Sample.config).machine.run World.new
        [.start (.createTwoDCartesianZone (.ok (Sample.payload .motion))), .resume 0 (.ok ()),
          .start (.createOrUpdateTrigger (.ok (Sample.triggerPayload 1))), .resume 0 (.ok ()),
          .start (.createOrUpdateTrigger (.ok (Sample.triggerPayload 2))), .resume 0 (.error .failure)] = some w ∧
      w.state.settings 1 = [(1, Sample.trigger 1)] ∧ w.state.state.triggers.1 = []) ∧
    (∃ w : World 2 3 2, (Traced.program 2 3 2 Sample.config).machine.run World.new
        [.start (.createTwoDCartesianZone (.ok (Sample.payload .motion))),
          .start (.createOrUpdateTrigger (.ok (Sample.triggerPayload 1))), .resume 1 (.ok ()),
          .resume 0 (.error .failure)] = some w ∧
      w.state.state.zones.1 = [] ∧ w.state.state.triggers.1 = [Sample.trigger 1]) ∧
    (∃ w : World 2 3 2, (Traced.program 2 3 2 Sample.config).machine.run World.new
        [.start (.createTwoDCartesianZone (.ok (Sample.payload .motion))), .resume 0 (.ok ()),
          .start (.updateTwoDCartesianZone (.ok 1) (.ok (Sample.payload .privacy))),
          .start (.updateTwoDCartesianZone (.ok 1) (.ok (Sample.payload .focus))), .resume 1 (.ok ()),
          .resume 0 (.error .failure)] = some w ∧
      w.state.writes 1 = [(2, Sample.zone .focus), (0, Sample.zone .motion)] ∧
      w.state.state.zones.1 = [Sample.zone .motion]) ∧
    ∃ w : World 2 3 2, (Traced.program 2 3 2 { Sample.config with maxZones := 0 }).machine.run World.new
        [.start (.createTwoDCartesianZone (.ok (Sample.payload .motion))), .resume 0 (.ok ())] = some w ∧
      w.state.state.zones.1 = [Sample.zone .motion] :=
  ⟨⟨_, rfl, rfl, rfl⟩, ⟨_, rfl, rfl, rfl⟩, ⟨_, rfl, rfl, rfl⟩, ⟨_, rfl, rfl⟩⟩

end ZoneMgmt

end RsMatter
