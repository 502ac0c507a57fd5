import RsMatter.FixedCapacity
import RsMatter.Prog
import RsMatter.Suspension

/-!
# Zones and triggers (`dm/clusters/app/zone_mgmt.rs`)

A camera watches zones of its picture; a trigger says when motion in a zone counts. Commands that add
or change something do so first, tell the application, and take it back when the application fails. Commands
that remove something ask the application first.
-/

namespace RsMatter

namespace ZoneMgmt

open Stop

/-- `MAX_ZONE_NAME_LEN`. -/
abbrev MAX_ZONE_NAME_LEN : ℕ := 16

/-- `MAX_ZONE_COLOR_LEN`. -/
abbrev MAX_ZONE_COLOR_LEN : ℕ := 7

inductive ZoneError where
  | resourceExhausted
  | dynamicConstraint
  | notFound
  | failure
  deriving DecidableEq

def ZoneError.toError : ZoneError → ErrorCode
  | resourceExhausted => .resourceExhausted
  | dynamicConstraint => .constraintError
  | notFound => .notFound
  | failure => .failure

/-- `ZoneTypeEnum`. -/
inductive ZoneType where
  | twoDCARTZone
  deriving DecidableEq

/-- `ZoneSourceEnum`. -/
inductive ZoneSource where
  | mfg
  | user
  deriving DecidableEq

/-- `ZoneUseEnum`. -/
inductive ZoneUse where
  | motion
  | privacy
  | focus
  deriving DecidableEq

/-- `Zone`. -/
structure Zone (NV : ℕ) where
  zoneId : BitVec 16
  zoneType : ZoneType
  zoneSource : ZoneSource
  name : HString MAX_ZONE_NAME_LEN
  zoneUse : ZoneUse
  vertices : HVec (BitVec 16 × BitVec 16) NV
  color : Option (HString MAX_ZONE_COLOR_LEN)
  deriving DecidableEq

/-- `Trigger`. -/
structure Trigger where
  zoneId : BitVec 16
  initialDuration : BitVec 32
  /-- how much longer it lasts when there is more motion -/
  augmentationDuration : BitVec 32
  maxDuration : BitVec 32
  blindDuration : BitVec 32
  sensitivity : Option (BitVec 8)
  deriving DecidableEq

/-- `ZoneMgmtConfig`, with the features. -/
structure Config where
  maxZones : BitVec 8
  /-- how many zones of users there can be -/
  maxUserDefinedZones : BitVec 8
  sensitivityMax : BitVec 8
  twoDCartesianMax : BitVec 16 × BitVec 16
  features : BitVec 32

/-- `Feature::USER_DEFINED`. -/
def featureUserDefined : BitVec 32 := 0x4

/-- `has_feature`. -/
def Config.hasFeature (config : Config) (bit : BitVec 32) : Bool := config.features &&& bit != 0

structure State (NZ NV NT : ℕ) where
  zones : HVec (Zone NV) NZ
  triggers : HVec Trigger NT
  nextId : BitVec 16

/-! ## Requests -/

structure VertexPayload where
  x : Except ErrorCode (BitVec 16)
  y : Except ErrorCode (BitVec 16)

/-- `TwoDCartesianZoneStruct`, as it comes. A field is decoded when it is asked for. -/
structure ZonePayload where
  name : Except ErrorCode String
  «use» : Except ErrorCode ZoneUse
  vertices : Except ErrorCode (List (Except ErrorCode VertexPayload))
  color : Except ErrorCode (Option String)

/-- `ZoneTriggerControlStruct`, as it comes. -/
structure TriggerPayload where
  zoneId : Except ErrorCode (BitVec 16)
  initialDuration : Except ErrorCode (BitVec 32)
  /-- how much longer it lasts when there is more motion -/
  augmentationDuration : Except ErrorCode (BitVec 32)
  maxDuration : Except ErrorCode (BitVec 32)
  blindDuration : Except ErrorCode (BitVec 32)
  sensitivity : Except ErrorCode (Option (BitVec 8))

def parseVertices {NV : ℕ} (config : Config) :
    List (Except ErrorCode VertexPayload) → HVec (BitVec 16 × BitVec 16) NV →
      Except (Stop ErrorCode) (HVec (BitVec 16 × BitVec 16) NV)
  | [], vertices => return vertices
  | v :: rest, vertices => do
    let v ← lift v
    let x ← lift v.x
    let y ← lift v.y
    if config.twoDCartesianMax.1 < x ∨ config.twoDCartesianMax.2 < y then .error (.error .constraintError)
    else do
      let vertices ← vertices.push (x, y) .resourceExhausted
      parseVertices config rest vertices

def parseColor : Option String → Except (Stop ErrorCode) (Option (HString MAX_ZONE_COLOR_LEN))
  | some c => do
    let h ← HString.tryFrom c .constraintError
    return some h
  | none => return none

/-- `parse_zone_payload`: a zone with an id and a source. -/
def parseZonePayload {NV : ℕ} (config : Config) (s : ZonePayload) :
    Except (Stop ErrorCode) (BitVec 16 → ZoneType → Zone NV) := do
  let name ← lift s.name
  let name ← HString.tryFrom name .constraintError
  let zoneUse ← lift s.use
  let vertices ← lift s.vertices
  let vertices ← parseVertices config vertices .new
  if vertices.1.length < 3 then .error (.error .constraintError)
  else do
    let color ← lift s.color
    let color ← parseColor color
    return fun zoneId zoneType => ⟨zoneId, zoneType, .user, name, zoneUse, vertices, color⟩

/-! ## Commands -/

/-- What is asked for, by peers and by the application itself. -/
inductive Command (NV : ℕ) where
  | addMfgZone (zone : Zone NV)
  | createTwoDCartesianZone (zone : Except ErrorCode ZonePayload)
  | updateTwoDCartesianZone (zoneId : Except ErrorCode (BitVec 16)) (zone : Except ErrorCode ZonePayload)
  | removeZone (zoneId : Except ErrorCode (BitVec 16))
  | createOrUpdateTrigger (trigger : Except ErrorCode TriggerPayload)
  | removeTrigger (zoneId : Except ErrorCode (BitVec 16))

/-- What a command waits for: a call of the application. -/
inductive Task (NV : ℕ) where
  | zoneCreated (zone : Zone NV)
  | zoneUpdated (updated prev : Zone NV)
  | zoneRemoved (zoneId : BitVec 16)
  | triggerSet (trigger : Trigger)
  | triggerRemoved (zoneId : BitVec 16)
  deriving DecidableEq

/-- What follows: a wait, an answer with an id, or the end. -/
inductive Next (NV : ℕ) where
  | wait (t : Task NV)
  | zoneId (id : BitVec 16)
  | done
  deriving DecidableEq

namespace State

variable {NZ NV NT : ℕ}

def new : State NZ NV NT := ⟨.new, .new, 1⟩

def nextZoneId (s : State NZ NV NT) : BitVec 16 := if s.nextId = 0 then 1 else s.nextId

/-- `alloc_zone_id`. -/
def allocZoneId : Prog (Stop ErrorCode) (State NZ NV NT) (BitVec 16) := do
  let s ← Prog.get
  let id := s.nextZoneId
  Prog.modify fun s => { s with nextId := if id + 1 = 0 then 1 else id + 1 }
  return id

/-- `user_defined_zone_count`. -/
def userDefinedZoneCount (s : State NZ NV NT) : ℕ :=
  (s.zones.1.filter fun z => z.zoneSource == .user).length

/-- A zone comes to the others, if there is room. -/
def pushZone (zone : Zone NV) : Prog (Stop ErrorCode) (State NZ NV NT) Bool := do
  let s ← Prog.get
  match s.zones.push zone .resourceExhausted with
  | .ok zones => do
    Prog.modify fun s => { s with zones }
    return true
  | .error _ => return false

/-- `add_mfg_zone`. -/
def addMfgZone (zone : Zone NV) : Prog (Stop ErrorCode) (State NZ NV NT) (BitVec 16) := do
  let id ← allocZoneId
  let pushed ← pushZone { zone with zoneSource := .mfg, zoneId := id }
  if pushed then return id else Prog.throw (.error .resourceExhausted)

/-- The zones with another one in the place of the one with its id, if there is one. -/
def replaceZone (s : State NZ NV NT) (zone : Zone NV) : State NZ NV NT :=
  match s.zones.1.findIdx? (·.zoneId == zone.zoneId) with
  | some i => { s with zones := s.zones.set i zone }
  | none => s

def withoutZone (s : State NZ NV NT) (zoneId : BitVec 16) : State NZ NV NT :=
  { s with zones := ⟨s.zones.1.filter (·.zoneId != zoneId),
    Nat.le_trans (List.length_filter_le _ _) s.zones.2⟩ }

def withoutTrigger (s : State NZ NV NT) (zoneId : BitVec 16) : State NZ NV NT :=
  { s with triggers := ⟨s.triggers.1.filter (·.zoneId != zoneId),
    Nat.le_trans (List.length_filter_le _ _) s.triggers.2⟩ }

/-- A trigger takes the place of that of its zone, or comes to the others, if there is room. -/
def putTrigger (trigger : Trigger) : Prog (Stop ErrorCode) (State NZ NV NT) Bool := do
  let s ← Prog.get
  match s.triggers.1.findIdx? (·.zoneId == trigger.zoneId) with
  | some i => do
    Prog.modify fun s => { s with triggers := s.triggers.set i trigger }
    return true
  | none =>
    match s.triggers.push trigger .resourceExhausted with
    | .ok triggers => do
      Prog.modify fun s => { s with triggers }
      return true
    | .error _ => return false

variable (config : Config)

def checkCreate (s : State NZ NV NT) (zone : Except ErrorCode ZonePayload) :
    Except (Stop ErrorCode) (BitVec 16 → ZoneType → Zone NV) := do
  if config.hasFeature featureUserDefined then do
    let payload ← lift zone
    let parsed ← parseZonePayload config payload
    if config.maxUserDefinedZones.toNat ≤ s.userDefinedZoneCount then .error (.error .resourceExhausted)
    else return parsed
  else .error (.error .invalidAction)

/-- `handle_create_two_d_cartesian_zone`, up to the wait. -/
def handleCreateTwoDCartesianZone (zone : Except ErrorCode ZonePayload) :
    Prog (Stop ErrorCode) (State NZ NV NT) (Next NV) := do
  let s ← Prog.get
  let parsed ← Prog.ofExcept (s.checkCreate config zone)
  let id ← allocZoneId
  let zone := parsed id .twoDCARTZone
  let pushed ← pushZone zone
  if pushed then return .wait (.zoneCreated zone) else Prog.throw (.error .resourceExhausted)

/-- The checks of a change: the zone as it will be, and as it is. It is found twice, with nothing in
between. -/
def checkUpdate (s : State NZ NV NT) (zoneId : Except ErrorCode (BitVec 16))
    (zone : Except ErrorCode ZonePayload) : Except (Stop ErrorCode) (Zone NV × Zone NV) := do
  if config.hasFeature featureUserDefined then do
    let id ← lift zoneId
    let payload ← lift zone
    let parsed ← parseZonePayload config payload
    match s.zones.1.find? (·.zoneId == id) with
    | none => .error (.error .notFound)
    | some prior =>
      if prior.zoneSource ≠ .user then .error (.error .invalidAction)
      else return (parsed id prior.zoneType, prior)
  else .error (.error .invalidAction)

/-- `handle_update_two_d_cartesian_zone`, up to the wait. -/
def handleUpdateTwoDCartesianZone (zoneId : Except ErrorCode (BitVec 16))
    (zone : Except ErrorCode ZonePayload) : Prog (Stop ErrorCode) (State NZ NV NT) (Next NV) := do
  let s ← Prog.get
  let (updated, prev) ← Prog.ofExcept (s.checkUpdate config zoneId zone)
  Prog.modify (replaceZone · updated)
  return .wait (.zoneUpdated updated prev)

/-- `handle_remove_zone`, up to the wait. -/
def handleRemoveZone (zoneId : Except ErrorCode (BitVec 16)) :
    Prog (Stop ErrorCode) (State NZ NV NT) (Next NV) := do
  let id ← Prog.ofExcept (lift zoneId)
  let s ← Prog.get
  match s.zones.1.find? (·.zoneId == id) with
  | none => Prog.throw (.error .notFound)
  | some z => if z.zoneSource ≠ .user then Prog.throw (.error .invalidAction) else return .wait (.zoneRemoved id)

def checkTrigger (s : State NZ NV NT) (trigger : Except ErrorCode TriggerPayload) :
    Except (Stop ErrorCode) Trigger := do
  let payload ← lift trigger
  let zoneId ← lift payload.zoneId
  let initialDuration ← lift payload.initialDuration
  let augmentationDuration ← lift payload.augmentationDuration
  let maxDuration ← lift payload.maxDuration
  let blindDuration ← lift payload.blindDuration
  let sensitivity ← lift payload.sensitivity
  if ¬s.zones.1.any (·.zoneId == zoneId) then .error (.error .notFound)
  else if maxDuration < initialDuration ∨ (0 < augmentationDuration ∧ maxDuration ≤ initialDuration) then
    .error (.error .constraintError)
  else if sensitivity.any fun s => s < 1 || config.sensitivityMax < s then .error (.error .constraintError)
  else return ⟨zoneId, initialDuration, augmentationDuration, maxDuration, blindDuration, sensitivity⟩

/-- `handle_create_or_update_trigger`, up to the wait. -/
def handleCreateOrUpdateTrigger (trigger : Except ErrorCode TriggerPayload) :
    Prog (Stop ErrorCode) (State NZ NV NT) (Next NV) := do
  let s ← Prog.get
  let trigger ← Prog.ofExcept (s.checkTrigger config trigger)
  let pushed ← putTrigger trigger
  if pushed then return .wait (.triggerSet trigger) else Prog.throw (.error .resourceExhausted)

/-- `handle_remove_trigger`, up to the wait. -/
def handleRemoveTrigger (zoneId : Except ErrorCode (BitVec 16)) :
    Prog (Stop ErrorCode) (State NZ NV NT) (Next NV) := do
  let id ← Prog.ofExcept (lift zoneId)
  let s ← Prog.get
  if s.triggers.1.any (·.zoneId == id) then return .wait (.triggerRemoved id)
  else Prog.throw (.error .notFound)

def start : Command NV → Prog (Stop ErrorCode) (State NZ NV NT) (Next NV)
  | .addMfgZone zone => do
    let id ← addMfgZone zone
    return .zoneId id
  | .createTwoDCartesianZone zone => handleCreateTwoDCartesianZone config zone
  | .updateTwoDCartesianZone zoneId zone => handleUpdateTwoDCartesianZone config zoneId zone
  | .removeZone zoneId => handleRemoveZone zoneId
  | .createOrUpdateTrigger trigger => handleCreateOrUpdateTrigger config trigger
  | .removeTrigger zoneId => handleRemoveTrigger zoneId

def resume : Task NV → Except ZoneError Unit → Prog (Stop ErrorCode) (State NZ NV NT) (Next NV)
  | .zoneCreated zone, .ok () => return .zoneId zone.zoneId
  | .zoneCreated zone, .error e => do
    Prog.modify (withoutZone · zone.zoneId)
    Prog.throw (.error e.toError)
  | .zoneUpdated _ _, .ok () => return .done
  | .zoneUpdated _ prev, .error e => do
    Prog.modify (replaceZone · prev)
    Prog.throw (.error e.toError)
  | .zoneRemoved zoneId, .ok () => do
    Prog.modify fun s => (s.withoutZone zoneId).withoutTrigger zoneId
    return .done
  | .zoneRemoved _, .error e => Prog.throw (.error e.toError)
  | .triggerSet _, .ok () => return .done
  | .triggerSet trigger, .error e => do
    Prog.modify (withoutTrigger · trigger.zoneId)
    Prog.throw (.error e.toError)
  | .triggerRemoved zoneId, .ok () => do
    Prog.modify (withoutTrigger · zoneId)
    return .done
  | .triggerRemoved _, .error e => Prog.throw (.error e.toError)

end State

/-! ## What the commands have done -/

/-- The zones and triggers, and what has been done to them. The commands are numbered as they begin, and a
zone or a trigger is what the last command has made it that has not failed. -/
structure Traced (NZ NV NT : ℕ) where
  state : State NZ NV NT
  count : ℕ
  /-- what has been made of a zone since it is there, the last first, and by whom -/
  writes : BitVec 16 → List (ℕ × Zone NV)
  /-- the triggers that have been set for a zone since the last was removed, the last first, and by whom -/
  settings : BitVec 16 → List (ℕ × Trigger)

namespace Traced

variable {NZ NV NT : ℕ}

def new : Traced NZ NV NT := ⟨.new, 0, fun _ => [], fun _ => []⟩

def noteCreated (s : Traced NZ NV NT) (zone : Zone NV) : Traced NZ NV NT :=
  { s with writes := Function.update s.writes zone.zoneId [(s.count, zone)] }

def noteUpdated (s : Traced NZ NV NT) (zone : Zone NV) : Traced NZ NV NT :=
  { s with writes := Function.update s.writes zone.zoneId ((s.count, zone) :: s.writes zone.zoneId) }

def noteSet (s : Traced NZ NV NT) (trigger : Trigger) : Traced NZ NV NT :=
  { s with settings := Function.update s.settings trigger.zoneId ((s.count, trigger) :: s.settings trigger.zoneId) }

def noteStart (s : Traced NZ NV NT) :
    Command NV → Except (Stop ErrorCode) (Next NV) → Traced NZ NV NT
  | .addMfgZone zone, .ok (.zoneId id) => s.noteCreated { zone with zoneSource := .mfg, zoneId := id }
  | _, .ok (.wait (.zoneCreated zone)) => s.noteCreated zone
  | _, .ok (.wait (.zoneUpdated updated _)) => s.noteUpdated updated
  | _, .ok (.wait (.triggerSet trigger)) => s.noteSet trigger
  | _, _ => s

/-- What a command has done when it ends: it has removed something, or has failed and done nothing. A zone
whose creation has failed is not there, whoever has changed it. -/
def noteResume (s : Traced NZ NV NT) (n : ℕ) : Task NV → Except ZoneError Unit → Traced NZ NV NT
  | .zoneCreated zone, .error _ =>
    if (s.writes zone.zoneId).any (·.1 == n) then { s with writes := Function.update s.writes zone.zoneId [] }
    else s
  | .zoneUpdated updated _, .error _ =>
    let rest := (s.writes updated.zoneId).filter (·.1 != n)
    { s with writes := Function.update s.writes updated.zoneId rest }
  | .zoneRemoved id, .ok () =>
    { s with writes := Function.update s.writes id [], settings := Function.update s.settings id [] }
  | .triggerSet trigger, .error _ =>
    let rest := (s.settings trigger.zoneId).filter (·.1 != n)
    { s with settings := Function.update s.settings trigger.zoneId rest }
  | .triggerRemoved id, .ok () => { s with settings := Function.update s.settings id [] }
  | _, _ => s

def task? : Except (Stop ErrorCode) (Next NV) → Option (Task NV)
  | .ok (.wait t) => some t
  | _ => none

def start (config : Config) (s : Traced NZ NV NT) (c : Command NV) :
    Option (Traced NZ NV NT × Option (ℕ × Task NV)) :=
  let (state, r) := (State.start config c).run s.state
  let noted := noteStart { s with state } c r
  some ({ noted with count := s.count + 1 }, (task? r).map fun t => (s.count, t))

def resume (s : Traced NZ NV NT) (t : ℕ × Task NV) (o : Except ZoneError Unit) :
    Option (Traced NZ NV NT × Option (ℕ × Task NV)) :=
  some (noteResume { s with state := ((State.resume t.2 o).run s.state).1 } t.1 t.2 o, none)

def program (NZ NV NT : ℕ) (config : Config) :
    Suspending (Traced NZ NV NT) (Command NV) (ℕ × Task NV) (Except ZoneError Unit) :=
  ⟨start config, resume⟩

end Traced

end ZoneMgmt

end RsMatter
