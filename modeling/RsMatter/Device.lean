import RsMatter.Machine
import RsMatter.SessionTable

/-!
# Commissioning a node (`dm/clusters/gen_comm.rs`, `noc.rs`, `acl.rs`, `groups.rs`, `grp_key_mgmt.rs`, `adm_comm.rs`, `failsafe.rs`, `persist.rs`)

The commands that change the fabrics of the node, the fail-safe or the sessions, and
what else does: handshakes that end in a session, the timer of the fail-safe, a
restart. A fabric is kept in memory and, once it is committed, in storage; a command
that changes one decides for itself whether to store it. What a command gets from its
surroundings (the time, whether storage works, a random key) is an `Env`.
-/

namespace RsMatter

/-! ## Storage -/

structure Networks where
  /-- the credentials, as they are stored -/
  networks : List (List UInt8)
  /-- has the node been commissioned on them? -/
  commissioned : Bool
  deriving DecidableEq

def Networks.reset : Networks := ⟨[], false⟩

/-- The keys of the storage that are used here. -/
inductive Key where
  | fabric (fabIdx : ℕ)
  | networks
  deriving DecidableEq

/-- What is stored under the keys. A stored fabric reads back as the fabric it was. -/
structure KvBlobStore where
  fabrics : ℕ → Option Fabric
  networks : Option Networks

structure Env where
  nowMs : ℕ
  /-- does an access to storage under a key succeed? -/
  works : Key → Bool
  /-- the next key the crypto library generates -/
  newKey : Except ErrorCode (List UInt8)
  /-- can the events and the response of the command be written? -/
  respond : Except ErrorCode Unit

/-! ## The node -/

/-- The part of the node that commissioning is about. -/
structure Device where
  failsafe : FailSafe
  fabrics : Fabrics
  sessions : Sessions
  commWindow : Bool
  networks : Networks
  kv : KvBlobStore
  /-- how often the fabric at an index has been added, removed or rolled back; not in the
  source -/
  stamps : ℕ → ℕ

namespace Device

def factoryNew : Device where
  failsafe := .new
  fabrics := []
  sessions := .new
  commWindow := false
  networks := .reset
  kv := ⟨fun _ => none, none⟩
  stamps := fun _ => 0

def onFailSafe {α : Type} (m : Prog ErrorCode FailSafe α) : Prog ErrorCode Device α :=
  Prog.zoom failsafe (fun d failsafe => { d with failsafe }) m

def onFabrics {α : Type} (m : Prog ErrorCode Fabrics α) : Prog ErrorCode Device α :=
  Prog.zoom fabrics (fun d fabrics => { d with fabrics }) m

def onFailSafeFabrics {α : Type} (m : Prog ErrorCode FailSafeFabrics α) : Prog ErrorCode Device α :=
  Prog.zoom (fun d => ⟨d.failsafe, d.fabrics⟩)
    (fun d t => { d with failsafe := t.failsafe, fabrics := t.fabrics }) m

def onSessions {α : Type} (m : Prog ErrorCode Sessions α) : Prog ErrorCode Device α :=
  Prog.zoom sessions (fun d sessions => { d with sessions }) m

/-- The fabric at an index is from now on another one. -/
def restamp (fabIdx : ℕ) (d : Device) : Device :=
  { d with stamps := Function.update d.stamps fabIdx (d.stamps fabIdx + 1) }

def loadFabric (env : Env) (fabIdx : ℕ) : Prog ErrorCode Device (Option Fabric) := do
  Prog.ensure (env.works (.fabric fabIdx)) .stdIoError
  let d ← Prog.get
  return d.kv.fabrics fabIdx

def storeFabric (env : Env) (fabric : Fabric) : Prog ErrorCode Device Unit := do
  Prog.ensure (env.works (.fabric fabric.fabIdx)) .stdIoError
  Prog.modify fun d =>
    { d with kv.fabrics := Function.update d.kv.fabrics fabric.fabIdx (some fabric) }

def removeStored (env : Env) (fabIdx : ℕ) : Prog ErrorCode Device Unit := do
  Prog.ensure (env.works (.fabric fabIdx)) .stdIoError
  Prog.modify fun d => { d with kv.fabrics := Function.update d.kv.fabrics fabIdx none }

def loadNetworks (env : Env) : Prog ErrorCode Device Unit := do
  Prog.ensure (env.works .networks) .stdIoError
  Prog.modify fun d => { d with networks := d.kv.networks.getD .reset }

def storeNetworks (env : Env) : Prog ErrorCode Device Unit := do
  Prog.ensure (env.works .networks) .stdIoError
  Prog.modify fun d => { d with kv.networks := some d.networks }

/-! ## The end of the fail-safe -/

/-- Take the fabric of the context back to what is stored. -/
def rollBack (env : Env) (fabIdx : ℕ) : Prog ErrorCode Device Unit := do
  onFabrics (Fabrics.remove fabIdx)
  Prog.modify (restamp fabIdx)
  let data ← loadFabric env fabIdx
  onFabrics (Fabrics.addLoad data)

/-- The fail-safe expires; `expireSessId` is the session to be kept for a response. Every
step before the last two can fail, and then the fail-safe stays armed. -/
def expire (env : Env) (expireSessId : Option (BitVec 32)) : Prog ErrorCode Device Bool := do
  let d ← Prog.get
  match d.failsafe.state with
  | .idle => return false
  | .armed ctx =>
    Prog.onlyIf (ctx.fabIdx ≠ 0) (rollBack env ctx.fabIdx)
    loadNetworks env
    Prog.modify fun d => { d with sessions := d.sessions.removePase expireSessId }
    Prog.modify fun d => { d with failsafe.state := .idle, failsafe.breadcrumb := 0 }
    return true

def checkFailsafeTimeout (env : Env) : Prog ErrorCode Device Bool := do
  let d ← Prog.get
  match d.failsafe.state with
  | .idle => return false
  | .armed ctx =>
    if ctx.armedAt + 1000 * ctx.timeoutSecs ≤ env.nowMs then
      let _ ← expire env none
      return true
    else
      return false

/-- Run a command that is for the owner of the fail-safe only. -/
def withArmedFailsafe {α : Type} (mode : SessionMode) (m : Prog ErrorCode Device α) :
    Prog ErrorCode Device α := do
  let d ← Prog.get
  Prog.ofExcept ((d.failsafe.checkArmed mode).mapError fun
    | .nocInvalidFabricIndex => .gennCommInvalidAuthentication
    | e => e)
  m

/-! ## Statuses -/

/-- The status of a command of the general commissioning cluster. -/
inductive CommissioningError where
  | ok
  | busyWithOtherAdmin
  | invalidAuthentication
  | noFailSafe
  deriving DecidableEq

def CommissioningError.map : Except ErrorCode Unit → Except ErrorCode CommissioningError
  | .ok () => .ok .ok
  | .error .busy => .ok .busyWithOtherAdmin
  | .error .nocInvalidFabricIndex => .ok .busyWithOtherAdmin
  | .error .gennCommInvalidAuthentication => .ok .invalidAuthentication
  | .error .failSafeRequired => .ok .noFailSafe
  | .error e => .error e

/-- The status of a command of the operational credentials cluster. -/
inductive NodeOperationalCertStatus where
  | ok
  | tableFull
  | invalidFabricIndex
  | fabricConflict
  | labelConflict
  | invalidNoc
  | invalidPublicKey
  | invalidAdminSubject
  | missingCsr
  deriving DecidableEq

def NodeOperationalCertStatus.map : Except ErrorCode Unit → Except ErrorCode NodeOperationalCertStatus
  | .ok () => .ok .ok
  | .error .nocFabricTableFull => .ok .tableFull
  | .error .nocInvalidFabricIndex => .ok .invalidFabricIndex
  | .error .nocFabricConflict => .ok .fabricConflict
  | .error .nocLabelConflict => .ok .labelConflict
  | .error .nocInvalidNoc => .ok .invalidNoc
  | .error .nocInvalidPublicKey => .ok .invalidPublicKey
  | .error .nocInvalidAdminSubject => .ok .invalidAdminSubject
  | .error .nocMissingCsr => .ok .missingCsr
  | .error e => .error e

/-- The status of a command of the groups cluster. -/
inductive GroupStatus where
  | success
  | constraintError
  | unsupportedAccess
  | resourceExhausted
  | notFound
  deriving DecidableEq

inductive Reply where
  | done
  | commissioning (status : CommissioningError)
  | noc (status : NodeOperationalCertStatus)
  | group (status : GroupStatus)
  deriving DecidableEq

def Reply.isOk : Reply → Bool
  | done => true
  | commissioning status => status == .ok
  | noc status => status == .ok
  | group status => status == .success

/-- The reply of a command of the general commissioning cluster. -/
def commissioningReply (m : Prog ErrorCode Device Unit) : Prog ErrorCode Device Reply :=
  Prog.mapResult (fun r => (CommissioningError.map r).map .commissioning) m

/-- The reply of a command of the operational credentials cluster. -/
def nocReply (m : Prog ErrorCode Device Unit) : Prog ErrorCode Device Reply :=
  Prog.mapResult (fun r => (NodeOperationalCertStatus.map r).map .noc) m

def plainReply (m : Prog ErrorCode Device Unit) : Prog ErrorCode Device Reply :=
  Prog.mapResult (fun r => r.map fun _ => .done) m

/-! ## General commissioning -/

/-- The session to be kept where the fail-safe ends by a command on it. -/
def paseSessId (sess : StampedSession) : Option (BitVec 32) :=
  if sess.mode.isPase then some sess.id else none

/-- `ArmFailSafe`. An expiry length of `0` ends the fail-safe at once. -/
def handleArmFailSafe (env : Env) (sess : StampedSession) (expiryLengthSeconds : ℕ)
    (breadcrumb : BitVec 64) : Prog ErrorCode Device Unit := do
  if expiryLengthSeconds = 0 then
    let _ ← expire env (paseSessId sess)
    return ()
  else
    let d ← Prog.get
    onFailSafe (FailSafe.arm env.nowMs expiryLengthSeconds breadcrumb sess.mode d.commWindow)

/-- `CommissioningComplete`. -/
def handleCommissioningComplete (env : Env) (sess : StampedSession) : Prog ErrorCode Device Unit :=
  withArmedFailsafe sess.mode do
    let fabric ← onFailSafeFabrics (FailSafe.disarm sess.mode)
    Prog.modify ({ · with commWindow := false })
    Prog.modify fun d => { d with sessions := d.sessions.removePase (paseSessId sess) }
    storeFabric env fabric
    Prog.modify fun d => { d with networks.commissioned := true }
    storeNetworks env

/-- The commands of the network commissioning cluster that change the credentials. -/
def handleNetworks (sess : StampedSession) (networks : List (List UInt8)) : Prog ErrorCode Device Unit :=
  withArmedFailsafe sess.mode (Prog.modify fun d => { d with networks.networks := networks })

/-- `RevokeCommissioning`. -/
def handleRevokeCommissioning (env : Env) (sess : StampedSession) : Prog ErrorCode Device Unit := do
  let _ ← expire env (paseSessId sess)
  Prog.modify ({ · with commWindow := false })

/-! ## Operational credentials -/

/-- How many bytes the nonce of a `CSRRequest` has. -/
def csrNonceLen : ℕ := 32

/-- `CSRRequest`. The key has been made when the response is written. -/
def handleCsrRequest (env : Env) (sess : StampedSession) (csrNonce : List UInt8)
    (isForUpdateNoc : Bool) : Prog ErrorCode Device Unit := do
  Prog.ensure (csrNonce.length = csrNonceLen) .invalidCommand
  withArmedFailsafe sess.mode do
    Prog.ensure (isForUpdateNoc = true → sess.mode.isCase = true) .invalidCommand
    onFailSafe
      (if isForUpdateNoc then FailSafe.updateCsrReq env.newKey sess.mode
      else FailSafe.addCsrReq env.newKey sess.mode)
    Prog.ofExcept env.respond

/-- `AddTrustedRootCertificate`. -/
def handleAddTrustedRootCertificate (crypto : Crypto) (sess : StampedSession) (rootCa : List UInt8) :
    Prog ErrorCode Device Unit :=
  withArmedFailsafe sess.mode (onFailSafe (FailSafe.addTrustedRootCert crypto sess.mode rootCa))

/-- Give the session a fabric has been added on the index of that fabric. -/
def upgradeFabricIdx (sess : StampedSession) (fabIdx : ℕ) : Prog ErrorCode Device Unit := do
  let d ← Prog.get
  let sess' ← Prog.ofExcept (sess.upgradeFabricIdx fabIdx (d.stamps fabIdx))
  Prog.modify fun d =>
    { d with sessions := d.sessions.modifySession (fun x => x.id == sess.id) fun _ => sess' }

/-- The fabric is removed again where the session it was added on cannot have it. -/
def dropAdded (fabIdx : ℕ) : Prog ErrorCode Device Unit := do
  onFabrics (Fabrics.remove fabIdx)
  Prog.modify (restamp fabIdx)

/-- `AddNOC`. -/
def handleAddNoc (crypto : Crypto) (sess : StampedSession) (req : FailSafe.NocRequest) :
    Prog ErrorCode Device Unit :=
  withArmedFailsafe sess.mode do
    let req := { req with icac := req.icac.filter (!·.isEmpty) }
    let fabric ← onFailSafeFabrics (FailSafe.addNoc crypto sess.mode req)
    Prog.modify (restamp fabric.fabIdx)
    Prog.onlyIf (sess.mode.isPase = true)
      (Prog.catching (upgradeFabricIdx sess fabric.fabIdx) fun e => do
        dropAdded fabric.fabIdx
        Prog.throw e)

/-- `UpdateNOC`. -/
def handleUpdateNoc (crypto : Crypto) (sess : StampedSession) (icac : Option (List UInt8))
    (noc : List UInt8) : Prog ErrorCode Device Unit :=
  withArmedFailsafe sess.mode
    (onFailSafeFabrics (FailSafe.updateNoc crypto sess.mode (icac.filter (!·.isEmpty)) noc))

/-- `UpdateFabricLabel`. The label is not stored. -/
def handleUpdateFabricLabel (sess : StampedSession) (label : List UInt8) : Prog ErrorCode Device Unit := do
  Prog.ensure (sess.getLocalFabricIdx ≠ 0) .gennCommInvalidAuthentication
  Prog.mapError (fun
    | .invalid => .nocLabelConflict
    | e => e) (onFabrics (Fabrics.updateLabel sess.getLocalFabricIdx label))

/-- `RemoveFabric`. Our own session is kept for the response if it is on the fabric. -/
def handleRemoveFabric (env : Env) (sess : StampedSession) (fabIdx : ℕ) :
    Prog ErrorCode Device NodeOperationalCertStatus := do
  Prog.ensure (fabIdx ≠ 0) .constraintError
  let d ← Prog.get
  if (Fabrics.get d.fabrics fabIdx).isSome then
    onFabrics (Fabrics.remove fabIdx)
    Prog.modify (restamp fabIdx)
    let expireSessId := if sess.getLocalFabricIdx = fabIdx then some sess.id else none
    Prog.modify fun d => { d with sessions := d.sessions.removeForFabric fabIdx expireSessId }
    removeStored env fabIdx
    return .ok
  else
    return .invalidFabricIndex

/-- `SetVIDVerificationStatement`. It is stored at once, with everything else of the fabric,
unless the fabric has been added or updated under the fail-safe. -/
def handleSetVidVerificationStatement (env : Env) (sess : StampedSession) (vendorId : Option (BitVec 16))
    (statement vvsc : Option (List UInt8)) : Prog ErrorCode Device Unit := do
  Prog.ensure (vendorId.isSome ∨ statement.isSome ∨ vvsc.isSome) .invalidCommand
  Prog.ensure (∀ vid ∈ vendorId, vid ≠ 0 ∧ vid ≤ 0xfff4#16) .constraintError
  Prog.ensure (∀ s ∈ statement, s = [] ∨ s.length = vidVerificationStatementLen) .constraintError
  Prog.ensure (∀ v ∈ vvsc, v.length ≤ maxCertTlvLen) .constraintError
  let fabIdx := sess.getLocalFabricIdx
  Prog.ensure (fabIdx ≠ 0) .unsupportedAccess
  onFabrics (Fabrics.fabricMut fabIdx do
    let fabric ← Prog.get
    Prog.ensure (∀ v ∈ vvsc, v = [] ∨ fabric.icac = []) .invalidCommand
    Fabric.setVidVerification vendorId statement vvsc)
  let d ← Prog.get
  Prog.onlyIf (d.failsafe.hasPendingNocFor fabIdx = false)
    (Prog.whenSome (Fabrics.get d.fabrics fabIdx) (storeFabric env))

/-! ## Access control and groups -/

/-- The fabric of the session a command is received on. -/
def accessorFabIdx (sess : StampedSession) : Prog ErrorCode Device ℕ := do
  Prog.ensure (sess.getLocalFabricIdx ≠ 0) .unsupportedAccess
  return sess.getLocalFabricIdx

/-- Work on a fabric and store it where `edit` says so, unless the fail-safe is armed for
the fabric: then it is stored when commissioning completes. -/
def editFabric (env : Env) (fabIdx : ℕ) (edit : Prog ErrorCode Fabric (Bool × Reply)) :
    Prog ErrorCode Device Reply := do
  let result ← onFabrics (Fabrics.fabricMut fabIdx edit)
  let d ← Prog.get
  Prog.onlyIf (result.1 = true ∧ d.failsafe.isArmedFor fabIdx = false)
    (Prog.whenSome (Fabrics.get d.fabrics fabIdx) (storeFabric env))
  return result.2

inductive AclWrite where
  | replace (list : List AccessControlEntryStruct)
  | add (entry : AccessControlEntryStruct)
  | update (index : ℕ) (entry : AccessControlEntryStruct)
  | remove (index : ℕ)
  deriving DecidableEq

/-- The entries of a whole new list, if all of them are legal and there are not too many. -/
def aclEntries (fabIdx : ℕ) : ℕ → List AccessControlEntryStruct → Except ErrorCode (List AclEntry)
  | _, [] => .ok []
  | 0, _ :: _ => .error .resourceExhausted
  | room + 1, entry :: rest => do
    let entry ← AclEntry.initWith fabIdx entry
    let entries ← aclEntries fabIdx room rest
    return entry :: entries

def setAcl : AclWrite → Prog ErrorCode Fabric Unit
  | .replace list => do
    let fabric ← Prog.get
    let acl ← Prog.ofExcept (aclEntries fabric.fabIdx maxAclEntriesPerFabric list)
    Prog.modify ({ · with acl })
  | .add entry => do
    let fabric ← Prog.get
    Fabric.aclAddInit (AclEntry.initWith fabric.fabIdx entry)
  | .update index entry => do
    let fabric ← Prog.get
    Fabric.aclUpdateInit index (AclEntry.initWith fabric.fabIdx entry)
  | .remove index => Fabric.aclRemove index

/-- A write to the access control list. The events about it are written before the fabric
is stored. -/
def handleSetAcl (env : Env) (sess : StampedSession) (value : AclWrite) : Prog ErrorCode Device Reply := do
  let fabIdx ← accessorFabIdx sess
  editFabric env fabIdx do
    setAcl value
    Prog.ofExcept env.respond
    return (true, .done)

def addGroup (endpointId : EndptId) (groupId : BitVec 16) (groupName : String) :
    Prog ErrorCode Fabric (Bool × Reply) := do
  let fabric ← Prog.get
  if fabric.groups.keyMap.any (·.groupId == groupId) then
    Prog.catching (do
      let _ ← Fabric.groupsMut (Groups.add endpointId groupId groupName)
      return (true, .group .success)) fun
      | .resourceExhausted => return (false, .group .resourceExhausted)
      | e => Prog.throw e
  else
    return (false, .group .unsupportedAccess)

/-- `AddGroup`. -/
def handleAddGroup (env : Env) (sess : StampedSession) (endpointId : EndptId) (groupId : BitVec 16)
    (groupName : String) : Prog ErrorCode Device Reply := do
  let fabIdx ← accessorFabIdx sess
  if groupId = 0 ∨ maxGroupNameLen < groupName.utf8ByteSize then
    return .group .constraintError
  else
    editFabric env fabIdx (addGroup endpointId groupId groupName)

/-- `RemoveGroup`. -/
def handleRemoveGroup (env : Env) (sess : StampedSession) (endpointId : EndptId) (groupId : BitVec 16) :
    Prog ErrorCode Device Reply := do
  let fabIdx ← accessorFabIdx sess
  if groupId = 0 then
    return .group .constraintError
  else
    editFabric env fabIdx do
      let removed ← Fabric.groupsMut (Groups.remove endpointId (some groupId))
      return (removed, .group (if removed then .success else .notFound))

/-- `RemoveAllGroups`. -/
def handleRemoveAllGroups (env : Env) (sess : StampedSession) (endpointId : EndptId) :
    Prog ErrorCode Device Reply := do
  let fabIdx ← accessorFabIdx sess
  editFabric env fabIdx do
    let _ ← Fabric.groupsMut (Groups.remove endpointId none)
    return (true, .done)

inductive GroupKeyMapWrite where
  | replace (list : List GroupKeyMapping)
  | add (entry : GroupKeyMapping)
  | other
  deriving DecidableEq

/-- A list of mappings is checked entry by entry. -/
def checkGroupKeyMap : ℕ → List GroupKeyMapping → Except ErrorCode Unit
  | _, [] => .ok ()
  | 0, _ :: _ => .error .failure
  | room + 1, entry :: rest =>
    if entry.groupKeySetId = 0 then .error .constraintError else checkGroupKeyMap room rest

def setGroupKeyMap : GroupKeyMapWrite → Prog ErrorCode Fabric Unit
  | .replace list => do
    Prog.ofExcept (checkGroupKeyMap maxGroupKeysPerFabric list)
    Fabric.groupsMut (Groups.keyMapReplace list)
  | .add entry => do
    Prog.ensure (entry.groupKeySetId ≠ 0) .constraintError
    Fabric.groupsMut (Groups.keyMapAdd entry)
  | .other => Prog.throw .invalidAction

def handleSetGroupKeyMap (env : Env) (sess : StampedSession) (value : GroupKeyMapWrite) :
    Prog ErrorCode Device Reply := do
  let fabIdx ← accessorFabIdx sess
  editFabric env fabIdx do
    setGroupKeyMap value
    return (true, .done)

/-- A group key with its start time as a writer sends it; `none` is a null. -/
structure EpochKey where
  key : Option (List UInt8)
  startTime : Option (BitVec 64)
  deriving DecidableEq

/-- A second or third key: with its start time or not at all, and later than the one
before it. -/
def nextEpochKey (prev : BitVec 64) (k : EpochKey) : Except ErrorCode (Option GroupEpochKeyEntry) :=
  match k.key, k.startTime with
  | none, none => .ok none
  | some key, some startTime =>
    if key.length ≠ aeadCanonKeyLen then .error .constraintError
    else if startTime ≤ prev then .error .invalidCommand
    else .ok (some ⟨key, startTime⟩)
  | _, _ => .error .invalidCommand

/-- The key set a writer asks for, if it is a legal one. -/
def groupKeySet (id : BitVec 16) (policy : BitVec 8) (k0 k1 k2 : EpochKey) : Except ErrorCode GroupKeySet :=
  if id = 0 then .error .invalidCommand
  else
    match k0.key, k0.startTime with
    | some key0, some startTime0 =>
      if startTime0 = 0 then .error .invalidCommand
      else if key0.length ≠ aeadCanonKeyLen then .error .constraintError
      else do
        let e1 ← nextEpochKey startTime0 k1
        match e1 with
        | none =>
          if k2.key.isSome ∨ k2.startTime.isSome then throw .invalidCommand
          else return ⟨id, policy, [⟨key0, startTime0⟩]⟩
        | some e1 =>
          let e2 ← nextEpochKey e1.epochStartTime k2
          return ⟨id, policy, ⟨key0, startTime0⟩ :: e1 :: e2.toList⟩
    | _, _ => .error .invalidCommand

/-- `KeySetWrite`. -/
def handleKeySetWrite (env : Env) (sess : StampedSession) (id : BitVec 16) (policy : BitVec 8)
    (k0 k1 k2 : EpochKey) : Prog ErrorCode Device Reply := do
  let fabIdx ← accessorFabIdx sess
  let entry ← Prog.ofExcept (groupKeySet id policy k0 k1 k2)
  editFabric env fabIdx do
    Fabric.groupsMut (Groups.keySetAdd entry)
    return (true, .done)

/-- `KeySetRemove`. -/
def handleKeySetRemove (env : Env) (sess : StampedSession) (id : BitVec 16) :
    Prog ErrorCode Device Reply := do
  let fabIdx ← accessorFabIdx sess
  Prog.ensure (id ≠ 0) .invalidCommand
  editFabric env fabIdx do
    Fabric.groupsMut (Groups.keySetRemove id)
    return (true, .done)

/-! ## Commands -/

inductive Command where
  | armFailSafe (expiryLengthSeconds : ℕ) (breadcrumb : BitVec 64)
  | setBreadcrumb (value : BitVec 64)
  | commissioningComplete
  | setNetworks (networks : List (List UInt8))
  | openCommissioningWindow
  | revokeCommissioning
  | csrRequest (csrNonce : List UInt8) (isForUpdateNoc : Bool)
  | addTrustedRootCertificate (rootCa : List UInt8)
  | addNoc (req : FailSafe.NocRequest)
  | updateNoc (icac : Option (List UInt8)) (noc : List UInt8)
  | updateFabricLabel (label : List UInt8)
  | removeFabric (fabIdx : ℕ)
  | setVidVerificationStatement (vendorId : Option (BitVec 16)) (statement vvsc : Option (List UInt8))
  | setAcl (value : AclWrite)
  | addGroup (endpointId : EndptId) (groupId : BitVec 16) (groupName : String)
  | removeGroup (endpointId : EndptId) (groupId : BitVec 16)
  | removeAllGroups (endpointId : EndptId)
  | setGroupKeyMap (value : GroupKeyMapWrite)
  | keySetWrite (id : BitVec 16) (policy : BitVec 8) (k0 k1 k2 : EpochKey)
  | keySetRemove (id : BitVec 16)
  deriving DecidableEq

def handleOpenCommissioningWindow : Prog ErrorCode Device Unit := do
  let d ← Prog.get
  Prog.ensure (d.commWindow = false) .busy
  Prog.modify ({ · with commWindow := true })

/-- Carry out a command that came in on a session. -/
def invoke (crypto : Crypto) (env : Env) (sess : StampedSession) : Command → Prog ErrorCode Device Reply
  | .armFailSafe expiry breadcrumb => commissioningReply (handleArmFailSafe env sess expiry breadcrumb)
  | .setBreadcrumb value => plainReply (Prog.modify fun d => { d with failsafe.breadcrumb := value })
  | .commissioningComplete => commissioningReply (handleCommissioningComplete env sess)
  | .setNetworks networks => plainReply (handleNetworks sess networks)
  | .openCommissioningWindow => plainReply handleOpenCommissioningWindow
  | .revokeCommissioning => plainReply (handleRevokeCommissioning env sess)
  | .csrRequest csrNonce isForUpdateNoc => plainReply (handleCsrRequest env sess csrNonce isForUpdateNoc)
  | .addTrustedRootCertificate rootCa => plainReply (handleAddTrustedRootCertificate crypto sess rootCa)
  | .addNoc req => do
    let reply ← nocReply (handleAddNoc crypto sess req)
    Prog.onlyIf (reply.isOk = true) (Prog.ofExcept env.respond)
    return reply
  | .updateNoc icac noc => nocReply (handleUpdateNoc crypto sess icac noc)
  | .updateFabricLabel label => nocReply (handleUpdateFabricLabel sess label)
  | .removeFabric fabIdx => do
    let status ← handleRemoveFabric env sess fabIdx
    return .noc status
  | .setVidVerificationStatement vendorId statement vvsc =>
    plainReply (handleSetVidVerificationStatement env sess vendorId statement vvsc)
  | .setAcl value => handleSetAcl env sess value
  | .addGroup endpointId groupId groupName => handleAddGroup env sess endpointId groupId groupName
  | .removeGroup endpointId groupId => handleRemoveGroup env sess endpointId groupId
  | .removeAllGroups endpointId => handleRemoveAllGroups env sess endpointId
  | .setGroupKeyMap value => handleSetGroupKeyMap env sess value
  | .keySetWrite id policy k0 k1 k2 => handleKeySetWrite env sess id policy k0 k1 k2
  | .keySetRemove id => handleKeySetRemove env sess id

/-! ## Sessions -/

structure SecureParams where
  localNodeid : BitVec 64
  peerNodeid : BitVec 64
  /-- the session id the peer knows us by -/
  peerSessId : BitVec 16
  localSessId : BitVec 16
  peerAddr : Address
  deriving DecidableEq

/-- A session that was reserved for a handshake is secured with its outcome. -/
def secure (params : SecureParams) (mode : SessionMode) (stamp : ℕ) (x : StampedSession) : StampedSession :=
  { x with
    localNodeid := params.localNodeid
    peerNodeid := some params.peerNodeid
    peerSessId := params.peerSessId
    localSessId := params.localSessId
    peerAddr := params.peerAddr
    mode
    reserved := false
    stamp }

/-- A PASE handshake has succeeded. The fail-safe is armed if it is not. -/
def establishPase (env : Env) (id : BitVec 32) (params : SecureParams) : Prog ErrorCode Device Unit := do
  Prog.modify fun d =>
    { d with sessions := d.sessions.modifySession (·.id == id) (secure params (.pase 0) 0) }
  let d ← Prog.get
  Prog.onlyIf (d.failsafe.isArmed = false)
    (onFailSafe
      (FailSafe.arm env.nowMs FailSafe.defaultFailsafeExpirySecs 0 (.pase 0) d.commWindow))

/-- A CASE handshake has succeeded, for a fabric that is there when it ends. -/
def establishCase (id : BitVec 32) (fabIdx : ℕ) (catIds : List (BitVec 32)) (params : SecureParams) :
    Prog ErrorCode Device Unit := do
  let d ← Prog.get
  Prog.ensure (Fabrics.get d.fabrics fabIdx).isSome .notFound
  Prog.modify fun d =>
    { d with
      sessions :=
        d.sessions.modifySession (·.id == id) (secure params (.case fabIdx catIds) (d.stamps fabIdx)) }

/-- A group message has come in that a key of a fabric decrypts: a session for it. -/
def establishGroup (fabIdx : ℕ) (groupId : BitVec 16) (msgCtr : BitVec 32) (params : SecureParams) :
    Prog ErrorCode Device Unit := do
  let d ← Prog.get
  Prog.ensure (Fabrics.get d.fabrics fabIdx).isSome .noSession
  let _ ← onSessions (Sessions.add msgCtr false params.peerAddr (some params.peerNodeid))
  Prog.modify fun d =>
    { d with
      sessions :=
        d.sessions.modifyLast fun x =>
          { x with
            mode := .group fabIdx groupId
            localSessId := params.localSessId
            stamp := d.stamps fabIdx } }

/-! ## The node as a machine -/

/-- Take over all fabrics that are stored under some indices. -/
def loadAll (kv : KvBlobStore) : List ℕ → Prog ErrorCode Fabrics Unit
  | [] => pure ()
  | i :: is => do
    Fabrics.addLoad (kv.fabrics i)
    loadAll kv is

def restart (d : Device) : Option Device :=
  match (loadAll d.kv (List.range' 1 255)).run [] with
  | (_, .error _) => none
  | (fabrics, .ok ()) =>
    some
      { d with
        failsafe := .new
        fabrics
        sessions := .new
        commWindow := false
        networks := d.kv.networks.getD .reset }

inductive Action where
  | invoke (id : BitVec 32) (env : Env) (cmd : Command)
  | tick (env : Env)
  | addSession (msgCtr : BitVec 32) (reserved : Bool) (peerAddr : Address) (peerNodeid : Option (BitVec 64))
  | removeSession (id : BitVec 32)
  | establishPase (id : BitVec 32) (env : Env) (params : SecureParams)
  | establishCase (id : BitVec 32) (fabIdx : ℕ) (catIds : List (BitVec 32)) (params : SecureParams)
  | establishGroup (fabIdx : ℕ) (groupId : BitVec 16) (msgCtr : BitVec 32) (params : SecureParams)
  | closeCommWindow
  | restart

/-- Is there a session that is reserved for a handshake under this id? -/
def isReserved (d : Device) (id : BitVec 32) : Bool := (d.sessions.get id).any (·.reserved)

/-- The node after something has happened to it. Commands need the session they come in on
and handshakes the one that is reserved for them. -/
def step (crypto : Crypto) (d : Device) : Action → Option Device
  | .invoke id env cmd => (d.sessions.get id).map fun sess => ((invoke crypto env sess cmd).run d).1
  | .tick env => some ((checkFailsafeTimeout env).run d).1
  | .addSession msgCtr reserved peerAddr peerNodeid =>
    some ((onSessions (Sessions.add msgCtr reserved peerAddr peerNodeid)).run d).1
  | .removeSession id => some { d with sessions := d.sessions.remove id }
  | .establishPase id env params =>
    if d.isReserved id then some ((establishPase env id params).run d).1 else none
  | .establishCase id fabIdx catIds params =>
    if d.isReserved id then some ((establishCase id fabIdx catIds params).run d).1 else none
  | .establishGroup fabIdx groupId msgCtr params =>
    some ((establishGroup fabIdx groupId msgCtr params).run d).1
  | .closeCommWindow => some { d with commWindow := false }
  | .restart => d.restart

def machine (crypto : Crypto) : Machine Device Action := ⟨step crypto⟩

end Device

end RsMatter
