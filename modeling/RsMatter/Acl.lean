import Mathlib.Data.BitVec
import RsMatter.Basic

/-!
# Access control entries (`acl.rs`, `dm/types/privilege.rs`)

An entry of the access control list grants a privilege on some targets to some
subjects. Whether a privilege suffices is read off the access flags of the attribute
or command: the privileges of the source are bit sets, and so are they here.
-/

namespace RsMatter

abbrev CmdId := BitVec 32

/-- A path of the interaction model; `none` is a wildcard. -/
structure GenericPath where
  endpoint : Option EndptId
  cluster : Option ClusterId
  leaf : Option (BitVec 32)
  deriving DecidableEq

def GenericPath.isWildcard (path : GenericPath) : Bool :=
  path.endpoint.isNone || path.cluster.isNone || path.leaf.isNone

/-! ## Privileges -/

abbrev Privilege := BitVec 8

namespace Privilege

def view : Privilege := 0x01#8

def operate : Privilege := 0x03#8

def manage : Privilege := 0x07#8

def admin : Privilege := 0x0f#8

/-- A proxy's view, which is none of the others. -/
def proxyView : Privilege := 0x10#8

end Privilege

/-- What may be done with an attribute or a command, and which privilege it needs. -/
abbrev Access := BitVec 16

namespace Access

def read : Access := 0x0010#16

def write : Access := 0x0020#16

/-- It is scoped to the fabric of the accessor. -/
def fabScoped : Access := 0x0040#16

def timedOnly : Access := 0x0100#16

/-- The privileges of which one is needed to read. -/
def readPrivilegeMask : Access := 0x000f#16

/-- The privileges of which one is needed to write. -/
def writePrivilegeMask : Access := 0x000e#16

/-- The `contains` of a set of flags. -/
def contains (a b : Access) : Bool := a &&& b == b

def isOk (a operation : Access) (privilege : Privilege) : Bool :=
  if operation.contains read || operation.contains write then
    let required :=
      if operation.contains read then a &&& readPrivilegeMask else a &&& writePrivilegeMask
    if required == 0 then false
    else if privilege.setWidth 16 &&& required == 0 then false
    else a.contains operation
  else
    false

end Access

/-! ## Subjects -/

inductive AuthMode where
  | pase
  | case
  | group
  deriving DecidableEq

/-- How many identities an accessor has: a node id and the tags of its certificate. -/
def maxAccessorSubjects : ℕ := 4

def isNocCat (id : BitVec 64) : Bool :=
  id &&& 0xffffffff00000000#64 == 0xfffffffd00000000#64 && id &&& 0xffffffff#64 != 0

def isNode (id : BitVec 64) : Bool := decide (1 ≤ id) && decide (id ≤ 0xffffffefffffffff#64)

/-- The 16-bit id of a tag. -/
def getNocCatId (id : BitVec 64) : BitVec 64 := (id &&& 0xffff0000#64) >>> 16

/-- The 16-bit version of a tag. -/
def getNocCatVersion (id : BitVec 64) : BitVec 64 := id &&& 0xffff#64

/-- The identities of an accessor; the first is the node or group id, a slot of `0` is free. -/
structure AccessorSubjects where
  ids : List (BitVec 64)
  length_ids : ids.length = maxAccessorSubjects

namespace AccessorSubjects

def new (id : BitVec 64) : AccessorSubjects := ⟨[id, 0, 0, 0], rfl⟩

def first (s : AccessorSubjects) : BitVec 64 := s.ids.headD 0

def addCatid (s : AccessorSubjects) (subject : BitVec 32) : Except ErrorCode AccessorSubjects :=
  match s.ids.findIdx? (· == 0) with
  | some i =>
    .ok ⟨s.ids.set i (0xfffffffd00000000#64 ||| subject.setWidth 64), by simp [s.length_ids]⟩
  | none => .error .resourceExhausted

/-- Does the subject of an entry match one of the identities? A tag matches every version
up to its own. -/
def «matches» (s : AccessorSubjects) (aclSubject : BitVec 64) : Bool :=
  s.ids.any fun v =>
    v != 0 &&
      (v == aclSubject ||
        isNocCat v && isNocCat aclSubject && getNocCatId v == getNocCatId aclSubject &&
          decide (getNocCatVersion aclSubject ≤ getNocCatVersion v))

end AccessorSubjects

/-! ## Entries -/

def maxSubjectsPerAclEntry : ℕ := 4

def maxTargetsPerAclEntry : ℕ := 3

/-- What an entry is about; `none` matches everything. -/
structure Target where
  cluster : Option ClusterId
  endpoint : Option EndptId
  deviceType : Option (BitVec 32)
  deriving DecidableEq

structure AclEntry where
  privilege : Privilege
  /-- how the accessor must have been authenticated -/
  authMode : AuthMode
  /-- to whom; `none` is everyone -/
  subjects : Option (List (BitVec 64))
  /-- on what; `none` is everything -/
  targets : Option (List Target)
  auxiliaryType : Option (BitVec 8)
  fabIdx : Option ℕ
  deriving DecidableEq

structure DeviceType where
  dtype : BitVec 16
  drev : BitVec 16
  deriving DecidableEq

structure AccessDesc where
  path : GenericPath
  targetPerms : Option Access
  operation : Access
  deviceTypes : List DeviceType

/-- Who wants to do something. The source also keeps a reference to the fabric table, which
the functions here take as an argument. -/
structure Accessor where
  /-- its fabric, `0` for none -/
  fabIdx : ℕ
  subjects : AccessorSubjects
  /-- how it has been authenticated, if at all -/
  authMode : Option AuthMode

structure AccessReq where
  accessor : Accessor
  object : AccessDesc

namespace AclEntry

def new (fabIdx : Option ℕ) (privilege : Privilege) (authMode : AuthMode) : AclEntry where
  privilege := privilege
  authMode := authMode
  subjects := none
  targets := none
  auxiliaryType := none
  fabIdx := fabIdx

def addSubject (e : AclEntry) (subject : BitVec 64) : Except ErrorCode AclEntry :=
  let subjects := e.subjects.getD []
  if subjects.length < maxSubjectsPerAclEntry then
    .ok { e with subjects := some (subjects ++ [subject]) }
  else
    .error .resourceExhausted

def matchAccessor (e : AclEntry) (accessor : Accessor) : Bool :=
  if some e.authMode ≠ accessor.authMode then false
  else
    let allow := match e.subjects with
      | none => true
      | some ss => ss.isEmpty || ss.any accessor.subjects.matches
    allow && (match e.fabIdx with
      | some f => f == accessor.fabIdx
      | none => false)

/-- Is the entry about the object, and does its privilege suffice? -/
def matchAccessDesc (e : AclEntry) (object : AccessDesc) : Bool :=
  let allow := match e.targets with
    | none => true
    | some ts => ts.isEmpty || ts.any fun t =>
      (t.endpoint.isNone || t.endpoint == object.path.endpoint) &&
        (t.cluster.isNone || t.cluster == object.path.cluster) &&
        (match t.deviceType with
          | some dt => object.deviceTypes.any fun d => d.dtype.setWidth 32 == dt
          | none => true)
  if allow then
    match object.targetPerms with
    | some access => access.isOk object.operation e.privilege
    | none => false
  else
    false

def allow (e : AclEntry) (req : AccessReq) : Bool :=
  e.matchAccessor req.accessor && e.matchAccessDesc req.object

end AclEntry

/-! ## Entries as they are written -/

inductive PrivilegeEnum where
  | view
  | proxyView
  | operate
  | manage
  | administer
  deriving DecidableEq

/-- The privilege of the data model as a set of flags. -/
def PrivilegeEnum.toPrivilege : PrivilegeEnum → Privilege
  | view => .view
  | proxyView => .proxyView
  | operate => .operate
  | manage => .manage
  | administer => .admin

/-- An entry as a writer sends it. The outer `none` is a field that is missing or that does
not decode, the inner one a null. -/
structure AccessControlEntryStruct where
  privilege : Option PrivilegeEnum
  /-- how the accessor must be authenticated -/
  authMode : Option AuthMode
  subjects : Option (Option (List (BitVec 64)))
  targets : Option (Option (List Target))
  auxiliaryType : Option (BitVec 8)
  deriving DecidableEq

namespace AclEntry

/-- Take over the subjects one by one. The list stays null if there are none. -/
def addSubjects (authMode : AuthMode) :
    List (BitVec 64) → Option (List (BitVec 64)) → Except ErrorCode (Option (List (BitVec 64)))
  | [], acc => .ok acc
  | subject :: rest, acc =>
    let subjects := acc.getD []
    if authMode = .case ∧ isNode subject = false ∧ isNocCat subject = false then
      .error .constraintError
    else if authMode = .group ∧ (subject = 0 ∨ 0xffff#64 < subject) then
      .error .constraintError
    else if subjects.length < maxSubjectsPerAclEntry then
      addSubjects authMode rest (some (subjects ++ [subject]))
    else
      .error .bufferTooSmall

/-- Take over the targets one by one. The list stays null if there are none. -/
def addTargets : List Target → Option (List Target) → Except ErrorCode (Option (List Target))
  | [], acc => .ok acc
  | target :: rest, acc =>
    let targets := acc.getD []
    if (target.endpoint.isNone ∧ target.cluster.isNone ∧ target.deviceType.isNone) ∨
        (target.endpoint.isSome ∧ target.deviceType.isSome) then
      .error .constraintError
    else if targets.length < maxTargetsPerAclEntry then
      addTargets rest (some (targets ++ [target]))
    else
      .error .bufferTooSmall

/-- The entry a writer asks for, if it is a legal one. -/
def initWith (fabIdx : ℕ) (entry : AccessControlEntryStruct) : Except ErrorCode AclEntry :=
  match entry.authMode, entry.privilege, entry.subjects, entry.targets with
  | some authMode, some privilege, some subjects, some targets =>
    if authMode = .pase ∨ (authMode = .group ∧ privilege = .administer) then
      .error .constraintError
    else do
      let subjects ← addSubjects authMode (subjects.getD []) none
      let targets ← addTargets (targets.getD []) none
      return {
        privilege := privilege.toPrivilege
        authMode
        subjects
        targets
        auxiliaryType := entry.auxiliaryType
        fabIdx := some fabIdx }
  | _, _, _, _ => .error .constraintError

end AclEntry

end RsMatter
