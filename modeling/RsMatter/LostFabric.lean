import RsMatter.Expiry
import RsMatter.ExpandedAccess
import RsMatter.Panic

/-!
# Handlers whose fabric is gone (`adm_comm.rs`, `noc.rs`, `acl.rs`, `groups.rs`, `grp_key_mgmt.rs`)

A session outlives its fabric where it has to: `RemoveFabric` only marks the session it
came in on as expired, and the end of the fail-safe leaves CASE sessions alone. So a
request, or the rest of one, may be served with the index of a fabric that is no longer
there. Most handlers turn that into an error; the commands that open a commissioning window
`unwrap` the fabric of a CASE session, and `AddNOC` the removal of the fabric it has just
added.

An exchange is modelled from request to request: the expander yields an item after checking
the access to it there and then, the handler of the item runs to its end, or waits, and only
where a handler waits, or no request is being served, can anything else happen to the node.
-/

namespace RsMatter

/-- Who is behind a session. A CASE authenticated tag that does not fit is left out. -/
def Accessor.forSession (sess : StampedSession) : Accessor :=
  match sess.mode with
  | .case fabIdx catIds =>
    let add (subjects : AccessorSubjects) (catId : BitVec 32) : AccessorSubjects :=
      if catId = 0 then subjects else (subjects.addCatid catId).toOption.getD subjects
    ⟨fabIdx, catIds.foldl add (.new (sess.peerNodeid.getD 0)), some .case⟩
  | .pase fabIdx => ⟨fabIdx, .new 1, some .pase⟩
  | .group fabIdx groupId => ⟨fabIdx, .new (groupId.setWidth 64), some .group⟩
  | .plainText => ⟨0, .new 1, none⟩

/-! ## Handlers that only look at the fabrics -/

/-- What is read of a list: all of it, one item, or an empty list for a start. -/
inductive ArrayAttributeRead where
  | readAll
  | readOne (index : ℕ)
  | readNone
  deriving DecidableEq

def ArrayAttributeRead.pick {α : Type} (items : List α) : ArrayAttributeRead → Except ErrorCode (List α)
  | readAll => .ok items
  | readOne index =>
    match items[index]? with
    | some item => .ok [item]
    | none => .error .constraintError
  | readNone => .ok []

/-- A node operational certificate, as it is read. -/
structure NocStruct where
  noc : List UInt8
  icac : Option (List UInt8)
  /-- the vendor verification certificate -/
  vvsc : Option (List UInt8)
  fabricIndex : ℕ
  deriving DecidableEq

structure FabricDescriptorStruct where
  rootPublicKey : List UInt8
  vendorId : BitVec 16
  fabricId : BitVec 64
  nodeId : BitVec 64
  label : List UInt8
  vidVerificationStatement : Option (List UInt8)
  fabricIndex : ℕ
  deriving DecidableEq

/-- A group key set, as it is read: without its keys. -/
structure GroupKeySetStruct where
  groupKeySetId : BitVec 16
  groupKeySecurityPolicy : BitVec 8
  epochStartTimes : List (BitVec 64)
  deriving DecidableEq

/-- Attributes and commands that only look at the fabrics. The flag says whether the answer is
limited to the accessing fabric. -/
inductive Query where
  | nocs (fabFilter : Bool) (read : ArrayAttributeRead)
  | fabrics (fabFilter : Bool) (read : ArrayAttributeRead)
  | acl (fabFilter : Bool) (read : ArrayAttributeRead)
  | groupKeyMap (fabFilter : Bool) (read : ArrayAttributeRead)
  | groupTable (fabFilter : Bool) (read : ArrayAttributeRead)
  | adminFabricIndex
  | adminVendorId
  | viewGroup (endpointId : EndptId) (groupId : BitVec 16)
  | getGroupMembership (endpointId : EndptId) (groupList : List (BitVec 16))
  | keySetRead (groupKeySetId : BitVec 16)
  | keySetReadAllIndices
  deriving DecidableEq

inductive Answer where
  | reply (r : Device.Reply)
  | nocs (items : List NocStruct)
  | fabrics (items : List FabricDescriptorStruct)
  | acl (items : List (ℕ × AclEntry))
  | groupKeyMap (items : List (ℕ × GroupKeyMapping))
  | groupTable (items : List (ℕ × GroupEndpointMapping))
  | adminFabricIndex (fabIdx : Option ℕ)
  | adminVendorId (vendorId : Option (BitVec 16))
  | viewGroup (status : Device.GroupStatus) (groupName : String)
  | groupMembership (groupList : List (BitVec 16))
  | keySet (keySet : GroupKeySetStruct)
  | keySetIds (ids : List (BitVec 16))
  deriving DecidableEq

/-- The vendor verification certificate of a fabric, empty where there is none. -/
def Fabric.vvsc (f : Fabric) : List UInt8 := if f.vvscSet then f.icacOrVvsc else []

/-- An octet string that is left out where it is empty. -/
def nonEmpty (b : List UInt8) : Option (List UInt8) := if b.isEmpty then none else some b

/-- A fabric as an item of the list of certificates. -/
def NocStruct.ofFabric (f : Fabric) : NocStruct := ⟨f.noc, nonEmpty f.icac, nonEmpty f.vvsc, f.fabIdx⟩

/-- A fabric as an item of the list of fabrics. -/
def FabricDescriptorStruct.ofFabric (crypto : Crypto) (f : Fabric) :
    Except ErrorCode FabricDescriptorStruct := do
  let rootPublicKey ← crypto.pubkey f.rootCa
  return ⟨rootPublicKey, f.vendorId, f.fabricId, f.nodeId, f.label, nonEmpty f.vidVerificationStatement, f.fabIdx⟩

namespace Fabrics

def filtered (fs : Fabrics) (fabIdx : ℕ) (fabFilter : Bool) : Fabrics :=
  fs.filter fun f => !fabFilter || f.fabIdx == fabIdx

/-- The fabrics an answer is about that have a root certificate. -/
def rooted (fs : Fabrics) (fabIdx : ℕ) (fabFilter : Bool) : Fabrics :=
  (fs.filtered fabIdx fabFilter).filter fun f => !f.rootCa.isEmpty

/-- What the fabrics an answer is about hold, with their indices. -/
def items {α : Type} (fs : Fabrics) (fabIdx : ℕ) (fabFilter : Bool) (held : Fabric → List α) : List (ℕ × α) :=
  (fs.filtered fabIdx fabFilter).flatMap fun f => (held f).map fun a => (f.fabIdx, a)

def fabric (fs : Fabrics) (fabIdx : ℕ) : Except ErrorCode Fabric :=
  match Fabrics.get fs fabIdx with
  | some f => .ok f
  | none => .error .notFound

end Fabrics

structure CommWindowOpener where
  fabIdx : ℕ
  vendorId : BitVec 16
  deriving DecidableEq

/-- The node, with the opener of its commissioning window. -/
structure AdminNode where
  device : Device
  /-- who opened the window that is open, if it was a fabric -/
  opener : Option CommWindowOpener

namespace AdminNode

/-- The fabric of a session, for commands that are scoped to it. -/
def accessorFabIdx (sess : StampedSession) : Except ErrorCode ℕ :=
  if sess.getLocalFabricIdx ≠ 0 then .ok sess.getLocalFabricIdx else .error .unsupportedAccess

/-- The window that is open has been opened by a fabric. -/
def windowOpener (n : AdminNode) : Option CommWindowOpener := if n.device.commWindow then n.opener else none

/-- Answer a query of a session. The fabric of the accessor is `fabIdx`. -/
def answer (crypto : Crypto) (fabIdx : ℕ) (sess : StampedSession) (n : AdminNode) : Query → Except ErrorCode Answer
  | .nocs fabFilter read => do
    return .nocs (← read.pick ((n.device.fabrics.rooted fabIdx fabFilter).map .ofFabric))
  | .fabrics fabFilter read => do
    let fs ← read.pick (n.device.fabrics.rooted fabIdx fabFilter)
    return .fabrics (← fs.mapM (FabricDescriptorStruct.ofFabric crypto))
  | .acl fabFilter read => do return .acl (← read.pick (n.device.fabrics.items fabIdx fabFilter (·.acl)))
  | .groupKeyMap fabFilter read => do
    return .groupKeyMap (← read.pick (n.device.fabrics.items fabIdx fabFilter (·.groups.keyMap)))
  | .groupTable fabFilter read => do
    return .groupTable (← read.pick (n.device.fabrics.items fabIdx fabFilter (·.groups.endpointMapping)))
  | .adminFabricIndex =>
    -- a fabric that is gone is not named, but its vendor is
    .ok (.adminFabricIndex (n.windowOpener.bind fun opener =>
      if (Fabrics.get n.device.fabrics opener.fabIdx).isSome then some opener.fabIdx else none))
  | .adminVendorId => .ok (.adminVendorId (n.windowOpener.map (·.vendorId)))
  | .viewGroup endpointId groupId => do
    let fabIdx ← accessorFabIdx sess
    if groupId = 0 then return .viewGroup .constraintError ""
    let fabric ← n.device.fabrics.fabric fabIdx
    match fabric.groups.get groupId with
    | some entry =>
      if entry.endpoints.contains endpointId then return .viewGroup .success entry.groupName
      else return .viewGroup .notFound ""
    | none => return .viewGroup .notFound ""
  | .getGroupMembership endpointId groupList => do
    let fabric ← n.device.fabrics.fabric (← accessorFabIdx sess)
    let isMember (entry : GroupEndpointMapping) : Bool := entry.endpoints.contains endpointId
    if groupList.isEmpty then
      return .groupMembership ((fabric.groups.endpointMapping.filter isMember).map (·.groupId))
    else return .groupMembership (groupList.filter fun groupId => (fabric.groups.get groupId).any isMember)
  | .keySetRead groupKeySetId => do
    let fabric ← n.device.fabrics.fabric (← accessorFabIdx sess)
    -- the identity protection key is there as soon as the fabric is
    if groupKeySetId = 0 then return .keySet ⟨0, 0, [0]⟩
    match fabric.groups.keySets.find? (·.groupKeySetId == groupKeySetId) with
    | some entry =>
      return .keySet ⟨groupKeySetId, entry.groupKeySecurityPolicy, entry.epochKeys.map (·.epochStartTime)⟩
    | none => throw .notFound
  | .keySetReadAllIndices => do
    let fabric ← n.device.fabrics.fabric (← accessorFabIdx sess)
    return .keySetIds (0 :: fabric.groups.keySets.map (·.groupKeySetId))

/-! ## Handlers that unwrap -/

/-- The session of an exchange. It is unwrapped. -/
def session (id : BitVec 32) (n : AdminNode) : Except (Stop ErrorCode) StampedSession :=
  Stop.unwrapSome (n.device.sessions.get id)

/-- Who is about to open a commissioning window. The fabric of a CASE session is unwrapped. -/
def currentWindowOpener (id : BitVec 32) (n : AdminNode) :
    Except (Stop ErrorCode) (Option CommWindowOpener) := do
  let sess ← n.session id
  match sess.mode with
  | .case fabIdx _ =>
    let fabric ← Stop.unwrapSome (Fabrics.get n.device.fabrics fabIdx)
    return some ⟨fabIdx, fabric.vendorId⟩
  | _ => return none

/-- The state and the result of a command that is run as it is. -/
def lift (n : AdminNode) (m : Prog ErrorCode Device Device.Reply) :
    AdminNode × Except (Stop ErrorCode) Answer :=
  ({ n with device := (m.run n.device).1 }, (Stop.lift (m.run n.device).2).map .reply)

/-- Open a window for an exchange; `rand` is what the random generator says. -/
def openWindow (rand : Except ErrorCode Unit) (id : BitVec 32) (n : AdminNode) :
    AdminNode × Except (Stop ErrorCode) Answer :=
  match n.currentWindowOpener id with
  | .error stop => (n, .error stop)
  | .ok opener =>
    match rand with
    | .error e => (n, .error (.error e))
    | .ok () =>
      match n.lift (Device.plainReply Device.handleOpenCommissioningWindow) with
      | (n, .ok reply) => ({ n with opener }, .ok reply)
      | (n, .error stop) => (n, .error stop)

/-- `OpenCommissioningWindow` and `OpenBasicCommissioningWindow`. A window that has been open for
too long is closed first. -/
def handleOpenCommissioningWindow (late : Bool) (rand : Except ErrorCode Unit) (id : BitVec 32) (n : AdminNode) :
    AdminNode × Except (Stop ErrorCode) Answer :=
  openWindow rand id (if late then { n with device.commWindow := false } else n)

/-- The guard of `AddNOC`: a fabric its session cannot have is removed again, which is
unwrapped. -/
def addNocGuard (crypto : Crypto) (sess : StampedSession) (req : FailSafe.NocRequest) (d : Device) :
    Except (Stop ErrorCode) Unit :=
  let req := { req with icac := req.icac.filter (!·.isEmpty) }
  match (Device.withArmedFailsafe sess.mode
      (Device.onFailSafeFabrics (FailSafe.addNoc crypto sess.mode req))).run d with
  | (d, .ok fabric) =>
    if sess.mode.isPase && (sess.upgradeFabricIdx fabric.fabIdx 0).toOption.isNone then
      Stop.unwrap ((Fabrics.remove fabric.fabIdx).run d.fabrics).2
    else .ok ()
  | (_, .error _) => .ok ()

inductive Request where
  | command (cmd : Device.Command)
  | query (q : Query)
  deriving DecidableEq

structure Surroundings where
  env : Env
  /-- has the commissioning window been open for too long? -/
  late : Bool
  rand : Except ErrorCode Unit

/-- Run a handler for an exchange on a session; `fabIdx` is the fabric of the accessor. There is
no handler without a session. -/
def handle (crypto : Crypto) (sur : Surroundings) (id : BitVec 32) (fabIdx : ℕ) (req : Request) (n : AdminNode) :
    AdminNode × Except (Stop ErrorCode) Answer :=
  if (n.device.sessions.get id).isSome then
    match n.session id with
    | .error stop => (n, .error stop)
    | .ok sess =>
      match req with
      | .query q => (n, Stop.lift (n.answer crypto fabIdx sess q))
      | .command .openCommissioningWindow => n.handleOpenCommissioningWindow sur.late sur.rand id
      | .command (.addNoc req) =>
        match addNocGuard crypto sess req n.device with
        | .error stop => (n, .error stop)
        | .ok () => n.lift (Device.invoke crypto sur.env sess (.addNoc req))
      | .command cmd => n.lift (Device.invoke crypto sur.env sess cmd)
  else
    (n, .error (.error .noSession))

end AdminNode

/-! ## Serving requests -/

/-- The handlers of a node: what the data for a leaf asks for. A leaf that is routed nowhere
has a handler that may wait. -/
structure Handlers where
  /-- the request that the data for a leaf stands for -/
  route : EndptId × ClusterId × BitVec 32 → Option (List UInt8 → Except ErrorCode AdminNode.Request)
  opensOnly : ∀ leaf decode, route leaf = some decode →
    ∀ data, decode data = .ok (.command .openCommissioningWindow) →
      ∀ data' req, decode data' = .ok req → req = .command .openCommissioningWindow

structure Serving where
  op : Operation
  timed : Bool
  filter : EndptId → ClusterId → BitVec 32 → Bool
  accessor : Accessor
  items : List (GenericPath × List UInt8)
  item : Option (GenericPath × List UInt8)
  cursor : Cursor

inductive ServingPhase where
  | idle
  | serving (s : Serving)
  | waiting (s : Serving)
  | panicked

structure ServingNode where
  node : AdminNode
  phase : ServingPhase

namespace ServingNode

inductive Action where
  | request (op : Operation) (timed : Bool) (filter : EndptId → ClusterId → BitVec 32 → Bool)
    (items : List (GenericPath × List UInt8))
  /-- the exchange takes its next step, with the node as it is now -/
  | next (metadata : Node) (sur : AdminNode.Surroundings)
  | resume
  | abandon
  | other (a : Device.Action)

/-- While a request waits, no CASE handshake ends under the internal id of its session: ids
are given again only after all others have been. -/
def LeavesSession (id : BitVec 32) : Device.Action → Prop
  | .establishCase id' _ _ _ => id' ≠ id
  | _ => True

instance (id : BitVec 32) : DecidablePred (LeavesSession id) := fun a =>
  match a with
  | .establishCase id' _ _ _ => inferInstanceAs (Decidable (id' ≠ id))
  | .invoke _ _ _ | .tick _ | .addSession _ _ _ _ | .removeSession _ | .establishPase _ _ _
  | .establishGroup _ _ _ _ | .closeCommWindow | .restart => .isTrue trivial

instance (ss : Sessions) (id : BitVec 32) : Decidable (ss.IdUnique id) :=
  inferInstanceAs (Decidable (_ ≤ _))

variable (crypto : Crypto) (handlers : Handlers) (id : BitVec 32)

def other (a : Device.Action) (n : AdminNode) : Option AdminNode :=
  (Device.step crypto n.device a).map fun device => { n with device }

/-- One round of the loop over the items: the next item is taken up, or the next leaf of the
item is found and its handler runs. -/
def next (metadata : Node) (sur : AdminNode.Surroundings) (n : AdminNode) (s : Serving) : ServingNode :=
  match s.item with
  | none =>
    match s.items with
    | [] => ⟨n, .idle⟩
    | item :: items =>
      ⟨n, .serving { s with
        items
        item := some item
        cursor := { s.cursor with endpointId := none, clusterIndex := 0, leafIndex := 0 } }⟩
  | some (path, data) =>
    let ctx : ExpandCtx := ⟨n.device.fabrics, s.accessor, s.timed, s.filter⟩
    match PathExpander.nextForPath s.op ctx metadata path s.cursor with
    | (.ok (some (endpointId, clusterId, leafId, _)), cursor) =>
      let s := { s with item := if path.isWildcard then s.item else none, cursor }
      match handlers.route (endpointId, clusterId, leafId) with
      | none => ⟨n, .waiting s⟩
      | some decode =>
        match decode data with
        | .error _ => ⟨n, .serving s⟩
        | .ok req =>
          match n.handle crypto sur id s.accessor.fabIdx req with
          | (n, .error .panic) => ⟨n, .panicked⟩
          | (n, _) => ⟨n, .serving s⟩
    | (_, cursor) => ⟨n, .serving { s with item := none, cursor }⟩

/-- A step of a node with an exchange on a session. A request needs the session. -/
def step (m : ServingNode) : Action → Option ServingNode
  | .request op timed filter items =>
    match m.phase with
    | .idle =>
      if m.node.device.sessions.IdUnique id then
        (m.node.device.sessions.get id).map fun sess =>
          ⟨m.node, .serving ⟨op, timed, filter, .forSession sess, items, none, ⟨none, 0, 0, none⟩⟩⟩
      else none
    | _ => none
  | .next metadata sur =>
    match m.phase with
    | .serving s => some (next crypto handlers id metadata sur m.node s)
    | _ => none
  | .resume =>
    match m.phase with
    | .waiting s => some ⟨m.node, .serving s⟩
    | _ => none
  | .abandon =>
    match m.phase with
    | .serving _ | .waiting _ => some ⟨m.node, .idle⟩
    | _ => none
  | .other a =>
    match m.phase with
    | .idle => (other crypto a m.node).map fun node => ⟨node, .idle⟩
    | .waiting s =>
      if LeavesSession id a then (other crypto a m.node).map fun node => ⟨node, .waiting s⟩ else none
    | _ => none

/-- A node with an exchange on a session, as a machine. -/
def machine : Machine ServingNode Action := ⟨step crypto handlers id⟩

end ServingNode

/-! ## The session stays the session of the accessor -/

namespace Device

/-- Where a session under an internal id is a CASE session, the accessor stands for its fabric. -/
def Tied (id : BitVec 32) (accessor : Accessor) (d : Device) : Prop :=
  ∀ x ∈ d.sessions.sessions, x.id = id → ∀ fabIdx catIds, x.mode = .case fabIdx catIds →
    accessor.authMode = some .case ∧ accessor.fabIdx = fabIdx

section Tied

open Prog

variable {id : BitVec 32} {accessor : Accessor} {d d' : Device} {α : Type}

/-- Sessions may go, and sessions may come or change that are no CASE sessions. -/
theorem Tied.of_sessions (h : d.Tied id accessor)
    (hss : ∀ x ∈ d'.sessions.sessions, x.id = id →
      (∃ y ∈ d.sessions.sessions, y.id = x.id ∧ y.mode = x.mode) ∨ x.mode.isCase = false) :
    d'.Tied id accessor := by
  intro x hx hid fabIdx catIds hmode
  rcases hss x hx hid with ⟨y, hy, hyid, hymode⟩ | hcase
  · exact h y hy (hyid.trans hid) fabIdx catIds (hymode.trans hmode)
  · rw [hmode] at hcase
    cases hcase

theorem Tied.of_eq (h : d.Tied id accessor) (hss : d'.sessions = d.sessions) : d'.Tied id accessor :=
  h.of_sessions fun x hx _ => .inl ⟨x, hss ▸ hx, rfl, rfl⟩

theorem tied_of_keeps {m : Prog ErrorCode Device α} (h : Keeps sessions m) : Maintains (Tied id accessor) m :=
  maintains_of_keeps h fun _ _ hss htied => htied.of_eq hss

theorem exists_of_mem_expire {ss : Sessions} {p : StampedSession → Bool} {x : StampedSession}
    (h : x ∈ (ss.modifySession p .expire).sessions) :
    ∃ y ∈ ss.sessions, y.id = x.id ∧ y.mode = x.mode := by
  rcases Sessions.mem_modifySession h with h | ⟨y, hy, -, rfl⟩
  · exact ⟨x, h, rfl, rfl⟩
  · exact ⟨y, hy, rfl, rfl⟩

theorem exists_of_mem_removePase {ss : Sessions} {expireSessId : Option (BitVec 32)} {x : StampedSession}
    (h : x ∈ (ss.removePase expireSessId).sessions) :
    ∃ y ∈ ss.sessions, y.id = x.id ∧ y.mode = x.mode := by
  cases expireSessId with
  | none => exact ⟨x, (Sessions.mem_dropExcept.mp h).1, rfl, rfl⟩
  | some id =>
    obtain ⟨y, hy, heq⟩ := exists_of_mem_expire h
    exact ⟨y, (Sessions.mem_dropExcept.mp hy).1, heq⟩

theorem exists_of_mem_removeForFabric {ss : Sessions} {fabIdx : ℕ} {expireSessId : Option (BitVec 32)}
    {x : StampedSession} (h : x ∈ (ss.removeForFabric fabIdx expireSessId).sessions) :
    ∃ y ∈ ss.sessions, y.id = x.id ∧ y.mode = x.mode := by
  cases expireSessId with
  | none => exact ⟨x, (Sessions.mem_dropExcept.mp h).1, rfl, rfl⟩
  | some id =>
    obtain ⟨y, hy, heq⟩ := exists_of_mem_expire h
    exact ⟨y, (Sessions.mem_dropExcept.mp hy).1, heq⟩

/-! ## Commands keep the tie -/

theorem sessions_withArmedFailsafe (mode : SessionMode) {m : Prog ErrorCode Device α} (h : Keeps sessions m) :
    Keeps sessions (withArmedFailsafe mode m) :=
  keeps_bind keeps_get fun _ => keeps_bind (keeps_ofExcept _) fun _ => h

theorem tied_withArmedFailsafe (mode : SessionMode) {m : Prog ErrorCode Device α}
    (h : Maintains (Tied id accessor) m) : Maintains (Tied id accessor) (withArmedFailsafe mode m) :=
  maintains_get_bind fun _ _ => maintains_bind (maintains_ofExcept _) fun _ => h

theorem sessions_storeFabric (env : Env) (fabric : Fabric) : Keeps sessions (storeFabric env fabric) :=
  keeps_bind (keeps_ensure _ _) fun _ => keeps_modify fun _ => rfl

theorem sessions_storeGet (env : Env) (fabIdx : ℕ) (c : Device → Prop) [DecidablePred c] :
    Keeps sessions (do
      let d ← get
      onlyIf (c d) (whenSome (Fabrics.get d.fabrics fabIdx) (storeFabric env))) :=
  keeps_bind keeps_get fun _ => keeps_onlyIf _ (keeps_whenSome _ (sessions_storeFabric env))

theorem sessions_editFabric (env : Env) (fabIdx : ℕ) (edit : Prog ErrorCode Fabric (Bool × Reply)) :
    Keeps sessions (editFabric env fabIdx edit) := by
  refine keeps_bind (fun _ => rfl) fun result => keeps_bind keeps_get fun d => ?_
  refine keeps_bind ?_ fun _ => keeps_pure _
  exact keeps_onlyIf _ (keeps_whenSome _ (sessions_storeFabric env))

theorem sessions_fabricScoped (sess : StampedSession) {k : ℕ → Prog ErrorCode Device Reply}
    (h : ∀ fabIdx, Keeps sessions (k fabIdx)) : Keeps sessions (accessorFabIdx sess >>= k) :=
  keeps_bind (keeps_bind (keeps_ensure _ _) fun _ => keeps_pure _) h

theorem tied_expire (env : Env) (expireSessId : Option (BitVec 32)) :
    Maintains (Tied id accessor) (expire env expireSessId) := by
  refine maintains_get_bind fun d _ => ?_
  cases d.failsafe.state with
  | idle => exact maintains_pure _
  | armed ctx =>
    have hroll : Keeps sessions (rollBack env ctx.fabIdx) := by
      refine keeps_bind (fun _ => rfl) fun _ => keeps_bind (keeps_modify fun _ => rfl) fun _ => ?_
      refine keeps_bind ?_ fun _ => fun _ => rfl
      exact keeps_bind (keeps_ensure _ _) fun _ => keeps_bind keeps_get fun _ => keeps_pure _
    have hload : Keeps sessions (loadNetworks env) :=
      keeps_bind (keeps_ensure _ _) fun _ => keeps_modify fun _ => rfl
    refine maintains_bind (maintains_onlyIf _ (tied_of_keeps hroll)) fun _ => ?_
    refine maintains_bind (tied_of_keeps hload) fun _ => ?_
    refine maintains_bind (maintains_modify fun d h => ?_) fun _ => ?_
    · exact h.of_sessions fun x hx _ => .inl (exists_of_mem_removePase hx)
    · exact tied_of_keeps (keeps_bind (keeps_modify fun _ => rfl) fun _ => keeps_pure _)

theorem tied_commissioningComplete (env : Env) (sess : StampedSession) :
    Maintains (Tied id accessor) (handleCommissioningComplete env sess) := by
  refine tied_withArmedFailsafe _ (maintains_bind (tied_of_keeps fun _ => rfl) fun fabric => ?_)
  refine maintains_bind (tied_of_keeps (keeps_modify fun _ => rfl)) fun _ => ?_
  refine maintains_bind (maintains_modify fun d h => ?_) fun _ => ?_
  · exact h.of_sessions fun x hx _ => .inl (exists_of_mem_removePase hx)
  · refine tied_of_keeps (keeps_bind (sessions_storeFabric env fabric) fun _ => ?_)
    exact keeps_bind (keeps_modify fun _ => rfl) fun _ =>
      keeps_bind (keeps_ensure _ _) fun _ => keeps_modify fun _ => rfl

theorem tied_upgradeFabricIdx (sess : StampedSession) (fabIdx : ℕ) :
    Maintains (Tied id accessor) (upgradeFabricIdx sess fabIdx) := by
  refine maintains_get_bind fun d _ => maintains_ofExcept_bind fun sess' hup => maintains_modify fun d h => ?_
  refine h.of_sessions fun x hx _ => ?_
  rcases Sessions.mem_modifySession hx with hx | ⟨y, -, -, rfl⟩
  · exact .inl ⟨x, hx, rfl, rfl⟩
  · rw [StampedSession.upgradeFabricIdx] at hup
    split at hup <;> cases hup
    exact .inr rfl

theorem tied_addNoc (crypto : Crypto) (sess : StampedSession) (req : FailSafe.NocRequest) :
    Maintains (Tied id accessor) (handleAddNoc crypto sess req) := by
  refine tied_withArmedFailsafe _ (maintains_bind (tied_of_keeps fun _ => rfl) fun fabric => ?_)
  refine maintains_bind (tied_of_keeps (keeps_modify fun _ => rfl)) fun _ => ?_
  refine maintains_onlyIf _ (maintains_catching (tied_upgradeFabricIdx sess _) fun e => ?_)
  exact tied_of_keeps (keeps_bind (keeps_bind (fun _ => rfl) fun _ => keeps_modify fun _ => rfl) fun _ => keeps_throw _)

theorem tied_removeFabric (env : Env) (sess : StampedSession) (fabIdx : ℕ) :
    Maintains (Tied id accessor) (handleRemoveFabric env sess fabIdx) := by
  refine maintains_bind (maintains_ensure _ _) fun _ => maintains_get_bind fun d _ => ?_
  by_cases hget : (Fabrics.get d.fabrics fabIdx).isSome = true
  swap
  · rw [if_neg hget]
    exact maintains_pure _
  rw [if_pos hget]
  refine maintains_bind (tied_of_keeps fun _ => rfl) fun _ => ?_
  refine maintains_bind (tied_of_keeps (keeps_modify fun _ => rfl)) fun _ => ?_
  refine maintains_bind (maintains_modify fun d h => ?_) fun _ => ?_
  · exact h.of_sessions fun x hx _ => .inl (exists_of_mem_removeForFabric hx)
  · refine tied_of_keeps (keeps_bind ?_ fun _ => keeps_pure _)
    exact keeps_bind (keeps_ensure _ _) fun _ => keeps_modify fun _ => rfl

/-- **Commands** make no CASE session of another one. -/
theorem tied_invoke (crypto : Crypto) (env : Env) (sess : StampedSession) (cmd : Command) :
    Maintains (Tied id accessor) (invoke crypto env sess cmd) := by
  cases cmd with
  | armFailSafe expiry breadcrumb =>
    have harm : Maintains (Tied id accessor) (handleArmFailSafe env sess expiry breadcrumb) := by
      rw [handleArmFailSafe]
      split_ifs
      · exact maintains_bind (tied_expire env _) fun _ => maintains_pure _
      · exact tied_of_keeps (keeps_bind keeps_get fun _ => fun _ => rfl)
    exact harm
  | setBreadcrumb value => exact tied_of_keeps fun _ => rfl
  | commissioningComplete => exact tied_commissioningComplete env sess
  | setNetworks networks =>
    have hset : Keeps sessions (handleNetworks sess networks) :=
      sessions_withArmedFailsafe _ (keeps_modify fun _ => rfl)
    exact tied_of_keeps hset
  | openCommissioningWindow =>
    have hopen : Keeps sessions handleOpenCommissioningWindow :=
      keeps_bind keeps_get fun _ => keeps_bind (keeps_ensure _ _) fun _ => keeps_modify fun _ => rfl
    exact tied_of_keeps hopen
  | revokeCommissioning =>
    have hrevoke : Maintains (Tied id accessor) (handleRevokeCommissioning env sess) :=
      maintains_bind (tied_expire env _) fun _ => tied_of_keeps (keeps_modify fun _ => rfl)
    exact hrevoke
  | csrRequest csrNonce isForUpdateNoc =>
    have hcsr : Keeps sessions (handleCsrRequest env sess csrNonce isForUpdateNoc) := by
      refine keeps_bind (keeps_ensure _ _) fun _ => sessions_withArmedFailsafe _ ?_
      exact keeps_bind (keeps_ensure _ _) fun _ => keeps_bind (fun _ => rfl) fun _ => keeps_ofExcept _
    exact tied_of_keeps hcsr
  | addTrustedRootCertificate rootCa =>
    have hadd : Keeps sessions (handleAddTrustedRootCertificate crypto sess rootCa) :=
      sessions_withArmedFailsafe _ fun _ => rfl
    exact tied_of_keeps hadd
  | addNoc req =>
    have hreply : Maintains (Tied id accessor) (nocReply (handleAddNoc crypto sess req)) :=
      tied_addNoc crypto sess req
    refine maintains_bind hreply fun _ => tied_of_keeps ?_
    exact keeps_bind (keeps_onlyIf _ (keeps_ofExcept _)) fun _ => keeps_pure _
  | updateNoc icac noc =>
    have hupdate : Keeps sessions (handleUpdateNoc crypto sess icac noc) :=
      sessions_withArmedFailsafe _ fun _ => rfl
    exact tied_of_keeps hupdate
  | updateFabricLabel label =>
    have hlabel : Keeps sessions (handleUpdateFabricLabel sess label) :=
      keeps_bind (keeps_ensure _ _) fun _ => keeps_mapError _ fun _ => rfl
    exact tied_of_keeps hlabel
  | removeFabric fabIdx => exact maintains_bind (tied_removeFabric env sess fabIdx) fun _ => maintains_pure _
  | setVidVerificationStatement vendorId statement vvsc =>
    have hset : Keeps sessions (handleSetVidVerificationStatement env sess vendorId statement vvsc) := by
      refine keeps_bind (keeps_ensure _ _) fun _ => keeps_bind (keeps_ensure _ _) fun _ => ?_
      refine keeps_bind (keeps_ensure _ _) fun _ => keeps_bind (keeps_ensure _ _) fun _ => ?_
      refine keeps_bind (keeps_ensure _ _) fun _ => ?_
      exact keeps_bind (fun _ => rfl) fun _ => sessions_storeGet env _ _
    exact tied_of_keeps hset
  | setAcl value => exact tied_of_keeps (sessions_fabricScoped sess fun _ => sessions_editFabric env _ _)
  | addGroup endpointId groupId groupName =>
    refine tied_of_keeps (sessions_fabricScoped sess fun fabIdx => ?_)
    split_ifs
    · exact keeps_pure _
    · exact sessions_editFabric env _ _
  | removeGroup endpointId groupId =>
    refine tied_of_keeps (sessions_fabricScoped sess fun fabIdx => ?_)
    split_ifs
    · exact keeps_pure _
    · exact sessions_editFabric env _ _
  | removeAllGroups endpointId =>
    exact tied_of_keeps (sessions_fabricScoped sess fun _ => sessions_editFabric env _ _)
  | setGroupKeyMap value =>
    exact tied_of_keeps (sessions_fabricScoped sess fun _ => sessions_editFabric env _ _)
  | keySetWrite id' policy k0 k1 k2 =>
    refine tied_of_keeps (sessions_fabricScoped sess fun _ => keeps_bind (keeps_ofExcept _) fun _ => ?_)
    exact sessions_editFabric env _ _
  | keySetRemove id' =>
    refine tied_of_keeps (sessions_fabricScoped sess fun _ => keeps_bind (keeps_ensure _ _) fun _ => ?_)
    exact sessions_editFabric env _ _

/-- **Everything else** leaves the tie alone, too, as long as no CASE handshake ends under the id. -/
theorem Tied.step {crypto : Crypto} {a : Action} (h : d.Tied id accessor)
    (hleaves : ServingNode.LeavesSession id a) (hstep : step crypto d a = some d') : d'.Tied id accessor := by
  cases a with
  | invoke id' env cmd =>
    obtain ⟨sess, -, rfl⟩ := Option.map_eq_some_iff.mp hstep
    exact tied_invoke crypto env sess cmd d h
  | tick env =>
    cases hstep
    have hcheck : Maintains (Tied id accessor) (checkFailsafeTimeout env) := by
      refine maintains_get_bind fun d _ => ?_
      cases d.failsafe.state with
      | idle => exact maintains_pure _
      | armed ctx =>
        dsimp only
        split_ifs
        · exact maintains_bind (tied_expire env none) fun _ => maintains_pure _
        · exact maintains_pure _
    exact hcheck d h
  | addSession msgCtr reserved peerAddr peerNodeid =>
    cases hstep
    rcases hrun : (Sessions.add msgCtr reserved peerAddr peerNodeid).run d.sessions with ⟨ss, r⟩
    rw [onSessions, run_zoom _ d hrun]
    refine h.of_sessions fun x hx _ => ?_
    rcases Sessions.mem_or_plainText_of_mem_add hrun hx with hx | hmode
    · exact .inl ⟨x, hx, rfl, rfl⟩
    · exact .inr (hmode ▸ rfl)
  | removeSession id' =>
    cases hstep
    exact h.of_sessions fun x hx _ => .inl ⟨x, Sessions.mem_of_mem_remove hx, rfl, rfl⟩
  | establishPase id' env params =>
    rw [Device.step] at hstep
    split_ifs at hstep
    cases hstep
    have hpase : Maintains (Tied id accessor) (establishPase env id' params) := by
      refine maintains_bind (maintains_modify fun d h => ?_) fun _ => tied_of_keeps ?_
      · refine h.of_sessions fun x hx _ => ?_
        rcases Sessions.mem_modifySession hx with hx | ⟨y, -, -, rfl⟩
        · exact .inl ⟨x, hx, rfl, rfl⟩
        · exact .inr rfl
      · exact keeps_bind keeps_get fun _ => keeps_onlyIf _ fun _ => rfl
    exact hpase d h
  | establishCase id' fabIdx catIds params =>
    rw [Device.step] at hstep
    split_ifs at hstep
    cases hstep
    have hcase : Maintains (Tied id accessor) (establishCase id' fabIdx catIds params) := by
      refine maintains_get_bind fun d _ => maintains_bind (maintains_ensure _ _) fun _ => ?_
      refine maintains_modify fun d' h => h.of_sessions fun x hx hid => ?_
      rcases Sessions.mem_modifySession hx with hx | ⟨y, -, hy, rfl⟩
      · exact .inl ⟨x, hx, rfl, rfl⟩
      · exact absurd ((beq_iff_eq.mp hy).symm.trans hid) hleaves
    exact hcase d h
  | establishGroup fabIdx groupId msgCtr params =>
    cases hstep
    rw [establishGroup, run_bind_of_ok (run_get d)]
    refine maintains_bind (maintains_ensure _ _) (fun _ => ?_) d h
    refine maintains_bind (fun d h => ?_) fun _ => maintains_modify fun d h => ?_
    · rcases hrun : (Sessions.add msgCtr false params.peerAddr (some params.peerNodeid)).run d.sessions with ⟨ss, r⟩
      rw [onSessions, run_zoom _ d hrun]
      refine h.of_sessions fun x hx _ => ?_
      rcases Sessions.mem_or_plainText_of_mem_add hrun hx with hx | hmode
      · exact .inl ⟨x, hx, rfl, rfl⟩
      · exact .inr (hmode ▸ rfl)
    · refine h.of_sessions fun x hx _ => ?_
      rcases Sessions.mem_modifyLast hx with hx | ⟨y, rfl⟩
      · exact .inl ⟨x, hx, rfl, rfl⟩
      · exact .inr rfl
  | closeCommWindow =>
    cases hstep
    exact h.of_eq rfl
  | restart =>
    rw [Device.step, restart] at hstep
    split at hstep
    · cases hstep
    · cases hstep
      intro x hx
      cases hx

end Tied

end Device

/-! ## Access needs the fabric -/

/-- A request of a CASE session that is granted has a fabric behind it. -/
theorem Fabrics.isSome_of_allow {fs : Fabrics} {req : AccessReq} (h : Fabrics.allow fs req = true)
    (hcase : req.accessor.authMode = some .case) : (Fabrics.get fs req.accessor.fabIdx).isSome := by
  rw [Fabrics.allow, hcase, if_neg (by decide)] at h
  split_ifs at h
  cases hget : Fabrics.get fs req.accessor.fabIdx with
  | none =>
    rw [hget] at h
    cases h
  | some fabric => rfl

theorem Cluster.isSome_of_checkAttrAccess {c : Cluster} {fs : Fabrics} {accessor : Accessor} {timed write : Bool}
    {path : GenericPath} {deviceTypes : List DeviceType} {attrId : AttrId}
    (h : c.checkAttrAccess fs accessor timed path deviceTypes write attrId = .ok ())
    (hcase : accessor.authMode = some .case) : (Fabrics.get fs accessor.fabIdx).isSome := by
  rw [Cluster.checkAttrAccess] at h
  by_cases hallow : Fabrics.allow fs ⟨accessor, path, some
      (((c.allAttributes.find? (·.id == attrId)).map (·.access)).getD 0),
      if write then Access.write else Access.read, deviceTypes⟩ = true
  · exact Fabrics.isSome_of_allow hallow hcase
  · rw [if_neg hallow] at h
    split_ifs at h

theorem Cluster.isSome_of_checkCmdAccess {c : Cluster} {fs : Fabrics} {accessor : Accessor} {timed : Bool}
    {path : GenericPath} {deviceTypes : List DeviceType} {cmdId : CmdId}
    (h : c.checkCmdAccess fs accessor timed path deviceTypes cmdId = .ok ())
    (hcase : accessor.authMode = some .case) : (Fabrics.get fs accessor.fabIdx).isSome := by
  rw [Cluster.checkCmdAccess] at h
  split at h
  · cases h
  · split at h
    · cases h
    · split at h
      · next hallow => exact Fabrics.isSome_of_allow hallow hcase
      · cases h

/-- **The access check** of an item, whatever is done with it, needs the fabric of a CASE session. -/
theorem Operation.isSome_of_checkAccess {op : Operation} {ctx : ExpandCtx} {endpoint : Endpoint}
    {cluster : Cluster} {leafId : BitVec 32} (h : op.checkAccess ctx endpoint cluster leafId = .ok ())
    (hcase : ctx.accessor.authMode = some .case) :
    (Fabrics.get ctx.fabrics ctx.accessor.fabIdx).isSome := by
  cases op with
  | read =>
    rw [Operation.checkAccess] at h
    exact Cluster.isSome_of_checkAttrAccess h hcase
  | write =>
    rw [Operation.checkAccess] at h
    exact Cluster.isSome_of_checkAttrAccess h hcase
  | invoke =>
    rw [Operation.checkAccess] at h
    exact Cluster.isSome_of_checkCmdAccess h hcase

/-! ## Handlers that do not panic -/

namespace AdminNode

variable {crypto : Crypto} {sur : Surroundings} {id : BitVec 32} {fabIdx : ℕ} {n : AdminNode}

/-- What the guard of `AddNOC` removes has just been added. -/
theorem noPanic_addNocGuard (crypto : Crypto) (sess : StampedSession) (req : FailSafe.NocRequest) (d : Device) :
    NoPanic (addNocGuard crypto sess req d) := by
  rw [addNocGuard]
  split
  · next d' fabric hrun =>
    -- a command that is refused returns no fabric
    cases hchk : d.failsafe.checkArmed sess.mode with
    | error e =>
      obtain ⟨e', herr⟩ := Device.run_withArmedFailsafe_of_error hchk
      rw [herr] at hrun
      cases hrun
    | ok u =>
      rw [Device.run_withArmedFailsafe_of_ok hchk] at hrun
      obtain ⟨t, hadd, rfl⟩ := Prog.run_zoom_eq_ok.mp hrun
      rcases FailSafe.addNoc_cases hadd with ⟨-, e, he⟩ | ⟨fabric', hfabric, -, -, hfab, hfree, -⟩
      · cases he
      · cases hfabric
        have hget : (Fabrics.get t.fabrics fabric.fabIdx).isSome := by
          rw [hfab, Fabrics.get, lookup_append_self hfree]
          rfl
        split
        · dsimp only
          rw [Fabrics.run_remove, if_pos hget]
          exact noPanic_ok ()
        · exact noPanic_ok ()
  · exact noPanic_ok ()

theorem noPanic_lift (n : AdminNode) (m : Prog ErrorCode Device Device.Reply) : NoPanic (n.lift m).2 := by
  rw [lift]
  dsimp only
  cases (m.run n.device).2 with
  | ok r => exact noPanic_ok _
  | error e => exact noPanic_error e

/-- Who opens a window can be told where the fabric of its session is there. -/
theorem noPanic_currentWindowOpener {sess : StampedSession} (hsess : n.device.sessions.get id = some sess)
    (h : ∀ fabIdx catIds, sess.mode = .case fabIdx catIds → (Fabrics.get n.device.fabrics fabIdx).isSome) :
    NoPanic (n.currentWindowOpener id) := by
  rw [currentWindowOpener, session, hsess]
  show NoPanic (match sess.mode with
    | .case fabIdx _ => _
    | _ => _)
  split
  · next fabIdx catIds hmode =>
    obtain ⟨fabric, hget⟩ := Option.isSome_iff_exists.mp (h fabIdx catIds hmode)
    rw [hget]
    exact noPanic_ok _
  · exact noPanic_ok _

theorem openWindow_keeps (rand : Except ErrorCode Unit) (id : BitVec 32) (n : AdminNode) :
    (n.openWindow rand id).1.device.sessions = n.device.sessions ∧
      (n.openWindow rand id).1.device.fabrics = n.device.fabrics := by
  have hview := Device.keeps_openCommissioningWindow n.device
  simp only [Device.view, Prod.mk.injEq] at hview
  obtain ⟨hfab, -, -, -, hss⟩ := hview
  rw [openWindow]
  cases n.currentWindowOpener id with
  | error stop => exact ⟨rfl, rfl⟩
  | ok opener =>
    cases rand with
    | error e => exact ⟨rfl, rfl⟩
    | ok u =>
      dsimp only
      split
      · next n' reply heq =>
        obtain rfl : _ = n' := congrArg Prod.fst heq
        exact ⟨hss, hfab⟩
      · next n' stop heq =>
        obtain rfl : _ = n' := congrArg Prod.fst heq
        exact ⟨hss, hfab⟩

/-- What opening a window does to the sessions and to the fabrics: nothing. -/
theorem handleOpen_keeps (late : Bool) (rand : Except ErrorCode Unit) (id : BitVec 32) (n : AdminNode) :
    (n.handleOpenCommissioningWindow late rand id).1.device.sessions = n.device.sessions ∧
      (n.handleOpenCommissioningWindow late rand id).1.device.fabrics = n.device.fabrics := by
  rw [handleOpenCommissioningWindow]
  cases late with
  | true => exact openWindow_keeps rand id { n with device.commWindow := false }
  | false => exact openWindow_keeps rand id n

theorem noPanic_openWindow (rand : Except ErrorCode Unit) (h : NoPanic (n.currentWindowOpener id)) :
    NoPanic (n.openWindow rand id).2 := by
  rw [openWindow]
  cases hopener : n.currentWindowOpener id with
  | error stop =>
    rw [hopener] at h
    exact fun hstop => h (by cases hstop; rfl)
  | ok opener =>
    cases rand with
    | error e => exact noPanic_error e
    | ok u =>
      have hlift := noPanic_lift n (Device.plainReply Device.handleOpenCommissioningWindow)
      dsimp only
      split
      · exact noPanic_ok _
      · next n' stop heq =>
        rw [heq] at hlift
        exact fun hstop => hlift (by cases hstop; rfl)

theorem noPanic_handleOpen {sess : StampedSession} (late : Bool) (rand : Except ErrorCode Unit)
    (hsess : n.device.sessions.get id = some sess)
    (h : ∀ fabIdx catIds, sess.mode = .case fabIdx catIds → (Fabrics.get n.device.fabrics fabIdx).isSome) :
    NoPanic (n.handleOpenCommissioningWindow late rand id).2 := by
  rw [handleOpenCommissioningWindow]
  cases late with
  | true =>
    have hopener : NoPanic (currentWindowOpener id { n with device.commWindow := false }) :=
      noPanic_currentWindowOpener hsess h
    exact noPanic_openWindow rand hopener
  | false => exact noPanic_openWindow rand (noPanic_currentWindowOpener hsess h)

/-- **No handler panics** on a session, where the fabric of a CASE session that opens a window is
there. -/
theorem noPanic_handle {req : Request}
    (h : req = .command .openCommissioningWindow → ∀ sess, n.device.sessions.get id = some sess →
      ∀ fabIdx catIds, sess.mode = .case fabIdx catIds → (Fabrics.get n.device.fabrics fabIdx).isSome) :
    NoPanic (n.handle crypto sur id fabIdx req).2 := by
  rw [handle]
  split
  · next hsome =>
    obtain ⟨sess, hsess⟩ := Option.isSome_iff_exists.mp hsome
    rw [session, hsess]
    dsimp only [Stop.unwrapSome]
    split
    · exact RsMatter.noPanic_lift _
    · exact noPanic_handleOpen _ _ hsess (h rfl sess hsess)
    · next req' =>
      have hguard := noPanic_addNocGuard crypto sess req' n.device
      split
      · next stop heq =>
        rw [heq] at hguard
        exact fun hstop => hguard (by cases hstop; rfl)
      · exact noPanic_lift n _
    · exact noPanic_lift n _
  · exact noPanic_error _

theorem tied_handle {accessor : Accessor} {req : Request} (h : n.device.Tied id accessor) :
    (n.handle crypto sur id fabIdx req).1.device.Tied id accessor := by
  rw [handle]
  split
  · next hsome =>
    obtain ⟨sess, hsess⟩ := Option.isSome_iff_exists.mp hsome
    rw [session, hsess]
    dsimp only [Stop.unwrapSome]
    split
    · exact h
    · exact h.of_eq (handleOpen_keeps _ _ id n).1
    · split
      · exact h
      · exact Device.tied_invoke crypto sur.env sess _ n.device h
    · exact Device.tied_invoke crypto sur.env sess _ n.device h
  · exact h

theorem fabrics_handle_open :
    (n.handle crypto sur id fabIdx (.command .openCommissioningWindow)).1.device.fabrics = n.device.fabrics := by
  rw [handle]
  split
  · split
    · rfl
    · exact (handleOpen_keeps _ _ id n).2
  · rfl

end AdminNode

/-! ## No look-up fails -/

/-- A leaf that a commissioning window is opened by. -/
def Handlers.Opens (handlers : Handlers) (leaf : EndptId × ClusterId × BitVec 32) : Prop :=
  ∃ decode data, handlers.route leaf = some decode ∧ decode data = .ok (.command .openCommissioningWindow)

namespace ServingNode

/-- The request is one of the session, and where the leaf granted last opens a window for a
CASE session, the fabric is still there. -/
structure Backed (handlers : Handlers) (id : BitVec 32) (n : AdminNode) (s : Serving) : Prop where
  /-- the accessor stands for the session -/
  tied : n.device.Tied id s.accessor
  /-- the leaf that is not checked again could be -/
  fabric : s.accessor.authMode = some .case → ∀ leaf, s.cursor.lastAuthorized = some leaf →
    handlers.Opens leaf → (Fabrics.get n.device.fabrics s.accessor.fabIdx).isSome

/-- What holds between two steps. A handler that waits opens no window. -/
def Inv (handlers : Handlers) (id : BitVec 32) (m : ServingNode) : Prop :=
  match m.phase with
  | .idle => True
  | .serving s => Backed handlers id m.node s
  | .waiting s => m.node.device.Tied id s.accessor ∧
      ∀ leaf, s.cursor.lastAuthorized = some leaf → ¬ handlers.Opens leaf
  | .panicked => False

variable {crypto : Crypto} {handlers : Handlers} {id : BitVec 32} {m m' : ServingNode}

theorem mem_and_id_of_get {ss : Sessions} {sess : StampedSession} (h : ss.get id = some sess) :
    sess ∈ ss.sessions ∧ sess.id = id := by
  rw [Sessions.get] at h
  have hid := List.find?_some h
  exact ⟨List.mem_of_find?_eq_some h, by simpa using hid⟩

theorem tied_forSession {d : Device} {sess : StampedSession} (hid : d.sessions.IdUnique id)
    (hsess : d.sessions.get id = some sess) : d.Tied id (.forSession sess) := by
  intro x hx hxid fabIdx catIds hmode
  obtain rfl : x = sess := by
    by_contra hne
    obtain ⟨hmem, hsid⟩ := mem_and_id_of_get hsess
    obtain ⟨l, r, hlr⟩ := List.append_of_mem hmem
    have hsid' : (sess.id == id) = true := beq_iff_eq.mpr hsid
    rw [Sessions.IdUnique, hlr, List.countP_append, List.countP_cons, if_pos hsid'] at hid
    rw [hlr, List.mem_append, List.mem_cons] at hx
    have hxid' : (x.id == id) = true := beq_iff_eq.mpr hxid
    have hpos : 0 < l.countP (·.id == id) + r.countP (·.id == id) := by
      rcases hx with hx | rfl | hx
      · exact Nat.add_pos_left (List.countP_pos_iff.mpr ⟨x, hx, hxid'⟩) _
      · exact absurd rfl hne
      · exact Nat.add_pos_right _ (List.countP_pos_iff.mpr ⟨x, hx, hxid'⟩)
    omega
  rw [Accessor.forSession, hmode]
  exact ⟨rfl, rfl⟩

/-- One round of the loop: the handler finds the fabric it needs, and leaves what the next item
relies on. -/
theorem inv_next (metadata : Node) (sur : AdminNode.Surroundings) {n : AdminNode} {s : Serving}
    (h : Backed handlers id n s) : Inv handlers id (next crypto handlers id metadata sur n s) := by
  rw [next]
  split
  · split
    · trivial
    · exact ⟨h.tied, h.fabric⟩
  · next path data hitem =>
    have hends : PathExpander.SearchEnds s.op ⟨n.device.fabrics, s.accessor, s.timed, s.filter⟩ path
        metadata.endpoints s.cursor.lastAuthorized _ := PathExpander.nextForPath_ends metadata s.cursor
    dsimp only
    revert hends
    cases PathExpander.nextForPath s.op ⟨n.device.fabrics, s.accessor, s.timed, s.filter⟩ metadata path
      s.cursor with
    | mk result cursor =>
    intro hends
    cases hends with
    | none hlast =>
      refine ⟨h.tied, fun hcase leaf hleaf => h.fabric hcase leaf ?_⟩
      rw [← hlast]
      exact hleaf
    | error status hlast =>
      refine ⟨h.tied, fun hcase leaf hleaf => h.fabric hcase leaf ?_⟩
      rw [← hlast]
      exact hleaf
    | @hit endpoint cluster leafId c' hendpoint hpath haccess hgrants hlast =>
      -- the leaf has just been checked, or it is the one granted last
      have hfabric : s.accessor.authMode = some .case → handlers.Opens (endpoint.id, cluster.id, leafId) →
          (Fabrics.get n.device.fabrics s.accessor.fabIdx).isSome := by
        intro hcase hopens
        rcases hgrants.allowed with hcached | hcheck
        · exact h.fabric hcase _ hcached hopens
        · exact Operation.isSome_of_checkAccess hcheck hcase
      dsimp only
      cases hroute : handlers.route (endpoint.id, cluster.id, leafId) with
      | none =>
        refine ⟨h.tied, fun leaf hleaf hopens => ?_⟩
        obtain rfl := Option.some.inj (hlast.symm.trans hleaf)
        obtain ⟨decode, data', hdecode, -⟩ := hopens
        rw [hroute] at hdecode
        cases hdecode
      | some decode =>
        dsimp only
        cases hreq : decode data with
        | error e =>
          refine ⟨h.tied, fun hcase leaf hleaf => ?_⟩
          obtain rfl := Option.some.inj (hlast.symm.trans hleaf)
          exact hfabric hcase
        | ok req =>
          have hpanic : NoPanic (n.handle crypto sur id s.accessor.fabIdx req).2 := by
            refine AdminNode.noPanic_handle fun hopen sess hsess fabIdx catIds hmode => ?_
            obtain ⟨hmem, hsid⟩ := mem_and_id_of_get hsess
            obtain ⟨hcase, rfl⟩ := h.tied sess hmem hsid fabIdx catIds hmode
            exact hfabric hcase ⟨decode, data, hroute, hopen ▸ hreq⟩
          have htied : (n.handle crypto sur id s.accessor.fabIdx req).1.device.Tied id s.accessor :=
            AdminNode.tied_handle h.tied
          have hstays : s.accessor.authMode = some .case → handlers.Opens (endpoint.id, cluster.id, leafId) →
              (Fabrics.get (n.handle crypto sur id s.accessor.fabIdx req).1.device.fabrics
                s.accessor.fabIdx).isSome := by
            intro hcase hopens
            obtain ⟨decode', data', hroute', hopen'⟩ := hopens
            obtain rfl := Option.some.inj (hroute.symm.trans hroute')
            obtain rfl := handlers.opensOnly _ _ hroute data' hopen' data req hreq
            rw [AdminNode.fabrics_handle_open]
            exact hfabric hcase ⟨decode, data', hroute, hopen'⟩
          dsimp only
          revert hpanic htied hstays
          cases n.handle crypto sur id s.accessor.fabIdx req with
          | mk n' r =>
          intro hpanic htied hstays
          have hback : Backed handlers id n'
              { s with item := if path.isWildcard then s.item else none, cursor } := by
            refine ⟨htied, fun hcase leaf hleaf => ?_⟩
            obtain rfl := Option.some.inj (hlast.symm.trans hleaf)
            exact hstays hcase
          cases r with
          | ok answer => exact hback
          | error stop =>
            cases stop with
            | error e => exact hback
            | panic => exact absurd rfl hpanic

theorem Inv.step {a : Action} (h : Inv handlers id m) (hstep : (machine crypto handlers id).step m a = some m') :
    Inv handlers id m' := by
  obtain ⟨n, phase⟩ := m
  replace hstep : ServingNode.step crypto handlers id ⟨n, phase⟩ a = some m' := hstep
  cases a with
  | request op timed filter items =>
    cases phase <;> simp only [ServingNode.step, reduceCtorEq] at hstep
    split_ifs at hstep with hid
    obtain ⟨sess, hsess, rfl⟩ := Option.map_eq_some_iff.mp hstep
    exact ⟨tied_forSession hid hsess, fun _ leaf hleaf => nomatch hleaf⟩
  | next metadata sur =>
    cases phase <;> simp only [ServingNode.step, reduceCtorEq, Option.some.injEq] at hstep
    subst hstep
    exact inv_next metadata sur h
  | resume =>
    cases phase <;> simp only [ServingNode.step, reduceCtorEq, Option.some.injEq] at hstep
    subst hstep
    obtain ⟨htied, hopens⟩ := h
    exact ⟨htied, fun _ leaf hleaf hopen => absurd hopen (hopens leaf hleaf)⟩
  | abandon =>
    cases phase <;> simp only [ServingNode.step, reduceCtorEq, Option.some.injEq] at hstep
    all_goals
      subst hstep
      trivial
  | other a =>
    cases phase <;> simp only [ServingNode.step, reduceCtorEq] at hstep
    · obtain ⟨n', -, rfl⟩ := Option.map_eq_some_iff.mp hstep
      trivial
    · split_ifs at hstep with hleaves
      obtain ⟨n', hother, rfl⟩ := Option.map_eq_some_iff.mp hstep
      obtain ⟨d', hd, rfl⟩ := Option.map_eq_some_iff.mp hother
      obtain ⟨htied, hopens⟩ := h
      exact ⟨htied.step hleaves hd, hopens⟩

/-- **Handlers tolerate a fabric that is gone.** However the fabric of a session disappears, by
a command of a request, while a handler waits or between two requests: whatever handler runs
next, no look-up of the fabric or of the session that it unwraps fails. -/
theorem phase_ne_panicked {n : AdminNode} {as : List Action}
    (hrun : (machine crypto handlers id).run ⟨n, .idle⟩ as = some m) : m.phase ≠ .panicked := by
  have hinv : Inv handlers id m := by
    have hreach : (machine crypto handlers id).Reachable (· = ⟨n, .idle⟩) m := ⟨_, as, rfl, hrun⟩
    refine Machine.invariant_of_reachable ?_ (fun _ _ _ h hstep => h.step hstep) hreach
    rintro _ rfl
    trivial
  intro hpanicked
  rw [Inv, hpanicked] at hinv
  exact hinv

namespace Sample

/-- A cluster with one command, for administrators. -/
def cluster (id : ClusterId) (cmdId : CmdId) : Cluster where
  id
  revision := 1
  featureMap := 0
  allAttributes := []
  allCommands := [⟨cmdId, none, 0x28#16⟩]
  withAttrs _ _ _ := true
  withCmds _ _ _ := true

/-- The root endpoint, with a command of the operational credentials and one of the administrator
commissioning cluster. -/
def metadata : Node where
  endpoints := [⟨0, [], [cluster 0x3c 0x01, cluster 0x3e 0x0a]⟩]
  ascending := List.pairwise_singleton _ _
  length_clusters := by decide
  length_leaves := by decide

/-- The data of `RemoveFabric` is the index. -/
def decodeRemoveFabric (data : List UInt8) : Except ErrorCode AdminNode.Request :=
  .ok (.command (.removeFabric (data.headD 0).toNat))

/-- `OpenBasicCommissioningWindow`. -/
def decodeOpen (_ : List UInt8) : Except ErrorCode AdminNode.Request :=
  .ok (.command .openCommissioningWindow)

def routes : Handlers where
  route leaf :=
    if leaf = (0, 0x3e, 0x0a) then some decodeRemoveFabric
    else if leaf = (0, 0x3c, 0x01) then some decodeOpen
    else none
  opensOnly := by
    intro leaf decode hroute data hopen data' req hreq
    split_ifs at hroute <;> cases hroute
    · cases hopen
    · exact (Except.ok.inj hreq).symm

def surroundings : AdminNode.Surroundings := ⟨Device.Sample.envAt 0, false, .ok ()⟩

/-- The administrator removes their own fabric and opens a commissioning window, in one request. -/
def removeAndOpen : List Action :=
  [.request .invoke false (fun _ _ _ => true)
      [(⟨some 0, some 0x3e, some 0x0a⟩, [1]), (⟨some 0, some 0x3c, some 0x01⟩, [])],
    .next metadata surroundings, .next metadata surroundings, .next metadata surroundings,
    .next metadata surroundings, .next metadata surroundings]

/-- A node that is commissioned, with a session of the administrator. -/
def commissioned : List Action :=
  (Device.Sample.pase 0 0 ++ Device.Sample.addFabric 0 9).map .other ++
    [Action.other (.addSession 0 true (.btp 0) none),
      .other (.establishCase 1 1 [] { Device.Sample.params with peerNodeid := 42 }),
      .other (.invoke 1 (Device.Sample.envAt 0) .commissioningComplete)]

end Sample

/-- An administrator removes their own fabric and then opens a window: that is refused. -/
theorem phase_ne_panicked_removeAndOpen : ∃ m, (machine Device.Sample.crypto Sample.routes 1).run
      ⟨⟨Device.factoryNew, none⟩, .idle⟩ (Sample.commissioned ++ Sample.removeAndOpen) = some m ∧
    m.node.device.fabrics = [] ∧ m.node.device.commWindow = false ∧ m.phase ≠ .panicked := by
  have h : ((machine Device.Sample.crypto Sample.routes 1).run ⟨⟨Device.factoryNew, none⟩, .idle⟩
      (Sample.commissioned ++ Sample.removeAndOpen)).map
        (fun m => (m.node.device.fabrics, m.node.device.commWindow)) = some ([], false) := by decide +kernel
  obtain ⟨m, hrun, heq⟩ := Option.map_eq_some_iff.mp h
  obtain ⟨hfab, hwin⟩ := Prod.mk.inj heq
  exact ⟨m, hrun, hfab, hwin, phase_ne_panicked hrun⟩

end ServingNode

end RsMatter
