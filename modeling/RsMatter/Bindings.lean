import RsMatter.Device
import RsMatter.LostFabric
import RsMatter.TlvCodec

/-!
# Bindings (`dm/clusters/binding.rs`)

The address book of the node: each entry belongs to an endpoint and to the fabric that wrote it.
There is one table of a fixed capacity for all endpoints and fabrics, and it is stored as a
whole after every write. The fabrics themselves are managed elsewhere, by commands that know
nothing of the table.
-/

namespace RsMatter

open Stop Panicking

/-- A target as a request has it. Each field is decoded when it is asked for. -/
structure TargetStruct where
  node : Except ErrorCode (Option (BitVec 64))
  group : Except ErrorCode (Option (BitVec 16))
  endpoint : Except ErrorCode (Option EndptId)
  cluster : Except ErrorCode (Option ClusterId)

structure BindingTarget where
  node : Option (BitVec 64)
  group : Option (BitVec 16)
  endpoint : Option EndptId
  cluster : Option ClusterId
  fabricIndex : BitVec 8
  deriving DecidableEq

/-- `StoredBinding`: an entry of the table. -/
structure StoredBinding where
  endpointId : EndptId
  fabIdx : {v : BitVec 8 // v ≠ 0}
  node : Option (BitVec 64)
  group : Option (BitVec 16)
  endpoint : Option EndptId
  cluster : Option ClusterId
  deriving DecidableEq

namespace StoredBinding

/-- The fields, in the order they are stored in. -/
abbrev Stored : Type :=
  BitVec IntKind.u16.width × {v : BitVec IntKind.u8.width // v ≠ 0} × Option (BitVec IntKind.u64.width) ×
    Option (BitVec IntKind.u16.width) × Option (BitVec IntKind.u16.width) ×
      Option (BitVec IntKind.u32.width) × Unit

def codec : Codec Stored :=
  .struct .struct false
    (.cons 0 (.int .u16) (.cons 1 (.nonZero .u8) (.optional false 2 (.int .u64)
      (.optional false 3 (.int .u16) (.optional false 4 (.int .u16)
        (.optional false 5 (.int .u32) .nil))))))

def fields (e : StoredBinding) : Stored :=
  (e.endpointId, e.fabIdx, e.node, e.group, e.endpoint, e.cluster, ())

def ofFields : Stored → StoredBinding
  | (endpointId, fabIdx, node, group, endpoint, cluster, _) =>
    ⟨endpointId, fabIdx, node, group, endpoint, cluster⟩

def isOf (endpointId : EndptId) (fabIdx : {v : BitVec 8 // v ≠ 0}) (e : StoredBinding) : Bool :=
  e.endpointId == endpointId && e.fabIdx == fabIdx

def target (e : StoredBinding) : BindingTarget :=
  ⟨e.node, e.group, e.endpoint, e.cluster, e.fabIdx.1⟩

end StoredBinding

/-- The table, and the blob that is stored under its key. -/
structure Bindings (N : ℕ) where
  state : HVec StoredBinding N
  blob : Option (List UInt8)

namespace Bindings

variable {N : ℕ}

def new : Bindings N := ⟨.new, none⟩

def toStored (state : HVec StoredBinding N) : HVec StoredBinding.Stored N :=
  ⟨state.1.map StoredBinding.fields, by rw [List.length_map]; exact state.2⟩

def ofStored (stored : HVec StoredBinding.Stored N) : HVec StoredBinding N :=
  ⟨stored.1.map StoredBinding.ofFields, by rw [List.length_map]; exact stored.2⟩

/-- `load_persist`. -/
def loadPersist : Prog (Stop ErrorCode) (Bindings N) Unit := do
  let s ← Prog.get
  match s.blob with
  | none => Prog.modify fun s => { s with state := .new }
  | some data => do
    let loaded ← Prog.ofExcept (fromTlv (.vec StoredBinding.codec N) data)
    Prog.modify fun s => { s with state := ofStored loaded }

/-- `store_persist`, with a buffer of `room` bytes. Without a buffer, `Persist` stores nothing. -/
def storePersist (room : ℕ) : Prog (Stop ErrorCode) (Bindings N) Unit := do
  let s ← Prog.get
  if room = 0 then return ()
  else
    match (toTlv (.vec StoredBinding.codec N) (toStored s.state) .anonymous).run ⟨[], room⟩ with
    | (wb, .ok ()) => Prog.modify fun s => { s with blob := some wb.data }
    | (_, .error e) => Prog.throw (.error e)

/-- `parse_target`: exactly one of group and endpoint has to be there, and the node with the
endpoint. -/
def parseTarget (endpointId : EndptId) (fabIdx : {v : BitVec 8 // v ≠ 0}) (t : TargetStruct) :
    Except (Stop ErrorCode) StoredBinding := do
  let node ← lift t.node
  let group ← lift t.group
  let endpoint ← lift t.endpoint
  let cluster ← lift t.cluster
  if group.isSome ∧ endpoint.isSome then .error (.error .constraintError)
  else if group.isNone ∧ endpoint.isNone then .error (.error .constraintError)
  else if endpoint.isSome ∧ node.isNone then .error (.error .constraintError)
  else return ⟨endpointId, fabIdx, node, group, endpoint, cluster⟩

/-- The first pass of `replace_entries`: parse all targets, and put them into a table of
their own. -/
def parseTargets (endpointId : EndptId) (fabIdx : {v : BitVec 8 // v ≠ 0}) :
    List (Except ErrorCode TargetStruct) → HVec StoredBinding N →
      Except (Stop ErrorCode) (HVec StoredBinding N)
  | [], parsed => .ok parsed
  | t :: list, parsed => do
    let t ← lift t
    let sb ← parseTarget endpointId fabIdx t
    let parsed ← parsed.push sb .resourceExhausted
    parseTargets endpointId fabIdx list parsed

/-- Push one entry after the other. What has been pushed stays. -/
def pushAll : List StoredBinding → Prog (Stop ErrorCode) (Bindings N) Unit
  | [] => return ()
  | sb :: parsed => do
    let s ← Prog.get
    let state ← Prog.ofExcept (s.state.push sb .resourceExhausted)
    Prog.modify fun s => { s with state }
    pushAll parsed

/-- The table without the entries of an endpoint and a fabric. -/
def retainOthers (endpointId : EndptId) (fabIdx : {v : BitVec 8 // v ≠ 0})
    (state : HVec StoredBinding N) : HVec StoredBinding N :=
  ⟨state.1.filter fun e => !e.isOf endpointId fabIdx, (List.length_filter_le _ _).trans state.2⟩

/-- `replace_entries`. -/
def replaceEntries (room : ℕ) (endpointId : EndptId) (fabIdx : {v : BitVec 8 // v ≠ 0})
    (list : List (Except ErrorCode TargetStruct)) : Prog (Stop ErrorCode) (Bindings N) Unit := do
  let parsed ← Prog.ofExcept (parseTargets endpointId fabIdx list (.new : HVec StoredBinding N))
  Prog.modify fun s => { s with state := retainOthers endpointId fabIdx s.state }
  pushAll parsed.1
  storePersist room

/-- `add_entry`. -/
def addEntry (room : ℕ) (endpointId : EndptId) (fabIdx : {v : BitVec 8 // v ≠ 0})
    (entry : TargetStruct) : Prog (Stop ErrorCode) (Bindings N) Unit := do
  let sb ← Prog.ofExcept (parseTarget endpointId fabIdx entry)
  let s ← Prog.get
  let state ← Prog.ofExcept (s.state.push sb .resourceExhausted)
  Prog.modify fun s => { s with state }
  storePersist room

/-- `render`: the entries of an endpoint, of all fabrics or of one. -/
def render (endpointId : EndptId) (fabFilter : Option {v : BitVec 8 // v ≠ 0})
    (read : ArrayAttributeRead) (s : Bindings N) : Except ErrorCode (List BindingTarget) :=
  read.pick (((s.state.1.filter fun e => e.endpointId == endpointId).filter fun e =>
    fabFilter.all fun f => e.fabIdx == f).map StoredBinding.target)

end Bindings

/-! ## The handler -/

/-- What is written to a list: all of it, one more item, another item in place of one, or without
one. -/
inductive ArrayAttributeWrite where
  | replace (list : List (Except ErrorCode TargetStruct))
  | add (entry : TargetStruct)
  | update (index : ℕ) (entry : TargetStruct)
  | remove (index : ℕ)

namespace BindingHandler

variable {N : ℕ}

/-- `NonZeroU8::new`, with the error `UnsupportedAccess`. -/
def accessingFabric (fabIdx : BitVec 8) : Except (Stop ErrorCode) {v : BitVec 8 // v ≠ 0} :=
  if h : fabIdx ≠ 0 then .ok ⟨fabIdx, h⟩ else .error (.error .unsupportedAccess)

/-- `binding`: read the entries. -/
def binding (endpointId : EndptId) (fabFilter : Bool) (fabIdx : BitVec 8) (read : ArrayAttributeRead)
    (s : Bindings N) : Except (Stop ErrorCode) (List BindingTarget) := do
  let fabFilter ← if fabFilter then (accessingFabric fabIdx).map some else .ok none
  lift (s.render endpointId fabFilter read)

/-- `set_binding`: write the entries. -/
def setBinding (room : ℕ) (endpointId : EndptId) (fabIdx : BitVec 8) (value : ArrayAttributeWrite) :
    Prog (Stop ErrorCode) (Bindings N) Unit := do
  let fabIdx ← Prog.ofExcept (accessingFabric fabIdx)
  match value with
  | .replace list => Bindings.replaceEntries room endpointId fabIdx list
  | .add entry => Bindings.addEntry room endpointId fabIdx entry
  | .update .. | .remove _ => Prog.throw (.error .invalidAction)

end BindingHandler

/-! ## The node -/

structure BindingNode (N : ℕ) where
  device : Device
  bindings : Bindings N

namespace BindingNode

variable {N : ℕ}

def factoryNew : BindingNode N := ⟨.factoryNew, .new⟩

inductive Action where
  /-- a write to the bindings of an endpoint, by a fabric -/
  | write (endpointId : EndptId) (fabIdx : BitVec 8) (value : ArrayAttributeWrite)
  /-- anything else: a fabric is added, or removed, and so on -/
  | device (a : Device.Action)

/-- Is there a fabric with this index, or does the session have none? The access check refuses
the rest. -/
def mayWrite (d : Device) (fabIdx : BitVec 8) : Bool :=
  fabIdx == 0 || (Fabrics.get d.fabrics fabIdx.toNat).isSome

/-- The bindings after something has happened to the rest of the node: a restart loads them
again. -/
def reload (bindings : Bindings N) : Device.Action → Bindings N
  | .restart => (Bindings.loadPersist.run { bindings with state := .new }).1
  | _ => bindings

/-- The node after an action, where the storage has a buffer of `room` bytes. -/
def step (crypto : Crypto) (room : ℕ) (n : BindingNode N) : Action → Option (BindingNode N)
  | .write endpointId fabIdx value =>
    if mayWrite n.device fabIdx then
      some { n with
        bindings := ((BindingHandler.setBinding room endpointId fabIdx value).run n.bindings).1 }
    else none
  | .device a => (Device.step crypto n.device a).map fun device => ⟨device, reload n.bindings a⟩

def machine (crypto : Crypto) (room : ℕ) : Machine (BindingNode N) Action := ⟨step crypto room⟩

end BindingNode

end RsMatter
