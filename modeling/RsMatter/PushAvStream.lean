import RsMatter.FixedCapacity
import RsMatter.Prog
import RsMatter.Suspension
import RsMatter.TlvIter
import RsMatter.TlvRetag

/-!
# Push transports (`dm/clusters/app/push_av_stream.rs`)

One table holds the connections of all fabrics. The commands check in the table whose a connection
is, wait for the application, and then change the table. What a peer asks of a connection is kept as
it was written, and copied when it is read.
-/

namespace RsMatter

namespace PushAv

open Stop

inductive PushAvError where
  | failure
  | notFound
  | resourceExhausted
  | dynamicConstraint
  | invalidInState
  deriving DecidableEq

def PushAvError.toError : PushAvError → ErrorCode
  | failure => .failure
  | notFound => .notFound
  | resourceExhausted => .resourceExhausted
  | dynamicConstraint => .constraintError
  | invalidInState => .invalidAction

/-- `MAX_TRANSPORT_OPTIONS_BYTES`. -/
abbrev MAX_TRANSPORT_OPTIONS_BYTES : ℕ := 768

/-- `TransportStatusEnum`. -/
inductive TransportStatus where
  | active
  | inactive
  deriving DecidableEq

def TransportStatus.toByte : TransportStatus → BitVec 8
  | active => 0
  | inactive => 1

/-- `PushConnection`. -/
structure PushConnection where
  connectionId : BitVec 16
  fabricIndex : BitVec 8
  status : TransportStatus
  /-- what the peer has asked for, as it was written -/
  transportOptions : HVec UInt8 MAX_TRANSPORT_OPTIONS_BYTES
  deriving DecidableEq

structure State (NC : ℕ) where
  connections : HVec PushConnection NC
  nextId : BitVec 16

/-! ## What a peer asks for -/

/-- `TransportOptionsStruct::url`. -/
def url (options : List UInt8) : Except (Stop ErrorCode) (List UInt8) := do
  let elem ← lift (TLVElement.member 4 options)
  if elem.isEmpty then .error (.error .notFound) else Panicking.utf8 elem

def checkUrl (options : List UInt8) : Except (Stop ErrorCode) Unit := do
  let url ← url options
  if url.isEmpty then .error (.error .constraintError) else return ()

/-- `capture_options`. -/
def captureOptions (options : List UInt8) :
    Except (Stop ErrorCode) (HVec UInt8 MAX_TRANSPORT_OPTIONS_BYTES) := do
  let wb ← lift (TLVElement.toTlv ⟨[], MAX_TRANSPORT_OPTIONS_BYTES⟩ .anonymous options)
  HVec.tryFrom wb.data .resourceExhausted

/-- `write_connection`. -/
def writeConnection (wb : WriteBuf) (tag : TLVTag) (c : PushConnection) : Except ErrorCode WriteBuf := do
  let wb ← wb.startStruct tag
  let wb ← wb.u16 (.context 0) c.connectionId
  let wb ← wb.u8 (.context 1) c.status.toByte
  let wb ← if c.transportOptions.1.isEmpty then .ok wb
    else TLVElement.toTlv wb (.context 2) c.transportOptions.1
  let wb ← wb.u8 (.context 254) c.fabricIndex
  wb.endContainer

/-! ## Commands -/

/-- What is asked for, by a fabric. A field is decoded when it is asked for. -/
inductive Command where
  | allocatePushTransport (fabIdx : BitVec 8) (transportOptions : Except ErrorCode (List UInt8))
  | deallocatePushTransport (fabIdx : BitVec 8) (connectionId : Except ErrorCode (BitVec 16))
  | modifyPushTransport (fabIdx : BitVec 8) (connectionId : Except ErrorCode (BitVec 16))
    (transportOptions : Except ErrorCode (List UInt8))
  | setTransportStatus (fabIdx : BitVec 8) (connectionId : Except ErrorCode (Option (BitVec 16)))
    (transportStatus : Except ErrorCode TransportStatus)
  | manuallyTriggerTransport (fabIdx : BitVec 8) (connectionId : Except ErrorCode (BitVec 16))
    (details : Except ErrorCode Unit)
  | findTransport (fabIdx : BitVec 8) (connectionId : Except ErrorCode (Option (BitVec 16)))

def Command.fabIdx : Command → BitVec 8
  | allocatePushTransport fabIdx .. | deallocatePushTransport fabIdx .. | modifyPushTransport fabIdx ..
  | setTransportStatus fabIdx .. | manuallyTriggerTransport fabIdx .. | findTransport fabIdx .. => fabIdx

/-- What a command waits for: a call of the application. Beside what the application is told there is
what the command goes on with. -/
inductive Task where
  | onAllocate (fabIdx : BitVec 8) (connectionId : BitVec 16) (request : List UInt8)
    (storedOptions : HVec UInt8 MAX_TRANSPORT_OPTIONS_BYTES)
  | onDeallocate (fabIdx : BitVec 8) (connectionId : BitVec 16)
  | onModify (fabIdx : BitVec 8) (connectionId : BitVec 16) (request : List UInt8)
    (storedOptions : HVec UInt8 MAX_TRANSPORT_OPTIONS_BYTES)
  | onSetStatus (fabIdx : BitVec 8) (connectionId : Option (BitVec 16)) (status : TransportStatus)
  | onManuallyTrigger (fabIdx : BitVec 8) (connectionId : BitVec 16)
  /-- `on_deallocate` for a connection that found no room -/
  | tidyUp (fabIdx : BitVec 8) (connectionId : BitVec 16)
  deriving DecidableEq

namespace Task

def fabIdx : Task → BitVec 8
  | onAllocate fabIdx .. | onDeallocate fabIdx .. | onModify fabIdx .. | onSetStatus fabIdx ..
  | onManuallyTrigger fabIdx .. | tidyUp fabIdx .. => fabIdx

/-- The connection that the application is told; without one, it is all. -/
def connectionId? : Task → Option (BitVec 16)
  | onAllocate _ id .. | onDeallocate _ id | onModify _ id .. | onManuallyTrigger _ id | tidyUp _ id => some id
  | onSetStatus _ id _ => id

/-- The call names a connection, or covers it by omission. -/
def covers (t : Task) (c : PushConnection) : Bool := t.connectionId?.all (· == c.connectionId)

end Task

/-- What follows: a wait, an answer with connections, or the end. -/
inductive Next where
  | wait (t : Task)
  | configurations (cs : List PushConnection)
  | done
  deriving DecidableEq

def Next.task? : Next → Option Task
  | wait t => some t
  | configurations _ | done => none

namespace State

variable {NC : ℕ}

def new : State NC := ⟨.new, 1⟩

def nextConnectionId (s : State NC) : BitVec 16 := if s.nextId = 0 then 1 else s.nextId

/-- `alloc_id`. -/
def allocId : Prog (Stop ErrorCode) (State NC) (BitVec 16) := do
  let s ← Prog.get
  let id := s.nextConnectionId
  Prog.modify fun s => { s with nextId := if id + 1 = 0 then 1 else id + 1 }
  return id

/-- The connection is there, and it is one of this fabric. -/
def owns (s : State NC) (fabIdx : BitVec 8) (id : BitVec 16) : Bool :=
  s.connections.1.any fun c => c.connectionId == id && c.fabricIndex == fabIdx

/-- The connections that a fabric reads, all of them or one. -/
def ownConnections (s : State NC) (fabIdx : BitVec 8) (id : Option (BitVec 16)) : List PushConnection :=
  s.connections.1.filter fun c => c.fabricIndex == fabIdx && id.all (· == c.connectionId)

/-- The checks of an allocation: what is stored for it. -/
def checkAllocate (s : State NC) (transportOptions : Except ErrorCode (List UInt8)) :
    Except (Stop ErrorCode) (List UInt8 × HVec UInt8 MAX_TRANSPORT_OPTIONS_BYTES) := do
  let options ← lift transportOptions
  checkUrl options
  if NC ≤ s.connections.1.length then .error (.error .resourceExhausted)
  else do
    let storedOptions ← captureOptions options
    return (options, storedOptions)

/-- `handle_allocate_push_transport`, up to the wait. -/
def handleAllocatePushTransport (fabIdx : BitVec 8) (transportOptions : Except ErrorCode (List UInt8)) :
    Prog (Stop ErrorCode) (State NC) Next := do
  let s ← Prog.get
  let (options, storedOptions) ← Prog.ofExcept (s.checkAllocate transportOptions)
  let connectionId ← allocId
  return .wait (.onAllocate fabIdx connectionId options storedOptions)

/-- `handle_deallocate_push_transport`, up to the wait. -/
def handleDeallocatePushTransport (s : State NC) (fabIdx : BitVec 8)
    (connectionId : Except ErrorCode (BitVec 16)) : Except (Stop ErrorCode) Next := do
  let connectionId ← lift connectionId
  if s.owns fabIdx connectionId then return .wait (.onDeallocate fabIdx connectionId)
  else .error (.error .notFound)

/-- `handle_modify_push_transport`, up to the wait. -/
def handleModifyPushTransport (s : State NC) (fabIdx : BitVec 8)
    (connectionId : Except ErrorCode (BitVec 16)) (transportOptions : Except ErrorCode (List UInt8)) :
    Except (Stop ErrorCode) Next := do
  let connectionId ← lift connectionId
  let options ← lift transportOptions
  checkUrl options
  if s.owns fabIdx connectionId then do
    let storedOptions ← captureOptions options
    return .wait (.onModify fabIdx connectionId options storedOptions)
  else .error (.error .notFound)

/-- `handle_set_transport_status`, up to the wait. -/
def handleSetTransportStatus (s : State NC) (fabIdx : BitVec 8)
    (connectionId : Except ErrorCode (Option (BitVec 16)))
    (transportStatus : Except ErrorCode TransportStatus) : Except (Stop ErrorCode) Next := do
  let connectionId ← lift connectionId
  let status ← lift transportStatus
  if connectionId.all (s.owns fabIdx) then return .wait (.onSetStatus fabIdx connectionId status)
  else .error (.error .notFound)

/-- `handle_manually_trigger_transport`, up to the wait. -/
def handleManuallyTriggerTransport (s : State NC) (fabIdx : BitVec 8)
    (connectionId : Except ErrorCode (BitVec 16)) (details : Except ErrorCode Unit) :
    Except (Stop ErrorCode) Next := do
  let connectionId ← lift connectionId
  lift details
  if s.owns fabIdx connectionId then return .wait (.onManuallyTrigger fabIdx connectionId)
  else .error (.error .notFound)

/-- `handle_find_transport`. -/
def handleFindTransport (s : State NC) (fabIdx : BitVec 8)
    (connectionId : Except ErrorCode (Option (BitVec 16))) : Except (Stop ErrorCode) Next := do
  let connectionId ← lift connectionId
  let snapshot := s.ownConnections fabIdx connectionId
  if snapshot.isEmpty then .error (.error .notFound) else return .configurations snapshot

def looking (f : State NC → Except (Stop ErrorCode) Next) : Prog (Stop ErrorCode) (State NC) Next := do
  let s ← Prog.get
  Prog.ofExcept (f s)

def start : Command → Prog (Stop ErrorCode) (State NC) Next
  | .allocatePushTransport fabIdx transportOptions => handleAllocatePushTransport fabIdx transportOptions
  | .deallocatePushTransport fabIdx connectionId =>
    looking (handleDeallocatePushTransport · fabIdx connectionId)
  | .modifyPushTransport fabIdx connectionId transportOptions =>
    looking (handleModifyPushTransport · fabIdx connectionId transportOptions)
  | .setTransportStatus fabIdx connectionId transportStatus =>
    looking (handleSetTransportStatus · fabIdx connectionId transportStatus)
  | .manuallyTriggerTransport fabIdx connectionId details =>
    looking (handleManuallyTriggerTransport · fabIdx connectionId details)
  | .findTransport fabIdx connectionId => looking (handleFindTransport · fabIdx connectionId)

/-- The error of the application, as the peer gets it. -/
def ofHook : Except PushAvError Unit → Except (Stop ErrorCode) Unit
  | .ok () => .ok ()
  | .error e => .error (.error e.toError)

/-- The rest of `handle_allocate_push_transport`. The answer is made from the last connection. -/
def finishAllocate (c : PushConnection) : Prog (Stop ErrorCode) (State NC) Next := do
  let s ← Prog.get
  match s.connections.push c .resourceExhausted with
  | .error _ => return .wait (.tidyUp c.fabricIndex c.connectionId)
  | .ok connections => do
    Prog.modify fun s => { s with connections }
    let s ← Prog.get
    match s.connections.1.getLast? with
    | some snapshot => return .configurations [snapshot]
    | none => Prog.throw (.error .failure)

def deallocated (s : State NC) (fabIdx : BitVec 8) (id : BitVec 16) : State NC :=
  { s with connections := ⟨s.connections.1.filter fun c => !(c.connectionId == id && c.fabricIndex == fabIdx),
    Nat.le_trans (List.length_filter_le _ _) s.connections.2⟩ }

/-- The connections with new options for one of a fabric. -/
def modified (s : State NC) (fabIdx : BitVec 8) (id : BitVec 16)
    (storedOptions : HVec UInt8 MAX_TRANSPORT_OPTIONS_BYTES) : State NC :=
  match s.connections.1.findIdx? fun c => c.connectionId == id && c.fabricIndex == fabIdx with
  | some i => { s with connections := ⟨s.connections.1.modify i ({ · with transportOptions := storedOptions }), by
      rw [List.length_modify]; exact s.connections.2⟩ }
  | none => s

/-- The connections with a new status for one of a fabric, or all. -/
def withStatus (s : State NC) (fabIdx : BitVec 8) (id : Option (BitVec 16)) (status : TransportStatus) :
    State NC :=
  { s with connections := ⟨s.connections.1.map fun c =>
      if c.fabricIndex == fabIdx && id.all (· == c.connectionId) then { c with status } else c, by
    rw [List.length_map]; exact s.connections.2⟩ }

def resume : Task → Except PushAvError Unit → Prog (Stop ErrorCode) (State NC) Next
  | .onAllocate fabIdx connectionId _ storedOptions, r => do
    Prog.ofExcept (ofHook r)
    finishAllocate ⟨connectionId, fabIdx, .inactive, storedOptions⟩
  | .onDeallocate fabIdx connectionId, r => do
    Prog.ofExcept (ofHook r)
    Prog.modify (deallocated · fabIdx connectionId)
    return .done
  | .onModify fabIdx connectionId _ storedOptions, r => do
    Prog.ofExcept (ofHook r)
    Prog.modify (modified · fabIdx connectionId storedOptions)
    return .done
  | .onSetStatus fabIdx connectionId status, r => do
    Prog.ofExcept (ofHook r)
    Prog.modify (withStatus · fabIdx connectionId status)
    return .done
  | .onManuallyTrigger _ _, r => do
    Prog.ofExcept (ofHook r)
    return .done
  | .tidyUp _ _, _ => Prog.throw (.error .resourceExhausted)

/-- `current_connections`: what a fabric reads, filtered or not. -/
def currentConnections (s : State NC) (fabFilter : Bool) (fabIdx : BitVec 8) : List PushConnection :=
  s.connections.1.filter fun c => !fabFilter || c.fabricIndex == fabIdx

end State

/-! ## What was written -/

/-- The connections, and what was written for each of them last. -/
structure Traced (NC : ℕ) where
  state : State NC
  written : BitVec 16 → List UInt8

namespace Traced

variable {NC : ℕ}

def new : Traced NC := ⟨.new, fun _ => []⟩

/-- What the rest of a command has written, if it succeeds and the connection is there. -/
def noteResume (before : State NC) (written : BitVec 16 → List UInt8) :
    Task → Except (Stop ErrorCode) Next → BitVec 16 → List UInt8
  | .onAllocate _ id request _, .ok (.configurations _) => Function.update written id request
  | .onModify fabIdx id request _, .ok _ =>
    if before.owns fabIdx id then Function.update written id request else written
  | _, _ => written

def task? : Except (Stop ErrorCode) Next → Option Task
  | .ok next => next.task?
  | .error _ => none

def start (s : Traced NC) (c : Command) : Option (Traced NC × Option Task) :=
  let (state, r) := (State.start c).run s.state
  some ({ s with state }, task? r)

def resume (s : Traced NC) (t : Task) (o : Except PushAvError Unit) : Option (Traced NC × Option Task) :=
  let (state, r) := (State.resume t o).run s.state
  some (⟨state, noteResume s.state s.written t r⟩, task? r)

def program (NC : ℕ) : Suspending (Traced NC) Command Task (Except PushAvError Unit) := ⟨start, resume⟩

end Traced

end PushAv

end RsMatter
