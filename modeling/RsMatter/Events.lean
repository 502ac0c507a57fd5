import RsMatter.TlvAccess
import RsMatter.Prog
import RsMatter.Machine

/-!
# The event queue (`dm/events.rs`, `im/event.rs`)

Three equally large buffers hold the published events as TLV, one behind the other. Every
event is written to the end of the debug buffer, byte by byte; where there is no room, the
oldest event of the buffer makes way, and moves on to the next buffer if its priority is
high enough, where the oldest event may have to make way in turn. A push that fails takes
its own bytes back.

The functions that panic on bytes they cannot parse, and the loops that make room, are
modelled with that outcome (`Fault`): a loop that would go on forever runs out of fuel.
-/

namespace RsMatter

namespace Events

inductive Fault where
  | error (code : ErrorCode)
  /-- it panics: an assertion or an `unwrap` -/
  | panic
  | diverges
  deriving DecidableEq

/-- `unwrap!`. -/
def unwrap {α : Type} : Except ErrorCode α → Except Fault α
  | .ok a => .ok a
  | .error _ => .error .panic

/-! ## Events on the wire (`im/event.rs`) -/

/-- The priority of an event, and the buffer for it. -/
inductive EventPriority where
  | debug
  | info
  | critical
  deriving DecidableEq

namespace EventPriority

def toU8 : EventPriority → BitVec 8
  | debug => 0
  | info => 1
  | critical => 2

def next : EventPriority → Option EventPriority
  | debug => some info
  | info => some critical
  | critical => none

def prev : EventPriority → Option EventPriority
  | debug => none
  | info => some debug
  | critical => some info

def fromTlv (elem : List UInt8) : Except ErrorCode EventPriority := do
  let v ← TLVElement.u8 elem
  if v = 0 then return debug
  else if v = 1 then return info
  else if v = 2 then return critical
  else .error .invalid

end EventPriority

inductive EventDataTimestamp where
  | epochTimestamp (ts : BitVec 64)
  | systemTimestamp (ts : BitVec 64)
  | deltaEpochTimestamp (ts : BitVec 64)
  | deltaSystemTimestamp (ts : BitVec 64)
  deriving DecidableEq

namespace EventDataTimestamp

def tag : EventDataTimestamp → BitVec 8
  | epochTimestamp _ => 3
  | systemTimestamp _ => 4
  | deltaEpochTimestamp _ => 5
  | deltaSystemTimestamp _ => 6

def ts : EventDataTimestamp → BitVec 64
  | epochTimestamp ts | systemTimestamp ts | deltaEpochTimestamp ts | deltaSystemTimestamp ts => ts

end EventDataTimestamp

structure EventPath where
  node : Option (BitVec 64)
  endpoint : Option EndptId
  cluster : Option ClusterId
  event : Option (BitVec 32)
  isUrgent : Option Bool
  deriving DecidableEq

def EventPath.fromTlv (elem : List UInt8) : Except ErrorCode EventPath := do
  let seq ← TLVElement.list elem
  let (elem, seq) ← TLVSequence.scanCtx 0 seq
  let node ← optionFromTlv TLVElement.u64 elem
  let (elem, seq) ← TLVSequence.scanCtx 1 seq
  let endpoint ← optionFromTlv TLVElement.u16 elem
  let (elem, seq) ← TLVSequence.scanCtx 2 seq
  let cluster ← optionFromTlv TLVElement.u32 elem
  let (elem, seq) ← TLVSequence.scanCtx 3 seq
  let event ← optionFromTlv TLVElement.u32 elem
  let (elem, _) ← TLVSequence.scanCtx 4 seq
  let isUrgent ← optionFromTlv TLVElement.bool elem
  return ⟨node, endpoint, cluster, event, isUrgent⟩

structure EventData where
  path : EventPath
  eventNumber : BitVec 64
  priority : EventPriority
  timestamp : EventDataTimestamp
  /-- the element with the data, with anything behind -/
  data : List UInt8
  deriving DecidableEq

namespace EventData

structure Fields where
  path : Option EventPath
  eventNumber : Option (BitVec 64)
  priority : Option EventPriority
  timestamp : Option EventDataTimestamp
  data : Option (List UInt8)

def readField (fields : Fields) (el : List UInt8) : Except ErrorCode Fields := do
  let tag ← TLVElement.tag el
  match tag with
  | .context tag =>
    if tag = 0 then do
      let path ← EventPath.fromTlv el
      return { fields with path := some path }
    else if tag = 1 then do
      let eventNumber ← TLVElement.u64 el
      return { fields with eventNumber := some eventNumber }
    else if tag = 2 then do
      let priority ← EventPriority.fromTlv el
      return { fields with priority := some priority }
    else if tag = 3 then do
      let ts ← TLVElement.u64 el
      return { fields with timestamp := some (.epochTimestamp ts) }
    else if tag = 4 then do
      let ts ← TLVElement.u64 el
      return { fields with timestamp := some (.systemTimestamp ts) }
    else if tag = 5 then do
      let ts ← TLVElement.u64 el
      return { fields with timestamp := some (.deltaEpochTimestamp ts) }
    else if tag = 6 then do
      let ts ← TLVElement.u64 el
      return { fields with timestamp := some (.deltaSystemTimestamp ts) }
    else if tag = 7 then return { fields with data := some el }
    else .error .invalid
  | _ => .error .invalid

/-- Read the fields of a structure in the order in which they come. -/
def readFields : ℕ → Fields → List UInt8 → Except ErrorCode Fields
  | 0, _, _ => .error .tlvTypeMismatch
  | fuel + 1, fields, seq => do
    let (elem, rest) ← TLVSequence.iterNext seq
    match elem with
    | none => return fields
    | some el => do
      let fields ← readField fields el
      readFields fuel fields rest

def fromTlv (elem : List UInt8) : Except ErrorCode EventData := do
  let seq ← TLVElement.structure elem
  let fields ← readFields (seq.length + 1) ⟨none, none, none, none, none⟩ seq
  match fields.path, fields.eventNumber, fields.priority, fields.timestamp, fields.data with
  | some path, some eventNumber, some priority, some timestamp, some data =>
    return ⟨path, eventNumber, priority, timestamp, data⟩
  | _, _, _, _, _ => .error .invalid

end EventData

structure Event where
  endpoint : EndptId
  cluster : ClusterId
  event : BitVec 32
  number : BitVec 64
  priority : EventPriority
  timestamp : EventDataTimestamp
  data : TLVTree LeafCall

namespace Event

/-- The path, a list of the fields that are there. -/
def path (e : Event) : TLVTree LeafCall :=
  .node (.context 0) .list
    [.leaf (.context 1) (.u16 e.endpoint), .leaf (.context 2) (.u32 e.cluster),
      .leaf (.context 3) (.u32 e.event)]

def header (e : Event) : List (TLVTree LeafCall) :=
  [e.path, .leaf (.context 1) (.u64 e.number), .leaf (.context 2) (.u8 e.priority.toU8),
    .leaf (.context e.timestamp.tag) (.u64 e.timestamp.ts)]

def tree (e : Event) : TLVTree LeafCall :=
  .node (.context 1) .struct (e.header ++ [e.data])

def bytes (e : Event) : List UInt8 := e.tree.bytes

/-- What `write_preamble` writes: the start of the structure and the fields before the
data. -/
def preamble (e : Event) : List UInt8 :=
  elemBytes (.context 1) .struct ++ bytesMembers e.header

end Event

def encoded (es : List Event) : List UInt8 := es.flatMap Event.bytes

/-! ## One buffer -/

/-- A buffer of `N` bytes: the bytes up to the write head. -/
structure EventsBuf (N : ℕ) where
  data : List UInt8
  le : data.length ≤ N
  deriving DecidableEq

namespace EventsBuf

variable {N : ℕ}

def new : EventsBuf N := ⟨[], Nat.zero_le N⟩

def capacity (b : EventsBuf N) : ℕ := N - b.data.length

def rewindBy (b : EventsBuf N) (bytesWritten : ℕ) : Except Fault (EventsBuf N) :=
  if bytesWritten ≤ b.data.length then
    .ok ⟨b.data.take (b.data.length - bytesWritten), (List.length_take_le' ..).trans b.le⟩
  else .error .panic

def slice (b : EventsBuf N) (len : ℕ) : Except Fault (List UInt8) :=
  if len ≤ b.data.length then .ok (b.data.take len) else .error .panic

def appendSlice (b : EventsBuf N) (data : List UInt8) : Option (EventsBuf N) :=
  if h : data.length ≤ b.capacity then
    some ⟨b.data ++ data, by
      have := b.le
      rw [capacity] at h
      rw [List.length_append]
      omega⟩
  else none

def append (b : EventsBuf N) (byte : UInt8) : Option (EventsBuf N) := b.appendSlice [byte]

def firstEventLen (b : EventsBuf N) : Except Fault ℕ :=
  if 0 < b.data.length then unwrap (TLVSequence.containerLen b.data) else .error .panic

def firstEventPrio (b : EventsBuf N) : Except Fault (BitVec 8) := do
  let seq ← unwrap (TLVElement.structure b.data)
  let elem ← unwrap (TLVSequence.findCtx 2 seq)
  unwrap (TLVElement.u8 elem)

def evictFirstEvent (b : EventsBuf N) : Except Fault (EventsBuf N) := do
  let tlvLen ← b.firstEventLen
  if tlvLen ≤ b.data.length then
    return ⟨b.data.drop tlvLen, (List.length_drop ▸ Nat.sub_le ..).trans b.le⟩
  else .error .panic

end EventsBuf

/-! ## The queue -/

structure EventsInner (N : ℕ) where
  bufDebug : EventsBuf N
  /-- the events of at least info priority that had to make way there -/
  bufInfo : EventsBuf N
  /-- the critical events that had to make way there -/
  bufCritical : EventsBuf N
  nextEventNumber : BitVec 64
  deriving DecidableEq

namespace EventsInner

variable {N : ℕ}

/-- The empty queue whose next event has the given number. -/
def start (N : ℕ) (first : BitVec 64) : EventsInner N := ⟨.new, .new, .new, first⟩

/-- A queue as it is created, or after `reset`. -/
def new (N : ℕ) : EventsInner N := start N 1

/-- `load_persist`: forget the events, and go on with the stored number. -/
def loadPersist (N : ℕ) (stored : Option (List UInt8)) : EventsInner N × Except ErrorCode Unit :=
  match stored with
  | none => (new N, .ok ())
  | some data =>
    match TLVElement.u64 data with
    | .ok number => (start N number, .ok ())
    | .error code => (new N, .error code)

def buf (s : EventsInner N) : EventPriority → EventsBuf N
  | .debug => s.bufDebug
  | .info => s.bufInfo
  | .critical => s.bufCritical

def setBuf (s : EventsInner N) (b : EventsBuf N) : EventPriority → EventsInner N
  | .debug => { s with bufDebug := b }
  | .info => { s with bufInfo := b }
  | .critical => { s with bufCritical := b }

/-- How many event numbers are used before the counter is stored again. -/
def eventNumberEpochSize : ℕ := 10000

/-- `wrapping_add(1).max(1)`: the number `0` is reserved. -/
def numberAfter (number : BitVec 64) : BitVec 64 := if number + 1 = 0 then 1 else number + 1

/-- `next_event_number`: draw the next event number. At the start of an epoch the counter is stored, which may
fail. -/
def drawEventNumber (stored : Except ErrorCode Unit) :
    Prog ErrorCode (EventsInner N) (BitVec 64) := do
  let s ← Prog.get
  let eventNumber := s.nextEventNumber
  Prog.onlyIf (eventNumber = 1 ∨ eventNumber.toNat % eventNumberEpochSize = 0)
    (Prog.ofExcept stored)
  Prog.modify fun s => { s with nextEventNumber := numberAfter eventNumber }
  return eventNumber

/-- The iterator from the events of one buffer on: critical, info, debug. -/
def iterFrom (s : EventsInner N) : ℕ → EventPriority → List UInt8 → Except Fault (List EventData)
  | 0, _, _ => .error .diverges
  | fuel + 1, bufRef, seq => do
    let (elem, rest) ← unwrap (TLVSequence.iterNext seq)
    match elem with
    | some elem => do
      let event ← unwrap (EventData.fromTlv elem)
      let events ← iterFrom s fuel bufRef rest
      return event :: events
    | none =>
      match bufRef.prev with
      | some prev => iterFrom s fuel prev (s.buf prev).data
      | none => return []

def iter (s : EventsInner N) : Except Fault (List EventData) :=
  iterFrom s (3 * (N + 1)) .critical s.bufCritical.data

end EventsInner

/-! ## Writing an event -/

structure EventWriter (N : ℕ) where
  events : EventsInner N
  /-- how many bytes of the event there are -/
  bytesWritten : ℕ

namespace EventWriter

variable {N : ℕ}

def ask {α : Type} (bufRef : EventPriority) (f : EventsBuf N → Except Fault α) :
    Prog Fault (EventWriter N) α := fun w => (w, f (w.events.buf bufRef))

def change (bufRef : EventPriority) (f : EventsBuf N → Except Fault (EventsBuf N)) :
    Prog Fault (EventWriter N) Unit := fun w =>
  match f (w.events.buf bufRef) with
  | .ok b => ({ w with events := w.events.setBuf b bufRef }, .ok ())
  | .error fault => (w, .error fault)

/-- The loop of `promote`: make the oldest events of a buffer give way until `len` bytes
fit. -/
def makeSpace (evictOne : Prog Fault (EventWriter N) Unit) (bufRef : EventPriority) (len : ℕ) :
    ℕ → Prog Fault (EventWriter N) Unit
  | 0 => Prog.throw .diverges
  | fuel + 1 => do
    let w ← Prog.get
    Prog.onlyIf ((w.events.buf bufRef).capacity < len) do
      evictOne
      makeSpace evictOne bufRef len fuel

/-- Copy the first event of one buffer to the end of the next. -/
def promote (evictDst : Prog Fault (EventWriter N) Unit) (srcBuf dstBuf : EventPriority)
    (eventLen : ℕ) : Prog Fault (EventWriter N) Unit := do
  makeSpace evictDst dstBuf eventLen (N + 1)
  let event ← ask srcBuf fun src => src.slice eventLen
  change dstBuf fun dst =>
    match dst.appendSlice event with
    | some dst => .ok dst
    | none => .error .panic

/-- Make the oldest event of a buffer give way, to a depth of `depth` buffers. -/
def evict : ℕ → EventPriority → Prog Fault (EventWriter N) Unit
  | 0, _ => Prog.throw .diverges
  | depth + 1, bufRef => do
    let eventLen ← ask bufRef EventsBuf.firstEventLen
    Prog.whenSome bufRef.next fun nextBufRef => do
      let eventPrio ← ask bufRef EventsBuf.firstEventPrio
      Prog.onlyIf (nextBufRef.toU8 ≤ eventPrio)
        (promote (evict depth nextBufRef) bufRef nextBufRef eventLen)
    change bufRef EventsBuf.evictFirstEvent

/-- The loop of `write`: append a byte to the debug buffer, once there is room. -/
def appendByte (byte : UInt8) : ℕ → Prog Fault (EventWriter N) Unit
  | 0 => Prog.throw .diverges
  | fuel + 1 => fun w =>
    match w.events.bufDebug.append byte with
    | some b => ({ w with events := { w.events with bufDebug := b } }, .ok ())
    | none => (do evict 3 .debug; appendByte byte fuel : Prog Fault (EventWriter N) Unit).run w

/-- Write one byte of the event. Nothing is written to a queue without buffers. -/
def write (byte : UInt8) : Prog Fault (EventWriter N) Unit :=
  if N = 0 then pure ()
  else do
    let w ← Prog.get
    Prog.ensure (w.bytesWritten ≠ N) (.error .resourceExhausted)
    appendByte byte (N + 1)
    Prog.modify fun w => { w with bytesWritten := w.bytesWritten + 1 }

/-- Take back what was written after the first `pos` bytes. -/
def rewindTo (pos : ℕ) : Prog Fault (EventWriter N) Unit := do
  let w ← Prog.get
  Prog.ensure (pos ≤ w.bytesWritten) .panic
  change .debug fun b => b.rewindBy (w.bytesWritten - pos)
  Prog.modify fun w => { w with bytesWritten := pos }

end EventWriter

/-! ## Pushing an event -/

/-- A program that writes through `EventTLVWrite`: what it does with the writer, one call
after the other, each depending on what the calls before it returned. -/
inductive Emit where
  | done (result : Except ErrorCode Unit)
  | write (byte : UInt8) (k : Except ErrorCode Unit → Emit)
  | getTail (k : ℕ → Emit)
  | rewindTo (pos : ℕ) (k : Emit)

namespace Emit

/-- Write bytes one by one, up to the first that fails. -/
def writeAll : List UInt8 → Emit
  | [] => .done (.ok ())
  | byte :: bytes =>
    .write byte fun
      | .ok () => writeAll bytes
      | .error code => .done (.error code)

def andThen : Emit → Emit → Emit
  | .done (.ok ()), q => q
  | .done (.error code), _ => .done (.error code)
  | .write byte k, q => .write byte fun r => (k r).andThen q
  | .getTail k, q => .getTail fun pos => (k pos).andThen q
  | .rewindTo pos k, q => .rewindTo pos (k.andThen q)

def exec {N : ℕ} : Emit → Prog Fault (EventWriter N) Unit
  | .done (.ok ()) => pure ()
  | .done (.error code) => Prog.throw (.error code)
  | .write byte k => fun w =>
    match (EventWriter.write byte).run w with
    | (w, .ok ()) => (k (.ok ())).exec.run w
    | (w, .error (.error code)) => (k (.error code)).exec.run w
    | (w, .error fault) => (w, .error fault)
  | .getTail k => fun w => (k w.bytesWritten).exec.run w
  | .rewindTo pos k => do
    EventWriter.rewindTo pos
    k.exec

/-- Run the program on an empty writer that takes `N` bytes and holds `w`: what it holds
afterwards, and the result; `none` if the program rewinds to where it has not been. A writer
for no bytes takes all of them and holds none. -/
def plain (N : ℕ) : Emit → List UInt8 → Option (List UInt8 × Except ErrorCode Unit)
  | .done result, w => some (w, result)
  | .write byte k, w =>
    if N = 0 then (k (.ok ())).plain N w
    else if w.length = N then (k (.error .resourceExhausted)).plain N w
    else (k (.ok ())).plain N (w ++ [byte])
  | .getTail k, w => (k w.length).plain N w
  | .rewindTo pos k, w => if pos ≤ w.length then k.plain N (w.take pos) else none

end Emit

/-- The closure that `push` is given: it writes the event data using TLV encoding, with the
tag of the data, and returns an error if writing fails. What it writes may depend on the
room there is. -/
structure DataWriter where
  emit : Emit
  /-- the data that it writes to a writer that takes `N` bytes and holds some already -/
  data : ℕ → List UInt8 → TLVTree LeafCall
  tag_data : ∀ N w, (data N w).tag = .context 7
  /-- it rewinds only to where it has been, and writes the data if it succeeds -/
  writes : ∀ N w, w.length ≤ N → ∃ w' r, emit.plain N w = some (w', r) ∧
    (N ≠ 0 → r = .ok () → w' = w ++ (data N w).bytes)

/-- What `Events::push` is called with, and the outcome of storing the event counter. -/
structure Push where
  endpoint : EndptId
  cluster : ClusterId
  event : BitVec 32
  priority : EventPriority
  timestamp : EventDataTimestamp
  f : DataWriter
  /-- the outcome of storing the counter, where that is due -/
  stored : Except ErrorCode Unit

/-- The event that a push publishes under a number, but for the data. -/
def Push.header (p : Push) (number : BitVec 64) (data : TLVTree LeafCall) : Event :=
  ⟨p.endpoint, p.cluster, p.event, number, p.priority, p.timestamp, data⟩

/-- What a push writes before the data; it does not depend on the data. -/
def Push.preamble (p : Push) (number : BitVec 64) : List UInt8 :=
  (p.header number (.leaf .anonymous .null)).preamble

/-- The event that a push publishes under a number. -/
def Push.toEvent (N : ℕ) (p : Push) (number : BitVec 64) : Event :=
  p.header number (p.f.data N (p.preamble number))

namespace EventsInner

variable {N : ℕ}

/-- Write an event, or take back what was written of it. -/
def push (p : Push) (number : BitVec 64) (s : EventsInner N) :
    EventsInner N × Except Fault Unit :=
  let body := (Emit.writeAll (p.preamble number)).andThen
    (p.f.emit.andThen (Emit.writeAll (elemBytes .anonymous .endCnt)))
  match body.exec.run (⟨s, 0⟩ : EventWriter N) with
  | (w, .ok ()) => (w.events, .ok ())
  | (w, .error (.error code)) =>
    match (EventWriter.rewindTo 0).run w with
    | (w, .ok ()) => (w.events, .error (.error code))
    | (w, .error fault) => (w.events, .error fault)
  | (w, .error fault) => (w.events, .error fault)

end EventsInner

/-! ## Runs of pushes -/

/-- The queue with the history of what was pushed since it was empty. -/
structure Log (N : ℕ) where
  inner : EventsInner N
  /-- the events whose push succeeded, in their order -/
  pushed : List Event

def Log.start (N : ℕ) (first : BitVec 64) : Log N := ⟨.start N first, []⟩

/-- `Events::push`: draw a number, write the event. What `persist.run` returns at the end
does not concern the queue. A push that panics or never ends is no step. -/
def machine (N : ℕ) : Machine (Log N) Push where
  step s p :=
    match (EventsInner.drawEventNumber p.stored).run s.inner with
    | (inner, .error _) => some ⟨inner, s.pushed⟩
    | (inner, .ok number) =>
      match inner.push p number with
      | (inner, .ok ()) => some ⟨inner, s.pushed ++ [p.toEvent N number]⟩
      | (inner, .error (.error _)) => some ⟨inner, s.pushed⟩
      | (_, .error _) => none

end Events

end RsMatter
