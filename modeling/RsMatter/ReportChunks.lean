import RsMatter.TlvRoundTrip

/-!
# Reports in chunks (`dm.rs`, `ReportDataResponder`)

A report is written into the transmit buffer, one attribute after the other and one event after
the other. What does not fit any more has the buffer sent as a chunk, and is tried again in the
next one. A list that does not fit is sent as an empty list and its items, one by one.

What a handler writes for an attribute is given (`Report`): the elements, and how much room it
needs on the way. The peer answers every chunk with success. A loop that goes on forever runs out
of fuel; it does if something does not fit into an empty chunk, which is tried again and again.
-/

namespace RsMatter

structure Report where
  trees : List (TLVTree LeafCall)
  /-- how much room is needed to get to the end -/
  need : ℕ
  length_le : (bytesMembers trees).length ≤ need

namespace Report

def bytes (r : Report) : List UInt8 := bytesMembers r.trees

/-- Have the handler write; what it wrote before it failed is taken back. -/
def read (r : Report) (wb : WriteBuf) : Except ErrorCode WriteBuf :=
  if r.need ≤ wb.room then writeMembers wb r.trees else .error .noSpace

variable {r : Report} {wb : WriteBuf}

theorem read_ok (h : r.need ≤ wb.room) : r.read wb = .ok (wb.push r.bytes) := by
  rw [read, if_pos h, writeMembers_eq]
  exact WriteBuf.writeRawData_ok (r.length_le.trans h)

theorem read_error (h : ¬ r.need ≤ wb.room) : r.read wb = .error .noSpace := if_neg h

end Report

structure ListAttr where
  whole : Report
  empty : Report
  items : List Report
  /-- how much room is needed to find that there is no such item -/
  endNeed : ℕ

def ListAttr.readAt (l : ListAttr) (index : Option ℕ) (wb : WriteBuf) : Except ErrorCode WriteBuf :=
  match index with
  | none => l.empty.read wb
  | some i =>
    match l.items[i]? with
    | some item => item.read wb
    | none => if l.endNeed ≤ wb.room then .error .constraintError else .error .noSpace

inductive AttrItem where
  /-- an attribute that is not a list, one item of a list, or a status -/
  | single (report : Report)
  | list (attr : ListAttr)

/-- An event of the queue; what there is to report of it, if it is asked for. -/
structure StoredEvent where
  number : ℕ
  report : Option Report

inductive ReportDataChunkState where
  | chunkingAttributes
  | chunkingEvents
  | done
  deriving DecidableEq

/-- The room that is kept for closing what is open. -/
def longReadsTlvReserveSize : ℕ := 24

def ReportDataRespTag.subscriptionId : TLVTag := .context 0

def ReportDataRespTag.attributeReports : TLVTag := .context 1

def ReportDataRespTag.eventReports : TLVTag := .context 2

def ReportDataRespTag.moreChunkedMsgs : TLVTag := .context 3

def ReportDataRespTag.supressResponse : TLVTag := .context 4

structure ReportFrame where
  size : ℕ
  /-- the subscription, if the report is for one -/
  subscriptionId : Option (BitVec 32)
  deriving DecidableEq

structure Chunks where
  wb : WriteBuf
  sent : List (List UInt8)
  isEmpty : Bool
  deriving DecidableEq

def andThen {α β : Type} (x : Option (Except ErrorCode α))
    (k : α → Option (Except ErrorCode β)) : Option (Except ErrorCode β) :=
  match x with
  | some (.ok a) => k a
  | some (.error e) => some (.error e)
  | none => none

namespace ReportFrame

variable (f : ReportFrame)

def startReply : Except ErrorCode WriteBuf :=
  if longReadsTlvReserveSize ≤ f.size then do
    let wb : WriteBuf := ⟨[], f.size - longReadsTlvReserveSize⟩
    let wb ← wb.startStruct .anonymous
    match f.subscriptionId with
    | some id => wb.u32 ReportDataRespTag.subscriptionId id
    | none => .ok wb
  else .error .noSpace

def endReply (state : ReportDataChunkState) (suppressResp : Bool) (wb : WriteBuf) :
    Except ErrorCode WriteBuf :=
  let wb : WriteBuf := { wb with room := wb.room + longReadsTlvReserveSize }
  match state with
  | .chunkingAttributes | .chunkingEvents => do
    let wb ← wb.endContainer
    let wb ← wb.bool ReportDataRespTag.moreChunkedMsgs true
    wb.endContainer
  | .done => do
    let wb ← if suppressResp then wb.bool ReportDataRespTag.supressResponse true else .ok wb
    wb.endContainer

def send (state : ReportDataChunkState) (suppressLastResp : Bool) (s : Chunks) :
    Except ErrorCode Chunks := do
  let wb ← endReply state suppressLastResp s.wb
  let s : Chunks := { s with wb, sent := s.sent ++ [wb.data] }
  match state with
  | .chunkingAttributes => do
    let wb ← f.startReply
    let wb ← wb.startArray ReportDataRespTag.attributeReports
    .ok { s with wb }
  | .chunkingEvents => do
    let wb ← f.startReply
    let wb ← wb.startArray ReportDataRespTag.eventReports
    .ok { s with wb }
  | .done => .ok s

/-! ## The loops -/

def readLoop (r : Report) : ℕ → Chunks → Option (Except ErrorCode Chunks)
  | 0, _ => none
  | fuel + 1, s =>
    match r.read s.wb with
    | .ok wb => some (.ok { s with wb })
    | .error .noSpace =>
      match f.send .chunkingAttributes false s with
      | .ok s => readLoop r fuel s
      | .error e => some (.error e)
    | .error e => some (.error e)

/-- The index that follows, in 16 bits. -/
def nextIndex : Option ℕ → ℕ
  | none => 0
  | some i => (i + 1) % 2 ^ 16

def sendArrayItems (l : ListAttr) : ℕ → Option ℕ → Chunks → Option (Except ErrorCode Chunks)
  | 0, _, _ => none
  | fuel + 1, index, s =>
    match l.readAt index s.wb with
    | .ok wb => sendArrayItems l fuel (some (nextIndex index)) { s with wb }
    | .error .noSpace =>
      match f.send .chunkingAttributes false s with
      | .ok s => sendArrayItems l fuel index s
      | .error e => some (.error e)
    | .error .constraintError => some (.ok s)
    | .error e => some (.error e)

def reportItem (fuel : ℕ) (s : Chunks) : AttrItem → Option (Except ErrorCode Chunks)
  | .single r => f.readLoop r fuel s
  | .list l =>
    match l.whole.read s.wb with
    | .ok wb => some (.ok { s with wb })
    | .error .noSpace => f.sendArrayItems l fuel none s
    | .error e => some (.error e)

def reportItems (fuel : ℕ) : List AttrItem → Chunks → Option (Except ErrorCode Chunks)
  | [], s => some (.ok s)
  | item :: items, s =>
    andThen (f.reportItem fuel { s with isEmpty := false } item) (reportItems fuel items)

/-- Report the attributes, if there are any requests. -/
def reportAttributes (fuel : ℕ) (attrs : Option (List AttrItem)) (s : Chunks) :
    Option (Except ErrorCode Chunks) :=
  match attrs with
  | none => some (.ok s)
  | some items =>
    andThen (some (s.wb.startArray ReportDataRespTag.attributeReports)) fun wb =>
      andThen (f.reportItems fuel items { s with wb }) fun s =>
        some (s.wb.endContainer.map fun wb => { s with wb })

/-- Report on a path that there are no events for. -/
def reportStatus (r : Report) (s : Chunks) : Except ErrorCode Chunks :=
  let s : Chunks := { s with isEmpty := false }
  match r.read s.wb with
  | .ok wb => .ok { s with wb }
  | .error .noSpace => do
    let s ← f.send .chunkingEvents false s
    let wb ← r.read s.wb
    .ok { s with wb }
  | .error e => .error e

def reportStatuses : List Report → Chunks → Except ErrorCode Chunks
  | [], s => .ok s
  | r :: rs, s => do
    let s ← f.reportStatus r s
    reportStatuses rs s

/-- Go through the queue as far as there is room: is that all, and the last number seen. -/
def fetch (nextMaxSeen : ℕ) : List StoredEvent → ℕ → Chunks → Bool × ℕ × Chunks
  | [], maxSeen, s => (true, maxSeen, s)
  | e :: es, maxSeen, s =>
    if maxSeen < e.number ∧ e.number ≤ nextMaxSeen then
      match e.report with
      | none => fetch nextMaxSeen es e.number s
      | some r =>
        match r.read s.wb with
        | .ok wb => fetch nextMaxSeen es e.number { s with wb, isEmpty := false }
        | .error _ => (false, maxSeen, s)
    else fetch nextMaxSeen es maxSeen s

def eventsLoop (events : List StoredEvent) (nextMaxSeen : ℕ) :
    ℕ → ℕ → Chunks → Option (Except ErrorCode Chunks)
  | 0, _, _ => none
  | fuel + 1, maxSeen, s =>
    match fetch nextMaxSeen events maxSeen s with
    | (true, _, s) => some (.ok s)
    | (false, maxSeen, s) =>
      match f.send .chunkingEvents false s with
      | .ok s => eventsLoop events nextMaxSeen fuel maxSeen s
      | .error e => some (.error e)

end ReportFrame

structure EventRequest where
  /-- the paths that there are no events for -/
  statuses : List Report
  events : List StoredEvent
  /-- the last number that was reported before -/
  maxSeenEventNumber : ℕ
  nextMaxSeenEventNumber : ℕ

namespace ReportFrame

variable (f : ReportFrame)

/-- Report the events, if there are any requests. -/
def reportEvents (fuel : ℕ) (events : Option EventRequest) (s : Chunks) :
    Option (Except ErrorCode Chunks) :=
  match events with
  | none => some (.ok s)
  | some req =>
    andThen (some (s.wb.startArray ReportDataRespTag.eventReports)) fun wb =>
      andThen (some (f.reportStatuses req.statuses { s with wb })) fun s =>
        andThen (f.eventsLoop req.events req.nextMaxSeenEventNumber fuel req.maxSeenEventNumber s)
          fun s => some (s.wb.endContainer.map fun wb => { s with wb })

def respond (fuel : ℕ) (attrs : Option (List AttrItem)) (events : Option EventRequest)
    (suppressLastResp sendIfEmpty : Bool) : Option (Except ErrorCode Chunks) :=
  andThen (some f.startReply) fun wb =>
    andThen (f.reportAttributes fuel attrs ⟨wb, [], true⟩) fun s =>
      andThen (f.reportEvents fuel events s) fun s =>
        if sendIfEmpty || !s.isEmpty then some (f.send .done suppressLastResp s) else some (.ok s)

/-! ## Beginning and ending a chunk -/

def header : List (TLVTree LeafCall) :=
  match f.subscriptionId with
  | some id => [.leaf ReportDataRespTag.subscriptionId (.u32 id)]
  | none => []

def head : List UInt8 := elemBytes .anonymous .struct ++ bytesMembers f.header

/-- The bytes at the end of a chunk that is not the last one. -/
def more : List UInt8 :=
  elemBytes .anonymous .endCnt ++
    (elemBytes ReportDataRespTag.moreChunkedMsgs .true ++ elemBytes .anonymous .endCnt)

def room : ℕ := f.size - longReadsTlvReserveSize - f.head.length - 2

def Opens : Prop := longReadsTlvReserveSize + f.head.length + 2 ≤ f.size

def opened (tag : TLVTag) : WriteBuf := ⟨f.head ++ elemBytes tag .array, f.room⟩

variable {f}

theorem startReply_eq (h : longReadsTlvReserveSize ≤ f.size) : f.startReply =
    (⟨[], f.size - longReadsTlvReserveSize⟩ : WriteBuf).writeRawData f.head := by
  rw [startReply, if_pos h, head, WriteBuf.writeRawData_append]
  have hstruct := ContainerType.start_eq ⟨[], f.size - longReadsTlvReserveSize⟩ .anonymous .struct
  rw [ContainerType.start] at hstruct
  dsimp only
  rw [hstruct]
  refine bind_congr fun wb => ?_
  rw [header]
  cases f.subscriptionId with
  | none => rfl
  | some id =>
    rw [← writeMembers_eq]
    exact (bind_pure _).symm

theorem startArray_ok {wb : WriteBuf} {tag : BitVec 8} (h : 2 ≤ wb.room) :
    wb.startArray (.context tag) = .ok (wb.push (elemBytes (.context tag) .array)) := by
  have harray := ContainerType.start_eq wb (.context tag) .array
  rw [ContainerType.start] at harray
  rw [harray]
  exact WriteBuf.writeRawData_ok h

theorem startReply_startArray (h : f.Opens) (tag : BitVec 8) :
    (do let wb ← f.startReply; wb.startArray (.context tag)) = .ok (f.opened (.context tag)) := by
  rw [Opens] at h
  rw [startReply_eq (by omega), WriteBuf.writeRawData_ok (by dsimp only; omega), ok_bind,
    startArray_ok]
  · rw [WriteBuf.push_push, opened, WriteBuf.push, room, List.nil_append, List.length_append,
      Nat.sub_add_eq]
    rfl
  · rw [WriteBuf.room_push]
    dsimp only
    omega

theorem endReply_more {state : ReportDataChunkState} (h : state ≠ .done) (b : Bool)
    (wb : WriteBuf) :
    ∃ wb', endReply state b wb = .ok wb' ∧ wb'.data = wb.data ++ more := by
  have hok : ∀ wb : WriteBuf, longReadsTlvReserveSize ≤ wb.room →
      (do let wb ← wb.endContainer
          let wb ← wb.bool ReportDataRespTag.moreChunkedMsgs true
          wb.endContainer) = .ok (wb.push more) := by
    intro wb hroom
    have hlen : more.length ≤ wb.room := Nat.le_trans (by decide) hroom
    rw [← WriteBuf.writeRawData_ok hlen, more, WriteBuf.writeRawData_append,
      WriteBuf.endContainer_eq]
    refine bind_congr fun wb => ?_
    rw [WriteBuf.writeRawData_append, WriteBuf.bool_eq, WriteBuf.tlv_eq]
    exact bind_congr fun wb => wb.endContainer_eq
  have hok := hok { wb with room := wb.room + longReadsTlvReserveSize } (Nat.le_add_left _ _)
  refine ⟨WriteBuf.push { wb with room := wb.room + longReadsTlvReserveSize } more, ?_, rfl⟩
  cases state with
  | chunkingAttributes => exact hok
  | chunkingEvents => exact hok
  | done => exact absurd rfl h

theorem send_attributes (h : f.Opens) (s : Chunks) (b : Bool) :
    f.send .chunkingAttributes b s =
      .ok ⟨f.opened ReportDataRespTag.attributeReports, s.sent ++ [s.wb.data ++ more], s.isEmpty⟩ := by
  obtain ⟨wb, hwb, hdata⟩ := endReply_more (by decide : ReportDataChunkState.chunkingAttributes ≠ .done) b s.wb
  have hopen := startReply_startArray h 1
  rw [send, hwb, ok_bind, hdata]
  dsimp only
  cases hstart : f.startReply with
  | error e =>
    rw [hstart] at hopen
    cases hopen
  | ok wb' =>
    rw [hstart, ok_bind] at hopen
    rw [ok_bind, ReportDataRespTag.attributeReports, hopen]
    rfl

theorem send_events (h : f.Opens) (s : Chunks) (b : Bool) :
    f.send .chunkingEvents b s =
      .ok ⟨f.opened ReportDataRespTag.eventReports, s.sent ++ [s.wb.data ++ more], s.isEmpty⟩ := by
  obtain ⟨wb, hwb, hdata⟩ := endReply_more (by decide : ReportDataChunkState.chunkingEvents ≠ .done) b s.wb
  have hopen := startReply_startArray h 2
  rw [send, hwb, ok_bind, hdata]
  dsimp only
  cases hstart : f.startReply with
  | error e =>
    rw [hstart] at hopen
    cases hopen
  | ok wb' =>
    rw [hstart, ok_bind] at hopen
    rw [ok_bind, ReportDataRespTag.eventReports, hopen]
    rfl

end ReportFrame

end RsMatter
