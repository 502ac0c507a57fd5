import RsMatter.Basic
import RsMatter.Frames
import RsMatter.Machine

/-!
# Messages over TCP (`transport/network/tcp.rs`)

The node keeps a pool of connections. What comes in on a connection is collected in a buffer until
the message at its front is complete; reading goes on only while no connection has a complete
message. Messages are then taken in turn from the connections that have one.

`recv_from` waits in the middle, and what happens while it waits is up to the peers, the operating
system and the side that sends; so it is a machine here (`Receiver`), whose steps are the parts of
`wait_available` and `recv_from` that run without a break.
-/

namespace RsMatter

namespace Tcp

/-- The length in front of a message has this many bytes. -/
def frameHdrLen : ℕ := 4

def maxRxLargePacketSize : ℕ := 1024 * 1024

/-- How much of a connection is buffered at most. -/
def maxRxBufSize : ℕ := maxRxLargePacketSize + frameHdrLen

def readLen : ℕ := 4096

inductive Readiness where
  /-- so many bytes, or what is left; nothing is left of a connection that the peer has closed -/
  | data (n : ℕ)
  | wouldBlock
  | error
  deriving DecidableEq

structure TcpConnection where
  connId : ℕ
  remote : SocketAddr
  /-- what the peer sends and has not been read yet -/
  stream : List UInt8
  rxBuf : List UInt8
  deriving DecidableEq

namespace TcpConnection

/-- The length of the message at the front of the buffer, if all of it is there. -/
def hasCompleteMessage (c : TcpConnection) : Option ℕ := frameLen frameHdrLen c.rxBuf

/-- Take the message at the front of the buffer. -/
def extractMessage (msgLen : ℕ) (c : TcpConnection) : List UInt8 × TcpConnection :=
  ((c.rxBuf.drop frameHdrLen).take msgLen, { c with rxBuf := c.rxBuf.drop (frameHdrLen + msgLen) })

/-- Read what is there: how many bytes that is. A connection with too much in its buffer fails, and
so does one that the peer has closed. -/
def tryReadNonblocking (os : Readiness) (c : TcpConnection) :
    TcpConnection × Except ErrorCode ℕ :=
  if maxRxBufSize ≤ c.rxBuf.length then (c, .error .stdIoError)
  else
    match os with
    | .data n =>
      let data := c.stream.take (min n readLen)
      if data = [] then (c, .error .stdIoError)
      else
        let c := { c with stream := c.stream.drop data.length, rxBuf := c.rxBuf ++ data }
        if maxRxBufSize < c.rxBuf.length then (c, .error .stdIoError) else (c, .ok data.length)
    | .wouldBlock => (c, .ok 0)
    | .error => (c, .error .stdIoError)

end TcpConnection

structure TcpInner where
  connections : List TcpConnection
  pollIndex : ℕ
  nextConnId : ℕ
  deriving DecidableEq

namespace TcpInner

def new : TcpInner := ⟨[], 0, 0⟩

def findConnectionId (addr : SocketAddr) (t : TcpInner) : Option ℕ :=
  (t.connections.find? (·.remote == addr)).map (·.connId)

/-- The place of the connection with an address and an id. -/
def findConnectionExact (addr : SocketAddr) (connId : ℕ) (t : TcpInner) : Option ℕ :=
  t.connections.findIdx? fun c => c.remote == addr && c.connId == connId

/-- Add a connection, if need be in the place of the oldest one. -/
def addConnection (N : ℕ) (addr : SocketAddr) (stream : List UInt8) (t : TcpInner) : TcpInner :=
  let connections := if N ≤ t.connections.length then t.connections.eraseIdx 0 else t.connections
  { t with
    connections := connections ++ [⟨t.nextConnId, addr, stream, []⟩]
    nextConnId := t.nextConnId + 1 }

def removeConnection (index : ℕ) (t : TcpInner) : TcpInner :=
  { t with connections := t.connections.eraseIdx index }

def isReady (t : TcpInner) (idx : ℕ) : Bool :=
  (t.connections[idx]?.bind (·.hasCompleteMessage)).isSome

/-- The first connection, from the one to look at first on, that has a complete message. -/
def findReadyConnection (t : TcpInner) : Option ℕ :=
  ((List.range t.connections.length).map fun i => (t.pollIndex + i) % t.connections.length).find?
    t.isReady

/-- The loop of `try_read_all`: what has been looked at, and what is left. -/
def readAllLoop (os : ℕ → Readiness) (done : List TcpConnection) :
    List TcpConnection → List TcpConnection × Option ℕ
  | [] => (done, none)
  | c :: rest =>
    match c.tryReadNonblocking (os c.connId) with
    | (c, .ok _) =>
      if c.hasCompleteMessage.isSome then (done ++ c :: rest, some done.length)
      else readAllLoop os (done ++ [c]) rest
    | (_, .error _) => readAllLoop os done rest

/-- Read from the connections until one has a complete message; those that fail go. -/
def tryReadAll (os : ℕ → Readiness) (t : TcpInner) : TcpInner × Option ℕ :=
  let (connections, found) := readAllLoop os [] t.connections
  ({ t with connections }, found)

/-- Read from one connection; if that fails it goes. -/
def readAt (idx : ℕ) (os : Readiness) (t : TcpInner) : TcpInner :=
  match t.connections[idx]? with
  | none => t
  | some c =>
    match c.tryReadNonblocking os with
    | (c, .ok _) => { t with connections := t.connections.set idx c }
    | (_, .error _) => t.removeConnection idx

end TcpInner

/-! ## Receiving -/

/-- Where a call of `recv_from` is. -/
inductive Phase where
  | idle
  /-- about to look for complete messages, and to read -/
  | checking
  | waiting
  | taking
  deriving DecidableEq

/-- The receiving side, with the results of the calls so far, each with the connection that it came
from. -/
structure Receiver where
  inner : TcpInner
  phase : Phase
  results : List (ℕ × Except ErrorCode (List UInt8 × SocketAddr))
  deriving DecidableEq

namespace Receiver

def new : Receiver := ⟨.new, .idle, []⟩

inductive Action where
  /-- `recv_from` is called -/
  | call
  /-- it looks for complete messages, and reads -/
  | check (os : ℕ → Readiness)
  /-- a peer connects, and will send something -/
  | listenerReady (addr : SocketAddr) (stream : List UInt8)
  /-- something can be read from a connection -/
  | connectionReadable (idx : ℕ) (os : Readiness)
  | connectionError (idx : ℕ)
  /-- the sending side says that it has changed the pool -/
  | poolChanged
  | take
  /-- the sending side connects to a peer, which will send something -/
  | connected (addr : SocketAddr) (stream : List UInt8)
  /-- the sending side gives up a connection -/
  | gaveUp (idx : ℕ)

/-- The end of `recv_from`, with a buffer of `cap` bytes. A message that is larger is discarded,
and the call fails. -/
def takeMessage (cap : ℕ) (r : Receiver) : Receiver :=
  match r.inner.findReadyConnection with
  | none => { r with phase := .checking }
  | some idx =>
    match r.inner.connections[idx]? with
    | none => { r with phase := .checking }
    | some c =>
      match c.hasCompleteMessage with
      | none => { r with phase := .checking }
      | some msgLen =>
        let (payload, c') := c.extractMessage msgLen
        let connections := r.inner.connections.set idx c'
        if cap < msgLen then
          { r with
            inner := { r.inner with connections }
            phase := .idle
            results := r.results ++ [(c.connId, .error .bufferTooSmall)] }
        else
          { r with
            inner := { r.inner with connections, pollIndex := (idx + 1) % max connections.length 1 }
            phase := .idle
            results := r.results ++ [(c.connId, .ok (payload, c.remote))] }

/-- The receiving side after something has happened. -/
def step (N cap : ℕ) (r : Receiver) : Action → Option Receiver
  | .call => if r.phase = .idle then some { r with phase := .checking } else none
  | .check os =>
    if r.phase = .checking then
      if r.inner.findReadyConnection.isSome then some { r with phase := .taking }
      else
        let (inner, found) := r.inner.tryReadAll os
        some { r with inner, phase := if found.isSome then .taking else .waiting }
    else none
  | .listenerReady addr stream =>
    if r.phase = .waiting then
      some { r with inner := r.inner.addConnection N addr stream, phase := .checking }
    else none
  | .connectionReadable idx os =>
    if r.phase = .waiting then some { r with inner := r.inner.readAt idx os, phase := .checking }
    else none
  | .connectionError idx =>
    if r.phase = .waiting then
      some { r with inner := r.inner.removeConnection idx, phase := .checking }
    else none
  | .poolChanged => if r.phase = .waiting then some { r with phase := .checking } else none
  | .take => if r.phase = .taking then some (r.takeMessage cap) else none
  | .connected addr stream => some { r with inner := r.inner.addConnection N addr stream }
  | .gaveUp idx => some { r with inner := r.inner.removeConnection idx }

/-- Receiving as a machine, with a pool of `N` connections and a buffer of `cap` bytes. -/
def machine (N cap : ℕ) : Machine Receiver Action := ⟨step N cap⟩

end Receiver

end Tcp

end RsMatter
