import Mathlib.Algebra.Group.Nat.Defs
import RsMatter.Basic
import RsMatter.FixedCapacity
import RsMatter.Prog
import RsMatter.Suspension

/-!
# WebRTC sessions (`dm/clusters/app/webrtc_prov.rs`)

The provider keeps a table of the sessions that peers have set up. Each command looks at the
table, then waits for the application, which does the work, and then changes the table. What the
application does is not modelled, only that it is asked and how it answers.
-/

namespace RsMatter

namespace WebRtc

open Stop

inductive WebRtcError where
  | invalidInState
  | invalidCommand
  | dynamicConstraint
  | resourceExhausted
  | failure
  deriving DecidableEq

def WebRtcError.toError : WebRtcError → ErrorCode
  | invalidInState => .invalidAction
  | invalidCommand => .invalidCommand
  | dynamicConstraint => .dynamicConstraintError
  | resourceExhausted => .resourceExhausted
  | failure => .failure

/-- The parameters of an offer. A stream can be left out, or be null. -/
structure OfferParams where
  streamUsage : StreamUsage
  originatingEndpointId : EndptId
  videoStreamId : Option (Option (BitVec 16))
  audioStreamId : Option (Option (BitVec 16))
  metadataEnabled : Bool
  deriving DecidableEq

/-- The application has accepted an offer, or the wish for one. -/
structure OfferOutcome where
  /-- does the offer follow later? (only for the wish) -/
  deferred : Bool
  videoStreamId : Option (BitVec 16)
  audioStreamId : Option (BitVec 16)
  deriving DecidableEq

inductive SessionState where
  | awaitingDeferredOffer
  | awaitingAnswer
  | established
  deriving DecidableEq

/-- `SessionEntry`. -/
structure SessionEntry where
  id : BitVec 16
  fabIdx : BitVec 8
  peerNodeId : BitVec 64
  peerEndpointId : EndptId
  streamUsage : StreamUsage
  videoStreamId : Option (BitVec 16)
  audioStreamId : Option (BitVec 16)
  metadataEnabled : Bool
  state : SessionState
  deriving DecidableEq

structure Provider (N : ℕ) where
  sessions : HVec SessionEntry N
  /-- where the search for the next id starts -/
  nextId : BitVec 16

namespace Provider

variable {N : ℕ}

def new : Provider N := ⟨.new, 1⟩

/-- `remove_fabric_sessions`. -/
def removeFabricSessions (p : Provider N) (fabIdx : BitVec 8) : Provider N :=
  { p with sessions := ⟨p.sessions.1.filter fun s => s.fabIdx != fabIdx,
    Nat.le_trans (List.length_filter_le _ _) p.sessions.2⟩ }

/-- The loop of `allocate_id`: the first id from `candidate` on that is not `0` and has no row,
and where the next search starts. -/
def allocateIdLoop (sessions : List SessionEntry) : ℕ → BitVec 16 → Option (BitVec 16 × BitVec 16)
  | 0, _ => none
  | fuel + 1, candidate =>
    let next := if candidate = 0xffff then 1 else candidate + 1
    if candidate ≠ 0 ∧ ¬sessions.any (·.id == candidate) then some (candidate, next)
    else allocateIdLoop sessions fuel next

/-- `allocate_id`. After a round through all ids the search would go on for ever: the command
does not come back. -/
def allocateId : Prog (Stop ErrorCode) (Provider N) (BitVec 16) := do
  let p ← Prog.get
  match allocateIdLoop p.sessions.1 (2 ^ 16) p.nextId with
  | none => Prog.throw .panic
  | some (id, nextId) => do
    Prog.modify fun p => { p with nextId }
    return id

/-- `session_copy`. -/
def sessionCopy (p : Provider N) (id : BitVec 16) : Option SessionEntry :=
  p.sessions.1.find? (·.id == id)

/-- `upsert_session`: put a row in the place of the first one with its id, or push it. -/
def upsertSession (entry : SessionEntry) : Prog (Stop ErrorCode) (Provider N) Unit := do
  let p ← Prog.get
  match p.sessions.1.findIdx? (·.id == entry.id) with
  | some i => Prog.modify fun p => { p with sessions := p.sessions.set i entry }
  | none => do
    let sessions ← Prog.ofExcept (p.sessions.push entry .resourceExhausted)
    Prog.modify fun p => { p with sessions }

/-- `remove_session`. -/
def removeSession (p : Provider N) (id : BitVec 16) : Provider N :=
  { p with sessions := ⟨p.sessions.1.filter fun s => s.id != id,
    Nat.le_trans (List.length_filter_le _ _) p.sessions.2⟩ }

/-- `set_state`. -/
def setState (p : Provider N) (id : BitVec 16) (state : SessionState) : Provider N :=
  match p.sessions.1.findIdx? (·.id == id) with
  | some i => { p with sessions := ⟨p.sessions.1.modify i ({ · with state }), by
      rw [List.length_modify]; exact p.sessions.2⟩ }
  | none => p

/-- `check_peer`. -/
def checkPeer (s : SessionEntry) (fabIdx : BitVec 8) (peer : BitVec 64) : Except (Stop ErrorCode) Unit :=
  if s.fabIdx ≠ fabIdx ∨ s.peerNodeId ≠ peer then .error (.error .notFound) else .ok ()

/-- The session with an id, if it is one of this peer. -/
def ownSession (p : Provider N) (id : BitVec 16) (fabIdx : BitVec 8) (peer : BitVec 64) :
    Except (Stop ErrorCode) SessionEntry := do
  let session ← match p.sessionCopy id with
    | some session => .ok session
    | none => .error (.error .notFound)
  checkPeer session fabIdx peer
  return session

end Provider

/-! ## Commands -/

inductive OutboundWork where
  | offer (sessionId : BitVec 16)
  | answer (sessionId : BitVec 16)
  | iceCandidates (sessionId : BitVec 16)
  | finish (sessionId : BitVec 16)
  deriving DecidableEq

/-- What the provider is asked for. A command comes from a fabric and, if the session has one, from
a peer; its fields are decoded when they are asked for. -/
inductive Command where
  | solicitOffer (fabIdx : BitVec 8) (peer : Option (BitVec 64)) (params : Except ErrorCode OfferParams)
  | provideOffer (fabIdx : BitVec 8) (peer : Option (BitVec 64)) (sdp : Except ErrorCode (List UInt8))
    (params : Except ErrorCode OfferParams) (webRtcSessionId : Except ErrorCode (Option (BitVec 16)))
  | provideAnswer (fabIdx : BitVec 8) (peer : Option (BitVec 64))
    (webRtcSessionId : Except ErrorCode (BitVec 16)) (sdp : Except ErrorCode (List UInt8))
  | provideIceCandidates (fabIdx : BitVec 8) (peer : Option (BitVec 64))
    (webRtcSessionId : Except ErrorCode (BitVec 16)) (candidates : Except ErrorCode Unit)
  | endSession (fabIdx : BitVec 8) (peer : Option (BitVec 64))
    (webRtcSessionId : Except ErrorCode (BitVec 16)) (reason : Except ErrorCode Unit)
  | removeFabricSessions (fabIdx : BitVec 8)
  /-- the application has something to send -/
  | pushOutbound (work : OutboundWork)

inductive Task where
  | onSolicitOffer (sessionId : BitVec 16) (fabIdx : BitVec 8) (peer : BitVec 64) (params : OfferParams)
  | onOffer (sessionId : BitVec 16) (fabIdx : BitVec 8) (peer : BitVec 64) (params : OfferParams)
  | onAnswer (sessionId : BitVec 16)
  | onIceCandidates (sessionId : BitVec 16)
  | onEndSession (sessionId : BitVec 16)
  /-- the application has to give the offer -/
  | takeOfferSdp (session : SessionEntry)
  /-- an exchange with the peer has to be set up for the offer -/
  | sendOffer (session : SessionEntry)
  deriving DecidableEq

def Task.sessionId : Task → BitVec 16
  | onSolicitOffer sessionId .. | onOffer sessionId .. | onAnswer sessionId
  | onIceCandidates sessionId | onEndSession sessionId => sessionId
  | takeOfferSdp session | sendOffer session => session.id

inductive Outcome where
  | offer (r : Except WebRtcError OfferOutcome)
  | done (r : Except WebRtcError Unit)
  /-- the exchange is set up, and the offer is sent on it -/
  | sent (r : Except ErrorCode Unit)

inductive Reply where
  | solicitOfferResponse (webRtcSessionId : BitVec 16) (deferredOffer : Bool)
    (videoStreamId audioStreamId : Option (BitVec 16))
  | provideOfferResponse (webRtcSessionId : BitVec 16) (videoStreamId audioStreamId : Option (BitVec 16))
  | done
  deriving DecidableEq

namespace Provider

variable {N : ℕ} (sdpLen : ℕ)

/-- `exchange_peer_node_id`. -/
def exchangePeerNodeId (peer : Option (BitVec 64)) : Except (Stop ErrorCode) (BitVec 64) :=
  match peer with
  | some peer => .ok peer
  | none => .error (.error .invalid)

/-- `handle_solicit_offer`, up to the wait. -/
def handleSolicitOffer (fabIdx : BitVec 8) (peer : Option (BitVec 64))
    (params : Except ErrorCode OfferParams) : Prog (Stop ErrorCode) (Provider N) Task := do
  let peer ← Prog.ofExcept (exchangePeerNodeId peer)
  let params ← Prog.ofExcept (lift params)
  let sessionId ← allocateId
  return .onSolicitOffer sessionId fabIdx peer params

def checkSdp (sdp : Except ErrorCode (List UInt8)) : Except (Stop ErrorCode) Unit := do
  let sdp ← lift sdp
  if sdpLen < sdp.length then .error (.error .constraintError) else return ()

/-- `handle_provide_offer`, up to the wait. Null stands for a new session. -/
def handleProvideOffer (fabIdx : BitVec 8) (peer : Option (BitVec 64))
    (sdp : Except ErrorCode (List UInt8)) (params : Except ErrorCode OfferParams)
    (webRtcSessionId : Except ErrorCode (Option (BitVec 16))) :
    Prog (Stop ErrorCode) (Provider N) Task := do
  let peer ← Prog.ofExcept (exchangePeerNodeId peer)
  Prog.ofExcept (checkSdp sdpLen sdp)
  let params ← Prog.ofExcept (lift params)
  let webRtcSessionId ← Prog.ofExcept (lift webRtcSessionId)
  match webRtcSessionId with
  | none => do
    let sessionId ← allocateId
    return .onOffer sessionId fabIdx peer params
  | some id => do
    let p ← Prog.get
    let _ ← Prog.ofExcept (p.ownSession id fabIdx peer)
    return .onOffer id fabIdx peer params

/-- `handle_provide_answer`, up to the wait. -/
def handleProvideAnswer (fabIdx : BitVec 8) (peer : Option (BitVec 64))
    (webRtcSessionId : Except ErrorCode (BitVec 16)) (sdp : Except ErrorCode (List UInt8)) :
    Prog (Stop ErrorCode) (Provider N) Task := do
  let peer ← Prog.ofExcept (exchangePeerNodeId peer)
  let sessionId ← Prog.ofExcept (lift webRtcSessionId)
  Prog.ofExcept (checkSdp sdpLen sdp)
  let p ← Prog.get
  let session ← Prog.ofExcept (p.ownSession sessionId fabIdx peer)
  match session.state with
  | .awaitingAnswer | .awaitingDeferredOffer => return .onAnswer sessionId
  | .established => Prog.throw (.error .invalidAction)

/-- `handle_provide_ice_candidates`, up to the wait. -/
def handleProvideIceCandidates (fabIdx : BitVec 8) (peer : Option (BitVec 64))
    (webRtcSessionId : Except ErrorCode (BitVec 16)) (candidates : Except ErrorCode Unit) :
    Prog (Stop ErrorCode) (Provider N) Task := do
  let peer ← Prog.ofExcept (exchangePeerNodeId peer)
  let sessionId ← Prog.ofExcept (lift webRtcSessionId)
  let p ← Prog.get
  let _ ← Prog.ofExcept (p.ownSession sessionId fabIdx peer)
  Prog.ofExcept (lift candidates)
  return .onIceCandidates sessionId

/-- `handle_end_session`, up to the wait. -/
def handleEndSession (fabIdx : BitVec 8) (peer : Option (BitVec 64))
    (webRtcSessionId : Except ErrorCode (BitVec 16)) (reason : Except ErrorCode Unit) :
    Prog (Stop ErrorCode) (Provider N) Task := do
  let peer ← Prog.ofExcept (exchangePeerNodeId peer)
  let sessionId ← Prog.ofExcept (lift webRtcSessionId)
  Prog.ofExcept (lift reason)
  let p ← Prog.get
  let _ ← Prog.ofExcept (p.ownSession sessionId fabIdx peer)
  return .onEndSession sessionId

/-- `push_outbound`, up to the first wait that the table depends on: for an offer. A session that
is gone is no error. -/
def pushOutbound (p : Provider N) : OutboundWork → Option Task
  | .offer sessionId => (p.sessionCopy sessionId).map .takeOfferSdp
  | .answer _ | .iceCandidates _ | .finish _ => none

/-- The row of a session that the application has accepted. -/
def entryOf (sessionId : BitVec 16) (fabIdx : BitVec 8) (peer : BitVec 64) (params : OfferParams)
    (outcome : OfferOutcome) (state : SessionState) : SessionEntry where
  id := sessionId
  fabIdx
  peerNodeId := peer
  peerEndpointId := params.originatingEndpointId
  streamUsage := params.streamUsage
  videoStreamId := outcome.videoStreamId
  audioStreamId := outcome.audioStreamId
  metadataEnabled := params.metadataEnabled
  state

/-- The error of the application, as the peer gets it. -/
def ofHook {α : Type} : Except WebRtcError α → Except (Stop ErrorCode) α
  | .ok a => .ok a
  | .error e => .error (.error e.toError)

/-- A command up to its first wait; a command that does not wait has no task. -/
def start : Command → Prog (Stop ErrorCode) (Provider N) (Option Task)
  | .solicitOffer fabIdx peer params => some <$> handleSolicitOffer fabIdx peer params
  | .provideOffer fabIdx peer sdp params webRtcSessionId =>
    some <$> handleProvideOffer sdpLen fabIdx peer sdp params webRtcSessionId
  | .provideAnswer fabIdx peer webRtcSessionId sdp =>
    some <$> handleProvideAnswer sdpLen fabIdx peer webRtcSessionId sdp
  | .provideIceCandidates fabIdx peer webRtcSessionId candidates =>
    some <$> handleProvideIceCandidates fabIdx peer webRtcSessionId candidates
  | .endSession fabIdx peer webRtcSessionId reason =>
    some <$> handleEndSession fabIdx peer webRtcSessionId reason
  | .removeFabricSessions fabIdx => do
    Prog.modify (removeFabricSessions · fabIdx)
    return none
  | .pushOutbound work => do
    let p ← Prog.get
    return p.pushOutbound work

end Provider

/-- What follows a wait: another one, or the end. -/
inductive Next where
  | wait (t : Task)
  | reply (r : Reply)
  deriving DecidableEq

def Next.task? : Next → Option Task
  | wait t => some t
  | reply _ => none

namespace Provider

variable {N : ℕ}

/-- A command after its wait. Not every outcome is one for every wait. -/
def resume : Task → Outcome → Option (Prog (Stop ErrorCode) (Provider N) Next)
  | .onSolicitOffer sessionId fabIdx peer params, .offer r => some do
    let outcome ← Prog.ofExcept (ofHook r)
    let state := if outcome.deferred then .awaitingDeferredOffer else .awaitingAnswer
    upsertSession (entryOf sessionId fabIdx peer params outcome state)
    return .reply (.solicitOfferResponse sessionId outcome.deferred outcome.videoStreamId
      outcome.audioStreamId)
  | .onOffer sessionId fabIdx peer params, .offer r => some do
    let outcome ← Prog.ofExcept (ofHook r)
    upsertSession (entryOf sessionId fabIdx peer params outcome .established)
    return .reply (.provideOfferResponse sessionId outcome.videoStreamId outcome.audioStreamId)
  | .onAnswer sessionId, .done r => some do
    Prog.ofExcept (ofHook r)
    Prog.modify fun p => p.setState sessionId .established
    return .reply .done
  | .onIceCandidates _, .done r => some do
    Prog.ofExcept (ofHook r)
    return .reply .done
  -- even if the application fails to end it, the session goes
  | .onEndSession sessionId, .done _ => some do
    Prog.modify fun p => p.removeSession sessionId
    return .reply .done
  | .takeOfferSdp session, .done r => some do
    Prog.ofExcept (ofHook r)
    Prog.modify fun p => p.setState session.id .awaitingAnswer
    return .wait (.sendOffer session)
  | .sendOffer _, .sent r => some do
    Prog.ofExcept (lift r)
    return .reply .done
  | _, _ => none

end Provider

/-! ## What has happened to a session -/

inductive OfferStatus where
  | none
  | underWay
  | lost
  | given
  deriving DecidableEq

/-- What has happened to the session that an id stands for, since the id was handed out. -/
structure History where
  /-- the fabric and the peer that it was handed out for -/
  owner : Option (BitVec 8 × BitVec 64)
  /-- has the application accepted the session? -/
  accepted : Bool
  /-- has it been told to end the session? -/
  passed : Bool
  ended : Bool
  gone : Bool
  /-- what has become of the offer to the peer? -/
  offer : OfferStatus
  deriving DecidableEq

namespace History

def unused : History := ⟨none, false, false, false, false, .none⟩

def handedOut (fabIdx : BitVec 8) (peer : BitVec 64) : History :=
  ⟨some (fabIdx, peer), false, false, false, false, .none⟩

/-- The application has accepted the wish for an offer. Unless the offer is deferred, the answer to the
wish gives it. -/
def solicited (h : History) (deferred : Bool) : History :=
  { h with accepted := true, offer := if deferred then h.offer else .given }

/-- Something happens to the offer. An offer that has been given stays so. -/
def offering (h : History) (status : OfferStatus) : History :=
  if h.offer = .given then h else { h with offer := status }

end History

/-- The provider, and what has happened to each session. -/
structure Traced (N : ℕ) where
  provider : Provider N
  history : BitVec 16 → History

namespace Traced

variable {N : ℕ}

def new : Traced N := ⟨.new, fun _ => .unused⟩

def note (history : BitVec 16 → History) (id : BitVec 16) (f : History → History) : BitVec 16 → History :=
  fun i => if i = id then f (history i) else history i

/-- What it means for the sessions that a command begins to wait, where the table was `p`. -/
def noteTask (p : Provider N) (history : BitVec 16 → History) : Task → BitVec 16 → History
  | .onSolicitOffer sessionId fabIdx peer _ => note history sessionId fun _ => .handedOut fabIdx peer
  | .onOffer sessionId fabIdx peer _ =>
    if (p.sessionCopy sessionId).isSome then history
    else note history sessionId fun _ => .handedOut fabIdx peer
  | .onEndSession sessionId => note history sessionId ({ · with passed := true })
  | .onAnswer _ | .onIceCandidates _ | .takeOfferSdp _ | .sendOffer _ => history

/-- What it means for the sessions that a fabric is removed. -/
def noteFabric (history : BitVec 16 → History) (fabIdx : BitVec 8) : BitVec 16 → History := fun i =>
  if (history i).owner.any (·.1 == fabIdx) then { history i with gone := true } else history i

/-- What it means for the sessions how a wait ends. -/
def noteOutcome (history : BitVec 16 → History) : Task → Outcome → BitVec 16 → History
  | .onSolicitOffer sessionId .., .offer (.ok outcome) =>
    note history sessionId (·.solicited outcome.deferred)
  | .onOffer sessionId .., .offer (.ok _) => note history sessionId ({ · with accepted := true })
  | .onEndSession sessionId, .done _ => note history sessionId ({ · with ended := true })
  | .takeOfferSdp session, .done (.ok _) => note history session.id (·.offering .underWay)
  | .sendOffer session, .sent (.ok _) => note history session.id (·.offering .given)
  | .sendOffer session, .sent (.error _) => note history session.id (·.offering .lost)
  | _, _ => history

/-- What it means for the sessions that a command begins, and what for it waits. -/
def noteStart (p : Provider N) (history : BitVec 16 → History) : Command → Option Task → BitVec 16 → History
  | .removeFabricSessions fabIdx, _ => noteFabric history fabIdx
  | _, some t => noteTask p history t
  | _, none => history

def start (sdpLen : ℕ) (s : Traced N) (c : Command) : Option (Traced N × Option Task) :=
  match (Provider.start sdpLen c).run s.provider with
  | (p, .ok t) => some (⟨p, noteStart s.provider s.history c t⟩, t)
  | (p, .error _) => some ({ s with provider := p }, none)

def resume (s : Traced N) (t : Task) (o : Outcome) : Option (Traced N × Option Task) :=
  (Provider.resume t o).map fun m =>
    match m.run s.provider with
    | (p, .ok next) => (⟨p, noteOutcome s.history t o⟩, next.task?)
    | (p, .error _) => (⟨p, noteOutcome s.history t o⟩, none)

def program (N sdpLen : ℕ) : Suspending (Traced N) Command Task Outcome := ⟨start sdpLen, resume⟩

end Traced

end WebRtc

end RsMatter
