import Mathlib.Logic.Function.Basic
import RsMatter.Exchanges
import RsMatter.StatusReports

/-!
# PASE on the device (`sc/pase.rs`, `sc/pase/responder.rs`)

A commissioning window holds the verifier of a passcode. While it is open, whoever knows the
passcode can set up a session in three round trips: the parameters are asked for and given, Pake1
is answered with Pake2, and Pake3 proves that the peer knows the passcode. `PaseResponder::handle`
runs once for each exchange on which this is tried. All exchanges share the window and the marker
of the handshake that is under way (`session_timeout`), and may interleave in any way at the
`await`s of the handler.

The marks that are not in the source are the number of a window, the windows that a handler has
taken the salt and the verifier from, and a log of what has happened.
-/

namespace RsMatter

/-! ## The window and the marker -/

/-- How many handshakes may fail within a window. -/
def maxPakeFailures : ℕ := 20

/-- The shortest time that a window is open, in seconds. -/
def minCommWindowTimeoutSecs : ℕ := 3 * 60

def maxCommWindowTimeoutSecs : ℕ := 15 * 60

/-- How long a handshake may take from one message to the next, in milliseconds. -/
def paseSessionEstTimeoutMs : ℕ := 60 * 1000

structure Spake2pVerifierData where
  password : Option (List UInt8)
  /-- the verifier, for an enhanced window -/
  verifier : List UInt8
  salt : List UInt8
  count : BitVec 32
  deriving DecidableEq

structure CommWindow where
  number : ℕ
  verifier : Spake2pVerifierData
  windowExpiry : ℕ
  pakeFailures : ℕ
  deriving DecidableEq

/-- The marker of the handshake that is under way. -/
structure SessionEstTimeout where
  sessionEstExpiry : ℕ
  exchId : ExchangeId
  deriving DecidableEq

def SessionEstTimeout.isSessExpired (t : SessionEstTimeout) (now : ℕ) : Bool :=
  decide (t.sessionEstExpiry < now)

structure Pase where
  commWindow : Option CommWindow
  sessionTimeout : Option SessionEstTimeout
  /-- how many windows were opened so far -/
  opened : ℕ
  deriving DecidableEq

namespace Pase

def new : Pase := ⟨none, none, 0⟩

def closeCommWindow (p : Pase) : Pase := { p with commWindow := none }

def checkCommWindowTimeout (p : Pase) (now : ℕ) : Pase :=
  if p.commWindow.any fun w => decide (w.windowExpiry < now) then p.closeCommWindow else p

def openCommWindow (p : Pase) (verifier : Spake2pVerifierData) (timeoutSecs now : ℕ) :
    Except ErrorCode Pase :=
  if p.commWindow.isSome then .error .busy
  else if ¬ (minCommWindowTimeoutSecs ≤ timeoutSecs ∧ timeoutSecs ≤ maxCommWindowTimeoutSecs) then
    .error .invalidCommand
  else .ok { p with
    commWindow := some ⟨p.opened, verifier, now + timeoutSecs * 1000, 0⟩
    opened := p.opened + 1 }

def recordPakeFailure (p : Pase) : Pase :=
  let p := { p with sessionTimeout := none }
  match p.commWindow with
  | none => p
  | some w =>
    let w := { w with pakeFailures := w.pakeFailures + 1 }
    if maxPakeFailures ≤ w.pakeFailures then p.closeCommWindow else { p with commWindow := some w }

def liveTimeout (p : Pase) (now : ℕ) : Option SessionEstTimeout :=
  p.sessionTimeout.filter fun t => !t.isSessExpired now

/-- Set or renew the marker: the status to reject the exchange with, if that is not possible. -/
def updateSessionTimeout (p : Pase) (x : ExchangeId) (new : Bool) (now : ℕ) :
    Pase × Option SCStatusCodes :=
  let p := { p with sessionTimeout := p.liveTimeout now }
  let mine : SessionEstTimeout := ⟨now + paseSessionEstTimeoutMs, x⟩
  match p.sessionTimeout with
  | some t =>
    if t.exchId ≠ x then (p, some .busy) else ({ p with sessionTimeout := some mine }, none)
  | none =>
    if new then ({ p with sessionTimeout := some mine }, none) else (p, some .sessionNotFound)

def clearSessionTimeout (p : Pase) : Pase := { p with sessionTimeout := none }

def openNumber (p : Pase) : Option ℕ := p.commWindow.map (·.number)

end Pase

/-! ## The messages -/

structure PBKDFParamReq where
  initiatorRandom : List UInt8
  initiatorSsid : BitVec 16
  passcodeId : BitVec 16
  /-- does the initiator know the parameters? -/
  hasParams : Bool
  deriving DecidableEq

inductive PaseMessage where
  | pbkdfParamRequest (req : PBKDFParamReq)
  | pake1 (pa : List UInt8)
  | pake3 (ca : List UInt8)
  /-- another opcode, or a payload that cannot be parsed -/
  | other
  deriving DecidableEq

def spake2pRandomLen : ℕ := 32

def ecPointLen : ℕ := 65

def hmacHashLen : ℕ := 32

/-- The computations of a handshake, with the results `γ` of the first round trip and `σ` of the
second. -/
structure Spake2p (γ σ : Type) where
  /-- the context of a handshake, from the request and the parameters -/
  startContext : PBKDFParamReq → (salt : List UInt8) → (count : BitVec 32) → Except ErrorCode γ
  /-- the secrets and the answer to Pake1 -/
  setupVerifier : γ → Spake2pVerifierData → (pa : List UInt8) → Except ErrorCode σ
  verify : σ → (ca : List UInt8) → Bool

/-! ## The handlers -/

inductive PasePc (γ σ : Type) where
  /-- it reserves a session, with the request at hand -/
  | reserving (request : PaseMessage)
  /-- it sends the status that the exchange is rejected with -/
  | rejecting
  | sendingParams (context : γ)
  | waitingPake1 (context : γ)
  | sendingPake2 (secrets : σ)
  | waitingPake3 (secrets : σ)
  /-- it sends the status of the handshake -/
  | completing (success : Bool)
  /-- it acknowledges what is not acknowledged yet -/
  | acknowledging (success : Bool)

def PasePc.isSending {γ σ : Type} : PasePc γ σ → Bool
  | rejecting | sendingParams _ | sendingPake2 _ | completing _ | acknowledging _ => true
  | _ => false

structure PaseHandler (γ σ : Type) where
  pc : PasePc γ σ
  /-- is the session of its exchange gone? -/
  gone : Bool
  /-- the window that the salt was taken from -/
  saltFrom : Option ℕ
  /-- the window that the verifier was taken from, and with it the answer to Pake1 -/
  verifierFrom : Option ℕ
  established : Bool

inductive PaseEvent where
  /-- Pake1 was answered, with the verifier of a window -/
  | answered (window : ℕ)
  /-- a session was set up, with the salt and the verifier of these windows -/
  | established (saltFrom verifierFrom openWindow : Option ℕ)
  /-- a handler has returned: its failure was charged to a window, if it was -/
  | ended (verifierFrom : Option ℕ) (established : Bool) (charged openWindow : Option ℕ)
  deriving DecidableEq

structure PaseRun (γ σ : Type) where
  pase : Pase
  handlers : ExchangeId → Option (PaseHandler γ σ)
  log : List PaseEvent

namespace PaseRun

variable {γ σ : Type}

def new : PaseRun γ σ := ⟨.new, fun _ => none, []⟩

def withPase (r : PaseRun γ σ) (pase : Pase) : PaseRun γ σ := { r with pase }

def setHandler (r : PaseRun γ σ) (x : ExchangeId) (h : PaseHandler γ σ) : PaseRun γ σ :=
  { r with handlers := Function.update r.handlers x (some h) }

/-- A handler returns. A failure is charged through the state of the exchange, if its session is
still there. -/
def finish (r : PaseRun γ σ) (x : ExchangeId) (h : PaseHandler γ σ) (failed : Bool) :
    PaseRun γ σ :=
  let charge := failed && !h.gone
  { pase := if charge then r.pase.recordPakeFailure else r.pase
    handlers := Function.update r.handlers x none
    log := .ended h.verifierFrom h.established (if charge then r.pase.openNumber else none)
      r.pase.openNumber :: r.log }

def note (r : PaseRun γ σ) (ev : PaseEvent) : PaseRun γ σ := { r with log := ev :: r.log }

section Handlers

variable {r : PaseRun γ σ} {x y : ExchangeId} {h k : PaseHandler γ σ}

theorem handlers_setHandler_self : (r.setHandler x h).handlers x = some h :=
  Function.update_self ..

theorem handlers_setHandler_ne (hxy : y ≠ x) : (r.setHandler x h).handlers y = r.handlers y :=
  Function.update_of_ne hxy ..

theorem handlers_setHandler_cases (hy : (r.setHandler x h).handlers y = some k) :
    (y = x ∧ k = h) ∨ (y ≠ x ∧ r.handlers y = some k) := by
  by_cases hxy : y = x
  · subst hxy
    rw [handlers_setHandler_self, Option.some_inj] at hy
    exact .inl ⟨rfl, hy.symm⟩
  · rw [handlers_setHandler_ne hxy] at hy
    exact .inr ⟨hxy, hy⟩

theorem handlers_finish {failed : Bool} (hy : (r.finish x h failed).handlers y = some k) :
    y ≠ x ∧ r.handlers y = some k := by
  have hy : Function.update r.handlers x none y = some k := hy
  by_cases hxy : y = x
  · subst hxy
    rw [Function.update_self] at hy
    cases hy
  · rw [Function.update_of_ne hxy] at hy
    exact ⟨hxy, hy⟩

end Handlers

variable (C : Spake2p γ σ)

/-- `handle_pbkdfparamrequest`. -/
def handlePbkdfParamRequest (r : PaseRun γ σ) (x : ExchangeId) (h : PaseHandler γ σ)
    (request : PaseMessage) (now : ℕ) : PaseRun γ σ :=
  match request with
  | .pbkdfParamRequest req =>
    let r := r.withPase (r.pase.checkCommWindowTimeout now)
    match r.pase.commWindow with
    -- without a window the request is dropped silently
    | none => (r.withPase r.pase.clearSessionTimeout).finish x h false
    | some w =>
      if req.passcodeId ≠ 0 ∨ req.initiatorRandom.length ≠ spake2pRandomLen then r.finish x h true
      else
        match C.startContext req w.verifier.salt w.verifier.count with
        | .error _ => r.finish x h true
        | .ok context =>
          r.setHandler x { h with pc := .sendingParams context, saltFrom := some w.number }
  | _ => r.finish x h true

/-- `handle_pasepake1`. -/
def handlePasePake1 (r : PaseRun γ σ) (x : ExchangeId) (h : PaseHandler γ σ) (context : γ)
    (msg : PaseMessage) (now : ℕ) : PaseRun γ σ :=
  match msg with
  | .pake1 pa =>
    if pa.length ≠ ecPointLen then r.finish x h true
    else
      let r := r.withPase (r.pase.checkCommWindowTimeout now)
      match r.pase.commWindow with
      | none => (r.withPase r.pase.clearSessionTimeout).finish x h false
      | some w =>
        match C.setupVerifier context w.verifier pa with
        | .error _ => r.finish x h true
        | .ok secrets =>
          (r.setHandler x { h with pc := .sendingPake2 secrets, verifierFrom := some w.number }).note
            (.answered w.number)
  | _ => r.finish x h true

/-- `handle_pasepake3`; `hasReserved` tells whether the reserved session is still there, and `arms`
whether the fail-safe can be armed. -/
def handlePasePake3 (r : PaseRun γ σ) (x : ExchangeId) (h : PaseHandler γ σ) (secrets : σ)
    (msg : PaseMessage) (hasReserved arms : Bool) (now : ℕ) : PaseRun γ σ :=
  match msg with
  | .pake3 ca =>
    if ca.length ≠ hmacHashLen then r.finish x h true
    else if C.verify secrets ca then
      if !hasReserved then r.finish x h true
      else
        let r := r.note (.established h.saltFrom h.verifierFrom
          (r.pase.checkCommWindowTimeout now).openNumber)
        let h := { h with established := true }
        if arms then r.setHandler x { h with pc := .completing true } else r.finish x h true
    else r.setHandler x { h with pc := .completing false }
  | _ => r.finish x h true

inductive Action where
  /-- a request arrives on an exchange, and is handed to a handler -/
  | start (x : ExchangeId) (request : PaseMessage)
  | reserved (x : ExchangeId) (ok : Bool) (now : ℕ)
  | sent (x : ExchangeId) (ok : Bool)
  | received (x : ExchangeId) (msg : PaseMessage) (hasReserved arms : Bool) (now : ℕ)
  | recvFailed (x : ExchangeId)
  /-- the session of an exchange is removed -/
  | removeSession (x : ExchangeId)
  | openWindow (verifier : Spake2pVerifierData) (timeoutSecs now : ℕ)
  | closeWindow
  /-- the window is closed if it has expired -/
  | checkTimeout (now : ℕ)

/-- The handler goes on once it has reserved a session. -/
def begin (r : PaseRun γ σ) (x : ExchangeId) (h : PaseHandler γ σ) (request : PaseMessage)
    (now : ℕ) : PaseRun γ σ :=
  if h.gone then r.finish x h true
  else
    match r.pase.updateSessionTimeout x true now with
    | (pase, some _) => (r.withPase pase).setHandler x { h with pc := .rejecting }
    | (pase, none) => (r.withPase pase).handlePbkdfParamRequest C x h request now

/-- The handler goes on once it has received a message. -/
def receive (r : PaseRun γ σ) (x : ExchangeId) (h : PaseHandler γ σ) (now : ℕ)
    (goOn : PaseRun γ σ → PaseRun γ σ) : PaseRun γ σ :=
  if h.gone then r.finish x h true
  else
    match r.pase.updateSessionTimeout x false now with
    | (pase, some _) => (r.withPase pase).setHandler x { h with pc := .rejecting }
    | (pase, none) => goOn (r.withPase pase)

/-- The handler goes on once it has sent a message. -/
def afterSend (r : PaseRun γ σ) (x : ExchangeId) (h : PaseHandler γ σ) : Option (PaseRun γ σ) :=
  match h.pc with
  | .rejecting => some (r.finish x h false)
  | .sendingParams context => some (r.setHandler x { h with pc := .waitingPake1 context })
  | .sendingPake2 secrets => some (r.setHandler x { h with pc := .waitingPake3 secrets })
  | .completing success => some (r.setHandler x { h with pc := .acknowledging success })
  | .acknowledging success =>
    some (if h.gone then r.finish x h true
      else (r.withPase r.pase.clearSessionTimeout).finish x h (!success))
  | _ => none

/-- One step; `none` where it is not possible. -/
def step (r : PaseRun γ σ) : Action → Option (PaseRun γ σ)
  | .start x request =>
    match r.handlers x with
    | none => some (r.setHandler x ⟨.reserving request, false, none, none, false⟩)
    | some _ => none
  | .reserved x ok now =>
    match r.handlers x with
    | some h =>
      match h.pc with
      | .reserving request =>
        some (if ok then r.begin C x h request now else r.finish x h true)
      | _ => none
    | none => none
  | .sent x ok =>
    match r.handlers x with
    | some h =>
      if h.pc.isSending then (if ok then r.afterSend x h else some (r.finish x h true)) else none
    | none => none
  | .received x msg hasReserved arms now =>
    match r.handlers x with
    | some h =>
      match h.pc with
      | .waitingPake1 context =>
        some (r.receive x h now fun r => r.handlePasePake1 C x h context msg now)
      | .waitingPake3 secrets =>
        some (r.receive x h now fun r =>
          r.handlePasePake3 C x h secrets msg hasReserved arms now)
      | _ => none
    | none => none
  | .recvFailed x =>
    match r.handlers x with
    | some h =>
      match h.pc with
      | .waitingPake1 _ => some (r.finish x h true)
      | .waitingPake3 _ => some (r.finish x h true)
      | _ => none
    | none => none
  | .removeSession x =>
    match r.handlers x with
    | some h => some (r.setHandler x { h with gone := true })
    | none => some r
  | .openWindow verifier timeoutSecs now =>
    match r.pase.openCommWindow verifier timeoutSecs now with
    | .ok pase => some (r.withPase pase)
    | .error _ => some r
  | .closeWindow => some (r.withPase r.pase.closeCommWindow)
  | .checkTimeout now => some (r.withPase (r.pase.checkCommWindowTimeout now))

def machine : Machine (PaseRun γ σ) Action := ⟨step C⟩

/-! ### A handshake -/

/-- A stand-in for the computations: the confirmation is the verifier itself. -/
def standIn : Spake2p Unit (List UInt8) where
  startContext _ _ _ := .ok ()
  setupVerifier _ data _ := .ok data.verifier
  verify secrets ca := secrets == ca

/-- A window that is open for 15 minutes. -/
def openLong : Action :=
  .openWindow ⟨none, List.replicate 32 7, List.replicate 16 1, 1000#32⟩ maxCommWindowTimeoutSecs 0

def askParams : PaseMessage := .pbkdfParamRequest ⟨List.replicate 32 0, 1, 0, false⟩

/-- An exchange that gets as far as Pake2. -/
def guess (x : ExchangeId) (now : ℕ) : List Action :=
  [.start x askParams, .reserved x true now, .sent x true,
    .received x (.pake1 (List.replicate 65 4)) true true now, .sent x true]

end PaseRun

end RsMatter
