import RsMatter.Fabric
import RsMatter.Session

/-!
# The fail-safe (`failsafe.rs`)

While it is armed, the fail-safe says on whose behalf the node is being
commissioned and how far that has come: the fabric of the context and the commands
received so far. The commands that add or replace an operational identity check
the context first (`FailSafe.checkState`). `FailSafe.expire` works on more than the
fail-safe and is with the commands of the node.
-/

namespace RsMatter

open Prog

namespace SessionMode

def isCase : SessionMode → Bool
  | case .. => true
  | _ => false

def isPase : SessionMode → Bool
  | pase _ => true
  | _ => false

end SessionMode

/-! ## The context -/

abbrev NocFlags := BitVec 8

namespace NocFlags

/-- A `CSRRequest` for `AddNOC`. -/
def addCsrReqRecvd : NocFlags := 0x01#8

/-- A `CSRRequest` for `UpdateNOC`. -/
def updateCsrReqRecvd : NocFlags := 0x02#8

/-- `AddTrustedRootCertificate`. -/
def addRootCertRecvd : NocFlags := 0x04#8

/-- `AddNOC`. -/
def addNocRecvd : NocFlags := 0x08#8

/-- `UpdateNOC`. -/
def updateNocRecvd : NocFlags := 0x10#8

/-- The `contains` of a set of flags. -/
def contains (a b : NocFlags) : Bool := a &&& b == b

/-- The `intersects` of a set of flags. -/
def intersects (a b : NocFlags) : Bool := a &&& b != 0

variable {flags op mask : NocFlags}

theorem contains_or (h : op &&& mask = 0) : contains (flags ||| op) mask = contains flags mask := by
  rw [contains, contains, BitVec.and_or_distrib_right, h]
  exact congrArg (· == mask) BitVec.or_zero

theorem intersects_or (h : op &&& mask = 0) :
    intersects (flags ||| op) mask = intersects flags mask := by
  rw [intersects, intersects, BitVec.and_or_distrib_right, h]
  exact congrArg (· != 0) BitVec.or_zero

theorem contains_or_self : contains (flags ||| op) op = true := by
  have h : (flags ||| op) &&& op = op := by
    ext i hi
    simp only [BitVec.getElem_and, BitVec.getElem_or]
    cases flags[i] <;> simp
  rw [contains, h]
  exact beq_self_eq_true _

/-- A context that allows `AddNOC` has not received it. -/
theorem contains_addNoc_eq_false : ∀ flags : NocFlags,
    intersects flags (addNocRecvd ||| updateCsrReqRecvd ||| updateNocRecvd) = false →
      contains flags addNocRecvd = false := by
  decide +kernel

end NocFlags

structure ArmedCtx where
  armedAt : ℕ
  timeoutSecs : ℕ
  /-- for which fabric, `0` for none -/
  fabIdx : ℕ
  flags : NocFlags
  deriving DecidableEq

/-- Has the fabric of the context been added under the fail-safe? -/
def ArmedCtx.added (ctx : ArmedCtx) : Bool := NocFlags.contains ctx.flags NocFlags.addNocRecvd

inductive FailSafe.State where
  | idle
  | armed (ctx : ArmedCtx)
  deriving DecidableEq

structure FailSafe where
  state : FailSafe.State
  /-- the secret key of the last `CSRRequest` -/
  secretKey : List UInt8
  /-- the root certificate of the last `AddTrustedRootCertificate` -/
  rootCa : List UInt8
  breadcrumb : BitVec 64
  deriving DecidableEq

namespace FailSafe

def new : FailSafe := ⟨.idle, [], [], 0⟩

/-- The seconds the fail-safe is armed for when a PASE session has been established. -/
def defaultFailsafeExpirySecs : ℕ := 60

def getCaseFabIdx : SessionMode → Except ErrorCode ℕ
  | .case fabIdx _ => .ok fabIdx
  | _ => .error .gennCommInvalidAuthentication

/-- May a command be received on a session in this state? `present` are the commands that
must have been received before, `absent` those that must not, `op` is the command. -/
def checkState (fs : FailSafe) (mode : SessionMode) (present absent op : NocFlags) :
    Except ErrorCode Unit :=
  match fs.state with
  | .idle => .error .failSafeRequired
  | .armed ctx =>
    if mode = .plainText then .error .gennCommInvalidAuthentication
    else if op = NocFlags.updateNocRecvd ∧ mode.isCase = false then .error .gennCommInvalidAuthentication
    else if ctx.fabIdx ≠ mode.fabIdx then .error .nocInvalidFabricIndex
    else if NocFlags.contains ctx.flags present = false then
      -- no certificate signing request at all is told apart from one of the wrong kind
      if (op = NocFlags.addNocRecvd ∨ op = NocFlags.updateNocRecvd) ∧
          NocFlags.intersects ctx.flags (NocFlags.addCsrReqRecvd ||| NocFlags.updateCsrReqRecvd) = false then
        .error .nocMissingCsr
      else
        .error .constraintError
    else if NocFlags.intersects ctx.flags absent then .error .constraintError
    else .ok ()

/-- Is the fail-safe armed for the fabric of a session? -/
def checkArmed (fs : FailSafe) (mode : SessionMode) : Except ErrorCode Unit := fs.checkState mode 0 0 0

def isArmed (fs : FailSafe) : Bool :=
  match fs.state with
  | .idle => false
  | .armed _ => true

def isArmedFor (fs : FailSafe) (callerFabIdx : ℕ) : Bool :=
  match fs.state with
  | .idle => false
  | .armed ctx => ctx.fabIdx == callerFabIdx

/-- Has a fabric been added or updated under the fail-safe? -/
def hasPendingNocFor (fs : FailSafe) (callerFabIdx : ℕ) : Bool :=
  match fs.state with
  | .idle => false
  | .armed ctx =>
    ctx.fabIdx == callerFabIdx &&
      NocFlags.intersects ctx.flags (NocFlags.addNocRecvd ||| NocFlags.updateNocRecvd)

/-- Arm the fail-safe, or extend it on the session it is armed for; `commWindow` says whether
a commissioning window is open. Extending it by nothing disarms it. -/
def arm (nowMs timeoutSecs : ℕ) (breadcrumb : BitVec 64) (mode : SessionMode) (commWindow : Bool) :
    Prog ErrorCode FailSafe Unit := fun fs =>
  match fs.state with
  | .idle =>
    if mode = .plainText then (fs, .error .gennCommInvalidAuthentication)
    else if commWindow = true ∧ mode.isCase = true then (fs, .error .busy)
    else
      ({ fs with state := .armed ⟨nowMs, timeoutSecs, mode.fabIdx, 0⟩, breadcrumb }, .ok ())
  | .armed ctx =>
    match fs.checkState mode 0 0 0 with
    | .error e => (fs, .error e)
    | .ok () =>
      if 0 < timeoutSecs then
        ({ fs with state := .armed { ctx with armedAt := nowMs, timeoutSecs }, breadcrumb }, .ok ())
      else
        ({ fs with state := .idle, breadcrumb := 0 }, .ok ())

/-- Change the context. Where there is none the source panics. -/
def modifyCtx (f : ArmedCtx → ArmedCtx) (fs : FailSafe) : FailSafe :=
  match fs.state with
  | .idle => fs
  | .armed ctx => { fs with state := .armed (f ctx) }

def addFlags (flags : NocFlags) (fs : FailSafe) : FailSafe :=
  fs.modifyCtx fun ctx => { ctx with flags := ctx.flags ||| flags }

/-! ## Certificates and keys -/

/-- Take a root certificate that is signed by itself. -/
def addTrustedRootCert (crypto : Crypto) (mode : SessionMode) (rootCa : List UInt8) :
    Prog ErrorCode FailSafe Unit := do
  let fs ← Prog.get
  Prog.ofExcept (fs.checkState mode 0 NocFlags.addRootCertRecvd NocFlags.addRootCertRecvd)
  Prog.ofExcept ((crypto.verifyChain [rootCa]).mapError fun _ => .invalidCommand)
  Prog.modify ({ · with rootCa := [] })
  Prog.ensure (rootCa.length ≤ maxCertTlvLen) .invalidCommand
  Prog.modify ({ · with rootCa := rootCa })
  Prog.modify (addFlags NocFlags.addRootCertRecvd)

/-- Make a secret key for a certificate signing request of the kind `op`; `newKey` is what
the crypto library returns. -/
def csrReq (op : NocFlags) (newKey : Except ErrorCode (List UInt8)) (mode : SessionMode) :
    Prog ErrorCode FailSafe Unit := do
  let fs ← Prog.get
  Prog.ofExcept
    (fs.checkState mode 0 (NocFlags.addCsrReqRecvd ||| NocFlags.updateCsrReqRecvd) op)
  let secretKey ← Prog.ofExcept newKey
  Prog.modify ({ · with secretKey := secretKey })
  Prog.modify (addFlags op)

/-- Make a secret key for `AddNOC`. -/
def addCsrReq (newKey : Except ErrorCode (List UInt8)) (mode : SessionMode) :
    Prog ErrorCode FailSafe Unit := csrReq NocFlags.addCsrReqRecvd newKey mode

/-- Make a secret key for `UpdateNOC`, on a CASE session only. -/
def updateCsrReq (newKey : Except ErrorCode (List UInt8)) (mode : SessionMode) :
    Prog ErrorCode FailSafe Unit := do
  let _ ← Prog.ofExcept (getCaseFabIdx mode)
  csrReq NocFlags.updateCsrReqRecvd newKey mode

/-- Check the chain of a node certificate. An intermediate certificate must not be
signed by itself. -/
def validateCerts (crypto : Crypto) (noc : List UInt8) (icac : Option (List UInt8))
    (root : List UInt8) : Except ErrorCode Unit :=
  match icac with
  | none => crypto.verifyChain [noc, root]
  | some icac => do
    let selfSigned ← crypto.isSelfSigned icac
    if selfSigned then throw .invalidData
    else crypto.verifyChain [noc, icac, root]

/-- Is there no fabric with this id under this root? -/
def checkConflict (crypto : Crypto) (fabricId : BitVec 64) (rootPubkey : List UInt8) :
    Fabrics → Except ErrorCode Unit
  | [] => .ok ()
  | fabric :: fabrics =>
    if fabric.fabricId = fabricId then do
      let pubkey ← crypto.pubkey fabric.rootCa
      if pubkey = rootPubkey then throw .nocFabricConflict
      else checkConflict crypto fabricId rootPubkey fabrics
    else
      checkConflict crypto fabricId rootPubkey fabrics

/-- Check a node certificate against the key of the last `CSRRequest`. -/
def checkPubkey (crypto : Crypto) (fs : FailSafe) (noc : List UInt8) : Except ErrorCode Unit := do
  let csrPubkey ← crypto.pubKeyOf fs.secretKey
  let nocPubkey ← crypto.pubkey noc
  if csrPubkey = nocPubkey then return () else throw .nocInvalidPublicKey

end FailSafe

/-! ## Identities -/

/-- The two tables that adding and replacing an identity works on. -/
structure FailSafeFabrics where
  failsafe : FailSafe
  fabrics : Fabrics

namespace FailSafe

/-- Everything `UpdateNOC` checks: the fabric it is about, if all is well. -/
def checkUpdateNoc (crypto : Crypto) (s : FailSafeFabrics) (mode : SessionMode)
    (icac : Option (List UInt8)) (noc : List UInt8) : Except ErrorCode ℕ := do
  let fabIdx ← getCaseFabIdx mode
  s.failsafe.checkState mode NocFlags.updateCsrReqRecvd
    (NocFlags.addRootCertRecvd ||| NocFlags.addNocRecvd ||| NocFlags.addCsrReqRecvd |||
      NocFlags.updateNocRecvd) NocFlags.updateNocRecvd
  let fabric ← (Fabrics.get s.fabrics fabIdx).elim (throw .notFound) pure
  (validateCerts crypto noc icac fabric.rootCa).mapError fun _ => .nocInvalidNoc
  checkPubkey crypto s.failsafe noc
  let fabricId ← crypto.getFabricId noc
  if fabricId = fabric.fabricId then return fabIdx else throw .nocFabricConflict

/-- Replace the identity of a fabric, under its own root. -/
def updateNoc (crypto : Crypto) (mode : SessionMode) (icac : Option (List UInt8))
    (noc : List UInt8) : Prog ErrorCode FailSafeFabrics Unit := do
  let s ← Prog.get
  let fabIdx ← Prog.ofExcept (checkUpdateNoc crypto s mode icac noc)
  Prog.zoom FailSafeFabrics.fabrics (fun s fabrics => { s with fabrics })
    (Fabrics.update crypto fabIdx s.failsafe.secretKey noc (icac.getD []))
  Prog.modify fun s =>
    { s with
      failsafe :=
        (s.failsafe.modifyCtx ({ · with fabIdx := fabIdx })).addFlags NocFlags.updateNocRecvd }

/-- What `AddNOC` is asked to add. -/
structure NocRequest where
  vendorId : BitVec 16
  icac : Option (List UInt8)
  noc : List UInt8
  ipk : List UInt8
  caseAdminSubject : BitVec 64
  deriving DecidableEq

/-- Everything `AddNOC` checks before it adds the fabric. -/
def checkAddNoc (crypto : Crypto) (s : FailSafeFabrics) (mode : SessionMode) (req : NocRequest) :
    Except ErrorCode Unit := do
  s.failsafe.checkState mode (NocFlags.addRootCertRecvd ||| NocFlags.addCsrReqRecvd)
    (NocFlags.addNocRecvd ||| NocFlags.updateCsrReqRecvd ||| NocFlags.updateNocRecvd)
    NocFlags.addNocRecvd
  if isNode req.caseAdminSubject = false ∧ isNocCat req.caseAdminSubject = false then
    throw .nocInvalidAdminSubject
  (validateCerts crypto req.noc req.icac s.failsafe.rootCa).mapError fun _ => .nocInvalidNoc
  checkPubkey crypto s.failsafe req.noc
  let fabricId ← crypto.getFabricId req.noc
  let rootPubkey ← crypto.pubkey s.failsafe.rootCa
  checkConflict crypto fabricId rootPubkey s.fabrics
  if req.ipk.length = aeadCanonKeyLen then return () else throw .invalidData

/-- The error `AddNOC` reports where the table of fabrics is full. -/
def tableFull : ErrorCode → ErrorCode
  | .resourceExhausted => .nocFabricTableFull
  | e => e

def addNoc (crypto : Crypto) (mode : SessionMode) (req : NocRequest) :
    Prog ErrorCode FailSafeFabrics Fabric := do
  let s ← Prog.get
  Prog.ofExcept (checkAddNoc crypto s mode req)
  let fabric ← Prog.mapError tableFull
    (Prog.zoom FailSafeFabrics.fabrics (fun s fabrics => { s with fabrics })
      (Fabrics.add crypto s.failsafe.secretKey s.failsafe.rootCa req.noc (req.icac.getD []) req.ipk
        req.vendorId req.caseAdminSubject))
  Prog.modify fun s =>
    { s with
      failsafe :=
        (s.failsafe.modifyCtx ({ · with fabIdx := fabric.fabIdx })).addFlags NocFlags.addNocRecvd }
  return fabric

/-- The owner of a CASE session ends the fail-safe: its fabric stays. -/
def disarm (mode : SessionMode) : Prog ErrorCode FailSafeFabrics Fabric := do
  let s ← Prog.get
  Prog.ensure s.failsafe.isArmed .failSafeRequired
  let fabIdx ← Prog.ofExcept (getCaseFabIdx mode)
  Prog.ofExcept (s.failsafe.checkState mode 0 0 0)
  let fabric ← Prog.ofExcept ((Fabrics.get s.fabrics fabIdx).elim (.error .notFound) .ok)
  Prog.modify fun s => { s with failsafe := { s.failsafe with state := .idle, breadcrumb := 0 } }
  return fabric

/-! ## What the checks say -/

/-- What every command sees of the context: its fabric, and whether that one has been added
under the fail-safe. -/
def context (fs : FailSafe) : Option (ℕ × Bool) :=
  match fs.state with
  | .idle => none
  | .armed ctx => some (ctx.fabIdx, ctx.added)

variable {fs : FailSafe} {mode : SessionMode} {present absent op : NocFlags} {ctx : ArmedCtx}

/-- A command that passes the check comes from the owner of the context. -/
theorem checkState_ok (h : fs.checkState mode present absent op = .ok ()) :
    ∃ ctx, fs.state = .armed ctx ∧ ctx.fabIdx = mode.fabIdx ∧
      NocFlags.contains ctx.flags present = true ∧ NocFlags.intersects ctx.flags absent = false := by
  rw [checkState] at h
  cases hst : fs.state with
  | idle => rw [hst] at h; cases h
  | armed ctx =>
    rw [hst] at h
    simp only [ne_eq, ite_not] at h
    split_ifs at h with h1 h2 h3 h4 h5 h6
    exact ⟨ctx, rfl, h3, by simpa using h4, by simpa using h6⟩

theorem checkState_of_ne (hst : fs.state = .armed ctx) (hne : mode.fabIdx ≠ ctx.fabIdx) :
    ∃ e, fs.checkState mode present absent op = .error e := by
  cases h : fs.checkState mode present absent op with
  | error e => exact ⟨e, rfl⟩
  | ok _ =>
    obtain ⟨ctx', hst', hfab, -⟩ := checkState_ok h
    rw [hst, State.armed.injEq] at hst'
    exact absurd (hst' ▸ hfab).symm hne

theorem context_of_armed (hst : fs.state = .armed ctx) : fs.context = some (ctx.fabIdx, ctx.added) := by
  rw [context, hst]

variable {fabIdx : ℕ} {added : Bool}

theorem armed_of_context (h : fs.context = some (fabIdx, added)) :
    ∃ ctx, fs.state = .armed ctx ∧ ctx.fabIdx = fabIdx ∧ ctx.added = added := by
  rw [context] at h
  cases hst : fs.state with
  | idle => rw [hst] at h; cases h
  | armed ctx =>
    rw [hst, Option.some_inj, Prod.mk.injEq] at h
    exact ⟨ctx, rfl, h⟩

theorem context_of_new {armedAt timeoutSecs fabIdx : ℕ}
    (hst : fs.state = .armed ⟨armedAt, timeoutSecs, fabIdx, 0⟩) : fs.context = some (fabIdx, false) := by
  have hflags : NocFlags.contains 0 NocFlags.addNocRecvd = false := by decide
  rw [context_of_armed hst, ArmedCtx.added, hflags]

theorem isArmedFor_of_context (h : fs.context = some (fabIdx, added)) :
    fs.isArmedFor fabIdx = true := by
  obtain ⟨ctx, hst, rfl, -⟩ := armed_of_context h
  rw [isArmedFor, hst]
  exact beq_self_eq_true _

theorem context_of_isArmedFor (h : fs.isArmedFor fabIdx = true) :
    ∃ added, fs.context = some (fabIdx, added) := by
  rw [isArmedFor] at h
  cases hst : fs.state with
  | idle => rw [hst] at h; cases h
  | armed ctx =>
    rw [hst, beq_iff_eq] at h
    exact ⟨ctx.added, by rw [context_of_armed hst, h]⟩

/-- The flag of a command that adds no fabric leaves the context as it is. -/
theorem context_addFlags {flags : NocFlags} (h : flags &&& NocFlags.addNocRecvd = 0) :
    (fs.addFlags flags).context = fs.context := by
  rw [addFlags, modifyCtx]
  cases hst : fs.state with
  | idle => rfl
  | armed ctx =>
    rw [context_of_armed hst]
    show some (ctx.fabIdx, _) = _
    simp only [ArmedCtx.added, NocFlags.contains_or h]

theorem context_addFlags_addNoc (h : fs.context = some (fabIdx, added)) :
    (fs.addFlags NocFlags.addNocRecvd).context = some (fabIdx, true) := by
  obtain ⟨ctx, hst, rfl, -⟩ := armed_of_context h
  rw [addFlags, modifyCtx, hst]
  show some (ctx.fabIdx, _) = _
  simp only [ArmedCtx.added, NocFlags.contains_or_self]

theorem context_setFabIdx {fabIdx fabIdx' : ℕ} (h : fs.context = some (fabIdx, added)) :
    (fs.modifyCtx ({ · with fabIdx := fabIdx' })).context = some (fabIdx', added) := by
  obtain ⟨ctx, hst, -, rfl⟩ := armed_of_context h
  rw [modifyCtx, hst]
  rfl

/-! ## What the operations do to the context -/

theorem keeps_addTrustedRootCert (crypto : Crypto) (mode : SessionMode) (rootCa : List UInt8) :
    Prog.Keeps context (addTrustedRootCert crypto mode rootCa) := by
  refine keeps_bind keeps_get fun fs => ?_
  refine keeps_bind (keeps_ofExcept _) fun _ => keeps_bind (keeps_ofExcept _) fun _ => ?_
  refine keeps_bind (keeps_modify fun _ => rfl) fun _ => ?_
  refine keeps_bind (keeps_ensure _ _) fun _ => ?_
  refine keeps_bind (keeps_modify fun _ => rfl) fun _ => ?_
  exact keeps_modify fun _ => context_addFlags (by decide)

theorem keeps_csrReq (hop : op &&& NocFlags.addNocRecvd = 0) (newKey : Except ErrorCode (List UInt8))
    (mode : SessionMode) : Prog.Keeps context (csrReq op newKey mode) := by
  refine keeps_bind keeps_get fun fs => ?_
  refine keeps_bind (keeps_ofExcept _) fun _ => keeps_bind (keeps_ofExcept _) fun _ => ?_
  refine keeps_bind (keeps_modify fun _ => rfl) fun _ => ?_
  exact keeps_modify fun _ => context_addFlags hop

theorem keeps_addCsrReq (newKey : Except ErrorCode (List UInt8)) (mode : SessionMode) :
    Prog.Keeps context (addCsrReq newKey mode) := keeps_csrReq (by decide) newKey mode

theorem keeps_updateCsrReq (newKey : Except ErrorCode (List UInt8)) (mode : SessionMode) :
    Prog.Keeps context (updateCsrReq newKey mode) :=
  keeps_bind (keeps_ofExcept _) fun _ => keeps_csrReq (by decide) newKey mode

variable {r : Except ErrorCode Unit}

/-- Arming is refused, arms an idle fail-safe for the fabric of the session, or extends the
context of that fabric. -/
theorem arm_cases {nowMs timeoutSecs : ℕ} {breadcrumb : BitVec 64} {commWindow : Bool}
    {fs' : FailSafe}
    (h : (arm nowMs timeoutSecs breadcrumb mode commWindow).run fs = (fs', r)) :
    (fs' = fs ∧ ∃ e, r = .error e) ∨
      (fs.state = .idle ∧ fs'.state = .armed ⟨nowMs, timeoutSecs, mode.fabIdx, 0⟩ ∧ r = .ok ()) ∨
      (∃ added, fs.context = some (mode.fabIdx, added) ∧ r = .ok () ∧
        (0 < timeoutSecs → fs'.context = fs.context)) := by
  rw [Prog.run, arm] at h
  cases hst : fs.state with
  | idle =>
    rw [hst] at h
    simp only at h
    split_ifs at h with h1 h2
    · exact .inl ⟨(Prod.mk.inj h).1.symm, _, (Prod.mk.inj h).2.symm⟩
    · exact .inl ⟨(Prod.mk.inj h).1.symm, _, (Prod.mk.inj h).2.symm⟩
    · obtain ⟨rfl, rfl⟩ := Prod.mk.inj h
      exact .inr (.inl ⟨rfl, rfl, rfl⟩)
  | armed ctx =>
    rw [hst] at h
    dsimp only at h
    cases hchk : fs.checkState mode 0 0 0 with
    | error e =>
      rw [hchk] at h
      exact .inl ⟨(Prod.mk.inj h).1.symm, e, (Prod.mk.inj h).2.symm⟩
    | ok _ =>
      rw [hchk] at h
      dsimp only at h
      obtain ⟨ctx', hst', hfab, -⟩ := checkState_ok hchk
      rw [hst, State.armed.injEq] at hst'
      subst hst'
      refine .inr (.inr ⟨ctx.added, by rw [context_of_armed hst, hfab], ?_⟩)
      split_ifs at h with h0
      · obtain ⟨rfl, rfl⟩ := Prod.mk.inj h
        exact ⟨rfl, fun _ => by rw [context_of_armed hst]; rfl⟩
      · obtain ⟨rfl, rfl⟩ := Prod.mk.inj h
        exact ⟨rfl, fun h => absurd h h0⟩

theorem getCaseFabIdx_ok (h : getCaseFabIdx mode = .ok fabIdx) :
    mode.fabIdx = fabIdx ∧ mode.isCase = true := by
  cases mode with
  | case f cats => cases h; exact ⟨rfl, rfl⟩
  | pase f => cases h
  | group f g => cases h
  | plainText => cases h

variable {crypto : Crypto} {icac : Option (List UInt8)} {noc : List UInt8}

theorem checkUpdateNoc_ok {s : FailSafeFabrics}
    (h : checkUpdateNoc crypto s mode icac noc = .ok fabIdx) :
    mode.fabIdx = fabIdx ∧ s.failsafe.isArmedFor fabIdx = true ∧ Fabrics.get s.fabrics fabIdx ≠ none := by
  simp only [checkUpdateNoc, except_bind_eq_ok] at h
  obtain ⟨f, hf, ⟨⟩, hst, fabric, hget, -, -, -, -, fabricId, -, hid⟩ := h
  obtain ⟨rfl, -⟩ := getCaseFabIdx_ok hf
  obtain ⟨ctx, hctx, hfab, -⟩ := checkState_ok hst
  split_ifs at hid
  cases hid
  refine ⟨rfl, ?_, ?_⟩
  · rw [← hfab]
    exact isArmedFor_of_context (context_of_armed hctx)
  · cases hg : Fabrics.get s.fabrics mode.fabIdx with
    | none => rw [hg] at hget; cases hget
    | some _ => exact Option.some_ne_none _

theorem checkAddNoc_ok {s : FailSafeFabrics} {req : NocRequest}
    (h : checkAddNoc crypto s mode req = .ok ()) : s.failsafe.context = some (mode.fabIdx, false) := by
  rw [checkAddNoc, except_bind_eq_ok] at h
  obtain ⟨⟨⟩, hst, -⟩ := h
  obtain ⟨ctx, hctx, hfab, -, habsent⟩ := checkState_ok hst
  rw [context_of_armed hctx, hfab]
  rw [ArmedCtx.added, NocFlags.contains_addNoc_eq_false _ habsent]

variable {s s' : FailSafeFabrics}

/-- `UpdateNOC` keeps the context; it replaces the fabric of the context or nothing. -/
theorem updateNoc_cases
    (h : (updateNoc crypto mode icac noc).run s = (s', r)) :
    s' = s ∨
      ∃ fabric', s.failsafe.isArmedFor fabric'.fabIdx = true ∧ mode.fabIdx = fabric'.fabIdx ∧
        Fabrics.get s.fabrics fabric'.fabIdx ≠ none ∧ s'.failsafe.context = s.failsafe.context ∧
        s'.fabrics = replaceKey Fabric.fabIdx s.fabrics fabric'.fabIdx fabric' := by
  rw [updateNoc, run_bind_of_ok (run_get s)] at h
  cases hchk : checkUpdateNoc crypto s mode icac noc with
  | error e =>
    rw [hchk, run_bind_of_error (run_ofExcept _ _)] at h
    exact .inl (Prod.mk.inj h).1.symm
  | ok fabIdx =>
    rw [hchk, run_bind_of_ok (run_ofExcept _ _)] at h
    obtain ⟨hmode, harmed, hget⟩ := checkUpdateNoc_ok hchk
    cases hupd : (Fabrics.update crypto fabIdx s.failsafe.secretKey noc (icac.getD [])).run s.fabrics with
    | mk fabrics r' =>
      rcases Fabrics.fabricMut_cases (Fabric.keeps_update _ _ _ _ _ _ _ _) hupd with
        ⟨hnone, -, -⟩ | ⟨fabric, fabric', -, -, hidx, rfl⟩
      · exact absurd hnone hget
      subst hidx
      have hzoom := run_zoom (fun s fabrics => { s with fabrics }) s hupd
      refine .inr ⟨fabric', harmed, hmode, hget, ?_⟩
      cases r' with
      | error e =>
        rw [run_bind_of_error hzoom] at h
        obtain ⟨rfl, -⟩ := Prod.mk.inj h
        exact ⟨rfl, rfl⟩
      | ok _ =>
        rw [run_bind_of_ok hzoom, run_modify] at h
        obtain ⟨rfl, -⟩ := Prod.mk.inj h
        refine ⟨?_, rfl⟩
        rw [context_addFlags (by decide)]
        obtain ⟨added, hadded⟩ := context_of_isArmedFor harmed
        rw [hadded]
        exact context_setFabIdx hadded

/-- `AddNOC` fails and changes nothing, or adds a fabric with a free index, which is from
then on the fabric of the context. -/
theorem addNoc_cases {req : NocRequest}
    {r : Except ErrorCode Fabric} (h : (addNoc crypto mode req).run s = (s', r)) :
    (s' = s ∧ ∃ e, r = .error e) ∨
      ∃ fabric, r = .ok fabric ∧ s.failsafe.context = some (mode.fabIdx, false) ∧
        s'.failsafe.context = some (fabric.fabIdx, true) ∧ s'.fabrics = s.fabrics ++ [fabric] ∧
        Fabrics.get s.fabrics fabric.fabIdx = none ∧ 1 ≤ fabric.fabIdx ∧ fabric.fabIdx ≤ 254 ∧
        s.fabrics.length < maxFabrics := by
  rw [addNoc, run_bind_of_ok (run_get s)] at h
  cases hchk : checkAddNoc crypto s mode req with
  | error e =>
    rw [hchk, run_bind_of_error (run_ofExcept _ _)] at h
    exact .inl ⟨(Prod.mk.inj h).1.symm, e, (Prod.mk.inj h).2.symm⟩
  | ok _ =>
    rw [hchk, run_bind_of_ok (run_ofExcept _ _)] at h
    have hctx := checkAddNoc_ok hchk
    cases hadd : (Fabrics.add crypto s.failsafe.secretKey s.failsafe.rootCa req.noc (req.icac.getD [])
        req.ipk req.vendorId req.caseAdminSubject).run s.fabrics with
    | mk fabrics r' =>
      have hzoom := run_zoom (fun s fabrics => { s with fabrics }) s hadd
      rcases Fabrics.addWithPostInit_cases (Fabric.keeps_update _ _ _ _ _ _ _ _) hadd with
        ⟨e, rfl, rfl⟩ | ⟨fabric, rfl, rfl, hfree, hlo, hhi, hlen⟩
      · rw [run_bind_of_error (run_mapError_of_error _ hzoom)] at h
        exact .inl ⟨(Prod.mk.inj h).1.symm, _, (Prod.mk.inj h).2.symm⟩
      · rw [run_bind_of_ok (run_mapError_of_ok _ hzoom),
          run_bind_of_ok (run_modify _ _), run_pure] at h
        obtain ⟨rfl, rfl⟩ := Prod.mk.inj h
        refine .inr ⟨fabric, rfl, hctx, ?_, rfl, hfree, hlo, hhi, hlen⟩
        exact context_addFlags_addNoc (context_setFabIdx hctx)

/-- Disarming fails and changes nothing, or leaves an idle fail-safe and the fabric of the
context, which is the one of the session. -/
theorem disarm_cases {r : Except ErrorCode Fabric}
    (h : (disarm mode).run s = (s', r)) :
    (s' = s ∧ ∃ e, r = .error e) ∨
      ∃ fabric, r = .ok fabric ∧ s.failsafe.isArmedFor fabric.fabIdx = true ∧
        mode.fabIdx = fabric.fabIdx ∧ Fabrics.get s.fabrics fabric.fabIdx = some fabric ∧
        s'.failsafe.state = .idle ∧ s'.failsafe.breadcrumb = 0 ∧ s'.fabrics = s.fabrics := by
  rw [disarm, run_bind_of_ok (run_get s)] at h
  by_cases harmed : s.failsafe.isArmed = true
  swap
  · rw [run_bind_of_error (run_ensure_of_neg harmed _ _)] at h
    exact .inl ⟨(Prod.mk.inj h).1.symm, _, (Prod.mk.inj h).2.symm⟩
  rw [run_bind_of_ok (run_ensure_of_pos harmed _ _)] at h
  cases hcase : getCaseFabIdx mode with
  | error e =>
    rw [hcase, run_bind_of_error (run_ofExcept _ _)] at h
    exact .inl ⟨(Prod.mk.inj h).1.symm, _, (Prod.mk.inj h).2.symm⟩
  | ok fabIdx =>
    obtain ⟨hmode, -⟩ := getCaseFabIdx_ok hcase
    rw [hcase, run_bind_of_ok (run_ofExcept _ _)] at h
    cases hchk : s.failsafe.checkState mode 0 0 0 with
    | error e =>
      rw [hchk, run_bind_of_error (run_ofExcept _ _)] at h
      exact .inl ⟨(Prod.mk.inj h).1.symm, _, (Prod.mk.inj h).2.symm⟩
    | ok _ =>
      rw [hchk, run_bind_of_ok (run_ofExcept _ _)] at h
      obtain ⟨ctx, hctx, hfab, -⟩ := checkState_ok hchk
      cases hget : Fabrics.get s.fabrics fabIdx with
      | none =>
        rw [hget] at h
        exact .inl ⟨(Prod.mk.inj h).1.symm, _, (Prod.mk.inj h).2.symm⟩
      | some fabric =>
        rw [hget] at h
        obtain ⟨rfl, rfl⟩ := Prod.mk.inj h
        have hidx : fabric.fabIdx = fabIdx := Fabrics.fabIdx_of_get hget
        subst hidx
        refine .inr ⟨fabric, rfl, ?_, hmode, hget, rfl, rfl, rfl⟩
        rw [← hmode, ← hfab]
        exact isArmedFor_of_context (context_of_armed hctx)

/-! ## What the operations do to the flags and the keys -/

/-- What is received, and the key: what the order of the commands depends on. -/
def progress (fs : FailSafe) : Option NocFlags × List UInt8 :=
  match fs.state with
  | .idle => (none, fs.secretKey)
  | .armed ctx => (some ctx.flags, fs.secretKey)

theorem progress_of_armed (hst : fs.state = .armed ctx) :
    fs.progress = (some ctx.flags, fs.secretKey) := by
  rw [progress, hst]

theorem progress_addFlags {flags : NocFlags} (hst : fs.state = .armed ctx) :
    (fs.addFlags flags).progress = (some (ctx.flags ||| flags), fs.secretKey) := by
  rw [addFlags, modifyCtx, hst]
  rfl

/-- A request for a key fails and changes nothing, or there was none before. -/
theorem csrReq_cases {newKey : Except ErrorCode (List UInt8)} {fs' : FailSafe}
    (h : (csrReq op newKey mode).run fs = (fs', r)) :
    (fs' = fs ∧ ∃ e, r = .error e) ∨
      ∃ ctx key, r = .ok () ∧ fs.state = .armed ctx ∧ newKey = .ok key ∧
        NocFlags.intersects ctx.flags (NocFlags.addCsrReqRecvd ||| NocFlags.updateCsrReqRecvd) =
          false ∧ fs'.progress = (some (ctx.flags ||| op), key) := by
  rw [csrReq, run_bind_of_ok (run_get fs)] at h
  cases hchk : fs.checkState mode 0 (NocFlags.addCsrReqRecvd ||| NocFlags.updateCsrReqRecvd) op with
  | error e =>
    rw [hchk, run_bind_of_error (run_ofExcept _ _)] at h
    exact .inl ⟨(Prod.mk.inj h).1.symm, e, (Prod.mk.inj h).2.symm⟩
  | ok _ =>
    obtain ⟨ctx, hst, -, -, habsent⟩ := checkState_ok hchk
    rw [hchk, run_bind_of_ok (run_ofExcept _ _)] at h
    cases newKey with
    | error e =>
      rw [run_bind_of_error (run_ofExcept _ _)] at h
      exact .inl ⟨(Prod.mk.inj h).1.symm, e, (Prod.mk.inj h).2.symm⟩
    | ok key =>
      rw [run_bind_of_ok (run_ofExcept _ _), run_bind_of_ok (run_modify _ _),
        run_modify] at h
      obtain ⟨rfl, rfl⟩ := Prod.mk.inj h
      refine .inr ⟨ctx, key, rfl, hst, rfl, habsent, ?_⟩
      have hst : ({ fs with secretKey := key } : FailSafe).state = .armed ctx := hst
      rw [progress_addFlags hst]

theorem addTrustedRootCert_cases {rootCa : List UInt8} {fs' : FailSafe}
    (h : (addTrustedRootCert crypto mode rootCa).run fs = (fs', r)) :
    (fs'.progress = fs.progress ∧ ∃ e, r = .error e) ∨
      ∃ ctx, r = .ok () ∧ fs.state = .armed ctx ∧
        fs'.progress = (some (ctx.flags ||| NocFlags.addRootCertRecvd), fs.secretKey) := by
  rw [addTrustedRootCert, run_bind_of_ok (run_get fs)] at h
  cases hchk : fs.checkState mode 0 NocFlags.addRootCertRecvd NocFlags.addRootCertRecvd with
  | error e =>
    rw [hchk, run_bind_of_error (run_ofExcept _ _)] at h
    obtain ⟨rfl, rfl⟩ := Prod.mk.inj h
    exact .inl ⟨rfl, e, rfl⟩
  | ok _ =>
    obtain ⟨ctx, hst, -⟩ := checkState_ok hchk
    rw [hchk, run_bind_of_ok (run_ofExcept _ _)] at h
    cases hchain : (crypto.verifyChain [rootCa]).mapError fun _ => ErrorCode.invalidCommand with
    | error e =>
      rw [hchain, run_bind_of_error (run_ofExcept _ _)] at h
      obtain ⟨rfl, rfl⟩ := Prod.mk.inj h
      exact .inl ⟨rfl, e, rfl⟩
    | ok _ =>
      rw [hchain, run_bind_of_ok (run_ofExcept _ _),
        run_bind_of_ok (run_modify _ _)] at h
      by_cases hlen : rootCa.length ≤ maxCertTlvLen
      · rw [run_bind_of_ok (run_ensure_of_pos hlen _ _),
          run_bind_of_ok (run_modify _ _), run_modify] at h
        obtain ⟨rfl, rfl⟩ := Prod.mk.inj h
        refine .inr ⟨ctx, rfl, hst, ?_⟩
        have hst : ({ fs with rootCa := rootCa } : FailSafe).state = .armed ctx := hst
        rw [progress_addFlags hst]
      · rw [run_bind_of_error (run_ensure_of_neg hlen _ _)] at h
        obtain ⟨rfl, rfl⟩ := Prod.mk.inj h
        exact .inl ⟨rfl, _, rfl⟩

/-- Everything but the key is as it was before `AddNOC` has set the fabric of the context. -/
theorem progress_setFabIdx_addFlags {flags : NocFlags} (hst : fs.state = .armed ctx) :
    ((fs.modifyCtx ({ · with fabIdx := fabIdx })).addFlags flags).progress =
      (some (ctx.flags ||| flags), fs.secretKey) := by
  rw [modifyCtx, hst, progress_addFlags rfl]

/-- The key of the last request is that of a certificate that passes the check. -/
theorem checkPubkey_ok
    (h : checkPubkey crypto fs noc = .ok ()) :
    ∃ pub, crypto.pubKeyOf fs.secretKey = .ok pub ∧ crypto.pubkey noc = .ok pub := by
  simp only [checkPubkey, except_bind_eq_ok] at h
  obtain ⟨pub, hpub, pub', hnoc, heq⟩ := h
  split_ifs at heq with hpubs
  exact ⟨pub, hpub, hpubs ▸ hnoc⟩

theorem mapError_eq_ok {ε ε' α : Type} {f : ε → ε'} {x : Except ε α} {a : α} :
    x.mapError f = .ok a ↔ x = .ok a := by
  cases x with
  | error e => exact ⟨nofun, nofun⟩
  | ok b => exact Iff.of_eq (by rw [Except.mapError, Except.ok.injEq, Except.ok.injEq])

/-- What `AddNOC` has checked of the fabric it adds. -/
theorem addNoc_ok {req : NocRequest} {fabric : Fabric}
    (h : (addNoc crypto mode req).run s = (s', .ok fabric)) :
    ∃ ctx, s.failsafe.state = .armed ctx ∧
      NocFlags.contains ctx.flags (NocFlags.addRootCertRecvd ||| NocFlags.addCsrReqRecvd) = true ∧
      NocFlags.intersects ctx.flags
        (NocFlags.addNocRecvd ||| NocFlags.updateCsrReqRecvd ||| NocFlags.updateNocRecvd) = false ∧
      s'.failsafe.progress = (some (ctx.flags ||| NocFlags.addNocRecvd), s.failsafe.secretKey) ∧
      s'.failsafe.isArmedFor fabric.fabIdx = true ∧
      validateCerts crypto req.noc req.icac s.failsafe.rootCa = .ok () ∧
      checkPubkey crypto s.failsafe req.noc = .ok () ∧
      (∃ fabIdx, (Fabric.update crypto (some s.failsafe.rootCa) req.noc (req.icac.getD [])
        s.failsafe.secretKey (some req.ipk) (some req.vendorId) (some req.caseAdminSubject)).run
          (Fabric.init fabIdx) = (fabric, .ok ())) := by
  rw [addNoc, run_bind_of_ok (run_get s)] at h
  simp only [run_bind_eq_ok, run_ofExcept_eq_ok, run_mapError_eq_ok,
    run_zoom_eq_ok, run_modify_eq_ok] at h
  obtain ⟨_, _, ⟨hchk, rfl⟩, _, _, ⟨fabrics, hadd, rfl⟩, _, _, rfl, h⟩ := h
  obtain ⟨rfl, hfabric⟩ := Prod.mk.inj h
  cases hfabric
  rw [checkAddNoc, except_bind_eq_ok] at hchk
  obtain ⟨_, hst, hchk⟩ := hchk
  obtain ⟨ctx, hctx, -, hpresent, habsent⟩ := checkState_ok hst
  by_cases hadmin : isNode req.caseAdminSubject = false ∧ isNocCat req.caseAdminSubject = false
  · rw [if_pos hadmin] at hchk
    cases hchk
  · rw [if_neg hadmin] at hchk
    simp only [except_bind_eq_ok] at hchk
    obtain ⟨_, hcerts, _, hpubkey, -⟩ := hchk
    obtain ⟨rfl, fabIdx, -, hupdate⟩ := Fabrics.addWithPostInit_ok hadd
    refine ⟨ctx, hctx, hpresent, habsent, progress_setFabIdx_addFlags hctx, ?_,
      mapError_eq_ok.mp hcerts, hpubkey, _, hupdate⟩
    dsimp only
    rw [modifyCtx, hctx, addFlags, modifyCtx, isArmedFor]
    exact beq_self_eq_true _

/-- What `UpdateNOC` has checked of the fabric it replaces. -/
theorem updateNoc_ok
    {u : Unit} (h : (updateNoc crypto mode icac noc).run s = (s', .ok u)) :
    ∃ ctx fabric fabric', s.failsafe.state = .armed ctx ∧ mode.isCase = true ∧
      NocFlags.contains ctx.flags NocFlags.updateCsrReqRecvd = true ∧
      NocFlags.intersects ctx.flags (NocFlags.addRootCertRecvd ||| NocFlags.addNocRecvd |||
        NocFlags.addCsrReqRecvd ||| NocFlags.updateNocRecvd) = false ∧
      s'.failsafe.progress = (some (ctx.flags ||| NocFlags.updateNocRecvd), s.failsafe.secretKey) ∧
      s'.failsafe.isArmedFor fabric.fabIdx = true ∧
      Fabrics.get s.fabrics fabric.fabIdx = some fabric ∧
      fabric'.fabIdx = fabric.fabIdx ∧
      s'.fabrics = replaceKey Fabric.fabIdx s.fabrics fabric.fabIdx fabric' ∧
      validateCerts crypto noc icac fabric.rootCa = .ok () ∧
      checkPubkey crypto s.failsafe noc = .ok () ∧
      (Fabric.update crypto none noc (icac.getD []) s.failsafe.secretKey none none none).run fabric =
        (fabric', .ok ()) := by
  rw [updateNoc, run_bind_of_ok (run_get s)] at h
  simp only [run_bind_eq_ok, run_ofExcept_eq_ok, run_zoom_eq_ok,
    run_modify_eq_ok] at h
  obtain ⟨_, fabIdx, ⟨hchk, rfl⟩, _, _, ⟨fabrics, hupd, rfl⟩, rfl⟩ := h
  simp only [checkUpdateNoc, except_bind_eq_ok] at hchk
  obtain ⟨f, hf, _, hst, fabric, hget, _, hcerts, _, hpubkey, fabricId, -, hid⟩ := hchk
  obtain ⟨-, hcase⟩ := getCaseFabIdx_ok hf
  obtain ⟨ctx, hctx, -, hpresent, habsent⟩ := checkState_ok hst
  split_ifs at hid
  cases hid
  obtain ⟨hnone, -, -⟩ | ⟨fabric₁, fabric', hget', hrun, hidx, rfl⟩ :=
    Fabrics.fabricMut_cases (Fabric.keeps_update _ _ _ _ _ _ _ _) hupd
  · rw [hnone] at hget
    cases hget
  · rw [hget'] at hget
    cases hget
    obtain rfl := Fabrics.fabIdx_of_get hget'
    refine ⟨ctx, fabric, fabric', hctx, hcase, hpresent, habsent, progress_setFabIdx_addFlags hctx, ?_,
      hget', hidx, rfl, mapError_eq_ok.mp hcerts, hpubkey, hrun⟩
    dsimp only
    rw [modifyCtx, hctx, addFlags, modifyCtx, isArmedFor]
    exact beq_self_eq_true _

/-- An `UpdateNOC` that fails leaves the fail-safe as it is, and has not passed the checks or could
not install the certificates. -/
theorem updateNoc_error
    {e : ErrorCode}
    (h : (updateNoc crypto mode icac noc).run s = (s', .error e)) :
    s'.failsafe = s.failsafe ∧ (s' = s ∨ ∃ fabIdx fabric fabric',
      checkUpdateNoc crypto s mode icac noc = .ok fabIdx ∧
      Fabrics.get s.fabrics fabIdx = some fabric ∧
      (Fabric.update crypto none noc (icac.getD []) s.failsafe.secretKey none none none).run fabric =
        (fabric', .error e)) := by
  rw [updateNoc, run_bind_of_ok (run_get s)] at h
  cases hchk : checkUpdateNoc crypto s mode icac noc with
  | error e =>
    rw [hchk, run_bind_of_error (run_ofExcept _ _)] at h
    obtain ⟨rfl, -⟩ := Prod.mk.inj h
    exact ⟨rfl, .inl rfl⟩
  | ok fabIdx =>
    rw [hchk, run_bind_of_ok (run_ofExcept _ _)] at h
    rcases hupd : (Fabrics.update crypto fabIdx s.failsafe.secretKey noc (icac.getD [])).run
      s.fabrics with ⟨fabrics, e' | _⟩
    · rw [run_bind_of_error (run_zoom _ s hupd)] at h
      obtain ⟨rfl, he⟩ := Prod.mk.inj h
      cases he
      obtain ⟨-, -, hget⟩ := checkUpdateNoc_ok hchk
      obtain ⟨hnone, -, -⟩ | ⟨fabric, fabric', hget, hrun, -, -⟩ :=
        Fabrics.fabricMut_cases (Fabric.keeps_update _ _ _ _ _ _ _ _) hupd
      · exact absurd hnone hget
      · exact ⟨rfl, .inr ⟨fabIdx, fabric, fabric', rfl, hget, hrun⟩⟩
    · rw [run_bind_of_ok (run_zoom _ s hupd)] at h
      cases h

theorem fabricId_of_checkUpdateNoc {s : FailSafeFabrics}
    (h : checkUpdateNoc crypto s mode icac noc = .ok fabIdx) :
    ∃ fabricId, crypto.getFabricId noc = .ok fabricId := by
  simp only [checkUpdateNoc, except_bind_eq_ok] at h
  obtain ⟨-, -, -, -, -, -, -, -, -, -, fabricId, hfabricId, -⟩ := h
  exact ⟨fabricId, hfabricId⟩

end FailSafe

end RsMatter
