import RsMatter.Expiry

/-!
# The order of the commands under the fail-safe

While the fail-safe is armed, a certificate is installed at most once: by `AddNOC`, after a root
certificate and a `CSRRequest` for it, or by `UpdateNOC`, after a `CSRRequest` for it over CASE and
without a root certificate. What has been received is kept as a set of flags and a key.

The log of a run has the commands that were carried out, the latest one first, and says where a
fail-safe was armed and where it ended. `NocProtocol` is what is said of it.
-/

namespace RsMatter

open Prog

open Device

inductive NocEvent where
  | armed
  | disarmed
  /-- a `CSRRequest` over a session, with the key that was generated for it -/
  | csrRequest (isForUpdateNoc : Bool) (mode : SessionMode) (newKey : Except ErrorCode (List UInt8))
  /-- `AddTrustedRootCertificate` -/
  | addTrustedRootCertificate (rootCa : List UInt8)
  /-- `AddNOC`, and the fabric that has its certificate -/
  | addNoc (fabric : Option Fabric)
  /-- `UpdateNOC`, and the fabric that has its certificate -/
  | updateNoc (fabric : Option Fabric)

namespace NocFlags

variable {flags op mask more fewer : NocFlags}

theorem intersects_eq_false : intersects flags mask = false ↔ flags &&& mask = 0#8 := by
  simp [intersects]

theorem intersects_or_of_ne (h : op &&& mask ≠ 0) : intersects (flags ||| op) mask ≠ false := by
  rw [Ne, intersects_eq_false, BitVec.and_or_distrib_right, BitVec.or_eq_zero_iff]
  exact fun hzero => h hzero.2

theorem intersects_mono (h : more &&& fewer = fewer) (hnone : intersects flags more = false) :
    intersects flags fewer = false := by
  rw [intersects_eq_false] at hnone ⊢
  rw [← h, ← BitVec.and_assoc, hnone, BitVec.zero_and]

theorem contains_eq_false (hop : 0#8 ≠ op) (h : intersects flags op = false) :
    contains flags op = false := by
  rw [intersects_eq_false] at h
  simp [contains, h, hop]

theorem contains_mono (h : more &&& fewer = fewer) (hall : contains flags more = true) :
    contains flags fewer = true := by
  rw [contains, beq_iff_eq] at hall ⊢
  rw [← h, ← BitVec.and_assoc, hall]

end NocFlags

namespace NocEvent

def csr? : NocEvent → Option (Bool × SessionMode × Except ErrorCode (List UInt8))
  | csrRequest isForUpdateNoc mode newKey => some (isForUpdateNoc, mode, newKey)
  | _ => none

def isRoot : NocEvent → Bool
  | addTrustedRootCertificate _ => true
  | _ => false

def isNoc : NocEvent → Bool
  | addNoc _ => true
  | updateNoc _ => true
  | _ => false

end NocEvent

/-- What happened under the fail-safe that is armed, if there is one. -/
def armedContext : List NocEvent → Option (List NocEvent)
  | [] => none
  | .armed :: _ => some []
  | .disarmed :: _ => none
  | e :: log => (armedContext log).map (e :: ·)

/-- A certificate has been installed that has the key of a `CSRRequest`. -/
def InstalledFor (crypto : Crypto) (fabric : Option Fabric)
    (newKey : Except ErrorCode (List UInt8)) : Prop :=
  ∃ f key pub, fabric = some f ∧ newKey = .ok key ∧ crypto.pubKeyOf key = .ok pub ∧
    crypto.pubkey f.noc = .ok pub

/-- What must have happened under the fail-safe before. -/
def NocEvent.Follows (crypto : Crypto) (events : List NocEvent) : NocEvent → Prop
  | addNoc fabric =>
    (∃ mode newKey, events.filterMap csr? = [(false, mode, newKey)] ∧
      InstalledFor crypto fabric newKey) ∧ events.any isRoot = true ∧ events.any isNoc = false
  | updateNoc fabric =>
    (∃ mode newKey, events.filterMap csr? = [(true, mode, newKey)] ∧ mode.isCase = true ∧
      InstalledFor crypto fabric newKey) ∧ events.any isRoot = false ∧ events.any isNoc = false
  | _ => True

/-- **The protocol.** Every command that installs a certificate is under a fail-safe, and follows
what it has to. -/
def NocProtocol (crypto : Crypto) : List NocEvent → Prop
  | [] => True
  | e :: log =>
    (e.isNoc = true → ∃ events, armedContext log = some events ∧ e.Follows crypto events) ∧
      NocProtocol crypto log

namespace Device

/-! ## Logging -/

def logOk (r : Except ErrorCode Unit) (e : NocEvent) : List NocEvent :=
  match r with
  | .ok () => [e]
  | .error _ => []

def contextFabric (d : Device) : Option Fabric :=
  d.failsafe.context.bind fun ctx => Fabrics.get d.fabrics ctx.1

/-- What is logged of a command. A `CSRRequest` has made a key even where its response cannot be
written. -/
def commandEvents (crypto : Crypto) (env : Env) (sess : StampedSession) (d d' : Device) :
    Command → List NocEvent
  | .csrRequest csrNonce isForUpdateNoc =>
    logOk ((handleCsrRequest { env with respond := .ok () } sess csrNonce isForUpdateNoc).run d).2
      (.csrRequest isForUpdateNoc sess.mode env.newKey)
  | .addTrustedRootCertificate rootCa =>
    logOk ((handleAddTrustedRootCertificate crypto sess rootCa).run d).2
      (.addTrustedRootCertificate rootCa)
  | .addNoc req => logOk ((handleAddNoc crypto sess req).run d).2 (.addNoc d'.contextFabric)
  | .updateNoc icac noc =>
    logOk ((handleUpdateNoc crypto sess icac noc).run d).2 (.updateNoc d'.contextFabric)
  | _ => []

def armEvents (d d' : Device) : List NocEvent :=
  match d.failsafe.isArmed, d'.failsafe.isArmed with
  | false, true => [.armed]
  | true, false => [.disarmed]
  | _, _ => []

def nocEvents (crypto : Crypto) (d d' : Device) : Action → List NocEvent
  | .invoke id env cmd =>
    armEvents d d' ++
      ((d.sessions.get id).elim [] fun sess => commandEvents crypto env sess d d' cmd)
  | _ => armEvents d d'

def nocMachine (crypto : Crypto) : Machine (Device × List NocEvent) Action :=
  ⟨fun s a => (step crypto s.1 a).map fun d' => (d', nocEvents crypto s.1 d' a ++ s.2)⟩

/-! ## What the flags say -/

/-- The flags and the key are those of what happened under the fail-safe. -/
structure Tracks (flags : NocFlags) (key : List UInt8) (events : List NocEvent) : Prop where
  /-- there was no `CSRRequest` -/
  noCsr : NocFlags.intersects flags (NocFlags.addCsrReqRecvd ||| NocFlags.updateCsrReqRecvd) = false →
    events.filterMap NocEvent.csr? = []
  /-- there was one for `AddNOC` -/
  addCsr : NocFlags.contains flags NocFlags.addCsrReqRecvd = true →
    ∃ mode, events.filterMap NocEvent.csr? = [(false, mode, .ok key)]
  /-- there was one for `UpdateNOC` -/
  updateCsr : NocFlags.contains flags NocFlags.updateCsrReqRecvd = true →
    ∃ mode, mode.isCase = true ∧ events.filterMap NocEvent.csr? = [(true, mode, .ok key)]
  root : NocFlags.contains flags NocFlags.addRootCertRecvd = events.any NocEvent.isRoot
  noNoc : NocFlags.intersects flags (NocFlags.addNocRecvd ||| NocFlags.updateNocRecvd) = false →
    events.any NocEvent.isNoc = false

def Logged (fs : FailSafe) (log : List NocEvent) : Prop :=
  match fs.progress with
  | (none, _) => armedContext log = none
  | (some flags, key) => ∃ events, armedContext log = some events ∧ Tracks flags key events

theorem tracks_nil (key : List UInt8) : Tracks 0 key [] :=
  ⟨fun _ => rfl, nofun, nofun, rfl, fun _ => rfl⟩

variable {flags : NocFlags} {key : List UInt8} {events : List NocEvent}

theorem Tracks.csrReq (h : Tracks flags key events) {key' : List UInt8} (mode : SessionMode)
    {isForUpdateNoc : Bool} (hcase : isForUpdateNoc = true → mode.isCase = true)
    (hnone : NocFlags.intersects flags
      (NocFlags.addCsrReqRecvd ||| NocFlags.updateCsrReqRecvd) = false) :
    Tracks (flags ||| cond isForUpdateNoc NocFlags.updateCsrReqRecvd NocFlags.addCsrReqRecvd) key'
      (.csrRequest isForUpdateNoc mode (.ok key') :: events) := by
  have hcsr : (NocEvent.csrRequest isForUpdateNoc mode (.ok key') :: events).filterMap
      NocEvent.csr? = [(isForUpdateNoc, mode, .ok key')] := by
    simp only [List.filterMap_cons, NocEvent.csr?, h.noCsr hnone]
  cases isForUpdateNoc with
  | false =>
    refine ⟨fun hno => ?_, fun _ => ⟨mode, hcsr⟩, fun hup => ?_, ?_, fun hno => ?_⟩
    · exact absurd hno (NocFlags.intersects_or_of_ne (by decide))
    · rw [NocFlags.contains_or (by decide),
        NocFlags.contains_eq_false (by decide) (NocFlags.intersects_mono (by decide) hnone)] at hup
      cases hup
    · rw [NocFlags.contains_or (by decide), h.root]
      rfl
    · rw [NocFlags.intersects_or (by decide)] at hno
      exact h.noNoc hno
  | true =>
    refine ⟨fun hno => ?_, fun hadd => ?_, fun _ => ⟨mode, hcase rfl, hcsr⟩, ?_, fun hno => ?_⟩
    · exact absurd hno (NocFlags.intersects_or_of_ne (by decide))
    · rw [NocFlags.contains_or (by decide),
        NocFlags.contains_eq_false (by decide) (NocFlags.intersects_mono (by decide) hnone)] at hadd
      cases hadd
    · rw [NocFlags.contains_or (by decide), h.root]
      rfl
    · rw [NocFlags.intersects_or (by decide)] at hno
      exact h.noNoc hno

theorem Tracks.addRoot (h : Tracks flags key events) (rootCa : List UInt8) :
    Tracks (flags ||| NocFlags.addRootCertRecvd) key (.addTrustedRootCertificate rootCa :: events) := by
  refine ⟨fun hno => ?_, fun hadd => ?_, fun hup => ?_, ?_, fun hno => ?_⟩
  · rw [NocFlags.intersects_or (by decide)] at hno
    exact h.noCsr hno
  · rw [NocFlags.contains_or (by decide)] at hadd
    exact h.addCsr hadd
  · rw [NocFlags.contains_or (by decide)] at hup
    exact h.updateCsr hup
  · rw [NocFlags.contains_or_self]
    rfl
  · rw [NocFlags.intersects_or (by decide)] at hno
    exact h.noNoc hno

/-- `AddNOC` or `UpdateNOC` was received; whether that is logged makes no difference. -/
theorem Tracks.noc (h : Tracks flags key events) {op : NocFlags}
    (hop : op = NocFlags.addNocRecvd ∨ op = NocFlags.updateNocRecvd) (es : List NocEvent)
    (hes : ∀ e ∈ es, e.isNoc = true) : Tracks (flags ||| op) key (es ++ events) := by
  have hcsr : (es ++ events).filterMap NocEvent.csr? = events.filterMap NocEvent.csr? := by
    rw [List.filterMap_append, List.filterMap_eq_nil_iff.mpr, List.nil_append]
    intro e he
    have := hes e he
    cases e <;> first | rfl | cases this
  have hroot : (es ++ events).any NocEvent.isRoot = events.any NocEvent.isRoot := by
    rw [List.any_append, List.any_eq_false.mpr, Bool.false_or]
    intro e he
    have := hes e he
    cases e <;> first | exact Bool.false_ne_true | cases this
  have hcsrBits : op &&& (NocFlags.addCsrReqRecvd ||| NocFlags.updateCsrReqRecvd) = 0 := by
    rcases hop with rfl | rfl <;> decide
  have haddBit : op &&& NocFlags.addCsrReqRecvd = 0 := by rcases hop with rfl | rfl <;> decide
  have hupBit : op &&& NocFlags.updateCsrReqRecvd = 0 := by rcases hop with rfl | rfl <;> decide
  have hrootBit : op &&& NocFlags.addRootCertRecvd = 0 := by rcases hop with rfl | rfl <;> decide
  refine ⟨fun hno => ?_, fun hadd => ?_, fun hup => ?_, ?_, fun hno => ?_⟩
  · rw [NocFlags.intersects_or hcsrBits] at hno
    rw [hcsr, h.noCsr hno]
  · rw [NocFlags.contains_or haddBit] at hadd
    rw [hcsr]
    exact h.addCsr hadd
  · rw [NocFlags.contains_or hupBit] at hup
    rw [hcsr]
    exact h.updateCsr hup
  · rw [NocFlags.contains_or hrootBit, hroot, h.root]
  · rcases hop with rfl | rfl
    · exact absurd hno (NocFlags.intersects_or_of_ne (by decide))
    · exact absurd hno (NocFlags.intersects_or_of_ne (by decide))

/-! ## Steps that leave the flags alone -/

variable {d d' : Device} {log : List NocEvent} {env : Env} {sess : StampedSession}

/-- The flags and the key stay, the fail-safe ends, or it is armed with no flags. -/
def Moves (fs fs' : FailSafe) : Prop :=
  fs'.progress = fs.progress ∨ fs'.progress.1 = none ∨
    (fs.progress.1 = none ∧ fs'.progress.1 = some 0)

theorem isArmed_eq (fs : FailSafe) : fs.isArmed = fs.progress.1.isSome := by
  rw [FailSafe.isArmed, FailSafe.progress]
  cases fs.state <;> rfl

theorem armEvents_of_progress (h : d'.failsafe.progress.1.isSome = d.failsafe.progress.1.isSome) :
    armEvents d d' = [] := by
  rw [armEvents, isArmed_eq, isArmed_eq, h]
  cases d.failsafe.progress.1 <;> rfl

theorem logged_of_moves (h : Logged d.failsafe log) (hmove : Moves d.failsafe d'.failsafe) :
    Logged d'.failsafe (armEvents d d' ++ log) := by
  rcases hmove with heq | hnone | ⟨hnone, hzero⟩
  · rw [armEvents_of_progress (by rw [heq]), Logged, heq]
    exact h
  · rw [armEvents, isArmed_eq, isArmed_eq, hnone]
    rw [Logged] at h ⊢
    rcases hp' : d'.failsafe.progress with ⟨_ | _, key'⟩
    · rcases hp : d.failsafe.progress with ⟨_ | flags, key⟩
      · rw [hp] at h
        exact h
      · rfl
    · rw [hp'] at hnone
      cases hnone
  · rw [armEvents, isArmed_eq, isArmed_eq, hnone, hzero, Logged]
    rcases hp' : d'.failsafe.progress with ⟨_ | flags, key'⟩
    · rw [hp'] at hzero
      cases hzero
    · rw [hp'] at hzero
      cases hzero
      exact ⟨[], rfl, tracks_nil _⟩

theorem moves_of_keeps {α : Type} {m : Prog ErrorCode Device α} (h : Prog.Keeps failsafe m) (d : Device) :
    Moves d.failsafe (m.run d).1.failsafe := by
  rw [h d]
  exact .inl rfl

theorem keeps_storeFabric (env : Env) (fabric : Fabric) : Prog.Keeps failsafe (storeFabric env fabric) :=
  keeps_bind (keeps_ensure _ _) fun _ => keeps_modify fun _ => rfl

theorem keeps_onFabrics {α : Type} (m : Prog ErrorCode Fabrics α) : Prog.Keeps failsafe (onFabrics m) :=
  fun _ => rfl

theorem keeps_editFabric (env : Env) (fabIdx : ℕ) (edit : Prog ErrorCode Fabric (Bool × Reply)) :
    Prog.Keeps failsafe (editFabric env fabIdx edit) := by
  refine keeps_bind (keeps_onFabrics _) fun result => keeps_bind keeps_get fun d => ?_
  refine keeps_bind ?_ fun _ => keeps_pure _
  exact keeps_onlyIf _ (keeps_whenSome _ fun fabric => keeps_storeFabric env fabric)

theorem keeps_fabricScoped (sess : StampedSession) {k : ℕ → Prog ErrorCode Device Reply}
    (h : ∀ fabIdx, Prog.Keeps failsafe (k fabIdx)) : Prog.Keeps failsafe (accessorFabIdx sess >>= k) := by
  refine keeps_bind ?_ h
  exact keeps_bind (keeps_ensure _ _) fun _ => keeps_pure _

theorem keeps_setVid (env : Env) (sess : StampedSession) (vendorId : Option (BitVec 16))
    (statement vvsc : Option (List UInt8)) :
    Prog.Keeps failsafe (handleSetVidVerificationStatement env sess vendorId statement vvsc) := by
  refine keeps_bind (keeps_ensure _ _) fun _ => ?_
  refine keeps_bind (keeps_ensure _ _) fun _ => ?_
  refine keeps_bind (keeps_ensure _ _) fun _ => ?_
  refine keeps_bind (keeps_ensure _ _) fun _ => ?_
  refine keeps_bind (keeps_ensure _ _) fun _ => ?_
  refine keeps_bind (keeps_onFabrics _) fun _ => keeps_bind keeps_get fun d => ?_
  exact keeps_onlyIf _ (keeps_whenSome _ fun fabric => keeps_storeFabric env fabric)

theorem keeps_removeFabric (env : Env) (sess : StampedSession) (fabIdx : ℕ) :
    Prog.Keeps failsafe (handleRemoveFabric env sess fabIdx) := by
  refine keeps_bind (keeps_ensure _ _) fun _ => keeps_bind keeps_get fun d => ?_
  by_cases hget : (Fabrics.get d.fabrics fabIdx).isSome = true
  · rw [if_pos hget]
    refine keeps_bind (keeps_onFabrics _) fun _ => ?_
    refine keeps_bind (keeps_modify fun _ => rfl) fun _ => ?_
    refine keeps_bind (keeps_modify fun _ => rfl) fun _ => ?_
    refine keeps_bind ?_ fun _ => keeps_pure _
    exact keeps_bind (keeps_ensure _ _) fun _ => keeps_modify fun _ => rfl
  · rw [if_neg hget]
    exact keeps_pure _

/-! ## The fail-safe is armed and ends -/

theorem moves_expire (env : Env) (id : Option (BitVec 32)) (d : Device) :
    Moves d.failsafe ((expire env id).run d).1.failsafe := by
  rw [expire, run_bind_of_ok (run_get d)]
  cases hst : d.failsafe.state with
  | idle => exact .inl rfl
  | armed ctx =>
    dsimp only
    -- nothing touches the fail-safe before its state is set
    have hkeep : Prog.Keeps failsafe (Prog.onlyIf (ctx.fabIdx ≠ 0) (rollBack env ctx.fabIdx)) := by
      refine keeps_onlyIf _ (keeps_bind (keeps_onFabrics _) fun _ => ?_)
      refine keeps_bind (keeps_modify fun _ => rfl) fun _ => ?_
      refine keeps_bind ?_ fun _ => keeps_onFabrics _
      exact keeps_bind (keeps_ensure _ _) fun _ => keeps_bind keeps_get fun _ =>
        keeps_pure _
    rcases hroll : (Prog.onlyIf (ctx.fabIdx ≠ 0) (rollBack env ctx.fabIdx)).run d with ⟨d₁, _ | _⟩
    · rw [run_bind_of_error hroll]
      exact .inl (by rw [kept_of_run hroll hkeep])
    · rw [run_bind_of_ok hroll, run_expire_rest]
      split_ifs
      · exact .inr (.inl rfl)
      · exact .inl (by rw [kept_of_run hroll hkeep])

theorem moves_arm {nowMs timeoutSecs : ℕ} {breadcrumb : BitVec 64} {mode : SessionMode}
    {commWindow : Bool} (fs : FailSafe) :
    Moves fs ((FailSafe.arm nowMs timeoutSecs breadcrumb mode commWindow).run fs).1 := by
  rw [Prog.run, FailSafe.arm]
  cases hst : fs.state with
  | idle =>
    dsimp only
    split_ifs
    · exact .inl rfl
    · exact .inl rfl
    · refine .inr (.inr ⟨?_, rfl⟩)
      rw [FailSafe.progress, hst]
  | armed ctx =>
    dsimp only
    split
    · exact .inl rfl
    · split_ifs
      · exact .inl (FailSafe.progress_of_armed hst).symm
      · exact .inr (.inl rfl)

theorem moves_armFailSafe (env : Env) (sess : StampedSession) (expiry : ℕ) (breadcrumb : BitVec 64)
    (d : Device) : Moves d.failsafe ((handleArmFailSafe env sess expiry breadcrumb).run d).1.failsafe := by
  rw [handleArmFailSafe]
  by_cases h0 : expiry = 0
  · rw [if_pos h0, fst_run_bind fun _ _ => rfl]
    exact moves_expire env _ d
  · rw [if_neg h0, run_bind_of_ok (run_get d)]
    exact moves_arm d.failsafe

theorem moves_revokeCommissioning (env : Env) (sess : StampedSession) (d : Device) :
    Moves d.failsafe ((handleRevokeCommissioning env sess).run d).1.failsafe := by
  rw [handleRevokeCommissioning, keeps_rest (f := failsafe)]
  · exact moves_expire env (paseSessId sess) d
  · exact fun _ => keeps_modify fun _ => rfl

theorem moves_commissioningComplete (env : Env) (sess : StampedSession) (d : Device) :
    Moves d.failsafe ((handleCommissioningComplete env sess).run d).1.failsafe := by
  rw [handleCommissioningComplete]
  rcases withArmedFailsafe_cases sess.mode _ d with h | h
  · rw [h]
    exact .inl rfl
  · rw [h, keeps_rest (f := failsafe)]
    · rcases hrun : (FailSafe.disarm sess.mode).run ⟨d.failsafe, d.fabrics⟩ with ⟨s, r⟩
      rw [onFailSafeFabrics, run_zoom _ d hrun]
      rcases FailSafe.disarm_cases hrun with ⟨rfl, -⟩ | ⟨fabric, -, -, -, -, hst, -, -⟩
      · exact .inl rfl
      · refine .inr (.inl ?_)
        dsimp only
        rw [FailSafe.progress, hst]
    · intro fabric
      refine keeps_bind (keeps_modify fun _ => rfl) fun _ => ?_
      refine keeps_bind (keeps_modify fun _ => rfl) fun _ => ?_
      refine keeps_bind (keeps_storeFabric env fabric) fun _ => ?_
      refine keeps_bind (keeps_modify fun _ => rfl) fun _ => ?_
      exact keeps_bind (keeps_ensure _ _) fun _ => keeps_modify fun _ => rfl

theorem moves_establishPase (env : Env) (id : BitVec 32) (params : SecureParams) (d : Device) :
    Moves d.failsafe ((establishPase env id params).run d).1.failsafe := by
  rw [establishPase, run_bind_of_ok (run_modify _ _), run_bind_of_ok (run_get _),
    Prog.onlyIf]
  split_ifs
  · exact moves_arm d.failsafe
  · exact .inl rfl

/-! ## Commands that are logged -/

variable {crypto : Crypto}

/-- What a command leaves: the log goes with the fail-safe, and what was installed is in order. -/
def InOrder (crypto : Crypto) (d d' : Device) (log es : List NocEvent) : Prop :=
  Logged d'.failsafe (armEvents d d' ++ es ++ log) ∧
    ∀ e ∈ es, e.isNoc = true → ∃ events, armedContext log = some events ∧ e.Follows crypto events

theorem inOrder_of_moves (h : Logged d.failsafe log) (hmove : Moves d.failsafe d'.failsafe) :
    InOrder crypto d d' log [] := by
  refine ⟨?_, nofun⟩
  rw [List.append_nil]
  exact logged_of_moves h hmove

theorem inOrder_refl (h : Logged d.failsafe log) : InOrder crypto d d log [] :=
  inOrder_of_moves h (.inl rfl)

theorem Logged.armed {ctx : ArmedCtx} (h : Logged d.failsafe log) (hst : d.failsafe.state = .armed ctx) :
    ∃ events, armedContext log = some events ∧ Tracks ctx.flags d.failsafe.secretKey events := by
  rw [Logged, FailSafe.progress_of_armed hst] at h
  exact h

theorem logged_cons {ctx : ArmedCtx} (hst : d.failsafe.state = .armed ctx) {e : NocEvent}
    (he : armedContext (e :: log) = some (e :: events))
    (hprog : d'.failsafe.progress = (some flags, key)) (htracks : Tracks flags key (e :: events)) :
    Logged d'.failsafe (armEvents d d' ++ [e] ++ log) := by
  rw [armEvents_of_progress (by rw [hprog, FailSafe.progress_of_armed hst]; rfl), Logged, hprog]
  exact ⟨_, he, htracks⟩

/-- The two kinds of `CSRRequest`. -/
theorem run_csrReq {mode : SessionMode} {isForUpdateNoc : Bool}
    (hcase : isForUpdateNoc = true → mode.isCase = true) (newKey : Except ErrorCode (List UInt8))
    (fs : FailSafe) :
    (if isForUpdateNoc = true then FailSafe.updateCsrReq newKey mode
      else FailSafe.addCsrReq newKey mode).run fs =
    (FailSafe.csrReq (cond isForUpdateNoc NocFlags.updateCsrReqRecvd NocFlags.addCsrReqRecvd) newKey
      mode).run fs := by
  cases isForUpdateNoc with
  | false => rfl
  | true =>
    cases mode with
    | case fabIdx catIds => rfl
    | pase fabIdx => cases hcase rfl
    | group fabIdx groupId => cases hcase rfl
    | plainText => cases hcase rfl

theorem inOrder_csrRequest (h : Logged d.failsafe log) (csrNonce : List UInt8) (isForUpdateNoc : Bool) :
    InOrder crypto d ((handleCsrRequest env sess csrNonce isForUpdateNoc).run d).1 log
      (logOk ((handleCsrRequest { env with respond := .ok () } sess csrNonce isForUpdateNoc).run d).2
        (.csrRequest isForUpdateNoc sess.mode env.newKey)) := by
  rw [handleCsrRequest, handleCsrRequest]
  by_cases hnonce : csrNonce.length = csrNonceLen
  swap
  · rw [run_bind_of_error (run_ensure_of_neg hnonce _ _),
      run_bind_of_error (run_ensure_of_neg hnonce _ _)]
    exact inOrder_refl h
  rw [run_bind_of_ok (run_ensure_of_pos hnonce _ _),
    run_bind_of_ok (run_ensure_of_pos hnonce _ _)]
  cases hchk : d.failsafe.checkArmed sess.mode with
  | error e =>
    obtain ⟨e₁, h₁⟩ := run_withArmedFailsafe_of_error hchk
    obtain ⟨e₂, h₂⟩ := run_withArmedFailsafe_of_error hchk
    rw [h₁, h₂]
    exact inOrder_refl h
  | ok _ =>
    rw [run_withArmedFailsafe_of_ok hchk, run_withArmedFailsafe_of_ok hchk]
    by_cases hcase : isForUpdateNoc = true → sess.mode.isCase = true
    swap
    · rw [run_bind_of_error (run_ensure_of_neg hcase _ _),
        run_bind_of_error (run_ensure_of_neg hcase _ _)]
      exact inOrder_refl h
    rw [run_bind_of_ok (run_ensure_of_pos hcase _ _),
      run_bind_of_ok (run_ensure_of_pos hcase _ _), fst_run_bind fun _ _ => rfl]
    have hreq := run_csrReq hcase env.newKey d.failsafe
    rcases hrun : (FailSafe.csrReq (cond isForUpdateNoc NocFlags.updateCsrReqRecvd
      NocFlags.addCsrReqRecvd) env.newKey sess.mode).run d.failsafe with ⟨fs, r⟩
    rw [hrun] at hreq
    rcases FailSafe.csrReq_cases hrun with ⟨rfl, e, rfl⟩ | ⟨ctx, key, rfl, hst, hkey, hnone, hprog⟩
    · rw [run_bind_of_error (run_onFailSafe hreq), run_onFailSafe hreq]
      exact inOrder_refl h
    · rw [run_bind_of_ok (run_onFailSafe hreq), run_onFailSafe hreq, hkey]
      obtain ⟨events, hctx, htracks⟩ := h.armed hst
      refine ⟨logged_cons hst ?_ hprog (htracks.csrReq sess.mode hcase hnone), ?_⟩
      · exact congrArg (Option.map (List.cons _)) hctx
      · intro e he
        rw [List.mem_singleton.mp he]
        rintro ⟨⟩

theorem inOrder_addTrustedRootCertificate (h : Logged d.failsafe log) (rootCa : List UInt8) :
    InOrder crypto d ((handleAddTrustedRootCertificate crypto sess rootCa).run d).1 log
      (logOk ((handleAddTrustedRootCertificate crypto sess rootCa).run d).2
        (.addTrustedRootCertificate rootCa)) := by
  rw [handleAddTrustedRootCertificate]
  cases hchk : d.failsafe.checkArmed sess.mode with
  | error e =>
    obtain ⟨e₁, h₁⟩ := run_withArmedFailsafe_of_error hchk
    rw [h₁]
    exact inOrder_refl h
  | ok _ =>
    rw [run_withArmedFailsafe_of_ok hchk]
    rcases hrun : (FailSafe.addTrustedRootCert crypto sess.mode rootCa).run d.failsafe with ⟨fs, r⟩
    rw [run_onFailSafe hrun]
    rcases FailSafe.addTrustedRootCert_cases hrun with ⟨hprog, e, rfl⟩ | ⟨ctx, rfl, hst, hprog⟩
    · exact inOrder_of_moves h (.inl hprog)
    · obtain ⟨events, hctx, htracks⟩ := h.armed hst
      refine ⟨logged_cons hst ?_ hprog (htracks.addRoot rootCa), ?_⟩
      · exact congrArg (Option.map (List.cons _)) hctx
      · intro e he
        rw [List.mem_singleton.mp he]
        nofun

theorem contextFabric_eq {fabIdx : ℕ} (h : d.failsafe.isArmedFor fabIdx = true) :
    d.contextFabric = Fabrics.get d.fabrics fabIdx := by
  obtain ⟨added, hctx⟩ := FailSafe.context_of_isArmedFor h
  rw [contextFabric, hctx]
  rfl

/-- A certificate was installed, or the command has failed after its flag was set. -/
theorem inOrder_noc {ctx : ArmedCtx} {op : NocFlags} (h : Logged d.failsafe log)
    (hop : op = NocFlags.addNocRecvd ∨ op = NocFlags.updateNocRecvd)
    (hst : d.failsafe.state = .armed ctx)
    (hprog : d'.failsafe.progress = (some (ctx.flags ||| op), d.failsafe.secretKey))
    (r : Except ErrorCode Unit) {e : NocEvent} (he : e.isNoc = true)
    (hfollows : r = .ok () → ∀ events, Tracks ctx.flags d.failsafe.secretKey events →
      e.Follows crypto events) :
    InOrder crypto d d' log (logOk r e) := by
  obtain ⟨events, hctx, htracks⟩ := h.armed hst
  cases r with
  | error e' =>
    refine ⟨?_, List.forall_mem_nil _⟩
    rw [armEvents_of_progress (by rw [hprog, FailSafe.progress_of_armed hst]; rfl), Logged, hprog]
    exact ⟨events, hctx, htracks.noc hop [] (List.forall_mem_nil _)⟩
  | ok u =>
    refine ⟨logged_cons hst ?_ hprog (htracks.noc hop [e] ?_), ?_⟩
    · cases e with
      | addNoc _ => exact congrArg (Option.map (List.cons _)) hctx
      | updateNoc _ => exact congrArg (Option.map (List.cons _)) hctx
      | _ => cases he
    · intro e' he'
      rwa [List.mem_singleton.mp he']
    · intro e' he' _
      rw [List.mem_singleton.mp he']
      exact ⟨events, hctx, hfollows rfl events htracks⟩

/-- A context that allows `AddNOC`. -/
theorem Tracks.follows_addNoc (h : Tracks flags key events)
    (hpresent : NocFlags.contains flags (NocFlags.addRootCertRecvd ||| NocFlags.addCsrReqRecvd) = true)
    (habsent : NocFlags.intersects flags
      (NocFlags.addNocRecvd ||| NocFlags.updateCsrReqRecvd ||| NocFlags.updateNocRecvd) = false)
    {fabric : Option Fabric} (hfabric : InstalledFor crypto fabric (.ok key)) :
    (NocEvent.addNoc fabric).Follows crypto events := by
  have hroot : NocFlags.contains flags NocFlags.addRootCertRecvd = true :=
    NocFlags.contains_mono (by decide) hpresent
  obtain ⟨mode, hcsrs⟩ := h.addCsr (NocFlags.contains_mono (by decide) hpresent)
  exact ⟨⟨mode, _, hcsrs, hfabric⟩, h.root ▸ hroot,
    h.noNoc (NocFlags.intersects_mono (by decide) habsent)⟩

/-- A context that allows `UpdateNOC`. -/
theorem Tracks.follows_updateNoc (h : Tracks flags key events)
    (hpresent : NocFlags.contains flags NocFlags.updateCsrReqRecvd = true)
    (habsent : NocFlags.intersects flags (NocFlags.addRootCertRecvd ||| NocFlags.addNocRecvd |||
      NocFlags.addCsrReqRecvd ||| NocFlags.updateNocRecvd) = false)
    {fabric : Option Fabric} (hfabric : InstalledFor crypto fabric (.ok key)) :
    (NocEvent.updateNoc fabric).Follows crypto events := by
  obtain ⟨mode, hcase, hcsrs⟩ := h.updateCsr hpresent
  have hroot : NocFlags.contains flags NocFlags.addRootCertRecvd = false :=
    NocFlags.contains_eq_false (by decide) (NocFlags.intersects_mono (by decide) habsent)
  have hnoc := h.noNoc (NocFlags.intersects_mono (by decide) habsent)
  exact ⟨⟨mode, _, hcsrs, hcase, hfabric⟩, h.root ▸ hroot, hnoc⟩

theorem inOrder_updateNoc (h : Logged d.failsafe log) (icac : Option (List UInt8)) (noc : List UInt8) :
    InOrder crypto d ((handleUpdateNoc crypto sess icac noc).run d).1 log
      (logOk ((handleUpdateNoc crypto sess icac noc).run d).2
        (.updateNoc ((handleUpdateNoc crypto sess icac noc).run d).1.contextFabric)) := by
  rw [handleUpdateNoc]
  cases hchk : d.failsafe.checkArmed sess.mode with
  | error e =>
    obtain ⟨e₁, h₁⟩ := run_withArmedFailsafe_of_error hchk
    rw [h₁]
    exact inOrder_refl h
  | ok _ =>
    rw [run_withArmedFailsafe_of_ok hchk]
    rcases hrun : (FailSafe.updateNoc crypto sess.mode (icac.filter (!·.isEmpty)) noc).run
      ⟨d.failsafe, d.fabrics⟩ with ⟨s, _ | _⟩
    · rw [onFailSafeFabrics, run_zoom _ d hrun]
      refine inOrder_of_moves h (.inl ?_)
      rw [(FailSafe.updateNoc_error hrun).1]
    · rw [onFailSafeFabrics, run_zoom _ d hrun]
      obtain ⟨ctx, fabric, fabric', hst, -, hpresent, habsent, hprog, harmed, hget, hidx, hfabrics, -,
        hpub, hupdate⟩ := FailSafe.updateNoc_ok hrun
      refine inOrder_noc h (.inr rfl) hst hprog _ rfl fun _ events htracks => ?_
      refine htracks.follows_updateNoc hpresent habsent ?_
      obtain ⟨pub, hkey, hnoc⟩ := FailSafe.checkPubkey_ok hpub
      obtain ⟨hnoc', -⟩ := Fabric.update_ok hupdate
      refine ⟨fabric', _, pub, ?_, rfl, hkey, hnoc'.symm ▸ hnoc⟩
      rw [contextFabric_eq harmed]
      dsimp only
      rw [hfabrics]
      refine lookup_replaceKey_self hidx fun hnone => ?_
      rw [Fabrics.get, hnone] at hget
      cases hget

/-- The session a fabric has been added on: the fabric is there if all went well. -/
theorem upgrade_spec (d : Device) (sess : StampedSession) (fabIdx : ℕ)
    (hget : (Fabrics.get d.fabrics fabIdx).isSome) :
    let m := Prog.onlyIf (sess.mode.isPase = true)
      (Prog.catching (upgradeFabricIdx sess fabIdx) fun e => do
        dropAdded fabIdx
        Prog.throw e)
    (m.run d).1.failsafe = d.failsafe ∧ ((m.run d).2 = .ok () → (m.run d).1.fabrics = d.fabrics) := by
  intro m
  by_cases hpase : sess.mode.isPase = true
  · rw [show m = _ from if_pos hpase]
    rcases run_upgrade d sess fabIdx hget with ⟨sess', -, hst⟩ | ⟨e, hst⟩
    · rw [hst]
      exact ⟨rfl, fun _ => rfl⟩
    · rw [hst]
      exact ⟨rfl, nofun⟩
  · rw [show m = _ from if_neg hpase]
    exact ⟨rfl, fun _ => rfl⟩

theorem inOrder_addNoc (h : Logged d.failsafe log) (req : FailSafe.NocRequest) :
    InOrder crypto d ((handleAddNoc crypto sess req).run d).1 log
      (logOk ((handleAddNoc crypto sess req).run d).2
        (.addNoc ((handleAddNoc crypto sess req).run d).1.contextFabric)) := by
  rw [handleAddNoc]
  cases hchk : d.failsafe.checkArmed sess.mode with
  | error e =>
    obtain ⟨e₁, h₁⟩ := run_withArmedFailsafe_of_error hchk
    rw [h₁]
    exact inOrder_refl h
  | ok _ =>
    rw [run_withArmedFailsafe_of_ok hchk]
    dsimp only
    rcases hrun : (FailSafe.addNoc crypto sess.mode
      { req with icac := req.icac.filter (!·.isEmpty) }).run ⟨d.failsafe, d.fabrics⟩ with ⟨s, e | fabric⟩
    · rw [onFailSafeFabrics, run_bind_of_error (run_zoom _ d hrun)]
      obtain ⟨rfl, -⟩ | ⟨_, ⟨⟩, -⟩ := FailSafe.addNoc_cases hrun
      exact inOrder_refl h
    · rw [onFailSafeFabrics, run_bind_of_ok (run_zoom _ d hrun),
        run_bind_of_ok (run_modify _ _)]
      obtain ⟨ctx, hst, hpresent, habsent, hprog, harmed, -, hpub, f, hupdate⟩ := FailSafe.addNoc_ok hrun
      have hget : Fabrics.get s.fabrics fabric.fabIdx = some fabric := by
        obtain ⟨-, e, ⟨⟩⟩ | ⟨_, hok, -, -, hfab, hfree, -⟩ := FailSafe.addNoc_cases hrun
        cases hok
        rw [hfab]
        exact lookup_append_self hfree
      have hinstalled : InstalledFor crypto (Fabrics.get s.fabrics fabric.fabIdx)
          (.ok d.failsafe.secretKey) := by
        obtain ⟨pub, hkey, hnoc⟩ := FailSafe.checkPubkey_ok hpub
        obtain ⟨hnoc', -⟩ := Fabric.update_ok hupdate
        exact ⟨fabric, _, pub, hget, rfl, hkey, hnoc'.symm ▸ hnoc⟩
      -- the session of the command may get the fabric, which is dropped if it can not
      obtain ⟨hfs, hfab⟩ := upgrade_spec
        (restamp fabric.fabIdx { d with failsafe := s.failsafe, fabrics := s.fabrics }) sess
        fabric.fabIdx (hget ▸ rfl)
      refine inOrder_noc h (.inl rfl) hst (by rw [hfs]; exact hprog) _ rfl fun hok events htracks => ?_
      refine htracks.follows_addNoc hpresent habsent ?_
      rw [contextFabric_eq (by rw [hfs]; exact harmed), hfab hok]
      exact hinstalled

/-! ## Runs -/

/-- **Commands.** -/
theorem inOrder_invoke (h : Logged d.failsafe log) (cmd : Command) :
    InOrder crypto d ((invoke crypto env sess cmd).run d).1 log
      (commandEvents crypto env sess d ((invoke crypto env sess cmd).run d).1 cmd) := by
  cases cmd with
  | armFailSafe expiry breadcrumb =>
    exact inOrder_of_moves h (moves_armFailSafe env sess expiry breadcrumb d)
  | setBreadcrumb value => exact inOrder_of_moves h (.inl rfl)
  | commissioningComplete => exact inOrder_of_moves h (moves_commissioningComplete env sess d)
  | setNetworks networks =>
    refine inOrder_of_moves h (moves_of_keeps (m := handleNetworks sess networks) ?_ d)
    refine keeps_bind keeps_get fun _ => keeps_bind (keeps_ofExcept _) fun _ => ?_
    exact keeps_modify fun _ => rfl
  | openCommissioningWindow =>
    refine inOrder_of_moves h (moves_of_keeps (m := handleOpenCommissioningWindow) ?_ d)
    exact keeps_bind keeps_get fun _ => keeps_bind (keeps_ensure _ _) fun _ =>
      keeps_modify fun _ => rfl
  | revokeCommissioning => exact inOrder_of_moves h (moves_revokeCommissioning env sess d)
  | csrRequest csrNonce isForUpdateNoc => exact inOrder_csrRequest h csrNonce isForUpdateNoc
  | addTrustedRootCertificate rootCa => exact inOrder_addTrustedRootCertificate h rootCa
  | addNoc req =>
    have hfst : ((invoke crypto env sess (.addNoc req)).run d).1 =
        ((handleAddNoc crypto sess req).run d).1 := by
      refine keeps_rest (f := id) (fun reply => ?_) d
      exact keeps_bind (keeps_onlyIf _ (keeps_ofExcept _)) fun _ => keeps_pure _
    rw [commandEvents, hfst]
    exact inOrder_addNoc h req
  | updateNoc icac noc => exact inOrder_updateNoc h icac noc
  | updateFabricLabel label =>
    refine inOrder_of_moves h (moves_of_keeps (m := handleUpdateFabricLabel sess label) ?_ d)
    refine keeps_bind (keeps_ensure _ _) fun _ => ?_
    exact keeps_mapError _ (keeps_onFabrics _)
  | removeFabric fabIdx =>
    refine inOrder_of_moves h (moves_of_keeps ?_ d)
    exact keeps_bind (keeps_removeFabric env sess fabIdx) fun _ => keeps_pure _
  | setVidVerificationStatement vendorId statement vvsc =>
    exact inOrder_of_moves h (moves_of_keeps (keeps_setVid env sess vendorId statement vvsc) d)
  | setAcl value =>
    exact inOrder_of_moves h (moves_of_keeps (keeps_fabricScoped sess fun _ => keeps_editFabric env _ _) d)
  | addGroup endpointId groupId groupName =>
    refine inOrder_of_moves h (moves_of_keeps (keeps_fabricScoped sess fun _ => ?_) d)
    split_ifs
    · exact keeps_pure _
    · exact keeps_editFabric env _ _
  | removeGroup endpointId groupId =>
    refine inOrder_of_moves h (moves_of_keeps (keeps_fabricScoped sess fun _ => ?_) d)
    split_ifs
    · exact keeps_pure _
    · exact keeps_editFabric env _ _
  | removeAllGroups endpointId =>
    exact inOrder_of_moves h (moves_of_keeps (keeps_fabricScoped sess fun _ => keeps_editFabric env _ _) d)
  | setGroupKeyMap value =>
    exact inOrder_of_moves h (moves_of_keeps (keeps_fabricScoped sess fun _ => keeps_editFabric env _ _) d)
  | keySetWrite id policy k0 k1 k2 =>
    refine inOrder_of_moves h (moves_of_keeps (keeps_fabricScoped sess fun _ => ?_) d)
    exact keeps_bind (keeps_ofExcept _) fun _ => keeps_editFabric env _ _
  | keySetRemove id =>
    refine inOrder_of_moves h (moves_of_keeps (keeps_fabricScoped sess fun _ => ?_) d)
    exact keeps_bind (keeps_ensure _ _) fun _ => keeps_editFabric env _ _

theorem length_logOk (r : Except ErrorCode Unit) (e : NocEvent) : (logOk r e).length ≤ 1 := by
  cases r with
  | error e => exact Nat.zero_le _
  | ok u => exact Nat.le_refl _

theorem length_commandEvents (crypto : Crypto) (env : Env) (sess : StampedSession) (d d' : Device)
    (cmd : Command) : (commandEvents crypto env sess d d' cmd).length ≤ 1 := by
  rw [commandEvents.eq_def]
  split
  · exact length_logOk _ _
  · exact length_logOk _ _
  · exact length_logOk _ _
  · exact length_logOk _ _
  · exact Nat.zero_le _

/-- **Every step is in order.** -/
theorem step_inOrder (h : Logged d.failsafe log) {a : Action} (hstep : step crypto d a = some d') :
    ∃ es, nocEvents crypto d d' a = armEvents d d' ++ es ∧ es.length ≤ 1 ∧ InOrder crypto d d' log es := by
  have hquiet : nocEvents crypto d d' a = armEvents d d' → Moves d.failsafe d'.failsafe →
      ∃ es, nocEvents crypto d d' a = armEvents d d' ++ es ∧ es.length ≤ 1 ∧
        InOrder crypto d d' log es := by
    intro hes hmove
    exact ⟨[], by rw [hes, List.append_nil], Nat.zero_le _, inOrder_of_moves h hmove⟩
  cases a with
  | invoke id env cmd =>
    obtain ⟨sess, hsess, rfl⟩ := Option.map_eq_some_iff.mp hstep
    refine ⟨_, ?_, ?_, inOrder_invoke h cmd⟩
    · rw [nocEvents, hsess]
      rfl
    · exact length_commandEvents _ _ _ _ _ cmd
  | tick env =>
    cases hstep
    refine hquiet rfl ?_
    rw [checkFailsafeTimeout, run_bind_of_ok (run_get d)]
    cases hst : d.failsafe.state with
    | idle => exact .inl rfl
    | armed ctx =>
      dsimp only
      split_ifs with hlate
      · rw [fst_run_bind fun _ _ => rfl]
        exact moves_expire env none d
      · exact .inl rfl
  | addSession msgCtr reserved peerAddr peerNodeid =>
    cases hstep
    exact hquiet rfl (.inl rfl)
  | removeSession id =>
    cases hstep
    exact hquiet rfl (.inl rfl)
  | establishPase id env params =>
    rw [step] at hstep
    split_ifs at hstep
    cases hstep
    exact hquiet rfl (moves_establishPase env id params d)
  | establishCase id fabIdx catIds params =>
    rw [step] at hstep
    split_ifs at hstep
    cases hstep
    refine hquiet rfl (moves_of_keeps ?_ d)
    refine keeps_bind keeps_get fun _ => keeps_bind (keeps_ensure _ _) fun _ => ?_
    exact keeps_modify fun _ => rfl
  | establishGroup fabIdx groupId msgCtr params =>
    cases hstep
    refine hquiet rfl (moves_of_keeps ?_ d)
    refine keeps_bind keeps_get fun _ => keeps_bind (keeps_ensure _ _) fun _ => ?_
    refine keeps_bind (fun _ => rfl) fun _ => ?_
    exact keeps_modify fun _ => rfl
  | closeCommWindow =>
    cases hstep
    exact hquiet rfl (.inl rfl)
  | restart =>
    refine hquiet rfl (.inr (.inl ?_))
    have hstep : d.restart = some d' := hstep
    rw [restart] at hstep
    split at hstep
    · cases hstep
    · cases hstep
      rfl

theorem isNoc_armEvents {e : NocEvent} (he : e ∈ armEvents d d') : e.isNoc = false := by
  rw [armEvents] at he
  split at he
  · rw [List.mem_singleton.mp he]
    rfl
  · rw [List.mem_singleton.mp he]
    rfl
  · cases he

theorem nocProtocol_cons {e : NocEvent} : NocProtocol crypto (e :: log) ↔
    (e.isNoc = true → ∃ events, armedContext log = some events ∧ e.Follows crypto events) ∧
      NocProtocol crypto log := Iff.rfl

theorem nocProtocol_step {es : List NocEvent} (h : NocProtocol crypto log)
    (hlen : es.length ≤ 1) (horder : InOrder crypto d d' log es) :
    NocProtocol crypto (armEvents d d' ++ es ++ log) := by
  have hes : NocProtocol crypto (es ++ log) := by
    rcases es with _ | ⟨e, _ | ⟨e', es⟩⟩
    · exact h
    · exact nocProtocol_cons.mpr ⟨horder.2 e List.mem_cons_self, h⟩
    · rw [List.length_cons, List.length_cons] at hlen
      omega
  rw [List.append_assoc]
  have hnone : ∀ e ∈ armEvents d d', e.isNoc = false := fun e he => isNoc_armEvents he
  generalize armEvents d d' = arms at hnone
  induction arms with
  | nil => exact hes
  | cons e arms ih =>
    rw [List.cons_append]
    refine nocProtocol_cons.mpr ⟨fun he => ?_, ih fun e' he' => hnone e' (List.mem_cons_of_mem _ he')⟩
    rw [hnone e List.mem_cons_self] at he
    cases he

/-- **The commands follow the protocol** in every run that starts without a fail-safe. -/
theorem nocProtocol_of_run {d₀ : Device} {as : List Action} (hidle : d₀.failsafe.state = .idle)
    (hrun : (nocMachine crypto).run (d₀, []) as = some (d, log)) : NocProtocol crypto log := by
  have hinv : Logged d.failsafe log ∧ NocProtocol crypto log := by
    have hok : (nocMachine crypto).Meets (fun _ _ => True) (d₀, []) as :=
      Machine.meets_of_forall fun _ _ _ => trivial
    refine Machine.invariant_of_meets
      (I := fun s => Logged s.1.failsafe s.2 ∧ NocProtocol crypto s.2) ?_ ⟨?_, ?_⟩ hok hrun
    · rintro ⟨d, log⟩ a s' - ⟨hlogged, hproto⟩ hstep
      obtain ⟨d', hd', rfl⟩ := Option.map_eq_some_iff.mp hstep
      obtain ⟨es, hes, hlen, horder⟩ := step_inOrder hlogged hd'
      dsimp only
      rw [hes]
      exact ⟨horder.1, nocProtocol_step hproto hlen horder⟩
    · rw [Logged, FailSafe.progress, hidle]
      rfl
    · trivial
  exact hinv.2

theorem nocProtocol_commissioned : ∃ d log,
    (nocMachine Sample.crypto).run (factoryNew, []) Sample.commissioned = some (d, log) ∧
      log.map NocEvent.isNoc = [false, true, false, false, false] ∧ NocProtocol Sample.crypto log := by
  have h : ((nocMachine Sample.crypto).run (factoryNew, []) Sample.commissioned).map
      (fun s => s.2.map NocEvent.isNoc) = some [false, true, false, false, false] := by decide +kernel
  obtain ⟨⟨d, log⟩, hrun, hlog⟩ := Option.map_eq_some_iff.mp h
  exact ⟨d, log, hrun, hlog, nocProtocol_of_run rfl hrun⟩

end Device

end RsMatter
