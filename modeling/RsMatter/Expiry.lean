import RsMatter.Tables

/-!
# Ending the fail-safe

The fail-safe ends by its timer, by an `ArmFailSafe` with an expiry length of `0` or by
`RevokeCommissioning`. Ending it takes the fabric of the context back to what is
stored, so it takes a fabric of the context that is still there
(`Device.expiryDisarms_iff`). And everyone may end it: `ArmFailSafe` is the one command
that does not ask whose fail-safe it is (`Device.untouched_iff`).
-/

namespace RsMatter

open Prog

def Env.Works (env : Env) : Prop := ∀ key, env.works key = true

namespace Device

/-!
## A sample node

A small public key infrastructure, to evaluate runs with: a certificate has four bytes,
a node id, a fabric id, its key and the key it is signed with.
-/

namespace Sample

def byte (cert : List UInt8) (i : ℕ) : Except ErrorCode UInt8 := (cert[i]?).elim (.error .invalidData) .ok

/-- Each certificate is signed by the next one and the last one by itself. -/
def verifyChain : List (List UInt8) → Except ErrorCode Unit
  | [] => .error .invalidData
  | [cert] => do
    let key ← byte cert 2
    let signer ← byte cert 3
    if signer = key then return () else throw .invalidData
  | cert :: parent :: rest => do
    let key ← byte parent 2
    let signer ← byte cert 3
    if signer = key then verifyChain (parent :: rest) else throw .invalidData

def crypto : Crypto where
  getNodeId cert := (byte cert 0).map fun b => b.toBitVec.setWidth 64
  getFabricId cert := (byte cert 1).map fun b => b.toBitVec.setWidth 64
  pubkey cert := (byte cert 2).map ([·])
  isSelfSigned cert := do
    let key ← byte cert 2
    let signer ← byte cert 3
    return signer == key
  verifyChain := verifyChain
  pubKeyOf secretKey := .ok secretKey
  computeCompressedFabricId _ fabricId := fabricId
  expandOpKey epochKey _ := .ok epochKey

/-- The surroundings at a time; everything works. -/
def envAt (nowMs : ℕ) : Env where
  nowMs
  works _ := true
  newKey := .ok [7]
  respond := .ok ()

def params : SecureParams where
  localNodeid := 1
  peerNodeid := 2
  peerSessId := 3
  localSessId := 4
  peerAddr := .btp 0

def pase (id : BitVec 32) (nowMs : ℕ) : List Action :=
  [.addSession 0 true params.peerAddr none, .establishPase id (envAt nowMs) params]

def case (id : BitVec 32) (fabIdx : ℕ) : List Action :=
  [.addSession 0 true params.peerAddr none, .establishCase id fabIdx [] params]

def addFabric (id : BitVec 32) (fabricId : UInt8) : List Action :=
  [.invoke id (envAt 0) (.addTrustedRootCertificate [0, 0, 1, 1]),
    .invoke id (envAt 0) (.csrRequest (List.replicate 32 0) false),
    .invoke id (envAt 0) (.addNoc ⟨0xfff1, none, [5, fabricId, 7, 1], List.replicate 16 0, 42⟩)]

/-- A fabric is added on a PASE session and committed on a CASE session of its own. -/
def commissioned : List Action :=
  pase 0 0 ++ addFabric 0 9 ++ case 1 1 ++ [Action.invoke 1 (envAt 0) .commissioningComplete]

end Sample

theorem Sample.works (nowMs : ℕ) : (Sample.envAt nowMs).Works := fun _ => rfl

variable {crypto : Crypto} {d : Device} {env : Env} {ctx : ArmedCtx}

/-! ## Whether it can be ended -/

/-- The fail-safe is not armed and has forgotten its breadcrumb. -/
def Disarmed (d : Device) : Prop := d.failsafe.state = .idle ∧ d.failsafe.breadcrumb = 0

/-- The fail-safe can be ended by its timer and by `ArmFailSafe`. -/
structure ExpiryDisarms (d : Device) (env : Env) : Prop where
  expire : ∀ id, ((Device.expire env id).run d).2 = .ok true ∧ ((Device.expire env id).run d).1.Disarmed
  /-- by its timer, once that has run out -/
  timer : ∀ ctx, d.failsafe.state = .armed ctx → ctx.armedAt + 1000 * ctx.timeoutSecs ≤ env.nowMs →
    ((checkFailsafeTimeout env).run d).2 = .ok true ∧ ((checkFailsafeTimeout env).run d).1.Disarmed
  /-- by `ArmFailSafe`, with an expiry length of `0` and on any session -/
  armFailSafe : ∀ crypto sess breadcrumb,
    ((invoke crypto env sess (.armFailSafe 0 breadcrumb)).run d).2 = .ok (.commissioning .ok) ∧
      ((invoke crypto env sess (.armFailSafe 0 breadcrumb)).run d).1.Disarmed

theorem run_expire_of_works (hlen : d.fabrics.length ≤ maxFabrics) (hst : d.failsafe.state = .armed ctx)
    (hworks : env.Works) (h : ctx.fabIdx = 0 ∨ Fabrics.get d.fabrics ctx.fabIdx ≠ none)
    (id : Option (BitVec 32)) : ∃ d', (expire env id).run d = (d', .ok true) ∧ d'.Disarmed := by
  by_cases h0 : ctx.fabIdx = 0
  · refine ⟨d.disarmed id, ?_, rfl, rfl⟩
    rw [run_expire_of_zero hst h0, if_pos (hworks _)]
  · refine ⟨(d.replaced ctx.fabIdx (d.kv.fabrics ctx.fabIdx)).disarmed id, ?_, rfl, rfl⟩
    rw [run_expire_of_ne_none hst h0 (h.resolve_left h0) hlen, if_pos (hworks _)]
    dsimp only
    rw [if_pos (hworks _)]

theorem run_checkFailsafeTimeout {d' : Device} (hst : d.failsafe.state = .armed ctx)
    (hlate : ctx.armedAt + 1000 * ctx.timeoutSecs ≤ env.nowMs)
    (h : (expire env none).run d = (d', .ok true)) : (checkFailsafeTimeout env).run d = (d', .ok true) := by
  rw [checkFailsafeTimeout, run_bind_of_ok (run_get d), hst]
  dsimp only
  rw [if_pos hlate, run_bind_of_ok h, run_pure]

/-- `ArmFailSafe` with an expiry length of `0`, too. -/
theorem run_armFailSafe_zero (crypto : Crypto) (env : Env) (sess : StampedSession) (breadcrumb : BitVec 64)
    (d : Device) :
    (invoke crypto env sess (.armFailSafe 0 breadcrumb)).run d =
      (((expire env (paseSessId sess)).run d).1,
        (CommissioningError.map (((expire env (paseSessId sess)).run d).2.map fun _ => ())).map
          Reply.commissioning) := by
  show (commissioningReply (handleArmFailSafe env sess 0 breadcrumb)).run d = _
  rw [commissioningReply, run_mapResult, handleArmFailSafe, if_pos rfl, run_bind]
  rcases (expire env (paseSessId sess)).run d with ⟨t, _ | _⟩
  · rfl
  · rfl

/-- **When the fail-safe can be ended.** -/
theorem expiryDisarms_iff (hreach : (machine crypto).Reachable (· = factoryNew) d)
    (hst : d.failsafe.state = .armed ctx) (hworks : env.Works) :
    d.ExpiryDisarms env ↔ ctx.fabIdx = 0 ∨ Fabrics.get d.fabrics ctx.fabIdx ≠ none := by
  constructor
  · rintro ⟨hexp, -, -⟩
    by_contra hnot
    rw [not_or, not_not] at hnot
    have h := (hexp none).1
    rw [run_expire_of_none hst hnot.1 hnot.2] at h
    cases h
  · intro h
    have hend := run_expire_of_works (wellFormed_of_reachable hreach).room hst hworks h
    refine ⟨fun id => ?_, fun ctx' hst' hlate => ?_, fun crypto sess breadcrumb => ?_⟩
    · obtain ⟨d', hrun, hdis⟩ := hend id
      rw [hrun]
      exact ⟨rfl, hdis⟩
    · obtain ⟨d', hrun, hdis⟩ := hend none
      rw [run_checkFailsafeTimeout hst' hlate hrun]
      exact ⟨rfl, hdis⟩
    · obtain ⟨d', hrun, hdis⟩ := hend (paseSessId sess)
      rw [run_armFailSafe_zero, hrun]
      exact ⟨rfl, hdis⟩

/-- A node on which a fabric is being added: its fail-safe can be ended. -/
theorem expiryDisarms_of_added : ∃ d ctx,
    (machine Sample.crypto).run factoryNew (Sample.pase 0 0 ++ Sample.addFabric 0 9) = some d ∧
      d.failsafe.state = .armed ctx ∧ d.ExpiryDisarms (Sample.envAt 0) := by
  have h : ((machine Sample.crypto).run factoryNew (Sample.pase 0 0 ++ Sample.addFabric 0 9)).map
      (fun d => (d.failsafe.state, (Fabrics.get d.fabrics 1).isSome)) =
        some (.armed ⟨0, 60, 1, 0x0d#8⟩, true) := by decide +kernel
  obtain ⟨d, hrun, heq⟩ := Option.map_eq_some_iff.mp h
  obtain ⟨hst, hget⟩ := Prod.mk.inj heq
  refine ⟨d, _, hrun, hst, (expiryDisarms_iff ⟨_, _, rfl, hrun⟩ hst (Sample.works 0)).mpr (.inr ?_)⟩
  exact Option.isSome_iff_ne_none.mp hget

/-- The fabric is removed before it is committed: the fail-safe stays armed for good. -/
theorem not_expiryDisarms_of_removed : ∃ d ctx,
    (machine Sample.crypto).run factoryNew
        (Sample.pase 0 0 ++ Sample.addFabric 0 9 ++ [.invoke 0 (Sample.envAt 0) (.removeFabric 1)]) = some d ∧
      d.failsafe.state = .armed ctx ∧ (Sample.envAt 0).Works ∧
      (∀ env id, (expire env id).run d = (d, .error .notFound)) ∧ ¬ d.ExpiryDisarms (Sample.envAt 0) := by
  have h : ((machine Sample.crypto).run factoryNew
      (Sample.pase 0 0 ++ Sample.addFabric 0 9 ++ [.invoke 0 (Sample.envAt 0) (.removeFabric 1)])).map
      (fun d => (d.failsafe.state, Fabrics.get d.fabrics 1)) =
        some (.armed ⟨0, 60, 1, 0x0d#8⟩, none) := by decide +kernel
  obtain ⟨d, hrun, heq⟩ := Option.map_eq_some_iff.mp h
  obtain ⟨hst, hget⟩ := Prod.mk.inj heq
  have hstuck : ∀ env id, (expire env id).run d = (d, .error .notFound) :=
    fun _ _ => run_expire_of_none hst Nat.one_ne_zero hget
  refine ⟨d, _, hrun, hst, Sample.works 0, hstuck, fun hdis => ?_⟩
  have hexp := (hdis.expire none).1
  rw [hstuck] at hexp
  cases hexp

/-! ## Who can end it -/

/-- The commands that are about the fail-safe of their sender. -/
def Command.isOwners : Command → Bool
  | .armFailSafe .. => true
  | .csrRequest .. => true
  | .addTrustedRootCertificate _ => true
  | .addNoc _ => true
  | .updateNoc .. => true
  | .commissioningComplete => true
  | _ => false

def Command.endsFailSafe : Command → Bool
  | .armFailSafe expiry _ => expiry == 0
  | _ => false

/-- A command is refused and leaves the fail-safe and the fabrics alone. -/
structure Untouched (crypto : Crypto) (env : Env) (sess : StampedSession) (cmd : Command) (d : Device) :
    Prop where
  /-- there is no reply, or one that says that the command was not carried out -/
  refused : ∀ reply, ((invoke crypto env sess cmd).run d).2 = .ok reply → reply.isOk = false
  failsafe : ((invoke crypto env sess cmd).run d).1.failsafe = d.failsafe
  fabrics : ((invoke crypto env sess cmd).run d).1.fabrics = d.fabrics

/-- The fail-safe of a fabric cannot be ended, and the attempt leaves no trace: the fabric is
gone, or storage fails and the fabric, if there is one, comes back as and where it was. -/
def StuckExpiry (d : Device) (env : Env) (fabIdx : ℕ) : Prop :=
  if fabIdx = 0 then env.works .networks = false
  else
    Fabrics.get d.fabrics fabIdx = none ∨
      (env.works (.fabric fabIdx) = true ∧ env.works .networks = false ∧
        (d.replaced fabIdx (d.kv.fabrics fabIdx)).fabrics = d.fabrics)

section Owner

variable {sess : StampedSession} {m : Prog ErrorCode Device Unit} {e : ErrorCode}

def Refuses (m : Prog ErrorCode Device Reply) (d : Device) : Prop :=
  ∃ r, m.run d = (d, r) ∧ ∀ reply, r = .ok reply → reply.isOk = false

theorem Refuses.untouched {cmd : Command} (h : Refuses (invoke crypto env sess cmd) d) :
    Untouched crypto env sess cmd d := by
  obtain ⟨r, hrun, hr⟩ := h
  refine ⟨fun reply hreply => hr reply ?_, by rw [hrun], by rw [hrun]⟩
  rwa [hrun] at hreply

/-- A command of the general commissioning cluster that fails is refused. -/
theorem refuses_commissioningReply (h : m.run d = (d, .error e)) : Refuses (commissioningReply m) d := by
  refine ⟨_, by rw [commissioningReply, run_mapResult, h], fun reply hreply => ?_⟩
  cases e <;> cases hreply <;> rfl

theorem refuses_nocReply (h : m.run d = (d, .error e)) : Refuses (nocReply m) d := by
  refine ⟨_, by rw [nocReply, run_mapResult, h], fun reply hreply => ?_⟩
  cases e <;> cases hreply <;> rfl

theorem refuses_plainReply (h : m.run d = (d, .error e)) : Refuses (plainReply m) d := by
  refine ⟨_, by rw [plainReply, run_mapResult, h], fun reply hreply => ?_⟩
  cases hreply

theorem run_withArmedFailsafe_of_ne (m : Prog ErrorCode Device Unit) (hst : d.failsafe.state = .armed ctx)
    (hne : sess.getLocalFabricIdx ≠ ctx.fabIdx) :
    ∃ e, (withArmedFailsafe sess.mode m).run d = (d, .error e) := by
  obtain ⟨e, he⟩ := FailSafe.checkState_of_ne hst hne
  exact run_withArmedFailsafe_of_error he

theorem run_arm_of_ne (hst : d.failsafe.state = .armed ctx) (hne : sess.getLocalFabricIdx ≠ ctx.fabIdx)
    (nowMs expiry : ℕ) (breadcrumb : BitVec 64) (commWindow : Bool) :
    ∃ e, (FailSafe.arm nowMs expiry breadcrumb sess.mode commWindow).run d.failsafe =
      (d.failsafe, .error e) := by
  rcases hrun : (FailSafe.arm nowMs expiry breadcrumb sess.mode commWindow).run d.failsafe with ⟨fs, r⟩
  rcases FailSafe.arm_cases hrun with ⟨rfl, e, rfl⟩ | ⟨hidle, -⟩ | ⟨added, hctx, -⟩
  · exact ⟨e, rfl⟩
  · rw [hst] at hidle
    cases hidle
  · rw [FailSafe.context_of_armed hst, Option.some_inj, Prod.mk.injEq] at hctx
    exact absurd hctx.1.symm hne

/-- Every command of the owner but the one that ends the fail-safe is refused on any other
session. -/
theorem refuses_invoke (crypto : Crypto) (env : Env) (hst : d.failsafe.state = .armed ctx)
    (hne : sess.getLocalFabricIdx ≠ ctx.fabIdx) {cmd : Command} (howners : cmd.isOwners = true)
    (hends : cmd.endsFailSafe = false) : Refuses (invoke crypto env sess cmd) d := by
  cases cmd with
  | armFailSafe expiry breadcrumb =>
    obtain ⟨e, he⟩ := run_arm_of_ne hst hne env.nowMs expiry breadcrumb d.commWindow
    refine refuses_commissioningReply (e := e) ?_
    rw [handleArmFailSafe, if_neg (by simpa [Command.endsFailSafe] using hends),
      run_bind_of_ok (run_get d), run_onFailSafe he]
  | csrRequest csrNonce isForUpdateNoc =>
    by_cases hlen : csrNonce.length = csrNonceLen
    · obtain ⟨e, he⟩ := run_withArmedFailsafe_of_ne _ hst hne
      refine refuses_plainReply (e := e) ?_
      rw [handleCsrRequest, run_bind_of_ok (run_ensure_of_pos hlen _ _), he]
    · refine refuses_plainReply (e := .invalidCommand) ?_
      rw [handleCsrRequest, run_bind_of_error (run_ensure_of_neg hlen _ _)]
  | addTrustedRootCertificate rootCa =>
    obtain ⟨e, he⟩ := run_withArmedFailsafe_of_ne _ hst hne
    exact refuses_plainReply he
  | addNoc req =>
    obtain ⟨e, he⟩ : ∃ e, (handleAddNoc crypto sess req).run d = (d, .error e) :=
      run_withArmedFailsafe_of_ne _ hst hne
    obtain ⟨r, hrun, hr⟩ := refuses_nocReply he
    refine ⟨r, ?_, hr⟩
    show (nocReply _ >>= _).run d = _
    cases r with
    | error e' => exact run_bind_of_error hrun
    | ok reply =>
      rw [run_bind_of_ok hrun, Prog.onlyIf, if_neg (by simp [hr reply rfl])]
      rfl
  | updateNoc icac noc =>
    obtain ⟨e, he⟩ := run_withArmedFailsafe_of_ne _ hst hne
    exact refuses_nocReply he
  | commissioningComplete =>
    obtain ⟨e, he⟩ := run_withArmedFailsafe_of_ne _ hst hne
    exact refuses_commissioningReply he
  | _ => cases howners

theorem untouched_armFailSafe_zero_iff (hlen : d.fabrics.length ≤ maxFabrics)
    (hst : d.failsafe.state = .armed ctx) (breadcrumb : BitVec 64) :
    Untouched crypto env sess (.armFailSafe 0 breadcrumb) d ↔ d.StuckExpiry env ctx.fabIdx := by
  have hinv := run_armFailSafe_zero crypto env sess breadcrumb d
  rw [StuckExpiry]
  by_cases h0 : ctx.fabIdx = 0
  · rw [if_pos h0]
    rw [run_expire_of_zero hst h0] at hinv
    by_cases hn : env.works .networks = true
    · rw [if_pos hn] at hinv
      refine iff_of_false (fun hun => ?_) (by simp [hn])
      exact nomatch hun.refused _ (congrArg Prod.snd hinv)
    · rw [if_neg hn] at hinv
      exact iff_of_true (Refuses.untouched ⟨_, hinv, by rintro _ ⟨⟩⟩) (Bool.eq_false_iff.mpr hn)
  rw [if_neg h0]
  by_cases hget : Fabrics.get d.fabrics ctx.fabIdx = none
  · rw [run_expire_of_none hst h0 hget] at hinv
    exact iff_of_true (Refuses.untouched ⟨_, hinv, by rintro _ ⟨⟩⟩) (.inl hget)
  rw [run_expire_of_ne_none hst h0 hget hlen] at hinv
  by_cases hw : env.works (.fabric ctx.fabIdx) = true
  swap
  · -- the fabric has been taken out and is not read back
    rw [if_neg hw] at hinv
    refine iff_of_false (fun hun => ?_) (by simp [hget, hw])
    have hfab := congrArg List.length hun.fabrics
    rw [hinv] at hfab
    have hlt := length_removeKey_lt hget
    simp only [Device.replaced, Option.toList_none, List.append_nil] at hfab
    omega
  rw [if_pos hw] at hinv
  dsimp only at hinv
  by_cases hn : env.works .networks = true
  · rw [if_pos hn] at hinv
    refine iff_of_false (fun hun => ?_) (by simp [hget, hn])
    exact nomatch hun.refused _ (congrArg Prod.snd hinv)
  · rw [if_neg hn] at hinv
    constructor
    · intro hun
      have hfab := hun.fabrics
      rw [hinv] at hfab
      exact .inr ⟨hw, Bool.eq_false_iff.mpr hn, hfab⟩
    · rintro (hnone | ⟨-, -, hfab⟩)
      · exact absurd hnone hget
      · refine ⟨fun reply hreply => ?_, by rw [hinv]; rfl, by rw [hinv]; exact hfab⟩
        rw [hinv] at hreply
        cases hreply

/-- **Who can touch the fail-safe.** On a session of another fabric, a command of the owner is
refused, unless it is the one that ends the fail-safe and that can be ended. -/
theorem untouched_iff (hreach : (machine crypto).Reachable (· = factoryNew) d)
    (hst : d.failsafe.state = .armed ctx) (hne : sess.getLocalFabricIdx ≠ ctx.fabIdx) {cmd : Command}
    (howners : cmd.isOwners = true) :
    Untouched crypto env sess cmd d ↔ (cmd.endsFailSafe = true → d.StuckExpiry env ctx.fabIdx) := by
  cases hends : cmd.endsFailSafe with
  | false =>
    refine iff_of_true (refuses_invoke crypto env hst hne howners hends).untouched ?_
    rintro ⟨⟩
  | true =>
    cases cmd with
    | armFailSafe expiry breadcrumb =>
      obtain rfl : expiry = 0 := by simpa [Command.endsFailSafe] using hends
      rw [untouched_armFailSafe_zero_iff (wellFormed_of_reachable hreach).room hst]
      simp
    | _ => cases hends

/-- Someone commissions the node for another fabric, and the administrator of the first one
has a session. -/
def Sample.twoAdmins : List Action :=
  Sample.commissioned ++ [Action.invoke 1 (Sample.envAt 0) .openCommissioningWindow] ++ Sample.pase 2 0

theorem Sample.run_twoAdmins : ∃ d sess,
    (machine Sample.crypto).run factoryNew Sample.twoAdmins = some d ∧
      d.failsafe.state = .armed ⟨0, 60, 0, 0⟩ ∧ d.sessions.get 1 = some sess ∧
      sess.getLocalFabricIdx = 1 := by
  have h : ((machine Sample.crypto).run factoryNew Sample.twoAdmins).map
      (fun d => (d.failsafe.state, (d.sessions.get 1).map (·.getLocalFabricIdx))) =
        some (.armed ⟨0, 60, 0, 0⟩, some 1) := by decide +kernel
  obtain ⟨d, hrun, heq⟩ := Option.map_eq_some_iff.mp h
  obtain ⟨hst, hsess⟩ := Prod.mk.inj heq
  obtain ⟨sess, hget, hidx⟩ := Option.map_eq_some_iff.mp hsess
  exact ⟨d, sess, hrun, hst, hget, hidx⟩

/-- The administrator cannot go on with the commissioning of the other one. -/
theorem untouched_csrRequest : ∃ d sess,
    (machine Sample.crypto).run factoryNew Sample.twoAdmins = some d ∧ d.sessions.get 1 = some sess ∧
      Untouched Sample.crypto (Sample.envAt 0) sess (.csrRequest (List.replicate 32 0) false) d := by
  obtain ⟨d, sess, hrun, hst, hget, hidx⟩ := Sample.run_twoAdmins
  refine ⟨d, sess, hrun, hget, ?_⟩
  refine (untouched_iff ⟨_, _, rfl, hrun⟩ hst ?_ rfl).mpr (by rintro ⟨⟩)
  rw [hidx]
  exact Nat.one_ne_zero

theorem not_untouched_armFailSafe_zero : ∃ d sess,
    (machine Sample.crypto).run factoryNew Sample.twoAdmins = some d ∧ d.sessions.get 1 = some sess ∧
      d.failsafe.context = some (0, false) ∧ sess.getLocalFabricIdx = 1 ∧
      ((invoke Sample.crypto (Sample.envAt 0) sess (.armFailSafe 0 0)).run d).2 = .ok (.commissioning .ok) ∧
      ((invoke Sample.crypto (Sample.envAt 0) sess (.armFailSafe 0 0)).run d).1.failsafe.state = .idle ∧
      ¬ Untouched Sample.crypto (Sample.envAt 0) sess (.armFailSafe 0 0) d := by
  obtain ⟨d, sess, hrun, hst, hget, hidx⟩ := Sample.run_twoAdmins
  have hlen := (wellFormed_of_reachable ⟨_, _, rfl, hrun⟩).room
  have hend : (invoke Sample.crypto (Sample.envAt 0) sess (.armFailSafe 0 0)).run d =
      (d.disarmed (paseSessId sess), .ok (.commissioning .ok)) := by
    rw [run_armFailSafe_zero, run_expire_of_zero hst rfl, if_pos (Sample.works 0 _)]
    rfl
  refine ⟨d, sess, hrun, hget, FailSafe.context_of_new hst, hidx, by rw [hend], by rw [hend]; rfl, ?_⟩
  rw [untouched_armFailSafe_zero_iff hlen hst, StuckExpiry, if_pos rfl, Sample.works 0]
  exact Bool.noConfusion

end Owner

end Device

end RsMatter
