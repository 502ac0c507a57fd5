import RsMatter.Device

/-!
# What can happen to the fabrics of a node

The commands are many, what they can do to the table of fabrics, to the stored
fabrics, to the context of the fail-safe and to the sessions is not. `Device.Effect`
lists it, and `Device.step_effect` says that every step of the node is one of these:
everything about runs of the node is proved from this list.
-/

namespace RsMatter

open Prog

namespace Device

/-! ## Effects -/

/-- A session carries no fabric, or one that is still the one it got. -/
def Fresh (d : Device) (x : StampedSession) : Prop :=
  x.expired = true ∨ x.getLocalFabricIdx = 0 ∨
    (Fabrics.get d.fabrics x.getLocalFabricIdx ≠ none ∧ x.stamp = d.stamps x.getLocalFabricIdx)

/-- Every session was there before or is fresh. -/
def SessionsKept (d d' : Device) : Prop :=
  ∀ x ∈ d'.sessions.sessions, x ∈ d.sessions.sessions ∨ d'.Fresh x

namespace Action

/-- The action is a command on a session of a fabric. -/
def IsFrom (a : Action) (d : Device) (fabIdx : ℕ) : Prop :=
  ∃ id env cmd sess, a = .invoke id env cmd ∧ d.sessions.get id = some sess ∧
    sess.getLocalFabricIdx = fabIdx

/-- The action is a `SetVIDVerificationStatement`. -/
def IsSetVid (a : Action) : Prop :=
  ∃ id env vendorId statement vvsc, a = .invoke id env (.setVidVerificationStatement vendorId statement vvsc)

/-- The action ends the fail-safe where it can, keeping a session for the response. -/
inductive Ends (d : Device) : Action → Env → Option (BitVec 32) → Prop where
  | tick {ctx : ArmedCtx} (env : Env) (hst : d.failsafe.state = .armed ctx)
    (hlate : ctx.armedAt + 1000 * ctx.timeoutSecs ≤ env.nowMs) : Ends d (.tick env) env none
  | armFailSafe {id env sess} (breadcrumb : BitVec 64) (h : d.sessions.get id = some sess) :
    Ends d (.invoke id env (.armFailSafe 0 breadcrumb)) env (paseSessId sess)
  | revokeCommissioning {id env sess} (h : d.sessions.get id = some sess) :
    Ends d (.invoke id env .revokeCommissioning) env (paseSessId sess)

end Action

/-- What an action can do to the fabrics, the stored fabrics, the context and the sessions. -/
inductive Effect (a : Action) (d d' : Device) : Prop where
  /-- nothing but sessions that come and go -/
  | quiet (hfab : d'.fabrics = d.fabrics) (hkv : d'.kv.fabrics = d.kv.fabrics)
    (hctx : d'.failsafe.context = d.failsafe.context) (hst : d'.stamps = d.stamps)
    (hss : SessionsKept d d')
  /-- a command changes the fabric of its session, which is stored or not -/
  | edited (fabric : Fabric) (hfrom : a.IsFrom d fabric.fabIdx)
    (hget : Fabrics.get d.fabrics fabric.fabIdx ≠ none)
    (hfab : d'.fabrics = replaceKey Fabric.fabIdx d.fabrics fabric.fabIdx fabric)
    (hkv : d'.kv.fabrics = d.kv.fabrics ∨
      (d'.kv.fabrics = Function.update d.kv.fabrics fabric.fabIdx (some fabric) ∧
        (d.failsafe.isArmedFor fabric.fabIdx = false ∨ a.IsSetVid)))
    (hctx : d'.failsafe.context = d.failsafe.context) (hst : d'.stamps = d.stamps)
    (hss : d'.sessions = d.sessions)
  /-- a fabric is removed, from storage too where that works -/
  | removed (id : BitVec 32) (env : Env) (fabIdx : ℕ) (sess : StampedSession)
    (ha : a = .invoke id env (.removeFabric fabIdx)) (hsess : d.sessions.get id = some sess)
    (hidx : fabIdx ≠ 0) (hget : Fabrics.get d.fabrics fabIdx ≠ none)
    (hfab : d'.fabrics = removeKey Fabric.fabIdx d.fabrics fabIdx)
    (hkv : d'.kv.fabrics =
      if env.works (.fabric fabIdx) then Function.update d.kv.fabrics fabIdx none else d.kv.fabrics)
    (hctx : d'.failsafe.context = d.failsafe.context) (hst : d'.stamps = (restamp fabIdx d).stamps)
    (hss : d'.sessions =
      d.sessions.removeForFabric fabIdx (if sess.getLocalFabricIdx = fabIdx then some sess.id else none))
  /-- a fabric is added under the fail-safe -/
  | added (fabric : Fabric) (hadd : ∃ id env req, a = .invoke id env (.addNoc req))
    (hctx : ∃ f, d.failsafe.context = some (f, false))
    (hctx' : d'.failsafe.context = some (fabric.fabIdx, true))
    (hfree : Fabrics.get d.fabrics fabric.fabIdx = none) (hlo : 1 ≤ fabric.fabIdx)
    (hhi : fabric.fabIdx ≤ 254) (hlen : d.fabrics.length < maxFabrics)
    (hfab : d'.fabrics = d.fabrics ++ [fabric]) (hkv : d'.kv.fabrics = d.kv.fabrics)
    (hst : d'.stamps = (restamp fabric.fabIdx d).stamps) (hss : SessionsKept d d')
  /-- a fabric is added under the fail-safe and removed again -/
  | dropped (fabIdx : ℕ) (hctx : ∃ f, d.failsafe.context = some (f, false))
    (hctx' : d'.failsafe.context = some (fabIdx, true)) (hfree : Fabrics.get d.fabrics fabIdx = none)
    (hfab : d'.fabrics = d.fabrics) (hkv : d'.kv.fabrics = d.kv.fabrics)
    (hst : d'.stamps = (restamp fabIdx (restamp fabIdx d)).stamps) (hss : d'.sessions = d.sessions)
  | armed (fabIdx : ℕ) (hctx : d.failsafe.context = none)
    (hctx' : d'.failsafe.context = some (fabIdx, false)) (hfab : d'.fabrics = d.fabrics)
    (hkv : d'.kv.fabrics = d.kv.fabrics) (hst : d'.stamps = d.stamps) (hss : SessionsKept d d')
  | ended (env : Env) (id : Option (BitVec 32)) (hends : a.Ends d env id)
    (hctx : ∃ added, d.failsafe.context = some (0, added)) (hctx' : d'.failsafe.context = none)
    (hfab : d'.fabrics = d.fabrics) (hkv : d'.kv.fabrics = d.kv.fabrics) (hst : d'.stamps = d.stamps)
    (hss : d'.sessions = d.sessions.removePase id)
  /-- the fabric of the fail-safe is rolled back, and the fail-safe ends -/
  | rolledBack (env : Env) (id : Option (BitVec 32)) (fabIdx : ℕ) (hends : a.Ends d env id)
    (hidx : fabIdx ≠ 0) (hctx : ∃ added, d.failsafe.context = some (fabIdx, added))
    (hget : Fabrics.get d.fabrics fabIdx ≠ none) (hctx' : d'.failsafe.context = none)
    (hfab : d'.fabrics = removeKey Fabric.fabIdx d.fabrics fabIdx ++ (d.kv.fabrics fabIdx).toList)
    (hkv : d'.kv.fabrics = d.kv.fabrics) (hst : d'.stamps = (restamp fabIdx d).stamps)
    (hss : d'.sessions = d.sessions.removePase id)
  /-- storage fails while the fabric of the fail-safe is rolled back -/
  | failed (env : Env) (id : Option (BitVec 32)) (fabIdx : ℕ) (restored : Option Fabric)
    (hends : a.Ends d env id)
    (hworks : env.works (.fabric fabIdx) = false ∨ env.works .networks = false) (hidx : fabIdx ≠ 0)
    (hctx : ∃ added, d.failsafe.context = some (fabIdx, added))
    (hget : Fabrics.get d.fabrics fabIdx ≠ none)
    (hctx' : d'.failsafe.context = d.failsafe.context)
    (hres : restored = none ∨ restored = d.kv.fabrics fabIdx)
    (hfab : d'.fabrics = removeKey Fabric.fabIdx d.fabrics fabIdx ++ restored.toList)
    (hkv : d'.kv.fabrics = d.kv.fabrics) (hst : d'.stamps = (restamp fabIdx d).stamps)
    (hss : d'.sessions = d.sessions)
  /-- the fabric of the fail-safe is committed, and stored where that works -/
  | committed (fabric : Fabric) (ha : ∃ id env, a = .invoke id env .commissioningComplete)
    (hctx : ∃ added, d.failsafe.context = some (fabric.fabIdx, added))
    (hget : Fabrics.get d.fabrics fabric.fabIdx = some fabric) (hctx' : d'.failsafe.context = none)
    (hfab : d'.fabrics = d.fabrics)
    (hkv : d'.kv.fabrics = d.kv.fabrics ∨
      d'.kv.fabrics = Function.update d.kv.fabrics fabric.fabIdx (some fabric))
    (hst : d'.stamps = d.stamps) (hss : SessionsKept d d')
  /-- the node starts again with what is stored -/
  | restarted (ha : a = .restart) (hctx' : d'.failsafe.context = none)
    (hfab : d'.fabrics = (List.range' 1 255).filterMap d.kv.fabrics)
    (hlen : d'.fabrics.length ≤ maxFabrics) (hkv : d'.kv.fabrics = d.kv.fabrics)
    (hss : d'.sessions = .new)

variable {a : Action} {d d' : Device}

theorem sessionsKept_of_eq (h : d'.sessions = d.sessions) : SessionsKept d d' := by
  intro x hx
  rw [h] at hx
  exact .inl hx

theorem sessionsKept_removePase {id : Option (BitVec 32)}
    (h : d'.sessions = d.sessions.removePase id) : SessionsKept d d' := by
  intro x hx
  rw [h] at hx
  cases hexp : x.expired with
  | true => exact .inr (.inl hexp)
  | false => exact .inl (Sessions.mem_of_mem_removePase hx hexp)

theorem Effect.of_eq (hfab : d'.fabrics = d.fabrics) (hkv : d'.kv.fabrics = d.kv.fabrics)
    (hctx : d'.failsafe.context = d.failsafe.context) (hst : d'.stamps = d.stamps)
    (hss : d'.sessions = d.sessions) : Effect a d d' :=
  .quiet hfab hkv hctx hst (sessionsKept_of_eq hss)

theorem Effect.refl (a : Action) (d : Device) : Effect a d d := .of_eq rfl rfl rfl rfl rfl

/-! ## The end of the fail-safe -/

section Expire

variable {env : Env} {id : Option (BitVec 32)} {ctx : ArmedCtx} {fabIdx : ℕ}

/-- The node with a fabric taken out and something put in its place. -/
def replaced (d : Device) (fabIdx : ℕ) (fabric : Option Fabric) : Device :=
  { restamp fabIdx d with fabrics := removeKey Fabric.fabIdx d.fabrics fabIdx ++ fabric.toList }

theorem run_onFailSafe {α : Type} {m : Prog ErrorCode FailSafe α} {failsafe : FailSafe}
    {r : Except ErrorCode α} (h : m.run d.failsafe = (failsafe, r)) :
    (onFailSafe m).run d = ({ d with failsafe }, r) := run_zoom _ d h

theorem run_onFabrics {α : Type} {m : Prog ErrorCode Fabrics α} {fabrics : Fabrics}
    {r : Except ErrorCode α} (h : m.run d.fabrics = (fabrics, r)) :
    (onFabrics m).run d = ({ d with fabrics }, r) := run_zoom _ d h

theorem run_rollBack_of_none (h : Fabrics.get d.fabrics fabIdx = none) :
    (rollBack env fabIdx).run d = (d, .error .notFound) := by
  have hrem : (Fabrics.remove fabIdx).run d.fabrics = (d.fabrics, .error .notFound) := by
    rw [Fabrics.run_remove, h]
    rfl
  rw [rollBack, run_bind_of_error (run_onFabrics hrem)]

theorem run_rollBack_of_ne_none (env : Env) (h : Fabrics.get d.fabrics fabIdx ≠ none)
    (hlen : d.fabrics.length ≤ maxFabrics) :
    (rollBack env fabIdx).run d =
      if env.works (.fabric fabIdx) then (d.replaced fabIdx (d.kv.fabrics fabIdx), .ok ())
      else (d.replaced fabIdx none, .error .stdIoError) := by
  have hrem : (Fabrics.remove fabIdx).run d.fabrics = (removeKey Fabric.fabIdx d.fabrics fabIdx, .ok ()) := by
    rw [Fabrics.run_remove, if_pos (Option.isSome_iff_ne_none.mpr h)]
  rw [rollBack, run_bind_of_ok (run_onFabrics hrem), run_bind_of_ok (run_modify _ _)]
  by_cases hw : env.works (.fabric fabIdx) = true
  · rw [if_pos hw, run_bind_of_ok (show (loadFabric env fabIdx).run _ = (_, .ok _) by
      rw [loadFabric, run_bind_of_ok (run_ensure_of_pos hw _ _)]; rfl)]
    refine run_onFabrics (Fabrics.run_addLoad _ ?_)
    exact (length_removeKey_lt h).trans_le hlen
  · rw [if_neg hw, run_bind_of_error (show (loadFabric env fabIdx).run _ = (_, .error _) by
      rw [loadFabric, run_bind_of_error (run_ensure_of_neg hw _ _)])]
    simp [replaced, restamp]

/-- The node with the fail-safe ended, but for its fabric. -/
def disarmed (d : Device) (id : Option (BitVec 32)) : Device :=
  { d with
    networks := d.kv.networks.getD .reset
    sessions := d.sessions.removePase id
    failsafe.state := .idle
    failsafe.breadcrumb := 0 }

/-- The last part of the end of the fail-safe, once its fabric has been rolled back. -/
theorem run_expire_rest (env : Env) (id : Option (BitVec 32)) (d : Device) :
    (do loadNetworks env
        Prog.modify fun d => { d with sessions := d.sessions.removePase id }
        Prog.modify fun d => { d with failsafe.state := .idle, failsafe.breadcrumb := 0 }
        return true : Prog ErrorCode Device Bool).run d =
      if env.works .networks then (d.disarmed id, .ok true) else (d, .error .stdIoError) := by
  by_cases hw : env.works .networks = true
  · rw [if_pos hw, run_bind_of_ok (show (loadNetworks env).run d = (_, .ok ()) by
      rw [loadNetworks, run_bind_of_ok (run_ensure_of_pos hw _ _)]; rfl)]
    rfl
  · rw [if_neg hw, run_bind_of_error (show (loadNetworks env).run d = (_, .error _) by
      rw [loadNetworks, run_bind_of_error (run_ensure_of_neg hw _ _)])]

theorem run_expire_of_idle (h : d.failsafe.state = .idle) : (expire env id).run d = (d, .ok false) := by
  rw [expire, run_bind_of_ok (run_get d), h]
  rfl

theorem run_expire_of_zero (hst : d.failsafe.state = .armed ctx) (h0 : ctx.fabIdx = 0) :
    (expire env id).run d =
      if env.works .networks then (d.disarmed id, .ok true) else (d, .error .stdIoError) := by
  rw [expire, run_bind_of_ok (run_get d), hst]
  dsimp only
  rw [Prog.onlyIf, if_neg (not_not_intro h0), run_bind_of_ok (run_pure _ _)]
  exact run_expire_rest env id d

/-- A context whose fabric is gone cannot be ended: nothing changes at all. -/
theorem run_expire_of_none (hst : d.failsafe.state = .armed ctx) (hne : ctx.fabIdx ≠ 0)
    (hget : Fabrics.get d.fabrics ctx.fabIdx = none) :
    (expire env id).run d = (d, .error .notFound) := by
  rw [expire, run_bind_of_ok (run_get d), hst]
  dsimp only
  rw [Prog.onlyIf, if_pos hne, run_bind_of_error (run_rollBack_of_none hget)]

theorem run_expire_of_ne_none (hst : d.failsafe.state = .armed ctx) (hne : ctx.fabIdx ≠ 0)
    (hget : Fabrics.get d.fabrics ctx.fabIdx ≠ none) (hlen : d.fabrics.length ≤ maxFabrics) :
    (expire env id).run d =
      if env.works (.fabric ctx.fabIdx) then
        let d' := d.replaced ctx.fabIdx (d.kv.fabrics ctx.fabIdx)
        if env.works .networks then (d'.disarmed id, .ok true) else (d', .error .stdIoError)
      else (d.replaced ctx.fabIdx none, .error .stdIoError) := by
  have hroll := run_rollBack_of_ne_none env hget hlen
  rw [expire, run_bind_of_ok (run_get d), hst]
  dsimp only
  rw [Prog.onlyIf, if_pos hne]
  by_cases hw : env.works (.fabric ctx.fabIdx) = true
  · rw [if_pos hw] at hroll
    rw [if_pos hw, run_bind_of_ok hroll]
    exact run_expire_rest env id _
  · rw [if_neg hw] at hroll
    rw [if_neg hw, run_bind_of_error hroll]

theorem effect_expire (hends : a.Ends d env id) (hlen : d.fabrics.length ≤ maxFabrics) :
    Effect a d ((expire env id).run d).1 := by
  cases hst : d.failsafe.state with
  | idle =>
    rw [run_expire_of_idle hst]
    exact .refl a d
  | armed ctx =>
    have hctx := FailSafe.context_of_armed hst
    by_cases h0 : ctx.fabIdx = 0
    · rw [run_expire_of_zero hst h0]
      rw [h0] at hctx
      split_ifs with hw
      · exact .ended env id hends ⟨_, hctx⟩ rfl rfl rfl rfl rfl
      · exact .refl a d
    by_cases hget : Fabrics.get d.fabrics ctx.fabIdx = none
    · rw [run_expire_of_none hst h0 hget]
      exact .refl a d
    rw [run_expire_of_ne_none hst h0 hget hlen]
    dsimp only
    split_ifs with hw hn
    · exact .rolledBack env id ctx.fabIdx hends h0 ⟨_, hctx⟩ hget rfl rfl rfl rfl rfl
    · exact .failed env id ctx.fabIdx _ hends (.inr (Bool.eq_false_iff.mpr hn)) h0 ⟨_, hctx⟩ hget rfl (.inr rfl)
        rfl rfl rfl rfl
    · exact .failed env id ctx.fabIdx none hends (.inl (Bool.eq_false_iff.mpr hw)) h0 ⟨_, hctx⟩ hget rfl (.inl rfl)
        rfl rfl rfl rfl

end Expire

/-! ## Commands that touch nothing of it -/

def view (d : Device) : Fabrics × (ℕ → Option Fabric) × Option (ℕ × Bool) × (ℕ → ℕ) × Sessions :=
  (d.fabrics, d.kv.fabrics, d.failsafe.context, d.stamps, d.sessions)

theorem Effect.of_view (h : d'.view = d.view) : Effect a d d' := by
  simp only [view, Prod.mk.injEq] at h
  exact .of_eq h.1 h.2.1 h.2.2.1 h.2.2.2.1 h.2.2.2.2

theorem sessionsKept_congr {t : Device} (h : SessionsKept d t) (hfab : d'.fabrics = t.fabrics)
    (hst : d'.stamps = t.stamps) (hss : d'.sessions = t.sessions) : SessionsKept d d' := by
  intro x hx
  rw [hss] at hx
  refine (h x hx).imp_right fun hfresh => ?_
  rw [Fresh, hfab, hst]
  exact hfresh

theorem Effect.trans_view {t : Device} (h : Effect a d t) (hview : d'.view = t.view) : Effect a d d' := by
  simp only [view, Prod.mk.injEq] at hview
  obtain ⟨h1, h2, h3, h4, h5⟩ := hview
  cases h with
  | quiet hfab hkv hctx hst hss =>
    exact .quiet (h1.trans hfab) (h2.trans hkv) (h3.trans hctx) (h4.trans hst) (sessionsKept_congr hss h1 h4 h5)
  | edited fabric hfrom hget hfab hkv hctx hst hss =>
    exact .edited fabric hfrom hget (h1.trans hfab) (by rwa [h2]) (h3.trans hctx) (h4.trans hst) (h5.trans hss)
  | removed id env fabIdx sess ha hsess hidx hget hfab hkv hctx hst hss =>
    exact .removed id env fabIdx sess ha hsess hidx hget (h1.trans hfab) (h2.trans hkv) (h3.trans hctx)
      (h4.trans hst) (h5.trans hss)
  | added fabric hadd hctx hctx' hfree hlo hhi hlen hfab hkv hst hss =>
    exact .added fabric hadd hctx (h3.trans hctx') hfree hlo hhi hlen (h1.trans hfab) (h2.trans hkv)
      (h4.trans hst) (sessionsKept_congr hss h1 h4 h5)
  | dropped fabIdx hctx hctx' hfree hfab hkv hst hss =>
    exact .dropped fabIdx hctx (h3.trans hctx') hfree (h1.trans hfab) (h2.trans hkv) (h4.trans hst)
      (h5.trans hss)
  | armed fabIdx hctx hctx' hfab hkv hst hss =>
    exact .armed fabIdx hctx (h3.trans hctx') (h1.trans hfab) (h2.trans hkv) (h4.trans hst)
      (sessionsKept_congr hss h1 h4 h5)
  | ended env id hends hctx hctx' hfab hkv hst hss =>
    exact .ended env id hends hctx (h3.trans hctx') (h1.trans hfab) (h2.trans hkv) (h4.trans hst)
      (h5.trans hss)
  | rolledBack env id fabIdx hends hidx hctx hget hctx' hfab hkv hst hss =>
    exact .rolledBack env id fabIdx hends hidx hctx hget (h3.trans hctx') (h1.trans hfab) (h2.trans hkv)
      (h4.trans hst) (h5.trans hss)
  | failed env id fabIdx restored hends hworks hidx hctx hget hctx' hres hfab hkv hst hss =>
    exact .failed env id fabIdx restored hends hworks hidx hctx hget (h3.trans hctx') hres (h1.trans hfab)
      (h2.trans hkv) (h4.trans hst) (h5.trans hss)
  | committed fabric ha hctx hget hctx' hfab hkv hst hss =>
    exact .committed fabric ha hctx hget (h3.trans hctx') (h1.trans hfab) (by rwa [h2]) (h4.trans hst)
      (sessionsKept_congr hss h1 h4 h5)
  | restarted ha hctx' hfab hlen hkv hss =>
    exact .restarted ha (h3.trans hctx') (h1.trans hfab) (by rwa [h1]) (h2.trans hkv) (h5.trans hss)

theorem Effect.of_keeps {α : Type} {m : Prog ErrorCode Device α} (h : Prog.Keeps view m) :
    Effect a d (m.run d).1 := .of_view (h d)

theorem keeps_onFailSafe {α : Type} {m : Prog ErrorCode FailSafe α} (h : Prog.Keeps FailSafe.context m) :
    Prog.Keeps view (onFailSafe m) := by
  intro d
  have hctx := h d.failsafe
  rcases hrun : m.run d.failsafe with ⟨fs, r⟩
  rw [hrun] at hctx
  rw [run_onFailSafe hrun]
  simp only [view]
  rw [hctx]

theorem keeps_withArmedFailsafe {α : Type} {m : Prog ErrorCode Device α} (mode : SessionMode)
    (h : Prog.Keeps view m) : Prog.Keeps view (withArmedFailsafe mode m) :=
  keeps_bind keeps_get fun _ => keeps_bind (keeps_ofExcept _) fun _ => h

theorem keeps_csrRequest (env : Env) (sess : StampedSession) (csrNonce : List UInt8)
    (isForUpdateNoc : Bool) : Prog.Keeps view (handleCsrRequest env sess csrNonce isForUpdateNoc) := by
  refine keeps_bind (keeps_ensure _ _) fun _ => keeps_withArmedFailsafe _ ?_
  refine keeps_bind (keeps_ensure _ _) fun _ => keeps_bind ?_ fun _ => keeps_ofExcept _
  apply keeps_onFailSafe
  cases isForUpdateNoc with
  | true => exact FailSafe.keeps_updateCsrReq _ _
  | false => exact FailSafe.keeps_addCsrReq _ _

theorem keeps_openCommissioningWindow : Prog.Keeps view handleOpenCommissioningWindow :=
  keeps_bind keeps_get fun _ => keeps_bind (keeps_ensure _ _) fun _ =>
    keeps_modify fun _ => rfl

theorem run_withArmedFailsafe_of_ok {α : Type} {mode : SessionMode} {m : Prog ErrorCode Device α}
    (h : d.failsafe.checkArmed mode = .ok ()) : (withArmedFailsafe mode m).run d = m.run d := by
  rw [withArmedFailsafe, run_bind_of_ok (run_get d), h]
  rfl

theorem run_withArmedFailsafe_of_error {α : Type} {mode : SessionMode} {m : Prog ErrorCode Device α}
    {e : ErrorCode} (h : d.failsafe.checkArmed mode = .error e) :
    ∃ e', (withArmedFailsafe mode m).run d = (d, .error e') := by
  rw [withArmedFailsafe, run_bind_of_ok (run_get d), h]
  exact ⟨_, rfl⟩

/-- A command of the owner of the fail-safe is refused or carried out. -/
theorem withArmedFailsafe_cases {α : Type} (mode : SessionMode) (m : Prog ErrorCode Device α) (d : Device) :
    ((withArmedFailsafe mode m).run d).1 = d ∨ (withArmedFailsafe mode m).run d = m.run d := by
  cases hchk : d.failsafe.checkArmed mode with
  | error e =>
    obtain ⟨e', hrun⟩ := run_withArmedFailsafe_of_error (m := m) hchk
    exact .inl (by rw [hrun])
  | ok _ => exact .inr (run_withArmedFailsafe_of_ok hchk)

/-! ## Commands that change a fabric -/

theorem run_storeFabric (env : Env) (fabric : Fabric) (d : Device) :
    ((storeFabric env fabric).run d).1 =
      if env.works (.fabric fabric.fabIdx) then
        { d with kv.fabrics := Function.update d.kv.fabrics fabric.fabIdx (some fabric) }
      else d := by
  rw [storeFabric]
  by_cases hw : env.works (.fabric fabric.fabIdx) = true
  · rw [if_pos hw, run_bind_of_ok (run_ensure_of_pos hw _ _), run_modify]
  · rw [if_neg hw, run_bind_of_error (run_ensure_of_neg hw _ _)]

/-- A command that changes the fabric of its session and then stores it or not. -/
theorem effect_edit {α : Type} {edit : Prog ErrorCode Fabric α} (hedit : Prog.Keeps Fabric.fabIdx edit)
    {fabIdx : ℕ} (hfrom : a.IsFrom d fabIdx) {fabrics : Fabrics} {r : Except ErrorCode α}
    (hrun : (Fabrics.fabricMut fabIdx edit).run d.fabrics = (fabrics, r))
    (hd' : d' = { d with fabrics } ∨
      (∃ fabric, Fabrics.get fabrics fabIdx = some fabric ∧
        d' = { d with fabrics, kv.fabrics := Function.update d.kv.fabrics fabIdx (some fabric) } ∧
        (d.failsafe.isArmedFor fabIdx = false ∨ a.IsSetVid))) :
    Effect a d d' := by
  rcases Fabrics.fabricMut_cases hedit hrun with
    ⟨hnone, rfl, -⟩ | ⟨fabric, fabric', hget, -, rfl, rfl⟩
  · rcases hd' with rfl | ⟨fabric, hget, -⟩
    · exact .refl a d
    · rw [hnone] at hget
      cases hget
  · have hne : Fabrics.get d.fabrics fabric'.fabIdx ≠ none := hget ▸ Option.some_ne_none _
    rcases hd' with rfl | ⟨fabric'', hget'', rfl, hstore⟩
    · exact .edited fabric' hfrom hne rfl (.inl rfl) rfl rfl rfl
    · have hself : Fabrics.get (replaceKey Fabric.fabIdx d.fabrics fabric'.fabIdx fabric') fabric'.fabIdx =
          some fabric' := lookup_replaceKey_self rfl hne
      rw [hself, Option.some_inj] at hget''
      subst hget''
      exact .edited fabric' hfrom hne rfl (.inr ⟨rfl, hstore⟩) rfl rfl rfl

theorem storeFabric_cases (d : Device) (env : Env) (fabIdx : ℕ) (c : Prop) [Decidable c] :
    let m := Prog.onlyIf c (Prog.whenSome (Fabrics.get d.fabrics fabIdx) (storeFabric env))
    (m.run d).1 = d ∨ (c ∧ ∃ fabric, Fabrics.get d.fabrics fabIdx = some fabric ∧
      (m.run d).1 = { d with kv.fabrics := Function.update d.kv.fabrics fabIdx (some fabric) }) := by
  intro m
  by_cases hc : c
  swap
  · exact .inl (by simp [m, Prog.onlyIf, hc])
  cases hget : Fabrics.get d.fabrics fabIdx with
  | none => exact .inl (by simp [m, Prog.onlyIf, hc, hget, Prog.whenSome])
  | some fabric =>
    have hidx : fabric.fabIdx = fabIdx := Fabrics.fabIdx_of_get hget
    have hm : m = storeFabric env fabric := by simp [m, Prog.onlyIf, hc, hget, Prog.whenSome]
    rw [hm, run_storeFabric, hidx]
    split_ifs
    · exact .inr ⟨hc, fabric, rfl, rfl⟩
    · exact .inl rfl

theorem effect_editFabric {edit : Prog ErrorCode Fabric (Bool × Reply)}
    (hedit : Prog.Keeps Fabric.fabIdx edit) {fabIdx : ℕ} (hfrom : a.IsFrom d fabIdx) (env : Env) :
    Effect a d ((editFabric env fabIdx edit).run d).1 := by
  rcases hrun : (Fabrics.fabricMut fabIdx edit).run d.fabrics with ⟨fabrics, r⟩
  refine effect_edit hedit hfrom hrun ?_
  cases r with
  | error e =>
    rw [editFabric, run_bind_of_error (run_onFabrics hrun)]
    exact .inl rfl
  | ok result =>
    rw [editFabric, run_bind_of_ok (run_onFabrics hrun), run_bind_of_ok (run_get _),
      fst_run_bind fun _ _ => rfl]
    rcases storeFabric_cases { d with fabrics } env fabIdx
        (result.1 = true ∧ d.failsafe.isArmedFor fabIdx = false) with h | ⟨hc, fabric, hget, h⟩
    · exact .inl h
    · exact .inr ⟨fabric, hget, h, .inl hc.2⟩

theorem effect_ensure {α : Type} {c : Prop} [Decidable c] {e : ErrorCode}
    {k : Unit → Prog ErrorCode Device α} (h : c → Effect a d ((k ()).run d).1) :
    Effect a d ((Prog.ensure c e >>= k).run d).1 := by
  by_cases hc : c
  · rw [run_bind_of_ok (run_ensure_of_pos hc _ _)]
    exact h hc
  · rw [run_bind_of_error (run_ensure_of_neg hc _ _)]
    exact .refl a d

theorem run_accessorFabIdx (sess : StampedSession) (d : Device) :
    (accessorFabIdx sess).run d =
      if sess.getLocalFabricIdx ≠ 0 then (d, .ok sess.getLocalFabricIdx)
      else (d, .error .unsupportedAccess) := by
  rw [accessorFabIdx]
  by_cases h : sess.getLocalFabricIdx ≠ 0
  · rw [if_pos h, run_bind_of_ok (run_ensure_of_pos h _ _), run_pure]
  · rw [if_neg h, run_bind_of_error (run_ensure_of_neg h _ _)]

/-- The commands and writes that are scoped to the fabric of their session. -/
theorem effect_fabricScoped {sess : StampedSession} {k : ℕ → Prog ErrorCode Device Reply}
    (h : Effect a d ((k sess.getLocalFabricIdx).run d).1) :
    Effect a d ((accessorFabIdx sess >>= k).run d).1 := by
  have hacc := run_accessorFabIdx sess d
  split_ifs at hacc with h0
  · rwa [run_bind_of_ok hacc]
  · rw [run_bind_of_error hacc]
    exact .refl a d

section FabricScoped

variable {env : Env} {sess : StampedSession}

theorem keeps_setAcl {γ : Type} {v : Fabric → γ} (h : ∀ f acl, v { f with acl } = v f)
    (value : AclWrite) : Prog.Keeps v (setAcl value) := by
  cases value with
  | replace list =>
    exact keeps_bind keeps_get fun _ => keeps_bind (keeps_ofExcept _) fun _ =>
      keeps_modify fun f => h f _
  | add entry => exact keeps_bind keeps_get fun _ => Fabric.keeps_aclAddInit h _
  | update index entry => exact keeps_bind keeps_get fun _ => Fabric.keeps_aclUpdateInit h _ _
  | remove index => exact Fabric.keeps_aclRemove h _

theorem keeps_addGroup {γ : Type} {v : Fabric → γ} (h : ∀ f groups, v { f with groups } = v f)
    (endpointId : EndptId) (groupId : BitVec 16) (groupName : String) :
    Prog.Keeps v (addGroup endpointId groupId groupName) := by
  refine keeps_bind keeps_get fun fabric => ?_
  split_ifs
  · refine keeps_catching ?_ fun e => ?_
    · exact keeps_bind (Fabric.keeps_groupsMut h _) fun _ => keeps_pure _
    · split
      · exact keeps_pure _
      · exact keeps_throw _
  · exact keeps_pure _

theorem keeps_setGroupKeyMap {γ : Type} {v : Fabric → γ} (h : ∀ f groups, v { f with groups } = v f)
    (value : GroupKeyMapWrite) : Prog.Keeps v (setGroupKeyMap value) := by
  cases value with
  | replace list => exact keeps_bind (keeps_ofExcept _) fun _ => Fabric.keeps_groupsMut h _
  | add entry => exact keeps_bind (keeps_ensure _ _) fun _ => Fabric.keeps_groupsMut h _
  | other => exact keeps_throw _

theorem effect_setAcl (hfrom : a.IsFrom d sess.getLocalFabricIdx) (value : AclWrite) :
    Effect a d ((handleSetAcl env sess value).run d).1 := by
  refine effect_fabricScoped (effect_editFabric ?_ hfrom env)
  exact keeps_bind (keeps_setAcl (fun _ _ => rfl) value) fun _ => keeps_bind (keeps_ofExcept _) fun _ =>
    keeps_pure _

theorem effect_addGroup (hfrom : a.IsFrom d sess.getLocalFabricIdx) (endpointId : EndptId)
    (groupId : BitVec 16) (groupName : String) :
    Effect a d ((handleAddGroup env sess endpointId groupId groupName).run d).1 := by
  refine effect_fabricScoped ?_
  split_ifs
  · exact .refl a d
  · exact effect_editFabric (keeps_addGroup (fun _ _ => rfl) _ _ _) hfrom env

theorem effect_removeGroup (hfrom : a.IsFrom d sess.getLocalFabricIdx) (endpointId : EndptId)
    (groupId : BitVec 16) : Effect a d ((handleRemoveGroup env sess endpointId groupId).run d).1 := by
  refine effect_fabricScoped ?_
  split_ifs
  · exact .refl a d
  · refine effect_editFabric ?_ hfrom env
    exact keeps_bind (Fabric.keeps_groupsMut (fun _ _ => rfl) _) fun _ => keeps_pure _

theorem effect_removeAllGroups (hfrom : a.IsFrom d sess.getLocalFabricIdx) (endpointId : EndptId) :
    Effect a d ((handleRemoveAllGroups env sess endpointId).run d).1 := by
  refine effect_fabricScoped (effect_editFabric ?_ hfrom env)
  exact keeps_bind (Fabric.keeps_groupsMut (fun _ _ => rfl) _) fun _ => keeps_pure _

theorem effect_setGroupKeyMap (hfrom : a.IsFrom d sess.getLocalFabricIdx) (value : GroupKeyMapWrite) :
    Effect a d ((handleSetGroupKeyMap env sess value).run d).1 := by
  refine effect_fabricScoped (effect_editFabric ?_ hfrom env)
  exact keeps_bind (keeps_setGroupKeyMap (fun _ _ => rfl) value) fun _ => keeps_pure _

theorem effect_keySetWrite (hfrom : a.IsFrom d sess.getLocalFabricIdx) (id : BitVec 16) (policy : BitVec 8)
    (k0 k1 k2 : EpochKey) : Effect a d ((handleKeySetWrite env sess id policy k0 k1 k2).run d).1 := by
  refine effect_fabricScoped ?_
  cases hset : groupKeySet id policy k0 k1 k2 with
  | error e => exact .refl a d
  | ok entry =>
    refine effect_editFabric ?_ hfrom env
    exact keeps_bind (Fabric.keeps_groupsMut (fun _ _ => rfl) _) fun _ => keeps_pure _

theorem effect_keySetRemove (hfrom : a.IsFrom d sess.getLocalFabricIdx) (id : BitVec 16) :
    Effect a d ((handleKeySetRemove env sess id).run d).1 := by
  refine effect_fabricScoped (effect_ensure fun _ => effect_editFabric ?_ hfrom env)
  exact keeps_bind (Fabric.keeps_groupsMut (fun _ _ => rfl) _) fun _ => keeps_pure _

end FabricScoped

section Commands

variable {crypto : Crypto} {env : Env} {sess : StampedSession}

theorem effect_updateFabricLabel (hfrom : a.IsFrom d sess.getLocalFabricIdx) (label : List UInt8) :
    Effect a d ((handleUpdateFabricLabel sess label).run d).1 := by
  rw [handleUpdateFabricLabel]
  refine effect_ensure fun _ => ?_
  rw [fst_run_mapError]
  rcases Fabrics.updateLabel_cases d.fabrics sess.getLocalFabricIdx label with h | h
  · rw [run_onFabrics h]
    exact .refl a d
  · rcases hrun : (Fabrics.updateLabel sess.getLocalFabricIdx label).run d.fabrics with ⟨fabrics, r⟩
    rw [run_onFabrics hrun]
    rw [hrun] at h
    exact effect_edit (Fabric.keeps_load (by intros; rfl) _ _ _) hfrom h.symm (.inl rfl)

theorem effect_updateNoc (hfrom : a.IsFrom d sess.getLocalFabricIdx) (icac : Option (List UInt8))
    (noc : List UInt8) : Effect a d ((handleUpdateNoc crypto sess icac noc).run d).1 := by
  rcases withArmedFailsafe_cases sess.mode (onFailSafeFabrics
      (FailSafe.updateNoc crypto sess.mode (icac.filter (!·.isEmpty)) noc)) d with h | h
  · rw [handleUpdateNoc, h]
    exact .refl a d
  rw [handleUpdateNoc, h]
  rcases hrun : (FailSafe.updateNoc crypto sess.mode (icac.filter (!·.isEmpty)) noc).run
      ⟨d.failsafe, d.fabrics⟩ with ⟨s, r⟩
  rw [onFailSafeFabrics, run_zoom _ d hrun]
  rcases FailSafe.updateNoc_cases hrun with rfl | ⟨fabric, -, hmode, hget, hctx, hfab⟩
  · exact .refl a d
  · refine .edited fabric ?_ hget hfab (.inl rfl) hctx rfl rfl
    rw [← hmode]
    exact hfrom

theorem effect_removeFabric {id : BitVec 32} {fabIdx : ℕ}
    (ha : a = .invoke id env (.removeFabric fabIdx)) (hsess : d.sessions.get id = some sess) :
    Effect a d ((handleRemoveFabric env sess fabIdx).run d).1 := by
  rw [handleRemoveFabric]
  refine effect_ensure fun h0 => ?_
  rw [run_bind_of_ok (run_get d)]
  by_cases hget : (Fabrics.get d.fabrics fabIdx).isSome
  swap
  · rw [if_neg hget]
    exact .refl a d
  have hrem : (Fabrics.remove fabIdx).run d.fabrics = (removeKey Fabric.fabIdx d.fabrics fabIdx, .ok ()) := by
    rw [Fabrics.run_remove, if_pos hget]
  rw [if_pos hget, run_bind_of_ok (run_onFabrics hrem), run_bind_of_ok (run_modify _ _),
    run_bind_of_ok (run_modify _ _), fst_run_bind fun _ _ => rfl, removeStored]
  have hne := Option.isSome_iff_ne_none.mp hget
  by_cases hw : env.works (.fabric fabIdx) = true
  · rw [run_bind_of_ok (run_ensure_of_pos hw _ _), run_modify]
    exact .removed id env fabIdx sess ha hsess h0 hne rfl (by rw [if_pos hw]; rfl) rfl rfl rfl
  · rw [run_bind_of_error (run_ensure_of_neg hw _ _)]
    exact .removed id env fabIdx sess ha hsess h0 hne rfl (by rw [if_neg hw]; rfl) rfl rfl rfl

theorem effect_setVid (hfrom : a.IsFrom d sess.getLocalFabricIdx) (hvid : a.IsSetVid)
    (vendorId : Option (BitVec 16)) (statement vvsc : Option (List UInt8)) :
    Effect a d ((handleSetVidVerificationStatement env sess vendorId statement vvsc).run d).1 := by
  rw [handleSetVidVerificationStatement]
  refine effect_ensure fun _ => effect_ensure fun _ => effect_ensure fun _ => effect_ensure fun _ => ?_
  refine effect_ensure fun _ => ?_
  rcases hrun : (Fabrics.fabricMut sess.getLocalFabricIdx (do
      let fabric ← Prog.get
      Prog.ensure (∀ v ∈ vvsc, v = [] ∨ fabric.icac = []) .invalidCommand
      Fabric.setVidVerification vendorId statement vvsc)).run d.fabrics with ⟨fabrics, r⟩
  refine effect_edit ?_ hfrom hrun ?_
  · exact keeps_bind keeps_get fun _ => keeps_bind (keeps_ensure _ _) fun _ =>
      Fabric.keeps_setVidVerification (fun _ _ _ _ _ => rfl) _ _ _
  cases r with
  | error e =>
    rw [run_bind_of_error (run_onFabrics hrun)]
    exact .inl rfl
  | ok _ =>
    rw [run_bind_of_ok (run_onFabrics hrun), run_bind_of_ok (run_get _)]
    rcases storeFabric_cases { d with fabrics } env sess.getLocalFabricIdx
        (d.failsafe.hasPendingNocFor sess.getLocalFabricIdx = false) with h | ⟨-, fabric, hget, h⟩
    · exact .inl h
    · exact .inr ⟨fabric, hget, h, .inr hvid⟩

theorem effect_armFailSafe {id : BitVec 32} {expiry : ℕ} {breadcrumb : BitVec 64}
    (ha : a = .invoke id env (.armFailSafe expiry breadcrumb)) (hsess : d.sessions.get id = some sess)
    (hlen : d.fabrics.length ≤ maxFabrics) :
    Effect a d ((handleArmFailSafe env sess expiry breadcrumb).run d).1 := by
  rw [handleArmFailSafe]
  by_cases h0 : expiry = 0
  · subst h0
    rw [if_pos rfl, fst_run_bind fun _ _ => rfl]
    exact effect_expire (ha ▸ .armFailSafe breadcrumb hsess) hlen
  rw [if_neg h0, run_bind_of_ok (run_get d)]
  rcases hrun : (FailSafe.arm env.nowMs expiry breadcrumb sess.mode d.commWindow).run d.failsafe with ⟨fs, r⟩
  rw [run_onFailSafe hrun]
  rcases FailSafe.arm_cases hrun with ⟨rfl, -⟩ | ⟨hidle, hst, -⟩ | ⟨added, -, -, hctx⟩
  · exact .refl a d
  · refine .armed sess.mode.fabIdx ?_ ?_ rfl rfl rfl (sessionsKept_of_eq rfl)
    · rw [FailSafe.context, hidle]
    · exact FailSafe.context_of_new hst
  · exact .of_eq rfl rfl (hctx (Nat.pos_of_ne_zero h0)) rfl rfl

theorem effect_revokeCommissioning {id : BitVec 32} (ha : a = .invoke id env .revokeCommissioning)
    (hsess : d.sessions.get id = some sess) (hlen : d.fabrics.length ≤ maxFabrics) :
    Effect a d ((handleRevokeCommissioning env sess).run d).1 := by
  have hends : a.Ends d env (paseSessId sess) := ha ▸ .revokeCommissioning hsess
  have heff := effect_expire hends hlen
  rw [handleRevokeCommissioning]
  rcases hrun : (expire env (paseSessId sess)).run d with ⟨t, _ | b⟩
  · rw [hrun] at heff
    rw [run_bind_of_error hrun]
    exact heff
  · rw [hrun] at heff
    rw [run_bind_of_ok hrun, run_modify]
    exact heff.trans_view rfl

theorem effect_commissioningComplete {id : BitVec 32} (ha : a = .invoke id env .commissioningComplete) :
    Effect a d ((handleCommissioningComplete env sess).run d).1 := by
  rw [handleCommissioningComplete]
  rcases withArmedFailsafe_cases sess.mode _ d with h | h
  · rw [h]
    exact .refl a d
  rw [h]
  rcases hrun : (FailSafe.disarm sess.mode).run ⟨d.failsafe, d.fabrics⟩ with ⟨s, r⟩
  have hzoom : (onFailSafeFabrics (FailSafe.disarm sess.mode)).run d =
      ({ d with failsafe := s.failsafe, fabrics := s.fabrics }, r) := run_zoom _ d hrun
  rcases FailSafe.disarm_cases hrun with ⟨rfl, e, rfl⟩ | ⟨fabric, rfl, harmed, -, hget, hidle, -, hfab⟩
  · rw [run_bind_of_error hzoom]
    exact .refl a d
  rw [run_bind_of_ok hzoom, run_bind_of_ok (run_modify _ _),
    run_bind_of_ok (run_modify _ _)]
  obtain ⟨added, hctx⟩ := FailSafe.context_of_isArmedFor harmed
  have hctx' : s.failsafe.context = none := by rw [FailSafe.context, hidle]
  refine Effect.trans_view ?_ (keeps_rest (fun _ => ?_) _)
  · rw [run_storeFabric]
    split_ifs
    · exact .committed fabric ⟨id, env, ha⟩ ⟨added, hctx⟩ hget hctx' hfab (.inr rfl) rfl (sessionsKept_removePase rfl)
    · exact .committed fabric ⟨id, env, ha⟩ ⟨added, hctx⟩ hget hctx' hfab (.inl rfl) rfl (sessionsKept_removePase rfl)
  · refine keeps_bind (keeps_modify fun _ => rfl) fun _ => ?_
    exact keeps_bind (keeps_ensure _ _) fun _ => keeps_modify fun _ => rfl

/-- The session a fabric has been added on gets it, or the fabric is removed again. -/
theorem run_upgrade (d : Device) (sess : StampedSession) (fabIdx : ℕ)
    (hget : (Fabrics.get d.fabrics fabIdx).isSome) :
    let m := Prog.catching (upgradeFabricIdx sess fabIdx) fun e => do
      dropAdded fabIdx
      Prog.throw e
    (∃ sess', sess.upgradeFabricIdx fabIdx (d.stamps fabIdx) = .ok sess' ∧
      m.run d =
        ({ d with sessions := d.sessions.modifySession (fun x => x.id == sess.id) fun _ => sess' },
          .ok ())) ∨
      ∃ e, m.run d =
        (restamp fabIdx { d with fabrics := removeKey Fabric.fabIdx d.fabrics fabIdx }, .error e) := by
  intro m
  cases hup : sess.upgradeFabricIdx fabIdx (d.stamps fabIdx) with
  | ok sess' =>
    refine .inl ⟨sess', rfl, ?_⟩
    have hrun : (upgradeFabricIdx sess fabIdx).run d =
        ({ d with sessions := d.sessions.modifySession (fun x => x.id == sess.id) fun _ => sess' },
          .ok ()) := by
      rw [upgradeFabricIdx, run_bind_of_ok (run_get d), hup]
      rfl
    rw [Prog.run] at hrun
    show Prog.catching (upgradeFabricIdx sess fabIdx) _ d = _
    rw [Prog.catching, hrun]
  | error e =>
    refine .inr ⟨e, ?_⟩
    have hrun : (upgradeFabricIdx sess fabIdx).run d = (d, .error e) := by
      rw [upgradeFabricIdx, run_bind_of_ok (run_get d), hup]
      rfl
    have hrem : (Fabrics.remove fabIdx).run d.fabrics =
        (removeKey Fabric.fabIdx d.fabrics fabIdx, .ok ()) := by
      rw [Fabrics.run_remove, if_pos hget]
    have hdrop : (dropAdded fabIdx).run d =
        (restamp fabIdx { d with fabrics := removeKey Fabric.fabIdx d.fabrics fabIdx }, .ok ()) := by
      rw [dropAdded, run_bind_of_ok (run_onFabrics hrem), run_modify]
    rw [Prog.run] at hrun
    show Prog.catching (upgradeFabricIdx sess fabIdx) _ d = _
    rw [Prog.catching, hrun]
    show (dropAdded fabIdx >>= fun _ => Prog.throw e).run d = _
    rw [run_bind_of_ok hdrop, run_throw]

theorem effect_addNoc (crypto : Crypto) (sess : StampedSession) {id : BitVec 32} {req : FailSafe.NocRequest}
    (ha : a = .invoke id env (.addNoc req)) : Effect a d ((handleAddNoc crypto sess req).run d).1 := by
  rw [handleAddNoc]
  rcases withArmedFailsafe_cases sess.mode _ d with h | h
  · rw [h]
    exact .refl a d
  rw [h]
  dsimp only
  rcases hrun : (FailSafe.addNoc crypto sess.mode { req with icac := req.icac.filter (!·.isEmpty) }).run
      ⟨d.failsafe, d.fabrics⟩ with ⟨s, r⟩
  have hzoom : (onFailSafeFabrics
      (FailSafe.addNoc crypto sess.mode { req with icac := req.icac.filter (!·.isEmpty) })).run d =
      ({ d with failsafe := s.failsafe, fabrics := s.fabrics }, r) := run_zoom _ d hrun
  rcases FailSafe.addNoc_cases hrun with
    ⟨rfl, e, rfl⟩ | ⟨fabric, rfl, hctx, hctx', hfab, hfree, hlo, hhi, hlen⟩
  · rw [run_bind_of_error hzoom]
    exact .refl a d
  rw [run_bind_of_ok hzoom, run_bind_of_ok (run_modify _ _)]
  have hget : Fabrics.get s.fabrics fabric.fabIdx = some fabric := by
    rw [hfab]
    exact lookup_append_self hfree
  by_cases hpase : sess.mode.isPase = true
  swap
  · rw [Prog.onlyIf, if_neg hpase, run_pure]
    exact .added fabric ⟨id, env, req, ha⟩ ⟨_, hctx⟩ hctx' hfree hlo hhi hlen hfab rfl rfl
      (sessionsKept_of_eq rfl)
  rw [Prog.onlyIf, if_pos hpase]
  rcases run_upgrade (restamp fabric.fabIdx { d with failsafe := s.failsafe, fabrics := s.fabrics }) sess
      fabric.fabIdx (hget ▸ rfl) with ⟨sess', hup, hst⟩ | ⟨e, hst⟩
  · rw [hst]
    refine .added fabric ⟨id, env, req, ha⟩ ⟨_, hctx⟩ hctx' hfree hlo hhi hlen hfab rfl rfl fun x hx => ?_
    rcases Sessions.mem_modifySession hx with hx | ⟨y, -, -, rfl⟩
    · exact .inl hx
    · obtain ⟨hidx, hstamp⟩ := StampedSession.upgradeFabricIdx_ok hup
      refine .inr (.inr (.inr ⟨?_, ?_⟩))
      · rw [hidx]
        exact hget ▸ Option.some_ne_none _
      · rw [hstamp, hidx]
  · rw [hst]
    refine .dropped fabric.fabIdx ⟨_, hctx⟩ hctx' hfree ?_ rfl rfl rfl
    show removeKey Fabric.fabIdx s.fabrics fabric.fabIdx = d.fabrics
    rw [hfab]
    exact removeKey_append_self hfree

/-- **Commands.** -/
theorem effect_invoke {id : BitVec 32} {cmd : Command} (ha : a = .invoke id env cmd)
    (hsess : d.sessions.get id = some sess) (hlen : d.fabrics.length ≤ maxFabrics) :
    Effect a d ((invoke crypto env sess cmd).run d).1 := by
  have hfrom : a.IsFrom d sess.getLocalFabricIdx := ⟨id, env, cmd, sess, ha, hsess, rfl⟩
  cases cmd with
  | armFailSafe expiry breadcrumb => exact effect_armFailSafe ha hsess hlen
  | setBreadcrumb value => exact .of_eq rfl rfl rfl rfl rfl
  | commissioningComplete => exact effect_commissioningComplete ha
  | setNetworks networks =>
    exact .of_keeps (keeps_withArmedFailsafe sess.mode (keeps_modify fun _ => rfl))
  | openCommissioningWindow => exact .of_keeps keeps_openCommissioningWindow
  | revokeCommissioning => exact effect_revokeCommissioning ha hsess hlen
  | csrRequest csrNonce isForUpdateNoc => exact .of_keeps (keeps_csrRequest env sess csrNonce isForUpdateNoc)
  | addTrustedRootCertificate rootCa =>
    exact .of_keeps
      (keeps_withArmedFailsafe sess.mode (keeps_onFailSafe (FailSafe.keeps_addTrustedRootCert crypto _ _)))
  | addNoc req =>
    refine Effect.trans_view (effect_addNoc crypto sess ha) ?_
    refine keeps_rest (fun reply => ?_) d
    exact keeps_bind (keeps_onlyIf _ (keeps_ofExcept _)) fun _ => keeps_pure _
  | updateNoc icac noc => exact effect_updateNoc hfrom icac noc
  | updateFabricLabel label => exact effect_updateFabricLabel hfrom label
  | removeFabric fabIdx =>
    refine Effect.trans_view (effect_removeFabric ha hsess) ?_
    exact keeps_rest (fun status => keeps_pure _) d
  | setVidVerificationStatement vendorId statement vvsc =>
    exact effect_setVid hfrom ⟨id, env, vendorId, statement, vvsc, ha⟩ vendorId statement vvsc
  | setAcl value => exact effect_setAcl hfrom value
  | addGroup endpointId groupId groupName => exact effect_addGroup hfrom endpointId groupId groupName
  | removeGroup endpointId groupId => exact effect_removeGroup hfrom endpointId groupId
  | removeAllGroups endpointId => exact effect_removeAllGroups hfrom endpointId
  | setGroupKeyMap value => exact effect_setGroupKeyMap hfrom value
  | keySetWrite id' policy k0 k1 k2 => exact effect_keySetWrite hfrom id' policy k0 k1 k2
  | keySetRemove id' => exact effect_keySetRemove hfrom id'

end Commands

/-! ## Everything else that can happen -/

section Others

variable {env : Env} {params : SecureParams}

theorem effect_establishPase (id : BitVec 32) : Effect a d ((establishPase env id params).run d).1 := by
  rw [establishPase, run_bind_of_ok (run_modify _ _), run_bind_of_ok (run_get _)]
  let ss := d.sessions.modifySession (·.id == id) (secure params (.pase 0) 0)
  have hss : SessionsKept d { d with sessions := ss } := by
    intro x hx
    rcases Sessions.mem_modifySession hx with hx | ⟨y, -, -, rfl⟩
    · exact .inl hx
    · exact .inr (.inr (.inl rfl))
  by_cases harmed : d.failsafe.isArmed = false
  swap
  · rw [Prog.onlyIf, if_neg harmed, run_pure]
    exact .quiet rfl rfl rfl rfl hss
  rw [Prog.onlyIf, if_pos harmed]
  rcases hrun : (FailSafe.arm env.nowMs FailSafe.defaultFailsafeExpirySecs 0 (.pase 0) d.commWindow).run
      d.failsafe with ⟨fs, r⟩
  have hzoom : (onFailSafe (FailSafe.arm env.nowMs FailSafe.defaultFailsafeExpirySecs 0 (.pase 0)
      d.commWindow)).run { d with sessions := ss } = ({ d with sessions := ss, failsafe := fs }, r) :=
    run_onFailSafe (d := { d with sessions := ss }) hrun
  show Effect a d ((onFailSafe _).run { d with sessions := ss }).1
  rw [hzoom]
  rcases FailSafe.arm_cases hrun with ⟨rfl, -⟩ | ⟨hidle, hst, -⟩ | ⟨added, -, -, hctx⟩
  · exact .quiet rfl rfl rfl rfl (sessionsKept_congr hss rfl rfl rfl)
  · refine .armed 0 ?_ (FailSafe.context_of_new hst) rfl rfl rfl (sessionsKept_congr hss rfl rfl rfl)
    rw [FailSafe.context, hidle]
  · exact .quiet rfl rfl (hctx (by decide)) rfl (sessionsKept_congr hss rfl rfl rfl)

theorem effect_establishCase (id : BitVec 32) (fabIdx : ℕ) (catIds : List (BitVec 32)) :
    Effect a d ((establishCase id fabIdx catIds params).run d).1 := by
  rw [establishCase, run_bind_of_ok (run_get d)]
  refine effect_ensure fun hget => .quiet rfl rfl rfl rfl fun x hx => ?_
  rcases Sessions.mem_modifySession hx with hx | ⟨y, -, -, rfl⟩
  · exact .inl hx
  · exact .inr (.inr (.inr ⟨Option.isSome_iff_ne_none.mp hget, rfl⟩))

theorem effect_establishGroup (fabIdx : ℕ) (groupId : BitVec 16) (msgCtr : BitVec 32) :
    Effect a d ((establishGroup fabIdx groupId msgCtr params).run d).1 := by
  rw [establishGroup, run_bind_of_ok (run_get d)]
  refine effect_ensure fun hget => ?_
  rcases hrun : (Sessions.add msgCtr false params.peerAddr (some params.peerNodeid)).run d.sessions with
    ⟨ss, r⟩
  have hzoom : (onSessions (Sessions.add msgCtr false params.peerAddr (some params.peerNodeid))).run d =
      ({ d with sessions := ss }, r) := run_zoom _ d hrun
  have hkept : ∀ x ∈ ss.sessions, x ∈ d.sessions.sessions ∨ d.Fresh x := fun x hx =>
    (Sessions.mem_add hrun hx).imp_right fun h => .inr (.inl h)
  cases r with
  | error e =>
    rw [run_bind_of_error hzoom]
    exact .quiet rfl rfl rfl rfl hkept
  | ok _ =>
    rw [run_bind_of_ok hzoom, run_modify]
    refine .quiet rfl rfl rfl rfl fun x hx => ?_
    rcases Sessions.mem_modifyLast hx with hx | ⟨y, rfl⟩
    · exact hkept x hx
    · exact .inr (.inr (.inr ⟨Option.isSome_iff_ne_none.mp hget, rfl⟩))

/-- Loading takes over what is stored, in order, as long as there is room. -/
theorem run_loadAll {kv : KvBlobStore} {l : List ℕ} {fs fs' : Fabrics} (hlen : fs.length ≤ maxFabrics)
    (h : (loadAll kv l).run fs = (fs', .ok ())) :
    fs' = fs ++ l.filterMap kv.fabrics ∧ fs'.length ≤ maxFabrics := by
  induction l generalizing fs with
  | nil =>
    obtain ⟨rfl, -⟩ := Prod.mk.inj h
    exact ⟨by simp, hlen⟩
  | cons i l ih =>
    rw [loadAll] at h
    cases hi : kv.fabrics i with
    | none =>
      have hload : (Fabrics.addLoad (kv.fabrics i)).run fs = (fs, .ok ()) := by rw [hi]; rfl
      rw [run_bind_of_ok hload] at h
      rw [List.filterMap_cons_none hi]
      exact ih hlen h
    | some fabric =>
      by_cases hroom : fs.length < maxFabrics
      · have hload := Fabrics.run_addLoad (kv.fabrics i) hroom
        rw [run_bind_of_ok hload] at h
        rw [hi] at h
        obtain ⟨rfl, hlen'⟩ := ih (by rw [List.length_append]; exact hroom) h
        rw [List.filterMap_cons_some hi]
        exact ⟨by simp, hlen'⟩
      · have hload : (Fabrics.addLoad (kv.fabrics i)).run fs = (fs, .error .resourceExhausted) := by
          rw [hi, Fabrics.addLoad, Prog.whenSome, run_bind_of_ok (run_get fs),
            run_bind_of_error (run_ensure_of_neg hroom _ _)]
        rw [run_bind_of_error hload] at h
        cases (Prod.mk.inj h).2

theorem effect_restart (h : d.restart = some d') : Effect .restart d d' := by
  rw [restart] at h
  rcases hrun : (loadAll d.kv (List.range' 1 255)).run [] with ⟨fabrics, _ | _⟩
  · rw [hrun] at h
    cases h
  · rw [hrun] at h
    obtain ⟨hfab, hlen⟩ := run_loadAll (Nat.zero_le _) hrun
    cases h
    exact .restarted rfl rfl hfab hlen rfl rfl

end Others

/-- **Every step is one of the effects.** -/
theorem step_effect {crypto : Crypto} (hlen : d.fabrics.length ≤ maxFabrics)
    (h : step crypto d a = some d') : Effect a d d' := by
  cases a with
  | invoke id env cmd =>
    obtain ⟨sess, hsess, rfl⟩ := Option.map_eq_some_iff.mp h
    exact effect_invoke rfl hsess hlen
  | tick env =>
    cases h
    rw [checkFailsafeTimeout, run_bind_of_ok (run_get d)]
    cases hst : d.failsafe.state with
    | idle => exact .refl _ d
    | armed ctx =>
      dsimp only
      split_ifs with hlate
      · rw [fst_run_bind fun _ _ => rfl]
        exact effect_expire (.tick env hst hlate) hlen
      · exact .refl _ d
  | addSession msgCtr reserved peerAddr peerNodeid =>
    cases h
    rcases hrun : (Sessions.add msgCtr reserved peerAddr peerNodeid).run d.sessions with ⟨ss, r⟩
    rw [onSessions, run_zoom _ d hrun]
    exact .quiet rfl rfl rfl rfl fun x hx => (Sessions.mem_add hrun hx).imp_right fun h => .inr (.inl h)
  | removeSession id =>
    cases h
    exact .quiet rfl rfl rfl rfl fun x hx => .inl (Sessions.mem_of_mem_remove hx)
  | establishPase id env params =>
    rw [step] at h
    split_ifs at h
    cases h
    exact effect_establishPase id
  | establishCase id fabIdx catIds params =>
    rw [step] at h
    split_ifs at h
    cases h
    exact effect_establishCase id fabIdx catIds
  | establishGroup fabIdx groupId msgCtr params =>
    cases h
    exact effect_establishGroup fabIdx groupId msgCtr
  | closeCommWindow =>
    cases h
    exact .of_eq rfl rfl rfl rfl rfl
  | restart => exact effect_restart h

end Device

end RsMatter
