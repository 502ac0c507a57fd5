import RsMatter.Settings

/-!
# Taking back the settings of a node

While the fail-safe is not armed, the networks of the node are the stored ones
(`Device.SavedNetworks`), so that reading them back when the fail-safe ends takes back
every command about networks. The end of the fail-safe does not look at the basic
information, which `SetRegulatoryConfig` has stored at once: what it has set stays
(`MatterState.restored_iff`).
-/

namespace RsMatter

open Prog

namespace Device

variable {crypto : Crypto} {a : Action} {as : List Action} {d d' : Device} {env : Env} {sess : StampedSession}

/-! ## Where networks change -/

def bothNetworks (d : Device) : Networks × Option Networks := (d.networks, d.kv.networks)

/-- The commands that leave the networks alone. -/
def Command.LeavesNetworks : Command → Bool
  | .armFailSafe expiry _ => expiry != 0
  | .commissioningComplete => false
  | .setNetworks _ => false
  | .revokeCommissioning => false
  | _ => true

theorem networks_storeFabric (env : Env) (fabric : Fabric) : Keeps bothNetworks (storeFabric env fabric) :=
  keeps_bind (keeps_ensure _ _) fun _ => keeps_modify fun _ => rfl

theorem networks_withArmedFailsafe {α : Type} (mode : SessionMode) {m : Prog ErrorCode Device α}
    (h : Keeps bothNetworks m) : Keeps bothNetworks (withArmedFailsafe mode m) :=
  keeps_bind keeps_get fun _ => keeps_bind (keeps_ofExcept _) fun _ => h

theorem networks_onFabrics {α : Type} (m : Prog ErrorCode Fabrics α) : Keeps bothNetworks (onFabrics m) :=
  fun _ => rfl

theorem networks_onFailSafe {α : Type} (m : Prog ErrorCode FailSafe α) : Keeps bothNetworks (onFailSafe m) :=
  fun _ => rfl

theorem networks_storeGet (env : Env) (fabIdx : ℕ) (c : Device → Prop) [DecidablePred c] :
    Keeps bothNetworks (do
      let d ← get
      onlyIf (c d) (whenSome (Fabrics.get d.fabrics fabIdx) (storeFabric env))) :=
  keeps_bind keeps_get fun _ => keeps_onlyIf _ (keeps_whenSome _ (networks_storeFabric env))

theorem networks_editFabric (env : Env) (fabIdx : ℕ) (edit : Prog ErrorCode Fabric (Bool × Reply)) :
    Keeps bothNetworks (editFabric env fabIdx edit) := by
  refine keeps_bind (networks_onFabrics _) fun result => keeps_bind keeps_get fun d => ?_
  refine keeps_bind ?_ fun _ => keeps_pure _
  exact keeps_onlyIf _ (keeps_whenSome _ (networks_storeFabric env))

theorem networks_fabricScoped (sess : StampedSession) {k : ℕ → Prog ErrorCode Device Reply}
    (h : ∀ fabIdx, Keeps bothNetworks (k fabIdx)) : Keeps bothNetworks (accessorFabIdx sess >>= k) :=
  keeps_bind (keeps_bind (keeps_ensure _ _) fun _ => keeps_pure _) h

theorem networks_csrRequest (csrNonce : List UInt8) (isForUpdateNoc : Bool) :
    Keeps bothNetworks (handleCsrRequest env sess csrNonce isForUpdateNoc) := by
  refine keeps_bind (keeps_ensure _ _) fun _ => networks_withArmedFailsafe _ ?_
  refine keeps_bind (keeps_ensure _ _) fun _ => ?_
  exact keeps_bind (networks_onFailSafe _) fun _ => keeps_ofExcept _

theorem networks_addNoc (crypto : Crypto) (req : FailSafe.NocRequest) :
    Keeps bothNetworks (handleAddNoc crypto sess req) := by
  refine networks_withArmedFailsafe _ (keeps_bind (fun _ => rfl) fun fabric => ?_)
  refine keeps_bind (keeps_modify fun _ => rfl) fun _ => keeps_onlyIf _ (keeps_catching ?_ fun e => ?_)
  · refine keeps_bind keeps_get fun d => keeps_bind (keeps_ofExcept _) fun _ => ?_
    exact keeps_modify fun _ => rfl
  · refine keeps_bind (keeps_bind (networks_onFabrics _) fun _ => ?_) fun _ => keeps_throw _
    exact keeps_modify fun _ => rfl

theorem networks_removeFabric (fabIdx : ℕ) : Keeps bothNetworks (handleRemoveFabric env sess fabIdx) := by
  refine keeps_bind (keeps_ensure _ _) fun _ => keeps_bind keeps_get fun d => ?_
  by_cases hget : (Fabrics.get d.fabrics fabIdx).isSome = true
  · rw [if_pos hget]
    refine keeps_bind (networks_onFabrics _) fun _ => ?_
    refine keeps_bind (keeps_modify fun _ => rfl) fun _ => ?_
    refine keeps_bind (keeps_modify fun _ => rfl) fun _ => ?_
    refine keeps_bind ?_ fun _ => keeps_pure _
    exact keeps_bind (keeps_ensure _ _) fun _ => keeps_modify fun _ => rfl
  · rw [if_neg hget]
    exact keeps_pure _

theorem networks_setVid (vendorId : Option (BitVec 16)) (statement vvsc : Option (List UInt8)) :
    Keeps bothNetworks (handleSetVidVerificationStatement env sess vendorId statement vvsc) := by
  refine keeps_bind (keeps_ensure _ _) fun _ => ?_
  refine keeps_bind (keeps_ensure _ _) fun _ => ?_
  refine keeps_bind (keeps_ensure _ _) fun _ => ?_
  refine keeps_bind (keeps_ensure _ _) fun _ => ?_
  refine keeps_bind (keeps_ensure _ _) fun _ => ?_
  exact keeps_bind (networks_onFabrics _) fun _ => networks_storeGet env _ _

/-- **Commands** that leave the networks alone do. -/
theorem networks_invoke {cmd : Command} (h : cmd.LeavesNetworks = true) :
    Keeps bothNetworks (invoke crypto env sess cmd) := by
  cases cmd with
  | armFailSafe expiry breadcrumb =>
    have hne : expiry ≠ 0 := by simpa [Command.LeavesNetworks] using h
    have harm : Keeps bothNetworks (handleArmFailSafe env sess expiry breadcrumb) := by
      rw [handleArmFailSafe, if_neg hne]
      exact keeps_bind keeps_get fun _ => networks_onFailSafe _
    exact harm
  | setBreadcrumb value => exact fun _ => rfl
  | commissioningComplete => cases h
  | setNetworks networks => cases h
  | openCommissioningWindow =>
    have hopen : Keeps bothNetworks handleOpenCommissioningWindow :=
      keeps_bind keeps_get fun _ => keeps_bind (keeps_ensure _ _) fun _ => keeps_modify fun _ => rfl
    exact hopen
  | revokeCommissioning => cases h
  | csrRequest csrNonce isForUpdateNoc => exact networks_csrRequest csrNonce isForUpdateNoc
  | addTrustedRootCertificate rootCa =>
    have hadd : Keeps bothNetworks (handleAddTrustedRootCertificate crypto sess rootCa) :=
      networks_withArmedFailsafe _ (networks_onFailSafe _)
    exact hadd
  | addNoc req =>
    have hreply : Keeps bothNetworks (nocReply (handleAddNoc crypto sess req)) := networks_addNoc crypto req
    exact keeps_bind hreply fun _ =>
      keeps_bind (keeps_onlyIf _ (keeps_ofExcept _)) fun _ => keeps_pure _
  | updateNoc icac noc =>
    have hupdate : Keeps bothNetworks (handleUpdateNoc crypto sess icac noc) :=
      networks_withArmedFailsafe _ fun _ => rfl
    exact hupdate
  | updateFabricLabel label =>
    have hlabel : Keeps bothNetworks (handleUpdateFabricLabel sess label) :=
      keeps_bind (keeps_ensure _ _) fun _ => keeps_mapError _ (networks_onFabrics _)
    exact hlabel
  | removeFabric fabIdx => exact keeps_bind (networks_removeFabric fabIdx) fun _ => keeps_pure _
  | setVidVerificationStatement vendorId statement vvsc => exact networks_setVid vendorId statement vvsc
  | setAcl value => exact networks_fabricScoped sess fun _ => networks_editFabric env _ _
  | addGroup endpointId groupId groupName =>
    refine networks_fabricScoped sess fun fabIdx => ?_
    split_ifs
    · exact keeps_pure _
    · exact networks_editFabric env _ _
  | removeGroup endpointId groupId =>
    refine networks_fabricScoped sess fun fabIdx => ?_
    split_ifs
    · exact keeps_pure _
    · exact networks_editFabric env _ _
  | removeAllGroups endpointId => exact networks_fabricScoped sess fun _ => networks_editFabric env _ _
  | setGroupKeyMap value => exact networks_fabricScoped sess fun _ => networks_editFabric env _ _
  | keySetWrite id policy k0 k1 k2 =>
    refine networks_fabricScoped sess fun _ => keeps_bind (keeps_ofExcept _) fun _ => ?_
    exact networks_editFabric env _ _
  | keySetRemove id =>
    refine networks_fabricScoped sess fun _ => keeps_bind (keeps_ensure _ _) fun _ => ?_
    exact networks_editFabric env _ _

theorem networks_establishPase (env : Env) (id : BitVec 32) (params : SecureParams) :
    Keeps bothNetworks (establishPase env id params) := by
  refine keeps_bind (keeps_modify fun _ => rfl) fun _ => keeps_bind keeps_get fun d => ?_
  exact keeps_onlyIf _ (networks_onFailSafe _)

theorem networks_establishCase (id : BitVec 32) (fabIdx : ℕ) (catIds : List (BitVec 32))
    (params : SecureParams) : Keeps bothNetworks (establishCase id fabIdx catIds params) :=
  keeps_bind keeps_get fun _ => keeps_bind (keeps_ensure _ _) fun _ => keeps_modify fun _ => rfl

theorem networks_establishGroup (fabIdx : ℕ) (groupId : BitVec 16) (msgCtr : BitVec 32)
    (params : SecureParams) : Keeps bothNetworks (establishGroup fabIdx groupId msgCtr params) := by
  refine keeps_bind keeps_get fun _ => keeps_bind (keeps_ensure _ _) fun _ => ?_
  exact keeps_bind (fun _ => rfl) fun _ => keeps_modify fun _ => rfl

/-! ## Stored networks -/

/-- While the fail-safe is not armed, the networks are the stored ones. -/
def SavedNetworks (d : Device) : Prop :=
  d.failsafe.context = none → d.networks = d.kv.networks.getD .reset

/-- All accesses to storage of an action succeed. -/
def Action.Works : Action → Prop
  | .invoke _ env _ => env.Works
  | .tick env => env.Works
  | _ => True

/-- The action can be the end of the fail-safe, for better or worse. -/
def Action.CanEnd (a : Action) (d : Device) : Prop :=
  (∃ env id, a.Ends d env id) ∨ (∃ id env, a = .invoke id env .commissioningComplete) ∨ a = .restart

theorem Action.CanEnd.cases (h : a.CanEnd d) :
    (∃ env, a = .tick env) ∨ (∃ id env cmd, a = .invoke id env cmd) ∨ a = .restart := by
  rcases h with ⟨_, _, hends⟩ | ⟨id, env, heq⟩ | heq
  · cases hends with
    | tick => exact .inl ⟨_, rfl⟩
    | armFailSafe => exact .inr (.inl ⟨_, _, _, rfl⟩)
    | revokeCommissioning => exact .inr (.inl ⟨_, _, _, rfl⟩)
  · exact .inr (.inl ⟨id, env, _, heq⟩)
  · exact .inr (.inr heq)

theorem Effect.idle (h : Effect a d d') (hidle : d'.failsafe.context = none) :
    d.failsafe.context = none ∨ a.CanEnd d := by
  cases h with
  | quiet hfab hkv hctx => exact .inl (hctx.symm.trans hidle)
  | edited fabric hfrom hget hfab hkv hctx => exact .inl (hctx.symm.trans hidle)
  | removed id env fabIdx sess ha hsess hidx hget hfab hkv hctx => exact .inl (hctx.symm.trans hidle)
  | added fabric hadd hctx hctx' => exact nomatch hctx'.symm.trans hidle
  | dropped fabIdx hctx hctx' => exact nomatch hctx'.symm.trans hidle
  | armed fabIdx hctx hctx' => exact nomatch hctx'.symm.trans hidle
  | ended env id hends => exact .inr (.inl ⟨env, id, hends⟩)
  | rolledBack env id fabIdx hends => exact .inr (.inl ⟨env, id, hends⟩)
  | failed env id fabIdx restored hends => exact .inr (.inl ⟨env, id, hends⟩)
  | committed fabric ha => exact .inr (.inr (.inl ha))
  | restarted ha => exact .inr (.inr (.inr ha))

/-- A step that leaves the networks alone and does not end the fail-safe. -/
theorem SavedNetworks.of_effect (h : d.SavedNetworks) (heff : Effect a d d')
    (hnet : d'.bothNetworks = d.bothNetworks) (hend : ¬ a.CanEnd d) : d'.SavedNetworks := by
  intro hidle
  obtain ⟨hmem, hkv⟩ := Prod.mk.inj hnet
  rw [hmem, hkv]
  exact h ((heff.idle hidle).resolve_right hend)

/-- **The end of the fail-safe** reads the networks back, or does not come. -/
theorem savedNetworks_expire (hlen : d.fabrics.length ≤ maxFabrics) (h : d.SavedNetworks)
    (hworks : env.Works) (id : Option (BitVec 32)) : ((expire env id).run d).1.SavedNetworks := by
  cases hst : d.failsafe.state with
  | idle =>
    rw [run_expire_of_idle hst]
    exact h
  | armed ctx =>
    by_cases h0 : ctx.fabIdx = 0
    · rw [run_expire_of_zero hst h0, if_pos (hworks _)]
      exact fun _ => rfl
    by_cases hget : Fabrics.get d.fabrics ctx.fabIdx = none
    · rw [run_expire_of_none hst h0 hget]
      exact h
    · rw [run_expire_of_ne_none hst h0 hget hlen, if_pos (hworks _)]
      dsimp only
      rw [if_pos (hworks _)]
      exact fun _ => rfl

/-- `CommissioningComplete` stores the networks. -/
theorem savedNetworks_commissioningComplete (h : d.SavedNetworks) (hworks : env.Works) :
    ((handleCommissioningComplete env sess).run d).1.SavedNetworks := by
  rw [handleCommissioningComplete]
  rcases withArmedFailsafe_cases sess.mode _ d with hrun | hrun
  · rw [hrun]
    exact h
  rw [hrun]
  rcases hdis : (FailSafe.disarm sess.mode).run ⟨d.failsafe, d.fabrics⟩ with ⟨s, r⟩
  have hzoom : (onFailSafeFabrics (FailSafe.disarm sess.mode)).run d =
      ({ d with failsafe := s.failsafe, fabrics := s.fabrics }, r) := run_zoom _ d hdis
  rcases FailSafe.disarm_cases hdis with ⟨rfl, e, rfl⟩ | ⟨fabric, rfl, -⟩
  · rw [run_bind_of_error hzoom]
    exact h
  rw [run_bind_of_ok hzoom, run_bind_of_ok (run_modify _ _), run_bind_of_ok (run_modify _ _)]
  have hstore : ∀ t : Device, ∃ t', (storeFabric env fabric).run t = (t', .ok ()) := by
    intro t
    rw [storeFabric, run_bind_of_ok (run_ensure_of_pos (hworks _) _ _), run_modify]
    exact ⟨_, rfl⟩
  obtain ⟨t', ht'⟩ := hstore _
  rw [run_bind_of_ok ht', run_bind_of_ok (run_modify _ _), storeNetworks,
    run_bind_of_ok (run_ensure_of_pos (hworks _) _ _), run_modify]
  exact fun _ => rfl

theorem context_ne_none_of_checkArmed {fs : FailSafe} {mode : SessionMode} (h : fs.checkArmed mode = .ok ()) :
    fs.context ≠ none := by
  rw [FailSafe.checkArmed, FailSafe.checkState] at h
  rw [FailSafe.context]
  cases hst : fs.state with
  | idle => rw [hst] at h; cases h
  | armed ctx => exact Option.some_ne_none _

theorem savedNetworks_withArmedFailsafe {α : Type} (mode : SessionMode) {m : Prog ErrorCode Device α}
    (hm : Keeps failsafe m) (h : d.SavedNetworks) : ((withArmedFailsafe mode m).run d).1.SavedNetworks := by
  cases hchk : d.failsafe.checkArmed mode with
  | error e =>
    obtain ⟨e', hrun⟩ := run_withArmedFailsafe_of_error (m := m) hchk
    rw [hrun]
    exact h
  | ok _ =>
    rw [run_withArmedFailsafe_of_ok hchk]
    intro hidle
    rw [hm d] at hidle
    exact absurd hidle (context_ne_none_of_checkArmed hchk)

theorem not_canEnd_invoke {id : BitVec 32} {cmd : Command} (h : cmd.LeavesNetworks = true) :
    ¬ (Action.invoke id env cmd).CanEnd d := by
  rintro (⟨_, _, hends⟩ | ⟨_, _, heq⟩ | heq)
  · cases hends with
    | armFailSafe => cases h
    | revokeCommissioning => cases h
  · obtain ⟨-, -, rfl⟩ := Action.invoke.inj heq
    cases h
  · cases heq

/-- **A step of the node** with a storage that works. -/
theorem SavedNetworks.step (h : d.SavedNetworks) (hlen : d.fabrics.length ≤ maxFabrics) (hworks : a.Works)
    (hstep : step crypto d a = some d') : d'.SavedNetworks := by
  have heff := step_effect hlen hstep
  cases a with
  | invoke id env cmd =>
    obtain ⟨sess, -, rfl⟩ := Option.map_eq_some_iff.mp hstep
    by_cases hcmd : cmd.LeavesNetworks = true
    · exact h.of_effect heff (networks_invoke hcmd d) (not_canEnd_invoke hcmd)
    cases cmd with
    | armFailSafe expiry breadcrumb =>
      have h0 : expiry = 0 := by simpa [Command.LeavesNetworks] using hcmd
      subst h0
      rw [run_armFailSafe_zero]
      exact savedNetworks_expire hlen h hworks _
    | commissioningComplete => exact savedNetworks_commissioningComplete h hworks
    | setNetworks networks =>
      have hset : Keeps failsafe (ε := ErrorCode) (modify fun d : Device => { d with networks.networks := networks }) :=
        keeps_modify fun _ => rfl
      exact savedNetworks_withArmedFailsafe sess.mode hset h
    | revokeCommissioning =>
      have hend := savedNetworks_expire hlen h hworks (paseSessId sess)
      show ((handleRevokeCommissioning env sess).run d).1.SavedNetworks
      rw [handleRevokeCommissioning]
      rcases hrun : (expire env (paseSessId sess)).run d with ⟨t, _ | b⟩
      · rw [hrun] at hend
        rw [run_bind_of_error hrun]
        exact hend
      · rw [hrun] at hend
        rw [run_bind_of_ok hrun, run_modify]
        exact hend
    | _ => exact absurd rfl hcmd
  | tick env =>
    cases hstep
    rw [checkFailsafeTimeout, run_bind_of_ok (run_get d)]
    cases hst : d.failsafe.state with
    | idle => exact h
    | armed ctx =>
      dsimp only
      split_ifs
      · rw [fst_run_bind fun _ _ => rfl]
        exact savedNetworks_expire hlen h hworks _
      · exact h
  | restart =>
    rw [Device.step, restart] at hstep
    split at hstep
    · cases hstep
    · cases hstep
      exact fun _ => rfl
  | addSession msgCtr reserved peerAddr peerNodeid =>
    cases hstep
    exact h
  | removeSession id =>
    cases hstep
    exact h
  | establishPase id env params =>
    rw [Device.step] at hstep
    split_ifs at hstep
    cases hstep
    refine h.of_effect heff (networks_establishPase env id params d) fun hend => ?_
    rcases hend.cases with ⟨_, heq⟩ | ⟨_, _, _, heq⟩ | heq <;> cases heq
  | establishCase id fabIdx catIds params =>
    rw [Device.step] at hstep
    split_ifs at hstep
    cases hstep
    refine h.of_effect heff (networks_establishCase id fabIdx catIds params d) fun hend => ?_
    rcases hend.cases with ⟨_, heq⟩ | ⟨_, _, _, heq⟩ | heq <;> cases heq
  | establishGroup fabIdx groupId msgCtr params =>
    cases hstep
    refine h.of_effect heff (networks_establishGroup fabIdx groupId msgCtr params d) fun hend => ?_
    rcases hend.cases with ⟨_, heq⟩ | ⟨_, _, _, heq⟩ | heq <;> cases heq
  | closeCommWindow =>
    cases hstep
    exact h

/-! ## The fail-safe is armed and ends -/

theorem state_idle_of_context {fs : FailSafe} (h : fs.context = none) : fs.state = .idle := by
  rw [FailSafe.context] at h
  cases hst : fs.state with
  | idle => rfl
  | armed ctx => rw [hst] at h; cases h

/-- Without an armed fail-safe only a restart touches the networks. -/
theorem networks_of_idle (hidle : d.failsafe.state = .idle) (hstep : step crypto d a = some d')
    (hne : a ≠ .restart) : d'.bothNetworks = d.bothNetworks := by
  have hrefused : ∀ {α : Type} (mode : SessionMode) (m : Prog ErrorCode Device α),
      ((withArmedFailsafe mode m).run d).1 = d := by
    intro α mode m
    have hchk : d.failsafe.checkArmed mode = .error .failSafeRequired := by
      rw [FailSafe.checkArmed, FailSafe.checkState, hidle]
    obtain ⟨e', hrun⟩ := run_withArmedFailsafe_of_error (m := m) hchk
    rw [hrun]
  cases a with
  | invoke id env cmd =>
    obtain ⟨sess, -, rfl⟩ := Option.map_eq_some_iff.mp hstep
    by_cases hcmd : cmd.LeavesNetworks = true
    · exact networks_invoke hcmd d
    cases cmd with
    | armFailSafe expiry breadcrumb =>
      have h0 : expiry = 0 := by simpa [Command.LeavesNetworks] using hcmd
      subst h0
      rw [run_armFailSafe_zero, run_expire_of_idle hidle]
    | commissioningComplete =>
      have hrun : ((handleCommissioningComplete env sess).run d).1 = d := hrefused _ _
      exact congrArg bothNetworks hrun
    | setNetworks networks =>
      have hrun : ((handleNetworks sess networks).run d).1 = d := hrefused _ _
      exact congrArg bothNetworks hrun
    | revokeCommissioning =>
      show ((handleRevokeCommissioning env sess).run d).1.bothNetworks = _
      rw [handleRevokeCommissioning, run_bind_of_ok (run_expire_of_idle hidle), run_modify]
      rfl
    | _ => exact absurd rfl hcmd
  | tick env =>
    cases hstep
    rw [checkFailsafeTimeout, run_bind_of_ok (run_get d), hidle]
    rfl
  | restart => exact absurd rfl hne
  | establishPase id env params =>
    rw [Device.step] at hstep
    split_ifs at hstep
    cases hstep
    exact networks_establishPase env id params d
  | establishCase id fabIdx catIds params =>
    rw [Device.step] at hstep
    split_ifs at hstep
    cases hstep
    exact networks_establishCase id fabIdx catIds params d
  | establishGroup fabIdx groupId msgCtr params =>
    cases hstep
    exact networks_establishGroup fabIdx groupId msgCtr params d
  | _ =>
    cases hstep
    rfl

/-- The fabric the fail-safe is armed for, if there is one, is still there. -/
def HasOwner (d : Device) : Prop :=
  ∀ f added, d.failsafe.context = some (f, added) → f = 0 ∨ Fabrics.get d.fabrics f ≠ none

theorem settings_expire {f : ℕ} {added : Bool} (hlen : d.fabrics.length ≤ maxFabrics)
    (hctx : d.failsafe.context = some (f, added)) (hworks : env.Works) (id : Option (BitVec 32)) :
    (d.HasOwner ∧ ((expire env id).run d).1.networks = d.kv.networks.getD .reset ∧
      ((expire env id).run d).1.kv.networks = d.kv.networks ∧
      ((expire env id).run d).1.failsafe.breadcrumb = 0) ∨
    (¬ d.HasOwner ∧ ((expire env id).run d).1 = d) := by
  obtain ⟨ctx, hst, rfl, -⟩ := FailSafe.armed_of_context hctx
  have hiff : d.HasOwner ↔ ctx.fabIdx = 0 ∨ Fabrics.get d.fabrics ctx.fabIdx ≠ none := by
    refine ⟨fun h => h _ _ hctx, fun h f' added' hctx' => ?_⟩
    rw [hctx, Option.some_inj, Prod.mk.injEq] at hctx'
    rwa [← hctx'.1]
  rw [hiff]
  by_cases h0 : ctx.fabIdx = 0
  · rw [run_expire_of_zero hst h0, if_pos (hworks _)]
    exact .inl ⟨.inl h0, rfl, rfl, rfl⟩
  by_cases hget : Fabrics.get d.fabrics ctx.fabIdx = none
  · rw [run_expire_of_none hst h0 hget]
    exact .inr ⟨fun h => h.elim h0 (absurd hget), rfl⟩
  · rw [run_expire_of_ne_none hst h0 hget hlen, if_pos (hworks _)]
    dsimp only
    rw [if_pos (hworks _)]
    exact .inl ⟨.inr hget, rfl, rfl, rfl⟩

/-- An action that ends the fail-safe does just that, and may close the commissioning window. -/
theorem step_of_ends {id : Option (BitVec 32)} (hends : a.Ends d env id) (hstep : step crypto d a = some d') :
    ∃ commWindow, d' = { ((expire env id).run d).1 with commWindow } := by
  cases hends with
  | tick env hst hlate =>
    cases hstep
    refine ⟨((expire env none).run d).1.commWindow, ?_⟩
    rw [checkFailsafeTimeout, run_bind_of_ok (run_get d), hst]
    dsimp only
    rw [if_pos hlate, fst_run_bind fun _ _ => rfl]
  | armFailSafe breadcrumb hsess =>
    obtain ⟨sess, hsess', rfl⟩ := Option.map_eq_some_iff.mp hstep
    obtain rfl := Option.some_inj.mp (hsess'.symm.trans hsess)
    refine ⟨((expire env (paseSessId sess)).run d).1.commWindow, ?_⟩
    rw [run_armFailSafe_zero]
  | revokeCommissioning hsess =>
    obtain ⟨sess, hsess', rfl⟩ := Option.map_eq_some_iff.mp hstep
    obtain rfl := Option.some_inj.mp (hsess'.symm.trans hsess)
    show ∃ _, ((handleRevokeCommissioning env sess).run d).1 = _
    rw [handleRevokeCommissioning]
    rcases hrun : (expire env (paseSessId sess)).run d with ⟨t, _ | b⟩
    · rw [run_bind_of_error hrun]
      exact ⟨t.commWindow, rfl⟩
    · rw [run_bind_of_ok hrun, run_modify]
      exact ⟨false, rfl⟩

end Device

namespace MatterState

variable {Creds : Type} {cfg : Config Creds} {a : Action Creds} {as pre : List (Action Creds)}
  {s s' s₀ t : MatterState}

/-! ## Storage that works -/

/-- All accesses to storage of an action succeed. -/
def Action.Works : Action Creds → Prop
  | .device a => a.Works
  | .setRegulatoryConfig _ works _ _ _ => works = true
  | .setLocation _ works _ => works = true
  | _ => True

theorem exists_works : ∃ env : Env, env.Works := ⟨⟨0, fun _ => true, .ok [], .ok ()⟩, fun _ => rfl⟩

/-- A command about networks sets them to something, as far as the node is concerned. -/
theorem run_onNetworks (sess : StampedSession) (m : Prog NetworksError (List (List UInt8)) (BitVec 8))
    (d : Device) : ∃ networks, ((Device.withArmedFailsafe sess.mode (Device.onNetworks m)).run d).1 =
      ((Device.handleNetworks sess networks).run d).1 := by
  cases hchk : d.failsafe.checkArmed sess.mode with
  | error e =>
    obtain ⟨_, hrun⟩ := Device.run_withArmedFailsafe_of_error (m := Device.onNetworks m) hchk
    obtain ⟨_, hrun'⟩ := Device.run_withArmedFailsafe_of_error (α := Unit)
      (m := modify fun d => { d with networks.networks := [] }) hchk
    refine ⟨[], ?_⟩
    rw [hrun, Device.handleNetworks, hrun']
  | ok _ =>
    rw [Device.run_withArmedFailsafe_of_ok hchk]
    refine ⟨(m.run d.networks.networks).1, ?_⟩
    rw [Device.handleNetworks, Device.run_withArmedFailsafe_of_ok hchk]
    rfl

/-- What a command about networks does to the node. -/
structure SetsNetworks (s s' : MatterState) (id : BitVec 32) : Prop where
  basicInfo : s'.basicInfoSettings = s.basicInfoSettings
  kvBasicInfo : s'.kvBasicInfo = s.kvBasicInfo
  /-- the networks are set on the session -/
  device : ∃ sess networks, s.device.sessions.get id = some sess ∧
    s'.device = ((Device.handleNetworks sess networks).run s.device).1

theorem setsNetworks_of_onSession {id : BitVec 32}
    {m : StampedSession → Prog NetworksError (List (List UInt8)) (BitVec 8)}
    (h : s.onSession id (fun sess => Device.withArmedFailsafe sess.mode (Device.onNetworks (m sess))) = some s') :
    s.SetsNetworks s' id := by
  obtain ⟨sess, hsess, rfl⟩ := Option.map_eq_some_iff.mp h
  obtain ⟨networks, hrun⟩ := run_onNetworks sess (m sess) s.device
  exact ⟨rfl, rfl, sess, networks, hsess, hrun⟩

/-- The basic information an action sets, if it is a `SetRegulatoryConfig` that is accepted. -/
def Action.sets (locationCap : RegulatoryLocationType) : Action Creds → Option BasicInfoSettings
  | .setRegulatoryConfig _ _ countryCode newRegulatoryConfig _ =>
    if countryCode.utf8ByteSize = 2 then
      (newRegulatoryConfig.filter (isRegulatoryConfigSupported locationCap)).map fun locationType =>
        ⟨if countryCode = "XX" then none else some countryCode, locationType⟩
    else none
  | _ => none

/-- What `SetRegulatoryConfig` does. -/
theorem run_setRegulatoryConfig (cap : RegulatoryLocationType) (id : BitVec 32) (countryCode : String)
    (new : Option RegulatoryLocationType) (breadcrumb : BitVec 64) (s : MatterState) :
    ((handleSetRegulatoryConfig cap true countryCode new breadcrumb).run s).1 =
      match (.setRegulatoryConfig id true countryCode new breadcrumb : Action Creds).sets cap with
      | none => s
      | some info => ⟨{ s.device with failsafe.breadcrumb := breadcrumb }, info, some info⟩ := by
  rw [handleSetRegulatoryConfig, Action.sets]
  by_cases hlen : countryCode.utf8ByteSize = 2
  swap
  · rw [if_neg hlen, run_bind_of_error (run_ensure_of_neg hlen _ _)]
  rw [if_pos hlen, run_bind_of_ok (run_ensure_of_pos hlen _ _)]
  cases new.filter (isRegulatoryConfigSupported cap) with
  | none => rfl
  | some locationType => rfl

/-- A device action that is not a restart leaves the basic information alone. -/
theorem step_device {a : Device.Action} (hre : a ≠ .restart) (hstep : step cfg s (.device a) = some s') :
    ∃ device, Device.step cfg.crypto s.device a = some device ∧ s' = { s with device } := by
  have hstep' : (Device.step cfg.crypto s.device a).map (fun device => { s with device }) = some s' := by
    rw [← hstep]
    cases a with
    | restart => exact absurd rfl hre
    | _ => rfl
  obtain ⟨device, hdev, rfl⟩ := Option.map_eq_some_iff.mp hstep'
  exact ⟨device, hdev, rfl⟩

/-- **A step**, as far as the node is concerned, is a step of the node. -/
theorem device_of_step (hstep : step cfg s a = some s') (hworks : a.Works) :
    s'.device = s.device ∨ ∃ b : Device.Action, b.Works ∧ Device.step cfg.crypto s.device b = some s'.device := by
  obtain ⟨env, henv⟩ := exists_works
  have hnetworks : ∀ {id : BitVec 32}, s.SetsNetworks s' id →
      ∃ b : Device.Action, b.Works ∧ Device.step cfg.crypto s.device b = some s'.device := by
    rintro id ⟨-, -, sess, networks, hsess, hrun⟩
    refine ⟨.invoke id env (.setNetworks networks), henv, ?_⟩
    rw [Device.step, hsess, Option.map_some, hrun]
    rfl
  cases a with
  | device a =>
    refine .inr ⟨a, hworks, ?_⟩
    by_cases hre : a = .restart
    · subst hre
      obtain ⟨device, hdev, rfl⟩ := Option.map_eq_some_iff.mp hstep
      exact hdev
    · obtain ⟨device, hdev, rfl⟩ := step_device hre hstep
      exact hdev
  | addOrUpdateNetwork id creds => exact .inr (hnetworks (setsNetworks_of_onSession hstep))
  | removeNetwork id networkId => exact .inr (hnetworks (setsNetworks_of_onSession hstep))
  | reorderNetwork id index networkId => exact .inr (hnetworks (setsNetworks_of_onSession hstep))
  | setRegulatoryConfig id works countryCode new breadcrumb =>
    obtain ⟨sess, hsess, rfl⟩ := Option.map_eq_some_iff.mp hstep
    obtain rfl : works = true := hworks
    rw [@run_setRegulatoryConfig Creds _ id]
    split
    · exact .inl rfl
    · refine .inr ⟨.invoke id env (.setBreadcrumb breadcrumb), henv, ?_⟩
      rw [Device.step, hsess]
      rfl
  | setLocation id works location =>
    obtain ⟨sess, hsess, rfl⟩ := Option.map_eq_some_iff.mp hstep
    left
    have hkept : Keeps device (handleSetLocation works location) := by
      refine keeps_bind (keeps_ensure _ _) fun _ => keeps_bind (keeps_modify fun _ => rfl) fun _ => ?_
      exact keeps_bind (keeps_ensure _ _) fun _ => keeps_modify fun _ => rfl
    exact hkept s

/-! ## What is stored -/

/-- The settings are the stored ones, as long as the fail-safe is not armed. -/
structure Saved (s : MatterState) : Prop where
  /-- the tables of the node are in order -/
  wf : s.device.WellFormed
  networks : s.device.SavedNetworks
  /-- the basic information, even while it is armed -/
  basicInfo : s.basicInfoSettings = s.storedBasicInfo

theorem saved_factoryNew : Saved factoryNew where
  wf := @Device.wellFormed_of_reachable Device.Sample.crypto _ ⟨_, [], rfl, rfl⟩
  networks _ := rfl
  basicInfo := rfl

theorem basicInfo_of_step (hstep : step cfg s a = some s') (hworks : a.Works)
    (h : s.basicInfoSettings = s.storedBasicInfo) : s'.basicInfoSettings = s'.storedBasicInfo := by
  have hnetworks : ∀ {id : BitVec 32}, s.SetsNetworks s' id → s'.basicInfoSettings = s'.storedBasicInfo := by
    rintro id ⟨hmem, hkv, -⟩
    rw [hmem, storedBasicInfo, hkv]
    exact h
  cases a with
  | device a =>
    by_cases hre : a = .restart
    · subst hre
      obtain ⟨device, -, rfl⟩ := Option.map_eq_some_iff.mp hstep
      rfl
    · obtain ⟨device, -, rfl⟩ := step_device hre hstep
      exact h
  | addOrUpdateNetwork id creds => exact hnetworks (setsNetworks_of_onSession hstep)
  | removeNetwork id networkId => exact hnetworks (setsNetworks_of_onSession hstep)
  | reorderNetwork id index networkId => exact hnetworks (setsNetworks_of_onSession hstep)
  | setRegulatoryConfig id works countryCode new breadcrumb =>
    obtain ⟨sess, -, rfl⟩ := Option.map_eq_some_iff.mp hstep
    obtain rfl : works = true := hworks
    rw [@run_setRegulatoryConfig Creds _ id]
    split
    · exact h
    · rfl
  | setLocation id works location =>
    obtain ⟨sess, -, rfl⟩ := Option.map_eq_some_iff.mp hstep
    obtain rfl : works = true := hworks
    rw [handleSetLocation]
    by_cases hlen : location.utf8ByteSize = 2
    · rw [run_bind_of_ok (run_ensure_of_pos hlen _ _)]
      rfl
    · rw [run_bind_of_error (run_ensure_of_neg hlen _ _)]
      exact h

theorem Saved.step (h : s.Saved) (hworks : a.Works) (hstep : step cfg s a = some s') : s'.Saved := by
  have hinfo := basicInfo_of_step hstep hworks h.basicInfo
  rcases device_of_step hstep hworks with heq | ⟨b, hb, hdev⟩
  · exact ⟨heq ▸ h.wf, heq ▸ h.networks, hinfo⟩
  · exact ⟨h.wf.step (Device.step_effect h.wf.room hdev), h.networks.step h.wf.room hb hdev, hinfo⟩

/-- **Runs** with a storage that works. -/
theorem saved_of_run (hrun : (machine cfg).run factoryNew as = some s) (hworks : ∀ a ∈ as, a.Works) :
    s.Saved := by
  have hok : (machine cfg).Meets (fun _ a => a.Works) factoryNew as :=
    Machine.meets_of_forall fun a ha _ => hworks a ha
  exact Machine.invariant_of_meets (fun _ _ _ ha hs hstep => hs.step ha hstep) saved_factoryNew hok hrun

/-! ## Commands about settings -/

/-- The action is a command about settings, and its access to storage succeeds. -/
def Action.IsSettings : Action Creds → Prop
  | .addOrUpdateNetwork .. => True
  | .removeNetwork .. => True
  | .reorderNetwork .. => True
  | .setRegulatoryConfig _ works _ _ _ => works = true
  | _ => False

/-- The basic information the last `SetRegulatoryConfig` that is accepted has set. -/
def lastSet (locationCap : RegulatoryLocationType) : List (Action Creds) → Option BasicInfoSettings
  | [] => none
  | a :: as => (lastSet locationCap as).or (a.sets locationCap)

/-- What such commands leave alone: everything but the networks in memory, the basic
information and the breadcrumb. -/
structure SameBut (s t : MatterState) : Prop where
  fabrics : t.device.fabrics = s.device.fabrics
  kv : t.device.kv = s.device.kv
  state : t.device.failsafe.state = s.device.failsafe.state

theorem SameBut.trans (h : s.SameBut s') (h' : s'.SameBut t) : s.SameBut t :=
  ⟨h'.fabrics.trans h.fabrics, h'.kv.trans h.kv, h'.state.trans h.state⟩

theorem sameBut_of_step (hstep : step cfg s a = some s') (ha : a.IsSettings) :
    s.SameBut s' ∧ s'.basicInfoSettings = (a.sets cfg.locationCap).getD s.basicInfoSettings ∧
      s'.kvBasicInfo = (a.sets cfg.locationCap).or s.kvBasicInfo := by
  have hnetworks : ∀ {id : BitVec 32}, s.SetsNetworks s' id → s.SameBut s' ∧
      s'.basicInfoSettings = s.basicInfoSettings ∧ s'.kvBasicInfo = s.kvBasicInfo := by
    rintro id ⟨hmem, hkv, sess, networks, -, hrun⟩
    refine ⟨?_, hmem, hkv⟩
    rcases Device.withArmedFailsafe_cases sess.mode
        (modify fun d : Device => { d with networks.networks := networks }) s.device with h | h
    · rw [Device.handleNetworks, h] at hrun
      exact ⟨by rw [hrun], by rw [hrun], by rw [hrun]⟩
    · rw [Device.handleNetworks, h] at hrun
      exact ⟨by rw [hrun]; rfl, by rw [hrun]; rfl, by rw [hrun]; rfl⟩
  cases a with
  | device a => exact ha.elim
  | addOrUpdateNetwork id creds => exact hnetworks (setsNetworks_of_onSession hstep)
  | removeNetwork id networkId => exact hnetworks (setsNetworks_of_onSession hstep)
  | reorderNetwork id index networkId => exact hnetworks (setsNetworks_of_onSession hstep)
  | setRegulatoryConfig id works countryCode new breadcrumb =>
    obtain ⟨sess, -, rfl⟩ := Option.map_eq_some_iff.mp hstep
    obtain rfl : works = true := ha
    rw [@run_setRegulatoryConfig Creds _ id]
    split
    · next hnone =>
      rw [hnone]
      exact ⟨⟨rfl, rfl, rfl⟩, rfl, rfl⟩
    · next info hsome =>
      rw [hsome]
      exact ⟨⟨rfl, rfl, rfl⟩, rfl, rfl⟩
  | setLocation id works location => exact ha.elim

/-- **A run of commands about settings.** -/
theorem sameBut_of_run (hrun : (machine cfg).run s as = some t) (has : ∀ a ∈ as, a.IsSettings) :
    s.SameBut t ∧ t.basicInfoSettings = (lastSet cfg.locationCap as).getD s.basicInfoSettings ∧
      t.kvBasicInfo = (lastSet cfg.locationCap as).or s.kvBasicInfo := by
  induction as generalizing s with
  | nil =>
    rw [Machine.run_nil, Option.some_inj] at hrun
    subst hrun
    exact ⟨⟨rfl, rfl, rfl⟩, rfl, rfl⟩
  | cons a as ih =>
    obtain ⟨u, hstep, hrun⟩ := Machine.run_cons_eq_some.mp hrun
    obtain ⟨hsame, hmem, hkv⟩ := sameBut_of_step hstep (has a List.mem_cons_self)
    obtain ⟨hsame', hmem', hkv'⟩ := ih hrun fun b hb => has b (List.mem_cons_of_mem _ hb)
    refine ⟨hsame.trans hsame', ?_, ?_⟩
    · rw [hmem', hmem, lastSet]
      cases lastSet cfg.locationCap as with
      | none => rfl
      | some info => rfl
    · rw [hkv', hkv, lastSet, Option.or_assoc]

/-! ## Taking back -/

/-- The settings are what they were on the node `s₀`, and the breadcrumb is gone. -/
structure Restored (s₀ s : MatterState) : Prop where
  /-- the networks and whether the node has been commissioned on them -/
  networks : s.device.networks = s₀.device.networks
  storedNetworks : s.device.kv.networks = s₀.device.kv.networks
  /-- the country code and the regulatory location -/
  basicInfo : s.basicInfoSettings = s₀.basicInfoSettings
  storedBasicInfo : s.storedBasicInfo = s₀.storedBasicInfo
  breadcrumb : s.device.failsafe.breadcrumb = 0

theorem context_of_isArmed {fs : FailSafe} (h : fs.isArmed = true) : ∃ f added, fs.context = some (f, added) := by
  rw [FailSafe.isArmed] at h
  rw [FailSafe.context]
  cases hst : fs.state with
  | idle => rw [hst] at h; cases h
  | armed ctx => exact ⟨_, _, rfl⟩

theorem context_of_not_isArmed {fs : FailSafe} (h : fs.isArmed = false) : fs.context = none := by
  rw [FailSafe.isArmed] at h
  rw [FailSafe.context]
  cases hst : fs.state with
  | idle => rfl
  | armed ctx => rw [hst] at h; cases h

theorem armed_of_step {a : Device.Action} {s₁ : MatterState} (hsaved : s₀.Saved)
    (hidle : s₀.device.failsafe.isArmed = false) (harm : step cfg s₀ (.device a) = some s₁)
    (harmed : s₁.device.failsafe.isArmed = true) :
    s₁.device.bothNetworks = s₀.device.bothNetworks ∧ s₁.basicInfoSettings = s₀.basicInfoSettings ∧
      s₁.kvBasicInfo = s₀.kvBasicInfo ∧ s₁.device.WellFormed := by
  have hre : a ≠ .restart := by
    rintro rfl
    obtain ⟨device, hdev, rfl⟩ := Option.map_eq_some_iff.mp harm
    rw [Device.restart] at hdev
    split at hdev
    · cases hdev
    · cases hdev
      cases harmed
  obtain ⟨device, hdev, rfl⟩ := step_device hre harm
  have hst := Device.state_idle_of_context (context_of_not_isArmed hidle)
  exact ⟨Device.networks_of_idle hst hdev hre, rfl, rfl, hsaved.wf.step (Device.step_effect hsaved.wf.room hdev)⟩

theorem not_restart_of_ends {e : Device.Action} {d : Device} {env : Env} {id : Option (BitVec 32)}
    (hends : e.Ends d env id) : e ≠ .restart := by
  rintro rfl
  cases hends

/-- **Taking back the settings.** The fail-safe is armed, commands about settings follow, and
the fail-safe ends: the settings are restored exactly if the last `SetRegulatoryConfig` has
set what there was, and if the fail-safe can end because its fabric is there (or there was
nothing to be restored). -/
theorem restored_iff {a e : Device.Action} {s₁ t' : MatterState} {env : Env} {id : Option (BitVec 32)}
    (hpre : (machine cfg).run factoryNew pre = some s₀) (hworks : ∀ b ∈ pre, b.Works)
    (hidle : s₀.device.failsafe.isArmed = false) (harm : step cfg s₀ (.device a) = some s₁)
    (harmed : s₁.device.failsafe.isArmed = true) (hrun : (machine cfg).run s₁ as = some t)
    (has : ∀ b ∈ as, b.IsSettings) (hends : e.Ends t.device env id) (henv : env.Works)
    (hend : step cfg t (.device e) = some t') :
    Restored s₀ t' ↔
      (∀ info ∈ lastSet cfg.locationCap as, info = s₀.basicInfoSettings) ∧
        (s₁.device.HasOwner ∨
          (t.device.networks = s₀.device.networks ∧ t.device.failsafe.breadcrumb = 0)) := by
  have hsaved := saved_of_run hpre hworks
  obtain ⟨hnets, hinfo, hkvinfo, hwf₁⟩ := armed_of_step hsaved hidle harm harmed
  obtain ⟨hsame, hmem, hkv⟩ := sameBut_of_run hrun has
  -- the end of the fail-safe does not look at the basic information
  obtain ⟨d', hdev, rfl⟩ := step_device (not_restart_of_ends hends) hend
  obtain ⟨commWindow, rfl⟩ := Device.step_of_ends hends hdev
  have hinfo' : (t.basicInfoSettings = s₀.basicInfoSettings ∧ t.storedBasicInfo = s₀.storedBasicInfo) ↔
      ∀ info ∈ lastSet cfg.locationCap as, info = s₀.basicInfoSettings := by
    rw [hmem, storedBasicInfo, hkv, hinfo, hkvinfo]
    cases lastSet cfg.locationCap as with
    | none => simp [storedBasicInfo]
    | some info => simp [hsaved.basicInfo]
  obtain ⟨f, added, hctx⟩ := context_of_isArmed harmed
  have hctx' : t.device.failsafe.context = some (f, added) := by
    rw [FailSafe.context, hsame.state]
    exact hctx
  have hlen : t.device.fabrics.length ≤ maxFabrics := by
    rw [hsame.fabrics]
    exact hwf₁.room
  have howner : t.device.HasOwner ↔ s₁.device.HasOwner := by
    rw [Device.HasOwner, Device.HasOwner, hctx', hctx, hsame.fabrics]
  obtain ⟨hnet₁, hkv₁⟩ := Prod.mk.inj hnets
  have hstored : s₀.device.networks = s₀.device.kv.networks.getD .reset :=
    hsaved.networks (context_of_not_isArmed hidle)
  rcases Device.settings_expire hlen hctx' henv id with ⟨hown, hnet, hkvnet, hbread⟩ | ⟨hnot, heq⟩
  · constructor
    · intro h
      exact ⟨hinfo'.mp ⟨h.basicInfo, h.storedBasicInfo⟩, .inl (howner.mp hown)⟩
    · rintro ⟨h, -⟩
      obtain ⟨h1, h2⟩ := hinfo'.mpr h
      refine ⟨?_, ?_, h1, h2, hbread⟩
      · rw [hstored, ← hkv₁, ← hsame.kv]
        exact hnet
      · rw [← hkv₁, ← hsame.kv]
        exact hkvnet
  · rw [heq]
    constructor
    · intro h
      exact ⟨hinfo'.mp ⟨h.basicInfo, h.storedBasicInfo⟩, .inr ⟨h.networks, h.breadcrumb⟩⟩
    · rintro ⟨h, hunchanged⟩
      obtain ⟨h1, h2⟩ := hinfo'.mpr h
      obtain ⟨hnet, hbread⟩ := hunchanged.resolve_left fun hown => hnot (howner.mpr hown)
      refine ⟨hnet, ?_, h1, h2, hbread⟩
      show t.device.kv.networks = _
      rw [hsame.kv, hkv₁]

namespace Sample

def wifiBytes (creds : List UInt8 × List UInt8) : Except ErrorCode (List UInt8) :=
  if creds.1.length ≤ 32 ∧ creds.2.length ≤ 64 then .ok (.ofNat creds.1.length :: creds.1 ++ creds.2)
  else .error .invalidData

/-- Wi-Fi networks: the credentials are an SSID, which is the id, and a password. -/
def wifi : WirelessNetwork (List UInt8 × List UInt8) where
  id network := (network.drop 1).take (network.headD 0).toNat
  credsId creds := .ok creds.1
  initFrom := wifiBytes
  update creds := do
    let network ← ofExcept (wifiBytes creds)
    modify fun _ => network

def config : Config (List UInt8 × List UInt8) := ⟨Device.Sample.crypto, wifi, 4, .indoorOutdoor⟩

def commissioned : List (Action (List UInt8 × List UInt8)) := Device.Sample.commissioned.map .device

def disarm : Device.Action := .invoke 1 (Device.Sample.envAt 0) (.armFailSafe 0 0)

theorem works_commissioned : ∀ b ∈ commissioned, b.Works := by
  intro b hb
  obtain ⟨a, ha, rfl⟩ := List.mem_map.mp hb
  simp only [Device.Sample.commissioned, Device.Sample.pase, Device.Sample.addFabric, Device.Sample.case,
    List.cons_append, List.nil_append, List.mem_cons, List.not_mem_nil, or_false] at ha
  rcases ha with rfl | rfl | rfl | rfl | rfl | rfl | rfl | rfl <;>
    first
      | trivial
      | exact Device.Sample.works 0

end Sample

/-- A network that is added under the fail-safe is taken back. -/
theorem restored_network : ∃ s₀ s₁ t t', (machine Sample.config).run factoryNew Sample.commissioned = some s₀ ∧
    step Sample.config s₀ (.device Device.Sample.arm) = some s₁ ∧
      (machine Sample.config).run s₁ [.addOrUpdateNetwork 1 ([65], [66])] = some t ∧
        t.device.networks ≠ s₀.device.networks ∧
        step Sample.config t (.device Sample.disarm) = some t' ∧ Restored s₀ t' := by
  have h : ((machine Sample.config).run factoryNew Sample.commissioned).bind (fun s₀ =>
      (step Sample.config s₀ (.device Device.Sample.arm)).bind fun s₁ =>
        ((machine Sample.config).run s₁ [.addOrUpdateNetwork 1 ([65], [66])]).bind fun t =>
          (step Sample.config t (.device Sample.disarm)).map fun t' =>
            ((s₀.device.failsafe.isArmed, s₁.device.failsafe.isArmed),
              (s₁.device.failsafe.context, (Fabrics.get s₁.device.fabrics 1).isSome),
              decide (t.device.networks = s₀.device.networks), (t.device.sessions.get 1).isSome)) =
        some ((false, true), (some (1, false), true), false, true) := by decide +kernel
  obtain ⟨s₀, hs₀, h⟩ := Option.bind_eq_some_iff.mp h
  obtain ⟨s₁, hs₁, h⟩ := Option.bind_eq_some_iff.mp h
  obtain ⟨t, ht, h⟩ := Option.bind_eq_some_iff.mp h
  obtain ⟨t', ht', h⟩ := Option.map_eq_some_iff.mp h
  simp only [Prod.mk.injEq, decide_eq_false_iff_not] at h
  obtain ⟨⟨hidle, harmed⟩, ⟨hctx, hthere⟩, hne, hsess⟩ := h
  obtain ⟨sess, hsess⟩ := Option.isSome_iff_exists.mp hsess
  refine ⟨s₀, s₁, t, t', hs₀, hs₁, ht, hne, ht', ?_⟩
  have has : ∀ b ∈ [Action.addOrUpdateNetwork 1 (([65], [66]) : List UInt8 × List UInt8)], b.IsSettings := by
    intro b hb
    obtain rfl := List.mem_singleton.mp hb
    trivial
  refine (restored_iff hs₀ Sample.works_commissioned hidle hs₁ harmed ht has (.armFailSafe 0 hsess)
    (Device.Sample.works 0) ht').mpr ⟨nofun, .inl fun f added hf => ?_⟩
  rw [hctx, Option.some_inj, Prod.mk.injEq] at hf
  obtain ⟨rfl, -⟩ := hf
  exact .inr (Option.isSome_iff_ne_none.mp hthere)

/-- A country code that is set under the fail-safe stays. -/
theorem not_restored_regulatoryConfig : ∃ s₀ s₁ t t' sess,
    (machine Sample.config).run factoryNew Sample.commissioned = some s₀ ∧ (∀ b ∈ Sample.commissioned, b.Works) ∧
      s₀.device.failsafe.isArmed = false ∧ step Sample.config s₀ (.device Device.Sample.arm) = some s₁ ∧
      s₁.device.failsafe.isArmed = true ∧
      (machine Sample.config).run s₁ [.setRegulatoryConfig 1 true "US" (some .indoor) 7] = some t ∧
      t.device.sessions.get 1 = some sess ∧
      Sample.disarm.Ends t.device (Device.Sample.envAt 0) (Device.paseSessId sess) ∧
      step Sample.config t (.device Sample.disarm) = some t' ∧ t'.device.failsafe.isArmed = false ∧
      s₀.basicInfoSettings = .new ∧ t'.basicInfoSettings = ⟨some "US", .indoor⟩ ∧
      t'.kvBasicInfo = some ⟨some "US", .indoor⟩ ∧ ¬ Restored s₀ t' := by
  have h : ((machine Sample.config).run factoryNew Sample.commissioned).bind (fun s₀ =>
      (step Sample.config s₀ (.device Device.Sample.arm)).bind fun s₁ =>
        ((machine Sample.config).run s₁ [.setRegulatoryConfig 1 true "US" (some .indoor) 7]).bind fun t =>
          (step Sample.config t (.device Sample.disarm)).map fun t' =>
            ((s₀.device.failsafe.isArmed, s₁.device.failsafe.isArmed, t'.device.failsafe.isArmed),
              (s₀.basicInfoSettings, t'.basicInfoSettings, t'.kvBasicInfo),
              (t.device.sessions.get 1).isSome)) =
        some ((false, true, false), (.new, ⟨some "US", .indoor⟩, some ⟨some "US", .indoor⟩), true) := by
    decide +kernel
  obtain ⟨s₀, hs₀, h⟩ := Option.bind_eq_some_iff.mp h
  obtain ⟨s₁, hs₁, h⟩ := Option.bind_eq_some_iff.mp h
  obtain ⟨t, ht, h⟩ := Option.bind_eq_some_iff.mp h
  obtain ⟨t', ht', h⟩ := Option.map_eq_some_iff.mp h
  simp only [Prod.mk.injEq] at h
  obtain ⟨⟨hidle, harmed, hended⟩, ⟨hinfo, hinfo', hkv⟩, hsess⟩ := h
  obtain ⟨sess, hsess⟩ := Option.isSome_iff_exists.mp hsess
  refine ⟨s₀, s₁, t, t', sess, hs₀, Sample.works_commissioned, hidle, hs₁, harmed, ht, hsess,
    .armFailSafe 0 hsess, ht', hended, hinfo, hinfo', hkv, fun hres => ?_⟩
  have hbasic := hres.basicInfo
  rw [hinfo, hinfo'] at hbasic
  cases hbasic

end MatterState

end RsMatter
