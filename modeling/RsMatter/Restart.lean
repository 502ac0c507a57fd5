import RsMatter.Persistence
import RsMatter.Rollback

/-!
# Starting again

Every command keeps the fabrics stored, but the one of the fail-safe, and the end of the fail-safe
stores that one too or takes it back to what is stored. So a node that starts again while its
fail-safe is not armed starts with the fabrics it had (`Device.loaded_of_run`), unless one of the
changes that `Persists` excludes has been made.
-/

namespace RsMatter

namespace Device

open Prog

variable {crypto : Crypto} {d d' : Device} {env : Env} {sess : StampedSession} {fabIdx : ℕ}

/-! ## What every fabric has -/

/-- A fabric that can be loaded again, and whose groups are in use. -/
structure Loadable (f : Fabric) : Prop where
  /-- its index is one of those that are loaded -/
  index : f.fabIdx ≤ 254
  populated : Populated f.groups

theorem maintains_loadable {α : Type} {m : Prog ErrorCode Fabric α}
    (h : Keeps (fun f : Fabric => (f.fabIdx, f.groups.endpointMapping)) m) : Maintains Loadable m := by
  refine maintains_of_keeps h fun f f' heq hf => ?_
  obtain ⟨hidx, hgroups⟩ := Prod.mk.inj heq
  exact ⟨hidx ▸ hf.index, fun group hgroup => hf.populated group (hgroups ▸ hgroup)⟩

theorem loadable_of_groups {α : Type} {m : Prog ErrorCode Fabric α}
    (h : Keeps (fun f : Fabric => (f.fabIdx, f.groups)) m) : Maintains Loadable m := by
  refine maintains_loadable fun f => ?_
  obtain ⟨hidx, hgroups⟩ := Prod.mk.inj (h f)
  dsimp only
  rw [hidx, hgroups]

theorem loadable_groupsMut {α : Type} {m : Prog ErrorCode Groups α}
    (h : Keeps Groups.endpointMapping m) : Maintains Loadable (Fabric.groupsMut m) :=
  maintains_loadable fun f => congrArg (Prod.mk f.fabIdx) (h f.groups)

theorem keeps_keySetAdd (entry : GroupKeySet) : Keeps Groups.endpointMapping (Groups.keySetAdd entry) := by
  refine keeps_bind keeps_get fun gs => ?_
  split
  · exact keeps_modify fun _ => rfl
  · exact keeps_bind (keeps_ensure _ _) fun _ => keeps_modify fun _ => rfl

theorem editsKeep_loadable : EditsKeep Loadable where
  setAcl value := loadable_of_groups (keeps_setAcl (fun _ _ => rfl) value)
  addGroup endpointId groupId groupName := by
    refine maintains_get_bind fun f _ => ?_
    split_ifs
    · refine maintains_catching (maintains_bind ?_ fun _ => maintains_pure _) fun e => ?_
      · exact fun f hf => ⟨hf.index, populated_add hf.populated endpointId groupId groupName⟩
      · split
        · exact maintains_pure _
        · exact maintains_throw _
    · exact maintains_pure _
  removeGroup endpointId groupId :=
    fun f hf => ⟨hf.index, populated_remove f.groups endpointId groupId⟩
  setGroupKeyMap value := by
    cases value with
    | replace list =>
      refine maintains_bind (maintains_ofExcept _) fun _ => loadable_groupsMut ?_
      exact keeps_bind (keeps_modify fun _ => rfl) fun _ => keeps_ensure _ _
    | add entry =>
      refine maintains_bind (maintains_ensure _ _) fun _ => loadable_groupsMut ?_
      exact keeps_bind keeps_get fun _ => keeps_bind (keeps_ensure _ _) fun _ => keeps_modify fun _ => rfl
    | other => exact maintains_throw _
  keySetAdd entry := loadable_groupsMut (keeps_keySetAdd entry)
  keySetRemove id := by
    refine loadable_groupsMut (keeps_bind keeps_get fun _ => ?_)
    exact keeps_bind (keeps_modify fun _ => rfl) fun _ => keeps_ensure _ _
  setVid vendorId statement vvsc := by
    refine loadable_of_groups (keeps_bind keeps_get fun _ => keeps_bind (keeps_ensure _ _) fun _ => ?_)
    exact Fabric.keeps_setVidVerification (fun _ _ _ _ _ => rfl) _ _ _

theorem loadable_addNoc {mode : SessionMode} {req : FailSafe.NocRequest} {s s' : FailSafeFabrics}
    {fabric : Fabric} (h : (FailSafe.addNoc crypto mode req).run s = (s', .ok fabric)) :
    Loadable fabric := by
  obtain ⟨-, _, ⟨⟩⟩ | ⟨_, hok, -, -, -, -, -, hhi, -⟩ := FailSafe.addNoc_cases h
  cases hok
  obtain ⟨-, -, -, -, -, -, -, -, fabIdx, hupdate⟩ := FailSafe.addNoc_ok h
  have hgroups := kept_of_run hupdate (Fabric.keeps_update_groups _ _ _ _ _ _ _ _)
  refine ⟨hhi, fun group hgroup => ?_⟩
  rw [(Prod.mk.inj hgroups).2] at hgroup
  cases hgroup

theorem loadable_updateNoc (icac : Option (List UInt8)) (noc : List UInt8) (hd : d.AllFabrics Loadable) :
    ((handleUpdateNoc crypto sess icac noc).run d).1.AllFabrics Loadable := by
  have h : Maintains (AllFabrics Loadable) (handleUpdateNoc crypto sess icac noc) := by
    refine allFabrics_withArmedFailsafe _ fun d hd => ⟨?_, hd.stored⟩
    have hmaintains : Maintains (fun s : FailSafeFabrics => ∀ f ∈ s.fabrics, Loadable f)
        (FailSafe.updateNoc crypto sess.mode (icac.filter (!·.isEmpty)) noc) := by
      refine maintains_get_bind fun s _ => maintains_bind (maintains_ofExcept _) fun fabIdx => ?_
      have hupdate := allFabrics_fabricMut fabIdx (loadable_of_groups (Fabric.keeps_update_groups crypto none
        noc ((icac.filter (!·.isEmpty)).getD []) s.failsafe.secretKey none none none))
      exact maintains_bind (fun t ht => hupdate t.fabrics ht) fun _ => maintains_modify fun _ ht => ht
    exact hmaintains ⟨d.failsafe, d.fabrics⟩ hd.fabrics
  exact h d hd

/-! ## Commands -/

theorem AllSaved.of_context (h : d.AllSaved) (hfab : d'.fabrics = d.fabrics)
    (hkv : d'.kv.fabrics = d.kv.fabrics) (hctx : d'.failsafe.context = d.failsafe.context) :
    d'.AllSaved := by
  refine h.congr hfab hkv fun i hi => ?_
  rwa [← isArmedFor_congr hctx]

theorem saved_of_keeps {α : Type} {m : Prog ErrorCode Device α} (h : Keeps view m) :
    Maintains AllSaved m := by
  refine maintains_of_keeps h fun s t hview hs => ?_
  simp only [view, Prod.mk.injEq] at hview
  exact hs.of_context hview.1 hview.2.1 hview.2.2.1

theorem isArmedFor_of_ne {fs : FailSafe} {added : Bool} (h : fs.context = some (fabIdx, added)) {i : ℕ}
    (hi : i ≠ fabIdx) : fs.isArmedFor i = false := by
  rw [Bool.eq_false_iff]
  intro harmed
  obtain ⟨added', hctx⟩ := FailSafe.context_of_isArmedFor harmed
  rw [h, Option.some_inj] at hctx
  exact hi (Prod.mk.inj hctx).1.symm

theorem isArmedFor_of_idle {fs : FailSafe} (h : fs.state = .idle) (i : ℕ) : fs.isArmedFor i = false := by
  rw [FailSafe.isArmedFor, h]

theorem WellFormed.saved_zero (h : d.WellFormed) : d.Saved 0 := by
  have hget : Fabrics.get d.fabrics 0 = none := lookup_eq_none.mpr h.pos
  have hkv : d.kv.fabrics 0 = none := by
    cases hkv : d.kv.fabrics 0 with
    | none => rfl
    | some fabric => exact absurd rfl (h.stored 0 fabric hkv).2
  rw [Saved, hget, hkv]

theorem keeps_expire (env : Env) (id : Option (BitVec 32)) :
    Keeps (fun d : Device => (d.kv.fabrics, d.commWindow)) (expire env id) := by
  refine keeps_bind keeps_get fun d => ?_
  split
  · exact keeps_pure _
  · refine keeps_bind (keeps_onlyIf _ ?_) fun _ => ?_
    · refine keeps_bind (fun _ => rfl) fun _ => keeps_bind (keeps_modify fun _ => rfl) fun _ => ?_
      refine keeps_bind ?_ fun _ _ => rfl
      exact keeps_bind (keeps_ensure _ _) fun _ => keeps_bind keeps_get fun _ => keeps_pure _
    · refine keeps_bind (keeps_bind (keeps_ensure _ _) fun _ => keeps_modify fun _ => rfl) fun _ => ?_
      refine keeps_bind (keeps_modify fun _ => rfl) fun _ => ?_
      exact keeps_bind (keeps_modify fun _ => rfl) fun _ => keeps_pure _

/-- **The end of the fail-safe.** Its fabric is what is stored, or it does not end. -/
theorem saved_expire (hwf : d.WellFormed) (hd : d.AllSaved) (hworks : env.Works)
    (id : Option (BitVec 32)) : ((expire env id).run d).1.AllSaved := by
  cases hst : d.failsafe.state with
  | idle =>
    rw [run_expire_of_idle hst]
    exact hd
  | armed ctx =>
    have hctx := FailSafe.context_of_armed hst
    have hkv : ((expire env id).run d).1.kv.fabrics = d.kv.fabrics :=
      congrArg Prod.fst (keeps_expire env id d)
    intro i hi
    rw [Saved, hkv, get_expire hwf hctx hworks]
    split_ifs with h
    · rw [h.1]
    · by_cases hif : i = ctx.fabIdx
      · subst hif
        have hnone : Fabrics.get d.fabrics ctx.fabIdx = none := by
          by_contra hne
          exact h ⟨rfl, hne⟩
        by_cases h0 : ctx.fabIdx = 0
        · rw [h0]
          exact hwf.saved_zero
        · -- the fail-safe stays armed for a fabric that is gone
          rw [run_expire_of_none hst h0 hnone, FailSafe.isArmedFor_of_context hctx] at hi
          cases hi
      · exact hd i (isArmedFor_of_ne hctx hif)

theorem saved_arm (hd : d.AllSaved) {nowMs timeoutSecs : ℕ} (htimeout : 0 < timeoutSecs)
    {breadcrumb : BitVec 64} {mode : SessionMode} {commWindow : Bool} :
    ((onFailSafe (FailSafe.arm nowMs timeoutSecs breadcrumb mode commWindow)).run d).1.AllSaved := by
  rcases hrun : (FailSafe.arm nowMs timeoutSecs breadcrumb mode commWindow).run d.failsafe with ⟨fs, r⟩
  rw [run_onFailSafe hrun]
  rcases FailSafe.arm_cases hrun with ⟨rfl, -⟩ | ⟨hidle, -, -⟩ | ⟨added, -, -, hctx⟩
  · exact hd
  · exact hd.congr rfl rfl fun i _ => isArmedFor_of_idle hidle i
  · exact hd.of_context rfl rfl (hctx htimeout)

/-- **Commissioning completes.** The fabric of the fail-safe is stored. -/
theorem saved_commissioningComplete (hd : d.AllSaved) (hworks : env.Works) :
    ((handleCommissioningComplete env sess).run d).1.AllSaved := by
  rw [handleCommissioningComplete]
  rcases withArmedFailsafe_cases sess.mode _ d with h | h
  · rwa [h]
  rw [h]
  rcases hrun : (FailSafe.disarm sess.mode).run ⟨d.failsafe, d.fabrics⟩ with ⟨s, r⟩
  have hzoom : (onFailSafeFabrics (FailSafe.disarm sess.mode)).run d =
      ({ d with failsafe := s.failsafe, fabrics := s.fabrics }, r) := run_zoom _ d hrun
  rcases FailSafe.disarm_cases hrun with ⟨rfl, e, rfl⟩ | ⟨fabric, rfl, harmed, -, hget, hidle, -, hfab⟩
  · rw [run_bind_of_error hzoom]
    exact hd
  rw [run_bind_of_ok hzoom, run_bind_of_ok (run_modify _ _), run_bind_of_ok (run_modify _ _), storeFabric,
    run_bind_of_ok (by rw [run_bind_of_ok (run_ensure_of_pos (hworks _) _ _), run_modify])]
  obtain ⟨added, hctx⟩ := FailSafe.context_of_isArmedFor harmed
  have hrest : Maintains AllSaved (do
      modify fun d => { d with networks.commissioned := true }
      storeNetworks env : Prog ErrorCode Device Unit) := by
    refine maintains_bind (maintains_modify fun s hs => hs.congr rfl rfl fun _ hi => hi) fun _ => ?_
    refine maintains_bind (maintains_ensure _ _) fun _ => ?_
    exact maintains_modify fun s hs => hs.congr rfl rfl fun _ hi => hi
  refine hrest _ fun i _ => ?_
  rw [Saved]
  dsimp only
  rw [hfab]
  by_cases hi : i = fabric.fabIdx
  · rw [hi, Function.update_self, hget]
  · rw [Function.update_of_ne hi]
    exact hd i (isArmedFor_of_ne hctx hi)

theorem saved_ensure {α : Type} {c : Prop} [Decidable c] {e : ErrorCode}
    {k : Unit → Prog ErrorCode Device α} (hd : d.AllSaved) (h : c → ((k ()).run d).1.AllSaved) :
    ((ensure c e >>= k).run d).1.AllSaved := by
  by_cases hc : c
  · rw [run_bind_of_ok (run_ensure_of_pos hc _ _)]
    exact h hc
  · rwa [run_bind_of_error (run_ensure_of_neg hc _ _)]

/-- The label is as it was, or the fail-safe is armed for the fabric. -/
theorem saved_updateFabricLabel (hd : d.AllSaved) {label : List UInt8}
    (h : d.failsafe.isArmedFor sess.getLocalFabricIdx = false → ∀ fabric,
      Fabrics.get d.fabrics sess.getLocalFabricIdx = some fabric →
      ¬ Forgets d env fabric (.updateFabricLabel label)) :
    ((handleUpdateFabricLabel sess label).run d).1.AllSaved := by
  rw [handleUpdateFabricLabel]
  refine saved_ensure hd fun _ => ?_
  rw [fst_run_mapError, Fabrics.updateLabel]
  by_cases hfree : ¬ d.fabrics.any fun fabric =>
      fabric.fabIdx != sess.getLocalFabricIdx && !fabric.label.isEmpty && fabric.label == label
  swap
  · rwa [run_onFabrics (by
      rw [run_bind_of_ok (run_get _), run_bind_of_error (run_ensure_of_neg hfree _ _)])]
  rcases hrun : (Fabrics.fabricMut sess.getLocalFabricIdx
      (Fabric.load (fun f b => { f with label := b }) maxLabelLen label .constraintError)).run d.fabrics with
    ⟨fabrics, r⟩
  rw [run_onFabrics (by
    rw [run_bind_of_ok (run_get _), run_bind_of_ok (run_ensure_of_pos hfree _ _), hrun])]
  rcases Fabrics.fabricMut_cases (Fabric.keeps_load (by intros; rfl) _ _ _) hrun with
    ⟨-, rfl, rfl⟩ | ⟨fabric, fabric', hget, hedit, hidx, rfl⟩
  · exact hd
  refine hd.edit hget hidx rfl rfl rfl fun harmed => ?_
  have hnot := h harmed fabric hget
  rw [Forgets, not_and_or, not_not] at hnot
  have hlabel : (if label.length ≤ maxLabelLen then label else []) = fabric.label := by
    refine hnot.resolve_right (not_not_intro fun other hother hne heq => ?_)
    by_contra hlabel
    refine hfree (List.any_eq_true.mpr ⟨other, hother, ?_⟩)
    rw [Fabrics.fabIdx_of_get hget] at hne
    simp [hne, heq, hlabel]
  split_ifs at hlabel with hlen
  · rw [(Fabric.load_ok (u := ())).mpr ⟨hlen, rfl⟩] at hedit
    rw [← (Prod.mk.inj hedit).1, hlabel]
  · rw [Fabric.load_error hlen] at hedit
    rw [← (Prod.mk.inj hedit).1, hlabel]

/-- A fabric that has been added or updated is that of the fail-safe. -/
theorem isArmedFor_of_hasPendingNocFor {fs : FailSafe} (h : fs.hasPendingNocFor fabIdx = true) :
    fs.isArmedFor fabIdx = true := by
  rw [FailSafe.hasPendingNocFor] at h
  rw [FailSafe.isArmedFor]
  split at h
  · cases h
  · exact (Bool.and_eq_true_iff.mp h).1

theorem saved_setVid (hd : d.AllSaved) (hworks : env.Works) (vendorId : Option (BitVec 16))
    (statement vvsc : Option (List UInt8)) :
    ((handleSetVidVerificationStatement env sess vendorId statement vvsc).run d).1.AllSaved := by
  rw [handleSetVidVerificationStatement]
  refine saved_ensure hd fun _ => saved_ensure hd fun _ => saved_ensure hd fun hstatement => ?_
  refine saved_ensure hd fun hvvsc => saved_ensure hd fun _ => ?_
  rcases hrun : (Fabrics.fabricMut sess.getLocalFabricIdx (do
      let fabric ← get
      ensure (∀ v ∈ vvsc, v = [] ∨ fabric.icac = []) .invalidCommand
      Fabric.setVidVerification vendorId statement vvsc)).run d.fabrics with ⟨fabrics, r⟩
  have hkeep : Keeps Fabric.fabIdx (do
      let fabric ← get
      ensure (∀ v ∈ vvsc, v = [] ∨ fabric.icac = []) .invalidCommand
      Fabric.setVidVerification vendorId statement vvsc) :=
    keeps_bind keeps_get fun _ => keeps_bind (keeps_ensure _ _) fun _ =>
      Fabric.keeps_setVidVerification (fun _ _ _ _ _ => rfl) _ _ _
  rcases Fabrics.fabricMut_cases hkeep hrun with
    ⟨-, rfl, rfl⟩ | ⟨fabric, fabric', hget, hedit, hidx, rfl⟩
  · rw [run_bind_of_error (run_onFabrics hrun)]
    exact hd
  have hne : Fabrics.get d.fabrics sess.getLocalFabricIdx ≠ none := by
    rw [hget]
    exact Option.some_ne_none _
  cases r with
  | error e =>
    -- everything that is set has passed a check
    rw [run_bind_of_error (run_onFabrics hrun)]
    refine hd.edit hget hidx rfl rfl rfl fun _ => ?_
    rw [run_bind_of_ok (run_get fabric)] at hedit
    by_cases hicac : ∀ v ∈ vvsc, v = [] ∨ fabric.icac = []
    · rw [run_bind_of_ok (run_ensure_of_pos hicac _ _)] at hedit
      have hlen : ∀ s ∈ statement, s.length ≤ vidVerificationStatementLen := by
        intro s hs
        rcases hstatement s hs with rfl | hlen
        · exact Nat.zero_le _
        · exact hlen.le
      have hok := Fabric.run_setVidVerification vendorId hlen hvvsc fabric
      rw [hedit] at hok
      cases hok
    · rw [run_bind_of_error (run_ensure_of_neg hicac _ _)] at hedit
      exact (Prod.mk.inj hedit).1.symm
  | ok _ =>
    rw [run_bind_of_ok (run_onFabrics hrun), run_bind_of_ok (run_get _)]
    by_cases hpending : d.failsafe.hasPendingNocFor sess.getLocalFabricIdx = false
    · have hget' : Fabrics.get (replaceKey Fabric.fabIdx d.fabrics sess.getLocalFabricIdx fabric')
          sess.getLocalFabricIdx = some fabric' := lookup_replaceKey_self hidx hne
      rw [run_storeGet hworks hpending hget']
      exact hd.store hne hidx rfl rfl rfl
    · rw [onlyIf, if_neg hpending, run_pure]
      refine hd.edit hget hidx rfl rfl rfl fun harmed => ?_
      rw [isArmedFor_of_hasPendingNocFor (Bool.eq_true_of_not_eq_false hpending)] at harmed
      cases harmed

theorem saved_updateNoc (hd : d.AllSaved) (icac : Option (List UInt8)) (noc : List UInt8) :
    ((handleUpdateNoc crypto sess icac noc).run d).1.AllSaved := by
  rw [handleUpdateNoc]
  rcases withArmedFailsafe_cases sess.mode (onFailSafeFabrics
      (FailSafe.updateNoc crypto sess.mode (icac.filter (!·.isEmpty)) noc)) d with h | h
  · rwa [h]
  rw [h]
  rcases hrun : (FailSafe.updateNoc crypto sess.mode (icac.filter (!·.isEmpty)) noc).run
    ⟨d.failsafe, d.fabrics⟩ with ⟨s, r⟩
  rw [onFailSafeFabrics, run_zoom _ d hrun]
  rcases FailSafe.updateNoc_cases hrun with rfl | ⟨fabric, harmed, -, hget, hctx, hfab⟩
  · exact hd
  · obtain ⟨old, hold⟩ := Option.ne_none_iff_exists'.mp hget
    refine hd.edit hold rfl hfab rfl hctx fun hnot => ?_
    rw [harmed] at hnot
    cases hnot

theorem saved_removeFabric (hd : d.AllSaved) (hworks : env.Works) :
    ((handleRemoveFabric env sess fabIdx).run d).1.AllSaved := by
  rw [handleRemoveFabric]
  refine saved_ensure hd fun _ => ?_
  rw [run_bind_of_ok (run_get d)]
  by_cases hget : (Fabrics.get d.fabrics fabIdx).isSome = true
  swap
  · rwa [if_neg hget]
  have hrem : (Fabrics.remove fabIdx).run d.fabrics = (removeKey Fabric.fabIdx d.fabrics fabIdx, .ok ()) := by
    rw [Fabrics.run_remove, if_pos hget]
  rw [if_pos hget, run_bind_of_ok (run_onFabrics hrem), run_bind_of_ok (run_modify _ _),
    run_bind_of_ok (run_modify _ _), fst_run_bind fun _ _ => rfl, removeStored,
    run_bind_of_ok (run_ensure_of_pos (hworks _) _ _), run_modify]
  intro i hi
  show Fabrics.get (removeKey Fabric.fabIdx d.fabrics fabIdx) i = Function.update d.kv.fabrics fabIdx none i
  by_cases hif : i = fabIdx
  · rw [hif, Function.update_self]
    exact lookup_removeKey_self
  · rw [Function.update_of_ne hif, ← hd i hi]
    exact lookup_removeKey_ne hif

/-- What the fabric of the fail-safe has to be stored for: from now on it is another one. -/
theorem saved_addNoc (hd : d.AllSaved) {req : FailSafe.NocRequest}
    (h : ∀ i, d.failsafe.isArmedFor i = true → d.Saved i) :
    ((handleAddNoc crypto sess req).run d).1.AllSaved := by
  have hsaved : ∀ i, d.Saved i := by
    intro i
    cases harmed : d.failsafe.isArmedFor i with
    | true => exact h i harmed
    | false => exact hd i harmed
  rw [handleAddNoc]
  rcases withArmedFailsafe_cases sess.mode _ d with hchk | hchk
  · rwa [hchk]
  rw [hchk]
  dsimp only
  rcases hrun : (FailSafe.addNoc crypto sess.mode { req with icac := req.icac.filter (!·.isEmpty) }).run
      ⟨d.failsafe, d.fabrics⟩ with ⟨s, r⟩
  have hzoom : (onFailSafeFabrics
      (FailSafe.addNoc crypto sess.mode { req with icac := req.icac.filter (!·.isEmpty) })).run d =
      ({ d with failsafe := s.failsafe, fabrics := s.fabrics }, r) := run_zoom _ d hrun
  rcases FailSafe.addNoc_cases hrun with
    ⟨rfl, e, rfl⟩ | ⟨fabric, rfl, -, hctx, hfab, hfree, -, -, -⟩
  · rwa [run_bind_of_error hzoom]
  rw [run_bind_of_ok hzoom, run_bind_of_ok (run_modify _ _)]
  have hget : Fabrics.get s.fabrics fabric.fabIdx = some fabric := by
    rw [hfab]
    exact lookup_append_self hfree
  -- the new fabric is the one of the fail-safe, the others are as they were
  have hothers : ∀ i, i ≠ fabric.fabIdx → Fabrics.get s.fabrics i = d.kv.fabrics i := by
    intro i hi
    rw [← hsaved i, hfab]
    exact lookup_append_ne hi.symm
  have hne : ∀ i, s.failsafe.isArmedFor i = false → i ≠ fabric.fabIdx := by
    rintro _ hi rfl
    rw [FailSafe.isArmedFor_of_context hctx] at hi
    cases hi
  by_cases hpase : sess.mode.isPase = true
  swap
  · rw [onlyIf, if_neg hpase, run_pure]
    exact fun i hi => hothers i (hne i hi)
  rw [onlyIf, if_pos hpase]
  rcases run_upgrade (restamp fabric.fabIdx { d with failsafe := s.failsafe, fabrics := s.fabrics }) sess
      fabric.fabIdx (hget ▸ rfl) with ⟨sess', -, hst⟩ | ⟨e, hst⟩
  · rw [hst]
    exact fun i hi => hothers i (hne i hi)
  · rw [hst]
    intro i hi
    have hrem : Fabrics.get (removeKey Fabric.fabIdx s.fabrics fabric.fabIdx) i = Fabrics.get s.fabrics i :=
      lookup_removeKey_ne (hne i hi)
    exact hrem.trans (hothers i (hne i hi))

/-- **Commands.** -/
theorem saved_invoke {id : BitVec 32} {cmd : Command} (hok : Persists d (.invoke id env cmd))
    (hsess : d.sessions.get id = some sess) (hwf : d.WellFormed) (horder : d.AllFabrics Loadable)
    (hd : d.AllSaved) : ((invoke crypto env sess cmd).run d).1.AllSaved := by
  have hworks := hok.invoke id env cmd rfl
  have hedits := fun fabric hget harmed => hok.edits id env cmd sess fabric rfl hsess hget harmed
  -- a command that edits the fabric of its session
  have hedit : ∀ {edit : Prog ErrorCode Fabric (Bool × Reply)}, Keeps Fabric.fabIdx edit →
      (∀ fabric ∈ d.fabrics, ¬ Forgets d env fabric cmd → StoresOrKeeps edit fabric) →
      ((editFabric env sess.getLocalFabricIdx edit).run d).1.AllSaved := by
    intro edit hkeep h
    refine saved_editFabric hd hworks hkeep fun harmed fabric hget => ?_
    exact h fabric (mem_of_lookup hget) (hedits fabric hget harmed)
  cases cmd with
  | armFailSafe expiry breadcrumb =>
    show ((handleArmFailSafe env sess expiry breadcrumb).run d).1.AllSaved
    rw [handleArmFailSafe]
    split_ifs with h0
    · rw [fst_run_bind fun _ _ => rfl]
      exact saved_expire hwf hd hworks _
    · rw [run_bind_of_ok (run_get d)]
      exact saved_arm hd (Nat.pos_of_ne_zero h0)
  | setBreadcrumb value => exact hd.of_context rfl rfl rfl
  | commissioningComplete => exact saved_commissioningComplete hd hworks
  | setNetworks networks =>
    have h : Maintains AllSaved (handleNetworks sess networks) :=
      saved_of_keeps (keeps_withArmedFailsafe sess.mode (keeps_modify fun _ => rfl))
    exact h d hd
  | openCommissioningWindow => exact saved_of_keeps keeps_openCommissioningWindow d hd
  | revokeCommissioning =>
    show ((handleRevokeCommissioning env sess).run d).1.AllSaved
    have hexp := saved_expire hwf hd hworks (paseSessId sess)
    rw [handleRevokeCommissioning]
    rcases hrun : (expire env (paseSessId sess)).run d with ⟨t, _ | b⟩
    · rw [hrun] at hexp
      rwa [run_bind_of_error hrun]
    · rw [hrun] at hexp
      rw [run_bind_of_ok hrun, run_modify]
      exact hexp.of_context rfl rfl rfl
  | csrRequest csrNonce isForUpdateNoc =>
    exact saved_of_keeps (keeps_csrRequest env sess csrNonce isForUpdateNoc) d hd
  | addTrustedRootCertificate rootCa =>
    exact saved_of_keeps
      (keeps_withArmedFailsafe sess.mode (keeps_onFailSafe (FailSafe.keeps_addTrustedRootCert crypto _ _))) d hd
  | addNoc req =>
    have hrest : ((invoke crypto env sess (.addNoc req)).run d).1 =
        ((nocReply (handleAddNoc crypto sess req)).run d).1 := by
      refine keeps_rest (f := fun d : Device => d) (fun reply => ?_) d
      exact keeps_bind (keeps_onlyIf _ (keeps_ofExcept _)) fun _ => keeps_pure _
    rw [hrest]
    exact saved_addNoc hd (hok.adds id env req · rfl)
  | updateNoc icac noc => exact saved_updateNoc hd icac noc
  | updateFabricLabel label => exact saved_updateFabricLabel hd fun harmed fabric hget => hedits fabric hget harmed
  | removeFabric fabIdx =>
    show ((handleRemoveFabric env sess fabIdx >>= fun status => pure (Reply.noc status)).run d).1.AllSaved
    rw [fst_run_bind fun _ _ => rfl]
    exact saved_removeFabric hd hworks
  | setVidVerificationStatement vendorId statement vvsc =>
    exact saved_setVid hd hworks vendorId statement vvsc
  | setAcl value =>
    refine saved_fabricScoped hd (hedit ?_ fun fabric _ h => storesOrKeeps_setAcl h)
    exact keeps_bind (keeps_setAcl (fun _ _ => rfl) value) fun _ => keeps_bind (keeps_ofExcept _) fun _ => keeps_pure _
  | addGroup endpointId groupId groupName =>
    refine saved_fabricScoped hd ?_
    split_ifs
    · exact hd
    · exact hedit (keeps_addGroup (fun _ _ => rfl) _ _ _) fun fabric _ h => storesOrKeeps_addGroup h
  | removeGroup endpointId groupId =>
    refine saved_fabricScoped hd ?_
    split_ifs
    · exact hd
    · refine hedit (keeps_bind (Fabric.keeps_groupsMut (fun _ _ => rfl) _) fun _ => keeps_pure _) fun fabric hmem _ => ?_
      exact storesOrKeeps_removeGroup (horder.fabrics fabric hmem).populated endpointId groupId
  | removeAllGroups endpointId =>
    refine saved_fabricScoped hd (hedit ?_ fun fabric _ _ => storesOrKeeps_removeAllGroups fabric endpointId)
    exact keeps_bind (Fabric.keeps_groupsMut (fun _ _ => rfl) _) fun _ => keeps_pure _
  | setGroupKeyMap value =>
    refine saved_fabricScoped hd (hedit ?_ fun fabric _ _ => ?_)
    · exact keeps_bind (keeps_setGroupKeyMap (fun _ _ => rfl) value) fun _ => keeps_pure _
    · exact storesOrKeeps_of_atomic (atomic_setGroupKeyMap value) .done fabric
  | keySetWrite id policy k0 k1 k2 =>
    refine saved_fabricScoped hd ?_
    cases hset : groupKeySet id policy k0 k1 k2 with
    | error e => exact hd
    | ok entry =>
      rw [run_bind_of_ok (run_ofExcept _ _)]
      refine hedit (keeps_bind (Fabric.keeps_groupsMut (fun _ _ => rfl) _) fun _ => keeps_pure _) fun fabric _ _ => ?_
      exact storesOrKeeps_of_atomic (atomic_groupsMut (atomic_keySetAdd entry)) .done fabric
  | keySetRemove id =>
    refine saved_fabricScoped hd (saved_ensure hd fun _ => hedit ?_ fun fabric _ h => ?_)
    · exact keeps_bind (Fabric.keeps_groupsMut (fun _ _ => rfl) _) fun _ => keeps_pure _
    · exact storesOrKeeps_keySetRemove h

/-! ## Starting again -/

/-- Loading takes over all that is stored, if there is room for it. -/
theorem run_loadAll_of_length {kv : KvBlobStore} {l : List ℕ} {fs : Fabrics}
    (h : fs.length + (l.filterMap kv.fabrics).length ≤ maxFabrics) :
    (loadAll kv l).run fs = (fs ++ l.filterMap kv.fabrics, .ok ()) := by
  induction l generalizing fs with
  | nil => rw [loadAll, List.filterMap_nil, List.append_nil, run_pure]
  | cons i l ih =>
    rw [loadAll]
    cases hi : kv.fabrics i with
    | none =>
      have hload : (Fabrics.addLoad (none : Option Fabric)).run fs = (fs, .ok ()) := rfl
      rw [List.filterMap_cons_none hi] at h
      rw [List.filterMap_cons_none hi, run_bind_of_ok hload, ih h]
    | some fabric =>
      rw [List.filterMap_cons_some hi, List.length_cons] at h
      have hload : (Fabrics.addLoad (some fabric)).run fs = (fs ++ [fabric], .ok ()) :=
        Fabrics.run_addLoad (some fabric) (by omega)
      rw [List.filterMap_cons_some hi, run_bind_of_ok hload, ih, List.append_assoc, List.singleton_append]
      rw [List.length_append, List.length_singleton]
      omega

theorem mem_loaded (hwf : d.WellFormed) (horder : d.AllFabrics Loadable) {f : Fabric} :
    f ∈ (List.range' 1 255).filterMap d.kv.fabrics ↔ d.kv.fabrics f.fabIdx = some f := by
  rw [List.mem_filterMap]
  constructor
  · rintro ⟨i, -, hi⟩
    rwa [(hwf.stored i f hi).1]
  · intro h
    refine ⟨f.fabIdx, List.mem_range'_1.mpr ?_, h⟩
    have hpos := (hwf.stored _ f h).2
    have hle := (horder.stored _ f h).index
    omega

theorem nodup_loaded (hwf : d.WellFormed) :
    (((List.range' 1 255).filterMap d.kv.fabrics).map Fabric.fabIdx).Nodup :=
  (List.nodup_range' 1).sublist (wellFormed_of_stored hwf.stored _).1

theorem get_loaded (hwf : d.WellFormed) (horder : d.AllFabrics Loadable) (i : ℕ) :
    Fabrics.get ((List.range' 1 255).filterMap d.kv.fabrics) i = d.kv.fabrics i := by
  cases hget : Fabrics.get ((List.range' 1 255).filterMap d.kv.fabrics) i with
  | some f =>
    obtain rfl := Fabrics.fabIdx_of_get hget
    exact ((mem_loaded hwf horder).mp (mem_of_lookup hget)).symm
  | none =>
    cases hkv : d.kv.fabrics i with
    | none => rfl
    | some f =>
      obtain ⟨rfl, -⟩ := hwf.stored i f hkv
      have hmem := (mem_loaded hwf horder).mpr hkv
      rw [Fabrics.get, lookup_of_mem (nodup_loaded hwf) hmem] at hget
      cases hget

/-- **Every step.** -/
theorem saved_step {a : Action} (hok : Persists d a) (hwf : d.WellFormed) (horder : d.AllFabrics Loadable)
    (hd : d.AllSaved) (hstep : step crypto d a = some d') : d'.AllSaved := by
  cases a with
  | invoke id env cmd =>
    obtain ⟨sess, hsess, rfl⟩ := Option.map_eq_some_iff.mp hstep
    exact saved_invoke hok hsess hwf horder hd
  | tick env =>
    cases hstep
    rw [checkFailsafeTimeout, run_bind_of_ok (run_get d)]
    split
    · exact hd
    · split_ifs
      · rw [fst_run_bind fun _ _ => rfl]
        exact saved_expire hwf hd (hok.tick env rfl) none
      · exact hd
  | addSession msgCtr reserved peerAddr peerNodeid =>
    cases hstep
    exact hd.of_context rfl rfl rfl
  | removeSession id =>
    cases hstep
    exact hd.of_context rfl rfl rfl
  | establishPase id env params =>
    rw [step] at hstep
    split_ifs at hstep
    cases hstep
    have h : Maintains AllSaved (establishPase env id params) := by
      refine maintains_bind (maintains_modify fun d hd => hd.of_context rfl rfl rfl) fun _ => ?_
      refine maintains_get_bind fun d _ => maintains_onlyIf _ fun d hd => ?_
      exact saved_arm hd (by decide)
    exact h d hd
  | establishCase id fabIdx catIds params =>
    rw [step] at hstep
    split_ifs at hstep
    cases hstep
    have h : Maintains AllSaved (establishCase id fabIdx catIds params) := by
      refine maintains_get_bind fun d _ => maintains_bind (maintains_ensure _ _) fun _ => ?_
      exact maintains_modify fun d hd => hd.of_context rfl rfl rfl
    exact h d hd
  | establishGroup fabIdx groupId msgCtr params =>
    cases hstep
    have h : Maintains AllSaved (establishGroup fabIdx groupId msgCtr params) := by
      refine maintains_get_bind fun d _ => maintains_bind (maintains_ensure _ _) fun _ => ?_
      refine maintains_bind (fun d hd => hd.of_context rfl rfl rfl) fun _ => ?_
      exact maintains_modify fun d hd => hd.of_context rfl rfl rfl
    exact h d hd
  | closeCommWindow =>
    cases hstep
    exact hd.of_context rfl rfl rfl
  | restart =>
    have hstep : d.restart = some d' := hstep
    rw [restart] at hstep
    rcases hrun : (loadAll d.kv (List.range' 1 255)).run [] with ⟨fabrics, _ | _⟩
    · rw [hrun] at hstep
      cases hstep
    · rw [hrun] at hstep
      obtain ⟨hfab, -⟩ := run_loadAll (Nat.zero_le _) hrun
      cases hstep
      intro i _
      rw [Saved, hfab, List.nil_append]
      exact get_loaded hwf horder i

/-! ## Runs -/

theorem allSaved_factoryNew : factoryNew.AllSaved := fun _ _ => rfl

theorem saved_of_run {as : List Action} (hok : (machine crypto).Meets Persists factoryNew as)
    (hrun : (machine crypto).run factoryNew as = some d) :
    d.WellFormed ∧ d.AllFabrics Loadable ∧ d.AllSaved := by
  refine Machine.invariant_of_meets (I := fun d => d.WellFormed ∧ d.AllFabrics Loadable ∧ d.AllSaved) ?_
    ⟨wellFormed_factoryNew, allFabrics_factoryNew, allSaved_factoryNew⟩ hok hrun
  rintro s a s' hok ⟨hwf, horder, hs⟩ hstep
  refine ⟨hwf.step (step_effect hwf.room hstep), ?_, saved_step hok hwf horder hs hstep⟩
  refine allFabrics_step editsKeep_loadable ?_ (fun _ _ _ _ _ _ => loadable_addNoc) ?_ horder hstep
  · exact fun label => loadable_of_groups (Fabric.keeps_load (by intros; rfl) _ _ _)
  · rintro id env icac noc sess - -
    exact loadable_updateNoc icac noc horder

/-- **Memory and storage agree.** While the fail-safe is not armed, the node would start with the
fabrics it has. -/
theorem loaded_of_run {as : List Action} (hok : (machine crypto).Meets Persists factoryNew as)
    (hrun : (machine crypto).run factoryNew as = some d) (hidle : d.failsafe.isArmed = false) :
    ∃ fabrics, (loadAll d.kv (List.range' 1 255)).run [] = (fabrics, .ok ()) ∧
      fabrics.Perm d.fabrics := by
  obtain ⟨hwf, horder, hsaved⟩ := saved_of_run hok hrun
  have hall : ∀ i, Fabrics.get d.fabrics i = d.kv.fabrics i := by
    intro i
    refine hsaved i ?_
    rw [FailSafe.isArmed] at hidle
    rw [FailSafe.isArmedFor]
    split at hidle
    · rfl
    · cases hidle
  have hperm : ((List.range' 1 255).filterMap d.kv.fabrics).Perm d.fabrics := by
    refine (List.perm_ext_iff_of_nodup (nodup_loaded hwf).of_map hwf.nodup.of_map).mpr fun f => ?_
    rw [mem_loaded hwf horder, ← hall]
    exact ⟨mem_of_lookup, lookup_of_mem hwf.nodup⟩
  refine ⟨_, run_loadAll_of_length ?_, hperm⟩
  rw [List.length_nil, Nat.zero_add, hperm.length_eq]
  exact hwf.room

/-- A command that changes no fabric by itself, where storage works. -/
theorem persists_of_invoke {id : BitVec 32} {cmd : Command} (hworks : env.Works)
    (hedits : ∀ d fabric, ¬ Forgets d env fabric cmd) (hadds : ∀ req, cmd ≠ .addNoc req) :
    Persists d (.invoke id env cmd) where
  invoke := by
    rintro _ _ _ ⟨⟩
    exact hworks
  tick := by rintro _ ⟨⟩
  edits := by
    rintro _ _ _ _ fabric ⟨⟩ - - -
    exact hedits d fabric
  adds := by
    rintro _ _ req _ ⟨⟩ -
    exact absurd rfl (hadds req)

theorem persists_of_ne {a : Action} (hinvoke : ∀ id env cmd, a ≠ .invoke id env cmd)
    (htick : ∀ env, a ≠ .tick env) : Persists d a where
  invoke id env cmd ha := absurd ha (hinvoke id env cmd)
  tick env ha := absurd ha (htick env)
  edits id env cmd _ _ ha := absurd ha (hinvoke id env cmd)
  adds id env _ _ ha := absurd ha (hinvoke id env _)

theorem loaded_commissioned : ∃ d, (machine Sample.crypto).run factoryNew Sample.commissioned = some d ∧
    d.fabrics.map Fabric.fabIdx = [1] ∧
      ∃ fabrics, (loadAll d.kv (List.range' 1 255)).run [] = (fabrics, .ok ()) ∧
        fabrics.Perm d.fabrics := by
  have h : ((machine Sample.crypto).run factoryNew Sample.commissioned).map
      (fun d => (d.fabrics.map Fabric.fabIdx, d.failsafe.isArmed)) = some ([1], false) := by decide +kernel
  obtain ⟨d, hrun, heq⟩ := Option.map_eq_some_iff.mp h
  obtain ⟨hfab, hidle⟩ := Prod.mk.inj heq
  refine ⟨d, hrun, hfab, loaded_of_run ?_ hrun hidle⟩
  -- the node when the fabric is added: the fail-safe is armed, for no fabric
  have hadd : ((machine Sample.crypto).run factoryNew
      (Sample.pase 0 0 ++ (Sample.addFabric 0 9).take 2)).map
      (fun d => (d.failsafe.context, Fabrics.get d.fabrics 0, d.kv.fabrics 0)) =
        some (some (0, false), none, none) := by decide +kernel
  obtain ⟨t, ht, heq⟩ := Option.map_eq_some_iff.mp hadd
  simp only [Prod.mk.injEq] at heq
  obtain ⟨hctx, hget, hkv⟩ := heq
  rw [show Sample.commissioned = (Sample.pase 0 0 ++ (Sample.addFabric 0 9).take 2) ++
    ((Sample.addFabric 0 9).drop 2 ++ (Sample.case 1 1 ++
      [.invoke 1 (Sample.envAt 0) .commissioningComplete])) from rfl, Machine.meets_append ht]
  refine ⟨Machine.meets_of_forall fun a ha s => ?_, ?_, fun u _ => Machine.meets_of_forall fun a ha s => ?_⟩
  · simp only [Sample.pase, Sample.addFabric, List.take, List.cons_append, List.nil_append,
      List.mem_cons, List.not_mem_nil, or_false] at ha
    rcases ha with rfl | rfl | rfl | rfl
    · exact persists_of_ne (by rintro _ _ _ ⟨⟩) (by rintro _ ⟨⟩)
    · exact persists_of_ne (by rintro _ _ _ ⟨⟩) (by rintro _ ⟨⟩)
    · exact persists_of_invoke (Sample.works 0) (fun _ _ => id) (by rintro _ ⟨⟩)
    · exact persists_of_invoke (Sample.works 0) (fun _ _ => id) (by rintro _ ⟨⟩)
  · refine ⟨?_, by rintro _ ⟨⟩, ?_, ?_⟩
    · rintro _ _ _ ⟨⟩
      exact Sample.works 0
    · rintro _ _ _ _ _ ⟨⟩ - - - ⟨⟩
    · rintro _ _ _ fabIdx ⟨⟩ harmed
      obtain ⟨added, hfabIdx⟩ := FailSafe.context_of_isArmedFor harmed
      rw [hctx, Option.some_inj] at hfabIdx
      obtain ⟨rfl, -⟩ := Prod.mk.inj hfabIdx
      rw [Saved, hget, hkv]
  · have ha : a ∈ Sample.case 1 1 ++ [.invoke 1 (Sample.envAt 0) .commissioningComplete] := ha
    simp only [Sample.case, List.cons_append, List.nil_append, List.mem_cons, List.not_mem_nil, or_false] at ha
    rcases ha with rfl | rfl | rfl
    · exact persists_of_ne (by rintro _ _ _ ⟨⟩) (by rintro _ ⟨⟩)
    · exact persists_of_ne (by rintro _ _ _ ⟨⟩) (by rintro _ ⟨⟩)
    · exact persists_of_invoke (Sample.works 0) (fun _ _ => id) (by rintro _ ⟨⟩)

theorem not_loaded_updateFabricLabel : ∃ d, (machine Sample.crypto).run factoryNew
      (Sample.commissioned ++ [.invoke 1 (Sample.envAt 0) (.updateFabricLabel [65])]) = some d ∧
    (Sample.envAt 0).Works ∧ d.failsafe.isArmed = false ∧
      ¬ ∃ fabrics, (loadAll d.kv (List.range' 1 255)).run [] = (fabrics, .ok ()) ∧
        fabrics.Perm d.fabrics := by
  have h : ((machine Sample.crypto).run factoryNew
      (Sample.commissioned ++ [.invoke 1 (Sample.envAt 0) (.updateFabricLabel [65])])).map
      (fun d => (d.failsafe.isArmed, d.fabrics.map (·.label),
        ((loadAll d.kv (List.range' 1 255)).run []).1.map (·.label))) = some (false, [[65]], [[]]) := by
    decide +kernel
  obtain ⟨d, hrun, heq⟩ := Option.map_eq_some_iff.mp h
  simp only [Prod.mk.injEq] at heq
  obtain ⟨hidle, hmem, hload⟩ := heq
  refine ⟨d, hrun, Sample.works 0, hidle, ?_⟩
  rintro ⟨fabrics, hloaded, hperm⟩
  have hlabels := hperm.map (·.label)
  rw [hloaded] at hload
  rw [hload, hmem] at hlabels
  exact absurd (List.singleton_perm_singleton.mp hlabels) (by decide)

end Device

end RsMatter
