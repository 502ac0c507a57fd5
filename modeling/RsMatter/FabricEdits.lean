import RsMatter.Expiry

/-!
# What is true of every fabric

What the commands do to a fabric does not depend on where it is: a fabric is edited, given an
identity, stored and loaded. Something that is kept by every edit (`EditsKeep`) and by the
commands that name a fabric holds of every fabric, in memory and in storage, throughout a run
(`Device.allFabrics_step_of`, `Device.allFabrics_step`).
-/

namespace RsMatter

namespace Device

open Prog

structure AllFabrics (P : Fabric → Prop) (d : Device) : Prop where
  fabrics : ∀ f ∈ d.fabrics, P f
  stored : ∀ i f, d.kv.fabrics i = some f → P f

structure EditsKeep (P : Fabric → Prop) : Prop where
  setAcl : ∀ value, Maintains P (setAcl value)
  addGroup : ∀ endpointId groupId groupName, Maintains P (addGroup endpointId groupId groupName)
  removeGroup : ∀ endpointId groupId,
    Maintains P (Fabric.groupsMut (Groups.remove endpointId groupId))
  setGroupKeyMap : ∀ value, Maintains P (setGroupKeyMap value)
  keySetAdd : ∀ entry, Maintains P (Fabric.groupsMut (Groups.keySetAdd entry))
  keySetRemove : ∀ id, Maintains P (Fabric.groupsMut (Groups.keySetRemove id))
  setVid : ∀ vendorId statement vvsc, Maintains P (do
    let fabric ← get
    ensure (∀ v ∈ vvsc, v = [] ∨ fabric.icac = []) .invalidCommand
    Fabric.setVidVerification vendorId statement vvsc)

variable {P : Fabric → Prop} {crypto : Crypto} {d d' : Device} {env : Env} {sess : StampedSession}

theorem filter_ne_nil (icac : Option (List UInt8)) : icac.filter (!·.isEmpty) ≠ some [] := by
  rintro h
  rw [Option.filter_eq_some_iff] at h
  exact absurd h.2 (by decide)

theorem getD_filter_isEmpty (icac : Option (List UInt8)) :
    (icac.filter (!·.isEmpty)).getD [] = icac.getD [] := by
  cases icac with
  | none => rfl
  | some icac => cases icac <;> rfl

/-! ## Edits -/

theorem AllFabrics.congr (h : d.AllFabrics P) (hfab : d'.fabrics = d.fabrics)
    (hkv : d'.kv.fabrics = d.kv.fabrics) : d'.AllFabrics P :=
  ⟨hfab ▸ h.fabrics, hkv ▸ h.stored⟩

theorem allFabrics_of_keeps {α : Type} {m : Prog ErrorCode Device α} (h : Keeps view m) :
    Maintains (AllFabrics P) m := by
  refine maintains_of_keeps h fun s t hview hs => ?_
  simp only [view, Prod.mk.injEq] at hview
  exact hs.congr hview.1 hview.2.1

theorem allFabrics_modify {g : Device → Device} (hfab : ∀ d, (g d).fabrics = d.fabrics)
    (hkv : ∀ d, (g d).kv.fabrics = d.kv.fabrics) :
    Maintains (ε := ErrorCode) (AllFabrics P) (modify g) :=
  maintains_modify fun d hd => hd.congr (hfab d) (hkv d)

theorem allFabrics_onFailSafe {α : Type} (m : Prog ErrorCode FailSafe α) :
    Maintains (AllFabrics P) (onFailSafe m) := fun _ hd => hd.congr rfl rfl

theorem allFabrics_onFabrics {α : Type} {m : Prog ErrorCode Fabrics α}
    (h : Maintains (fun fs : Fabrics => ∀ f ∈ fs, P f) m) :
    Maintains (AllFabrics P) (onFabrics m) :=
  fun d hd => ⟨h d.fabrics hd.fabrics, hd.stored⟩

theorem allFabrics_remove (fabIdx : ℕ) :
    Maintains (fun fs : Fabrics => ∀ f ∈ fs, P f) (Fabrics.remove fabIdx) := by
  intro fs hfs
  rw [Fabrics.run_remove]
  split_ifs
  · exact fun f hf => hfs f (removeKey_sublist.subset hf)
  · exact hfs

theorem allFabrics_fabricMut {α : Type} (fabIdx : ℕ) {edit : Prog ErrorCode Fabric α}
    (h : Maintains P edit) :
    Maintains (fun fs : Fabrics => ∀ f ∈ fs, P f) (Fabrics.fabricMut fabIdx edit) := by
  intro fs hfs
  rw [run, Fabrics.fabricMut]
  cases hget : Fabrics.get fs fabIdx with
  | none => exact hfs
  | some fabric =>
    intro f hf
    dsimp only at hf
    rcases mem_replaceKey hf with rfl | hf
    · exact h fabric (hfs fabric (mem_of_lookup hget))
    · exact hfs f hf

theorem allFabrics_storeFabric (env : Env) {fabric : Fabric} (h : P fabric) :
    Maintains (AllFabrics P) (storeFabric env fabric) := by
  refine maintains_bind (maintains_ensure _ _) fun _ => maintains_modify fun d hd => ?_
  refine ⟨hd.fabrics, fun i f hf => ?_⟩
  dsimp only at hf
  rw [Function.update_apply] at hf
  split_ifs at hf
  · cases hf
    exact h
  · exact hd.stored i f hf

theorem allFabrics_storeGet (env : Env) (fabIdx : ℕ) (c : Device → Prop) [DecidablePred c] :
    Maintains (AllFabrics P) (do
      let d ← get
      onlyIf (c d) (whenSome (Fabrics.get d.fabrics fabIdx) (storeFabric env))) := by
  refine maintains_get_bind fun d hd => maintains_onlyIf _ (maintains_whenSome fun fabric hfabric => ?_)
  exact allFabrics_storeFabric env (hd.fabrics fabric (mem_of_lookup hfabric))

theorem allFabrics_editFabric (env : Env) (fabIdx : ℕ) {edit : Prog ErrorCode Fabric (Bool × Reply)}
    (h : Maintains P edit) : Maintains (AllFabrics P) (editFabric env fabIdx edit) := by
  refine maintains_bind (allFabrics_onFabrics (allFabrics_fabricMut fabIdx h)) fun result => ?_
  refine maintains_get_bind fun d hd => maintains_bind ?_ fun _ => maintains_pure _
  refine maintains_onlyIf _ (maintains_whenSome fun fabric hfabric => ?_)
  exact allFabrics_storeFabric env (hd.fabrics fabric (mem_of_lookup hfabric))

theorem allFabrics_fabricScoped (sess : StampedSession) {k : ℕ → Prog ErrorCode Device Reply}
    (h : ∀ fabIdx, Maintains (AllFabrics P) (k fabIdx)) :
    Maintains (AllFabrics P) (accessorFabIdx sess >>= k) :=
  maintains_bind (maintains_bind (maintains_ensure _ _) fun _ => maintains_pure _) h

theorem allFabrics_setVid (hP : EditsKeep P) (vendorId : Option (BitVec 16))
    (statement vvsc : Option (List UInt8)) :
    Maintains (AllFabrics P)
      (handleSetVidVerificationStatement env sess vendorId statement vvsc) := by
  refine maintains_bind (maintains_ensure _ _) fun _ => ?_
  refine maintains_bind (maintains_ensure _ _) fun _ => ?_
  refine maintains_bind (maintains_ensure _ _) fun _ => ?_
  refine maintains_bind (maintains_ensure _ _) fun _ => ?_
  refine maintains_bind (maintains_ensure _ _) fun _ => ?_
  refine maintains_bind (allFabrics_onFabrics (allFabrics_fabricMut _ ?_)) fun _ => ?_
  · exact hP.setVid vendorId statement vvsc
  · exact allFabrics_storeGet env _ _

theorem allFabrics_removeFabric (fabIdx : ℕ) :
    Maintains (AllFabrics P) (handleRemoveFabric env sess fabIdx) := by
  refine maintains_bind (maintains_ensure _ _) fun _ => maintains_get_bind fun d _ => ?_
  by_cases hget : (Fabrics.get d.fabrics fabIdx).isSome = true
  · rw [if_pos hget]
    refine maintains_bind (allFabrics_onFabrics (allFabrics_remove fabIdx)) fun _ => ?_
    refine maintains_bind (allFabrics_modify (fun _ => rfl) fun _ => rfl) fun _ => ?_
    refine maintains_bind (allFabrics_modify (fun _ => rfl) fun _ => rfl) fun _ => ?_
    refine maintains_bind (maintains_bind (maintains_ensure _ _) fun _ => ?_) fun _ => maintains_pure _
    refine maintains_modify fun d hd => ⟨hd.fabrics, fun i f hf => ?_⟩
    dsimp only at hf
    rw [Function.update_apply] at hf
    split_ifs at hf
    exact hd.stored i f hf
  · rw [if_neg hget]
    exact maintains_pure _

/-! ## The end of the fail-safe -/

theorem allFabrics_addLoad {data : Option Fabric} (h : ∀ f ∈ data, P f) :
    Maintains (fun fs : Fabrics => ∀ f ∈ fs, P f) (Fabrics.addLoad data) := by
  refine maintains_whenSome fun fabric hfabric => maintains_get_bind fun fs _ => ?_
  refine maintains_bind (maintains_ensure _ _) fun _ => maintains_modify fun fs hfs f hf => ?_
  rcases List.mem_append.mp hf with hf | hf
  · exact hfs f hf
  · rw [List.mem_singleton.mp hf]
    exact h fabric hfabric

theorem allFabrics_rollBack (fabIdx : ℕ) : Maintains (AllFabrics P) (rollBack env fabIdx) := by
  refine maintains_bind (allFabrics_onFabrics (allFabrics_remove fabIdx)) fun _ => ?_
  refine maintains_bind (allFabrics_modify (fun _ => rfl) fun _ => rfl) fun _ => ?_
  -- what is taken over is what is stored
  refine maintains_bind_of (R := fun data => ∀ f ∈ data, P f) ?_ ?_ fun data hdata =>
    allFabrics_onFabrics (allFabrics_addLoad hdata)
  · exact maintains_bind (maintains_ensure _ _) fun _ => maintains_get_bind fun _ _ => maintains_pure _
  · intro d t data hd hrun f hf
    simp only [loadFabric, run_bind_eq_ok, run_ensure_eq_ok, run_get_eq_ok] at hrun
    obtain ⟨_, _, ⟨-, rfl⟩, _, _, ⟨rfl, rfl⟩, hrun⟩ := hrun
    obtain ⟨rfl, hdata⟩ := Prod.mk.inj hrun
    cases hdata
    exact hd.stored fabIdx f hf

theorem allFabrics_expire (id : Option (BitVec 32)) : Maintains (AllFabrics P) (expire env id) := by
  refine maintains_get_bind fun d _ => ?_
  split
  · exact maintains_pure _
  · refine maintains_bind (maintains_onlyIf _ (allFabrics_rollBack _)) fun _ => ?_
    refine maintains_bind (maintains_bind (maintains_ensure _ _) fun _ => ?_) fun _ => ?_
    · exact allFabrics_modify (fun _ => rfl) fun _ => rfl
    refine maintains_bind (allFabrics_modify (fun _ => rfl) fun _ => rfl) fun _ => ?_
    exact maintains_bind (allFabrics_modify (fun _ => rfl) fun _ => rfl) fun _ => maintains_pure _

theorem allFabrics_withArmedFailsafe {α : Type} (mode : SessionMode) {m : Prog ErrorCode Device α}
    (h : Maintains (AllFabrics P) m) : Maintains (AllFabrics P) (withArmedFailsafe mode m) :=
  maintains_get_bind fun _ _ => maintains_bind (maintains_ofExcept _) fun _ => h

theorem allFabrics_commissioningComplete :
    Maintains (AllFabrics P) (handleCommissioningComplete env sess) := by
  refine allFabrics_withArmedFailsafe _ ?_
  -- the fabric that is stored is one of the table
  refine maintains_bind_of (R := fun fabric => P fabric) ?_ ?_ fun fabric hfabric => ?_
  · intro d hd
    rcases hrun : (FailSafe.disarm sess.mode).run ⟨d.failsafe, d.fabrics⟩ with ⟨s, r⟩
    rw [onFailSafeFabrics, run_zoom _ d hrun]
    rcases FailSafe.disarm_cases hrun with ⟨rfl, -⟩ | ⟨_, -, -, -, -, -, -, hfab⟩
    · exact hd
    · exact hd.congr hfab rfl
  · intro d t fabric hd hrun
    rw [onFailSafeFabrics, run_zoom_eq_ok] at hrun
    obtain ⟨s, hrun, -⟩ := hrun
    obtain ⟨-, e, ⟨⟩⟩ | ⟨_, hok, -, -, hget, -⟩ := FailSafe.disarm_cases hrun
    cases hok
    exact hd.fabrics fabric (mem_of_lookup hget)
  · refine maintains_bind (allFabrics_modify (fun _ => rfl) fun _ => rfl) fun _ => ?_
    refine maintains_bind (allFabrics_modify (fun _ => rfl) fun _ => rfl) fun _ => ?_
    refine maintains_bind (allFabrics_storeFabric env hfabric) fun _ => ?_
    refine maintains_bind (allFabrics_modify (fun _ => rfl) fun _ => rfl) fun _ => ?_
    exact maintains_bind (maintains_ensure _ _) fun _ => allFabrics_modify (fun _ => rfl) fun _ => rfl

/-! ## Commands -/

/-- The commands that name a fabric: that give it an identity or a label. -/
def Command.Names : Command → Prop
  | .addNoc _ | .updateNoc _ _ | .updateFabricLabel _ => True
  | _ => False

theorem allFabrics_addNoc {req : FailSafe.NocRequest} (hd : d.AllFabrics P)
    (hadd : ∀ s' fabric,
      (FailSafe.addNoc crypto sess.mode { req with icac := req.icac.filter (!·.isEmpty) }).run
        ⟨d.failsafe, d.fabrics⟩ = (s', .ok fabric) → P fabric) :
    ((invoke crypto env sess (.addNoc req)).run d).1.AllFabrics P := by
  have h : ((handleAddNoc crypto sess req).run d).1.AllFabrics P := by
    rcases withArmedFailsafe_cases sess.mode _ d with h | h
    · rw [handleAddNoc, h]
      exact hd
    rw [handleAddNoc, h]
    rcases hrun : (FailSafe.addNoc crypto sess.mode
      { req with icac := req.icac.filter (!·.isEmpty) }).run ⟨d.failsafe, d.fabrics⟩ with ⟨s, r⟩
    have hzoom : (onFailSafeFabrics (FailSafe.addNoc crypto sess.mode
        { req with icac := req.icac.filter (!·.isEmpty) })).run d =
          ({ d with failsafe := s.failsafe, fabrics := s.fabrics }, r) := run_zoom _ d hrun
    rcases FailSafe.addNoc_cases hrun with ⟨rfl, e, rfl⟩ | ⟨fabric, rfl, -, -, hfab, -⟩
    · rw [run_bind_of_error hzoom]
      exact hd
    · rw [run_bind_of_ok hzoom]
      have hadded : AllFabrics P { d with failsafe := s.failsafe, fabrics := s.fabrics } := by
        refine ⟨fun f hf => ?_, hd.stored⟩
        dsimp only at hf
        rw [hfab] at hf
        rcases List.mem_append.mp hf with hf | hf
        · exact hd.fabrics f hf
        · rw [List.mem_singleton.mp hf]
          exact hadd _ fabric hrun
      suffices hrest : Maintains (AllFabrics P) (do
          modify (restamp fabric.fabIdx)
          onlyIf (sess.mode.isPase = true)
            (catching (upgradeFabricIdx sess fabric.fabIdx) fun e => do
              dropAdded fabric.fabIdx
              throw e)) from hrest _ hadded
      refine maintains_bind (allFabrics_modify (fun _ => rfl) fun _ => rfl) fun _ => ?_
      refine maintains_onlyIf _ (maintains_catching ?_ fun e => ?_)
      · refine maintains_get_bind fun _ _ => maintains_bind (maintains_ofExcept _) fun _ => ?_
        exact allFabrics_modify (fun _ => rfl) fun _ => rfl
      · refine maintains_bind (maintains_bind ?_ fun _ => ?_) fun _ => maintains_throw _
        · exact allFabrics_onFabrics (allFabrics_remove _)
        · exact allFabrics_modify (fun _ => rfl) fun _ => rfl
  have hfst : ((invoke crypto env sess (.addNoc req)).run d).1 = ((handleAddNoc crypto sess req).run d).1 := by
    refine fst_run_bind (m := nocReply (handleAddNoc crypto sess req)) (fun reply t => ?_) d
    exact keeps_bind (f := id) (keeps_onlyIf _ (keeps_ofExcept _)) (fun _ => keeps_pure _) t
  rw [hfst]
  exact h

theorem allFabrics_updateFabricLabel (label : List UInt8)
    (h : Maintains P
      (Fabric.load (fun f b => { f with label := b }) maxLabelLen label .constraintError)) :
    Maintains (AllFabrics P) (invoke crypto env sess (.updateFabricLabel label)) := by
  have h : Maintains (AllFabrics P) (handleUpdateFabricLabel sess label) := by
    refine maintains_bind (maintains_ensure _ _) fun _ => maintains_mapError _ (allFabrics_onFabrics ?_)
    refine maintains_get_bind fun _ _ => maintains_bind (maintains_ensure _ _) fun _ => ?_
    exact allFabrics_fabricMut _ h
  exact h

/-- **Commands.** -/
theorem allFabrics_invoke {cmd : Command} (hP : EditsKeep P)
    (hnames : cmd.Names → ((invoke crypto env sess cmd).run d).1.AllFabrics P)
    (hd : d.AllFabrics P) : ((invoke crypto env sess cmd).run d).1.AllFabrics P := by
  cases cmd with
  | armFailSafe expiry breadcrumb =>
    have h : Maintains (AllFabrics P) (handleArmFailSafe env sess expiry breadcrumb) := by
      rw [handleArmFailSafe]
      split_ifs
      · exact maintains_bind (allFabrics_expire _) fun _ => maintains_pure _
      · exact maintains_get_bind fun _ _ => allFabrics_onFailSafe _
    exact h d hd
  | setBreadcrumb value => exact hd.congr rfl rfl
  | commissioningComplete => exact allFabrics_commissioningComplete d hd
  | setNetworks networks =>
    have h : Maintains (AllFabrics P) (handleNetworks sess networks) :=
      allFabrics_withArmedFailsafe _ (allFabrics_modify (fun _ => rfl) fun _ => rfl)
    exact h d hd
  | openCommissioningWindow =>
    exact allFabrics_of_keeps keeps_openCommissioningWindow d hd
  | revokeCommissioning =>
    have h : Maintains (AllFabrics P) (handleRevokeCommissioning env sess) :=
      maintains_bind (allFabrics_expire _) fun _ => allFabrics_modify (fun _ => rfl) fun _ => rfl
    exact h d hd
  | csrRequest csrNonce isForUpdateNoc =>
    exact allFabrics_of_keeps (keeps_csrRequest env sess csrNonce isForUpdateNoc) d hd
  | addTrustedRootCertificate rootCa =>
    have h : Maintains (AllFabrics P) (handleAddTrustedRootCertificate crypto sess rootCa) :=
      allFabrics_withArmedFailsafe _ (allFabrics_onFailSafe _)
    exact h d hd
  | addNoc req => exact hnames trivial
  | updateNoc icac noc => exact hnames trivial
  | updateFabricLabel label => exact hnames trivial
  | removeFabric fabIdx =>
    have h : Maintains (AllFabrics P) (invoke crypto env sess (.removeFabric fabIdx)) :=
      maintains_bind (allFabrics_removeFabric fabIdx) fun _ => maintains_pure _
    exact h d hd
  | setVidVerificationStatement vendorId statement vvsc => exact allFabrics_setVid hP vendorId statement vvsc d hd
  | setAcl value =>
    have h : Maintains (AllFabrics P) (handleSetAcl env sess value) := by
      refine allFabrics_fabricScoped sess fun _ => allFabrics_editFabric env _ ?_
      exact maintains_bind (hP.setAcl value) fun _ => maintains_bind (maintains_ofExcept _) fun _ =>
        maintains_pure _
    exact h d hd
  | addGroup endpointId groupId groupName =>
    have h : Maintains (AllFabrics P) (handleAddGroup env sess endpointId groupId groupName) := by
      refine allFabrics_fabricScoped sess fun _ => ?_
      split_ifs
      · exact maintains_pure _
      · exact allFabrics_editFabric env _ (hP.addGroup endpointId groupId groupName)
    exact h d hd
  | removeGroup endpointId groupId =>
    have h : Maintains (AllFabrics P) (handleRemoveGroup env sess endpointId groupId) := by
      refine allFabrics_fabricScoped sess fun _ => ?_
      split_ifs
      · exact maintains_pure _
      · exact allFabrics_editFabric env _ (maintains_bind (hP.removeGroup endpointId groupId) fun _ => maintains_pure _)
    exact h d hd
  | removeAllGroups endpointId =>
    have h : Maintains (AllFabrics P) (handleRemoveAllGroups env sess endpointId) :=
      allFabrics_fabricScoped sess fun _ => allFabrics_editFabric env _
        (maintains_bind (hP.removeGroup endpointId none) fun _ => maintains_pure _)
    exact h d hd
  | setGroupKeyMap value =>
    have h : Maintains (AllFabrics P) (handleSetGroupKeyMap env sess value) :=
      allFabrics_fabricScoped sess fun _ => allFabrics_editFabric env _
        (maintains_bind (hP.setGroupKeyMap value) fun _ => maintains_pure _)
    exact h d hd
  | keySetWrite id policy k0 k1 k2 =>
    have h : Maintains (AllFabrics P) (handleKeySetWrite env sess id policy k0 k1 k2) := by
      refine allFabrics_fabricScoped sess fun _ => maintains_bind (maintains_ofExcept _) fun _ => ?_
      exact allFabrics_editFabric env _ (maintains_bind (hP.keySetAdd _) fun _ => maintains_pure _)
    exact h d hd
  | keySetRemove id =>
    have h : Maintains (AllFabrics P) (handleKeySetRemove env sess id) := by
      refine allFabrics_fabricScoped sess fun _ => maintains_bind (maintains_ensure _ _) fun _ => ?_
      exact allFabrics_editFabric env _ (maintains_bind (hP.keySetRemove id) fun _ => maintains_pure _)
    exact h d hd

/-! ## Runs -/

/-- **Every step**, if the commands that name a fabric are among those that keep `P`. -/
theorem allFabrics_step_of {a : Action} (hP : EditsKeep P)
    (hnames : ∀ id env cmd sess, a = .invoke id env cmd → d.sessions.get id = some sess → cmd.Names →
      ((invoke crypto env sess cmd).run d).1.AllFabrics P)
    (hd : d.AllFabrics P) (hstep : step crypto d a = some d') : d'.AllFabrics P := by
  cases a with
  | invoke id env cmd =>
    obtain ⟨sess, hsess, rfl⟩ := Option.map_eq_some_iff.mp hstep
    exact allFabrics_invoke hP (hnames id env cmd sess rfl hsess) hd
  | tick env =>
    cases hstep
    have h : Maintains (AllFabrics P) (checkFailsafeTimeout env) := by
      refine maintains_get_bind fun d _ => ?_
      split
      · exact maintains_pure _
      · split_ifs
        · exact maintains_bind (allFabrics_expire none) fun _ => maintains_pure _
        · exact maintains_pure _
    exact h d hd
  | addSession msgCtr reserved peerAddr peerNodeid =>
    cases hstep
    exact hd.congr rfl rfl
  | removeSession id =>
    cases hstep
    exact hd.congr rfl rfl
  | establishPase id env params =>
    rw [step] at hstep
    split_ifs at hstep
    cases hstep
    have h : Maintains (AllFabrics P) (establishPase env id params) := by
      refine maintains_bind (allFabrics_modify (fun _ => rfl) fun _ => rfl) fun _ => ?_
      exact maintains_get_bind fun _ _ => maintains_onlyIf _ (allFabrics_onFailSafe _)
    exact h d hd
  | establishCase id fabIdx catIds params =>
    rw [step] at hstep
    split_ifs at hstep
    cases hstep
    have h : Maintains (AllFabrics P) (establishCase id fabIdx catIds params) := by
      refine maintains_get_bind fun _ _ => maintains_bind (maintains_ensure _ _) fun _ => ?_
      exact allFabrics_modify (fun _ => rfl) fun _ => rfl
    exact h d hd
  | establishGroup fabIdx groupId msgCtr params =>
    cases hstep
    have h : Maintains (AllFabrics P) (establishGroup fabIdx groupId msgCtr params) := by
      refine maintains_get_bind fun _ _ => maintains_bind (maintains_ensure _ _) fun _ => ?_
      refine maintains_bind (fun _ hd => hd.congr rfl rfl) fun _ => ?_
      exact allFabrics_modify (fun _ => rfl) fun _ => rfl
    exact h d hd
  | closeCommWindow =>
    cases hstep
    exact hd.congr rfl rfl
  | restart =>
    have hstep : d.restart = some d' := hstep
    rw [restart] at hstep
    rcases hrun : (loadAll d.kv (List.range' 1 255)).run [] with ⟨fabrics, _ | _⟩
    · rw [hrun] at hstep
      cases hstep
    · rw [hrun] at hstep
      obtain ⟨hfab, -⟩ := run_loadAll (Nat.zero_le _) hrun
      cases hstep
      refine ⟨fun f hf => ?_, hd.stored⟩
      dsimp only at hf
      rw [hfab, List.nil_append] at hf
      obtain ⟨i, -, hi⟩ := List.mem_filterMap.mp hf
      exact hd.stored i f hi

/-- **Every step**, if a new fabric has what is kept. -/
theorem allFabrics_step {a : Action} (hP : EditsKeep P)
    (hlabel : ∀ label, Maintains P
      (Fabric.load (fun f b => { f with label := b }) maxLabelLen label .constraintError))
    (hadd : ∀ mode req s s' fabric, req.icac ≠ some [] →
      (FailSafe.addNoc crypto mode req).run s = (s', .ok fabric) → P fabric)
    (hupdate : ∀ id env icac noc sess, a = .invoke id env (.updateNoc icac noc) →
      d.sessions.get id = some sess → ((handleUpdateNoc crypto sess icac noc).run d).1.AllFabrics P)
    (hd : d.AllFabrics P) (hstep : step crypto d a = some d') : d'.AllFabrics P := by
  refine allFabrics_step_of hP ?_ hd hstep
  intro id env cmd sess ha hsess hnames
  cases cmd with
  | addNoc req =>
    exact allFabrics_addNoc hd fun s' fabric => hadd _ _ _ s' fabric (filter_ne_nil _)
  | updateNoc icac noc => exact hupdate id env icac noc sess ha hsess
  | updateFabricLabel label => exact allFabrics_updateFabricLabel label (hlabel label) d hd
  | _ => exact hnames.elim

theorem allFabrics_factoryNew : factoryNew.AllFabrics P := by
  refine ⟨fun f hf => ?_, fun i f hf => ?_⟩
  · cases hf
  · cases hf

end Device

end RsMatter
