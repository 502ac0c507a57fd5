import RsMatter.FabricEdits

/-!
# Access control does not cross fabrics

A request of a fabric is answered from the entries of that fabric alone, and an entry that is
added to them takes nothing away (`Fabrics.allow_congr`, `Fabrics.allow_of_adds`). What an
entry says about its own fabric is overwritten by every path that stores one. What it says
about how the accessor was authenticated is checked by some of them only: the writes of the
peers are, and `acl_add` is; `acl_update` and the setters that take an initializer store an
entry for commissioning too (`Device.ownAcl_of_run`).
-/

namespace RsMatter

/-! ## One request -/

namespace Fabrics

variable {fs gs : Fabrics} {fabIdx : ℕ} {req : AccessReq}

/-- Two fabric tables agree on a fabric: on its access control list and its groups. -/
def AgreeOn (fabIdx : ℕ) (fs gs : Fabrics) : Prop :=
  (Fabrics.get fs fabIdx).map (fun f => (f.acl, f.groups)) =
    (Fabrics.get gs fabIdx).map fun f => (f.acl, f.groups)

/-- **Isolation.** The answer depends on the fabric of the request only. -/
theorem allow_congr (h : AgreeOn req.accessor.fabIdx fs gs) : fs.allow req = gs.allow req := by
  have hacl : (Fabrics.get fs req.accessor.fabIdx).map Fabric.acl =
      (Fabrics.get gs req.accessor.fabIdx).map Fabric.acl := by
    have h := congrArg (Option.map Prod.fst) h
    rwa [Option.map_map, Option.map_map] at h
  simp only [allow]
  split_ifs with hpase hnone
  · rfl
  · rfl
  · cases hf : Fabrics.get fs req.accessor.fabIdx with
    | none =>
      rw [hf] at hacl
      rw [Option.map_eq_none_iff.mp hacl.symm]
    | some f =>
      rw [hf] at hacl
      obtain ⟨g, hg, hfg⟩ := Option.map_eq_some_iff.mp hacl.symm
      rw [hg]
      exact congrArg (fun acl => acl.any (·.allow req)) hfg.symm

end Fabrics

namespace Fabric

open Prog

/-- The ways to add an entry to the access control list: by the application, with or without
an initializer, and by a peer. -/
inductive Adds : Prog ErrorCode Fabric Unit → Prop
  | aclAdd (entry : AclEntry) : Adds (Fabric.aclAdd entry)
  | aclAddInit (entry : Except ErrorCode AclEntry) : Adds (Fabric.aclAddInit entry)
  | setAcl (entry : AccessControlEntryStruct) : Adds (Device.setAcl (.add entry))

variable {m : Prog ErrorCode Fabric Unit} {f : Fabric}

theorem run_aclAddInit_cases (entry : Except ErrorCode AclEntry) (f : Fabric) :
    ((aclAddInit entry).run f).1 = f ∨
      ∃ e, ((aclAddInit entry).run f).1 = { f with acl := f.acl ++ [e] } := by
  rw [aclAddInit, run_bind_of_ok (run_get f)]
  by_cases hroom : f.acl.length < maxAclEntriesPerFabric
  · rw [run_bind_of_ok (run_ensure_of_pos hroom _ _)]
    cases entry with
    | error e => exact .inl rfl
    | ok entry => exact .inr ⟨_, rfl⟩
  · rw [run_bind_of_error (run_ensure_of_neg hroom _ _)]
    exact .inl rfl

theorem Adds.cases (h : Adds m) (f : Fabric) :
    (m.run f).1 = f ∨ ∃ e, (m.run f).1 = { f with acl := f.acl ++ [e] } := by
  cases h with
  | aclAdd entry =>
    rw [Fabric.aclAdd]
    by_cases hmode : entry.authMode ≠ .pase
    · rw [run_bind_of_ok (run_ensure_of_pos hmode _ _), run_bind_of_ok (run_get f)]
      by_cases hroom : f.acl.length < maxAclEntriesPerFabric
      · rw [run_bind_of_ok (run_ensure_of_pos hroom _ _)]
        exact .inr ⟨_, rfl⟩
      · rw [run_bind_of_error (run_ensure_of_neg hroom _ _)]
        exact .inl rfl
    · rw [run_bind_of_error (run_ensure_of_neg hmode _ _)]
      exact .inl rfl
  | aclAddInit entry => exact run_aclAddInit_cases entry f
  | setAcl entry => exact run_aclAddInit_cases (AclEntry.initWith f.fabIdx entry) f

theorem Adds.allow {req : AccessReq} (h : Adds m) (hallow : f.allow req = true) :
    (m.run f).1.allow req = true := by
  obtain heq | ⟨e, heq⟩ := h.cases f
  · rwa [heq]
  · rw [heq, Fabric.allow, List.any_append, Bool.or_eq_true]
    exact .inl hallow

theorem Adds.fabIdx (h : Adds m) (f : Fabric) : (m.run f).1.fabIdx = f.fabIdx := by
  obtain heq | ⟨e, heq⟩ := h.cases f
  · rw [heq]
  · rw [heq]

end Fabric

namespace Fabrics

variable {fs : Fabrics} {fabIdx : ℕ} {req : AccessReq}

/-- Add some entries to a fabric, one after the other. -/
def addAll (fabIdx : ℕ) (fs : Fabrics) (adds : List (Prog ErrorCode Fabric Unit)) : Fabrics :=
  adds.foldl (fun fs add => ((fabricMut fabIdx add).run fs).1) fs

theorem allow_of_add {m : Prog ErrorCode Fabric Unit} (hm : Fabric.Adds m) (fabIdx : ℕ)
    (h : fs.allow req = true) : Fabrics.allow ((fabricMut fabIdx m).run fs).1 req = true := by
  rw [Prog.run, fabricMut]
  cases hget : Fabrics.get fs fabIdx with
  | none => exact h
  | some fabric =>
    have hidx : ((Prog.run m fabric).1).fabIdx = fabIdx := (hm.fabIdx fabric).trans (fabIdx_of_get hget)
    simp only [allow] at h ⊢
    split_ifs at h ⊢ with hpase hnone
    · rfl
    · by_cases hsame : req.accessor.fabIdx = fabIdx
      · rw [hsame] at h ⊢
        have hnew : Fabrics.get (replaceKey Fabric.fabIdx fs fabIdx (Prog.run m fabric).1) fabIdx =
            some (Prog.run m fabric).1 := by
          refine lookup_replaceKey_self hidx ?_
          rw [← Fabrics.get, hget]
          exact Option.some_ne_none _
        rw [hnew]
        rw [hget] at h
        exact hm.allow h
      · have hold : Fabrics.get (replaceKey Fabric.fabIdx fs fabIdx (Prog.run m fabric).1)
            req.accessor.fabIdx = Fabrics.get fs req.accessor.fabIdx :=
          lookup_replaceKey_ne hidx hsame
        rw [hold]
        exact h

/-- **Monotonicity.** -/
theorem allow_of_adds {adds : List (Prog ErrorCode Fabric Unit)} (hadds : ∀ m ∈ adds, Fabric.Adds m)
    (h : fs.allow req = true) : (addAll fabIdx fs adds).allow req = true := by
  induction adds generalizing fs with
  | nil => exact h
  | cons m adds ih =>
    exact ih (fun n hn => hadds n (List.mem_cons_of_mem _ hn))
      (allow_of_add (hadds m List.mem_cons_self) fabIdx h)

end Fabrics

/-! ## What is stored -/

namespace AclEntry

/-- An entry of a fabric, and not one for commissioning. -/
structure IsOwn (e : AclEntry) (fabIdx : ℕ) : Prop where
  fabIdx : e.fabIdx = some fabIdx
  /-- how its accessors are authenticated -/
  authMode : e.authMode ≠ .pase

/-- What a peer asks for is an entry of the accessing fabric, or it is refused. -/
theorem isOwn_initWith {fabIdx : ℕ} {entry : AccessControlEntryStruct} {e : AclEntry}
    (h : initWith fabIdx entry = .ok e) : e.IsOwn fabIdx := by
  rw [initWith] at h
  split at h
  · split_ifs at h with hmode
    obtain ⟨subjects, -, h⟩ := Prog.except_bind_eq_ok.mp h
    obtain ⟨targets, -, h⟩ := Prog.except_bind_eq_ok.mp h
    cases h
    exact ⟨rfl, fun hpase => hmode (.inl hpase)⟩
  · cases h

theorem isOwn_adminEntry {fabIdx : ℕ} {subject : BitVec 64} {e : AclEntry}
    (h : Fabric.adminEntry fabIdx subject = .ok e) : e.IsOwn fabIdx := by
  rw [Fabric.adminEntry, addSubject] at h
  split_ifs at h
  cases h
  exact ⟨rfl, nofun⟩

end AclEntry

namespace Fabric

open Prog

/-- A fabric with this index, all of whose entries are its own. -/
structure OwnAclAt (fabIdx : ℕ) (f : Fabric) : Prop where
  index : f.fabIdx = fabIdx
  entries : ∀ e ∈ f.acl, e.IsOwn fabIdx

/-- All entries of a fabric are its own, and none is for commissioning. -/
def OwnAcl (f : Fabric) : Prop := ∀ e ∈ f.acl, e.IsOwn f.fabIdx

variable {fabIdx : ℕ} {f : Fabric} {α : Type} {m : Prog ErrorCode Fabric α}

theorem maintains_ownAcl (h : ∀ i, Maintains (OwnAclAt i) m) : Maintains OwnAcl m := by
  intro f hf
  have h := h f.fabIdx f ⟨rfl, hf⟩
  intro e he
  rw [h.index]
  exact h.entries e he

theorem ownAclAt_of_keeps (h : Keeps (fun f : Fabric => (f.fabIdx, f.acl)) m) :
    Maintains (OwnAclAt fabIdx) m := by
  refine maintains_of_keeps h fun f f' heq hf => ?_
  obtain ⟨hidx, hacl⟩ := Prod.mk.inj heq
  exact ⟨hidx.trans hf.index, fun e he => hf.entries e (hacl ▸ he)⟩

theorem isOwn_stored (hf : f.OwnAclAt fabIdx) {entry : AclEntry} (h : entry.authMode ≠ .pase) :
    { entry with fabIdx := some f.fabIdx }.IsOwn fabIdx :=
  ⟨congrArg some hf.index, h⟩

theorem ownAcl_append {f g : Fabric} (hf : f.OwnAclAt fabIdx) (hg : g.OwnAclAt fabIdx) {entry : AclEntry}
    (h : entry.authMode ≠ .pase) :
    { g with acl := f.acl ++ [{ entry with fabIdx := some f.fabIdx }] }.OwnAclAt fabIdx := by
  refine ⟨hg.index, fun e he => ?_⟩
  rcases List.mem_append.mp he with he | he
  · exact hf.entries e he
  · rw [List.mem_singleton.mp he]
    exact isOwn_stored hf h

theorem ownAcl_set {f g : Fabric} (hf : f.OwnAclAt fabIdx) (hg : g.OwnAclAt fabIdx) {entry : AclEntry}
    (h : entry.authMode ≠ .pase) (idx : ℕ) :
    { g with acl := f.acl.set idx { entry with fabIdx := some f.fabIdx } }.OwnAclAt fabIdx := by
  refine ⟨hg.index, fun e he => ?_⟩
  rcases List.mem_or_eq_of_mem_set he with he | rfl
  · exact hf.entries e he
  · exact isOwn_stored hf h

theorem ownAcl_aclAdd (entry : AclEntry) : Maintains (OwnAclAt fabIdx) (aclAdd entry) := by
  -- an entry for commissioning is refused
  refine maintains_ensure_bind fun hmode => maintains_get_bind fun f hf => ?_
  exact maintains_bind (maintains_ensure _ _) fun _ => maintains_modify fun g hg => ownAcl_append hf hg hmode

theorem ownAcl_aclAddInit {entry : Except ErrorCode AclEntry}
    (h : ∀ e, entry = .ok e → e.authMode ≠ .pase) : Maintains (OwnAclAt fabIdx) (aclAddInit entry) := by
  refine maintains_get_bind fun f hf => maintains_bind (maintains_ensure _ _) fun _ => ?_
  exact maintains_ofExcept_bind fun e he => maintains_modify fun g hg => ownAcl_append hf hg (h e he)

theorem ownAcl_aclUpdate {entry : AclEntry} (h : entry.authMode ≠ .pase) (idx : ℕ) :
    Maintains (OwnAclAt fabIdx) (aclUpdate idx entry) := by
  refine maintains_get_bind fun f hf => maintains_bind (maintains_ensure _ _) fun _ => ?_
  exact maintains_modify fun g hg => ownAcl_set hf hg h idx

theorem ownAcl_aclUpdateInit {entry : Except ErrorCode AclEntry}
    (h : ∀ e, entry = .ok e → e.authMode ≠ .pase) (idx : ℕ) :
    Maintains (OwnAclAt fabIdx) (aclUpdateInit idx entry) := by
  refine maintains_get_bind fun f hf => maintains_bind (maintains_ensure _ _) fun _ => ?_
  exact maintains_ofExcept_bind fun e he => maintains_modify fun g hg => ownAcl_set hf hg (h e he) idx

theorem ownAcl_aclRemove (idx : ℕ) : Maintains (OwnAclAt fabIdx) (aclRemove idx) := by
  refine maintains_get_bind fun f hf => maintains_bind (maintains_ensure _ _) fun _ => ?_
  refine maintains_modify fun g hg => ⟨hg.index, fun e he => ?_⟩
  exact hf.entries e (List.mem_of_mem_eraseIdx he)

theorem ownAcl_aclRemoveAll : Maintains (OwnAclAt fabIdx) aclRemoveAll :=
  maintains_modify fun _ hg => ⟨hg.index, nofun⟩

/-- A new identity keeps the entries, or there is one entry for the administrator. -/
theorem ownAcl_update (crypto : Crypto) (rootCa : Option (List UInt8)) (noc icac secretKey : List UInt8)
    (epochKey : Option (List UInt8)) (vendorId : Option (BitVec 16))
    (caseAdminSubject : Option (BitVec 64)) :
    Maintains (OwnAclAt fabIdx)
      (update crypto rootCa noc icac secretKey epochKey vendorId caseAdminSubject) := by
  have hload {put : Fabric → List UInt8 → Fabric}
      (h : ∀ f b, ((put f b).fabIdx, (put f b).acl) = (f.fabIdx, f.acl)) (max : ℕ) (data : List UInt8)
      (e : ErrorCode) : Maintains (OwnAclAt fabIdx) (load put max data e) :=
    ownAclAt_of_keeps (keeps_load h max data e)
  have hput {g : Fabric → Fabric} (h : ∀ f, ((g f).fabIdx, (g f).acl) = (f.fabIdx, f.acl)) :
      Maintains (OwnAclAt fabIdx) (modify g : Prog ErrorCode Fabric Unit) :=
    ownAclAt_of_keeps (keeps_modify h)
  refine maintains_bind (maintains_whenSome fun _ _ => hload (by intros; rfl) _ _ _) fun _ => ?_
  refine maintains_bind (hload (by intros; rfl) _ _ _) fun _ => ?_
  refine maintains_bind (hput fun _ => rfl) fun _ => ?_
  refine maintains_bind (hload (by intros; rfl) _ _ _) fun _ => ?_
  refine maintains_bind (maintains_ofExcept _) fun nodeId => maintains_bind (hput fun _ => rfl) fun _ => ?_
  refine maintains_bind (maintains_ofExcept _) fun fabricId => maintains_bind (hput fun _ => rfl) fun _ => ?_
  refine maintains_get_bind fun f hf => maintains_bind (maintains_ofExcept _) fun pubkey => ?_
  refine maintains_bind (hput fun _ => rfl) fun _ => ?_
  refine maintains_bind (maintains_whenSome fun _ _ => ?_) fun _ => ?_
  · exact maintains_bind (maintains_ofExcept _) fun _ => hput fun _ => rfl
  refine maintains_bind (maintains_whenSome fun _ _ => hput fun _ => rfl) fun _ => ?_
  refine maintains_bind (maintains_whenSome fun subject _ => ?_) fun _ => hput fun _ => rfl
  refine maintains_bind (maintains_modify fun g hg => ⟨hg.index, nofun⟩) fun _ => ?_
  refine maintains_ofExcept_bind fun e he => maintains_modify fun g hg => ⟨hg.index, fun e' he' => ?_⟩
  rw [List.mem_singleton.mp he', ← hf.index]
  exact AclEntry.isOwn_adminEntry he

end Fabric

/-! ## Runs -/

namespace Device

open Prog

/-- What the application may do to the access control list of a fabric. -/
inductive AclEdit where
  | add (entry : AclEntry)
  | addInit (entry : Except ErrorCode AclEntry)
  | update (idx : ℕ) (entry : AclEntry)
  | updateInit (idx : ℕ) (entry : Except ErrorCode AclEntry)
  | remove (idx : ℕ)
  | removeAll

def AclEdit.call : AclEdit → Prog ErrorCode Fabric Unit
  | add entry => Fabric.aclAdd entry
  | addInit entry => Fabric.aclAddInit entry
  | update idx entry => Fabric.aclUpdate idx entry
  | updateInit idx entry => Fabric.aclUpdateInit idx entry
  | remove idx => Fabric.aclRemove idx
  | removeAll => Fabric.aclRemoveAll

/-- **The condition.** A setter that does not check the entry is not given one for
commissioning. -/
def AclEdit.IsChecked : AclEdit → Prop
  | addInit entry => ∀ e, entry = .ok e → e.authMode ≠ .pase
  | update _ entry => entry.authMode ≠ .pase
  | updateInit _ entry => ∀ e, entry = .ok e → e.authMode ≠ .pase
  | add _ | remove _ | removeAll => True

/-- A step of the node, a call of the application, or the application stores a fabric. -/
inductive AclAction where
  | node (a : Action)
  | app (fabIdx : ℕ) (edit : AclEdit)
  | store (env : Env) (fabIdx : ℕ)

def aclStep (crypto : Crypto) (d : Device) : AclAction → Option Device
  | .node a => step crypto d a
  | .app fabIdx edit => some ((onFabrics (Fabrics.fabricMut fabIdx edit.call)).run d).1
  | .store env fabIdx =>
    some ((whenSome (Fabrics.get d.fabrics fabIdx) (storeFabric env)).run d).1

def aclMachine (crypto : Crypto) : Machine Device AclAction := ⟨aclStep crypto⟩

/-- No setter that does not check the entry is given one for commissioning. -/
def AclAction.IsChecked (_ : Device) : AclAction → Prop
  | .app _ edit => edit.IsChecked
  | _ => True

variable {crypto : Crypto} {d d' : Device}

theorem ownAcl_aclEntries {fabIdx room : ℕ} {list : List AccessControlEntryStruct} {acl : List AclEntry}
    (h : aclEntries fabIdx room list = .ok acl) : ∀ e ∈ acl, e.IsOwn fabIdx := by
  induction list generalizing room acl with
  | nil =>
    rw [aclEntries] at h
    cases h
    nofun
  | cons entry rest ih =>
    cases room with
    | zero => cases h
    | succ room =>
      rw [aclEntries] at h
      obtain ⟨e, he, h⟩ := except_bind_eq_ok.mp h
      obtain ⟨es, hes, h⟩ := except_bind_eq_ok.mp h
      cases h
      intro e' he'
      rcases List.mem_cons.mp he' with rfl | he'
      · exact AclEntry.isOwn_initWith he
      · exact ih hes e' he'

theorem ownAcl_setAcl {fabIdx : ℕ} (value : AclWrite) : Maintains (Fabric.OwnAclAt fabIdx) (setAcl value) := by
  cases value with
  | replace list =>
    refine maintains_get_bind fun f hf => maintains_ofExcept_bind fun acl hacl => ?_
    exact maintains_modify fun g hg => ⟨hg.index, hf.index ▸ ownAcl_aclEntries hacl⟩
  | add entry =>
    refine maintains_get_bind fun f _ => Fabric.ownAcl_aclAddInit fun e he => ?_
    exact (AclEntry.isOwn_initWith he).authMode
  | update index entry =>
    refine maintains_get_bind fun f _ => Fabric.ownAcl_aclUpdateInit (fun e he => ?_) index
    exact (AclEntry.isOwn_initWith he).authMode
  | remove index => exact Fabric.ownAcl_aclRemove index

theorem ownAcl_of_keeps {α : Type} {m : Prog ErrorCode Fabric α}
    (h : Keeps (fun f : Fabric => (f.fabIdx, f.acl)) m) : Maintains Fabric.OwnAcl m :=
  Fabric.maintains_ownAcl fun _ => Fabric.ownAclAt_of_keeps h

/-- The peers cannot make an entry that is not one of their fabric. -/
theorem editsKeep_ownAcl : EditsKeep Fabric.OwnAcl where
  setAcl value := Fabric.maintains_ownAcl fun _ => ownAcl_setAcl value
  addGroup _ _ _ := ownAcl_of_keeps (keeps_addGroup (fun _ _ => rfl) _ _ _)
  removeGroup _ _ := ownAcl_of_keeps (Fabric.keeps_groupsMut (fun _ _ => rfl) _)
  setGroupKeyMap value := ownAcl_of_keeps (keeps_setGroupKeyMap (fun _ _ => rfl) value)
  keySetAdd _ := ownAcl_of_keeps (Fabric.keeps_groupsMut (fun _ _ => rfl) _)
  keySetRemove _ := ownAcl_of_keeps (Fabric.keeps_groupsMut (fun _ _ => rfl) _)
  setVid vendorId statement vvsc := by
    refine ownAcl_of_keeps (keeps_bind keeps_get fun _ => keeps_bind (keeps_ensure _ _) fun _ => ?_)
    exact Fabric.keeps_setVidVerification (fun _ _ _ _ _ => rfl) _ _ _

theorem ownAcl_addNoc {mode : SessionMode} {req : FailSafe.NocRequest} {s s' : FailSafeFabrics}
    {fabric : Fabric} (h : (FailSafe.addNoc crypto mode req).run s = (s', .ok fabric)) :
    fabric.OwnAcl := by
  obtain ⟨-, -, -, -, -, -, -, -, fabIdx, hupdate⟩ := FailSafe.addNoc_ok h
  have hown : Fabric.OwnAclAt fabIdx _ := Fabric.ownAcl_update crypto (some s.failsafe.rootCa) req.noc
    (req.icac.getD []) s.failsafe.secretKey (some req.ipk) (some req.vendorId)
    (some req.caseAdminSubject) (Fabric.init fabIdx) ⟨rfl, nofun⟩
  rw [hupdate] at hown
  intro e he
  rw [hown.index]
  exact hown.entries e he

theorem ownAcl_updateNoc (sess : StampedSession) (icac : Option (List UInt8)) (noc : List UInt8)
    (hd : d.AllFabrics Fabric.OwnAcl) :
    ((handleUpdateNoc crypto sess icac noc).run d).1.AllFabrics Fabric.OwnAcl := by
  have h : Maintains (AllFabrics Fabric.OwnAcl) (handleUpdateNoc crypto sess icac noc) := by
    refine allFabrics_withArmedFailsafe _ fun d hd => ⟨?_, hd.stored⟩
    have hmaintains : Maintains (fun s : FailSafeFabrics => ∀ f ∈ s.fabrics, f.OwnAcl)
        (FailSafe.updateNoc crypto sess.mode (icac.filter (!·.isEmpty)) noc) := by
      refine maintains_get_bind fun s _ => maintains_bind (maintains_ofExcept _) fun fabIdx => ?_
      have hupdate := allFabrics_fabricMut fabIdx (Fabric.maintains_ownAcl fun _ =>
        Fabric.ownAcl_update crypto none noc ((icac.filter (!·.isEmpty)).getD []) s.failsafe.secretKey
          none none none)
      exact maintains_bind (fun t ht => hupdate t.fabrics ht) fun _ => maintains_modify fun _ ht => ht
    exact hmaintains ⟨d.failsafe, d.fabrics⟩ hd.fabrics
  exact h d hd

theorem ownAcl_call {edit : AclEdit} (h : edit.IsChecked) (fabIdx : ℕ) :
    Maintains (Fabric.OwnAclAt fabIdx) edit.call := by
  cases edit with
  | add entry => exact Fabric.ownAcl_aclAdd entry
  | addInit entry => exact Fabric.ownAcl_aclAddInit h
  | update idx entry => exact Fabric.ownAcl_aclUpdate h idx
  | updateInit idx entry => exact Fabric.ownAcl_aclUpdateInit h idx
  | remove idx => exact Fabric.ownAcl_aclRemove idx
  | removeAll => exact Fabric.ownAcl_aclRemoveAll

/-- **One step.** -/
theorem ownAcl_step {a : AclAction} (hok : a.IsChecked d) (hd : d.AllFabrics Fabric.OwnAcl)
    (hstep : aclStep crypto d a = some d') : d'.AllFabrics Fabric.OwnAcl := by
  cases a with
  | node a =>
    refine allFabrics_step editsKeep_ownAcl ?_ ?_ ?_ hd hstep
    · exact fun label => ownAcl_of_keeps (Fabric.keeps_load (by intros; rfl) _ _ _)
    · intro mode req s s' fabric _ hrun
      exact ownAcl_addNoc hrun
    · intro id env icac noc sess _ _
      exact ownAcl_updateNoc sess icac noc hd
  | app fabIdx edit =>
    cases hstep
    refine allFabrics_onFabrics (allFabrics_fabricMut fabIdx ?_) d hd
    exact Fabric.maintains_ownAcl fun i => ownAcl_call hok i
  | store env fabIdx =>
    cases hstep
    refine maintains_whenSome (fun fabric hfabric => ?_) d hd
    exact allFabrics_storeFabric env (hd.fabrics fabric (mem_of_lookup hfabric))

/-- The fabrics never get an entry that is not their own, or one for commissioning. -/
theorem ownAcl_of_run {as : List AclAction}
    (hok : (aclMachine crypto).Meets AclAction.IsChecked factoryNew as)
    (hrun : (aclMachine crypto).run factoryNew as = some d) : d.AllFabrics Fabric.OwnAcl := by
  refine Machine.invariant_of_meets ?_ allFabrics_factoryNew hok hrun
  intro s a s' hok hs hstep
  exact ownAcl_step hok hs hstep

/-- **Isolation between fabrics.** -/
theorem acl_isolated (crypto : Crypto) :
    (∀ fs gs : Fabrics, ∀ req : AccessReq,
      req.accessor.authMode = some .case ∨ req.accessor.authMode = some .group →
      Fabrics.AgreeOn req.accessor.fabIdx fs gs → fs.allow req = gs.allow req) ∧
    (∀ (as : List AclAction) (d : Device),
      (aclMachine crypto).Meets AclAction.IsChecked factoryNew as →
      (aclMachine crypto).run factoryNew as = some d →
      (∀ f ∈ d.fabrics, ∀ e ∈ f.acl, e.fabIdx = some f.fabIdx ∧ e.authMode ≠ .pase) ∧
        ∀ i f, d.kv.fabrics i = some f → ∀ e ∈ f.acl, e.fabIdx = some f.fabIdx ∧ e.authMode ≠ .pase) ∧
    ∀ (fs : Fabrics) (fabIdx : ℕ) (adds : List (Prog ErrorCode Fabric Unit)) (req : AccessReq),
      (∀ m ∈ adds, Fabric.Adds m) → fs.allow req = true →
        (Fabrics.addAll fabIdx fs adds).allow req = true := by
  refine ⟨fun fs gs req _ h => Fabrics.allow_congr h, fun as d hok hrun => ?_, ?_⟩
  · have hown := ownAcl_of_run hok hrun
    refine ⟨fun f hf e he => ?_, fun i f hf e he => ?_⟩
    · exact ⟨(hown.fabrics f hf e he).fabIdx, (hown.fabrics f hf e he).authMode⟩
    · exact ⟨(hown.stored i f hf e he).fabIdx, (hown.stored i f hf e he).authMode⟩
  · intro fs fabIdx adds req hadds h
    exact Fabrics.allow_of_adds hadds h

/-- An entry for everyone, under an index of another fabric. -/
def Sample.entry (authMode : AuthMode) : AclEntry := .new (some 2) .view authMode

/-- A fabric is commissioned, and the application replaces its first entry. -/
def Sample.replaced (authMode : AuthMode) : List AclAction :=
  Sample.commissioned.map .node ++ [AclAction.app 1 (.update 0 (Sample.entry authMode))]

def Sample.entries (as : List AclAction) : Option (List (ℕ × List (Option ℕ × AuthMode))) :=
  ((aclMachine Sample.crypto).run factoryNew as).map fun d =>
    d.fabrics.map fun f => (f.fabIdx, f.acl.map fun e => (e.fabIdx, e.authMode))

/-- An entry for groups becomes one of the fabric. -/
theorem acl_isolated_replaced : Sample.entries (Sample.replaced .group) = some [(1, [(some 1, .group)])] ∧
    ∀ d, (aclMachine Sample.crypto).run factoryNew (Sample.replaced .group) = some d →
      ∀ f ∈ d.fabrics, ∀ e ∈ f.acl, e.fabIdx = some f.fabIdx ∧ e.authMode ≠ .pase := by
  refine ⟨by decide +kernel, fun d hrun => ?_⟩
  refine ((acl_isolated Sample.crypto).2.1 _ d (Machine.meets_of_forall fun a ha s => ?_) hrun).1
  rcases List.mem_append.mp ha with ha | ha
  · obtain ⟨a, -, rfl⟩ := List.mem_map.mp ha
    trivial
  · rw [List.mem_singleton.mp ha]
    exact fun h => AuthMode.noConfusion h

theorem acl_not_isolated : ∃ d, (aclMachine Sample.crypto).run factoryNew (Sample.replaced .pase) = some d ∧
    ∃ f ∈ d.fabrics, ∃ e ∈ f.acl, e.authMode = .pase := by
  have h : Sample.entries (Sample.replaced .pase) = some [(1, [(some 1, .pase)])] := by decide +kernel
  obtain ⟨d, hrun, h⟩ := Option.map_eq_some_iff.mp h
  obtain ⟨f, hf, hacl⟩ := List.mem_map.mp (h ▸ List.mem_singleton.mpr rfl)
  obtain ⟨e, he, hpase⟩ := List.mem_map.mp ((Prod.mk.inj hacl).2 ▸ List.mem_singleton.mpr rfl)
  exact ⟨d, hrun, f, hf, e, he, (Prod.mk.inj hpase).2⟩

end Device

end RsMatter
