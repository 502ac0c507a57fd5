import RsMatter.FabricEdits

/-!
# Memory and storage

A fabric that is changed is stored at once, unless the fail-safe is armed for it: then it is stored
when commissioning completes, or taken back to what is stored. So while the fail-safe is not armed,
the node would load the fabrics it has.

Not every command keeps to this. A label is never stored. A group that is full is given its new
name before the command finds that there is no room for the endpoint, and the mappings of a key set
are removed before the command finds that there is no such key set: neither is stored. And a change
that waits for commissioning to complete waits forever if another fabric is added in the meantime.
`Persists` excludes these.
-/

namespace RsMatter

namespace Device

open Prog

def Saved (d : Device) (i : ℕ) : Prop := Fabrics.get d.fabrics i = d.kv.fabrics i

/-- Every fabric is, but the one of the fail-safe. -/
def AllSaved (d : Device) : Prop := ∀ i, d.failsafe.isArmedFor i = false → d.Saved i

/-- A command changes the fabric of its session and does not have it stored. -/
def Forgets (d : Device) (env : Env) (fabric : Fabric) : Command → Prop
  -- labels are not stored, and one that is too long clears the one that is there
  | .updateFabricLabel label =>
    (if label.length ≤ maxLabelLen then label else []) ≠ fabric.label ∧
      ∀ other ∈ d.fabrics, other.fabIdx ≠ fabric.fabIdx → other.label = label → label = []
  -- the events are written first
  | .setAcl _ => ∃ e, env.respond = .error e
  -- the group has its new name, but is full
  | .addGroup endpointId groupId groupName =>
    ∃ group, fabric.groups.get groupId = some group ∧ endpointId ∉ group.endpoints ∧
      groupEndpointsPerFabric ≤ group.endpoints.length ∧ group.groupName ≠ groupName
  -- there is no such key set, but there are mappings to it
  | .keySetRemove id =>
    (∀ keySet ∈ fabric.groups.keySets, keySet.groupKeySetId ≠ id) ∧
      ∃ mapping ∈ fabric.groups.keyMap, mapping.groupKeySetId = id
  | _ => False

/-- **The condition.** -/
structure Persists (d : Device) (a : Action) : Prop where
  invoke : ∀ id env cmd, a = .invoke id env cmd → env.Works
  tick : ∀ env, a = .tick env → env.Works
  edits : ∀ id env cmd sess fabric, a = .invoke id env cmd → d.sessions.get id = some sess →
    Fabrics.get d.fabrics sess.getLocalFabricIdx = some fabric →
    d.failsafe.isArmedFor sess.getLocalFabricIdx = false → ¬ Forgets d env fabric cmd
  /-- no fabric is added while changes of another one wait for commissioning to complete -/
  adds : ∀ id env req fabIdx, a = .invoke id env (.addNoc req) →
    d.failsafe.isArmedFor fabIdx = true → d.Saved fabIdx

variable {crypto : Crypto} {d d' : Device} {env : Env} {sess : StampedSession} {fabIdx : ℕ}

/-! ## Edits -/

theorem AllSaved.congr (h : d.AllSaved) (hfab : d'.fabrics = d.fabrics)
    (hkv : d'.kv.fabrics = d.kv.fabrics)
    (harmed : ∀ i, d'.failsafe.isArmedFor i = false → d.failsafe.isArmedFor i = false) :
    d'.AllSaved := by
  intro i hi
  rw [Saved, hfab, hkv]
  exact h i (harmed i hi)

theorem isArmedFor_congr {fs fs' : FailSafe} (h : fs'.context = fs.context) (i : ℕ) :
    fs'.isArmedFor i = fs.isArmedFor i := by
  rw [Bool.eq_iff_iff]
  constructor
  · intro hi
    obtain ⟨added, hadded⟩ := FailSafe.context_of_isArmedFor hi
    exact FailSafe.isArmedFor_of_context (h ▸ hadded)
  · intro hi
    obtain ⟨added, hadded⟩ := FailSafe.context_of_isArmedFor hi
    exact FailSafe.isArmedFor_of_context (h.trans hadded)

theorem AllSaved.edit (h : d.AllSaved) {fabric fabric' : Fabric}
    (hget : Fabrics.get d.fabrics fabIdx = some fabric) (hidx : fabric'.fabIdx = fabIdx)
    (hfab : d'.fabrics = replaceKey Fabric.fabIdx d.fabrics fabIdx fabric')
    (hkv : d'.kv.fabrics = d.kv.fabrics) (hctx : d'.failsafe.context = d.failsafe.context)
    (hsame : d.failsafe.isArmedFor fabIdx = false → fabric' = fabric) : d'.AllSaved := by
  intro i hi
  rw [isArmedFor_congr hctx] at hi
  rw [Saved, hfab, hkv]
  by_cases hif : i = fabIdx
  · subst hif
    have hne : Fabrics.get d.fabrics i ≠ none := by
      rw [hget]
      exact Option.some_ne_none _
    rw [← h i hi, hget, ← hsame hi]
    exact lookup_replaceKey_self hidx hne
  · rw [← h i hi]
    exact lookup_replaceKey_ne hidx hif

theorem AllSaved.store (h : d.AllSaved) {fabric' : Fabric}
    (hget : Fabrics.get d.fabrics fabIdx ≠ none) (hidx : fabric'.fabIdx = fabIdx)
    (hfab : d'.fabrics = replaceKey Fabric.fabIdx d.fabrics fabIdx fabric')
    (hkv : d'.kv.fabrics = Function.update d.kv.fabrics fabIdx (some fabric'))
    (hfs : d'.failsafe = d.failsafe) : d'.AllSaved := by
  intro i hi
  rw [hfs] at hi
  rw [Saved, hfab, hkv]
  by_cases hif : i = fabIdx
  · subst hif
    rw [Function.update_self]
    exact lookup_replaceKey_self hidx hget
  · rw [Function.update_of_ne hif, ← h i hi]
    exact lookup_replaceKey_ne hidx hif

def StoresOrKeeps (edit : Prog ErrorCode Fabric (Bool × Reply)) (f : Fabric) : Prop :=
  (edit.run f).1 = f ∨ ∃ reply, (edit.run f).2 = .ok (true, reply)

theorem run_storeGet (hworks : env.Works) {c : Prop} [Decidable c] (hc : c) {fabric : Fabric}
    (hget : Fabrics.get d.fabrics fabIdx = some fabric) :
    (onlyIf c (whenSome (Fabrics.get d.fabrics fabIdx) (storeFabric env))).run d =
      ({ d with kv.fabrics := Function.update d.kv.fabrics fabIdx (some fabric) }, .ok ()) := by
  obtain rfl := Fabrics.fabIdx_of_get hget
  rw [onlyIf, if_pos hc, hget, whenSome, storeFabric,
    run_bind_of_ok (run_ensure_of_pos (hworks _) _ _), run_modify]

/-- **Edits.** One that is not stored changes nothing. -/
theorem saved_editFabric (hd : d.AllSaved) (hworks : env.Works)
    {edit : Prog ErrorCode Fabric (Bool × Reply)} (hkeep : Keeps Fabric.fabIdx edit)
    (h : d.failsafe.isArmedFor fabIdx = false → ∀ fabric, Fabrics.get d.fabrics fabIdx = some fabric →
      StoresOrKeeps edit fabric) :
    ((editFabric env fabIdx edit).run d).1.AllSaved := by
  rw [editFabric]
  rcases hrun : (Fabrics.fabricMut fabIdx edit).run d.fabrics with ⟨fabrics, r⟩
  rcases Fabrics.fabricMut_cases hkeep hrun with
    ⟨-, rfl, rfl⟩ | ⟨fabric, fabric', hget, hedit, hidx, rfl⟩
  · rw [run_bind_of_error (run_onFabrics hrun)]
    exact hd
  have hne : Fabrics.get d.fabrics fabIdx ≠ none := by
    rw [hget]
    exact Option.some_ne_none _
  have hget' : Fabrics.get (replaceKey Fabric.fabIdx d.fabrics fabIdx fabric') fabIdx = some fabric' :=
    lookup_replaceKey_self hidx hne
  cases r with
  | error e =>
    rw [run_bind_of_error (run_onFabrics hrun)]
    refine hd.edit hget hidx rfl rfl rfl fun harmed => ?_
    rcases h harmed fabric hget with hsame | ⟨reply, hok⟩
    · rwa [hedit] at hsame
    · rw [hedit] at hok
      cases hok
  | ok result =>
    rw [run_bind_of_ok (run_onFabrics hrun), run_bind_of_ok (run_get _)]
    by_cases hc : result.1 = true ∧ d.failsafe.isArmedFor fabIdx = false
    · rw [run_bind_of_ok (run_storeGet hworks hc hget'), run_pure]
      exact hd.store hne hidx rfl rfl rfl
    · rw [onlyIf, if_neg hc, run_bind_of_ok (run_pure _ _), run_pure]
      refine hd.edit hget hidx rfl rfl rfl fun harmed => ?_
      rcases h harmed fabric hget with hsame | ⟨reply, hok⟩
      · rwa [hedit] at hsame
      · rw [hedit] at hok
        cases hok
        exact absurd ⟨rfl, harmed⟩ hc

theorem saved_fabricScoped (hd : d.AllSaved) {k : ℕ → Prog ErrorCode Device Reply}
    (h : ((k sess.getLocalFabricIdx).run d).1.AllSaved) :
    ((accessorFabIdx sess >>= k).run d).1.AllSaved := by
  have hacc := run_accessorFabIdx sess d
  split_ifs at hacc with h0
  · rwa [run_bind_of_ok hacc]
  · rwa [run_bind_of_error hacc]

/-! ## Groups -/

variable {f : Fabric}

theorem storesOrKeeps_bind {α : Type} {m : Prog ErrorCode Fabric α}
    {k : α → Prog ErrorCode Fabric (Bool × Reply)}
    (herr : ∀ e t, m.run f = (t, .error e) → t = f)
    (hok : ∀ a t, m.run f = (t, .ok a) → ∃ reply, ((k a).run t).2 = .ok (true, reply)) :
    StoresOrKeeps (m >>= k) f := by
  rcases hm : m.run f with ⟨t, e | a⟩
  · refine .inl ?_
    rw [run_bind_of_error hm]
    exact herr e t hm
  · refine .inr ?_
    rw [run_bind_of_ok hm]
    exact hok a t hm

theorem storesOrKeeps_of_atomic {α : Type} {m : Prog ErrorCode Fabric α} (hm : Atomic m)
    (reply : Reply) (f : Fabric) : StoresOrKeeps (m >>= fun _ => pure (true, reply)) f := by
  refine storesOrKeeps_bind (fun e t h => ?_) fun _ _ _ => ⟨reply, rfl⟩
  have hatomic := hm f e
  rw [h] at hatomic
  exact hatomic rfl

theorem atomic_groupsMut {α : Type} {m : Prog ErrorCode Groups α} (h : Atomic m) :
    Atomic (Fabric.groupsMut m) := by
  intro f e he
  show { f with groups := (m.run f.groups).1 } = f
  rw [h f.groups e he]

theorem atomic_setAcl (value : AclWrite) : Atomic (setAcl value) := by
  cases value with
  | replace list => exact atomic_bind keeps_get fun _ => atomic_bind (keeps_ofExcept _) fun _ => atomic_modify _
  | add entry =>
    refine atomic_bind keeps_get fun _ => atomic_bind keeps_get fun _ => ?_
    exact atomic_bind (keeps_ensure _ _) fun _ => atomic_bind (keeps_ofExcept _) fun _ => atomic_modify _
  | update index entry =>
    refine atomic_bind keeps_get fun _ => atomic_bind keeps_get fun _ => ?_
    exact atomic_bind (keeps_ensure _ _) fun _ => atomic_bind (keeps_ofExcept _) fun _ => atomic_modify _
  | remove index =>
    exact atomic_bind keeps_get fun _ => atomic_bind (keeps_ensure _ _) fun _ => atomic_modify _

theorem atomic_keySetAdd (entry : GroupKeySet) : Atomic (Groups.keySetAdd entry) := by
  refine atomic_bind keeps_get fun gs => ?_
  split
  · exact atomic_modify _
  · exact atomic_bind (keeps_ensure _ _) fun _ => atomic_modify _

/-- A key set is removed together with its mappings, or there is no such key set. -/
theorem keySetRemove_error {id : BitVec 16} {gs gs' : Groups} {e : ErrorCode}
    (h : (Groups.keySetRemove id).run gs = (gs', .error e)) :
    (∀ keySet ∈ gs.keySets, keySet.groupKeySetId ≠ id) ∧
      gs' = { gs with keyMap := gs.keyMap.filter (·.groupKeySetId != id) } := by
  rw [Groups.keySetRemove, run_bind_of_ok (run_get gs), run_bind_of_ok (run_modify _ _)] at h
  by_cases hlen : (gs.keySets.filter (·.groupKeySetId != id)).length < gs.keySets.length
  · rw [run_ensure_of_pos hlen] at h
    cases h
  · rw [run_ensure_of_neg hlen] at h
    obtain ⟨rfl, -⟩ := Prod.mk.inj h
    have hall : gs.keySets.filter (·.groupKeySetId != id) = gs.keySets :=
      List.filter_sublist.eq_of_length_le (Nat.le_of_not_lt hlen)
    refine ⟨fun keySet hmem => ?_, by rw [hall]⟩
    simpa using List.filter_eq_self.mp hall keySet hmem

theorem length_of_checkGroupKeyMap {room : ℕ} {list : List GroupKeyMapping}
    (h : checkGroupKeyMap room list = .ok ()) : list.length ≤ room := by
  induction list generalizing room with
  | nil => exact Nat.zero_le _
  | cons entry rest ih =>
    cases room with
    | zero => cases h
    | succ room =>
      rw [checkGroupKeyMap] at h
      split_ifs at h
      exact Nat.succ_le_succ (ih h)

/-- A write to the group key map fails before it changes anything. -/
theorem atomic_setGroupKeyMap (value : GroupKeyMapWrite) : Atomic (setGroupKeyMap value) := by
  cases value with
  | replace list =>
    cases hchk : checkGroupKeyMap maxGroupKeysPerFabric list with
    | error e =>
      intro f e' _
      rw [setGroupKeyMap, hchk, run_bind_of_error (run_ofExcept _ _)]
    | ok _ =>
      -- there is more room for mappings than for key sets
      have hlen : list.length ≤ maxGroupsPerFabric :=
        (length_of_checkGroupKeyMap hchk).trans (by decide)
      intro f e he
      rw [setGroupKeyMap, hchk, run_bind_of_ok (run_ofExcept _ _)] at he
      have hok : (Groups.keyMapReplace list).run f.groups =
          ({ f.groups with keyMap := list.take maxGroupsPerFabric }, .ok ()) := by
        rw [Groups.keyMapReplace, run_bind_of_ok (run_modify _ _), run_ensure_of_pos hlen]
      rw [Fabric.groupsMut, run_zoom _ f hok] at he
      cases he
  | add entry =>
    refine atomic_bind (keeps_ensure _ _) fun _ => atomic_groupsMut ?_
    exact atomic_bind keeps_get fun _ => atomic_bind (keeps_ensure _ _) fun _ => atomic_modify _
  | other => exact fun _ _ _ => rfl

def Populated (gs : Groups) : Prop := ∀ group ∈ gs.endpointMapping, group.endpoints ≠ []

variable {gs : Groups}

theorem populated_updateEntry (h : Populated gs) (groupId : BitVec 16)
    {f : GroupEndpointMapping → GroupEndpointMapping}
    (hf : ∀ group, group.endpoints ≠ [] → (f group).endpoints ≠ []) :
    Populated (gs.updateEntry groupId f) := by
  intro group hgroup
  rw [Groups.updateEntry] at hgroup
  dsimp only at hgroup
  cases hmod : modifyFirst (·.groupId == groupId) f gs.endpointMapping with
  | none =>
    rw [hmod] at hgroup
    exact h group hgroup
  | some l =>
    rw [hmod, Option.getD_some] at hgroup
    obtain ⟨a, x, b, hl, -, rfl⟩ := modifyFirst_eq_some hmod
    have hmem : ∀ y ∈ a ++ x :: b, y.endpoints ≠ [] := hl ▸ h
    rcases List.mem_append.mp hgroup with hy | hy
    · exact hmem group (List.mem_append_left _ hy)
    · rcases List.mem_cons.mp hy with rfl | hy
      · exact hf x (hmem x (List.mem_append_right _ List.mem_cons_self))
      · exact hmem group (List.mem_append_right _ (List.mem_cons_of_mem _ hy))

theorem updateEntry_append (group : GroupEndpointMapping)
    (hget : gs.get group.groupId = none) (f : GroupEndpointMapping → GroupEndpointMapping) :
    Groups.updateEntry group.groupId f { gs with endpointMapping := gs.endpointMapping ++ [group] } =
      { gs with endpointMapping := gs.endpointMapping ++ [f group] } := by
  have hmod : modifyFirst (·.groupId == group.groupId) f (gs.endpointMapping ++ [group]) =
      some (gs.endpointMapping ++ [f group]) := by
    refine modifyFirst_append_singleton (fun other hother => ?_) (beq_self_eq_true _)
    exact Bool.eq_false_iff.mpr (List.find?_eq_none.mp hget other hother)
  rw [Groups.updateEntry]
  dsimp only
  rw [hmod]
  rfl

variable {groupId : BitVec 16}

/-- An endpoint is added to a new group, or there is no room for one. -/
theorem run_add_of_none (hget : gs.get groupId = none)
    (endpointId : EndptId) (groupName : String) :
    (Groups.add endpointId groupId groupName).run gs =
      if gs.endpointMapping.length < maxGroupsPerFabric then
        ({ gs with endpointMapping := gs.endpointMapping ++ [⟨groupId, [endpointId], groupName⟩] },
          .ok false)
      else (gs, .error .resourceExhausted) := by
  have hnone : (gs.get groupId).isNone = true := by
    rw [hget]
    rfl
  rw [Groups.add, run_bind_of_ok (run_get gs), onlyIf, if_pos hnone]
  by_cases hroom : gs.endpointMapping.length < maxGroupsPerFabric
  · rw [if_pos hroom, run_bind_of_ok (t := { gs with
      endpointMapping := gs.endpointMapping ++ [⟨groupId, [], groupName⟩] }) (a := ())
      (by rw [run_bind_of_ok (run_ensure_of_pos hroom _ _), run_modify]), run_bind_of_ok (run_modify _ _)]
    rw [updateEntry_append ⟨groupId, [], groupName⟩ hget, hget]
    have hlen : ([] : List EndptId).length < groupEndpointsPerFabric := by decide
    have hrest := run_bind_of_ok (k := fun _ => do
      modify (Groups.updateEntry groupId fun e => { e with endpoints := e.endpoints ++ [endpointId] })
      return false) (run_ensure_of_pos (ε := ErrorCode) hlen .resourceExhausted
        { gs with endpointMapping := gs.endpointMapping ++ [⟨groupId, [], groupName⟩] })
    refine hrest.trans ?_
    rw [run_bind_of_ok (run_modify _ _), run_pure,
      updateEntry_append ⟨groupId, [], groupName⟩ hget]
    rfl
  · rw [if_neg hroom, run_bind_of_error (run_bind_of_error (run_ensure_of_neg hroom _ _))]

/-- An endpoint is added to a group, which gets the name even if there is no room. -/
theorem run_add_of_some {group : GroupEndpointMapping}
    (hget : gs.get groupId = some group) (endpointId : EndptId) (groupName : String) :
    (Groups.add endpointId groupId groupName).run gs =
      if group.endpoints.contains endpointId then
        (gs.updateEntry groupId ({ · with groupName }), .ok true)
      else if group.endpoints.length < groupEndpointsPerFabric then
        ((gs.updateEntry groupId ({ · with groupName })).updateEntry groupId
          fun e => { e with endpoints := e.endpoints ++ [endpointId] }, .ok false)
      else (gs.updateEntry groupId ({ · with groupName }), .error .resourceExhausted) := by
  have hsome : ¬ (gs.get groupId).isNone = true := by
    rw [hget]
    exact Bool.false_ne_true
  have hendpoints : ((gs.get groupId).map (·.endpoints)).getD [] = group.endpoints := by
    rw [hget]
    rfl
  rw [Groups.add, run_bind_of_ok (run_get gs), onlyIf, if_neg hsome, run_bind_of_ok (run_pure _ _),
    run_bind_of_ok (run_modify _ _), hendpoints]
  dsimp only
  split_ifs with hin hlen
  · rfl
  · rw [run_bind_of_ok (run_ensure_of_pos hlen _ _), run_bind_of_ok (run_modify _ _), run_pure]
  · rw [run_bind_of_error (run_ensure_of_neg hlen _ _)]

theorem populated_add (h : Populated gs) (endpointId : EndptId) (groupId : BitVec 16)
    (groupName : String) : Populated ((Groups.add endpointId groupId groupName).run gs).1 := by
  cases hget : gs.get groupId with
  | none =>
    rw [run_add_of_none hget]
    split_ifs
    · intro group hgroup
      rcases List.mem_append.mp hgroup with hgroup | hgroup
      · exact h group hgroup
      · rw [List.mem_singleton.mp hgroup]
        exact List.cons_ne_nil _ _
    · exact h
  | some group =>
    have hname := populated_updateEntry h groupId (f := ({ · with groupName })) fun _ hne => hne
    rw [run_add_of_some hget]
    split_ifs
    · exact hname
    · refine populated_updateEntry hname groupId fun e _ => ?_
      exact List.append_ne_nil_of_right_ne_nil _ (List.cons_ne_nil _ _)
    · exact hname

theorem populated_remove (gs : Groups) (endpointId : EndptId) (groupId : Option (BitVec 16)) :
    Populated ((Groups.remove endpointId groupId).run gs).1 := by
  rw [Groups.remove, run_bind_of_ok (run_get gs), run_bind_of_ok (run_modify _ _), run_pure]
  intro group hgroup
  obtain ⟨-, hne⟩ := List.mem_filter.mp hgroup
  rintro hnil
  rw [hnil] at hne
  cases hne

variable {endpointId : EndptId}

theorem run_remove_of_false (h : Populated gs)
    {groupId : Option (BitVec 16)}
    (hfalse : (gs.endpointMapping.any fun e =>
      Groups.isFor groupId e && e.endpoints.contains endpointId) = false) :
    (Groups.remove endpointId groupId).run gs = (gs, .ok false) := by
  rw [Groups.remove, run_bind_of_ok (run_get gs), run_bind_of_ok (run_modify _ _), run_pure, hfalse]
  have hmap : (gs.endpointMapping.map fun e =>
      if Groups.isFor groupId e then { e with endpoints := e.endpoints.filter (· != endpointId) } else e) =
      gs.endpointMapping := by
    refine (List.map_congr_left fun e he => ?_).trans (List.map_id _)
    split_ifs with hfor
    · have hnot := List.any_eq_false.mp hfalse e he
      rw [hfor, Bool.true_and] at hnot
      have hfilter : e.endpoints.filter (· != endpointId) = e.endpoints := by
        refine List.filter_eq_self.mpr fun x hx => bne_iff_ne.mpr ?_
        rintro rfl
        exact hnot (List.contains_iff_mem.mpr hx)
      rw [hfilter]
      rfl
    · rfl
  rw [hmap]
  have hfilter : (gs.endpointMapping.filter fun e => !e.endpoints.isEmpty) = gs.endpointMapping := by
    refine List.filter_eq_self.mpr fun e he => ?_
    rw [Bool.not_eq_true', List.isEmpty_eq_false_iff]
    exact h e he
  rw [hfilter]

/-- There is no room for an endpoint: only the name of a group may have changed. -/
theorem add_error {gs gs' : Groups} {groupName : String}
    {e : ErrorCode} (h : (Groups.add endpointId groupId groupName).run gs = (gs', .error e)) :
    gs' = gs ∨ ∃ group, gs.get groupId = some group ∧ endpointId ∉ group.endpoints ∧
      groupEndpointsPerFabric ≤ group.endpoints.length ∧ group.groupName ≠ groupName := by
  cases hget : gs.get groupId with
  | none =>
    rw [run_add_of_none hget] at h
    split_ifs at h
    · cases h
    · exact .inl (Prod.mk.inj h).1.symm
  | some group =>
    rw [run_add_of_some hget] at h
    split_ifs at h with hin hlen
    · cases h
    · cases h
    · obtain ⟨rfl, -⟩ := Prod.mk.inj h
      by_cases hname : group.groupName = groupName
      · refine .inl ?_
        have hmod : modifyFirst (·.groupId == groupId)
            (fun x : GroupEndpointMapping => { x with groupName }) gs.endpointMapping =
            some gs.endpointMapping := by
          refine modifyFirst_eq_self hget ?_
          rw [← hname]
        rw [Groups.updateEntry, hmod]
        rfl
      · refine .inr ⟨group, rfl, fun hmem => hin ?_, Nat.le_of_not_lt hlen, hname⟩
        exact List.contains_iff_mem.mpr hmem

/-! ## The edits of the commands -/

theorem storesOrKeeps_addGroup
    {groupName : String} (h : ¬ Forgets d env f (.addGroup endpointId groupId groupName)) :
    StoresOrKeeps (addGroup endpointId groupId groupName) f := by
  by_cases hkey : f.groups.keyMap.any (·.groupId == groupId) = true
  · rw [StoresOrKeeps, addGroup, run_bind_of_ok (run_get f), if_pos hkey]
    rcases hadd : (Groups.add endpointId groupId groupName).run f.groups with ⟨gs, e | b⟩
    · have hzoom : (Fabric.groupsMut (Groups.add endpointId groupId groupName)).run f =
          ({ f with groups := gs }, .error e) := run_zoom _ f hadd
      obtain rfl : gs = f.groups := (add_error hadd).resolve_right h
      refine .inl ?_
      rw [run_catching_of_error (run_bind_of_error hzoom)]
      split
      · rfl
      · rfl
    · have hzoom : (Fabric.groupsMut (Groups.add endpointId groupId groupName)).run f =
          ({ f with groups := gs }, .ok b) := run_zoom _ f hadd
      have hinner : (do
          let _ ← Fabric.groupsMut (Groups.add endpointId groupId groupName)
          return (true, .group .success) : Prog ErrorCode Fabric (Bool × Reply)).run f =
          ({ f with groups := gs }, .ok (true, .group .success)) := by
        rw [run_bind_of_ok hzoom, run_pure]
      refine .inr ⟨.group .success, ?_⟩
      rw [run_catching_of_ok hinner]
  · refine .inl ?_
    rw [addGroup, run_bind_of_ok (run_get f), if_neg hkey, run_pure]

theorem storesOrKeeps_removeGroup (hpop : Populated f.groups) (endpointId : EndptId)
    (groupId : BitVec 16) :
    StoresOrKeeps (do
      let removed ← Fabric.groupsMut (Groups.remove endpointId (some groupId))
      return (removed, .group (if removed then .success else .notFound))) f := by
  cases hany : f.groups.endpointMapping.any fun e =>
      Groups.isFor (some groupId) e && e.endpoints.contains endpointId with
  | false =>
    refine .inl ?_
    have hzoom := run_zoom (fun f groups => { f with groups }) f (run_remove_of_false hpop hany)
    rw [Fabric.groupsMut, run_bind_of_ok hzoom, run_pure]
  | true =>
    refine .inr ⟨.group .success, ?_⟩
    have hrun : ((Groups.remove endpointId (some groupId)).run f.groups).2 = .ok true := by
      rw [Groups.remove, run_bind_of_ok (run_get _), run_bind_of_ok (run_modify _ _), run_pure, hany]
    rcases hrem : (Groups.remove endpointId (some groupId)).run f.groups with ⟨gs, r⟩
    rw [hrem] at hrun
    cases hrun
    have hzoom := run_zoom (fun f groups => { f with groups }) f hrem
    rw [Fabric.groupsMut, run_bind_of_ok hzoom, run_pure]
    rfl

theorem storesOrKeeps_removeAllGroups (f : Fabric) (endpointId : EndptId) :
    StoresOrKeeps (do
      let _ ← Fabric.groupsMut (Groups.remove endpointId none)
      return (true, .done)) f := by
  refine storesOrKeeps_of_atomic (atomic_groupsMut ?_) .done f
  exact atomic_bind keeps_get fun _ => nofun

theorem storesOrKeeps_setAcl {value : AclWrite} (h : ¬ Forgets d env f (.setAcl value)) :
    StoresOrKeeps (do
      setAcl value
      ofExcept env.respond
      return (true, .done)) f := by
  refine storesOrKeeps_bind (fun e t hrun => ?_) fun _ t _ => ⟨.done, ?_⟩
  · have hatomic := atomic_setAcl value f e
    rw [hrun] at hatomic
    exact hatomic rfl
  · cases hresp : env.respond with
    | error e => exact absurd ⟨e, hresp⟩ h
    | ok _ => rfl

theorem storesOrKeeps_keySetRemove {id : BitVec 16}
    (h : ¬ Forgets d env f (.keySetRemove id)) :
    StoresOrKeeps (do
      Fabric.groupsMut (Groups.keySetRemove id)
      return (true, .done)) f := by
  refine storesOrKeeps_bind (fun e t hrun => ?_) fun _ _ _ => ⟨.done, rfl⟩
  rcases hrem : (Groups.keySetRemove id).run f.groups with ⟨gs, r⟩
  rw [Fabric.groupsMut, run_zoom _ f hrem] at hrun
  obtain ⟨rfl, rfl⟩ := Prod.mk.inj hrun
  obtain ⟨hsets, rfl⟩ := keySetRemove_error hrem
  -- there is no key set, so there are no mappings either
  have hmap : f.groups.keyMap.filter (·.groupKeySetId != id) = f.groups.keyMap := by
    refine List.filter_eq_self.mpr fun mapping hmapping => bne_iff_ne.mpr fun hid => h ⟨hsets, ?_⟩
    exact ⟨mapping, hmapping, hid⟩
  rw [hmap]

end Device

end RsMatter
