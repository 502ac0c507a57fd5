import RsMatter.Panic
import RsMatter.Persistence
import Mathlib.Data.List.Nodup

/-!
# Group tables of any size (`fabric.rs`, `Groups`)

How many groups, endpoints of a group and group keys there is room for is a matter of the build. The
operations are given with these sizes and with the panics of their unwraps. A group is entered
without an endpoint before it gets its first one, so that a build with groups, but without room for
their endpoints, is left with an empty group.
-/

namespace RsMatter

structure GroupSizes where
  /-- the number of key sets, `MAX_GROUP_KEYS_PER_FABRIC` -/
  keys : ℕ
  /-- the number of groups, `MAX_GROUPS_PER_FABRIC` -/
  groups : ℕ
  /-- the number of endpoints of a group, `GROUP_ENDPOINTS_PER_FABRIC` -/
  endpoints : ℕ

/-- The sizes that the other modules have in mind. -/
def GroupSizes.usual : GroupSizes := ⟨maxGroupKeysPerFabric, maxGroupsPerFabric, groupEndpointsPerFabric⟩

namespace GroupSizes

open Prog Stop

variable (sizes : GroupSizes)

def calm {α : Type} (m : Prog ErrorCode Groups α) : Prog (Stop ErrorCode) Groups α := fun gs =>
  ((m.run gs).1, lift (m.run gs).2)

/-! ## The operations -/

/-- Add a key set, or replace the one with its id. -/
def keySetAdd (entry : GroupKeySet) : Prog (Stop ErrorCode) Groups Unit := do
  let gs ← Prog.get
  match modifyFirst (fun e => e.groupKeySetId == entry.groupKeySetId) (fun _ => entry) gs.keySets with
  | some keySets => Prog.modify ({ · with keySets })
  | none =>
    Prog.ensure (gs.keySets.length < sizes.keys) (.error .resourceExhausted)
    Prog.modify fun gs => { gs with keySets := gs.keySets ++ [entry] }

/-- Remove a key set, and the mappings that use it. -/
def keySetRemove (id : BitVec 16) : Prog (Stop ErrorCode) Groups Unit :=
  calm (Groups.keySetRemove id)

def keyMapAdd (entry : GroupKeyMapping) : Prog (Stop ErrorCode) Groups Unit := do
  let gs ← Prog.get
  Prog.ensure (gs.keyMap.length < sizes.groups) (.error .failure)
  Prog.modify fun gs => { gs with keyMap := gs.keyMap ++ [entry] }

/-- Replace all mappings. Where there are too many, the first of them stay. -/
def keyMapReplace (entries : List GroupKeyMapping) : Prog (Stop ErrorCode) Groups Unit := do
  Prog.modify ({ · with keyMap := entries.take sizes.groups })
  Prog.ensure (entries.length ≤ sizes.groups) (.error .resourceExhausted)

/-- Add an endpoint to a group: `true` if it was in the group. The unwraps are about the room for the
name and the entry that has just been pushed. -/
def add (endpointId : EndptId) (groupId : BitVec 16) (groupName : String) :
    Prog (Stop ErrorCode) Groups Bool := do
  let gs ← Prog.get
  Prog.onlyIf (gs.get groupId).isNone do
    Prog.ensure (groupName.utf8ByteSize ≤ maxGroupNameLen) .panic
    Prog.ensure (gs.endpointMapping.length < sizes.groups) (.error .resourceExhausted)
    Prog.modify fun gs =>
      { gs with endpointMapping := gs.endpointMapping ++ [⟨groupId, [], groupName⟩] }
    let gs ← Prog.get
    Prog.ensure (gs.endpointMapping.getLast?.isSome = true) .panic
  Prog.ensure (groupName.utf8ByteSize ≤ maxGroupNameLen) .panic
  Prog.modify (Groups.updateEntry groupId ({ · with groupName }))
  let endpoints := ((gs.get groupId).map (·.endpoints)).getD []
  if endpoints.contains endpointId then
    return true
  else
    Prog.ensure (endpoints.length < sizes.endpoints) (.error .resourceExhausted)
    Prog.modify (Groups.updateEntry groupId fun e => { e with endpoints := e.endpoints ++ [endpointId] })
    return false

/-- Remove an endpoint from a group, or from all of them. -/
def remove (endpointId : EndptId) (groupId : Option (BitVec 16)) : Prog (Stop ErrorCode) Groups Bool :=
  calm (Groups.remove endpointId groupId)

/-! ## Runs -/

end GroupSizes

/-- What can be done with the groups of a fabric. -/
inductive GroupCall where
  | add (endpointId : EndptId) (groupId : BitVec 16) (groupName : String)
  /-- remove an endpoint from a group, or from all -/
  | remove (endpointId : EndptId) (groupId : Option (BitVec 16))
  | keySetAdd (entry : GroupKeySet)
  | keySetRemove (id : BitVec 16)
  | keyMapAdd (entry : GroupKeyMapping)
  | keyMapReplace (entries : List GroupKeyMapping)

namespace GroupCall

def prog (sizes : GroupSizes) : GroupCall → Prog (Stop ErrorCode) Groups Unit
  | .add endpointId groupId groupName => do
    let _ ← sizes.add endpointId groupId groupName
    return ()
  | .remove endpointId groupId => do
    let _ ← GroupSizes.remove endpointId groupId
    return ()
  | .keySetAdd entry => sizes.keySetAdd entry
  | .keySetRemove id => GroupSizes.keySetRemove id
  | .keyMapAdd entry => sizes.keyMapAdd entry
  | .keyMapReplace entries => sizes.keyMapReplace entries

def Named : GroupCall → Prop
  | .add _ _ groupName => groupName.utf8ByteSize ≤ maxGroupNameLen
  | _ => True

/-- The groups after calls, whether or not these succeed. -/
def after (sizes : GroupSizes) (calls : List GroupCall) : Groups :=
  calls.foldl (fun gs c => ((c.prog sizes).run gs).1) .init

end GroupCall

namespace GroupSizes

open Prog Stop

variable {sizes : GroupSizes} {gs : Groups}

structure Tidy (gs : Groups) : Prop where
  groups : (gs.endpointMapping.map (·.groupId)).Nodup
  populated : ∀ e ∈ gs.endpointMapping, e.endpoints ≠ []
  endpoints : ∀ e ∈ gs.endpointMapping, e.endpoints.Nodup
  keySets : (gs.keySets.map (·.groupKeySetId)).Nodup

theorem tidy_init : Tidy .init where
  groups := List.nodup_nil
  populated _ h := absurd h List.not_mem_nil
  endpoints _ h := absurd h List.not_mem_nil
  keySets := List.nodup_nil

/-! ### Adding an endpoint -/

variable {groupId : BitVec 16} {groupName : String}

theorem run_add_of_none (hget : gs.get groupId = none) (endpointId : EndptId)
    (hname : groupName.utf8ByteSize ≤ maxGroupNameLen) :
    (sizes.add endpointId groupId groupName).run gs =
      if gs.endpointMapping.length < sizes.groups then
        if 0 < sizes.endpoints then
          ({ gs with endpointMapping := gs.endpointMapping ++ [⟨groupId, [endpointId], groupName⟩] },
            .ok false)
        else
          ({ gs with endpointMapping := gs.endpointMapping ++ [⟨groupId, [], groupName⟩] },
            .error (.error .resourceExhausted))
      else (gs, .error (.error .resourceExhausted)) := by
  have hnone : (gs.get groupId).isNone = true := by
    rw [hget]
    rfl
  rw [add, run_bind_of_ok (run_get gs), onlyIf, if_pos hnone]
  by_cases hroom : gs.endpointMapping.length < sizes.groups
  · have hlast : (gs.endpointMapping ++ [(⟨groupId, [], groupName⟩ : GroupEndpointMapping)]).getLast?.isSome =
        true := by
      rw [List.getLast?_concat]
      rfl
    rw [if_pos hroom, run_bind_of_ok (t := { gs with
      endpointMapping := gs.endpointMapping ++ [⟨groupId, [], groupName⟩] }) (a := ())
      (by
        rw [run_bind_of_ok (run_ensure_of_pos hname _ _), run_bind_of_ok (run_ensure_of_pos hroom _ _),
          run_bind_of_ok (run_modify _ _), run_bind_of_ok (run_get _), run_ensure_of_pos hlast]),
      run_bind_of_ok (run_ensure_of_pos hname _ _), run_bind_of_ok (run_modify _ _),
      Device.updateEntry_append ⟨groupId, [], groupName⟩ hget, hget]
    have hnotin : ¬ (((none : Option GroupEndpointMapping).map (·.endpoints)).getD []).contains endpointId =
        true := by
      simp
    dsimp only
    rw [if_neg hnotin]
    by_cases hpos : 0 < sizes.endpoints
    · have hlen : (((none : Option GroupEndpointMapping).map (·.endpoints)).getD []).length <
          sizes.endpoints := hpos
      rw [if_pos hpos, run_bind_of_ok (run_ensure_of_pos hlen _ _), run_bind_of_ok (run_modify _ _),
        run_pure, Device.updateEntry_append ⟨groupId, [], groupName⟩ hget]
      rfl
    · have hlen : ¬ (((none : Option GroupEndpointMapping).map (·.endpoints)).getD []).length <
          sizes.endpoints := hpos
      rw [if_neg hpos, run_bind_of_error (run_ensure_of_neg hlen _ _)]
  · have hfull := run_bind_of_error (k := fun _ : Unit => (do
        Prog.modify fun gs : Groups =>
          { gs with endpointMapping := gs.endpointMapping ++ [⟨groupId, [], groupName⟩] }
        let gs ← Prog.get
        Prog.ensure (gs.endpointMapping.getLast?.isSome = true) .panic : Prog (Stop ErrorCode) Groups Unit))
      (run_ensure_of_neg hroom (.error .resourceExhausted) gs)
    rw [if_neg hroom, run_bind_of_error ((run_bind_of_ok (run_ensure_of_pos hname _ _)).trans hfull)]

variable {group : GroupEndpointMapping}

/-- A group that is there gets the name, and the endpoint if there is room. -/
theorem run_add_of_some
    (hget : gs.get groupId = some group) (endpointId : EndptId)
    (hname : groupName.utf8ByteSize ≤ maxGroupNameLen) :
    (sizes.add endpointId groupId groupName).run gs =
      if group.endpoints.contains endpointId then
        (gs.updateEntry groupId ({ · with groupName }), .ok true)
      else if group.endpoints.length < sizes.endpoints then
        ((gs.updateEntry groupId ({ · with groupName })).updateEntry groupId
          fun e => { e with endpoints := e.endpoints ++ [endpointId] }, .ok false)
      else (gs.updateEntry groupId ({ · with groupName }), .error (.error .resourceExhausted)) := by
  have hsome : ¬ (gs.get groupId).isNone = true := by
    rw [hget]
    exact Bool.false_ne_true
  have hendpoints : ((gs.get groupId).map (·.endpoints)).getD [] = group.endpoints := by
    rw [hget]
    rfl
  rw [add, run_bind_of_ok (run_get gs), onlyIf, if_neg hsome, run_bind_of_ok (run_pure _ _),
    run_bind_of_ok (run_ensure_of_pos hname _ _), run_bind_of_ok (run_modify _ _), hendpoints]
  dsimp only
  split_ifs with hin hlen
  · rfl
  · rw [run_bind_of_ok (run_ensure_of_pos hlen _ _), run_bind_of_ok (run_modify _ _), run_pure]
  · rw [run_bind_of_error (run_ensure_of_neg hlen _ _)]

/-- With the usual sizes the operation is the one of the other modules. -/
theorem run_add_usual (endpointId : EndptId) (groupId : BitVec 16)
    (hname : groupName.utf8ByteSize ≤ maxGroupNameLen) :
    (GroupSizes.usual.add endpointId groupId groupName).run gs =
      (calm (Groups.add endpointId groupId groupName)).run gs := by
  have hcalm : (calm (Groups.add endpointId groupId groupName)).run gs =
      (((Groups.add endpointId groupId groupName).run gs).1,
        lift ((Groups.add endpointId groupId groupName).run gs).2) := rfl
  rw [hcalm]
  cases hget : gs.get groupId with
  | none =>
    have hpos : 0 < GroupSizes.usual.endpoints := by decide
    have hsizes : GroupSizes.usual.groups = maxGroupsPerFabric := rfl
    rw [run_add_of_none hget endpointId hname, Device.run_add_of_none hget, if_pos hpos, hsizes]
    split_ifs <;> rfl
  | some group =>
    have hsizes : GroupSizes.usual.endpoints = groupEndpointsPerFabric := rfl
    rw [run_add_of_some hget endpointId hname, Device.run_add_of_some hget, hsizes]
    split_ifs <;> rfl

theorem updateEntry_cases {f : GroupEndpointMapping → GroupEndpointMapping}
    (hf : ∀ e, (f e).groupId = e.groupId) (htidy : Tidy gs)
    (hget : gs.get groupId = some group) :
    ((gs.updateEntry groupId f).endpointMapping.map (·.groupId)).Nodup ∧
      (gs.updateEntry groupId f).get groupId = some (f group) ∧
      ∀ e ∈ (gs.updateEntry groupId f).endpointMapping, e = f group ∨ e ∈ gs.endpointMapping := by
  have hid := List.find?_some (p := fun e : GroupEndpointMapping => e.groupId == groupId) hget
  rw [Groups.updateEntry]
  cases hm : modifyFirst (·.groupId == groupId) f gs.endpointMapping with
  | none =>
    have hmem : group ∈ gs.endpointMapping := List.mem_of_find?_eq_some hget
    exact absurd hid (Bool.eq_false_iff.mp (modifyFirst_eq_none.mp hm group hmem))
  | some l' =>
    obtain ⟨a, x, b, hl, hx, rfl⟩ := modifyFirst_eq_some hm
    have hnodup := htidy.groups
    rw [hl] at hnodup
    have hbefore : ∀ y ∈ a, (y.groupId == groupId) = false := by
      intro y hy
      rw [List.map_append, List.map_cons] at hnodup
      have hne := (List.nodup_append.mp hnodup).2.2 y.groupId (List.mem_map_of_mem hy) x.groupId
        List.mem_cons_self
      rw [eq_of_beq hx] at hne
      exact beq_false_of_ne hne
    have hgroup : group = x := by
      rw [Groups.get, hl, List.find?_append, List.find?_eq_none.mpr fun y hy => by simp [hbefore y hy],
        Option.none_or, List.find?_cons, hx] at hget
      exact (Option.some.inj hget).symm
    subst hgroup
    have hids : (a ++ f group :: b).map (·.groupId) = gs.endpointMapping.map (·.groupId) := by
      rw [hl, List.map_append, List.map_append, List.map_cons, List.map_cons, hf]
    refine ⟨?_, ?_, fun e he => ?_⟩
    · rw [Option.getD_some, hids]
      exact htidy.groups
    · have hfx : ((f group).groupId == groupId) = true := by
        rw [hf]
        exact hid
      rw [Groups.get, Option.getD_some, List.find?_append,
        List.find?_eq_none.mpr fun y hy => by simp [hbefore y hy], Option.none_or, List.find?_cons, hfx]
    · rw [Option.getD_some] at he
      rw [hl]
      simp only [List.mem_append, List.mem_cons] at he ⊢
      tauto

/-- The groups stay tidy when the entry of a group becomes one that is. -/
theorem Tidy.updateEntry {f : GroupEndpointMapping → GroupEndpointMapping}
    (htidy : Tidy gs) (hf : ∀ e, (f e).groupId = e.groupId)
    (hget : gs.get groupId = some group) (hne : (f group).endpoints ≠ [])
    (hnodup : (f group).endpoints.Nodup) :
    Tidy (gs.updateEntry groupId f) ∧ (gs.updateEntry groupId f).get groupId = some (f group) := by
  obtain ⟨hgroups, hgot, hmem⟩ := updateEntry_cases hf htidy hget
  refine ⟨⟨hgroups, fun e he => ?_, fun e he => ?_, htidy.keySets⟩, hgot⟩
  · rcases hmem e he with rfl | he
    · exact hne
    · exact htidy.populated e he
  · rcases hmem e he with rfl | he
    · exact hnodup
    · exact htidy.endpoints e he

def Fine {α : Type} (r : Groups × Except (Stop ErrorCode) α) : Prop :=
  Tidy r.1 ∧ r.2 ≠ .error .panic

theorem fine_add (htidy : Tidy gs) (hroom : 0 < sizes.endpoints ∨ sizes.groups = 0)
    (endpointId : EndptId) (groupId : BitVec 16)
    (hname : groupName.utf8ByteSize ≤ maxGroupNameLen) :
    Fine ((sizes.add endpointId groupId groupName).run gs) := by
  cases hget : gs.get groupId with
  | none =>
    rw [run_add_of_none hget endpointId hname]
    split_ifs with hlt hpos
    · have hids : (({ gs with endpointMapping := gs.endpointMapping ++ [⟨groupId, [endpointId], groupName⟩] } :
          Groups).endpointMapping.map (·.groupId)).Nodup := by
        rw [List.map_append]
        refine htidy.groups.append (List.nodup_singleton _) fun id hid hid' => ?_
        obtain ⟨e, he, rfl⟩ := List.mem_map.mp hid
        have hne := List.find?_eq_none.mp hget e he
        rw [List.mem_singleton.mp hid'] at hne
        exact hne (beq_self_eq_true _)
      refine ⟨⟨hids, fun e he => ?_, fun e he => ?_, htidy.keySets⟩, nofun⟩
      · rcases List.mem_append.mp he with he | he
        · exact htidy.populated e he
        · rw [List.mem_singleton.mp he]
          exact List.cons_ne_nil _ _
      · rcases List.mem_append.mp he with he | he
        · exact htidy.endpoints e he
        · rw [List.mem_singleton.mp he]
          exact List.nodup_singleton _
    · omega
    · exact ⟨htidy, nofun⟩
  | some group =>
    have hmem : group ∈ gs.endpointMapping := List.mem_of_find?_eq_some hget
    obtain ⟨hnamed, hgot⟩ := htidy.updateEntry (f := ({ · with groupName })) (fun _ => rfl) hget
      (htidy.populated group hmem) (htidy.endpoints group hmem)
    rw [run_add_of_some hget endpointId hname]
    split_ifs with hin hlt
    · exact ⟨hnamed, nofun⟩
    · refine ⟨(hnamed.updateEntry (f := fun e => { e with endpoints := e.endpoints ++ [endpointId] })
        (fun _ => rfl) hgot (List.append_ne_nil_of_right_ne_nil _ (List.cons_ne_nil _ _)) ?_).1, nofun⟩
      · refine (htidy.endpoints group hmem).append (List.nodup_singleton _) fun id hid hid' => ?_
        rw [List.mem_singleton.mp hid'] at hid
        exact hin (List.contains_iff_mem.mpr hid)
    · exact ⟨hnamed, nofun⟩

theorem fine_remove (htidy : Tidy gs) (endpointId : EndptId) (groupId : Option (BitVec 16)) :
    Fine ((remove endpointId groupId).run gs) := by
  have hentry : ∀ e' ∈ gs.endpointMapping.map (fun e =>
      if Groups.isFor groupId e then { e with endpoints := e.endpoints.filter (· != endpointId) } else e),
      e'.endpoints.Nodup := by
    intro e' he'
    obtain ⟨e, he, rfl⟩ := List.mem_map.mp he'
    split_ifs
    · exact (htidy.endpoints e he).filter _
    · exact htidy.endpoints e he
  have hids : (gs.endpointMapping.map (fun e =>
      if Groups.isFor groupId e then { e with endpoints := e.endpoints.filter (· != endpointId) } else e)).map
        (·.groupId) = gs.endpointMapping.map (·.groupId) := by
    rw [List.map_map]
    refine List.map_congr_left fun e _ => ?_
    dsimp only [Function.comp]
    split_ifs <;> rfl
  have hrest : (((gs.endpointMapping.map fun e =>
      if Groups.isFor groupId e then { e with endpoints := e.endpoints.filter (· != endpointId) } else e).filter
        fun e => !e.endpoints.isEmpty).map (·.groupId)).Nodup := by
    refine List.Nodup.sublist (List.filter_sublist.map fun e : GroupEndpointMapping => e.groupId) ?_
    rw [hids]
    exact htidy.groups
  refine ⟨⟨hrest, fun e he => ?_, fun e he => ?_, htidy.keySets⟩, nofun⟩
  · have hne := (List.mem_filter.mp he).2
    intro hnil
    rw [hnil] at hne
    cases hne
  · exact hentry e (List.mem_filter.mp he).1

theorem fine_keySetAdd (htidy : Tidy gs) (entry : GroupKeySet) :
    Fine ((sizes.keySetAdd entry).run gs) := by
  rw [keySetAdd, run_bind_of_ok (run_get gs)]
  cases hm : modifyFirst (fun e => e.groupKeySetId == entry.groupKeySetId) (fun _ => entry)
      gs.keySets with
  | some keySets =>
    obtain ⟨a, x, b, hl, hx, rfl⟩ := modifyFirst_eq_some hm
    refine ⟨⟨htidy.groups, htidy.populated, htidy.endpoints, ?_⟩, nofun⟩
    have hids : (a ++ entry :: b).map (·.groupKeySetId) = gs.keySets.map (·.groupKeySetId) := by
      rw [hl, List.map_append, List.map_append, List.map_cons, List.map_cons, eq_of_beq hx]
    show ((a ++ entry :: b).map (·.groupKeySetId)).Nodup
    rw [hids]
    exact htidy.keySets
  | none =>
    dsimp only
    by_cases hlt : gs.keySets.length < sizes.keys
    · rw [run_bind_of_ok (run_ensure_of_pos hlt _ _), run_modify]
      refine ⟨⟨htidy.groups, htidy.populated, htidy.endpoints, ?_⟩, nofun⟩
      show ((gs.keySets ++ [entry]).map (·.groupKeySetId)).Nodup
      rw [List.map_append]
      refine htidy.keySets.append (List.nodup_singleton _) fun id hid hid' => ?_
      obtain ⟨e, he, rfl⟩ := List.mem_map.mp hid
      have hne := modifyFirst_eq_none.mp hm e he
      rw [List.mem_singleton.mp hid', beq_self_eq_true] at hne
      cases hne
    · rw [run_bind_of_error (run_ensure_of_neg hlt _ _)]
      exact ⟨htidy, nofun⟩

theorem fine_keySetRemove (htidy : Tidy gs) (id : BitVec 16) :
    Fine ((keySetRemove id).run gs) := by
  have hrun : (Groups.keySetRemove id).run gs =
      (Prog.ensure ((gs.keySets.filter (·.groupKeySetId != id)).length < gs.keySets.length)
        ErrorCode.notFound).run { gs with
          keySets := gs.keySets.filter (·.groupKeySetId != id)
          keyMap := gs.keyMap.filter (·.groupKeySetId != id) } := rfl
  have htidy' : Tidy { gs with
      keySets := gs.keySets.filter (·.groupKeySetId != id)
      keyMap := gs.keyMap.filter (·.groupKeySetId != id) } :=
    ⟨htidy.groups, htidy.populated, htidy.endpoints,
      htidy.keySets.sublist (List.filter_sublist.map _)⟩
  show Fine ((_, _) : Groups × Except (Stop ErrorCode) Unit)
  rw [hrun]
  by_cases hlt : (gs.keySets.filter (·.groupKeySetId != id)).length < gs.keySets.length
  · rw [run_ensure_of_pos hlt]
    exact ⟨htidy', nofun⟩
  · rw [run_ensure_of_neg hlt]
    exact ⟨htidy', nofun⟩

theorem Tidy.keyMap (htidy : Tidy gs) (keyMap : List GroupKeyMapping) : Tidy { gs with keyMap } :=
  ⟨htidy.groups, htidy.populated, htidy.endpoints, htidy.keySets⟩

theorem fine_keyMapAdd (htidy : Tidy gs) (entry : GroupKeyMapping) :
    Fine ((sizes.keyMapAdd entry).run gs) := by
  rw [keyMapAdd, run_bind_of_ok (run_get gs)]
  by_cases hlt : gs.keyMap.length < sizes.groups
  · rw [run_bind_of_ok (run_ensure_of_pos hlt _ _), run_modify]
    exact ⟨htidy.keyMap _, nofun⟩
  · rw [run_bind_of_error (run_ensure_of_neg hlt _ _)]
    exact ⟨htidy, nofun⟩

theorem fine_keyMapReplace (htidy : Tidy gs) (entries : List GroupKeyMapping) :
    Fine ((sizes.keyMapReplace entries).run gs) := by
  rw [keyMapReplace, run_bind_of_ok (run_modify _ _)]
  by_cases hle : entries.length ≤ sizes.groups
  · rw [run_ensure_of_pos hle]
    exact ⟨htidy.keyMap _, nofun⟩
  · rw [run_ensure_of_neg hle]
    exact ⟨htidy.keyMap _, nofun⟩

end GroupSizes

namespace GroupCall

open Prog Stop GroupSizes

variable {sizes : GroupSizes} {gs : Groups}

theorem fine_discard {α : Type} {m : Prog (Stop ErrorCode) Groups α} (h : Fine (m.run gs)) :
    Fine ((do let _ ← m; return () : Prog (Stop ErrorCode) Groups Unit).run gs) := by
  obtain ⟨htidy, hresult⟩ := h
  rcases hm : m.run gs with ⟨t, _ | a⟩
  · rw [hm] at htidy hresult
    rw [run_bind_of_error hm]
    exact ⟨htidy, fun h => hresult (by cases h; rfl)⟩
  · rw [hm] at htidy
    rw [run_bind_of_ok hm]
    exact ⟨htidy, nofun⟩

/-- **Every call** leaves the groups tidy, and does not panic. -/
theorem fine_prog (htidy : Tidy gs) (hroom : 0 < sizes.endpoints ∨ sizes.groups = 0) {c : GroupCall}
    (hnamed : c.Named) : Fine ((c.prog sizes).run gs) := by
  cases c with
  | add endpointId groupId groupName => exact fine_discard (fine_add htidy hroom endpointId groupId hnamed)
  | remove endpointId groupId => exact fine_discard (fine_remove htidy endpointId groupId)
  | keySetAdd entry => exact fine_keySetAdd htidy entry
  | keySetRemove id => exact fine_keySetRemove htidy id
  | keyMapAdd entry => exact fine_keyMapAdd htidy entry
  | keyMapReplace entries => exact fine_keyMapReplace htidy entries

/-- No call of a run panics, and the groups are tidy after each. -/
def Orderly (sizes : GroupSizes) (calls : List GroupCall) : Prop :=
  ∀ before : List GroupCall, before <+: calls → Tidy (after sizes before) ∧
    ∀ c : GroupCall, before ++ [c] <+: calls → ((c.prog sizes).run (after sizes before)).2 ≠ .error .panic

theorem tidy_after (hroom : 0 < sizes.endpoints ∨ sizes.groups = 0) (calls : List GroupCall)
    (hnamed : ∀ c ∈ calls, c.Named) : Tidy (after sizes calls) := by
  have hrun : ∀ (calls : List GroupCall) (gs : Groups), Tidy gs → (∀ c ∈ calls, c.Named) →
      Tidy (calls.foldl (fun gs c => ((c.prog sizes).run gs).1) gs) := by
    intro calls
    induction calls with
    | nil => exact fun gs htidy _ => htidy
    | cons c calls ih =>
      intro gs htidy hnamed
      refine ih _ ?_ fun c hc => hnamed c (List.mem_cons_of_mem _ hc)
      exact (fine_prog htidy hroom (hnamed c List.mem_cons_self)).1
  exact hrun calls .init tidy_init hnamed

/-- **The group table** stays tidy, and no unwrap fails, in every run of a build and only if the build has
room for the endpoints of its groups. -/
theorem groupTable (sizes : GroupSizes) :
    (∀ calls : List GroupCall, (∀ c ∈ calls, c.Named) → Orderly sizes calls) ↔
      0 < sizes.endpoints ∨ sizes.groups = 0 := by
  constructor
  · intro hall
    by_contra hnot
    have hzero : ¬ 0 < sizes.endpoints := fun h => hnot (.inl h)
    have hpos : (Groups.init).endpointMapping.length < sizes.groups :=
      Nat.pos_of_ne_zero fun h => hnot (.inr h)
    have hname : "".utf8ByteSize ≤ maxGroupNameLen := by decide
    have hrun := @run_add_of_none sizes .init 1 "" rfl 1 hname
    rw [if_pos hpos, if_neg hzero] at hrun
    have hafter : after sizes [.add 1 1 ""] =
        { Groups.init with endpointMapping := [⟨1, [], ""⟩] } := by
      rw [after, List.foldl_cons, List.foldl_nil, prog, run_bind_of_error hrun]
      rfl
    have htidy := (hall [.add 1 1 ""] (by
      intro c hc
      rw [List.mem_singleton.mp hc]
      exact hname) _ List.prefix_rfl).1
    rw [hafter] at htidy
    exact htidy.populated ⟨1, [], ""⟩ (List.mem_singleton_self _) rfl
  · intro hroom calls hnamed before hbefore
    have htidy := tidy_after hroom before fun c hc => hnamed c (hbefore.subset hc)
    refine ⟨htidy, fun c hc => ?_⟩
    exact (fine_prog htidy hroom (hnamed c (hc.subset (by simp)))).2

/-- A build that has room for groups, but not for their endpoints, is left with an empty group. -/
theorem empty_group :
    GroupCall.Named (.add 1 1 "Hall") ∧
      (after ⟨0, 12, 0⟩ [.add 1 1 "Hall"]).endpointMapping = [⟨1, [], "Hall"⟩] ∧
      ¬ Orderly ⟨0, 12, 0⟩ [.add 1 1 "Hall"] := by
  have hafter : (after ⟨0, 12, 0⟩ [.add 1 1 "Hall"]).endpointMapping = [⟨1, [], "Hall"⟩] := by
    decide +kernel
  refine ⟨show "Hall".utf8ByteSize ≤ maxGroupNameLen by decide, hafter, fun h => ?_⟩
  have htidy := (h _ List.prefix_rfl).1
  have hmem : (⟨1, [], "Hall"⟩ : GroupEndpointMapping) ∈
      (after ⟨0, 12, 0⟩ [.add 1 1 "Hall"]).endpointMapping := by
    rw [hafter]
    exact List.mem_singleton_self _
  exact htidy.populated _ hmem rfl

end GroupCall

end RsMatter
