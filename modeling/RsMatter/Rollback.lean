import RsMatter.Expiry

/-!
# Taking back what was staged under the fail-safe

When the fail-safe ends without `CommissioningComplete`, its fabric is removed from
memory and read back from storage. That takes back what was staged under the
fail-safe if storage held, when the fail-safe was armed, what memory held, and if the
fabric is still there to be removed. Nothing the commissioner can do in between stores
the fabric (`Device.Staged`), so these two are the whole condition
(`Device.rolledBack_iff`).
-/

namespace RsMatter

namespace Device

/-! ## Steps under the fail-safe -/

/-- The commands of a commissioner, and those of the other fabrics. -/
def Command.isStaged : Command → Bool
  | .armFailSafe expiry _ => expiry != 0
  | .csrRequest .. => true
  | .addTrustedRootCertificate _ => true
  | .addNoc _ => true
  | .updateNoc .. => true
  | .updateFabricLabel _ => true
  | .removeFabric _ => true
  | .setAcl _ => true
  | .addGroup .. => true
  | .removeGroup .. => true
  | .removeAllGroups _ => true
  | .setGroupKeyMap _ => true
  | .keySetWrite .. => true
  | .keySetRemove _ => true
  | _ => false

/-- One of these commands with a storage that works, or a session that comes or goes. -/
def Action.IsStaged : Action → Prop
  | .invoke _ env cmd => env.Works ∧ cmd.isStaged = true
  | .addSession .. => True
  | .removeSession _ => True
  | .establishPase .. => True
  | .establishCase .. => True
  | .establishGroup .. => True
  | _ => False

/-- The action is a command about a fabric: on a session of the fabric, or to remove it. -/
def Action.Concerns (a : Action) (d : Device) (fabIdx : ℕ) : Prop :=
  a.IsFrom d fabIdx ∨ ∃ id env, a = .invoke id env (.removeFabric fabIdx)

/-- What such an action can do while the fail-safe is armed. -/
inductive Staging (a : Action) (d d' : Device) : Prop where
  | quiet (hctx : d'.failsafe.context = d.failsafe.context) (hfab : d'.fabrics = d.fabrics)
    (hkv : d'.kv.fabrics = d.kv.fabrics)
  /-- a fabric is changed by a command of its own, and stored only if the fail-safe is not
  armed for it -/
  | edited (fabric : Fabric) (hown : a.Concerns d fabric.fabIdx)
    (hget : Fabrics.get d.fabrics fabric.fabIdx ≠ none)
    (hctx : d'.failsafe.context = d.failsafe.context)
    (hfab : d'.fabrics = replaceKey Fabric.fabIdx d.fabrics fabric.fabIdx fabric)
    (hkv : d'.kv.fabrics = d.kv.fabrics ∨
      (d'.kv.fabrics = Function.update d.kv.fabrics fabric.fabIdx (some fabric) ∧
        d.failsafe.isArmedFor fabric.fabIdx = false))
  /-- a fabric is removed, from storage too -/
  | removed (fabIdx : ℕ) (hown : a.Concerns d fabIdx) (hget : Fabrics.get d.fabrics fabIdx ≠ none)
    (hctx : d'.failsafe.context = d.failsafe.context)
    (hfab : d'.fabrics = removeKey Fabric.fabIdx d.fabrics fabIdx)
    (hkv : d'.kv.fabrics = Function.update d.kv.fabrics fabIdx none)
  | added (fabIdx : ℕ) (fabric : Option Fabric) (hidx : ∀ x ∈ fabric, x.fabIdx = fabIdx)
    (hfree : Fabrics.get d.fabrics fabIdx = none)
    (hctx : ∃ f, d.failsafe.context = some (f, false))
    (hctx' : d'.failsafe.context = some (fabIdx, true))
    (hfab : d'.fabrics = d.fabrics ++ fabric.toList) (hkv : d'.kv.fabrics = d.kv.fabrics)

variable {crypto : Crypto} {a : Action} {as bs : List Action} {d d' t : Device} {env : Env}
  {id : Option (BitVec 32)} {f g : ℕ} {added : Bool}

theorem not_ends_of_isStaged (ha : a.IsStaged) : ¬ a.Ends d env id := by
  rintro (_ | _ | _)
  · exact ha
  · exact nomatch ha.2
  · exact nomatch ha.2

/-- **A step under the fail-safe.** -/
theorem staging_of_step (hwf : d.WellFormed) (hctx : d.failsafe.context = some (f, added))
    (ha : a.IsStaged) (h : step crypto d a = some d') : Staging a d d' := by
  cases step_effect hwf.room h with
  | quiet hfab hkv hctx' => exact .quiet hctx' hfab hkv
  | edited fabric hfrom hget hfab hkv hctx' =>
    refine .edited fabric (.inl hfrom) hget hctx' hfab (hkv.imp_right fun ⟨hkv, harmed⟩ => ⟨hkv, ?_⟩)
    refine harmed.resolve_right ?_
    rintro ⟨_, _, _, _, _, rfl⟩
    exact nomatch ha.2
  | removed id env fabIdx sess hact hsess hidx hget hfab hkv hctx' =>
    subst hact
    rw [ha.1] at hkv
    exact .removed fabIdx (.inr ⟨id, env, rfl⟩) hget hctx' hfab hkv
  | added fabric hadd hctx hctx' hfree hlo hhi hlen hfab hkv =>
    exact .added fabric.fabIdx (some fabric) (by rintro x ⟨⟩; rfl) hfree hctx hctx' hfab hkv
  | dropped fabIdx hctx hctx' hfree hfab hkv =>
    refine .added fabIdx none (by simp) hfree hctx hctx' ?_ hkv
    rw [hfab]
    exact (List.append_nil _).symm
  | armed fabIdx hnone =>
    rw [hctx] at hnone
    cases hnone
  | ended env id hends => exact absurd hends (not_ends_of_isStaged ha)
  | rolledBack env id fabIdx hends => exact absurd hends (not_ends_of_isStaged ha)
  | failed env id fabIdx restored hends => exact absurd hends (not_ends_of_isStaged ha)
  | committed fabric hact =>
    obtain ⟨id, env, rfl⟩ := hact
    exact nomatch ha.2
  | restarted hact =>
    subst hact
    exact ha.elim

/-- The fabric at an index, after fabrics have been put at the end of the table. -/
theorem get_append_ne {fs : Fabrics} {fabric : Option Fabric} (hidx : ∀ x ∈ fabric, x.fabIdx ≠ g) :
    Fabrics.get (fs ++ fabric.toList) g = Fabrics.get fs g := by
  cases fabric with
  | none => rw [Option.toList_none, List.append_nil]
  | some x => exact lookup_append_ne (hidx x rfl)

theorem Staging.get_of_not_concerns (h : Staging a d d') (hown : ¬ a.Concerns d g)
    (hne : d'.failsafe.context ≠ some (g, true)) : Fabrics.get d'.fabrics g = Fabrics.get d.fabrics g := by
  cases h with
  | quiet hctx hfab => rw [hfab]
  | edited fabric hown' hget hctx hfab =>
    rw [hfab]
    exact lookup_replaceKey_ne rfl fun hg => hown (hg ▸ hown')
  | removed fabIdx hown' hget hctx hfab =>
    rw [hfab]
    exact lookup_removeKey_ne fun hg => hown (hg ▸ hown')
  | added fabIdx fabric hidx hfree hctx hctx' hfab =>
    rw [hfab]
    refine get_append_ne fun x hx hg => hne ?_
    rw [hctx', ← hidx x hx, hg]

theorem Staging.context (h : Staging a d d') (hctx : d.failsafe.context = some (f, added)) :
    (d'.failsafe.context = some (f, added)) ∨ (added = false ∧ ∃ g, d'.failsafe.context = some (g, true)) := by
  cases h with
  | quiet hctx' => exact .inl (hctx'.trans hctx)
  | edited fabric hown hget hctx' => exact .inl (hctx'.trans hctx)
  | removed fabIdx hown hget hctx' => exact .inl (hctx'.trans hctx)
  | added fabIdx fabric hidx hfree hfalse hctx' =>
    obtain ⟨f', hf'⟩ := hfalse
    rw [hctx, Option.some_inj, Prod.mk.injEq] at hf'
    exact .inr ⟨hf'.2, fabIdx, hctx'⟩

/-! ## Runs under the fail-safe -/

/-- What storage holds under an index once the index is free: what it held without a fabric
in memory. -/
def leftOver (d : Device) (fabIdx : ℕ) : Option Fabric :=
  if Fabrics.get d.fabrics fabIdx = none then d.kv.fabrics fabIdx else none

/-- The node `t` has come from the node `d`, on which the fail-safe was armed for the fabric
`f₀`, by steps under the fail-safe. -/
structure Staged (d : Device) (f₀ : ℕ) (t : Device) (f : ℕ) (added : Bool) : Prop where
  wf : t.WellFormed
  context : t.failsafe.context = some (f, added)
  /-- the fabric of the context is the one it was, unless one has been added -/
  owner : added = false → f = f₀
  old : added = false → ∀ i, Fabrics.get t.fabrics i ≠ none → Fabrics.get d.fabrics i ≠ none
  /-- and nothing has been stored under a free index -/
  free : added = false → ∀ i, Fabrics.get t.fabrics i = none → t.kv.fabrics i = d.leftOver i
  /-- nobody has stored the fabric of the context -/
  stored : Fabrics.get t.fabrics f ≠ none →
    t.kv.fabrics f = if added then d.leftOver f else d.kv.fabrics f

theorem staged_refl (hwf : d.WellFormed) (hctx : d.failsafe.context = some (f, false)) :
    Staged d f d f false where
  wf := hwf
  context := hctx
  owner _ := rfl
  old _ _ h := h
  free _ i h := by rw [leftOver, if_pos h]
  stored _ := rfl

variable {f₀ : ℕ}

theorem Staged.step (h : Staged d f₀ t f added) (hstep : Staging a t d') (hwf : d'.WellFormed) :
    ∃ f' added', Staged d f₀ d' f' added' := by
  cases hstep with
  | quiet hctx hfab hkv =>
    refine ⟨f, added, hwf, hctx.trans h.context, h.owner, ?_, ?_, ?_⟩
    · rw [hfab]
      exact h.old
    · rw [hfab, hkv]
      exact h.free
    · rw [hfab, hkv]
      exact h.stored
  | edited fabric hown hget hctx hfab hkv =>
    have hnone : ∀ i, Fabrics.get d'.fabrics i = none ↔ Fabrics.get t.fabrics i = none := by
      intro i
      rw [Fabrics.get, Fabrics.get, lookup_eq_none, lookup_eq_none, hfab, map_key_replaceKey rfl]
    refine ⟨f, added, hwf, hctx.trans h.context, h.owner, fun hadd i hi => ?_, fun hadd i hi => ?_, fun hf => ?_⟩
    · exact h.old hadd i ((hnone i).not.mp hi)
    · rw [hnone] at hi
      rw [← h.free hadd i hi]
      rcases hkv with hkv | ⟨hkv, -⟩
      · rw [hkv]
      · rw [hkv, Function.update_of_ne]
        rintro rfl
        exact hget hi
    · rw [← h.stored ((hnone f).not.mp hf)]
      rcases hkv with hkv | ⟨hkv, harmed⟩
      · rw [hkv]
      · rw [hkv, Function.update_of_ne]
        rintro rfl
        rw [FailSafe.isArmedFor_of_context h.context] at harmed
        cases harmed
  | removed fabIdx hown hget hctx hfab hkv =>
    have hself : Fabrics.get d'.fabrics fabIdx = none := by
      rw [hfab]
      exact lookup_removeKey_self
    have hother : ∀ i, i ≠ fabIdx → Fabrics.get d'.fabrics i = Fabrics.get t.fabrics i := by
      intro i hi
      rw [hfab]
      exact lookup_removeKey_ne hi
    refine ⟨f, added, hwf, hctx.trans h.context, h.owner, fun hadd i hi => ?_, fun hadd i hi => ?_, fun hf => ?_⟩
    · have hne : i ≠ fabIdx := by
        rintro rfl
        exact hi hself
      exact h.old hadd i (hother i hne ▸ hi)
    · rw [hkv]
      by_cases hne : i = fabIdx
      · subst hne
        rw [Function.update_self, leftOver, if_neg (h.old hadd i hget)]
      · rw [Function.update_of_ne hne]
        exact h.free hadd i (hother i hne ▸ hi)
    · have hne : f ≠ fabIdx := by
        rintro rfl
        exact hf hself
      rw [hkv, Function.update_of_ne hne]
      exact h.stored (hother f hne ▸ hf)
  | added fabIdx fabric hidx hfree hfalse hctx' hfab hkv =>
    obtain ⟨f', hf'⟩ := hfalse
    rw [h.context, Option.some_inj, Prod.mk.injEq] at hf'
    refine ⟨fabIdx, true, hwf, hctx', nofun, nofun, nofun, fun _ => ?_⟩
    rw [hkv, if_pos rfl]
    exact h.free hf'.2 fabIdx hfree

/-- **A run under the fail-safe** leaves storage as it was where it matters. -/
theorem Staged.run (h : Staged d f₀ t f added) (has : ∀ a ∈ as, a.IsStaged)
    (hrun : (machine crypto).run t as = some d') : ∃ f' added', Staged d f₀ d' f' added' := by
  have hok : (machine crypto).Meets (fun _ a => a.IsStaged) t as := Machine.meets_of_forall fun a ha _ => has a ha
  refine Machine.invariant_of_meets (I := fun s => ∃ f' added', Staged d f₀ s f' added') ?_ ⟨f, added, h⟩ hok hrun
  rintro s a s' ha ⟨f', added', hs⟩ hstep
  exact hs.step (staging_of_step hs.wf hs.context ha hstep) (hs.wf.step (step_effect hs.wf.room hstep))

/-- A fabric that has been added is the fabric of the context at the end of the run, too. -/
theorem context_of_run (hwf : d.WellFormed) (hctx : d.failsafe.context = some (f, true))
    (has : ∀ a ∈ as, a.IsStaged) (hrun : (machine crypto).run d as = some d') :
    d'.failsafe.context = some (f, true) := by
  have hinv : d'.WellFormed ∧ d'.failsafe.context = some (f, true) := by
    have hok : (machine crypto).Meets (fun _ a => a.IsStaged) d as :=
      Machine.meets_of_forall fun a ha _ => has a ha
    refine Machine.invariant_of_meets (I := fun s => s.WellFormed ∧ s.failsafe.context = some (f, true)) ?_
      ⟨hwf, hctx⟩ hok hrun
    rintro s a s' ha ⟨hs, hctx⟩ hstep
    refine ⟨hs.step (step_effect hs.room hstep), ?_⟩
    exact ((staging_of_step hs hctx ha hstep).context hctx).resolve_right fun h => nomatch h.1
  exact hinv.2

/-- **A fabric nobody has a command for** stays as it is along a run. -/
theorem get_of_run (hwf : d.WellFormed) (hctx : d.failsafe.context = some (f, added))
    (has : ∀ a ∈ as, a.IsStaged) (hown : (machine crypto).Meets (fun s a => ¬ a.Concerns s g) d as)
    (hrun : (machine crypto).run d as = some d') (hne : d'.failsafe.context ≠ some (g, true)) :
    Fabrics.get d'.fabrics g = Fabrics.get d.fabrics g := by
  induction as generalizing d f added with
  | nil =>
    rw [Machine.run_nil, Option.some_inj] at hrun
    rw [hrun]
  | cons a as ih =>
    obtain ⟨u, hstep, hrun⟩ := Machine.run_cons_eq_some.mp hrun
    rw [Machine.meets_cons hstep] at hown
    have hstg := staging_of_step hwf hctx (has a List.mem_cons_self) hstep
    have hwfu := hwf.step (step_effect hwf.room hstep)
    have hrest : ∀ b ∈ as, b.IsStaged := fun b hb => has b (List.mem_cons_of_mem _ hb)
    have hu : Fabrics.get u.fabrics g = Fabrics.get d.fabrics g := by
      refine hstg.get_of_not_concerns hown.1 fun hg => hne ?_
      exact context_of_run hwfu hg hrest hrun
    rw [← hu]
    rcases hstg.context hctx with hctxu | ⟨-, g', hctxu⟩
    · exact ih hwfu hctxu hrest hown.2 hrun
    · exact ih hwfu hctxu hrest hown.2 hrun

/-! ## The end -/

theorem get_expire (hwf : d.WellFormed) (hctx : d.failsafe.context = some (f, added)) (hworks : env.Works)
    (id : Option (BitVec 32)) (g : ℕ) :
    Fabrics.get ((expire env id).run d).1.fabrics g =
      if g = f ∧ Fabrics.get d.fabrics f ≠ none then d.kv.fabrics f else Fabrics.get d.fabrics g := by
  obtain ⟨ctx, hst, rfl, -⟩ := FailSafe.armed_of_context hctx
  by_cases hget : Fabrics.get d.fabrics ctx.fabIdx = none
  · rw [if_neg fun h => h.2 hget]
    by_cases h0 : ctx.fabIdx = 0
    · rw [run_expire_of_zero hst h0, if_pos (hworks _)]
      rfl
    · rw [run_expire_of_none hst h0 hget]
  have h0 := hwf.ne_zero hget
  rw [run_expire_of_ne_none hst h0 hget hwf.room, if_pos (hworks _)]
  dsimp only
  rw [if_pos (hworks _)]
  show Fabrics.get (removeKey Fabric.fabIdx d.fabrics ctx.fabIdx ++ (d.kv.fabrics ctx.fabIdx).toList) g = _
  by_cases hg : g = ctx.fabIdx
  · rw [if_pos ⟨hg, hget⟩, hg]
    cases hkv : d.kv.fabrics ctx.fabIdx with
    | none =>
      rw [Option.toList_none, List.append_nil]
      exact lookup_removeKey_self
    | some x =>
      have hx := (hwf.stored _ _ hkv).1
      rw [Option.toList_some, ← hx]
      exact lookup_append_self lookup_removeKey_self
  · rw [if_neg fun h => hg h.1, get_append_ne]
    · exact lookup_removeKey_ne hg
    · intro x hx hxg
      exact hg (hxg.symm.trans (hwf.stored _ _ hx).1)

/-- After a run `as` from the node `d`, on which the fail-safe was armed, and the end of the
fail-safe, the node `d'` is what it should be. -/
structure TakenBack (crypto : Crypto) (d : Device) (as : List Action) (d' : Device) (f : ℕ)
    (added : Bool) : Prop where
  /-- the fabric of the context is what it was, and gone if it has been added since -/
  own : Fabrics.get d'.fabrics f = if added then none else Fabrics.get d.fabrics f
  /-- every other fabric is what it was after the last command about it -/
  others : ∀ g, g ≠ f → ∀ bs cs t, as = bs ++ cs → (machine crypto).run d bs = some t →
    (machine crypto).Meets (fun s a => ¬ a.Concerns s g) t cs →
      Fabrics.get d'.fabrics g = Fabrics.get t.fabrics g

/-- The fabric of the context can be taken back from the node `t` to what it was on the node
`d`. One that was there must be stored as it was and must not have been removed; for one
that has been added nothing must have been left in storage. -/
def CanTakeBack (d t : Device) (f : ℕ) (added : Bool) : Prop :=
  if added then d.leftOver f = none ∨ Fabrics.get t.fabrics f = none
  else
    Fabrics.get d.fabrics f = none ∨
      (d.kv.fabrics f = Fabrics.get d.fabrics f ∧ Fabrics.get t.fabrics f ≠ none)

theorem Staged.own_iff (h : Staged d f₀ t f added) (hworks : env.Works) (id : Option (BitVec 32)) :
    Fabrics.get ((expire env id).run t).1.fabrics f = (if added then none else Fabrics.get d.fabrics f) ↔
      CanTakeBack d t f added := by
  rw [get_expire h.wf h.context hworks, CanTakeBack]
  by_cases hget : Fabrics.get t.fabrics f = none
  · rw [if_neg fun hand => hand.2 hget, hget]
    cases added with
    | true => simp
    | false => simp [eq_comm]
  · rw [if_pos ⟨rfl, hget⟩, h.stored hget]
    cases added with
    | true => simp [hget]
    | false => simp [hget, h.old rfl f hget]

theorem Staged.others {d₀ : Device} (h : Staged d₀ f₀ t f added) {cs : List Action} (hwf : d.WellFormed)
    {fd : ℕ} {addedd : Bool} (hctx : d.failsafe.context = some (fd, addedd)) (hcs : ∀ a ∈ cs, a.IsStaged)
    (hrun : (machine crypto).run d cs = some t) (hworks : env.Works) (id : Option (BitVec 32)) (hg : g ≠ f)
    (hown : (machine crypto).Meets (fun s a => ¬ a.Concerns s g) d cs) :
    Fabrics.get ((expire env id).run t).1.fabrics g = Fabrics.get d.fabrics g := by
  rw [get_expire h.wf h.context hworks, if_neg fun hand => hg hand.1]
  refine get_of_run hwf hctx hcs hown hrun ?_
  rw [h.context]
  exact fun heq => hg (Prod.mk.inj (Option.some_inj.mp heq)).1.symm

theorem staged_of_arm (hwf : d.WellFormed) (hidle : d.failsafe.isArmed = false)
    (hstep : step crypto d a = some d') (harmed : d'.failsafe.isArmed = true) :
    ∃ f₀, Staged d' f₀ d' f₀ false := by
  have hnone : d.failsafe.context = none := by
    rw [FailSafe.isArmed] at hidle
    rw [FailSafe.context]
    cases hst : d.failsafe.state with
    | idle => rfl
    | armed ctx => rw [hst] at hidle; cases hidle
  have hsome : d'.failsafe.context ≠ none := by
    rw [FailSafe.isArmed] at harmed
    rw [FailSafe.context]
    cases hst : d'.failsafe.state with
    | idle => rw [hst] at harmed; cases harmed
    | armed ctx => exact Option.some_ne_none _
  have heff := step_effect hwf.room hstep
  have hwf' := hwf.step heff
  cases heff with
  | armed f₀ hctx hctx' => exact ⟨f₀, staged_refl hwf' hctx'⟩
  | quiet hfab hkv hctx => exact absurd (hctx.trans hnone) hsome
  | edited fabric hfrom hget hfab hkv hctx => exact absurd (hctx.trans hnone) hsome
  | removed id env fabIdx sess ha hsess hidx hget hfab hkv hctx => exact absurd (hctx.trans hnone) hsome
  | added fabric hadd hctx =>
    obtain ⟨f, hf⟩ := hctx
    cases hnone.symm.trans hf
  | dropped fabIdx hctx =>
    obtain ⟨f, hf⟩ := hctx
    cases hnone.symm.trans hf
  | ended env id hends hctx hctx' => exact absurd hctx' hsome
  | rolledBack env id fabIdx hends hidx hctx hget hctx' => exact absurd hctx' hsome
  | failed env id fabIdx restored hends hworks hidx hctx hget hctx' =>
    exact absurd (hctx'.trans hnone) hsome
  | committed fabric ha hctx hget hctx' => exact absurd hctx' hsome
  | restarted ha hctx' => exact absurd hctx' hsome

/-- **Taking back.** The fail-safe is armed, a run follows, and the fail-safe ends: the fabric
of the context is taken back exactly if it can be; the other fabrics are as their own
commands left them in any case. -/
theorem takenBack_iff {d₀ : Device} (hreach : (machine crypto).Reachable (· = factoryNew) d₀)
    (hidle : d₀.failsafe.isArmed = false) (harm : step crypto d₀ a = some d)
    (harmed : d.failsafe.isArmed = true) (has : ∀ b ∈ as, b.IsStaged)
    (hrun : (machine crypto).run d as = some t) (hctx : t.failsafe.context = some (f, added))
    (hworks : env.Works) (id : Option (BitVec 32)) :
    TakenBack crypto d as ((expire env id).run t).1 f added ↔ CanTakeBack d t f added := by
  obtain ⟨f₀, harm⟩ := staged_of_arm (wellFormed_of_reachable hreach) hidle harm harmed
  obtain ⟨f', added', hst⟩ := harm.run has hrun
  have hsame := hst.context
  rw [hctx, Option.some_inj, Prod.mk.injEq] at hsame
  obtain ⟨rfl, rfl⟩ := hsame
  refine ⟨fun h => (hst.own_iff hworks id).mp h.own, fun h => ⟨(hst.own_iff hworks id).mpr h, ?_⟩⟩
  rintro g hg bs cs u rfl hbs hcs
  obtain ⟨fu, addedu, hu⟩ := harm.run (fun b hb => has b (List.mem_append_left _ hb)) hbs
  rw [Machine.run_append, hbs] at hrun
  exact hst.others hu.wf hu.context (fun b hb => has b (List.mem_append_right _ hb)) hrun hworks id hg hcs

/-- The administrator of a fabric arms the fail-safe. -/
def Sample.arm : Action := .invoke 1 (Sample.envAt 0) (.armFailSafe 60 0)

def Sample.name : Action := .invoke 1 (Sample.envAt 0) (.updateFabricLabel [65])

/-- A name that is given under the fail-safe is taken back. -/
theorem takenBack_name : ∃ d₀ d t, (machine Sample.crypto).run factoryNew Sample.commissioned = some d₀ ∧
    step Sample.crypto d₀ Sample.arm = some d ∧ (machine Sample.crypto).run d [Sample.name] = some t ∧
      TakenBack Sample.crypto d [Sample.name] ((expire (Sample.envAt 0) none).run t).1 1 false := by
  have h : ((machine Sample.crypto).run factoryNew Sample.commissioned).bind (fun d₀ =>
      (step Sample.crypto d₀ Sample.arm).bind fun d =>
        ((machine Sample.crypto).run d [Sample.name]).map fun t =>
          (d₀.failsafe.isArmed, d.failsafe.isArmed, t.failsafe.context,
            decide (d.kv.fabrics 1 = Fabrics.get d.fabrics 1), (Fabrics.get t.fabrics 1).isSome)) =
        some (false, true, some (1, false), true, true) := by decide +kernel
  obtain ⟨d₀, hd₀, h⟩ := Option.bind_eq_some_iff.mp h
  obtain ⟨d, hd, h⟩ := Option.bind_eq_some_iff.mp h
  obtain ⟨t, ht, h⟩ := Option.map_eq_some_iff.mp h
  simp only [Prod.mk.injEq, decide_eq_true_eq] at h
  obtain ⟨hidle, harmed, hctx, hstored, hthere⟩ := h
  have has : ∀ a ∈ [Sample.name], a.IsStaged := by
    intro a ha
    obtain rfl := List.mem_singleton.mp ha
    exact ⟨Sample.works 0, rfl⟩
  refine ⟨d₀, d, t, hd₀, hd, ht, ?_⟩
  refine (takenBack_iff ⟨_, _, rfl, hd₀⟩ hidle hd harmed has ht hctx (Sample.works 0) none).mpr ?_
  exact .inr ⟨hstored, Option.isSome_iff_ne_none.mp hthere⟩

theorem not_takenBack_name : ∃ d₀ d,
    (machine Sample.crypto).run factoryNew (Sample.commissioned ++ [Sample.name]) = some d₀ ∧
      d₀.failsafe.isArmed = false ∧ step Sample.crypto d₀ Sample.arm = some d ∧
      d.failsafe.context = some (1, false) ∧
      (Fabrics.get d.fabrics 1).map Fabric.label = some [65] ∧
      (Fabrics.get ((expire (Sample.envAt 0) none).run d).1.fabrics 1).map Fabric.label = some [] ∧
      ¬ TakenBack Sample.crypto d [] ((expire (Sample.envAt 0) none).run d).1 1 false := by
  have h : ((machine Sample.crypto).run factoryNew (Sample.commissioned ++ [Sample.name])).bind (fun d₀ =>
      (step Sample.crypto d₀ Sample.arm).map fun d =>
        ((d₀.failsafe.isArmed, d.failsafe.context), (Fabrics.get d.fabrics 1).map Fabric.label,
          (Fabrics.get ((expire (Sample.envAt 0) none).run d).1.fabrics 1).map Fabric.label)) =
        some ((false, some (1, false)), some [65], some []) := by decide +kernel
  obtain ⟨d₀, hd₀, h⟩ := Option.bind_eq_some_iff.mp h
  obtain ⟨d, hd, h⟩ := Option.map_eq_some_iff.mp h
  simp only [Prod.mk.injEq] at h
  obtain ⟨⟨hidle, hctx⟩, hlabel, hlost⟩ := h
  refine ⟨d₀, d, hd₀, hidle, hd, hctx, hlabel, hlost, fun htb => ?_⟩
  have hown := htb.own
  rw [if_neg Bool.false_ne_true] at hown
  rw [hown, hlabel] at hlost
  cases hlost

end Device

end RsMatter
