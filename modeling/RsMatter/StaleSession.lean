import RsMatter.Rollback

/-!
# Sessions of a fabric that is gone

A session carries the index of its fabric, and an index is given to another fabric once
it is free. So whatever takes a fabric away has to take its sessions away, too. The
stamps of the model tell the fabrics apart that have had the same index
(`Device.Fresh`). `RemoveFabric` does what it has to; the end of the fail-safe cleans up
the PASE sessions only, and a run in which it finds no other session on its fabric
leaves no session behind (`Device.fresh_of_run`).
-/

namespace RsMatter

namespace Device

/-- No session that is not expired outlives its fabric in this step. -/
structure LeavesNone (d : Device) (a : Action) : Prop where
  /-- where the fail-safe ends, a session on its fabric is a PASE session, storage works, and
  the session is not mistaken for the one that is kept -/
  ends : ∀ env id f added, a.Ends d env id → d.failsafe.context = some (f, added) →
    Fabrics.get d.fabrics f ≠ none → ∀ x ∈ d.sessions.sessions, x.expired = false → x.getLocalFabricIdx = f →
      x.mode.isPase = true ∧ env.works (.fabric f) = true ∧ env.works .networks = true ∧
        (id = some x.id → d.sessions.IdUnique x.id)
  /-- where a fabric is removed on a session of its own, no other session on it is mistaken
  for that one -/
  removes : ∀ id env f sess, a = .invoke id env (.removeFabric f) → d.sessions.get id = some sess →
    sess.getLocalFabricIdx = f → ∀ x ∈ d.sessions.sessions, x.expired = false → x.getLocalFabricIdx = f →
      sess.id = x.id → d.sessions.IdUnique x.id

variable {crypto : Crypto} {a : Action} {as : List Action} {d d' : Device} {x : StampedSession} {f : ℕ}

theorem Fresh.congr (h : d.Fresh x)
    (hget : Fabrics.get d.fabrics x.getLocalFabricIdx ≠ none →
      Fabrics.get d'.fabrics x.getLocalFabricIdx ≠ none ∧
        d'.stamps x.getLocalFabricIdx = d.stamps x.getLocalFabricIdx) : d'.Fresh x := by
  rcases h with h | h | ⟨hne, hst⟩
  · exact .inl h
  · exact .inr (.inl h)
  · obtain ⟨hne', hst'⟩ := hget hne
    exact .inr (.inr ⟨hne', hst.trans hst'.symm⟩)

theorem stamps_restamp_ne {g : ℕ} (h : g ≠ f) : (restamp f d).stamps g = d.stamps g :=
  Function.update_of_ne h _ _

theorem fresh_of_kept (h : ∀ x ∈ d.sessions.sessions, d.Fresh x) (hfab : d'.fabrics = d.fabrics)
    (hst : d'.stamps = d.stamps) (hss : SessionsKept d d') : ∀ x ∈ d'.sessions.sessions, d'.Fresh x := by
  intro x hx
  rcases hss x hx with hx | hfresh
  · refine (h x hx).congr fun hne => ?_
    rw [hfab, hst]
    exact ⟨hne, rfl⟩
  · exact hfresh

/-- Where a fabric is taken out, and what is put in its place has its index, sessions of
other fabrics stay fresh. -/
theorem Fresh.replaced (h : d.Fresh x) (fabric : Option Fabric) (hidx : ∀ y ∈ fabric, y.fabIdx = f)
    (hne : x.getLocalFabricIdx ≠ f)
    (hfab : d'.fabrics = removeKey Fabric.fabIdx d.fabrics f ++ fabric.toList)
    (hst : d'.stamps = (restamp f d).stamps) : d'.Fresh x := by
  refine h.congr fun hget => ⟨?_, ?_⟩
  · rw [hfab, get_append_ne fun y hy hyx => hne (hyx.symm.trans (hidx y hy)), Fabrics.get,
      lookup_removeKey_ne hne]
    exact hget
  · rw [hst, stamps_restamp_ne hne]

/-- **A step leaves no session behind** unless the side condition fails. -/
theorem fresh_of_step (hwf : d.WellFormed) (hok : d.LeavesNone a)
    (h : ∀ x ∈ d.sessions.sessions, d.Fresh x) (heff : Effect a d d') :
    ∀ x ∈ d'.sessions.sessions, d'.Fresh x := by
  cases heff with
  | quiet hfab hkv hctx hst hss => exact fresh_of_kept h hfab hst hss
  | edited fabric hfrom hget hfab hkv hctx hst hss =>
    intro x hx
    rw [hss] at hx
    refine (h x hx).congr fun hne => ⟨?_, by rw [hst]⟩
    rw [Fabrics.get, lookup_ne_none, hfab, map_key_replaceKey rfl]
    exact lookup_ne_none.mp hne
  | removed id env fabIdx sess ha hsess hidx hget hfab hkv hctx hst hss =>
    intro x hx
    cases hexp : x.expired with
    | true => exact .inl hexp
    | false =>
      rw [hss] at hx
      have hmem := Sessions.mem_of_mem_removeForFabric hx hexp
      have hne : x.getLocalFabricIdx ≠ fabIdx := by
        intro hf
        refine Sessions.mem_removeForFabric (fun hid => ?_) hx hexp hf
        -- only a session on the fabric itself is kept for the response
        split_ifs at hid with hown
        exact hok.removes id env fabIdx sess ha hsess hown x hmem hexp hf (Option.some_inj.mp hid)
      exact (h x hmem).replaced none (by simp) hne (hfab.trans (List.append_nil _).symm) hst
  | added fabric hadd hctx hctx' hfree hlo hhi hlen hfab hkv hst hss =>
    intro x hx
    rcases hss x hx with hx | hfresh
    · refine (h x hx).congr fun hne => ?_
      have hidx : x.getLocalFabricIdx ≠ fabric.fabIdx := fun heq => hne (heq ▸ hfree)
      rw [hfab, hst, stamps_restamp_ne hidx, Fabrics.get, lookup_append_ne hidx.symm]
      exact ⟨hne, rfl⟩
    · exact hfresh
  | dropped fabIdx hctx hctx' hfree hfab hkv hst hss =>
    intro x hx
    rw [hss] at hx
    refine (h x hx).congr fun hne => ?_
    have hidx : x.getLocalFabricIdx ≠ fabIdx := fun heq => hne (heq ▸ hfree)
    rw [hfab, hst, stamps_restamp_ne hidx, stamps_restamp_ne hidx]
    exact ⟨hne, rfl⟩
  | armed fabIdx hctx hctx' hfab hkv hst hss => exact fresh_of_kept h hfab hst hss
  | ended env id hends hctx hctx' hfab hkv hst hss =>
    exact fresh_of_kept h hfab hst (sessionsKept_removePase hss)
  | rolledBack env id fabIdx hends hidx hctx hget hctx' hfab hkv hst hss =>
    obtain ⟨added, hctx⟩ := hctx
    intro x hx
    cases hexp : x.expired with
    | true => exact .inl hexp
    | false =>
      rw [hss] at hx
      have hmem := Sessions.mem_of_mem_removePase hx hexp
      have hne : x.getLocalFabricIdx ≠ fabIdx := by
        intro hf
        obtain ⟨hpase, -, -, hid⟩ := hok.ends env id fabIdx added hends hctx hget x hmem hexp hf
        rw [Sessions.mem_removePase hid hx hexp] at hpase
        cases hpase
      exact (h x hmem).replaced _ (fun y hy => (hwf.stored _ _ hy).1) hne hfab hst
  | failed env id fabIdx restored hends hworks hidx hctx hget hctx' hres hfab hkv hst hss =>
    obtain ⟨added, hctx⟩ := hctx
    intro x hx
    cases hexp : x.expired with
    | true => exact .inl hexp
    | false =>
      rw [hss] at hx
      have hne : x.getLocalFabricIdx ≠ fabIdx := by
        intro hf
        obtain ⟨-, hw, hn, -⟩ := hok.ends env id fabIdx added hends hctx hget x hx hexp hf
        rw [hw, hn] at hworks
        simp at hworks
      refine (h x hx).replaced _ (fun y hy => ?_) hne hfab hst
      rcases hres with rfl | rfl
      · cases hy
      · exact (hwf.stored _ _ hy).1
  | committed fabric ha hctx hget hctx' hfab hkv hst hss => exact fresh_of_kept h hfab hst hss
  | restarted ha hctx' hfab hlen hkv hss =>
    intro x hx
    rw [hss] at hx
    cases hx

/-- **No session outlives its fabric** in a run whose steps leave none behind. -/
theorem fresh_of_run (hok : (machine crypto).Meets LeavesNone factoryNew as)
    (hrun : (machine crypto).run factoryNew as = some d) : ∀ x ∈ d.sessions.sessions, d.Fresh x := by
  have hinv : d.WellFormed ∧ ∀ x ∈ d.sessions.sessions, d.Fresh x := by
    refine Machine.invariant_of_meets
      (I := fun s => s.WellFormed ∧ ∀ x ∈ s.sessions.sessions, s.Fresh x) ?_
      ⟨wellFormed_factoryNew, List.forall_mem_nil _⟩ hok hrun
    rintro s a s' hok ⟨hwf, hfresh⟩ hstep
    have heff := step_effect hwf.room hstep
    exact ⟨hwf.step heff, fresh_of_step hwf hok hfresh heff⟩
  exact hinv.2

theorem leavesNone_of_ne (hends : ∀ env id, ¬ a.Ends d env id)
    (hrem : ∀ id env f, a ≠ .invoke id env (.removeFabric f)) : d.LeavesNone a where
  ends env id _ _ h := absurd h (hends env id)
  removes id env f _ h := absurd h (hrem id env f)

theorem fresh_commissioned : ∃ d, (machine Sample.crypto).run factoryNew Sample.commissioned = some d ∧
    d.sessions.sessions.map (·.getLocalFabricIdx) = [1] ∧ ∀ x ∈ d.sessions.sessions, d.Fresh x := by
  have h : ((machine Sample.crypto).run factoryNew Sample.commissioned).map
      (fun d => d.sessions.sessions.map (·.getLocalFabricIdx)) = some [1] := by decide +kernel
  obtain ⟨d, hrun, hidx⟩ := Option.map_eq_some_iff.mp h
  refine ⟨d, hrun, hidx, fresh_of_run (Machine.meets_of_forall fun a ha s => ?_) hrun⟩
  simp only [Sample.commissioned, Sample.pase, Sample.addFabric, Sample.case, List.cons_append,
    List.nil_append, List.mem_cons, List.not_mem_nil, or_false] at ha
  rcases ha with rfl | rfl | rfl | rfl | rfl | rfl | rfl | rfl <;>
    exact leavesNone_of_ne (by rintro _ _ ⟨⟩) (by rintro _ _ _ ⟨⟩)

/-- A fabric is added and gets a CASE session, commissioning is not completed in time, and
another fabric is added. -/
def Sample.reused : List Action :=
  Sample.pase 0 0 ++ Sample.addFabric 0 9 ++ Sample.case 1 1 ++ [Action.tick (Sample.envAt 60000)] ++
    Sample.pase 2 60000 ++ Sample.addFabric 2 10

/-- The session of the first fabric is now on the second one. -/
theorem not_fresh_reused : ∃ d x, (machine Sample.crypto).run factoryNew Sample.reused = some d ∧
    d.sessions.get 1 = some x ∧ x.expired = false ∧ x.mode = .case 1 [] ∧
      (Fabrics.get d.fabrics 1).map Fabric.fabricId = some 10 ∧ ¬ d.Fresh x := by
  have h : ((machine Sample.crypto).run factoryNew Sample.reused).bind (fun d =>
      (d.sessions.get 1).map fun x =>
        ((x.expired, x.mode), (Fabrics.get d.fabrics 1).map Fabric.fabricId, (x.stamp, d.stamps 1))) =
        some ((false, .case 1 []), some 10, (1, 3)) := by decide +kernel
  obtain ⟨d, hrun, h⟩ := Option.bind_eq_some_iff.mp h
  obtain ⟨x, hget, h⟩ := Option.map_eq_some_iff.mp h
  simp only [Prod.mk.injEq] at h
  obtain ⟨⟨hexp, hmode⟩, hid, hstamp, hstamps⟩ := h
  have hidx : x.getLocalFabricIdx = 1 := by
    rw [StampedSession.getLocalFabricIdx, hmode]
    rfl
  refine ⟨d, x, hrun, hget, hexp, hmode, hid, ?_⟩
  rw [Fresh, hexp, hidx, hstamp, hstamps]
  simp

end Device

end RsMatter
