import RsMatter.Subscriptions

/-!
# Changes and subscriptions that have not seen them

A recorded change must stay visible to every live subscription until that
subscription has committed a watermark at or past it. This holds along every run
whose purges are *safe* (`SubRun.PurgeSafe`): whatever a subscription outside the
table has not seen is also unseen by some subscription in the table, which is what
keeps it from being purged. The code purges without looking outside the table, and
`change_lost_while_priming` is the run in which a change gets lost that way.
-/

namespace RsMatter

namespace SubRun

/-- A recorded change is visible from every watermark before it: there is something to
report, and each attribute under its path is to be reported. -/
def Visible (t : ChangedAttrs) (change : ChangedAttr) : Prop :=
  ∀ since < change.changeId, t.anySince since = true ∧
    ∀ endpoint cluster attr, change.matches endpoint cluster attr = true →
      t.containsSince endpoint cluster attr since = true

def NoLostChange (r : SubRun) : Prop :=
  ∀ change ∈ r.log, ∀ sub ∈ r.live, sub.maxSeenAttrChangeId < change.changeId →
    Visible r.subs.changedAttrs change

/-- The condition on a step. At a purge, a change that a subscription outside the table
has not seen is unseen by a subscription in the table too; and change ids do not wrap. -/
def PurgeSafe (r : SubRun) : SubAction → Prop
  | .purgeReportedChanges =>
    ∀ context ∈ r.contexts, ∀ x ∈ r.subs.changedAttrs.entries,
      context.subscription.maxSeenAttrChangeId < x.changeId →
        ∃ sub ∈ r.subs.subscriptions, sub.maxSeenAttrChangeId < x.changeId
  | .notifyAttrChanged .. => r.subs.changedAttrs.nextChangeId + 1 < 2 ^ 64
  | .notifyClusterChanged .. => r.subs.changedAttrs.nextChangeId + 1 < 2 ^ 64
  | .notifyEndpointChanged .. => r.subs.changedAttrs.nextChangeId + 1 < 2 ^ 64
  | .notifyAllChanged => r.subs.changedAttrs.nextChangeId + 1 < 2 ^ 64
  | _ => True

/-! ## The invariant -/

/-- Ids and watermarks are in order, and unseen changes are covered. -/
structure Inv (r : SubRun) : Prop where
  /-- the table of changes is well formed -/
  wf : r.subs.changedAttrs.WF
  log_lt : ∀ change ∈ r.log, change.changeId < r.subs.changedAttrs.nextChangeId
  /-- a context commits a watermark that is past the one it found -/
  commit : ∀ c ∈ r.contexts, c.subscription.maxSeenAttrChangeId ≤ c.nextMaxSeenAttrChangeId ∧
    c.nextMaxSeenAttrChangeId < r.subs.changedAttrs.nextChangeId
  /-- watermarks in the table were given out -/
  seen_lt : ∀ sub ∈ r.subs.subscriptions,
    sub.maxSeenAttrChangeId < r.subs.changedAttrs.nextChangeId
  /-- a change a live subscription has not seen is covered by a recent enough entry -/
  covered : ∀ change ∈ r.log, ∀ sub ∈ r.live, sub.maxSeenAttrChangeId < change.changeId →
    ∃ y ∈ r.subs.changedAttrs.entries, y.covers change = true ∧ change.changeId ≤ y.changeId

variable {r r' : SubRun}

theorem inv_start : Inv start :=
  ⟨ChangedAttrs.wf_new, fun _ h => absurd h List.not_mem_nil, fun _ h => absurd h List.not_mem_nil,
    fun _ h => absurd h List.not_mem_nil, fun _ h => absurd h List.not_mem_nil⟩

theorem visible_of_covers {t : ChangedAttrs} {change y : ChangedAttr} (hy : y ∈ t.entries)
    (hcov : y.covers change = true) (hle : change.changeId ≤ y.changeId) :
    Visible t change := by
  intro since hs
  have hlt : since < y.changeId := Nat.lt_of_lt_of_le hs hle
  refine ⟨List.any_eq_true.mpr ⟨y, hy, decide_eq_true hlt⟩, ?_⟩
  intro endpoint cluster attr hm
  refine List.any_eq_true.mpr ⟨y, hy, ?_⟩
  rw [Bool.and_eq_true]
  exact ⟨decide_eq_true hlt, ChangedAttr.matches_of_covers hcov hm⟩

theorem Inv.noLostChange (h : Inv r) : NoLostChange r := by
  intro change hc sub hsub hlt
  obtain ⟨y, hy, hcov, hle⟩ := h.covered change hc sub hsub hlt
  exact visible_of_covers hy hcov hle

/-- A change is recorded: it is covered under its new id, and nothing else got lost. -/
theorem Inv.notify (h : Inv r) (hlt : r.subs.changedAttrs.nextChangeId + 1 < 2 ^ 64)
    (path : ChangedAttr) : Inv (r.notify path) := by
  obtain ⟨hwf, hnext, hins⟩ := h.wf.recordRaw hlt path
  have hle : r.subs.changedAttrs.nextChangeId ≤
      (r.subs.changedAttrs.recordRaw path).2.nextChangeId := by
    rw [hnext]
    exact Nat.le_succ _
  refine ⟨hwf, ?_, ?_, ?_, ?_⟩
  · intro change hc
    rcases List.mem_cons.mp hc with rfl | hc
    · show r.subs.changedAttrs.nextChangeId <
        (r.subs.changedAttrs.recordRaw path).2.nextChangeId
      rw [hnext]
      exact Nat.lt_succ_self _
    · exact Nat.lt_of_lt_of_le (h.log_lt change hc) hle
  · intro c hc
    obtain ⟨h₁, h₂⟩ := h.commit c hc
    exact ⟨h₁, Nat.lt_of_lt_of_le h₂ hle⟩
  · intro sub hsub
    exact Nat.lt_of_lt_of_le (h.seen_lt sub hsub) hle
  · intro change hc sub hsub hseen
    rcases List.mem_cons.mp hc with rfl | hc
    · exact hins.covered
    · obtain ⟨y, hy, hcov, hid⟩ := h.covered change hc sub hsub hseen
      obtain ⟨z, hz, hzy, hle'⟩ := hins.dominates y hy
      exact ⟨z, hz, ChangedAttr.covers_trans hzy hcov, Nat.le_trans hid hle'⟩

/-- A step that leaves the changes alone: it is enough that every live subscription was
live before with a watermark that is not later, or has seen everything. -/
theorem Inv.of_live (h : Inv r) (hattrs : r'.subs.changedAttrs = r.subs.changedAttrs)
    (hlog : r'.log = r.log)
    (hcommit : ∀ c ∈ r'.contexts,
      c.subscription.maxSeenAttrChangeId ≤ c.nextMaxSeenAttrChangeId ∧
        c.nextMaxSeenAttrChangeId < r.subs.changedAttrs.nextChangeId)
    (hseen : ∀ sub ∈ r'.subs.subscriptions,
      sub.maxSeenAttrChangeId < r.subs.changedAttrs.nextChangeId)
    (hlive : ∀ sub' ∈ r'.live, sub'.maxSeenAttrChangeId = r.subs.changedAttrs.watermark ∨
      ∃ sub ∈ r.live, sub.maxSeenAttrChangeId ≤ sub'.maxSeenAttrChangeId) : Inv r' := by
  refine ⟨hattrs ▸ h.wf, ?_, ?_, ?_, ?_⟩
  · rw [hattrs, hlog]
    exact h.log_lt
  · rw [hattrs]
    exact hcommit
  · rw [hattrs]
    exact hseen
  · rw [hattrs, hlog]
    intro change hc sub' hsub' hlt
    rcases hlive sub' hsub' with hall | ⟨sub, hsub, hle⟩
    · have hid := h.log_lt change hc
      rw [hall, h.wf.watermark_eq] at hlt
      omega
    · exact h.covered change hc sub hsub (Nat.lt_of_le_of_lt hle hlt)

theorem Inv.watermark_lt (h : Inv r) :
    r.subs.changedAttrs.watermark < r.subs.changedAttrs.nextChangeId := by
  rw [h.wf.watermark_eq]
  have := h.wf.pos
  omega

/-- A context is opened whose subscription has a committed watermark from before. -/
theorem Inv.open_context (h : Inv r) {subs : Subscriptions} {c : ReportContext}
    (hattrs : subs.changedAttrs = r.subs.changedAttrs)
    (hsubs : ∀ sub ∈ subs.subscriptions, sub ∈ r.subs.subscriptions)
    (hnext : c.nextMaxSeenAttrChangeId = r.subs.changedAttrs.watermark)
    (hc : c.subscription.maxSeenAttrChangeId = r.subs.changedAttrs.watermark ∨
      c.subscription ∈ r.subs.subscriptions) :
    Inv { r with subs, contexts := r.contexts ++ [c] } := by
  have hle : c.subscription.maxSeenAttrChangeId ≤ r.subs.changedAttrs.watermark := by
    rcases hc with heq | hmem
    · exact Nat.le_of_eq heq
    · have := h.seen_lt _ hmem
      rw [h.wf.watermark_eq]
      omega
  refine h.of_live hattrs rfl ?_ (fun sub hsub => h.seen_lt sub (hsubs sub hsub)) ?_
  · intro c' hc'
    rcases List.mem_append.mp hc' with hc' | hc'
    · exact h.commit c' hc'
    · rw [List.mem_singleton.mp hc', hnext]
      exact ⟨hle, h.watermark_lt⟩
  · intro sub hsub
    rcases List.mem_append.mp hsub with hsub | hsub
    · exact .inr ⟨sub, List.mem_append_left _ (hsubs sub hsub), Nat.le_refl _⟩
    · obtain ⟨c', hc', rfl⟩ := List.mem_map.mp hsub
      rcases List.mem_append.mp hc' with hc' | hc'
      · exact .inr ⟨_, List.mem_append_right _ (List.mem_map.mpr ⟨c', hc', rfl⟩), Nat.le_refl _⟩
      · rw [List.mem_singleton.mp hc']
        rcases hc with heq | hmem
        · exact .inl heq
        · exact .inr ⟨_, List.mem_append_left _ hmem, Nat.le_refl _⟩

theorem Inv.shrink (h : Inv r) {subs : Subscriptions}
    (hattrs : subs.changedAttrs = r.subs.changedAttrs)
    (hsubs : ∀ sub ∈ subs.subscriptions, sub ∈ r.subs.subscriptions) :
    Inv { r with subs } := by
  refine h.of_live hattrs rfl h.commit (fun sub hsub => h.seen_lt sub (hsubs sub hsub)) ?_
  intro sub hsub
  rcases List.mem_append.mp hsub with hsub | hsub
  · exact .inr ⟨sub, List.mem_append_left _ (hsubs sub hsub), Nat.le_refl _⟩
  · exact .inr ⟨sub, List.mem_append_right _ hsub, Nat.le_refl _⟩

/-- A context is dropped: its subscription, if kept, has moved its watermark forward. -/
theorem Inv.complete (h : Inv r) {cap index : ℕ} {keep : Bool} {c : ReportContext}
    {subs : Subscriptions} (hc : r.contexts[index]? = some c)
    (hs : r.subs.reportComplete cap c.committed keep = some subs) :
    Inv { r with subs, contexts := r.contexts.eraseIdx index } := by
  have hmem : c ∈ r.contexts := List.mem_of_getElem? hc
  obtain ⟨hle, hlt⟩ := h.commit c hmem
  have hcases : subs.changedAttrs = r.subs.changedAttrs ∧
      ∀ sub ∈ subs.subscriptions, sub ∈ r.subs.subscriptions ∨ sub = c.committed := by
    rw [Subscriptions.reportComplete] at hs
    simp only at hs
    split at hs
    · cases hs
      exact ⟨rfl, fun sub hsub => .inl hsub⟩
    · split at hs
      · split at hs
        · cases hs
          refine ⟨rfl, fun sub hsub => ?_⟩
          rcases List.mem_append.mp hsub with hsub | hsub
          · exact .inl hsub
          · exact .inr (List.mem_singleton.mp hsub)
        · cases hs
      · cases hs
        exact ⟨rfl, fun sub hsub => .inl hsub⟩
  obtain ⟨hattrs, hsubs⟩ := hcases
  refine h.of_live hattrs rfl (fun c' hc' => h.commit c' (List.mem_of_mem_eraseIdx hc')) ?_ ?_
  · intro sub hsub
    rcases hsubs sub hsub with hold | rfl
    · exact h.seen_lt sub hold
    · exact hlt
  · intro sub hsub
    rcases List.mem_append.mp hsub with hsub | hsub
    · rcases hsubs sub hsub with hold | rfl
      · exact .inr ⟨sub, List.mem_append_left _ hold, Nat.le_refl _⟩
      · exact .inr ⟨c.subscription, List.mem_append_right _ (List.mem_map.mpr ⟨c, hmem, rfl⟩), hle⟩
    · obtain ⟨c', hc', rfl⟩ := List.mem_map.mp hsub
      exact .inr ⟨_, List.mem_append_right _
        (List.mem_map.mpr ⟨c', List.mem_of_mem_eraseIdx hc', rfl⟩), Nat.le_refl _⟩

/-- What a purge keeps: the entries some subscription in the table has not seen. -/
theorem mem_purge {s : Subscriptions} {x : ChangedAttr} (hx : x ∈ s.changedAttrs.entries)
    {sub : Subscription} (hsub : sub ∈ s.subscriptions)
    (hlt : sub.maxSeenAttrChangeId < x.changeId) :
    x ∈ s.purgeReportedChanges.changedAttrs.entries := by
  have hmem : sub.maxSeenAttrChangeId ∈ s.subscriptions.map (·.maxSeenAttrChangeId) :=
    List.mem_map.mpr ⟨sub, hsub, rfl⟩
  rw [Subscriptions.purgeReportedChanges]
  cases hmin : (s.subscriptions.map (·.maxSeenAttrChangeId)).min? with
  | none =>
    rw [List.min?_eq_none_iff] at hmin
    rw [hmin] at hmem
    cases hmem
  | some n =>
    have hn : n ≤ sub.maxSeenAttrChangeId := by
      exact (List.min?_eq_some_iff.mp hmin).2 _ hmem
    exact ChangedAttrs.mem_purgeUpTo hx (Nat.lt_of_le_of_lt hn hlt)

/-- **A safe purge** drops nothing that a live subscription has not seen. -/
theorem Inv.purge (h : Inv r) (hsafe : r.PurgeSafe .purgeReportedChanges) :
    Inv { r with subs := r.subs.purgeReportedChanges } := by
  have hconst : r.subs.purgeReportedChanges.subscriptions = r.subs.subscriptions ∧
      r.subs.purgeReportedChanges.changedAttrs.WF ∧
      r.subs.purgeReportedChanges.changedAttrs.nextChangeId =
        r.subs.changedAttrs.nextChangeId := by
    rw [Subscriptions.purgeReportedChanges]
    split
    · refine ⟨rfl, h.wf.purgeUpTo _, ?_⟩
      rw [ChangedAttrs.purgeUpTo]
      split <;> rfl
    · exact ⟨rfl, h.wf.clear, rfl⟩
  obtain ⟨hsubs, hwf, hnext⟩ := hconst
  refine ⟨hwf, ?_, ?_, ?_, ?_⟩
  · intro change hc
    exact hnext ▸ h.log_lt change hc
  · intro c hc
    exact hnext ▸ h.commit c hc
  · intro sub hsub
    rw [hsubs] at hsub
    exact hnext ▸ h.seen_lt sub hsub
  · intro change hc sub hsub hlt
    have hsub' : sub ∈ r.live := by
      rw [live, ← hsubs]
      exact hsub
    obtain ⟨y, hy, hcov, hle⟩ := h.covered change hc sub hsub' hlt
    have hunseen : sub.maxSeenAttrChangeId < y.changeId := Nat.lt_of_lt_of_le hlt hle
    refine ⟨y, ?_, hcov, hle⟩
    rcases List.mem_append.mp hsub' with htab | hout
    · exact mem_purge hy htab hunseen
    · -- a subscription outside the table: the condition names one inside it
      obtain ⟨c, hcm, rfl⟩ := List.mem_map.mp hout
      obtain ⟨sub', hsub', hlt'⟩ := hsafe c hcm y hy hunseen
      exact mem_purge hy hsub' hlt'

/-- **One step** whose purge, if it is one, is safe. -/
theorem Inv.step {cap tickHz : ℕ} {a : SubAction} (hsafe : r.PurgeSafe a) (h : Inv r)
    (hst : SubRun.step cap tickHz r a = some r') : Inv r' := by
  cases a with
  | notifyAttrChanged endpoint cluster attr =>
    cases hst
    exact h.notify hsafe _
  | notifyClusterChanged endpoint cluster =>
    cases hst
    exact h.notify hsafe _
  | notifyEndpointChanged endpoint =>
    cases hst
    exact h.notify hsafe _
  | notifyAllChanged =>
    cases hst
    exact h.notify hsafe _
  | add now fabIdx peerNodeId sessionId minIntSecs maxIntSecs eventNumbersWatermark =>
    rw [SubRun.step, Subscriptions.add] at hst
    split at hst
    · rename_i context subs ha
      split at ha
      · cases ha
      · cases ha
        cases hst
        exact h.open_context rfl (fun _ hsub => hsub) rfl (.inl rfl)
    · cases hst
      exact h
  | report now eventNumbersWatermark =>
    rw [SubRun.step, Subscriptions.report] at hst
    split at hst
    · rename_i context subs hr
      split at hr
      · rename_i index hidx
        split at hr
        · rename_i sub hsub
          cases hr
          cases hst
          have hlt : index < r.subs.subscriptions.length :=
            (List.getElem?_eq_some_iff.mp hsub).1
          exact h.open_context rfl (fun _ hm => mem_of_mem_swapRemove hlt hm) rfl
            (.inr (List.mem_of_getElem? hsub))
        · cases hr
      · cases hr
    · cases hst
      exact h
  | complete index keep =>
    rw [SubRun.step] at hst
    split at hst
    · rename_i context hc
      split at hst
      · rename_i subs hs
        cases hst
        exact h.complete hc hs
      · cases hst
    · cases hst
  | remove f =>
    cases hst
    refine h.shrink ?_ ?_
    · rw [Subscriptions.remove]
      simp only
      split
      · split <;> rfl
      · rfl
    · intro sub hsub
      rw [Subscriptions.remove] at hsub
      simp only at hsub
      split at hsub
      · split at hsub <;> exact (mem_swapRemoveWhere.mp hsub).1
      · exact (mem_swapRemoveWhere.mp hsub).1
  | clear =>
    cases hst
    refine h.shrink ?_ ?_
    · rw [Subscriptions.clear]
      split <;> rfl
    · intro sub hsub
      rw [Subscriptions.clear] at hsub
      split at hsub <;> cases hsub
  | purgeReportedChanges =>
    cases hst
    exact h.purge hsafe

/-- **No lost change.** Along every run whose purges are safe, a recorded change is visible
to every live subscription with an earlier committed watermark. -/
theorem noLostChange_of_purgeSafe {cap tickHz : ℕ} {as : List SubAction}
    (hsafe : (machine cap tickHz).Meets PurgeSafe start as)
    (hrun : (machine cap tickHz).run start as = some r) : NoLostChange r := by
  have hI : Inv r :=
    Machine.invariant_of_meets (I := Inv) (fun _ _ _ hok h hst => h.step hok hst) inv_start hsafe
      hrun
  exact hI.noLostChange

/-- A subscription is accepted and kept; while a second one is being primed, an attribute
changes and the reporter purges. -/
def safeRun : List SubAction :=
  [.add 0 1 7#64 3#32 0 60 0, .complete 0 true, .add 0 1 8#64 4#32 0 60 0,
    .notifyAttrChanged 1 6 0, .purgeReportedChanges]

theorem noLostChange_safeRun :
    ∃ r, (machine 3 1).run start safeRun = some r ∧ r.log.length = 1 ∧ r.live.length = 2 ∧
      NoLostChange r := by
  refine ⟨_, rfl, rfl, rfl, @noLostChange_of_purgeSafe _ 3 1 safeRun ?_ rfl⟩
  refine (Machine.meets_cons rfl).mpr ⟨trivial, (Machine.meets_cons rfl).mpr ⟨trivial,
    (Machine.meets_cons rfl).mpr ⟨trivial, (Machine.meets_cons rfl).mpr ⟨?_,
      (Machine.meets_cons rfl).mpr ⟨?_, trivial⟩⟩⟩⟩⟩
  · show 1 + 1 < 2 ^ 64
    decide
  · intro c _ x hx _
    refine ⟨_, List.mem_cons_self .., ?_⟩
    rw [List.mem_singleton.mp hx]
    decide

/-! ## A change lost while a subscription is being primed -/

/-- A subscription is accepted; while it is being primed an attribute changes and the
reporter purges; then the priming report completes and the subscription is kept. -/
def primingRun : List SubAction :=
  [.add 0 1 7#64 3#32 0 60 0, .notifyAttrChanged 1 6 0, .purgeReportedChanges, .complete 0 true]

/-- The subscription has committed watermark `0`, change `1` was recorded, and nothing is
left to report. -/
theorem change_lost_while_priming :
    ∃ r, (machine 3 1).run start primingRun = some r ∧
      r.log = [⟨1, 6, 0, 1⟩] ∧ r.live.map (·.maxSeenAttrChangeId) = [0] ∧
      r.subs.changedAttrs.containsSince 1 6 0 0 = false ∧
      r.subs.changedAttrs.anySince 0 = false ∧ ¬ NoLostChange r := by
  refine ⟨_, rfl, rfl, rfl, rfl, rfl, ?_⟩
  intro h
  have := (h ⟨1, 6, 0, 1⟩ (by decide) _ (List.mem_cons_self ..) (by decide) 0 (by decide)).1
  cases this

end SubRun

end RsMatter
