import RsMatter.Subscriptions

/-!
# When a subscription was last reported on (`dm.rs`, `dm/subscriptions.rs`)

A subscriber takes a subscription for dead if it does not hear of it for the maximum interval.
The time of the last report is kept with the subscription; a report is due once half of the
interval has passed, and a due report is sent even if there is nothing in it.

A report can also be started because something has changed, whether the subscription is about it
or not. If there turns out to be nothing to report, nothing is sent, but the time of the last report
moves on all the same. `Reporter` keeps beside the subscriptions when a report was really sent to
the subscriber and confirmed; the two agree as long as no such report is started.
-/

namespace RsMatter

structure Reporting where
  context : ReportContext
  /-- when a report was last sent and confirmed -/
  sentAt : Option ℕ
  deriving DecidableEq

/-- Is the report sent even if it turns out to be empty? -/
def ReportContext.shouldSendIfEmpty (c : ReportContext) (tickHz : ℕ) : Bool :=
  c.subscription.isReportDue tickHz c.nextReportedAt

/-- The subscriptions, with the times of the reports that were sent. -/
structure Reporter where
  subs : Subscriptions
  /-- for each subscription in the table, when a report was last sent and confirmed -/
  sentAt : List (Option ℕ)
  contexts : List Reporting
  deriving DecidableEq

namespace Reporter

def start : Reporter := ⟨.new, [], []⟩

def minMaxIntSecs : ℕ := 40

inductive Action where
  | notify (path : ChangedAttr)
  | subscribe (now fabIdx : ℕ) (peerNodeId : BitVec 64) (sessionId : BitVec 32)
      (minIntFloor maxIntCeil : BitVec 16) (eventNumbersWatermark : ℕ)
  | report (now eventNumbersWatermark : ℕ)
  /-- a context is through: is there anything to report, and is what was sent confirmed? -/
  | respond (index : ℕ) (hasData confirmed : Bool)
  | fail (index : ℕ)
  /-- the subscriptions with a reason are removed -/
  | remove (f : Subscription → Option String)
  /-- changes that were reported are dropped -/
  | purgeReportedChanges
  /-- a new data model clears the subscriptions -/
  | clear

def complete (r : Reporter) (cap index : ℕ) (c : Reporting) (sentAt : Option ℕ) (keep : Bool) :
    Option Reporter :=
  match r.subs.reportComplete cap c.context.committed keep with
  | some subs => some
    { subs
      sentAt := if keep && r.subs.reportingCancelled.isNone then r.sentAt ++ [sentAt] else r.sentAt
      contexts := r.contexts.eraseIdx index }
  | none => none

/-- One step; `none` where it is not possible, or panics. -/
def step (cap tickHz : ℕ) (r : Reporter) : Action → Option Reporter
  | .notify path =>
    some { r with subs := { r.subs with changedAttrs := (r.subs.changedAttrs.recordRaw path).2 } }
  | .subscribe now fabIdx peerNodeId sessionId minIntFloor maxIntCeil eventNumbersWatermark =>
    match r.subs.add cap now fabIdx peerNodeId sessionId minIntFloor.toNat
        (max maxIntCeil.toNat minMaxIntSecs) eventNumbersWatermark with
    | some (context, subs) => some { r with subs, contexts := r.contexts ++ [⟨context, none⟩] }
    | none => some r
  | .report now eventNumbersWatermark =>
    match r.subs.subscriptions.findIdx? fun sub =>
        sub.isReportable tickHz now r.subs.changedAttrs eventNumbersWatermark with
    | some index =>
      match r.subs.report tickHz now eventNumbersWatermark with
      | some (context, subs) => some
        { subs
          sentAt := swapRemove r.sentAt index
          contexts := r.contexts ++ [⟨context, (r.sentAt[index]?).join⟩] }
      | none => none
    | none => some r
  | .respond index hasData confirmed =>
    match r.contexts[index]? with
    | some c =>
      if c.context.shouldSendIfEmpty tickHz || hasData then
        r.complete cap index c (some c.context.nextReportedAt) confirmed
      -- nothing is sent, and the subscription is kept as if it had been reported on
      else r.complete cap index c c.sentAt true
    | none => none
  | .fail index =>
    match r.contexts[index]? with
    | some c => r.complete cap index c c.sentAt false
    | none => none
  | .remove f =>
    some { r with
      subs := r.subs.remove f
      sentAt := swapRemoveBoth (fun sub => (f sub).isSome) r.subs.subscriptions.length
        r.subs.subscriptions r.sentAt }
  | .purgeReportedChanges => some { r with subs := r.subs.purgeReportedChanges }
  | .clear => some { r with subs := r.subs.clear, sentAt := [] }

/-- The reporter as a machine, with room for `cap` subscriptions. -/
def machine (cap tickHz : ℕ) : Machine Reporter Action := ⟨step cap tickHz⟩

/-- The times that are kept are those of reports that were sent. -/
structure Truthful (tickHz : ℕ) (r : Reporter) : Prop where
  /-- a report was sent at the time that is kept -/
  sent : r.sentAt = r.subs.subscriptions.map fun sub => some sub.reportedAt
  /-- once the reporter is through, nobody is due, going by what was sent -/
  through : ∀ now eventNumbersWatermark, r.subs.report tickHz now eventNumbersWatermark = none →
    ∀ (i : ℕ) (sub : Subscription) (t : Option ℕ), r.subs.subscriptions[i]? = some sub →
      r.sentAt[i]? = some t →
      ∃ s, t = some s ∧ { sub with reportedAt := s }.isReportDue tickHz now = false
  /-- whoever was not sent anything for the maximum interval is seen as expired -/
  expired : ∀ (i : ℕ) (sub : Subscription) (s now : ℕ), r.subs.subscriptions[i]? = some sub →
    r.sentAt[i]? = some (some s) → s + sub.maxIntSecs * tickHz ≤ now →
    sub.isExpired tickHz now = true

/-- The condition on a step: a subscription that is not due is reported on only if there is
something to report; the minimum interval is at most half of the maximum one; and the end of time
is not near. -/
def Sincere (tickHz : ℕ) (r : Reporter) : Action → Prop
  | .subscribe now _ _ _ minIntFloor maxIntCeil _ =>
    minIntFloor.toNat ≤ max maxIntCeil.toNat minMaxIntSecs - max maxIntCeil.toNat minMaxIntSecs / 2 ∧
      now + 2 ^ 16 * tickHz ≤ instantMax
  | .report now _ => now + 2 ^ 16 * tickHz ≤ instantMax
  | .respond index hasData _ => ∀ c, r.contexts[index]? = some c →
      c.context.shouldSendIfEmpty tickHz = true ∨ hasData = true
  | _ => True

/-! ## The invariant -/

/-- The intervals of a subscription are in order. -/
def InOrder (sub : Subscription) : Prop :=
  sub.minIntSecs ≤ sub.maxIntSecs - sub.maxIntSecs / 2 ∧ sub.maxIntSecs ≤ 2 ^ 16

structure Inv (tickHz : ℕ) (r : Reporter) : Prop where
  /-- a report was sent at the time that is kept -/
  sent : r.sentAt = r.subs.subscriptions.map fun sub => some sub.reportedAt
  order : ∀ sub ∈ r.subs.subscriptions, InOrder sub
  early : ∀ sub ∈ r.subs.subscriptions, sub.reportedAt + 2 ^ 16 * tickHz ≤ instantMax
  flight : ∀ c ∈ r.contexts, InOrder c.context.subscription ∧
    c.context.nextReportedAt + 2 ^ 16 * tickHz ≤ instantMax

variable {r r' : Reporter} {cap tickHz : ℕ}

theorem inv_start : Inv tickHz start := by
  refine ⟨rfl, ?_, ?_, ?_⟩
  · intro sub hsub
    cases hsub
  · intro sub hsub
    cases hsub
  · intro c hc
    cases hc

theorem checkedAddSecs_of_early {sub : Subscription} (horder : InOrder sub)
    (hearly : sub.reportedAt + 2 ^ 16 * tickHz ≤ instantMax) :
    Subscription.checkedAddSecs tickHz sub.reportedAt sub.maxIntSecs =
      some (sub.reportedAt + sub.maxIntSecs * tickHz) := by
  have : sub.maxIntSecs * tickHz ≤ 2 ^ 16 * tickHz := Nat.mul_le_mul_right _ horder.2
  exact if_pos (by omega)

theorem isReportAllowed_of_due {sub : Subscription} {now : ℕ} (horder : InOrder sub)
    (hearly : sub.reportedAt + 2 ^ 16 * tickHz ≤ instantMax)
    (hdue : sub.isReportDue tickHz now = true) : sub.isReportAllowed tickHz now = true := by
  have hmin : sub.minIntSecs * tickHz + sub.maxIntSecs / 2 * tickHz ≤ sub.maxIntSecs * tickHz := by
    rw [← Nat.add_mul]
    have hmin := horder.1
    exact Nat.mul_le_mul_right _ (by omega)
  rw [Subscription.isReportDue, checkedAddSecs_of_early horder hearly] at hdue
  dsimp only at hdue
  rw [Bool.or_eq_true, decide_eq_true_eq, decide_eq_true_eq] at hdue
  rw [Subscription.isReportAllowed, Subscription.checkedAddSecs]
  split
  · next next hnext =>
    split at hnext
    · cases hnext
      rw [decide_eq_true_eq]
      omega
    · cases hnext
  · rfl

theorem Inv.truthful (hI : Inv tickHz r) : Truthful tickHz r := by
  have hget : ∀ (i : ℕ) (sub : Subscription) (t : Option ℕ),
      r.subs.subscriptions[i]? = some sub → r.sentAt[i]? = some t → t = some sub.reportedAt := by
    intro i sub t hsub ht
    rw [hI.sent, List.getElem?_map, hsub, Option.map_some, Option.some_inj] at ht
    exact ht.symm
  refine ⟨hI.sent, ?_, ?_⟩
  · intro now watermark hnone i sub t hsub ht
    refine ⟨sub.reportedAt, hget i sub t hsub ht, ?_⟩
    have hmem := List.mem_of_getElem? hsub
    have hnot := Subscriptions.report_eq_none hnone sub hmem
    refine Bool.eq_false_of_not_eq_true fun hdue => ?_
    have hdue : sub.isReportDue tickHz now = true := hdue
    have hallowed := isReportAllowed_of_due (hI.order sub hmem) (hI.early sub hmem) hdue
    rw [Subscription.isReportable, hallowed, hdue] at hnot
    cases hnot
  · intro i sub s now hsub hs hlate
    have hs := hget i sub (some s) hsub hs
    rw [Option.some_inj] at hs
    subst hs
    have hmem := List.mem_of_getElem? hsub
    rw [Subscription.isExpired, checkedAddSecs_of_early (hI.order sub hmem) (hI.early sub hmem)]
    exact decide_eq_true hlate

/-! ## Step by step -/

theorem Inv.withChanges (hI : Inv tickHz r) (changedAttrs : ChangedAttrs) :
    Inv tickHz { r with subs := { r.subs with changedAttrs } } :=
  ⟨hI.sent, hI.order, hI.early, hI.flight⟩

theorem Inv.leave (hI : Inv tickHz r) {subs : Subscriptions} {sentAt : List (Option ℕ)}
    (hsent : sentAt = subs.subscriptions.map fun sub => some sub.reportedAt)
    (hmem : ∀ sub ∈ subs.subscriptions, sub ∈ r.subs.subscriptions) :
    Inv tickHz { r with subs, sentAt } :=
  ⟨hsent, fun sub hsub => hI.order sub (hmem sub hsub),
    fun sub hsub => hI.early sub (hmem sub hsub), hI.flight⟩

theorem Inv.addContext (hI : Inv tickHz r) {c : Reporting}
    (horder : InOrder c.context.subscription)
    (hearly : c.context.nextReportedAt + 2 ^ 16 * tickHz ≤ instantMax) :
    Inv tickHz { r with contexts := r.contexts ++ [c] } := by
  refine ⟨hI.sent, hI.order, hI.early, ?_⟩
  intro c' hc'
  rcases List.mem_append.mp hc' with hc' | hc'
  · exact hI.flight c' hc'
  · rw [List.mem_singleton.mp hc']
    exact ⟨horder, hearly⟩

theorem Inv.subscribe (hI : Inv tickHz r) {now fabIdx watermark minIntSecs maxIntSecs : ℕ}
    {peerNodeId : BitVec 64} {sessionId : BitVec 32} {context : ReportContext}
    {subs : Subscriptions} (hmin : minIntSecs ≤ maxIntSecs - maxIntSecs / 2)
    (hmax : maxIntSecs ≤ 2 ^ 16) (hearly : now + 2 ^ 16 * tickHz ≤ instantMax)
    (h : r.subs.add cap now fabIdx peerNodeId sessionId minIntSecs maxIntSecs watermark =
      some (context, subs)) :
    Inv tickHz { r with subs, contexts := r.contexts ++ [⟨context, none⟩] } := by
  rw [Subscriptions.add] at h
  split at h
  · cases h
  · cases h
    have hI' : Inv tickHz { r with subs := { r.subs with
        subscriptionsCount := r.subs.subscriptionsCount + 1
        nextSubscriptionId := (r.subs.nextSubscriptionId + 1) % 2 ^ 32 } } :=
      ⟨hI.sent, hI.order, hI.early, hI.flight⟩
    exact hI'.addContext ⟨hmin, hmax⟩ hearly

theorem Inv.report (hI : Inv tickHz r) {now watermark index : ℕ} {context : ReportContext}
    {subs : Subscriptions} (hearly : now + 2 ^ 16 * tickHz ≤ instantMax)
    (hindex : (r.subs.subscriptions.findIdx? fun sub =>
      sub.isReportable tickHz now r.subs.changedAttrs watermark) = some index)
    (h : r.subs.report tickHz now watermark = some (context, subs)) :
    Inv tickHz
      { subs
        sentAt := swapRemove r.sentAt index
        contexts := r.contexts ++ [⟨context, (r.sentAt[index]?).join⟩] } := by
  obtain ⟨index', sub, hindex', hsub, rfl, htable, -⟩ := Subscriptions.report_eq_some h
  rw [hindex, Option.some_inj] at hindex'
  subst hindex'
  obtain ⟨hlt, -⟩ := List.getElem?_eq_some_iff.mp hsub
  have hleave : Inv tickHz { r with subs, sentAt := swapRemove r.sentAt index } := by
    refine hI.leave ?_ ?_
    · rw [htable, map_swapRemove, hI.sent]
    · intro sub' hsub'
      rw [htable] at hsub'
      exact mem_of_mem_swapRemove hlt hsub'
  exact hleave.addContext (hI.order sub (List.mem_of_getElem? hsub)) hearly

theorem Inv.complete (hI : Inv tickHz r) {index : ℕ} {c : Reporting} {sentAt : Option ℕ}
    {keep : Bool} (hc : r.contexts[index]? = some c)
    (hsent : keep = true → sentAt = some c.context.nextReportedAt)
    (h : r.complete cap index c sentAt keep = some r') : Inv tickHz r' := by
  obtain ⟨horder, hearly⟩ := hI.flight c (List.mem_of_getElem? hc)
  have hflight : ∀ c' ∈ r.contexts.eraseIdx index, InOrder c'.context.subscription ∧
      c'.context.nextReportedAt + 2 ^ 16 * tickHz ≤ instantMax :=
    fun c' hc' => hI.flight c' (List.mem_of_mem_eraseIdx hc')
  rw [Reporter.complete] at h
  split at h
  · next subs hsubs =>
    cases h
    rcases Subscriptions.reportComplete_cases hsubs with ⟨hdrop, htable, -⟩ | ⟨hkeep, htable, -⟩
    · rw [hdrop, if_neg (by simp)]
      refine ⟨?_, ?_, ?_, hflight⟩
      · dsimp only
        rw [htable]
        exact hI.sent
      · dsimp only
        rw [htable]
        exact hI.order
      · dsimp only
        rw [htable]
        exact hI.early
    · rw [hkeep, if_pos rfl]
      have hkept := (Bool.and_eq_true _ _).mp hkeep
      refine ⟨?_, ?_, ?_, hflight⟩
      · dsimp only
        rw [htable, List.map_append, hI.sent, hsent hkept.1]
        rfl
      · intro sub hsub
        dsimp only at hsub
        rw [htable] at hsub
        rcases List.mem_append.mp hsub with hsub | hsub
        · exact hI.order sub hsub
        · rw [List.mem_singleton.mp hsub]
          exact horder
      · intro sub hsub
        dsimp only at hsub
        rw [htable] at hsub
        rcases List.mem_append.mp hsub with hsub | hsub
        · exact hI.early sub hsub
        · rw [List.mem_singleton.mp hsub]
          exact hearly
  · cases h

theorem Inv.remove (hI : Inv tickHz r) (f : Subscription → Option String) :
    Inv tickHz { r with
      subs := r.subs.remove f
      sentAt := swapRemoveBoth (fun sub => (f sub).isSome) r.subs.subscriptions.length
        r.subs.subscriptions r.sentAt } := by
  refine hI.leave ?_ ?_
  · have hpaired : r.sentAt.map id = r.subs.subscriptions.map fun sub => some sub.reportedAt := by
      rw [List.map_id]
      exact hI.sent
    have h := map_swapRemoveBoth (fun sub => (f sub).isSome) _ _ r.subs.subscriptions.length hpaired
    rw [List.map_id] at h
    rw [h, Subscriptions.subscriptions_remove, swapRemoveWhere_eq_firsts]
  · intro sub hsub
    rw [Subscriptions.subscriptions_remove, mem_swapRemoveWhere] at hsub
    exact hsub.1

/-- **Step.** -/
theorem Inv.step {a : Action} (hI : Inv tickHz r) (hok : r.Sincere tickHz a)
    (h : r.step cap tickHz a = some r') : Inv tickHz r' := by
  cases a with
  | notify path =>
    cases h
    exact hI.withChanges _
  | subscribe now fabIdx peerNodeId sessionId minIntFloor maxIntCeil watermark =>
    simp only [Reporter.step] at h
    split at h
    · next hadd =>
      cases h
      refine hI.subscribe hok.1 ?_ hok.2 hadd
      have := maxIntCeil.isLt
      rw [minMaxIntSecs]
      omega
    · cases h
      exact hI
  | report now watermark =>
    simp only [Reporter.step] at h
    split at h
    · next hindex =>
      split at h
      · next hreport =>
        cases h
        exact hI.report hok hindex hreport
      · cases h
    · cases h
      exact hI
  | respond index hasData confirmed =>
    simp only [Reporter.step] at h
    split at h
    · next c hc =>
      split at h
      · exact hI.complete hc (fun _ => rfl) h
      · next hskip =>
        -- this is where nothing would be sent
        rw [Bool.or_eq_true] at hskip
        exact absurd (hok c hc) hskip
    · cases h
  | fail index =>
    simp only [Reporter.step] at h
    split at h
    · next c hc =>
      refine hI.complete hc ?_ h
      intro hkeep
      cases hkeep
    · cases h
  | remove f =>
    cases h
    exact hI.remove f
  | purgeReportedChanges =>
    cases h
    refine hI.leave ?_ ?_
    · rw [Subscriptions.subscriptions_purgeReportedChanges]
      exact hI.sent
    · intro sub hsub
      rwa [Subscriptions.subscriptions_purgeReportedChanges] at hsub
  | clear =>
    cases h
    refine hI.leave ?_ ?_
    · rw [Subscriptions.subscriptions_clear]
      rfl
    · intro sub hsub
      rw [Subscriptions.subscriptions_clear] at hsub
      cases hsub

/-- **Runs.** The times are those of reports that were sent, in every run in which a report is
started only if it is due or if there is something to report. -/
theorem truthful_of_sincere {as : List Action}
    (hok : (machine cap tickHz).Meets (Sincere tickHz) start as)
    (hrun : (machine cap tickHz).run start as = some r) : Truthful tickHz r := by
  have hstep : ∀ (r : Reporter) (a : Action) (r' : Reporter), r.Sincere tickHz a → Inv tickHz r →
      (machine cap tickHz).step r a = some r' → Inv tickHz r' := by
    intro r a r' hok hI h
    exact hI.step hok h
  exact (Machine.invariant_of_meets hstep inv_start hok hrun).truthful

/-! ## Reports that are skipped -/

/-- A subscription is accepted and primed; a change elsewhere starts a report. -/
def changeElsewhere : List Action :=
  [.subscribe 0 1 7 3 0 60 0, .respond 0 true true, .notify ⟨5, 6, 7, 0⟩, .report 10 0]

theorem meets_changeElsewhere : (machine 3 1).Meets (Sincere 1) start
    (changeElsewhere ++ [.respond 0 true true]) := by
  have hearly : 10 + 2 ^ 16 * 1 ≤ instantMax := by decide
  refine (Machine.meets_cons rfl).mpr ⟨⟨by decide, by decide⟩, ?_⟩
  refine (Machine.meets_cons rfl).mpr ⟨fun _ _ => .inr rfl, ?_⟩
  refine (Machine.meets_cons rfl).mpr ⟨trivial, ?_⟩
  refine (Machine.meets_cons rfl).mpr ⟨hearly, ?_⟩
  exact (Machine.meets_cons rfl).mpr ⟨fun _ _ => .inr rfl, trivial⟩

theorem truthful_changeElsewhere : ∃ r, (machine 3 1).run start
    (changeElsewhere ++ [.respond 0 true true]) = some r ∧ Truthful 1 r := by
  obtain ⟨r, hr⟩ := Option.isSome_iff_exists.mp (by decide +kernel :
    ((machine 3 1).run start (changeElsewhere ++ [.respond 0 true true])).isSome = true)
  exact ⟨r, hr, truthful_of_sincere meets_changeElsewhere hr⟩

/-- Nothing is sent at ten seconds, yet that is the time that is kept. -/
theorem untruthful_changeElsewhere : ¬ ∀ (as : List Action) (r : Reporter),
    (machine 3 1).run start as = some r → Truthful 1 r := by
  intro h
  obtain ⟨r, hr⟩ := Option.isSome_iff_exists.mp (by decide +kernel :
    ((machine 3 1).run start (changeElsewhere ++ [.respond 0 false true])).isSome = true)
  have htimes : ((machine 3 1).run start (changeElsewhere ++ [.respond 0 false true])).map
      (fun r => (r.sentAt, r.subs.subscriptions.map (·.reportedAt))) = some ([some 0], [10]) := by
    decide +kernel
  rw [hr, Option.map_some, Option.some_inj, Prod.mk.injEq] at htimes
  obtain ⟨hsent, htable⟩ := htimes
  have htruth := (h _ r hr).sent
  rw [hsent, ← Function.comp_def some Subscription.reportedAt, ← List.map_map, htable] at htruth
  exact absurd htruth (by decide)

end Reporter

end RsMatter
