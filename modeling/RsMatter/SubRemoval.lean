import RsMatter.Subscriptions

/-!
# Which subscriptions a removal hits

A removal must hit every subscription that matches: in the table, being reported on or
being primed; and no other. `SubWatch` keeps beside a run what should be in the table:
a removal takes out what matches and dooms the contexts in flight that match, and a
doomed context does not return its subscription.

The code keeps track of one context only, in the slot for the subscription being reported
on. The table is what it should be along every run where a removal only ever matches the
context in the slot and no other context is dropped while that one is to be cancelled
(`SubWatch.exact_of_run`). A subscription that is being primed is not in the slot, and its
context empties the slot when it is dropped (`SubWatch.not_exact_priming`).
-/

namespace RsMatter

/-- A run of the subscriptions together with what should be in the table. -/
structure SubWatch where
  run : SubRun
  table : List Subscription
  /-- for each context in flight, has a removal matched it? -/
  doomed : List Bool
  /-- the context whose subscription is in the slot -/
  slot : Option ℕ

namespace SubWatch

def start : SubWatch := ⟨.start, [], [], none⟩

/-- What should be in the table after an action. -/
def nextTable (w : SubWatch) (tickHz : ℕ) : SubAction → List Subscription
  | .report now eventNumbersWatermark =>
    match w.run.subs.report tickHz now eventNumbersWatermark with
    | some (context, _) => w.table.erase context.subscription
    | none => w.table
  | .complete index keep =>
    match w.run.contexts[index]? with
    | some context =>
      if keep && w.doomed[index]? == some false then w.table ++ [context.committed] else w.table
    | none => w.table
  | .remove f => w.table.filter fun sub => (f sub).isNone
  | .clear => []
  | _ => w.table

def nextDoomed (w : SubWatch) (cap tickHz : ℕ) : SubAction → List Bool
  | .add now fabIdx peerNodeId sessionId minIntSecs maxIntSecs eventNumbersWatermark =>
    match w.run.subs.add cap now fabIdx peerNodeId sessionId minIntSecs maxIntSecs eventNumbersWatermark with
    | some _ => w.doomed ++ [false]
    | none => w.doomed
  | .report now eventNumbersWatermark =>
    match w.run.subs.report tickHz now eventNumbersWatermark with
    | some _ => w.doomed ++ [false]
    | none => w.doomed
  | .complete index _ => w.doomed.eraseIdx index
  | .remove f => List.zipWith (fun context d => d || (f context.subscription).isSome) w.run.contexts w.doomed
  | .clear =>
    match w.slot with
    | some i => w.doomed.set i true
    | none => w.doomed
  | _ => w.doomed

/-- Which context is in the slot after an action. -/
def nextSlot (w : SubWatch) (tickHz : ℕ) : SubAction → Option ℕ
  | .report now eventNumbersWatermark =>
    match w.run.subs.report tickHz now eventNumbersWatermark with
    | some _ => some w.run.contexts.length
    | none => w.slot
  | .complete _ _ => none
  | _ => w.slot

/-- The run takes a step, and what should be follows. -/
def machine (cap tickHz : ℕ) : Machine SubWatch SubAction where
  step w a :=
    (w.run.step cap tickHz a).map fun run =>
      ⟨run, w.nextTable tickHz a, w.nextDoomed cap tickHz a, w.nextSlot tickHz a⟩

def Exact (w : SubWatch) : Prop := w.run.subs.subscriptions.Perm w.table

/-- The condition on a step. A removal matches no context but the one in the slot; while that
one is to be cancelled, no other is dropped; and a report starts when the slot is free. -/
def InSlot (w : SubWatch) : SubAction → Prop
  | .remove f => ∀ (i : ℕ) context, w.run.contexts[i]? = some context →
      (f context.subscription).isSome = true → w.slot = some i
  | .complete index _ => w.run.subs.reportingCancelled.isSome = true → w.slot = some index
  | .report .. => w.run.subs.reporting = none ∧ w.run.subs.reportingCancelled = none
  | _ => True

/-! ## The invariant -/

/-- The slot and the flag say which context is doomed. -/
structure Inv (w : SubWatch) : Prop where
  exact : w.Exact
  length : w.doomed.length = w.run.contexts.length
  slot : w.run.subs.reporting = w.slot.bind fun i => (w.run.contexts[i]?).map (·.subscription)
  slot_lt : ∀ i ∈ w.slot, i < w.run.contexts.length
  /-- a doomed context is in the slot, and the flag is set -/
  doomed : ∀ i : ℕ, w.doomed[i]? = some true → w.slot = some i ∧ w.run.subs.reportingCancelled.isSome = true
  cancelled : w.run.subs.reportingCancelled.isSome = true → ∃ i, w.slot = some i ∧ w.doomed[i]? = some true

theorem inv_start : Inv start := ⟨.nil, rfl, rfl, nofun, nofun, nofun⟩

variable {w w' : SubWatch} {cap tickHz : ℕ}

theorem Inv.same (h : Inv w) {run : SubRun} (hsubs : run.subs.subscriptions = w.run.subs.subscriptions)
    (hreporting : run.subs.reporting = w.run.subs.reporting)
    (hcancelled : run.subs.reportingCancelled = w.run.subs.reportingCancelled)
    (hcontexts : run.contexts = w.run.contexts) : Inv { w with run } := by
  refine ⟨?_, ?_, ?_, ?_, ?_, ?_⟩
  · show run.subs.subscriptions.Perm w.table
    rw [hsubs]
    exact h.exact
  · exact h.length.trans (by rw [hcontexts])
  · show run.subs.reporting = _
    rw [hreporting, hcontexts]
    exact h.slot
  · rw [hcontexts]
    exact h.slot_lt
  · rw [hcancelled]
    exact h.doomed
  · rw [hcancelled]
    exact h.cancelled

theorem Inv.open (h : Inv w) {subs : Subscriptions} {context : ReportContext}
    (hsubs : subs.subscriptions = w.run.subs.subscriptions)
    (hreporting : subs.reporting = w.run.subs.reporting)
    (hcancelled : subs.reportingCancelled = w.run.subs.reportingCancelled) :
    Inv { w with
      run := { w.run with subs, contexts := w.run.contexts ++ [context] }
      doomed := w.doomed ++ [false] } := by
  have hmark : ∀ i : ℕ, (w.doomed ++ [false])[i]? = some true ↔ w.doomed[i]? = some true := by
    intro i
    rw [List.getElem?_append]
    split
    · rfl
    · next hge =>
      rw [List.getElem?_eq_none (Nat.le_of_not_lt hge)]
      rcases i - w.doomed.length with _ | n <;> simp
  refine ⟨?_, ?_, ?_, ?_, fun i hi => ?_, fun hc => ?_⟩
  · show subs.subscriptions.Perm w.table
    rw [hsubs]
    exact h.exact
  · simp [h.length]
  · show subs.reporting = _
    rw [hreporting, h.slot]
    cases hslot : w.slot with
    | none => rfl
    | some i =>
      have hlt := h.slot_lt i hslot
      simp only [Option.bind_some]
      rw [List.getElem?_append_left hlt]
  · intro i hi
    rw [List.length_append]
    exact (h.slot_lt i hi).trans_le (Nat.le_add_right _ _)
  · show _ ∧ subs.reportingCancelled.isSome = true
    rw [hcancelled]
    exact h.doomed i ((hmark i).mp hi)
  · have hc : subs.reportingCancelled.isSome = true := hc
    rw [hcancelled] at hc
    obtain ⟨i, hslot, hi⟩ := h.cancelled hc
    exact ⟨i, hslot, (hmark i).mpr hi⟩

theorem Inv.not_doomed (h : Inv w) (hc : w.run.subs.reportingCancelled = none) (i : ℕ) :
    w.doomed[i]? ≠ some true := by
  intro hi
  have hsome := (h.doomed i hi).2
  rw [hc] at hsome
  cases hsome

theorem Inv.report (h : Inv w) {now eventNumbersWatermark : ℕ} {context : ReportContext} {subs : Subscriptions}
    (hfree : w.run.subs.reportingCancelled = none)
    (hreport : w.run.subs.report tickHz now eventNumbersWatermark = some (context, subs)) :
    Inv ⟨{ w.run with subs, contexts := w.run.contexts ++ [context] }, w.table.erase context.subscription,
      w.doomed ++ [false], some w.run.contexts.length⟩ := by
  rw [Subscriptions.report] at hreport
  split at hreport
  · next index _ =>
    split at hreport
    · next sub hsub =>
      obtain ⟨hlt, rfl⟩ := List.getElem?_eq_some_iff.mp hsub
      cases hreport
      have hnone := h.not_doomed hfree
      refine ⟨?_, ?_, ?_, ?_, fun i hi => absurd hi ?_, fun hc => ?_⟩
      · -- the subscription leaves the table
        have hperm := (swapRemove_perm hlt).trans h.exact
        have herase := hperm.erase w.run.subs.subscriptions[index]
        rw [List.erase_cons_head] at herase
        exact herase
      · simp [h.length]
      · simp
      · intro i hi
        obtain rfl := Option.some.inj hi
        simp
      · show (w.doomed ++ [false])[i]? ≠ some true
        rw [List.getElem?_append]
        split
        · exact hnone i
        · rcases i - w.doomed.length with _ | n <;> simp
      · have hc : w.run.subs.reportingCancelled.isSome = true := hc
        rw [hfree] at hc
        cases hc
    · cases hreport
  · cases hreport

theorem Inv.complete (h : Inv w) {index : ℕ} {keep : Bool} {context : ReportContext} {subs : Subscriptions}
    (hslot : w.run.subs.reportingCancelled.isSome = true → w.slot = some index)
    (hcontext : w.run.contexts[index]? = some context)
    (hdone : w.run.subs.reportComplete cap context.committed keep = some subs) :
    Inv ⟨{ w.run with subs, contexts := w.run.contexts.eraseIdx index },
      if keep && w.doomed[index]? == some false then w.table ++ [context.committed] else w.table,
      w.doomed.eraseIdx index, none⟩ := by
  have hlt : index < w.doomed.length := by
    rw [h.length]
    exact (List.getElem?_eq_some_iff.mp hcontext).1
  -- the flag is for this context, if it is set at all
  have hflag : w.run.subs.reportingCancelled.isSome = w.doomed[index] := by
    cases hc : w.run.subs.reportingCancelled with
    | none =>
      have hne := h.not_doomed hc index
      rw [List.getElem?_eq_getElem hlt] at hne
      simpa using hne
    | some reason =>
      have hsome : w.run.subs.reportingCancelled.isSome = true := by rw [hc]; rfl
      obtain ⟨i, hi, hdoomed⟩ := h.cancelled hsome
      obtain rfl := Option.some.inj ((hslot hsome).symm.trans hi)
      rw [List.getElem?_eq_getElem hlt, Option.some_inj] at hdoomed
      rw [hdoomed]
      rfl
  have hothers : ∀ i : ℕ, (w.doomed.eraseIdx index)[i]? ≠ some true := by
    intro i hi
    rw [List.getElem?_eraseIdx] at hi
    split at hi
    · next hne =>
      obtain ⟨hs, hc⟩ := h.doomed i hi
      have := Option.some.inj ((hslot hc).symm.trans hs)
      omega
    · next hne =>
      obtain ⟨hs, hc⟩ := h.doomed (i + 1) hi
      have := Option.some.inj ((hslot hc).symm.trans hs)
      omega
  have hresult : subs.reporting = none ∧ subs.reportingCancelled = none ∧
      subs.subscriptions = if keep && !w.doomed[index] then w.run.subs.subscriptions ++ [context.committed]
        else w.run.subs.subscriptions := by
    rw [← hflag]
    rw [Subscriptions.reportComplete] at hdone
    simp only at hdone
    split at hdone
    · next hc =>
      cases hdone
      simp [hc]
    · next hc =>
      split at hdone
      · next hkeep =>
        split at hdone
        · cases hdone
          simp [hc, hkeep]
        · cases hdone
      · next hkeep =>
        cases hdone
        simp [hkeep]
  obtain ⟨hreporting, hcancelled, htable⟩ := hresult
  refine ⟨?_, ?_, hreporting, by rintro _ ⟨⟩, fun i hi => absurd hi (hothers i), fun hc => ?_⟩
  · show subs.subscriptions.Perm _
    have hmark : (w.doomed[index]? == some false) = !w.doomed[index] := by
      rw [List.getElem?_eq_getElem hlt]
      cases w.doomed[index] <;> rfl
    rw [htable, hmark]
    split
    · exact h.exact.append_right _
    · exact h.exact
  · simp only [List.length_eraseIdx, h.length]
  · have hc : subs.reportingCancelled.isSome = true := hc
    rw [hcancelled] at hc
    cases hc

theorem Inv.remove (h : Inv w) {f : Subscription → Option String}
    (hslot : ∀ (i : ℕ) context, w.run.contexts[i]? = some context →
      (f context.subscription).isSome = true → w.slot = some i) :
    Inv ⟨{ w.run with subs := w.run.subs.remove f }, w.table.filter fun sub => (f sub).isNone,
      List.zipWith (fun context d => d || (f context.subscription).isSome) w.run.contexts w.doomed, w.slot⟩ := by
  have hshape : (w.run.subs.remove f).subscriptions =
        swapRemoveWhere (fun sub => (f sub).isSome) w.run.subs.subscriptions ∧
      (w.run.subs.remove f).reporting = w.run.subs.reporting ∧
      ((w.run.subs.remove f).reportingCancelled.isSome = true ↔
        w.run.subs.reportingCancelled.isSome = true ∨
          ∃ sub, w.run.subs.reporting = some sub ∧ (f sub).isSome = true) := by
    rw [Subscriptions.remove]
    cases hc : w.run.subs.reportingCancelled with
    | some reason => simp
    | none =>
      cases hr : w.run.subs.reporting with
      | none => simp
      | some sub => cases hf : f sub <;> simp [hf]
  obtain ⟨htable, hreporting, hcancelled⟩ := hshape
  -- the context in the slot is the one whose subscription is there
  have hof : ∀ i, w.slot = some i → ∃ context, w.run.contexts[i]? = some context ∧
      w.run.subs.reporting = some context.subscription := by
    intro i hi
    have hcontext := List.getElem?_eq_getElem (h.slot_lt i hi)
    refine ⟨_, hcontext, ?_⟩
    rw [h.slot, hi, Option.bind_some, hcontext, Option.map_some]
  have hmark : ∀ i : ℕ, (List.zipWith (fun context d => d || (f context.subscription).isSome)
      w.run.contexts w.doomed)[i]? = some true ↔
      ∃ context, w.run.contexts[i]? = some context ∧
        (w.doomed[i]? = some true ∨ w.doomed[i]? = some false ∧ (f context.subscription).isSome = true) := by
    intro i
    rw [List.getElem?_zipWith]
    cases w.run.contexts[i]? with
    | none => simp
    | some context => rcases w.doomed[i]? with _ | _ | _ <;> simp
  refine ⟨?_, ?_, ?_, h.slot_lt, fun i hi => ?_, fun hc => ?_⟩
  · show (w.run.subs.remove f).subscriptions.Perm _
    rw [htable]
    refine (swapRemoveWhere_perm _ _).trans ?_
    have heq : (fun sub => !(f sub).isSome) = fun sub => (f sub).isNone := by
      funext sub
      cases f sub <;> rfl
    rw [heq]
    exact h.exact.filter _
  · simp [h.length]
  · exact hreporting.trans h.slot
  · obtain ⟨context, hcontext, hd | ⟨-, hf⟩⟩ := (hmark i).mp hi
    · obtain ⟨hs, hc⟩ := h.doomed i hd
      exact ⟨hs, hcancelled.mpr (.inl hc)⟩
    · have hs := hslot i context hcontext hf
      obtain ⟨context', hcontext', hreport⟩ := hof i hs
      obtain rfl := Option.some.inj (hcontext.symm.trans hcontext')
      exact ⟨hs, hcancelled.mpr (.inr ⟨_, hreport, hf⟩)⟩
  · rcases hcancelled.mp hc with hc | ⟨sub, hsub, hf⟩
    · obtain ⟨i, hs, hd⟩ := h.cancelled hc
      obtain ⟨context, hcontext, -⟩ := hof i hs
      exact ⟨i, hs, (hmark i).mpr ⟨context, hcontext, .inl hd⟩⟩
    · cases hs : w.slot with
      | none =>
        rw [h.slot, hs] at hsub
        cases hsub
      | some i =>
        obtain ⟨context, hcontext, hreport⟩ := hof i hs
        obtain rfl := Option.some.inj (hreport.symm.trans hsub)
        refine ⟨i, rfl, (hmark i).mpr ⟨context, hcontext, ?_⟩⟩
        have hlt : i < w.doomed.length := h.length ▸ h.slot_lt i hs
        rw [List.getElem?_eq_getElem hlt]
        cases w.doomed[i] <;> simp [hf]

theorem Inv.clear (h : Inv w) :
    Inv ⟨{ w.run with subs := w.run.subs.clear }, [],
      match w.slot with
      | some i => w.doomed.set i true
      | none => w.doomed, w.slot⟩ := by
  have hreporting : w.run.subs.clear.reporting = w.run.subs.reporting := by
    rw [Subscriptions.clear]
    split <;> rfl
  have hempty : w.run.subs.clear.subscriptions = [] := by
    rw [Subscriptions.clear]
    split <;> rfl
  cases hs : w.slot with
  | none =>
    have hnone : w.run.subs.reporting = none := by rw [h.slot, hs]; rfl
    have hcancelled : w.run.subs.clear.reportingCancelled = w.run.subs.reportingCancelled := by
      rw [Subscriptions.clear, hnone]
    refine ⟨?_, h.length, ?_, by rintro _ ⟨⟩, fun i hi => ?_, fun hc => ?_⟩
    · exact hempty ▸ .nil
    · exact hreporting.trans hnone
    · have hd := (h.doomed i hi).1
      rw [hs] at hd
      cases hd
    · have hc : w.run.subs.clear.reportingCancelled.isSome = true := hc
      rw [hcancelled] at hc
      obtain ⟨i, hi, -⟩ := h.cancelled hc
      rw [hs] at hi
      cases hi
  | some i =>
    have hlt := h.slot_lt i hs
    have hsome : w.run.subs.reporting = some w.run.contexts[i].subscription := by
      rw [h.slot, hs, Option.bind_some, List.getElem?_eq_getElem hlt, Option.map_some]
    have hcancelled : w.run.subs.clear.reportingCancelled.isSome = true := by
      rw [Subscriptions.clear, hsome]
      rfl
    have hself : (w.doomed.set i true)[i]? = some true := by
      rw [List.getElem?_set_self (h.length ▸ hlt)]
    refine ⟨?_, ?_, ?_, ?_, fun j hj => ?_, fun _ => ⟨i, rfl, hself⟩⟩
    · exact hempty ▸ .nil
    · simp [h.length]
    · rw [hreporting, h.slot, hs]
    · exact hs ▸ h.slot_lt
    · refine ⟨?_, hcancelled⟩
      by_contra hne
      have hij : i ≠ j := fun heq => hne (by rw [heq])
      have hj : w.doomed[j]? = some true := by rwa [List.getElem?_set_ne hij] at hj
      have hd := (h.doomed j hj).1
      rw [hs] at hd
      exact hne hd

/-! ## Runs -/

/-- **One step** that meets the condition. -/
theorem Inv.step {a : SubAction} (hslot : w.InSlot a) (h : Inv w)
    (hstep : (machine cap tickHz).step w a = some w') : Inv w' := by
  obtain ⟨run, hrun, rfl⟩ := Option.map_eq_some_iff.mp hstep
  cases a with
  | notifyAttrChanged endpoint cluster attr =>
    cases hrun
    exact h.same rfl rfl rfl rfl
  | notifyClusterChanged endpoint cluster =>
    cases hrun
    exact h.same rfl rfl rfl rfl
  | notifyEndpointChanged endpoint =>
    cases hrun
    exact h.same rfl rfl rfl rfl
  | notifyAllChanged =>
    cases hrun
    exact h.same rfl rfl rfl rfl
  | add now fabIdx peerNodeId sessionId minIntSecs maxIntSecs eventNumbersWatermark =>
    rw [SubRun.step] at hrun
    simp only [nextTable, nextDoomed, nextSlot]
    split at hrun
    · next context subs hadd =>
      cases hrun
      simp only [hadd]
      rw [Subscriptions.add] at hadd
      split at hadd
      · cases hadd
      · cases hadd
        exact h.open rfl rfl rfl
    · next hadd =>
      cases hrun
      simp only [hadd]
      exact h.same rfl rfl rfl rfl
  | report now eventNumbersWatermark =>
    rw [SubRun.step] at hrun
    simp only [nextTable, nextDoomed, nextSlot]
    split at hrun
    · next context subs hreport =>
      cases hrun
      simp only [hreport]
      exact h.report hslot.2 hreport
    · next hreport =>
      cases hrun
      simp only [hreport]
      exact h.same rfl rfl rfl rfl
  | complete index keep =>
    rw [SubRun.step] at hrun
    simp only [nextTable, nextDoomed, nextSlot]
    cases hcontext : w.run.contexts[index]? with
    | none =>
      rw [hcontext] at hrun
      cases hrun
    | some context =>
      cases hdone : w.run.subs.reportComplete cap context.committed keep with
      | none =>
        rw [hcontext] at hrun
        simp only [hdone] at hrun
        cases hrun
      | some subs =>
        rw [hcontext] at hrun
        simp only [hdone] at hrun
        cases hrun
        exact h.complete hslot hcontext hdone
  | remove f =>
    cases hrun
    exact h.remove hslot
  | clear =>
    cases hrun
    exact h.clear
  | purgeReportedChanges =>
    cases hrun
    refine h.same ?_ ?_ ?_ rfl <;> · rw [Subscriptions.purgeReportedChanges]; split <;> rfl

/-- **Removal is exact.** Along every run where a removal matches no context but the one in the
slot and no other context is dropped while that one is to be cancelled, the table is what
it should be. -/
theorem exact_of_run {as : List SubAction} (hslot : (machine cap tickHz).Meets InSlot start as)
    (hrun : (machine cap tickHz).run start as = some w) : w.Exact := by
  have hinv : Inv w :=
    Machine.invariant_of_meets (I := Inv) (fun _ _ _ hok h hst => h.step hok hst) inv_start hslot hrun
  exact hinv.exact

/-- The removal of the subscriptions of a peer that asks for a new one. -/
def ofPeer (peerNodeId : BitVec 64) (sub : Subscription) : Option String :=
  if sub.ids.fabIdx = 1 ∧ sub.ids.peerNodeId = peerNodeId then some "new subscription request" else none

/-- A peer's subscription is removed while it is being reported on; another one stays. -/
def removedInReport : List SubAction :=
  [.add 0 1 7#64 3#32 0 60 0, .complete 0 true, .add 0 1 8#64 4#32 0 90 0, .complete 0 true,
    .report 40 0, .remove (ofPeer 7), .complete 0 true]

theorem exact_removedInReport : ∃ w, (machine 3 1).run start removedInReport = some w ∧
    w.table.map (·.ids.peerNodeId) = [8#64] ∧ w.Exact := by
  refine ⟨_, rfl, rfl, @exact_of_run _ 3 1 removedInReport ?_ rfl⟩
  refine (Machine.meets_cons rfl).mpr ⟨trivial, (Machine.meets_cons rfl).mpr ⟨by rintro ⟨⟩,
    (Machine.meets_cons rfl).mpr ⟨trivial, (Machine.meets_cons rfl).mpr ⟨by rintro ⟨⟩,
      (Machine.meets_cons rfl).mpr ⟨⟨rfl, rfl⟩, (Machine.meets_cons rfl).mpr ⟨?_,
        (Machine.meets_cons rfl).mpr ⟨fun _ => rfl, trivial⟩⟩⟩⟩⟩⟩⟩
  intro i context hcontext _
  rcases i with _ | i
  · rfl
  · cases hcontext

/-- A peer asks for a new subscription while its first one is being primed. -/
def removedInPriming : List SubAction := [.add 0 1 7#64 3#32 0 60 0, .remove (ofPeer 7), .complete 0 true]

/-- While a peer's subscription is being reported on, another peer's one is being primed. The
first peer asks for a new one, then both reports end. -/
def removedInOverlap : List SubAction :=
  [.add 0 1 7#64 3#32 0 60 0, .complete 0 true, .report 40 0, .add 40 1 8#64 4#32 0 60 0,
    .remove (ofPeer 7), .complete 1 true, .complete 0 true]

/-- A subscription being primed is not removed; and when its context is dropped, it takes the
flag for the one being reported on: that one stays, and the new one goes. -/
theorem not_exact_priming :
    (∃ w, (machine 3 1).run start removedInPriming = some w ∧
      w.run.subs.subscriptions.map (·.ids.peerNodeId) = [7#64] ∧ w.table = [] ∧ ¬ w.Exact) ∧
    ∃ w, (machine 3 1).run start removedInOverlap = some w ∧
      w.run.subs.subscriptions.map (·.ids.peerNodeId) = [7#64] ∧
      w.table.map (·.ids.peerNodeId) = [8#64] ∧ ¬ w.Exact := by
  refine ⟨⟨_, rfl, rfl, rfl, fun h => ?_⟩, _, rfl, rfl, rfl, fun h => ?_⟩
  · have hlen : 1 = 0 := h.length_eq
    cases hlen
  · have hids : [7#64].Perm [8#64] := List.Perm.map (fun sub : Subscription => sub.ids.peerNodeId) h
    exact absurd (List.singleton_perm_singleton.mp hids) (by decide)

end SubWatch

end RsMatter
