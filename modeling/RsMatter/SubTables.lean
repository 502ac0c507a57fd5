import RsMatter.Subscriptions

/-!
# The books of the subscriptions (`dm/subscriptions.rs`)

Each subscription has a buffer with its request. The buffers are in a vector of their own, which
belongs to the data model, while the subscriptions outlive it: a new data model clears them, and
starts with no buffers. A context in flight holds the buffer of its subscription, and returns it
to the vector of the data model that it was started by.

A counter says how many subscriptions there are, in the table or in flight. `clear` sets it to
what is left, for which it looks at the slot of the subscription being reported on. A subscription
that is being primed is not in the slot, so the counter is wrong after it was cleared.
-/

namespace RsMatter

/-- A buffer with the request of a subscription. -/
structure SubBuffer (β : Type) where
  /-- the subscription that it was stored for -/
  ids : SubscriptionIds
  request : β
  deriving DecidableEq

structure SubContext (β : Type) where
  context : ReportContext
  buffer : SubBuffer β
  model : ℕ
  deriving DecidableEq

/-- The subscriptions, the buffers and the contexts in flight. -/
structure SubTables (β : Type) where
  subs : Subscriptions
  model : ℕ
  buffers : ℕ → List (SubBuffer β)
  contexts : List (SubContext β)

namespace SubTables

variable {β : Type}

def start : SubTables β := ⟨.new, 0, fun _ => [], []⟩

inductive Action (β : Type) where
  | notify (path : ChangedAttr)
  /-- a subscription is accepted, with its request -/
  | add (now fabIdx : ℕ) (peerNodeId : BitVec 64) (sessionId : BitVec 32)
      (minIntSecs maxIntSecs eventNumbersWatermark : ℕ) (request : β)
  | report (now eventNumbersWatermark : ℕ)
  /-- the context with the given number is dropped, after `set_keep` or without it -/
  | complete (index : ℕ) (keep : Bool)
  /-- the subscriptions with a reason are removed -/
  | remove (f : Subscription → Option String)
  /-- changes that were reported are dropped -/
  | purgeReportedChanges
  /-- a new data model clears the subscriptions -/
  | clear

/-- Take the first reportable subscription out of the table, and its buffer out of the other one;
`none` is the panic on a missing buffer. -/
def report (r : SubTables β) (tickHz now eventNumbersWatermark : ℕ) : Option (SubTables β) :=
  match r.subs.subscriptions.findIdx? fun sub =>
      sub.isReportable tickHz now r.subs.changedAttrs eventNumbersWatermark with
  | some index =>
    match r.subs.report tickHz now eventNumbersWatermark, (r.buffers r.model)[index]? with
    | some (context, subs), some buffer =>
      some { r with
        subs
        contexts := r.contexts ++ [⟨context, buffer, r.model⟩]
        buffers := Function.update r.buffers r.model (swapRemove (r.buffers r.model) index) }
    | _, _ => none
  | none => if r.subs.subscriptions.length ≤ (r.buffers r.model).length then some r else none

/-- Drop a context; `none` is the panic where one of the vectors has no room. -/
def reportComplete (r : SubTables β) (cap : ℕ) (c : SubContext β) (keep : Bool) :
    Option (SubTables β) :=
  match r.subs.reportComplete cap c.context.committed keep with
  | some subs =>
    if keep && r.subs.reportingCancelled.isNone then
      if (r.buffers c.model).length < cap then
        some { r with
          subs
          buffers := Function.update r.buffers c.model (r.buffers c.model ++ [c.buffer]) }
      else none
    else some { r with subs }
  | none => none

/-- One step; `none` where it is not possible, or panics. -/
def step (cap tickHz : ℕ) (r : SubTables β) : Action β → Option (SubTables β)
  | .notify path =>
    some { r with subs := { r.subs with changedAttrs := (r.subs.changedAttrs.recordRaw path).2 } }
  | .add now fabIdx peerNodeId sessionId minIntSecs maxIntSecs eventNumbersWatermark request =>
    match r.subs.add cap now fabIdx peerNodeId sessionId minIntSecs maxIntSecs
        eventNumbersWatermark with
    | some (context, subs) =>
      some { r with
        subs
        contexts := r.contexts ++ [⟨context, ⟨context.subscription.ids, request⟩, r.model⟩] }
    | none => some r
  | .report now eventNumbersWatermark => r.report tickHz now eventNumbersWatermark
  | .complete index keep =>
    match r.contexts[index]? with
    | some c => ({ r with contexts := r.contexts.eraseIdx index }).reportComplete cap c keep
    | none => none
  | .remove f =>
    some { r with
      subs := r.subs.remove f
      buffers := Function.update r.buffers r.model
        (swapRemoveBoth (fun sub => (f sub).isSome) r.subs.subscriptions.length
          r.subs.subscriptions (r.buffers r.model)) }
  | .purgeReportedChanges => some { r with subs := r.subs.purgeReportedChanges }
  | .clear =>
    some { r with
      subs := r.subs.clear
      model := r.model + 1
      buffers := Function.update r.buffers (r.model + 1) [] }

/-- The tables as a machine, with room for `cap` subscriptions. -/
def machine (cap tickHz : ℕ) : Machine (SubTables β) (Action β) := ⟨step cap tickHz⟩

structure Balanced (cap : ℕ) (r : SubTables β) : Prop where
  /-- the counter counts the subscriptions in the table and in flight -/
  count : r.subs.subscriptionsCount = r.subs.subscriptions.length + r.contexts.length
  bound : r.subs.subscriptionsCount ≤ cap
  length : (r.buffers r.model).length = r.subs.subscriptions.length
  /-- each buffer is that of the subscription in the same slot -/
  paired : (r.buffers r.model).map (·.ids) = r.subs.subscriptions.map (·.ids)
  room : ∀ c ∈ r.contexts, ∀ keep, (r.reportComplete cap c keep).isSome = true

/-- The condition on a step: the subscriptions are cleared only while the context in the slot is
the only one in flight, and a context of an earlier data model is not kept, unless it was
cancelled. -/
def Tidy (r : SubTables β) : Action β → Prop
  | .clear => r.contexts.length = if r.subs.reporting.isSome then 1 else 0
  | .complete index keep => ∀ c, r.contexts[index]? = some c →
      c.model = r.model ∨ keep = false ∨ r.subs.reportingCancelled.isSome = true
  | _ => True

/-! ## The invariant -/

structure Inv (cap : ℕ) (r : SubTables β) : Prop where
  /-- the counter counts the subscriptions in the table and in flight -/
  count : r.subs.subscriptionsCount = r.subs.subscriptions.length + r.contexts.length
  bound : r.subs.subscriptionsCount ≤ cap
  /-- each buffer is that of the subscription in the same slot -/
  paired : (r.buffers r.model).map (·.ids) = r.subs.subscriptions.map (·.ids)
  /-- a context has the buffer of its subscription -/
  own : ∀ c ∈ r.contexts, c.buffer.ids = c.context.subscription.ids
  /-- no context is of a data model to come -/
  known : ∀ c ∈ r.contexts, c.model ≤ r.model
  /-- each data model has room for the buffers of its contexts -/
  fits : ∀ m, (r.buffers m).length + r.contexts.countP (·.model == m) ≤ cap

variable {r r' : SubTables β} {cap tickHz : ℕ}

theorem inv_start (cap : ℕ) : Inv cap (start : SubTables β) := by
  refine ⟨rfl, Nat.zero_le _, rfl, ?_, ?_, fun m => Nat.zero_le _⟩
  · intro c hc
    cases hc
  · intro c hc
    cases hc

theorem Inv.length (hI : Inv cap r) :
    (r.buffers r.model).length = r.subs.subscriptions.length := by
  simpa using congrArg List.length hI.paired

theorem Inv.room (hI : Inv cap r) {c : SubContext β} (hc : c ∈ r.contexts) (keep : Bool) :
    (r.reportComplete cap c keep).isSome = true := by
  have hpos := List.length_pos_of_mem hc
  have hcount := hI.count
  have hbound := hI.bound
  have htable : r.subs.subscriptions.length < cap := by omega
  have hbuffers : (r.buffers c.model).length < cap := by
    have hfits := hI.fits c.model
    have : 0 < r.contexts.countP (·.model == c.model) := by
      rw [List.countP_pos_iff]
      exact ⟨c, hc, beq_self_eq_true _⟩
    omega
  rw [reportComplete, Subscriptions.reportComplete]
  cases r.subs.reportingCancelled with
  | some reason => cases keep <;> rfl
  | none =>
    cases keep with
    | false => rfl
    | true =>
      simp only [if_true, htable, hbuffers]
      rfl

theorem Inv.balanced (hI : Inv cap r) : Balanced cap r :=
  ⟨hI.count, hI.bound, hI.length, hI.paired, fun _ hc keep => hI.room hc keep⟩

/-! ## Step by step -/

theorem Inv.withChanges (hI : Inv cap r) (changedAttrs : ChangedAttrs) :
    Inv cap { r with subs := { r.subs with changedAttrs } } :=
  ⟨hI.count, hI.bound, hI.paired, hI.own, hI.known, hI.fits⟩

/-- A context is added: its subscription is new, or has left the table. -/
theorem Inv.addContext (hI : Inv cap r) {subs : Subscriptions} {c : SubContext β}
    {own : List (SubBuffer β)} {buffers : ℕ → List (SubBuffer β)}
    (hbuffers : buffers = Function.update r.buffers r.model own)
    (hcount : subs.subscriptionsCount = subs.subscriptions.length + r.contexts.length + 1)
    (hbound : subs.subscriptionsCount ≤ cap)
    (hpaired : own.map (·.ids) = subs.subscriptions.map (·.ids))
    (hown : c.buffer.ids = c.context.subscription.ids) (hmodel : c.model = r.model) :
    Inv cap { r with subs, contexts := r.contexts ++ [c], buffers } := by
  subst hbuffers
  have hlen : own.length = subs.subscriptions.length := by
    simpa using congrArg List.length hpaired
  refine ⟨?_, hbound, ?_, ?_, ?_, ?_⟩
  · rw [List.length_append, List.length_singleton, hcount, Nat.add_assoc]
  · dsimp only
    rw [Function.update_self]
    exact hpaired
  · intro c' hc'
    rcases List.mem_append.mp hc' with hc' | hc'
    · exact hI.own c' hc'
    · rw [List.mem_singleton.mp hc']
      exact hown
  · intro c' hc'
    rcases List.mem_append.mp hc' with hc' | hc'
    · exact hI.known c' hc'
    · rw [List.mem_singleton.mp hc', hmodel]
  · intro m
    have hle : r.contexts.countP (·.model == m) ≤ r.contexts.length := List.countP_le_length
    rw [List.countP_append]
    by_cases hm : m = r.model
    · subst hm
      simp only [Function.update_self, List.countP_singleton, hmodel, beq_self_eq_true, if_true]
      omega
    · have hne : (c.model == m) = false := by
        rw [hmodel, beq_eq_false_iff_ne]
        exact fun h => hm h.symm
      simp only [Function.update_of_ne hm, List.countP_singleton, hne]
      exact hI.fits m

theorem Inv.add (hI : Inv cap r) {now fabIdx minIntSecs maxIntSecs watermark : ℕ}
    {peerNodeId : BitVec 64} {sessionId : BitVec 32} {context : ReportContext}
    {subs : Subscriptions} (request : β)
    (h : r.subs.add cap now fabIdx peerNodeId sessionId minIntSecs maxIntSecs watermark =
      some (context, subs)) :
    Inv cap { r with
      subs
      contexts := r.contexts ++ [⟨context, ⟨context.subscription.ids, request⟩, r.model⟩] } := by
  rw [Subscriptions.add] at h
  split at h
  · cases h
  · next hroom =>
    cases h
    have hcount := hI.count
    refine hI.addContext (Function.update_eq_self _ _).symm ?_ ?_ hI.paired rfl rfl
    · dsimp only
      omega
    · dsimp only
      omega

theorem Inv.report (hI : Inv cap r) {now watermark : ℕ}
    (h : r.report tickHz now watermark = some r') : Inv cap r' := by
  rw [SubTables.report] at h
  cases hindex : r.subs.subscriptions.findIdx? fun sub =>
      sub.isReportable tickHz now r.subs.changedAttrs watermark with
  | some index =>
    rw [hindex] at h
    simp only [Subscriptions.report, hindex] at h
    have hlt : index < r.subs.subscriptions.length := by
      obtain ⟨hlt, -⟩ := List.findIdx?_eq_some_iff_getElem.mp hindex
      exact hlt
    rw [List.getElem?_eq_getElem hlt] at h
    have hlt' : index < (r.buffers r.model).length := hI.length ▸ hlt
    rw [List.getElem?_eq_getElem hlt'] at h
    cases h
    have hlen := (swapRemove_perm hlt).length_eq
    have hcount := hI.count
    rw [List.length_cons] at hlen
    refine hI.addContext rfl ?_ hI.bound ?_ ?_ rfl
    · dsimp only
      omega
    · rw [map_swapRemove, map_swapRemove, hI.paired]
    · -- the buffer in the same slot is that of the subscription
      have hids := congrArg (·[index]?) hI.paired
      simpa [hlt, hlt'] using hids
  | none =>
    rw [hindex] at h
    dsimp only at h
    split at h
    · cases h
      exact hI
    · cases h

/-- Counting down does not wrap around where there is something to count. -/
theorem decCount_iterate {n c : ℕ} (hn : n ≤ c) (hc : c < 2 ^ 64) :
    Subscriptions.decCount^[n] c = c - n := by
  induction n with
  | zero => rfl
  | succ n ih =>
    rw [Function.iterate_succ_apply', ih (Nat.le_of_succ_le hn), Subscriptions.decCount]
    omega

theorem Inv.remove (hI : Inv cap r) (hcap : cap < 2 ^ 64) (f : Subscription → Option String) :
    Inv cap { r with
      subs := r.subs.remove f
      buffers := Function.update r.buffers r.model
        (swapRemoveBoth (fun sub => (f sub).isSome) r.subs.subscriptions.length
          r.subs.subscriptions (r.buffers r.model)) } := by
  have hsubs : (r.subs.remove f).subscriptions =
      swapRemoveWhere (fun sub => (f sub).isSome) r.subs.subscriptions ∧
      (r.subs.remove f).subscriptionsCount = Subscriptions.decCount^[r.subs.subscriptions.countP
        fun sub => (f sub).isSome] r.subs.subscriptionsCount := by
    rw [Subscriptions.remove]
    dsimp only
    split
    · split <;> exact ⟨rfl, rfl⟩
    · exact ⟨rfl, rfl⟩
  obtain ⟨htable, hcount⟩ := hsubs
  have hlen := length_swapRemoveWhere_add (fun sub => (f sub).isSome) r.subs.subscriptions
  have hold := hI.count
  have hbound := hI.bound
  have hpaired : (swapRemoveBoth (fun sub => (f sub).isSome) r.subs.subscriptions.length
      r.subs.subscriptions (r.buffers r.model)).map (·.ids) =
      (swapRemoveWhere (fun sub => (f sub).isSome) r.subs.subscriptions).map (·.ids) := by
    rw [swapRemoveWhere_eq_firsts]
    exact map_swapRemoveBoth _ _ _ _ hI.paired
  have hlen' := congrArg List.length hpaired
  rw [List.length_map, List.length_map] at hlen'
  rw [decCount_iterate (by omega) (by omega)] at hcount
  refine ⟨?_, ?_, ?_, hI.own, hI.known, ?_⟩
  · dsimp only
    rw [htable, hcount]
    omega
  · dsimp only
    rw [hcount]
    omega
  · dsimp only
    rw [Function.update_self, htable]
    exact hpaired
  · intro m
    have hfits := hI.fits m
    dsimp only
    by_cases hm : m = r.model
    · subst hm
      rw [Function.update_self, hlen']
      have := hI.length
      omega
    · rw [Function.update_of_ne hm]
      exact hfits

theorem Inv.complete (hI : Inv cap r) (hcap : cap < 2 ^ 64) {index : ℕ} {c : SubContext β}
    {keep : Bool} (hc : r.contexts[index]? = some c)
    (hok : c.model = r.model ∨ keep = false ∨ r.subs.reportingCancelled.isSome = true)
    (h : ({ r with contexts := r.contexts.eraseIdx index }).reportComplete cap c keep = some r') :
    Inv cap r' := by
  obtain ⟨hlt, hget⟩ := List.getElem?_eq_some_iff.mp hc
  have hperm : (c :: r.contexts.eraseIdx index).Perm r.contexts := by
    rw [← hget]
    exact List.getElem_cons_eraseIdx_perm hlt
  have hlen := hperm.length_eq
  rw [List.length_cons] at hlen
  have hmem : ∀ c' ∈ r.contexts.eraseIdx index, c' ∈ r.contexts :=
    fun c' hc' => List.mem_of_mem_eraseIdx hc'
  have hcount := hI.count
  have hbound := hI.bound
  have hcountP : ∀ m, (r.contexts.eraseIdx index).countP (·.model == m) +
      (if c.model == m then 1 else 0) = r.contexts.countP (·.model == m) := by
    intro m
    rw [← hperm.countP_eq, List.countP_cons]
  rw [reportComplete] at h
  split at h
  · next subs hsubs =>
    dsimp only at h hsubs
    rcases Subscriptions.reportComplete_cases hsubs with ⟨hdrop, htable, hdec⟩ | ⟨hkeep, htable, hsame⟩
    · -- the subscription is gone
      rw [hdrop, if_neg (by simp)] at h
      cases h
      have hdec' := decCount_iterate (n := 1) (c := r.subs.subscriptionsCount) (by omega) (by omega)
      rw [Function.iterate_one] at hdec'
      refine ⟨?_, ?_, ?_, fun c' hc' => hI.own c' (hmem c' hc'),
        fun c' hc' => hI.known c' (hmem c' hc'), ?_⟩
      · dsimp only
        rw [htable, hdec, hdec']
        omega
      · dsimp only
        rw [hdec, hdec']
        omega
      · dsimp only
        rw [htable]
        exact hI.paired
      · intro m
        have hfits := hI.fits m
        have := hcountP m
        dsimp only
        omega
    · -- it is back in the table of the data model that is in use
      have hmodel : c.model = r.model := by
        rw [Bool.and_eq_true] at hkeep
        rcases hok with hok | hok | hok
        · exact hok
        · rw [hok] at hkeep
          cases hkeep.1
        · rw [Option.isSome_iff_ne_none] at hok
          exact absurd (Option.isNone_iff_eq_none.mp hkeep.2) hok
      rw [hkeep, if_pos rfl] at h
      split at h
      · next hroom =>
        cases h
        refine ⟨?_, ?_, ?_, fun c' hc' => hI.own c' (hmem c' hc'),
          fun c' hc' => hI.known c' (hmem c' hc'), ?_⟩
        · dsimp only
          rw [htable, hsame, List.length_append, List.length_singleton]
          omega
        · dsimp only
          rw [hsame]
          exact hbound
        · dsimp only
          rw [htable, hmodel, Function.update_self, List.map_append, List.map_append, hI.paired]
          simp only [List.map_cons, List.map_nil]
          rw [hI.own c (List.mem_of_getElem? hc)]
          rfl
        · intro m
          have hfits := hI.fits m
          have hm := hcountP m
          dsimp only
          by_cases hcm : c.model = m
          · subst hcm
            rw [Function.update_self, List.length_append, List.length_singleton]
            simp only [beq_self_eq_true, if_true] at hm
            omega
          · rw [Function.update_of_ne (fun h => hcm h.symm)]
            omega
      · cases h
  · cases h

theorem Inv.clear (hI : Inv cap r)
    (hok : r.contexts.length = if r.subs.reporting.isSome then 1 else 0) :
    Inv cap { r with
      subs := r.subs.clear
      model := r.model + 1
      buffers := Function.update r.buffers (r.model + 1) [] } := by
  have hsubs : r.subs.clear.subscriptions = [] ∧
      r.subs.clear.subscriptionsCount = r.contexts.length := by
    rw [Subscriptions.clear, hok]
    cases r.subs.reporting with
    | none => exact ⟨rfl, rfl⟩
    | some sub => exact ⟨rfl, rfl⟩
  obtain ⟨htable, hcount⟩ := hsubs
  have hnone : r.contexts.countP (·.model == r.model + 1) = 0 := by
    rw [List.countP_eq_zero]
    intro c hc
    have := hI.known c hc
    rw [beq_iff_eq]
    omega
  refine ⟨?_, ?_, ?_, hI.own, ?_, ?_⟩
  · rw [htable, hcount, List.length_nil, Nat.zero_add]
  · have hle := hI.bound
    rw [hI.count] at hle
    rw [hcount]
    omega
  · dsimp only
    rw [htable, Function.update_self]
    rfl
  · intro c hc
    exact Nat.le_succ_of_le (hI.known c hc)
  · intro m
    dsimp only
    by_cases hm : m = r.model + 1
    · subst hm
      rw [Function.update_self, hnone]
      exact Nat.zero_le _
    · rw [Function.update_of_ne hm]
      exact hI.fits m

/-- **Step.** -/
theorem Inv.step {a : Action β} (hcap : cap < 2 ^ 64) (hI : Inv cap r) (hok : r.Tidy a)
    (h : r.step cap tickHz a = some r') : Inv cap r' := by
  cases a with
  | notify path =>
    cases h
    exact hI.withChanges _
  | add now fabIdx peerNodeId sessionId minIntSecs maxIntSecs watermark request =>
    simp only [SubTables.step] at h
    split at h
    · next hadd =>
      cases h
      exact hI.add request hadd
    · cases h
      exact hI
  | report now watermark => exact hI.report h
  | complete index keep =>
    simp only [SubTables.step] at h
    split at h
    · next c hc => exact hI.complete hcap hc (hok c hc) h
    · cases h
  | remove f =>
    cases h
    exact hI.remove hcap f
  | purgeReportedChanges =>
    cases h
    simp only [Subscriptions.purgeReportedChanges]
    split
    · exact hI.withChanges _
    · exact hI.withChanges _
  | clear =>
    cases h
    exact hI.clear hok

/-- **Runs.** The books are right in every run in which the subscriptions are cleared only while
the context in the slot is the only one in flight, and a context of an earlier data model is not
kept. -/
theorem balanced_of_tidy (hcap : cap < 2 ^ 64) {as : List (Action β)}
    (hok : (machine cap tickHz).Meets Tidy start as)
    (hrun : (machine cap tickHz).run start as = some r) : Balanced cap r := by
  have hstep : ∀ (r : SubTables β) (a : Action β) (r' : SubTables β), r.Tidy a → Inv cap r →
      (machine cap tickHz).step r a = some r' → Inv cap r' := by
    intro r a r' hok hI h
    exact hI.step hcap hok h
  exact (Machine.invariant_of_meets hstep (inv_start cap) hok hrun).balanced

/-! ## Clearing at the wrong time -/

def accept : Action ℕ := .add 0 1 7 3 0 60 0 42

/-- It is primed and kept; a new data model finds it being reported on. -/
def clearedWhileReporting : List (Action ℕ) :=
  [accept, .complete 0 true, .report 30 0, .clear, .complete 0 true]

theorem meets_clearedWhileReporting : (machine 3 1).Meets Tidy start clearedWhileReporting := by
  refine (Machine.meets_cons rfl).mpr ⟨trivial, ?_⟩
  refine (Machine.meets_cons rfl).mpr ⟨?_, ?_⟩
  · rintro c ⟨⟩
    exact .inl rfl
  refine (Machine.meets_cons rfl).mpr ⟨trivial, ?_⟩
  refine (Machine.meets_cons rfl).mpr ⟨rfl, ?_⟩
  refine (Machine.meets_cons rfl).mpr ⟨?_, trivial⟩
  rintro c ⟨⟩
  exact .inr (.inr rfl)

theorem balanced_clearedWhileReporting :
    ∃ r, (machine 3 1).run start clearedWhileReporting = some r ∧ Balanced 3 r := by
  obtain ⟨r, hr⟩ := Option.isSome_iff_exists.mp (by decide +kernel :
    ((machine 3 1).run start clearedWhileReporting).isSome = true)
  exact ⟨r, hr, balanced_of_tidy (by decide) meets_clearedWhileReporting hr⟩

def clearedWhilePriming : List (Action ℕ) := [accept, .clear, .complete 0 false]

theorem unbalanced_clearedWhilePriming :
    ¬ ∀ (as : List (Action ℕ)) (r : SubTables ℕ), (machine 3 1).run start as = some r →
      Balanced 3 r := by
  intro h
  obtain ⟨r, hr⟩ := Option.isSome_iff_exists.mp (by decide +kernel :
    ((machine 3 1).run start clearedWhilePriming).isSome = true)
  have hcount : ((machine 3 1).run start clearedWhilePriming).map (·.subs.subscriptionsCount) =
      some (2 ^ 64 - 1) := by decide +kernel
  rw [hr, Option.map_some, Option.some_inj] at hcount
  have := (h clearedWhilePriming r hr).bound
  rw [hcount] at this
  exact absurd this (by decide)

end SubTables

end RsMatter
