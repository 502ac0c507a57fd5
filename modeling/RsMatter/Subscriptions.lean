import Mathlib.Logic.Function.Iterate
import Mathlib.Data.List.MinMax
import RsMatter.ChangedAttrs
import RsMatter.Machine

/-!
# Subscriptions (`dm/subscriptions.rs`)

A subscription is in the table, or it has been taken out of it into a
`ReportContext`: to be primed right after it was accepted, or to be reported on. The
context commits the watermark captured at its start when it is dropped, and returns
the subscription to the table if it is to be kept.

`Subscriptions.purgeReportedChanges` looks at the table only. A change that arrives
while a subscription is being primed is therefore lost to it as soon as every
subscription in the table has seen the change; with an empty table that is at once.
-/

namespace RsMatter

structure SubscriptionIds where
  id : ℕ
  fabIdx : ℕ
  peerNodeId : BitVec 64
  deriving DecidableEq

/-- The largest instant; marks a subscription that was never reported on. -/
def instantMax : ℕ := 2 ^ 64 - 1

/-- A subscription. Instants and durations are counted in ticks. -/
structure Subscription where
  ids : SubscriptionIds
  sessionId : BitVec 32
  /-- the minimum interval between reports, in seconds -/
  minIntSecs : ℕ
  /-- the maximum interval between reports, in seconds -/
  maxIntSecs : ℕ
  reportedAt : ℕ
  /-- the committed watermark: the largest change id it has reported on -/
  maxSeenAttrChangeId : ℕ
  /-- the largest event number it has reported on -/
  maxSeenEventNumber : ℕ
  deriving DecidableEq

namespace Subscription

/-- `Instant::checked_add` of a number of seconds. -/
def checkedAddSecs (tickHz instant secs : ℕ) : Option ℕ :=
  if instant + secs * tickHz ≤ instantMax then some (instant + secs * tickHz) else none

/-- Has the minimum interval passed since the last report? -/
def isReportAllowed (sub : Subscription) (tickHz now : ℕ) : Bool :=
  match checkedAddSecs tickHz sub.reportedAt sub.minIntSecs with
  | some nextReport => decide (nextReport ≤ now)
  | none => true

/-- Is a report due, because half of the maximum interval has passed? -/
def isReportDue (sub : Subscription) (tickHz now : ℕ) : Bool :=
  match checkedAddSecs tickHz sub.reportedAt sub.maxIntSecs with
  | some nextReport =>
    decide (nextReport ≤ now) || decide (nextReport - now ≤ sub.maxIntSecs / 2 * tickHz)
  | none => true

/-- Has the maximum interval passed since the last report? -/
def isExpired (sub : Subscription) (tickHz now : ℕ) : Bool :=
  match checkedAddSecs tickHz sub.reportedAt sub.maxIntSecs with
  | some expiry => decide (expiry ≤ now)
  | none => false

/-- Is there anything to report, and may it be reported? -/
def isReportable (sub : Subscription) (tickHz now : ℕ) (changedAttrs : ChangedAttrs)
    (eventNumbersWatermark : ℕ) : Bool :=
  sub.isReportAllowed tickHz now &&
    (sub.isReportDue tickHz now || changedAttrs.anySince sub.maxSeenAttrChangeId ||
      decide (sub.maxSeenEventNumber < eventNumbersWatermark))

end Subscription

structure ReportContext where
  /-- the subscription as it was taken out -/
  subscription : Subscription
  nextMaxSeenAttrChangeId : ℕ
  nextMaxSeenEventNumber : ℕ
  nextReportedAt : ℕ
  deriving DecidableEq

def ReportContext.committed (c : ReportContext) : Subscription :=
  { c.subscription with
    maxSeenAttrChangeId := c.nextMaxSeenAttrChangeId
    maxSeenEventNumber := c.nextMaxSeenEventNumber
    reportedAt := c.nextReportedAt }

/-- The shared state of all subscriptions (`SubscriptionsInner`). -/
structure Subscriptions where
  nextSubscriptionId : ℕ
  /-- how many subscriptions there are, in the table or out of it -/
  subscriptionsCount : ℕ
  subscriptions : List Subscription
  changedAttrs : ChangedAttrs
  /-- a copy of the subscription being reported on -/
  reporting : Option Subscription
  /-- set if that one is to be dropped afterwards, with the reason -/
  reportingCancelled : Option String
  deriving DecidableEq

namespace Subscriptions

def new : Subscriptions := ⟨1, 0, [], .new, none, none⟩

/-- `usize` decrement. -/
def decCount (n : ℕ) : ℕ := (n + 2 ^ 64 - 1) % 2 ^ 64

/-- Drop the table. A report in flight is told to drop its subscription. -/
def clear (s : Subscriptions) : Subscriptions :=
  match s.reporting with
  | some _ =>
    { s with
      subscriptions := [], subscriptionsCount := 1
      reportingCancelled := some "subscriptions cleared" }
  | none => { s with subscriptions := [], subscriptionsCount := 0 }

/-- Accept a subscription, to be primed; `none` if there are `cap` of them. -/
def add (s : Subscriptions) (cap now fabIdx : ℕ) (peerNodeId : BitVec 64) (sessionId : BitVec 32)
    (minIntSecs maxIntSecs eventNumbersWatermark : ℕ) : Option (ReportContext × Subscriptions) :=
  if cap ≤ s.subscriptionsCount then
    none
  else
    some
      ({ subscription :=
          { ids := ⟨s.nextSubscriptionId, fabIdx, peerNodeId⟩
            sessionId := sessionId
            minIntSecs := minIntSecs
            maxIntSecs := maxIntSecs
            reportedAt := instantMax
            maxSeenAttrChangeId := s.changedAttrs.watermark
            maxSeenEventNumber := 0 }
         nextMaxSeenAttrChangeId := s.changedAttrs.watermark
         nextMaxSeenEventNumber := eventNumbersWatermark
         nextReportedAt := now },
       { s with
         subscriptionsCount := s.subscriptionsCount + 1
         nextSubscriptionId := (s.nextSubscriptionId + 1) % 2 ^ 32 })

/-- Take the first reportable subscription out of the table. -/
def report (s : Subscriptions) (tickHz now eventNumbersWatermark : ℕ) :
    Option (ReportContext × Subscriptions) :=
  match s.subscriptions.findIdx? fun sub =>
      sub.isReportable tickHz now s.changedAttrs eventNumbersWatermark with
  | some index =>
    match s.subscriptions[index]? with
    | some sub =>
      some
        (⟨sub, s.changedAttrs.watermark, eventNumbersWatermark, now⟩,
         { s with
           subscriptions := swapRemove s.subscriptions index
           reporting := some sub })
    | none => none
  | none => none

/-- Drop a context, returning its subscription to the table if it is to be kept. `none`
is the panic on a table without a free slot. -/
def reportComplete (s : Subscriptions) (cap : ℕ) (sub : Subscription) (keep : Bool) :
    Option Subscriptions :=
  let cancelled := s.reportingCancelled
  let s := { s with reporting := none, reportingCancelled := none }
  match cancelled with
  | some _ => some { s with subscriptionsCount := decCount s.subscriptionsCount }
  | none =>
    if keep then
      if s.subscriptions.length < cap then
        some { s with subscriptions := s.subscriptions ++ [sub] }
      else
        none
    else
      some { s with subscriptionsCount := decCount s.subscriptionsCount }

/-- Remove every subscription for which `f` gives a reason; one being reported on is told
to go. (The source starts its scan over after every removal, which comes to the same as
going on, `f` being a predicate.) -/
def remove (s : Subscriptions) (f : Subscription → Option String) : Subscriptions :=
  let n := s.subscriptions.countP fun sub => (f sub).isSome
  let s :=
    { s with
      subscriptions := swapRemoveWhere (fun sub => (f sub).isSome) s.subscriptions
      subscriptionsCount := decCount^[n] s.subscriptionsCount }
  match s.reportingCancelled, s.reporting with
  | none, some sub =>
    match f sub with
    | some reason => { s with reportingCancelled := some reason }
    | none => s
  | _, _ => s

/-- Drop the changes every subscription of the table has reported on. -/
def purgeReportedChanges (s : Subscriptions) : Subscriptions :=
  match (s.subscriptions.map (·.maxSeenAttrChangeId)).min? with
  | some minSeenAttrChangeId =>
    { s with changedAttrs := s.changedAttrs.purgeUpTo minSeenAttrChangeId }
  | none => { s with changedAttrs := s.changedAttrs.clear }

theorem reportComplete_cases {cap : ℕ} {s s' : Subscriptions} {sub : Subscription} {keep : Bool}
    (h : s.reportComplete cap sub keep = some s') :
    ((keep && s.reportingCancelled.isNone) = false ∧ s'.subscriptions = s.subscriptions ∧
      s'.subscriptionsCount = decCount s.subscriptionsCount) ∨
    ((keep && s.reportingCancelled.isNone) = true ∧
      s'.subscriptions = s.subscriptions ++ [sub] ∧
      s'.subscriptionsCount = s.subscriptionsCount) := by
  rw [reportComplete] at h
  dsimp only at h
  split at h
  · next reason hreason =>
    cases h
    rw [hreason]
    exact .inl ⟨Bool.and_false _, rfl, rfl⟩
  · next hnone =>
    rw [hnone]
    split at h
    · next hkeep =>
      split at h
      · cases h
        exact .inr ⟨by rw [hkeep]; rfl, rfl, rfl⟩
      · cases h
    · next hkeep =>
      cases h
      exact .inl ⟨by rw [Bool.eq_false_of_not_eq_true hkeep]; rfl, rfl, rfl⟩

theorem report_eq_some {tickHz now eventNumbersWatermark : ℕ} {s s' : Subscriptions}
    {context : ReportContext}
    (h : s.report tickHz now eventNumbersWatermark = some (context, s')) :
    ∃ index sub, (s.subscriptions.findIdx? fun sub =>
        sub.isReportable tickHz now s.changedAttrs eventNumbersWatermark) = some index ∧
      s.subscriptions[index]? = some sub ∧
      context = ⟨sub, s.changedAttrs.watermark, eventNumbersWatermark, now⟩ ∧
      s'.subscriptions = swapRemove s.subscriptions index ∧
      s'.subscriptionsCount = s.subscriptionsCount := by
  rw [report] at h
  split at h
  · next index hindex =>
    split at h
    · next sub hsub =>
      cases h
      exact ⟨index, sub, hindex, hsub, rfl, rfl, rfl⟩
    · cases h
  · cases h

theorem report_eq_none {tickHz now eventNumbersWatermark : ℕ} {s : Subscriptions}
    (h : s.report tickHz now eventNumbersWatermark = none) :
    ∀ sub ∈ s.subscriptions,
      sub.isReportable tickHz now s.changedAttrs eventNumbersWatermark = false := by
  rw [report] at h
  split at h
  · next index hindex =>
    obtain ⟨hlt, -⟩ := List.findIdx?_eq_some_iff_getElem.mp hindex
    rw [List.getElem?_eq_getElem hlt] at h
    cases h
  · next hnone => exact List.findIdx?_eq_none_iff.mp hnone

theorem subscriptions_remove (s : Subscriptions) (f : Subscription → Option String) :
    (s.remove f).subscriptions = swapRemoveWhere (fun sub => (f sub).isSome) s.subscriptions := by
  rw [remove]
  dsimp only
  split
  · split <;> rfl
  · rfl

theorem subscriptions_clear (s : Subscriptions) : s.clear.subscriptions = [] := by
  rw [clear]
  split <;> rfl

theorem subscriptions_purgeReportedChanges (s : Subscriptions) :
    s.purgeReportedChanges.subscriptions = s.subscriptions := by
  rw [purgeReportedChanges]
  split <;> rfl

end Subscriptions

/-! ## Runs -/

inductive SubAction where
  | notifyAttrChanged (endpoint : EndptId) (cluster : ClusterId) (attr : AttrId)
  | notifyClusterChanged (endpoint : EndptId) (cluster : ClusterId)
  | notifyEndpointChanged (endpoint : EndptId)
  | notifyAllChanged
  | add (now fabIdx : ℕ) (peerNodeId : BitVec 64) (sessionId : BitVec 32)
      (minIntSecs maxIntSecs eventNumbersWatermark : ℕ)
  | report (now eventNumbersWatermark : ℕ)
  /-- the context with the given number is dropped, after `set_keep` or without it -/
  | complete (index : ℕ) (keep : Bool)
  | remove (f : Subscription → Option String)
  | clear
  | purgeReportedChanges

/-- The subscriptions together with the contexts in flight and a log of all changes ever
recorded, each with its id. -/
structure SubRun where
  subs : Subscriptions
  contexts : List ReportContext
  log : List ChangedAttr

namespace SubRun

def start : SubRun := ⟨.new, [], []⟩

/-- Record a change, in the table and in the log. -/
def notify (r : SubRun) (path : ChangedAttr) : SubRun :=
  let (changeId, changedAttrs) := r.subs.changedAttrs.recordRaw path
  { r with
    subs := { r.subs with changedAttrs }
    log := { path with changeId } :: r.log }

def step (cap tickHz : ℕ) (r : SubRun) : SubAction → Option SubRun
  | .notifyAttrChanged endpoint cluster attr => some (r.notify ⟨endpoint, cluster, attr, 0⟩)
  | .notifyClusterChanged endpoint cluster => some (r.notify ⟨endpoint, cluster, wildcardAttr, 0⟩)
  | .notifyEndpointChanged endpoint =>
    some (r.notify ⟨endpoint, wildcardCluster, wildcardAttr, 0⟩)
  | .notifyAllChanged => some (r.notify ⟨wildcardEndpoint, wildcardCluster, wildcardAttr, 0⟩)
  | .add now fabIdx peerNodeId sessionId minIntSecs maxIntSecs eventNumbersWatermark =>
    match r.subs.add cap now fabIdx peerNodeId sessionId minIntSecs maxIntSecs
        eventNumbersWatermark with
    | some (context, subs) => some { r with subs, contexts := r.contexts ++ [context] }
    | none => some r
  | .report now eventNumbersWatermark =>
    match r.subs.report tickHz now eventNumbersWatermark with
    | some (context, subs) => some { r with subs, contexts := r.contexts ++ [context] }
    | none => some r
  | .complete index keep =>
    match r.contexts[index]? with
    | some context =>
      match r.subs.reportComplete cap context.committed keep with
      | some subs => some { r with subs, contexts := r.contexts.eraseIdx index }
      | none => none
    | none => none
  | .remove f => some { r with subs := r.subs.remove f }
  | .clear => some { r with subs := r.subs.clear }
  | .purgeReportedChanges => some { r with subs := r.subs.purgeReportedChanges }

/-- The subscriptions as a machine, with room for `cap` of them. -/
def machine (cap tickHz : ℕ) : Machine SubRun SubAction := ⟨step cap tickHz⟩

/-- The live subscriptions: in the table, being primed or being reported on. Those outside
the table still have the watermark committed before. -/
def live (r : SubRun) : List Subscription :=
  r.subs.subscriptions ++ r.contexts.map (·.subscription)

end SubRun

end RsMatter
