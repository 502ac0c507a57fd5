import RsMatter.ChangedAttrs
import RsMatter.Panic
import Mathlib.Data.List.Dedup
import Mathlib.Data.List.Induction
import Mathlib.Order.Basic

/-!
# Histories of changes (`dm/subscriptions.rs`, `ChangedAttrs`)

What the table says about a path is compared with all that was ever recorded, and with what was
recorded and not purged since. The table never says less than was recorded. It says more once
it has run out of slots, and before that only in that an entry may have been refreshed by a change of
a part of what it covers.
-/

namespace RsMatter

namespace ChangedAttrs

open Stop

/-! ## Rounds and panics -/

/-- `unwrap!(entries.push(x))`. -/
def pushUnwrap (entries : List ChangedAttr) (x : ChangedAttr) :
    Except (Stop ErrorCode) (List ChangedAttr) :=
  if entries.length < maxChangedAttrs then .ok (entries ++ [x]) else .error .panic

/-- `promoteLargestGroup` with its panics. -/
def promoteLargestGroupChecked (entries : List ChangedAttr) (level : ℕ) :
    Except (Stop ErrorCode) (Option (List ChangedAttr)) :=
  match (bestPivot entries level).1 with
  | none => .ok none
  | some pivot => do
    let coarsened ← unwrapSome (pivot.coarsen level)
    let maxChangeId := ((entries.filter coarsened.covers).map (·.changeId)).foldl max 0
    let entries ← pushUnwrap (swapRemoveWhere coarsened.covers entries)
      { coarsened with changeId := maxChangeId }
    return some entries

/-- `promoteAndInsert` with its panics. The loop is given a number of rounds, and more of them count as
a panic. -/
def promoteAndInsertChecked (new : ChangedAttr) :
    ℕ → List ChangedAttr → Except (Stop ErrorCode) (List ChangedAttr)
  | 0, _ => .error .panic
  | rounds + 1, entries =>
    match modifyFirst (·.covers new) (fun x => { x with changeId := new.changeId }) entries with
    | some entries => .ok entries
    | none =>
      if entries.length < maxChangedAttrs then .ok (entries ++ [new])
      else do
        match ← promoteLargestGroupChecked entries 1 with
        | some entries => promoteAndInsertChecked new rounds entries
        | none =>
          match ← promoteLargestGroupChecked entries 2 with
          | some entries => promoteAndInsertChecked new rounds entries
          | none => pushUnwrap [] ⟨wildcardEndpoint, wildcardCluster, wildcardAttr, new.changeId⟩

/-- `recordRaw` with its panics. The loop is given two rounds. -/
def recordRawChecked (t : ChangedAttrs) (new : ChangedAttr) :
    Except (Stop ErrorCode) (ℕ × ChangedAttrs) := do
  let changeId := t.nextChangeId
  let nextChangeId := max ((t.nextChangeId + 1) % 2 ^ 64) 1
  let new := { new with changeId := changeId }
  match modifyFirst (·.covers new) (fun x => { x with changeId := changeId }) t.entries with
  | some entries => return (changeId, ⟨nextChangeId, entries⟩)
  | none =>
    let entries := swapRemoveWhere new.covers t.entries
    if entries.length < maxChangedAttrs then return (changeId, ⟨nextChangeId, entries ++ [new]⟩)
    else
      let entries ← promoteAndInsertChecked new 2 entries
      return (changeId, ⟨nextChangeId, entries⟩)

variable {l l' : List ChangedAttr} {new : ChangedAttr}

theorem length_promoteLargestGroup {level : ℕ} (h : promoteLargestGroup l level = some l') :
    l'.length < l.length := by
  have hrecent : ∀ x ∈ l, x.changeId ≤ (l.map (·.changeId)).foldl max 0 := fun x hx =>
    (le_foldl_max _ 0).2 _ (List.mem_map_of_mem hx)
  exact (promoteLargestGroup_spec hrecent h).2.1

theorem promoteLargestGroupChecked_eq (level : ℕ) (hroom : l.length ≤ maxChangedAttrs) :
    promoteLargestGroupChecked l level = .ok (promoteLargestGroup l level) := by
  rw [promoteLargestGroupChecked, promoteLargestGroup]
  cases hp : (bestPivot l level).1 with
  | none => rfl
  | some pivot =>
    obtain ⟨c, hc, hcount⟩ := bestPivot_spec hp
    have hlen := length_swapRemoveWhere_add c.covers l
    have hlt : (swapRemoveWhere c.covers l).length < maxChangedAttrs := by omega
    simp only [hc, unwrapSome, ok_bind, pushUnwrap, if_pos hlt]
    rfl

/-- **The loop** ends in its second round, without a panic. -/
theorem promoteAndInsertChecked_eq (rounds fuel : ℕ) (hroom : l.length ≤ maxChangedAttrs)
    (hone : 1 ≤ rounds ∧ 1 ≤ fuel) (htwo : l.length = maxChangedAttrs → 2 ≤ rounds ∧ 2 ≤ fuel) :
    promoteAndInsertChecked new rounds l = .ok (promoteAndInsert new fuel l) ∧
      (promoteAndInsert new fuel l).length ≤ maxChangedAttrs := by
  induction rounds generalizing fuel l with
  | zero => exact absurd hone.1 (by decide)
  | succ rounds ih =>
    obtain ⟨fuel, rfl⟩ : ∃ n, fuel = n + 1 := Nat.exists_eq_add_one.mpr hone.2
    rw [promoteAndInsertChecked, promoteAndInsert]
    cases hm : modifyFirst (·.covers new) (fun x => { x with changeId := new.changeId }) l with
    | some l' =>
      obtain ⟨a, x, b, rfl, -, rfl⟩ := modifyFirst_eq_some hm
      exact ⟨rfl, by simpa using hroom⟩
    | none =>
      by_cases hlt : l.length < maxChangedAttrs
      · simp only [if_pos hlt]
        refine ⟨trivial, ?_⟩
        rw [List.length_append, List.length_singleton]
        exact hlt
      · have hfull : l.length = maxChangedAttrs := by omega
        obtain ⟨hrounds, hfuel⟩ := htwo hfull
        have hnext : ∀ l' : List ChangedAttr, l'.length < l.length →
            promoteAndInsertChecked new rounds l' = .ok (promoteAndInsert new fuel l') ∧
              (promoteAndInsert new fuel l').length ≤ maxChangedAttrs := fun l' hl' =>
          ih fuel (by omega) ⟨by omega, by omega⟩ fun heq => absurd heq (by omega)
        simp only [if_neg hlt, promoteLargestGroupChecked_eq _ hroom, ok_bind]
        cases h₁ : promoteLargestGroup l 1 with
        | some l₁ => exact hnext l₁ (length_promoteLargestGroup h₁)
        | none =>
          cases h₂ : promoteLargestGroup l 2 with
          | some l₂ => exact hnext l₂ (length_promoteLargestGroup h₂)
          | none => exact ⟨rfl, show 1 ≤ maxChangedAttrs by decide⟩

theorem recordRawChecked_eq {t : ChangedAttrs} (hroom : t.entries.length ≤ maxChangedAttrs)
    (new : ChangedAttr) : t.recordRawChecked new = .ok (t.recordRaw new) ∧
      (t.recordRaw new).2.entries.length ≤ maxChangedAttrs := by
  rw [recordRawChecked, recordRaw, insertRaw]
  cases hm : modifyFirst (·.covers { new with changeId := t.nextChangeId })
      (fun x => { x with changeId := t.nextChangeId }) t.entries with
  | some l' =>
    obtain ⟨a, x, b, hl, -, rfl⟩ := modifyFirst_eq_some hm
    refine ⟨rfl, ?_⟩
    simpa [hl] using hroom
  | none =>
    have hlen := length_swapRemoveWhere_add (ChangedAttr.covers { new with changeId := t.nextChangeId })
      t.entries
    by_cases hlt : (swapRemoveWhere (ChangedAttr.covers { new with changeId := t.nextChangeId })
      t.entries).length < maxChangedAttrs
    · simp only [if_pos hlt]
      refine ⟨rfl, ?_⟩
      rw [List.length_append, List.length_singleton]
      exact hlt
    · have hrest : (swapRemoveWhere (ChangedAttr.covers { new with changeId := t.nextChangeId })
          t.entries).length ≤ maxChangedAttrs := by omega
      have hfuel : maxChangedAttrs = 16 := rfl
      obtain ⟨heq, hle⟩ := @promoteAndInsertChecked_eq _ { new with changeId := t.nextChangeId } 2
        ((swapRemoveWhere (ChangedAttr.covers { new with changeId := t.nextChangeId })
          t.entries).length + 1) hrest ⟨by omega, by omega⟩ fun hfull => ⟨by omega, by omega⟩
      simp only [if_neg hlt, heq, ok_bind]
      exact ⟨rfl, hle⟩

end ChangedAttrs

/-! ## Histories -/

def ChangedAttr.path (x : ChangedAttr) : EndptId × ClusterId × AttrId := (x.endpoint, x.cluster, x.attr)

inductive ChangeCall where
  | record (endpoint : EndptId) (cluster : ClusterId) (attr : AttrId)
  /-- record a change of a cluster, an endpoint or everything -/
  | recordWildcard (endpoint : Option EndptId) (cluster : Option ClusterId)
  | purgeUpTo (threshold : BitVec 64)
  deriving DecidableEq

structure ChangeHistory where
  table : ChangedAttrs
  /-- all that was recorded, with the ids that were returned -/
  recorded : List ChangedAttr
  kept : List ChangedAttr
  deriving DecidableEq

namespace ChangeHistory

open Stop ChangedAttrs

def noted (h : ChangeHistory) (x : ChangedAttr) (r : ℕ × ChangedAttrs) : ChangeHistory :=
  ⟨r.2, h.recorded ++ [{ x with changeId := r.1 }], h.kept ++ [{ x with changeId := r.1 }]⟩

def call (h : ChangeHistory) : ChangeCall → ChangeHistory
  | .record endpoint cluster attr =>
    h.noted ⟨endpoint, cluster, attr, 0⟩ (h.table.record endpoint cluster attr)
  | .recordWildcard endpoint cluster =>
    h.noted ⟨endpoint.getD wildcardEndpoint, cluster.getD wildcardCluster, wildcardAttr, 0⟩
      (h.table.recordWildcard endpoint cluster)
  | .purgeUpTo threshold =>
    ⟨h.table.purgeUpTo threshold.toNat, h.recorded,
      h.kept.filter fun x => decide (threshold.toNat < x.changeId)⟩

def new : ChangeHistory := ⟨ChangedAttrs.new, [], []⟩

def after (calls : List ChangeCall) : ChangeHistory := calls.foldl call new

def callChecked (t : ChangedAttrs) : ChangeCall → Except (Stop ErrorCode) ChangedAttrs
  | .record endpoint cluster attr => do
    let r ← t.recordRawChecked ⟨endpoint, cluster, attr, 0⟩
    return r.2
  | .recordWildcard endpoint cluster => do
    let r ← t.recordRawChecked
      ⟨endpoint.getD wildcardEndpoint, cluster.getD wildcardCluster, wildcardAttr, 0⟩
    return r.2
  | .purgeUpTo threshold => .ok (t.purgeUpTo threshold.toNat)

def runChecked (calls : List ChangeCall) : Except (Stop ErrorCode) ChangedAttrs :=
  calls.foldlM callChecked ChangedAttrs.new

/-- Is the path of a record still live: has it, or a part of it, been recorded since and not been
purged? -/
def Live (h : ChangeHistory) (q : ChangedAttr) : Prop :=
  ∃ r ∈ h.kept, q.covers r = true ∧ q.changeId ≤ r.changeId

instance (h : ChangeHistory) (q : ChangedAttr) : Decidable (h.Live q) :=
  inferInstanceAs (Decidable (∃ r ∈ h.kept, q.covers r = true ∧ q.changeId ≤ r.changeId))

def livePaths (h : ChangeHistory) : List (EndptId × ClusterId × AttrId) :=
  ((h.recorded.filter fun q => decide (h.Live q)).map ChangedAttr.path).dedup

variable {h : ChangeHistory} {calls : List ChangeCall}

theorem after_append (calls : List ChangeCall) (c : ChangeCall) :
    after (calls ++ [c]) = (after calls).call c := by
  rw [after, after, List.foldl_append]
  rfl

theorem call_cases (h : ChangeHistory) (c : ChangeCall) :
    (∃ x : ChangedAttr, h.call c = h.noted x (h.table.recordRaw x) ∧
      ∀ t, callChecked t c = (t.recordRawChecked x).map Prod.snd) ∨
    ∃ threshold, c = .purgeUpTo threshold := by
  cases c with
  | record endpoint cluster attr =>
    refine .inl ⟨⟨endpoint, cluster, attr, 0⟩, rfl, fun t => ?_⟩
    rw [callChecked]
    cases t.recordRawChecked ⟨endpoint, cluster, attr, 0⟩ <;> rfl
  | recordWildcard endpoint cluster =>
    refine .inl ⟨⟨endpoint.getD wildcardEndpoint, cluster.getD wildcardCluster, wildcardAttr, 0⟩, rfl,
      fun t => ?_⟩
    rw [callChecked]
    cases t.recordRawChecked
      ⟨endpoint.getD wildcardEndpoint, cluster.getD wildcardCluster, wildcardAttr, 0⟩ <;> rfl
  | purgeUpTo threshold => exact .inr ⟨threshold, rfl⟩

/-! ## No panics -/

theorem length_purgeUpTo_le (t : ChangedAttrs) (n : ℕ) :
    (t.purgeUpTo n).entries.length ≤ t.entries.length := by
  rw [purgeUpTo]
  split
  · exact Nat.le_refl _
  · have hlen := length_swapRemoveWhere_add (fun x => decide (x.changeId ≤ n)) t.entries
    show (swapRemoveWhere _ t.entries).length ≤ _
    omega

/-- **No call panics**, and the table stays within its slots. -/
theorem runChecked_eq (calls : List ChangeCall) : runChecked calls = .ok (after calls).table ∧
    (after calls).table.entries.length ≤ maxChangedAttrs := by
  induction calls using List.reverseRecOn with
  | nil => exact ⟨rfl, Nat.zero_le _⟩
  | append_singleton calls c ih =>
    obtain ⟨hrun, hroom⟩ := ih
    have hstep : runChecked (calls ++ [c]) = callChecked (after calls).table c := by
      rw [runChecked, List.foldlM_append]
      rw [runChecked] at hrun
      rw [hrun, ok_bind]
      exact List.foldlM_cons.trans (bind_pure _)
    rw [hstep, after_append]
    rcases call_cases (after calls) c with ⟨x, hcall, hchecked⟩ | ⟨threshold, rfl⟩
    · obtain ⟨heq, hle⟩ := recordRawChecked_eq hroom x
      rw [hcall, hchecked, heq]
      exact ⟨rfl, hle⟩
    · exact ⟨rfl, (length_purgeUpTo_le _ _).trans hroom⟩

/-! ## What holds of the first records -/

def ids (h : ChangeHistory) : List ℕ := h.recorded.map (·.changeId)

/-- The table after fewer than `2 ^ 64` records. -/
structure Sound (h : ChangeHistory) : Prop where
  /-- the counter counts the records, until it starts anew -/
  next : h.table.nextChangeId = h.recorded.length % (2 ^ 64 - 1) + 1
  numbered : h.ids = List.range' 1 h.recorded.length
  kept_recorded : ∀ r ∈ h.kept, r ∈ h.recorded
  /-- no entry is more recent than the last record -/
  recent : ∀ x ∈ h.table.entries, x.changeId ≤ h.recorded.length
  covered : Dominates h.kept h.table.entries

theorem sound_new : Sound new where
  next := rfl
  numbered := rfl
  kept_recorded _ hr := absurd hr List.not_mem_nil
  recent _ hx := absurd hx List.not_mem_nil
  covered _ hx := absurd hx List.not_mem_nil

theorem Sound.noted (hs : Sound h) (hroom : h.table.entries.length ≤ maxChangedAttrs)
    (hlt : h.recorded.length < 2 ^ 64 - 1) (x : ChangedAttr) :
    Sound (h.noted x (h.table.recordRaw x)) ∧ h.table.nextChangeId = h.recorded.length + 1 := by
  have hid : h.table.nextChangeId = h.recorded.length + 1 := by
    rw [hs.next, Nat.mod_eq_of_lt hlt]
  have hins : Inserted h.table.entries { x with changeId := h.table.nextChangeId }
      (h.table.recordRaw x).2.entries := by
    refine insertRaw_spec hroom fun y hy => ?_
    have hy := hs.recent y hy
    show y.changeId ≤ h.table.nextChangeId
    omega
  have hlen : (h.noted x (h.table.recordRaw x)).recorded.length = h.recorded.length + 1 := by
    rw [ChangeHistory.noted, List.length_append, List.length_singleton]
  refine ⟨⟨?_, ?_, ?_, ?_, ?_⟩, hid⟩
  · have hnext : (h.noted x (h.table.recordRaw x)).table.nextChangeId =
        max ((h.table.nextChangeId + 1) % 2 ^ 64) 1 := rfl
    rw [hnext, hlen, hid]
    omega
  · have hids : (h.noted x (h.table.recordRaw x)).ids = h.ids ++ [h.table.nextChangeId] := by
      rw [ids, ChangeHistory.noted, List.map_append]
      rfl
    rw [hids, hlen, hs.numbered, hid, List.range'_concat]
    simp [Nat.add_comm]
  · intro r hr
    rcases List.mem_append.mp hr with hr | hr
    · exact List.mem_append_left _ (hs.kept_recorded r hr)
    · exact List.mem_append_right _ hr
  · intro y hy
    have hle : y.changeId ≤ h.table.nextChangeId := hins.recent y hy
    rw [hlen]
    omega
  · intro r hr
    rcases List.mem_append.mp hr with hr | hr
    · obtain ⟨y, hy, hyr, hle⟩ := hs.covered r hr
      obtain ⟨z, hz, hzy, hle'⟩ := hins.dominates y hy
      exact ⟨z, hz, ChangedAttr.covers_trans hzy hyr, hle.trans hle'⟩
    · rw [List.mem_singleton.mp hr]
      exact hins.covered

theorem mem_purgeUpTo_iff {t : ChangedAttrs} {n : ℕ} {x : ChangedAttr} :
    x ∈ (t.purgeUpTo n).entries ↔ x ∈ t.entries ∧ (n = 0 ∨ n < x.changeId) := by
  rw [purgeUpTo]
  split
  · next hn => simp [hn]
  · next hn =>
    show x ∈ swapRemoveWhere _ t.entries ↔ _
    rw [mem_swapRemoveWhere, decide_eq_false_iff_not, Nat.not_le]
    simp [hn]

theorem Sound.purgeUpTo (hs : Sound h) (threshold : BitVec 64) :
    Sound (h.call (.purgeUpTo threshold)) where
  next := by
    have hsame : (h.table.purgeUpTo threshold.toNat).nextChangeId = h.table.nextChangeId := by
      rw [ChangedAttrs.purgeUpTo]
      split <;> rfl
    exact hsame.trans hs.next
  numbered := hs.numbered
  kept_recorded r hr := hs.kept_recorded r (List.mem_filter.mp hr).1
  recent x hx := hs.recent x (mem_purgeUpTo_iff.mp hx).1
  covered := by
    intro r hr
    obtain ⟨hr, hlt⟩ := List.mem_filter.mp hr
    obtain ⟨y, hy, hyr, hle⟩ := hs.covered r hr
    have hlt : threshold.toNat < r.changeId := of_decide_eq_true hlt
    exact ⟨y, mem_purgeUpTo_iff.mpr ⟨hy, .inr (hlt.trans_le hle)⟩, hyr, hle⟩

theorem length_recorded_call (h : ChangeHistory) (c : ChangeCall) :
    h.recorded.length ≤ (h.call c).recorded.length := by
  rcases call_cases h c with ⟨x, hcall, -⟩ | ⟨threshold, rfl⟩
  · rw [hcall, ChangeHistory.noted, List.length_append]
    exact Nat.le_add_right ..
  · exact Nat.le_refl _

/-- **Runs.** -/
theorem sound_after (calls : List ChangeCall) (hlt : (after calls).recorded.length < 2 ^ 64) :
    Sound (after calls) := by
  induction calls using List.reverseRecOn with
  | nil => exact sound_new
  | append_singleton calls c ih =>
    rw [after_append] at hlt ⊢
    have hs := ih ((length_recorded_call _ c).trans_lt hlt)
    rcases call_cases (after calls) c with ⟨x, hcall, -⟩ | ⟨threshold, rfl⟩
    · rw [hcall] at hlt ⊢
      rw [ChangeHistory.noted, List.length_append, List.length_singleton] at hlt
      exact (hs.noted (runChecked_eq calls).2 (by omega) x).1
    · exact hs.purgeUpTo threshold

/-! ## While there are slots -/

/-- Before the slots run out, entries are recorded paths, refreshed by a part of theirs. -/
structure Exact (h : ChangeHistory) : Prop where
  recorded : ∀ x ∈ h.table.entries, ∃ q ∈ h.recorded, q.path = x.path ∧ q.changeId ≤ x.changeId
  /-- the id is that of a record it covers -/
  refreshed : ∀ x ∈ h.table.entries, ∃ r ∈ h.kept, x.covers r = true ∧ r.changeId = x.changeId
  apart : (h.table.entries.map ChangedAttr.path).Nodup

theorem exact_new : Exact new where
  recorded _ hx := absurd hx List.not_mem_nil
  refreshed _ hx := absurd hx List.not_mem_nil
  apart := List.nodup_nil

theorem covers_of_path {x y z : ChangedAttr} (h : x.path = y.path) : x.covers z = y.covers z := by
  obtain ⟨e, c, a, n⟩ := x
  obtain ⟨e', c', a', n'⟩ := y
  simp only [ChangedAttr.path, Prod.mk.injEq] at h
  obtain ⟨rfl, rfl, rfl⟩ := h
  rfl

theorem Exact.live (he : Exact h) {x : ChangedAttr} (hx : x ∈ h.table.entries) :
    ∃ q ∈ h.recorded, q.path = x.path ∧ h.Live q := by
  obtain ⟨q, hq, hpath, hle⟩ := he.recorded x hx
  obtain ⟨r, hr, hxr, hid⟩ := he.refreshed x hx
  exact ⟨q, hq, hpath, r, hr, (covers_of_path hpath).trans hxr, hle.trans_eq hid.symm⟩

theorem length_entries_le (he : Exact h) (x : ChangedAttr) (r : ℕ × ChangedAttrs) :
    h.table.entries.length ≤ (h.noted x r).livePaths.length := by
  have hsub : h.table.entries.map ChangedAttr.path ⊆ (h.noted x r).livePaths := by
    intro p hp
    obtain ⟨y, hy, rfl⟩ := List.mem_map.mp hp
    obtain ⟨q, hq, hpath, r', hr', hcov, hle⟩ := he.live hy
    have hlive : (h.noted x r).Live q := ⟨r', List.mem_append_left _ hr', hcov, hle⟩
    rw [livePaths, List.mem_dedup, ← hpath]
    exact List.mem_map_of_mem
      (List.mem_filter.mpr ⟨List.mem_append_left _ hq, decide_eq_true hlive⟩)
  have hlen := (List.subperm_of_subset he.apart hsub).length_le
  rwa [List.length_map] at hlen

/-- **Recording** with a slot free is exact. -/
theorem Exact.noted (he : Exact h) (hs : Sound h) (hid : h.table.nextChangeId = h.recorded.length + 1)
    (x : ChangedAttr)
    (hfree : (h.noted x (h.table.recordRaw x)).livePaths.length < maxChangedAttrs) :
    Exact (h.noted x (h.table.recordRaw x)) := by
  have hroom := length_entries_le he x (h.table.recordRaw x)
  have hnew : { x with changeId := h.table.nextChangeId } ∈ (h.noted x (h.table.recordRaw x)).kept :=
    List.mem_append_right _ (List.mem_singleton_self _)
  -- entries that are left as they were
  have hold : ∀ y ∈ h.table.entries,
      (∃ q ∈ (h.noted x (h.table.recordRaw x)).recorded, q.path = y.path ∧ q.changeId ≤ y.changeId) ∧
      ∃ r ∈ (h.noted x (h.table.recordRaw x)).kept, y.covers r = true ∧ r.changeId = y.changeId := by
    intro y hy
    obtain ⟨q, hq, hpath⟩ := he.recorded y hy
    obtain ⟨r, hr, hcov⟩ := he.refreshed y hy
    exact ⟨⟨q, List.mem_append_left _ hq, hpath⟩, r, List.mem_append_left _ hr, hcov⟩
  have hentries : (h.noted x (h.table.recordRaw x)).table.entries =
      insertRaw h.table.entries { x with changeId := h.table.nextChangeId } := rfl
  rw [insertRaw] at hentries
  cases hm : modifyFirst (·.covers { x with changeId := h.table.nextChangeId })
      (fun y => { y with changeId := h.table.nextChangeId }) h.table.entries with
  | some l' =>
    -- an entry is refreshed
    rw [hm] at hentries
    obtain ⟨a, y, b, hl, hcov, rfl⟩ := modifyFirst_eq_some hm
    have hy : y ∈ h.table.entries := by
      rw [hl]
      exact List.mem_append_right _ List.mem_cons_self
    have hmem : ∀ z ∈ a ++ { y with changeId := h.table.nextChangeId } :: b,
        z = { y with changeId := h.table.nextChangeId } ∨ z ∈ h.table.entries := by
      intro z hz
      rw [hl]
      simp only [List.mem_append, List.mem_cons] at hz ⊢
      tauto
    refine ⟨fun z hz => ?_, fun z hz => ?_, ?_⟩
    · rw [hentries] at hz
      rcases hmem z hz with rfl | hz
      · obtain ⟨q, hq, hpath, hle⟩ := (hold y hy).1
        refine ⟨q, hq, hpath, hle.trans ?_⟩
        have hrecent := hs.recent y hy
        show y.changeId ≤ h.table.nextChangeId
        omega
      · exact (hold z hz).1
    · rw [hentries] at hz
      rcases hmem z hz with rfl | hz
      · exact ⟨_, hnew, hcov, rfl⟩
      · exact (hold z hz).2
    · have hsame : (a ++ { y with changeId := h.table.nextChangeId } :: b).map ChangedAttr.path =
          h.table.entries.map ChangedAttr.path := by
        rw [hl, List.map_append, List.map_append, List.map_cons, List.map_cons]
        rfl
      rw [hentries, hsame]
      exact he.apart
  | none =>
    -- the new path gets an entry of its own
    have hnot := modifyFirst_eq_none.mp hm
    have hlen := length_swapRemoveWhere_add
      (ChangedAttr.covers { x with changeId := h.table.nextChangeId }) h.table.entries
    have hlt : (swapRemoveWhere (ChangedAttr.covers { x with changeId := h.table.nextChangeId })
        h.table.entries).length < maxChangedAttrs := by omega
    simp only [hm, if_pos hlt] at hentries
    refine ⟨fun z hz => ?_, fun z hz => ?_, ?_⟩
    · rw [hentries] at hz
      rcases List.mem_append.mp hz with hz | hz
      · exact (hold z (mem_swapRemoveWhere.mp hz).1).1
      · rw [List.mem_singleton.mp hz]
        exact ⟨_, List.mem_append_right _ (List.mem_singleton_self _), rfl, Nat.le_refl _⟩
    · rw [hentries] at hz
      rcases List.mem_append.mp hz with hz | hz
      · exact (hold z (mem_swapRemoveWhere.mp hz).1).2
      · rw [List.mem_singleton.mp hz]
        exact ⟨_, hnew, ChangedAttr.covers_refl _, rfl⟩
    · have hrest := ((swapRemoveWhere_perm (ChangedAttr.covers { x with changeId := h.table.nextChangeId })
        h.table.entries).map ChangedAttr.path).nodup_iff.mpr
          (he.apart.sublist (List.filter_sublist.map ChangedAttr.path))
      rw [hentries, List.map_append]
      refine hrest.append (List.nodup_singleton _) fun p hp hp' => ?_
      obtain ⟨z, hz, rfl⟩ := List.mem_map.mp hp
      have hpath : z.path = ChangedAttr.path { x with changeId := h.table.nextChangeId } :=
        List.mem_singleton.mp hp'
      have hcov := hnot z (mem_swapRemoveWhere.mp hz).1
      rw [covers_of_path hpath, ChangedAttr.covers_refl] at hcov
      cases hcov

/-- Ids start at `1`. -/
theorem Sound.pos (hs : Sound h) {r : ChangedAttr} (hr : r ∈ h.recorded) : 1 ≤ r.changeId := by
  have hid : r.changeId ∈ h.ids := List.mem_map_of_mem hr
  rw [hs.numbered, List.mem_range'_1] at hid
  exact hid.1

theorem Exact.purgeUpTo (he : Exact h) (hs : Sound h) (threshold : BitVec 64) :
    Exact (h.call (.purgeUpTo threshold)) where
  recorded x hx := he.recorded x (mem_purgeUpTo_iff.mp hx).1
  refreshed x hx := by
    obtain ⟨hx, hlt⟩ := mem_purgeUpTo_iff.mp hx
    obtain ⟨r, hr, hcov, hid⟩ := he.refreshed x hx
    have hpos := hs.pos (hs.kept_recorded r hr)
    exact ⟨r, List.mem_filter.mpr ⟨hr, decide_eq_true (by omega)⟩, hcov, hid⟩
  apart := by
    show ((h.table.purgeUpTo threshold.toNat).entries.map ChangedAttr.path).Nodup
    rw [ChangedAttrs.purgeUpTo]
    split
    · exact he.apart
    · exact ((swapRemoveWhere_perm _ h.table.entries).map ChangedAttr.path).nodup_iff.mpr
        (he.apart.sublist (List.filter_sublist.map ChangedAttr.path))

/-- **Runs** in which slots never run out. -/
theorem exact_after (calls : List ChangeCall) (hlt : (after calls).recorded.length < 2 ^ 64)
    (hfree : ∀ before, before <+: calls → (after before).livePaths.length < maxChangedAttrs) :
    Exact (after calls) := by
  induction calls using List.reverseRecOn with
  | nil => exact exact_new
  | append_singleton calls c ih =>
    have hlast := hfree _ List.prefix_rfl
    rw [after_append] at hlt hlast ⊢
    have hlt' := (length_recorded_call _ c).trans_lt hlt
    have hs := sound_after calls hlt'
    have he := ih hlt' fun before hb => hfree before (hb.trans (List.prefix_append calls [c]))
    rcases call_cases (after calls) c with ⟨x, hcall, -⟩ | ⟨threshold, rfl⟩
    · rw [hcall] at hlt hlast ⊢
      rw [ChangeHistory.noted, List.length_append, List.length_singleton] at hlt
      exact he.noted hs (hs.noted (runChecked_eq calls).2 (by omega) x).2 x hlast
    · exact he.purgeUpTo hs threshold

/-! ## What the table says -/

/-- What was recorded and not purged since is reported to everyone who has not seen it. -/
def Reports (h : ChangeHistory) : Prop :=
  ∀ q ∈ h.kept, ∀ endpoint cluster attr, q.matches endpoint cluster attr = true →
    ∀ since < q.changeId, h.table.containsSince endpoint cluster attr since = true

/-- What is reported is covered by a recorded path of which a part was recorded since, and not
purged. -/
def ReportsOnly (h : ChangeHistory) : Prop :=
  ∀ endpoint cluster attr since, h.table.containsSince endpoint cluster attr since = true →
    ∃ q ∈ h.recorded, q.matches endpoint cluster attr = true ∧
      ∃ r ∈ h.kept, q.covers r = true ∧ q.changeId ≤ r.changeId ∧ since < r.changeId

theorem containsSince_iff {t : ChangedAttrs} {endpoint : EndptId} {cluster : ClusterId} {attr : AttrId}
    {since : ℕ} : t.containsSince endpoint cluster attr since = true ↔
      ∃ x ∈ t.entries, since < x.changeId ∧ x.matches endpoint cluster attr = true := by
  rw [containsSince, List.any_eq_true]
  simp only [Bool.and_eq_true, decide_eq_true_eq]

theorem Sound.reports (hs : Sound h) : h.Reports := by
  intro q hq endpoint cluster attr hmatch since hsince
  obtain ⟨y, hy, hcov, hle⟩ := hs.covered q hq
  exact containsSince_iff.mpr ⟨y, hy, hsince.trans_le hle, ChangedAttr.matches_of_covers hcov hmatch⟩

theorem matches_of_path {x y : ChangedAttr} (h : x.path = y.path) (endpoint : EndptId)
    (cluster : ClusterId) (attr : AttrId) :
    x.matches endpoint cluster attr = y.matches endpoint cluster attr := by
  obtain ⟨e, c, a, n⟩ := x
  obtain ⟨e', c', a', n'⟩ := y
  simp only [ChangedAttr.path, Prod.mk.injEq] at h
  obtain ⟨rfl, rfl, rfl⟩ := h
  rfl

theorem Exact.reportsOnly (he : Exact h) : h.ReportsOnly := by
  intro endpoint cluster attr since hcontains
  obtain ⟨x, hx, hsince, hmatch⟩ := containsSince_iff.mp hcontains
  obtain ⟨q, hq, hpath, hle⟩ := he.recorded x hx
  obtain ⟨r, hr, hcov, hid⟩ := he.refreshed x hx
  refine ⟨q, hq, (matches_of_path hpath _ _ _).trans hmatch, r, hr, (covers_of_path hpath).trans hcov, ?_⟩
  omega

/-- **The table of changed attributes.** No run of calls panics or leaves the slots; ids increase,
nothing that was recorded is lost, and while there are slots nothing else is reported. -/
theorem changeTable (calls : List ChangeCall) :
    (runChecked calls = .ok (after calls).table ∧
      (after calls).table.entries.length ≤ maxChangedAttrs) ∧
    ((after calls).recorded.length < 2 ^ 64 →
      (after calls).ids.Pairwise (· < ·) ∧ (after calls).Reports ∧
      ((∀ before, before <+: calls → (after before).livePaths.length < maxChangedAttrs) →
        (after calls).ReportsOnly)) := by
  refine ⟨runChecked_eq calls, fun hlt => ?_⟩
  have hs := sound_after calls hlt
  refine ⟨?_, hs.reports, fun hfree => (exact_after calls hlt hfree).reportsOnly⟩
  rw [hs.numbered]
  exact List.pairwise_lt_range'

/-! ## Where the table says more -/

theorem next_after_replicate (n : ℕ) (endpoint : EndptId) (cluster : ClusterId) (attr : AttrId) :
    (after (List.replicate n (.record endpoint cluster attr))).table.nextChangeId =
      n % (2 ^ 64 - 1) + 1 := by
  induction n with
  | zero => rfl
  | succ n ih =>
    have hnext : (after (List.replicate (n + 1) (.record endpoint cluster attr))).table.nextChangeId =
        max (((after (List.replicate n (.record endpoint cluster attr))).table.nextChangeId + 1) %
          2 ^ 64) 1 := by
      rw [List.replicate_succ', after_append]
      rfl
    rw [hnext, ih]
    omega

theorem length_recorded_replicate (n : ℕ) (endpoint : EndptId) (cluster : ClusterId) (attr : AttrId) :
    (after (List.replicate n (.record endpoint cluster attr))).recorded.length = n := by
  induction n with
  | zero => rfl
  | succ n ih =>
    have hcall : (after (List.replicate (n + 1) (.record endpoint cluster attr))).recorded.length =
        (after (List.replicate n (.record endpoint cluster attr))).recorded.length + 1 := by
      rw [List.replicate_succ', after_append]
      exact List.length_append
    rw [hcall, ih]

theorem ids_replicate_succ (n : ℕ) (endpoint : EndptId) (cluster : ClusterId) (attr : AttrId) :
    (after (List.replicate (n + 1) (.record endpoint cluster attr))).ids =
      (after (List.replicate n (.record endpoint cluster attr))).ids ++
        [(after (List.replicate n (.record endpoint cluster attr))).table.nextChangeId] := by
  rw [List.replicate_succ', after_append]
  exact List.map_append

theorem ids_start_anew (endpoint : EndptId) (cluster : ClusterId) (attr : AttrId) :
    ¬ (after (List.replicate (2 ^ 64 - 1 + 1) (.record endpoint cluster attr))).ids.Pairwise (· < ·) := by
  have hlen := length_recorded_replicate (2 ^ 64 - 1) endpoint cluster attr
  have hs := sound_after (List.replicate (2 ^ 64 - 1) (.record endpoint cluster attr)) (by omega)
  have hfirst : 1 ∈ (after (List.replicate (2 ^ 64 - 1) (.record endpoint cluster attr))).ids := by
    rw [hs.numbered, List.mem_range'_1]
    omega
  intro hpair
  rw [ids_replicate_succ, next_after_replicate, Nat.mod_self] at hpair
  exact absurd ((List.pairwise_append.mp hpair).2.2 1 hfirst 1 (List.mem_singleton_self _)) (by decide)

/-- A cluster changes, then one of its attributes. -/
def refreshCalls : List ChangeCall := [.recordWildcard (some 1) (some 6), .record 1 6 5]

/-- Two paths keep two entries each, which take up the room of others. -/
def doubledCalls : List ChangeCall :=
  [ChangeCall.record 9 50 1, .record 9 50 2, .recordWildcard (some 1) none, .recordWildcard (some 2) none,
    .recordWildcard none (some 1), .recordWildcard none (some 2), .record 1 1 0, .record 2 2 0,
    .purgeUpTo 2, .record 1 1 0, .record 2 2 0, .purgeUpTo 6] ++
    (List.range 13).map fun n => .record 9 9 (BitVec.ofNat 32 n)

/-- Ids start anew at last, an attribute is reported when another one of its cluster has changed, and
attributes that never changed are reported although few paths were recorded and not purged. -/
theorem changeTable_more :
    (¬ (after (List.replicate (2 ^ 64 - 1 + 1) (.record 1 6 5))).ids.Pairwise (· < ·)) ∧
    ((∀ before ∈ refreshCalls.inits, (after before).kept.length < maxChangedAttrs) ∧
      (after refreshCalls).table.containsSince 1 6 7 1 = true ∧
      ∀ q ∈ (after refreshCalls).recorded, q.matches 1 6 7 = true → ¬ 1 < q.changeId) ∧
    ((∀ before ∈ doubledCalls.inits, ((after before).kept.map ChangedAttr.path).dedup.length <
        maxChangedAttrs) ∧
      (after doubledCalls).table.containsSince 9 9 99 0 = true ∧
      ∀ q ∈ (after doubledCalls).recorded, q.matches 9 9 99 = false) := by
  refine ⟨ids_start_anew 1 6 5, ?_, ?_⟩
  · decide +kernel
  · decide +kernel

end ChangeHistory

end RsMatter
