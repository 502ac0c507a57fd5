import Mathlib.Algebra.Group.Nat.Defs
import RsMatter.Basic
import RsMatter.BoundedVec

/-!
# The table of changed attributes (`dm/subscriptions.rs`, `ChangedAttrs`)

Every recorded change gets an id from an ever-increasing counter. The table has a
fixed number of slots; when they run out, groups of entries are coalesced into
coarser wildcard entries, so that a recorded path stays *covered* by an entry whose
id is at least as recent. That is the content of `ChangedAttrs.Dominates`, which
every operation except the purge keeps.
-/

namespace RsMatter

def maxChangedAttrs : ℕ := 16

def wildcardEndpoint : EndptId := 0xffff#16

def wildcardCluster : ClusterId := 0xffffffff#32

def wildcardAttr : AttrId := 0xffffffff#32

structure ChangedAttr where
  endpoint : EndptId
  cluster : ClusterId
  attr : AttrId
  changeId : ℕ
  deriving DecidableEq

namespace ChangedAttr

def isEndpointWildcard (x : ChangedAttr) : Bool := x.endpoint == wildcardEndpoint

def isClusterWildcard (x : ChangedAttr) : Bool := x.cluster == wildcardCluster

def isAttrWildcard (x : ChangedAttr) : Bool := x.attr == wildcardAttr

def «matches» (x : ChangedAttr) (endpoint : EndptId) (cluster : ClusterId) (attr : AttrId) :
    Bool :=
  (x.isEndpointWildcard || x.endpoint == endpoint) &&
    (x.isClusterWildcard || x.cluster == cluster) && (x.isAttrWildcard || x.attr == attr)

def cov {α : Type} [BEq α] (a : α) (aWild : Bool) (b : α) (bWild : Bool) : Bool :=
  if aWild then true else if bWild then false else a == b

/-- Is the entry as coarse as another one along every axis? -/
def covers (x y : ChangedAttr) : Bool :=
  cov x.endpoint x.isEndpointWildcard y.endpoint y.isEndpointWildcard &&
    cov x.cluster x.isClusterWildcard y.cluster y.isClusterWildcard &&
    cov x.attr x.isAttrWildcard y.attr y.isAttrWildcard

/-- The wildcard entry for the group of `x`: its cluster (level 1) or its endpoint
(level 2). -/
def coarsen (x : ChangedAttr) (level : ℕ) : Option ChangedAttr :=
  if level = 1 then
    if x.isEndpointWildcard || x.isClusterWildcard then none
    else some ⟨x.endpoint, x.cluster, wildcardAttr, 0⟩
  else
    if x.isEndpointWildcard then none else some ⟨x.endpoint, wildcardCluster, wildcardAttr, 0⟩

/-! Covering is a preorder that goes with `matches`, and ignores the change id. -/

section Cov

variable {α : Type} [BEq α] [LawfulBEq α] {a b c : α} {wild : α}

theorem cov_refl : cov a (a == wild) a (a == wild) = true := by
  cases h : a == wild <;> simp [cov]

theorem cov_trans (hab : cov a (a == wild) b (b == wild) = true)
    (hbc : cov b (b == wild) c (c == wild) = true) : cov a (a == wild) c (c == wild) = true := by
  cases ha : a == wild with
  | true => rfl
  | false =>
    cases hb : b == wild with
    | true => simp [cov, ha, hb] at hab
    | false =>
      simp only [cov, ha, hb, Bool.false_eq_true, if_false] at hab
      rw [hb] at hbc
      rw [eq_of_beq hab]
      exact hbc

theorem matches_of_cov {x : α} (hab : cov a (a == wild) b (b == wild) = true)
    (hb : (b == wild || b == x) = true) : (a == wild || a == x) = true := by
  cases ha : a == wild with
  | true => rfl
  | false =>
    cases hw : b == wild with
    | true => simp [cov, ha, hw] at hab
    | false =>
      simp only [cov, ha, hw, Bool.false_eq_true, if_false] at hab
      rw [hw, Bool.false_or] at hb
      rw [eq_of_beq hab, hb, Bool.or_true]

end Cov

variable {x y z : ChangedAttr}

theorem covers_refl (x : ChangedAttr) : x.covers x = true := by
  simp only [covers, isEndpointWildcard, isClusterWildcard, isAttrWildcard, cov_refl,
    Bool.and_self]

theorem covers_trans (hxy : x.covers y = true) (hyz : y.covers z = true) :
    x.covers z = true := by
  simp only [covers, Bool.and_eq_true] at hxy hyz ⊢
  obtain ⟨⟨he, hc⟩, ha⟩ := hxy
  obtain ⟨⟨he', hc'⟩, ha'⟩ := hyz
  exact ⟨⟨cov_trans he he', cov_trans hc hc'⟩, cov_trans ha ha'⟩

theorem matches_of_covers (hxy : x.covers y = true) {e : EndptId} {c : ClusterId} {a : AttrId}
    (hy : y.matches e c a = true) : x.matches e c a = true := by
  simp only [covers, Bool.and_eq_true] at hxy
  simp only [«matches», Bool.and_eq_true] at hy ⊢
  obtain ⟨⟨he, hc⟩, ha⟩ := hxy
  obtain ⟨⟨he', hc'⟩, ha'⟩ := hy
  exact ⟨⟨matches_of_cov he he', matches_of_cov hc hc'⟩, matches_of_cov ha ha'⟩

end ChangedAttr

structure ChangedAttrs where
  /-- the id of the next change, a `u64` that skips `0` when it wraps -/
  nextChangeId : ℕ
  entries : List ChangedAttr
  deriving DecidableEq

namespace ChangedAttrs

def new : ChangedAttrs := ⟨1, []⟩

/-- The largest id given out so far (`wrapping_sub(1)`). -/
def watermark (t : ChangedAttrs) : ℕ := (t.nextChangeId + 2 ^ 64 - 1) % 2 ^ 64

/-- Is there a change after `since` that covers the given attribute? -/
def containsSince (t : ChangedAttrs) (endpoint : EndptId) (cluster : ClusterId) (attr : AttrId)
    (since : ℕ) : Bool :=
  t.entries.any fun x => decide (since < x.changeId) && x.matches endpoint cluster attr

/-- Is there any change after `since`? -/
def anySince (t : ChangedAttrs) (since : ℕ) : Bool :=
  t.entries.any fun x => decide (since < x.changeId)

def purgeUpTo (t : ChangedAttrs) (threshold : ℕ) : ChangedAttrs :=
  if threshold = 0 then t
  else { t with entries := swapRemoveWhere (fun x => decide (x.changeId ≤ threshold)) t.entries }

def clear (t : ChangedAttrs) : ChangedAttrs := { t with entries := [] }

/-! ## Promotion -/

/-- The pivot of the largest group so far, with the size of the group. -/
def bestPivot (entries : List ChangedAttr) (level : ℕ) : Option ChangedAttr × ℕ :=
  entries.foldl (fun best pivot =>
    match pivot.coarsen level with
    | none => best
    | some coarsened =>
      let count := entries.countP coarsened.covers
      if best.2 < count then (some pivot, count) else best) (none, 1)

/-- Collapse the largest group of at least two entries into one wildcard entry. -/
def promoteLargestGroup (entries : List ChangedAttr) (level : ℕ) : Option (List ChangedAttr) :=
  match (bestPivot entries level).1 with
  | none => none
  | some pivot =>
    match pivot.coarsen level with
    | none => none
    | some coarsened =>
      let maxChangeId := ((entries.filter coarsened.covers).map (·.changeId)).foldl max 0
      some (swapRemoveWhere coarsened.covers entries ++ [{ coarsened with changeId := maxChangeId }])

/-- The loop that makes room for `new`, with `fuel` for the rounds left. A promotion
frees a slot, so the second round is the last. -/
def promoteAndInsert (new : ChangedAttr) : ℕ → List ChangedAttr → List ChangedAttr
  | 0, entries => entries
  | fuel + 1, entries =>
    match modifyFirst (·.covers new) (fun x => { x with changeId := new.changeId }) entries with
    | some entries => entries
    | none =>
      if entries.length < maxChangedAttrs then
        entries ++ [new]
      else
        match (promoteLargestGroup entries 1).orElse fun _ => promoteLargestGroup entries 2 with
        | some entries => promoteAndInsert new fuel entries
        | none => [⟨wildcardEndpoint, wildcardCluster, wildcardAttr, new.changeId⟩]

/-! ## Recording -/

def insertRaw (entries : List ChangedAttr) (new : ChangedAttr) : List ChangedAttr :=
  match modifyFirst (·.covers new) (fun x => { x with changeId := new.changeId }) entries with
  | some entries => entries
  | none =>
    let entries := swapRemoveWhere new.covers entries
    if entries.length < maxChangedAttrs then entries ++ [new]
    else promoteAndInsert new (entries.length + 1) entries

/-- Record a change under a new id, which is returned. -/
def recordRaw (t : ChangedAttrs) (new : ChangedAttr) : ℕ × ChangedAttrs :=
  (t.nextChangeId,
    { nextChangeId := max ((t.nextChangeId + 1) % 2 ^ 64) 1
      entries := insertRaw t.entries { new with changeId := t.nextChangeId } })

def record (t : ChangedAttrs) (endpoint : EndptId) (cluster : ClusterId) (attr : AttrId) :
    ℕ × ChangedAttrs :=
  t.recordRaw ⟨endpoint, cluster, attr, 0⟩

/-- Record a change of a cluster, an endpoint or everything. -/
def recordWildcard (t : ChangedAttrs) (endpoint : Option EndptId) (cluster : Option ClusterId) :
    ℕ × ChangedAttrs :=
  t.recordRaw ⟨endpoint.getD wildcardEndpoint, cluster.getD wildcardCluster, wildcardAttr, 0⟩

/-! ## Recorded paths stay covered -/

/-- Everything in `l` is covered in `l'` by an entry that is at least as recent. -/
def Dominates (l l' : List ChangedAttr) : Prop :=
  ∀ x ∈ l, ∃ y ∈ l', y.covers x = true ∧ x.changeId ≤ y.changeId

theorem Dominates.trans {l₁ l₂ l₃ : List ChangedAttr} (h₁ : Dominates l₁ l₂)
    (h₂ : Dominates l₂ l₃) : Dominates l₁ l₃ := by
  intro x hx
  obtain ⟨y, hy, hyx, hle⟩ := h₁ x hx
  obtain ⟨z, hz, hzy, hle'⟩ := h₂ y hy
  exact ⟨z, hz, ChangedAttr.covers_trans hzy hyx, Nat.le_trans hle hle'⟩

variable {l l' : List ChangedAttr} {new : ChangedAttr}

/-- `l'` is `l` with a change put in that is more recent than everything in `l`. -/
structure Inserted (l : List ChangedAttr) (new : ChangedAttr) (l' : List ChangedAttr) :
    Prop where
  dominates : Dominates l l'
  /-- the new path is covered under its id -/
  covered : ∃ y ∈ l', y.covers new = true ∧ new.changeId ≤ y.changeId
  recent : ∀ y ∈ l', y.changeId ≤ new.changeId
  room : l'.length ≤ maxChangedAttrs

theorem Inserted.of_dominates (hdom : Dominates l l') {l'' : List ChangedAttr}
    (h : Inserted l' new l'') : Inserted l new l'' :=
  ⟨hdom.trans h.dominates, h.covered, h.recent, h.room⟩

theorem inserted_refresh (hroom : l.length ≤ maxChangedAttrs)
    (hrecent : ∀ x ∈ l, x.changeId ≤ new.changeId)
    (h : modifyFirst (·.covers new) (fun x => { x with changeId := new.changeId }) l = some l') :
    Inserted l new l' := by
  obtain ⟨a, x, b, rfl, hx, rfl⟩ := modifyFirst_eq_some h
  refine ⟨?_, ?_, ?_, ?_⟩
  · intro y hy
    rcases List.mem_append.mp hy with ha | hxb
    · exact ⟨y, List.mem_append_left _ ha, y.covers_refl, Nat.le_refl _⟩
    rcases List.mem_cons.mp hxb with rfl | hb
    · refine ⟨{ y with changeId := new.changeId }, by simp, y.covers_refl, ?_⟩
      exact hrecent y (by simp)
    · refine ⟨y, ?_, y.covers_refl, Nat.le_refl _⟩
      exact List.mem_append_right _ (List.mem_cons_of_mem _ hb)
  · exact ⟨{ x with changeId := new.changeId }, by simp, hx, Nat.le_refl _⟩
  · intro y hy
    rcases List.mem_append.mp hy with ha | hxb
    · exact hrecent y (List.mem_append_left _ ha)
    rcases List.mem_cons.mp hxb with rfl | hb
    · exact Nat.le_refl _
    · exact hrecent y (List.mem_append_right _ (List.mem_cons_of_mem _ hb))
  · simpa using hroom

theorem dominates_replace {c : ChangedAttr} {m : ℕ}
    (hm : ∀ x ∈ l, c.covers x = true → x.changeId ≤ m) :
    Dominates l (swapRemoveWhere c.covers l ++ [{ c with changeId := m }]) := by
  intro x hx
  cases hc : c.covers x with
  | true => exact ⟨{ c with changeId := m }, by simp, hc, hm x hx hc⟩
  | false =>
    exact ⟨x, List.mem_append_left _ (mem_swapRemoveWhere.mpr ⟨hx, hc⟩), x.covers_refl,
      Nat.le_refl _⟩

theorem inserted_push (hlt : l.length < maxChangedAttrs)
    (hrecent : ∀ x ∈ l, x.changeId ≤ new.changeId) : Inserted l new (l ++ [new]) := by
  refine ⟨?_, ⟨new, by simp, new.covers_refl, Nat.le_refl _⟩, ?_, ?_⟩
  · intro x hx
    exact ⟨x, List.mem_append_left _ hx, x.covers_refl, Nat.le_refl _⟩
  · intro y hy
    rcases List.mem_append.mp hy with hy | hy
    · exact hrecent y hy
    · rw [List.mem_singleton.mp hy]
  · rw [List.length_append, List.length_singleton]
    exact hlt

/-! ## Promotion frees a slot and loses nothing -/

theorem bestPivot_spec {level : ℕ} {pivot : ChangedAttr}
    (h : (bestPivot l level).1 = some pivot) :
    ∃ c, pivot.coarsen level = some c ∧ 2 ≤ l.countP c.covers := by
  -- the running choice, along the fold over any further entries `ps`
  have key : ∀ (ps : List ChangedAttr) (best : Option ChangedAttr × ℕ),
      1 ≤ best.2 →
      (∀ p, best.1 = some p → ∃ c, p.coarsen level = some c ∧ 2 ≤ l.countP c.covers) →
      ∀ p, (ps.foldl (fun best pivot =>
        match pivot.coarsen level with
        | none => best
        | some coarsened =>
          let count := l.countP coarsened.covers
          if best.2 < count then (some pivot, count) else best) best).1 = some p →
        ∃ c, p.coarsen level = some c ∧ 2 ≤ l.countP c.covers := by
    intro ps
    induction ps with
    | nil =>
      intro best _ hbest
      exact hbest
    | cons q qs ih =>
      intro best hone hbest
      rw [List.foldl_cons]
      cases hq : q.coarsen level with
      | none => exact ih best hone hbest
      | some c =>
        simp only
        by_cases hlt : best.2 < l.countP c.covers
        · rw [if_pos hlt]
          refine ih _ (Nat.le_trans hone (Nat.le_of_lt hlt)) ?_
          intro p hp
          rw [Option.some_inj] at hp
          exact ⟨c, hp ▸ hq, by omega⟩
        · rw [if_neg hlt]
          exact ih best hone hbest
  exact key l (none, 1) (Nat.le_refl _) (fun p hp => by cases hp) pivot h

theorem le_foldl_max (ns : List ℕ) : ∀ m, m ≤ ns.foldl max m ∧ ∀ n ∈ ns, n ≤ ns.foldl max m := by
  induction ns with
  | nil => exact fun m => ⟨Nat.le_refl _, fun n hn => absurd hn List.not_mem_nil⟩
  | cons k ks ih =>
    intro m
    rw [List.foldl_cons]
    obtain ⟨hle, hmem⟩ := ih (max m k)
    refine ⟨Nat.le_trans (Nat.le_max_left ..) hle, ?_⟩
    intro n hn
    rcases List.mem_cons.mp hn with rfl | hn
    · exact Nat.le_trans (Nat.le_max_right ..) hle
    · exact hmem n hn

theorem foldl_max_le {ns : List ℕ} {b : ℕ} (h : ∀ n ∈ ns, n ≤ b) :
    ∀ m ≤ b, ns.foldl max m ≤ b := by
  induction ns with
  | nil => exact fun m hm => hm
  | cons k ks ih =>
    intro m hm
    rw [List.foldl_cons]
    exact ih (fun n hn => h n (List.mem_cons_of_mem _ hn)) _
      (Nat.max_le.mpr ⟨hm, h k (List.mem_cons_self ..)⟩)

theorem promoteLargestGroup_spec {level : ℕ} {b : ℕ} (hrecent : ∀ x ∈ l, x.changeId ≤ b)
    (h : promoteLargestGroup l level = some l') :
    Dominates l l' ∧ l'.length < l.length ∧ ∀ y ∈ l', y.changeId ≤ b := by
  rw [promoteLargestGroup] at h
  cases hp : (bestPivot l level).1 with
  | none =>
    rw [hp] at h
    cases h
  | some pivot =>
    obtain ⟨c, hc, hcount⟩ := bestPivot_spec hp
    rw [hp] at h
    simp only [hc, Option.some_inj] at h
    subst h
    refine ⟨dominates_replace ?_, ?_, ?_⟩
    · intro x hx hcx
      refine (le_foldl_max _ 0).2 _ ?_
      exact List.mem_map.mpr ⟨x, List.mem_filter.mpr ⟨hx, hcx⟩, rfl⟩
    · have hlen := length_swapRemoveWhere_add c.covers l
      rw [List.length_append, List.length_singleton]
      omega
    · intro y hy
      rcases List.mem_append.mp hy with hy | hy
      · exact hrecent y (mem_swapRemoveWhere.mp hy).1
      · rw [List.mem_singleton.mp hy]
        refine foldl_max_le ?_ 0 (Nat.zero_le _)
        intro n hn
        obtain ⟨x, hx, rfl⟩ := List.mem_map.mp hn
        exact hrecent x (List.mem_filter.mp hx).1

theorem inserted_global (hrecent : ∀ x ∈ l, x.changeId ≤ new.changeId) :
    Inserted l new [⟨wildcardEndpoint, wildcardCluster, wildcardAttr, new.changeId⟩] := by
  have hall : ∀ (x : ChangedAttr) (n : ℕ),
      (ChangedAttr.mk wildcardEndpoint wildcardCluster wildcardAttr n).covers x = true :=
    fun _ _ => rfl
  refine ⟨?_, ⟨_, List.mem_singleton_self _, hall _ _, Nat.le_refl _⟩, ?_, ?_⟩
  · intro x hx
    exact ⟨_, List.mem_singleton_self _, hall _ _, hrecent x hx⟩
  · intro y hy
    rw [List.mem_singleton.mp hy]
  · rw [List.length_singleton]
    decide

theorem promoteAndInsert_spec (fuel : ℕ) :
    ∀ {l : List ChangedAttr}, l.length ≤ maxChangedAttrs →
      (∀ x ∈ l, x.changeId ≤ new.changeId) →
      (l.length < maxChangedAttrs → 1 ≤ fuel) → (l.length = maxChangedAttrs → 2 ≤ fuel) →
      Inserted l new (promoteAndInsert new fuel l) := by
  induction fuel with
  | zero =>
    intro l hroom _ h₁ h₂
    rcases Nat.lt_or_eq_of_le hroom with hlt | heq
    · exact absurd (h₁ hlt) (by decide)
    · exact absurd (h₂ heq) (by decide)
  | succ fuel ih =>
    intro l hroom hrecent h₁ h₂
    rw [promoteAndInsert]
    split
    · rename_i l' hm
      exact inserted_refresh hroom hrecent hm
    · split
      · rename_i hlt
        exact inserted_push hlt hrecent
      · rename_i hfull
        split
        · rename_i l' hp
          have hspec : Dominates l l' ∧ l'.length < l.length ∧
              ∀ y ∈ l', y.changeId ≤ new.changeId := by
            cases hp₁ : promoteLargestGroup l 1 with
            | some l₁ =>
              rw [hp₁] at hp
              cases hp
              exact promoteLargestGroup_spec hrecent hp₁
            | none =>
              rw [hp₁] at hp
              exact promoteLargestGroup_spec hrecent hp
          obtain ⟨hdom, hlt, hrec⟩ := hspec
          have heq : l.length = maxChangedAttrs := by omega
          refine (ih (by omega) hrec ?_ ?_).of_dominates hdom
          · intro _
            have := h₂ heq
            omega
          · intro hfull'
            omega
        · exact inserted_global hrecent

/-- **Recording loses nothing.** -/
theorem insertRaw_spec (hroom : l.length ≤ maxChangedAttrs)
    (hrecent : ∀ x ∈ l, x.changeId ≤ new.changeId) : Inserted l new (insertRaw l new) := by
  rw [insertRaw]
  split
  · rename_i l' hm
    exact inserted_refresh hroom hrecent hm
  · -- what the new entry covers is dropped, and covered again once it is in
    have hlen : (swapRemoveWhere new.covers l).length ≤ l.length := by
      have := length_swapRemoveWhere_add new.covers l
      omega
    have hrecent' : ∀ x ∈ swapRemoveWhere new.covers l, x.changeId ≤ new.changeId :=
      fun x hx => hrecent x (mem_swapRemoveWhere.mp hx).1
    have hins : Inserted (swapRemoveWhere new.covers l) new
        (if (swapRemoveWhere new.covers l).length < maxChangedAttrs then
            swapRemoveWhere new.covers l ++ [new]
          else promoteAndInsert new ((swapRemoveWhere new.covers l).length + 1)
            (swapRemoveWhere new.covers l)) := by
      split
      · rename_i hlt
        exact inserted_push hlt hrecent'
      · rename_i hfull
        refine promoteAndInsert_spec _ (by omega) hrecent' (fun _ => by omega) ?_
        intro heq
        rw [heq]
        decide
    obtain ⟨hdom, ⟨y, hy, hcov, hle⟩, hrec, hroom'⟩ := hins
    refine ⟨?_, ⟨y, hy, hcov, hle⟩, hrec, hroom'⟩
    intro x hx
    cases hc : new.covers x with
    | true =>
      exact ⟨y, hy, ChangedAttr.covers_trans hcov hc, Nat.le_trans (hrecent x hx) hle⟩
    | false => exact hdom x (mem_swapRemoveWhere.mpr ⟨hx, hc⟩)

/-! ## The table as a whole -/

/-- The table is within its slots and every id in it was given out. -/
structure WF (t : ChangedAttrs) : Prop where
  /-- `0` is never given out -/
  pos : 1 ≤ t.nextChangeId
  /-- the next id fits its `u64` -/
  lt : t.nextChangeId < 2 ^ 64
  recent : ∀ x ∈ t.entries, x.changeId < t.nextChangeId
  room : t.entries.length ≤ maxChangedAttrs

variable {t : ChangedAttrs}

theorem wf_new : WF ChangedAttrs.new :=
  ⟨Nat.le_refl _, by decide, fun _ hx => absurd hx List.not_mem_nil, Nat.zero_le _⟩

theorem WF.watermark_eq (h : WF t) : t.watermark = t.nextChangeId - 1 := by
  have hpos := h.pos
  have hlt := h.lt
  rw [watermark]
  omega

/-- A change of the table that keeps the counter and invents no entry. -/
theorem WF.of_subset (h : WF t) {l : List ChangedAttr} (hsub : ∀ x ∈ l, x ∈ t.entries)
    (hlen : l.length ≤ t.entries.length) : WF { t with entries := l } :=
  ⟨h.pos, h.lt, fun x hx => h.recent x (hsub x hx), Nat.le_trans hlen h.room⟩

theorem WF.clear (h : WF t) : WF t.clear :=
  h.of_subset (fun _ hx => absurd hx List.not_mem_nil) (Nat.zero_le _)

theorem mem_purgeUpTo {n : ℕ} {x : ChangedAttr} (hx : x ∈ t.entries) (hn : n < x.changeId) :
    x ∈ (t.purgeUpTo n).entries := by
  rw [purgeUpTo]
  split
  · exact hx
  · exact mem_swapRemoveWhere.mpr ⟨hx, by simpa using hn⟩

theorem WF.purgeUpTo (h : WF t) (n : ℕ) : WF (t.purgeUpTo n) := by
  rw [ChangedAttrs.purgeUpTo]
  split
  · exact h
  · refine h.of_subset (fun x hx => (mem_swapRemoveWhere.mp hx).1) ?_
    have := length_swapRemoveWhere_add (fun x => decide (x.changeId ≤ n)) t.entries
    omega

/-- **Recording**, before the counter wraps. -/
theorem WF.recordRaw (h : WF t) (hlt : t.nextChangeId + 1 < 2 ^ 64) (new : ChangedAttr) :
    WF (t.recordRaw new).2 ∧ (t.recordRaw new).2.nextChangeId = t.nextChangeId + 1 ∧
      Inserted t.entries { new with changeId := t.nextChangeId } (t.recordRaw new).2.entries := by
  have hnext : (t.recordRaw new).2.nextChangeId = t.nextChangeId + 1 := by
    show max ((t.nextChangeId + 1) % 2 ^ 64) 1 = t.nextChangeId + 1
    rw [Nat.mod_eq_of_lt hlt]
    omega
  have hins : Inserted t.entries { new with changeId := t.nextChangeId }
      (t.recordRaw new).2.entries :=
    insertRaw_spec h.room fun x hx => Nat.le_of_lt (h.recent x hx)
  refine ⟨⟨?_, ?_, ?_, hins.room⟩, hnext, hins⟩
  · rw [hnext]
    exact Nat.le_add_left ..
  · rw [hnext]
    exact hlt
  · intro x hx
    rw [hnext]
    exact Nat.lt_succ_of_le (hins.recent x hx)

end ChangedAttrs

end RsMatter
