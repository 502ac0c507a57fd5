import RsMatter.Panic
import RsMatter.PathExpander

/-!
# The path expander does not panic (`dm/types/node.rs`)

The loops of `PathExpander` once more, by index and with the `unwrap`s, the 16-bit counters
and the assertion of the source. The indices stay below the lengths they are compared with,
so the loops give what the loops over the rest of the lists give; a loop that did not end
would be a panic here. What an item is expanded to may panic by itself: that is left to the
item (`Expansion`).
-/

namespace RsMatter

namespace Panicking

open Stop

/-- What the expander asks of the items of a request. -/
structure Expansion (T Expanded Status : Type) where
  operation : Operation
  path : T → GenericPath
  /-- an item for one concrete endpoint, cluster and leaf, which may be a list -/
  expand : T → Accessor → EndptId → ClusterId → BitVec 32 → Bool →
    Except (Stop ErrorCode) Expanded
  intoStatus : T → IMStatusCode → Status

/-- `+= 1` of a 16-bit counter. -/
def increment (n : ℕ) : Except (Stop ErrorCode) ℕ :=
  if n + 1 < 2 ^ 16 then .ok (n + 1) else .error .panic

section Loops

variable (op : Operation) (ctx : ExpandCtx) (path : GenericPath)

/-- Filter a leaf and check its access; the leaf is looked up a second time for the check. -/
def checkLeaf (endpoint : Endpoint) (cluster : Cluster) (leafId : BitVec 32) (c : Cursor) :
    Except (Stop ErrorCode) (Except IMStatusCode Bool) :=
  if ctx.filter endpoint.id cluster.id leafId then
    if c.lastAuthorized = some (endpoint.id, cluster.id, leafId) then .ok (.ok true)
    else do
      let leafId ← unwrapSome (op.leaves cluster)[c.leafIndex]?
      match op.checkAccess ctx endpoint cluster leafId with
      | .ok () => return .ok true
      | .error status => return .error status
  else .ok (.ok false)

def leafLoop (endpoint : Endpoint) (cluster : Cluster) :
    ℕ → Cursor → Except (Stop ErrorCode) Scan
  | 0, _ => .error .panic
  | fuel + 1, c =>
    if c.leafIndex < (op.leaves cluster).length then do
      let leafId ← unwrapSome (op.leaves cluster)[c.leafIndex]?
      if path.leaf.isNone || path.leaf == some leafId then do
        let check ← checkLeaf op ctx endpoint cluster leafId c
        match check with
        | .ok true => do
          let leafIndex ← increment c.leafIndex
          return .done (.ok (some (endpoint.id, cluster.id, leafId, op.isArray cluster leafId)))
            { c with
              leafIndex := leafIndex
              lastAuthorized := some (endpoint.id, cluster.id, leafId) }
        | .ok false => do
          let leafIndex ← increment c.leafIndex
          if !path.isWildcard then return .done (.ok none) { c with leafIndex := leafIndex }
          else leafLoop endpoint cluster fuel { c with leafIndex := leafIndex }
        | .error status =>
          if !path.isWildcard then return .done (.error status) c
          else do
            let leafIndex ← increment c.leafIndex
            leafLoop endpoint cluster fuel { c with leafIndex := leafIndex }
      else do
        let leafIndex ← increment c.leafIndex
        leafLoop endpoint cluster fuel { c with leafIndex := leafIndex }
    else return .past c

def clusterLoop (endpoint : Endpoint) : ℕ → Cursor → Except (Stop ErrorCode) Scan
  | 0, _ => .error .panic
  | fuel + 1, c =>
    if c.clusterIndex < endpoint.clusters.length then do
      let cluster ← unwrapSome endpoint.clusters[c.clusterIndex]?
      if path.cluster.isNone || path.cluster == some cluster.id then do
        let scan ← leafLoop op ctx path endpoint cluster ((op.leaves cluster).length + 1) c
        match scan with
        | .done result c => return .done result c
        | .past c =>
          if !path.isWildcard then
            return .done
              (.error (if op = .invoke then .unsupportedCommand else .unsupportedAttribute)) c
          else do
            let clusterIndex ← increment c.clusterIndex
            clusterLoop endpoint fuel { c with leafIndex := 0, clusterIndex := clusterIndex }
      else do
        let clusterIndex ← increment c.clusterIndex
        clusterLoop endpoint fuel { c with clusterIndex := clusterIndex }
    else return .past c

def endpointLoop (endpoints : List Endpoint) :
    ℕ → ℕ → Cursor → Except (Stop ErrorCode) (Except IMStatusCode (Option Hit) × Cursor)
  | 0, _, _ => .error .panic
  | fuel + 1, endpointIndex, c =>
    if endpointIndex < endpoints.length then do
      let endpoint ← unwrapSome endpoints[endpointIndex]?
      let c := { c with endpointId := some endpoint.id }
      if (path.endpoint.isNone || path.endpoint == some endpoint.id) &&
          ctx.accessor.isEndpointAccessible ctx.fabrics endpoint.id then do
        let scan ← clusterLoop op ctx path endpoint (endpoint.clusters.length + 1) c
        match scan with
        | .done result c => return (result, c)
        | .past c =>
          if !path.isWildcard then return (.error .unsupportedCluster, c)
          else endpointLoop endpoints fuel (endpointIndex + 1) { c with clusterIndex := 0 }
      else endpointLoop endpoints fuel (endpointIndex + 1) c
    else return (if !path.isWildcard then .error .unsupportedEndpoint else .ok none, c)

end Loops

/-- The position of the endpoint the cursor stands at; the endpoints must be ascending. -/
def resumeEndpointIndex (node : Node) (c : Cursor) : Except (Stop ErrorCode) (ℕ × Cursor) :=
  match c.endpointId with
  | none => .ok (0, c)
  | some _ =>
    if (node.endpoints.map (·.id)).IsChain (· < ·) then
      .ok (PathExpander.resumeEndpointIndex node c)
    else .error .panic

/-- Step to the next endpoint, cluster and leaf that match the path of the current item. -/
def nextForPath (op : Operation) (ctx : ExpandCtx) (node : Node) (path : Option GenericPath)
    (c : Cursor) : Except (Stop ErrorCode) (Except IMStatusCode (Option Hit) × Cursor) := do
  let path ← unwrapSome path
  if op ≠ .read ∧ path.cluster = none then return (.error .unsupportedCluster, c)
  else if op ≠ .read ∧ path.leaf = none then return (.error .unsupportedAttribute, c)
  else do
    let (endpointIndex, c) ← resumeEndpointIndex node c
    endpointLoop op ctx path node.endpoints (node.endpoints.length + 1) endpointIndex c

section Next

variable {T Expanded Status : Type} (x : Expansion T Expanded Status) (ctx : ExpandCtx)

/-- What the iterator yields, if anything, and the expander afterwards. -/
abbrev Yield (T Expanded Status : Type) :=
  Option (Except ErrorCode (Except Status Expanded)) × PathExpander T

/-- A round of `next` that has an item: `none` where the item is exhausted. -/
def round (node : Node) (items : List (Except ErrorCode T)) (item : Option T) (c : Cursor) :
    Except (Stop ErrorCode) (Option (Yield T Expanded Status) × Cursor) := do
  let (result, c) ← nextForPath x.operation ctx node (item.map x.path) c
  match result with
  | .ok (some (endpointId, clusterId, leafId, array)) => do
    let current ← unwrapSome item
    let expanded ← attempt (x.expand current ctx.accessor endpointId clusterId leafId array)
    let current ← unwrapSome item
    let item := if !(x.path current).isWildcard then none else item
    return (some (some (expanded.map .ok), ⟨items, item, c⟩), c)
  | .ok none => return (none, c)
  | .error status => do
    let current ← unwrapSome item
    return (some (some (.ok (.error (x.intoStatus current status))), ⟨items, none, c⟩), c)

/-- The rounds of `next` from the next item on. -/
def nextItems (node : Node) :
    List (Except ErrorCode T) → Cursor → Except (Stop ErrorCode) (Yield T Expanded Status)
  | [], c => return (none, ⟨[], none, c⟩)
  | .error err :: items, c => return (some (.error err), ⟨items, none, c⟩)
  | .ok item :: items, c => do
    let (out, c) ← round x ctx node items (some item)
      { c with endpointId := none, clusterIndex := 0, leafIndex := 0 }
    match out with
    | some out => return out
    | none => nextItems node items c

/-- What the iterator yields next, if anything. -/
def next (node : Node) (e : PathExpander T) : Except (Stop ErrorCode) (Yield T Expanded Status) :=
  match e.item with
  | none => nextItems x ctx node e.items e.cursor
  | some item => do
    let (out, c) ← round x ctx node e.items (some item) e.cursor
    match out with
    | some out => return out
    | none => nextItems x ctx node e.items c

/-- Call the iterator again and again; the node may be another one each time. -/
def calls : List Node → PathExpander T →
    Except (Stop ErrorCode) (List (Option (Except ErrorCode (Except Status Expanded))))
  | [], _ => return []
  | node :: nodes, e => do
    let (out, e) ← next x ctx node e
    let outs ← calls nodes e
    return out :: outs

end Next

/-! ## The loops do not panic -/

section Loops

variable (op : Operation) (ctx : ExpandCtx) (path : GenericPath)

theorem increment_of_lt {n len : ℕ} (h : n < len) (hlen : len < 2 ^ 16) :
    increment n = .ok (n + 1) := if_pos (Nat.lt_of_le_of_lt h hlen)

theorem unwrapSome_getElem? {α : Type} {l : List α} {i : ℕ} (h : i < l.length) :
    (unwrapSome l[i]? : Except (Stop ErrorCode) α) = .ok l[i] := by
  rw [List.getElem?_eq_getElem h]
  rfl

theorem checkLeaf_eq (endpoint : Endpoint) (cluster : Cluster) (c : Cursor)
    (h : c.leafIndex < (op.leaves cluster).length) :
    checkLeaf op ctx endpoint cluster (op.leaves cluster)[c.leafIndex] c =
      .ok (PathExpander.checkLeaf op ctx endpoint cluster (op.leaves cluster)[c.leafIndex]
        c.lastAuthorized) := by
  rw [checkLeaf, PathExpander.checkLeaf, unwrapSome_getElem? h, ok_bind]
  split
  · split
    · rfl
    · cases op.checkAccess ctx endpoint cluster (op.leaves cluster)[c.leafIndex] <;> rfl
  · rfl

/-- The loop over the leaves goes through the leaves that are left. -/
theorem leafLoop_eq (endpoint : Endpoint) (cluster : Cluster)
    (hlen : (op.leaves cluster).length < 2 ^ 16) (fuel : ℕ) (c : Cursor)
    (hfuel : (op.leaves cluster).length ≤ c.leafIndex + fuel) :
    leafLoop op ctx path endpoint cluster (fuel + 1) c =
      .ok (PathExpander.leafLoop op ctx path endpoint cluster
        ((op.leaves cluster).drop c.leafIndex) c) := by
  induction fuel generalizing c with
  | zero =>
    rw [Nat.add_zero] at hfuel
    rw [leafLoop, if_neg (Nat.not_lt_of_le hfuel), List.drop_eq_nil_of_le hfuel]
    rfl
  | succ fuel ih =>
    rw [leafLoop]
    by_cases h : c.leafIndex < (op.leaves cluster).length
    · have hnext := ih { c with leafIndex := c.leafIndex + 1 } (by simp only; omega)
      rw [if_pos h, unwrapSome_getElem? h, ok_bind, checkLeaf_eq op ctx endpoint cluster c h,
        increment_of_lt h hlen, List.drop_eq_getElem_cons h, PathExpander.leafLoop]
      simp only [ok_bind]
      split
      · cases PathExpander.checkLeaf op ctx endpoint cluster (op.leaves cluster)[c.leafIndex]
          c.lastAuthorized with
        | error status =>
          simp only
          split
          · rfl
          · exact hnext
        | ok passed =>
          cases passed with
          | true => rfl
          | false =>
            simp only
            split
            · rfl
            · exact hnext
      · exact hnext
    · rw [if_neg h, List.drop_eq_nil_of_le (Nat.le_of_not_lt h)]
      rfl

/-- Past the leaves of a cluster, the cursor still stands at that cluster. -/
theorem clusterIndex_of_past (endpoint : Endpoint) (cluster : Cluster)
    (leaves : List (BitVec 32)) {c c' : Cursor}
    (h : PathExpander.leafLoop op ctx path endpoint cluster leaves c = .past c') :
    c'.clusterIndex = c.clusterIndex := by
  induction leaves generalizing c with
  | nil => exact Scan.past.inj h ▸ rfl
  | cons leafId leaves ih =>
    rw [PathExpander.leafLoop] at h
    split at h
    · split at h
      · cases h
      · split at h
        · cases h
        · exact (ih h).trans rfl
      · split at h
        · cases h
        · exact (ih h).trans rfl
    · exact (ih h).trans rfl

/-- The clusters and leaves of an endpoint can be counted in 16 bits. -/
def Counted (endpoint : Endpoint) : Prop :=
  endpoint.clusters.length < 2 ^ 16 ∧ ∀ cl ∈ endpoint.clusters, (op.leaves cl).length < 2 ^ 16

/-- The loop over the clusters goes through the clusters that are left. -/
theorem clusterLoop_eq (endpoint : Endpoint) (hcounted : Counted op endpoint) (fuel : ℕ)
    (c : Cursor) (hfuel : endpoint.clusters.length ≤ c.clusterIndex + fuel) :
    clusterLoop op ctx path endpoint (fuel + 1) c =
      .ok (PathExpander.clusterLoop op ctx path endpoint
        (endpoint.clusters.drop c.clusterIndex) c) := by
  obtain ⟨hclusters, hleaves⟩ := hcounted
  induction fuel generalizing c with
  | zero =>
    rw [Nat.add_zero] at hfuel
    rw [clusterLoop, if_neg (Nat.not_lt_of_le hfuel), List.drop_eq_nil_of_le hfuel]
    rfl
  | succ fuel ih =>
    rw [clusterLoop]
    by_cases h : c.clusterIndex < endpoint.clusters.length
    · have hcl := hleaves _ (List.getElem_mem h)
      rw [if_pos h, unwrapSome_getElem? h, ok_bind, List.drop_eq_getElem_cons h,
        PathExpander.clusterLoop, leafLoop_eq op ctx path endpoint _ hcl _ c (Nat.le_add_left ..),
        ok_bind]
      split
      · cases hscan : PathExpander.leafLoop op ctx path endpoint endpoint.clusters[c.clusterIndex]
            ((op.leaves endpoint.clusters[c.clusterIndex]).drop c.leafIndex) c with
        | done result c' => rfl
        | past c' =>
          have hindex := clusterIndex_of_past op ctx path endpoint _ _ hscan
          simp only
          split
          · rfl
          · rw [hindex, increment_of_lt h hclusters, ok_bind]
            exact ih _ (by simp only; omega)
      · rw [increment_of_lt h hclusters, ok_bind]
        exact ih _ (by simp only; omega)
    · rw [if_neg h, List.drop_eq_nil_of_le (Nat.le_of_not_lt h)]
      rfl

/-- The loop over the endpoints goes through the endpoints that are left. -/
theorem endpointLoop_eq (endpoints : List Endpoint) (hcounted : ∀ e ∈ endpoints, Counted op e)
    (fuel endpointIndex : ℕ) (c : Cursor) (hfuel : endpoints.length ≤ endpointIndex + fuel) :
    endpointLoop op ctx path endpoints (fuel + 1) endpointIndex c =
      .ok (PathExpander.endpointLoop op ctx path (endpoints.drop endpointIndex) c) := by
  induction fuel generalizing endpointIndex c with
  | zero =>
    rw [Nat.add_zero] at hfuel
    rw [endpointLoop, if_neg (Nat.not_lt_of_le hfuel), List.drop_eq_nil_of_le hfuel]
    rfl
  | succ fuel ih =>
    rw [endpointLoop]
    by_cases h : endpointIndex < endpoints.length
    · have he := hcounted _ (List.getElem_mem h)
      rw [if_pos h, unwrapSome_getElem? h, ok_bind, List.drop_eq_getElem_cons h,
        PathExpander.endpointLoop]
      dsimp only
      rw [clusterLoop_eq op ctx path _ he _ _ (Nat.le_add_left ..), ok_bind]
      split
      · cases PathExpander.clusterLoop op ctx path endpoints[endpointIndex]
          (endpoints[endpointIndex].clusters.drop c.clusterIndex)
          { c with endpointId := some endpoints[endpointIndex].id } with
        | done result c' => rfl
        | past c' =>
          dsimp only
          split
          · rfl
          · exact ih _ _ (by omega)
      · exact ih _ _ (by omega)
    · rw [if_neg h, List.drop_eq_nil_of_le (Nat.le_of_not_lt h)]
      rfl

theorem counted_of_node (node : Node) : ∀ e ∈ node.endpoints, Counted op e := by
  intro e he
  refine ⟨node.length_clusters e he, fun cl hcl => ?_⟩
  obtain ⟨hattrs, hcmds⟩ := node.length_leaves e he cl hcl
  cases op <;> simpa [Operation.leaves]

theorem resumeEndpointIndex_eq (node : Node) (c : Cursor) :
    resumeEndpointIndex node c = .ok (PathExpander.resumeEndpointIndex node c) := by
  rw [resumeEndpointIndex]
  cases hid : c.endpointId with
  | none =>
    rw [PathExpander.resumeEndpointIndex, hid]
  | some id =>
    have hchain : (node.endpoints.map (·.id)).IsChain (· < ·) :=
      (List.pairwise_map.mpr node.ascending).isChain
    simp only
    rw [if_pos hchain]

/-- **Stepping to the next leaf** does not panic. -/
theorem nextForPath_eq (node : Node) (c : Cursor) :
    nextForPath op ctx node (some path) c = .ok (PathExpander.nextForPath op ctx node path c) := by
  rw [nextForPath, PathExpander.nextForPath, unwrapSome, ok_bind]
  split
  · rfl
  · split
    · rfl
    · rw [resumeEndpointIndex_eq, ok_bind]
      exact endpointLoop_eq op ctx path _ (counted_of_node op node) _ _ _ (Nat.le_add_left ..)

end Loops

/-! ## Nor does the expander -/

section Next

variable {T Expanded Status : Type} (x : Expansion T Expanded Status) (ctx : ExpandCtx)

/-- The items of a request can be expanded without a panic. -/
def ExpandsSafely (item : T) : Prop :=
  ∀ accessor endpointId clusterId leafId array,
    NoPanic (x.expand item accessor endpointId clusterId leafId array)

/-- All items that an expander has still to go through can be expanded without a panic. -/
structure Safe (e : PathExpander T) : Prop where
  items : ∀ item, .ok item ∈ e.items → ExpandsSafely x item
  item : ∀ item ∈ e.item, ExpandsSafely x item

/-- A round with a safe item does not panic, and what is left is safe. -/
theorem round_safe (node : Node) (items : List (Except ErrorCode T)) (item : T) (c : Cursor)
    (hitems : ∀ item, .ok item ∈ items → ExpandsSafely x item) (hitem : ExpandsSafely x item) :
    Ensures (round x ctx node items (some item) c)
      fun ⟨out, _⟩ => ∀ y ∈ out, Safe x y.2 := by
  rw [round, Option.map_some, nextForPath_eq, ok_bind]
  obtain ⟨result, c'⟩ := PathExpander.nextForPath x.operation ctx node (x.path item) c
  rcases result with status | ⟨_ | ⟨endpointId, clusterId, leafId, array⟩⟩
  · refine ensures_ok ?_
    rintro _ ⟨⟩
    exact ⟨hitems, fun item h => nomatch h⟩
  · exact ensures_ok fun y h => nomatch h
  · have hexpand := hitem ctx.accessor endpointId clusterId leafId array
    refine hexpand.attempt.ensures.bind fun expanded _ => ensures_ok ?_
    rintro _ ⟨⟩
    refine ⟨hitems, fun item' h => ?_⟩
    dsimp only at h
    split at h
    · cases h
    · obtain rfl := Option.some.inj h
      exact hitem

theorem nextItems_safe (node : Node) (items : List (Except ErrorCode T)) (c : Cursor)
    (hitems : ∀ item, .ok item ∈ items → ExpandsSafely x item) :
    Ensures (nextItems x ctx node items c) fun y => Safe x y.2 := by
  induction items generalizing c with
  | nil => exact ensures_ok ⟨hitems, fun item h => nomatch h⟩
  | cons first items ih =>
    have hrest : ∀ item, .ok item ∈ items → ExpandsSafely x item := fun item h =>
      hitems item (List.mem_cons_of_mem _ h)
    cases first with
    | error err => exact ensures_ok ⟨hrest, fun item h => nomatch h⟩
    | ok item =>
      refine (round_safe x ctx node items item _ hrest (hitems item List.mem_cons_self)).bind ?_
      rintro ⟨_ | out, c'⟩ hout
      · exact ih c' hrest
      · exact ensures_ok (hout out rfl)

/-- **A call of the iterator** does not panic. -/
theorem next_safe (node : Node) {e : PathExpander T} (he : Safe x e) :
    Ensures (next x ctx node e) fun y => Safe x y.2 := by
  rw [next]
  cases hitem : e.item with
  | none => exact nextItems_safe x ctx node e.items e.cursor he.items
  | some item =>
    refine (round_safe x ctx node e.items item e.cursor he.items (he.item item hitem)).bind ?_
    rintro ⟨_ | out, c'⟩ hout
    · exact nextItems_safe x ctx node e.items c' he.items
    · exact ensures_ok (hout out rfl)

/-- **The whole iteration** does not panic, with whatever node each call meets. -/
theorem calls_safe (nodes : List Node) {e : PathExpander T} (he : Safe x e) :
    NoPanic (calls x ctx nodes e) := by
  induction nodes generalizing e with
  | nil => exact noPanic_ok _
  | cons node nodes ih =>
    obtain ⟨hnext, hsafe⟩ := next_safe x ctx node he
    exact hnext.bind fun y hy => (ih (hsafe y hy)).bind fun outs _ => noPanic_ok _

end Next

end Panicking

end RsMatter
