import RsMatter.PathExpander

/-!
# What stands behind an expanded path

Whatever the expander stops at is a leaf of the node that has just passed the access
check, or the very leaf it stopped at before. Everything that is said about the rights of
the handlers that run comes from `nextForPath_cases`: the loops of the expander are not
looked at again.
-/

namespace RsMatter

namespace PathExpander

variable {op : Operation} {ctx : ExpandCtx} {path : GenericPath}

/-- A leaf of an endpoint that may be stopped at, given the leaf granted before it. -/
structure Grants (op : Operation) (ctx : ExpandCtx) (path : GenericPath)
    (last : Option (EndptId × ClusterId × BitVec 32)) (endpoint : Endpoint) (cluster : Cluster)
    (leafId : BitVec 32) : Prop where
  mem_clusters : cluster ∈ endpoint.clusters
  mem_leaves : leafId ∈ op.leaves cluster
  matches_cluster : path.cluster = none ∨ path.cluster = some cluster.id
  matches_leaf : path.leaf = none ∨ path.leaf = some leafId
  served : ctx.filter endpoint.id cluster.id leafId = true
  /-- it passes the check, unless it has been granted last -/
  allowed : last = some (endpoint.id, cluster.id, leafId) ∨ op.checkAccess ctx endpoint cluster leafId = .ok ()

/-- How a loop over an endpoint ends: it stops at a leaf that is granted, or it leaves the
leaf granted before alone. -/
inductive ScanEnds (op : Operation) (ctx : ExpandCtx) (path : GenericPath) (endpoint : Endpoint)
    (last : Option (EndptId × ClusterId × BitVec 32)) : Scan → Prop where
  | hit {cluster : Cluster} {leafId : BitVec 32} {c : Cursor}
    (hgrants : Grants op ctx path last endpoint cluster leafId)
    (hlast : c.lastAuthorized = some (endpoint.id, cluster.id, leafId)) :
    ScanEnds op ctx path endpoint last
      (.done (.ok (some (endpoint.id, cluster.id, leafId, op.isArray cluster leafId))) c)
  | none {c : Cursor} (hlast : c.lastAuthorized = last) :
    ScanEnds op ctx path endpoint last (.done (.ok none) c)
  | error {c : Cursor} (status : IMStatusCode) (hlast : c.lastAuthorized = last) :
    ScanEnds op ctx path endpoint last (.done (.error status) c)
  | past {c : Cursor} (hlast : c.lastAuthorized = last) : ScanEnds op ctx path endpoint last (.past c)

/-- A pattern of the source: an optional id is not given or the one at hand. -/
theorem matches_of_isNone_or_beq {α : Type} [DecidableEq α] {o : Option α} {a : α}
    (h : (o.isNone || o == some a) = true) : o = none ∨ o = some a := by
  simpa using h

theorem checkLeaf_eq_ok_true {endpoint : Endpoint} {cluster : Cluster} {leafId : BitVec 32}
    {last : Option (EndptId × ClusterId × BitVec 32)}
    (h : checkLeaf op ctx endpoint cluster leafId last = .ok true) :
    ctx.filter endpoint.id cluster.id leafId = true ∧
      (last = some (endpoint.id, cluster.id, leafId) ∨
        op.checkAccess ctx endpoint cluster leafId = .ok ()) := by
  rw [checkLeaf] at h
  split_ifs at h with hfilter hlast
  · exact ⟨hfilter, .inl hlast⟩
  · refine ⟨hfilter, .inr ?_⟩
    cases hcheck : op.checkAccess ctx endpoint cluster leafId with
    | ok u => rfl
    | error status =>
      rw [hcheck] at h
      cases h
  · cases h

theorem leafLoop_ends {endpoint : Endpoint} {cluster : Cluster} (hcluster : cluster ∈ endpoint.clusters)
    (hpath : path.cluster = none ∨ path.cluster = some cluster.id) (leaves : List (BitVec 32))
    (hleaves : ∀ l ∈ leaves, l ∈ op.leaves cluster) (c : Cursor) :
    ScanEnds op ctx path endpoint c.lastAuthorized (leafLoop op ctx path endpoint cluster leaves c) := by
  induction leaves generalizing c with
  | nil => exact .past rfl
  | cons l leaves ih =>
    have hrest : ∀ k, ScanEnds op ctx path endpoint c.lastAuthorized
        (leafLoop op ctx path endpoint cluster leaves { c with leafIndex := k }) := fun k =>
      ih (fun l' hl' => hleaves l' (List.mem_cons_of_mem l hl')) { c with leafIndex := k }
    rw [leafLoop]
    split
    · next hmatch =>
      split
      · next hcheck =>
        obtain ⟨hfilter, hallowed⟩ := checkLeaf_eq_ok_true hcheck
        exact .hit ⟨hcluster, hleaves l List.mem_cons_self, hpath, matches_of_isNone_or_beq hmatch,
          hfilter, hallowed⟩ rfl
      · split
        · exact .none rfl
        · exact hrest _
      · split
        · exact .error _ rfl
        · exact hrest _
    · exact hrest _

theorem clusterLoop_ends {endpoint : Endpoint} (clusters : List Cluster)
    (hclusters : ∀ cluster ∈ clusters, cluster ∈ endpoint.clusters) (c : Cursor) :
    ScanEnds op ctx path endpoint c.lastAuthorized (clusterLoop op ctx path endpoint clusters c) := by
  induction clusters generalizing c with
  | nil => exact .past rfl
  | cons cluster clusters ih =>
    have hrest : ∀ c', c'.lastAuthorized = c.lastAuthorized → ScanEnds op ctx path endpoint c.lastAuthorized
        (clusterLoop op ctx path endpoint clusters c') := by
      intro c' hc'
      rw [← hc']
      exact ih (fun cl hcl => hclusters cl (List.mem_cons_of_mem cluster hcl)) c'
    rw [clusterLoop]
    split
    · next hmatch =>
      have hleaf : ScanEnds op ctx path endpoint c.lastAuthorized
          (leafLoop op ctx path endpoint cluster ((op.leaves cluster).drop c.leafIndex) c) :=
        leafLoop_ends (hclusters cluster List.mem_cons_self) (matches_of_isNone_or_beq hmatch) _
          (fun l hl => List.mem_of_mem_drop hl) c
      revert hleaf
      cases leafLoop op ctx path endpoint cluster ((op.leaves cluster).drop c.leafIndex) c with
      | done result c' => exact id
      | past c' =>
        intro hleaf
        have hlast : c'.lastAuthorized = c.lastAuthorized := by
          cases hleaf with
          | past hlast => exact hlast
        dsimp only
        split
        · exact .error _ hlast
        · exact hrest _ hlast
    · exact hrest _ rfl

inductive SearchEnds (op : Operation) (ctx : ExpandCtx) (path : GenericPath) (endpoints : List Endpoint)
    (last : Option (EndptId × ClusterId × BitVec 32)) : Except IMStatusCode (Option Hit) × Cursor → Prop where
  | hit {endpoint : Endpoint} {cluster : Cluster} {leafId : BitVec 32} {c : Cursor}
    (hendpoint : endpoint ∈ endpoints) (hpath : path.endpoint = none ∨ path.endpoint = some endpoint.id)
    (haccess : ctx.accessor.isEndpointAccessible ctx.fabrics endpoint.id = true)
    (hgrants : Grants op ctx path last endpoint cluster leafId)
    (hlast : c.lastAuthorized = some (endpoint.id, cluster.id, leafId)) :
    SearchEnds op ctx path endpoints last
      (.ok (some (endpoint.id, cluster.id, leafId, op.isArray cluster leafId)), c)
  | none {c : Cursor} (hlast : c.lastAuthorized = last) : SearchEnds op ctx path endpoints last (.ok none, c)
  | error {c : Cursor} (status : IMStatusCode) (hlast : c.lastAuthorized = last) :
    SearchEnds op ctx path endpoints last (.error status, c)

theorem SearchEnds.mono {endpoints endpoints' : List Endpoint} {last : Option (EndptId × ClusterId × BitVec 32)}
    {r : Except IMStatusCode (Option Hit) × Cursor} (h : SearchEnds op ctx path endpoints last r)
    (hsub : ∀ e ∈ endpoints, e ∈ endpoints') : SearchEnds op ctx path endpoints' last r := by
  cases h with
  | hit hendpoint hpath haccess hgrants hlast => exact .hit (hsub _ hendpoint) hpath haccess hgrants hlast
  | none hlast => exact .none hlast
  | error status hlast => exact .error status hlast

theorem endpointLoop_ends (endpoints : List Endpoint) (c : Cursor) :
    SearchEnds op ctx path endpoints c.lastAuthorized (endpointLoop op ctx path endpoints c) := by
  induction endpoints generalizing c with
  | nil =>
    rw [endpointLoop]
    split
    · exact .error _ rfl
    · exact .none rfl
  | cons endpoint endpoints ih =>
    have hrest : ∀ c', c'.lastAuthorized = c.lastAuthorized →
        SearchEnds op ctx path (endpoint :: endpoints) c.lastAuthorized (endpointLoop op ctx path endpoints c') := by
      intro c' hc'
      rw [← hc']
      exact (ih c').mono fun e he => List.mem_cons_of_mem endpoint he
    rw [endpointLoop]
    dsimp only
    split
    · next hmatch =>
      rw [Bool.and_eq_true] at hmatch
      have hcluster : ScanEnds op ctx path endpoint c.lastAuthorized
          (clusterLoop op ctx path endpoint (endpoint.clusters.drop c.clusterIndex)
            { c with endpointId := some endpoint.id }) :=
        clusterLoop_ends _ (fun cl hcl => List.mem_of_mem_drop hcl) { c with endpointId := some endpoint.id }
      revert hcluster
      cases clusterLoop op ctx path endpoint (endpoint.clusters.drop c.clusterIndex)
          { c with endpointId := some endpoint.id } with
      | done result c' =>
        intro hcluster
        cases hcluster with
        | hit hgrants hlast =>
          exact .hit List.mem_cons_self (matches_of_isNone_or_beq hmatch.1) hmatch.2 hgrants hlast
        | none hlast => exact .none hlast
        | error status hlast => exact .error status hlast
      | past c' =>
        intro hcluster
        have hlast : c'.lastAuthorized = c.lastAuthorized := by
          cases hcluster with
          | past hlast => exact hlast
        dsimp only
        split
        · exact .error _ hlast
        · exact hrest _ hlast
    · exact hrest _ rfl

/-- **What the expander stops at** is granted there and then, or has been granted last. -/
theorem nextForPath_ends (node : Node) (c : Cursor) :
    SearchEnds op ctx path node.endpoints c.lastAuthorized (nextForPath op ctx node path c) := by
  rw [nextForPath]
  split_ifs
  · exact .error _ rfl
  · exact .error _ rfl
  · have hresume : (resumeEndpointIndex node c).2.lastAuthorized = c.lastAuthorized := by
      rw [resumeEndpointIndex]
      split
      · rfl
      · split <;> rfl
    rw [← hresume]
    exact (endpointLoop_ends _ _).mono fun e he => List.mem_of_mem_drop he

end PathExpander

end RsMatter
