import RsMatter.PathExpander

/-!
# What path expansion yields

The specification lists the leaves of the node that match a path, in the order of the
node, without any cursor. A wildcard path yields those of them that pass the filter
and are granted; a concrete path yields its leaf, nothing if the filter rejects it, or
the status that says what is missing or denied.

The expander does the same in many small calls: between two of them its cursor stands
before the leaves that the specification has still to go through.
-/

namespace RsMatter

open PathExpansionItem

/-! ## The specification -/

structure Candidate where
  endpoint : Endpoint
  cluster : Cluster
  leafId : BitVec 32

def Candidate.triple (x : Candidate) : EndptId × ClusterId × BitVec 32 :=
  (x.endpoint.id, x.cluster.id, x.leafId)

namespace PathSpec

section Candidates

variable (op : Operation) (ctx : ExpandCtx) (path : GenericPath)

/-- Does an endpoint match, and is it accessible? -/
def endpointMatches (e : Endpoint) : Bool :=
  (path.endpoint.isNone || path.endpoint == some e.id) &&
    ctx.accessor.isEndpointAccessible ctx.fabrics e.id

def clusterMatches (c : Cluster) : Bool := path.cluster.isNone || path.cluster == some c.id

def leafMatches (l : BitVec 32) : Bool := path.leaf.isNone || path.leaf == some l

/-- The matching leaves among some of a cluster. -/
def leafCands (e : Endpoint) (c : Cluster) (leaves : List (BitVec 32)) : List Candidate :=
  (leaves.filter (leafMatches path)).map (⟨e, c, ·⟩)

/-- The matching leaves of some clusters of an endpoint. -/
def clusterCands (e : Endpoint) (clusters : List Cluster) : List Candidate :=
  (clusters.filter (clusterMatches path)).flatMap fun c => leafCands path e c (op.leaves c)

def endpointCands (endpoints : List Endpoint) : List Candidate :=
  (endpoints.filter (endpointMatches ctx path)).flatMap fun e => clusterCands op path e e.clusters

/-- What a leaf is granted as, given the leaf granted before it. -/
def granted (last : Option (EndptId × ClusterId × BitVec 32)) (x : Candidate) : Bool :=
  match PathExpander.checkLeaf op ctx x.endpoint x.cluster x.leafId last with
  | .ok b => b
  | .error _ => false

/-- The leaves that are granted one after the other, and the last of them. -/
def hits : Option (EndptId × ClusterId × BitVec 32) → List Candidate →
    List Candidate × Option (EndptId × ClusterId × BitVec 32)
  | last, [] => ([], last)
  | last, x :: xs =>
    if granted op ctx last x then
      (x :: (hits (some x.triple) xs).1, (hits (some x.triple) xs).2)
    else hits last xs

/-- What a concrete path leads to in a cluster. -/
def concreteLeaf (e : Endpoint) (c : Cluster)
    (last : Option (EndptId × ClusterId × BitVec 32)) : Except IMStatusCode (Option Candidate) :=
  match (op.leaves c).find? (leafMatches path) with
  | none => .error (if op = .invoke then .unsupportedCommand else .unsupportedAttribute)
  | some l =>
    (PathExpander.checkLeaf op ctx e c l last).map fun b => if b then some ⟨e, c, l⟩ else none

def concrete (endpoints : List Endpoint) (last : Option (EndptId × ClusterId × BitVec 32)) :
    Except IMStatusCode (Option Candidate) :=
  match endpoints.find? (endpointMatches ctx path) with
  | none => .error .unsupportedEndpoint
  | some e =>
    match e.clusters.find? (clusterMatches path) with
    | none => .error .unsupportedCluster
    | some c => concreteLeaf op ctx path e c last

/-- The leaf granted last after a concrete path. -/
def lastAfter (last : Option (EndptId × ClusterId × BitVec 32)) :
    Except IMStatusCode (Option Candidate) → Option (EndptId × ClusterId × BitVec 32)
  | .ok (some x) => some x.triple
  | _ => last

end Candidates

variable {T : Type} [PathExpansionItem T] (ctx : ExpandCtx) (node : Node)

def yielded (item : T) (x : Candidate) : PathExpander.Item T :=
  (expand item ctx.accessor x.endpoint.id x.cluster.id x.leafId
    ((operation T).isArray x.cluster x.leafId)).map .ok

def failed (item : T) (status : IMStatusCode) : PathExpander.Item T :=
  .ok (.error (intoStatus item status))

/-- What an item yields after a leaf has been granted, and the leaf granted last then. -/
def item (last : Option (EndptId × ClusterId × BitVec 32)) (item : T) :
    List (PathExpander.Item T) × Option (EndptId × ClusterId × BitVec 32) :=
  if operation T ≠ .read ∧ (path item).cluster = none then
    ([failed item .unsupportedCluster], last)
  else if operation T ≠ .read ∧ (path item).leaf = none then
    ([failed item .unsupportedAttribute], last)
  else if (path item).isWildcard then
    let found := hits (operation T) ctx last
      (endpointCands (operation T) ctx (path item) node.endpoints)
    (found.1.map (yielded ctx item), found.2)
  else
    let result := concrete (operation T) ctx (path item) node.endpoints last
    (match result with
      | .error status => [failed item status]
      | .ok none => []
      | .ok (some x) => [yielded ctx item x],
      lastAfter last result)

def items : Option (EndptId × ClusterId × BitVec 32) → List (Except ErrorCode T) →
    List (PathExpander.Item T)
  | _, [] => []
  | last, .error err :: rest => .error err :: items last rest
  | last, .ok i :: rest => (item ctx node last i).1 ++ items (item ctx node last i).2 rest

end PathSpec

/-! ## Leaves that the cursor has still to go through -/

namespace PathSpec

section From

variable (op : Operation) (ctx : ExpandCtx) (path : GenericPath)

/-- The matching leaves of some clusters, from a leaf of the first on. -/
def clusterCandsFrom (e : Endpoint) : List Cluster → ℕ → List Candidate
  | [], _ => []
  | c :: clusters, leafIndex =>
    (if clusterMatches path c then leafCands path e c ((op.leaves c).drop leafIndex) else []) ++
      clusterCands op path e clusters

/-- The matching leaves of some endpoints, from a leaf of a cluster of the first on. -/
def endpointCandsFrom : List Endpoint → ℕ → ℕ → List Candidate
  | [], _, _ => []
  | e :: endpoints, clusterIndex, leafIndex =>
    (if endpointMatches ctx path e then
      clusterCandsFrom op path e (e.clusters.drop clusterIndex) leafIndex else []) ++
      endpointCands op ctx path endpoints

theorem clusterCandsFrom_zero (e : Endpoint) (clusters : List Cluster) :
    clusterCandsFrom op path e clusters 0 = clusterCands op path e clusters := by
  cases clusters with
  | nil => rfl
  | cons c clusters =>
    rw [clusterCandsFrom, clusterCands, clusterCands, List.filter_cons]
    split <;> simp

theorem endpointCandsFrom_zero (endpoints : List Endpoint) :
    endpointCandsFrom op ctx path endpoints 0 0 = endpointCands op ctx path endpoints := by
  cases endpoints with
  | nil => rfl
  | cons e endpoints =>
    rw [endpointCandsFrom, endpointCands, endpointCands, List.filter_cons, List.drop_zero,
      clusterCandsFrom_zero]
    split <;> simp

end From

def Denied (op : Operation) (ctx : ExpandCtx) (last : Option (EndptId × ClusterId × BitVec 32))
    (xs : List Candidate) : Prop :=
  ∀ x ∈ xs, granted op ctx last x = false

/-- The first leaf of a list that is granted, and what follows it. -/
def First (op : Operation) (ctx : ExpandCtx) (last : Option (EndptId × ClusterId × BitVec 32))
    (xs : List Candidate) (x : Candidate) (rest : List Candidate) : Prop :=
  ∃ skipped, xs = skipped ++ x :: rest ∧ Denied op ctx last skipped ∧ granted op ctx last x = true

section Lists

variable {op : Operation} {ctx : ExpandCtx} {last : Option (EndptId × ClusterId × BitVec 32)}
  {xs ys rest : List Candidate} {x : Candidate}

theorem Denied.nil : Denied op ctx last [] := by
  intro x hx
  cases hx

theorem Denied.append (hxs : Denied op ctx last xs) (hys : Denied op ctx last ys) :
    Denied op ctx last (xs ++ ys) := by
  intro x hx
  rcases List.mem_append.mp hx with hx | hx
  · exact hxs x hx
  · exact hys x hx

theorem First.append (h : First op ctx last xs x rest) (ys : List Candidate) :
    First op ctx last (xs ++ ys) x (rest ++ ys) := by
  obtain ⟨skipped, rfl, hskipped, hx⟩ := h
  exact ⟨skipped, by simp, hskipped, hx⟩

theorem First.after (h : First op ctx last ys x rest) (hxs : Denied op ctx last xs) :
    First op ctx last (xs ++ ys) x rest := by
  obtain ⟨skipped, rfl, hskipped, hx⟩ := h
  exact ⟨xs ++ skipped, by simp, hxs.append hskipped, hx⟩

theorem hits_denied (h : Denied op ctx last xs) : hits op ctx last xs = ([], last) := by
  induction xs with
  | nil => rfl
  | cons y ys ih =>
    rw [hits, if_neg (by simp [h y List.mem_cons_self])]
    exact ih fun x hx => h x (List.mem_cons_of_mem y hx)

theorem hits_first (h : First op ctx last xs x rest) :
    hits op ctx last xs =
      (x :: (hits op ctx (some x.triple) rest).1, (hits op ctx (some x.triple) rest).2) := by
  obtain ⟨skipped, rfl, hskipped, hx⟩ := h
  induction skipped with
  | nil => rw [List.nil_append, hits, if_pos hx]
  | cons y ys ih =>
    rw [List.cons_append, hits, if_neg (by simp [hskipped y List.mem_cons_self])]
    exact ih fun x hx => hskipped x (List.mem_cons_of_mem y hx)

end Lists

end PathSpec

/-! ## Wildcard paths -/

namespace PathExpander

open PathSpec

def hit (op : Operation) (x : Candidate) : Hit :=
  (x.endpoint.id, x.cluster.id, x.leafId, op.isArray x.cluster x.leafId)

section Wildcard

variable {op : Operation} {ctx : ExpandCtx} {path : GenericPath}

theorem leafCands_cons (e : Endpoint) (cl : Cluster) (l : BitVec 32) (leaves : List (BitVec 32)) :
    leafCands path e cl (l :: leaves) =
      (if leafMatches path l then [⟨e, cl, l⟩] else []) ++ leafCands path e cl leaves := by
  rw [leafCands, leafCands, List.filter_cons]
  split <;> rfl

variable (hw : path.isWildcard = true)
include hw

theorem leafLoop_skip (e : Endpoint) (cl : Cluster) (l : BitVec 32) (leaves : List (BitVec 32))
    (c : Cursor) (hl : leafMatches path l = true → granted op ctx c.lastAuthorized ⟨e, cl, l⟩ = false) :
    leafLoop op ctx path e cl (l :: leaves) c =
      leafLoop op ctx path e cl leaves { c with leafIndex := c.leafIndex + 1 } := by
  rw [leafLoop, ← leafMatches]
  cases hm : leafMatches path l with
  | false => rfl
  | true =>
    have hdenied := hl hm
    simp only [granted] at hdenied
    rw [if_pos rfl]
    cases hcheck : checkLeaf op ctx e cl l c.lastAuthorized with
    | error status => simp [hw]
    | ok b =>
      rw [hcheck] at hdenied
      obtain rfl : b = false := hdenied
      simp [hw]

theorem leafLoop_wildcard (e : Endpoint) (cl : Cluster) (leaves : List (BitVec 32)) (c : Cursor) :
    (Denied op ctx c.lastAuthorized (leafCands path e cl leaves) ∧
      leafLoop op ctx path e cl leaves c =
        .past { c with leafIndex := c.leafIndex + leaves.length }) ∨
    ∃ l n, First op ctx c.lastAuthorized (leafCands path e cl leaves) ⟨e, cl, l⟩
        (leafCands path e cl (leaves.drop n)) ∧
      leafLoop op ctx path e cl leaves c =
        .done (.ok (some (hit op ⟨e, cl, l⟩)))
          { c with leafIndex := c.leafIndex + n, lastAuthorized := some (e.id, cl.id, l) } := by
  induction leaves generalizing c with
  | nil => exact .inl ⟨Denied.nil, rfl⟩
  | cons l leaves ih =>
    by_cases hl : leafMatches path l = true ∧ granted op ctx c.lastAuthorized ⟨e, cl, l⟩ = true
    · obtain ⟨hm, hg⟩ := hl
      refine .inr ⟨l, 1, ⟨[], ?_, Denied.nil, hg⟩, ?_⟩
      · rw [leafCands_cons, if_pos hm]
        rfl
      · have hcheck : checkLeaf op ctx e cl l c.lastAuthorized = .ok true := by
          simp only [granted] at hg
          cases h : checkLeaf op ctx e cl l c.lastAuthorized with
          | error status => simp [h] at hg
          | ok b => simpa [h] using hg
        rw [leafLoop, ← leafMatches, if_pos hm, hcheck]
        rfl
    · have hskip : leafMatches path l = true →
          granted op ctx c.lastAuthorized ⟨e, cl, l⟩ = false := by
        intro hm
        simpa using fun hg => hl ⟨hm, hg⟩
      have hdenied : Denied op ctx c.lastAuthorized
          (if leafMatches path l then [⟨e, cl, l⟩] else []) := by
        intro x hx
        split at hx
        · next hm =>
          obtain rfl := List.mem_singleton.mp hx
          exact hskip hm
        · cases hx
      rw [leafLoop_skip hw e cl l leaves c hskip, leafCands_cons]
      rcases ih { c with leafIndex := c.leafIndex + 1 } with ⟨hd, hloop⟩ | ⟨l', n, hf, hloop⟩
      · refine .inl ⟨hdenied.append hd, ?_⟩
        rw [hloop, List.length_cons, Nat.add_assoc, Nat.add_comm 1]
      · refine .inr ⟨l', n + 1, hf.after hdenied, ?_⟩
        rw [hloop, Nat.add_assoc, Nat.add_comm 1]

/-- Where the cursor may stand before some clusters: at a leaf only of a matching one. -/
def AtCluster (path : GenericPath) (clusters : List Cluster) (leafIndex : ℕ) : Prop :=
  leafIndex = 0 ∨ ∃ cl rest, clusters = cl :: rest ∧ clusterMatches path cl = true

theorem clusterLoop_wildcard (e : Endpoint) (clusters : List Cluster) (c : Cursor)
    (hc : AtCluster path clusters c.leafIndex) :
    (Denied op ctx c.lastAuthorized (clusterCandsFrom op path e clusters c.leafIndex) ∧
      clusterLoop op ctx path e clusters c =
        .past { c with leafIndex := 0, clusterIndex := c.clusterIndex + clusters.length }) ∨
    ∃ x n leafIndex, First op ctx c.lastAuthorized
        (clusterCandsFrom op path e clusters c.leafIndex) x
        (clusterCandsFrom op path e (clusters.drop n) leafIndex) ∧
      AtCluster path (clusters.drop n) leafIndex ∧
      clusterLoop op ctx path e clusters c =
        .done (.ok (some (hit op x)))
          { c with
            clusterIndex := c.clusterIndex + n
            leafIndex := leafIndex
            lastAuthorized := some x.triple } := by
  induction clusters generalizing c with
  | nil =>
    obtain hc | ⟨cl, rest, hnil, -⟩ := hc
    · refine .inl ⟨Denied.nil, ?_⟩
      rw [clusterLoop]
      exact congrArg Scan.past (by rw [List.length_nil, Nat.add_zero, ← hc])
    · cases hnil
  | cons cl clusters ih =>
    rw [clusterLoop, ← clusterMatches, clusterCandsFrom]
    by_cases hm : clusterMatches path cl = true
    · simp only [hm, if_true]
      rcases leafLoop_wildcard hw e cl ((op.leaves cl).drop c.leafIndex) c with
        ⟨hd, hloop⟩ | ⟨l, n, hf, hloop⟩
      · -- all leaves of this cluster are passed over
        rw [hloop]
        simp only [hw]
        rcases ih { c with leafIndex := 0, clusterIndex := c.clusterIndex + 1 } (.inl rfl) with
          ⟨hd', hloop'⟩ | ⟨x, n, leafIndex, hf, hat, hloop'⟩
        · rw [clusterCandsFrom_zero] at hd'
          refine .inl ⟨hd.append hd', ?_⟩
          simp only [Bool.not_true, Bool.false_eq_true, if_false]
          rw [hloop', List.length_cons, Nat.add_assoc, Nat.add_comm 1]
        · rw [clusterCandsFrom_zero] at hf
          refine .inr ⟨x, n + 1, leafIndex, hf.after hd, hat, ?_⟩
          simp only [Bool.not_true, Bool.false_eq_true, if_false]
          rw [hloop', Nat.add_assoc, Nat.add_comm 1]
      · refine .inr ⟨⟨e, cl, l⟩, 0, c.leafIndex + n, ?_, .inr ⟨cl, clusters, rfl, hm⟩, ?_⟩
        · rw [List.drop_drop] at hf
          simpa only [List.drop_zero, clusterCandsFrom, hm, if_true] using hf.append _
        · simp only [hloop]
          rfl
    · have hleaf : c.leafIndex = 0 := by
        obtain hc | ⟨cl', rest, heq, hm'⟩ := hc
        · exact hc
        · obtain ⟨rfl, -⟩ := List.cons.inj heq
          exact absurd hm' hm
      simp only [hm]
      rcases ih { c with clusterIndex := c.clusterIndex + 1 } (.inl hleaf) with
        ⟨hd', hloop'⟩ | ⟨x, n, leafIndex, hf, hat, hloop'⟩
      · simp only [hleaf, clusterCandsFrom_zero] at hd'
        refine .inl ⟨hd', ?_⟩
        simp only [Bool.false_eq_true, if_false]
        rw [hloop', List.length_cons, Nat.add_assoc, Nat.add_comm 1]
      · simp only [hleaf, clusterCandsFrom_zero] at hf
        refine .inr ⟨x, n + 1, leafIndex, hf, hat, ?_⟩
        simp only [Bool.false_eq_true, if_false]
        rw [hloop', Nat.add_assoc, Nat.add_comm 1]

omit hw in
/-- Where the cursor may stand before some endpoints: within a matching one only. -/
def AtEndpoint (ctx : ExpandCtx) (path : GenericPath) (endpoints : List Endpoint)
    (clusterIndex leafIndex : ℕ) : Prop :=
  (clusterIndex = 0 ∧ leafIndex = 0) ∨
    ∃ e rest, endpoints = e :: rest ∧ endpointMatches ctx path e = true ∧
      AtCluster path (e.clusters.drop clusterIndex) leafIndex

theorem endpointLoop_wildcard (endpoints : List Endpoint) (c : Cursor)
    (hc : AtEndpoint ctx path endpoints c.clusterIndex c.leafIndex) :
    (Denied op ctx c.lastAuthorized
        (endpointCandsFrom op ctx path endpoints c.clusterIndex c.leafIndex) ∧
      ∃ c', endpointLoop op ctx path endpoints c = (.ok none, c') ∧
        c'.lastAuthorized = c.lastAuthorized) ∨
    ∃ x before e after c', endpoints = before ++ e :: after ∧
      First op ctx c.lastAuthorized
        (endpointCandsFrom op ctx path endpoints c.clusterIndex c.leafIndex) x
        (endpointCandsFrom op ctx path (e :: after) c'.clusterIndex c'.leafIndex) ∧
      AtEndpoint ctx path (e :: after) c'.clusterIndex c'.leafIndex ∧
      endpointLoop op ctx path endpoints c = (.ok (some (hit op x)), c') ∧
      c'.endpointId = some e.id ∧ c'.lastAuthorized = some x.triple := by
  induction endpoints generalizing c with
  | nil =>
    refine .inl ⟨Denied.nil, c, ?_, rfl⟩
    rw [endpointLoop, hw]
    rfl
  | cons e endpoints ih =>
    rw [endpointLoop, ← endpointMatches, endpointCandsFrom]
    by_cases hm : endpointMatches ctx path e = true
    · have hat : AtCluster path (e.clusters.drop c.clusterIndex) c.leafIndex := by
        obtain ⟨-, hc⟩ | ⟨e', rest, heq, -, hc⟩ := hc
        · exact .inl hc
        · obtain ⟨rfl, -⟩ := List.cons.inj heq
          exact hc
      simp only [hm, if_true]
      rcases clusterLoop_wildcard hw e (e.clusters.drop c.clusterIndex)
        { c with endpointId := some e.id } hat with ⟨hd, hloop⟩ | ⟨x, n, leafIndex, hf, hat', hloop⟩
      · -- all clusters of this endpoint are passed over
        rw [hloop]
        simp only [hw, Bool.not_true, Bool.false_eq_true, if_false]
        rcases ih { c with endpointId := some e.id, clusterIndex := 0, leafIndex := 0 }
          (.inl ⟨rfl, rfl⟩) with ⟨hd', hend⟩ | ⟨x, before, e', after, c', heq, hf, hat', hend⟩
        · rw [endpointCandsFrom_zero] at hd'
          exact .inl ⟨hd.append hd', hend⟩
        · rw [endpointCandsFrom_zero] at hf
          refine .inr ⟨x, e :: before, e', after, c', ?_, hf.after hd, hat', hend⟩
          rw [heq, List.cons_append]
      · refine .inr ⟨x, [], e, endpoints,
          ⟨some e.id, c.clusterIndex + n, leafIndex, some x.triple⟩, rfl, ?_,
          .inr ⟨e, endpoints, rfl, hm, ?_⟩, ?_, rfl, rfl⟩
        · rw [List.drop_drop] at hf
          simpa only [endpointCandsFrom, hm, if_true] using hf.append _
        · simpa only [List.drop_drop] using hat'
        · rw [hloop]
    · have hzero : c.clusterIndex = 0 ∧ c.leafIndex = 0 := by
        obtain hc | ⟨e', rest, heq, hm', -⟩ := hc
        · exact hc
        · obtain ⟨rfl, -⟩ := List.cons.inj heq
          exact absurd hm' hm
      simp only [hm]
      rcases ih { c with endpointId := some e.id } (.inl hzero) with
        ⟨hd', hend⟩ | ⟨x, before, e', after, c', heq, hf, hat', hend⟩
      · simp only [hzero, endpointCandsFrom_zero] at hd'
        exact .inl ⟨hd', hend⟩
      · simp only [hzero, endpointCandsFrom_zero] at hf
        refine .inr ⟨x, e :: before, e', after, c', ?_, hf, hat', hend⟩
        rw [heq, List.cons_append]

end Wildcard

/-! ### Resuming -/

section Resume

theorem pairwise_endpoint_ids (node : Node) :
    (node.endpoints.map (·.id.toNat)).Pairwise (· < ·) := by
  rw [List.pairwise_map]
  exact node.ascending.imp BitVec.lt_def.mp

theorem resumeEndpointIndex_eq {node : Node} {before after : List Endpoint} {e : Endpoint}
    (hnode : node.endpoints = before ++ e :: after) {c : Cursor} (hc : c.endpointId = some e.id) :
    resumeEndpointIndex node c = (before.length, c) := by
  have hkey : (node.endpoints.map (·.id.toNat))[before.length]? = some e.id.toNat := by
    simp [hnode]
  rw [resumeEndpointIndex, hc]
  simp only [binarySearch_eq_ok (pairwise_endpoint_ids node) hkey]

/-- The cursor stands before some leaves of the node: exactly these are still to come. -/
def Before (op : Operation) (ctx : ExpandCtx) (node : Node) (path : GenericPath) (c : Cursor)
    (xs : List Candidate) : Prop :=
  ∃ i, resumeEndpointIndex node c = (i, c) ∧
    AtEndpoint ctx path (node.endpoints.drop i) c.clusterIndex c.leafIndex ∧
    xs = endpointCandsFrom op ctx path (node.endpoints.drop i) c.clusterIndex c.leafIndex

def Cursor.start (last : Option (EndptId × ClusterId × BitVec 32)) : Cursor := ⟨none, 0, 0, last⟩

variable {op : Operation} {ctx : ExpandCtx} {node : Node} {path : GenericPath}

theorem before_start (last : Option (EndptId × ClusterId × BitVec 32)) :
    Before op ctx node path (Cursor.start last) (endpointCands op ctx path node.endpoints) :=
  ⟨0, rfl, .inl ⟨rfl, rfl⟩, (endpointCandsFrom_zero op ctx path node.endpoints).symm⟩

/-- Not all wildcards are supported for each operation. -/
def Supported (op : Operation) (path : GenericPath) : Prop :=
  ¬ (op ≠ .read ∧ path.cluster = none) ∧ ¬ (op ≠ .read ∧ path.leaf = none)

/-- **One step of a wildcard path** finds the next leaf that is granted, and stands behind it
then. -/
theorem nextForPath_wildcard (hw : path.isWildcard = true) (hs : Supported op path) {c : Cursor}
    {xs : List Candidate} (hc : Before op ctx node path c xs) :
    (Denied op ctx c.lastAuthorized xs ∧
      ∃ c', nextForPath op ctx node path c = (.ok none, c') ∧
        c'.lastAuthorized = c.lastAuthorized) ∨
    ∃ x rest c', First op ctx c.lastAuthorized xs x rest ∧ Before op ctx node path c' rest ∧
      nextForPath op ctx node path c = (.ok (some (hit op x)), c') ∧
      c'.lastAuthorized = some x.triple := by
  obtain ⟨i, hresume, hat, rfl⟩ := hc
  rw [nextForPath, if_neg hs.1, if_neg hs.2, hresume]
  rcases endpointLoop_wildcard hw _ c hat with
    hend | ⟨x, before, e, after, c', heq, hf, hat', hend, hid, hlast⟩
  · exact .inl hend
  · obtain ⟨front, hnode⟩ : ∃ front, node.endpoints = front ++ e :: after :=
      ⟨node.endpoints.take i ++ before, by rw [List.append_assoc, ← heq, List.take_append_drop]⟩
    have hdrop : node.endpoints.drop front.length = e :: after := by
      rw [hnode, List.drop_left]
    refine .inr ⟨x, _, c', hf, ⟨_, resumeEndpointIndex_eq hnode hid, ?_, ?_⟩, hend, hlast⟩
    · rw [hdrop]
      exact hat'
    · rw [hdrop]

end Resume

/-! ## Concrete paths -/

section Concrete

variable (op : Operation) (ctx : ExpandCtx) {path : GenericPath} (hw : path.isWildcard = false)
include hw

/-- What the loops return for what a concrete path leads to. -/
def hitResult (op : Operation) (result : Except IMStatusCode (Option Candidate)) :
    Except IMStatusCode (Option Hit) :=
  result.map (·.map (hit op))

theorem leafLoop_concrete (e : Endpoint) (cl : Cluster) (leaves : List (BitVec 32)) (c : Cursor) :
    match leaves.find? (leafMatches path) with
    | none => ∃ c', leafLoop op ctx path e cl leaves c = .past c' ∧
        c'.lastAuthorized = c.lastAuthorized
    | some l =>
      let result := (checkLeaf op ctx e cl l c.lastAuthorized).map fun b =>
        if b then some (Candidate.mk e cl l) else none
      ∃ c', leafLoop op ctx path e cl leaves c = .done (hitResult op result) c' ∧
        c'.lastAuthorized = lastAfter c.lastAuthorized result := by
  induction leaves generalizing c with
  | nil => exact ⟨c, rfl, rfl⟩
  | cons l leaves ih =>
    rw [List.find?_cons, leafLoop, ← leafMatches]
    cases hm : leafMatches path l with
    | false => exact ih { c with leafIndex := c.leafIndex + 1 }
    | true =>
      simp only [if_true]
      cases checkLeaf op ctx e cl l c.lastAuthorized with
      | error status => exact ⟨c, by simp [hw, hitResult, Except.map], rfl⟩
      | ok b =>
        cases b with
        | true => exact ⟨_, rfl, rfl⟩
        | false =>
          exact ⟨{ c with leafIndex := c.leafIndex + 1 }, by simp [hw, hitResult, Except.map], rfl⟩

theorem clusterLoop_concrete (e : Endpoint) (clusters : List Cluster) (c : Cursor)
    (hc : c.leafIndex = 0) :
    match clusters.find? (clusterMatches path) with
    | none => ∃ c', clusterLoop op ctx path e clusters c = .past c' ∧
        c'.lastAuthorized = c.lastAuthorized
    | some cl =>
      let result := concreteLeaf op ctx path e cl c.lastAuthorized
      ∃ c', clusterLoop op ctx path e clusters c = .done (hitResult op result) c' ∧
        c'.lastAuthorized = lastAfter c.lastAuthorized result := by
  induction clusters generalizing c with
  | nil => exact ⟨c, rfl, rfl⟩
  | cons cl clusters ih =>
    rw [List.find?_cons, clusterLoop, ← clusterMatches]
    cases hm : clusterMatches path cl with
    | false => exact ih { c with clusterIndex := c.clusterIndex + 1 } hc
    | true =>
      have hleaf := leafLoop_concrete op ctx hw e cl (op.leaves cl) c
      simp only [if_true, hc, List.drop_zero, concreteLeaf]
      cases hfind : (op.leaves cl).find? (leafMatches path) with
      | none =>
        rw [hfind] at hleaf
        obtain ⟨c', hloop, hlast⟩ := hleaf
        refine ⟨c', ?_, hlast⟩
        rw [hloop]
        simp [hw, hitResult, Except.map]
      | some l =>
        rw [hfind] at hleaf
        obtain ⟨c', hloop, hlast⟩ := hleaf
        refine ⟨c', ?_, hlast⟩
        rw [hloop]

theorem endpointLoop_concrete (endpoints : List Endpoint) (c : Cursor)
    (hc : c.clusterIndex = 0 ∧ c.leafIndex = 0) :
    ∃ c', endpointLoop op ctx path endpoints c =
        (hitResult op (concrete op ctx path endpoints c.lastAuthorized), c') ∧
      c'.lastAuthorized =
        lastAfter c.lastAuthorized (concrete op ctx path endpoints c.lastAuthorized) := by
  induction endpoints generalizing c with
  | nil =>
    refine ⟨c, ?_, rfl⟩
    rw [endpointLoop, hw]
    rfl
  | cons e endpoints ih =>
    rw [concrete, List.find?_cons, endpointLoop, ← endpointMatches]
    cases hm : endpointMatches ctx path e with
    | false => exact ih { c with endpointId := some e.id } hc
    | true =>
      have hcluster := clusterLoop_concrete op ctx hw e e.clusters
        { c with endpointId := some e.id } hc.2
      simp only [if_true, hc.1, List.drop_zero]
      cases hfind : e.clusters.find? (clusterMatches path) with
      | none =>
        rw [hfind] at hcluster
        obtain ⟨c', hloop, hlast⟩ := hcluster
        refine ⟨c', ?_, hlast⟩
        rw [hc.1] at hloop
        rw [hloop]
        simp [hw, hitResult, Except.map]
      | some cl =>
        rw [hfind] at hcluster
        obtain ⟨c', hloop, hlast⟩ := hcluster
        refine ⟨c', ?_, hlast⟩
        rw [hc.1] at hloop
        rw [hloop]

end Concrete

/-! ## Items -/

section Items

variable {T : Type} [PathExpansionItem T] {ctx : ExpandCtx} {node : Node}

/-- An item with a wildcard of which some leaves are still to be yielded. -/
def Resumes (ctx : ExpandCtx) (node : Node) (item : T) (c : Cursor) (outs : List (Item T))
    (last : Option (EndptId × ClusterId × BitVec 32)) : Prop :=
  (path item).isWildcard = true ∧ Supported (operation T) (path item) ∧
    ∃ xs, Before (operation T) ctx node (path item) c xs ∧
      outs = (hits (operation T) ctx c.lastAuthorized xs).1.map (yielded ctx item) ∧
      last = (hits (operation T) ctx c.lastAuthorized xs).2

theorem stepItem_hit {item : T} {c c' : Cursor} {x : Candidate}
    (h : nextForPath (operation T) ctx node (path item) c = (.ok (some (hit (operation T) x)), c')) :
    stepItem ctx node item c =
      (some (yielded ctx item x), if !(path item).isWildcard then none else some item, c') := by
  rw [stepItem, h]
  rfl

theorem stepItem_none {item : T} {c c' : Cursor}
    (h : nextForPath (operation T) ctx node (path item) c = (.ok none, c')) :
    stepItem ctx node item c = (none, none, c') := by
  rw [stepItem, h]

theorem stepItem_error {item : T} {c c' : Cursor} {status : IMStatusCode}
    (h : nextForPath (operation T) ctx node (path item) c = (.error status, c')) :
    stepItem ctx node item c = (some (failed item status), none, c') := by
  rw [stepItem, h]
  rfl

theorem Resumes.step {item : T} {c : Cursor} {outs : List (Item T)}
    {last : Option (EndptId × ClusterId × BitVec 32)} (h : Resumes ctx node item c outs last) :
    (outs = [] ∧ ∃ c', stepItem ctx node item c = (none, none, c') ∧ c'.lastAuthorized = last) ∨
    ∃ out rest c', outs = out :: rest ∧ stepItem ctx node item c = (some out, some item, c') ∧
      Resumes ctx node item c' rest last := by
  obtain ⟨hw, hs, xs, hbefore, rfl, rfl⟩ := h
  rcases nextForPath_wildcard hw hs hbefore with
    ⟨hd, c', hnext, hlast⟩ | ⟨x, rest, c', hf, hbefore', hnext, hlast⟩
  · rw [hits_denied hd]
    exact .inl ⟨rfl, c', stepItem_none hnext, hlast⟩
  · rw [hits_first hf]
    refine .inr ⟨yielded ctx item x, _, c', rfl, ?_, hw, hs, rest, hbefore', ?_, ?_⟩
    · rw [stepItem_hit hnext, hw]
      rfl
    · rw [hlast]
    · rw [hlast]

/-- **The first step of an item** yields the first of what the specification says. -/
theorem stepItem_start (ctx : ExpandCtx) (node : Node)
    (last : Option (EndptId × ClusterId × BitVec 32)) (item : T) :
    (∃ c', (PathSpec.item ctx node last item).1 = [] ∧
      stepItem ctx node item (Cursor.start last) = (none, none, c') ∧
      c'.lastAuthorized = (PathSpec.item ctx node last item).2) ∨
    (∃ out c', (PathSpec.item ctx node last item).1 = [out] ∧
      stepItem ctx node item (Cursor.start last) = (some out, none, c') ∧
      c'.lastAuthorized = (PathSpec.item ctx node last item).2) ∨
    ∃ out rest c', (PathSpec.item ctx node last item).1 = out :: rest ∧
      stepItem ctx node item (Cursor.start last) = (some out, some item, c') ∧
      Resumes ctx node item c' rest (PathSpec.item ctx node last item).2 := by
  rw [PathSpec.item]
  split
  case isTrue hcluster =>
    refine .inr (.inl ⟨_, Cursor.start last, rfl, stepItem_error ?_, rfl⟩)
    rw [nextForPath, if_pos hcluster]
  case isFalse hcluster =>
    split
    case isTrue hleaf =>
      refine .inr (.inl ⟨_, Cursor.start last, rfl, stepItem_error ?_, rfl⟩)
      rw [nextForPath, if_neg hcluster, if_pos hleaf]
    case isFalse hleaf =>
      cases hw : (path item).isWildcard with
      | true =>
        have hstart : Resumes ctx node item (Cursor.start last) _ _ :=
          ⟨hw, ⟨hcluster, hleaf⟩, _, before_start last, rfl, rfl⟩
        rcases hstart.step with ⟨hnil, c', hstep, hlast⟩ | ⟨out, rest, c', hout, hstep, hresumes⟩
        · exact .inl ⟨c', hnil, hstep, hlast⟩
        · exact .inr (.inr ⟨out, rest, c', hout, hstep, hresumes⟩)
      | false =>
        obtain ⟨c', hloop, hlast⟩ := endpointLoop_concrete (operation T) ctx hw node.endpoints
          (Cursor.start last) ⟨rfl, rfl⟩
        have hnext : nextForPath (operation T) ctx node (path item) (Cursor.start last) =
            (hitResult (operation T)
              (concrete (operation T) ctx (path item) node.endpoints last), c') := by
          rw [nextForPath, if_neg hcluster, if_neg hleaf]
          exact hloop
        simp only [Bool.false_eq_true, if_false]
        cases hresult : concrete (operation T) ctx (path item) node.endpoints last with
        | error status =>
          rw [hresult] at hnext
          refine .inr (.inl ⟨_, c', rfl, stepItem_error hnext, ?_⟩)
          exact hresult ▸ hlast
        | ok found =>
          rw [hresult] at hnext
          cases found with
          | none =>
            refine .inl ⟨c', rfl, stepItem_none hnext, ?_⟩
            exact hresult ▸ hlast
          | some x =>
            refine .inr (.inl ⟨_, c', rfl, ?_, ?_⟩)
            · rw [stepItem_hit hnext, hw]
              rfl
            · exact hresult ▸ hlast

def Expects (ctx : ExpandCtx) (node : Node) (e : PathExpander T) (outs : List (Item T)) : Prop :=
  match e.item with
  | none => outs = PathSpec.items ctx node e.cursor.lastAuthorized e.items
  | some item => ∃ now last, Resumes ctx node item e.cursor now last ∧
      outs = now ++ PathSpec.items ctx node last e.items

/-- What one call returns: the end, or the first of what is still to be yielded. -/
def Yields (ctx : ExpandCtx) (node : Node) (outs : List (Item T))
    (returned : Option (Item T) × PathExpander T) : Prop :=
  (outs = [] ∧ returned.1 = none) ∨
    ∃ out rest, outs = out :: rest ∧ returned.1 = some out ∧ Expects ctx node returned.2 rest

theorem yields_nextItems (items : List (Except ErrorCode T)) (c : Cursor) :
    Yields ctx node (PathSpec.items ctx node c.lastAuthorized items)
      (nextItems ctx node items c) := by
  induction items generalizing c with
  | nil => exact .inl ⟨rfl, rfl⟩
  | cons next items ih =>
    cases next with
    | error err => exact .inr ⟨_, _, rfl, rfl, rfl⟩
    | ok item =>
      rw [PathSpec.items, nextItems, ← Cursor.start]
      rcases stepItem_start ctx node c.lastAuthorized item with
        ⟨c', hout, hstep, hlast⟩ | ⟨out, c', hout, hstep, hlast⟩ | ⟨out, rest, c', hout, hstep, hresumes⟩
      · rw [hout, hstep, ← hlast]
        exact ih c'
      · rw [hout, hstep, ← hlast]
        exact .inr ⟨out, _, rfl, rfl, rfl⟩
      · rw [hout, hstep]
        exact .inr ⟨out, _, rfl, rfl, rest, _, hresumes, rfl⟩

theorem Expects.next {e : PathExpander T} {outs : List (Item T)} (h : Expects ctx node e outs) :
    Yields ctx node outs (next ctx node e) := by
  rw [PathExpander.next]
  cases hitem : e.item with
  | none =>
    rw [Expects, hitem] at h
    rw [h]
    exact yields_nextItems e.items e.cursor
  | some item =>
    rw [Expects, hitem] at h
    obtain ⟨now, last, hresumes, rfl⟩ := h
    rcases hresumes.step with ⟨rfl, c', hstep, rfl⟩ | ⟨out, rest, c', rfl, hstep, hresumes'⟩
    · simp only [hstep]
      exact yields_nextItems e.items c'
    · simp only [hstep]
      exact .inr ⟨out, _, rfl, rfl, rest, last, hresumes', rfl⟩

theorem Expects.collect {e : PathExpander T} {outs : List (Item T)} (h : Expects ctx node e outs)
    (fuel : ℕ) : collect ctx node (outs.length + 1 + fuel) e = some outs := by
  induction outs generalizing e with
  | nil =>
    obtain ⟨out, e', hnext⟩ : ∃ out e', PathExpander.next ctx node e = (out, e') := ⟨_, _, rfl⟩
    obtain ⟨-, hout⟩ | ⟨out', rest, hnil, -, -⟩ := h.next
    · rw [hnext] at hout
      obtain rfl : out = none := hout
      rw [List.length_nil, Nat.zero_add, Nat.add_comm, PathExpander.collect, hnext]
    · cases hnil
  | cons out rest ih =>
    obtain ⟨ret, e', hnext⟩ : ∃ ret e', PathExpander.next ctx node e = (ret, e') := ⟨_, _, rfl⟩
    obtain ⟨hnil, -⟩ | ⟨out', rest', hout, hret, hexpects⟩ := h.next
    · cases hnil
    · obtain ⟨rfl, rfl⟩ := List.cons.inj hout
      rw [hnext] at hret hexpects
      obtain rfl : ret = some out := hret
      have hfuel : (out :: rest).length + 1 + fuel = rest.length + 1 + fuel + 1 := by
        rw [List.length_cons]
        omega
      rw [hfuel, PathExpander.collect, hnext]
      simp only
      rw [ih hexpects]
      rfl

end Items

/-! ## When the cluster ids of an endpoint are distinct

Then the leaf granted last is one that is granted anyway, and the specification needs
no memory. -/

end PathExpander

namespace PathSpec

section Request

variable {T : Type} [PathExpansionItem T] (ctx : ExpandCtx) (node : Node)

def accessible (op : Operation) (ctx : ExpandCtx) (x : Candidate) : Bool :=
  match op.checkAccess ctx x.endpoint x.cluster x.leafId with
  | .ok () => true
  | .error _ => false

def passes (ctx : ExpandCtx) (x : Candidate) : Bool :=
  ctx.filter x.endpoint.id x.cluster.id x.leafId

/-- What an item with a wildcard yields: its leaves that pass the filter and the access
check, in the order of the node. -/
def wildcardRequest (item : T) : List (PathExpander.Item T) :=
  ((endpointCands (operation T) ctx (path item) node.endpoints).filter fun x =>
    passes ctx x && accessible (operation T) ctx x).map (yielded ctx item)

/-- What an item with a concrete path yields: its leaf, nothing, or one status. -/
def concreteRequest (item : T) : List (PathExpander.Item T) :=
  match node.endpoints.find? (endpointMatches ctx (path item)) with
  | none => [failed item .unsupportedEndpoint]
  | some e =>
    match e.clusters.find? (clusterMatches (path item)) with
    | none => [failed item .unsupportedCluster]
    | some c =>
      match ((operation T).leaves c).find? (leafMatches (path item)) with
      | none =>
        [failed item (if operation T = .invoke then .unsupportedCommand else .unsupportedAttribute)]
      | some l =>
        if passes ctx ⟨e, c, l⟩ then
          match (operation T).checkAccess ctx e c l with
          | .ok () => [yielded ctx item ⟨e, c, l⟩]
          | .error status => [failed item status]
        else []

def request : Except ErrorCode T → List (PathExpander.Item T)
  | .error err => [.error err]
  | .ok item =>
    if operation T ≠ .read ∧ (path item).cluster = none then [failed item .unsupportedCluster]
    else if operation T ≠ .read ∧ (path item).leaf = none then [failed item .unsupportedAttribute]
    else if (path item).isWildcard then wildcardRequest ctx node item
    else concreteRequest ctx node item

end Request

structure OfNode (node : Node) (x : Candidate) : Prop where
  endpoint_mem : x.endpoint ∈ node.endpoints
  cluster_mem : x.cluster ∈ x.endpoint.clusters

/-- The leaf granted last passes the access check. -/
def Authorized (op : Operation) (ctx : ExpandCtx) (node : Node)
    (last : Option (EndptId × ClusterId × BitVec 32)) : Prop :=
  ∀ x, OfNode node x → last = some x.triple → accessible op ctx x = true

/-- The cluster ids of every endpoint are distinct. -/
def DistinctClusters (node : Node) : Prop :=
  ∀ e ∈ node.endpoints, (e.clusters.map (·.id)).Nodup

section Memory

variable {op : Operation} {ctx : ExpandCtx} {node : Node} {path : GenericPath}
  {last : Option (EndptId × ClusterId × BitVec 32)} {x : Candidate}

theorem mem_endpointCands (hx : x ∈ endpointCands op ctx path node.endpoints) : OfNode node x := by
  simp only [endpointCands, clusterCands, leafCands, List.mem_flatMap, List.mem_map,
    List.mem_filter] at hx
  obtain ⟨e, ⟨he, -⟩, c, ⟨hc, -⟩, l, -, rfl⟩ := hx
  exact ⟨he, hc⟩

/-- With distinct cluster ids, the ids determine the endpoint and the cluster. -/
theorem eq_of_triple_eq (hnode : DistinctClusters node) {y : Candidate} (hx : OfNode node x)
    (hy : OfNode node y) (h : x.triple = y.triple) : x = y := by
  obtain ⟨e, c, l⟩ := x
  obtain ⟨e', c', l'⟩ := y
  obtain ⟨hid, hcid, rfl⟩ : e.id = e'.id ∧ c.id = c'.id ∧ l = l' := by
    simpa [Candidate.triple] using h
  have hids : (node.endpoints.map (·.id)).Nodup :=
    (List.pairwise_map.mpr node.ascending).imp BitVec.ne_of_lt
  obtain rfl : e = e' := List.inj_on_of_nodup_map hids hx.endpoint_mem hy.endpoint_mem hid
  obtain rfl : c = c' :=
    List.inj_on_of_nodup_map (hnode e hx.endpoint_mem) hx.cluster_mem hy.cluster_mem hcid
  rfl

theorem Authorized.of_accessible (hnode : DistinctClusters node) (hx : OfNode node x)
    (hacc : accessible op ctx x = true) : Authorized op ctx node (some x.triple) := by
  intro y hy heq
  obtain rfl := eq_of_triple_eq hnode hx hy (Option.some.inj heq)
  exact hacc

theorem Authorized.checkLeaf_eq (h : Authorized op ctx node last) (hx : OfNode node x) :
    PathExpander.checkLeaf op ctx x.endpoint x.cluster x.leafId last =
      if passes ctx x then (op.checkAccess ctx x.endpoint x.cluster x.leafId).map fun _ => true
      else .ok false := by
  rw [PathExpander.checkLeaf, ← passes]
  split
  · split
    · next hlast =>
      have hacc := h x hx hlast
      rw [accessible] at hacc
      cases hcheck : op.checkAccess ctx x.endpoint x.cluster x.leafId with
      | ok _ => rfl
      | error status => simp [hcheck] at hacc
    · cases op.checkAccess ctx x.endpoint x.cluster x.leafId <;> rfl
  · rfl

theorem Authorized.granted_eq (h : Authorized op ctx node last) (hx : OfNode node x) :
    granted op ctx last x = (passes ctx x && accessible op ctx x) := by
  rw [granted, h.checkLeaf_eq hx, accessible]
  cases passes ctx x with
  | false => rfl
  | true => cases op.checkAccess ctx x.endpoint x.cluster x.leafId <;> rfl

theorem hits_eq_filter (hnode : DistinctClusters node) {xs : List Candidate}
    (hxs : ∀ x ∈ xs, OfNode node x) (h : Authorized op ctx node last) :
    (hits op ctx last xs).1 = xs.filter (fun x => passes ctx x && accessible op ctx x) ∧
      Authorized op ctx node (hits op ctx last xs).2 := by
  induction xs generalizing last with
  | nil => exact ⟨rfl, h⟩
  | cons x xs ih =>
    have hx := hxs x List.mem_cons_self
    have hrest : ∀ y ∈ xs, OfNode node y := fun y hy => hxs y (List.mem_cons_of_mem x hy)
    rw [hits, h.granted_eq hx, List.filter_cons]
    split
    · next hserved =>
      obtain ⟨-, hacc⟩ := Bool.and_eq_true_iff.mp hserved
      obtain ⟨heq, hlast⟩ := ih hrest (Authorized.of_accessible hnode hx hacc)
      exact ⟨congrArg _ heq, hlast⟩
    · exact ih hrest h

variable {T : Type} [PathExpansionItem T]

theorem authorized_none : Authorized op ctx node none := by
  intro x hx h
  cases h

theorem concreteLeaf_eq (hnode : DistinctClusters node) (h : Authorized op ctx node last)
    {e : Endpoint} (he : e ∈ node.endpoints) {c : Cluster} (hc : c ∈ e.clusters) :
    concreteLeaf op ctx path e c last = concreteLeaf op ctx path e c none ∧
      Authorized op ctx node (lastAfter last (concreteLeaf op ctx path e c last)) := by
  simp only [concreteLeaf]
  cases (op.leaves c).find? (leafMatches path) with
  | none => exact ⟨rfl, h⟩
  | some l =>
    have hx : OfNode node ⟨e, c, l⟩ := ⟨he, hc⟩
    refine ⟨?_, ?_⟩
    · simp only [h.checkLeaf_eq hx, authorized_none.checkLeaf_eq hx]
    · simp only [h.checkLeaf_eq hx]
      cases passes ctx ⟨e, c, l⟩ with
      | false => exact h
      | true =>
        cases hcheck : op.checkAccess ctx e c l with
        | error status => exact h
        | ok _ =>
          refine Authorized.of_accessible hnode hx ?_
          simp only [accessible, hcheck]

theorem concrete_eq (hnode : DistinctClusters node) (h : Authorized op ctx node last) :
    concrete op ctx path node.endpoints last = concrete op ctx path node.endpoints none ∧
      Authorized op ctx node (lastAfter last (concrete op ctx path node.endpoints last)) := by
  simp only [concrete]
  cases he : node.endpoints.find? (endpointMatches ctx path) with
  | none => exact ⟨rfl, h⟩
  | some e =>
    simp only
    cases hc : e.clusters.find? (clusterMatches path) with
    | none => exact ⟨rfl, h⟩
    | some c =>
      exact concreteLeaf_eq hnode h (List.mem_of_find?_eq_some he) (List.mem_of_find?_eq_some hc)

theorem concreteRequest_eq (item : T) :
    concreteRequest ctx node item =
      match concrete (operation T) ctx (PathExpansionItem.path item) node.endpoints none with
      | .error status => [failed item status]
      | .ok none => []
      | .ok (some x) => [yielded ctx item x] := by
  rw [concreteRequest, concrete]
  cases he : node.endpoints.find? (endpointMatches ctx (PathExpansionItem.path item)) with
  | none => rfl
  | some e =>
    simp only
    cases hc : e.clusters.find? (clusterMatches (PathExpansionItem.path item)) with
    | none => rfl
    | some c =>
      simp only [concreteLeaf]
      cases ((operation T).leaves c).find? (leafMatches (PathExpansionItem.path item)) with
      | none => rfl
      | some l =>
        have hx : OfNode node ⟨e, c, l⟩ :=
          ⟨List.mem_of_find?_eq_some he, List.mem_of_find?_eq_some hc⟩
        simp only [authorized_none.checkLeaf_eq hx]
        cases passes ctx ⟨e, c, l⟩ with
        | false => rfl
        | true => cases (operation T).checkAccess ctx e c l <;> rfl

theorem item_eq_request (hnode : DistinctClusters node) (item : T)
    (h : Authorized (operation T) ctx node last) :
    (PathSpec.item ctx node last item).1 = request ctx node (.ok item) ∧
      Authorized (operation T) ctx node (PathSpec.item ctx node last item).2 := by
  rw [PathSpec.item, request]
  split
  · exact ⟨rfl, h⟩
  split
  · exact ⟨rfl, h⟩
  split
  · obtain ⟨heq, hlast⟩ := hits_eq_filter hnode (fun x hx => mem_endpointCands hx) h
    exact ⟨congrArg (List.map _) heq, hlast⟩
  · obtain ⟨heq, hlast⟩ := concrete_eq hnode h
    refine ⟨?_, hlast⟩
    rw [concreteRequest_eq]
    simp only [heq]

theorem items_eq_request (hnode : DistinctClusters node) (is : List (Except ErrorCode T))
    (h : Authorized (operation T) ctx node last) :
    PathSpec.items ctx node last is = is.flatMap (request ctx node) := by
  induction is generalizing last with
  | nil => rfl
  | cons i is ih =>
    cases i with
    | error err =>
      rw [PathSpec.items, ih h, List.flatMap_cons]
      rfl
    | ok item =>
      obtain ⟨heq, hlast⟩ := item_eq_request hnode item h
      rw [PathSpec.items, heq, ih hlast, List.flatMap_cons]

end Memory

end PathSpec

/-! ## The result -/

/-- **Path expansion**: run to its end, the expander yields what the specification says, item
by item. Where the cluster ids of every endpoint are distinct, that is for each item on its
own: of a wildcard path every leaf of the node that matches, passes the filter and is
accessible, in the order of the node; of a concrete path its leaf, nothing, or one status. -/
theorem PathExpander.collect_eq_request {T : Type} [PathExpansionItem T] (ctx : ExpandCtx)
    (node : Node) (items : List (Except ErrorCode T)) :
    (∀ fuel, PathExpander.collect ctx node ((PathSpec.items ctx node none items).length + 1 + fuel)
        (.new items) = some (PathSpec.items ctx node none items)) ∧
      (PathSpec.DistinctClusters node →
        PathSpec.items ctx node none items = items.flatMap (PathSpec.request ctx node)) := by
  have hexpects : PathExpander.Expects ctx node (.new items) (PathSpec.items ctx node none items) :=
    rfl
  refine ⟨fun fuel => hexpects.collect fuel, fun hnode => ?_⟩
  exact PathSpec.items_eq_request hnode items PathSpec.authorized_none

/-- A node with one attribute, which can be read and written. -/
def oneAttrNode : Node where
  endpoints := [⟨0, [], [⟨6, 1, 0, [⟨0, Access.read ||| Access.write ||| 0x3#16, 0⟩], [],
    fun _ _ _ => true, fun _ _ _ => true⟩]⟩]
  ascending := List.pairwise_singleton ..
  length_clusters := by simp
  length_leaves := by simp [Cluster.attributes, Cluster.commands]

def paseCtx : ExpandCtx where
  fabrics := []
  accessor := ⟨0, .new 1, some .pase⟩
  timed := false
  filter := fun _ _ _ => true

def readAll : AttrReadPath := ⟨⟨none, none, none, none, none⟩, [], false⟩

theorem PathExpander.collect_readAll :
    PathSpec.DistinctClusters oneAttrNode ∧
      PathSpec.items paseCtx oneAttrNode none [.ok readAll] =
        [.ok readAll].flatMap (PathSpec.request paseCtx oneAttrNode) :=
  have hnode : PathSpec.DistinctClusters oneAttrNode := by
    simp [PathSpec.DistinctClusters, oneAttrNode]
  ⟨hnode, (PathExpander.collect_eq_request paseCtx oneAttrNode [.ok readAll]).2 hnode⟩

/-- A write to attribute `0` of every cluster. -/
def writeAll : AttrData := ⟨none, ⟨none, none, none, some 0, none⟩, [0x08]⟩

/-- A write with a wildcard cluster yields a status, although a leaf of the node matches,
passes the filter and is accessible. -/
theorem PathExpander.wildcard_cluster_write :
    PathExpander.collect paseCtx oneAttrNode 3 (.new [.ok writeAll]) =
        some [.ok (.error ⟨writeAll.path, .unsupportedCluster⟩)] ∧
      PathSpec.wildcardRequest paseCtx oneAttrNode writeAll =
        [.ok (.ok (⟨0, 6, 0, true, none, 0, true, none, false⟩, [0x08]))] := by
  exact ⟨rfl, rfl⟩

end RsMatter
