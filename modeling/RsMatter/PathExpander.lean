import RsMatter.BinarySearch
import RsMatter.Node

/-!
# Expanding paths (`dm/types/node.rs`)

A request names attributes or commands by paths that may have wildcards. The expander
goes through the items of a request and steps through the matching endpoints, clusters
and leaves of the node. It is a resumable loop: between two calls it remembers the
endpoint by its id and the cluster and the leaf by their positions.

The filter is a function here: the closures of the source that keep state belong to its
callers.
-/

namespace RsMatter

inductive Operation where
  | read
  | write
  | invoke
  deriving DecidableEq

/-- An item that can be expanded: what the expander asks of the items of a request. -/
class PathExpansionItem (T : Type) where
  Expanded : Type
  Status : Type
  operation : Operation
  path : T → GenericPath
  /-- the item for one concrete endpoint, cluster and leaf, which may be a list -/
  expand : T → Accessor → EndptId → ClusterId → BitVec 32 → Bool → Except ErrorCode Expanded
  intoStatus : T → IMStatusCode → Status

open PathExpansionItem

/-! ## The items of requests -/

structure AttrPath where
  node : Option (BitVec 64)
  endpoint : Option EndptId
  cluster : Option ClusterId
  attr : Option AttrId
  listIndex : Option (Option (BitVec 16))
  deriving DecidableEq

def AttrPath.toGp (p : AttrPath) : GenericPath := ⟨p.endpoint, p.cluster, p.attr⟩

structure AttrDetails where
  endpointId : EndptId
  clusterId : ClusterId
  attrId : AttrId
  wildcard : Bool
  listIndex : Option (Option (BitVec 16))
  fabIdx : ℕ
  /-- is the answer limited to that fabric? -/
  fabFilter : Bool
  /-- the data version known to the peer, or expected by it -/
  dataver : Option (BitVec 32)
  array : Bool
  deriving DecidableEq

structure AttrStatus where
  path : AttrPath
  status : IMStatusCode
  deriving DecidableEq

/-- A cluster instance whose data version the peer knows. -/
structure DataVersionFilter where
  endpoint : EndptId
  cluster : ClusterId
  dataVer : BitVec 32
  deriving DecidableEq

/-- The data version of a cluster instance among filters, some of which may not parse. -/
def dataver : List (Except ErrorCode DataVersionFilter) → EndptId → ClusterId →
    Except ErrorCode (Option (BitVec 32))
  | [], _, _ => .ok none
  | .error err :: _, _, _ => .error err
  | .ok filter :: filters, ep, cl =>
    if filter.endpoint == ep && filter.cluster == cl then .ok (some filter.dataVer)
    else dataver filters ep cl

structure AttrReadPath where
  path : AttrPath
  dataverFilters : List (Except ErrorCode DataVersionFilter)
  /-- is the answer limited to the fabric of the accessor? -/
  fabricFiltered : Bool

instance : PathExpansionItem AttrReadPath where
  Expanded := AttrDetails
  Status := AttrStatus
  operation := .read
  path item := item.path.toGp
  expand item accessor endpointId clusterId leafId array := do
    let dataver ← dataver item.dataverFilters endpointId clusterId
    return {
      endpointId := endpointId
      clusterId := clusterId
      attrId := leafId
      wildcard := item.path.toGp.isWildcard
      listIndex := item.path.listIndex
      fabIdx := accessor.fabIdx
      fabFilter := item.fabricFiltered
      dataver := dataver
      array := array }
  intoStatus item status := ⟨item.path, status⟩

/-- An attribute path to be written, with the data. -/
structure AttrData where
  dataVer : Option (BitVec 32)
  path : AttrPath
  data : List UInt8

instance : PathExpansionItem AttrData where
  Expanded := AttrDetails × List UInt8
  Status := AttrStatus
  operation := .write
  path item := item.path.toGp
  expand item accessor endpointId clusterId leafId array :=
    .ok ({
      endpointId := endpointId
      clusterId := clusterId
      attrId := leafId
      wildcard := item.path.toGp.isWildcard
      listIndex := item.path.listIndex
      fabIdx := accessor.fabIdx
      fabFilter := true
      dataver := item.dataVer
      array := array }, item.data)
  intoStatus item status := ⟨item.path, status⟩

structure CmdDetails where
  endpointId : EndptId
  clusterId : ClusterId
  cmdId : CmdId
  fabIdx : ℕ
  wildcard : Bool
  commandRef : Option (BitVec 16)
  deriving DecidableEq

structure CmdStatus where
  path : GenericPath
  status : IMStatusCode
  commandRef : Option (BitVec 16)
  deriving DecidableEq

/-- A command path to be invoked, with the data. -/
structure CmdData where
  path : GenericPath
  data : List UInt8
  commandRef : Option (BitVec 16)

instance : PathExpansionItem CmdData where
  Expanded := CmdDetails × List UInt8
  Status := CmdStatus
  operation := .invoke
  path item := item.path
  expand item accessor endpointId clusterId leafId _ :=
    .ok (⟨endpointId, clusterId, leafId, accessor.fabIdx, false, item.commandRef⟩, item.data)
  intoStatus item status := ⟨item.path, status, item.commandRef⟩

/-! ## The expander -/

/-- What stays the same while an expander runs. -/
structure ExpandCtx where
  fabrics : Fabrics
  accessor : Accessor
  timed : Bool
  filter : EndptId → ClusterId → BitVec 32 → Bool

structure Cursor where
  /-- the endpoint entered last for this item -/
  endpointId : Option EndptId
  clusterIndex : ℕ
  leafIndex : ℕ
  /-- the endpoint, cluster and leaf granted last -/
  lastAuthorized : Option (EndptId × ClusterId × BitVec 32)
  deriving DecidableEq

structure PathExpander (T : Type) where
  /-- the items to come; some may not parse -/
  items : List (Except ErrorCode T)
  item : Option T
  cursor : Cursor

/-- An endpoint, cluster and leaf that the expander stops at, and whether it is a list. -/
abbrev Hit := EndptId × ClusterId × BitVec 32 × Bool

/-- How a loop over a part of the node ends: with a result, or at the end of the part. -/
inductive Scan where
  | done (result : Except IMStatusCode (Option Hit)) (c : Cursor)
  | past (c : Cursor)

/-- The ids of the supported commands or attributes. -/
def Operation.leaves (op : Operation) (cluster : Cluster) : List (BitVec 32) :=
  match op with
  | .invoke => cluster.commands.map (·.id)
  | _ => cluster.attributes.map (·.id)

def Operation.checkAccess (op : Operation) (ctx : ExpandCtx) (endpoint : Endpoint)
    (cluster : Cluster) (leafId : BitVec 32) : Except IMStatusCode Unit :=
  let path : GenericPath := ⟨some endpoint.id, some cluster.id, some leafId⟩
  match op with
  | .invoke =>
    cluster.checkCmdAccess ctx.fabrics ctx.accessor ctx.timed path endpoint.deviceTypes leafId
  | .write =>
    cluster.checkAttrAccess ctx.fabrics ctx.accessor ctx.timed path endpoint.deviceTypes true leafId
  | .read =>
    cluster.checkAttrAccess ctx.fabrics ctx.accessor ctx.timed path endpoint.deviceTypes false
      leafId

def Operation.isArray (op : Operation) (cluster : Cluster) (leafId : BitVec 32) : Bool :=
  match op with
  | .invoke => false
  | _ => ((cluster.attribute leafId).map (·.quality.contains Quality.array)).getD false

namespace PathExpander

section Loops

variable (op : Operation) (ctx : ExpandCtx) (path : GenericPath)

/-- Filter a leaf and check its access; a leaf just granted is not checked again. -/
def checkLeaf (endpoint : Endpoint) (cluster : Cluster) (leafId : BitVec 32)
    (lastAuthorized : Option (EndptId × ClusterId × BitVec 32)) : Except IMStatusCode Bool :=
  if ctx.filter endpoint.id cluster.id leafId then
    if lastAuthorized = some (endpoint.id, cluster.id, leafId) then .ok true
    else
      match op.checkAccess ctx endpoint cluster leafId with
      | .ok () => .ok true
      | .error status => .error status
  else .ok false

/-- The loop over the leaves of a cluster, from the leaf the cursor stands at. -/
def leafLoop (endpoint : Endpoint) (cluster : Cluster) : List (BitVec 32) → Cursor → Scan
  | [], c => .past c
  | leafId :: leaves, c =>
    if path.leaf.isNone || path.leaf == some leafId then
      match checkLeaf op ctx endpoint cluster leafId c.lastAuthorized with
      | .ok true =>
        .done (.ok (some (endpoint.id, cluster.id, leafId, op.isArray cluster leafId)))
          { c with
            leafIndex := c.leafIndex + 1
            lastAuthorized := some (endpoint.id, cluster.id, leafId) }
      | .ok false =>
        if !path.isWildcard then .done (.ok none) { c with leafIndex := c.leafIndex + 1 }
        else leafLoop endpoint cluster leaves { c with leafIndex := c.leafIndex + 1 }
      | .error status =>
        if !path.isWildcard then .done (.error status) c
        else leafLoop endpoint cluster leaves { c with leafIndex := c.leafIndex + 1 }
    else leafLoop endpoint cluster leaves { c with leafIndex := c.leafIndex + 1 }

/-- The loop over the clusters of an endpoint, from the cluster the cursor stands at. -/
def clusterLoop (endpoint : Endpoint) : List Cluster → Cursor → Scan
  | [], c => .past c
  | cluster :: clusters, c =>
    if path.cluster.isNone || path.cluster == some cluster.id then
      match leafLoop op ctx path endpoint cluster ((op.leaves cluster).drop c.leafIndex) c with
      | .done result c => .done result c
      | .past c =>
        if !path.isWildcard then
          .done (.error (if op = .invoke then .unsupportedCommand else .unsupportedAttribute)) c
        else
          clusterLoop endpoint clusters
            { c with leafIndex := 0, clusterIndex := c.clusterIndex + 1 }
    else clusterLoop endpoint clusters { c with clusterIndex := c.clusterIndex + 1 }

/-- The loop over the endpoints of the node, from the endpoint the cursor stands at. -/
def endpointLoop : List Endpoint → Cursor → Except IMStatusCode (Option Hit) × Cursor
  | [], c => (if !path.isWildcard then .error .unsupportedEndpoint else .ok none, c)
  | endpoint :: endpoints, c =>
    let c := { c with endpointId := some endpoint.id }
    if (path.endpoint.isNone || path.endpoint == some endpoint.id) &&
        ctx.accessor.isEndpointAccessible ctx.fabrics endpoint.id then
      match clusterLoop op ctx path endpoint (endpoint.clusters.drop c.clusterIndex) c with
      | .done result c => (result, c)
      | .past c =>
        if !path.isWildcard then (.error .unsupportedCluster, c)
        else endpointLoop endpoints { c with clusterIndex := 0 }
    else endpointLoop endpoints c

end Loops

/-- The position of the endpoint the cursor stands at. Where it is gone, the next one. -/
def resumeEndpointIndex (node : Node) (c : Cursor) : ℕ × Cursor :=
  match c.endpointId with
  | none => (0, c)
  | some epId =>
    match binarySearch (node.endpoints.map (·.id.toNat)) epId.toNat with
    | .ok i => (i, c)
    | .error i => (i, { c with clusterIndex := 0, leafIndex := 0, endpointId := none })

/-- Step to the next endpoint, cluster and leaf that match a path. -/
def nextForPath (op : Operation) (ctx : ExpandCtx) (node : Node) (path : GenericPath)
    (c : Cursor) : Except IMStatusCode (Option Hit) × Cursor :=
  -- not all wildcards are supported for each type of operation
  if op ≠ .read ∧ path.cluster = none then (.error .unsupportedCluster, c)
  else if op ≠ .read ∧ path.leaf = none then (.error .unsupportedAttribute, c)
  else
    let (endpointIndex, c) := resumeEndpointIndex node c
    endpointLoop op ctx path (node.endpoints.drop endpointIndex) c

variable {T : Type} [PathExpansionItem T]

abbrev Item (T : Type) [PathExpansionItem T] := Except ErrorCode (Except (Status T) (Expanded T))

def new (items : List (Except ErrorCode T)) : PathExpander T := ⟨items, none, ⟨none, 0, 0, none⟩⟩

/-- One round of `next` with an item at hand: what it yields, if anything, and whether the
item stays. -/
def stepItem (ctx : ExpandCtx) (node : Node) (item : T) (c : Cursor) :
    Option (Item T) × Option T × Cursor :=
  match nextForPath (operation T) ctx node (path item) c with
  | (.ok (some (endpointId, clusterId, leafId, array)), c) =>
    let expanded := expand item ctx.accessor endpointId clusterId leafId array
    (some (expanded.map .ok), if !(path item).isWildcard then none else some item, c)
  | (.ok none, c) => (none, none, c)
  | (.error status, c) => (some (.ok (.error (intoStatus item status))), none, c)

/-- The rounds of `next` from the next item on. -/
def nextItems (ctx : ExpandCtx) (node : Node) :
    List (Except ErrorCode T) → Cursor → Option (Item T) × PathExpander T
  | [], c => (none, ⟨[], none, c⟩)
  | .error err :: items, c => (some (.error err), ⟨items, none, c⟩)
  | .ok item :: items, c =>
    match stepItem ctx node item { c with endpointId := none, clusterIndex := 0, leafIndex := 0 } with
    | (some out, item, c) => (some out, ⟨items, item, c⟩)
    | (none, _, c) => nextItems ctx node items c

/-- What the iterator yields next, if anything. -/
def next (ctx : ExpandCtx) (node : Node) (e : PathExpander T) :
    Option (Item T) × PathExpander T :=
  match e.item with
  | none => nextItems ctx node e.items e.cursor
  | some item =>
    match stepItem ctx node item e.cursor with
    | (some out, item, c) => (some out, ⟨e.items, item, c⟩)
    | (none, _, c) => nextItems ctx node e.items c

/-- All that the iterator yields until it ends, within `fuel` calls. -/
def collect (ctx : ExpandCtx) (node : Node) : ℕ → PathExpander T → Option (List (Item T))
  | 0, _ => none
  | fuel + 1, e =>
    match next ctx node e with
    | (none, _) => some []
    | (some out, e) => (collect ctx node fuel e).map (out :: ·)

end PathExpander

end RsMatter
