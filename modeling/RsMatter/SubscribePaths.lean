import RsMatter.PathExpansion

/-!
# Which wildcard paths can be subscribed to (`dm/types/node.rs`, `dm.rs`)

A subscription is refused if one of its wildcard paths has nothing to report. That is not found
out by expanding the path: `Node.hasAccessibleAttr` walks through the node on its own. It looks at
all attributes that the specification of a cluster knows, and at all endpoints, while the expander
serves the attributes that the cluster supports, and a group only on its own endpoints.
-/

namespace RsMatter

open PathSpec

/-- Is an id the one that is asked for, if one is? -/
def isWanted {α : Type} [BEq α] (wanted : Option α) (id : α) : Bool :=
  match wanted with
  | some id' => id == id'
  | none => true

/-- Is some attribute that matches the path accessible? -/
def Node.hasAccessibleAttr (node : Node) (fabrics : Fabrics) (path : AttrPath) (accessor : Accessor) :
    Bool :=
  node.endpoints.any fun endpoint => isWanted path.endpoint endpoint.id &&
    endpoint.clusters.any fun cluster => isWanted path.cluster cluster.id &&
      cluster.allAttributes.any fun attr => isWanted path.attr attr.id &&
        (cluster.checkAttrAccess fabrics accessor false
          ⟨some endpoint.id, some cluster.id, some attr.id⟩ endpoint.deviceTypes false attr.id).isOk

section

variable {node : Node} {fabrics : Fabrics} {path : AttrPath} {accessor : Accessor}

/-- An attribute of the specification of a cluster that matches the path, and that the access
control lists let the accessor read. -/
structure Node.Readable (node : Node) (fabrics : Fabrics) (path : AttrPath) (accessor : Accessor)
    (e : Endpoint) (c : Cluster) (a : Attribute) : Prop where
  endpoint : e ∈ node.endpoints
  cluster : c ∈ e.clusters
  «attribute» : a ∈ c.allAttributes
  matches_path : (path.endpoint.isNone || path.endpoint == some e.id) = true ∧
    clusterMatches path.toGp c = true ∧ leafMatches path.toGp a.id = true
  access : (c.checkAttrAccess fabrics accessor false ⟨some e.id, some c.id, some a.id⟩
    e.deviceTypes false a.id).isOk = true

/-- There are attributes to read, but each of them is not supported by its cluster, or it is on an
endpoint that the accessor does not reach. -/
def Node.OnlyOutOfReach (node : Node) (fabrics : Fabrics) (path : AttrPath) (accessor : Accessor) :
    Prop :=
  (∃ e c a, node.Readable fabrics path accessor e c a) ∧
    ∀ e c a, node.Readable fabrics path accessor e c a →
      c.withAttrs a c.revision c.featureMap = false ∨
        accessor.isEndpointAccessible fabrics e.id = false

/-- Expanding a read of the path to its end yields an attribute. -/
def Node.Delivers (node : Node) (fabrics : Fabrics) (path : AttrPath) (accessor : Accessor)
    (timed fabricFiltered : Bool) : Prop :=
  ∃ fuel outs, PathExpander.collect ⟨fabrics, accessor, timed, fun _ _ _ => true⟩ node fuel
      (.new [.ok (⟨path, [], fabricFiltered⟩ : AttrReadPath)]) = some outs ∧
    ∃ details, .ok (.ok details) ∈ outs

/-! ## The validation -/

theorem isWanted_eq {α : Type} [DecidableEq α] (wanted : Option α) (id : α) :
    isWanted wanted id = (wanted.isNone || wanted == some id) := by
  cases wanted with
  | none => rfl
  | some id' =>
    rw [isWanted, Option.isNone_some, Bool.false_or, Bool.eq_iff_iff, beq_iff_eq, beq_iff_eq,
      Option.some_inj]
    exact eq_comm

theorem Node.hasAccessibleAttr_iff : node.hasAccessibleAttr fabrics path accessor = true ↔
    ∃ e c a, node.Readable fabrics path accessor e c a := by
  simp only [hasAccessibleAttr, List.any_eq_true, Bool.and_eq_true, isWanted_eq]
  constructor
  · rintro ⟨e, he, hep, c, hc, hcp, a, ha, hap, hok⟩
    exact ⟨e, c, a, he, hc, ha, ⟨hep, hcp, hap⟩, hok⟩
  · rintro ⟨e, c, a, he, hc, ha, ⟨hep, hcp, hap⟩, hok⟩
    exact ⟨e, he, hep, c, hc, hcp, a, ha, hap, hok⟩

/-! ## The expansion -/

theorem PathExpander.collect_mono {T : Type} [PathExpansionItem T] {ctx : ExpandCtx} {fuel : ℕ}
    {e : PathExpander T} {outs : List (Item T)} (h : collect ctx node fuel e = some outs) (k : ℕ) :
    collect ctx node (fuel + k) e = some outs := by
  induction fuel generalizing e outs with
  | zero => cases h
  | succ fuel ih =>
    rw [Nat.add_right_comm, collect]
    rw [collect] at h
    split
    · next hnext =>
      rw [hnext] at h
      exact h
    · next out e' hnext =>
      rw [hnext] at h
      obtain ⟨rest, hrest, rfl⟩ := Option.map_eq_some_iff.mp h
      rw [ih hrest]
      rfl

theorem PathSpec.hits_eq_nil {op : Operation} {ctx : ExpandCtx} {xs : List Candidate} :
    (hits op ctx none xs).1 = [] ↔ ∀ x ∈ xs, granted op ctx none x = false := by
  induction xs with
  | nil => simp [hits]
  | cons x xs ih =>
    rw [hits, List.forall_mem_cons]
    cases hx : granted op ctx none x with
    | true => simp
    | false => simpa using ih

/-- What is granted at first may be read; whether the interaction is timed does not matter. -/
theorem PathSpec.granted_none (timed : Bool) (e : Endpoint) (c : Cluster) (l : AttrId) :
    granted .read ⟨fabrics, accessor, timed, fun _ _ _ => true⟩ none ⟨e, c, l⟩ =
      (c.checkAttrAccess fabrics accessor false ⟨some e.id, some c.id, some l⟩ e.deviceTypes false
        l).isOk := by
  have hcheck : Operation.checkAccess .read ⟨fabrics, accessor, timed, fun _ _ _ => true⟩ e c l =
      c.checkAttrAccess fabrics accessor false ⟨some e.id, some c.id, some l⟩ e.deviceTypes false l := rfl
  rw [granted, PathExpander.checkLeaf]
  dsimp only
  rw [if_pos rfl, if_neg (by simp), hcheck]
  cases c.checkAttrAccess fabrics accessor false ⟨some e.id, some c.id, some l⟩ e.deviceTypes false l <;>
    rfl

/-- The supported attributes that match, on the endpoints within reach. -/
theorem PathSpec.mem_endpointCands_read {ctx : ExpandCtx} {gp : GenericPath} {x : Candidate} :
    x ∈ endpointCands .read ctx gp node.endpoints ↔
      x.endpoint ∈ node.endpoints ∧ x.cluster ∈ x.endpoint.clusters ∧
        endpointMatches ctx gp x.endpoint = true ∧ clusterMatches gp x.cluster = true ∧
        leafMatches gp x.leafId = true ∧ ∃ a ∈ x.cluster.attributes, a.id = x.leafId := by
  simp only [endpointCands, clusterCands, leafCands, List.mem_flatMap, List.mem_map, List.mem_filter,
    Operation.leaves]
  constructor
  · rintro ⟨e, ⟨he, hem⟩, c, ⟨hc, hcm⟩, l, ⟨⟨a, ha, hid⟩, hlm⟩, rfl⟩
    exact ⟨he, hc, hem, hcm, hlm, a, ha, hid⟩
  · rintro ⟨he, hc, hem, hcm, hlm, a, ha, hid⟩
    exact ⟨x.endpoint, ⟨he, hem⟩, x.cluster, ⟨hc, hcm⟩, x.leafId, ⟨⟨a, ha, hid⟩, hlm⟩, rfl⟩

theorem PathSpec.items_wildcard {ctx : ExpandCtx} {item : AttrReadPath}
    (hw : item.path.toGp.isWildcard = true) :
    PathSpec.items ctx node none [.ok item] =
      (hits .read ctx none (endpointCands .read ctx item.path.toGp node.endpoints)).1.map
        (yielded ctx item) := by
  have hitem : PathSpec.item ctx node none item =
      ((hits .read ctx none (endpointCands .read ctx item.path.toGp node.endpoints)).1.map
        (yielded ctx item),
        (hits .read ctx none (endpointCands .read ctx item.path.toGp node.endpoints)).2) := by
    rw [PathSpec.item, if_neg (fun h => h.1 rfl), if_neg (fun h => h.1 rfl)]
    exact if_pos hw
  rw [PathSpec.items, PathSpec.items, List.append_nil, hitem]

theorem Node.delivers_iff_hits (hw : path.toGp.isWildcard = true) (timed fabricFiltered : Bool) :
    node.Delivers fabrics path accessor timed fabricFiltered ↔
      (hits .read ⟨fabrics, accessor, timed, fun _ _ _ => true⟩ none
        (endpointCands .read ⟨fabrics, accessor, timed, fun _ _ _ => true⟩ path.toGp
          node.endpoints)).1 ≠ [] := by
  let ctx : ExpandCtx := ⟨fabrics, accessor, timed, fun _ _ _ => true⟩
  let item : AttrReadPath := ⟨path, [], fabricFiltered⟩
  have hexpects : PathExpander.Expects ctx node (.new [.ok item])
      (PathSpec.items ctx node none [.ok item]) := rfl
  have hitems : PathSpec.items ctx node none [.ok item] = _ := PathSpec.items_wildcard hw
  constructor
  · rintro ⟨fuel, outs, hcollect, details, hdetails⟩ hnil
    have hlong := PathExpander.collect_mono hcollect
      ((PathSpec.items ctx node none [.ok item]).length + 1)
    rw [Nat.add_comm, hexpects.collect fuel, Option.some_inj] at hlong
    rw [← hlong, hitems] at hdetails
    rw [show (hits .read ctx none _).1 = [] from hnil] at hdetails
    cases hdetails
  · intro hne
    obtain ⟨x, xs, hx⟩ := List.exists_cons_of_ne_nil hne
    refine ⟨_, _, hexpects.collect 0, ?_⟩
    rw [hitems, show (hits .read ctx none _).1 = x :: xs from hx]
    exact ⟨_, List.mem_cons_self⟩

theorem Node.delivers_iff (hw : path.toGp.isWildcard = true) (timed fabricFiltered : Bool) :
    node.Delivers fabrics path accessor timed fabricFiltered ↔
      ∃ e c a, node.Readable fabrics path accessor e c a ∧
        c.withAttrs a c.revision c.featureMap = true ∧
        accessor.isEndpointAccessible fabrics e.id = true := by
  rw [delivers_iff_hits hw, Ne, PathSpec.hits_eq_nil, not_forall]
  constructor
  · rintro ⟨⟨e, c, l⟩, hx⟩
    rw [Classical.not_imp, Bool.not_eq_false, PathSpec.granted_none, mem_endpointCands_read] at hx
    obtain ⟨⟨he, hc, hem, hcm, hlm, a, ha, rfl⟩, hok⟩ := hx
    obtain ⟨ha, hwith⟩ := List.mem_filter.mp ha
    obtain ⟨hem, hreach⟩ := Bool.and_eq_true_iff.mp hem
    exact ⟨e, c, a, ⟨he, hc, ha, ⟨hem, hcm, hlm⟩, hok⟩, hwith, hreach⟩
  · rintro ⟨e, c, a, hr, hwith, hreach⟩
    refine ⟨⟨e, c, a.id⟩, ?_⟩
    rw [Classical.not_imp, Bool.not_eq_false, PathSpec.granted_none, mem_endpointCands_read]
    obtain ⟨hem, hcm, hlm⟩ := hr.matches_path
    refine ⟨⟨hr.endpoint, hr.cluster, Bool.and_eq_true_iff.mpr ⟨hem, hreach⟩, hcm, hlm, a, ?_, rfl⟩,
      hr.access⟩
    exact List.mem_filter.mpr ⟨hr.attribute, hwith⟩

/-- **Validation and reporting.** They agree unless all that there is to read is out of reach. -/
theorem Node.hasAccessibleAttr_agrees_iff (hw : path.toGp.isWildcard = true)
    (timed fabricFiltered : Bool) :
    (node.hasAccessibleAttr fabrics path accessor = true ↔
        node.Delivers fabrics path accessor timed fabricFiltered) ↔
      ¬ node.OnlyOutOfReach fabrics path accessor := by
  rw [hasAccessibleAttr_iff, delivers_iff hw]
  constructor
  · rintro hagree ⟨hreadable, hout⟩
    obtain ⟨e, c, a, hr, hsupported, hreach⟩ := hagree.mp hreadable
    rcases hout e c a hr with hnot | hnot
    · rw [hsupported] at hnot
      cases hnot
    · rw [hreach] at hnot
      cases hnot
  · intro hnot
    constructor
    · intro hreadable
      by_contra hnone
      refine hnot ⟨hreadable, fun e c a hr => ?_⟩
      by_contra hboth
      rw [not_or, Bool.not_eq_false, Bool.not_eq_false] at hboth
      exact hnone ⟨e, c, a, hr, hboth.1, hboth.2⟩
    · rintro ⟨e, c, a, hr, -, -⟩
      exact ⟨e, c, a, hr⟩

end

namespace Node.Sample

/-- A node with one attribute, which its cluster does not support. -/
def unsupported : Node where
  endpoints := [⟨0, [], [⟨6, 1, 0, [⟨0, Access.read ||| Access.write ||| 0x3#16, 0⟩], [],
    fun _ _ _ => false, fun _ _ _ => true⟩]⟩]
  ascending := List.pairwise_singleton ..
  length_clusters := by simp
  length_leaves := by simp [Cluster.attributes, Cluster.commands]

def everything : AttrPath := ⟨none, none, none, none, none⟩

def commissioner : Accessor := ⟨0, .new 1, some .pase⟩

/-- A fabric whose group may view everything; endpoint `1` is in the group. -/
def fabric : Fabric :=
  { Fabric.init 1 with
    acl := [⟨.view, .group, some [9], none, none, some 1⟩]
    groups := ⟨[], [], [⟨9, [1], ""⟩]⟩ }

def group : Accessor := ⟨1, .new 9, some .group⟩

end Node.Sample

/-- The only attribute is not supported, or the only endpoint is not in the group: the path is
found good, and there is nothing to report. -/
theorem Node.hasAccessibleAttr_undelivered :
    (Sample.unsupported.hasAccessibleAttr [] Sample.everything Sample.commissioner = true ∧
      ¬ Sample.unsupported.Delivers [] Sample.everything Sample.commissioner false false) ∧
    oneAttrNode.hasAccessibleAttr [Sample.fabric] Sample.everything Sample.group = true ∧
      ¬ oneAttrNode.Delivers [Sample.fabric] Sample.everything Sample.group false false := by
  refine ⟨⟨by decide, ?_⟩, by decide, ?_⟩
  · rw [delivers_iff rfl]
    rintro ⟨e, c, a, hr, hsupported, -⟩
    obtain rfl := List.mem_singleton.mp hr.endpoint
    obtain rfl := List.mem_singleton.mp hr.cluster
    cases hsupported
  · rw [delivers_iff rfl]
    rintro ⟨e, c, a, hr, -, hreach⟩
    obtain rfl := List.mem_singleton.mp hr.endpoint
    exact absurd hreach (by decide)

/-- A commissioner may subscribe to everything, and gets the attribute. -/
theorem Node.hasAccessibleAttr_oneAttrNode :
    oneAttrNode.hasAccessibleAttr [] Sample.everything Sample.commissioner = true ∧
      oneAttrNode.Delivers [] Sample.everything Sample.commissioner false false := by
  have haccess : oneAttrNode.hasAccessibleAttr [] Sample.everything Sample.commissioner = true := by
    decide
  refine ⟨haccess, ((hasAccessibleAttr_agrees_iff rfl false false).mpr ?_).mp haccess⟩
  rintro ⟨-, hout⟩
  obtain ⟨e, c, a, hr⟩ := hasAccessibleAttr_iff.mp haccess
  rcases hout e c a hr with hnot | hnot
  · obtain rfl := List.mem_singleton.mp hr.endpoint
    obtain rfl := List.mem_singleton.mp hr.cluster
    cases hnot
  · cases hnot

end RsMatter
