import RsMatter.Fabric

/-!
# The data model of a node (`dm/types/node.rs`, `endpoint.rs`, `cluster.rs`)

A node has endpoints, an endpoint has clusters, and a cluster has attributes and
commands, of which an instance supports some. Access to an attribute or a command is
checked against its access flags and the access control lists of the fabrics.
-/

namespace RsMatter

/-- The status codes of the interaction model that a modelled function can return. -/
inductive IMStatusCode where
  | unsupportedAccess
  | unsupportedEndpoint
  | unsupportedCommand
  | unsupportedAttribute
  | unsupportedWrite
  | unsupportedRead
  | unsupportedCluster
  | needsTimedInteraction
  deriving DecidableEq

/-! ## Attributes, commands and clusters -/

abbrev Quality := BitVec 8

def Quality.array : Quality := 0x20#8

/-- The `contains` of a set of qualities. -/
def Quality.contains (a b : Quality) : Bool := a &&& b == b

structure Attribute where
  id : AttrId
  access : Access
  quality : Quality
  deriving DecidableEq

structure Command where
  id : CmdId
  respId : Option CmdId
  access : Access
  deriving DecidableEq

/-- A cluster: all that its specification knows, and what this instance supports of it. -/
structure Cluster where
  id : ClusterId
  revision : BitVec 16
  featureMap : BitVec 32
  allAttributes : List Attribute
  allCommands : List Command
  withAttrs : Attribute → BitVec 16 → BitVec 32 → Bool
  withCmds : Command → BitVec 16 → BitVec 32 → Bool

namespace Cluster

def attributes (c : Cluster) : List Attribute :=
  c.allAttributes.filter fun attr => c.withAttrs attr c.revision c.featureMap

def commands (c : Cluster) : List Command :=
  c.allCommands.filter fun cmd => c.withCmds cmd c.revision c.featureMap

def «attribute» (c : Cluster) (id : AttrId) : Option Attribute := c.attributes.find? (·.id == id)

def checkAttrAccess (c : Cluster) (fabrics : Fabrics) (accessor : Accessor) (timed : Bool)
    (path : GenericPath) (deviceTypes : List DeviceType) (write : Bool) (attrId : AttrId) :
    Except IMStatusCode Unit :=
  let operation := if write then Access.write else Access.read
  let targetPerms := ((c.allAttributes.find? (·.id == attrId)).map (·.access)).getD 0
  if write && !timed && targetPerms.contains Access.timedOnly then .error .needsTimedInteraction
  else if !targetPerms.contains operation then
    .error (if write then .unsupportedWrite else .unsupportedRead)
  else if Fabrics.allow fabrics ⟨accessor, path, some targetPerms, operation, deviceTypes⟩ then
    .ok ()
  else
    .error .unsupportedAccess

def checkCmdAccess (c : Cluster) (fabrics : Fabrics) (accessor : Accessor) (timed : Bool)
    (path : GenericPath) (deviceTypes : List DeviceType) (cmdId : CmdId) :
    Except IMStatusCode Unit :=
  let targetPerms := ((c.allCommands.find? (·.id == cmdId)).map (·.access)).getD 0
  if !timed && targetPerms.contains Access.timedOnly then .error .needsTimedInteraction
  else if targetPerms.contains Access.fabScoped && accessor.fabIdx == 0 then
    .error .unsupportedAccess
  else if Fabrics.allow fabrics ⟨accessor, path, some targetPerms, Access.write, deviceTypes⟩ then
    .ok ()
  else
    .error .unsupportedAccess

end Cluster

/-! ## Nodes -/

structure Endpoint where
  id : EndptId
  deviceTypes : List DeviceType
  clusters : List Cluster

/-- A node. Its documentation asks for ascending endpoint ids; positions within an endpoint
are 16-bit numbers. -/
structure Node where
  endpoints : List Endpoint
  ascending : endpoints.Pairwise (·.id < ·.id)
  /-- the clusters of an endpoint can be counted in 16 bits -/
  length_clusters : ∀ e ∈ endpoints, e.clusters.length < 2 ^ 16
  /-- and so can the attributes and commands of a cluster -/
  length_leaves : ∀ e ∈ endpoints, ∀ c ∈ e.clusters,
    c.attributes.length < 2 ^ 16 ∧ c.commands.length < 2 ^ 16

end RsMatter
