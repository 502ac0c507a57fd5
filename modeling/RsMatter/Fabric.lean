import RsMatter.Acl
import RsMatter.BoundedVec
import RsMatter.KeyedList
import RsMatter.Prog

/-!
# Fabrics (`fabric.rs`, `group_keys.rs`)

A fabric is an operational identity of the node with its access control list and its
groups; the node holds a bounded table of them. Certificates and keys are kept as the
bytes they are. Every operation that can fail is a `Prog`: what it changed before it
failed stays changed, as in the source.
-/

namespace RsMatter

open Prog

def maxFabrics : ℕ := 5

/-- How many entries the access control list of a fabric holds at most. -/
def maxAclEntriesPerFabric : ℕ := 4

def maxLabelLen : ℕ := 32

def maxCertTlvLen : ℕ := 400

/-- How many bytes a vendor verification statement has. -/
def vidVerificationStatementLen : ℕ := 85

/-- How many group key sets a fabric holds at most, with the `max-group-keys-per-fabric-5`
feature. -/
def maxGroupKeysPerFabric : ℕ := 5

/-- How many groups a fabric holds at most, with the `max-groups-per-fabric-12` feature. -/
def maxGroupsPerFabric : ℕ := 12

/-- How many endpoints a group has at most, with the `max-group-endpoints-per-fabric-5`
feature. -/
def groupEndpointsPerFabric : ℕ := 5

/-- How many bytes the name of a group has at most. -/
def maxGroupNameLen : ℕ := 16

def aeadCanonKeyLen : ℕ := 16

/-! ## Certificates and keys -/

/-- What fabrics ask of certificates and of the crypto library. -/
structure Crypto where
  /-- the node id in the subject of a certificate -/
  getNodeId : List UInt8 → Except ErrorCode (BitVec 64)
  /-- the fabric id in the subject of a certificate -/
  getFabricId : List UInt8 → Except ErrorCode (BitVec 64)
  pubkey : List UInt8 → Except ErrorCode (List UInt8)
  /-- is the certificate issued by its own subject? -/
  isSelfSigned : List UInt8 → Except ErrorCode Bool
  /-- check a chain of certificates, each signed by the next and the last by itself -/
  verifyChain : List (List UInt8) → Except ErrorCode Unit
  pubKeyOf : List UInt8 → Except ErrorCode (List UInt8)
  /-- the compressed id of a fabric, from the public key of its root and its id -/
  computeCompressedFabricId : List UInt8 → BitVec 64 → BitVec 64
  /-- the operational key of an epoch key in a fabric -/
  expandOpKey : List UInt8 → BitVec 64 → Except ErrorCode (List UInt8)

/-- An identity protection key with the operational key derived from it. -/
structure KeySet where
  epochKey : List UInt8
  opKey : List UInt8
  deriving DecidableEq

/-- Derive the operational key of an epoch key. -/
def KeySet.update (crypto : Crypto) (epochKey : List UInt8) (compressedFabricId : BitVec 64) :
    Except ErrorCode KeySet := do
  let opKey ← crypto.expandOpKey epochKey compressedFabricId
  return { epochKey, opKey }

/-! ## Groups -/

structure GroupEndpointMapping where
  groupId : BitVec 16
  endpoints : List EndptId
  groupName : String
  deriving DecidableEq

structure GroupKeyMapping where
  groupId : BitVec 16
  groupKeySetId : BitVec 16
  deriving DecidableEq

/-- A group key and the time from which on it is used. -/
structure GroupEpochKeyEntry where
  epochKey : List UInt8
  epochStartTime : BitVec 64
  deriving DecidableEq

structure GroupKeySet where
  groupKeySetId : BitVec 16
  groupKeySecurityPolicy : BitVec 8
  epochKeys : List GroupEpochKeyEntry
  deriving DecidableEq

structure Groups where
  keySets : List GroupKeySet
  keyMap : List GroupKeyMapping
  endpointMapping : List GroupEndpointMapping
  deriving DecidableEq

namespace Groups

def init : Groups := ⟨[], [], []⟩

def get (gs : Groups) (groupId : BitVec 16) : Option GroupEndpointMapping :=
  gs.endpointMapping.find? (·.groupId == groupId)

/-- Add a key set, or replace the one with its id. -/
def keySetAdd (entry : GroupKeySet) : Prog ErrorCode Groups Unit := do
  let gs ← Prog.get
  match modifyFirst (fun e => e.groupKeySetId == entry.groupKeySetId) (fun _ => entry) gs.keySets with
  | some keySets => Prog.modify ({ · with keySets })
  | none =>
    Prog.ensure (gs.keySets.length < maxGroupKeysPerFabric) .resourceExhausted
    Prog.modify fun gs => { gs with keySets := gs.keySets ++ [entry] }

/-- Remove a key set, and the mappings that use it even where there is no such set. -/
def keySetRemove (id : BitVec 16) : Prog ErrorCode Groups Unit := do
  let gs ← Prog.get
  let keySets := gs.keySets.filter (·.groupKeySetId != id)
  Prog.modify fun gs =>
    { gs with keySets, keyMap := gs.keyMap.filter (·.groupKeySetId != id) }
  Prog.ensure (keySets.length < gs.keySets.length) .notFound

def keyMapAdd (entry : GroupKeyMapping) : Prog ErrorCode Groups Unit := do
  let gs ← Prog.get
  Prog.ensure (gs.keyMap.length < maxGroupsPerFabric) .failure
  Prog.modify fun gs => { gs with keyMap := gs.keyMap ++ [entry] }

/-- Replace all mappings. Where there are too many, the first of them stay. -/
def keyMapReplace (entries : List GroupKeyMapping) : Prog ErrorCode Groups Unit := do
  Prog.modify ({ · with keyMap := entries.take maxGroupsPerFabric })
  Prog.ensure (entries.length ≤ maxGroupsPerFabric) .resourceExhausted

def updateEntry (groupId : BitVec 16) (f : GroupEndpointMapping → GroupEndpointMapping)
    (gs : Groups) : Groups :=
  { gs with
    endpointMapping :=
      (modifyFirst (·.groupId == groupId) f gs.endpointMapping).getD gs.endpointMapping }

/-- Add an endpoint to a group: `true` if it was in the group. The group gets the name in
any case. -/
def add (endpointId : EndptId) (groupId : BitVec 16) (groupName : String) :
    Prog ErrorCode Groups Bool := do
  let gs ← Prog.get
  Prog.onlyIf (gs.get groupId).isNone do
    Prog.ensure (gs.endpointMapping.length < maxGroupsPerFabric) .resourceExhausted
    Prog.modify fun gs =>
      { gs with endpointMapping := gs.endpointMapping ++ [⟨groupId, [], groupName⟩] }
  Prog.modify (updateEntry groupId ({ · with groupName }))
  let endpoints := ((gs.get groupId).map (·.endpoints)).getD []
  if endpoints.contains endpointId then
    return true
  else
    Prog.ensure (endpoints.length < groupEndpointsPerFabric) .resourceExhausted
    Prog.modify (updateEntry groupId fun e => { e with endpoints := e.endpoints ++ [endpointId] })
    return false

/-- Is an entry one of those an endpoint is to be removed from? -/
def isFor (groupId : Option (BitVec 16)) (e : GroupEndpointMapping) : Bool :=
  groupId.all (· == e.groupId)

/-- Remove an endpoint from a group, or from all of them: `true` if it was in one. Groups
without endpoints are dropped. -/
def remove (endpointId : EndptId) (groupId : Option (BitVec 16)) : Prog ErrorCode Groups Bool := do
  let gs ← Prog.get
  let mapping := gs.endpointMapping.map fun e =>
    if isFor groupId e then { e with endpoints := e.endpoints.filter (· != endpointId) } else e
  Prog.modify ({ · with endpointMapping := mapping.filter fun e => !e.endpoints.isEmpty })
  return gs.endpointMapping.any fun e => isFor groupId e && e.endpoints.contains endpointId

end Groups

/-! ## A fabric -/

structure Fabric where
  /-- its index on this node, not `0` -/
  fabIdx : ℕ
  nodeId : BitVec 64
  fabricId : BitVec 64
  vendorId : BitVec 16
  compressedFabricId : BitVec 64
  secretKey : List UInt8
  rootCa : List UInt8
  /-- the intermediate certificate, or the vendor verification certificate -/
  icacOrVvsc : List UInt8
  vvscSet : Bool
  noc : List UInt8
  ipk : KeySet
  label : List UInt8
  acl : List AclEntry
  groups : Groups
  vidVerificationStatement : List UInt8
  deriving DecidableEq

namespace Fabric

def init (fabIdx : ℕ) : Fabric where
  fabIdx := fabIdx
  nodeId := 0
  fabricId := 0
  vendorId := 0
  compressedFabricId := 0
  secretKey := []
  rootCa := []
  icacOrVvsc := []
  vvscSet := false
  noc := []
  ipk := ⟨[], []⟩
  label := []
  acl := []
  groups := .init
  vidVerificationStatement := []

/-- The intermediate certificate, empty where there is none. -/
def icac (f : Fabric) : List UInt8 := if f.vvscSet then [] else f.icacOrVvsc

/-- Put a byte string of at most `max` bytes where `put` says. The old one is gone even if
the new one is too long. -/
def load (put : Fabric → List UInt8 → Fabric) (max : ℕ) (data : List UInt8) (e : ErrorCode) :
    Prog ErrorCode Fabric Unit := do
  Prog.modify (put · [])
  Prog.ensure (data.length ≤ max) e
  Prog.modify (put · data)

/-- The only entry of the access control list of a new fabric. -/
def adminEntry (fabIdx : ℕ) (caseAdminSubject : BitVec 64) : Except ErrorCode AclEntry :=
  (AclEntry.new (some fabIdx) .admin .case).addSubject caseAdminSubject

/-- Give the fabric its identity. The certificates are replaced first, our secret key last;
a certificate that does not parse leaves what has been replaced until then. -/
def update (crypto : Crypto) (rootCa : Option (List UInt8)) (noc icac secretKey : List UInt8)
    (epochKey : Option (List UInt8)) (vendorId : Option (BitVec 16))
    (caseAdminSubject : Option (BitVec 64)) : Prog ErrorCode Fabric Unit := do
  Prog.whenSome rootCa fun rootCa =>
    load (fun f b => { f with rootCa := b }) maxCertTlvLen rootCa .bufferTooSmall
  load (fun f b => { f with icacOrVvsc := b }) maxCertTlvLen icac .bufferTooSmall
  Prog.modify ({ · with vvscSet := false })
  load (fun f b => { f with noc := b }) maxCertTlvLen noc .bufferTooSmall
  let nodeId ← Prog.ofExcept (crypto.getNodeId noc)
  Prog.modify ({ · with nodeId })
  let fabricId ← Prog.ofExcept (crypto.getFabricId noc)
  Prog.modify ({ · with fabricId })
  let f ← Prog.get
  let rootPubkey ← Prog.ofExcept (crypto.pubkey f.rootCa)
  let compressedFabricId := crypto.computeCompressedFabricId rootPubkey fabricId
  Prog.modify ({ · with compressedFabricId })
  Prog.whenSome epochKey fun epochKey => do
    let ipk ← Prog.ofExcept (KeySet.update crypto epochKey compressedFabricId)
    Prog.modify ({ · with ipk })
  Prog.whenSome vendorId fun vendorId =>
    Prog.modify ({ · with vendorId })
  Prog.whenSome caseAdminSubject fun caseAdminSubject => do
    Prog.modify ({ · with acl := [] })
    let entry ← Prog.ofExcept (adminEntry f.fabIdx caseAdminSubject)
    Prog.modify ({ · with acl := [entry] })
  Prog.modify ({ · with secretKey })

/-- Set the vendor id, the vendor verification statement and certificate; `none` leaves one
as it is, an empty one clears it. An empty certificate leaves an intermediate one alone. -/
def setVidVerification (vendorId : Option (BitVec 16)) (statement vvsc : Option (List UInt8)) :
    Prog ErrorCode Fabric Unit := do
  Prog.whenSome vendorId fun vendorId =>
    Prog.modify ({ · with vendorId })
  Prog.whenSome statement fun statement =>
    load (fun f b => { f with vidVerificationStatement := b }) vidVerificationStatementLen statement
      .bufferTooSmall
  Prog.whenSome vvsc fun vvsc => do
    let f ← Prog.get
    if vvsc.isEmpty then
      Prog.onlyIf f.vvscSet (Prog.modify ({ · with icacOrVvsc := [], vvscSet := false }))
    else
      load (fun f b => { f with icacOrVvsc := b }) maxCertTlvLen vvsc .bufferTooSmall
      Prog.modify ({ · with vvscSet := true })

/-- Add an entry to the access control list. It may not be one for commissioning. -/
def aclAdd (entry : AclEntry) : Prog ErrorCode Fabric Unit := do
  Prog.ensure (entry.authMode ≠ .pase) .constraintError
  let f ← Prog.get
  Prog.ensure (f.acl.length < maxAclEntriesPerFabric) .resourceExhausted
  Prog.modify ({ · with acl := f.acl ++ [{ entry with fabIdx := some f.fabIdx }] })

/-- Add an entry that has yet to be initialised. -/
def aclAddInit (entry : Except ErrorCode AclEntry) : Prog ErrorCode Fabric Unit := do
  let f ← Prog.get
  Prog.ensure (f.acl.length < maxAclEntriesPerFabric) .resourceExhausted
  let entry ← Prog.ofExcept entry
  Prog.modify ({ · with acl := f.acl ++ [{ entry with fabIdx := some f.fabIdx }] })

/-- Replace an entry of the access control list. -/
def aclUpdate (idx : ℕ) (entry : AclEntry) : Prog ErrorCode Fabric Unit := do
  let f ← Prog.get
  Prog.ensure (idx < f.acl.length) .notFound
  Prog.modify ({ · with acl := f.acl.set idx { entry with fabIdx := some f.fabIdx } })

/-- Replace an entry by one that has yet to be initialised. -/
def aclUpdateInit (idx : ℕ) (entry : Except ErrorCode AclEntry) : Prog ErrorCode Fabric Unit := do
  let f ← Prog.get
  Prog.ensure (idx < f.acl.length) .notFound
  let entry ← Prog.ofExcept entry
  Prog.modify ({ · with acl := f.acl.set idx { entry with fabIdx := some f.fabIdx } })

/-- Remove an entry of the access control list. -/
def aclRemove (idx : ℕ) : Prog ErrorCode Fabric Unit := do
  let f ← Prog.get
  Prog.ensure (idx < f.acl.length) .notFound
  Prog.modify ({ · with acl := f.acl.eraseIdx idx })

/-- Remove all entries of the access control list. -/
def aclRemoveAll : Prog ErrorCode Fabric Unit := Prog.modify ({ · with acl := [] })

def groupsMut {α : Type} (edit : Prog ErrorCode Groups α) : Prog ErrorCode Fabric α :=
  Prog.zoom groups (fun f groups => { f with groups }) edit

/-- Does some entry of the access control list grant the request? -/
def allow (f : Fabric) (req : AccessReq) : Bool := f.acl.any (·.allow req)

end Fabric

/-! ## The fabric table -/

/-- The fabrics of the node, in the order they were added. -/
abbrev Fabrics := List Fabric

namespace Fabrics

def get (fs : Fabrics) (fabIdx : ℕ) : Option Fabric := lookup Fabric.fabIdx fs fabIdx

def fabricMut {α : Type} (fabIdx : ℕ) (edit : Prog ErrorCode Fabric α) :
    Prog ErrorCode Fabrics α := fun fs =>
  match Fabrics.get fs fabIdx with
  | none => (fs, .error .notFound)
  | some fabric =>
    match edit.run fabric with
    | (fabric, r) => (replaceKey Fabric.fabIdx fs fabIdx fabric, r)

/-- The index of the next fabric: one more than the largest in use, and where that one is
`254` the first free one. -/
def nextFabIdx (fs : Fabrics) : Option ℕ :=
  let maxFabIdx := (fs.map Fabric.fabIdx).foldl max 0
  if maxFabIdx < 254 then some (maxFabIdx + 1)
  else (List.range' 1 254).find? fun i => fs.all (·.fabIdx != i)

/-- Add a fabric. One that fails to initialise is not added. -/
def addWithPostInit (postInit : Prog ErrorCode Fabric Unit) : Prog ErrorCode Fabrics Fabric := fun fs =>
  match nextFabIdx fs with
  | none => (fs, .error .resourceExhausted)
  | some fabIdx =>
    if fs.length < maxFabrics then
      match postInit.run (Fabric.init fabIdx) with
      | (fabric, .ok ()) => (fs ++ [fabric], .ok fabric)
      | (_, .error e) => (fs, .error e)
    else
      (fs, .error .resourceExhausted)

def add (crypto : Crypto) (secretKey rootCa noc icac epochKey : List UInt8) (vendorId : BitVec 16)
    (caseAdminSubject : BitVec 64) : Prog ErrorCode Fabrics Fabric :=
  addWithPostInit
    (Fabric.update crypto (some rootCa) noc icac secretKey (some epochKey) (some vendorId)
      (some caseAdminSubject))

/-- Give a fabric a new identity under its old root. -/
def update (crypto : Crypto) (fabIdx : ℕ) (secretKey noc icac : List UInt8) :
    Prog ErrorCode Fabrics Unit :=
  fabricMut fabIdx (Fabric.update crypto none noc icac secretKey none none none)

def updateLabel (fabIdx : ℕ) (label : List UInt8) : Prog ErrorCode Fabrics Unit := do
  let fs ← Prog.get
  Prog.ensure
    (¬ fs.any fun fabric => fabric.fabIdx != fabIdx && !fabric.label.isEmpty && fabric.label == label)
    .invalid
  fabricMut fabIdx (Fabric.load (fun f b => { f with label := b }) maxLabelLen label .constraintError)

def remove (fabIdx : ℕ) : Prog ErrorCode Fabrics Unit := do
  let fs ← Prog.get
  Prog.ensure (Fabrics.get fs fabIdx).isSome .notFound
  Prog.modify (removeKey Fabric.fabIdx · fabIdx)

/-- Take over a fabric that has been read from storage, if there is one. -/
def addLoad (data : Option Fabric) : Prog ErrorCode Fabrics Unit :=
  Prog.whenSome data fun fabric => do
    let fs ← Prog.get
    Prog.ensure (fs.length < maxFabrics) .resourceExhausted
    Prog.modify (· ++ [fabric])

/-- Is a request granted? A session that commissions the node is granted everything. -/
def allow (fs : Fabrics) (req : AccessReq) : Bool :=
  if req.accessor.authMode = some .pase then true
  else if req.accessor.fabIdx = 0 then false
  else
    match Fabrics.get fs req.accessor.fabIdx with
    | none => false
    | some fabric => fabric.allow req

end Fabrics

/-- Is an endpoint accessible at all? To a group, only its own endpoints are. -/
def Accessor.isEndpointAccessible (a : Accessor) (fabrics : Fabrics) (endpointId : EndptId) : Bool :=
  if a.authMode ≠ some .group then true
  else
    let groupId := a.subjects.first.setWidth 16
    if a.fabIdx = 0 then false
    else
      match Fabrics.get fabrics a.fabIdx with
      | none => false
      | some fabric => (fabric.groups.get groupId).any (·.endpoints.contains endpointId)

/-! ## No operation moves a fabric to another index -/

namespace Fabric

variable {put : Fabric → List UInt8 → Fabric} {γ : Type}

theorem keeps_load {v : Fabric → γ}
    (h : ∀ f b, v (put f b) = v f) (max : ℕ) (data : List UInt8) (e : ErrorCode) :
    Keeps v (load put max data e) :=
  keeps_bind (keeps_modify fun f => h f _) fun _ =>
    keeps_bind (keeps_ensure _ _) fun _ => keeps_modify fun f => h f _

theorem keeps_update_rest (crypto : Crypto) (rootCa : Option (List UInt8)) (noc icac secretKey : List UInt8)
    (epochKey : Option (List UInt8)) (vendorId : Option (BitVec 16))
    (caseAdminSubject : Option (BitVec 64)) :
    Keeps (fun f => ((f.fabIdx, f.groups), f.label))
      (update crypto rootCa noc icac secretKey epochKey vendorId caseAdminSubject) := by
  refine keeps_bind (keeps_whenSome _ fun _ => keeps_load (by intros; rfl) _ _ _) fun _ => ?_
  refine keeps_bind (keeps_load (by intros; rfl) _ _ _) fun _ => ?_
  refine keeps_bind (keeps_modify fun _ => rfl) fun _ => ?_
  refine keeps_bind (keeps_load (by intros; rfl) _ _ _) fun _ => ?_
  refine keeps_bind (keeps_ofExcept _) fun nodeId => keeps_bind (keeps_modify fun _ => rfl) fun _ => ?_
  refine keeps_bind (keeps_ofExcept _) fun fabricId => keeps_bind (keeps_modify fun _ => rfl) fun _ => ?_
  refine keeps_bind keeps_get fun f => keeps_bind (keeps_ofExcept _) fun pubkey => ?_
  refine keeps_bind (keeps_modify fun _ => rfl) fun _ => ?_
  refine keeps_bind (keeps_whenSome _ fun _ => ?_) fun _ => ?_
  · exact keeps_bind (keeps_ofExcept _) fun _ => keeps_modify fun _ => rfl
  refine keeps_bind (keeps_whenSome _ fun _ => keeps_modify fun _ => rfl) fun _ => ?_
  refine keeps_bind (keeps_whenSome _ fun _ => ?_) fun _ => keeps_modify fun _ => rfl
  refine keeps_bind (keeps_modify fun _ => rfl) fun _ => ?_
  exact keeps_bind (keeps_ofExcept _) fun _ => keeps_modify fun _ => rfl

theorem keeps_update_groups (crypto : Crypto) (rootCa : Option (List UInt8)) (noc icac secretKey : List UInt8)
    (epochKey : Option (List UInt8)) (vendorId : Option (BitVec 16))
    (caseAdminSubject : Option (BitVec 64)) :
    Keeps (fun f => (f.fabIdx, f.groups))
      (update crypto rootCa noc icac secretKey epochKey vendorId caseAdminSubject) :=
  fun f => congrArg Prod.fst
    (keeps_update_rest crypto rootCa noc icac secretKey epochKey vendorId caseAdminSubject f)

theorem keeps_update (crypto : Crypto) (rootCa : Option (List UInt8)) (noc icac secretKey : List UInt8)
    (epochKey : Option (List UInt8)) (vendorId : Option (BitVec 16))
    (caseAdminSubject : Option (BitVec 64)) :
    Keeps fabIdx (update crypto rootCa noc icac secretKey epochKey vendorId caseAdminSubject) :=
  fun f => congrArg Prod.fst
    (keeps_update_groups crypto rootCa noc icac secretKey epochKey vendorId caseAdminSubject f)

theorem keeps_setVidVerification {v : Fabric → γ}
    (h : ∀ f vendorId vidVerificationStatement icacOrVvsc vvscSet,
      v { f with vendorId, vidVerificationStatement, icacOrVvsc, vvscSet } = v f)
    (vendorId : Option (BitVec 16)) (statement vvsc : Option (List UInt8)) :
    Keeps v (setVidVerification vendorId statement vvsc) := by
  refine keeps_bind (keeps_whenSome _ fun _ => keeps_modify fun f => h f _ _ _ _) fun _ => ?_
  refine keeps_bind (keeps_whenSome _ fun _ => keeps_load (fun f _ => h f _ _ _ _) _ _ _) fun _ => ?_
  refine keeps_whenSome _ fun vvsc => keeps_bind keeps_get fun f => ?_
  by_cases hempty : vvsc.isEmpty = true
  · rw [if_pos hempty]
    exact keeps_onlyIf _ (keeps_modify fun f => h f _ _ _ _)
  · rw [if_neg hempty]
    exact keeps_bind (keeps_load (fun f _ => h f _ _ _ _) _ _ _) fun _ => keeps_modify fun f => h f _ _ _ _

theorem run_setVidVerification {statement vvsc : Option (List UInt8)} (vendorId : Option (BitVec 16))
    (hstatement : ∀ s ∈ statement, s.length ≤ vidVerificationStatementLen)
    (hvvsc : ∀ v ∈ vvsc, v.length ≤ maxCertTlvLen) (f : Fabric) :
    ((setVidVerification vendorId statement vvsc).run f).2 = .ok () := by
  have hload : ∀ (put : Fabric → List UInt8 → Fabric) {max : ℕ} {data : List UInt8} {e : ErrorCode},
      data.length ≤ max → ∀ f, ∃ f', (load put max data e).run f = (f', .ok ()) := by
    intro put max data e hlen f
    exact ⟨_, by rw [load, run_bind_of_ok (run_modify _ _), run_bind_of_ok (run_ensure_of_pos hlen _ _),
      run_modify]⟩
  have hvendor : ∃ f₁, (whenSome vendorId fun vendorId => modify ({ · with vendorId }) :
      Prog ErrorCode Fabric Unit).run f = (f₁, .ok ()) := by
    cases vendorId with
    | none => exact ⟨f, rfl⟩
    | some vendorId => exact ⟨_, rfl⟩
  obtain ⟨f₁, hvendor⟩ := hvendor
  have hstat : ∃ f₂, (whenSome statement fun statement =>
      load (fun f b => { f with vidVerificationStatement := b }) vidVerificationStatementLen statement
        .bufferTooSmall).run f₁ = (f₂, .ok ()) := by
    cases statement with
    | none => exact ⟨f₁, rfl⟩
    | some statement => exact hload _ (hstatement statement rfl) f₁
  obtain ⟨f₂, hstat⟩ := hstat
  rw [setVidVerification, run_bind_of_ok hvendor, run_bind_of_ok hstat]
  cases vvsc with
  | none => rfl
  | some vvsc =>
    rw [whenSome, run_bind_of_ok (run_get f₂)]
    by_cases hempty : vvsc.isEmpty = true
    · rw [if_pos hempty, onlyIf]
      split_ifs
      · rfl
      · rfl
    · obtain ⟨f₃, hload⟩ := hload (fun f b => { f with icacOrVvsc := b }) (e := .bufferTooSmall)
        (hvvsc vvsc rfl) f₂
      rw [if_neg hempty, run_bind_of_ok hload, run_modify]

theorem keeps_aclAddInit {v : Fabric → γ} (h : ∀ f acl, v { f with acl } = v f)
    (entry : Except ErrorCode AclEntry) : Keeps v (aclAddInit entry) :=
  keeps_bind keeps_get fun _ => keeps_bind (keeps_ensure _ _) fun _ =>
    keeps_bind (keeps_ofExcept _) fun _ => keeps_modify fun f => h f _

theorem keeps_aclUpdateInit {v : Fabric → γ} (h : ∀ f acl, v { f with acl } = v f) (idx : ℕ)
    (entry : Except ErrorCode AclEntry) : Keeps v (aclUpdateInit idx entry) :=
  keeps_bind keeps_get fun _ => keeps_bind (keeps_ensure _ _) fun _ =>
    keeps_bind (keeps_ofExcept _) fun _ => keeps_modify fun f => h f _

theorem keeps_aclRemove {v : Fabric → γ} (h : ∀ f acl, v { f with acl } = v f) (idx : ℕ) :
    Keeps v (aclRemove idx) :=
  keeps_bind keeps_get fun _ => keeps_bind (keeps_ensure _ _) fun _ => keeps_modify fun f => h f _

theorem keeps_groupsMut {γ α : Type} {v : Fabric → γ} (h : ∀ f groups, v { f with groups } = v f)
    (edit : Prog ErrorCode Groups α) : Keeps v (groupsMut edit) := fun f => h f _

theorem load_ok {max : ℕ} {data : List UInt8} {e : ErrorCode}
    {f f' : Fabric} {u : Unit} :
    (load put max data e).run f = (f', .ok u) ↔ data.length ≤ max ∧ f' = put (put f []) data := by
  simp only [load, run_bind_eq_ok, run_modify_eq_ok, run_ensure_eq_ok]
  constructor
  · rintro ⟨_, _, rfl, _, _, ⟨hlen, rfl⟩, rfl⟩
    exact ⟨hlen, rfl⟩
  · rintro ⟨hlen, rfl⟩
    exact ⟨_, (), rfl, _, (), ⟨hlen, rfl⟩, rfl⟩

theorem load_error {max : ℕ} {data : List UInt8} {e : ErrorCode}
    {f : Fabric} (h : ¬ data.length ≤ max) : (load put max data e).run f = (put f [], .error e) := by
  rw [load, run_bind_of_ok (run_modify _ _), run_bind_of_error (run_ensure_of_neg h _ _)]

/-- The certificates of a fabric and what is taken from them. -/
def certificates (f : Fabric) :
    List UInt8 × List UInt8 × Bool × List UInt8 × BitVec 64 × BitVec 64 :=
  (f.noc, f.icacOrVvsc, f.vvscSet, f.rootCa, f.nodeId, f.fabricId)

theorem update_ok {crypto : Crypto} {rootCa : Option (List UInt8)} {noc icac secretKey : List UInt8}
    {epochKey : Option (List UInt8)} {vendorId : Option (BitVec 16)}
    {caseAdminSubject : Option (BitVec 64)} {f f' : Fabric} {u : Unit}
    (h : (update crypto rootCa noc icac secretKey epochKey vendorId caseAdminSubject).run f =
      (f', .ok u)) :
    f'.noc = noc ∧ f'.icac = icac ∧ f'.rootCa = rootCa.getD f.rootCa ∧ f'.secretKey = secretKey ∧
      crypto.getNodeId noc = .ok f'.nodeId ∧ crypto.getFabricId noc = .ok f'.fabricId ∧
      ∃ pub, crypto.pubkey f'.rootCa = .ok pub := by
  rw [update] at h
  simp only [run_bind_eq_ok, run_modify_eq_ok, run_ofExcept_eq_ok, run_get_eq_ok, load_ok] at h
  obtain ⟨f₁, _, hroot, f₂, _, ⟨-, hicac⟩, f₃, _, hvvsc, f₄, _, ⟨-, hnoc⟩, f₅, nodeId, ⟨hnode, hf₅⟩, h⟩ := h
  obtain ⟨f₆, _, hsetNode, f₇, fabricId, ⟨hfabric, hf₇⟩, f₈, _, hsetFabric, f₉, g, ⟨hf₉, hg⟩, h⟩ := h
  obtain ⟨f₁₀, pub, ⟨hpub, hf₁₀⟩, f₁₁, _, hsetId, f₁₂, _, hkey, f₁₃, _, hvendor, f₁₄, _, hadmin, hsecret⟩ := h
  have hroot : f₁.rootCa = rootCa.getD f.rootCa := by
    cases rootCa with
    | none =>
      cases hroot
      rfl
    | some rootCa =>
      rw [whenSome, load_ok] at hroot
      rw [hroot.2]
      rfl
  have hbefore : certificates f₈ = (noc, icac, false, f₁.rootCa, nodeId, fabricId) := by
    rw [hsetFabric, hf₇, hsetNode, hf₅, hnoc, hvvsc, hicac]
    rfl
  -- what comes between the certificates and the key leaves the certificates alone
  have hkey : certificates f₁₂ = certificates f₁₁ := kept_of_run hkey <|
    keeps_whenSome _ fun _ => keeps_bind (keeps_ofExcept _) fun _ => keeps_modify fun _ => rfl
  have hvendor : certificates f₁₃ = certificates f₁₂ := kept_of_run hvendor <|
    keeps_whenSome _ fun _ => keeps_modify fun _ => rfl
  have hadmin : certificates f₁₄ = certificates f₁₃ := kept_of_run hadmin <|
    keeps_whenSome _ fun _ => keeps_bind (keeps_modify fun _ => rfl) fun _ =>
      keeps_bind (keeps_ofExcept _) fun _ => keeps_modify fun _ => rfl
  have hid : certificates f₁₁ = certificates f₈ := by
    rw [hsetId, hf₁₀, hf₉]
    rfl
  have hcerts : certificates f' = (noc, icac, false, f₁.rootCa, nodeId, fabricId) := by
    calc
      certificates f' = certificates f₁₄ := by rw [hsecret]; rfl
      _ = certificates f₈ := hadmin.trans (hvendor.trans (hkey.trans hid))
      _ = _ := hbefore
  rw [hg] at hpub
  simp only [certificates, Prod.mk.injEq] at hcerts hbefore
  obtain ⟨hnoc, hicac, hvvsc, hrootCa, rfl, rfl⟩ := hcerts
  refine ⟨hnoc, ?_, hrootCa.trans hroot, ?_, hnode, hfabric, pub, ?_⟩
  · rw [Fabric.icac, hvvsc, hicac]
    rfl
  · rw [hsecret]
  · rw [hrootCa, ← hbefore.2.2.2.1, hpub]

/-- The keys and certificates of a fabric, and what is taken from them. -/
def identity (f : Fabric) : List UInt8 × List UInt8 × List UInt8 × List UInt8 × BitVec 64 × BitVec 64 :=
  (f.secretKey, f.noc, f.icac, f.rootCa, f.nodeId, f.fabricId)

/-- A vendor verification certificate takes the place of an intermediate certificate, if there is
none. -/
theorem identity_loadVvsc {f : Fabric} (h : f.icac = []) (vvsc : List UInt8) :
    ((do load (fun f b => { f with icacOrVvsc := b }) maxCertTlvLen vvsc .bufferTooSmall
         modify ({ · with vvscSet := true }) : Prog ErrorCode Fabric Unit).run f).1.identity =
      f.identity := by
  by_cases hlen : vvsc.length ≤ maxCertTlvLen
  · rw [run_bind_of_ok ((load_ok (u := ())).mpr ⟨hlen, rfl⟩), run_modify]
    simp only [identity, h, Prod.mk.injEq, true_and, and_true]
    rfl
  · rw [run_bind_of_error (load_error hlen)]
    simp only [identity, h, Prod.mk.injEq, true_and, and_true]
    simp only [icac, ite_self]

theorem identity_setVidVerification {vendorId : Option (BitVec 16)} {statement vvsc : Option (List UInt8)}
    {f : Fabric} (h : ∀ v ∈ vvsc, v = [] ∨ f.icac = []) :
    ((setVidVerification vendorId statement vvsc).run f).1.identity = f.identity := by
  -- the certificate comes last; what comes before it leaves the identity alone
  have hmaintains : Maintains (fun f' : Fabric => f'.identity = f.identity)
      (setVidVerification vendorId statement vvsc) := by
    refine maintains_bind (maintains_of_keeps (f := identity)
      (keeps_whenSome _ fun _ => keeps_modify fun _ => rfl) fun s t ht hs => ht.trans hs) fun _ => ?_
    refine maintains_bind (maintains_of_keeps (f := identity)
      (keeps_whenSome _ fun _ => keeps_load (by intros; rfl) _ _ _) fun s t ht hs => ht.trans hs)
      fun _ => ?_
    refine maintains_whenSome fun v hv f' hf' => ?_
    rw [run_bind_of_ok (run_get f')]
    by_cases hempty : v.isEmpty = true
    · rw [if_pos hempty, onlyIf]
      split_ifs with hset
      · rw [run_modify, ← hf']
        simp only [identity, Prod.mk.injEq, true_and, and_true]
        rw [icac, icac, if_pos hset]
        exact ite_self _
      · exact hf'
    · rw [if_neg hempty, ← hf']
      refine identity_loadVvsc ?_ v
      simp only [identity, Prod.mk.injEq] at hf'
      rw [hf'.2.2.1]
      exact (h v hv).resolve_left fun hnil => hempty (hnil ▸ rfl)
  exact hmaintains f rfl

end Fabric

/-! ## What the operations do to the table -/

namespace Fabrics

variable {fs fs' : Fabrics} {fabIdx : ℕ}

theorem fabIdx_of_get {fabric : Fabric} (h : Fabrics.get fs fabIdx = some fabric) :
    fabric.fabIdx = fabIdx := key_of_lookup h

theorem le_foldl_max (l : List ℕ) (a : ℕ) : a ≤ l.foldl max a ∧ ∀ i ∈ l, i ≤ l.foldl max a := by
  induction l generalizing a with
  | nil => simp
  | cons x l ih =>
    obtain ⟨ha, hl⟩ := ih (max a x)
    refine ⟨(le_max_left a x).trans ha, fun i hi => ?_⟩
    rcases List.mem_cons.mp hi with rfl | hi
    · exact (le_max_right a i).trans ha
    · exact hl i hi

theorem nextFabIdx_spec (h : nextFabIdx fs = some fabIdx) :
    Fabrics.get fs fabIdx = none ∧ 1 ≤ fabIdx ∧ fabIdx ≤ 254 := by
  obtain ⟨-, hmax⟩ := le_foldl_max (fs.map Fabric.fabIdx) 0
  rw [nextFabIdx] at h
  by_cases hlt : (fs.map Fabric.fabIdx).foldl max 0 < 254
  · rw [if_pos hlt, Option.some_inj] at h
    subst h
    refine ⟨lookup_eq_none.mpr fun hmem => ?_, by omega, by omega⟩
    have := hmax _ hmem
    omega
  · rw [if_neg hlt] at h
    have hmem := List.mem_of_find?_eq_some h
    have hfree := List.find?_some h
    rw [List.mem_range'_1] at hmem
    refine ⟨lookup_eq_none.mpr fun hin => ?_, hmem.1, by omega⟩
    obtain ⟨fabric, hfabric, rfl⟩ := List.mem_map.mp hin
    rw [List.all_eq_true] at hfree
    simpa using hfree fabric hfabric

/-- Working on a fabric either finds none or replaces it in its place. -/
theorem fabricMut_cases {α : Type} {edit : Prog ErrorCode Fabric α} (hedit : Prog.Keeps Fabric.fabIdx edit)
    {r : Except ErrorCode α} (h : (fabricMut fabIdx edit).run fs = (fs', r)) :
    (Fabrics.get fs fabIdx = none ∧ fs' = fs ∧ r = .error .notFound) ∨
      ∃ fabric fabric', Fabrics.get fs fabIdx = some fabric ∧ edit.run fabric = (fabric', r) ∧
        fabric'.fabIdx = fabIdx ∧ fs' = replaceKey Fabric.fabIdx fs fabIdx fabric' := by
  rw [Prog.run, fabricMut] at h
  cases hget : Fabrics.get fs fabIdx with
  | none =>
    rw [hget] at h
    simp only [Prod.mk.injEq] at h
    exact .inl ⟨rfl, h.1.symm, h.2.symm⟩
  | some fabric =>
    rw [hget] at h
    dsimp only at h
    rcases hrun : edit.run fabric with ⟨fabric', r'⟩
    rw [hrun] at h
    simp only [Prod.mk.injEq] at h
    obtain ⟨rfl, rfl⟩ := h
    refine .inr ⟨fabric, fabric', rfl, hrun, ?_, rfl⟩
    have hkeep := hedit fabric
    rw [hrun] at hkeep
    exact hkeep.trans (fabIdx_of_get hget)

theorem updateLabel_cases (fs : Fabrics) (fabIdx : ℕ) (label : List UInt8) :
    (updateLabel fabIdx label).run fs = (fs, .error .invalid) ∨
      (updateLabel fabIdx label).run fs =
        (fabricMut fabIdx
          (Fabric.load (fun f b => { f with label := b }) maxLabelLen label .constraintError)).run fs := by
  rw [updateLabel, run_bind_of_ok (run_get fs)]
  by_cases h : ¬ fs.any fun fabric =>
      fabric.fabIdx != fabIdx && !fabric.label.isEmpty && fabric.label == label
  · exact .inr (run_bind_of_ok (run_ensure_of_pos h _ _))
  · exact .inl (run_bind_of_error (run_ensure_of_neg h _ _))

theorem run_remove (fs : Fabrics) (fabIdx : ℕ) :
    (remove fabIdx).run fs =
      if (Fabrics.get fs fabIdx).isSome then (removeKey Fabric.fabIdx fs fabIdx, .ok ())
      else (fs, .error .notFound) := by
  rw [remove, run_bind_of_ok (run_get fs)]
  by_cases h : (Fabrics.get fs fabIdx).isSome
  · rw [run_bind_of_ok (run_ensure_of_pos h _ _), if_pos h, run_modify]
  · rw [run_bind_of_error (run_ensure_of_neg h _ _), if_neg h]

/-- Adding either fails and changes nothing, or appends a fabric with a free index. -/
theorem addWithPostInit_cases {postInit : Prog ErrorCode Fabric Unit}
    (hinit : Prog.Keeps Fabric.fabIdx postInit) {r : Except ErrorCode Fabric}
    (h : (addWithPostInit postInit).run fs = (fs', r)) :
    (∃ e, r = .error e ∧ fs' = fs) ∨
      ∃ fabric, r = .ok fabric ∧ fs' = fs ++ [fabric] ∧ Fabrics.get fs fabric.fabIdx = none ∧
        1 ≤ fabric.fabIdx ∧ fabric.fabIdx ≤ 254 ∧ fs.length < maxFabrics := by
  rw [Prog.run, addWithPostInit] at h
  cases hnext : nextFabIdx fs with
  | none =>
    rw [hnext] at h
    simp only [Prod.mk.injEq] at h
    exact .inl ⟨_, h.2.symm, h.1.symm⟩
  | some fabIdx =>
    rw [hnext] at h
    simp only at h
    by_cases hlen : fs.length < maxFabrics
    · rw [if_pos hlen] at h
      have hkeep := hinit (Fabric.init fabIdx)
      rcases hrun : postInit.run (Fabric.init fabIdx) with ⟨fabric, r'⟩
      rw [hrun] at hkeep
      rw [hrun] at h
      cases r' with
      | error e =>
        simp only [Prod.mk.injEq] at h
        exact .inl ⟨e, h.2.symm, h.1.symm⟩
      | ok _ =>
        simp only [Prod.mk.injEq] at h
        have hidx : fabric.fabIdx = fabIdx := hkeep
        subst hidx
        obtain ⟨hfree, hlo, hhi⟩ := nextFabIdx_spec hnext
        exact .inr ⟨fabric, h.2.symm, h.1.symm, hfree, hlo, hhi, hlen⟩
    · rw [if_neg hlen] at h
      simp only [Prod.mk.injEq] at h
      exact .inl ⟨_, h.2.symm, h.1.symm⟩

theorem addWithPostInit_ok {postInit : Prog ErrorCode Fabric Unit} {fabric : Fabric}
    (h : (addWithPostInit postInit).run fs = (fs', .ok fabric)) :
    fs' = fs ++ [fabric] ∧ ∃ fabIdx, nextFabIdx fs = some fabIdx ∧
      postInit.run (Fabric.init fabIdx) = (fabric, .ok ()) := by
  rw [Prog.run, addWithPostInit] at h
  split at h
  · cases h
  · next fabIdx hnext =>
    split_ifs at h
    · split at h
      · next fabric' hrun =>
        obtain ⟨rfl, hok⟩ := Prod.mk.inj h
        cases hok
        exact ⟨rfl, fabIdx, hnext, hrun⟩
      · cases h
    · cases h

theorem run_addLoad (data : Option Fabric) (h : fs.length < maxFabrics) :
    (addLoad data).run fs = (fs ++ data.toList, .ok ()) := by
  cases data with
  | none => simp [addLoad, Prog.whenSome]
  | some fabric =>
    rw [addLoad, Prog.whenSome]
    rw [run_bind_of_ok (run_get fs), run_bind_of_ok (run_ensure_of_pos h _ _)]
    rfl

end Fabrics

end RsMatter
