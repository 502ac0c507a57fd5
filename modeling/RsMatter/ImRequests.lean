import RsMatter.Events
import RsMatter.ExpandPanic
import RsMatter.TlvIter

/-!
# The requests of the interaction model (`im/attr.rs`, `im/invoke.rs`, `dm/types/node.rs`)

A request is kept as the bytes it came in. Its arrays are looked up when they are asked
for, and opened only by their iterators, which unwrap. An optional array comes from
`FromTLV`, which does not look at the element at all; `write_requests` is mandatory and
checked to be an array, but an element that is not there passes the check as well. So a
request is read without a panic exactly if its arrays, where present, can be opened, and
the mandatory one is present.

A structural error does not move an iterator on: asked again, it gives the same error.
-/

namespace RsMatter

namespace Panicking

open Stop

/-! ## Items -/

/-- `Nullable::<u16>::from_tlv`: the greatest number is not in the range. -/
def nullableU16 (elem : List UInt8) : Except (Stop ErrorCode) (Option (BitVec 16)) := do
  let c ← lift (TLVSequence.control elem)
  if c.valueType = .null then return none
  else do
    let value ← u16 elem
    if value = BitVec.allOnes 16 then .error (.error .constraintError) else return some value

/-- `AttrPath::from_tlv`. -/
def attrPathFromTlv (elem : List UInt8) : Except (Stop ErrorCode) AttrPath := do
  let seq ← list elem
  let (_, seq) ← field 0 (optional bool) seq
  let (node, seq) ← field 1 (optional u64) seq
  let (endpoint, seq) ← field 2 (optional u16) seq
  let (cluster, seq) ← field 3 (optional u32) seq
  let (attr, seq) ← field 4 (optional u32) seq
  let (listIndex, _) ← field 5 (optional nullableU16) seq
  return ⟨node, endpoint, cluster, attr, listIndex⟩

/-- `EventPath::from_tlv`. -/
def eventPathFromTlv (elem : List UInt8) : Except (Stop ErrorCode) Events.EventPath := do
  let seq ← list elem
  let (node, seq) ← field 0 (optional u64) seq
  let (endpoint, seq) ← field 1 (optional u16) seq
  let (cluster, seq) ← field 2 (optional u32) seq
  let (event, seq) ← field 3 (optional u32) seq
  let (isUrgent, _) ← field 4 (optional bool) seq
  return ⟨node, endpoint, cluster, event, isUrgent⟩

/-- `ClusterPath::from_tlv`; the node is not used. -/
def clusterPathFromTlv (elem : List UInt8) : Except (Stop ErrorCode) (EndptId × ClusterId) := do
  let seq ← list elem
  let (_, seq) ← field 0 (optional u64) seq
  let (endpoint, seq) ← field 1 u16 seq
  let (cluster, _) ← field 2 u32 seq
  return (endpoint, cluster)

/-- `DataVersionFilter::from_tlv`. -/
def dataVersionFilterFromTlv (elem : List UInt8) :
    Except (Stop ErrorCode) DataVersionFilter := do
  let seq ← Panicking.structure elem
  let (path, seq) ← field 0 clusterPathFromTlv seq
  let (dataVer, _) ← field 1 u32 seq
  return ⟨path.1, path.2, dataVer⟩

/-- `AttrData::from_tlv`. -/
def attrDataFromTlv (elem : List UInt8) : Except (Stop ErrorCode) AttrData := do
  let seq ← Panicking.structure elem
  let (dataVer, seq) ← field 0 (optional u32) seq
  let (path, seq) ← field 1 attrPathFromTlv seq
  let (data, _) ← field 2 (fun elem => .ok elem) seq
  return ⟨dataVer, path, data⟩

/-- `CmdPath::from_tlv`. -/
def cmdPathFromTlv (elem : List UInt8) : Except (Stop ErrorCode) GenericPath := do
  let seq ← list elem
  let (endpoint, seq) ← field 0 (optional u16) seq
  let (cluster, seq) ← field 1 (optional u32) seq
  let (cmd, _) ← field 2 (optional u32) seq
  return ⟨endpoint, cluster, cmd⟩

/-- `CmdData::from_tlv`. -/
def cmdDataFromTlv (elem : List UInt8) : Except (Stop ErrorCode) CmdData := do
  let seq ← Panicking.structure elem
  let (path, seq) ← field 0 cmdPathFromTlv seq
  let (data, seq) ← field 1 (fun elem => .ok elem) seq
  let (commandRef, _) ← field 2 (optional u16) seq
  return ⟨path, data, commandRef⟩

/-! ## Arrays -/

/-- What an optional array gives: nothing if it is not there. -/
def iterOptional {T : Type} (fromTlv : List UInt8 → Except (Stop ErrorCode) T) (n : ℕ) :
    Option (List UInt8) → Except (Stop ErrorCode) (List (Except ErrorCode T))
  | none => return []
  | some array => iter fromTlv n array

/-- The data version of a cluster instance among the filters. A member takes a byte at
least, and an error ends the loop. -/
def dataver (filters : Option (List UInt8)) (ep : EndptId) (cl : ClusterId) :
    Except (Stop ErrorCode) (Option (BitVec 32)) := do
  let filters ← iterOptional dataVersionFilterFromTlv ((filters.getD []).length + 1) filters
  lift (RsMatter.dataver filters ep cl)

/-! ## Requests -/

/-- An optional array of the request, which may be anything. -/
def optionalArray (ctx : BitVec 8) (payload : List UInt8) :
    Except (Stop ErrorCode) (Option (List UInt8)) := do
  let elem ← member ctx payload
  optional (fun elem => .ok elem) elem

def optionalFlag (ctx : BitVec 8) (payload : List UInt8) : Except (Stop ErrorCode) Bool := do
  let elem ← member ctx payload
  if elem.isEmpty then return false else bool elem

end Panicking

/-- A request for a report: to read, to subscribe, or a subscription that reports again. -/
inductive ReportDataReq where
  | read (payload : List UInt8)
  | subscribe (payload : List UInt8)
  | subscribeReport (payload : List UInt8)

namespace ReportDataReq

open Panicking Stop

def attrRequests : ReportDataReq → Except (Stop ErrorCode) (Option (List UInt8))
  | read payload => optionalArray 0 payload
  | subscribe payload => optionalArray 3 payload
  | subscribeReport payload => optionalArray 3 payload

def eventRequests : ReportDataReq → Except (Stop ErrorCode) (Option (List UInt8))
  | read payload => optionalArray 1 payload
  | subscribe payload => optionalArray 4 payload
  | subscribeReport payload => optionalArray 4 payload

def dataverFilters : ReportDataReq → Except (Stop ErrorCode) (Option (List UInt8))
  | read payload => optionalArray 4 payload
  | subscribe payload => optionalArray 8 payload
  | subscribeReport _ => return none

/-- Is the report limited to the fabric of the accessor? -/
def fabricFiltered : ReportDataReq → Except (Stop ErrorCode) Bool
  | read payload => do
    let elem ← member 3 payload
    bool elem
  | subscribe payload => do
    let elem ← member 7 payload
    bool elem
  | subscribeReport payload => do
    let elem ← member 7 payload
    bool elem

end ReportDataReq

namespace WriteReq

open Panicking Stop

def timedRequest (payload : List UInt8) : Except (Stop ErrorCode) Bool := optionalFlag 1 payload

def writeRequests (payload : List UInt8) : Except (Stop ErrorCode) (List UInt8) := do
  let elem ← member 2 payload
  newArray elem

end WriteReq

namespace InvReq

open Panicking Stop

def timedRequest (payload : List UInt8) : Except (Stop ErrorCode) Bool := optionalFlag 1 payload

def invRequests (payload : List UInt8) : Except (Stop ErrorCode) (Option (List UInt8)) :=
  optionalArray 2 payload

end InvReq

/-! ## Expansion -/

namespace Panicking

open Stop PathExpansionItem

/-- The items of a read request with the filters of the request. -/
def readExpansion (filters : Option (List UInt8)) (fabricFiltered : Bool) :
    Expansion AttrPath AttrDetails AttrStatus where
  operation := .read
  path item := item.toGp
  expand item accessor endpointId clusterId leafId array := do
    let dataver ← dataver filters endpointId clusterId
    return {
      endpointId := endpointId
      clusterId := clusterId
      attrId := leafId
      wildcard := item.toGp.isWildcard
      listIndex := item.listIndex
      fabIdx := accessor.fabIdx
      fabFilter := fabricFiltered
      dataver := dataver
      array := array }
  intoStatus item status := ⟨item, status⟩

/-- Items whose expansion does not read anything. -/
def plainExpansion (T : Type) [PathExpansionItem T] : Expansion T (Expanded T) (Status T) where
  operation := operation T
  path := path
  expand item accessor endpointId clusterId leafId array :=
    lift (expand item accessor endpointId clusterId leafId array)
  intoStatus := intoStatus

section Expand

variable (fabrics : Fabrics) (accessor : Accessor) (nodes : List Node)

/-- The calls of an iterator that as many calls of the expander can reach: a member takes a
byte at least, and an error is yielded. -/
def reach (array : List UInt8) : ℕ := array.length + nodes.length

/-- Expand a read request, in as many calls of the iterator as there are nodes. -/
def expandRead (filter : EndptId → ClusterId → BitVec 32 → Bool) (req : ReportDataReq) :
    Except (Stop ErrorCode) (List (Option (Except ErrorCode (Except AttrStatus AttrDetails)))) := do
  let dataverFilters ← req.dataverFilters
  let fabricFiltered ← req.fabricFiltered
  let attrRequests ← req.attrRequests
  let items ← iterOptional attrPathFromTlv (reach nodes (attrRequests.getD [])) attrRequests
  calls (readExpansion dataverFilters fabricFiltered) ⟨fabrics, accessor, false, filter⟩ nodes
    (PathExpander.mk items none ⟨none, 0, 0, none⟩)

def expandWrite (payload : List UInt8) :
    Except (Stop ErrorCode)
      (List (Option (Except ErrorCode (Except (Status AttrData) (Expanded AttrData))))) := do
  let timed ← WriteReq.timedRequest payload
  let writeRequests ← WriteReq.writeRequests payload
  let items ← iter attrDataFromTlv (reach nodes writeRequests) writeRequests
  calls (plainExpansion AttrData) ⟨fabrics, accessor, timed, fun _ _ _ => true⟩ nodes
    (PathExpander.mk items none ⟨none, 0, 0, none⟩)

def expandInvoke (payload : List UInt8) :
    Except (Stop ErrorCode)
      (List (Option (Except ErrorCode (Except (Status CmdData) (Expanded CmdData))))) := do
  let timed ← InvReq.timedRequest payload
  let invRequests ← InvReq.invRequests payload
  let items ← iterOptional cmdDataFromTlv (reach nodes (invRequests.getD [])) invRequests
  calls (plainExpansion CmdData) ⟨fabrics, accessor, timed, fun _ _ _ => true⟩ nodes
    (PathExpander.mk items none ⟨none, 0, 0, none⟩)

end Expand

end Panicking

/-! ## When a request is read without a panic -/

inductive ImRequest where
  | report (req : ReportDataReq)
  | write (payload : List UInt8)
  | invoke (payload : List UInt8)

namespace ImRequest

open Panicking

/-- The arrays of the request are obtained and iterated, for any number of calls, and the
request is expanded, on whatever nodes, without a panic. -/
def NeverPanics : ImRequest → Prop
  | report req =>
    (∀ n, NoPanic (req.attrRequests >>= iterOptional attrPathFromTlv n)) ∧
    (∀ n, NoPanic (req.eventRequests >>= iterOptional eventPathFromTlv n)) ∧
    (∀ n, NoPanic (req.dataverFilters >>= iterOptional dataVersionFilterFromTlv n)) ∧
    ∀ fabrics accessor nodes filter, NoPanic (expandRead fabrics accessor nodes filter req)
  | write payload =>
    (∀ n, NoPanic (WriteReq.writeRequests payload >>= iter attrDataFromTlv n)) ∧
    ∀ fabrics accessor nodes, NoPanic (expandWrite fabrics accessor nodes payload)
  | invoke payload =>
    (∀ n, NoPanic (InvReq.invRequests payload >>= iterOptional cmdDataFromTlv n)) ∧
    ∀ fabrics accessor nodes, NoPanic (expandInvoke fabrics accessor nodes payload)

/-- The member with a tag, if it is there, is a container that can be opened. -/
def Opens (payload : List UInt8) (ctx : BitVec 8) : Prop :=
  ∀ elem, TLVElement.member ctx payload = .ok elem →
    elem = [] ∨ ∃ members, TLVElement.container elem = .ok members

/-- The arrays of a request can be opened, and the mandatory one is there. -/
def ArraysOpen : ImRequest → Prop
  | report (.read payload) => Opens payload 0 ∧ Opens payload 1 ∧ Opens payload 4
  | report (.subscribe payload) => Opens payload 3 ∧ Opens payload 4 ∧ Opens payload 8
  | report (.subscribeReport payload) => Opens payload 3 ∧ Opens payload 4
  | write payload => TLVElement.member 2 payload ≠ .ok []
  | invoke payload => Opens payload 2

end ImRequest

namespace Panicking

open Stop ImRequest

/-! ### Items -/

theorem noPanic_nullableU16 (elem : List UInt8) : NoPanic (nullableU16 elem) := by
  refine (noPanic_lift _).bind fun c _ => ?_
  split
  · exact noPanic_ok _
  · refine (noPanic_u16 elem).bind fun value _ => ?_
    split
    · exact noPanic_error _
    · exact noPanic_ok _

theorem noPanic_attrPathFromTlv (elem : List UInt8) : NoPanic (attrPathFromTlv elem) := by
  refine (noPanic_membersOf _ _ elem).bind fun seq _ => ?_
  refine noPanic_field_bind 0 (noPanic_optional noPanic_bool) _ fun _ seq => ?_
  refine noPanic_field_bind 1 (noPanic_optional noPanic_u64) _ fun node seq => ?_
  refine noPanic_field_bind 2 (noPanic_optional noPanic_u16) _ fun endpoint seq => ?_
  refine noPanic_field_bind 3 (noPanic_optional noPanic_u32) _ fun cluster seq => ?_
  refine noPanic_field_bind 4 (noPanic_optional noPanic_u32) _ fun attr seq => ?_
  exact noPanic_field_bind 5 (noPanic_optional noPanic_nullableU16) _ fun _ _ => noPanic_ok _

theorem noPanic_eventPathFromTlv (elem : List UInt8) : NoPanic (eventPathFromTlv elem) := by
  refine (noPanic_membersOf _ _ elem).bind fun seq _ => ?_
  refine noPanic_field_bind 0 (noPanic_optional noPanic_u64) _ fun node seq => ?_
  refine noPanic_field_bind 1 (noPanic_optional noPanic_u16) _ fun endpoint seq => ?_
  refine noPanic_field_bind 2 (noPanic_optional noPanic_u32) _ fun cluster seq => ?_
  refine noPanic_field_bind 3 (noPanic_optional noPanic_u32) _ fun event seq => ?_
  exact noPanic_field_bind 4 (noPanic_optional noPanic_bool) _ fun _ _ => noPanic_ok _

theorem noPanic_clusterPathFromTlv (elem : List UInt8) : NoPanic (clusterPathFromTlv elem) := by
  refine (noPanic_membersOf _ _ elem).bind fun seq _ => ?_
  refine noPanic_field_bind 0 (noPanic_optional noPanic_u64) _ fun node seq => ?_
  refine noPanic_field_bind 1 noPanic_u16 _ fun endpoint seq => ?_
  exact noPanic_field_bind 2 noPanic_u32 _ fun _ _ => noPanic_ok _

theorem noPanic_dataVersionFilterFromTlv (elem : List UInt8) :
    NoPanic (dataVersionFilterFromTlv elem) := by
  refine (noPanic_membersOf _ _ elem).bind fun seq _ => ?_
  refine noPanic_field_bind 0 noPanic_clusterPathFromTlv _ fun path seq => ?_
  exact noPanic_field_bind 1 noPanic_u32 _ fun _ _ => noPanic_ok _

theorem noPanic_attrDataFromTlv (elem : List UInt8) : NoPanic (attrDataFromTlv elem) := by
  refine (noPanic_membersOf _ _ elem).bind fun seq _ => ?_
  refine noPanic_field_bind 0 (noPanic_optional noPanic_u32) _ fun dataVer seq => ?_
  refine noPanic_field_bind 1 noPanic_attrPathFromTlv _ fun path seq => ?_
  exact noPanic_field_bind 2 noPanic_ok _ fun _ _ => noPanic_ok _

theorem noPanic_cmdPathFromTlv (elem : List UInt8) : NoPanic (cmdPathFromTlv elem) := by
  refine (noPanic_membersOf _ _ elem).bind fun seq _ => ?_
  refine noPanic_field_bind 0 (noPanic_optional noPanic_u16) _ fun endpoint seq => ?_
  refine noPanic_field_bind 1 (noPanic_optional noPanic_u32) _ fun cluster seq => ?_
  exact noPanic_field_bind 2 (noPanic_optional noPanic_u32) _ fun _ _ => noPanic_ok _

theorem noPanic_cmdDataFromTlv (elem : List UInt8) : NoPanic (cmdDataFromTlv elem) := by
  refine (noPanic_membersOf _ _ elem).bind fun seq _ => ?_
  refine noPanic_field_bind 0 noPanic_cmdPathFromTlv _ fun path seq => ?_
  refine noPanic_field_bind 1 noPanic_ok _ fun data seq => ?_
  exact noPanic_field_bind 2 (noPanic_optional noPanic_u16) _ fun _ _ => noPanic_ok _

/-! ### Arrays -/

section Arrays

variable {T : Type} {fromTlv : List UInt8 → Except (Stop ErrorCode) T}

def OpensOptional (array : Option (List UInt8)) : Prop :=
  ∀ elem ∈ array, ∃ members, TLVElement.container elem = .ok members

theorem noPanic_iterOptional_iff (h : ∀ elem, NoPanic (fromTlv elem)) (n : ℕ)
    (array : Option (List UInt8)) :
    NoPanic (iterOptional fromTlv n array) ↔ OpensOptional array := by
  cases array with
  | none => exact ⟨fun _ elem helem => (nomatch helem), fun _ => noPanic_ok _⟩
  | some elem =>
    refine (noPanic_iter_iff h n elem).trans ⟨?_, fun hopen => hopen elem rfl⟩
    rintro hopen _ ⟨⟩
    exact hopen

theorem noPanic_dataver {filters : Option (List UInt8)} (h : OpensOptional filters)
    (ep : EndptId) (cl : ClusterId) : NoPanic (dataver filters ep cl) :=
  ((noPanic_iterOptional_iff noPanic_dataVersionFilterFromTlv _ filters).mpr h).bind
    fun _ _ => noPanic_lift _

theorem noPanic_optionalFlag (ctx : BitVec 8) (payload : List UInt8) :
    NoPanic (optionalFlag ctx payload) := by
  rw [optionalFlag, member_eq]
  refine (noPanic_lift _).bind fun elem _ => ?_
  split
  · exact noPanic_ok _
  · exact noPanic_bool elem

/-- An optional array is obtained and iterated without a panic exactly if it is obtained
without one and can be opened. -/
theorem noPanic_bind_iterOptional_iff (h : ∀ elem, NoPanic (fromTlv elem))
    {x : Except (Stop ErrorCode) (Option (List UInt8))} :
    (∀ n, NoPanic (x >>= iterOptional fromTlv n)) ↔ Ensures x OpensOptional := by
  constructor
  · intro hiter
    refine ⟨(hiter 0).of_bind, ?_⟩
    rintro array rfl
    exact (noPanic_iterOptional_iff h 0 array).mp (hiter 0)
  · rintro ⟨harray, hopens⟩ n
    exact harray.bind fun array ha => (noPanic_iterOptional_iff h n array).mpr (hopens array ha)

/-- **An optional array** can be opened, where it is there, exactly if its element can. -/
theorem optionalArray_ensures_iff (ctx : BitVec 8) (payload : List UInt8) :
    Ensures (optionalArray ctx payload) OpensOptional ↔ Opens payload ctx := by
  rw [optionalArray, member_eq, Opens]
  cases hmember : TLVElement.member ctx payload with
  | error code => exact ⟨fun _ elem helem => (nomatch helem), fun _ => ensures_error code⟩
  | ok elem =>
    rw [lift_ok, ok_bind]
    constructor
    · rintro ⟨-, hopens⟩ _ ⟨⟩
      cases elem with
      | nil => exact .inl rfl
      | cons byte rest => exact .inr (hopens _ rfl _ rfl)
    · intro hopens
      cases elem with
      | nil => exact ensures_ok fun elem helem => nomatch helem
      | cons byte rest =>
        refine ensures_ok ?_
        rintro _ ⟨⟩
        obtain hnil | hopen := hopens _ rfl
        · cases hnil
        · exact hopen

/-- The mandatory array is obtained without a panic, and if it is there it can be opened. -/
theorem writeRequests_ensures (payload : List UInt8) (h : TLVElement.member 2 payload ≠ .ok []) :
    Ensures (WriteReq.writeRequests payload)
      fun array => ∃ members, TLVElement.container array = .ok members := by
  rw [WriteReq.writeRequests, member_eq]
  cases hmember : TLVElement.member 2 payload with
  | error code => exact ensures_error code
  | ok elem =>
    rw [lift_ok, ok_bind]
    refine newContainer_ensures rfl ?_
    rintro rfl
    exact h hmember

theorem noPanic_writeRequests_iff (payload : List UInt8) :
    (∀ n, NoPanic (WriteReq.writeRequests payload >>= iter attrDataFromTlv n)) ↔
      TLVElement.member 2 payload ≠ .ok [] := by
  constructor
  · intro hiter hmember
    have h := hiter 0
    rw [WriteReq.writeRequests, member_eq, hmember] at h
    obtain ⟨members, hopen⟩ := (noPanic_iter_iff noPanic_attrDataFromTlv 0 []).mp h
    cases hopen
  · intro h n
    obtain ⟨harray, hopens⟩ := writeRequests_ensures payload h
    exact harray.bind fun array ha =>
      (noPanic_iter_iff noPanic_attrDataFromTlv n array).mpr (hopens array ha)

end Arrays

/-! ### Expansion -/

section Expand

variable (fabrics : Fabrics) (accessor : Accessor) (nodes : List Node)

theorem noPanic_fabricFiltered (req : ReportDataReq) : NoPanic req.fabricFiltered := by
  have hflag : ∀ (ctx : BitVec 8) (payload : List UInt8),
      NoPanic (member ctx payload >>= bool) := by
    intro ctx payload
    rw [member_eq]
    exact (noPanic_lift _).bind fun elem _ => noPanic_bool elem
  cases req with
  | read payload => exact hflag 3 payload
  | subscribe payload => exact hflag 7 payload
  | subscribeReport payload => exact hflag 7 payload

theorem noPanic_expandRead (filter : EndptId → ClusterId → BitVec 32 → Bool)
    {req : ReportDataReq} (hfilters : Ensures req.dataverFilters OpensOptional)
    (hattrs : Ensures req.attrRequests OpensOptional) :
    NoPanic (expandRead fabrics accessor nodes filter req) := by
  refine hfilters.1.bind fun filters hf => ?_
  refine (noPanic_fabricFiltered req).bind fun fabricFiltered _ => ?_
  refine hattrs.1.bind fun attrRequests ha => ?_
  have hiter := (noPanic_iterOptional_iff noPanic_attrPathFromTlv
    (reach nodes (attrRequests.getD [])) attrRequests).mpr (hattrs.2 attrRequests ha)
  refine hiter.bind fun items _ => calls_safe _ _ nodes ?_
  have hexpand : ∀ item, ExpandsSafely (readExpansion filters fabricFiltered) item :=
    fun item accessor endpointId clusterId leafId array =>
      (noPanic_dataver (hfilters.2 filters hf) endpointId clusterId).bind fun _ _ => noPanic_ok _
  exact ⟨fun item _ => hexpand item, fun item _ => hexpand item⟩

theorem plainExpansion_safe {T : Type} [PathExpansionItem T] (e : PathExpander T) :
    Safe (plainExpansion T) e :=
  ⟨fun _ _ _ _ _ _ _ => noPanic_lift _, fun _ _ _ _ _ _ _ => noPanic_lift _⟩

theorem noPanic_expandWrite {payload : List UInt8} (h : TLVElement.member 2 payload ≠ .ok []) :
    NoPanic (expandWrite fabrics accessor nodes payload) := by
  obtain ⟨harray, hopens⟩ := writeRequests_ensures payload h
  refine (noPanic_optionalFlag 1 payload).bind fun timed _ => ?_
  refine harray.bind fun array ha => ?_
  have hiter := (noPanic_iter_iff noPanic_attrDataFromTlv (reach nodes array) array).mpr
    (hopens array ha)
  exact hiter.bind fun items _ => calls_safe _ _ nodes (plainExpansion_safe _)

theorem noPanic_expandInvoke {payload : List UInt8} (h : Opens payload 2) :
    NoPanic (expandInvoke fabrics accessor nodes payload) := by
  obtain ⟨harray, hopens⟩ := (optionalArray_ensures_iff 2 payload).mpr h
  refine (noPanic_optionalFlag 1 payload).bind fun timed _ => ?_
  refine harray.bind fun array ha => ?_
  have hiter := (noPanic_iterOptional_iff noPanic_cmdDataFromTlv
    (reach nodes (array.getD [])) array).mpr (hopens array ha)
  exact hiter.bind fun items _ => calls_safe _ _ nodes (plainExpansion_safe _)

end Expand

end Panicking

namespace ImRequest

open Panicking

/-- A request for a report panics exactly where one of its arrays does. -/
theorem report_neverPanics_iff (req : ReportDataReq) :
    (report req).NeverPanics ↔ Ensures req.attrRequests OpensOptional ∧
      Ensures req.eventRequests OpensOptional ∧ Ensures req.dataverFilters OpensOptional := by
  rw [NeverPanics, noPanic_bind_iterOptional_iff noPanic_attrPathFromTlv,
    noPanic_bind_iterOptional_iff noPanic_eventPathFromTlv,
    noPanic_bind_iterOptional_iff noPanic_dataVersionFilterFromTlv]
  constructor
  · rintro ⟨hattrs, hevents, hfilters, -⟩
    exact ⟨hattrs, hevents, hfilters⟩
  · rintro ⟨hattrs, hevents, hfilters⟩
    refine ⟨hattrs, hevents, hfilters, fun fabrics accessor nodes filter => ?_⟩
    exact noPanic_expandRead fabrics accessor nodes filter hfilters hattrs

/-- **Reading a request.** A request is read and expanded without a panic exactly if its
arrays, where they are there, can be opened, and the mandatory one is there. -/
theorem neverPanics_iff (req : ImRequest) : req.NeverPanics ↔ req.ArraysOpen := by
  rcases req with (payload | payload | payload) | payload | payload
  · rw [report_neverPanics_iff]
    exact and_congr (optionalArray_ensures_iff 0 payload)
      (and_congr (optionalArray_ensures_iff 1 payload) (optionalArray_ensures_iff 4 payload))
  · rw [report_neverPanics_iff]
    exact and_congr (optionalArray_ensures_iff 3 payload)
      (and_congr (optionalArray_ensures_iff 4 payload) (optionalArray_ensures_iff 8 payload))
  · -- a subscription that reports again does not look at the filters
    have hnone : Ensures (ReportDataReq.subscribeReport payload).dataverFilters OpensOptional :=
      ensures_ok fun elem helem => nomatch helem
    rw [report_neverPanics_iff, and_iff_left hnone]
    exact and_congr (optionalArray_ensures_iff 3 payload) (optionalArray_ensures_iff 4 payload)
  · constructor
    · rintro ⟨hwrite, -⟩
      exact (noPanic_writeRequests_iff payload).mp hwrite
    · intro hwrite
      refine ⟨(noPanic_writeRequests_iff payload).mpr hwrite, ?_⟩
      intro fabrics accessor nodes
      exact noPanic_expandWrite fabrics accessor nodes hwrite
  · rw [NeverPanics, InvReq.invRequests, noPanic_bind_iterOptional_iff noPanic_cmdDataFromTlv,
      optionalArray_ensures_iff]
    refine and_iff_left_of_imp fun hinv fabrics accessor nodes => ?_
    exact noPanic_expandInvoke fabrics accessor nodes hinv

/-- A read request whose attribute paths are a number makes the device panic. -/
theorem read_of_number_panics :
    ¬ (report (.read [0x15, 0x24, 0x00, 0x01, 0x18])).NeverPanics := by
  rintro ⟨hattrs, -⟩
  exact hattrs 0 (by decide +kernel)

end ImRequest

end RsMatter
