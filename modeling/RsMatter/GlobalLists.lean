import RsMatter.Node
import RsMatter.TlvElement
import Mathlib.Data.List.Dedup

/-!
# Lists of what a cluster has (`dm/types/cluster.rs`)

Every cluster has attributes that list its attributes, its commands, their responses and its events.
Such a list is read as a whole, as an empty list, or one item at a time. The list of responses is put
together in rounds, each of which looks for the least response beyond the last one.
-/

namespace RsMatter

structure ClusterEvent where
  id : BitVec 32
  access : Access

structure FullCluster extends Cluster where
  allEvents : List ClusterEvent
  withEvents : ClusterEvent → BitVec 16 → BitVec 32 → Bool

inductive GlobalList where
  | generatedCmdList
  | acceptedCmdList
  | eventList
  | attributeList
  deriving DecidableEq

namespace FullCluster

variable (c : FullCluster)

def events : List ClusterEvent :=
  c.allEvents.filter fun event => c.withEvents event c.revision c.featureMap

/-! ## Writing a list -/

def encodeIds (ids : List (BitVec 32)) (index : Option (Option ℕ)) (tag : TLVTag) (tw : WriteBuf) :
    Except ErrorCode WriteBuf :=
  match index with
  | some (some index) =>
    match ids[index]? with
    | some id => tw.u32 tag id
    | none => .error .constraintError
  | some none => do
    let tw ← tw.startArray tag
    tw.endContainer
  | none => do
    let tw ← tw.startArray tag
    let tw ← ids.foldlM (fun tw id => tw.u32 .anonymous id) tw
    tw.endContainer

/-- `encode_attribute_ids`. -/
def encodeAttributeIds : Option (Option ℕ) → TLVTag → WriteBuf → Except ErrorCode WriteBuf :=
  encodeIds (c.attributes.map (·.id))

/-- `encode_accepted_command_ids`. -/
def encodeAcceptedCommandIds : Option (Option ℕ) → TLVTag → WriteBuf → Except ErrorCode WriteBuf :=
  encodeIds (c.commands.map (·.id))

/-- `encode_event_ids`. -/
def encodeEventIds : Option (Option ℕ) → TLVTag → WriteBuf → Except ErrorCode WriteBuf :=
  encodeIds (c.events.map (·.id))

/-- `Iterator::min`. -/
def minOf : List CmdId → Option CmdId
  | [] => none
  | id :: ids => some (ids.foldl (fun least id => if id < least then id else least) id)

def nextResponse (maxInsertedCmd : Option CmdId) : Option CmdId :=
  minOf ((c.commands.filterMap (·.respId)).filter fun cmd =>
    (maxInsertedCmd.map fun maxInserted => decide (maxInserted < cmd)).getD true)

/-- Write the response that the loop has found, if it is asked for. -/
def writeResponse (index : Option (Option ℕ)) (tag : TLVTag) (count : ℕ) (nextCmd : CmdId)
    (tw : WriteBuf) : Except ErrorCode WriteBuf :=
  if index = some (some count) then tw.u32 tag nextCmd
  else if index = none then tw.u32 .anonymous nextCmd
  else .ok tw

def generatedLoop (index : Option (Option ℕ)) (tag : TLVTag) :
    ℕ → Option CmdId → ℕ → WriteBuf → Option (Except ErrorCode (ℕ × WriteBuf))
  | 0, _, _, _ => none
  | rounds + 1, maxInsertedCmd, count, tw =>
    match c.nextResponse maxInsertedCmd with
    | none => some (.ok (count, tw))
    | some nextCmd =>
      match writeResponse index tag count nextCmd tw with
      | .error e => some (.error e)
      | .ok tw => generatedLoop index tag rounds (some nextCmd) (count + 1) tw

/-- `encode_generated_command_ids`, with a number of rounds for its loop. -/
def encodeGeneratedCommandIds (rounds : ℕ) (index : Option (Option ℕ)) (tag : TLVTag) (tw : WriteBuf) :
    Option (Except ErrorCode WriteBuf) :=
  match index with
  | some (some i) =>
    (c.generatedLoop index tag rounds none 0 tw).map fun r => do
      let (count, tw) ← r
      if count ≤ i then .error .constraintError else .ok tw
  | some none | none =>
    match tw.startArray tag with
    | .error e => some (.error e)
    | .ok tw =>
      (c.generatedLoop index tag rounds none 0 tw).map fun r => do
        let (_, tw) ← r
        tw.endContainer

def encode (rounds : ℕ) : GlobalList → Option (Option ℕ) → TLVTag → WriteBuf →
    Option (Except ErrorCode WriteBuf)
  | .generatedCmdList => c.encodeGeneratedCommandIds rounds
  | .acceptedCmdList => fun index tag tw => some (c.encodeAcceptedCommandIds index tag tw)
  | .eventList => fun index tag tw => some (c.encodeEventIds index tag tw)
  | .attributeList => fun index tag tw => some (c.encodeAttributeIds index tag tw)

/-! ## Agreement of the modes -/

def arrayBytes (tag : TLVTag) (ids : List (BitVec 32)) : List UInt8 :=
  elemBytes tag .array ++ (ids.flatMap (fun id => elemBytes .anonymous (.ofU32 id)) ++
    elemBytes .anonymous .endCnt)

/-- What is read of a list is always about the same ids. -/
structure Codes (encode : Option (Option ℕ) → TLVTag → WriteBuf → Option (Except ErrorCode WriteBuf))
    (ids : List (BitVec 32)) : Prop where
  whole : ∀ tag tw, encode none tag tw = some (tw.writeRawData (arrayBytes tag ids))
  empty : ∀ tag tw, encode (some none) tag tw = some (tw.writeRawData (arrayBytes tag []))
  item : ∀ i id, ids[i]? = some id → ∀ tag tw,
    encode (some (some i)) tag tw = some (tw.writeRawData (elemBytes tag (.ofU32 id)))
  beyond : ∀ i, ids.length ≤ i → ∀ tag tw, encode (some (some i)) tag tw = some (.error .constraintError)

theorem startArray_eq (tw : WriteBuf) (tag : TLVTag) :
    tw.startArray tag = tw.writeRawData (elemBytes tag .array) := by
  rw [WriteBuf.startArray, WriteBuf.rawValue_eq]
  rfl

theorem endContainer_eq (tw : WriteBuf) :
    tw.endContainer = tw.writeRawData (elemBytes .anonymous .endCnt) := by
  exact (bind_pure (tw.write _)).symm

theorem u32_eq_writeRawData (tw : WriteBuf) (tag : TLVTag) (id : BitVec 32) :
    tw.u32 tag id = tw.writeRawData (elemBytes tag (.ofU32 id)) := by
  rw [WriteBuf.u32_eq, WriteBuf.tlv_eq]

theorem foldlM_u32 (ids : List (BitVec 32)) (tw : WriteBuf) :
    ids.foldlM (fun tw id => tw.u32 .anonymous id) tw =
      tw.writeRawData (ids.flatMap fun id => elemBytes .anonymous (.ofU32 id)) := by
  induction ids generalizing tw with
  | nil => rfl
  | cons id ids ih =>
    rw [List.foldlM_cons, List.flatMap_cons, WriteBuf.writeRawData_append, u32_eq_writeRawData]
    exact bind_congr fun tw => ih tw

theorem codes_encodeIds (ids : List (BitVec 32)) :
    Codes (fun index tag tw => some (encodeIds ids index tag tw)) ids where
  whole tag tw := by
    refine congrArg some ?_
    rw [encodeIds, arrayBytes, WriteBuf.writeRawData_append, startArray_eq]
    refine bind_congr fun tw => ?_
    rw [WriteBuf.writeRawData_append, foldlM_u32]
    exact bind_congr fun tw => endContainer_eq tw
  empty tag tw := by
    refine congrArg some ?_
    rw [encodeIds, arrayBytes, WriteBuf.writeRawData_append, startArray_eq]
    exact bind_congr fun tw => endContainer_eq tw
  item i id h tag tw := by
    refine congrArg some ?_
    rw [encodeIds, h]
    exact u32_eq_writeRawData tw tag id
  beyond i h tag tw := by
    rw [encodeIds, List.getElem?_eq_none h]

/-! ## The loop over responses -/

variable {c : FullCluster}

theorem minOf_spec {ids : List CmdId} {least : CmdId} (h : minOf ids = some least) :
    least ∈ ids ∧ ∀ id ∈ ids, least ≤ id := by
  have hfold : ∀ (ids : List CmdId) (id : CmdId),
      let least := ids.foldl (fun least id => if id < least then id else least) id
      least ∈ id :: ids ∧ ∀ x ∈ id :: ids, least ≤ x := by
    intro ids
    induction ids with
    | nil =>
      intro id
      refine ⟨List.mem_cons_self, fun x hx => ?_⟩
      rw [List.mem_singleton.mp hx]
      exact BitVec.le_refl _
    | cons id' ids ih =>
      intro id
      obtain ⟨hmem, hle⟩ := ih (if id' < id then id' else id)
      rw [List.foldl_cons]
      have hsplit : (if id' < id then id' else id) ≤ id ∧ (if id' < id then id' else id) ≤ id' ∧
          ((if id' < id then id' else id) = id ∨ (if id' < id then id' else id) = id') := by
        split_ifs with hlt
        · exact ⟨BitVec.le_of_lt hlt, BitVec.le_refl _, .inr rfl⟩
        · exact ⟨BitVec.le_refl _, BitVec.not_lt.mp hlt, .inl rfl⟩
      have hhead := hle _ List.mem_cons_self
      refine ⟨?_, fun x hx => ?_⟩
      · rcases List.mem_cons.mp hmem with heq | hmem
        · rw [heq]
          rcases hsplit.2.2 with heq | heq <;> rw [heq] <;> simp
        · exact List.mem_cons_of_mem _ (List.mem_cons_of_mem _ hmem)
      · rcases List.mem_cons.mp hx with rfl | hx
        · exact BitVec.le_trans hhead hsplit.1
        rcases List.mem_cons.mp hx with rfl | hx
        · exact BitVec.le_trans hhead hsplit.2.1
        · exact hle x (List.mem_cons_of_mem _ hx)
  cases ids with
  | nil => cases h
  | cons id ids =>
    cases h
    exact hfold ids id

/-- The responses that the loop has not come to. -/
structure Remaining (c : FullCluster) (maxInsertedCmd : Option CmdId) (rest : List CmdId) : Prop where
  /-- they ascend, so that none is there twice -/
  sorted : rest.Pairwise (· < ·)
  mem_iff : ∀ id, id ∈ rest ↔ (∃ cmd ∈ c.commands, cmd.respId = some id) ∧
    ∀ last ∈ maxInsertedCmd, last < id

variable {maxInsertedCmd : Option CmdId}

theorem mem_candidates {id : CmdId} :
    id ∈ ((c.commands.filterMap (·.respId)).filter fun cmd =>
      (maxInsertedCmd.map fun maxInserted => decide (maxInserted < cmd)).getD true) ↔
      (∃ cmd ∈ c.commands, cmd.respId = some id) ∧ ∀ last ∈ maxInsertedCmd, last < id := by
  rw [List.mem_filter, List.mem_filterMap]
  refine and_congr_right fun _ => ?_
  cases maxInsertedCmd with
  | none => exact iff_of_true rfl fun _ h => absurd h (Option.not_mem_none _)
  | some last => simp

variable {rest : List CmdId}

/-- The least response beyond the last one is the first of those that remain. -/
theorem Remaining.nextResponse
    (h : c.Remaining maxInsertedCmd rest) : c.nextResponse maxInsertedCmd = rest.head? := by
  rw [FullCluster.nextResponse]
  cases hmin : minOf ((c.commands.filterMap (·.respId)).filter fun cmd =>
      (maxInsertedCmd.map fun maxInserted => decide (maxInserted < cmd)).getD true) with
  | none =>
    cases rest with
    | nil => rfl
    | cons id rest =>
      have hmem := mem_candidates.mpr ((h.mem_iff id).mp List.mem_cons_self)
      generalize ((c.commands.filterMap (·.respId)).filter fun cmd =>
        (maxInsertedCmd.map fun maxInserted => decide (maxInserted < cmd)).getD true) = ids at hmin hmem
      cases ids with
      | nil => cases hmem
      | cons id ids => cases hmin
  | some least =>
    obtain ⟨hmem, hle⟩ := minOf_spec hmin
    have hrest := (h.mem_iff least).mpr (mem_candidates.mp hmem)
    cases rest with
    | nil => cases hrest
    | cons id rest =>
      have hid := hle id (mem_candidates.mpr ((h.mem_iff id).mp List.mem_cons_self))
      rcases List.mem_cons.mp hrest with rfl | hrest
      · rfl
      · have hlt := (List.pairwise_cons.mp h.sorted).1 least hrest
        exact absurd hid (BitVec.not_le.mpr hlt)

theorem Remaining.tail {id : CmdId}
    (h : c.Remaining maxInsertedCmd (id :: rest)) : c.Remaining (some id) rest where
  sorted := (List.pairwise_cons.mp h.sorted).2
  mem_iff x := by
    have hlt := (List.pairwise_cons.mp h.sorted).1
    have hid := (h.mem_iff id).mp List.mem_cons_self
    have hx := h.mem_iff x
    constructor
    · intro hmem
      refine ⟨(hx.mp (List.mem_cons_of_mem _ hmem)).1, fun last hlast => ?_⟩
      rw [← Option.mem_some_iff.mp hlast]
      exact hlt x hmem
    · rintro ⟨hresp, hbeyond⟩
      have hlast : id < x := hbeyond id rfl
      have hmem := hx.mpr ⟨hresp, fun last hl => BitVec.lt_trans (hid.2 last hl) hlast⟩
      rcases List.mem_cons.mp hmem with rfl | hmem
      · exact absurd hlast (BitVec.lt_irrefl _)
      · exact hmem

/-- There are such responses at first, and no more of them than commands. -/
theorem exists_remaining (c : FullCluster) :
    ∃ rest, c.Remaining none rest ∧ rest.length ≤ c.commands.length := by
  have hsorted : ∀ ids : List CmdId, ∃ rest : List CmdId, rest.Pairwise (· < ·) ∧
      (∀ id, id ∈ rest ↔ id ∈ ids) ∧ rest.length ≤ ids.length := by
    intro ids
    refine ⟨ids.dedup.mergeSort fun a b => decide (a ≤ b), ?_, fun id => ?_, ?_⟩
    · have hle : (ids.dedup.mergeSort fun a b => decide (a ≤ b)).Pairwise fun a b =>
          decide (a ≤ b) = true := by
        apply List.pairwise_mergeSort
        · exact fun a b d hab hbd => decide_eq_true
            (BitVec.le_trans (of_decide_eq_true hab) (of_decide_eq_true hbd))
        · intro a b
          rw [Bool.or_eq_true, decide_eq_true_iff, decide_eq_true_iff]
          exact BitVec.le_total a b
      have hne : (ids.dedup.mergeSort fun a b => decide (a ≤ b)).Nodup :=
        (List.mergeSort_perm _ _).nodup_iff.mpr ids.nodup_dedup
      refine (hle.and hne).imp fun h => ?_
      exact BitVec.lt_of_le_ne (of_decide_eq_true h.1) h.2
    · rw [List.mem_mergeSort, List.mem_dedup]
    · rw [List.length_mergeSort]
      exact ids.dedup_sublist.length_le
  obtain ⟨rest, hpair, hmem, hlen⟩ := hsorted (c.commands.filterMap (·.respId))
  refine ⟨rest, ⟨hpair, fun id => ?_⟩, hlen.trans (List.length_filterMap_le _ _)⟩
  rw [hmem, List.mem_filterMap]
  exact ⟨fun h => ⟨h, fun _ h => absurd h (Option.not_mem_none _)⟩, And.left⟩

/-- What the loop writes of the responses that remain. -/
def writeResponses (index : Option (Option ℕ)) (tag : TLVTag) :
    ℕ → List CmdId → WriteBuf → Except ErrorCode WriteBuf
  | _, [], tw => .ok tw
  | count, id :: ids, tw => do
    let tw ← writeResponse index tag count id tw
    writeResponses index tag (count + 1) ids tw

/-- **The loop ends** when it has come to all of them. -/
theorem generatedLoop_eq (index : Option (Option ℕ)) (tag : TLVTag) (rounds : ℕ)
    (hrounds : rest.length < rounds) (h : c.Remaining maxInsertedCmd rest)
    (count : ℕ) (tw : WriteBuf) :
    c.generatedLoop index tag rounds maxInsertedCmd count tw =
      some ((writeResponses index tag count rest tw).map (count + rest.length, ·)) := by
  induction rest generalizing rounds maxInsertedCmd count tw with
  | nil =>
    obtain ⟨rounds, rfl⟩ := Nat.exists_eq_add_one.mpr hrounds
    rw [generatedLoop, h.nextResponse]
    rfl
  | cons id rest ih =>
    obtain ⟨rounds, rfl⟩ := Nat.exists_eq_add_one.mpr (Nat.zero_lt_of_lt hrounds)
    have hnext : c.nextResponse maxInsertedCmd = some id := h.nextResponse
    rw [generatedLoop, hnext, writeResponses]
    simp only
    cases writeResponse index tag count id tw with
    | error e => rfl
    | ok tw' =>
      have hlt : rest.length < rounds := Nat.lt_of_succ_lt_succ hrounds
      have hsum : count + 1 + rest.length = count + (id :: rest).length := by
        rw [List.length_cons]
        omega
      simp only [ih rounds hlt h.tail (count + 1) tw', hsum, ok_bind]

theorem writeResponses_none (tag : TLVTag) (count : ℕ) (ids : List CmdId) (tw : WriteBuf) :
    writeResponses none tag count ids tw =
      tw.writeRawData (ids.flatMap fun id => elemBytes .anonymous (.ofU32 id)) := by
  induction ids generalizing count tw with
  | nil => rfl
  | cons id ids ih =>
    have hwrite : writeResponse none tag count id tw = tw.u32 .anonymous id := rfl
    rw [writeResponses, hwrite, u32_eq_writeRawData, List.flatMap_cons, WriteBuf.writeRawData_append]
    exact bind_congr fun tw => ih (count + 1) tw

theorem writeResponses_empty (tag : TLVTag) (count : ℕ) (ids : List CmdId) (tw : WriteBuf) :
    writeResponses (some none) tag count ids tw = .ok tw := by
  induction ids generalizing count with
  | nil => rfl
  | cons id ids ih =>
    have hwrite : writeResponse (some none) tag count id tw = .ok tw := rfl
    rw [writeResponses, hwrite, ok_bind, ih]

/-- The loop writes the response with the index that is asked for. -/
theorem writeResponses_item (tag : TLVTag) (i count : ℕ) (ids : List CmdId) (tw : WriteBuf) :
    writeResponses (some (some i)) tag count ids tw =
      if count ≤ i then
        match ids[i - count]? with
        | some id => tw.writeRawData (elemBytes tag (.ofU32 id))
        | none => .ok tw
      else .ok tw := by
  induction ids generalizing count tw with
  | nil => simp [writeResponses]
  | cons id ids ih =>
    rw [writeResponses, writeResponse]
    rcases Nat.lt_trichotomy i count with hlt | rfl | hlt
    · have hne : ¬ some (some i) = some (some count) := by
        intro heq
        cases heq
        omega
      rw [if_neg hne, if_neg nofun, ok_bind, ih, if_neg (by omega), if_neg (by omega)]
    · rw [if_pos rfl, if_pos (Nat.le_refl i), Nat.sub_self, List.getElem?_cons_zero, u32_eq_writeRawData]
      refine (bind_congr fun tw => ?_).trans (bind_pure _)
      rw [ih, if_neg (by omega)]
      rfl
    · have hne : ¬ some (some i) = some (some count) := by
        intro heq
        cases heq
        omega
      have hindex : i - count = i - (count + 1) + 1 := by omega
      rw [if_neg hne, if_neg nofun, ok_bind, ih, if_pos (by omega), if_pos (by omega), hindex,
        List.getElem?_cons_succ]

theorem codes_encodeGeneratedCommandIds (h : c.Remaining none rest) {rounds : ℕ}
    (hrounds : rest.length < rounds) : Codes (c.encodeGeneratedCommandIds rounds) rest where
  whole tag tw := by
    rw [encodeGeneratedCommandIds, arrayBytes, WriteBuf.writeRawData_append, startArray_eq]
    cases tw.writeRawData (elemBytes tag .array) with
    | error e => rfl
    | ok tw =>
      simp only [ok_bind]
      rw [generatedLoop_eq none tag rounds hrounds h, writeResponses_none, WriteBuf.writeRawData_append]
      cases tw.writeRawData (rest.flatMap fun id => elemBytes .anonymous (.ofU32 id)) with
      | error e => rfl
      | ok tw => exact congrArg some (endContainer_eq tw)
  empty tag tw := by
    rw [encodeGeneratedCommandIds, arrayBytes, WriteBuf.writeRawData_append, startArray_eq]
    cases tw.writeRawData (elemBytes tag .array) with
    | error e => rfl
    | ok tw =>
      simp only [ok_bind]
      rw [generatedLoop_eq (some none) tag rounds hrounds h, writeResponses_empty]
      exact congrArg some (endContainer_eq tw)
  item i id hi tag tw := by
    have hlt : i < rest.length := (List.getElem?_eq_some_iff.mp hi).1
    rw [encodeGeneratedCommandIds, generatedLoop_eq (some (some i)) tag rounds hrounds h,
      writeResponses_item, if_pos (Nat.zero_le i), Nat.sub_zero, hi]
    simp only
    cases tw.writeRawData (elemBytes tag (.ofU32 id)) with
    | error e => rfl
    | ok tw =>
      refine congrArg some (if_neg ?_)
      show ¬ 0 + rest.length ≤ i
      omega
  beyond i hi tag tw := by
    rw [encodeGeneratedCommandIds, generatedLoop_eq (some (some i)) tag rounds hrounds h,
      writeResponses_item, if_pos (Nat.zero_le i), Nat.sub_zero, List.getElem?_eq_none hi]
    refine congrArg some (if_pos ?_)
    show 0 + rest.length ≤ i
    omega

/-! ## Reading piece by piece -/

/-- Read one item after the other, each into a buffer of its own, until there is no such item; with a
number of rounds. -/
def readItems (encode : Option (Option ℕ) → TLVTag → WriteBuf → Option (Except ErrorCode WriteBuf))
    (tag : TLVTag) (room : ℕ) : ℕ → ℕ → Option (Except ErrorCode (List (List UInt8)))
  | 0, _ => none
  | rounds + 1, i =>
    match encode (some (some i)) tag ⟨[], room⟩ with
    | none => none
    | some (.ok tw) => (readItems encode tag room rounds (i + 1)).map fun r => r.map (tw.data :: ·)
    | some (.error .constraintError) => some (.ok [])
    | some (.error e) => some (.error e)

def itemBytes (tag : TLVTag) (id : BitVec 32) : List UInt8 := elemBytes tag (.ofU32 id)

/-- **Piece by piece**, the same ids are read. -/
theorem Codes.readItems_eq
    {encode : Option (Option ℕ) → TLVTag → WriteBuf → Option (Except ErrorCode WriteBuf)}
    {ids : List (BitVec 32)} (h : Codes encode ids) (tag : TLVTag) {room : ℕ}
    (hroom : ∀ id ∈ ids, (itemBytes tag id).length ≤ room) (rounds i : ℕ) (hi : i ≤ ids.length)
    (hrounds : ids.length - i < rounds) :
    readItems encode tag room rounds i = some (.ok ((ids.drop i).map (itemBytes tag))) := by
  induction rounds generalizing i with
  | zero => exact absurd hrounds (Nat.not_lt_zero _)
  | succ rounds ih =>
    rw [readItems]
    rcases Nat.lt_or_eq_of_le hi with hlt | rfl
    · have hid : ids[i]? = some ids[i] := List.getElem?_eq_getElem hlt
      have hfits : (itemBytes tag ids[i]).length ≤ (WriteBuf.mk [] room).room :=
        hroom _ (List.getElem_mem hlt)
      have hread := h.item i ids[i] hid tag ⟨[], room⟩
      have hwrite := WriteBuf.writeRawData_ok hfits
      rw [itemBytes] at hwrite
      rw [hread, hwrite]
      simp only
      rw [ih (i + 1) hlt (by omega), List.drop_eq_getElem_cons hlt]
      rfl
    · rw [h.beyond ids.length (Nat.le_refl _), List.drop_length]
      rfl

end FullCluster

end RsMatter
