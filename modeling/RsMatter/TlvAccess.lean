import RsMatter.TlvRoundTrip

/-!
# Asking an element for its value (`tlv/read.rs`, `tlv/traits/primitive.rs`)

What `FromTLV` implementations are made of: the typed value of an element, the members
of a structure or a list, and the member with a given context tag, found either
anywhere among the members (`findCtx`) or from the current one on, in the order of the
tags (`scanCtx`). An empty slice stands for an element that is not there.
-/

namespace RsMatter

/-! ## The accessors -/

namespace TLVSequence

def tag (seq : List UInt8) (tagType : TLVTagType) : Except ErrorCode (List UInt8) := do
  let data ← tagStart seq
  sliceTo data tagType.size

/-- The bytes of the value; none of a container. -/
def value (seq : List UInt8) (control : TLVControl) : Except ErrorCode (List UInt8) := do
  let len ← valueLen seq control
  let data ← valueStart seq control
  sliceTo data len

end TLVSequence

namespace TLVElement

open TLVSequence

/-- `slice.try_into()` for an array of `n` bytes. -/
def tryInto (n : ℕ) (slice : List UInt8) : Except ErrorCode (List UInt8) :=
  if slice.length = n then .ok slice else .error .invalidData

/-- An integer of the given value type, or what the narrower type gives. -/
def uint {w : ℕ} (t : TLVValueType) (size : ℕ) (narrower : Except ErrorCode (BitVec w))
    (elem : List UInt8) : Except ErrorCode (BitVec w) := do
  let c ← control elem
  if c.valueType = t then do
    let slice ← TLVSequence.value elem c
    let bytes ← tryInto size slice
    return BitVec.ofNat w (ofLE bytes)
  else narrower

def u8 (elem : List UInt8) : Except ErrorCode (BitVec 8) :=
  uint .u8 1 (.error .tlvTypeMismatch) elem

/-- An unsigned 16-bit integer, or a narrower one. -/
def u16 (elem : List UInt8) : Except ErrorCode (BitVec 16) :=
  uint .u16 2 ((u8 elem).map (BitVec.setWidth 16)) elem

/-- An unsigned 32-bit integer, or a narrower one. -/
def u32 (elem : List UInt8) : Except ErrorCode (BitVec 32) :=
  uint .u32 4 ((u16 elem).map (BitVec.setWidth 32)) elem

/-- An unsigned 64-bit integer, or a narrower one. -/
def u64 (elem : List UInt8) : Except ErrorCode (BitVec 64) :=
  uint .u64 8 ((u32 elem).map (BitVec.setWidth 64)) elem

def bool (elem : List UInt8) : Except ErrorCode Bool := do
  let c ← control elem
  match c.valueType with
  | .false => return Bool.false
  | .true => return Bool.true
  | _ => .error .tlvTypeMismatch

/-- The members of a container of the given type. -/
def membersOf (t : TLVValueType) (code : ErrorCode) (elem : List UInt8) :
    Except ErrorCode (List UInt8) := do
  let c ← control elem
  if c.valueType = t then nextEnter elem else .error code

def «structure» (elem : List UInt8) : Except ErrorCode (List UInt8) :=
  membersOf .struct .tlvTypeMismatch elem

def array (elem : List UInt8) : Except ErrorCode (List UInt8) :=
  membersOf .array .invalidData elem

def list (elem : List UInt8) : Except ErrorCode (List UInt8) :=
  membersOf .list .tlvTypeMismatch elem

/-- The context id, if the tag is a context tag. -/
def tryCtx (elem : List UInt8) : Except ErrorCode (Option (BitVec 8)) := do
  let c ← control elem
  if c.tagType = .context then do
    let slice ← TLVSequence.tag elem c.tagType
    match slice with
    | byte :: _ => return some (BitVec.ofNat 8 byte.toNat)
    | [] => .error .tlvTypeMismatch
  else return none

end TLVElement

namespace TLVSequence

/-- The loop of `findCtx`. -/
def findCtxLoop (ctx : BitVec 8) : ℕ → List UInt8 → Except ErrorCode (List UInt8)
  | 0, _ => .error .tlvTypeMismatch
  | fuel + 1, seq => do
    let (elem, rest) ← iterNext seq
    match elem with
    | none => return []
    | some elem => do
      let elemCtx ← TLVElement.tryCtx elem
      if elemCtx = some ctx then return elem else findCtxLoop ctx fuel rest

/-- The first element with a context id, empty if there is none. Every round but the last
takes a byte. -/
def findCtx (ctx : BitVec 8) (seq : List UInt8) : Except ErrorCode (List UInt8) :=
  findCtxLoop ctx (seq.length + 1) seq

/-- The loop of `scanCtx`. -/
def scanCtxLoop (ctx : BitVec 8) : ℕ → List UInt8 → Except ErrorCode (List UInt8 × List UInt8)
  | 0, _ => .error .tlvTypeMismatch
  | fuel + 1, seq => do
    let elem ← current seq
    if elem.isEmpty then return (elem, seq)
    else do
      let elemCtx ← TLVElement.tryCtx elem
      match elemCtx with
      | some elemCtx =>
        if elemCtx = ctx then return (elem, seq)
        else if ctx < elemCtx then return ([], seq)
        else do
          let rest ← containerNext seq
          scanCtxLoop ctx fuel rest
      | none => do
        let rest ← containerNext seq
        scanCtxLoop ctx fuel rest

/-- The element with a context id, empty if a greater id or the end comes first; and the
sequence from where the scan stopped. Every round but the last takes a byte. -/
def scanCtx (ctx : BitVec 8) (seq : List UInt8) : Except ErrorCode (List UInt8 × List UInt8) :=
  scanCtxLoop ctx (seq.length + 1) seq

end TLVSequence

/-- `Option::from_tlv`. -/
def optionFromTlv {α : Type} (fromTlv : List UInt8 → Except ErrorCode α) (elem : List UInt8) :
    Except ErrorCode (Option α) :=
  if elem.isEmpty then .ok none
  else do
    let a ← fromTlv elem
    return some a

theorem optionFromTlv_nil {α : Type} (fromTlv : List UInt8 → Except ErrorCode α) :
    optionFromTlv fromTlv [] = .ok none := rfl

theorem optionFromTlv_elem {α : Type} (fromTlv : List UInt8 → Except ErrorCode α) {a : α}
    {elem : List UInt8} (hne : elem.isEmpty = false) (h : fromTlv elem = .ok a) :
    optionFromTlv fromTlv elem = .ok (some a) := by
  rw [optionFromTlv, hne, if_neg Bool.false_ne_true, h]
  rfl

/-! ## The accessors on what was written -/

section Elements

open TLVSequence

variable (tag : TLVTag) (rest : List UInt8)

theorem TLVSequence.value_elem {v : TLVValue} (hv : v.Sized) :
    TLVSequence.value (elemBytes tag v ++ rest) ⟨tag.tagType, v.valueType⟩ = .ok v.payload := by
  rw [TLVSequence.value, valueLen_elem tag rest hv, ok_bind, valueStart_elem, ok_bind,
    sliceTo_append rfl]

namespace TLVElement

theorem uint_elem {w size : ℕ} {v : TLVValue} (hv : v.Sized) (hsize : v.payload.length = size)
    (narrower : Except ErrorCode (BitVec w)) :
    uint v.valueType size narrower (elemBytes tag v ++ rest) =
      .ok (BitVec.ofNat w (ofLE v.payload)) := by
  rw [uint, control_elem, ok_bind, if_pos rfl, TLVSequence.value_elem tag rest hv, ok_bind,
    tryInto, if_pos hsize]
  rfl

theorem uint_of_ne {w size : ℕ} {t : TLVValueType} {v : TLVValue} (hne : v.valueType ≠ t)
    (narrower : Except ErrorCode (BitVec w)) :
    uint t size narrower (elemBytes tag v ++ rest) = narrower := by
  rw [uint, control_elem, ok_bind, if_neg hne]

theorem u8_elem (v : BitVec 8) : u8 (elemBytes tag (.ofU8 v) ++ rest) = .ok v := by
  refine (uint_elem tag rest (v := .u8 v) (fun h => nomatch h) rfl _).trans ?_
  exact congrArg Except.ok (ofNat_ofLE_toLE 1 rfl v)

theorem setWidth_of_fits {n m : ℕ} (v : BitVec n) (h : v.toNat ≤ 2 ^ m - 1) :
    (v.setWidth m).setWidth n = v := by
  refine BitVec.eq_of_toNat_eq ?_
  rw [BitVec.toNat_setWidth, toNat_setWidth_of_fits v h, Nat.mod_eq_of_lt v.isLt]

theorem valueType_ofU8_ne_u16 (v : BitVec 8) : (TLVValue.ofU8 v).valueType ≠ .u16 :=
  fun h => nomatch h

theorem u16_elem (v : BitVec 16) : u16 (elemBytes tag (.ofU16 v) ++ rest) = .ok v := by
  rw [TLVValue.ofU16]
  split
  case isTrue h =>
    rw [u16, uint_of_ne tag rest (valueType_ofU8_ne_u16 _), u8_elem]
    exact congrArg Except.ok (setWidth_of_fits v h)
  case isFalse =>
    refine (uint_elem tag rest (v := .u16 v) (by rintro ⟨⟩) rfl _).trans ?_
    exact congrArg Except.ok (ofNat_ofLE_toLE 2 rfl v)

theorem valueType_ofU16_ne_u32 (v : BitVec 16) : (TLVValue.ofU16 v).valueType ≠ .u32 := by
  rw [TLVValue.ofU16]
  split <;> rintro ⟨⟩

theorem u32_elem (v : BitVec 32) : u32 (elemBytes tag (.ofU32 v) ++ rest) = .ok v := by
  rw [TLVValue.ofU32]
  split
  case isTrue h =>
    rw [u32, uint_of_ne tag rest (valueType_ofU16_ne_u32 _), u16_elem]
    exact congrArg Except.ok (setWidth_of_fits v h)
  case isFalse =>
    refine (uint_elem tag rest (v := .u32 v) (by rintro ⟨⟩) rfl _).trans ?_
    exact congrArg Except.ok (ofNat_ofLE_toLE 4 rfl v)

theorem valueType_ofU32_ne_u64 (v : BitVec 32) : (TLVValue.ofU32 v).valueType ≠ .u64 := by
  rw [TLVValue.ofU32, TLVValue.ofU16]
  split_ifs <;> rintro ⟨⟩

theorem u64_elem (v : BitVec 64) : u64 (elemBytes tag (.ofU64 v) ++ rest) = .ok v := by
  rw [TLVValue.ofU64]
  split
  case isTrue h =>
    rw [u64, uint_of_ne tag rest (valueType_ofU32_ne_u64 _), u32_elem]
    exact congrArg Except.ok (setWidth_of_fits v h)
  case isFalse =>
    refine (uint_elem tag rest (v := .u64 v) (by rintro ⟨⟩) rfl _).trans ?_
    exact congrArg Except.ok (ofNat_ofLE_toLE 8 rfl v)

end TLVElement

end Elements

/-! ## Finding a member by its tag -/

def TLVTree.tag {α : Type} : TLVTree α → TLVTag
  | .leaf tag _ => tag
  | .node tag _ _ => tag

def TLVTag.ctx? : TLVTag → Option (BitVec 8)
  | context ctx => some ctx
  | _ => none

theorem TLVTree.bytes_eq_elem (t : TLVTree LeafCall) :
    ∃ v rest, t.bytes = elemBytes t.tag v ++ rest := by
  cases t with
  | leaf tag call => exact ⟨call.value, [], (List.append_nil _).symm⟩
  | node tag kind members => exact ⟨kind.value, _, rfl⟩

theorem TLVElement.tag_tree (t : TLVTree LeafCall) (rest : List UInt8) :
    TLVElement.tag (t.bytes ++ rest) = .ok t.tag := by
  obtain ⟨v, tail, hbytes⟩ := t.bytes_eq_elem
  rw [hbytes, List.append_assoc, tag_elem]

theorem TLVElement.tryCtx_tree (t : TLVTree LeafCall) (rest : List UInt8) :
    TLVElement.tryCtx (t.bytes ++ rest) = .ok t.tag.ctx? := by
  obtain ⟨v, tail, hbytes⟩ := t.bytes_eq_elem
  rw [hbytes, List.append_assoc, tryCtx, TLVSequence.control_elem, ok_bind]
  cases t.tag with
  | context ctx =>
    rw [if_pos (by rfl), TLVSequence.tag, TLVSequence.tagStart_elem, ok_bind,
      sliceTo_append (TLVTag.length_bytes _), ok_bind]
    exact congrArg (Except.ok ∘ some) (ofNat_ofLE_toLE 1 rfl ctx)
  | _ => rfl

theorem TLVElement.membersOf_node (tag : TLVTag) (kind : ContainerType)
    (members : List (TLVTree LeafCall)) (code : ErrorCode) (rest : List UInt8) :
    membersOf kind.value.valueType code ((TLVTree.node tag kind members).bytes ++ rest) =
      .ok (bytesMembers members ++ (elemBytes .anonymous .endCnt ++ rest)) := by
  rw [TLVTree.bytes, List.append_assoc, List.append_assoc, membersOf, TLVSequence.control_elem,
    ok_bind, if_pos rfl]
  exact TLVSequence.nextEnter_elem tag _ kind.value_sized

namespace TLVSequence

variable (t : TLVTree LeafCall) (rest : List UInt8)

theorem iterNext_tree : iterNext (t.bytes ++ rest) = .ok (some (t.bytes ++ rest), rest) := by
  rw [iterNext, current_tree, ok_bind, containerNext_tree, ok_bind, isEmpty_tree]
  rfl

theorem iterNext_end : iterNext (elemBytes .anonymous .endCnt ++ rest) =
    .ok (none, elemBytes .anonymous .endCnt ++ rest) := rfl

variable {t} {ctx : BitVec 8}

theorem findCtxLoop_of_ne (fuel : ℕ) (hne : t.tag.ctx? ≠ some ctx) :
    findCtxLoop ctx (fuel + 1) (t.bytes ++ rest) = findCtxLoop ctx fuel rest := by
  rw [findCtxLoop, iterNext_tree, ok_bind]
  simp only
  rw [TLVElement.tryCtx_tree, ok_bind, if_neg hne]

theorem findCtxLoop_of_eq (fuel : ℕ) (heq : t.tag.ctx? = some ctx) :
    findCtxLoop ctx (fuel + 1) (t.bytes ++ rest) = .ok (t.bytes ++ rest) := by
  rw [findCtxLoop, iterNext_tree, ok_bind]
  simp only
  rw [TLVElement.tryCtx_tree, ok_bind, if_pos heq]
  rfl

theorem scanCtxLoop_of_lt (fuel : ℕ) {elemCtx : BitVec 8} (heq : t.tag.ctx? = some elemCtx)
    (hlt : elemCtx < ctx) :
    scanCtxLoop ctx (fuel + 1) (t.bytes ++ rest) = scanCtxLoop ctx fuel rest := by
  have hne : elemCtx ≠ ctx := fun h => BitVec.lt_irrefl ctx (h ▸ hlt)
  have hnlt : ¬ctx < elemCtx := BitVec.lt_asymm hlt
  rw [scanCtxLoop, current_tree, ok_bind, isEmpty_tree, if_neg Bool.false_ne_true,
    TLVElement.tryCtx_tree, ok_bind, heq]
  simp only [if_neg hne, if_neg hnlt]
  rw [containerNext_tree, ok_bind]

theorem scanCtxLoop_of_eq (fuel : ℕ) (heq : t.tag.ctx? = some ctx) :
    scanCtxLoop ctx (fuel + 1) (t.bytes ++ rest) = .ok (t.bytes ++ rest, t.bytes ++ rest) := by
  rw [scanCtxLoop, current_tree, ok_bind, isEmpty_tree, if_neg Bool.false_ne_true,
    TLVElement.tryCtx_tree, ok_bind, heq]
  simp only [if_true]
  rfl

theorem scanCtxLoop_of_gt (fuel : ℕ) {elemCtx : BitVec 8} (heq : t.tag.ctx? = some elemCtx)
    (hlt : ctx < elemCtx) :
    scanCtxLoop ctx (fuel + 1) (t.bytes ++ rest) = .ok ([], t.bytes ++ rest) := by
  have hne : elemCtx ≠ ctx := fun h => BitVec.lt_irrefl ctx (h ▸ hlt)
  rw [scanCtxLoop, current_tree, ok_bind, isEmpty_tree, if_neg Bool.false_ne_true,
    TLVElement.tryCtx_tree, ok_bind, heq]
  simp only [if_neg hne, if_pos hlt]
  rfl

theorem scanCtxLoop_end (fuel : ℕ) :
    scanCtxLoop ctx (fuel + 1) (elemBytes .anonymous .endCnt ++ rest) =
      .ok ([], elemBytes .anonymous .endCnt ++ rest) := rfl

/-- A smaller tag is passed over; the bytes of the tree pay for the round. -/
theorem scanCtx_of_lt {elemCtx : BitVec 8} (heq : t.tag.ctx? = some elemCtx)
    (hlt : elemCtx < ctx) :
    ∃ fuel, scanCtx ctx (t.bytes ++ rest) = scanCtxLoop ctx (fuel + 1) rest := by
  have hpos := t.one_le_tokens.trans t.tokens_le
  refine ⟨(t.bytes ++ rest).length - 1, ?_⟩
  rw [scanCtx, scanCtxLoop_of_lt rest _ heq hlt, Nat.sub_add_cancel]
  rw [List.length_append]
  omega

theorem scanCtx_next {u : TLVTree LeafCall} {elemCtx : BitVec 8} (ht : t.tag.ctx? = some elemCtx)
    (hlt : elemCtx < ctx) (hu : u.tag.ctx? = some ctx) :
    scanCtx ctx (t.bytes ++ (u.bytes ++ rest)) = .ok (u.bytes ++ rest, u.bytes ++ rest) := by
  obtain ⟨fuel, hfuel⟩ := scanCtx_of_lt (u.bytes ++ rest) ht hlt
  rw [hfuel, scanCtxLoop_of_eq rest fuel hu]

theorem scanCtx_last {elemCtx : BitVec 8} (ht : t.tag.ctx? = some elemCtx) (hlt : elemCtx < ctx) :
    scanCtx ctx (t.bytes ++ (elemBytes .anonymous .endCnt ++ rest)) =
      .ok ([], elemBytes .anonymous .endCnt ++ rest) := by
  obtain ⟨fuel, hfuel⟩ := scanCtx_of_lt (elemBytes .anonymous .endCnt ++ rest) ht hlt
  rw [hfuel, scanCtxLoop_end]

/-- **Finding a member** behind others that have another tag. -/
theorem findCtxLoop_members (before after : List (TLVTree LeafCall))
    (hbefore : ∀ u ∈ before, u.tag.ctx? ≠ some ctx) (heq : t.tag.ctx? = some ctx) (fuel : ℕ)
    (hfuel : before.length ≤ fuel) :
    findCtxLoop ctx (fuel + 1) (bytesMembers (before ++ t :: after) ++ rest) =
      .ok (t.bytes ++ (bytesMembers after ++ rest)) := by
  induction before generalizing fuel with
  | nil =>
    rw [List.nil_append, bytesMembers, List.append_assoc]
    exact findCtxLoop_of_eq _ fuel heq
  | cons u before ih =>
    obtain ⟨fuel, rfl⟩ := Nat.exists_eq_add_of_le' (Nat.one_le_of_lt hfuel)
    rw [List.cons_append, bytesMembers, List.append_assoc,
      findCtxLoop_of_ne _ _ (hbefore u List.mem_cons_self)]
    exact ih (fun v hv => hbefore v (List.mem_cons_of_mem _ hv)) fuel (Nat.le_of_succ_le_succ hfuel)

end TLVSequence

theorem length_le_bytesMembers (ts : List (TLVTree LeafCall)) :
    ts.length ≤ (bytesMembers ts).length := by
  induction ts with
  | nil => exact le_rfl
  | cons t ts ih =>
    have ht := t.one_le_tokens.trans t.tokens_le
    rw [List.length_cons, bytesMembers, List.length_append]
    omega

theorem TLVSequence.findCtx_members {t : TLVTree LeafCall} {ctx : BitVec 8} (rest : List UInt8)
    (before after : List (TLVTree LeafCall)) (hbefore : ∀ u ∈ before, u.tag.ctx? ≠ some ctx)
    (heq : t.tag.ctx? = some ctx) :
    findCtx ctx (bytesMembers (before ++ t :: after) ++ rest) =
      .ok (t.bytes ++ (bytesMembers after ++ rest)) := by
  refine findCtxLoop_members rest before after hbefore heq _ ?_
  have hlength := length_le_bytesMembers before
  rw [bytesMembers_append, List.length_append, List.length_append]
  omega

end RsMatter
