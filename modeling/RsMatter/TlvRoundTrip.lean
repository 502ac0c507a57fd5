import RsMatter.TlvElement

/-!
# Trees of TLV elements

A tree is written member by member between the start and the end of its containers,
and read back by asking every element for its tag, its value and, of a container, its
members. The reader finds the end of a container by counting, over bytes that may go on
in any way behind it: so every statement here is about the bytes of a tree with
anything behind.
-/

namespace RsMatter

/-! ## Trees -/

inductive ContainerType where
  | struct
  | array
  | list
  deriving DecidableEq

namespace ContainerType

def value : ContainerType → TLVValue
  | struct => .struct
  | array => .array
  | list => .list

def ofValue? : TLVValue → Option ContainerType
  | .struct => some struct
  | .array => some array
  | .list => some list
  | _ => none

def start (wb : WriteBuf) (tag : TLVTag) : ContainerType → Except ErrorCode WriteBuf
  | struct => wb.startStruct tag
  | array => wb.startArray tag
  | list => wb.startList tag

end ContainerType

/-- A tree of elements with leaves in `α`. -/
inductive TLVTree (α : Type) where
  | leaf (tag : TLVTag) (value : α)
  | node (tag : TLVTag) (kind : ContainerType) (members : List (TLVTree α))

mutual

def TLVTree.map {α β : Type} (f : α → β) : TLVTree α → TLVTree β
  | .leaf tag a => .leaf tag (f a)
  | .node tag kind members => .node tag kind (mapMembers f members)

def mapMembers {α β : Type} (f : α → β) : List (TLVTree α) → List (TLVTree β)
  | [] => []
  | t :: ts => t.map f :: mapMembers f ts

end

/-- A value that is no container, and whose length fits its length field. -/
structure LeafValue where
  val : TLVValue
  leaf : val.valueType.isContainer = false
  sized : val.Sized

/-! ## Writing and reading a tree -/

/-- A call of a write method that appends an element without members. A slice has fewer
than `2 ^ 64` bytes. -/
inductive LeafCall where
  | tlv (value : LeafValue)
  | i8 (data : BitVec 8)
  | u8 (data : BitVec 8)
  | i16 (data : BitVec 16)
  | u16 (data : BitVec 16)
  | i32 (data : BitVec 32)
  | u32 (data : BitVec 32)
  | i64 (data : BitVec 64)
  | u64 (data : BitVec 64)
  | f32 (bits : BitVec 32)
  | f64 (bits : BitVec 64)
  | str (data : List UInt8) (hlen : data.length < 2 ^ 64)
  | utf8 (data : String) (hlen : (utf8Bytes data).length < 2 ^ 64)
  | null
  | bool (val : Bool)

def LeafCall.write (wb : WriteBuf) (tag : TLVTag) : LeafCall → Except ErrorCode WriteBuf
  | tlv v => wb.tlv tag v.val
  | i8 data => wb.i8 tag data
  | u8 data => wb.u8 tag data
  | i16 data => wb.i16 tag data
  | u16 data => wb.u16 tag data
  | i32 data => wb.i32 tag data
  | u32 data => wb.u32 tag data
  | i64 data => wb.i64 tag data
  | u64 data => wb.u64 tag data
  | f32 bits => wb.f32 tag bits
  | f64 bits => wb.f64 tag bits
  | str data _ => wb.str tag data
  | utf8 data _ => wb.utf8 tag data
  | null => wb.null tag
  | bool val => wb.bool tag val

mutual

def TLVTree.write (wb : WriteBuf) : TLVTree LeafCall → Except ErrorCode WriteBuf
  | .leaf tag call => call.write wb tag
  | .node tag kind members => do
    let wb ← kind.start wb tag
    let wb ← writeMembers wb members
    wb.endContainer

def writeMembers (wb : WriteBuf) : List (TLVTree LeafCall) → Except ErrorCode WriteBuf
  | [] => .ok wb
  | t :: ts => do
    let wb ← t.write wb
    writeMembers wb ts

end

/-- Read an element with its members, to a depth of `fuel`. -/
def readTreeTo : ℕ → List UInt8 → Except ErrorCode (TLVTree TLVValue)
  | 0, _ => .error .tlvTypeMismatch
  | fuel + 1, elem => do
    let tag ← TLVElement.tag elem
    let value ← TLVElement.value elem
    match ContainerType.ofValue? value with
    | none => return .leaf tag value
    | some kind => do
      let seq ← TLVElement.container elem
      let elems ← TLVSequence.iter (seq.length + 1) seq
      let members ← elems.mapM (readTreeTo fuel)
      return .node tag kind members

/-- Read an element with its members. Every level takes a byte. -/
def readTree (elem : List UInt8) : Except ErrorCode (TLVTree TLVValue) :=
  readTreeTo elem.length elem

/-! ## What a call means -/

/-- What a value stands for, however it is encoded. -/
inductive Datum where
  | int (v : ℤ)
  | bool (b : Bool)
  | f32 (bits : BitVec 32)
  | f64 (bits : BitVec 64)
  | text (s : String)
  | octets (bytes : List UInt8)
  | null
  | marker

def TLVValue.datum : TLVValue → Datum
  | s8 v => .int v.toInt
  | s16 v => .int v.toInt
  | s32 v => .int v.toInt
  | s64 v => .int v.toInt
  | u8 v => .int v.toNat
  | u16 v => .int v.toNat
  | u32 v => .int v.toNat
  | u64 v => .int v.toNat
  | .false => .bool Bool.false
  | .true => .bool Bool.true
  | f32 bits => .f32 bits
  | f64 bits => .f64 bits
  | utf8l s | utf16l s | utf32l s | utf64l s => .text s
  | str8l a | str16l a | str32l a | str64l a => .octets a
  | null => .null
  | struct | array | list | endCnt => .marker

/-- What the caller of a write method hands to it. -/
def LeafCall.datum : LeafCall → Datum
  | tlv v => v.val.datum
  | i8 data => .int data.toInt
  | i16 data => .int data.toInt
  | i32 data => .int data.toInt
  | i64 data => .int data.toInt
  | u8 data => .int data.toNat
  | u16 data => .int data.toNat
  | u32 data => .int data.toNat
  | u64 data => .int data.toNat
  | f32 bits => .f32 bits
  | f64 bits => .f64 bits
  | str data _ => .octets data
  | utf8 data _ => .text data
  | null => .null
  | bool val => .bool val

def LeafCall.value : LeafCall → TLVValue
  | tlv v => v.val
  | i8 data => .ofI8 data
  | u8 data => .ofU8 data
  | i16 data => .ofI16 data
  | u16 data => .ofU16 data
  | i32 data => .ofI32 data
  | u32 data => .ofU32 data
  | i64 data => .ofI64 data
  | u64 data => .ofU64 data
  | f32 bits => .f32 bits
  | f64 bits => .f64 bits
  | str data _ => .ofStr data
  | utf8 data _ => .ofUtf8 data
  | null => .null
  | bool val => .ofBool val

theorem toInt_setWidth_of_fits {n : ℕ} (k : ℕ) (v : BitVec n) (hn : k + 1 ≤ n)
    (h : -2 ^ k ≤ v.toInt ∧ v.toInt ≤ 2 ^ k - 1) : (v.setWidth (k + 1)).toInt = v.toInt := by
  have hpow : ((2 ^ (k + 1) : ℕ) : ℤ) = 2 ^ k * 2 := by
    push_cast
    ring
  rw [← BitVec.signExtend_eq_setWidth_of_le v hn,
    BitVec.toInt_signExtend_eq_toInt_bmod_of_le v hn]
  exact Int.bmod_eq_of_le_mul_two (by omega) (by omega)

theorem toNat_setWidth_of_fits {n m : ℕ} (v : BitVec n) (h : v.toNat ≤ 2 ^ m - 1) :
    (v.setWidth m).toNat = v.toNat := by
  have hpos : 0 < 2 ^ m := Nat.two_pow_pos m
  rw [BitVec.toNat_setWidth, Nat.mod_eq_of_lt (by omega)]

namespace TLVValue

theorem datum_ofI16 (v : BitVec 16) : (ofI16 v).datum = .int v.toInt := by
  rw [ofI16]
  split
  case isTrue h => exact congrArg Datum.int (toInt_setWidth_of_fits 7 v (by decide) h)
  case isFalse => rfl

theorem datum_ofI32 (v : BitVec 32) : (ofI32 v).datum = .int v.toInt := by
  rw [ofI32]
  split
  case isTrue h => rw [datum_ofI16, toInt_setWidth_of_fits 15 v (by decide) h]
  case isFalse => rfl

theorem datum_ofI64 (v : BitVec 64) : (ofI64 v).datum = .int v.toInt := by
  rw [ofI64]
  split
  case isTrue h => rw [datum_ofI32, toInt_setWidth_of_fits 31 v (by decide) h]
  case isFalse => rfl

theorem datum_ofU16 (v : BitVec 16) : (ofU16 v).datum = .int v.toNat := by
  rw [ofU16]
  split
  case isTrue h => exact congrArg (Datum.int ∘ Nat.cast) (toNat_setWidth_of_fits v h)
  case isFalse => rfl

theorem datum_ofU32 (v : BitVec 32) : (ofU32 v).datum = .int v.toNat := by
  rw [ofU32]
  split
  case isTrue h => rw [datum_ofU16, toNat_setWidth_of_fits v h]
  case isFalse => rfl

theorem datum_ofU64 (v : BitVec 64) : (ofU64 v).datum = .int v.toNat := by
  rw [ofU64]
  split
  case isTrue h => rw [datum_ofU32, toNat_setWidth_of_fits v h]
  case isFalse => rfl

end TLVValue

namespace LeafCall

/-- The value that a call writes stands for what the caller handed to it. -/
theorem datum_value (call : LeafCall) : call.value.datum = call.datum := by
  cases call with
  | i16 data => exact TLVValue.datum_ofI16 data
  | i32 data => exact TLVValue.datum_ofI32 data
  | i64 data => exact TLVValue.datum_ofI64 data
  | u16 data => exact TLVValue.datum_ofU16 data
  | u32 data => exact TLVValue.datum_ofU32 data
  | u64 data => exact TLVValue.datum_ofU64 data
  | str data =>
    rw [value, TLVValue.ofStr]
    split_ifs <;> rfl
  | utf8 data =>
    rw [value, TLVValue.ofUtf8]
    split_ifs <;> rfl
  | bool val => cases val <;> rfl
  | _ => rfl

theorem value_leaf (call : LeafCall) : call.value.valueType.isContainer = false := by
  cases call with
  | tlv v => exact v.leaf
  | i16 | i32 | i64 =>
    simp only [value, TLVValue.ofI16, TLVValue.ofI32, TLVValue.ofI64]
    split_ifs <;> rfl
  | u16 | u32 | u64 =>
    simp only [value, TLVValue.ofU16, TLVValue.ofU32, TLVValue.ofU64]
    split_ifs <;> rfl
  | str | utf8 =>
    simp only [value, TLVValue.ofStr, TLVValue.ofUtf8]
    split_ifs <;> rfl
  | bool val => cases val <;> rfl
  | _ => rfl

theorem value_sized (call : LeafCall) : call.value.Sized := by
  intro hsize
  cases call with
  | tlv v => exact v.sized hsize
  | i16 | i32 | i64 =>
    simp only [value, TLVValue.ofI16, TLVValue.ofI32, TLVValue.ofI64] at hsize
    split_ifs at hsize <;> cases hsize
  | u16 | u32 | u64 =>
    simp only [value, TLVValue.ofU16, TLVValue.ofU32, TLVValue.ofU64] at hsize
    split_ifs at hsize <;> cases hsize
  | str data hlen =>
    rw [value, TLVValue.ofStr]
    split_ifs <;> simp only [TLVValue.payload, TLVValue.valueType, TLVValueType.variableSizeLen] <;>
      omega
  | utf8 data hlen =>
    rw [value, TLVValue.ofUtf8]
    split_ifs <;> simp only [TLVValue.payload, TLVValue.valueType, TLVValueType.variableSizeLen] <;>
      omega
  | bool val => cases val <;> cases hsize
  | _ => cases hsize

theorem write_eq (wb : WriteBuf) (tag : TLVTag) (call : LeafCall) :
    call.write wb tag = wb.writeRawData (elemBytes tag call.value) := by
  rw [← WriteBuf.tlv_eq]
  cases call with
  | tlv v => rfl
  | i8 data => exact wb.i8_eq tag data
  | u8 data => exact wb.u8_eq tag data
  | i16 data => exact wb.i16_eq tag data
  | u16 data => exact wb.u16_eq tag data
  | i32 data => exact wb.i32_eq tag data
  | u32 data => exact wb.u32_eq tag data
  | i64 data => exact wb.i64_eq tag data
  | u64 data => exact wb.u64_eq tag data
  | f32 bits => exact wb.f32_eq tag bits
  | f64 bits => exact wb.f64_eq tag bits
  | str data => exact wb.str_eq tag data
  | utf8 data => exact wb.utf8_eq tag data
  | null => exact wb.null_eq tag
  | bool val => exact wb.bool_eq tag val

end LeafCall

/-! ## The bytes of a tree -/

mutual

def TLVTree.bytes : TLVTree LeafCall → List UInt8
  | .leaf tag call => elemBytes tag call.value
  | .node tag kind members =>
    elemBytes tag kind.value ++ (bytesMembers members ++ elemBytes .anonymous .endCnt)

def bytesMembers : List (TLVTree LeafCall) → List UInt8
  | [] => []
  | t :: ts => t.bytes ++ bytesMembers ts

end

theorem bytesMembers_append (ts us : List (TLVTree LeafCall)) :
    bytesMembers (ts ++ us) = bytesMembers ts ++ bytesMembers us := by
  induction ts with
  | nil => rfl
  | cons t ts ih => rw [List.cons_append, bytesMembers, ih, bytesMembers, List.append_assoc]

mutual

/-- How many elements and end markers a tree has. -/
def TLVTree.tokens : TLVTree LeafCall → ℕ
  | .leaf .. => 1
  | .node _ _ members => tokensMembers members + 2

/-- How many elements and end markers trees have. -/
def tokensMembers : List (TLVTree LeafCall) → ℕ
  | [] => 0
  | t :: ts => tokensMembers ts + t.tokens

end

theorem TLVTree.one_le_tokens (t : TLVTree LeafCall) : 1 ≤ t.tokens := by
  cases t with
  | leaf tag call => exact le_rfl
  | node tag kind members => exact Nat.succ_le_succ (Nat.zero_le _)

theorem one_le_length_elemBytes (tag : TLVTag) (v : TLVValue) : 1 ≤ (elemBytes tag v).length := by
  simp [elemBytes]

mutual

theorem TLVTree.tokens_le (t : TLVTree LeafCall) : t.tokens ≤ t.bytes.length := by
  cases t with
  | leaf tag call => exact one_le_length_elemBytes tag call.value
  | node tag kind members =>
    have hmembers := tokensMembers_le members
    have hstart := one_le_length_elemBytes tag kind.value
    have hend := one_le_length_elemBytes .anonymous .endCnt
    rw [TLVTree.tokens, TLVTree.bytes, List.length_append, List.length_append]
    omega

theorem tokensMembers_le (ts : List (TLVTree LeafCall)) :
    tokensMembers ts ≤ (bytesMembers ts).length := by
  cases ts with
  | nil => exact le_rfl
  | cons t ts =>
    have ht := t.tokens_le
    have hts := tokensMembers_le ts
    rw [tokensMembers, bytesMembers, List.length_append]
    omega

end

theorem ContainerType.start_eq (wb : WriteBuf) (tag : TLVTag) (kind : ContainerType) :
    kind.start wb tag = wb.writeRawData (elemBytes tag kind.value) := by
  cases kind <;> exact WriteBuf.rawValue_eq wb tag _ []

theorem WriteBuf.endContainer_eq (wb : WriteBuf) :
    wb.endContainer = wb.writeRawData (elemBytes .anonymous .endCnt) := by
  rw [endContainer, elemBytes, writeRawData]
  exact (bind_pure _).symm

mutual

/-- **Writing a tree** appends its bytes, as far as there is room. -/
theorem TLVTree.write_eq (wb : WriteBuf) (t : TLVTree LeafCall) :
    t.write wb = wb.writeRawData t.bytes := by
  cases t with
  | leaf tag call => exact call.write_eq wb tag
  | node tag kind members =>
    rw [TLVTree.write, TLVTree.bytes, WriteBuf.writeRawData_append, kind.start_eq]
    refine bind_congr fun wb => ?_
    rw [WriteBuf.writeRawData_append, writeMembers_eq]
    exact bind_congr fun wb => wb.endContainer_eq

theorem writeMembers_eq (wb : WriteBuf) (ts : List (TLVTree LeafCall)) :
    writeMembers wb ts = wb.writeRawData (bytesMembers ts) := by
  cases ts with
  | nil => rfl
  | cons t ts =>
    rw [writeMembers, bytesMembers, WriteBuf.writeRawData_append, t.write_eq]
    exact bind_congr fun wb => writeMembers_eq wb ts

end

/-! ## Counting to the end of a container -/

theorem ContainerType.value_sized (kind : ContainerType) : kind.value.Sized := by
  cases kind <;> exact fun h => nomatch h

theorem ContainerType.isContainer_value (kind : ContainerType) :
    kind.value.valueType.isContainer = true := by
  cases kind <;> rfl

theorem ContainerType.isContainerEnd_value (kind : ContainerType) :
    kind.value.valueType.isContainerEnd = false := by
  cases kind <;> rfl

theorem ContainerType.length_payload_value (kind : ContainerType) :
    kind.value.payload.length = 0 := by
  cases kind <;> rfl

theorem endCnt_sized : TLVValue.endCnt.Sized := fun h => nomatch h

namespace TLVSequence

theorem nextLevel_leaf (tagType : TLVTagType) {v : TLVValue}
    (hleaf : v.valueType.isContainer = false) (level : ℕ) :
    nextLevel ⟨tagType, v.valueType⟩ level = .ok level := by
  have hend : v.valueType.isContainerEnd = false := (Bool.or_eq_false_iff.mp hleaf).2
  simp only [nextLevel, hend, hleaf]
  rfl

theorem nextLevel_start (tagType : TLVTagType) (kind : ContainerType) (level : ℕ) :
    nextLevel ⟨tagType, kind.value.valueType⟩ level = .ok (level + 1) := by
  cases kind <;> rfl

theorem nextLevel_end (level : ℕ) :
    nextLevel ⟨TLVTag.anonymous.tagType, TLVValue.endCnt.valueType⟩ level = .ok (level - 1) := rfl

theorem containerNextLoop_zero (fuel : ℕ) (next : List UInt8) :
    containerNextLoop fuel 0 next = .ok next := by
  cases fuel <;> rfl

theorem containerValueLenLoop_zero (fuel : ℕ) (next : List UInt8) (n : ℕ) :
    containerValueLenLoop fuel 0 next n = .ok n := by
  cases fuel <;> rfl

section Loops

variable {tag : TLVTag} {v : TLVValue} {level level' : ℕ}

/-- One round of `containerNext`. -/
theorem containerNextLoop_elem (hv : v.Sized)
    (hlevel : nextLevel ⟨tag.tagType, v.valueType⟩ (level + 1) = .ok level') (fuel : ℕ)
    (rest : List UInt8) :
    containerNextLoop (fuel + 1) (level + 1) (elemBytes tag v ++ rest) =
      containerNextLoop fuel level' rest := by
  rw [containerNextLoop, control_elem, ok_bind, hlevel, ok_bind, nextEnter_elem tag rest hv,
    ok_bind]

/-- One round of `containerValueLen`, which looks at the element behind `prev`. -/
theorem containerValueLenLoop_elem (hv : v.Sized)
    (hlevel : nextLevel ⟨tag.tagType, v.valueType⟩ (level + 1) = .ok level') (fuel : ℕ)
    {prev rest : List UInt8} (hprev : nextEnter prev = .ok (elemBytes tag v ++ rest)) (n : ℕ) :
    containerValueLenLoop (fuel + 1) (level + 1) prev n =
      containerValueLenLoop fuel level' (elemBytes tag v ++ rest)
        (n + (elemBytes tag v).length) := by
  rw [containerValueLenLoop, hprev, ok_bind, len_elem tag rest hv, ok_bind, control_elem, ok_bind,
    hlevel, ok_bind]

end Loops

mutual

/-- A whole tree leaves `containerNext` as deep as it was. -/
theorem containerNextLoop_tree (fuel level : ℕ) (t : TLVTree LeafCall) (rest : List UInt8) :
    containerNextLoop (fuel + t.tokens) (level + 1) (t.bytes ++ rest) =
      containerNextLoop fuel (level + 1) rest := by
  cases t with
  | leaf tag call =>
    exact containerNextLoop_elem call.value_sized (nextLevel_leaf _ call.value_leaf _) fuel rest
  | node tag kind members =>
    have hfuel : fuel + (tokensMembers members + 2) = fuel + 1 + tokensMembers members + 1 := by
      omega
    rw [TLVTree.tokens, TLVTree.bytes, List.append_assoc, List.append_assoc, hfuel,
      containerNextLoop_elem kind.value_sized (nextLevel_start ..),
      containerNextLoop_members (fuel + 1) (level + 1) members,
      containerNextLoop_elem endCnt_sized (nextLevel_end _)]
    rfl

theorem containerNextLoop_members (fuel level : ℕ) (ts : List (TLVTree LeafCall))
    (rest : List UInt8) :
    containerNextLoop (fuel + tokensMembers ts) (level + 1) (bytesMembers ts ++ rest) =
      containerNextLoop fuel (level + 1) rest := by
  cases ts with
  | nil => rfl
  | cons t ts =>
    rw [tokensMembers, bytesMembers, List.append_assoc, ← Nat.add_assoc,
      containerNextLoop_tree _ level t, containerNextLoop_members fuel level ts]

end

mutual

/-- A whole tree leaves `containerValueLen` as deep as it was, with its length counted. -/
theorem containerValueLenLoop_tree (fuel level : ℕ) (t : TLVTree LeafCall)
    {prev rest : List UInt8} (hprev : nextEnter prev = .ok (t.bytes ++ rest)) (n : ℕ) :
    ∃ next, nextEnter next = .ok rest ∧
      containerValueLenLoop (fuel + t.tokens) (level + 1) prev n =
        containerValueLenLoop fuel (level + 1) next (n + t.bytes.length) := by
  cases t with
  | leaf tag call =>
    refine ⟨elemBytes tag call.value ++ rest, nextEnter_elem tag rest call.value_sized, ?_⟩
    exact containerValueLenLoop_elem call.value_sized (nextLevel_leaf _ call.value_leaf _) fuel
      hprev n
  | node tag kind members =>
    rw [TLVTree.bytes, List.append_assoc, List.append_assoc] at hprev
    have hfuel : fuel + (tokensMembers members + 2) = fuel + 1 + tokensMembers members + 1 := by
      omega
    obtain ⟨next, hnext, hmembers⟩ := containerValueLenLoop_members (fuel + 1) (level + 1) members
      (nextEnter_elem tag _ kind.value_sized) (n + (elemBytes tag kind.value).length)
    refine ⟨elemBytes .anonymous .endCnt ++ rest, nextEnter_elem _ rest endCnt_sized, ?_⟩
    rw [TLVTree.tokens, hfuel,
      containerValueLenLoop_elem kind.value_sized (nextLevel_start ..) _ hprev, hmembers,
      containerValueLenLoop_elem endCnt_sized (nextLevel_end _) _ hnext, TLVTree.bytes,
      List.length_append, List.length_append]
    simp only [Nat.add_assoc]
    rfl

theorem containerValueLenLoop_members (fuel level : ℕ) (ts : List (TLVTree LeafCall))
    {prev rest : List UInt8} (hprev : nextEnter prev = .ok (bytesMembers ts ++ rest)) (n : ℕ) :
    ∃ next, nextEnter next = .ok rest ∧
      containerValueLenLoop (fuel + tokensMembers ts) (level + 1) prev n =
        containerValueLenLoop fuel (level + 1) next (n + (bytesMembers ts).length) := by
  cases ts with
  | nil => exact ⟨prev, hprev, rfl⟩
  | cons t ts =>
    rw [bytesMembers, List.append_assoc] at hprev
    obtain ⟨next, hnext, ht⟩ :=
      containerValueLenLoop_tree (fuel + tokensMembers ts) level t hprev n
    obtain ⟨next', hnext', hts⟩ :=
      containerValueLenLoop_members fuel level ts hnext (n + t.bytes.length)
    refine ⟨next', hnext', ?_⟩
    rw [tokensMembers, ← Nat.add_assoc, ht, hts, bytesMembers, List.length_append, Nat.add_assoc]

end

/-- The fuel of the loops suffices for the members of a container. -/
theorem tokensMembers_lt (tag : TLVTag) (kind : ContainerType) (members : List (TLVTree LeafCall))
    (rest : List UInt8) :
    1 + tokensMembers members ≤ ((TLVTree.node tag kind members).bytes ++ rest).length := by
  have hmembers := tokensMembers_le members
  have hstart := one_le_length_elemBytes tag kind.value
  rw [TLVTree.bytes, List.length_append, List.length_append, List.length_append]
  omega

/-- **The element after a tree** is the one behind its bytes. -/
theorem containerNext_tree (t : TLVTree LeafCall) (rest : List UInt8) :
    containerNext (t.bytes ++ rest) = .ok rest := by
  cases t with
  | leaf tag call =>
    have hleaf := call.value_leaf
    have hend : call.value.valueType.isContainerEnd = false := (Bool.or_eq_false_iff.mp hleaf).2
    rw [TLVTree.bytes, containerNext, elemBytes_append_ne_nil, if_neg Bool.false_ne_true,
      control_elem, ok_bind]
    simp only [hend, hleaf]
    rw [if_neg Bool.false_ne_true, nextEnter_elem tag rest call.value_sized, ok_bind,
      if_neg Bool.false_ne_true]
    rfl
  | node tag kind members =>
    obtain ⟨fuel, hfuel⟩ := Nat.exists_eq_add_of_le' (tokensMembers_lt tag kind members rest)
    rw [containerNext, hfuel, TLVTree.bytes, List.append_assoc, List.append_assoc,
      elemBytes_append_ne_nil, if_neg Bool.false_ne_true, control_elem, ok_bind]
    simp only [kind.isContainerEnd_value, kind.isContainer_value]
    rw [if_neg Bool.false_ne_true, nextEnter_elem tag _ kind.value_sized, ok_bind, if_pos trivial,
      ← Nat.add_assoc, containerNextLoop_members (fuel + 1) 0 members,
      containerNextLoop_elem endCnt_sized (nextLevel_end _), containerNextLoop_zero]

theorem containerValueLen_node (tag : TLVTag) (kind : ContainerType)
    (members : List (TLVTree LeafCall)) (rest : List UInt8) :
    containerValueLen ((TLVTree.node tag kind members).bytes ++ rest)
        ⟨tag.tagType, kind.value.valueType⟩ =
      .ok (bytesMembers members ++ elemBytes .anonymous .endCnt).length := by
  obtain ⟨fuel, hfuel⟩ := Nat.exists_eq_add_of_le' (tokensMembers_lt tag kind members rest)
  have hstart : nextEnter ((TLVTree.node tag kind members).bytes ++ rest) =
      .ok (bytesMembers members ++ (elemBytes .anonymous .endCnt ++ rest)) := by
    rw [TLVTree.bytes, List.append_assoc, List.append_assoc]
    exact nextEnter_elem tag _ kind.value_sized
  obtain ⟨next, hnext, hmembers⟩ := containerValueLenLoop_members (fuel + 1) 0 members hstart 0
  rw [containerValueLen]
  simp only [kind.isContainer_value]
  rw [if_pos trivial, hfuel, ← Nat.add_assoc, hmembers,
    containerValueLenLoop_elem endCnt_sized (nextLevel_end _) _ hnext, containerValueLenLoop_zero,
    List.length_append, Nat.zero_add]

/-- **The length of a tree** is the number of its bytes. -/
theorem containerLen_tree (t : TLVTree LeafCall) (rest : List UInt8) :
    containerLen (t.bytes ++ rest) = .ok t.bytes.length := by
  cases t with
  | leaf tag call =>
    rw [TLVTree.bytes, containerLen, control_elem, ok_bind,
      containerValueLen_elem tag rest call.value_sized call.value_leaf, ok_bind, length_elemBytes]
    rfl
  | node tag kind members =>
    have hcontrol : control ((TLVTree.node tag kind members).bytes ++ rest) =
        .ok ⟨tag.tagType, kind.value.valueType⟩ := by
      rw [TLVTree.bytes, List.append_assoc, control_elem]
    have hlength : (TLVTree.node tag kind members).bytes.length =
        (elemBytes tag kind.value).length +
          (bytesMembers members ++ elemBytes .anonymous .endCnt).length := by
      rw [TLVTree.bytes, List.length_append]
    rw [containerLen, hcontrol, ok_bind, containerValueLen_node, ok_bind, hlength,
      length_elemBytes tag, kind.length_payload_value]
    rfl

/-! ## Iterating over the members -/

/-- The elements that the iterator finds: every member with what follows it. -/
def memberSlices : List (TLVTree LeafCall) → List UInt8 → List (List UInt8)
  | [], _ => []
  | t :: ts, rest => (t.bytes ++ (bytesMembers ts ++ rest)) :: memberSlices ts rest

theorem current_tree (t : TLVTree LeafCall) (rest : List UInt8) :
    current (t.bytes ++ rest) = .ok (t.bytes ++ rest) := by
  cases t with
  | leaf tag call =>
    have hend : call.value.valueType.isContainerEnd = false :=
      (Bool.or_eq_false_iff.mp call.value_leaf).2
    rw [TLVTree.bytes, current, elemBytes_append_ne_nil, if_neg Bool.false_ne_true, control_elem,
      ok_bind]
    simp only [hend]
    rfl
  | node tag kind members =>
    rw [TLVTree.bytes, List.append_assoc, current, elemBytes_append_ne_nil,
      if_neg Bool.false_ne_true, control_elem, ok_bind]
    simp only [kind.isContainerEnd_value]
    rfl

theorem isEmpty_tree (t : TLVTree LeafCall) (rest : List UInt8) :
    (t.bytes ++ rest).isEmpty = false := by
  cases t <;> rfl

/-- **The iterator** finds the members and stops at the end marker. -/
theorem iter_members (fuel : ℕ) (ts : List (TLVTree LeafCall)) (rest : List UInt8) :
    iter (fuel + 1 + tokensMembers ts) (bytesMembers ts ++ (elemBytes .anonymous .endCnt ++ rest)) =
      .ok (memberSlices ts (elemBytes .anonymous .endCnt ++ rest)) := by
  induction ts generalizing fuel with
  | nil => rfl
  | cons t ts ih =>
    obtain ⟨more, hmore⟩ := Nat.exists_eq_add_of_le' t.one_le_tokens
    have hfuel : fuel + 1 + tokensMembers (t :: ts) = fuel + more + 1 + tokensMembers ts + 1 := by
      rw [tokensMembers, hmore]
      omega
    rw [hfuel, iter, iterNext, bytesMembers, List.append_assoc, current_tree, ok_bind,
      containerNext_tree, ok_bind, isEmpty_tree]
    simp only [pure_bind, Bool.false_eq_true, if_false]
    rw [ih]
    rfl

end TLVSequence

/-! ## The round trip -/

section Node

variable (tag : TLVTag) (kind : ContainerType) (members : List (TLVTree LeafCall))
  (rest : List UInt8)

theorem TLVElement.tag_node :
    TLVElement.tag ((TLVTree.node tag kind members).bytes ++ rest) = .ok tag := by
  rw [TLVTree.bytes, List.append_assoc]
  exact TLVElement.tag_elem tag kind.value _

theorem TLVElement.value_node :
    TLVElement.value ((TLVTree.node tag kind members).bytes ++ rest) = .ok kind.value := by
  have hcontrol : TLVSequence.control ((TLVTree.node tag kind members).bytes ++ rest) =
      .ok ⟨tag.tagType, kind.value.valueType⟩ := by
    rw [TLVTree.bytes, List.append_assoc, TLVSequence.control_elem]
  have hstart : TLVSequence.valueStart ((TLVTree.node tag kind members).bytes ++ rest)
      ⟨tag.tagType, kind.value.valueType⟩ =
        .ok (bytesMembers members ++ elemBytes .anonymous .endCnt ++ rest) := by
    rw [TLVTree.bytes, List.append_assoc, TLVSequence.valueStart_elem,
      List.eq_nil_of_length_eq_zero kind.length_payload_value, List.nil_append]
  rw [TLVElement.value, hcontrol, ok_bind, TLVSequence.containerValue,
    TLVSequence.containerValueLen_node, ok_bind, hstart, ok_bind, sliceTo_append rfl, ok_bind]
  cases kind <;> rfl

theorem TLVElement.container_node :
    TLVElement.container ((TLVTree.node tag kind members).bytes ++ rest) =
      .ok (bytesMembers members ++ (elemBytes .anonymous .endCnt ++ rest)) := by
  have hstart : kind.value.valueType.isContainerStart = true := by
    cases kind <;> rfl
  rw [TLVTree.bytes, List.append_assoc, List.append_assoc, TLVElement.container,
    TLVSequence.control_elem, ok_bind]
  simp only [hstart]
  exact TLVSequence.nextEnter_elem tag _ kind.value_sized

end Node

theorem ContainerType.ofValue?_value (kind : ContainerType) : ofValue? kind.value = some kind := by
  cases kind <;> rfl

theorem LeafCall.ofValue?_value (call : LeafCall) : ContainerType.ofValue? call.value = none := by
  have hleaf := call.value_leaf
  cases h : call.value with
  | struct | array | list =>
    rw [h] at hleaf
    cases hleaf
  | _ => rfl

mutual

theorem readTreeTo_tree (fuel : ℕ) (t : TLVTree LeafCall) (rest : List UInt8)
    (hfuel : t.tokens ≤ fuel) :
    readTreeTo fuel (t.bytes ++ rest) = .ok (t.map LeafCall.value) := by
  obtain ⟨fuel, rfl⟩ := Nat.exists_eq_add_of_le' (t.one_le_tokens.trans hfuel)
  cases t with
  | leaf tag call =>
    rw [readTreeTo, TLVTree.bytes, TLVElement.tag_elem, ok_bind,
      TLVElement.value_elem tag rest call.value_sized call.value_leaf, ok_bind]
    simp only [call.ofValue?_value]
    rfl
  | node tag kind members =>
    have hmembers : tokensMembers members ≤ fuel := by
      rw [TLVTree.tokens] at hfuel
      omega
    rw [readTreeTo, TLVElement.tag_node, ok_bind, TLVElement.value_node, ok_bind]
    simp only [kind.ofValue?_value]
    rw [TLVElement.container_node, ok_bind]
    -- the iterator may take as many steps as there are bytes
    have hlength := tokensMembers_le members
    obtain ⟨more, hmore⟩ := Nat.exists_eq_add_of_le' (show tokensMembers members ≤
      (bytesMembers members ++ (elemBytes .anonymous .endCnt ++ rest)).length by
        rw [List.length_append]
        omega)
    rw [hmore, Nat.add_right_comm, TLVSequence.iter_members, ok_bind,
      readTreeTo_members fuel members _ hmembers]
    rfl

theorem readTreeTo_members (fuel : ℕ) (ts : List (TLVTree LeafCall)) (rest : List UInt8)
    (hfuel : tokensMembers ts ≤ fuel) :
    (TLVSequence.memberSlices ts rest).mapM (readTreeTo fuel) =
      .ok (mapMembers LeafCall.value ts) := by
  cases ts with
  | nil => rfl
  | cons t ts =>
    rw [tokensMembers] at hfuel
    rw [TLVSequence.memberSlices, List.mapM_cons, readTreeTo_tree fuel t _ (by omega), ok_bind,
      readTreeTo_members fuel ts rest (by omega), ok_bind]
    rfl

end

mutual

theorem TLVTree.map_map {α β γ : Type} (f : α → β) (g : β → γ) (t : TLVTree α) :
    (t.map f).map g = t.map (g ∘ f) := by
  cases t with
  | leaf tag a => rfl
  | node tag kind members => exact congrArg (TLVTree.node tag kind) (mapMembers_map f g members)

theorem mapMembers_map {α β γ : Type} (f : α → β) (g : β → γ) (ts : List (TLVTree α)) :
    mapMembers g (mapMembers f ts) = mapMembers (g ∘ f) ts := by
  cases ts with
  | nil => rfl
  | cons t ts => exact congrArg₂ List.cons (t.map_map f g) (mapMembers_map f g ts)

end

/-- A struct with a narrowed integer and a list with an octet string. -/
def nestedTree : TLVTree LeafCall :=
  .node (.context 1) .struct
    [.leaf (.fullQual48 0xfff1 2 3) (.i32 (-5)),
      .node .anonymous .list [.leaf (.implPrf32 70000) (.str [1, 2, 3] (by decide))]]

end RsMatter
