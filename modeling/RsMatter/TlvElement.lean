import RsMatter.TlvRead

/-!
# One element: what is written is what is read

`elemBytes tag value` are the bytes of one element. Every write method appends them
(for the value it stands for), and every reader function, applied to them with
anything behind, finds the part it looks for.
-/

namespace RsMatter

/-! ## The bytes of an element -/

def TLVTag.bytes : TLVTag → List UInt8
  | anonymous => []
  | context v => toLE 1 v.toNat
  | commonPrf16 v => toLE 2 v.toNat
  | commonPrf32 v => toLE 4 v.toNat
  | implPrf16 v => toLE 2 v.toNat
  | implPrf32 v => toLE 4 v.toNat
  | fullQual48 vendorId profile tag =>
    toLE 2 vendorId.toNat ++ (toLE 2 profile.toNat ++ toLE 2 tag.toNat)
  | fullQual64 vendorId profile tag =>
    toLE 2 vendorId.toNat ++ (toLE 2 profile.toNat ++ toLE 4 tag.toNat)

namespace TLVValue

/-- The bytes of a value without its length field. -/
def payload : TLVValue → List UInt8
  | s8 v => toLE 1 v.toNat
  | s16 v => toLE 2 v.toNat
  | s32 v => toLE 4 v.toNat
  | s64 v => toLE 8 v.toNat
  | u8 v => toLE 1 v.toNat
  | u16 v => toLE 2 v.toNat
  | u32 v => toLE 4 v.toNat
  | u64 v => toLE 8 v.toNat
  | f32 v => toLE 4 v.toNat
  | f64 v => toLE 8 v.toNat
  | utf8l s | utf16l s | utf32l s | utf64l s => utf8Bytes s
  | str8l a | str16l a | str32l a | str64l a => a
  | _ => []

def lenField (v : TLVValue) : List UInt8 :=
  match v.valueType.fixedSize with
  | some _ => []
  | none => toLE v.valueType.variableSizeLen v.payload.length

/-- The length of a string fits its length field. -/
def Sized (v : TLVValue) : Prop :=
  v.valueType.fixedSize = none → v.payload.length < 256 ^ v.valueType.variableSizeLen

theorem fixedSize_eq {v : TLVValue} {n : ℕ} (h : v.valueType.fixedSize = some n) :
    v.payload.length = n ∧ v.valueType.variableSizeLen = 0 := by
  cases v <;> simp_all [valueType, TLVValueType.fixedSize, TLVValueType.variableSizeLen, payload]

theorem length_lenField (v : TLVValue) : v.lenField.length = v.valueType.variableSizeLen := by
  rw [lenField]
  cases h : v.valueType.fixedSize with
  | some n => exact (fixedSize_eq h).2.symm
  | none => exact length_toLE ..

end TLVValue

theorem TLVTag.length_bytes (tag : TLVTag) : tag.bytes.length = tag.tagType.size := by
  cases tag <;> simp [bytes, tagType, TLVTagType.size]

/-- The bytes of an element; of a container, of its start or end. -/
def elemBytes (tag : TLVTag) (v : TLVValue) : List UInt8 :=
  (TLVControl.mk tag.tagType v.valueType).asRaw :: (tag.bytes ++ (v.lenField ++ v.payload))

theorem length_elemBytes (tag : TLVTag) (v : TLVValue) :
    (elemBytes tag v).length =
      1 + tag.tagType.size + v.valueType.variableSizeLen + v.payload.length := by
  rw [elemBytes, List.length_cons, List.length_append, List.length_append, tag.length_bytes,
    v.length_lenField]
  omega

/-! ## Writing -/

namespace WriteBuf

def push (wb : WriteBuf) (bytes : List UInt8) : WriteBuf :=
  ⟨wb.data ++ bytes, wb.room - bytes.length⟩

@[simp] theorem push_nil (wb : WriteBuf) : wb.push [] = wb := by
  simp [push]

theorem push_push (wb : WriteBuf) (a b : List UInt8) : (wb.push a).push b = wb.push (a ++ b) := by
  simp [push, Nat.sub_sub]

theorem room_push (wb : WriteBuf) (a : List UInt8) : (wb.push a).room = wb.room - a.length := rfl

theorem write_ok {wb : WriteBuf} (h : 1 ≤ wb.room) (byte : UInt8) :
    wb.write byte = .ok (wb.push [byte]) := by
  obtain ⟨room, hroom⟩ := Nat.exists_eq_add_of_le' h
  rw [write, hroom, push, hroom]
  rfl

theorem writeRawData_ok {wb : WriteBuf} {bytes : List UInt8} (h : bytes.length ≤ wb.room) :
    wb.writeRawData bytes = .ok (wb.push bytes) := by
  induction bytes generalizing wb with
  | nil => rw [writeRawData, push_nil]
  | cons byte bytes ih =>
    rw [List.length_cons] at h
    rw [writeRawData, write_ok (by omega), ok_bind, ih, push_push]
    · rfl
    · rw [room_push, List.length_singleton]
      omega

theorem writeRawData_error {wb : WriteBuf} {bytes : List UInt8} (h : wb.room < bytes.length) :
    wb.writeRawData bytes = .error .noSpace := by
  induction bytes generalizing wb with
  | nil => cases h
  | cons byte bytes ih =>
    rw [writeRawData]
    rcases Nat.eq_zero_or_pos wb.room with hroom | hroom
    · rw [write, hroom]
      rfl
    · rw [write_ok hroom, ok_bind, ih]
      rw [room_push, List.length_singleton]
      rw [List.length_cons] at h
      omega

theorem writeRawData_append (wb : WriteBuf) (a b : List UInt8) :
    wb.writeRawData (a ++ b) = (do let wb ← wb.writeRawData a; wb.writeRawData b) := by
  induction a generalizing wb with
  | nil => rfl
  | cons byte a ih =>
    rw [List.cons_append, writeRawData, writeRawData]
    cases wb.write byte with
    | error code => rfl
    | ok wb' => exact ih wb'

theorem writeTag_eq (wb : WriteBuf) (tag : TLVTag) :
    wb.writeTag tag = wb.writeRawData tag.bytes := by
  cases tag with
  | fullQual48 vendorId profile tag =>
    rw [writeTag, TLVTag.bytes, writeRawData_append]
    refine bind_congr fun wb => ?_
    rw [writeRawData_append]
  | fullQual64 vendorId profile tag =>
    rw [writeTag, TLVTag.bytes, writeRawData_append]
    refine bind_congr fun wb => ?_
    rw [writeRawData_append]
  | _ => rfl

/-- An element with an encoded value is its control byte, its tag and that value. -/
theorem rawValue_eq (wb : WriteBuf) (tag : TLVTag) (t : TLVValueType) (a : List UInt8) :
    wb.rawValue tag t a =
      wb.writeRawData ((TLVControl.mk tag.tagType t).asRaw :: (tag.bytes ++ a)) := by
  rw [rawValue, writeRawData]
  refine bind_congr fun wb => ?_
  rw [writeRawData_append, writeTag_eq]

/-- **The general write method** appends the bytes of the element. -/
theorem tlv_eq (wb : WriteBuf) (tag : TLVTag) (v : TLVValue) :
    wb.tlv tag v = wb.writeRawData (elemBytes tag v) := by
  have hsplit : elemBytes tag v =
      ((TLVControl.mk tag.tagType v.valueType).asRaw :: (tag.bytes ++ [])) ++
        (v.lenField ++ v.payload) := by
    simp [elemBytes]
  rw [tlv, hsplit, writeRawData_append, rawValue_eq]
  refine bind_congr fun wb => ?_
  rw [writeRawData_append]
  cases v <;> rfl

/-! ### The typed methods

Each appends the element of the value that the constructor of the same name gives. -/

section Typed

variable (wb : WriteBuf) (tag : TLVTag)

theorem i8_eq (v : BitVec 8) : wb.i8 tag v = wb.tlv tag (.ofI8 v) := by
  rw [tlv_eq, i8, rawValue_eq]
  rfl

theorem u8_eq (v : BitVec 8) : wb.u8 tag v = wb.tlv tag (.ofU8 v) := by
  rw [tlv_eq, u8, rawValue_eq]
  rfl

theorem i16_eq (v : BitVec 16) : wb.i16 tag v = wb.tlv tag (.ofI16 v) := by
  rw [i16, TLVValue.ofI16]
  split
  · exact i8_eq wb tag _
  · rw [tlv_eq, rawValue_eq]
    rfl

theorem u16_eq (v : BitVec 16) : wb.u16 tag v = wb.tlv tag (.ofU16 v) := by
  rw [u16, TLVValue.ofU16]
  split
  · exact u8_eq wb tag _
  · rw [tlv_eq, rawValue_eq]
    rfl

theorem i32_eq (v : BitVec 32) : wb.i32 tag v = wb.tlv tag (.ofI32 v) := by
  rw [i32, TLVValue.ofI32]
  split
  · exact i16_eq wb tag _
  · rw [tlv_eq, rawValue_eq]
    rfl

theorem u32_eq (v : BitVec 32) : wb.u32 tag v = wb.tlv tag (.ofU32 v) := by
  rw [u32, TLVValue.ofU32]
  split
  · exact u16_eq wb tag _
  · rw [tlv_eq, rawValue_eq]
    rfl

theorem i64_eq (v : BitVec 64) : wb.i64 tag v = wb.tlv tag (.ofI64 v) := by
  rw [i64, TLVValue.ofI64]
  split
  · exact i32_eq wb tag _
  · rw [tlv_eq, rawValue_eq]
    rfl

theorem u64_eq (v : BitVec 64) : wb.u64 tag v = wb.tlv tag (.ofU64 v) := by
  rw [u64, TLVValue.ofU64]
  split
  · exact u32_eq wb tag _
  · rw [tlv_eq, rawValue_eq]
    rfl

theorem f32_eq (v : BitVec 32) : wb.f32 tag v = wb.tlv tag (.f32 v) := by
  rw [tlv_eq, f32, rawValue_eq]
  rfl

theorem f64_eq (v : BitVec 64) : wb.f64 tag v = wb.tlv tag (.f64 v) := by
  rw [tlv_eq, f64, rawValue_eq]
  rfl

theorem null_eq : wb.null tag = wb.tlv tag .null := by
  rw [tlv_eq, null, rawValue_eq]
  rfl

theorem bool_eq (b : Bool) : wb.bool tag b = wb.tlv tag (.ofBool b) := by
  rw [tlv_eq, bool, rawValue_eq]
  cases b <;> rfl

/-- A length field followed by the string is the payload of the string element. -/
theorem rawValue_then (t : TLVValueType) (a b : List UInt8) :
    (do let wb ← wb.rawValue tag t a; wb.writeRawData b) =
      wb.writeRawData ((TLVControl.mk tag.tagType t).asRaw :: (tag.bytes ++ (a ++ b))) := by
  rw [rawValue_eq, ← writeRawData_append]
  simp

theorem str_eq (a : List UInt8) : wb.str tag a = wb.tlv tag (.ofStr a) := by
  rw [tlv_eq, str, TLVValue.ofStr]
  split
  · exact rawValue_then ..
  split
  · exact rawValue_then ..
  split <;> exact rawValue_then ..

theorem utf8_eq (s : String) : wb.utf8 tag s = wb.tlv tag (.ofUtf8 s) := by
  rw [tlv_eq, utf8, TLVValue.ofUtf8]
  split
  · exact rawValue_then ..
  split
  · exact rawValue_then ..
  split <;> exact rawValue_then ..

end Typed

end WriteBuf

/-! ## Reading -/

theorem sliceTo_append {a : List UInt8} {n : ℕ} (h : a.length = n) (b : List UInt8) :
    sliceTo (a ++ b) n = .ok a := by
  subst h
  simp [sliceTo]

theorem sliceFrom_append {a : List UInt8} {n : ℕ} (h : a.length = n) (b : List UInt8) :
    sliceFrom (a ++ b) n = .ok b := by
  subst h
  simp [sliceFrom]

theorem ofNat_ofLE_toLE {n : ℕ} (w : ℕ) (hn : 8 * w = n) (v : BitVec n) :
    BitVec.ofNat n (ofLE (toLE w v.toNat)) = v := by
  rw [ofLE_toLE (toNat_lt_pow w hn v), BitVec.ofNat_toNat, BitVec.setWidth_eq]

theorem fromUtf8_utf8Bytes (s : String) : TLVElement.fromUtf8 (utf8Bytes s) = .ok s := by
  have hvalid : s.toUTF8.IsValidUTF8 := s.isValidUTF8
  have hs : String.fromUTF8? s.toUTF8 = some s := by
    rw [String.fromUTF8?, dif_pos hvalid]
    rfl
  rw [TLVElement.fromUtf8, utf8Bytes, Array.toArray_toList, hs]

namespace TLVSequence

variable (tag : TLVTag) (v : TLVValue) (rest : List UInt8)

theorem control_elem : control (elemBytes tag v ++ rest) = .ok ⟨tag.tagType, v.valueType⟩ :=
  TLVControl.parse_asRaw _

theorem elemBytes_append_ne_nil : (elemBytes tag v ++ rest).isEmpty = false := rfl

theorem tagStart_elem :
    tagStart (elemBytes tag v ++ rest) = .ok (tag.bytes ++ (v.lenField ++ (v.payload ++ rest))) := by
  rw [tagStart, sliceFrom, if_pos (by simp [elemBytes])]
  simp [elemBytes]

theorem valueLenStart_elem :
    valueLenStart (elemBytes tag v ++ rest) tag.tagType =
      .ok (v.lenField ++ (v.payload ++ rest)) := by
  rw [valueLenStart, tagStart_elem, ok_bind, sliceFrom_append tag.length_bytes]

theorem valueStart_elem :
    valueStart (elemBytes tag v ++ rest) ⟨tag.tagType, v.valueType⟩ = .ok (v.payload ++ rest) := by
  rw [valueStart, valueLenStart_elem, ok_bind, sliceFrom_append v.length_lenField]

variable {v} (hv : v.Sized)
include hv

theorem valueLen_elem :
    valueLen (elemBytes tag v ++ rest) ⟨tag.tagType, v.valueType⟩ = .ok v.payload.length := by
  rw [valueLen]
  cases hsize : v.valueType.fixedSize with
  | some n =>
    simp only [(TLVValue.fixedSize_eq hsize).1]
  | none =>
    simp only
    rw [valueLenStart_elem, ok_bind, sliceTo_append v.length_lenField, ok_bind,
      TLVValue.lenField, hsize]
    exact congrArg Except.ok (ofLE_toLE (hv hsize))

theorem nextStart_elem :
    nextStart (elemBytes tag v ++ rest) ⟨tag.tagType, v.valueType⟩ = .ok rest := by
  rw [nextStart, valueLen_elem tag rest hv, ok_bind, valueStart_elem, ok_bind,
    sliceFrom_append rfl]

theorem nextEnter_elem : nextEnter (elemBytes tag v ++ rest) = .ok rest := by
  rw [nextEnter, elemBytes_append_ne_nil, if_neg Bool.false_ne_true, control_elem, ok_bind,
    nextStart_elem tag rest hv]

theorem len_elem : len (elemBytes tag v ++ rest) = .ok (elemBytes tag v).length := by
  rw [len, control_elem, ok_bind, valueLen_elem tag rest hv, ok_bind, length_elemBytes]
  rfl

theorem containerValueLen_elem (hleaf : v.valueType.isContainer = false) :
    containerValueLen (elemBytes tag v ++ rest) ⟨tag.tagType, v.valueType⟩ =
      .ok v.payload.length := by
  simp only [containerValueLen, hleaf]
  exact valueLen_elem tag rest hv

theorem containerValue_elem (hleaf : v.valueType.isContainer = false) :
    containerValue (elemBytes tag v ++ rest) ⟨tag.tagType, v.valueType⟩ = .ok v.payload := by
  rw [containerValue, containerValueLen_elem tag rest hv hleaf, ok_bind, valueStart_elem, ok_bind,
    sliceTo_append rfl]

end TLVSequence

namespace TLVElement

open TLVSequence

/-- **The tag** that is read is the tag that was written. -/
theorem tag_elem (tag : TLVTag) (v : TLVValue) (rest : List UInt8) :
    TLVElement.tag (elemBytes tag v ++ rest) = .ok tag := by
  rw [TLVElement.tag, control_elem, ok_bind, tagStart_elem, ok_bind,
    sliceTo_append tag.length_bytes, ok_bind]
  refine congrArg Except.ok ?_
  cases tag with
  | anonymous => rfl
  | context t => exact congrArg _ (ofNat_ofLE_toLE 1 rfl t)
  | commonPrf16 t => exact congrArg _ (ofNat_ofLE_toLE 2 rfl t)
  | commonPrf32 t => exact congrArg _ (ofNat_ofLE_toLE 4 rfl t)
  | implPrf16 t => exact congrArg _ (ofNat_ofLE_toLE 2 rfl t)
  | implPrf32 t => exact congrArg _ (ofNat_ofLE_toLE 4 rfl t)
  | fullQual48 vendorId profile t =>
    refine TLVTag.fullQual48.injEq .. ▸ ⟨?_, ?_, ?_⟩
    · exact ofNat_ofLE_toLE 2 rfl vendorId
    · exact ofNat_ofLE_toLE 2 rfl profile
    · exact ofNat_ofLE_toLE 2 rfl t
  | fullQual64 vendorId profile t =>
    refine TLVTag.fullQual64.injEq .. ▸ ⟨?_, ?_, ?_⟩
    · exact ofNat_ofLE_toLE 2 rfl vendorId
    · exact ofNat_ofLE_toLE 2 rfl profile
    · exact ofNat_ofLE_toLE 4 rfl t

/-- **The value** that is read is the value that was written. -/
theorem value_elem (tag : TLVTag) {v : TLVValue} (rest : List UInt8) (hv : v.Sized)
    (hleaf : v.valueType.isContainer = false) :
    TLVElement.value (elemBytes tag v ++ rest) = .ok v := by
  rw [TLVElement.value, control_elem, ok_bind, containerValue_elem tag rest hv hleaf, ok_bind]
  cases v with
  | s8 a | u8 a => exact congrArg (Except.ok ∘ _) (ofNat_ofLE_toLE 1 rfl a)
  | s16 a | u16 a => exact congrArg (Except.ok ∘ _) (ofNat_ofLE_toLE 2 rfl a)
  | s32 a | u32 a | f32 a => exact congrArg (Except.ok ∘ _) (ofNat_ofLE_toLE 4 rfl a)
  | s64 a | u64 a | f64 a => exact congrArg (Except.ok ∘ _) (ofNat_ofLE_toLE 8 rfl a)
  | utf8l s | utf16l s | utf32l s | utf64l s =>
    simp only [TLVValue.valueType, TLVValue.payload, fromUtf8_utf8Bytes]
    rfl
  | str8l a | str16l a | str32l a | str64l a => rfl
  | «false» | «true» | null => rfl
  | struct | array | list | endCnt => cases hleaf

end TLVElement

end RsMatter
