import Mathlib.Data.BitVec
import RsMatter.Basic
import RsMatter.Bytes

/-!
# TLV elements and how they are written (`tlv.rs`, `tlv/write.rs`)

An element is a control byte (tag type and value type), the tag, a length field for
strings, and the value; a container is an element without a value that is followed
by its members and an end marker. `TLVWrite` appends such elements to a bounded
buffer byte by byte, through one general method (`tlv`) and a family of typed ones
that choose the narrowest encoding.

Integers and floats are kept as their bits.
-/

namespace RsMatter

/-! ## The control byte -/

inductive TLVTagType where
  | anonymous
  | context
  | commonPrf16
  | commonPrf32
  | implPrf16
  | implPrf32
  | fullQual48
  | fullQual64
  deriving DecidableEq

namespace TLVTagType

def toNat : TLVTagType → ℕ
  | anonymous => 0
  | context => 1
  | commonPrf16 => 2
  | commonPrf32 => 3
  | implPrf16 => 4
  | implPrf32 => 5
  | fullQual48 => 6
  | fullQual64 => 7

def ofNat? : ℕ → Option TLVTagType
  | 0 => some anonymous
  | 1 => some context
  | 2 => some commonPrf16
  | 3 => some commonPrf32
  | 4 => some implPrf16
  | 5 => some implPrf32
  | 6 => some fullQual48
  | 7 => some fullQual64
  | _ => none

def size : TLVTagType → ℕ
  | anonymous => 0
  | context => 1
  | commonPrf16 => 2
  | commonPrf32 => 4
  | implPrf16 => 2
  | implPrf32 => 4
  | fullQual48 => 6
  | fullQual64 => 8

end TLVTagType

inductive TLVValueType where
  | s8
  | s16
  | s32
  | s64
  | u8
  | u16
  | u32
  | u64
  | «false»
  | «true»
  | f32
  | f64
  | utf8l
  | utf16l
  | utf32l
  | utf64l
  | str8l
  | str16l
  | str32l
  | str64l
  | null
  | struct
  | array
  | list
  | endCnt
  deriving DecidableEq

namespace TLVValueType

def toNat : TLVValueType → ℕ
  | s8 => 0
  | s16 => 1
  | s32 => 2
  | s64 => 3
  | u8 => 4
  | u16 => 5
  | u32 => 6
  | u64 => 7
  | .false => 8
  | .true => 9
  | f32 => 10
  | f64 => 11
  | utf8l => 12
  | utf16l => 13
  | utf32l => 14
  | utf64l => 15
  | str8l => 16
  | str16l => 17
  | str32l => 18
  | str64l => 19
  | null => 20
  | struct => 21
  | array => 22
  | list => 23
  | endCnt => 24

def ofNat? : ℕ → Option TLVValueType
  | 0 => some s8
  | 1 => some s16
  | 2 => some s32
  | 3 => some s64
  | 4 => some u8
  | 5 => some u16
  | 6 => some u32
  | 7 => some u64
  | 8 => some .false
  | 9 => some .true
  | 10 => some f32
  | 11 => some f64
  | 12 => some utf8l
  | 13 => some utf16l
  | 14 => some utf32l
  | 15 => some utf64l
  | 16 => some str8l
  | 17 => some str16l
  | 18 => some str32l
  | 19 => some str64l
  | 20 => some null
  | 21 => some struct
  | 22 => some array
  | 23 => some list
  | 24 => some endCnt
  | _ => none

/-- The size of the value, `none` for strings. -/
def fixedSize : TLVValueType → Option ℕ
  | s8 => some 1
  | s16 => some 2
  | s32 => some 4
  | s64 => some 8
  | u8 => some 1
  | u16 => some 2
  | u32 => some 4
  | u64 => some 8
  | f32 => some 4
  | f64 => some 8
  | utf8l | utf16l | utf32l | utf64l | str8l | str16l | str32l | str64l => none
  | _ => some 0

def variableSizeLen : TLVValueType → ℕ
  | utf8l | str8l => 1
  | utf16l | str16l => 2
  | utf32l | str32l => 4
  | utf64l | str64l => 8
  | _ => 0

def isContainerStart : TLVValueType → Bool
  | struct | array | list => .true
  | _ => .false

def isContainerEnd : TLVValueType → Bool
  | endCnt => .true
  | _ => .false

def isContainer (t : TLVValueType) : Bool := t.isContainerStart || t.isContainerEnd

end TLVValueType

structure TLVControl where
  tagType : TLVTagType
  valueType : TLVValueType
  deriving DecidableEq

namespace TLVControl

def parse (control : UInt8) : Except ErrorCode TLVControl :=
  match TLVTagType.ofNat? ((control &&& 0xe0) >>> 5).toNat with
  | none => .error .tlvTypeMismatch
  | some tagType =>
    match TLVValueType.ofNat? (control &&& 0x1f).toNat with
    | none => .error .tlvTypeMismatch
    | some valueType => .ok ⟨tagType, valueType⟩

def asRaw (c : TLVControl) : UInt8 :=
  (UInt8.ofNat c.tagType.toNat <<< 5) ||| UInt8.ofNat c.valueType.toNat

/-- Does a container end here? The end marker has no tag. -/
def isContainerEnd (c : TLVControl) : Bool :=
  c.tagType == .anonymous && c.valueType.isContainerEnd

def confirmContainerEnd (c : TLVControl) : Except ErrorCode Unit :=
  if c.isContainerEnd then .ok () else .error .invalidData

theorem parse_asRaw (c : TLVControl) : parse c.asRaw = .ok c := by
  obtain ⟨tagType, valueType⟩ := c
  cases tagType <;> cases valueType <;> rfl

end TLVControl

/-! ## Tags and values -/

inductive TLVTag where
  | anonymous
  | context (tag : BitVec 8)
  | commonPrf16 (tag : BitVec 16)
  | commonPrf32 (tag : BitVec 32)
  | implPrf16 (tag : BitVec 16)
  | implPrf32 (tag : BitVec 32)
  | fullQual48 (vendorId profile tag : BitVec 16)
  | fullQual64 (vendorId profile : BitVec 16) (tag : BitVec 32)
  deriving DecidableEq

namespace TLVTag

def tagType : TLVTag → TLVTagType
  | anonymous => .anonymous
  | context _ => .context
  | commonPrf16 _ => .commonPrf16
  | commonPrf32 _ => .commonPrf32
  | implPrf16 _ => .implPrf16
  | implPrf32 _ => .implPrf32
  | fullQual48 .. => .fullQual48
  | fullQual64 .. => .fullQual64

end TLVTag

/-- A value; of a container only its start or end. -/
inductive TLVValue where
  | s8 (v : BitVec 8)
  | s16 (v : BitVec 16)
  | s32 (v : BitVec 32)
  | s64 (v : BitVec 64)
  | u8 (v : BitVec 8)
  | u16 (v : BitVec 16)
  | u32 (v : BitVec 32)
  | u64 (v : BitVec 64)
  | «false»
  | «true»
  | f32 (bits : BitVec 32)
  | f64 (bits : BitVec 64)
  | utf8l (s : String)
  | utf16l (s : String)
  | utf32l (s : String)
  | utf64l (s : String)
  | str8l (bytes : List UInt8)
  | str16l (bytes : List UInt8)
  | str32l (bytes : List UInt8)
  | str64l (bytes : List UInt8)
  | null
  | struct
  | array
  | list
  | endCnt
  deriving DecidableEq

def utf8Bytes (s : String) : List UInt8 := s.toUTF8.data.toList

namespace TLVValue

def valueType : TLVValue → TLVValueType
  | s8 _ => .s8
  | s16 _ => .s16
  | s32 _ => .s32
  | s64 _ => .s64
  | u8 _ => .u8
  | u16 _ => .u16
  | u32 _ => .u32
  | u64 _ => .u64
  | .false => .false
  | .true => .true
  | f32 _ => .f32
  | f64 _ => .f64
  | utf8l _ => .utf8l
  | utf16l _ => .utf16l
  | utf32l _ => .utf32l
  | utf64l _ => .utf64l
  | str8l _ => .str8l
  | str16l _ => .str16l
  | str32l _ => .str32l
  | str64l _ => .str64l
  | null => .null
  | struct => .struct
  | array => .array
  | list => .list
  | endCnt => .endCnt

/-! The constructors that choose the narrowest encoding. -/

def ofI8 (v : BitVec 8) : TLVValue := s8 v

/-- A signed 16-bit integer, as a byte if it fits. -/
def ofI16 (v : BitVec 16) : TLVValue :=
  if -2 ^ 7 ≤ v.toInt ∧ v.toInt ≤ 2 ^ 7 - 1 then ofI8 (v.setWidth 8) else s16 v

/-- A signed 32-bit integer, narrowed if it fits. -/
def ofI32 (v : BitVec 32) : TLVValue :=
  if -2 ^ 15 ≤ v.toInt ∧ v.toInt ≤ 2 ^ 15 - 1 then ofI16 (v.setWidth 16) else s32 v

/-- A signed 64-bit integer, narrowed if it fits. -/
def ofI64 (v : BitVec 64) : TLVValue :=
  if -2 ^ 31 ≤ v.toInt ∧ v.toInt ≤ 2 ^ 31 - 1 then ofI32 (v.setWidth 32) else s64 v

def ofU8 (v : BitVec 8) : TLVValue := u8 v

/-- An unsigned 16-bit integer, as a byte if it fits. -/
def ofU16 (v : BitVec 16) : TLVValue :=
  if v.toNat ≤ 2 ^ 8 - 1 then ofU8 (v.setWidth 8) else u16 v

/-- An unsigned 32-bit integer, narrowed if it fits. -/
def ofU32 (v : BitVec 32) : TLVValue :=
  if v.toNat ≤ 2 ^ 16 - 1 then ofU16 (v.setWidth 16) else u32 v

/-- An unsigned 64-bit integer, narrowed if it fits. -/
def ofU64 (v : BitVec 64) : TLVValue :=
  if v.toNat ≤ 2 ^ 32 - 1 then ofU32 (v.setWidth 32) else u64 v

def ofUtf8 (s : String) : TLVValue :=
  if (utf8Bytes s).length ≤ 2 ^ 8 - 1 then utf8l s
  else if (utf8Bytes s).length ≤ 2 ^ 16 - 1 then utf16l s
  else if (utf8Bytes s).length ≤ 2 ^ 32 - 1 then utf32l s
  else utf64l s

/-- An octet string, with the shortest length field. -/
def ofStr (bytes : List UInt8) : TLVValue :=
  if bytes.length ≤ 2 ^ 8 - 1 then str8l bytes
  else if bytes.length ≤ 2 ^ 16 - 1 then str16l bytes
  else if bytes.length ≤ 2 ^ 32 - 1 then str32l bytes
  else str64l bytes

def ofBool (b : Bool) : TLVValue := if b then .true else .false

end TLVValue

/-! ## Writing -/

/-- A bounded buffer with the bytes written to it so far; `room` more fit. -/
structure WriteBuf where
  data : List UInt8
  room : ℕ
  deriving DecidableEq

namespace WriteBuf

def write (wb : WriteBuf) (byte : UInt8) : Except ErrorCode WriteBuf :=
  match wb.room with
  | room + 1 => .ok ⟨wb.data ++ [byte], room⟩
  | 0 => .error .noSpace

def writeRawData (wb : WriteBuf) : List UInt8 → Except ErrorCode WriteBuf
  | [] => .ok wb
  | byte :: bytes => do
    let wb ← wb.write byte
    wb.writeRawData bytes

def writeTag (wb : WriteBuf) : TLVTag → Except ErrorCode WriteBuf
  | .anonymous => .ok wb
  | .context v => wb.writeRawData (toLE 1 v.toNat)
  | .commonPrf16 v => wb.writeRawData (toLE 2 v.toNat)
  | .implPrf16 v => wb.writeRawData (toLE 2 v.toNat)
  | .commonPrf32 v => wb.writeRawData (toLE 4 v.toNat)
  | .implPrf32 v => wb.writeRawData (toLE 4 v.toNat)
  | .fullQual48 vendorId profile tag => do
    let wb ← wb.writeRawData (toLE 2 vendorId.toNat)
    let wb ← wb.writeRawData (toLE 2 profile.toNat)
    wb.writeRawData (toLE 2 tag.toNat)
  | .fullQual64 vendorId profile tag => do
    let wb ← wb.writeRawData (toLE 2 vendorId.toNat)
    let wb ← wb.writeRawData (toLE 2 profile.toNat)
    wb.writeRawData (toLE 4 tag.toNat)

/-- Append an element whose value is encoded already. -/
def rawValue (wb : WriteBuf) (tag : TLVTag) (valueType : TLVValueType)
    (valuePayload : List UInt8) : Except ErrorCode WriteBuf := do
  let wb ← wb.write (TLVControl.mk tag.tagType valueType).asRaw
  let wb ← wb.writeTag tag
  wb.writeRawData valuePayload

/-- Append an element: control byte, tag, length field, value. -/
def tlv (wb : WriteBuf) (tag : TLVTag) (value : TLVValue) : Except ErrorCode WriteBuf := do
  let wb ← wb.rawValue tag value.valueType []
  let wb ← match value with
    | .str8l a => wb.writeRawData (toLE 1 a.length)
    | .str16l a => wb.writeRawData (toLE 2 a.length)
    | .str32l a => wb.writeRawData (toLE 4 a.length)
    | .str64l a => wb.writeRawData (toLE 8 a.length)
    | .utf8l a => wb.writeRawData (toLE 1 (utf8Bytes a).length)
    | .utf16l a => wb.writeRawData (toLE 2 (utf8Bytes a).length)
    | .utf32l a => wb.writeRawData (toLE 4 (utf8Bytes a).length)
    | .utf64l a => wb.writeRawData (toLE 8 (utf8Bytes a).length)
    | _ => .ok wb
  match value with
  | .s8 a => wb.writeRawData (toLE 1 a.toNat)
  | .s16 a => wb.writeRawData (toLE 2 a.toNat)
  | .s32 a => wb.writeRawData (toLE 4 a.toNat)
  | .s64 a => wb.writeRawData (toLE 8 a.toNat)
  | .u8 a => wb.writeRawData (toLE 1 a.toNat)
  | .u16 a => wb.writeRawData (toLE 2 a.toNat)
  | .u32 a => wb.writeRawData (toLE 4 a.toNat)
  | .u64 a => wb.writeRawData (toLE 8 a.toNat)
  | .false => .ok wb
  | .true => .ok wb
  | .f32 a => wb.writeRawData (toLE 4 a.toNat)
  | .f64 a => wb.writeRawData (toLE 8 a.toNat)
  | .utf8l a | .utf16l a | .utf32l a | .utf64l a => wb.writeRawData (utf8Bytes a)
  | .str8l a | .str16l a | .str32l a | .str64l a => wb.writeRawData a
  | .null | .struct | .array | .list | .endCnt => .ok wb

def i8 (wb : WriteBuf) (tag : TLVTag) (data : BitVec 8) : Except ErrorCode WriteBuf :=
  wb.rawValue tag .s8 (toLE 1 data.toNat)

def u8 (wb : WriteBuf) (tag : TLVTag) (data : BitVec 8) : Except ErrorCode WriteBuf :=
  wb.rawValue tag .u8 (toLE 1 data.toNat)

/-- Append a signed 16-bit integer, narrowed if it fits. -/
def i16 (wb : WriteBuf) (tag : TLVTag) (data : BitVec 16) : Except ErrorCode WriteBuf :=
  if -2 ^ 7 ≤ data.toInt ∧ data.toInt ≤ 2 ^ 7 - 1 then wb.i8 tag (data.setWidth 8)
  else wb.rawValue tag .s16 (toLE 2 data.toNat)

/-- Append an unsigned 16-bit integer, narrowed if it fits. -/
def u16 (wb : WriteBuf) (tag : TLVTag) (data : BitVec 16) : Except ErrorCode WriteBuf :=
  if data.toNat ≤ 2 ^ 8 - 1 then wb.u8 tag (data.setWidth 8)
  else wb.rawValue tag .u16 (toLE 2 data.toNat)

/-- Append a signed 32-bit integer, narrowed if it fits. -/
def i32 (wb : WriteBuf) (tag : TLVTag) (data : BitVec 32) : Except ErrorCode WriteBuf :=
  if -2 ^ 15 ≤ data.toInt ∧ data.toInt ≤ 2 ^ 15 - 1 then wb.i16 tag (data.setWidth 16)
  else wb.rawValue tag .s32 (toLE 4 data.toNat)

/-- Append an unsigned 32-bit integer, narrowed if it fits. -/
def u32 (wb : WriteBuf) (tag : TLVTag) (data : BitVec 32) : Except ErrorCode WriteBuf :=
  if data.toNat ≤ 2 ^ 16 - 1 then wb.u16 tag (data.setWidth 16)
  else wb.rawValue tag .u32 (toLE 4 data.toNat)

/-- Append a signed 64-bit integer, narrowed if it fits. -/
def i64 (wb : WriteBuf) (tag : TLVTag) (data : BitVec 64) : Except ErrorCode WriteBuf :=
  if -2 ^ 31 ≤ data.toInt ∧ data.toInt ≤ 2 ^ 31 - 1 then wb.i32 tag (data.setWidth 32)
  else wb.rawValue tag .s64 (toLE 8 data.toNat)

/-- Append an unsigned 64-bit integer, narrowed if it fits. -/
def u64 (wb : WriteBuf) (tag : TLVTag) (data : BitVec 64) : Except ErrorCode WriteBuf :=
  if data.toNat ≤ 2 ^ 32 - 1 then wb.u32 tag (data.setWidth 32)
  else wb.rawValue tag .u64 (toLE 8 data.toNat)

def f32 (wb : WriteBuf) (tag : TLVTag) (bits : BitVec 32) : Except ErrorCode WriteBuf :=
  wb.rawValue tag .f32 (toLE 4 bits.toNat)

def f64 (wb : WriteBuf) (tag : TLVTag) (bits : BitVec 64) : Except ErrorCode WriteBuf :=
  wb.rawValue tag .f64 (toLE 8 bits.toNat)

/-- Append an octet string, with the shortest length field. -/
def str (wb : WriteBuf) (tag : TLVTag) (data : List UInt8) : Except ErrorCode WriteBuf := do
  let wb ←
    if data.length ≤ 2 ^ 8 - 1 then wb.rawValue tag .str8l (toLE 1 data.length)
    else if data.length ≤ 2 ^ 16 - 1 then wb.rawValue tag .str16l (toLE 2 data.length)
    else if data.length ≤ 2 ^ 32 - 1 then wb.rawValue tag .str32l (toLE 4 data.length)
    else wb.rawValue tag .str64l (toLE 8 data.length)
  wb.writeRawData data

/-- Append a string, with the shortest length field. -/
def utf8 (wb : WriteBuf) (tag : TLVTag) (data : String) : Except ErrorCode WriteBuf := do
  let len := (utf8Bytes data).length
  let wb ←
    if len ≤ 2 ^ 8 - 1 then wb.rawValue tag .utf8l (toLE 1 len)
    else if len ≤ 2 ^ 16 - 1 then wb.rawValue tag .utf16l (toLE 2 len)
    else if len ≤ 2 ^ 32 - 1 then wb.rawValue tag .utf32l (toLE 4 len)
    else wb.rawValue tag .utf64l (toLE 8 len)
  wb.writeRawData (utf8Bytes data)

def startContainer (wb : WriteBuf) (tag : TLVTag) (containerType : TLVValueType) :
    Except ErrorCode WriteBuf :=
  if containerType.isContainer then wb.rawValue tag containerType []
  else .error .tlvTypeMismatch

def startStruct (wb : WriteBuf) (tag : TLVTag) : Except ErrorCode WriteBuf :=
  wb.rawValue tag .struct []

def startArray (wb : WriteBuf) (tag : TLVTag) : Except ErrorCode WriteBuf :=
  wb.rawValue tag .array []

def startList (wb : WriteBuf) (tag : TLVTag) : Except ErrorCode WriteBuf :=
  wb.rawValue tag .list []

def endContainer (wb : WriteBuf) : Except ErrorCode WriteBuf :=
  wb.write (TLVControl.mk .anonymous .endCnt).asRaw

def null (wb : WriteBuf) (tag : TLVTag) : Except ErrorCode WriteBuf := wb.rawValue tag .null []

def bool (wb : WriteBuf) (tag : TLVTag) (val : Bool) : Except ErrorCode WriteBuf :=
  wb.rawValue tag (if val then .true else .false) []

end WriteBuf

end RsMatter
