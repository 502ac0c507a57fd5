import RsMatter.FixedCapacity
import RsMatter.Prog
import RsMatter.TlvIter

/-!
# Typed TLV codecs (`tlv/traits/*.rs`, `rs-matter-macros/src/tlv.rs`)

Every type that `ToTLV` and `FromTLV` are implemented for is built from a few: integers,
booleans, strings, vectors and arrays, nullable types, and the enums, structures and lists
that the derive macros make codecs for. `Codec α` is such a type, with the values it is
about: `toTlv`, `fromTlv` and `initFromTlv` are the three traits' methods, by recursion on it.
-/

namespace RsMatter

open Stop

/-! ## Signed integers -/

namespace Panicking

def i8 (elem : List UInt8) : Except (Stop ErrorCode) (BitVec 8) :=
  uint .s8 1 (.error (.error .tlvTypeMismatch)) elem

/-- A signed 16-bit integer, or a narrower one. -/
def i16 (elem : List UInt8) : Except (Stop ErrorCode) (BitVec 16) :=
  uint .s16 2 ((i8 elem).map (BitVec.signExtend 16)) elem

/-- A signed 32-bit integer, or a narrower one. -/
def i32 (elem : List UInt8) : Except (Stop ErrorCode) (BitVec 32) :=
  uint .s32 4 ((i16 elem).map (BitVec.signExtend 32)) elem

/-- A signed 64-bit integer, or a narrower one. -/
def i64 (elem : List UInt8) : Except (Stop ErrorCode) (BitVec 64) :=
  uint .s64 8 ((i32 elem).map (BitVec.signExtend 64)) elem

/-- The value as a UTF-8 string. -/
def text (elem : List UInt8) : Except (Stop ErrorCode) String := do
  let c ← lift (TLVSequence.control elem)
  if c.valueType.isUtf8 then do
    let slice ← value elem c
    match TLVElement.fromUtf8 slice with
    | .ok s => .ok s
    | .error _ => .error (.error .invalidData)
  else .error (.error .invalid)

end Panicking

inductive IntKind where
  | i8
  | u8
  | i16
  | u16
  | i32
  | u32
  | i64
  | u64
  deriving DecidableEq

namespace IntKind

def width : IntKind → ℕ
  | i8 | u8 => 8
  | i16 | u16 => 16
  | i32 | u32 => 32
  | i64 | u64 => 64

def signed : IntKind → Bool
  | i8 | i16 | i32 | i64 => true
  | u8 | u16 | u32 | u64 => false

/-- The value that its nullable variant has no room for. -/
def reserved (k : IntKind) : BitVec k.width :=
  if k.signed then BitVec.intMin k.width else BitVec.allOnes k.width

def call : (k : IntKind) → BitVec k.width → LeafCall
  | i8, v => .i8 v
  | u8, v => .u8 v
  | i16, v => .i16 v
  | u16, v => .u16 v
  | i32, v => .i32 v
  | u32, v => .u32 v
  | i64, v => .i64 v
  | u64, v => .u64 v

def read : (k : IntKind) → List UInt8 → Except (Stop ErrorCode) (BitVec k.width)
  | i8, elem => Panicking.i8 elem
  | u8, elem => Panicking.u8 elem
  | i16, elem => Panicking.i16 elem
  | u16, elem => Panicking.u16 elem
  | i32, elem => Panicking.i32 elem
  | u32, elem => Panicking.u32 elem
  | i64, elem => Panicking.i64 elem
  | u64, elem => Panicking.u64 elem

end IntKind

/-! ## The types -/

/-- The two integer types a unit enum can be written as. -/
inductive UnitKind where
  | u8
  | u16
  deriving DecidableEq

namespace UnitKind

def int : UnitKind → IntKind
  | u8 => .u8
  | u16 => .u16

end UnitKind

structure UnitVariant (k : UnitKind) where
  tag : BitVec k.int.width
  /-- the number it has as a value of the enum, `variant as uW` -/
  discriminant : BitVec k.int.width

/-- What a derived structure is written as (`datatype`). -/
inductive StructKind where
  | struct
  | list
  deriving DecidableEq

def StructKind.container : StructKind → ContainerType
  | struct => .struct
  | list => .list

mutual

/-- The types with a codec. Slices and strings have fewer than `2 ^ 64` bytes. -/
inductive Codec : Type → Type 1 where
  | int (k : IntKind) : Codec (BitVec k.width)
  /-- `NonZero` of an integer type -/
  | nonZero (k : IntKind) : Codec {v : BitVec k.width // v ≠ 0}
  /-- `bool` -/
  | bool : Codec Bool
  /-- `Octets` -/
  | octets : Codec {a : List UInt8 // a.length < 2 ^ 64}
  /-- `OctetsOwned<n>` -/
  | octetsOwned (n : ℕ) (hn : n < 2 ^ 64) : Codec (HVec UInt8 n)
  /-- `&str` -/
  | utf8 : Codec {s : String // (utf8Bytes s).length < 2 ^ 64}
  /-- `String<n>` -/
  | utf8Owned (n : ℕ) (hn : n < 2 ^ 64) : Codec (HString n)
  /-- `Vec<T, n>` -/
  | vec {α : Type} (item : Codec α) (n : ℕ) : Codec (HVec α n)
  /-- `[T; n]` -/
  | array {α : Type} (item : Codec α) (default : α) (n : ℕ) : Codec {l : List α // l.length = n}
  /-- `Nullable<T>` -/
  | nullable {α : Type} (c : Codec α) : Codec (Option α)
  | unitEnum (k : UnitKind) (variants : List (UnitVariant k)) : Codec (Fin variants.length)
  | dataEnum {α : Type} (naked : Bool) (variants : Variants α) : Codec α
  | struct {α : Type} (kind : StructKind) (unordered : Bool) (fields : Fields α) : Codec α

/-- The fields of a derived structure, with their tags. -/
inductive Fields : Type → Type 1 where
  | nil : Fields Unit
  | cons {α β : Type} (tag : BitVec 8) (c : Codec α) (rest : Fields β) : Fields (α × β)
  /-- a field of type `Option<T>`, or `Optional<T>`, which can be made in place -/
  | optional {α β : Type} (inPlace : Bool) (tag : BitVec 8) (c : Codec α) (rest : Fields β) :
    Fields (Option α × β)

/-- The variants of a derived enum, with their tags. -/
inductive Variants : Type → Type 1 where
  | nil : Variants Empty
  | cons {α β : Type} (tag : BitVec 8) (c : Codec α) (rest : Variants β) : Variants (α ⊕ β)

end

/-! ## What the derive macros ask for -/

def Fields.tags : {α : Type} → Fields α → List (BitVec 8)
  | _, .nil => []
  | _, .cons tag _ rest | _, .optional _ tag _ rest => tag :: rest.tags

def Variants.tags : {α : Type} → Variants α → List (BitVec 8)
  | _, .nil => []
  | _, .cons tag _ rest => tag :: rest.tags

/-- Is it a naked enum, or one that can be null? -/
def Codec.naked : {α : Type} → Codec α → Bool
  | _, .dataEnum naked _ => naked
  | _, .nullable c => c.naked
  | _, _ => false

/-- How the tags of two fields must be related, the earlier one first. -/
def TagOrder (unordered : Bool) (tag tag' : BitVec 8) : Prop :=
  if unordered then tag ≠ tag' else tag < tag'

mutual

/-- The tags are distinct, those of fields ascending unless the structure is unordered, and no
naked enum is a field. -/
def Codec.WellFormed : {α : Type} → Codec α → Prop
  | _, .vec item _ | _, .array item _ _ => item.WellFormed
  | _, .nullable c => c.WellFormed
  | _, .unitEnum _ variants => (variants.map (·.tag)).Nodup
  | _, .dataEnum _ variants => variants.WellFormed ∧ variants.tags.Nodup
  | _, .struct _ unordered fields => fields.WellFormed ∧ fields.tags.Pairwise (TagOrder unordered)
  | _, .int _ | _, .nonZero _ | _, .bool | _, .octets | _, .octetsOwned _ _ | _, .utf8
  | _, .utf8Owned _ _ => True

/-- The types of the fields are well-formed, and none is a naked enum. -/
def Fields.WellFormed : {α : Type} → Fields α → Prop
  | _, .nil => True
  | _, .cons _ c rest | _, .optional _ _ c rest =>
    c.WellFormed ∧ c.naked = false ∧ rest.WellFormed

def Variants.WellFormed : {α : Type} → Variants α → Prop
  | _, .nil => True
  | _, .cons _ c rest => c.WellFormed ∧ rest.WellFormed

end

/-- Is it a type that the derive macros make the codec of? -/
def Codec.derived : {α : Type} → Codec α → Bool
  | _, .unitEnum .. | _, .dataEnum .. | _, .struct .. => true
  | _, _ => false

/-! ## Writing -/

namespace TLVWriter

/-- Append bytes one by one; what is there when the room runs out stays. -/
def append : List UInt8 → Prog ErrorCode WriteBuf Unit
  | [] => pure ()
  | byte :: bytes => fun wb =>
    match wb.write byte with
    | .ok wb => append bytes wb
    | .error e => (wb, .error e)

/-- Append an element without members, the bytes of its write method (`LeafCall.write_eq`). -/
def leaf (tag : TLVTag) (call : LeafCall) : Prog ErrorCode WriteBuf Unit :=
  append (elemBytes tag call.value)

def start (tag : TLVTag) (kind : ContainerType) : Prog ErrorCode WriteBuf Unit :=
  append (elemBytes tag kind.value)

def endContainer : Prog ErrorCode WriteBuf Unit := append (elemBytes .anonymous .endCnt)

/-- `rewind_to`. -/
def rewindTo (anchor : ℕ) : Prog ErrorCode WriteBuf Unit :=
  Prog.modify fun wb => ⟨wb.data.take anchor, wb.room + (wb.data.length - anchor)⟩

/-- What the derived codecs do: go back to the tail from before if something fails. -/
def rewinding (m : Prog ErrorCode WriteBuf Unit) : Prog ErrorCode WriteBuf Unit := do
  let wb ← Prog.get
  let anchor := wb.data.length
  Prog.catching m fun e => do
    rewindTo anchor
    Prog.throw e

end TLVWriter

open TLVWriter

mutual

/-- `ToTLV::to_tlv`. -/
def toTlv : {α : Type} → Codec α → α → TLVTag → Prog ErrorCode WriteBuf Unit
  | _, .int k, v, tag => leaf tag (k.call v)
  | _, .nonZero k, v, tag => leaf tag (k.call v.1)
  | _, .bool, v, tag => leaf tag (.bool v)
  | _, .octets, v, tag => leaf tag (.str v.1 v.2)
  | _, .octetsOwned _ hn, v, tag => leaf tag (.str v.1 (v.2.trans_lt hn))
  | _, .utf8, v, tag => leaf tag (.utf8 v.1 v.2)
  | _, .utf8Owned _ hn, v, tag =>
    leaf tag (.utf8 v.1 (by rw [utf8Bytes]; exact v.2.trans_lt hn))
  | _, .vec item _, v, tag => do
    start tag .array
    v.1.forM fun a => toTlv item a .anonymous
    endContainer
  | _, .array item _ _, v, tag => do
    start tag .array
    v.1.forM fun a => toTlv item a .anonymous
    endContainer
  | _, .nullable c, v, tag =>
    match v with
    | none => leaf tag .null
    | some v => nullableToTlv c v tag
  | _, .unitEnum k variants, v, tag =>
    rewinding (leaf tag (k.int.call (variants.get v).tag))
  | _, .dataEnum naked variants, v, tag =>
    rewinding <|
      if naked then variantToTlv variants v
      else do
        start tag .struct
        variantToTlv variants v
        endContainer
  | _, .struct kind _ fields, v, tag =>
    rewinding do
      start tag kind.container
      fieldsToTlv fields v
      endContainer

/-- `ToTLV::nullable_to_tlv`. -/
def nullableToTlv : {α : Type} → Codec α → α → TLVTag → Prog ErrorCode WriteBuf Unit
  | _, .int k, v, tag => if v ≠ k.reserved then leaf tag (k.call v) else .throw .constraintError
  | _, .nonZero k, v, tag =>
    if v.1 ≠ k.reserved then leaf tag (k.call v.1) else .throw .constraintError
  | _, .unitEnum k variants, v, tag =>
    if (variants.get v).discriminant ≠ BitVec.allOnes _ then
      rewinding (leaf tag (k.int.call (variants.get v).tag))
    else .throw .constraintError
  | _, c, v, tag => toTlv c v tag

/-- The fields of a structure, one after the other. -/
def fieldsToTlv : {α : Type} → Fields α → α → Prog ErrorCode WriteBuf Unit
  | _, .nil, _ => pure ()
  | _, .cons tag c rest, (a, b) => do
    toTlv c a (.context tag)
    fieldsToTlv rest b
  | _, .optional _ tag c rest, (a, b) => do
    match a with
    | none => pure ()
    | some a => toTlv c a (.context tag)
    fieldsToTlv rest b

/-- The payload of a variant, under the tag of the variant. -/
def variantToTlv : {α : Type} → Variants α → α → Prog ErrorCode WriteBuf Unit
  | _, .cons tag c _, .inl a => toTlv c a (.context tag)
  | _, .cons _ _ rest, .inr b => variantToTlv rest b

end

/-! ## Reading -/

open Panicking

section Items

variable {α : Type}

/-- The members of an array, `unwrap!(element.container()).iter()`. -/
def arrayIter (array : List UInt8) : Except (Stop ErrorCode) (List UInt8) := do
  let members ← attempt (container array)
  unwrap members

/-- The loop that pushes one item after the other to a vector. -/
def pushItems {n : ℕ} (fromTlv : List UInt8 → Except (Stop ErrorCode) α) :
    ℕ → List UInt8 → HVec α n → Except (Stop ErrorCode) (HVec α n)
  | 0, _, _ => .error (.error .tlvTypeMismatch)
  | fuel + 1, seq, vec => do
    let (elem, seq) ← iterNext seq
    match elem with
    | none => return vec
    | some elem => do
      let item ← fromTlv elem
      let vec ← vec.push item .constraintError
      pushItems fromTlv fuel seq vec

/-- The loop that makes one item after the other in place at the end of a vector. There must
be room before one is made. -/
def pushInitItems {n : ℕ} (initFromTlv : List UInt8 → Except (Stop ErrorCode) α) (e : ErrorCode) :
    ℕ → List UInt8 → HVec α n → Except (Stop ErrorCode) (HVec α n)
  | 0, _, _ => .error (.error .tlvTypeMismatch)
  | fuel + 1, seq, vec => do
    let (elem, seq) ← iterNext seq
    match elem with
    | none => return vec
    | some elem =>
      if vec.1.length < n then do
        let item ← initFromTlv elem
        let vec ← vec.push item e
        pushInitItems initFromTlv e fuel seq vec
      else .error (.error e)

/-- `Vec::from_tlv`. Every round but the last takes a byte. -/
def vecFromTlv {n : ℕ} (fromTlv : List UInt8 → Except (Stop ErrorCode) α) (elem : List UInt8) :
    Except (Stop ErrorCode) (HVec α n) := do
  let array ← newArray elem
  let seq ← arrayIter array
  pushItems fromTlv (seq.length + 1) seq .new

/-- `Vec::init_from_tlv`. -/
def vecInitFromTlv {n : ℕ} (initFromTlv : List UInt8 → Except (Stop ErrorCode) α)
    (elem : List UInt8) : Except (Stop ErrorCode) (HVec α n) := do
  let array ← newArray elem
  let seq ← arrayIter array
  pushInitItems initFromTlv .constraintError (seq.length + 1) seq .new

def fill {n : ℕ} (default : α) (vec : HVec α n) : {l : List α // l.length = n} :=
  ⟨vec.1 ++ List.replicate (n - vec.1.length) default, by
    rw [List.length_append, List.length_replicate, Nat.add_sub_cancel' vec.2]⟩

end Items

def matchUnit {k : UnitKind} (variants : List (UnitVariant k)) (value : BitVec k.int.width) :
    Except (Stop ErrorCode) (Fin variants.length) :=
  match variants.findFinIdx? (·.tag == value) with
  | some i => .ok i
  | none => .error (.error .invalid)

def matchNonZero {w : ℕ} (v : BitVec w) : Except (Stop ErrorCode) {v : BitVec w // v ≠ 0} :=
  if h : v ≠ 0 then .ok ⟨v, h⟩ else .error (.error .invalid)

/-- The members of a derived structure or list. -/
def StructKind.members (kind : StructKind) (elem : List UInt8) : Except (Stop ErrorCode) (List UInt8) :=
  match kind with
  | struct => Panicking.structure elem
  | list => Panicking.list elem

/-- The element of the next field: anywhere in the structure if it is unordered, and else the
scan goes on from where it is. -/
def nextField (unordered : Bool) (tag : BitVec 8) (seq : List UInt8) :
    Except (Stop ErrorCode) (List UInt8 × List UInt8) :=
  if unordered then do
    let elem ← findCtx tag seq
    return (elem, seq)
  else scanCtx tag seq

/-- The element of the payload of an enum: the first member of a structure, or the element itself
if the enum is naked. -/
def payloadElem (naked : Bool) (elem : List UInt8) : Except (Stop ErrorCode) (List UInt8) :=
  if naked then return elem
  else do
    let seq ← Panicking.structure elem
    let (elem, _) ← iterNext seq
    match elem with
    | some elem => return elem
    | none => .error (.error .tlvTypeMismatch)

/-- The context id that the payload of an enum must have. -/
def payloadTag (elem : List UInt8) : Except (Stop ErrorCode) (BitVec 8) := do
  let tag ← lift (TLVElement.tryCtx elem)
  match tag with
  | some tag => return tag
  | none => .error (.error .tlvTypeMismatch)

mutual

/-- `FromTLV::from_tlv`. -/
def fromTlv : {α : Type} → Codec α → List UInt8 → Except (Stop ErrorCode) α
  | _, .int k, elem => k.read elem
  | _, .nonZero k, elem => do
    let v ← k.read elem
    matchNonZero v
  | _, .bool, elem => Panicking.bool elem
  | _, .octets, elem => do
    let a ← str elem
    if h : a.length < 2 ^ 64 then return ⟨a, h⟩ else .error (.error .invalid)
  | _, .octetsOwned _ _, elem => do
    let a ← str elem
    HVec.tryFrom a .constraintError
  | _, .utf8, elem => do
    let s ← text elem
    if h : (utf8Bytes s).length < 2 ^ 64 then return ⟨s, h⟩ else .error (.error .invalid)
  | _, .utf8Owned _ _, elem => do
    let s ← text elem
    HString.tryFrom s .constraintError
  | _, .vec item _, elem => vecFromTlv (fromTlv item) elem
  | _, .array item default _, elem => do
    let vec ← vecFromTlv (fromTlv item) elem
    return fill default vec
  | _, .nullable c, elem => do
    let control ← lift (TLVSequence.control elem)
    if control.valueType = .null then return none
    else do
      let a ← nullableFromTlv c elem
      return some a
  | _, .unitEnum k variants, elem => do
    let value ← k.int.read elem
    matchUnit variants value
  | _, .dataEnum naked variants, elem => do
    let elem ← payloadElem naked elem
    let tag ← payloadTag elem
    variantFromTlv variants tag elem
  | _, .struct kind unordered fields, elem => do
    let seq ← kind.members elem
    fieldsFromTlv unordered fields seq

/-- `FromTLV::nullable_from_tlv`. -/
def nullableFromTlv : {α : Type} → Codec α → List UInt8 → Except (Stop ErrorCode) α
  | _, .int k, elem => do
    let v ← k.read elem
    if v ≠ k.reserved then return v else .error (.error .constraintError)
  | _, .nonZero k, elem => do
    let v ← k.read elem
    if v ≠ k.reserved then matchNonZero v else .error (.error .constraintError)
  | _, .unitEnum k variants, elem => do
    let value ← k.int.read elem
    if value ≠ BitVec.allOnes _ then matchUnit variants value
    else .error (.error .constraintError)
  | _, c, elem => fromTlv c elem

/-- The fields of a structure, each with `from_tlv`. -/
def fieldsFromTlv (unordered : Bool) :
    {α : Type} → Fields α → List UInt8 → Except (Stop ErrorCode) α
  | _, .nil, _ => return ()
  | _, .cons tag c rest, seq => do
    let (elem, seq) ← nextField unordered tag seq
    let a ← fromTlv c elem
    let b ← fieldsFromTlv unordered rest seq
    return (a, b)
  | _, .optional _ tag c rest, seq => do
    let (elem, seq) ← nextField unordered tag seq
    let a ← Panicking.optional (fromTlv c) elem
    let b ← fieldsFromTlv unordered rest seq
    return (a, b)

def variantFromTlv :
    {α : Type} → Variants α → BitVec 8 → List UInt8 → Except (Stop ErrorCode) α
  | _, .nil, _, _ => .error (.error .invalid)
  | _, .cons tag' c rest, tag, elem =>
    if tag = tag' then do
      let a ← fromTlv c elem
      return .inl a
    else do
      let b ← variantFromTlv rest tag elem
      return .inr b

end

mutual

/-- `FromTLV::init_from_tlv`, which is `from_tlv` for all types that have no version of
their own. -/
def initFromTlv : {α : Type} → Codec α → List UInt8 → Except (Stop ErrorCode) α
  | _, .octetsOwned _ _, elem => do
    let a ← str elem
    HVec.new.extendFromSlice a .constraintError
  | _, .vec item _, elem => vecInitFromTlv (initFromTlv item) elem
  | _, .struct kind unordered fields, elem => do
    let seq ← kind.members elem
    fieldsInitFromTlv unordered fields seq
  | _, c, elem => fromTlv c elem

/-- The fields of a structure, each made in place but those of type `Option`. -/
def fieldsInitFromTlv (unordered : Bool) :
    {α : Type} → Fields α → List UInt8 → Except (Stop ErrorCode) α
  | _, .nil, _ => return ()
  | _, .cons tag c rest, seq => do
    let (elem, seq) ← nextField unordered tag seq
    let a ← initFromTlv c elem
    let b ← fieldsInitFromTlv unordered rest seq
    return (a, b)
  | _, .optional inPlace tag c rest, seq => do
    let (elem, seq) ← nextField unordered tag seq
    let a ← Panicking.optional (if inPlace then initFromTlv c else fromTlv c) elem
    let b ← fieldsInitFromTlv unordered rest seq
    return (a, b)

end

end RsMatter
