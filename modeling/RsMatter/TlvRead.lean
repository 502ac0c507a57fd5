import RsMatter.Tlv

/-!
# Reading TLV (`tlv/read.rs`)

A `TLVElement` and a `TLVSequence` are both a byte slice, which may go on past the
data they stand for: nothing is parsed before it is asked for. The functions here
take that slice. The end of a container is found by counting container starts and
ends from its first member on (`containerNext`, `containerValueLen`); the fuel of
these loops is the number of bytes, of which every round consumes one at least.
-/

namespace RsMatter

/-- `slice.get(..n)`. -/
def sliceTo (data : List UInt8) (n : ℕ) : Except ErrorCode (List UInt8) :=
  if n ≤ data.length then .ok (data.take n) else .error .tlvTypeMismatch

/-- `slice.get(n..)`. -/
def sliceFrom (data : List UInt8) (n : ℕ) : Except ErrorCode (List UInt8) :=
  if n ≤ data.length then .ok (data.drop n) else .error .tlvTypeMismatch

namespace TLVSequence

def control : List UInt8 → Except ErrorCode TLVControl
  | [] => .error .tlvTypeMismatch
  | byte :: _ => TLVControl.parse byte

def tagStart (seq : List UInt8) : Except ErrorCode (List UInt8) := sliceFrom seq 1

def valueLenStart (seq : List UInt8) (tagType : TLVTagType) : Except ErrorCode (List UInt8) := do
  let data ← tagStart seq
  sliceFrom data tagType.size

def valueStart (seq : List UInt8) (control : TLVControl) : Except ErrorCode (List UInt8) := do
  let data ← valueLenStart seq control.tagType
  sliceFrom data control.valueType.variableSizeLen

/-- The length of the value, `0` for containers. -/
def valueLen (seq : List UInt8) (control : TLVControl) : Except ErrorCode ℕ :=
  match control.valueType.fixedSize with
  | some fixedSize => .ok fixedSize
  | none => do
    let data ← valueLenStart seq control.tagType
    let lenField ← sliceTo data control.valueType.variableSizeLen
    return ofLE lenField

/-- What follows the first element, entering containers. -/
def nextStart (seq : List UInt8) (control : TLVControl) : Except ErrorCode (List UInt8) := do
  let len ← valueLen seq control
  let data ← valueStart seq control
  sliceFrom data len

/-- The elements after the first one, entering containers. -/
def nextEnter (seq : List UInt8) : Except ErrorCode (List UInt8) :=
  if seq.isEmpty then .ok []
  else do
    let c ← control seq
    nextStart seq c

/-- How deep the reader is after an element with the given control byte, from `level`
open containers. -/
def nextLevel (c : TLVControl) (level : ℕ) : Except ErrorCode ℕ :=
  if c.valueType.isContainerEnd then do
    c.confirmContainerEnd
    return level - 1
  else if c.valueType.isContainer then
    return level + 1
  else
    return level

/-- The loop of `containerNext`. -/
def containerNextLoop : ℕ → ℕ → List UInt8 → Except ErrorCode (List UInt8)
  | _, 0, next => .ok next
  | 0, _ + 1, _ => .error .tlvTypeMismatch
  | fuel + 1, level + 1, next => do
    let c ← control next
    let level ← nextLevel c (level + 1)
    let next ← nextEnter next
    containerNextLoop fuel level next

/-- The elements after the first one, skipping the members of a container. -/
def containerNext (seq : List UInt8) : Except ErrorCode (List UInt8) :=
  if seq.isEmpty then .ok []
  else do
    let c ← control seq
    if c.valueType.isContainerEnd then do
      c.confirmContainerEnd
      return seq
    else do
      let next ← nextEnter seq
      if c.valueType.isContainer then containerNextLoop seq.length 1 next else return next

/-- The first element, or the empty one at the end of a container. -/
def current (seq : List UInt8) : Except ErrorCode (List UInt8) :=
  if seq.isEmpty then .ok []
  else do
    let c ← control seq
    if c.valueType.isContainerEnd then do
      c.confirmContainerEnd
      return []
    else
      return seq

/-- The length of the first element, of a container only up to its members. -/
def len (seq : List UInt8) : Except ErrorCode ℕ := do
  let c ← control seq
  let valueLen ← valueLen seq c
  return 1 + c.tagType.size + c.valueType.variableSizeLen + valueLen

/-- The loop of `containerValueLen`. -/
def containerValueLenLoop : ℕ → ℕ → List UInt8 → ℕ → Except ErrorCode ℕ
  | _, 0, _, n => .ok n
  | 0, _ + 1, _, _ => .error .tlvTypeMismatch
  | fuel + 1, level + 1, next, n => do
    let next ← nextEnter next
    let l ← len next
    let c ← control next
    let level ← nextLevel c (level + 1)
    containerValueLenLoop fuel level next (n + l)

/-- The length of the value, with the members and the end marker of a container. -/
def containerValueLen (seq : List UInt8) (c : TLVControl) : Except ErrorCode ℕ :=
  if c.valueType.isContainer then containerValueLenLoop seq.length 1 seq 0 else valueLen seq c

def containerValue (seq : List UInt8) (c : TLVControl) : Except ErrorCode (List UInt8) := do
  let len ← containerValueLen seq c
  let data ← valueStart seq c
  sliceTo data len

def containerLen (seq : List UInt8) : Except ErrorCode ℕ := do
  let c ← control seq
  let valueLen ← containerValueLen seq c
  return 1 + c.tagType.size + c.valueType.variableSizeLen + valueLen

/-- One step of the iterator over the elements: the element, if there is one, and the
rest. -/
def iterNext (seq : List UInt8) : Except ErrorCode (Option (List UInt8) × List UInt8) := do
  let elem ← current seq
  let rest ← containerNext seq
  return (if elem.isEmpty then none else some elem, rest)

def iter : ℕ → List UInt8 → Except ErrorCode (List (List UInt8))
  | 0, _ => .error .tlvTypeMismatch
  | fuel + 1, seq => do
    let (elem, rest) ← iterNext seq
    match elem with
    | none => return []
    | some elem => do
      let elems ← iter fuel rest
      return elem :: elems

end TLVSequence

namespace TLVElement

open TLVSequence

def tag (elem : List UInt8) : Except ErrorCode TLVTag := do
  let c ← control elem
  let data ← tagStart elem
  let slice ← sliceTo data c.tagType.size
  return match c.tagType with
    | .anonymous => .anonymous
    | .context => .context (BitVec.ofNat 8 (ofLE slice))
    | .commonPrf16 => .commonPrf16 (BitVec.ofNat 16 (ofLE slice))
    | .commonPrf32 => .commonPrf32 (BitVec.ofNat 32 (ofLE slice))
    | .implPrf16 => .implPrf16 (BitVec.ofNat 16 (ofLE slice))
    | .implPrf32 => .implPrf32 (BitVec.ofNat 32 (ofLE slice))
    | .fullQual48 =>
      .fullQual48 (BitVec.ofNat 16 (ofLE (slice.take 2)))
        (BitVec.ofNat 16 (ofLE ((slice.drop 2).take 2))) (BitVec.ofNat 16 (ofLE (slice.drop 4)))
    | .fullQual64 =>
      .fullQual64 (BitVec.ofNat 16 (ofLE (slice.take 2)))
        (BitVec.ofNat 16 (ofLE ((slice.drop 2).take 2))) (BitVec.ofNat 32 (ofLE (slice.drop 4)))

/-- `core::str::from_utf8`. -/
def fromUtf8 (slice : List UInt8) : Except ErrorCode String :=
  match String.fromUTF8? ⟨slice.toArray⟩ with
  | some s => .ok s
  | none => .error .tlvTypeMismatch

/-- The value. The slice has the size of the value type, so that the source's conversions
to arrays cannot fail. -/
def value (elem : List UInt8) : Except ErrorCode TLVValue := do
  let c ← control elem
  let slice ← containerValue elem c
  match c.valueType with
  | .s8 => return .s8 (BitVec.ofNat 8 (ofLE slice))
  | .s16 => return .s16 (BitVec.ofNat 16 (ofLE slice))
  | .s32 => return .s32 (BitVec.ofNat 32 (ofLE slice))
  | .s64 => return .s64 (BitVec.ofNat 64 (ofLE slice))
  | .u8 => return .u8 (BitVec.ofNat 8 (ofLE slice))
  | .u16 => return .u16 (BitVec.ofNat 16 (ofLE slice))
  | .u32 => return .u32 (BitVec.ofNat 32 (ofLE slice))
  | .u64 => return .u64 (BitVec.ofNat 64 (ofLE slice))
  | .false => return .false
  | .true => return .true
  | .f32 => return .f32 (BitVec.ofNat 32 (ofLE slice))
  | .f64 => return .f64 (BitVec.ofNat 64 (ofLE slice))
  | .utf8l => return .utf8l (← fromUtf8 slice)
  | .utf16l => return .utf16l (← fromUtf8 slice)
  | .utf32l => return .utf32l (← fromUtf8 slice)
  | .utf64l => return .utf64l (← fromUtf8 slice)
  | .str8l => return .str8l slice
  | .str16l => return .str16l slice
  | .str32l => return .str32l slice
  | .str64l => return .str64l slice
  | .null => return .null
  | .struct => return .struct
  | .array => return .array
  | .list => return .list
  | .endCnt => return .endCnt

def container (elem : List UInt8) : Except ErrorCode (List UInt8) := do
  let c ← control elem
  if c.valueType.isContainerStart then nextEnter elem else .error .tlvTypeMismatch

end TLVElement

end RsMatter
