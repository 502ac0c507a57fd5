import RsMatter.Panic
import RsMatter.TlvAccess

/-!
# The TLV reader does not panic (`tlv/read.rs`)

The reader of `TlvRead` and `TlvAccess` once more, with the `unwrap`s of the source. The
slice behind the control byte is unwrapped, as every caller has parsed a control byte
before; so are the conversions of a length field to an array, as the field was taken with
that length. So the reader gives what the plain one gives, for every slice.
-/

namespace RsMatter

namespace Panicking

open Stop

def valueLenStart (seq : List UInt8) (tagType : TLVTagType) :
    Except (Stop ErrorCode) (List UInt8) := do
  let data ← unwrap (TLVSequence.tagStart seq)
  lift (sliceFrom data tagType.size)

def valueStart (seq : List UInt8) (control : TLVControl) :
    Except (Stop ErrorCode) (List UInt8) := do
  let data ← valueLenStart seq control.tagType
  lift (sliceFrom data control.valueType.variableSizeLen)

/-- The length in a length field of one of the four sizes. -/
def lenOf (sizeLen : ℕ) (slice : List UInt8) : Except (Stop ErrorCode) ℕ :=
  if sizeLen = 1 ∨ sizeLen = 2 ∨ sizeLen = 4 ∨ sizeLen = 8 then do
    let bytes ← unwrap (TLVElement.tryInto sizeLen slice)
    return ofLE bytes
  else .error .panic

/-- The length of the value, `0` for containers. -/
def valueLen (seq : List UInt8) (control : TLVControl) : Except (Stop ErrorCode) ℕ :=
  match control.valueType.fixedSize with
  | some fixedSize => .ok fixedSize
  | none => do
    let data ← valueLenStart seq control.tagType
    let slice ← lift (sliceTo data control.valueType.variableSizeLen)
    lenOf control.valueType.variableSizeLen slice

/-- The bytes of the value; none of a container. -/
def value (seq : List UInt8) (control : TLVControl) : Except (Stop ErrorCode) (List UInt8) := do
  let len ← valueLen seq control
  let data ← valueStart seq control
  lift (sliceTo data len)

/-- What follows the first element, entering containers. -/
def nextStart (seq : List UInt8) (control : TLVControl) :
    Except (Stop ErrorCode) (List UInt8) := do
  let len ← valueLen seq control
  let data ← valueStart seq control
  lift (sliceFrom data len)

/-- The elements after the first one, entering containers. -/
def nextEnter (seq : List UInt8) : Except (Stop ErrorCode) (List UInt8) :=
  if seq.isEmpty then .ok []
  else do
    let c ← lift (TLVSequence.control seq)
    nextStart seq c

/-- The loop of `containerNext`. -/
def containerNextLoop : ℕ → ℕ → List UInt8 → Except (Stop ErrorCode) (List UInt8)
  | _, 0, next => .ok next
  | 0, _ + 1, _ => .error (.error .tlvTypeMismatch)
  | fuel + 1, level + 1, next => do
    let c ← lift (TLVSequence.control next)
    let level ← lift (TLVSequence.nextLevel c (level + 1))
    let next ← nextEnter next
    containerNextLoop fuel level next

/-- The elements after the first one, skipping the members of a container. -/
def containerNext (seq : List UInt8) : Except (Stop ErrorCode) (List UInt8) :=
  if seq.isEmpty then .ok []
  else do
    let c ← lift (TLVSequence.control seq)
    if c.valueType.isContainerEnd then do
      lift c.confirmContainerEnd
      return seq
    else do
      let next ← nextEnter seq
      if c.valueType.isContainer then containerNextLoop seq.length 1 next else return next

/-- One step of the iterator over the elements. -/
def iterNext (seq : List UInt8) :
    Except (Stop ErrorCode) (Option (List UInt8) × List UInt8) := do
  let elem ← lift (TLVSequence.current seq)
  let rest ← containerNext seq
  return (if elem.isEmpty then none else some elem, rest)

/-- The loop of `findCtx`. -/
def findCtxLoop (ctx : BitVec 8) : ℕ → List UInt8 → Except (Stop ErrorCode) (List UInt8)
  | 0, _ => .error (.error .tlvTypeMismatch)
  | fuel + 1, seq => do
    let (elem, rest) ← iterNext seq
    match elem with
    | none => return []
    | some elem => do
      let elemCtx ← lift (TLVElement.tryCtx elem)
      if elemCtx = some ctx then return elem else findCtxLoop ctx fuel rest

/-- The first element with a context id, empty if there is none. -/
def findCtx (ctx : BitVec 8) (seq : List UInt8) : Except (Stop ErrorCode) (List UInt8) :=
  findCtxLoop ctx (seq.length + 1) seq

/-- The loop of `scanCtx`. -/
def scanCtxLoop (ctx : BitVec 8) :
    ℕ → List UInt8 → Except (Stop ErrorCode) (List UInt8 × List UInt8)
  | 0, _ => .error (.error .tlvTypeMismatch)
  | fuel + 1, seq => do
    let elem ← lift (TLVSequence.current seq)
    if elem.isEmpty then return (elem, seq)
    else do
      let elemCtx ← lift (TLVElement.tryCtx elem)
      match elemCtx with
      | some elemCtx =>
        if elemCtx = ctx then return (elem, seq)
        else if ctx < elemCtx then return ([], seq)
        else do
          let rest ← containerNext seq
          scanCtxLoop ctx fuel rest
      | none => do
        let rest ← containerNext seq
        scanCtxLoop ctx fuel rest

/-- The element with a context id, and the sequence from where the scan stopped. -/
def scanCtx (ctx : BitVec 8) (seq : List UInt8) :
    Except (Stop ErrorCode) (List UInt8 × List UInt8) :=
  scanCtxLoop ctx (seq.length + 1) seq

/-- An integer of the given value type, or what the narrower type gives. -/
def uint {w : ℕ} (t : TLVValueType) (size : ℕ)
    (narrower : Except (Stop ErrorCode) (BitVec w)) (elem : List UInt8) :
    Except (Stop ErrorCode) (BitVec w) := do
  let c ← lift (TLVSequence.control elem)
  if c.valueType = t then do
    let slice ← value elem c
    let bytes ← lift (TLVElement.tryInto size slice)
    return BitVec.ofNat w (ofLE bytes)
  else narrower

def u8 (elem : List UInt8) : Except (Stop ErrorCode) (BitVec 8) :=
  uint .u8 1 (.error (.error .tlvTypeMismatch)) elem

/-- An unsigned 16-bit integer, or a narrower one. -/
def u16 (elem : List UInt8) : Except (Stop ErrorCode) (BitVec 16) :=
  uint .u16 2 ((u8 elem).map (BitVec.setWidth 16)) elem

/-- An unsigned 32-bit integer, or a narrower one. -/
def u32 (elem : List UInt8) : Except (Stop ErrorCode) (BitVec 32) :=
  uint .u32 4 ((u16 elem).map (BitVec.setWidth 32)) elem

/-- An unsigned 64-bit integer, or a narrower one. -/
def u64 (elem : List UInt8) : Except (Stop ErrorCode) (BitVec 64) :=
  uint .u64 8 ((u32 elem).map (BitVec.setWidth 64)) elem

/-- The members of a container of the given type. -/
def membersOf (t : TLVValueType) (code : ErrorCode) (elem : List UInt8) :
    Except (Stop ErrorCode) (List UInt8) := do
  let c ← lift (TLVSequence.control elem)
  if c.valueType = t then nextEnter elem else .error (.error code)

def «structure» (elem : List UInt8) : Except (Stop ErrorCode) (List UInt8) :=
  membersOf .struct .tlvTypeMismatch elem

def array (elem : List UInt8) : Except (Stop ErrorCode) (List UInt8) :=
  membersOf .array .invalidData elem

def list (elem : List UInt8) : Except (Stop ErrorCode) (List UInt8) :=
  membersOf .list .tlvTypeMismatch elem

def container (elem : List UInt8) : Except (Stop ErrorCode) (List UInt8) := do
  let c ← lift (TLVSequence.control elem)
  if c.valueType.isContainerStart then nextEnter elem else .error (.error .tlvTypeMismatch)

/-! ## It gives what the plain reader gives -/

section Header

variable {seq : List UInt8} {c : TLVControl} (h : TLVSequence.control seq = .ok c)
include h

theorem tagStart_of_control : ∃ data, TLVSequence.tagStart seq = .ok data := by
  cases seq with
  | nil => cases h
  | cons byte data => exact ⟨data, by simp [TLVSequence.tagStart, sliceFrom]⟩

theorem valueLenStart_eq (t : TLVTagType) :
    valueLenStart seq t = lift (TLVSequence.valueLenStart seq t) := by
  obtain ⟨data, hdata⟩ := tagStart_of_control h
  rw [valueLenStart, TLVSequence.valueLenStart, hdata]
  rfl

theorem valueStart_eq : valueStart seq c = lift (TLVSequence.valueStart seq c) := by
  rw [valueStart, TLVSequence.valueStart, valueLenStart_eq h, lift_bind]

omit h in
/-- A value without a fixed size has a length field of one of the four sizes. -/
theorem variableSizeLen_cases {t : TLVValueType} (ht : t.fixedSize = none) :
    t.variableSizeLen = 1 ∨ t.variableSizeLen = 2 ∨ t.variableSizeLen = 4 ∨
      t.variableSizeLen = 8 := by
  cases t <;> simp_all [TLVValueType.fixedSize, TLVValueType.variableSizeLen]

omit h in
theorem lenOf_sliceTo {n : ℕ} (hn : n = 1 ∨ n = 2 ∨ n = 4 ∨ n = 8) (data : List UInt8) :
    (do
      let slice ← lift (sliceTo data n)
      lenOf n slice) = lift (do
        let slice ← sliceTo data n
        return ofLE slice) := by
  by_cases hlen : n ≤ data.length
  · have hslice : (data.take n).length = n := by
      rw [List.length_take]
      exact Nat.min_eq_left hlen
    rw [sliceTo, if_pos hlen]
    change lenOf n (data.take n) = .ok (ofLE (data.take n))
    rw [lenOf, if_pos hn, TLVElement.tryInto, if_pos hslice]
    rfl
  · rw [sliceTo, if_neg hlen]
    rfl

theorem valueLen_eq : valueLen seq c = lift (TLVSequence.valueLen seq c) := by
  rw [valueLen, TLVSequence.valueLen]
  cases ht : c.valueType.fixedSize with
  | some n => rfl
  | none =>
    simp only
    rw [valueLenStart_eq h, lift_bind]
    exact bind_congr fun data => lenOf_sliceTo (variableSizeLen_cases ht) data

theorem value_eq : value seq c = lift (TLVSequence.value seq c) := by
  rw [value, TLVSequence.value, valueLen_eq h, lift_bind]
  refine bind_congr fun len => ?_
  rw [valueStart_eq h, lift_bind]

theorem nextStart_eq : nextStart seq c = lift (TLVSequence.nextStart seq c) := by
  rw [nextStart, TLVSequence.nextStart, valueLen_eq h, lift_bind]
  refine bind_congr fun len => ?_
  rw [valueStart_eq h, lift_bind]

end Header

theorem nextEnter_eq (seq : List UInt8) : nextEnter seq = lift (TLVSequence.nextEnter seq) := by
  rw [nextEnter, TLVSequence.nextEnter]
  split
  · rfl
  · cases h : TLVSequence.control seq with
    | error code => rfl
    | ok c => exact nextStart_eq h

theorem containerNextLoop_eq (fuel level : ℕ) (next : List UInt8) :
    containerNextLoop fuel level next =
      lift (TLVSequence.containerNextLoop fuel level next) := by
  induction fuel generalizing level next with
  | zero => cases level <;> rfl
  | succ fuel ih =>
    cases level with
    | zero => rfl
    | succ level =>
      rw [containerNextLoop, TLVSequence.containerNextLoop, lift_bind]
      refine bind_congr fun c => ?_
      rw [lift_bind]
      refine bind_congr fun level' => ?_
      rw [nextEnter_eq, lift_bind]
      exact bind_congr fun next' => ih level' next'

theorem containerNext_eq (seq : List UInt8) :
    containerNext seq = lift (TLVSequence.containerNext seq) := by
  rw [containerNext, TLVSequence.containerNext, lift_ite]
  refine if_congr Iff.rfl rfl ?_
  rw [lift_bind]
  refine bind_congr fun c => ?_
  rw [lift_ite]
  refine if_congr Iff.rfl ?_ ?_
  · rw [lift_bind]
    rfl
  · rw [nextEnter_eq, lift_bind]
    refine bind_congr fun next => ?_
    rw [lift_ite, containerNextLoop_eq]
    rfl

/-- **The iterator** does not panic. -/
theorem iterNext_eq (seq : List UInt8) : iterNext seq = lift (TLVSequence.iterNext seq) := by
  rw [iterNext, TLVSequence.iterNext, lift_bind]
  refine bind_congr fun elem => ?_
  rw [containerNext_eq, lift_bind]
  rfl

theorem findCtxLoop_eq (ctx : BitVec 8) (fuel : ℕ) (seq : List UInt8) :
    findCtxLoop ctx fuel seq = lift (TLVSequence.findCtxLoop ctx fuel seq) := by
  induction fuel generalizing seq with
  | zero => rfl
  | succ fuel ih =>
    rw [findCtxLoop, TLVSequence.findCtxLoop, iterNext_eq, lift_bind]
    apply bind_congr
    rintro ⟨elem, rest⟩
    cases elem with
    | none => rfl
    | some elem =>
      simp only
      rw [lift_bind]
      refine bind_congr fun elemCtx => ?_
      rw [lift_ite, ih]
      rfl

theorem findCtx_eq (ctx : BitVec 8) (seq : List UInt8) :
    findCtx ctx seq = lift (TLVSequence.findCtx ctx seq) := findCtxLoop_eq ..

theorem scanCtxLoop_eq (ctx : BitVec 8) (fuel : ℕ) (seq : List UInt8) :
    scanCtxLoop ctx fuel seq = lift (TLVSequence.scanCtxLoop ctx fuel seq) := by
  induction fuel generalizing seq with
  | zero => rfl
  | succ fuel ih =>
    have hnext : (containerNext seq >>= fun rest => scanCtxLoop ctx fuel rest) =
        lift (TLVSequence.containerNext seq >>= fun rest => TLVSequence.scanCtxLoop ctx fuel rest) := by
      rw [containerNext_eq, lift_bind]
      exact bind_congr fun rest => ih rest
    rw [scanCtxLoop, TLVSequence.scanCtxLoop, lift_bind]
    refine bind_congr fun elem => ?_
    rw [lift_ite]
    refine if_congr Iff.rfl rfl ?_
    rw [lift_bind]
    refine bind_congr fun elemCtx => ?_
    cases elemCtx with
    | none => exact hnext
    | some elemCtx =>
      simp only
      rw [lift_ite, lift_ite, hnext]
      rfl

theorem scanCtx_eq (ctx : BitVec 8) (seq : List UInt8) :
    scanCtx ctx seq = lift (TLVSequence.scanCtx ctx seq) := scanCtxLoop_eq ..

section Elements

variable (elem : List UInt8)

theorem uint_eq {w : ℕ} (t : TLVValueType) (size : ℕ) (narrower : Except ErrorCode (BitVec w)) :
    uint t size (lift narrower) elem = lift (TLVElement.uint t size narrower elem) := by
  rw [uint, TLVElement.uint]
  cases h : TLVSequence.control elem with
  | error code => rfl
  | ok c =>
    rw [lift_bind, lift_ok]
    change (if _ then _ else _) = lift (if _ then _ else _)
    rw [lift_ite, value_eq h, lift_bind]
    refine if_congr Iff.rfl (bind_congr fun slice => ?_) rfl
    rw [lift_bind]
    rfl

theorem lift_map {α β : Type} (f : α → β) (x : Except ErrorCode α) :
    lift (x.map f) = (lift x).map f := by
  cases x <;> rfl

theorem u8_eq : u8 elem = lift (TLVElement.u8 elem) := uint_eq elem _ _ (.error _)

theorem u16_eq : u16 elem = lift (TLVElement.u16 elem) := by
  rw [u16, u8_eq, ← lift_map, uint_eq]
  rfl

theorem u32_eq : u32 elem = lift (TLVElement.u32 elem) := by
  rw [u32, u16_eq, ← lift_map, uint_eq]
  rfl

theorem u64_eq : u64 elem = lift (TLVElement.u64 elem) := by
  rw [u64, u32_eq, ← lift_map, uint_eq]
  rfl

theorem membersOf_eq (t : TLVValueType) (code : ErrorCode) :
    membersOf t code elem = lift (TLVElement.membersOf t code elem) := by
  rw [membersOf, TLVElement.membersOf, lift_bind]
  refine bind_congr fun c => ?_
  rw [lift_ite, nextEnter_eq]
  rfl

theorem container_eq : container elem = lift (TLVElement.container elem) := by
  rw [container, TLVElement.container, lift_bind]
  refine bind_congr fun c => ?_
  rw [lift_ite, nextEnter_eq]
  rfl

end Elements

end Panicking

end RsMatter
