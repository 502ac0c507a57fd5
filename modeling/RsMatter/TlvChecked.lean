import RsMatter.TlvGrammar
import RsMatter.TlvPanic

/-!
# Lengths in machine integers (`tlv/read.rs`)

A length field has up to eight bytes and is cast to `usize`; the reader adds up such lengths, and counts the
open containers in an `i32`. Here is the reader with a panic where an addition overflows, for both widths of
`usize`. It does not panic on a slice unless it comes to a length field that is close to the largest `usize`,
or to a container at a depth of `2 ^ 31`: what is no longer than the slice itself cannot overflow.
-/

namespace RsMatter

/-- The width of a `usize`. -/
inductive PointerWidth where
  | width32
  | width64
  deriving DecidableEq

def PointerWidth.bits : PointerWidth → ℕ
  | width32 => 32
  | width64 => 64

namespace Checked

open Stop TLVSequence

/-! ## The reader -/

/-- `a + b` in `usize`. -/
def add (u : PointerWidth) (a b : ℕ) : Except (Stop ErrorCode) ℕ :=
  if a + b < 2 ^ u.bits then .ok (a + b) else .error .panic

/-- `from_le_bytes(slice.try_into().unwrap())`. -/
def number (n : ℕ) (slice : List UInt8) : Except (Stop ErrorCode) (BitVec (8 * n)) := do
  let bytes ← unwrap (TLVElement.tryInto n slice)
  return BitVec.ofNat (8 * n) (ofLE bytes)

/-- `from_le_bytes([slice[i], ..])`. -/
def numberAt (n : ℕ) (slice : List UInt8) (is : List ℕ) : Except (Stop ErrorCode) (BitVec (8 * n)) := do
  let bytes ← is.mapM (index slice)
  return BitVec.ofNat (8 * n) (ofLE bytes)

/-- The length of the value, `0` for containers; of a length field what fits a `usize`. -/
def valueLen (u : PointerWidth) (seq : List UInt8) (control : TLVControl) : Except (Stop ErrorCode) ℕ :=
  match control.valueType.fixedSize with
  | some fixedSize => .ok fixedSize
  | none => do
    let len ← Panicking.valueLen seq control
    return len % 2 ^ u.bits

/-- What follows the first element, entering containers. -/
def nextStart (u : PointerWidth) (seq : List UInt8) (control : TLVControl) :
    Except (Stop ErrorCode) (List UInt8) := do
  let len ← valueLen u seq control
  let data ← Panicking.valueStart seq control
  lift (sliceFrom data len)

/-- The elements after the first one, entering containers. -/
def nextEnter (u : PointerWidth) (seq : List UInt8) : Except (Stop ErrorCode) (List UInt8) :=
  if seq.isEmpty then .ok []
  else do
    let c ← lift (control seq)
    nextStart u seq c

/-- How deep the reader is after an element, from `level` open containers. -/
def nextLevel (c : TLVControl) (level : ℕ) : Except (Stop ErrorCode) ℕ :=
  if c.valueType.isContainerEnd then do
    lift c.confirmContainerEnd
    return level - 1
  else if c.valueType.isContainer then
    if level + 1 < 2 ^ 31 then return level + 1 else .error .panic
  else
    return level

/-- The loop of `containerNext`. -/
def containerNextLoop (u : PointerWidth) : ℕ → ℕ → List UInt8 → Except (Stop ErrorCode) (List UInt8)
  | _, 0, next => .ok next
  | 0, _ + 1, _ => .error (.error .tlvTypeMismatch)
  | fuel + 1, level + 1, next => do
    let c ← lift (control next)
    let level ← nextLevel c (level + 1)
    let next ← nextEnter u next
    containerNextLoop u fuel level next

/-- The elements after the first one, skipping the members of a container. -/
def containerNext (u : PointerWidth) (seq : List UInt8) : Except (Stop ErrorCode) (List UInt8) :=
  if seq.isEmpty then .ok []
  else do
    let c ← lift (control seq)
    if c.valueType.isContainerEnd then do
      lift c.confirmContainerEnd
      return seq
    else do
      let next ← nextEnter u seq
      if c.valueType.isContainer then containerNextLoop u seq.length 1 next else return next

/-- The length of the first element, of a container only up to its members. -/
def len (u : PointerWidth) (seq : List UInt8) : Except (Stop ErrorCode) ℕ := do
  let c ← lift (control seq)
  let valueLen ← valueLen u seq c
  add u (1 + c.tagType.size + c.valueType.variableSizeLen) valueLen

/-- The loop of `containerValueLen`. -/
def containerValueLenLoop (u : PointerWidth) : ℕ → ℕ → List UInt8 → ℕ → Except (Stop ErrorCode) ℕ
  | _, 0, _, n => .ok n
  | 0, _ + 1, _, _ => .error (.error .tlvTypeMismatch)
  | fuel + 1, level + 1, next, n => do
    let next ← nextEnter u next
    let l ← len u next
    let n ← add u n l
    let c ← lift (control next)
    let level ← nextLevel c (level + 1)
    containerValueLenLoop u fuel level next n

/-- The length of the value, with the members and the end marker of a container. -/
def containerValueLen (u : PointerWidth) (seq : List UInt8) (c : TLVControl) : Except (Stop ErrorCode) ℕ :=
  if c.valueType.isContainer then containerValueLenLoop u seq.length 1 seq 0 else valueLen u seq c

def containerValue (u : PointerWidth) (seq : List UInt8) (c : TLVControl) :
    Except (Stop ErrorCode) (List UInt8) := do
  let len ← containerValueLen u seq c
  let data ← Panicking.valueStart seq c
  lift (sliceTo data len)

def containerLen (u : PointerWidth) (seq : List UInt8) : Except (Stop ErrorCode) ℕ := do
  let c ← lift (control seq)
  let valueLen ← containerValueLen u seq c
  add u (1 + c.tagType.size + c.valueType.variableSizeLen) valueLen

/-- The bytes of the value of the first element. -/
def rawValue (u : PointerWidth) (seq : List UInt8) : Except (Stop ErrorCode) (List UInt8) := do
  let c ← lift (control seq)
  containerValue u seq c

/-- One step of the iterator over the elements. -/
def iterNext (u : PointerWidth) (seq : List UInt8) :
    Except (Stop ErrorCode) (Option (List UInt8) × List UInt8) := do
  let elem ← lift (current seq)
  let rest ← containerNext u seq
  return (if elem.isEmpty then none else some elem, rest)

/-- The loop of `findCtx`. -/
def findCtxLoop (u : PointerWidth) (ctx : BitVec 8) : ℕ → List UInt8 → Except (Stop ErrorCode) (List UInt8)
  | 0, _ => .error (.error .tlvTypeMismatch)
  | fuel + 1, seq => do
    let (elem, rest) ← iterNext u seq
    match elem with
    | none => return []
    | some elem => do
      let elemCtx ← lift (TLVElement.tryCtx elem)
      if elemCtx = some ctx then return elem else findCtxLoop u ctx fuel rest

/-- The first element with a context id, empty if there is none. -/
def findCtx (u : PointerWidth) (ctx : BitVec 8) (seq : List UInt8) : Except (Stop ErrorCode) (List UInt8) :=
  findCtxLoop u ctx (seq.length + 1) seq

def tag (elem : List UInt8) : Except (Stop ErrorCode) TLVTag := do
  let c ← lift (control elem)
  let data ← lift (tagStart elem)
  let slice ← lift (sliceTo data c.tagType.size)
  match c.tagType with
  | .anonymous => return .anonymous
  | .context => do
    let byte ← numberAt 1 slice [0]
    return .context byte
  | .commonPrf16 => do
    let id ← number 2 slice
    return .commonPrf16 id
  | .commonPrf32 => do
    let id ← number 4 slice
    return .commonPrf32 id
  | .implPrf16 => do
    let id ← number 2 slice
    return .implPrf16 id
  | .implPrf32 => do
    let id ← number 4 slice
    return .implPrf32 id
  | .fullQual48 => do
    let vendorId ← numberAt 2 slice [0, 1]
    let profile ← numberAt 2 slice [2, 3]
    let tag ← numberAt 2 slice [4, 5]
    return .fullQual48 vendorId profile tag
  | .fullQual64 => do
    let vendorId ← numberAt 2 slice [0, 1]
    let profile ← numberAt 2 slice [2, 3]
    let tag ← numberAt 4 slice [4, 5, 6, 7]
    return .fullQual64 vendorId profile tag

def valueOf (slice : List UInt8) : TLVValueType → Except (Stop ErrorCode) TLVValue
  | .s8 => do
    let v ← number 1 slice
    return .s8 v
  | .s16 => do
    let v ← number 2 slice
    return .s16 v
  | .s32 => do
    let v ← number 4 slice
    return .s32 v
  | .s64 => do
    let v ← number 8 slice
    return .s64 v
  | .u8 => do
    let v ← number 1 slice
    return .u8 v
  | .u16 => do
    let v ← number 2 slice
    return .u16 v
  | .u32 => do
    let v ← number 4 slice
    return .u32 v
  | .u64 => do
    let v ← number 8 slice
    return .u64 v
  | .false => return .false
  | .true => return .true
  | .f32 => do
    let v ← number 4 slice
    return .f32 v
  | .f64 => do
    let v ← number 8 slice
    return .f64 v
  | .utf8l => do
    let s ← lift (TLVElement.fromUtf8 slice)
    return .utf8l s
  | .utf16l => do
    let s ← lift (TLVElement.fromUtf8 slice)
    return .utf16l s
  | .utf32l => do
    let s ← lift (TLVElement.fromUtf8 slice)
    return .utf32l s
  | .utf64l => do
    let s ← lift (TLVElement.fromUtf8 slice)
    return .utf64l s
  | .str8l => return .str8l slice
  | .str16l => return .str16l slice
  | .str32l => return .str32l slice
  | .str64l => return .str64l slice
  | .null => return .null
  | .struct => return .struct
  | .array => return .array
  | .list => return .list
  | .endCnt => return .endCnt

def value (u : PointerWidth) (elem : List UInt8) : Except (Stop ErrorCode) TLVValue := do
  let c ← lift (control elem)
  let slice ← containerValue u elem c
  valueOf slice c.valueType

def container (u : PointerWidth) (elem : List UInt8) : Except (Stop ErrorCode) (List UInt8) := do
  let c ← lift (control elem)
  if c.valueType.isContainerStart then nextEnter u elem else .error (.error .tlvTypeMismatch)

def «structure» (u : PointerWidth) (elem : List UInt8) : Except (Stop ErrorCode) (List UInt8) := do
  let c ← lift (control elem)
  if c.valueType = .struct then nextEnter u elem else .error (.error .tlvTypeMismatch)

/-- The member of a structure with a context id. -/
def structureFindCtx (u : PointerWidth) (ctx : BitVec 8) (elem : List UInt8) :
    Except (Stop ErrorCode) (List UInt8) := do
  let seq ← Checked.structure u elem
  findCtx u ctx seq

/-! ## Total, and when -/

def sliceOf : TLVValue → Option (List UInt8)
  | .utf8l s | .utf16l s | .utf32l s | .utf64l s => some (utf8Bytes s)
  | .str8l slice | .str16l slice | .str32l slice | .str64l slice => some slice
  | _ => none

/-- Reading the first element of a slice does not panic, and what it gives lies in the slice. -/
structure Total (u : PointerWidth) (bytes : List UInt8) : Prop where
  tag : NoPanic (Checked.tag bytes)
  value : Ensures (Checked.value u bytes) fun v => ∀ slice ∈ sliceOf v, slice <:+: bytes
  container : Ensures (Checked.container u bytes) (· <:+: bytes)
  rawValue : Ensures (Checked.rawValue u bytes) (· <:+: bytes)
  containerLen : NoPanic (Checked.containerLen u bytes)
  findCtx (ctx : BitVec 8) : Ensures (Checked.structureFindCtx u ctx bytes) (· <:+: bytes)
  /-- a step of an iterator that has come to it -/
  iterNext : Ensures (Checked.iterNext u bytes) fun step =>
    (∀ elem ∈ step.1, elem <:+: bytes) ∧ step.2 <:+: bytes

/-- How long the first element is, of a container up to its members, if it is there or not. -/
def extent (u : PointerWidth) (seq : List UInt8) : Except (Stop ErrorCode) ℕ := do
  let c ← lift (control seq)
  let n ← valueLen u seq c
  return 1 + c.tagType.size + c.valueType.variableSizeLen + n

structure Tok (u : PointerWidth) (e : List UInt8) (c : TLVControl) : Prop where
  control : TLVSequence.control e = .ok c
  extent : Checked.extent u e = .ok e.length

/-- Tokens one after the other, with so many containers open before and after them, and some all the time. -/
inductive Runs (u : PointerWidth) : ℕ → List UInt8 → ℕ → Prop
  | nil {level : ℕ} : Runs u (level + 1) [] (level + 1)
  | leaf {level level' : ℕ} {e rest : List UInt8} {c : TLVControl} (he : Tok u e c)
    (hleaf : c.valueType.isContainer = false) (h : Runs u level rest level') : Runs u level (e ++ rest) level'
  | start {level level' : ℕ} {e rest : List UInt8} {c : TLVControl} (he : Tok u e c)
    (hstart : c.valueType.isContainerStart = true) (h : Runs u (level + 1) rest level') :
    Runs u level (e ++ rest) level'
  | stop {level level' : ℕ} {rest : List UInt8} (h : Runs u (level + 1) rest level') :
    Runs u (level + 2) (endMarker :: rest) level'

/-- Behind `n` bytes, the length of the next token leads out of `usize`. -/
def Long (u : PointerWidth) (n : ℕ) (rest : List UInt8) : Prop :=
  ∃ L, extent u rest = .ok L ∧ 2 ^ u.bits ≤ n + L

/-- In `level` containers, the next token starts one more than an `i32` can count. -/
def Deep (level : ℕ) (rest : List UInt8) : Prop :=
  ∃ c, control rest = .ok c ∧ c.valueType.isContainerStart = true ∧ 2 ^ 31 ≤ level + 1

/-- The members of a container, behind `n` bytes, lead to a token that is too long or too deep. -/
def Bursts (u : PointerWidth) (n level : ℕ) (members : List UInt8) : Prop :=
  ∃ b rest level', Runs u level b level' ∧ members = b ++ rest ∧
    (Long u (n + b.length) rest ∨ Deep level' rest)

/-- The length of an element without members leads out of `usize`, or the members of a container lead to a
token that is too long or too deep. -/
def Overlong (u : PointerWidth) (bytes : List UInt8) : Prop :=
  (∃ c, control bytes = .ok c ∧ c.valueType.isContainer = false ∧ Long u 0 bytes) ∨
    ∃ head c members, bytes = head ++ members ∧ Tok u head c ∧ c.valueType.isContainer = true ∧
      Bursts u 0 1 members

/-! ## Tokens -/

/-- What `as usize` makes of the number in a length field. -/
def asUsize (u : PointerWidth) (t : TLVValueType) (n : ℕ) : ℕ :=
  match t.fixedSize with
  | some _ => n
  | none => n % 2 ^ u.bits

section Tokens

variable {u : PointerWidth} {seq next e rest : List UInt8} {c : TLVControl} {L : ℕ}

theorem valueLen_eq (h : control seq = .ok c) :
    valueLen u seq c = lift ((TLVSequence.valueLen seq c).map (asUsize u c.valueType)) := by
  rw [valueLen]
  cases hsize : c.valueType.fixedSize with
  | some n =>
    have hvalue : TLVSequence.valueLen seq c = .ok n := by rw [TLVSequence.valueLen, hsize]
    rw [hvalue]
    simp only [Except.map, asUsize, hsize, lift]
  | none =>
    simp only
    rw [Panicking.valueLen_eq h]
    cases TLVSequence.valueLen seq c with
    | error e => rfl
    | ok n => simp only [Except.map, asUsize, hsize, lift, ok_bind, pure, Except.pure]

theorem noPanic_valueLen (h : control seq = .ok c) : NoPanic (valueLen u seq c) := by
  rw [valueLen_eq h]
  exact noPanic_lift _

theorem valueLen_eq_ok (h : control seq = .ok c) :
    valueLen u seq c = .ok L ↔ ∃ n, TLVSequence.valueLen seq c = .ok n ∧ L = asUsize u c.valueType n := by
  rw [valueLen_eq h]
  cases TLVSequence.valueLen seq c with
  | error e => exact ⟨fun h => (nomatch h), fun ⟨_, h, _⟩ => (nomatch h)⟩
  | ok n =>
    constructor
    · intro h
      exact ⟨n, rfl, (Except.ok.inj h).symm⟩
    · rintro ⟨_, hn, rfl⟩
      obtain rfl := Except.ok.inj hn
      rfl

theorem lift_eq_ok {α : Type} {x : Except ErrorCode α} {a : α} : lift x = .ok a ↔ x = .ok a := by
  cases x with
  | error e => exact ⟨fun h => (nomatch h), fun h => (nomatch h)⟩
  | ok b => exact ⟨fun h => congrArg _ (Except.ok.inj h), fun h => congrArg _ (Except.ok.inj h)⟩

theorem extent_eq_ok : extent u seq = .ok L ↔ ∃ c n, control seq = .ok c ∧
    TLVSequence.valueLen seq c = .ok n ∧
    L = 1 + c.tagType.size + c.valueType.variableSizeLen + asUsize u c.valueType n := by
  rw [extent, Prog.except_bind_eq_ok]
  constructor
  · rintro ⟨c, hc, h⟩
    obtain ⟨m, hm, h⟩ := Prog.except_bind_eq_ok.mp h
    obtain ⟨n, hn, rfl⟩ := (valueLen_eq_ok (lift_eq_ok.mp hc)).mp hm
    exact ⟨c, n, lift_eq_ok.mp hc, hn, (Except.ok.inj h).symm⟩
  · rintro ⟨c, n, hc, hn, rfl⟩
    exact ⟨c, lift_eq_ok.mpr hc, Prog.except_bind_eq_ok.mpr ⟨_, (valueLen_eq_ok hc).mpr ⟨n, hn, rfl⟩, rfl⟩⟩

theorem noPanic_extent (u : PointerWidth) (seq : List UInt8) : NoPanic (extent u seq) :=
  (noPanic_lift _).bind fun _ hc => (noPanic_valueLen (lift_eq_ok.mp hc)).bind fun _ _ => noPanic_ok _

theorem one_le_extent (h : extent u seq = .ok L) : 1 ≤ L := by
  obtain ⟨c, n, -, -, rfl⟩ := extent_eq_ok.mp h
  omega

theorem extent_append (h : extent u seq = .ok L) (rest : List UInt8) : extent u (seq ++ rest) = .ok L := by
  obtain ⟨c, n, hc, hn, rfl⟩ := extent_eq_ok.mp h
  exact extent_eq_ok.mpr ⟨c, n, control_append hc rest, valueLen_append hn rest, rfl⟩

theorem extent_take {m : ℕ} (h : extent u seq = .ok L) (hm : L ≤ m) : extent u (seq.take m) = .ok L := by
  obtain ⟨c, n, hc, hn, rfl⟩ := extent_eq_ok.mp h
  refine extent_eq_ok.mpr ⟨c, n, ?_, valueLen_take hn (by omega), rfl⟩
  rw [control_take (by omega), hc]

theorem noPanic_valueStart (h : control seq = .ok c) : NoPanic (Panicking.valueStart seq c) := by
  rw [Panicking.valueStart_eq h]
  exact noPanic_lift _

theorem valueStart_eq_ok' (h : control seq = .ok c) {data : List UInt8} :
    Panicking.valueStart seq c = .ok data ↔ 1 + c.tagType.size + c.valueType.variableSizeLen ≤ seq.length ∧
      data = seq.drop (1 + c.tagType.size + c.valueType.variableSizeLen) := by
  rw [Panicking.valueStart_eq h, lift_eq_ok, TLVSequence.valueStart_eq_ok]

theorem noPanic_nextEnter (u : PointerWidth) (seq : List UInt8) : NoPanic (nextEnter u seq) := by
  rw [nextEnter]
  split
  · exact noPanic_ok _
  · refine (noPanic_lift _).bind fun c hc => ?_
    have hcontrol := lift_eq_ok.mp hc
    exact (noPanic_valueLen hcontrol).bind fun _ _ =>
      (noPanic_valueStart hcontrol).bind fun _ _ => noPanic_lift _

theorem nextEnter_eq_ok (hseq : seq ≠ []) :
    nextEnter u seq = .ok next ↔ ∃ L, extent u seq = .ok L ∧ L ≤ seq.length ∧ next = seq.drop L := by
  rw [nextEnter, isEmpty_of_ne_nil hseq, if_neg Bool.false_ne_true, Prog.except_bind_eq_ok]
  simp only [nextStart, Prog.except_bind_eq_ok, lift_eq_ok, extent_eq_ok, sliceFrom_eq_ok]
  constructor
  · rintro ⟨c, hc, m, hm, data, hdata, hle, rfl⟩
    obtain ⟨n, hn, rfl⟩ := (valueLen_eq_ok hc).mp hm
    obtain ⟨hhead, rfl⟩ := (valueStart_eq_ok' hc).mp hdata
    rw [List.length_drop] at hle
    exact ⟨_, ⟨c, n, hc, hn, rfl⟩, by omega, List.drop_drop⟩
  · rintro ⟨_, ⟨c, n, hc, hn, rfl⟩, hle, rfl⟩
    refine ⟨c, hc, _, (valueLen_eq_ok hc).mpr ⟨n, hn, rfl⟩, _, (valueStart_eq_ok' hc).mpr ⟨by omega, rfl⟩, ?_,
      List.drop_drop.symm⟩
    rw [List.length_drop]
    omega

theorem Tok.ne_nil (h : Tok u e c) (rest : List UInt8) : e ++ rest ≠ [] :=
  ne_nil_of_control (control_append h.control rest)

theorem Tok.one_le_length (h : Tok u e c) : 1 ≤ e.length := one_le_extent h.extent

theorem Tok.nextEnter (h : Tok u e c) (rest : List UInt8) : nextEnter u (e ++ rest) = .ok rest := by
  refine (nextEnter_eq_ok (h.ne_nil rest)).mpr ⟨e.length, extent_append h.extent rest, ?_, ?_⟩
  · rw [List.length_append]
    exact Nat.le_add_right ..
  · rw [List.drop_left]

theorem exists_tok (hc : control seq = .ok c) (h : nextEnter u seq = .ok next) :
    ∃ e, Tok u e c ∧ seq = e ++ next := by
  obtain ⟨L, hL, hle, rfl⟩ := (nextEnter_eq_ok (ne_nil_of_control hc)).mp h
  refine ⟨seq.take L, ⟨?_, ?_⟩, (List.take_append_drop L seq).symm⟩
  · rw [control_take (one_le_extent hL), hc]
  · rw [extent_take hL le_rfl, List.length_take, Nat.min_eq_left hle]

theorem tok_endMarker (u : PointerWidth) : Tok u [endMarker] ⟨.anonymous, .endCnt⟩ := ⟨rfl, rfl⟩

theorem Tok.eq_endMarker (h : Tok u e ⟨.anonymous, .endCnt⟩) : e = [endMarker] := by
  obtain ⟨tail, rfl⟩ := exists_endMarker h.control
  obtain rfl : tail = [] := List.eq_nil_of_length_eq_zero (Nat.succ.inj (Except.ok.inj h.extent).symm)
  rfl

theorem exists_extent_of_start (hc : control seq = .ok c) (hstart : c.valueType.isContainerStart = true) :
    ∃ L, extent u seq = .ok L := by
  have hsize : TLVSequence.valueLen seq c = .ok 0 := by
    rw [TLVSequence.valueLen]
    obtain ⟨tagType, valueType⟩ := c
    cases valueType <;> first | rfl | cases hstart
  exact ⟨_, extent_eq_ok.mpr ⟨c, 0, hc, hsize, rfl⟩⟩

end Tokens

/-! ## Levels -/

section Levels

variable {u : PointerWidth} {c : TLVControl} {level : ℕ}

theorem nextLevel_of_leaf (hleaf : c.valueType.isContainer = false) (level : ℕ) :
    nextLevel c level = .ok level := by
  rw [nextLevel, isContainerEnd_of_leaf hleaf, if_neg Bool.false_ne_true, hleaf]
  rfl

theorem nextLevel_of_start (hstart : c.valueType.isContainerStart = true) (level : ℕ) :
    nextLevel c level = if level + 1 < 2 ^ 31 then .ok (level + 1) else .error .panic := by
  rw [nextLevel, isContainerEnd_of_start hstart, if_neg Bool.false_ne_true, isContainer_of_start hstart,
    if_pos rfl]
  rfl

theorem control_cases (c : TLVControl) : c.valueType.isContainer = false ∨
    c.valueType.isContainerStart = true ∨ c.valueType.isContainerEnd = true := by
  cases h : c.valueType.isContainer with
  | false => exact .inl rfl
  | true =>
    rw [TLVValueType.isContainer, Bool.or_eq_true] at h
    exact .inr h

theorem nextLevel_of_end (hend : c.valueType.isContainerEnd = true) (level : ℕ) :
    (c = ⟨.anonymous, .endCnt⟩ ∧ nextLevel c (level + 1) = .ok level) ∨
      (c ≠ ⟨.anonymous, .endCnt⟩ ∧ nextLevel c (level + 1) = .error (.error .invalidData)) := by
  obtain ⟨tagType, valueType⟩ := c
  cases valueType <;> cases hend
  cases tagType with
  | anonymous => exact .inl ⟨rfl, rfl⟩
  | _ => exact .inr ⟨nofun, rfl⟩

end Levels

/-! ## Counting -/

section Count

variable {u : PointerWidth} {seq next members : List UInt8} {c : TLVControl} {fuel level n : ℕ}

theorem len_eq (u : PointerWidth) (seq : List UInt8) :
    len u seq = extent u seq >>= fun L => if L < 2 ^ u.bits then .ok L else .error .panic := by
  rw [len, extent, bind_assoc]
  refine bind_congr fun c => ?_
  rw [bind_assoc]
  exact bind_congr fun m => rfl

theorem bursts_iff : Bursts u n (level + 1) members ↔ Long u n members ∨ Deep (level + 1) members ∨
    ∃ e c rest, Tok u e c ∧ members = e ++ rest ∧
      ((c.valueType.isContainer = false ∧ Bursts u (n + e.length) (level + 1) rest) ∨
      (c.valueType.isContainerStart = true ∧ Bursts u (n + e.length) (level + 2) rest) ∨
      (c = ⟨.anonymous, .endCnt⟩ ∧ ∃ level', level = level' + 1 ∧ Bursts u (n + e.length) level rest)) := by
  constructor
  · rintro ⟨b, rest, level', hruns, rfl, hstuck⟩
    cases hruns with
    | nil => exact hstuck.imp id .inl
    | @leaf _ _ e b c he hleaf h =>
      refine .inr (.inr ⟨e, c, b ++ rest, he, List.append_assoc ..,
        .inl ⟨hleaf, b, rest, level', h, rfl, ?_⟩⟩)
      rwa [List.length_append, ← Nat.add_assoc] at hstuck
    | @start _ _ e b c he hstart h =>
      refine .inr (.inr ⟨e, c, b ++ rest, he, List.append_assoc ..,
        .inr (.inl ⟨hstart, b, rest, level', h, rfl, ?_⟩)⟩)
      rwa [List.length_append, ← Nat.add_assoc] at hstuck
    | @stop level _ b h =>
      refine .inr (.inr ⟨[endMarker], _, b ++ rest, tok_endMarker u, rfl,
        .inr (.inr ⟨rfl, level, rfl, b, rest, level', h, rfl, ?_⟩)⟩)
      rwa [List.length_cons, Nat.add_comm b.length, ← Nat.add_assoc] at hstuck
  · rintro (hlong | hdeep | ⟨e, c, rest, he, rfl, hcase⟩)
    · exact ⟨[], members, level + 1, .nil, rfl, .inl hlong⟩
    · exact ⟨[], members, level + 1, .nil, rfl, .inr hdeep⟩
    · obtain ⟨hleaf, b, rest, level', h, rfl, hstuck⟩ | ⟨hstart, b, rest, level', h, rfl, hstuck⟩ |
        ⟨rfl, level₀, rfl, b, rest, level', h, rfl, hstuck⟩ := hcase
      · refine ⟨e ++ b, rest, level', .leaf he hleaf h, (List.append_assoc ..).symm, ?_⟩
        rwa [List.length_append, ← Nat.add_assoc]
      · refine ⟨e ++ b, rest, level', .start he hstart h, (List.append_assoc ..).symm, ?_⟩
        rwa [List.length_append, ← Nat.add_assoc]
      · obtain rfl := he.eq_endMarker
        refine ⟨endMarker :: b, rest, level', .stop h, rfl, ?_⟩
        rwa [List.length_cons, Nat.add_comm b.length, ← Nat.add_assoc]

/-- **The count** of a container panics exactly if its members burst. -/
theorem containerValueLenLoop_eq_panic_iff (hseq : nextEnter u seq = .ok next) (hfuel : next.length < fuel) :
    containerValueLenLoop u fuel (level + 1) seq n = .error .panic ↔ Bursts u n (level + 1) next := by
  induction fuel generalizing level seq next n with
  | zero => exact absurd hfuel (Nat.not_lt_zero _)
  | succ fuel ih =>
    rw [containerValueLenLoop, hseq, ok_bind, len_eq, bursts_iff]
    cases hL : extent u next with
    | error stop =>
      -- there is no token
      have hno : NoPanic (.error stop : Except (Stop ErrorCode) ℕ) := hL ▸ noPanic_extent u next
      refine iff_of_false (fun h => hno ?_) ?_
      · cases h
        rfl
      · rintro (⟨L, h, -⟩ | ⟨c, hc, hstart, -⟩ | ⟨e, c, rest, he, rfl, -⟩)
        · cases hL.symm.trans h
        · obtain ⟨L, h⟩ := exists_extent_of_start (u := u) hc hstart
          cases hL.symm.trans h
        · cases hL.symm.trans (extent_append he.extent rest)
    | ok L =>
      rw [ok_bind]
      by_cases hlong : 2 ^ u.bits ≤ n + L
      · refine iff_of_true ?_ (.inl ⟨L, hL, hlong⟩)
        by_cases hfits : L < 2 ^ u.bits
        · rw [if_pos hfits, ok_bind, add, if_neg (Nat.not_lt_of_le hlong)]
          rfl
        · rw [if_neg hfits]
          rfl
      · have hnotlong : ¬ Long u n next := fun ⟨L', hL', h⟩ => hlong (Except.ok.inj (hL.symm.trans hL') ▸ h)
        obtain ⟨c, m, hc, -, -⟩ := extent_eq_ok.mp hL
        rw [if_pos (by omega), ok_bind, add, if_pos (by omega), ok_bind, hc, lift_ok, ok_bind,
          or_iff_right hnotlong]
        -- what the next rounds do
        have hrest (level' : ℕ) : containerValueLenLoop u fuel (level' + 1) next (n + L) = .error .panic ↔
            ∃ e rest, Tok u e c ∧ next = e ++ rest ∧ Bursts u (n + e.length) (level' + 1) rest := by
          cases hnext : nextEnter u next with
          | error stop =>
            have hno : NoPanic (.error stop : Except (Stop ErrorCode) (List UInt8)) :=
              hnext ▸ noPanic_nextEnter u next
            refine iff_of_false (fun h => ?_) ?_
            · cases fuel with
              | zero => cases h
              | succ fuel =>
                rw [containerValueLenLoop, hnext] at h
                cases h
                exact hno rfl
            · rintro ⟨e, rest, he, rfl, -⟩
              cases hnext.symm.trans (he.nextEnter rest)
          | ok next' =>
            obtain ⟨e, he, rfl⟩ := exists_tok hc hnext
            obtain rfl : e.length = L := Except.ok.inj ((extent_append he.extent next').symm.trans hL)
            have hone := he.one_le_length
            rw [List.length_append] at hfuel
            rw [ih hnext (by omega)]
            constructor
            · intro h
              exact ⟨e, next', he, rfl, h⟩
            · rintro ⟨e', rest, he', heq, h⟩
              have hlen : e'.length = e.length :=
                Except.ok.inj ((extent_append he'.extent rest).symm.trans (heq ▸ hL))
              obtain ⟨rfl, rfl⟩ := List.append_inj heq hlen.symm
              exact h
        have hsame {e rest : List UInt8} {c' : TLVControl} (he : Tok u e c') (heq : next = e ++ rest) :
            c' = c := by
          rw [heq, control_append he.control] at hc
          exact Except.ok.inj hc
        rcases control_cases c with hleaf | hstart | hend
        · -- an element without members
          have hdeep : ¬ Deep (level + 1) next := by
            rintro ⟨c', hc', hstart, -⟩
            obtain rfl := Except.ok.inj (hc.symm.trans hc')
            rw [isContainer_of_start hstart] at hleaf
            cases hleaf
          rw [nextLevel_of_leaf hleaf, ok_bind, hrest, or_iff_right hdeep]
          constructor
          · rintro ⟨e, rest, he, heq, h⟩
            exact ⟨e, c, rest, he, heq, .inl ⟨hleaf, h⟩⟩
          · rintro ⟨e, c', rest, he, heq, ⟨-, h⟩ | ⟨hstart, -⟩ | ⟨hmarker, -⟩⟩ <;>
              obtain rfl := hsame he heq
            · exact ⟨e, rest, he, heq, h⟩
            · rw [isContainer_of_start hstart] at hleaf
              cases hleaf
            · rw [hmarker] at hleaf
              cases hleaf
        · -- the start of a container
          have hno : c ≠ ⟨.anonymous, .endCnt⟩ := by
            rintro rfl
            cases hstart
          rw [nextLevel_of_start hstart]
          by_cases hdepth : level + 1 + 1 < 2 ^ 31
          · have hdeep : ¬ Deep (level + 1) next := fun ⟨_, _, _, h⟩ => absurd hdepth (Nat.not_lt_of_le h)
            rw [if_pos hdepth, ok_bind, hrest, or_iff_right hdeep]
            constructor
            · rintro ⟨e, rest, he, heq, h⟩
              exact ⟨e, c, rest, he, heq, .inr (.inl ⟨hstart, h⟩)⟩
            · rintro ⟨e, c', rest, he, heq, ⟨hleaf, -⟩ | ⟨-, h⟩ | ⟨hmarker, -⟩⟩ <;>
                obtain rfl := hsame he heq
              · rw [isContainer_of_start hstart] at hleaf
                cases hleaf
              · exact ⟨e, rest, he, heq, h⟩
              · exact absurd hmarker hno
          · rw [if_neg hdepth]
            exact iff_of_true rfl (.inl ⟨c, hc, hstart, Nat.le_of_not_lt hdepth⟩)
        · -- an end marker
          have hdeep : ¬ Deep (level + 1) next := by
            rintro ⟨c', hc', hstart, -⟩
            obtain rfl := Except.ok.inj (hc.symm.trans hc')
            rw [isContainerEnd_of_start hstart] at hend
            cases hend
          have hcases (hc : c.valueType.isContainer = false ∨ c.valueType.isContainerStart = true) : False := by
            rcases hc with hleaf | hstart
            · rw [isContainerEnd_of_leaf hleaf] at hend
              cases hend
            · rw [isContainerEnd_of_start hstart] at hend
              cases hend
          rw [or_iff_right hdeep]
          obtain ⟨hmarker, hlevel⟩ | ⟨hmarker, hlevel⟩ := nextLevel_of_end hend level <;> rw [hlevel]
          · rw [ok_bind]
            cases level with
            | zero =>
              refine iff_of_false (fun h => ?_) ?_
              · cases fuel <;> cases h
              · rintro ⟨e, c', rest, he, heq, ⟨hleaf, -⟩ | ⟨hstart, -⟩ | ⟨-, level', hzero, -⟩⟩
                · exact hcases (.inl (hsame he heq ▸ hleaf))
                · exact hcases (.inr (hsame he heq ▸ hstart))
                · cases hzero
            | succ level =>
              rw [hrest]
              constructor
              · rintro ⟨e, rest, he, heq, h⟩
                exact ⟨e, c, rest, he, heq, .inr (.inr ⟨hmarker, level, rfl, h⟩)⟩
              · rintro ⟨e, c', rest, he, heq, ⟨hleaf, -⟩ | ⟨hstart, -⟩ | ⟨-, level', -, h⟩⟩
                · exact (hcases (.inl (hsame he heq ▸ hleaf))).elim
                · exact (hcases (.inr (hsame he heq ▸ hstart))).elim
                · exact ⟨e, rest, hsame he heq ▸ he, heq, h⟩
          · refine iff_of_false nofun ?_
            rintro ⟨e, c', rest, he, heq, ⟨hleaf, -⟩ | ⟨hstart, -⟩ | ⟨hmarker', -⟩⟩
            · exact hcases (.inl (hsame he heq ▸ hleaf))
            · exact hcases (.inr (hsame he heq ▸ hstart))
            · exact hmarker (hsame he heq ▸ hmarker')

theorem le_of_containerValueLenLoop {total : ℕ} (hseq : nextEnter u seq = .ok next)
    (h : containerValueLenLoop u fuel (level + 1) seq n = .ok total) : total ≤ n + next.length := by
  induction fuel generalizing level seq next n with
  | zero => cases h
  | succ fuel ih =>
    rw [containerValueLenLoop, hseq, ok_bind, Prog.except_bind_eq_ok] at h
    obtain ⟨L, hL, h⟩ := h
    rw [len_eq, Prog.except_bind_eq_ok] at hL
    obtain ⟨L', hL', hL⟩ := hL
    obtain rfl : L' = L := by
      split at hL
      · exact Except.ok.inj hL
      · cases hL
    rw [Prog.except_bind_eq_ok] at h
    obtain ⟨n', hn', h⟩ := h
    obtain rfl : n + L' = n' := by
      rw [add] at hn'
      split at hn'
      · exact Except.ok.inj hn'
      · cases hn'
    rw [Prog.except_bind_eq_ok] at h
    obtain ⟨c, hc, h⟩ := h
    obtain ⟨level', hlevel, h⟩ := Prog.except_bind_eq_ok.mp h
    have hcontrol := lift_eq_ok.mp hc
    have hrest (level' : ℕ) (h : containerValueLenLoop u fuel (level' + 1) next (n + L') = .ok total) :
        total ≤ n + next.length := by
      cases hnext : nextEnter u next with
      | error stop =>
        cases fuel with
        | zero => cases h
        | succ fuel =>
          rw [containerValueLenLoop, hnext] at h
          cases h
      | ok next' =>
        obtain ⟨e, he, rfl⟩ := exists_tok hcontrol hnext
        obtain rfl : e.length = L' := Except.ok.inj ((extent_append he.extent next').symm.trans hL')
        have hle := ih hnext h
        rw [List.length_append]
        omega
    cases level' with
    | succ level' => exact hrest level' h
    | zero =>
      -- the end marker of the container
      have hmarker : c = ⟨.anonymous, .endCnt⟩ := by
        rcases control_cases c with hleaf | hstart | hend
        · rw [nextLevel_of_leaf hleaf] at hlevel
          cases hlevel
        · rw [nextLevel_of_start hstart] at hlevel
          split at hlevel <;> cases hlevel
        · obtain ⟨hmarker, -⟩ | ⟨-, herror⟩ := nextLevel_of_end hend level
          · exact hmarker
          · cases herror.symm.trans hlevel
      obtain ⟨rest, rfl⟩ := exists_endMarker (hmarker ▸ hcontrol)
      obtain rfl : 1 = L' := Except.ok.inj ((extent_append (tok_endMarker u).extent rest).symm.trans hL')
      have htotal : n + 1 = total := by
        cases fuel <;> exact Except.ok.inj h
      rw [List.length_cons]
      omega

end Count

end Checked

end RsMatter
