import RsMatter.TlvPanic

/-!
# Fields, strings and members (`tlv/traits.rs`, `tlv/read.rs`)

What `FromTLV` reads out of a structure, and the iterators over the members of a
container. The iterators unwrap the container; the rest does not panic.
-/

namespace RsMatter

def TLVValueType.isStr : TLVValueType → Bool
  | .str8l | .str16l | .str32l | .str64l => .true
  | _ => .false

/-- Is it a UTF-8 string? -/
def TLVValueType.isUtf8 : TLVValueType → Bool
  | .utf8l | .utf16l | .utf32l | .utf64l => .true
  | _ => .false

namespace TLVElement

/-- A member of a structure, if it can be searched for it; empty if it is not there. -/
def member (ctx : BitVec 8) (payload : List UInt8) : Except ErrorCode (List UInt8) := do
  let seq ← TLVElement.structure payload
  TLVSequence.findCtx ctx seq

end TLVElement

namespace Panicking

open Stop

/-! ## Fields -/

section FromTlv

variable {α : Type}

def field (ctx : BitVec 8) (fromTlv : List UInt8 → Except (Stop ErrorCode) α)
    (seq : List UInt8) : Except (Stop ErrorCode) (α × List UInt8) := do
  let (elem, seq) ← scanCtx ctx seq
  let a ← fromTlv elem
  return (a, seq)

/-- `Option::from_tlv`. -/
def optional (fromTlv : List UInt8 → Except (Stop ErrorCode) α) (elem : List UInt8) :
    Except (Stop ErrorCode) (Option α) :=
  if elem.isEmpty then return none
  else do
    let a ← fromTlv elem
    return some a

def bool (elem : List UInt8) : Except (Stop ErrorCode) Bool := lift (TLVElement.bool elem)

end FromTlv

/-- A member of a structure; empty if it is not there. -/
def member (ctx : BitVec 8) (payload : List UInt8) : Except (Stop ErrorCode) (List UInt8) := do
  let seq ← Panicking.structure payload
  findCtx ctx seq

def str (elem : List UInt8) : Except (Stop ErrorCode) (List UInt8) := do
  let c ← lift (TLVSequence.control elem)
  if c.valueType.isStr then value elem c else .error (.error .invalid)

/-- The bytes of the value as a UTF-8 string. -/
def utf8 (elem : List UInt8) : Except (Stop ErrorCode) (List UInt8) := do
  let c ← lift (TLVSequence.control elem)
  if c.valueType.isUtf8 then do
    let slice ← value elem c
    let _ ← lift (TLVElement.fromUtf8 slice)
    return slice
  else .error (.error .invalid)

/-! ## Members -/

section Arrays

variable {T : Type} (fromTlv : List UInt8 → Except (Stop ErrorCode) T)

/-- What an iterator over the members gives in its first `n` calls, up to its end. -/
def tryNext : ℕ → List UInt8 → Except (Stop ErrorCode) (List (Except ErrorCode T))
  | 0, _ => return []
  | n + 1, seq => do
    let step ← attempt (iterNext seq)
    match step with
    | .error code => do
      let items ← tryNext n seq
      return .error code :: items
    | .ok (none, _) => return []
    | .ok (some elem, seq) => do
      let item ← attempt (fromTlv elem)
      let items ← tryNext n seq
      return item :: items

/-- What the iterator over an array gives in its first `n` calls. -/
def iter (n : ℕ) (array : List UInt8) :
    Except (Stop ErrorCode) (List (Except ErrorCode T)) := do
  let members ← attempt (container array)
  let members ← unwrap members
  tryNext fromTlv n members

end Arrays

/-- `TLVArray::new` and `TLVList::new`: an element that is not there passes. -/
def newContainer (t : TLVValueType) (code : ErrorCode) (elem : List UInt8) :
    Except (Stop ErrorCode) (List UInt8) :=
  if !elem.isEmpty then do
    let _ ← membersOf t code elem
    return elem
  else return elem

/-- `TLVArray::new`. -/
def newArray (elem : List UInt8) : Except (Stop ErrorCode) (List UInt8) :=
  newContainer .array .invalidData elem

/-- `TLVList::new`. -/
def newList (elem : List UInt8) : Except (Stop ErrorCode) (List UInt8) :=
  newContainer .list .tlvTypeMismatch elem

/-! ## They do not panic -/

section FromTlv

variable {α : Type} {fromTlv : List UInt8 → Except (Stop ErrorCode) α}

theorem noPanic_scanCtx (ctx : BitVec 8) (seq : List UInt8) : NoPanic (scanCtx ctx seq) := by
  rw [scanCtx_eq]
  exact noPanic_lift _

theorem noPanic_u8 (elem : List UInt8) : NoPanic (u8 elem) := by
  rw [u8_eq]
  exact noPanic_lift _

theorem noPanic_u16 (elem : List UInt8) : NoPanic (u16 elem) := by
  rw [u16_eq]
  exact noPanic_lift _

theorem noPanic_u32 (elem : List UInt8) : NoPanic (u32 elem) := by
  rw [u32_eq]
  exact noPanic_lift _

theorem noPanic_u64 (elem : List UInt8) : NoPanic (u64 elem) := by
  rw [u64_eq]
  exact noPanic_lift _

theorem noPanic_bool (elem : List UInt8) : NoPanic (bool elem) := noPanic_lift _

theorem noPanic_membersOf (t : TLVValueType) (code : ErrorCode) (elem : List UInt8) :
    NoPanic (membersOf t code elem) := by
  rw [membersOf_eq]
  exact noPanic_lift _

theorem noPanic_optional (h : ∀ elem, NoPanic (fromTlv elem)) (elem : List UInt8) :
    NoPanic (optional fromTlv elem) := by
  rw [optional]
  split
  · exact noPanic_ok _
  · exact (h elem).bind fun a _ => noPanic_ok _

theorem noPanic_field (ctx : BitVec 8) (h : ∀ elem, NoPanic (fromTlv elem)) (seq : List UInt8) :
    NoPanic (field ctx fromTlv seq) :=
  (noPanic_scanCtx ctx seq).bind fun _ _ => (h _).bind fun _ _ => noPanic_ok _

theorem noPanic_field_bind {β : Type} (ctx : BitVec 8) (h : ∀ elem, NoPanic (fromTlv elem))
    (seq : List UInt8) {f : α × List UInt8 → Except (Stop ErrorCode) β}
    (hf : ∀ a rest, NoPanic (f (a, rest))) : NoPanic (field ctx fromTlv seq >>= f) :=
  (noPanic_field ctx h seq).bind fun ⟨a, rest⟩ _ => hf a rest

end FromTlv

theorem member_eq (ctx : BitVec 8) (payload : List UInt8) :
    member ctx payload = lift (TLVElement.member ctx payload) := by
  rw [member, TLVElement.member, Panicking.structure, membersOf_eq, lift_bind]
  exact bind_congr fun seq => findCtx_eq ctx seq

theorem noPanic_member (ctx : BitVec 8) (payload : List UInt8) : NoPanic (member ctx payload) := by
  rw [member_eq]
  exact noPanic_lift _

theorem noPanic_value {elem : List UInt8} {c : TLVControl} (hc : TLVSequence.control elem = .ok c) :
    NoPanic (value elem c) := by
  rw [value_eq hc]
  exact noPanic_lift _

theorem noPanic_control_bind {α : Type} {elem : List UInt8}
    {f : TLVControl → Except (Stop ErrorCode) α}
    (h : ∀ c, TLVSequence.control elem = .ok c → NoPanic (f c)) :
    NoPanic (lift (TLVSequence.control elem) >>= f) := by
  cases hc : TLVSequence.control elem with
  | error code => exact noPanic_error code
  | ok c => exact h c hc

theorem noPanic_str (elem : List UInt8) : NoPanic (str elem) := by
  refine noPanic_control_bind fun c hc => ?_
  split
  · exact noPanic_value hc
  · exact noPanic_error _

theorem noPanic_utf8 (elem : List UInt8) : NoPanic (utf8 elem) := by
  refine noPanic_control_bind fun c hc => ?_
  split
  · exact (noPanic_value hc).bind fun slice _ => (noPanic_lift _).bind fun _ _ => noPanic_ok _
  · exact noPanic_error _

theorem container_of_membersOf {t : TLVValueType} {code : ErrorCode} {elem members : List UInt8}
    (ht : t.isContainerStart = true) (h : TLVElement.membersOf t code elem = .ok members) :
    TLVElement.container elem = .ok members := by
  rw [TLVElement.membersOf] at h
  rw [TLVElement.container]
  cases hc : TLVSequence.control elem with
  | error e =>
    rw [hc] at h
    cases h
  | ok c =>
    rw [hc, ok_bind] at h
    rw [ok_bind]
    split at h
    · next htype =>
      rw [if_pos (by rw [htype]; exact ht)]
      exact h
    · cases h

section Arrays

variable {T : Type} {fromTlv : List UInt8 → Except (Stop ErrorCode) T}

theorem noPanic_tryNext (h : ∀ elem, NoPanic (fromTlv elem)) (n : ℕ) (seq : List UInt8) :
    NoPanic (tryNext fromTlv n seq) := by
  induction n generalizing seq with
  | zero => exact noPanic_ok _
  | succ n ih =>
    have hstep : NoPanic (iterNext seq) := by
      rw [iterNext_eq]
      exact noPanic_lift _
    refine hstep.attempt.bind ?_
    rintro (code | ⟨_ | elem, rest⟩) -
    · exact (ih seq).bind fun _ _ => noPanic_ok _
    · exact noPanic_ok _
    · exact (h elem).attempt.bind fun _ _ => (ih rest).bind fun _ _ => noPanic_ok _

theorem attempt_lift {α : Type} (x : Except ErrorCode α) : attempt (lift x) = .ok x := by
  cases x <;> rfl

/-- **An array** is iterated without a panic exactly if it can be opened. -/
theorem noPanic_iter_iff (h : ∀ elem, NoPanic (fromTlv elem)) (n : ℕ) (array : List UInt8) :
    NoPanic (iter fromTlv n array) ↔ ∃ members, TLVElement.container array = .ok members := by
  rw [iter, container_eq, attempt_lift, ok_bind]
  constructor
  · intro hiter
    exact noPanic_unwrap_iff.mp hiter.of_bind
  · intro hopen
    exact (noPanic_unwrap_iff.mpr hopen).bind fun members _ => noPanic_tryNext h n members

theorem newContainer_ensures {t : TLVValueType} {code : ErrorCode}
    (ht : t.isContainerStart = true) {elem : List UInt8} (h : elem ≠ []) :
    Ensures (newContainer t code elem)
      fun array => ∃ members, TLVElement.container array = .ok members := by
  cases elem with
  | nil => exact absurd rfl h
  | cons byte rest =>
    change Ensures (membersOf t code (byte :: rest) >>= fun _ => .ok (byte :: rest)) _
    rw [membersOf_eq]
    cases hmembers : TLVElement.membersOf t code (byte :: rest) with
    | error code => exact ensures_error code
    | ok members => exact ensures_ok ⟨members, container_of_membersOf ht hmembers⟩

end Arrays

end Panicking

end RsMatter
