import RsMatter.TlvCodec

/-!
# Reading in place, and absent arrays (`tlv/traits.rs`, `tlv/traits/vec.rs`, `rs-matter-macros/src/tlv.rs`)

`from_tlv` and `init_from_tlv` read the same elements in the same order, and one errs where the
other does. What neither survives is an array that is not there: an absent field is an empty element,
which `TLVArray::new` lets through and whose members are then unwrapped. `AbsentArray` says when
a decoder comes to one.
-/

namespace RsMatter

open Stop Panicking

/-! ## A round of a loop takes a byte -/

theorem length_of_sliceFrom {data rest : List UInt8} {n : ℕ} (h : sliceFrom data n = .ok rest) :
    rest.length + n = data.length := by
  rw [sliceFrom] at h
  split at h
  · next hn =>
    obtain rfl := Except.ok.inj h
    rw [List.length_drop]
    omega
  · cases h

namespace TLVSequence

open Prog (except_bind_eq_ok)

theorem length_of_nextStart {seq rest : List UInt8} {c : TLVControl}
    (h : nextStart seq c = .ok rest) : rest.length < seq.length := by
  rw [nextStart, except_bind_eq_ok] at h
  obtain ⟨len, _, h⟩ := h
  rw [except_bind_eq_ok] at h
  obtain ⟨value, hvalue, hrest⟩ := h
  rw [valueStart, except_bind_eq_ok] at hvalue
  obtain ⟨lenField, hlenField, hvalue⟩ := hvalue
  rw [valueLenStart, except_bind_eq_ok] at hlenField
  obtain ⟨tag, htag, hlenField⟩ := hlenField
  rw [tagStart] at htag
  have h1 := length_of_sliceFrom htag
  have h2 := length_of_sliceFrom hlenField
  have h3 := length_of_sliceFrom hvalue
  have h4 := length_of_sliceFrom hrest
  omega

theorem length_of_nextEnter {seq rest : List UInt8} (h : nextEnter seq = .ok rest) :
    rest.length ≤ seq.length ∧ (seq.isEmpty = false → rest.length < seq.length) := by
  rw [nextEnter] at h
  split at h
  · next hempty =>
    obtain rfl := Except.ok.inj h
    refine ⟨Nat.zero_le _, fun hne => ?_⟩
    rw [hempty] at hne
    cases hne
  · rw [except_bind_eq_ok] at h
    obtain ⟨c, _, h⟩ := h
    exact ⟨(length_of_nextStart h).le, fun _ => length_of_nextStart h⟩

theorem length_of_containerNextLoop {fuel level : ℕ} {next rest : List UInt8}
    (h : containerNextLoop fuel level next = .ok rest) : rest.length ≤ next.length := by
  induction fuel generalizing level next with
  | zero =>
    cases level with
    | zero =>
      obtain rfl := Except.ok.inj h
      exact le_rfl
    | succ level => cases h
  | succ fuel ih =>
    cases level with
    | zero =>
      obtain rfl := Except.ok.inj h
      exact le_rfl
    | succ level =>
      rw [containerNextLoop, except_bind_eq_ok] at h
      obtain ⟨c, _, h⟩ := h
      rw [except_bind_eq_ok] at h
      obtain ⟨level', _, h⟩ := h
      rw [except_bind_eq_ok] at h
      obtain ⟨next', hnext, h⟩ := h
      exact (ih h).trans (length_of_nextEnter hnext).1

/-- **The iterator** gets shorter with every element that it finds. -/
theorem length_of_iterNext {seq elem rest : List UInt8} (h : iterNext seq = .ok (some elem, rest)) :
    rest.length < seq.length := by
  rw [iterNext, except_bind_eq_ok] at h
  obtain ⟨elem', hcurrent, h⟩ := h
  rw [except_bind_eq_ok] at h
  obtain ⟨rest', hnext, h⟩ := h
  obtain ⟨hsome, rfl⟩ := Prod.mk.inj (Except.ok.inj h)
  have hne : elem'.isEmpty = false := by
    cases helem : elem'.isEmpty with
    | false => rfl
    | true =>
      rw [helem] at hsome
      cases hsome
  rw [current] at hcurrent
  split at hcurrent
  · obtain rfl := Except.ok.inj hcurrent
    cases hne
  · next hseq =>
    rw [except_bind_eq_ok] at hcurrent
    obtain ⟨c, hc, hcurrent⟩ := hcurrent
    rw [containerNext, if_neg hseq, hc, ok_bind] at hnext
    split at hcurrent
    · rw [except_bind_eq_ok] at hcurrent
      obtain ⟨_, _, hcurrent⟩ := hcurrent
      obtain rfl := Except.ok.inj hcurrent
      cases hne
    · next hend =>
      rw [if_neg hend, except_bind_eq_ok] at hnext
      obtain ⟨next, henter, hnext⟩ := hnext
      have hlt := (length_of_nextEnter henter).2 (Bool.eq_false_iff.mpr hseq)
      split at hnext
      · exact (length_of_containerNextLoop hnext).trans_lt hlt
      · obtain rfl := Except.ok.inj hnext
        exact hlt

end TLVSequence

/-! ## Reading in place -/

section Items

variable {α : Type} {n : ℕ}

theorem HVec.push_ne_ok {vec : HVec α n} (h : ¬vec.1.length < n) (a : α) (e : ErrorCode)
    (vec' : HVec α n) : vec.push a e ≠ .ok vec' := by
  rw [HVec.push, dif_neg h]
  rintro ⟨⟩

theorem follows_pushItems {from' init : List UInt8 → Except (Stop ErrorCode) α}
    (h : ∀ elem, Follows (from' elem) (init elem)) (e : ErrorCode) (fuel : ℕ) (seq : List UInt8)
    (vec : HVec α n) : Follows (pushItems from' fuel seq vec) (pushInitItems init e fuel seq vec) := by
  induction fuel generalizing seq vec with
  | zero => exact .refl _
  | succ fuel ih =>
    refine (Follows.refl _).bind fun (elem, seq) => ?_
    cases elem with
    | none => exact .refl _
    | some elem =>
      simp only
      split
      case isTrue hroom =>
        refine (h elem).bind fun item => ?_
        rw [HVec.push, HVec.push, dif_pos hroom, dif_pos hroom]
        exact ih seq _
      case isFalse hfull =>
        -- without room, `from_tlv` reads the item before it errs
        refine follows_error _ (fun vec' hok => ?_) _
        obtain ⟨item, _, hok⟩ := Prog.except_bind_eq_ok.mp hok
        obtain ⟨vec'', hpush, _⟩ := Prog.except_bind_eq_ok.mp hok
        exact HVec.push_ne_ok hfull item _ vec'' hpush

end Items

mutual

/-- **Reading in place** gives what `from_tlv` gives, unless that panics. -/
theorem follows_initFromTlv : {α : Type} → (c : Codec α) → (elem : List UInt8) →
    Follows (fromTlv c elem) (initFromTlv c elem)
  | _, .octetsOwned _ _, elem => by
    rw [fromTlv, initFromTlv]
    exact .refl _
  | _, .vec item _, elem => by
    rw [fromTlv, initFromTlv]
    refine (Follows.refl _).bind fun array => (Follows.refl _).bind fun seq => ?_
    exact follows_pushItems (follows_initFromTlv item) _ _ seq _
  | _, .struct kind unordered fields, elem => by
    rw [fromTlv, initFromTlv]
    exact (Follows.refl _).bind fun seq => follows_fieldsInitFromTlv unordered fields seq
  | _, .int .., elem | _, .nonZero .., elem | _, .bool, elem | _, .octets, elem
  | _, .utf8, elem | _, .utf8Owned .., elem | _, .array .., elem
  | _, .nullable .., elem | _, .unitEnum .., elem | _, .dataEnum .., elem => by
    unfold initFromTlv
    exact .refl _

theorem follows_fieldsInitFromTlv (unordered : Bool) : {α : Type} → (fields : Fields α) →
    (seq : List UInt8) →
    Follows (fieldsFromTlv unordered fields seq) (fieldsInitFromTlv unordered fields seq)
  | _, .nil, seq => by
    rw [fieldsFromTlv, fieldsInitFromTlv]
    exact .refl _
  | _, .cons tag c rest, seq => by
    rw [fieldsFromTlv, fieldsInitFromTlv]
    refine (Follows.refl _).bind fun (elem, seq) => (follows_initFromTlv c elem).bind fun a => ?_
    exact (follows_fieldsInitFromTlv unordered rest seq).bind fun b => .refl _
  | _, .optional inPlace tag c rest, seq => by
    rw [fieldsFromTlv, fieldsInitFromTlv]
    refine (Follows.refl _).bind fun (elem, seq) => Follows.bind ?_ fun a => ?_
    · cases inPlace with
      | false => exact .refl _
      | true =>
        rw [if_pos rfl, Panicking.optional, Panicking.optional]
        split
        · exact .refl _
        · exact (follows_initFromTlv c elem).bind fun a => .refl _
    · exact (follows_fieldsInitFromTlv unordered rest seq).bind fun b => .refl _

end

/-! ## Absent arrays -/

/-- Some item is as told, where all before it are read and fit. -/
inductive SomeItem (Told Reads : List UInt8 → Prop) (n : ℕ) : List UInt8 → ℕ → Prop where
  | here {seq elem rest : List UInt8} {len : ℕ}
    (hnext : TLVSequence.iterNext seq = .ok (some elem, rest)) (h : Told elem) :
    SomeItem Told Reads n seq len
  | later {seq elem rest : List UInt8} {len : ℕ}
    (hnext : TLVSequence.iterNext seq = .ok (some elem, rest)) (hreads : Reads elem)
    (hroom : len < n) (h : SomeItem Told Reads n rest (len + 1)) :
    SomeItem Told Reads n seq len

def Reads {α : Type} (c : Codec α) (elem : List UInt8) : Prop := ∃ a, fromTlv c elem = .ok a

mutual

/-- The decoder comes to an array that is not there, before it comes to an error. -/
def AbsentArray : {α : Type} → Codec α → List UInt8 → Prop
  | _, .vec item n, elem | _, .array item _ n, elem =>
    elem = [] ∨
      ∃ seq, TLVElement.array elem = .ok seq ∧ SomeItem (AbsentArray item) (Reads item) n seq 0
  | _, .nullable c, elem =>
    (∃ control, TLVSequence.control elem = .ok control ∧ control.valueType ≠ .null) ∧
      AbsentArray c elem
  | _, .dataEnum naked variants, elem =>
    ∃ payload tag, payloadElem naked elem = .ok payload ∧ payloadTag payload = .ok tag ∧
      AbsentInVariant variants tag payload
  | _, .struct kind unordered fields, elem =>
    ∃ seq, kind.members elem = .ok seq ∧ AbsentInFields unordered fields seq
  | _, .int _, _ | _, .nonZero _, _ | _, .bool, _ | _, .octets, _ | _, .octetsOwned _ _, _
  | _, .utf8, _ | _, .utf8Owned _ _, _ | _, .unitEnum _ _, _ => False

/-- The decoder comes to one in the fields of a structure. -/
def AbsentInFields (unordered : Bool) : {α : Type} → Fields α → List UInt8 → Prop
  | _, .nil, _ => False
  | _, .cons tag c rest, seq =>
    ∃ elem seq', nextField unordered tag seq = .ok (elem, seq') ∧
      (AbsentArray c elem ∨ Reads c elem ∧ AbsentInFields unordered rest seq')
  | _, .optional _ tag c rest, seq =>
    ∃ elem seq', nextField unordered tag seq = .ok (elem, seq') ∧
      (elem ≠ [] ∧ AbsentArray c elem ∨
        (elem = [] ∨ Reads c elem) ∧ AbsentInFields unordered rest seq')

/-- The decoder comes to one in the payload of the variant with a tag. -/
def AbsentInVariant : {α : Type} → Variants α → BitVec 8 → List UInt8 → Prop
  | _, .nil, _, _ => False
  | _, .cons tag' c rest, tag, elem =>
    if tag = tag' then AbsentArray c elem else AbsentInVariant rest tag elem

end

section Items

variable {α : Type} {n : ℕ} {from' : List UInt8 → Except (Stop ErrorCode) α}
  {Absent : List UInt8 → Prop}

theorem newArray_bind_arrayIter (elem : List UInt8) :
    (newArray elem >>= arrayIter) =
      if elem = [] then .error .panic else lift (TLVElement.array elem) := by
  cases elem with
  | nil => rfl
  | cons byte rest =>
    rw [if_neg (List.cons_ne_nil byte rest)]
    change ((membersOf .array .invalidData (byte :: rest) >>= fun _ => .ok (byte :: rest)) >>=
      arrayIter) = lift (TLVElement.membersOf .array .invalidData (byte :: rest))
    rw [membersOf_eq]
    cases h : TLVElement.membersOf .array .invalidData (byte :: rest) with
    | error code => rfl
    | ok members =>
      change arrayIter (byte :: rest) = _
      rw [arrayIter, container_eq, container_of_membersOf rfl h]
      rfl

theorem vecFromTlv_eq (elem : List UInt8) :
    (vecFromTlv from' elem : Except (Stop ErrorCode) (HVec α n)) =
      if elem = [] then .error .panic
      else lift (TLVElement.array elem) >>= fun seq => pushItems from' (seq.length + 1) seq .new := by
  rw [vecFromTlv, ← bind_assoc, newArray_bind_arrayIter]
  split <;> rfl

theorem HVec.push_ne_panic (vec : HVec α n) (a : α) (e : ErrorCode) :
    vec.push a e ≠ .error .panic := by
  rw [HVec.push]
  split <;> rintro ⟨⟩

theorem pushItems_eq_panic (h : ∀ elem, from' elem = .error .panic ↔ Absent elem) {fuel : ℕ}
    {seq : List UInt8} (hfuel : seq.length < fuel) (vec : HVec α n) :
    pushItems from' fuel seq vec = .error .panic ↔
      SomeItem Absent (fun elem => ∃ a, from' elem = .ok a) n seq vec.1.length := by
  induction fuel generalizing seq vec with
  | zero => exact absurd hfuel (Nat.not_lt_zero _)
  | succ fuel ih =>
    rw [pushItems, iterNext_eq, lift_bind_eq_panic]
    constructor
    · rintro ⟨⟨_ | elem, rest⟩, hnext, hpanic⟩
      · cases hpanic
      · rcases bind_eq_panic.mp hpanic with hitem | ⟨item, hitem, hpanic⟩
        · exact .here hnext ((h elem).mp hitem)
        · rcases bind_eq_panic.mp hpanic with hpush | ⟨vec', hpush, hpanic⟩
          · exact absurd hpush (vec.push_ne_panic item _)
          · obtain ⟨hroom, hvec⟩ := HVec.push_eq_ok.mp hpush
            have hlt := TLVSequence.length_of_iterNext hnext
            have hrest := (ih (by omega) vec').mp hpanic
            rw [hvec, List.length_append] at hrest
            exact .later hnext ⟨item, hitem⟩ hroom hrest
    · rintro (⟨hnext, habsent⟩ | ⟨hnext, ⟨item, hitem⟩, hroom, hrest⟩)
      · refine ⟨_, hnext, ?_⟩
        exact bind_eq_panic.mpr (.inl ((h _).mpr habsent))
      · have hlt := TLVSequence.length_of_iterNext hnext
        refine ⟨_, hnext, bind_eq_panic.mpr (.inr ⟨item, hitem, ?_⟩)⟩
        refine bind_eq_panic.mpr (.inr ⟨⟨vec.1 ++ [item], ?_⟩, HVec.push_eq_ok.mpr ⟨hroom, rfl⟩, ?_⟩)
        · rw [List.length_append]
          exact hroom
        · refine (ih (by omega) _).mpr ?_
          rw [List.length_append]
          exact hrest

theorem vecFromTlv_eq_panic (h : ∀ elem, from' elem = .error .panic ↔ Absent elem)
    (elem : List UInt8) :
    (vecFromTlv from' elem : Except (Stop ErrorCode) (HVec α n)) = .error .panic ↔
      elem = [] ∨ ∃ seq, TLVElement.array elem = .ok seq ∧
        SomeItem Absent (fun elem => ∃ a, from' elem = .ok a) n seq 0 := by
  rw [vecFromTlv_eq]
  split
  · next hempty => exact iff_of_true rfl (.inl hempty)
  · next hne =>
    rw [lift_bind_eq_panic, or_iff_right hne]
    exact exists_congr fun seq => and_congr_right fun _ =>
      pushItems_eq_panic h (Nat.lt_succ_self _) _

end Items

theorem noPanic_uint {w : ℕ} {t : TLVValueType} {size : ℕ}
    {narrower : Except (Stop ErrorCode) (BitVec w)} (h : NoPanic narrower) (elem : List UInt8) :
    NoPanic (uint t size narrower elem) := by
  refine noPanic_control_bind fun c hc => ?_
  split
  · exact (noPanic_value hc).bind fun slice _ => (noPanic_lift _).bind fun _ _ => noPanic_ok _
  · exact h

theorem NoPanic.map {ε α β : Type} {x : Except (Stop ε) α} (h : NoPanic x) (f : α → β) :
    NoPanic (x.map f) := by
  cases x with
  | ok a => exact noPanic_ok _
  | error stop =>
    cases stop with
    | error e => exact noPanic_error e
    | panic => exact absurd rfl h

namespace IntKind

theorem noPanic_read (k : IntKind) (elem : List UInt8) : NoPanic (k.read elem) := by
  have hi8 : NoPanic (Panicking.i8 elem) := noPanic_uint (noPanic_error _) elem
  have hi16 : NoPanic (Panicking.i16 elem) := noPanic_uint (hi8.map _) elem
  have hi32 : NoPanic (Panicking.i32 elem) := noPanic_uint (hi16.map _) elem
  cases k with
  | i8 => exact hi8
  | i16 => exact hi16
  | i32 => exact hi32
  | i64 => exact noPanic_uint (hi32.map _) elem
  | u8 => exact noPanic_u8 elem
  | u16 => exact noPanic_u16 elem
  | u32 => exact noPanic_u32 elem
  | u64 => exact noPanic_u64 elem

end IntKind

theorem noPanic_text (elem : List UInt8) : NoPanic (text elem) := by
  refine noPanic_control_bind fun c hc => ?_
  split
  · refine (noPanic_value hc).bind fun slice _ => ?_
    split
    · exact noPanic_ok _
    · exact noPanic_error _
  · exact noPanic_error _

theorem noPanic_matchUnit {k : UnitKind} (variants : List (UnitVariant k))
    (value : BitVec k.int.width) : NoPanic (matchUnit variants value) := by
  rw [matchUnit]
  split
  · exact noPanic_ok _
  · exact noPanic_error _

theorem noPanic_matchNonZero {w : ℕ} (v : BitVec w) : NoPanic (matchNonZero v) := by
  rw [matchNonZero]
  split
  · exact noPanic_ok _
  · exact noPanic_error _

theorem noPanic_extendFromSlice {α : Type} {n : ℕ} (v : HVec α n) (slice : List α) (e : ErrorCode) :
    NoPanic (v.extendFromSlice slice e) := by
  rw [HVec.extendFromSlice]
  split
  · exact noPanic_ok _
  · exact noPanic_error _

theorem noPanic_members (kind : StructKind) (elem : List UInt8) : NoPanic (kind.members elem) := by
  cases kind with
  | struct => exact noPanic_membersOf _ _ elem
  | list => exact noPanic_membersOf _ _ elem

theorem noPanic_nextField (unordered : Bool) (tag : BitVec 8) (seq : List UInt8) :
    NoPanic (nextField unordered tag seq) := by
  cases unordered with
  | false => exact noPanic_scanCtx tag seq
  | true =>
    refine NoPanic.bind ?_ fun _ _ => noPanic_ok _
    rw [findCtx_eq]
    exact noPanic_lift _

theorem noPanic_payloadElem (naked : Bool) (elem : List UInt8) :
    NoPanic (payloadElem naked elem) := by
  cases naked with
  | true => exact noPanic_ok _
  | false =>
    refine (noPanic_membersOf _ _ elem).bind fun seq _ => NoPanic.bind ?_ fun (elem, _) _ => ?_
    · rw [iterNext_eq]
      exact noPanic_lift _
    · cases elem with
      | none => exact noPanic_error _
      | some elem => exact noPanic_ok _

theorem noPanic_payloadTag (elem : List UInt8) : NoPanic (payloadTag elem) := by
  refine (noPanic_lift _).bind fun tag _ => ?_
  cases tag with
  | none => exact noPanic_error _
  | some tag => exact noPanic_ok _

theorem NoPanic.bind_eq_panic {ε α β : Type} {x : Except (Stop ε) α} (hx : NoPanic x)
    {f : α → Except (Stop ε) β} :
    (x >>= f) = .error .panic ↔ ∃ a, x = .ok a ∧ f a = .error .panic :=
  RsMatter.bind_eq_panic.trans (or_iff_right hx)

theorem bind_ok_eq_panic {ε α β : Type} {x : Except (Stop ε) α} (f : α → β) :
    (x >>= fun a => .ok (f a)) = .error .panic ↔ x = .error .panic := by
  rw [bind_eq_panic]
  exact or_iff_left fun ⟨a, _, h⟩ => nomatch h

section Optional

variable {α : Type} (from' : List UInt8 → Except (Stop ErrorCode) α) (elem : List UInt8)

theorem optional_eq_panic :
    Panicking.optional from' elem = .error .panic ↔ elem ≠ [] ∧ from' elem = .error .panic := by
  cases elem with
  | nil => exact iff_of_false (fun h => nomatch h) fun h => h.1 rfl
  | cons byte rest =>
    rw [and_iff_right (List.cons_ne_nil byte rest)]
    exact bind_ok_eq_panic some

theorem exists_optional_eq_ok :
    (∃ a, Panicking.optional from' elem = .ok a) ↔ elem = [] ∨ ∃ a, from' elem = .ok a := by
  cases elem with
  | nil => exact iff_of_true ⟨none, rfl⟩ (.inl rfl)
  | cons byte rest =>
    rw [or_iff_right (List.cons_ne_nil byte rest)]
    constructor
    · rintro ⟨a, h⟩
      obtain ⟨b, hb, _⟩ := Prog.except_bind_eq_ok.mp h
      exact ⟨b, hb⟩
    · rintro ⟨a, h⟩
      exact ⟨some a, Prog.except_bind_eq_ok.mpr ⟨a, h, rfl⟩⟩

end Optional

theorem nullableFromTlv_eq_panic {α : Type} (c : Codec α) (elem : List UInt8)
    (h : fromTlv c elem = .error .panic ↔ AbsentArray c elem) :
    nullableFromTlv c elem = .error .panic ↔ AbsentArray c elem := by
  cases c with
  | int k =>
    rw [nullableFromTlv, AbsentArray, iff_false]
    refine (k.noPanic_read elem).bind fun v _ => ?_
    split
    · exact noPanic_ok _
    · exact noPanic_error _
  | nonZero k =>
    rw [nullableFromTlv, AbsentArray, iff_false]
    refine (k.noPanic_read elem).bind fun v _ => ?_
    split
    · exact noPanic_matchNonZero _
    · exact noPanic_error _
  | unitEnum k variants =>
    rw [nullableFromTlv, AbsentArray, iff_false]
    refine (k.int.noPanic_read elem).bind fun v _ => ?_
    split
    · exact noPanic_matchUnit variants _
    · exact noPanic_error _
  | _ =>
    unfold nullableFromTlv
    exact h

mutual

/-- **A decoder panics** exactly where it comes to an absent array. -/
theorem fromTlv_eq_panic : {α : Type} → (c : Codec α) → (elem : List UInt8) →
    (fromTlv c elem = .error .panic ↔ AbsentArray c elem)
  | _, .int k, elem => by
    rw [fromTlv, AbsentArray, iff_false]
    exact k.noPanic_read elem
  | _, .nonZero k, elem => by
    rw [fromTlv, AbsentArray, iff_false]
    exact (k.noPanic_read elem).bind fun v _ => noPanic_matchNonZero v
  | _, .bool, elem => by
    rw [fromTlv, AbsentArray, iff_false]
    exact noPanic_bool elem
  | _, .octets, elem => by
    rw [fromTlv, AbsentArray, iff_false]
    refine (noPanic_str elem).bind fun a _ => ?_
    split
    · exact noPanic_ok _
    · exact noPanic_error _
  | _, .octetsOwned _ _, elem => by
    rw [fromTlv, AbsentArray, iff_false]
    exact (noPanic_str elem).bind fun a _ => noPanic_extendFromSlice _ a _
  | _, .utf8, elem => by
    rw [fromTlv, AbsentArray, iff_false]
    refine (noPanic_text elem).bind fun a _ => ?_
    split
    · exact noPanic_ok _
    · exact noPanic_error _
  | _, .utf8Owned _ _, elem => by
    rw [fromTlv, AbsentArray, iff_false]
    refine (noPanic_text elem).bind fun a _ => ?_
    rw [HString.tryFrom]
    split
    · exact noPanic_ok _
    · exact noPanic_error _
  | _, .vec item n, elem => by
    rw [fromTlv, AbsentArray]
    exact vecFromTlv_eq_panic (fromTlv_eq_panic item) elem
  | _, .array item _ n, elem => by
    rw [fromTlv, AbsentArray]
    exact (bind_ok_eq_panic _).trans (vecFromTlv_eq_panic (fromTlv_eq_panic item) elem)
  | _, .nullable c, elem => by
    have hc := nullableFromTlv_eq_panic c elem (fromTlv_eq_panic c elem)
    rw [fromTlv, AbsentArray, lift_bind_eq_panic, ← exists_and_right]
    refine exists_congr fun control => ?_
    rw [and_assoc]
    refine and_congr_right fun _ => ?_
    split
    · next hnull => exact iff_of_false (fun h => nomatch h) fun h => h.1 hnull
    · next hnull =>
      rw [and_iff_right hnull]
      exact (bind_ok_eq_panic _).trans hc
  | _, .unitEnum k variants, elem => by
    rw [fromTlv, AbsentArray, iff_false]
    exact (k.int.noPanic_read elem).bind fun v _ => noPanic_matchUnit variants v
  | _, .dataEnum naked variants, elem => by
    rw [fromTlv, AbsentArray, (noPanic_payloadElem naked elem).bind_eq_panic]
    refine exists_congr fun payload => ?_
    rw [(noPanic_payloadTag payload).bind_eq_panic, ← exists_and_left]
    refine exists_congr fun tag => and_congr_right fun _ => and_congr_right fun _ => ?_
    exact variantFromTlv_eq_panic variants tag payload
  | _, .struct kind unordered fields, elem => by
    rw [fromTlv, AbsentArray, (noPanic_members kind elem).bind_eq_panic]
    exact exists_congr fun seq => and_congr_right fun _ =>
      fieldsFromTlv_eq_panic unordered fields seq

theorem fieldsFromTlv_eq_panic (unordered : Bool) : {α : Type} → (fields : Fields α) →
    (seq : List UInt8) →
    (fieldsFromTlv unordered fields seq = .error .panic ↔ AbsentInFields unordered fields seq)
  | _, .nil, seq => by
    rw [fieldsFromTlv, AbsentInFields]
    exact iff_of_false (fun h => nomatch h) not_false
  | _, .cons tag c rest, seq => by
    have hc := fromTlv_eq_panic c
    have hrest := fieldsFromTlv_eq_panic unordered rest
    rw [fieldsFromTlv, AbsentInFields, (noPanic_nextField unordered tag seq).bind_eq_panic, Prod.exists]
    refine exists_congr fun elem => exists_congr fun seq' => and_congr_right fun _ => ?_
    rw [bind_eq_panic, hc, Reads, ← exists_and_right]
    refine or_congr Iff.rfl (exists_congr fun a => and_congr_right fun _ => ?_)
    exact (bind_ok_eq_panic _).trans (hrest seq')
  | _, .optional _ tag c rest, seq => by
    have hc := fromTlv_eq_panic c
    have hrest := fieldsFromTlv_eq_panic unordered rest
    rw [fieldsFromTlv, AbsentInFields, (noPanic_nextField unordered tag seq).bind_eq_panic, Prod.exists]
    refine exists_congr fun elem => exists_congr fun seq' => and_congr_right fun _ => ?_
    rw [bind_eq_panic, optional_eq_panic, hc, Reads, ← exists_optional_eq_ok, ← exists_and_right]
    refine or_congr Iff.rfl (exists_congr fun a => and_congr_right fun _ => ?_)
    exact (bind_ok_eq_panic _).trans (hrest seq')

theorem variantFromTlv_eq_panic : {α : Type} → (variants : Variants α) → (tag : BitVec 8) →
    (elem : List UInt8) →
    (variantFromTlv variants tag elem = .error .panic ↔ AbsentInVariant variants tag elem)
  | _, .nil, tag, elem => by
    rw [variantFromTlv, AbsentInVariant]
    exact iff_of_false (fun h => nomatch h) not_false
  | _, .cons tag' c rest, tag, elem => by
    have hc := fromTlv_eq_panic c
    have hrest := variantFromTlv_eq_panic rest
    rw [variantFromTlv, AbsentInVariant]
    split
    · exact (bind_ok_eq_panic _).trans (hc elem)
    · exact (bind_ok_eq_panic _).trans (hrest tag elem)

end

end RsMatter
