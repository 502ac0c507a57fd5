import RsMatter.TlvCodecPanic

/-!
# The tree that a value is written as (`tlv/traits/*.rs`, `rs-matter-macros/src/tlv.rs`)

A value is written as a tree of elements, unless it is refused: `treeOf` is that tree, and
`to_tlv` appends its bytes if there is room for all of them. A derived type that fails takes back
what it has written. The leaves of a tree are read back from their shortest encoding.
-/

namespace RsMatter

open Stop Panicking

/-! ## Leaves -/

namespace Panicking

section Elements

variable (tag : TLVTag) (rest : List UInt8)

theorem value_elem {v : TLVValue} (hv : v.Sized) :
    value (elemBytes tag v ++ rest) ⟨tag.tagType, v.valueType⟩ = .ok v.payload := by
  rw [value_eq (TLVSequence.control_elem tag v rest), TLVSequence.value_elem tag rest hv]
  rfl

theorem uint_elem {w size : ℕ} {v : TLVValue} (hv : v.Sized) (hsize : v.payload.length = size)
    (narrower : Except (Stop ErrorCode) (BitVec w)) :
    uint v.valueType size narrower (elemBytes tag v ++ rest) =
      .ok (BitVec.ofNat w (ofLE v.payload)) := by
  rw [uint, TLVSequence.control_elem, lift_ok, ok_bind, if_pos rfl, value_elem tag rest hv, ok_bind,
    TLVElement.tryInto, if_pos hsize]
  rfl

theorem uint_of_ne {w size : ℕ} {t : TLVValueType} {v : TLVValue} (hne : v.valueType ≠ t)
    (narrower : Except (Stop ErrorCode) (BitVec w)) :
    uint t size narrower (elemBytes tag v ++ rest) = narrower := by
  rw [uint, TLVSequence.control_elem, lift_ok, ok_bind, if_neg hne]

theorem i8_elem (v : BitVec 8) : i8 (elemBytes tag (.ofI8 v) ++ rest) = .ok v := by
  refine (uint_elem tag rest (v := .s8 v) (fun h => nomatch h) rfl _).trans ?_
  exact congrArg Except.ok (ofNat_ofLE_toLE 1 rfl v)

theorem signExtend_of_fits {n : ℕ} (k : ℕ) (v : BitVec n) (hn : k + 1 ≤ n)
    (h : -2 ^ k ≤ v.toInt ∧ v.toInt ≤ 2 ^ k - 1) : (v.setWidth (k + 1)).signExtend n = v := by
  refine BitVec.eq_of_toInt_eq ?_
  rw [BitVec.toInt_signExtend_of_le hn, toInt_setWidth_of_fits k v hn h]

theorem valueType_ofI8_ne_s16 (v : BitVec 8) : (TLVValue.ofI8 v).valueType ≠ .s16 :=
  fun h => nomatch h

theorem i16_elem (v : BitVec 16) : i16 (elemBytes tag (.ofI16 v) ++ rest) = .ok v := by
  rw [TLVValue.ofI16]
  split
  case isTrue h =>
    rw [i16, uint_of_ne tag rest (valueType_ofI8_ne_s16 _), i8_elem]
    exact congrArg Except.ok (signExtend_of_fits 7 v (by decide) h)
  case isFalse =>
    refine (uint_elem tag rest (v := .s16 v) (by rintro ⟨⟩) rfl _).trans ?_
    exact congrArg Except.ok (ofNat_ofLE_toLE 2 rfl v)

theorem valueType_ofI16_ne_s32 (v : BitVec 16) : (TLVValue.ofI16 v).valueType ≠ .s32 := by
  rw [TLVValue.ofI16]
  split <;> rintro ⟨⟩

theorem i32_elem (v : BitVec 32) : i32 (elemBytes tag (.ofI32 v) ++ rest) = .ok v := by
  rw [TLVValue.ofI32]
  split
  case isTrue h =>
    rw [i32, uint_of_ne tag rest (valueType_ofI16_ne_s32 _), i16_elem]
    exact congrArg Except.ok (signExtend_of_fits 15 v (by decide) h)
  case isFalse =>
    refine (uint_elem tag rest (v := .s32 v) (by rintro ⟨⟩) rfl _).trans ?_
    exact congrArg Except.ok (ofNat_ofLE_toLE 4 rfl v)

theorem valueType_ofI32_ne_s64 (v : BitVec 32) : (TLVValue.ofI32 v).valueType ≠ .s64 := by
  rw [TLVValue.ofI32, TLVValue.ofI16]
  split_ifs <;> rintro ⟨⟩

theorem i64_elem (v : BitVec 64) : i64 (elemBytes tag (.ofI64 v) ++ rest) = .ok v := by
  rw [TLVValue.ofI64]
  split
  case isTrue h =>
    rw [i64, uint_of_ne tag rest (valueType_ofI32_ne_s64 _), i32_elem]
    exact congrArg Except.ok (signExtend_of_fits 31 v (by decide) h)
  case isFalse =>
    refine (uint_elem tag rest (v := .s64 v) (by rintro ⟨⟩) rfl _).trans ?_
    exact congrArg Except.ok (ofNat_ofLE_toLE 8 rfl v)

theorem bool_elem (b : Bool) : bool (elemBytes tag (.ofBool b) ++ rest) = .ok b := by
  rw [bool, TLVElement.bool, TLVSequence.control_elem, ok_bind]
  cases b <;> rfl

theorem str_elem {a : List UInt8} (h : a.length < 2 ^ 64) :
    str (elemBytes tag (.ofStr a) ++ rest) = .ok a := by
  have hstr : (TLVValue.ofStr a).valueType.isStr = true := by
    rw [TLVValue.ofStr]
    split_ifs <;> rfl
  have hpayload : (TLVValue.ofStr a).payload = a := by
    rw [TLVValue.ofStr]
    split_ifs <;> rfl
  have hsized : (TLVValue.ofStr a).Sized := LeafCall.value_sized (.str a h)
  rw [str, TLVSequence.control_elem, lift_ok, ok_bind, if_pos hstr, value_elem tag rest hsized,
    hpayload]

theorem text_elem {s : String} (h : (utf8Bytes s).length < 2 ^ 64) :
    text (elemBytes tag (.ofUtf8 s) ++ rest) = .ok s := by
  have htext : (TLVValue.ofUtf8 s).valueType.isUtf8 = true := by
    rw [TLVValue.ofUtf8]
    split_ifs <;> rfl
  have hpayload : (TLVValue.ofUtf8 s).payload = utf8Bytes s := by
    rw [TLVValue.ofUtf8]
    split_ifs <;> rfl
  have hsized : (TLVValue.ofUtf8 s).Sized := LeafCall.value_sized (.utf8 s h)
  rw [text, TLVSequence.control_elem, lift_ok, ok_bind, if_pos htext, value_elem tag rest hsized,
    ok_bind, hpayload]
  simp only [fromUtf8_utf8Bytes]

end Elements

end Panicking

theorem IntKind.read_call (k : IntKind) (v : BitVec k.width) (tag : TLVTag) (rest : List UInt8) :
    k.read (elemBytes tag (k.call v).value ++ rest) = .ok v := by
  cases k with
  | i8 => exact i8_elem tag rest v
  | i16 => exact i16_elem tag rest v
  | i32 => exact i32_elem tag rest v
  | i64 => exact i64_elem tag rest v
  | u8 => exact (u8_eq _).trans (congrArg lift (TLVElement.u8_elem tag rest v))
  | u16 => exact (u16_eq _).trans (congrArg lift (TLVElement.u16_elem tag rest v))
  | u32 => exact (u32_eq _).trans (congrArg lift (TLVElement.u32_elem tag rest v))
  | u64 => exact (u64_eq _).trans (congrArg lift (TLVElement.u64_elem tag rest v))

/-! ## The tree of a value -/

mutual

/-- The tree that a value is written as, unless it is refused. -/
def treeOf : {α : Type} → Codec α → α → TLVTag → Option (TLVTree LeafCall)
  | _, .int k, v, tag => some (.leaf tag (k.call v))
  | _, .nonZero k, v, tag => some (.leaf tag (k.call v.1))
  | _, .bool, v, tag => some (.leaf tag (.bool v))
  | _, .octets, v, tag => some (.leaf tag (.str v.1 v.2))
  | _, .octetsOwned _ hn, v, tag => some (.leaf tag (.str v.1 (v.2.trans_lt hn)))
  | _, .utf8, v, tag => some (.leaf tag (.utf8 v.1 v.2))
  | _, .utf8Owned _ hn, v, tag =>
    some (.leaf tag (.utf8 v.1 (by rw [utf8Bytes]; exact v.2.trans_lt hn)))
  | _, .vec item _, v, tag | _, .array item _ _, v, tag =>
    (v.1.mapM fun a => treeOf item a .anonymous).map (.node tag .array)
  | _, .nullable c, v, tag =>
    match v with
    | none => some (.leaf tag .null)
    | some v => nullableTreeOf c v tag
  | _, .unitEnum k variants, v, tag => some (.leaf tag (k.int.call (variants.get v).tag))
  | _, .dataEnum naked variants, v, tag =>
    if naked then payloadTreeOf variants v
    else (payloadTreeOf variants v).map fun t => .node tag .struct [t]
  | _, .struct kind _ fields, v, tag => (fieldTreesOf fields v).map (.node tag kind.container)

/-- The tree of a value that is not null but could be. -/
def nullableTreeOf : {α : Type} → Codec α → α → TLVTag → Option (TLVTree LeafCall)
  | _, .int k, v, tag => if v ≠ k.reserved then some (.leaf tag (k.call v)) else none
  | _, .nonZero k, v, tag => if v.1 ≠ k.reserved then some (.leaf tag (k.call v.1)) else none
  | _, .unitEnum k variants, v, tag =>
    if (variants.get v).discriminant ≠ BitVec.allOnes _ then
      some (.leaf tag (k.int.call (variants.get v).tag))
    else none
  | _, c, v, tag => treeOf c v tag

def fieldTreesOf : {α : Type} → Fields α → α → Option (List (TLVTree LeafCall))
  | _, .nil, _ => some []
  | _, .cons tag c rest, (a, b) => do
    let t ← treeOf c a (.context tag)
    let ts ← fieldTreesOf rest b
    some (t :: ts)
  | _, .optional _ tag c rest, (a, b) =>
    match a with
    | none => fieldTreesOf rest b
    | some a => do
      let t ← treeOf c a (.context tag)
      let ts ← fieldTreesOf rest b
      some (t :: ts)

def payloadTreeOf : {α : Type} → Variants α → α → Option (TLVTree LeafCall)
  | _, .cons tag c _, .inl a => treeOf c a (.context tag)
  | _, .cons _ _ rest, .inr b => payloadTreeOf rest b

end

/-! ## Writing the tree -/

/-- The program appends these bytes, or fails after a part of them; without bytes it fails. -/
structure Emits (m : Prog ErrorCode WriteBuf Unit) (out : Option (List UInt8)) : Prop where
  appends (wb : WriteBuf) : ∃ bytes, bytes.length ≤ wb.room ∧ (m.run wb).1 = wb.push bytes
  /-- it succeeds exactly when all bytes fit -/
  ok (wb wb' : WriteBuf) : m.run wb = (wb', .ok ()) ↔
    ∃ bytes, out = some bytes ∧ bytes.length ≤ wb.room ∧ wb' = wb.push bytes

namespace Emits

variable {m m' : Prog ErrorCode WriteBuf Unit} {out out' : Option (List UInt8)}

theorem pure : Emits (Pure.pure ()) (some []) := by
  refine ⟨fun wb => ⟨[], Nat.zero_le _, wb.push_nil.symm⟩, fun wb wb' => ?_⟩
  rw [Prog.run_pure]
  constructor
  · intro h
    exact ⟨[], rfl, Nat.zero_le _, by rw [wb.push_nil, (Prod.mk.inj h).1]⟩
  · rintro ⟨bytes, hbytes, _, rfl⟩
    obtain rfl := Option.some.inj hbytes
    rw [wb.push_nil]

theorem throw (e : ErrorCode) : Emits (Prog.throw e) none := by
  refine ⟨fun wb => ⟨[], Nat.zero_le _, wb.push_nil.symm⟩, fun wb wb' => ?_⟩
  rw [Prog.run_throw]
  exact iff_of_false (fun h => nomatch h) fun ⟨_, h, _⟩ => nomatch h

/-- **Sequencing** appends one after the other. -/
theorem bind (h : Emits m out) (h' : Emits m' out') :
    Emits (m >>= fun _ => m') (out.bind fun bytes => out'.map (bytes ++ ·)) := by
  constructor
  · intro wb
    obtain ⟨bytes, hroom, hrun⟩ := h.appends wb
    rw [Prog.run_bind]
    rcases hm : m.run wb with ⟨wb₁, _ | _⟩
    · rw [hm] at hrun
      exact ⟨bytes, hroom, hrun⟩
    · rw [hm] at hrun
      obtain rfl : wb₁ = wb.push bytes := hrun
      obtain ⟨bytes', hroom', hrun'⟩ := h'.appends (wb.push bytes)
      refine ⟨bytes ++ bytes', ?_, by rw [← WriteBuf.push_push, ← hrun']⟩
      rw [WriteBuf.room_push] at hroom'
      rw [List.length_append]
      omega
  · intro wb wb'
    rw [Prog.run_bind_eq_ok]
    constructor
    · rintro ⟨wb₁, _, hm, hm'⟩
      obtain ⟨bytes, rfl, hroom, rfl⟩ := (h.ok wb wb₁).mp hm
      obtain ⟨bytes', rfl, hroom', rfl⟩ := (h'.ok _ wb').mp hm'
      refine ⟨bytes ++ bytes', rfl, ?_, WriteBuf.push_push ..⟩
      rw [WriteBuf.room_push] at hroom'
      rw [List.length_append]
      omega
    · rintro ⟨all, hall, hroom, rfl⟩
      obtain ⟨bytes, rfl, hall⟩ := Option.bind_eq_some_iff.mp hall
      obtain ⟨bytes', rfl, rfl⟩ := Option.map_eq_some_iff.mp hall
      rw [List.length_append] at hroom
      refine ⟨wb.push bytes, (), (h.ok ..).mpr ⟨bytes, rfl, by omega, rfl⟩, ?_⟩
      refine (h'.ok ..).mpr ⟨bytes', rfl, ?_, (WriteBuf.push_push ..).symm⟩
      rw [WriteBuf.room_push]
      omega

theorem forM {α : Type} {f : α → Prog ErrorCode WriteBuf Unit} {g : α → Option (TLVTree LeafCall)}
    (h : ∀ a, Emits (f a) ((g a).map TLVTree.bytes)) (l : List α) :
    Emits (l.forM f) ((l.mapM g).map bytesMembers) := by
  induction l with
  | nil => exact pure
  | cons a l ih =>
    rw [List.mapM_cons]
    have hcons := (h a).bind ih
    cases hg : g a with
    | none =>
      rw [hg] at hcons
      exact hcons
    | some t =>
      rw [hg] at hcons
      cases hl : l.mapM g with
      | none =>
        rw [hl] at hcons
        exact hcons
      | some ts =>
        rw [hl] at hcons
        exact hcons

theorem append (bytes : List UInt8) : Emits (TLVWriter.append bytes) (some bytes) := by
  induction bytes with
  | nil => exact pure
  | cons byte bytes ih =>
    have hfull {wb : WriteBuf} (h : wb.room = 0) :
        (TLVWriter.append (byte :: bytes)).run wb = (wb, .error .noSpace) := by
      simp only [TLVWriter.append, Prog.run, WriteBuf.write, h]
    have hrun {wb : WriteBuf} (h : 0 < wb.room) :
        (TLVWriter.append (byte :: bytes)).run wb = (TLVWriter.append bytes).run (wb.push [byte]) := by
      simp only [TLVWriter.append, Prog.run, WriteBuf.write_ok h]
    constructor
    · intro wb
      rcases Nat.eq_zero_or_pos wb.room with hroom | hroom
      · rw [hfull hroom]
        exact ⟨[], Nat.zero_le _, wb.push_nil.symm⟩
      · rw [hrun hroom]
        obtain ⟨bytes', hroom', hbytes'⟩ := ih.appends (wb.push [byte])
        refine ⟨byte :: bytes', ?_, hbytes'.trans (WriteBuf.push_push ..)⟩
        rw [WriteBuf.room_push, List.length_singleton] at hroom'
        rw [List.length_cons]
        omega
    · intro wb wb'
      rcases Nat.eq_zero_or_pos wb.room with hroom | hroom
      · rw [hfull hroom]
        refine iff_of_false (by rintro ⟨⟩) ?_
        rintro ⟨all, hall, hlen, _⟩
        obtain rfl := Option.some.inj hall
        rw [List.length_cons] at hlen
        omega
      · rw [hrun hroom]
        refine (ih.ok _ wb').trans ?_
        simp only [Option.some.injEq, exists_eq_left', WriteBuf.push_push, WriteBuf.room_push,
          List.length_nil, List.length_cons, List.singleton_append]
        exact and_congr_left' (by omega)

theorem rewinding_of_ok {wb wb' : WriteBuf} (h : m.run wb = (wb', .ok ())) :
    (TLVWriter.rewinding m).run wb = (wb', .ok ()) := by
  rw [TLVWriter.rewinding, Prog.run_bind_of_ok (Prog.run_get wb)]
  exact Prog.run_catching_of_ok h

theorem rewinding_of_error (h : Emits m out) {wb wb' : WriteBuf} {e : ErrorCode}
    (herr : m.run wb = (wb', .error e)) :
    (TLVWriter.rewinding m).run wb = (wb, .error e) := by
  obtain ⟨bytes, hroom, hrun⟩ := h.appends wb
  rw [herr] at hrun
  obtain rfl : wb' = wb.push bytes := hrun
  have hback : (⟨(wb.push bytes).data.take wb.data.length,
      (wb.push bytes).room + ((wb.push bytes).data.length - wb.data.length)⟩ : WriteBuf) = wb := by
    simp only [WriteBuf.push, List.take_left, List.length_append, Nat.add_sub_cancel_left]
    rw [Nat.sub_add_cancel hroom]
  rw [TLVWriter.rewinding, Prog.run_bind_of_ok (Prog.run_get wb)]
  refine (Prog.run_catching_of_error herr).trans ?_
  exact Prod.ext hback rfl

theorem rewinding (h : Emits m out) : Emits (TLVWriter.rewinding m) out := by
  constructor
  · intro wb
    rcases hm : m.run wb with ⟨wb', e | _⟩
    · rw [h.rewinding_of_error hm]
      exact ⟨[], Nat.zero_le _, wb.push_nil.symm⟩
    · rw [rewinding_of_ok hm]
      obtain ⟨bytes, hroom, hrun⟩ := h.appends wb
      rw [hm] at hrun
      exact ⟨bytes, hroom, hrun⟩
  · intro wb wb'
    rw [← h.ok]
    rcases hm : m.run wb with ⟨wb₁, e | _⟩
    · rw [h.rewinding_of_error hm]
      exact iff_of_false (fun h => nomatch h) fun h => nomatch h
    · rw [rewinding_of_ok hm]

theorem eq_of_rewinding_error (h : Emits m out) {wb wb' : WriteBuf} {e : ErrorCode}
    (herr : (TLVWriter.rewinding m).run wb = (wb', .error e)) : wb' = wb := by
  rcases hm : m.run wb with ⟨wb₁, e' | _⟩
  · rw [h.rewinding_of_error hm] at herr
    exact (Prod.mk.inj herr).1.symm
  · rw [rewinding_of_ok hm] at herr
    cases herr

end Emits

theorem emits_leaf (tag : TLVTag) (call : LeafCall) :
    Emits (TLVWriter.leaf tag call) ((some (TLVTree.leaf tag call)).map TLVTree.bytes) :=
  .append _

theorem emits_container {m : Prog ErrorCode WriteBuf Unit} (tag : TLVTag) (kind : ContainerType)
    {members : Option (List (TLVTree LeafCall))} (h : Emits m (members.map bytesMembers)) :
    Emits (do
      TLVWriter.start tag kind
      m
      TLVWriter.endContainer) ((members.map (.node tag kind)).map TLVTree.bytes) := by
  have hall := (Emits.append (elemBytes tag kind.value)).bind
    (h.bind (Emits.append (elemBytes .anonymous .endCnt)))
  cases members with
  | none => exact hall
  | some members => exact hall

theorem emits_field {m m' : Prog ErrorCode WriteBuf Unit} {t : Option (TLVTree LeafCall)}
    {ts : Option (List (TLVTree LeafCall))} (h : Emits m (t.map TLVTree.bytes))
    (h' : Emits m' (ts.map bytesMembers)) :
    Emits (do
      m
      m') ((do
        let t ← t
        let ts ← ts
        some (t :: ts)).map bytesMembers) := by
  have hall := h.bind h'
  cases t with
  | none => exact hall
  | some t =>
    cases ts with
    | none => exact hall
    | some ts => exact hall

theorem emits_nullableToTlv {α : Type} (c : Codec α) (v : α) (tag : TLVTag)
    (h : Emits (toTlv c v tag) ((treeOf c v tag).map TLVTree.bytes)) :
    Emits (nullableToTlv c v tag) ((nullableTreeOf c v tag).map TLVTree.bytes) := by
  cases c with
  | int k | nonZero k =>
    rw [nullableToTlv, nullableTreeOf]
    split
    · exact emits_leaf tag _
    · exact .throw _
  | unitEnum k variants =>
    rw [nullableToTlv, nullableTreeOf]
    split
    · exact (emits_leaf tag _).rewinding
    · exact .throw _
  | _ =>
    unfold nullableToTlv nullableTreeOf
    exact h

mutual

/-- **A value is written** as its tree. -/
theorem emits_toTlv : {α : Type} → (c : Codec α) → (v : α) → (tag : TLVTag) →
    Emits (toTlv c v tag) ((treeOf c v tag).map TLVTree.bytes)
  | _, .int k, v, tag => by
    rw [toTlv, treeOf]
    exact emits_leaf tag _
  | _, .nonZero k, v, tag => by
    rw [toTlv, treeOf]
    exact emits_leaf tag _
  | _, .bool, v, tag => by
    rw [toTlv, treeOf]
    exact emits_leaf tag _
  | _, .octets, v, tag => by
    rw [toTlv, treeOf]
    exact emits_leaf tag _
  | _, .octetsOwned _ _, v, tag => by
    rw [toTlv, treeOf]
    exact emits_leaf tag _
  | _, .utf8, v, tag => by
    rw [toTlv, treeOf]
    exact emits_leaf tag _
  | _, .utf8Owned _ _, v, tag => by
    rw [toTlv, treeOf]
    exact emits_leaf tag _
  | _, .vec item _, v, tag => by
    rw [toTlv, treeOf]
    exact emits_container tag .array (.forM (fun a => emits_toTlv item a .anonymous) v.1)
  | _, .array item _ _, v, tag => by
    rw [toTlv, treeOf]
    exact emits_container tag .array (.forM (fun a => emits_toTlv item a .anonymous) v.1)
  | _, .nullable c, none, tag => by
    rw [toTlv, treeOf]
    exact emits_leaf tag _
  | _, .nullable c, some v, tag => by
    rw [toTlv, treeOf]
    exact emits_nullableToTlv c v tag (emits_toTlv c v tag)
  | _, .unitEnum k variants, v, tag => by
    rw [toTlv, treeOf]
    exact (emits_leaf tag _).rewinding
  | _, .dataEnum naked variants, v, tag => by
    rw [toTlv, treeOf]
    have hpayload := emits_variantToTlv variants v
    refine Emits.rewinding ?_
    cases naked with
    | true => exact hpayload
    | false =>
      rw [if_neg Bool.false_ne_true, if_neg Bool.false_ne_true]
      have hmembers : Emits (variantToTlv variants v)
          (((payloadTreeOf variants v).map fun t => [t]).map bytesMembers) := by
        cases hp : payloadTreeOf variants v with
        | none =>
          rw [hp] at hpayload
          exact hpayload
        | some t =>
          rw [hp] at hpayload
          simpa [bytesMembers] using hpayload
      have hall := emits_container tag .struct hmembers
      simp only [Option.map_map] at hall ⊢
      exact hall
  | _, .struct kind _ fields, v, tag => by
    rw [toTlv, treeOf]
    exact (emits_container tag kind.container (emits_fieldsToTlv fields v)).rewinding

theorem emits_fieldsToTlv : {α : Type} → (fields : Fields α) → (v : α) →
    Emits (fieldsToTlv fields v) ((fieldTreesOf fields v).map bytesMembers)
  | _, .nil, _ => by
    rw [fieldsToTlv, fieldTreesOf]
    exact .pure
  | _, .cons tag c rest, (a, b) => by
    rw [fieldsToTlv, fieldTreesOf]
    exact emits_field (emits_toTlv c a (.context tag)) (emits_fieldsToTlv rest b)
  | _, .optional _ tag c rest, (none, b) => by
    rw [fieldsToTlv, fieldTreesOf]
    exact emits_fieldsToTlv rest b
  | _, .optional _ tag c rest, (some a, b) => by
    rw [fieldsToTlv, fieldTreesOf]
    exact emits_field (emits_toTlv c a (.context tag)) (emits_fieldsToTlv rest b)

theorem emits_variantToTlv : {α : Type} → (variants : Variants α) → (v : α) →
    Emits (variantToTlv variants v) ((payloadTreeOf variants v).map TLVTree.bytes)
  | _, .cons tag c _, .inl a => by
    rw [variantToTlv, payloadTreeOf]
    exact emits_toTlv c a (.context tag)
  | _, .cons _ _ rest, .inr b => by
    rw [variantToTlv, payloadTreeOf]
    exact emits_variantToTlv rest b

end

end RsMatter
