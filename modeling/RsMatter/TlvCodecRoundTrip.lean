import RsMatter.TlvCodecPanic
import RsMatter.TlvCodecTree

/-!
# What was written is read back (`tlv/traits.rs`, `tlv/traits/*.rs`, `rs-matter-macros/src/tlv.rs`)

A decoder is asked for the bytes of the tree that a value was written as, with anything behind.
It gives the value back exactly if the value is `Faithful`. Three kinds of values are not: a value
of a nullable type that is written as null without being null, a variant of a nullable unit enum
whose number is the one that stands for null, and the payload of an enum that is written under a
tag of its own.
-/

namespace RsMatter

open Stop Panicking

/-! ## Values that keep their meaning -/

mutual

def isNull : {α : Type} → Codec α → α → Bool
  | _, .nullable c, v =>
    match v with
    | none => true
    | some v => isNull c v
  | _, .dataEnum naked variants, v => naked && payloadIsNull variants v
  | _, .int _, _ | _, .nonZero _, _ | _, .bool, _ | _, .octets, _ | _, .octetsOwned _ _, _
  | _, .utf8, _ | _, .utf8Owned _ _, _ | _, .vec _ _, _ | _, .array _ _ _, _
  | _, .unitEnum _ _, _ | _, .struct _ _ _, _ => false

def payloadIsNull : {α : Type} → Variants α → α → Bool
  | _, .cons _ c _, .inl a => isNull c a
  | _, .cons _ _ rest, .inr b => payloadIsNull rest b

end

mutual

/-- The tag that a value is written under; a naked enum has tags of its own. -/
def writtenTag : {α : Type} → Codec α → α → TLVTag → TLVTag
  | _, .nullable c, v, tag =>
    match v with
    | none => tag
    | some v => writtenTag c v tag
  | _, .dataEnum naked variants, v, tag => if naked then payloadWrittenTag variants v else tag
  | _, .int _, _, tag | _, .nonZero _, _, tag | _, .bool, _, tag | _, .octets, _, tag
  | _, .octetsOwned _ _, _, tag | _, .utf8, _, tag | _, .utf8Owned _ _, _, tag
  | _, .vec _ _, _, tag | _, .array _ _ _, _, tag | _, .unitEnum _ _, _, tag
  | _, .struct _ _ _, _, tag => tag

def payloadWrittenTag : {α : Type} → Variants α → α → TLVTag
  | _, .cons tag c _, .inl a => writtenTag c a (.context tag)
  | _, .cons _ _ rest, .inr b => payloadWrittenTag rest b

end

/-- The number of a variant of a unit enum is not the one that stands for null. -/
def NotReserved : {α : Type} → Codec α → α → Prop
  | _, .unitEnum _ variants, v => (variants.get v).tag ≠ BitVec.allOnes _
  | _, _, _ => True

mutual

/-- The tree of the value says all there is to it. -/
def Faithful : {α : Type} → Codec α → α → Prop
  | _, .vec item _, v | _, .array item _ _, v => ∀ a ∈ v.1, Faithful item a
  | _, .nullable c, v =>
    match v with
    | none => True
    | some v => isNull c v = false ∧ NotReserved c v ∧ Faithful c v
  | _, .dataEnum _ variants, v => FaithfulPayload variants v
  | _, .struct _ _ fields, v => FaithfulFields fields v
  | _, .int _, _ | _, .nonZero _, _ | _, .bool, _ | _, .octets, _ | _, .octetsOwned _ _, _
  | _, .utf8, _ | _, .utf8Owned _ _, _ | _, .unitEnum _ _, _ => True

/-- The trees of the fields say all there is to them. -/
def FaithfulFields : {α : Type} → Fields α → α → Prop
  | _, .nil, _ => True
  | _, .cons _ c rest, (a, b) => Faithful c a ∧ FaithfulFields rest b
  | _, .optional _ _ c rest, (a, b) =>
    match a with
    | none => FaithfulFields rest b
    | some a => Faithful c a ∧ FaithfulFields rest b

/-- The tree of the payload says all there is to it, and has the tag of the variant. -/
def FaithfulPayload : {α : Type} → Variants α → α → Prop
  | _, .cons tag c _, .inl a => writtenTag c a (.context tag) = .context tag ∧ Faithful c a
  | _, .cons _ _ rest, .inr b => FaithfulPayload rest b

end

/-! ## The root of a tree -/

/-- The value type of the first element of a tree. -/
def TLVTree.valueType : TLVTree LeafCall → TLVValueType
  | .leaf _ call => call.value.valueType
  | .node _ kind _ => kind.value.valueType

theorem TLVTree.control_bytes (t : TLVTree LeafCall) (rest : List UInt8) :
    TLVSequence.control (t.bytes ++ rest) = .ok ⟨t.tag.tagType, t.valueType⟩ := by
  cases t with
  | leaf tag call => exact TLVSequence.control_elem tag call.value rest
  | node tag kind members =>
    rw [TLVTree.bytes, List.append_assoc]
    exact TLVSequence.control_elem tag kind.value _

theorem IntKind.valueType_call_ne_null (k : IntKind) (v : BitVec k.width) :
    (k.call v).value.valueType ≠ .null := by
  cases k with
  | i8 | u8 => rintro ⟨⟩
  | i16 | i32 | i64 =>
    simp only [call, LeafCall.value, TLVValue.ofI16, TLVValue.ofI32, TLVValue.ofI64]
    split_ifs <;> rintro ⟨⟩
  | u16 | u32 | u64 =>
    simp only [call, LeafCall.value, TLVValue.ofU16, TLVValue.ofU32, TLVValue.ofU64]
    split_ifs <;> rintro ⟨⟩

theorem valueType_bool_ne_null (b : Bool) : (LeafCall.bool b).value.valueType ≠ .null := by
  cases b <;> exact fun h => nomatch h

theorem valueType_str_ne_null (a : List UInt8) (h : a.length < 2 ^ 64) :
    (LeafCall.str a h).value.valueType ≠ .null := by
  rw [LeafCall.value, TLVValue.ofStr]
  split_ifs <;> rintro ⟨⟩

theorem valueType_utf8_ne_null (s : String) (h : (utf8Bytes s).length < 2 ^ 64) :
    (LeafCall.utf8 s h).value.valueType ≠ .null := by
  rw [LeafCall.value, TLVValue.ofUtf8]
  split_ifs <;> rintro ⟨⟩

theorem ContainerType.valueType_ne_null (kind : ContainerType) : kind.value.valueType ≠ .null := by
  cases kind <;> exact fun h => nomatch h

/-- The tree has the tag, and it is null or not. -/
def RootIs (t : TLVTree LeafCall) (tag : TLVTag) (null : Bool) : Prop :=
  t.tag = tag ∧ (t.valueType = .null ↔ null = true)

variable {t : TLVTree LeafCall}

theorem rootIs_leaf {tag : TLVTag} {call : LeafCall}
    (hne : call.value.valueType ≠ .null) (h : some (TLVTree.leaf tag call) = some t) :
    RootIs t tag false := by
  obtain rfl := Option.some.inj h
  exact ⟨rfl, iff_of_false hne Bool.false_ne_true⟩

theorem rootIs_node {β : Type} {tag : TLVTag} {kind : ContainerType} {f : β → List (TLVTree LeafCall)}
    {members : Option β}
    (h : (members.map fun ms => TLVTree.node tag kind (f ms)) = some t) : RootIs t tag false := by
  obtain ⟨ms, _, rfl⟩ := Option.map_eq_some_iff.mp h
  exact ⟨rfl, iff_of_false kind.valueType_ne_null Bool.false_ne_true⟩

theorem nullableTreeOf_eq_some {α : Type} {c : Codec α} {v : α} {tag : TLVTag}
    (h : nullableTreeOf c v tag = some t) : treeOf c v tag = some t := by
  cases c with
  | int k | nonZero k | unitEnum k variants =>
    rw [nullableTreeOf] at h
    rw [treeOf]
    split at h
    · exact h
    · cases h
  | _ =>
    unfold nullableTreeOf at h
    exact h

mutual

theorem rootIs_treeOf : {α : Type} → (c : Codec α) → (v : α) → (tag : TLVTag) →
    (t : TLVTree LeafCall) → treeOf c v tag = some t → RootIs t (writtenTag c v tag) (isNull c v)
  | _, .int k, v, tag, t, h => by
    rw [treeOf] at h
    rw [writtenTag, isNull]
    exact rootIs_leaf (k.valueType_call_ne_null v) h
  | _, .nonZero k, v, tag, t, h => by
    rw [treeOf] at h
    rw [writtenTag, isNull]
    exact rootIs_leaf (k.valueType_call_ne_null v.1) h
  | _, .bool, v, tag, t, h => by
    rw [treeOf] at h
    rw [writtenTag, isNull]
    exact rootIs_leaf (valueType_bool_ne_null v) h
  | _, .octets, v, tag, t, h => by
    rw [treeOf] at h
    rw [writtenTag, isNull]
    exact rootIs_leaf (valueType_str_ne_null _ _) h
  | _, .octetsOwned _ _, v, tag, t, h => by
    rw [treeOf] at h
    rw [writtenTag, isNull]
    exact rootIs_leaf (valueType_str_ne_null _ _) h
  | _, .utf8, v, tag, t, h => by
    rw [treeOf] at h
    rw [writtenTag, isNull]
    exact rootIs_leaf (valueType_utf8_ne_null _ _) h
  | _, .utf8Owned _ _, v, tag, t, h => by
    rw [treeOf] at h
    rw [writtenTag, isNull]
    exact rootIs_leaf (valueType_utf8_ne_null _ _) h
  | _, .vec item _, v, tag, t, h => by
    rw [treeOf] at h
    rw [writtenTag, isNull]
    exact rootIs_node h
  | _, .array item _ _, v, tag, t, h => by
    rw [treeOf] at h
    rw [writtenTag, isNull]
    exact rootIs_node h
  | _, .nullable c, none, tag, t, h => by
    rw [treeOf] at h
    obtain rfl := Option.some.inj h
    rw [writtenTag, isNull]
    exact ⟨rfl, iff_of_true rfl rfl⟩
  | _, .nullable c, some v, tag, t, h => by
    rw [treeOf] at h
    rw [writtenTag, isNull]
    exact rootIs_treeOf c v tag t (nullableTreeOf_eq_some h)
  | _, .unitEnum k variants, v, tag, t, h => by
    rw [treeOf] at h
    rw [writtenTag, isNull]
    exact rootIs_leaf (k.int.valueType_call_ne_null _) h
  | _, .dataEnum true variants, v, tag, t, h => by
    rw [treeOf] at h
    rw [writtenTag, isNull]
    exact rootIs_payloadTreeOf variants v t h
  | _, .dataEnum false variants, v, tag, t, h => by
    rw [treeOf] at h
    rw [writtenTag, isNull]
    exact rootIs_node h
  | _, .struct kind _ fields, v, tag, t, h => by
    rw [treeOf] at h
    rw [writtenTag, isNull]
    exact rootIs_node h

theorem rootIs_payloadTreeOf : {α : Type} → (variants : Variants α) → (v : α) →
    (t : TLVTree LeafCall) → payloadTreeOf variants v = some t →
    RootIs t (payloadWrittenTag variants v) (payloadIsNull variants v)
  | _, .cons tag c _, .inl a, t, h => by
    rw [payloadTreeOf] at h
    rw [payloadWrittenTag, payloadIsNull]
    exact rootIs_treeOf c a (.context tag) t h
  | _, .cons _ _ rest, .inr b, t, h => by
    rw [payloadTreeOf] at h
    rw [payloadWrittenTag, payloadIsNull]
    exact rootIs_payloadTreeOf rest b t h

end

theorem writtenTag_of_not_naked : {α : Type} → (c : Codec α) → c.naked = false → (v : α) →
    (tag : TLVTag) → writtenTag c v tag = tag
  | _, .nullable c, h, none, tag => by
    rw [writtenTag]
  | _, .nullable c, h, some v, tag => by
    rw [writtenTag]
    exact writtenTag_of_not_naked c h v tag
  | _, .dataEnum naked variants, h, v, tag => by
    obtain rfl : naked = false := h
    rw [writtenTag]
    exact if_neg Bool.false_ne_true
  | _, .int _, _, v, tag | _, .nonZero _, _, v, tag | _, .bool, _, v, tag | _, .octets, _, v, tag
  | _, .octetsOwned _ _, _, v, tag | _, .utf8, _, v, tag | _, .utf8Owned _ _, _, v, tag
  | _, .vec _ _, _, v, tag | _, .array _ _ _, _, v, tag | _, .unitEnum _ _, _, v, tag
  | _, .struct _ _ _, _, v, tag => by
    rw [writtenTag]

/-! ## Items -/

section Items

variable {α : Type} {n : ℕ} {from' : List UInt8 → Except (Stop ErrorCode) α}

open TLVSequence

/-- **A vector** is read item by item. -/
theorem pushItems_members {ts : List (TLVTree LeafCall)} {fuel : ℕ} (hfuel : ts.length < fuel)
    (rest : List UInt8) (vec vec' : HVec α n) :
    pushItems from' fuel (bytesMembers ts ++ (elemBytes .anonymous .endCnt ++ rest)) vec = .ok vec' ↔
      ∃ l, vec'.1 = vec.1 ++ l ∧ List.Forall₂ (fun elem a => from' elem = .ok a)
        (memberSlices ts (elemBytes .anonymous .endCnt ++ rest)) l := by
  induction ts generalizing fuel vec with
  | nil =>
    obtain ⟨fuel, rfl⟩ := Nat.exists_eq_add_of_le' (Nat.one_le_of_lt hfuel)
    rw [bytesMembers, List.nil_append, pushItems, iterNext_eq, iterNext_end]
    change (Except.ok vec = .ok vec') ↔ _
    rw [Except.ok.injEq, memberSlices]
    constructor
    · rintro rfl
      exact ⟨[], (List.append_nil _).symm, .nil⟩
    · rintro ⟨l, hl, h⟩
      cases h
      rw [List.append_nil] at hl
      exact Subtype.ext hl.symm
  | cons t ts ih =>
    obtain ⟨fuel, rfl⟩ := Nat.exists_eq_add_of_le' (Nat.one_le_of_lt hfuel)
    rw [List.length_cons] at hfuel
    rw [bytesMembers, List.append_assoc, pushItems, iterNext_eq, iterNext_tree, lift_ok, ok_bind,
      memberSlices]
    simp only
    rw [Prog.except_bind_eq_ok]
    simp only [Prog.except_bind_eq_ok, HVec.push_eq_ok]
    constructor
    · rintro ⟨a, ha, vec₁, ⟨_, hvec₁⟩, hrest⟩
      obtain ⟨l, hl, hitems⟩ := (ih (by omega) vec₁).mp hrest
      refine ⟨a :: l, ?_, .cons ha hitems⟩
      rw [hl, hvec₁, List.append_assoc, List.singleton_append]
    · rintro ⟨_, hl, h⟩
      obtain ⟨a, l, ha, hitems, rfl⟩ := List.forall₂_cons_left_iff.mp h
      have hlen := vec'.2
      rw [hl, List.length_append, List.length_cons] at hlen
      refine ⟨a, ha, ⟨vec.1 ++ [a], by rw [List.length_append, List.length_singleton]; omega⟩,
        ⟨by omega, rfl⟩, (ih (by omega) _).mpr ⟨l, ?_, hitems⟩⟩
      rw [hl, List.append_assoc, List.singleton_append]

theorem length_memberSlices (ts : List (TLVTree LeafCall)) (rest : List UInt8) :
    (memberSlices ts rest).length = ts.length := by
  induction ts with
  | nil => rfl
  | cons t ts ih => rw [memberSlices, List.length_cons, ih, List.length_cons]

theorem vecFromTlv_node (tag : TLVTag) (ts : List (TLVTree LeafCall)) (rest : List UInt8)
    (vec : HVec α n) :
    vecFromTlv from' ((TLVTree.node tag .array ts).bytes ++ rest) = .ok vec ↔
      List.Forall₂ (fun elem a => from' elem = .ok a)
        (memberSlices ts (elemBytes .anonymous .endCnt ++ rest)) vec.1 := by
  have hne : (TLVTree.node tag .array ts).bytes ++ rest ≠ [] := by
    rw [← List.isEmpty_eq_false_iff, isEmpty_tree]
  have harray : TLVElement.array ((TLVTree.node tag .array ts).bytes ++ rest) =
      .ok (bytesMembers ts ++ (elemBytes .anonymous .endCnt ++ rest)) :=
    TLVElement.membersOf_node tag .array ts _ rest
  have hlength := length_le_bytesMembers ts
  rw [vecFromTlv_eq, if_neg hne, harray, lift_ok, ok_bind,
    pushItems_members (by rw [List.length_append]; omega)]
  constructor
  · rintro ⟨l, hl, hitems⟩
    rw [hl]
    exact hitems
  · intro hitems
    exact ⟨vec.1, rfl, hitems⟩

theorem forall₂_memberSlices {f : α → Option (TLVTree LeafCall)} {P : α → Prop}
    (hf : ∀ a t, f a = some t → ∀ rest, from' (t.bytes ++ rest) = .ok a ↔ P a) (l : List α)
    (ts : List (TLVTree LeafCall)) (h : l.mapM f = some ts) (rest : List UInt8) :
    List.Forall₂ (fun elem a => from' elem = .ok a) (memberSlices ts rest) l ↔ ∀ a ∈ l, P a := by
  induction l generalizing ts with
  | nil =>
    obtain rfl := Option.some.inj h
    exact iff_of_true .nil (fun _ ha => nomatch ha)
  | cons a l ih =>
    rw [List.mapM_cons] at h
    obtain ⟨t, ht, h⟩ := Option.bind_eq_some_iff.mp h
    obtain ⟨ts, hts, h⟩ := Option.bind_eq_some_iff.mp h
    obtain rfl := Option.some.inj h
    rw [memberSlices, List.forall₂_cons, hf a t ht, ih ts hts, List.forall_mem_cons]

theorem length_of_mapM {β : Type} {f : α → Option β} {l : List α} {bs : List β}
    (h : l.mapM f = some bs) : bs.length = l.length := by
  induction l generalizing bs with
  | nil =>
    obtain rfl := Option.some.inj h
    rfl
  | cons a l ih =>
    rw [List.mapM_cons] at h
    obtain ⟨b, _, h⟩ := Option.bind_eq_some_iff.mp h
    obtain ⟨bs, hbs, h⟩ := Option.bind_eq_some_iff.mp h
    obtain rfl := Option.some.inj h
    rw [List.length_cons, List.length_cons, ih hbs]

end Items

/-! ## Fields -/

/-- The tree has a context tag that comes before `tag`. -/
def Before (unordered : Bool) (tag : BitVec 8) (t : TLVTree LeafCall) : Prop :=
  ∃ ctx, t.tag.ctx? = some ctx ∧ TagOrder unordered ctx tag

/-- The tree has a context tag that comes after `tag`. -/
def After (unordered : Bool) (tag : BitVec 8) (t : TLVTree LeafCall) : Prop :=
  ∃ ctx, t.tag.ctx? = some ctx ∧ TagOrder unordered tag ctx

namespace TLVSequence

variable {tag : BitVec 8} {before : List (TLVTree LeafCall)}

theorem scanCtxLoop_before (hbefore : ∀ u ∈ before, Before false tag u) (tail : List UInt8)
    (fuel : ℕ) :
    scanCtxLoop tag (fuel + before.length) (bytesMembers before ++ tail) =
      scanCtxLoop tag fuel tail := by
  induction before with
  | nil => rfl
  | cons u before ih =>
    obtain ⟨ctx, hctx, hlt⟩ := hbefore u List.mem_cons_self
    rw [bytesMembers, List.append_assoc, List.length_cons, ← Nat.add_assoc,
      scanCtxLoop_of_lt _ _ hctx hlt]
    exact ih fun v hv => hbefore v (List.mem_cons_of_mem u hv)

theorem scanCtx_before (hbefore : ∀ u ∈ before, Before false tag u) (tail : List UInt8) :
    ∃ fuel, scanCtx tag (bytesMembers before ++ tail) = scanCtxLoop tag (fuel + 1) tail := by
  have hlength := length_le_bytesMembers before
  refine ⟨(bytesMembers before ++ tail).length - before.length, ?_⟩
  rw [← scanCtxLoop_before hbefore tail, scanCtx]
  congr 1
  rw [List.length_append]
  omega

theorem findCtxLoop_of_forall_ne (ts : List (TLVTree LeafCall))
    (hts : ∀ u ∈ ts, u.tag.ctx? ≠ some tag) (rest : List UInt8) {fuel : ℕ} (hfuel : ts.length ≤ fuel) :
    findCtxLoop tag (fuel + 1) (bytesMembers ts ++ (elemBytes .anonymous .endCnt ++ rest)) =
      .ok [] := by
  induction ts generalizing fuel with
  | nil => rfl
  | cons t ts ih =>
    obtain ⟨fuel, rfl⟩ := Nat.exists_eq_add_of_le' (Nat.one_le_of_lt hfuel)
    rw [bytesMembers, List.append_assoc, findCtxLoop_of_ne _ _ (hts t List.mem_cons_self)]
    exact ih (fun u hu => hts u (List.mem_cons_of_mem t hu)) (Nat.le_of_succ_le_succ hfuel)

end TLVSequence

theorem Before.ctx_ne {tag : BitVec 8} (h : Before true tag t) :
    t.tag.ctx? ≠ some tag := by
  obtain ⟨ctx, hctx, hne⟩ := h
  rw [hctx]
  exact fun heq => hne (Option.some.inj heq)

theorem After.ctx_ne {tag : BitVec 8} (h : After true tag t) :
    t.tag.ctx? ≠ some tag := by
  obtain ⟨ctx, hctx, hne⟩ := h
  rw [hctx]
  exact fun heq => hne (Option.some.inj heq).symm

section Fields

variable {unordered : Bool} {tag : BitVec 8} {before : List (TLVTree LeafCall)}

/-- **A field that is there** is found, and what comes before the next one is what has come
before this one or is this one. -/
theorem nextField_present {t : TLVTree LeafCall} (ht : t.tag.ctx? = some tag)
    (hbefore : ∀ u ∈ before, Before unordered tag u) (after : List (TLVTree LeafCall))
    (tail : List UInt8) :
    ∃ before', (∀ u ∈ before', u ∈ before ∨ u = t) ∧
      nextField unordered tag (bytesMembers (before ++ t :: after) ++ tail) =
        .ok (t.bytes ++ (bytesMembers after ++ tail), bytesMembers (before' ++ after) ++ tail) := by
  cases unordered with
  | true =>
    refine ⟨before ++ [t], fun u hu => ?_, ?_⟩
    · simpa using hu
    · rw [nextField, if_pos rfl, findCtx_eq, TLVSequence.findCtx_members tail before after
        (fun u hu => (hbefore u hu).ctx_ne) ht, List.append_assoc]
      rfl
  | false =>
    refine ⟨[t], fun u hu => .inr (List.mem_singleton.mp hu), ?_⟩
    have hseq : bytesMembers (before ++ t :: after) ++ tail =
        bytesMembers before ++ (t.bytes ++ (bytesMembers after ++ tail)) := by
      rw [bytesMembers_append, bytesMembers, List.append_assoc, List.append_assoc]
    obtain ⟨fuel, hfuel⟩ := TLVSequence.scanCtx_before hbefore
      (t.bytes ++ (bytesMembers after ++ tail))
    rw [nextField, if_neg Bool.false_ne_true, scanCtx_eq, hseq, hfuel,
      TLVSequence.scanCtxLoop_of_eq _ fuel ht, List.singleton_append, bytesMembers,
      List.append_assoc]
    rfl

/-- **A field that is absent** is an empty element. -/
theorem nextField_absent {after : List (TLVTree LeafCall)}
    (hbefore : ∀ u ∈ before, Before unordered tag u) (hafter : ∀ u ∈ after, After unordered tag u)
    (rest : List UInt8) :
    ∃ before', (∀ u ∈ before', u ∈ before) ∧
      nextField unordered tag
          (bytesMembers (before ++ after) ++ (elemBytes .anonymous .endCnt ++ rest)) =
        .ok ([], bytesMembers (before' ++ after) ++ (elemBytes .anonymous .endCnt ++ rest)) := by
  cases unordered with
  | true =>
    have hne : ∀ u ∈ before ++ after, u.tag.ctx? ≠ some tag := by
      intro u hu
      rcases List.mem_append.mp hu with hu | hu
      · exact (hbefore u hu).ctx_ne
      · exact (hafter u hu).ctx_ne
    have hlength : (before ++ after).length ≤ (bytesMembers (before ++ after) ++
        (elemBytes .anonymous .endCnt ++ rest)).length :=
      (length_le_bytesMembers _).trans (List.sublist_append_left ..).length_le
    refine ⟨before, fun u hu => hu, ?_⟩
    rw [nextField, if_pos rfl, findCtx_eq, TLVSequence.findCtx,
      TLVSequence.findCtxLoop_of_forall_ne _ hne rest hlength]
    rfl
  | false =>
    obtain ⟨fuel, hfuel⟩ := TLVSequence.scanCtx_before hbefore
      (bytesMembers after ++ (elemBytes .anonymous .endCnt ++ rest))
    refine ⟨[], fun u hu => (nomatch hu), ?_⟩
    rw [nextField, if_neg Bool.false_ne_true, scanCtx_eq, bytesMembers_append, List.append_assoc,
      hfuel, List.nil_append]
    cases after with
    | nil => rfl
    | cons u after =>
      obtain ⟨ctx, hctx, hlt⟩ := hafter u List.mem_cons_self
      rw [bytesMembers, List.append_assoc, TLVSequence.scanCtxLoop_of_gt _ fuel hctx hlt]
      rfl

end Fields

theorem exists_tag_of_mem_fieldTreesOf : {α : Type} → (fields : Fields α) → fields.WellFormed →
    (v : α) → (ts : List (TLVTree LeafCall)) → fieldTreesOf fields v = some ts →
    ∀ t ∈ ts, ∃ tag ∈ fields.tags, t.tag = .context tag
  | _, .nil, _, _, ts, h, t, ht => by
    rw [fieldTreesOf] at h
    obtain rfl := Option.some.inj h
    cases ht
  | _, .optional _ tag c rest, hwf, (none, b), ts, h, t, ht => by
    rw [Fields.WellFormed] at hwf
    rw [fieldTreesOf] at h
    obtain ⟨tag', htag', heq⟩ := exists_tag_of_mem_fieldTreesOf rest hwf.2.2 b ts h t ht
    exact ⟨tag', List.mem_cons_of_mem _ htag', heq⟩
  | _, .cons tag c rest, hwf, (a, b), ts, h, t, ht
  | _, .optional _ tag c rest, hwf, (some a, b), ts, h, t, ht => by
    rw [Fields.WellFormed] at hwf
    rw [fieldTreesOf] at h
    obtain ⟨u, hu, h⟩ := Option.bind_eq_some_iff.mp h
    obtain ⟨us, hus, h⟩ := Option.bind_eq_some_iff.mp h
    obtain rfl := Option.some.inj h
    rcases List.mem_cons.mp ht with rfl | ht
    · refine ⟨tag, List.mem_cons_self, ?_⟩
      rw [(rootIs_treeOf c a _ _ hu).1, writtenTag_of_not_naked c hwf.2.1]
    · obtain ⟨tag', htag', heq⟩ := exists_tag_of_mem_fieldTreesOf rest hwf.2.2 b us hus t ht
      exact ⟨tag', List.mem_cons_of_mem _ htag', heq⟩

/-- **A field with a value** is found, and what comes before the next fields is known. -/
theorem nextField_treeOf {α : Type} {c : Codec α} {a : α} {unordered : Bool} {tag : BitVec 8}
    {tags : List (BitVec 8)} {before : List (TLVTree LeafCall)}
    (hnaked : c.naked = false) (ht : treeOf c a (.context tag) = some t)
    (htags : ∀ tag' ∈ tags, TagOrder unordered tag tag')
    (hbefore : ∀ u ∈ before, ∀ tag' ∈ tag :: tags, Before unordered tag' u)
    (after : List (TLVTree LeafCall)) (tail : List UInt8) :
    ∃ before', (∀ u ∈ before', ∀ tag' ∈ tags, Before unordered tag' u) ∧
      nextField unordered tag (bytesMembers (before ++ t :: after) ++ tail) =
        .ok (t.bytes ++ (bytesMembers after ++ tail), bytesMembers (before' ++ after) ++ tail) := by
  have htag : t.tag = .context tag := by
    rw [(rootIs_treeOf c a _ t ht).1, writtenTag_of_not_naked c hnaked]
  have hctx : t.tag.ctx? = some tag := by
    rw [htag]
    rfl
  obtain ⟨before', hbefore', hnext⟩ := nextField_present hctx
    (fun u hu => hbefore u hu tag List.mem_cons_self) after tail
  refine ⟨before', fun u hu tag' htag' => ?_, hnext⟩
  rcases hbefore' u hu with hu | rfl
  · exact hbefore u hu tag' (List.mem_cons_of_mem _ htag')
  · exact ⟨tag, hctx, htags tag' htag'⟩

/-! ## Numbers and tags of variants -/

theorem tag_of_ctx? {tag : TLVTag} {ctx : BitVec 8} (h : tag.ctx? = some ctx) :
    tag = .context ctx := by
  cases tag with
  | context ctx' =>
    obtain rfl := Option.some.inj h
    rfl
  | _ => cases h

theorem matchUnit_get {k : UnitKind} {variants : List (UnitVariant k)}
    (hnodup : (variants.map (·.tag)).Nodup) (i : Fin variants.length) :
    matchUnit variants (variants.get i).tag = .ok i := by
  have hne := List.pairwise_iff_get.mp (List.pairwise_map.mp hnodup)
  have hfind : variants.findFinIdx? (·.tag == (variants.get i).tag) = some i := by
    rw [List.findFinIdx?_eq_some_iff]
    refine ⟨beq_self_eq_true _, fun j hj => ?_⟩
    rw [beq_iff_eq]
    exact hne j i hj
  rw [matchUnit, hfind]

/-- A payload that says all there is to it is written under the tag of a variant. -/
theorem exists_tag_of_faithfulPayload : {α : Type} → (variants : Variants α) → (v : α) →
    FaithfulPayload variants v → ∃ tag ∈ variants.tags, payloadWrittenTag variants v = .context tag
  | _, .cons tag c _, .inl a, h => by
    rw [FaithfulPayload] at h
    rw [payloadWrittenTag]
    exact ⟨tag, List.mem_cons_self, h.1⟩
  | _, .cons _ _ rest, .inr b, h => by
    rw [FaithfulPayload] at h
    rw [payloadWrittenTag]
    obtain ⟨tag, htag, heq⟩ := exists_tag_of_faithfulPayload rest b h
    exact ⟨tag, List.mem_cons_of_mem _ htag, heq⟩

/-! ## Reading the tree -/

theorem nullableFromTlv_treeOf {α : Type} (c : Codec α) (v : α) (tag : TLVTag)
    (t : TLVTree LeafCall) (ht : nullableTreeOf c v tag = some t) (rest : List UInt8)
    (h : fromTlv c (t.bytes ++ rest) = .ok v ↔ Faithful c v) :
    nullableFromTlv c (t.bytes ++ rest) = .ok v ↔ NotReserved c v ∧ Faithful c v := by
  cases c with
  | int k =>
    rw [nullableTreeOf] at ht
    split at ht
    case isTrue hne =>
      obtain rfl := Option.some.inj ht
      rw [nullableFromTlv, TLVTree.bytes, k.read_call, ok_bind, if_pos hne, Faithful]
      exact iff_of_true rfl ⟨trivial, trivial⟩
    case isFalse => cases ht
  | nonZero k =>
    rw [nullableTreeOf] at ht
    split at ht
    case isTrue hne =>
      obtain rfl := Option.some.inj ht
      rw [nullableFromTlv, TLVTree.bytes, k.read_call, ok_bind, if_pos hne, Faithful, matchNonZero,
        dif_pos v.2]
      exact iff_of_true rfl ⟨trivial, trivial⟩
    case isFalse => cases ht
  | unitEnum k variants =>
    rw [nullableTreeOf] at ht
    split at ht
    case isTrue =>
      obtain rfl := Option.some.inj ht
      rw [fromTlv, TLVTree.bytes, k.int.read_call, ok_bind] at h
      rw [nullableFromTlv, TLVTree.bytes, k.int.read_call, ok_bind, NotReserved]
      split
      case isTrue hne => rw [h, and_iff_right hne]
      case isFalse hne => exact iff_of_false (by rintro ⟨⟩) fun h => hne h.1
    case isFalse => cases ht
  | _ =>
    unfold nullableFromTlv NotReserved
    exact h.trans (and_iff_right trivial).symm

theorem bind_ok_eq_ok {ε α β : Type} {x : Except (Stop ε) α} {f : α → β}
    (hf : Function.Injective f) (a : α) :
    (x >>= fun a => .ok (f a)) = .ok (f a) ↔ x = .ok a := by
  rw [Prog.except_bind_eq_ok]
  constructor
  · rintro ⟨b, hb, heq⟩
    rw [hb, hf (Except.ok.inj heq)]
  · intro h
    exact ⟨a, h, rfl⟩

theorem fields_eq_ok {α β : Type} {x : Except (Stop ErrorCode) α} {y : Except (Stop ErrorCode) β}
    (a : α) (b : β) :
    (do
      let a ← x
      let b ← y
      return (a, b)) = .ok (a, b) ↔ x = .ok a ∧ y = .ok b := by
  simp only [Prog.except_bind_eq_ok]
  constructor
  · rintro ⟨a', ha, b', hb, heq⟩
    obtain ⟨rfl, rfl⟩ := Prod.mk.inj (Except.ok.inj heq)
    exact ⟨ha, hb⟩
  · rintro ⟨ha, hb⟩
    exact ⟨a, ha, b, hb, rfl⟩

theorem fill_eq {α : Type} {n : ℕ} (default : α) {vec : HVec α n} (h : vec.1.length = n) :
    fill default vec = ⟨vec.1, h⟩ := by
  refine Subtype.ext ?_
  change vec.1 ++ List.replicate (n - vec.1.length) default = vec.1
  rw [h, Nat.sub_self, List.replicate_zero, List.append_nil]

mutual

/-- **A value is read back** exactly if its tree says all there is to it. -/
theorem fromTlv_treeOf : {α : Type} → (c : Codec α) → c.WellFormed → (v : α) → (tag : TLVTag) →
    (t : TLVTree LeafCall) → treeOf c v tag = some t → (rest : List UInt8) →
    (fromTlv c (t.bytes ++ rest) = .ok v ↔ Faithful c v)
  | _, .int k, _, v, tag, t, h, rest => by
    rw [treeOf] at h
    obtain rfl := Option.some.inj h
    rw [fromTlv, Faithful, iff_true]
    exact k.read_call v tag rest
  | _, .nonZero k, _, v, tag, t, h, rest => by
    rw [treeOf] at h
    obtain rfl := Option.some.inj h
    rw [fromTlv, Faithful, iff_true, TLVTree.bytes, k.read_call, ok_bind, matchNonZero, dif_pos v.2]
  | _, .bool, _, v, tag, t, h, rest => by
    rw [treeOf] at h
    obtain rfl := Option.some.inj h
    rw [fromTlv, Faithful, iff_true]
    exact bool_elem tag rest v
  | _, .octets, _, v, tag, t, h, rest => by
    rw [treeOf] at h
    obtain rfl := Option.some.inj h
    rw [fromTlv, Faithful, iff_true, TLVTree.bytes, LeafCall.value, str_elem tag rest v.2, ok_bind,
      dif_pos v.2]
    rfl
  | _, .octetsOwned _ hn, _, v, tag, t, h, rest => by
    rw [treeOf] at h
    obtain rfl := Option.some.inj h
    rw [fromTlv, Faithful, iff_true, TLVTree.bytes, LeafCall.value,
      str_elem tag rest (v.2.trans_lt hn), ok_bind, HVec.tryFrom, HVec.extendFromSlice,
      dif_pos (by simpa [HVec.new] using v.2)]
    rfl
  | _, .utf8, _, v, tag, t, h, rest => by
    rw [treeOf] at h
    obtain rfl := Option.some.inj h
    rw [fromTlv, Faithful, iff_true, TLVTree.bytes, LeafCall.value, text_elem tag rest v.2, ok_bind,
      dif_pos v.2]
    rfl
  | _, .utf8Owned _ hn, _, v, tag, t, h, rest => by
    rw [treeOf] at h
    obtain rfl := Option.some.inj h
    have hlen : (utf8Bytes v.1).length < 2 ^ 64 := by
      rw [utf8Bytes]
      exact v.2.trans_lt hn
    rw [fromTlv, Faithful, iff_true, TLVTree.bytes, LeafCall.value, text_elem tag rest hlen, ok_bind,
      HString.tryFrom, dif_pos v.2]
  | _, .vec item n, hwf, v, tag, t, h, rest => by
    rw [Codec.WellFormed] at hwf
    rw [treeOf] at h
    obtain ⟨ts, hts, rfl⟩ := Option.map_eq_some_iff.mp h
    rw [fromTlv, Faithful, vecFromTlv_node]
    exact forall₂_memberSlices (fun a t ht => fromTlv_treeOf item hwf a .anonymous t ht) v.1 ts hts _
  | _, .array item default n, hwf, v, tag, t, h, rest => by
    rw [Codec.WellFormed] at hwf
    rw [treeOf] at h
    obtain ⟨ts, hts, rfl⟩ := Option.map_eq_some_iff.mp h
    rw [fromTlv, Faithful, ← forall₂_memberSlices
      (fun a t ht => fromTlv_treeOf item hwf a .anonymous t ht) v.1 ts hts
      (elemBytes .anonymous .endCnt ++ rest), Prog.except_bind_eq_ok]
    simp only [vecFromTlv_node]
    constructor
    · rintro ⟨vec, hvec, heq⟩
      have hlen := hvec.length_eq
      rw [length_memberSlices, length_of_mapM hts, v.2] at hlen
      rw [fill_eq default hlen.symm] at heq
      obtain rfl := Except.ok.inj heq
      exact hvec
    · intro hvec
      exact ⟨⟨v.1, v.2.le⟩, hvec, congrArg Except.ok (fill_eq default v.2)⟩
  | _, .nullable c, hwf, none, tag, t, h, rest => by
    rw [treeOf] at h
    obtain rfl := Option.some.inj h
    rw [fromTlv, Faithful, iff_true, TLVTree.bytes, TLVSequence.control_elem, lift_ok, ok_bind]
    rfl
  | _, .nullable c, hwf, some v, tag, t, h, rest => by
    rw [Codec.WellFormed] at hwf
    rw [treeOf] at h
    have ht := nullableTreeOf_eq_some h
    have hnull := (rootIs_treeOf c v tag t ht).2
    have hsome := nullableFromTlv_treeOf c v tag t h rest (fromTlv_treeOf c hwf v tag t ht rest)
    rw [fromTlv, Faithful, t.control_bytes, lift_ok, ok_bind]
    split
    case isTrue heq => exact iff_of_false (fun h => nomatch h) fun h => by simp [hnull.mp heq] at h
    case isFalse hne =>
      rw [and_iff_right (Bool.eq_false_iff.mpr fun h => hne (hnull.mpr h)), ← hsome]
      exact bind_ok_eq_ok (Option.some_injective _) v
  | _, .unitEnum k variants, hwf, v, tag, t, h, rest => by
    rw [Codec.WellFormed] at hwf
    rw [treeOf] at h
    obtain rfl := Option.some.inj h
    rw [fromTlv, Faithful, iff_true, TLVTree.bytes, k.int.read_call, ok_bind, matchUnit_get hwf]
  | _, .dataEnum naked variants, hwf, v, tag, t, h, rest => by
    rw [Codec.WellFormed] at hwf
    rw [treeOf] at h
    rw [fromTlv, Faithful]
    have hpayload (u : TLVTree LeafCall) (hu : payloadTreeOf variants v = some u)
        (tail : List UInt8) : (do
          let tag ← payloadTag (u.bytes ++ tail)
          variantFromTlv variants tag (u.bytes ++ tail)) = .ok v ↔ FaithfulPayload variants v := by
      rw [payloadTag, TLVElement.tryCtx_tree, lift_ok, ok_bind]
      cases hctx : u.tag.ctx? with
      | some ctx => exact variantFromTlv_tree variants hwf.1 hwf.2 v u hu ctx hctx tail
      | none =>
        refine iff_of_false (fun h => nomatch h) fun hfaithful => ?_
        obtain ⟨tag', _, htag'⟩ := exists_tag_of_faithfulPayload variants v hfaithful
        rw [(rootIs_payloadTreeOf variants v u hu).1, htag'] at hctx
        cases hctx
    cases naked with
    | true => exact hpayload t h rest
    | false =>
      obtain ⟨u, hu, rfl⟩ := Option.map_eq_some_iff.mp h
      have helem : payloadElem false ((TLVTree.node tag .struct [u]).bytes ++ rest) =
          .ok (u.bytes ++ (elemBytes .anonymous .endCnt ++ rest)) := by
        have hmembers := TLVElement.membersOf_node tag .struct [u] .tlvTypeMismatch rest
        rw [payloadElem, if_neg Bool.false_ne_true, Panicking.structure, membersOf_eq]
        rw [show TLVElement.membersOf .struct .tlvTypeMismatch _ = _ from hmembers, lift_ok, ok_bind,
          bytesMembers, bytesMembers, List.append_nil, iterNext_eq, TLVSequence.iterNext_tree]
        rfl
      rw [helem, ok_bind]
      exact hpayload u hu _
  | _, .struct kind unordered fields, hwf, v, tag, t, h, rest => by
    rw [Codec.WellFormed] at hwf
    rw [treeOf] at h
    obtain ⟨ts, hts, rfl⟩ := Option.map_eq_some_iff.mp h
    have hmembers : kind.members ((TLVTree.node tag kind.container ts).bytes ++ rest) =
        .ok (bytesMembers ts ++ (elemBytes .anonymous .endCnt ++ rest)) := by
      cases kind with
      | struct =>
        rw [StructKind.members, Panicking.structure, membersOf_eq]
        exact congrArg lift (TLVElement.membersOf_node tag .struct ts _ rest)
      | list =>
        rw [StructKind.members, Panicking.list, membersOf_eq]
        exact congrArg lift (TLVElement.membersOf_node tag .list ts _ rest)
    rw [fromTlv, Faithful, hmembers, ok_bind]
    exact fieldsFromTlv_trees unordered fields hwf.1 hwf.2 v ts hts [] (fun _ hu => nomatch hu) rest

theorem fieldsFromTlv_trees (unordered : Bool) : {α : Type} → (fields : Fields α) →
    fields.WellFormed → fields.tags.Pairwise (TagOrder unordered) → (v : α) →
    (ts : List (TLVTree LeafCall)) → fieldTreesOf fields v = some ts →
    (before : List (TLVTree LeafCall)) →
    (∀ u ∈ before, ∀ tag ∈ fields.tags, Before unordered tag u) → (rest : List UInt8) →
    (fieldsFromTlv unordered fields
      (bytesMembers (before ++ ts) ++ (elemBytes .anonymous .endCnt ++ rest)) = .ok v ↔
        FaithfulFields fields v)
  | _, .nil, _, _, _, ts, h, before, hbefore, rest => by
    rw [fieldsFromTlv, FaithfulFields, iff_true]
    rfl
  | _, .cons tag c fields, hwf, hpair, (a, b), ts, h, before, hbefore, rest => by
    rw [Fields.WellFormed] at hwf
    rw [Fields.tags, List.pairwise_cons] at hpair
    rw [fieldTreesOf] at h
    obtain ⟨t, ht, h⟩ := Option.bind_eq_some_iff.mp h
    obtain ⟨us, hus, h⟩ := Option.bind_eq_some_iff.mp h
    obtain rfl := Option.some.inj h
    obtain ⟨before', hbefore', hnext⟩ := nextField_treeOf hwf.2.1 ht hpair.1 hbefore us
      (elemBytes .anonymous .endCnt ++ rest)
    have hrest := fieldsFromTlv_trees unordered fields hwf.2.2 hpair.2 b us hus before' hbefore' rest
    rw [fieldsFromTlv, FaithfulFields, hnext, ok_bind]
    exact (fields_eq_ok a b).trans (and_congr (fromTlv_treeOf c hwf.1 a _ t ht _) hrest)
  | _, .optional _ tag c fields, hwf, hpair, (none, b), ts, h, before, hbefore, rest => by
    rw [Fields.WellFormed] at hwf
    rw [Fields.tags, List.pairwise_cons] at hpair
    rw [fieldTreesOf] at h
    have hafter : ∀ u ∈ ts, After unordered tag u := by
      intro u hu
      obtain ⟨tag', htag', heq⟩ := exists_tag_of_mem_fieldTreesOf fields hwf.2.2 b ts h u hu
      exact ⟨tag', by rw [heq]; rfl, hpair.1 tag' htag'⟩
    obtain ⟨before', hbefore', hnext⟩ := nextField_absent
      (fun u hu => hbefore u hu tag List.mem_cons_self) hafter rest
    have hrest := fieldsFromTlv_trees unordered fields hwf.2.2 hpair.2 b ts h before'
      (fun u hu tag' htag' => hbefore u (hbefore' u hu) tag' (List.mem_cons_of_mem _ htag')) rest
    rw [fieldsFromTlv, FaithfulFields, hnext, ok_bind]
    exact (fields_eq_ok none b).trans ((and_iff_right rfl).trans hrest)
  | _, .optional _ tag c fields, hwf, hpair, (some a, b), ts, h, before, hbefore, rest => by
    rw [Fields.WellFormed] at hwf
    rw [Fields.tags, List.pairwise_cons] at hpair
    rw [fieldTreesOf] at h
    obtain ⟨t, ht, h⟩ := Option.bind_eq_some_iff.mp h
    obtain ⟨us, hus, h⟩ := Option.bind_eq_some_iff.mp h
    obtain rfl := Option.some.inj h
    obtain ⟨before', hbefore', hnext⟩ := nextField_treeOf hwf.2.1 ht hpair.1 hbefore us
      (elemBytes .anonymous .endCnt ++ rest)
    have hrest := fieldsFromTlv_trees unordered fields hwf.2.2 hpair.2 b us hus before' hbefore' rest
    rw [fieldsFromTlv, FaithfulFields, hnext, ok_bind]
    refine (fields_eq_ok (some a) b).trans (and_congr ?_ hrest)
    rw [Panicking.optional, TLVSequence.isEmpty_tree, if_neg Bool.false_ne_true,
      ← fromTlv_treeOf c hwf.1 a _ t ht (bytesMembers us ++ (elemBytes .anonymous .endCnt ++ rest))]
    exact bind_ok_eq_ok (Option.some_injective _) a

theorem variantFromTlv_tree : {α : Type} → (variants : Variants α) → variants.WellFormed →
    variants.tags.Nodup → (v : α) → (t : TLVTree LeafCall) → payloadTreeOf variants v = some t →
    (ctx : BitVec 8) → t.tag.ctx? = some ctx → (rest : List UInt8) →
    (variantFromTlv variants ctx (t.bytes ++ rest) = .ok v ↔ FaithfulPayload variants v)
  | _, .cons tag c variants, hwf, hnodup, .inl a, t, h, ctx, hctx, rest => by
    rw [Variants.WellFormed] at hwf
    rw [payloadTreeOf] at h
    have htag := (rootIs_treeOf c a _ t h).1
    rw [variantFromTlv, FaithfulPayload, ← htag]
    split
    case isTrue heq =>
      rw [and_iff_right (tag_of_ctx? (heq ▸ hctx)), ← fromTlv_treeOf c hwf.1 a _ t h rest]
      exact bind_ok_eq_ok Sum.inl_injective a
    case isFalse hne =>
      refine iff_of_false (fun hok => ?_) fun hfaithful => ?_
      · obtain ⟨b, _, hb⟩ := Prog.except_bind_eq_ok.mp hok
        cases hb
      · rw [hfaithful.1] at hctx
        exact hne (Option.some.inj hctx).symm
  | _, .cons tag c variants, hwf, hnodup, .inr b, t, h, ctx, hctx, rest => by
    rw [Variants.WellFormed] at hwf
    rw [Variants.tags, List.nodup_cons] at hnodup
    rw [payloadTreeOf] at h
    rw [variantFromTlv, FaithfulPayload]
    split
    case isTrue heq =>
      refine iff_of_false (fun hok => ?_) fun hfaithful => ?_
      · obtain ⟨a, _, ha⟩ := Prog.except_bind_eq_ok.mp hok
        cases ha
      · obtain ⟨tag', htag', heq'⟩ := exists_tag_of_faithfulPayload variants b hfaithful
        rw [(rootIs_payloadTreeOf variants b t h).1, heq'] at hctx
        obtain rfl : tag' = ctx := Option.some.inj hctx
        exact hnodup.1 (heq ▸ htag')
    case isFalse =>
      rw [← variantFromTlv_tree variants hwf.2 hnodup.2 b t h ctx hctx rest]
      exact bind_ok_eq_ok Sum.inr_injective b

end

/-! ## The three promises of a codec -/

/-- What was written between two states of the writer. -/
def WriteBuf.since (wb' wb : WriteBuf) : List UInt8 := wb'.data.drop wb.data.length

/-- A value that was written is read back, in both ways, exactly if it is faithful. -/
theorem readBack_iff {α : Type} {c : Codec α} (hc : c.WellFormed) {v : α} {tag : TLVTag}
    {wb wb' : WriteBuf} (h : (toTlv c v tag).run wb = (wb', .ok ())) :
    fromTlv c (wb'.since wb) = .ok v ∧ initFromTlv c (wb'.since wb) = .ok v ↔ Faithful c v := by
  obtain ⟨bytes, hbytes, _, rfl⟩ := ((emits_toTlv c v tag).ok wb wb').mp h
  obtain ⟨t, ht, rfl⟩ := Option.map_eq_some_iff.mp hbytes
  have hsince : (wb.push t.bytes).since wb = t.bytes ++ [] := by
    rw [WriteBuf.since, WriteBuf.push, List.drop_left, List.append_nil]
  have hread := fromTlv_treeOf c hc v tag t ht []
  rw [hsince, ← hread, and_iff_left_iff_imp]
  intro hok
  have hno : NoPanic (fromTlv c (t.bytes ++ [])) := by
    rw [hok]
    exact noPanic_ok v
  exact ((follows_initFromTlv c _ hno).eq_ok_iff v).mp hok

theorem eq_of_toTlv_error {α : Type} {c : Codec α} (hc : c.derived = true) {v : α} {tag : TLVTag}
    {wb wb' : WriteBuf} {e : ErrorCode} (h : (toTlv c v tag).run wb = (wb', .error e)) :
    wb' = wb := by
  cases c with
  | unitEnum k variants =>
    rw [toTlv] at h
    exact (emits_leaf tag _).eq_of_rewinding_error h
  | dataEnum naked variants =>
    rw [toTlv] at h
    cases naked with
    | true => exact (emits_variantToTlv variants v).eq_of_rewinding_error h
    | false => exact ((Emits.append _).bind ((emits_variantToTlv variants v).bind
        (.append _))).eq_of_rewinding_error h
  | struct kind unordered fields =>
    rw [toTlv] at h
    exact (emits_container tag kind.container (emits_fieldsToTlv fields v)).eq_of_rewinding_error h
  | _ => cases hc

/-- The decoders agree on all bytes but those that lead to an absent array. -/
theorem agree_iff {α : Type} (c : Codec α) (elem : List UInt8) :
    Agree (fromTlv c elem) (initFromTlv c elem) ↔ ¬AbsentArray c elem := by
  rw [← fromTlv_eq_panic]
  exact ⟨fun h => h.noPanic.1, fun h => follows_initFromTlv c elem h⟩

/-- `struct { list: Vec<bool, 2> }`. -/
def listStruct : Codec (HVec Bool 2 × Unit) :=
  .struct .struct false (.cons 0 (.vec .bool 2) .nil)

theorem listStruct_wellFormed : listStruct.WellFormed := by
  rw [listStruct, Codec.WellFormed]
  simp [Fields.WellFormed, Codec.WellFormed, Fields.tags, Codec.naked]

theorem run_toTlv_listStruct :
    (toTlv listStruct (⟨[true], by decide⟩, ()) .anonymous).run ⟨[], 9⟩ =
        (⟨[0x15, 0x36, 0, 9, 0x18, 0x18], 3⟩, .ok ()) ∧
      (toTlv listStruct (⟨[true], by decide⟩, ()) .anonymous).run ⟨[], 3⟩ =
        (⟨[], 3⟩, .error .noSpace) := by
  simp only [listStruct, toTlv, fieldsToTlv]
  exact ⟨rfl, rfl⟩

/-- The variants of `enum { Off = 0, On = 255 }`, where `On` is declared first. -/
def switchVariants : List (UnitVariant .u8) := [⟨0xff, 0⟩, ⟨0, 1⟩]

/-- `Nullable` of that enum. -/
def switchEnum : Codec (Option (Fin switchVariants.length)) := .nullable (.unitEnum .u8 switchVariants)

end RsMatter
