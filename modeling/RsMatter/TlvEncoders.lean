import RsMatter.Iteration
import RsMatter.TlvCodecTree
import RsMatter.TlvIterators

/-!
# Two encoders (`tlv.rs`, `tlv/traits/*.rs`, `rs-matter-macros/src/tlv.rs`)

Beside the write methods there are iterators: over the bytes of a tag, of a value and of both, and, of a value
of a type with a codec, over what it is written as. The iterator over the bytes of a value has no case for the
strings with a length field of eight bytes, and of these it gives nothing. The derived iterators start every
container as a structure, also those that are written as a list.
-/

namespace RsMatter

/-! ## Bytes of a tag and of a value -/

/-- `next_byte_offset`: the byte and the index after it. -/
def nextByteOffset (index offset : ℕ) (bytes : List UInt8) : Option UInt8 × ℕ :=
  match bytes[index - offset]? with
  | some byte => (some byte, index + 1)
  | none => (none, index)

/-- `next_byte`. -/
def nextByte (index : ℕ) (bytes : List UInt8) : Option UInt8 × ℕ := nextByteOffset index 0 bytes

structure TLVTagIter where
  value : TLVTag
  index : ℕ

/-- The byte of a tag at an index, and the index after it. -/
def TLVTag.byteAt (index : ℕ) : TLVTag → Option UInt8 × ℕ
  | .anonymous => (none, index)
  | .context tag => nextByte index (toLE 1 tag.toNat)
  | .commonPrf16 tag => nextByte index (toLE 2 tag.toNat)
  | .commonPrf32 tag => nextByte index (toLE 4 tag.toNat)
  | .implPrf16 tag => nextByte index (toLE 2 tag.toNat)
  | .implPrf32 tag => nextByte index (toLE 4 tag.toNat)
  | .fullQual48 vendorId profile tag =>
    if index < 2 then nextByte index (toLE 2 vendorId.toNat)
    else if index < 4 then nextByteOffset index 2 (toLE 2 profile.toNat)
    else nextByteOffset index 4 (toLE 2 tag.toNat)
  | .fullQual64 vendorId profile tag =>
    if index < 2 then nextByte index (toLE 2 vendorId.toNat)
    else if index < 4 then nextByteOffset index 2 (toLE 2 profile.toNat)
    else nextByteOffset index 4 (toLE 4 tag.toNat)

/-- `TLVTagIter::next`. -/
def TLVTagIter.next (it : TLVTagIter) : Option UInt8 × TLVTagIter :=
  let (byte, index) := it.value.byteAt it.index
  (byte, { it with index := index })

structure TLVValueIter where
  value : TLVValue
  index : ℕ

/-- `variable_len_len`. -/
def TLVValue.variableLenLen : TLVValue → ℕ
  | .utf8l _ | .str8l _ => 1
  | .utf16l _ | .str16l _ => 2
  | .utf32l _ | .str32l _ => 4
  | .utf64l _ | .str64l _ => 8
  | _ => 0

/-- The byte of a string at an index; a length is a number of eight bytes. -/
def stringByteAt (index lenLen : ℕ) (bytes : List UInt8) : Option UInt8 × ℕ :=
  if index < lenLen then nextByte index (toLE 8 bytes.length)
  else nextByteOffset index lenLen bytes

/-- The byte of a value at an index, and the index after it. -/
def TLVValue.byteAt (index : ℕ) (value : TLVValue) : Option UInt8 × ℕ :=
  match value with
  | .s8 a => nextByte index (toLE 1 a.toNat)
  | .s16 a => nextByte index (toLE 2 a.toNat)
  | .s32 a => nextByte index (toLE 4 a.toNat)
  | .s64 a => nextByte index (toLE 8 a.toNat)
  | .u8 a => nextByte index (toLE 1 a.toNat)
  | .u16 a => nextByte index (toLE 2 a.toNat)
  | .u32 a => nextByte index (toLE 4 a.toNat)
  | .u64 a => nextByte index (toLE 8 a.toNat)
  | .f32 a => nextByte index (toLE 4 a.toNat)
  | .f64 a => nextByte index (toLE 8 a.toNat)
  | .utf8l a | .utf16l a | .utf32l a => stringByteAt index value.variableLenLen (utf8Bytes a)
  | .str8l a | .str16l a | .str32l a => stringByteAt index value.variableLenLen a
  -- the constants, the containers, and the strings with a length field of eight bytes
  | _ => (none, index)

/-- `TLVValueIter::next`. -/
def TLVValueIter.next (it : TLVValueIter) : Option UInt8 × TLVValueIter :=
  let (byte, index) := it.value.byteAt it.index
  (byte, { it with index := index })

/-- An iterator over the bytes of a tag with a value. -/
structure TLVBytesIter where
  /-- the control byte, until it is given -/
  control : Option UInt8
  tag : TLVTagIter
  value : TLVValueIter

/-- `TLVBytesIter::next`. -/
def TLVBytesIter.next (it : TLVBytesIter) : Option UInt8 × TLVBytesIter :=
  match it.control with
  | some byte => (some byte, { it with control := none })
  | none =>
    match it.tag.next with
    | (some byte, tag) => (some byte, { it with tag := tag })
    | (none, tag) =>
      let (byte, value) := it.value.next
      (byte, { it with tag := tag, value := value })

/-- `TLV::bytes_iter`. -/
def TLV.bytesIter (tlv : TLV) : TLVBytesIter where
  control := some (TLVControl.mk tlv.tag.tagType tlv.value.valueType).asRaw
  tag := ⟨tlv.tag, 0⟩
  value := ⟨tlv.value, 0⟩

/-- The bytes that `bytes_iter` gives. -/
def TLV.Gives (tlv : TLV) (bytes : List UInt8) : Prop :=
  Yields (ε := ErrorCode) (fun it : TLVBytesIter => .ok it.next) tlv.bytesIter bytes

/-! ## What a value is written as -/

mutual

/-- `ToTLV::tlv_iter`. Every container of a derived type starts as a structure. -/
def tlvIter : {α : Type} → Codec α → α → TLVTag → List (Except ErrorCode TLV)
  | _, .int k, v, tag => [.ok ⟨tag, (k.call v).value⟩]
  | _, .nonZero k, v, tag => [.ok ⟨tag, (k.call v.1).value⟩]
  | _, .bool, v, tag => [.ok ⟨tag, .ofBool v⟩]
  | _, .octets, v, tag => [.ok ⟨tag, .ofStr v.1⟩]
  | _, .octetsOwned _ _, v, tag => [.ok ⟨tag, .ofStr v.1⟩]
  | _, .utf8, v, tag => [.ok ⟨tag, .ofUtf8 v.1⟩]
  | _, .utf8Owned _ _, v, tag => [.ok ⟨tag, .ofUtf8 v.1⟩]
  | _, .vec item _, v, tag | _, .array item _ _, v, tag =>
    [.ok ⟨tag, .array⟩] ++ v.1.flatMap (fun a => tlvIter item a .anonymous) ++
      [.ok ⟨.anonymous, .endCnt⟩]
  | _, .nullable c, v, tag =>
    match v with
    | none => [.ok ⟨tag, .null⟩]
    | some v => nullableTlvIter c v tag
  | _, .unitEnum k variants, v, tag => [.ok ⟨tag, (k.int.call (variants.get v).tag).value⟩]
  | _, .dataEnum naked variants, v, tag =>
    if naked then variantTlvIter variants v
    else [.ok ⟨tag, .struct⟩] ++ variantTlvIter variants v ++ [.ok ⟨.anonymous, .endCnt⟩]
  | _, .struct _ _ fields, v, tag =>
    [.ok ⟨tag, .struct⟩] ++ fieldsTlvIter fields v ++ [.ok ⟨.anonymous, .endCnt⟩]

/-- `ToTLV::nullable_tlv_iter`. -/
def nullableTlvIter : {α : Type} → Codec α → α → TLVTag → List (Except ErrorCode TLV)
  | _, .int k, v, tag =>
    if v ≠ k.reserved then [.ok ⟨tag, (k.call v).value⟩] else [.error .constraintError]
  | _, .nonZero k, v, tag =>
    if v.1 ≠ k.reserved then [.ok ⟨tag, (k.call v.1).value⟩] else [.error .constraintError]
  | _, .unitEnum k variants, v, tag =>
    if (variants.get v).discriminant ≠ BitVec.allOnes _ then
      [.ok ⟨tag, (k.int.call (variants.get v).tag).value⟩]
    else [.error .constraintError]
  | _, c, v, tag => tlvIter c v tag

/-- The fields of a structure, one after the other. -/
def fieldsTlvIter : {α : Type} → Fields α → α → List (Except ErrorCode TLV)
  | _, .nil, _ => []
  | _, .cons tag c rest, (a, b) => tlvIter c a (.context tag) ++ fieldsTlvIter rest b
  | _, .optional _ tag c rest, (a, b) =>
    (match a with
      | none => []
      | some a => tlvIter c a (.context tag)) ++ fieldsTlvIter rest b

/-- The payload of a variant, under the tag of the variant. -/
def variantTlvIter : {α : Type} → Variants α → α → List (Except ErrorCode TLV)
  | _, .cons tag c _, .inl a => tlvIter c a (.context tag)
  | _, .cons _ _ rest, .inr b => variantTlvIter rest b

end

/-- Items flattened with `bytes_iter`; an error among them is no byte. -/
inductive Flattens : List (Except ErrorCode TLV) → List UInt8 → Prop
  | nil : Flattens [] []
  | cons {tlv : TLV} {chunk bytes : List UInt8} {items : List (Except ErrorCode TLV)}
    (h : tlv.Gives chunk) (hs : Flattens items bytes) : Flattens (.ok tlv :: items) (chunk ++ bytes)

/-! ## Bytes of a value -/

/-- Is it a string with a length field of eight bytes? -/
def TLVValue.IsLong (v : TLVValue) : Prop := v.valueType = .utf64l ∨ v.valueType = .str64l

instance (v : TLVValue) : Decidable v.IsLong := inferInstanceAs (Decidable (_ ∨ _))

/-- The bytes that the iterator has for a value. -/
def TLVValue.pulled (v : TLVValue) : List UInt8 := if v.IsLong then [] else v.lenField ++ v.payload

/-- The bytes that the iterator has for a tag with a value. -/
def TLV.pulled (tlv : TLV) : List UInt8 :=
  (TLVControl.mk tlv.tag.tagType tlv.value.valueType).asRaw :: (tlv.tag.bytes ++ tlv.value.pulled)

section Bytes

variable {bytes bytes' : List UInt8} {i : ℕ}

theorem nextByte_eq (i : ℕ) (bytes : List UInt8) : nextByte i bytes =
    (bytes[i]?, if i < bytes.length then i + 1 else i) := by
  rw [nextByte, nextByteOffset, Nat.sub_zero]
  by_cases hi : i < bytes.length
  · rw [if_pos hi, List.getElem?_eq_getElem hi]
  · rw [if_neg hi, List.getElem?_eq_none (Nat.le_of_not_lt hi)]

theorem nextByteOffset_eq (hi : bytes.length ≤ i) :
    nextByteOffset i bytes.length bytes' = nextByte i (bytes ++ bytes') := by
  rw [nextByteOffset, nextByte, nextByteOffset, Nat.sub_zero, List.getElem?_append_right hi]

theorem nextByte_append (hi : i < bytes.length) : nextByte i bytes = nextByte i (bytes ++ bytes') := by
  rw [nextByte, nextByteOffset, nextByte, nextByteOffset, Nat.sub_zero, List.getElem?_append_left hi]

theorem TLVTag.byteAt_eq (tag : TLVTag) (i : ℕ) : tag.byteAt i = nextByte i tag.bytes := by
  have hthree (a b c : List UInt8) (ha : a.length = 2) (hb : b.length = 2) :
      (if i < 2 then nextByte i a else if i < 4 then nextByteOffset i 2 b else nextByteOffset i 4 c) =
        nextByte i (a ++ (b ++ c)) := by
    by_cases hi : i < 2
    · rw [if_pos hi, nextByte_append (by omega)]
    · rw [if_neg hi]
      by_cases hi' : i < 4
      · rw [if_pos hi', ← ha, nextByteOffset_eq (by omega), ← List.append_assoc]
        exact nextByte_append (by rw [List.length_append]; omega)
      · have hab : (a ++ b).length = 4 := by rw [List.length_append, ha, hb]
        rw [if_neg hi', ← hab, nextByteOffset_eq (by omega), List.append_assoc]
  cases tag with
  | anonymous => rfl
  | fullQual48 vendorId profile tag => exact hthree _ _ _ (length_toLE ..) (length_toLE ..)
  | fullQual64 vendorId profile tag => exact hthree _ _ _ (length_toLE ..) (length_toLE ..)
  | _ => rfl

/-- The low bytes of a number do not depend on how many there are. -/
theorem getElem?_toLE {w w' i : ℕ} (n : ℕ) (hi : i < w) (hw : w ≤ w') :
    (toLE w' n)[i]? = (toLE w n)[i]? := by
  induction w generalizing w' i n with
  | zero => cases hi
  | succ w ih =>
    obtain ⟨w', rfl⟩ := Nat.exists_eq_add_of_le' (Nat.one_le_of_lt hw)
    rw [toLE, toLE]
    cases i with
    | zero => rfl
    | succ i => exact ih (n / 256) (Nat.lt_of_succ_lt_succ hi) (Nat.le_of_succ_le_succ hw)

theorem stringByteAt_eq (i : ℕ) {lenLen : ℕ} (h : lenLen ≤ 8) (bytes : List UInt8) :
    stringByteAt i lenLen bytes = nextByte i (toLE lenLen bytes.length ++ bytes) := by
  have hlen : (toLE lenLen bytes.length).length = lenLen := length_toLE ..
  rw [stringByteAt]
  by_cases hi : i < lenLen
  · have hbyte : nextByte i (toLE 8 bytes.length) = nextByte i (toLE lenLen bytes.length) := by
      rw [nextByte, nextByteOffset, nextByte, nextByteOffset, Nat.sub_zero, getElem?_toLE _ hi h]
    rw [if_pos hi, hbyte]
    exact nextByte_append (by omega)
  · rw [if_neg hi]
    have hoffset : nextByteOffset i (toLE lenLen bytes.length).length bytes =
        nextByte i (toLE lenLen bytes.length ++ bytes) := nextByteOffset_eq (by omega)
    rwa [hlen] at hoffset

theorem TLVValue.byteAt_eq (v : TLVValue) (i : ℕ) : v.byteAt i = nextByte i v.pulled := by
  cases v with
  | utf8l s | str8l s => exact stringByteAt_eq i (show 1 ≤ 8 by decide) _
  | utf16l s | str16l s => exact stringByteAt_eq i (show 2 ≤ 8 by decide) _
  | utf32l s | str32l s => exact stringByteAt_eq i (show 4 ≤ 8 by decide) _
  | _ => rfl

/-- **The bytes of a tag with a value.** -/
theorem TLV.gives_pulled (tlv : TLV) : tlv.Gives tlv.pulled := by
  obtain ⟨tag, v⟩ := tlv
  have hvalue (j : ℕ) : (⟨none, ⟨tag, tag.bytes.length⟩, ⟨v, j⟩⟩ : TLVBytesIter).next =
      ((v.byteAt j).1, ⟨none, ⟨tag, tag.bytes.length⟩, ⟨v, (v.byteAt j).2⟩⟩) := by
    rw [TLVBytesIter.next, TLVTagIter.next]
    simp only [tag.byteAt_eq, nextByte_eq, List.getElem?_eq_none le_rfl, lt_irrefl, if_false]
    rfl
  have hlast : (⟨none, ⟨tag, tag.bytes.length⟩, ⟨v, v.pulled.length⟩⟩ : TLVBytesIter).next =
      (none, ⟨none, ⟨tag, tag.bytes.length⟩, ⟨v, v.pulled.length⟩⟩) := by
    simp only [hvalue, v.byteAt_eq, nextByte_eq, List.getElem?_eq_none le_rfl, lt_irrefl, if_false]
  let atValue (j : ℕ) : TLVBytesIter := ⟨none, ⟨tag, tag.bytes.length⟩, ⟨v, j⟩⟩
  let atTag (j : ℕ) : TLVBytesIter := ⟨none, ⟨tag, j⟩, ⟨v, 0⟩⟩
  have hbytes : Yields (ε := ErrorCode) (fun it : TLVBytesIter => .ok it.next) (atValue 0)
      (v.pulled ++ []) := by
    apply Yields.of_index v.pulled atValue
    · intro j byte hj
      have hlt : j < v.pulled.length := (List.getElem?_eq_some_iff.mp hj).1
      simp only [atValue, hvalue, v.byteAt_eq, nextByte_eq, hj, if_pos hlt]
    · exact .done (congrArg Except.ok hlast)
  have htag : Yields (ε := ErrorCode) (fun it : TLVBytesIter => .ok it.next) (atTag 0)
      (tag.bytes ++ (v.pulled ++ [])) := by
    apply Yields.of_index tag.bytes atTag
    · intro j byte hj
      have hlt : j < tag.bytes.length := (List.getElem?_eq_some_iff.mp hj).1
      simp only [atTag, TLVBytesIter.next, TLVTagIter.next, tag.byteAt_eq, nextByte_eq, hj, if_pos hlt]
    · exact hbytes
  rw [List.append_nil] at htag
  exact .step rfl htag

theorem TLV.gives_iff {tlv : TLV} : tlv.Gives bytes ↔ bytes = tlv.pulled :=
  ⟨fun h => h.unique tlv.gives_pulled, fun h => h ▸ tlv.gives_pulled⟩

end Bytes

/-! ## What is written -/

/-- The write method appends these bytes if there is room. -/
def Writes (write : WriteBuf → Except ErrorCode WriteBuf) (bytes : List UInt8) : Prop :=
  ∃ wb wb', write wb = .ok wb' ∧ wb'.data = wb.data ++ bytes

def Prog.write (m : Prog ErrorCode WriteBuf Unit) (wb : WriteBuf) : Except ErrorCode WriteBuf :=
  match m.run wb with
  | (wb, .ok ()) => .ok wb
  | (_, .error e) => .error e

section Writes

variable {bytes : List UInt8}

theorem writes_tlv_iff {tag : TLVTag} {v : TLVValue} :
    Writes (·.tlv tag v) bytes ↔ bytes = elemBytes tag v := by
  constructor
  · rintro ⟨wb, wb', h, hdata⟩
    replace h := (WriteBuf.tlv_eq wb tag v).symm.trans h
    rcases Nat.lt_or_ge wb.room (elemBytes tag v).length with hroom | hroom
    · rw [WriteBuf.writeRawData_error hroom] at h
      cases h
    · rw [WriteBuf.writeRawData_ok hroom] at h
      obtain rfl := Except.ok.inj h
      exact (List.append_cancel_left hdata).symm
  · rintro rfl
    have hwrite : (⟨[], (elemBytes tag v).length⟩ : WriteBuf).tlv tag v =
        .ok (.push _ (elemBytes tag v)) :=
      (WriteBuf.tlv_eq ..).trans (WriteBuf.writeRawData_ok le_rfl)
    exact ⟨_, _, hwrite, rfl⟩

theorem Emits.writes_iff {m : Prog ErrorCode WriteBuf Unit} {out : Option (List UInt8)} (h : Emits m out) :
    Writes m.write bytes ↔ out = some bytes := by
  constructor
  · rintro ⟨wb, wb', hwrite, hdata⟩
    rw [Prog.write] at hwrite
    rcases hm : m.run wb with ⟨wb₁, e | ⟨⟩⟩
    · rw [hm] at hwrite
      cases hwrite
    · rw [hm] at hwrite
      obtain rfl : wb₁ = wb' := Except.ok.inj hwrite
      obtain ⟨bytes', hout, -, rfl⟩ := (h.ok wb wb₁).mp hm
      rw [hout, List.append_cancel_left hdata]
  · rintro rfl
    refine ⟨⟨[], bytes.length⟩, WriteBuf.push ⟨[], bytes.length⟩ bytes, ?_, rfl⟩
    rw [Prog.write, (h.ok ⟨[], bytes.length⟩ _).mpr ⟨bytes, rfl, le_rfl, rfl⟩]

end Writes

/-! ## The items of a tree -/

/-- The value that a derived iterator starts a container with. -/
def ContainerType.derived : ContainerType → TLVValue
  | list => .struct
  | kind => kind.value

mutual

def TLVTree.tlvs : TLVTree LeafCall → List TLV
  | .leaf tag call => [⟨tag, call.value⟩]
  | .node tag kind members => [⟨tag, kind.derived⟩] ++ tlvsMembers members ++ [⟨.anonymous, .endCnt⟩]

def tlvsMembers : List (TLVTree LeafCall) → List TLV
  | [] => []
  | t :: ts => t.tlvs ++ tlvsMembers ts

end

/-- These are the items; without any, there is an error among them. -/
def Lists (items : List (Except ErrorCode TLV)) : Option (List TLV) → Prop
  | some tlvs => items = tlvs.map .ok
  | none => ∃ e, .error e ∈ items

namespace Lists

variable {items items' : List (Except ErrorCode TLV)} {out out' : Option (List TLV)}

theorem one (tlv : TLV) : Lists [.ok tlv] (some [tlv]) := rfl

theorem error (e : ErrorCode) : Lists [.error e] none := ⟨e, List.mem_singleton.mpr rfl⟩

theorem append (h : Lists items out) (h' : Lists items' out') :
    Lists (items ++ items') (out.bind fun tlvs => out'.map (tlvs ++ ·)) := by
  cases out with
  | none =>
    obtain ⟨e, he⟩ := h
    exact ⟨e, List.mem_append_left _ he⟩
  | some tlvs =>
    cases out' with
    | none =>
      obtain ⟨e, he⟩ := h'
      exact ⟨e, List.mem_append_right _ he⟩
    | some tlvs' =>
      rw [Lists] at h h'
      rw [h, h']
      exact (List.map_append ..).symm

theorem flatMap {α : Type} {f : α → List (Except ErrorCode TLV)} {g : α → Option (TLVTree LeafCall)}
    (h : ∀ a, Lists (f a) ((g a).map TLVTree.tlvs)) (l : List α) :
    Lists (l.flatMap f) ((l.mapM g).map tlvsMembers) := by
  induction l with
  | nil => exact rfl
  | cons a l ih =>
    rw [List.mapM_cons, List.flatMap_cons]
    have hcons := (h a).append ih
    cases hg : g a with
    | none =>
      rw [hg] at hcons
      exact hcons
    | some t =>
      rw [hg] at hcons
      cases hl : l.mapM g with
      | none =>
        rw [hl] at hcons
        exact hcons
      | some ts =>
        rw [hl] at hcons
        exact hcons

theorem container (tag : TLVTag) (kind : ContainerType) {members : Option (List (TLVTree LeafCall))}
    (h : Lists items (members.map tlvsMembers)) :
    Lists (([.ok ⟨tag, kind.derived⟩] : List (Except ErrorCode TLV)) ++ items ++
        ([.ok ⟨.anonymous, .endCnt⟩] : List (Except ErrorCode TLV)))
      ((members.map (.node tag kind)).map TLVTree.tlvs) := by
  have hall := ((one ⟨tag, kind.derived⟩).append h).append (one ⟨.anonymous, .endCnt⟩)
  cases members with
  | none => exact hall
  | some members => exact hall

theorem field {t : Option (TLVTree LeafCall)} {ts : Option (List (TLVTree LeafCall))}
    (h : Lists items (t.map TLVTree.tlvs)) (h' : Lists items' (ts.map tlvsMembers)) :
    Lists (items ++ items') ((do
      let t ← t
      let ts ← ts
      some (t :: ts)).map tlvsMembers) := by
  have hall := h.append h'
  cases t with
  | none => exact hall
  | some t =>
    cases ts with
    | none => exact hall
    | some ts => exact hall

end Lists

theorem lists_leaf (tag : TLVTag) (call : LeafCall) :
    Lists [.ok ⟨tag, call.value⟩] ((some (TLVTree.leaf tag call)).map TLVTree.tlvs) := .one _

theorem lists_nullableTlvIter {α : Type} (c : Codec α) (v : α) (tag : TLVTag)
    (h : Lists (tlvIter c v tag) ((treeOf c v tag).map TLVTree.tlvs)) :
    Lists (nullableTlvIter c v tag) ((nullableTreeOf c v tag).map TLVTree.tlvs) := by
  cases c with
  | int k | nonZero k =>
    rw [nullableTlvIter, nullableTreeOf]
    split
    · exact lists_leaf tag _
    · exact .error _
  | unitEnum k variants =>
    rw [nullableTlvIter, nullableTreeOf]
    split
    · exact lists_leaf tag _
    · exact .error _
  | _ =>
    unfold nullableTlvIter nullableTreeOf
    exact h

mutual

/-- **The items of a value** are those of its tree. -/
theorem lists_tlvIter : {α : Type} → (c : Codec α) → (v : α) → (tag : TLVTag) →
    Lists (tlvIter c v tag) ((treeOf c v tag).map TLVTree.tlvs)
  | _, .int k, v, tag => by
    rw [tlvIter, treeOf]
    exact lists_leaf tag _
  | _, .nonZero k, v, tag => by
    rw [tlvIter, treeOf]
    exact lists_leaf tag _
  | _, .bool, v, tag => by
    rw [tlvIter, treeOf]
    exact lists_leaf tag (.bool v)
  | _, .octets, v, tag => by
    rw [tlvIter, treeOf]
    exact lists_leaf tag (.str v.1 _)
  | _, .octetsOwned _ _, v, tag => by
    rw [tlvIter, treeOf]
    exact lists_leaf tag (.str v.1 _)
  | _, .utf8, v, tag => by
    rw [tlvIter, treeOf]
    exact lists_leaf tag (.utf8 v.1 _)
  | _, .utf8Owned _ _, v, tag => by
    rw [tlvIter, treeOf]
    exact lists_leaf tag (.utf8 v.1 _)
  | _, .vec item _, v, tag => by
    rw [tlvIter, treeOf]
    exact .container tag .array (.flatMap (fun a => lists_tlvIter item a .anonymous) v.1)
  | _, .array item _ _, v, tag => by
    rw [tlvIter, treeOf]
    exact .container tag .array (.flatMap (fun a => lists_tlvIter item a .anonymous) v.1)
  | _, .nullable c, none, tag => by
    rw [tlvIter, treeOf]
    exact lists_leaf tag .null
  | _, .nullable c, some v, tag => by
    rw [tlvIter, treeOf]
    exact lists_nullableTlvIter c v tag (lists_tlvIter c v tag)
  | _, .unitEnum k variants, v, tag => by
    rw [tlvIter, treeOf]
    exact lists_leaf tag _
  | _, .dataEnum naked variants, v, tag => by
    rw [tlvIter, treeOf]
    have hpayload := lists_variantTlvIter variants v
    cases naked with
    | true => exact hpayload
    | false =>
      rw [if_neg Bool.false_ne_true, if_neg Bool.false_ne_true]
      have hmembers : Lists (variantTlvIter variants v)
          (((payloadTreeOf variants v).map fun t => [t]).map tlvsMembers) := by
        cases hp : payloadTreeOf variants v with
        | none =>
          rw [hp] at hpayload
          exact hpayload
        | some t =>
          rw [hp] at hpayload
          simpa [tlvsMembers] using hpayload
      have hall := Lists.container tag .struct hmembers
      simp only [Option.map_map] at hall ⊢
      exact hall
  | _, .struct kind _ fields, v, tag => by
    rw [tlvIter, treeOf]
    -- a structure and a list start alike
    cases kind with
    | struct => exact .container tag .struct (lists_fieldsTlvIter fields v)
    | list => exact .container tag .list (lists_fieldsTlvIter fields v)

theorem lists_fieldsTlvIter : {α : Type} → (fields : Fields α) → (v : α) →
    Lists (fieldsTlvIter fields v) ((fieldTreesOf fields v).map tlvsMembers)
  | _, .nil, _ => by
    rw [fieldsTlvIter, fieldTreesOf]
    rfl
  | _, .cons tag c rest, (a, b) => by
    rw [fieldsTlvIter, fieldTreesOf]
    exact .field (lists_tlvIter c a (.context tag)) (lists_fieldsTlvIter rest b)
  | _, .optional _ tag c rest, (none, b) => by
    rw [fieldsTlvIter, fieldTreesOf]
    exact lists_fieldsTlvIter rest b
  | _, .optional _ tag c rest, (some a, b) => by
    rw [fieldsTlvIter, fieldTreesOf]
    exact .field (lists_tlvIter c a (.context tag)) (lists_fieldsTlvIter rest b)

theorem lists_variantTlvIter : {α : Type} → (variants : Variants α) → (v : α) →
    Lists (variantTlvIter variants v) ((payloadTreeOf variants v).map TLVTree.tlvs)
  | _, .cons tag c _, .inl a => by
    rw [variantTlvIter, payloadTreeOf]
    exact lists_tlvIter c a (.context tag)
  | _, .cons _ _ rest, .inr b => by
    rw [variantTlvIter, payloadTreeOf]
    exact lists_variantTlvIter rest b

end

/-! ## The same bytes -/

mutual

/-- There is no list in the tree, and no string with a length field of eight bytes. -/
def TLVTree.Plain : TLVTree LeafCall → Prop
  | .leaf _ call => ¬ call.value.IsLong
  | .node _ kind members => kind ≠ .list ∧ PlainMembers members

def PlainMembers : List (TLVTree LeafCall) → Prop
  | [] => True
  | t :: ts => t.Plain ∧ PlainMembers ts

end

section Trees

variable {a a' b b' : List UInt8}

/-- Two parts that can only get shorter are the same if they are the same together. -/
theorem append_eq_iff (ha : a.length ≤ a'.length) (hb : b.length ≤ b'.length) :
    a ++ b = a' ++ b' ↔ a = a' ∧ b = b' := by
  constructor
  · intro h
    have hlen := congrArg List.length h
    rw [List.length_append, List.length_append] at hlen
    exact List.append_inj h (by omega)
  · rintro ⟨rfl, rfl⟩
    rfl

theorem TLV.pulled_of_isLong {tlv : TLV} (h : tlv.value.IsLong) :
    tlv.pulled.length < (elemBytes tlv.tag tlv.value).length := by
  have hfield : 8 ≤ tlv.value.lenField.length := by
    rw [tlv.value.length_lenField]
    rcases h with h | h <;> rw [h] <;> exact le_rfl
  rw [TLV.pulled, TLVValue.pulled, if_pos h, elemBytes]
  simp only [List.length_cons, List.length_append, List.length_nil]
  omega

theorem TLV.pulled_of_not_isLong {tlv : TLV} (h : ¬ tlv.value.IsLong) :
    tlv.pulled = elemBytes tlv.tag tlv.value := by
  rw [TLV.pulled, TLVValue.pulled, if_neg h, elemBytes]

/-- **One item** has the bytes that are written for it, unless it is a string with a length field of eight
bytes. -/
theorem TLV.pulled_eq_iff (tlv : TLV) : tlv.pulled = elemBytes tlv.tag tlv.value ↔ ¬ tlv.value.IsLong :=
  ⟨fun h hlong => (tlv.pulled_of_isLong hlong).ne (congrArg List.length h), tlv.pulled_of_not_isLong⟩

theorem TLV.length_pulled_le (tlv : TLV) : tlv.pulled.length ≤ (elemBytes tlv.tag tlv.value).length := by
  by_cases h : tlv.value.IsLong
  · exact (tlv.pulled_of_isLong h).le
  · rw [tlv.pulled_of_not_isLong h]

/-- The start of a container differs by its control byte if it is a list. -/
theorem pulled_derived (tag : TLVTag) (kind : ContainerType) :
    (TLV.mk tag kind.derived).pulled.length = (elemBytes tag kind.value).length ∧
      ((TLV.mk tag kind.derived).pulled = elemBytes tag kind.value ↔ kind ≠ .list) := by
  cases kind with
  | struct => exact ⟨rfl, iff_of_true rfl nofun⟩
  | array => exact ⟨rfl, iff_of_true rfl nofun⟩
  | list =>
    refine ⟨rfl, iff_of_false (fun h => ?_) (fun h => h rfl)⟩
    -- the tag type is the same, and the value type is not
    have hcontrol := (List.cons.inj h).1
    have hparse := congrArg TLVControl.parse hcontrol
    rw [TLVControl.parse_asRaw, TLVControl.parse_asRaw] at hparse
    cases hparse

mutual

theorem flatMap_tlvs : (t : TLVTree LeafCall) → (t.tlvs.flatMap TLV.pulled).length ≤ t.bytes.length ∧
    (t.tlvs.flatMap TLV.pulled = t.bytes ↔ t.Plain)
  | .leaf tag call => by
    rw [TLVTree.tlvs, TLVTree.bytes, TLVTree.Plain, List.flatMap_singleton]
    exact ⟨TLV.length_pulled_le ⟨tag, call.value⟩, TLV.pulled_eq_iff ⟨tag, call.value⟩⟩
  | .node tag kind members => by
    obtain ⟨hle, hiff⟩ := flatMap_tlvsMembers members
    obtain ⟨hstart, hkind⟩ := pulled_derived tag kind
    have hend : (TLV.mk .anonymous .endCnt).pulled = elemBytes .anonymous .endCnt := rfl
    rw [TLVTree.tlvs, TLVTree.bytes, TLVTree.Plain, List.flatMap_append, List.flatMap_append,
      List.flatMap_singleton, List.flatMap_singleton, hend, List.append_assoc]
    have htail : ((tlvsMembers members).flatMap TLV.pulled ++ elemBytes .anonymous .endCnt).length ≤
        (bytesMembers members ++ elemBytes .anonymous .endCnt).length := by
      rw [List.length_append, List.length_append]
      exact Nat.add_le_add_right hle _
    constructor
    · rw [List.length_append, @List.length_append _ (elemBytes tag kind.value), hstart]
      exact Nat.add_le_add_left htail _
    · rw [append_eq_iff hstart.le htail, List.append_cancel_right_eq, hkind, hiff]

theorem flatMap_tlvsMembers : (ts : List (TLVTree LeafCall)) →
    ((tlvsMembers ts).flatMap TLV.pulled).length ≤ (bytesMembers ts).length ∧
      ((tlvsMembers ts).flatMap TLV.pulled = bytesMembers ts ↔ PlainMembers ts)
  | [] => ⟨le_rfl, iff_of_true rfl trivial⟩
  | t :: ts => by
    obtain ⟨hle, hiff⟩ := flatMap_tlvs t
    obtain ⟨hle', hiff'⟩ := flatMap_tlvsMembers ts
    rw [tlvsMembers, bytesMembers, PlainMembers, List.flatMap_append]
    constructor
    · rw [List.length_append, List.length_append]
      exact Nat.add_le_add hle hle'
    · rw [append_eq_iff hle hle', hiff, hiff']

end

end Trees

/-! ## Refused and plain values -/

mutual

/-- There is a nullable integer or unit enum in the value that the nullable type has no room for. -/
def Codec.Refused : {α : Type} → Codec α → α → Prop
  | _, .vec item _, v | _, .array item _ _, v => ∃ a ∈ v.1, item.Refused a
  | _, .nullable _, none => False
  | _, .nullable c, some v => c.NullableRefused v
  | _, .dataEnum _ variants, v => variants.Refused v
  | _, .struct _ _ fields, v => fields.Refused v
  | _, .int _, _ | _, .nonZero _, _ | _, .bool, _ | _, .octets, _ | _, .octetsOwned _ _, _ | _, .utf8, _
  | _, .utf8Owned _ _, _ | _, .unitEnum _ _, _ => False

def Codec.NullableRefused : {α : Type} → Codec α → α → Prop
  | _, .int k, v => v = k.reserved
  | _, .nonZero k, v => v.1 = k.reserved
  | _, .unitEnum _ variants, v => (variants.get v).discriminant = BitVec.allOnes _
  | _, c, v => c.Refused v

def Fields.Refused : {α : Type} → Fields α → α → Prop
  | _, .nil, _ => False
  | _, .cons _ c rest, (a, b) => c.Refused a ∨ rest.Refused b
  | _, .optional _ _ _ rest, (none, b) => rest.Refused b
  | _, .optional _ _ c rest, (some a, b) => c.Refused a ∨ rest.Refused b

def Variants.Refused : {α : Type} → Variants α → α → Prop
  | _, .cons _ c _, .inl a => c.Refused a
  | _, .cons _ _ rest, .inr b => rest.Refused b

end

mutual

/-- The value has no derived list in it, and no string of `2 ^ 32` bytes or more. -/
def Codec.Plain : {α : Type} → Codec α → α → Prop
  | _, .octets, v | _, .octetsOwned _ _, v => v.1.length < 2 ^ 32
  | _, .utf8, v | _, .utf8Owned _ _, v => (utf8Bytes v.1).length < 2 ^ 32
  | _, .vec item _, v | _, .array item _ _, v => ∀ a ∈ v.1, item.Plain a
  | _, .nullable _, none => True
  | _, .nullable c, some v => c.Plain v
  | _, .dataEnum _ variants, v => variants.Plain v
  | _, .struct kind _ fields, v => kind ≠ .list ∧ fields.Plain v
  | _, .int _, _ | _, .nonZero _, _ | _, .bool, _ | _, .unitEnum _ _, _ => True

def Fields.Plain : {α : Type} → Fields α → α → Prop
  | _, .nil, _ => True
  | _, .cons _ c rest, (a, b) => c.Plain a ∧ rest.Plain b
  | _, .optional _ _ _ rest, (none, b) => rest.Plain b
  | _, .optional _ _ c rest, (some a, b) => c.Plain a ∧ rest.Plain b

def Variants.Plain : {α : Type} → Variants α → α → Prop
  | _, .cons _ c _, .inl a => c.Plain a
  | _, .cons _ _ rest, .inr b => rest.Plain b

end

/-- The tree is missing exactly if the value is refused, and plain exactly if the value is. -/
structure Judged {α : Type} (out : Option α) (treePlain : α → Prop) (refused plain : Prop) : Prop where
  none : out = none ↔ refused
  some (t : α) : out = some t → (treePlain t ↔ plain)

namespace Judged

variable {out : Option (TLVTree LeafCall)} {outs : Option (List (TLVTree LeafCall))}
  {refused refused' plain plain' : Prop}

theorem leaf (tag : TLVTag) {call : LeafCall} (h : ¬ call.value.IsLong ↔ plain) :
    Judged (Option.some (TLVTree.leaf tag call)) TLVTree.Plain False plain := by
  refine ⟨iff_of_false nofun id, fun t ht => ?_⟩
  obtain rfl := Option.some.inj ht
  rw [TLVTree.Plain, h]

theorem ite {p : Prop} [Decidable p] (h : Judged out TLVTree.Plain False plain) :
    Judged (if ¬ p then out else Option.none) TLVTree.Plain p plain := by
  by_cases hp : p
  · rw [if_neg (not_not_intro hp)]
    exact ⟨iff_of_true rfl hp, nofun⟩
  · rw [if_pos hp]
    exact ⟨h.none.trans (iff_of_false id hp), h.some⟩

theorem container (tag : TLVTag) (kind : ContainerType) (h : Judged outs PlainMembers refused plain) :
    Judged (outs.map (.node tag kind)) TLVTree.Plain refused (kind ≠ .list ∧ plain) := by
  refine ⟨Option.map_eq_none_iff.trans h.none, fun t ht => ?_⟩
  obtain ⟨ts, hts, rfl⟩ := Option.map_eq_some_iff.mp ht
  rw [TLVTree.Plain, h.some ts hts]

theorem field (h : Judged out TLVTree.Plain refused plain) (h' : Judged outs PlainMembers refused' plain') :
    Judged (do
      let t ← out
      let ts ← outs
      Option.some (t :: ts)) PlainMembers (refused ∨ refused') (plain ∧ plain') := by
  cases out with
  | none => exact ⟨iff_of_true rfl (.inl (h.none.mp rfl)), nofun⟩
  | some t =>
    have hno : ¬ refused := fun hr => nomatch h.none.mpr hr
    cases outs with
    | none => exact ⟨iff_of_true rfl (.inr (h'.none.mp rfl)), nofun⟩
    | some ts =>
      have hno' : ¬ refused' := fun hr => nomatch h'.none.mpr hr
      refine ⟨iff_of_false nofun (fun hr => hr.elim hno hno'), fun us hus => ?_⟩
      obtain rfl := Option.some.inj hus
      rw [PlainMembers, h.some t rfl, h'.some ts rfl]

theorem mapM {α : Type} {g : α → Option (TLVTree LeafCall)} {r p : α → Prop}
    (h : ∀ a, Judged (g a) TLVTree.Plain (r a) (p a)) (l : List α) :
    Judged (l.mapM g) PlainMembers (∃ a ∈ l, r a) (∀ a ∈ l, p a) := by
  induction l with
  | nil =>
    refine ⟨iff_of_false nofun (by simp), fun ts hts => ?_⟩
    obtain rfl := Option.some.inj hts
    exact iff_of_true trivial (by simp)
  | cons a l ih =>
    rw [List.mapM_cons, List.exists_mem_cons_iff, List.forall_mem_cons]
    exact (h a).field ih

end Judged

theorem not_isLong_call (k : IntKind) (v : BitVec k.width) : ¬ (k.call v).value.IsLong := by
  simp only [IntKind.call]
  cases k with
  | i8 | u8 => rintro (h | h) <;> cases h
  | i16 =>
    simp only [LeafCall.value, TLVValue.ofI16]
    split_ifs <;> rintro (h | h) <;> cases h
  | u16 =>
    simp only [LeafCall.value, TLVValue.ofU16]
    split_ifs <;> rintro (h | h) <;> cases h
  | i32 =>
    simp only [LeafCall.value, TLVValue.ofI32, TLVValue.ofI16]
    split_ifs <;> rintro (h | h) <;> cases h
  | u32 =>
    simp only [LeafCall.value, TLVValue.ofU32, TLVValue.ofU16]
    split_ifs <;> rintro (h | h) <;> cases h
  | i64 =>
    simp only [LeafCall.value, TLVValue.ofI64, TLVValue.ofI32, TLVValue.ofI16]
    split_ifs <;> rintro (h | h) <;> cases h
  | u64 =>
    simp only [LeafCall.value, TLVValue.ofU64, TLVValue.ofU32, TLVValue.ofU16]
    split_ifs <;> rintro (h | h) <;> cases h

theorem not_isLong_ofStr (a : List UInt8) : ¬ (TLVValue.ofStr a).IsLong ↔ a.length < 2 ^ 32 := by
  rw [TLVValue.ofStr]
  split_ifs with h₁ h₂ h₃
  · exact iff_of_true (by rintro (h | h) <;> cases h) (by omega)
  · exact iff_of_true (by rintro (h | h) <;> cases h) (by omega)
  · exact iff_of_true (by rintro (h | h) <;> cases h) (by omega)
  · exact iff_of_false (fun h => h (.inr rfl)) (by omega)

theorem not_isLong_ofUtf8 (s : String) : ¬ (TLVValue.ofUtf8 s).IsLong ↔ (utf8Bytes s).length < 2 ^ 32 := by
  rw [TLVValue.ofUtf8]
  split_ifs with h₁ h₂ h₃
  · exact iff_of_true (by rintro (h | h) <;> cases h) (by omega)
  · exact iff_of_true (by rintro (h | h) <;> cases h) (by omega)
  · exact iff_of_true (by rintro (h | h) <;> cases h) (by omega)
  · exact iff_of_false (fun h => h (.inl rfl)) (by omega)

theorem judged_nullable {α : Type} (c : Codec α) (v : α) (tag : TLVTag)
    (h : Judged (treeOf c v tag) TLVTree.Plain (c.Refused v) (c.Plain v)) :
    Judged (nullableTreeOf c v tag) TLVTree.Plain (c.NullableRefused v) (c.Plain v) := by
  cases c with
  | int k | nonZero k | unitEnum k variants =>
    rw [treeOf, Codec.Refused] at h
    rw [nullableTreeOf, Codec.NullableRefused]
    exact h.ite
  | _ =>
    unfold nullableTreeOf Codec.NullableRefused
    exact h

mutual

/-- **The tree of a value**: when it is missing, and when it is plain. -/
theorem judged_treeOf : {α : Type} → (c : Codec α) → (v : α) → (tag : TLVTag) →
    Judged (treeOf c v tag) TLVTree.Plain (c.Refused v) (c.Plain v)
  | _, .int k, v, tag => by
    rw [treeOf, Codec.Refused, Codec.Plain]
    exact .leaf tag (iff_true_intro (not_isLong_call k v))
  | _, .nonZero k, v, tag => by
    rw [treeOf, Codec.Refused, Codec.Plain]
    exact .leaf tag (iff_true_intro (not_isLong_call k v.1))
  | _, .bool, v, tag => by
    rw [treeOf, Codec.Refused, Codec.Plain]
    exact .leaf tag (iff_true_intro (by cases v <;> exact nofun))
  | _, .octets, v, tag | _, .octetsOwned _ _, v, tag => by
    rw [treeOf, Codec.Refused, Codec.Plain]
    exact .leaf tag (not_isLong_ofStr v.1)
  | _, .utf8, v, tag | _, .utf8Owned _ _, v, tag => by
    rw [treeOf, Codec.Refused, Codec.Plain]
    exact .leaf tag (not_isLong_ofUtf8 v.1)
  | _, .vec item _, v, tag | _, .array item _ _, v, tag => by
    rw [treeOf, Codec.Refused, Codec.Plain]
    have hall := Judged.container tag .array (.mapM (fun a => judged_treeOf item a .anonymous) v.1)
    exact ⟨hall.none, fun t ht => (hall.some t ht).trans (and_iff_right nofun)⟩
  | _, .nullable c, none, tag => by
    rw [treeOf, Codec.Refused, Codec.Plain]
    exact .leaf tag (iff_true_intro nofun)
  | _, .nullable c, some v, tag => by
    rw [treeOf, Codec.Refused, Codec.Plain]
    exact judged_nullable c v tag (judged_treeOf c v tag)
  | _, .unitEnum k variants, v, tag => by
    rw [treeOf, Codec.Refused, Codec.Plain]
    exact .leaf tag (iff_true_intro (not_isLong_call k.int _))
  | _, .dataEnum naked variants, v, tag => by
    rw [treeOf, Codec.Refused, Codec.Plain]
    have hpayload := judged_payloadTreeOf variants v
    cases naked with
    | true => exact hpayload
    | false =>
      rw [if_neg Bool.false_ne_true]
      refine ⟨Option.map_eq_none_iff.trans hpayload.none, fun t ht => ?_⟩
      obtain ⟨u, hu, rfl⟩ := Option.map_eq_some_iff.mp ht
      rw [TLVTree.Plain, PlainMembers, PlainMembers, hpayload.some u hu, and_true]
      exact and_iff_right nofun
  | _, .struct kind _ fields, v, tag => by
    rw [treeOf, Codec.Refused, Codec.Plain]
    have hall := Judged.container tag kind.container (judged_fieldTreesOf fields v)
    refine ⟨hall.none, fun t ht => (hall.some t ht).trans (and_congr_left' ?_)⟩
    cases kind <;> decide

theorem judged_fieldTreesOf : {α : Type} → (fields : Fields α) → (v : α) →
    Judged (fieldTreesOf fields v) PlainMembers (fields.Refused v) (fields.Plain v)
  | _, .nil, _ => by
    rw [fieldTreesOf, Fields.Refused, Fields.Plain]
    refine ⟨iff_of_false nofun id, fun ts hts => ?_⟩
    obtain rfl := Option.some.inj hts
    exact Iff.rfl
  | _, .cons tag c rest, (a, b) => by
    rw [fieldTreesOf, Fields.Refused, Fields.Plain]
    exact (judged_treeOf c a (.context tag)).field (judged_fieldTreesOf rest b)
  | _, .optional _ tag c rest, (none, b) => by
    rw [fieldTreesOf, Fields.Refused, Fields.Plain]
    exact judged_fieldTreesOf rest b
  | _, .optional _ tag c rest, (some a, b) => by
    rw [fieldTreesOf, Fields.Refused, Fields.Plain]
    exact (judged_treeOf c a (.context tag)).field (judged_fieldTreesOf rest b)

theorem judged_payloadTreeOf : {α : Type} → (variants : Variants α) → (v : α) →
    Judged (payloadTreeOf variants v) TLVTree.Plain (variants.Refused v) (variants.Plain v)
  | _, .cons tag c _, .inl a => by
    rw [payloadTreeOf, Variants.Refused, Variants.Plain]
    exact judged_treeOf c a (.context tag)
  | _, .cons _ _ rest, .inr b => by
    rw [payloadTreeOf, Variants.Refused, Variants.Plain]
    exact judged_payloadTreeOf rest b

end

/-! ## The encoders agree, and when -/

theorem flattens_iff {items : List (Except ErrorCode TLV)} {bytes : List UInt8} :
    Flattens items bytes ↔
      ∃ tlvs : List TLV, items = tlvs.map .ok ∧ bytes = tlvs.flatMap TLV.pulled := by
  constructor
  · intro h
    induction h with
    | nil => exact ⟨[], rfl, rfl⟩
    | @cons tlv _ _ _ h _ ih =>
      obtain ⟨tlvs, rfl, rfl⟩ := ih
      exact ⟨tlv :: tlvs, rfl, by rw [TLV.gives_iff.mp h, List.flatMap_cons]⟩
  · rintro ⟨tlvs, rfl, rfl⟩
    induction tlvs with
    | nil => exact .nil
    | cons tlv tlvs ih => exact .cons tlv.gives_pulled ih

theorem Lists.flattens_iff {items : List (Except ErrorCode TLV)} {out : Option (TLVTree LeafCall)}
    (h : Lists items (out.map TLVTree.tlvs)) {bytes : List UInt8} :
    Flattens items bytes ↔ ∃ t, out = some t ∧ bytes = t.tlvs.flatMap TLV.pulled := by
  rw [RsMatter.flattens_iff]
  cases out with
  | none =>
    obtain ⟨e, he⟩ := h
    refine iff_of_false ?_ (fun ⟨_, h, _⟩ => nomatch h)
    rintro ⟨tlvs, rfl, -⟩
    obtain ⟨_, _, h⟩ := List.mem_map.mp he
    cases h
  | some t =>
    obtain rfl : items = t.tlvs.map .ok := h
    constructor
    · rintro ⟨tlvs, htlvs, rfl⟩
      exact ⟨t, rfl, by rw [List.map_injective_iff.mpr (fun _ _ h => Except.ok.inj h) htlvs]⟩
    · rintro ⟨u, hu, rfl⟩
      obtain rfl := Option.some.inj hu
      exact ⟨t.tlvs, rfl, rfl⟩

/-- **Two encoders.** The iterator over the bytes of a tag with a value gives what the write method appends
exactly unless the value is a string with a length field of eight bytes; the iterator over a value of a type
with a codec gives what its writer appends exactly if both refuse it or it is plain. -/
theorem encoders_agree_iff (tlv : TLV) {α : Type} (c : Codec α) (v : α) (tag : TLVTag) :
    ((∀ bytes, tlv.Gives bytes ↔ Writes (·.tlv tlv.tag tlv.value) bytes) ↔
      ¬ (tlv.value.valueType = .utf64l ∨ tlv.value.valueType = .str64l)) ∧
    ((∀ bytes, Flattens (tlvIter c v tag) bytes ↔ Writes (toTlv c v tag).write bytes) ↔
      c.Refused v ∨ c.Plain v) := by
  constructor
  · simp only [TLV.gives_iff, writes_tlv_iff]
    refine Iff.trans ?_ tlv.pulled_eq_iff
    exact ⟨fun h => (h tlv.pulled).mp rfl, fun h bytes => by rw [h]⟩
  · have hjudged := judged_treeOf c v tag
    simp only [(emits_toTlv c v tag).writes_iff, (lists_tlvIter c v tag).flattens_iff]
    cases ht : treeOf c v tag with
    | none =>
      refine iff_of_true (fun bytes => iff_of_false (fun ⟨_, h, _⟩ => nomatch h) nofun) (.inl ?_)
      exact hjudged.none.mp ht
    | some t =>
      have hno : ¬ c.Refused v := fun h => nomatch ht.symm.trans (hjudged.none.mpr h)
      rw [or_iff_right hno, ← hjudged.some t ht, ← (flatMap_tlvs t).2]
      constructor
      · intro h
        exact (Option.some.inj ((h _).mp ⟨t, rfl, rfl⟩)).symm
      · intro h bytes
        constructor
        · rintro ⟨u, hu, rfl⟩
          obtain rfl := Option.some.inj hu
          exact congrArg some h.symm
        · intro hbytes
          exact ⟨t, rfl, (Option.some.inj hbytes).symm.trans h.symm⟩

/-- Of an empty string with a length field of eight bytes the iterator gives no length, and it starts an empty
derived list as a structure. -/
theorem encoders_differ :
    (¬ ∀ (tlv : TLV) (bytes : List UInt8), tlv.Gives bytes ↔ Writes (·.tlv tlv.tag tlv.value) bytes) ∧
    ¬ ∀ {α : Type} (c : Codec α), c.derived = true → ∀ (v : α) (tag : TLVTag) (bytes : List UInt8),
      Flattens (tlvIter c v tag) bytes ↔ Writes (toTlv c v tag).write bytes := by
  constructor
  · intro h
    have hwrites := (h ⟨.anonymous, .str64l []⟩ _).mp (TLV.gives_pulled _)
    have hbytes := writes_tlv_iff.mp hwrites
    exact absurd hbytes (by decide)
  · intro h
    have hgives : Flattens (tlvIter (.struct .list false .nil) () .anonymous) [0x15, 0x18] := by
      rw [tlvIter, fieldsTlvIter]
      exact flattens_iff.mpr ⟨[⟨.anonymous, .struct⟩, ⟨.anonymous, .endCnt⟩], rfl, by decide⟩
    have hwrites := (h (.struct .list false .nil) rfl () .anonymous _).mp hgives
    have hbytes := (emits_toTlv ..).writes_iff.mp hwrites
    rw [treeOf, fieldTreesOf] at hbytes
    exact absurd hbytes (by decide)

end RsMatter
