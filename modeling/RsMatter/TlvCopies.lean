import RsMatter.TlvEncoders

/-!
# Copies of an element (`tlv/traits.rs`, `tlv/read.rs`)

An element is copied by `to_tlv`, which writes its control byte, a tag and its value, and by `tlv_iter`, which
gives it token by token. The value of a string is without its length field, which `to_tlv` leaves out. The
iterator over the tokens of a container does not count the first token if it starts a container, and it stops
at the first end marker: it comes to the end of no container with members.
-/

namespace RsMatter

open Stop TLVSequence

/-! ## The iterator over an element -/

inductive TLVElementTLVIter where
  | start (tag : TLVTag) (elem : List UInt8)
  | seq (iter : TLVSequenceTLVIter)
  | finished

namespace TLVElementTLVIter

/-- `TLVElement::container`, with or without overflow checks. -/
def container (checks : Bool) (elem : List UInt8) : Except (Stop ErrorCode) (List UInt8) :=
  if checks then Checked.container .width64 elem else Panicking.container elem

/-- `TLVElementTLVIter::next`. -/
def next (checks : Bool) : TLVElementTLVIter →
    Except (Stop ErrorCode) (Option (Except ErrorCode TLV) × TLVElementTLVIter)
  | .start tag elem =>
    if elem.isEmpty then .ok (none, .finished)
    else do
      let value ← attempt (TLVSequenceTLVIter.value checks elem)
      let seq ← attempt (container checks elem)
      return (some (value.map (TLV.mk tag)), match seq with
        | .ok seq => .seq (.new seq)
        | .error _ => .finished)
  | .seq iter => do
    let (item, iter) ← iter.next checks
    match item with
    | some item => return (some item, .seq iter)
    | none => return (some (.ok ⟨.anonymous, .endCnt⟩), .finished)
  | .finished => .ok (none, .finished)

end TLVElementTLVIter

/-- With overflow checks, both ways copy an element with its own tag byte for byte, whatever follows it. The
iterator gives no error, and its counter does not underflow. -/
def Copied (e rest : List UInt8) : Prop :=
  ∃ tag, TLVElement.tag (e ++ rest) = .ok tag ∧
    (∀ wb, TLVElement.toTlv wb tag (e ++ rest) = wb.writeRawData e) ∧
    ∃ items, Yields (TLVElementTLVIter.next true) (.start tag (e ++ rest)) items ∧ Flattens items e

/-- An element that is copied: a number, a constant, or a container without members. -/
def Copyable (e : List UInt8) : Prop :=
  (∃ c, Token e c ∧ c.valueType.isContainer = false ∧ c.valueType.isStr = false ∧
    c.valueType.isUtf8 = false) ∨
  ∃ head, IsStart head ∧ e = head ++ [endMarker]

/-! ## Bytes of tokens -/

section Tokens

variable {e rest : List UInt8} {c : TLVControl}

theorem toLE_ofNat_ofLE {l : List UInt8} {w n : ℕ} (hl : l.length = w) (hn : 8 * w = n) :
    toLE w (BitVec.ofNat n (ofLE l)).toNat = l := by
  subst hl hn
  have hlt := ofLE_lt l
  rw [BitVec.toNat_ofNat, Nat.pow_mul, Nat.mod_eq_of_lt hlt, toLE_ofLE]

theorem exists_tag_bytes (t : TLVTagType) {l : List UInt8} (hl : l.length = t.size) :
    ∃ tag : TLVTag, tag.tagType = t ∧ tag.bytes = l := by
  have hfour : ∀ n, l.length = 4 + n → (l.take 2).length = 2 ∧ ((l.drop 2).take 2).length = 2 ∧
      (l.drop 4).length = n ∧ l.take 2 ++ ((l.drop 2).take 2 ++ l.drop 4) = l := by
    intro n hn
    refine ⟨?_, ?_, ?_, ?_⟩
    · rw [List.length_take]
      omega
    · rw [List.length_take, List.length_drop]
      omega
    · rw [List.length_drop]
      omega
    · have hdrop : l.drop 4 = (l.drop 2).drop 2 := by rw [List.drop_drop]
      rw [hdrop, List.take_append_drop, List.take_append_drop]
  cases t with
  | anonymous => exact ⟨.anonymous, rfl, (List.eq_nil_of_length_eq_zero hl).symm⟩
  | context => exact ⟨.context _, rfl, toLE_ofNat_ofLE hl rfl⟩
  | commonPrf16 => exact ⟨.commonPrf16 _, rfl, toLE_ofNat_ofLE hl rfl⟩
  | commonPrf32 => exact ⟨.commonPrf32 _, rfl, toLE_ofNat_ofLE hl rfl⟩
  | implPrf16 => exact ⟨.implPrf16 _, rfl, toLE_ofNat_ofLE hl rfl⟩
  | implPrf32 => exact ⟨.implPrf32 _, rfl, toLE_ofNat_ofLE hl rfl⟩
  | fullQual48 =>
    obtain ⟨h₁, h₂, h₃, h₄⟩ := hfour 2 hl
    refine ⟨.fullQual48 (BitVec.ofNat 16 (ofLE (l.take 2))) (BitVec.ofNat 16 (ofLE ((l.drop 2).take 2)))
      (BitVec.ofNat 16 (ofLE (l.drop 4))), rfl, ?_⟩
    rw [TLVTag.bytes, toLE_ofNat_ofLE h₁ rfl, toLE_ofNat_ofLE h₂ rfl, toLE_ofNat_ofLE h₃ rfl, h₄]
  | fullQual64 =>
    obtain ⟨h₁, h₂, h₃, h₄⟩ := hfour 4 hl
    refine ⟨.fullQual64 (BitVec.ofNat 16 (ofLE (l.take 2))) (BitVec.ofNat 16 (ofLE ((l.drop 2).take 2)))
      (BitVec.ofNat 32 (ofLE (l.drop 4))), rfl, ?_⟩
    rw [TLVTag.bytes, toLE_ofNat_ofLE h₁ rfl, toLE_ofNat_ofLE h₂ rfl, toLE_ofNat_ofLE h₃ rfl, h₄]

theorem exists_value_payload {t : TLVValueType} {n : ℕ} (ht : t.fixedSize = some n) {l : List UInt8}
    (hl : l.length = n) : ∃ v : TLVValue, v.valueType = t ∧ v.payload = l := by
  have hlen (m : ℕ) (h : some m = some n) : l.length = m := hl.trans (Option.some.inj h).symm
  have hnil (h : (some 0 : Option ℕ) = some n) : [] = l := by
    obtain rfl := Option.some.inj h
    exact (List.eq_nil_of_length_eq_zero hl).symm
  cases t with
  | s8 => exact ⟨.s8 _, rfl, toLE_ofNat_ofLE (hlen 1 ht) rfl⟩
  | s16 => exact ⟨.s16 _, rfl, toLE_ofNat_ofLE (hlen 2 ht) rfl⟩
  | s32 => exact ⟨.s32 _, rfl, toLE_ofNat_ofLE (hlen 4 ht) rfl⟩
  | s64 => exact ⟨.s64 _, rfl, toLE_ofNat_ofLE (hlen 8 ht) rfl⟩
  | u8 => exact ⟨.u8 _, rfl, toLE_ofNat_ofLE (hlen 1 ht) rfl⟩
  | u16 => exact ⟨.u16 _, rfl, toLE_ofNat_ofLE (hlen 2 ht) rfl⟩
  | u32 => exact ⟨.u32 _, rfl, toLE_ofNat_ofLE (hlen 4 ht) rfl⟩
  | u64 => exact ⟨.u64 _, rfl, toLE_ofNat_ofLE (hlen 8 ht) rfl⟩
  | f32 => exact ⟨.f32 _, rfl, toLE_ofNat_ofLE (hlen 4 ht) rfl⟩
  | f64 => exact ⟨.f64 _, rfl, toLE_ofNat_ofLE (hlen 8 ht) rfl⟩
  | «false» => exact ⟨.false, rfl, hnil ht⟩
  | «true» => exact ⟨.true, rfl, hnil ht⟩
  | null => exact ⟨.null, rfl, hnil ht⟩
  | struct => exact ⟨.struct, rfl, hnil ht⟩
  | array => exact ⟨.array, rfl, hnil ht⟩
  | list => exact ⟨.list, rfl, hnil ht⟩
  | endCnt => exact ⟨.endCnt, rfl, hnil ht⟩
  | _ => cases ht

theorem asRaw_of_parse {byte : UInt8} (h : TLVControl.parse byte = .ok c) : c.asRaw = byte := by
  have hall : ∀ n < 256, (TLVControl.parse (UInt8.ofNat n)).toOption.all (·.asRaw == UInt8.ofNat n) := by
    decide +kernel
  have hbyte := hall byte.toNat byte.toNat_lt
  rw [UInt8.ofNat_toNat, h] at hbyte
  exact eq_of_beq hbyte

theorem TLVSequence.Token.parts (h : Token e c) : ∃ tag : TLVTag, ∃ field data,
    tag.tagType = c.tagType ∧ valueLen e c = .ok data.length ∧
      field.length = c.valueType.variableSizeLen ∧ e = c.asRaw :: (tag.bytes ++ (field ++ data)) := by
  obtain ⟨c', n, hc', hn, hlen⟩ := len_eq_ok.mp h.len
  obtain rfl : c = c' := Except.ok.inj (h.control.symm.trans hc')
  cases e with
  | nil => cases hc'
  | cons byte e =>
    rw [List.length_cons] at hlen
    have htagLen : (e.take c.tagType.size).length = c.tagType.size := by
      rw [List.length_take]
      omega
    obtain ⟨tag, htag, hbytes⟩ := exists_tag_bytes c.tagType htagLen
    refine ⟨tag, (e.drop c.tagType.size).take c.valueType.variableSizeLen,
      (e.drop c.tagType.size).drop c.valueType.variableSizeLen, htag, ?_, ?_, ?_⟩
    · rw [hn, List.length_drop, List.length_drop]
      exact congrArg _ (by omega)
    · rw [List.length_take, List.length_drop]
      omega
    · rw [asRaw_of_parse h.control, hbytes, List.take_append_drop, List.take_append_drop]

/-- **A token that is no string** is the element of a tag and a value. -/
theorem TLVSequence.Token.exists_elem (h : Token e c) (hsize : c.valueType.fixedSize ≠ none) :
    ∃ tag v, v.valueType = c.valueType ∧ e = elemBytes tag v := by
  obtain ⟨tag, field, data, htag, hlen, hfield, rfl⟩ := h.parts
  obtain ⟨n, hn⟩ := Option.ne_none_iff_exists'.mp hsize
  have hdata : data.length = n := by
    rw [valueLen, hn] at hlen
    exact (Except.ok.inj hlen).symm
  obtain ⟨v, hv, rfl⟩ := exists_value_payload hn hdata
  have hnil : field = [] := by
    refine List.eq_nil_of_length_eq_zero (hfield.trans ?_)
    rw [← hv] at hn ⊢
    exact (TLVValue.fixedSize_eq hn).2
  refine ⟨tag, v, hv, ?_⟩
  rw [elemBytes, TLVValue.lenField, hv, hn, hnil, htag]

end Tokens

/-! ## Reading a token -/

section Reading

variable {e rest seq slice : List UInt8} {c : TLVControl} {tag : TLVTag} {v : TLVValue}

theorem tagType_of_tag (hc : control seq = .ok c) (h : TLVElement.tag seq = .ok tag) :
    tag.tagType = c.tagType := by
  rw [TLVElement.tag, hc, ok_bind] at h
  obtain ⟨data, -, h⟩ := Prog.except_bind_eq_ok.mp h
  obtain ⟨slice, -, h⟩ := Prog.except_bind_eq_ok.mp h
  obtain ⟨tagType, valueType⟩ := c
  cases tagType <;> exact (congrArg TLVTag.tagType (Except.ok.inj h)).symm

theorem valueType_of_valueOf {t : TLVValueType} (h : Checked.valueOf slice t = .ok v) : v.valueType = t := by
  cases t with
  | «false» | «true» | null | struct | array | list | endCnt | str8l | str16l | str32l | str64l =>
    exact (congrArg TLVValue.valueType (Except.ok.inj h)).symm
  | _ =>
    obtain ⟨x, -, h⟩ := Prog.except_bind_eq_ok.mp h
    exact (congrArg TLVValue.valueType (Except.ok.inj h)).symm

theorem payload_of_valueOf {t : TLVValueType} (ht : t.fixedSize = none)
    (h : Checked.valueOf slice t = .ok v) : v.payload = slice := by
  cases t with
  | str8l | str16l | str32l | str64l => exact (congrArg TLVValue.payload (Except.ok.inj h)).symm
  | utf8l | utf16l | utf32l | utf64l =>
    obtain ⟨text, htext, h⟩ := Prog.except_bind_eq_ok.mp h
    rw [← Except.ok.inj h]
    exact Checked.utf8Bytes_of_fromUtf8 (Checked.lift_eq_ok.mp htext)
  | _ => cases ht

theorem valueOf_payload (hsize : v.valueType.fixedSize ≠ none) :
    Checked.valueOf v.payload v.valueType = .ok v := by
  have hnumber (n m : ℕ) (f : BitVec (8 * n) → TLVValue) :
      (Checked.number n (toLE n m) >>= fun x => .ok (f x)) =
        .ok (f (BitVec.ofNat (8 * n) (ofLE (toLE n m)))) := by
    rw [Checked.number_of_length (length_toLE ..), ok_bind]
  cases v with
  | s8 x => exact (hnumber 1 _ .s8).trans (congrArg (Except.ok ∘ _) (ofNat_ofLE_toLE 1 rfl x))
  | s16 x => exact (hnumber 2 _ .s16).trans (congrArg (Except.ok ∘ _) (ofNat_ofLE_toLE 2 rfl x))
  | s32 x => exact (hnumber 4 _ .s32).trans (congrArg (Except.ok ∘ _) (ofNat_ofLE_toLE 4 rfl x))
  | s64 x => exact (hnumber 8 _ .s64).trans (congrArg (Except.ok ∘ _) (ofNat_ofLE_toLE 8 rfl x))
  | u8 x => exact (hnumber 1 _ .u8).trans (congrArg (Except.ok ∘ _) (ofNat_ofLE_toLE 1 rfl x))
  | u16 x => exact (hnumber 2 _ .u16).trans (congrArg (Except.ok ∘ _) (ofNat_ofLE_toLE 2 rfl x))
  | u32 x => exact (hnumber 4 _ .u32).trans (congrArg (Except.ok ∘ _) (ofNat_ofLE_toLE 4 rfl x))
  | u64 x => exact (hnumber 8 _ .u64).trans (congrArg (Except.ok ∘ _) (ofNat_ofLE_toLE 8 rfl x))
  | f32 x => exact (hnumber 4 _ .f32).trans (congrArg (Except.ok ∘ _) (ofNat_ofLE_toLE 4 rfl x))
  | f64 x => exact (hnumber 8 _ .f64).trans (congrArg (Except.ok ∘ _) (ofNat_ofLE_toLE 8 rfl x))
  | utf8l | utf16l | utf32l | utf64l | str8l | str16l | str32l | str64l => exact absurd rfl hsize
  | _ => rfl

/-- **The bytes of an item** that a token is read as are no more than those of the token. -/
theorem length_pulled_le (he : Token e c) (htag : TLVElement.tag (e ++ rest) = .ok tag)
    (hv : Checked.value .width64 (e ++ rest) = .ok v) : (TLV.mk tag v).pulled.length ≤ e.length := by
  have hc := control_append he.control rest
  obtain ⟨c', n, hc', hn, hlen⟩ := len_eq_ok.mp he.len
  obtain rfl : c = c' := Except.ok.inj (he.control.symm.trans hc')
  rw [Checked.value, hc, lift_ok, ok_bind] at hv
  obtain ⟨slice, hslice, hv⟩ := Prog.except_bind_eq_ok.mp hv
  have htype := valueType_of_valueOf hv
  have hpayload : v.payload.length ≤ n := by
    cases hsize : c.valueType.fixedSize with
    | some m =>
      rw [valueLen, hsize] at hn
      obtain rfl := Except.ok.inj hn
      rw [← htype] at hsize
      exact (TLVValue.fixedSize_eq hsize).1.le
    | none =>
      have hleaf : c.valueType.isContainer = false := by
        obtain ⟨tagType, valueType⟩ := c
        cases valueType <;> first | rfl | cases hsize
      rw [payload_of_valueOf hsize hv]
      rw [Checked.containerValue, Checked.containerValueLen, hleaf, if_neg Bool.false_ne_true] at hslice
      obtain ⟨L, hL, hslice⟩ := Prog.except_bind_eq_ok.mp hslice
      obtain ⟨data, -, hslice⟩ := Prog.except_bind_eq_ok.mp hslice
      obtain ⟨-, rfl⟩ := sliceTo_eq_ok.mp (Checked.lift_eq_ok.mp hslice)
      obtain ⟨n', hn', rfl⟩ := (Checked.valueLen_eq_ok hc).mp hL
      obtain rfl : n = n' := Except.ok.inj ((valueLen_append hn rest).symm.trans hn')
      rw [Checked.asUsize, hsize, List.length_take]
      exact (Nat.min_le_left ..).trans (Nat.mod_le ..)
  have hpulled : v.pulled.length ≤ c.valueType.variableSizeLen + v.payload.length := by
    rw [TLVValue.pulled]
    split
    · exact Nat.zero_le _
    · rw [List.length_append, v.length_lenField, htype]
  rw [TLV.pulled, List.length_cons, List.length_append, tag.length_bytes, tagType_of_tag hc htag]
  simp only
  omega

end Reading

/-! ## The first end marker -/

section FirstEnd

variable {e rest tail : List UInt8} {c : TLVControl} {body : List UInt8} {tokens : List (List UInt8)}

open TLVSequenceTLVIter

theorem not_isToken_endMarker (more : List UInt8) {e : List UInt8} (he : IsToken e) (rest : List UInt8) :
    endMarker :: more ≠ e ++ rest := by
  intro h
  obtain ⟨c, htoken, hend⟩ := he
  have hc := control_append htoken.control rest
  rw [← h, control_endMarker] at hc
  obtain rfl := Except.ok.inj hc
  cases hend

theorem token_unique {e e' more more' : List UInt8} {c c' : TLVControl} (he : Token e c) (he' : Token e' c')
    (h : e ++ more = e' ++ more') : e = e' ∧ more = more' := by
  have hlen := len_append he.len more
  rw [h, len_append he'.len more'] at hlen
  exact List.append_inj h (Except.ok.inj hlen).symm

theorem exists_first (he : Token e c) (hend : c.valueType.isContainerEnd = false)
    (htokens : ∀ t ∈ tokens, IsToken t) (htail : AtEnd tail) (h : e ++ rest = tokens.flatten ++ tail) :
    ∃ ts, tokens = e :: ts ∧ rest = ts.flatten ++ tail := by
  cases tokens with
  | nil =>
    rcases htail with rfl | ⟨more, rfl⟩
    · exact absurd h (he.append_ne_nil rest)
    · exact absurd h.symm (not_isToken_endMarker more ⟨c, he, hend⟩ rest)
  | cons t ts =>
    obtain ⟨c', ht, -⟩ := htokens t List.mem_cons_self
    rw [List.flatten_cons, List.append_assoc] at h
    obtain ⟨rfl, hrest⟩ := token_unique he ht h
    exact ⟨ts, rfl, hrest⟩

/-- **The first end marker** from the members of a container is its own only if none of them has members or
could have. -/
theorem first_end (hbody : Elements body) {more : List UInt8} (htokens : ∀ t ∈ tokens, IsToken t)
    (htail : AtEnd tail) (h : body ++ endMarker :: more = tokens.flatten ++ tail) :
    tail ≠ [] ∧ ((tokens.flatten = body ∧ ∀ t ∈ tokens, IsLeaf t) ∨
      tokens.flatten.length < body.length) := by
  induction hbody generalizing more tokens tail with
  | nil =>
    cases tokens with
    | nil =>
      obtain rfl : endMarker :: more = tail := h
      exact ⟨List.cons_ne_nil _ _, .inl ⟨rfl, fun t ht => absurd ht List.not_mem_nil⟩⟩
    | cons t ts =>
      rw [List.flatten_cons, List.append_assoc] at h
      exact absurd h (not_isToken_endMarker more (htokens t List.mem_cons_self) _)
  | @leaf l body' he _ ih =>
    obtain ⟨c, htoken, hleaf⟩ := id he
    rw [List.append_assoc] at h
    obtain ⟨ts, rfl, hrest⟩ := exists_first htoken (isContainerEnd_of_leaf hleaf) htokens htail h
    obtain ⟨hne, hcases⟩ := ih (List.forall_mem_cons.mp htokens).2 htail hrest
    rcases hcases with ⟨hflat, hleaves⟩ | hlt
    · refine ⟨hne, .inl ⟨?_, List.forall_mem_cons.mpr ⟨he, hleaves⟩⟩⟩
      rw [List.flatten_cons, hflat]
    · refine ⟨hne, .inr ?_⟩
      rw [List.flatten_cons, List.length_append, List.length_append]
      exact Nat.add_lt_add_left hlt _
  | @container s inner body' he _ _ ihinner _ =>
    obtain ⟨c, htoken, hstart⟩ := he
    rw [List.append_assoc, List.append_assoc, List.cons_append] at h
    obtain ⟨ts, rfl, hrest⟩ := exists_first htoken (isContainerEnd_of_start hstart) htokens htail h
    obtain ⟨hne, hcases⟩ := ihinner (List.forall_mem_cons.mp htokens).2 htail hrest
    refine ⟨hne, .inr ?_⟩
    have hle : ts.flatten.length ≤ inner.length :=
      hcases.elim (fun ⟨hflat, _⟩ => (congrArg List.length hflat).le) le_of_lt
    simp only [List.flatten_cons, List.length_append, List.length_cons]
    omega

end FirstEnd

/-! ## The items of a container -/

section Items

variable {e rest tail bytes : List UInt8} {c : TLVControl} {tokens : List (List UInt8)}
  {items : List (Except ErrorCode TLV)}

open TLVSequenceTLVIter

theorem attempt_eq_ok {ε α : Type} {x : Except (Stop ε) α} {r : Except ε α} (h : attempt x = .ok r) :
    x = match r with
      | .ok a => .ok a
      | .error err => .error (.error err) := by
  cases x with
  | ok a =>
    obtain rfl := Except.ok.inj h
    rfl
  | error stop =>
    cases stop with
    | error err =>
      obtain rfl := Except.ok.inj h
      rfl
    | panic => cases h

/-- Behind the tokens of a container, the iterator over the element gives the end. -/
theorem yields_seq {checks : Bool} {it : TLVSequenceTLVIter}
    (h : Yields (TLVElementTLVIter.next checks) (.seq it) items) :
    ∃ inner, Yields (TLVSequenceTLVIter.next checks) it inner ∧
      items = inner ++ [.ok ⟨.anonymous, .endCnt⟩] := by
  generalize hs : TLVElementTLVIter.seq it = s at h
  induction h generalizing it with
  | @done s s' h =>
    subst hs
    obtain ⟨⟨item, it'⟩, -, h⟩ := Prog.except_bind_eq_ok.mp h
    cases item <;> cases h
  | @step s s' item items h hrest ih =>
    subst hs
    obtain ⟨⟨item', it'⟩, hnext, h⟩ := Prog.except_bind_eq_ok.mp h
    cases item' with
    | some item' =>
      obtain ⟨hitem, rfl⟩ := Prod.mk.inj (Except.ok.inj h)
      obtain rfl := Option.some.inj hitem
      obtain ⟨inner, hinner, rfl⟩ := ih rfl
      exact ⟨item' :: inner, .step hnext hinner, rfl⟩
    | none =>
      obtain ⟨hitem, rfl⟩ := Prod.mk.inj (Except.ok.inj h)
      obtain rfl := Option.some.inj hitem
      have hend : Yields (TLVElementTLVIter.next checks) .finished [] := .done rfl
      exact ⟨[], .done hnext, by rw [hrest.unique hend]; rfl⟩

/-- **Tokens up to an end** give no more bytes than they have. -/
theorem length_le_of_flattens (htokens : ∀ t ∈ tokens, IsToken t) (htail : AtEnd tail) {nesting : ℕ}
    (h : Yields (TLVSequenceTLVIter.next true) ⟨tokens.flatten ++ tail, nesting⟩ items)
    (hbytes : Flattens items bytes) : bytes.length ≤ tokens.flatten.length := by
  induction tokens generalizing nesting items bytes with
  | nil =>
    have hnone : Yields (TLVSequenceTLVIter.next true) ⟨tail, nesting⟩ [] :=
      .done (next_atEnd htail nesting)
    obtain rfl := h.unique hnone
    cases hbytes
    exact le_rfl
  | cons t ts ih =>
    obtain ⟨⟨c, ht, hend⟩, hts⟩ := List.forall_mem_cons.mp htokens
    have hc := control_append ht.control (ts.flatten ++ tail)
    rw [List.flatten_cons, List.append_assoc] at h
    cases hbytes with
    | nil => exact Nat.zero_le _
    | @cons tlv chunk more items hchunk hmore =>
      cases h with
      | @step _ s' _ _ hnext hs =>
        rw [next_token hc hend, ht.nextEnter] at hnext
        dsimp only at hnext
        cases hcontrol : control (ts.flatten ++ tail) with
        | error err =>
          rw [hcontrol] at hnext
          cases hnext
        | ok c' =>
          rw [hcontrol] at hnext
          dsimp only at hnext
          rcases henter : enter true c' nesting with (err | _) | nesting'
          · rw [henter] at hnext
            cases hnext
          · rw [henter] at hnext
            cases hnext
          · rw [henter] at hnext
            cases htlv : TLVSequenceTLVIter.tlv true (t ++ (ts.flatten ++ tail)) with
            | error stop =>
              rw [htlv] at hnext
              cases stop <;> cases hnext
            | ok tlv' =>
              rw [htlv] at hnext
              obtain ⟨hitem, rfl⟩ := Prod.mk.inj (Except.ok.inj hnext)
              obtain rfl : tlv' = tlv := Except.ok.inj (Option.some.inj hitem)
              obtain rfl := TLV.gives_iff.mp hchunk
              obtain ⟨tag, htag, htlv⟩ := Prog.except_bind_eq_ok.mp htlv
              obtain ⟨v, hv, htlv⟩ := Prog.except_bind_eq_ok.mp htlv
              obtain rfl := Except.ok.inj htlv
              rw [Checked.tag_eq] at htag
              rw [List.flatten_cons, List.length_append, List.length_append]
              exact Nat.add_le_add (length_pulled_le ht (Checked.lift_eq_ok.mp htag) hv) (ih hts hs hmore)

end Items

/-! ## What is copied -/

section Copied

variable {e rest head body : List UInt8} {c : TLVControl}

open TLVSequenceTLVIter

theorem yields_start (hhead : IsStart head) (rest : List UInt8) {tag : TLVTag}
    (htag : TLVElement.tag (head ++ rest) = .ok tag) {items : List (Except ErrorCode TLV)}
    (h : Yields (TLVElementTLVIter.next true) (.start tag (head ++ rest)) items) {bytes : List UInt8}
    (hbytes : Flattens items bytes) : ∃ chunk more inner, bytes = chunk ++ more ∧
      chunk.length ≤ head.length ∧ Yields (TLVSequenceTLVIter.next true) (.new rest) inner ∧
      Flattens (inner ++ [.ok ⟨.anonymous, .endCnt⟩]) more := by
  obtain ⟨c, hc, hstart⟩ := hhead
  have hcontrol := control_append hc.control rest
  have hcontainer : TLVElementTLVIter.container true (head ++ rest) = .ok rest := by
    rw [TLVElementTLVIter.container, if_pos rfl, Checked.container, hcontrol, lift_ok, ok_bind, if_pos hstart]
    exact hc.tok.nextEnter rest
  have hempty : (head ++ rest).isEmpty = false := isEmpty_of_ne_nil (hc.append_ne_nil rest)
  cases h with
  | done h =>
    rw [TLVElementTLVIter.next, hempty, if_neg Bool.false_ne_true, hcontainer] at h
    obtain ⟨value, -, h⟩ := Prog.except_bind_eq_ok.mp h
    cases h
  | @step _ s' item items h hs =>
    rw [TLVElementTLVIter.next, hempty, if_neg Bool.false_ne_true, hcontainer] at h
    obtain ⟨value, hvalue, h⟩ := Prog.except_bind_eq_ok.mp h
    obtain ⟨hitem, rfl⟩ := Prod.mk.inj (Except.ok.inj h)
    obtain rfl := Option.some.inj hitem
    obtain ⟨inner, hinner, rfl⟩ := yields_seq hs
    have hread := attempt_eq_ok hvalue
    cases value with
    | error err => cases hbytes
    | ok v =>
      cases hbytes with
      | cons hchunk hmore =>
        obtain rfl := TLV.gives_iff.mp hchunk
        exact ⟨_, _, inner, rfl, length_pulled_le hc htag hread, hinner, hmore⟩

theorem flattens_append {items items' : List (Except ErrorCode TLV)} {bytes : List UInt8}
    (h : Flattens (items ++ items') bytes) :
    ∃ before after, Flattens items before ∧ Flattens items' after ∧ bytes = before ++ after := by
  induction items generalizing bytes with
  | nil => exact ⟨[], bytes, .nil, h, rfl⟩
  | cons item items ih =>
    cases h with
    | @cons tlv chunk _ _ hchunk hrest =>
      obtain ⟨before, after, hbefore, hafter, rfl⟩ := ih hrest
      exact ⟨chunk ++ before, after, .cons hchunk hbefore, hafter, (List.append_assoc ..).symm⟩

/-- **A container with members** is not copied by its iterator: either its counter underflows, or it stops at
the end marker of a member. -/
theorem not_copied_of_members (hhead : IsStart head) (hbody : Elements body) (hne : body ≠ []) :
    ¬ Copied (head ++ (body ++ [endMarker])) rest := by
  rintro ⟨tag, htag, -, items, hitems, hbytes⟩
  have happend : head ++ (body ++ [endMarker]) ++ rest = head ++ (body ++ endMarker :: rest) := by
    rw [List.append_assoc, List.append_assoc]
    rfl
  rw [happend] at htag hitems
  obtain ⟨chunk, more, inner, heq, hchunk, hinner, hmore⟩ := yields_start hhead _ htag hitems hbytes
  obtain ⟨tokens, tail, htokens, htail, hseq, hchecks⟩ :=
    (TLVSequenceTLVIter.finishes_iff true 0 _).mp hinner.finishes
  obtain ⟨htailNe, hcases⟩ := first_end hbody htokens htail hseq
  rcases hcases with ⟨hflat, hleaves⟩ | hlt
  · -- the counter underflows at the end marker of the container
    have htokensNe : tokens ≠ [] := by
      rintro rfl
      exact hne hflat.symm
    rcases (hchecks rfl).2 htokensNe htailNe with hpos | ⟨t, ht, c, htoken, hstart⟩
    · exact absurd hpos (lt_irrefl 0)
    · obtain ⟨c', htoken', hleaf⟩ := hleaves t (List.mem_of_mem_tail ht)
      obtain rfl := Except.ok.inj (htoken.control.symm.trans htoken'.control)
      exact Bool.false_ne_true (hleaf.symm.trans (isContainer_of_start hstart))
  · -- the iterator stops at an earlier end marker
    obtain ⟨before, after, hbefore, hafter, rfl⟩ := flattens_append hmore
    rw [TLVSequenceTLVIter.new, hseq] at hinner
    have hle := length_le_of_flattens htokens htail hinner hbefore
    have hone : after.length = 1 := by
      obtain ⟨tlvs, htlvs, rfl⟩ := flattens_iff.mp hafter
      cases tlvs with
      | nil => cases htlvs
      | cons tlv tlvs =>
        obtain ⟨htlv, hnil⟩ := List.cons.inj htlvs
        obtain rfl := Except.ok.inj htlv
        obtain rfl := List.map_eq_nil_iff.mp hnil.symm
        rfl
    have hlen := congrArg List.length heq
    simp only [List.length_append, List.length_singleton] at hlen
    omega

/-- **A string** is not copied by `to_tlv`, which leaves out its length field. -/
theorem not_copied_of_string (he : Token e c) (hsize : c.valueType.fixedSize = none) : ¬ Copied e rest := by
  rintro ⟨tag, htag, hwrite, -⟩
  have hc := control_append he.control rest
  obtain ⟨c', n, hc', hn, hlen⟩ := len_eq_ok.mp he.len
  obtain rfl : c = c' := Except.ok.inj (he.control.symm.trans hc')
  have hleaf : c.valueType.isContainer = false := by
    obtain ⟨tagType, valueType⟩ := c
    cases valueType <;> first | rfl | cases hsize
  have hfield : 0 < c.valueType.variableSizeLen := by
    obtain ⟨tagType, valueType⟩ := c
    cases valueType <;> first | exact Nat.succ_pos _ | cases hsize
  have hvalue : ∃ value, containerValue (e ++ rest) c = .ok value ∧ value.length = n := by
    have hlenAppend : (e ++ rest).length = e.length + rest.length := List.length_append
    refine ⟨((e ++ rest).drop (1 + c.tagType.size + c.valueType.variableSizeLen)).take n, ?_, ?_⟩
    · rw [containerValue, containerValueLen, hleaf, if_neg Bool.false_ne_true, valueLen_append hn rest,
        ok_bind, valueStart_eq_ok.mpr ⟨by omega, rfl⟩, ok_bind]
      refine sliceTo_eq_ok.mpr ⟨?_, rfl⟩
      rw [List.length_drop]
      omega
    · rw [List.length_take, List.length_drop]
      omega
  obtain ⟨value, hvalue, hvalueLen⟩ := hvalue
  -- a buffer with room for the element
  have hwrite := hwrite ⟨[], e.length⟩
  have hempty : (e ++ rest).isEmpty = false := isEmpty_of_ne_nil (he.append_ne_nil rest)
  have hbytes :
      ((TLVControl.mk tag.tagType c.valueType).asRaw :: (tag.bytes ++ value)).length < e.length := by
    rw [List.length_cons, List.length_append, tag.length_bytes, tagType_of_tag hc htag]
    omega
  rw [TLVElement.toTlv, hempty, if_neg Bool.false_ne_true, hc, ok_bind, hvalue, ok_bind, WriteBuf.rawValue_eq,
    WriteBuf.writeRawData_ok hbytes.le, WriteBuf.writeRawData_ok le_rfl] at hwrite
  have hdata := congrArg WriteBuf.data (Except.ok.inj hwrite)
  rw [WriteBuf.push, WriteBuf.push, List.nil_append, List.nil_append] at hdata
  exact hbytes.ne (congrArg List.length hdata)

theorem copied_of_leaf (he : Token e c) (hleaf : c.valueType.isContainer = false)
    (hsize : c.valueType.fixedSize ≠ none) : Copied e rest := by
  obtain ⟨tag, v, hv, rfl⟩ := he.exists_elem hsize
  rw [← hv] at hleaf hsize
  have hsized : v.Sized := fun h => absurd h hsize
  have hlong : ¬ v.IsLong := by
    rintro (h | h) <;> exact hsize (congrArg TLVValueType.fixedSize h)
  have hcontrol := control_elem tag v rest
  have hstart : v.valueType.isContainerStart = false := (Bool.or_eq_false_iff.mp hleaf).1
  refine ⟨tag, TLVElement.tag_elem tag v rest, fun wb => ?_, [.ok ⟨tag, v⟩], ?_, ?_⟩
  · have hfield : v.lenField = [] := by
      obtain ⟨n, hn⟩ := Option.ne_none_iff_exists'.mp hsize
      rw [TLVValue.lenField, hn]
    rw [TLVElement.toTlv, elemBytes_append_ne_nil, if_neg Bool.false_ne_true, hcontrol, ok_bind,
      containerValue_elem tag rest hsized hleaf, ok_bind, WriteBuf.rawValue_eq, elemBytes, hfield,
      List.nil_append]
  · have hvalue : TLVSequenceTLVIter.value true (elemBytes tag v ++ rest) = .ok v := by
      obtain ⟨n, hn⟩ := Option.ne_none_iff_exists'.mp hsize
      have hslice : Checked.containerValue .width64 (elemBytes tag v ++ rest) ⟨tag.tagType, v.valueType⟩ =
          .ok v.payload := by
        rw [Checked.containerValue, Checked.containerValueLen, hleaf, if_neg Bool.false_ne_true,
          Checked.valueLen, hn]
        simp only [ok_bind]
        rw [Panicking.valueStart_eq hcontrol, valueStart_elem, lift_ok, ok_bind,
          sliceTo_append (TLVValue.fixedSize_eq hn).1]
        rfl
      rw [TLVSequenceTLVIter.value, if_pos rfl, Checked.value, hcontrol, lift_ok, ok_bind, hslice, ok_bind,
        valueOf_payload hsize]
    have hcontainer : TLVElementTLVIter.container true (elemBytes tag v ++ rest) =
        .error (.error .tlvTypeMismatch) := by
      rw [TLVElementTLVIter.container, if_pos rfl, Checked.container, hcontrol, lift_ok, ok_bind, hstart,
        if_neg Bool.false_ne_true]
    have hnext : TLVElementTLVIter.next true (.start tag (elemBytes tag v ++ rest)) =
        .ok (some (.ok ⟨tag, v⟩), .finished) := by
      rw [TLVElementTLVIter.next, elemBytes_append_ne_nil, if_neg Bool.false_ne_true, hvalue, hcontainer]
      rfl
    exact .step hnext (.done rfl)
  · exact flattens_iff.mpr ⟨[⟨tag, v⟩], rfl, by
      rw [List.flatMap_singleton, TLV.pulled_of_not_isLong hlong]⟩

theorem copied_of_empty (hhead : IsStart head) : Copied (head ++ [endMarker]) rest := by
  obtain ⟨c, hc, hstart⟩ := hhead
  have hsize : c.valueType.fixedSize ≠ none := by
    obtain ⟨tagType, valueType⟩ := c
    cases valueType <;> first | exact absurd hstart Bool.false_ne_true | rintro ⟨⟩
  obtain ⟨tag, v, hv, rfl⟩ := hc.exists_elem hsize
  rw [← hv] at hstart
  have hcontrol := control_elem tag v (endMarker :: rest)
  have hcontainer : v.valueType.isContainer = true := by rw [TLVValueType.isContainer, hstart, Bool.true_or]
  have hpayload : v.payload = [] := by
    cases v <;> first | rfl | cases hstart
  have hpulled : (TLV.mk tag v).pulled = elemBytes tag v := by
    have hlong : ¬ (TLV.mk tag v).value.IsLong := by
      cases v <;> first | exact absurd hstart Bool.false_ne_true | (rintro (h | h) <;> cases h)
    exact TLV.pulled_of_not_isLong hlong
  have hfixed : v.valueType.fixedSize = some 0 := by
    cases v <;> first | rfl | cases hstart
  have hsized : v.Sized := fun h => by cases h.symm.trans hfixed
  have hfield : v.lenField = [] := by rw [TLVValue.lenField, hfixed]
  have hlength : ∃ fuel, (elemBytes tag v ++ endMarker :: rest).length = fuel + 1 :=
    Nat.exists_eq_add_of_le' (by rw [List.length_append, List.length_cons]; omega)
  obtain ⟨fuel, hfuel⟩ := hlength
  rw [Copied, List.append_assoc, List.singleton_append]
  refine ⟨tag, TLVElement.tag_elem .., fun wb => ?_, [.ok ⟨tag, v⟩, .ok ⟨.anonymous, .endCnt⟩], ?_, ?_⟩
  · have hcount : containerValueLen (elemBytes tag v ++ endMarker :: rest) ⟨tag.tagType, v.valueType⟩ =
        .ok 1 := by
      rw [containerValueLen, hcontainer, if_pos rfl, hfuel, containerValueLenLoop,
        nextEnter_elem tag _ hsized]
      cases fuel <;> rfl
    have hvalue : containerValue (elemBytes tag v ++ endMarker :: rest) ⟨tag.tagType, v.valueType⟩ =
        .ok [endMarker] := by
      rw [containerValue, hcount, ok_bind, valueStart_elem, hpayload]
      exact sliceTo_append (a := [endMarker]) rfl rest
    rw [TLVElement.toTlv, elemBytes_append_ne_nil, if_neg Bool.false_ne_true, hcontrol, ok_bind, hvalue,
      ok_bind, WriteBuf.rawValue_eq, elemBytes, hfield, hpayload, List.append_nil, List.append_nil,
      List.cons_append]
  · have hcount : Checked.containerValueLen .width64 (elemBytes tag v ++ endMarker :: rest)
        ⟨tag.tagType, v.valueType⟩ = .ok 1 := by
      rw [Checked.containerValueLen, hcontainer, if_pos rfl, hfuel, Checked.containerValueLenLoop,
        hc.tok.nextEnter]
      cases fuel <;> rfl
    have hvalue : TLVSequenceTLVIter.value true (elemBytes tag v ++ endMarker :: rest) = .ok v := by
      rw [TLVSequenceTLVIter.value, if_pos rfl, Checked.value, hcontrol, lift_ok, ok_bind,
        Checked.containerValue, hcount, ok_bind, Panicking.valueStart_eq hcontrol, valueStart_elem, lift_ok,
        ok_bind, hpayload]
      cases v <;> first | rfl | cases hstart
    have hmembers : TLVElementTLVIter.container true (elemBytes tag v ++ endMarker :: rest) =
        .ok (endMarker :: rest) := by
      rw [TLVElementTLVIter.container, if_pos rfl, Checked.container, hcontrol, lift_ok, ok_bind,
        if_pos hstart]
      exact hc.tok.nextEnter (endMarker :: rest)
    have hfirst : TLVElementTLVIter.next true (.start tag (elemBytes tag v ++ endMarker :: rest)) =
        .ok (some (.ok ⟨tag, v⟩), .seq (.new (endMarker :: rest))) := by
      rw [TLVElementTLVIter.next, elemBytes_append_ne_nil, if_neg Bool.false_ne_true, hvalue, hmembers]
      rfl
    have hlast : TLVElementTLVIter.next true (.seq (.new (endMarker :: rest))) =
        .ok (some (.ok ⟨.anonymous, .endCnt⟩), .finished) := by
      rw [TLVElementTLVIter.next, TLVSequenceTLVIter.new, next_atEnd (.inr ⟨rest, rfl⟩)]
      rfl
    exact .step hfirst (.step hlast (.done rfl))
  · refine flattens_iff.mpr ⟨[⟨tag, v⟩, ⟨.anonymous, .endCnt⟩], rfl, ?_⟩
    rw [List.flatMap_cons, List.flatMap_singleton, hpulled]
    rfl

/-- **Copies of an element.** Both ways copy an element, whatever follows it, exactly if it is a number, a
constant or a container without members. -/
theorem copied_iff (he : Element e) (rest : List UInt8) : Copied e rest ↔ Copyable e := by
  constructor
  · intro h
    cases he with
    | leaf he =>
      obtain ⟨c, hc, hleaf⟩ := he
      have hsize : c.valueType.fixedSize ≠ none := fun hsize => not_copied_of_string hc hsize h
      refine .inl ⟨c, hc, hleaf, ?_, ?_⟩
      · cases hstr : c.valueType.isStr with
        | false => rfl
        | true =>
          obtain ⟨tagType, valueType⟩ := c
          cases valueType <;> first | exact absurd rfl hsize | cases hstr
      · cases hstr : c.valueType.isUtf8 with
        | false => rfl
        | true =>
          obtain ⟨tagType, valueType⟩ := c
          cases valueType <;> first | exact absurd rfl hsize | cases hstr
    | @container head body hhead hbody =>
      cases body with
      | nil => exact .inr ⟨head, hhead, rfl⟩
      | cons byte body => exact absurd h (not_copied_of_members hhead hbody (List.cons_ne_nil _ _))
  · rintro (⟨c, hc, hleaf, hstr, hutf⟩ | ⟨head, hhead, rfl⟩)
    · refine copied_of_leaf hc hleaf ?_
      obtain ⟨tagType, valueType⟩ := c
      cases valueType <;> first
        | exact absurd hstr.symm Bool.false_ne_true
        | exact absurd hutf.symm Bool.false_ne_true
        | exact nofun
    · exact copied_of_empty hhead

theorem copied_iff_number : Copied [0x24, 0x00, 0x2a] [0xff] ↔ Copyable [0x24, 0x00, 0x2a] :=
  copied_iff (.leaf ⟨⟨.context, .u8⟩, ⟨rfl, rfl⟩, rfl⟩) [0xff]

/-- Of a string of one byte `to_tlv` leaves out the length; at the end of a structure with one member the
counter of `tlv_iter` underflows. -/
theorem copies_fail :
    TLVElement.toTlv ⟨[], 3⟩ .anonymous [0x0c, 0x01, 0x61] = .ok ⟨[0x0c, 0x61], 1⟩ ∧
    TLVElementTLVIter.next true (.seq (.new [0x24, 0x00, 0x2a, 0x18])) = .error .panic ∧
    ¬ ∀ e rest, Element e → Copied e rest := by
  refine ⟨rfl, rfl, fun h => ?_⟩
  have hstring : Token [0x0c, 0x01, 0x61] ⟨.anonymous, .utf8l⟩ := ⟨rfl, rfl⟩
  exact not_copied_of_string hstring rfl (h _ [] (.leaf ⟨_, hstring, rfl⟩))

end Copied

end RsMatter
