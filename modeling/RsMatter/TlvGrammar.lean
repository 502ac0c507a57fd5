import RsMatter.TlvRetag

/-!
# Well-formed sequences (`tlv/read.rs`)

The reader goes from token to token: an element without members, the start of a container, or an end
marker. A sequence of elements is well-formed if the starts and the end markers in it are balanced. This is
all that the reader asks of it: it goes over an element exactly if the sequence starts with one.
-/

namespace RsMatter

namespace TLVSequence

/-! ## Tokens -/

structure Token (bytes : List UInt8) (c : TLVControl) : Prop where
  control : TLVSequence.control bytes = .ok c
  len : TLVSequence.len bytes = .ok bytes.length

def endMarker : UInt8 := 0x18

section Tokens

variable {e rest seq next : List UInt8} {c : TLVControl} {L : ℕ}

theorem control_append (h : control seq = .ok c) (rest : List UInt8) : control (seq ++ rest) = .ok c := by
  cases seq with
  | nil => cases h
  | cons byte seq => exact h

theorem valueLen_append (h : valueLen seq c = .ok L) (rest : List UInt8) :
    valueLen (seq ++ rest) c = .ok L := by
  rw [valueLen] at h ⊢
  cases hsize : c.valueType.fixedSize with
  | some n =>
    rw [hsize] at h
    exact h
  | none =>
    rw [hsize] at h
    simp only [Prog.except_bind_eq_ok, valueLenStart_eq_ok, sliceTo_eq_ok] at h ⊢
    obtain ⟨_, ⟨h₁, rfl⟩, _, ⟨h₂, rfl⟩, hL⟩ := h
    have hlength : (seq ++ rest).length = seq.length + rest.length := List.length_append
    have hdrop : (seq ++ rest).drop (1 + c.tagType.size) = seq.drop (1 + c.tagType.size) ++ rest :=
      List.drop_append_of_le_length h₁
    refine ⟨_, ⟨by omega, rfl⟩, _, ⟨?_, rfl⟩, ?_⟩
    · rw [hdrop, List.length_append]
      omega
    · rw [hdrop, List.take_append_of_le_length h₂]
      exact hL

theorem len_append (h : len seq = .ok L) (rest : List UInt8) : len (seq ++ rest) = .ok L := by
  obtain ⟨c, n, hc, hn, rfl⟩ := len_eq_ok.mp h
  exact len_eq_ok.mpr ⟨c, n, control_append hc rest, valueLen_append hn rest, rfl⟩

theorem ne_nil_of_control (h : control seq = .ok c) : seq ≠ [] := by
  rintro rfl
  cases h

theorem Token.append_ne_nil (h : Token e c) (rest : List UInt8) : e ++ rest ≠ [] :=
  ne_nil_of_control (control_append h.control rest)

theorem Token.one_le_length (h : Token e c) : 1 ≤ e.length := one_le_len h.len

theorem Token.nextEnter (h : Token e c) (rest : List UInt8) : nextEnter (e ++ rest) = .ok rest := by
  refine (nextEnter_eq_ok (h.append_ne_nil rest)).mpr ⟨e.length, len_append h.len rest, ?_, ?_⟩
  · rw [List.length_append]
    exact Nat.le_add_right ..
  · rw [List.drop_left]

theorem exists_token (hc : control seq = .ok c) (h : nextEnter seq = .ok next) :
    ∃ e, Token e c ∧ seq = e ++ next := by
  obtain ⟨L, hL, hle, rfl⟩ := (nextEnter_eq_ok (ne_nil_of_control hc)).mp h
  refine ⟨seq.take L, ⟨?_, ?_⟩, (List.take_append_drop L seq).symm⟩
  · rw [control_take (one_le_len hL), hc]
  · rw [len_take hL le_rfl, List.length_take, Nat.min_eq_left hle]

theorem control_endMarker (rest : List UInt8) :
    control (endMarker :: rest) = .ok ⟨.anonymous, .endCnt⟩ := rfl

theorem token_endMarker : Token [endMarker] ⟨.anonymous, .endCnt⟩ := ⟨rfl, rfl⟩

theorem eq_endMarker {byte : UInt8} (h : TLVControl.parse byte = .ok ⟨.anonymous, .endCnt⟩) :
    byte = endMarker := by
  have hall : ∀ n < 256, TLVControl.parse (UInt8.ofNat n) = .ok ⟨.anonymous, .endCnt⟩ → n = 0x18 := by
    decide +kernel
  have hbyte := hall byte.toNat byte.toNat_lt (by rwa [UInt8.ofNat_toNat])
  exact UInt8.toNat_inj.mp hbyte

theorem eq_of_isContainerEnd (hend : c.valueType.isContainerEnd = true)
    (hconfirm : c.confirmContainerEnd = .ok ()) : c = ⟨.anonymous, .endCnt⟩ := by
  obtain ⟨tagType, valueType⟩ := c
  rw [TLVControl.confirmContainerEnd] at hconfirm
  cases valueType <;> cases hend
  cases tagType <;> first | rfl | cases hconfirm

theorem exists_endMarker (hc : control seq = .ok ⟨.anonymous, .endCnt⟩) :
    ∃ rest, seq = endMarker :: rest := by
  cases seq with
  | nil => cases hc
  | cons byte rest => exact ⟨rest, by rw [eq_endMarker hc]⟩

end Tokens

/-! ## Elements -/

/-- A token that is an element without members. -/
def IsLeaf (e : List UInt8) : Prop := ∃ c, Token e c ∧ c.valueType.isContainer = false

def IsStart (e : List UInt8) : Prop := ∃ c, Token e c ∧ c.valueType.isContainerStart = true

inductive Elements : List UInt8 → Prop
  | nil : Elements []
  | leaf {e rest : List UInt8} (he : IsLeaf e) (hrest : Elements rest) : Elements (e ++ rest)
  | container {e body rest : List UInt8} (he : IsStart e) (hbody : Elements body) (hrest : Elements rest) :
    Elements (e ++ (body ++ endMarker :: rest))

inductive Element : List UInt8 → Prop
  | leaf {e : List UInt8} (he : IsLeaf e) : Element e
  | container {e body : List UInt8} (he : IsStart e) (hbody : Elements body) :
    Element (e ++ (body ++ [endMarker]))

/-- The end of the members of a container, or of all bytes. -/
def AtEnd (tail : List UInt8) : Prop := tail = [] ∨ ∃ rest, tail = endMarker :: rest

section Elements

variable {e body body' rest seq next : List UInt8} {c : TLVControl}

theorem Element.append (he : Element e) (hrest : Elements rest) : Elements (e ++ rest) := by
  cases he with
  | leaf he => exact .leaf he hrest
  | container he hbody =>
    rw [List.append_assoc, List.append_assoc]
    exact .container he hbody hrest

theorem elements_iff : Elements seq ↔ ∃ elems : List (List UInt8), (∀ e ∈ elems, Element e) ∧
    seq = elems.flatten := by
  constructor
  · intro h
    induction h with
    | nil => exact ⟨[], fun _ h => absurd h List.not_mem_nil, rfl⟩
    | leaf he _ ih =>
      obtain ⟨elems, helems, rfl⟩ := ih
      exact ⟨_ :: elems, List.forall_mem_cons.mpr ⟨.leaf he, helems⟩, rfl⟩
    | container he hbody _ _ ih =>
      obtain ⟨elems, helems, rfl⟩ := ih
      refine ⟨_ :: elems, List.forall_mem_cons.mpr ⟨.container he hbody, helems⟩, ?_⟩
      rw [List.flatten_cons, List.append_assoc, List.append_assoc]
      rfl
  · rintro ⟨elems, helems, rfl⟩
    induction elems with
    | nil => exact .nil
    | cons e elems ih =>
      obtain ⟨he, helems⟩ := List.forall_mem_cons.mp helems
      exact he.append (ih helems)

/-! ## The reader goes over elements -/

theorem isContainerEnd_of_leaf (hleaf : c.valueType.isContainer = false) :
    c.valueType.isContainerEnd = false := (Bool.or_eq_false_iff.mp hleaf).2

theorem isContainer_of_start (hstart : c.valueType.isContainerStart = true) :
    c.valueType.isContainer = true := by
  rw [TLVValueType.isContainer, hstart]
  rfl

theorem isContainerEnd_of_start (hstart : c.valueType.isContainerStart = true) :
    c.valueType.isContainerEnd = false := by
  obtain ⟨tagType, valueType⟩ := c
  cases valueType <;> first | rfl | cases hstart

theorem nextLevel_of_leaf (hleaf : c.valueType.isContainer = false) (level : ℕ) :
    nextLevel c level = .ok level := by
  rw [nextLevel, if_neg (by rw [isContainerEnd_of_leaf hleaf]; exact Bool.false_ne_true), hleaf]
  rfl

theorem nextLevel_of_start (hstart : c.valueType.isContainerStart = true) (level : ℕ) :
    nextLevel c level = .ok (level + 1) := by
  rw [nextLevel, if_neg (by rw [isContainerEnd_of_start hstart]; exact Bool.false_ne_true),
    isContainer_of_start hstart]
  rfl

theorem nextLevel_endMarker (level : ℕ) : nextLevel ⟨.anonymous, .endCnt⟩ (level + 1) = .ok level := rfl

theorem containerNextLoop_token (he : Token e c) {level level' : ℕ}
    (hlevel : nextLevel c (level + 1) = .ok level') (fuel : ℕ) (rest : List UInt8) :
    containerNextLoop (fuel + 1) (level + 1) (e ++ rest) = containerNextLoop fuel level' rest := by
  rw [containerNextLoop, control_append he.control, ok_bind, hlevel, ok_bind, he.nextEnter, ok_bind]

/-- Elements leave the loop as deep as it was; every round takes a byte. -/
theorem containerNextLoop_elements (h : Elements body) (level : ℕ) (rest : List UInt8) :
    ∃ n ≤ body.length, ∀ fuel, containerNextLoop (fuel + n) (level + 1) (body ++ rest) =
      containerNextLoop fuel (level + 1) rest := by
  induction h generalizing level rest with
  | nil => exact ⟨0, le_rfl, fun fuel => rfl⟩
  | @leaf e body he _ ih =>
    obtain ⟨c, htoken, hleaf⟩ := he
    obtain ⟨n, hn, hrest⟩ := ih level rest
    have hone := htoken.one_le_length
    refine ⟨n + 1, by rw [List.length_append]; omega, fun fuel => ?_⟩
    rw [← Nat.add_assoc, List.append_assoc, containerNextLoop_token htoken (nextLevel_of_leaf hleaf _), hrest]
  | @container e body more he _ _ ihbody ih =>
    obtain ⟨c, htoken, hstart⟩ := he
    obtain ⟨n, hn, hrest⟩ := ih level rest
    obtain ⟨m, hm, hbody⟩ := ihbody (level + 1) (endMarker :: (more ++ rest))
    have hone := htoken.one_le_length
    refine ⟨n + 1 + m + 1, ?_, fun fuel => ?_⟩
    · rw [List.length_append, List.length_append, List.length_cons]
      omega
    · have hend := containerNextLoop_token token_endMarker (nextLevel_endMarker (level + 1)) (fuel + n)
        (more ++ rest)
      rw [← Nat.add_assoc, List.append_assoc, containerNextLoop_token htoken (nextLevel_of_start hstart _),
        ← Nat.add_assoc, ← Nat.add_assoc, List.append_assoc, List.cons_append, hbody]
      exact hend.trans (hrest fuel)

theorem Element.exists_token (he : Element e) (rest : List UInt8) : ∃ e' c more, Token e' c ∧
    c.valueType.isContainerEnd = false ∧ e ++ rest = e' ++ more := by
  cases he with
  | leaf he =>
    obtain ⟨c, htoken, hleaf⟩ := he
    exact ⟨e, c, rest, htoken, isContainerEnd_of_leaf hleaf, rfl⟩
  | container he _ =>
    obtain ⟨c, htoken, hstart⟩ := he
    exact ⟨_, c, _, htoken, isContainerEnd_of_start hstart, List.append_assoc ..⟩

theorem isEmpty_of_ne_nil (h : seq ≠ []) : seq.isEmpty = false := by
  cases seq with
  | nil => exact absurd rfl h
  | cons byte seq => rfl

theorem Element.append_isEmpty (he : Element e) (rest : List UInt8) : (e ++ rest).isEmpty = false := by
  obtain ⟨e', c, more, htoken, -, heq⟩ := he.exists_token rest
  rw [heq, isEmpty_of_ne_nil (htoken.append_ne_nil more)]

theorem current_of_control (hc : control seq = .ok c) (hend : c.valueType.isContainerEnd = false) :
    current seq = .ok seq := by
  rw [current, isEmpty_of_ne_nil (ne_nil_of_control hc), if_neg Bool.false_ne_true, hc, ok_bind, hend,
    if_neg Bool.false_ne_true]
  rfl

theorem current_element (he : Element e) (rest : List UInt8) : current (e ++ rest) = .ok (e ++ rest) := by
  obtain ⟨e', c, more, htoken, hend, heq⟩ := he.exists_token rest
  rw [heq]
  exact current_of_control (control_append htoken.control more) hend

/-- **Over an element** the reader goes to what follows. -/
theorem containerNext_element (he : Element e) (rest : List UInt8) :
    containerNext (e ++ rest) = .ok rest := by
  rw [containerNext, he.append_isEmpty, if_neg Bool.false_ne_true]
  cases he with
  | leaf he =>
    obtain ⟨c, htoken, hleaf⟩ := he
    rw [control_append htoken.control, ok_bind, isContainerEnd_of_leaf hleaf, if_neg Bool.false_ne_true,
      htoken.nextEnter, ok_bind, hleaf]
    rfl
  | @container e body he hbody =>
    obtain ⟨c, htoken, hstart⟩ := he
    obtain ⟨n, hn, hloop⟩ := containerNextLoop_elements hbody 0 (endMarker :: rest)
    have hfuel : ∃ fuel, (e ++ (body ++ [endMarker]) ++ rest).length = fuel + 1 + n := by
      refine ⟨(e ++ (body ++ [endMarker]) ++ rest).length - 1 - n, ?_⟩
      simp only [List.length_append, List.length_singleton]
      omega
    obtain ⟨fuel, hfuel⟩ := hfuel
    rw [hfuel, List.append_assoc, control_append htoken.control, ok_bind, isContainerEnd_of_start hstart,
      if_neg Bool.false_ne_true, htoken.nextEnter, ok_bind, isContainer_of_start hstart, if_pos rfl,
      List.append_assoc, List.singleton_append, hloop]
    have hlast := containerNextLoop_token token_endMarker (nextLevel_endMarker 0) fuel rest
    exact hlast.trans (containerNextLoop_zero fuel rest)

/-- The loop goes over elements and the end markers of the containers that are open. -/
inductive Closes : ℕ → List UInt8 → Prop
  | zero : Closes 0 []
  | succ {level : ℕ} {body rest : List UInt8} (hbody : Elements body) (hrest : Closes level rest) :
    Closes (level + 1) (body ++ endMarker :: rest)

theorem closes_of_containerNextLoop {fuel level : ℕ} (h : containerNextLoop fuel level seq = .ok next) :
    ∃ bytes, Closes level bytes ∧ seq = bytes ++ next := by
  induction fuel generalizing level seq with
  | zero =>
    cases level with
    | zero => exact ⟨[], .zero, Except.ok.inj h⟩
    | succ level => cases h
  | succ fuel ih =>
    cases level with
    | zero => exact ⟨[], .zero, Except.ok.inj h⟩
    | succ level =>
      simp only [containerNextLoop, Prog.except_bind_eq_ok] at h
      obtain ⟨c, hc, level', hlevel, seq', hseq', h⟩ := h
      obtain ⟨e, htoken, rfl⟩ := TLVSequence.exists_token hc hseq'
      obtain ⟨bytes, hbytes, rfl⟩ := ih h
      rw [nextLevel] at hlevel
      cases hend : c.valueType.isContainerEnd with
      | true =>
        -- the innermost container ends
        rw [hend, if_pos rfl, Prog.except_bind_eq_ok] at hlevel
        obtain ⟨⟨⟩, hconfirm, hlevel⟩ := hlevel
        obtain rfl : level = level' := Except.ok.inj hlevel
        obtain rfl := eq_of_isContainerEnd hend hconfirm
        obtain ⟨tail, rfl⟩ := exists_endMarker htoken.control
        obtain rfl : tail = [] := List.eq_nil_of_length_eq_zero (Nat.succ.inj (Except.ok.inj htoken.len).symm)
        exact ⟨endMarker :: bytes, .succ .nil hbytes, rfl⟩
      | false =>
        rw [hend, if_neg Bool.false_ne_true] at hlevel
        cases hcontainer : c.valueType.isContainer with
        | true =>
          -- a container starts
          rw [hcontainer, if_pos rfl] at hlevel
          obtain rfl : level + 2 = level' := Except.ok.inj hlevel
          have hstart : c.valueType.isContainerStart = true := by
            rwa [TLVValueType.isContainer, hend, Bool.or_false] at hcontainer
          cases hbytes with
          | succ hbody hbytes =>
            cases hbytes with
            | succ hbody' hbytes =>
              refine ⟨_, .succ (.container ⟨c, htoken, hstart⟩ hbody hbody') hbytes, ?_⟩
              simp only [List.append_assoc, List.cons_append]
        | false =>
          rw [hcontainer, if_neg Bool.false_ne_true] at hlevel
          obtain rfl : level + 1 = level' := Except.ok.inj hlevel
          cases hbytes with
          | succ hbody hbytes =>
            refine ⟨_, .succ (.leaf ⟨c, htoken, hcontainer⟩ hbody) hbytes, ?_⟩
            simp only [List.append_assoc, List.cons_append]

/-- **What the reader goes over** is an element. -/
theorem exists_element (hc : control seq = .ok c) (hend : c.valueType.isContainerEnd = false)
    (h : containerNext seq = .ok next) : ∃ e, Element e ∧ seq = e ++ next := by
  rw [containerNext, isEmpty_of_ne_nil (ne_nil_of_control hc), if_neg Bool.false_ne_true, hc, ok_bind, hend,
    if_neg Bool.false_ne_true, Prog.except_bind_eq_ok] at h
  obtain ⟨seq', hseq', h⟩ := h
  obtain ⟨e, htoken, rfl⟩ := TLVSequence.exists_token hc hseq'
  cases hcontainer : c.valueType.isContainer with
  | false =>
    rw [hcontainer, if_neg Bool.false_ne_true] at h
    obtain rfl : seq' = next := Except.ok.inj h
    exact ⟨e, .leaf ⟨c, htoken, hcontainer⟩, rfl⟩
  | true =>
    rw [hcontainer, if_pos rfl] at h
    have hstart : c.valueType.isContainerStart = true := by
      rwa [TLVValueType.isContainer, hend, Bool.or_false] at hcontainer
    obtain ⟨bytes, hbytes, rfl⟩ := closes_of_containerNextLoop h
    cases hbytes with
    | succ hbody hbytes =>
      cases hbytes
      exact ⟨_, .container ⟨c, htoken, hstart⟩ hbody, by simp only [List.append_assoc, List.cons_append]⟩

/-! ## At the end -/

theorem current_atEnd (h : AtEnd seq) : current seq = .ok [] := by
  rcases h with rfl | ⟨rest, rfl⟩ <;> rfl

theorem containerNext_atEnd (h : AtEnd seq) : containerNext seq = .ok seq := by
  rcases h with rfl | ⟨rest, rfl⟩ <;> rfl

theorem atEnd_of_current (h : current seq = .ok []) : AtEnd seq := by
  cases seq with
  | nil => exact .inl rfl
  | cons byte rest =>
    simp only [current, List.isEmpty_cons, if_neg Bool.false_ne_true, Prog.except_bind_eq_ok] at h
    obtain ⟨c, hc, h⟩ := h
    cases hend : c.valueType.isContainerEnd with
    | true =>
      rw [hend, if_pos rfl, Prog.except_bind_eq_ok] at h
      obtain ⟨⟨⟩, hconfirm, -⟩ := h
      obtain rfl := eq_of_isContainerEnd hend hconfirm
      exact .inr (exists_endMarker hc)
    | false =>
      rw [hend, if_neg Bool.false_ne_true] at h
      cases h

/-- Of a sequence that is not at its end, the current element is the sequence. -/
theorem eq_of_current {elem : List UInt8} (h : current seq = .ok elem) (hne : elem ≠ []) :
    elem = seq ∧ ∃ c, control seq = .ok c ∧ c.valueType.isContainerEnd = false := by
  cases seq with
  | nil => exact absurd (Except.ok.inj h).symm hne
  | cons byte rest =>
    simp only [current, List.isEmpty_cons, if_neg Bool.false_ne_true, Prog.except_bind_eq_ok] at h
    obtain ⟨c, hc, h⟩ := h
    cases hend : c.valueType.isContainerEnd with
    | true =>
      rw [hend, if_pos rfl, Prog.except_bind_eq_ok] at h
      obtain ⟨⟨⟩, -, h⟩ := h
      exact absurd (Except.ok.inj h).symm hne
    | false =>
      rw [hend, if_neg Bool.false_ne_true] at h
      exact ⟨(Except.ok.inj h).symm, c, hc, hend⟩

end Elements

/-! ## Trees -/

theorem token_elemBytes (tag : TLVTag) {v : TLVValue} (hv : v.Sized) :
    Token (elemBytes tag v) ⟨tag.tagType, v.valueType⟩ := by
  have hcontrol := control_elem tag v []
  have hlen := len_elem tag [] hv
  rw [List.append_nil] at hcontrol hlen
  exact ⟨hcontrol, hlen⟩

mutual

theorem element_bytes : (t : TLVTree LeafCall) → Element t.bytes
  | .leaf tag call => .leaf ⟨_, token_elemBytes tag call.value_sized, call.value_leaf⟩
  | .node tag kind members =>
    have hstart : kind.value.valueType.isContainerStart = true := by
      cases kind <;> rfl
    .container ⟨_, token_elemBytes tag kind.value_sized, hstart⟩ (elements_bytesMembers members)

theorem elements_bytesMembers : (ts : List (TLVTree LeafCall)) → Elements (bytesMembers ts)
  | [] => .nil
  | t :: ts => (element_bytes t).append (elements_bytesMembers ts)

end

end TLVSequence

end RsMatter
