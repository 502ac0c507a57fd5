import RsMatter.TlvCodecRoundTrip
import RsMatter.TlvGrammar

/-!
# Scanning instead of searching (`tlv/read.rs`)

A derived structure is read with one cursor, that `scan_ctx` moves up to the next context id. It stays at
the element that it stops at, be it the one asked for or one behind. So if the ids come in order, among the
members and in the questions, every question finds the cursor before its element, and the answers are those
of a search from the start.
-/

namespace RsMatter

namespace TLVSequence

def ctxOf (e : List UInt8) : Option (BitVec 8) :=
  match TLVElement.tryCtx e with
  | .ok ctx => ctx
  | .error _ => none

def Ascending (elems : List (List UInt8)) : Prop := (elems.filterMap ctxOf).Pairwise (· < ·)

/-- Scan for one id after the other with one cursor; the elements, and where the cursor is then. -/
def scanAll : List (BitVec 8) → List UInt8 → Except ErrorCode (List (List UInt8) × List UInt8)
  | [], seq => .ok ([], seq)
  | ctx :: ctxs, seq => do
    let (elem, seq) ← scanCtx ctx seq
    let (elems, seq) ← scanAll ctxs seq
    return (elem :: elems, seq)

/-- Does the scan for a context id pass the element? -/
def passes (ctx : BitVec 8) (e : List UInt8) : Bool :=
  match ctxOf e with
  | some elemCtx => decide (elemCtx < ctx)
  | none => true

/-- The first element with a context id, with what follows it; empty if there is none. -/
def firstWith (ctx : BitVec 8) (tail : List UInt8) : List (List UInt8) → List UInt8
  | [] => []
  | e :: elems => if ctxOf e = some ctx then (e :: elems).flatten ++ tail else firstWith ctx tail elems

/-! ## One id -/

section One

variable {e rest tail : List UInt8} {c : TLVControl} {ctx ctx' : BitVec 8} {elems : List (List UInt8)}

theorem Token.tryCtx (h : Token e c) (rest : List UInt8) :
    ∃ ctx?, TLVElement.tryCtx (e ++ rest) = .ok ctx? ∧ TLVElement.tryCtx e = .ok ctx? := by
  rw [TLVElement.tryCtx, TLVElement.tryCtx, control_append h.control, h.control, ok_bind, ok_bind]
  by_cases hctx : c.tagType = .context
  · rw [if_pos hctx, if_pos hctx, hctx]
    -- the tag is there
    obtain ⟨c', n, hc', hn, hlength⟩ := len_eq_ok.mp h.len
    obtain rfl : c = c' := Except.ok.inj (h.control.symm.trans hc')
    rw [hctx] at hlength
    rcases e with _ | ⟨byte, _ | ⟨id, e⟩⟩
    · cases hc'
    · rw [show TLVTagType.context.size = 1 from rfl, List.length_singleton] at hlength
      omega
    · have htag (more : List UInt8) : tag (byte :: id :: more) .context = .ok [id] := rfl
      rw [List.cons_append, List.cons_append, htag, htag]
      exact ⟨_, rfl, rfl⟩
  · rw [if_neg hctx, if_neg hctx]
    exact ⟨none, rfl, rfl⟩

theorem Element.tryCtx (he : Element e) (rest : List UInt8) :
    TLVElement.tryCtx (e ++ rest) = .ok (ctxOf e) := by
  obtain ⟨e', c, more, htoken, -, heq⟩ := he.exists_token []
  rw [List.append_nil] at heq
  obtain ⟨ctx?, hlong, hshort⟩ := htoken.tryCtx (more ++ rest)
  obtain ⟨ctx?', hmore, hshort'⟩ := htoken.tryCtx more
  rw [hshort] at hshort'
  rw [ctxOf, heq, hmore, List.append_assoc, hlong, Except.ok.inj hshort']

theorem findCtxLoop_elements (helems : ∀ e ∈ elems, Element e) (htail : AtEnd tail) (fuel : ℕ)
    (hfuel : elems.length ≤ fuel) :
    findCtxLoop ctx (fuel + 1) (elems.flatten ++ tail) = .ok (firstWith ctx tail elems) := by
  induction elems generalizing fuel with
  | nil =>
    rw [List.flatten_nil, List.nil_append, findCtxLoop, iterNext, current_atEnd htail, ok_bind,
      containerNext_atEnd htail, ok_bind]
    rfl
  | cons e elems ih =>
    obtain ⟨he, helems⟩ := List.forall_mem_cons.mp helems
    obtain ⟨fuel, rfl⟩ := Nat.exists_eq_add_of_le' (Nat.one_le_of_lt hfuel)
    have hnext : iterNext (e ++ (elems.flatten ++ tail)) =
        .ok (some (e ++ (elems.flatten ++ tail)), elems.flatten ++ tail) := by
      rw [iterNext, current_element he, ok_bind, containerNext_element he, ok_bind, he.append_isEmpty]
      rfl
    rw [List.flatten_cons, List.append_assoc, findCtxLoop, hnext, ok_bind]
    simp only
    rw [he.tryCtx, ok_bind, firstWith, List.flatten_cons, List.append_assoc]
    split
    · rfl
    · exact ih helems fuel (Nat.le_of_succ_le_succ hfuel)

theorem scanCtxLoop_elements (helems : ∀ e ∈ elems, Element e) (htail : AtEnd tail) (fuel : ℕ)
    (hfuel : elems.length ≤ fuel) :
    scanCtxLoop ctx (fuel + 1) (elems.flatten ++ tail) =
      .ok (match elems.dropWhile (passes ctx) with
        | [] => ([], tail)
        | e :: more => (if ctxOf e = some ctx then (e :: more).flatten ++ tail else [],
          (e :: more).flatten ++ tail)) := by
  induction elems generalizing fuel with
  | nil =>
    rw [List.flatten_nil, List.nil_append, scanCtxLoop, current_atEnd htail, ok_bind]
    rfl
  | cons e elems ih =>
    obtain ⟨he, helems⟩ := List.forall_mem_cons.mp helems
    obtain ⟨fuel, rfl⟩ := Nat.exists_eq_add_of_le' (Nat.one_le_of_lt hfuel)
    have hrest := ih helems fuel (Nat.le_of_succ_le_succ hfuel)
    rw [List.flatten_cons, List.append_assoc, scanCtxLoop, current_element he, ok_bind, he.append_isEmpty,
      if_neg Bool.false_ne_true, he.tryCtx, ok_bind]
    cases hctx : ctxOf e with
    | none =>
      have hpass : passes ctx e = true := by rw [passes, hctx]
      simp only
      rw [List.dropWhile_cons_of_pos hpass, containerNext_element he, ok_bind, hrest]
    | some elemCtx =>
      have hpass : passes ctx e = decide (elemCtx < ctx) := by rw [passes, hctx]
      simp only
      by_cases heq : elemCtx = ctx
      · have hstop : ¬ passes ctx e = true := by simp [hpass, heq]
        rw [if_pos heq, List.dropWhile_cons_of_neg hstop]
        simp only [hctx, heq, if_pos, List.flatten_cons, List.append_assoc]
        rfl
      · rw [if_neg heq]
        by_cases hgt : ctx < elemCtx
        · have hstop : ¬ passes ctx e = true := by
            rw [hpass, decide_eq_true_eq]
            exact BitVec.lt_asymm hgt
          rw [if_pos hgt, List.dropWhile_cons_of_neg hstop]
          simp only [hctx, if_neg (fun h : some elemCtx = some ctx => heq (Option.some.inj h)),
            List.flatten_cons, List.append_assoc]
          rfl
        · have hlt : elemCtx < ctx := by
            rw [BitVec.lt_def] at hgt ⊢
            have hne : elemCtx.toNat ≠ ctx.toNat := fun h => heq (BitVec.eq_of_toNat_eq h)
            omega
          rw [if_neg hgt, List.dropWhile_cons_of_pos (by rw [hpass, decide_eq_true hlt]),
            containerNext_element he, ok_bind, hrest]

theorem length_le_flatten (helems : ∀ e ∈ elems, Element e) : elems.length ≤ elems.flatten.length := by
  induction elems with
  | nil => exact le_rfl
  | cons e elems ih =>
    obtain ⟨he, helems⟩ := List.forall_mem_cons.mp helems
    have hne := he.append_isEmpty []
    have hrest := ih helems
    rw [List.append_nil] at hne
    have hpos : 0 < e.length := List.length_pos_iff.mpr fun h => by
      rw [h] at hne
      cases hne
    rw [List.length_cons, List.flatten_cons, List.length_append]
    omega

theorem findCtx_elements (helems : ∀ e ∈ elems, Element e) (htail : AtEnd tail) :
    findCtx ctx (elems.flatten ++ tail) = .ok (firstWith ctx tail elems) := by
  refine findCtxLoop_elements helems htail _ ((length_le_flatten helems).trans ?_)
  rw [List.length_append]
  exact Nat.le_add_right ..

theorem firstWith_eq_nil (hasc : Ascending (e :: elems)) {elemCtx : BitVec 8} (hctx : ctxOf e = some elemCtx)
    (hlt : ctx < elemCtx) : firstWith ctx tail elems = [] := by
  rw [Ascending, List.filterMap_cons_some hctx, List.pairwise_cons] at hasc
  obtain ⟨hgt, -⟩ := hasc
  induction elems with
  | nil => rfl
  | cons e' elems ih =>
    have hne : ctxOf e' ≠ some ctx := by
      intro h
      have := hgt ctx (List.mem_filterMap.mpr ⟨e', List.mem_cons_self, h⟩)
      exact BitVec.lt_asymm hlt this
    rw [firstWith, if_neg hne]
    refine ih fun x hx => hgt x ?_
    rw [List.mem_filterMap] at hx ⊢
    obtain ⟨y, hy, hyx⟩ := hx
    exact ⟨y, List.mem_cons_of_mem _ hy, hyx⟩

theorem Ascending.of_cons (hasc : Ascending (e :: elems)) : Ascending elems := by
  rw [Ascending] at hasc ⊢
  cases hctx : ctxOf e with
  | none => rwa [List.filterMap_cons_none hctx] at hasc
  | some elemCtx =>
    rw [List.filterMap_cons_some hctx] at hasc
    exact List.Pairwise.of_cons hasc

theorem Ascending.dropWhile (hasc : Ascending elems) (p : List UInt8 → Bool) :
    Ascending (elems.dropWhile p) :=
  List.Pairwise.sublist ((List.dropWhile_sublist p).filterMap ctxOf) hasc

/-- **One scan** finds what the search finds, and stays before the elements with greater ids. -/
theorem scanCtx_elements (helems : ∀ e ∈ elems, Element e) (htail : AtEnd tail) (hasc : Ascending elems) :
    scanCtx ctx (elems.flatten ++ tail) =
      .ok (firstWith ctx tail elems, (elems.dropWhile (passes ctx)).flatten ++ tail) := by
  have hfuel : elems.length ≤ (elems.flatten ++ tail).length := by
    rw [List.length_append]
    exact (length_le_flatten helems).trans (Nat.le_add_right ..)
  rw [scanCtx, scanCtxLoop_elements helems htail _ hfuel]
  clear hfuel
  induction elems with
  | nil => rfl
  | cons e elems ih =>
    obtain ⟨-, helems⟩ := List.forall_mem_cons.mp helems
    cases hpass : passes ctx e with
    | true =>
      have hne : ctxOf e ≠ some ctx := by
        intro h
        rw [passes, h, decide_eq_true_eq] at hpass
        exact BitVec.lt_irrefl _ hpass
      rw [List.dropWhile_cons_of_pos hpass, firstWith, if_neg hne]
      exact ih helems hasc.of_cons
    | false =>
      rw [List.dropWhile_cons_of_neg (Bool.eq_false_iff.mp hpass), firstWith]
      simp only
      by_cases heq : ctxOf e = some ctx
      · rw [if_pos heq, if_pos heq]
      · rw [if_neg heq, if_neg heq]
        cases hctx : ctxOf e with
        | none =>
          rw [passes, hctx] at hpass
          cases hpass
        | some elemCtx =>
          rw [passes, hctx] at hpass
          have hlt : ctx < elemCtx := by
            have hnlt := of_decide_eq_false hpass
            have hne' : elemCtx.toNat ≠ ctx.toNat := fun h =>
              heq (by rw [hctx, BitVec.eq_of_toNat_eq h])
            rw [BitVec.lt_def] at hnlt ⊢
            omega
          rw [firstWith_eq_nil hasc hctx hlt]

theorem firstWith_dropWhile (hlt : ctx < ctx') (elems : List (List UInt8)) :
    firstWith ctx' tail (elems.dropWhile (passes ctx)) = firstWith ctx' tail elems := by
  induction elems with
  | nil => rfl
  | cons e elems ih =>
    cases hpass : passes ctx e with
    | true =>
      have hne : ctxOf e ≠ some ctx' := by
        intro h
        rw [passes, h, decide_eq_true_eq] at hpass
        exact BitVec.lt_asymm hlt hpass
      rw [List.dropWhile_cons_of_pos hpass, ih, firstWith, if_neg hne]
    | false => rw [List.dropWhile_cons_of_neg (Bool.eq_false_iff.mp hpass)]

end One

/-! ## Many ids -/

section Many

variable {tail : List UInt8} {elems : List (List UInt8)}

theorem element_of_dropWhile (helems : ∀ e ∈ elems, Element e) (p : List UInt8 → Bool) :
    ∀ e ∈ elems.dropWhile p, Element e :=
  fun e he => helems e ((List.dropWhile_sublist p).subset he)

/-- **Scans in order** find what searches find. -/
theorem scanAll_elements (htail : AtEnd tail) {ctxs : List (BitVec 8)} (hctxs : ctxs.Pairwise (· < ·))
    (helems : ∀ e ∈ elems, Element e) (hasc : Ascending elems) :
    ∃ cursor, scanAll ctxs (elems.flatten ++ tail) =
      .ok (ctxs.map fun ctx => firstWith ctx tail elems, cursor) := by
  induction ctxs generalizing elems with
  | nil => exact ⟨_, rfl⟩
  | cons ctx ctxs ih =>
    obtain ⟨hlt, hctxs⟩ := List.pairwise_cons.mp hctxs
    obtain ⟨cursor, hscan⟩ := ih hctxs (element_of_dropWhile helems (passes ctx)) (hasc.dropWhile _)
    have hsame : (ctxs.map fun ctx' => firstWith ctx' tail (elems.dropWhile (passes ctx))) =
        ctxs.map fun ctx' => firstWith ctx' tail elems :=
      List.map_congr_left fun ctx' hctx' => firstWith_dropWhile (hlt ctx' hctx') elems
    refine ⟨cursor, ?_⟩
    rw [scanAll, scanCtx_elements helems htail hasc, ok_bind]
    simp only
    rw [hscan, ok_bind, hsame]
    rfl

theorem mapM_findCtx (htail : AtEnd tail) (ctxs : List (BitVec 8)) (helems : ∀ e ∈ elems, Element e) :
    ctxs.mapM (fun ctx => findCtx ctx (elems.flatten ++ tail)) =
      .ok (ctxs.map fun ctx => firstWith ctx tail elems) := by
  induction ctxs with
  | nil => rfl
  | cons ctx ctxs ih =>
    rw [List.mapM_cons, findCtx_elements helems htail, ok_bind, ih]
    rfl

end Many

end TLVSequence

/-! ## Structures -/

open TLVSequence

section Fields

variable {tail : List UInt8}

theorem nextField_elements {elems : List (List UInt8)} (tag : BitVec 8) (htail : AtEnd tail)
    (helems : ∀ e ∈ elems, Element e) :
    (Ascending elems → nextField false tag (elems.flatten ++ tail) =
      .ok (firstWith tag tail elems, (elems.dropWhile (passes tag)).flatten ++ tail)) ∧
    nextField true tag (elems.flatten ++ tail) = .ok (firstWith tag tail elems, elems.flatten ++ tail) := by
  rw [nextField, nextField, if_neg Bool.false_ne_true, if_pos rfl, Panicking.scanCtx_eq, Panicking.findCtx_eq,
    findCtx_elements helems htail]
  refine ⟨fun hasc => ?_, rfl⟩
  rw [scanCtx_elements helems htail hasc]
  rfl

/-- A cursor that has not passed any of the fields reads them like the start does. -/
theorem fieldsFromTlv_elements (htail : AtEnd tail) : {α : Type} → (fields : Fields α) →
    fields.tags.Pairwise (· < ·) → (elems elems' : List (List UInt8)) → (∀ e ∈ elems, Element e) →
    (∀ e ∈ elems', Element e) → Ascending elems' →
    (∀ tag ∈ fields.tags, firstWith tag tail elems' = firstWith tag tail elems) →
    fieldsFromTlv false fields (elems'.flatten ++ tail) = fieldsFromTlv true fields (elems.flatten ++ tail) ∧
      fieldsInitFromTlv false fields (elems'.flatten ++ tail) =
        fieldsInitFromTlv true fields (elems.flatten ++ tail)
  | _, .nil, _, elems, elems', _, _, _, _ => by
    simp only [fieldsFromTlv, fieldsInitFromTlv, and_self]
  | _, .cons tag c fields, hpair, elems, elems', helems, helems', hasc, hsame
  | _, .optional _ tag c fields, hpair, elems, elems', helems, helems', hasc, hsame => by
    rw [Fields.tags, List.pairwise_cons] at hpair
    obtain ⟨hread, hinit⟩ := fieldsFromTlv_elements htail fields hpair.2 elems
      (elems'.dropWhile (passes tag)) helems (element_of_dropWhile helems' _) (hasc.dropWhile _)
      fun tag' htag' => (firstWith_dropWhile (hpair.1 tag' htag') elems').trans
        (hsame tag' (List.mem_cons_of_mem _ htag'))
    rw [fieldsFromTlv, fieldsFromTlv, fieldsInitFromTlv, fieldsInitFromTlv,
      (nextField_elements tag htail helems').1 hasc, (nextField_elements tag htail helems).2,
      hsame tag List.mem_cons_self, ok_bind, ok_bind, ok_bind, ok_bind]
    simp only [hread, hinit, and_self]

end Fields

section Written

theorem ctxOf_bytes (t : TLVTree LeafCall) : ctxOf t.bytes = t.tag.ctx? := by
  have h := TLVElement.tryCtx_tree t []
  rw [List.append_nil] at h
  rw [ctxOf, h]

theorem bytesMembers_eq_flatten (ts : List (TLVTree LeafCall)) :
    bytesMembers ts = (ts.map TLVTree.bytes).flatten := by
  induction ts with
  | nil => rfl
  | cons t ts ih => rw [bytesMembers, ih, List.map_cons, List.flatten_cons]

theorem element_of_mem_map (ts : List (TLVTree LeafCall)) : ∀ e ∈ ts.map TLVTree.bytes, Element e := by
  intro e he
  obtain ⟨t, -, rfl⟩ := List.mem_map.mp he
  exact element_bytes t

theorem members_node (kind : StructKind) (tag : TLVTag) (container : ContainerType)
    (ts : List (TLVTree LeafCall)) (rest : List UInt8) :
    (∃ stop, kind.members ((TLVTree.node tag container ts).bytes ++ rest) = .error stop) ∨
      kind.members ((TLVTree.node tag container ts).bytes ++ rest) =
        .ok ((ts.map TLVTree.bytes).flatten ++ endMarker :: rest) := by
  have hmembers (t : TLVValueType) (code : ErrorCode) :
      TLVElement.membersOf t code ((TLVTree.node tag container ts).bytes ++ rest) = .error code ∨
      TLVElement.membersOf t code ((TLVTree.node tag container ts).bytes ++ rest) =
        .ok ((ts.map TLVTree.bytes).flatten ++ endMarker :: rest) := by
    by_cases ht : container.value.valueType = t
    · subst ht
      rw [TLVElement.membersOf_node, bytesMembers_eq_flatten]
      exact .inr rfl
    · refine .inl ?_
      rw [TLVTree.bytes, List.append_assoc, TLVElement.membersOf, control_elem, ok_bind, if_neg ht]
  cases kind with
  | struct =>
    rw [StructKind.members, Panicking.structure, Panicking.membersOf_eq]
    rcases hmembers .struct .tlvTypeMismatch with h | h <;> rw [h]
    · exact .inl ⟨_, rfl⟩
    · exact .inr rfl
  | list =>
    rw [StructKind.members, Panicking.list, Panicking.membersOf_eq]
    rcases hmembers .list .tlvTypeMismatch with h | h <;> rw [h]
    · exact .inl ⟨_, rfl⟩
    · exact .inr rfl

/-- **Reading in order** is reading at random. -/
theorem fromTlv_node {β : Type} (kind : StructKind) (fields : Fields β)
    (hfields : fields.tags.Pairwise (· < ·)) (tag : TLVTag) (container : ContainerType)
    {ts : List (TLVTree LeafCall)} (hasc : Ascending (ts.map TLVTree.bytes)) (rest : List UInt8) :
    fromTlv (.struct kind false fields) ((TLVTree.node tag container ts).bytes ++ rest) =
        fromTlv (.struct kind true fields) ((TLVTree.node tag container ts).bytes ++ rest) ∧
      initFromTlv (.struct kind false fields) ((TLVTree.node tag container ts).bytes ++ rest) =
        initFromTlv (.struct kind true fields) ((TLVTree.node tag container ts).bytes ++ rest) := by
  have htail : AtEnd (endMarker :: rest) := .inr ⟨rest, rfl⟩
  obtain ⟨hread, hinit⟩ := fieldsFromTlv_elements htail fields hfields _ _ (element_of_mem_map ts)
    (element_of_mem_map ts) hasc fun _ _ => rfl
  simp only [fromTlv, initFromTlv]
  rcases members_node kind tag container ts rest with ⟨stop, h⟩ | h <;> rw [h]
  · exact ⟨rfl, rfl⟩
  · exact ⟨hread, hinit⟩

theorem ascending_cons {α β : Type} {tag : BitVec 8} {c : Codec α} {rest : Fields β} {a : α} {b : β}
    {t : TLVTree LeafCall} {us : List (TLVTree LeafCall)}
    (hwf : c.WellFormed ∧ c.naked = false ∧ rest.WellFormed) (hpair : (tag :: rest.tags).Pairwise (· < ·))
    (ht : treeOf c a (.context tag) = some t) (hus : fieldTreesOf rest b = some us)
    (hasc : Ascending (us.map TLVTree.bytes)) : Ascending ((t :: us).map TLVTree.bytes) := by
  have hctx : ctxOf t.bytes = some tag := by
    rw [ctxOf_bytes, (rootIs_treeOf c a _ _ ht).1, writtenTag_of_not_naked c hwf.2.1]
    rfl
  rw [List.map_cons, Ascending, List.filterMap_cons_some hctx, List.pairwise_cons]
  refine ⟨fun ctx hmem => ?_, hasc⟩
  obtain ⟨e, he, hectx⟩ := List.mem_filterMap.mp hmem
  obtain ⟨u, hu, rfl⟩ := List.mem_map.mp he
  obtain ⟨tag', htag', heq⟩ := exists_tag_of_mem_fieldTreesOf rest hwf.2.2 b us hus u hu
  rw [ctxOf_bytes, heq] at hectx
  obtain rfl : tag' = ctx := Option.some.inj hectx
  exact (List.pairwise_cons.mp hpair).1 tag' htag'

theorem ascending_fieldTreesOf : {α : Type} → (fields : Fields α) → fields.WellFormed →
    fields.tags.Pairwise (· < ·) → (v : α) → (ts : List (TLVTree LeafCall)) →
    fieldTreesOf fields v = some ts → Ascending (ts.map TLVTree.bytes)
  | _, .nil, _, _, _, ts, h => by
    rw [fieldTreesOf] at h
    obtain rfl := Option.some.inj h
    exact List.Pairwise.nil
  | _, .cons tag c rest, hwf, hpair, (a, b), ts, h => by
    rw [Fields.WellFormed] at hwf
    rw [fieldTreesOf] at h
    obtain ⟨t, ht, h⟩ := Option.bind_eq_some_iff.mp h
    obtain ⟨us, hus, h⟩ := Option.bind_eq_some_iff.mp h
    obtain rfl := Option.some.inj h
    exact ascending_cons hwf hpair ht hus (ascending_fieldTreesOf rest hwf.2.2 hpair.of_cons b us hus)
  | _, .optional _ tag c rest, hwf, hpair, (none, b), ts, h => by
    rw [Fields.WellFormed] at hwf
    rw [fieldTreesOf] at h
    exact ascending_fieldTreesOf rest hwf.2.2 hpair.of_cons b ts h
  | _, .optional _ tag c rest, hwf, hpair, (some a, b), ts, h => by
    rw [Fields.WellFormed] at hwf
    rw [fieldTreesOf] at h
    obtain ⟨t, ht, h⟩ := Option.bind_eq_some_iff.mp h
    obtain ⟨us, hus, h⟩ := Option.bind_eq_some_iff.mp h
    obtain rfl := Option.some.inj h
    exact ascending_cons hwf hpair ht hus (ascending_fieldTreesOf rest hwf.2.2 hpair.of_cons b us hus)
theorem written_struct {α : Type} {kind : StructKind} {unordered : Bool} {fields : Fields α} {v : α}
    {tag : TLVTag} {wb wb' : WriteBuf}
    (h : (toTlv (.struct kind unordered fields) v tag).run wb = (wb', .ok ())) :
    ∃ ts, fieldTreesOf fields v = some ts ∧
      wb'.data = wb.data ++ (TLVTree.node tag kind.container ts).bytes := by
  obtain ⟨bytes, hbytes, -, rfl⟩ := ((emits_toTlv _ v tag).ok wb wb').mp h
  obtain ⟨t, ht, rfl⟩ := Option.map_eq_some_iff.mp hbytes
  rw [treeOf] at ht
  obtain ⟨ts, hts, rfl⟩ := Option.map_eq_some_iff.mp ht
  exact ⟨ts, hts, rfl⟩

end Written

end RsMatter
