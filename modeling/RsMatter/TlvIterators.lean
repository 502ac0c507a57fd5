import RsMatter.Iteration
import RsMatter.Prog
import RsMatter.TlvIter
import RsMatter.TlvTotal

/-!
# Iterators over a sequence (`tlv/read.rs`, `tlv/traits/container.rs`)

There is an iterator over the elements of a sequence, one over typed elements, and one over all tokens, which
goes into the containers. None of them moves when it cannot read on: it gives the error, and then the error
again. So a caller that skips errors comes to an end exactly if the bytes are well-formed up to their end.
-/

namespace RsMatter

open Prog

open Stop TLVSequence

/-! ## The iterators -/

/-- `TLVSequenceIter::next`. -/
def TLVSequenceIter.next (seq : List UInt8) :
    Except (Stop ErrorCode) (Option (Except ErrorCode (List UInt8)) × List UInt8) := do
  let step ← attempt (Panicking.iterNext seq)
  match step with
  | .error e => return (some (.error e), seq)
  | .ok (elem, rest) => return (elem.map .ok, rest)

/-- `TLVContainerIter::next`. -/
def TLVContainerIter.next {T : Type} (fromTlv : List UInt8 → Except ErrorCode T) (seq : List UInt8) :
    Except (Stop ErrorCode) (Option (Except ErrorCode T) × List UInt8) := do
  let (elem, seq) ← TLVSequenceIter.next seq
  return (elem.map fun elem => elem >>= fromTlv, seq)

structure TLV where
  tag : TLVTag
  value : TLVValue

structure TLVSequenceTLVIter where
  seq : List UInt8
  nesting : ℕ

namespace TLVSequenceTLVIter

/-- `TLVSequenceTLVIter::new`. -/
def new (seq : List UInt8) : TLVSequenceTLVIter := ⟨seq, 0⟩

/-- `self.nesting -= 1`, with or without overflow checks. -/
def leave (checks : Bool) (nesting : ℕ) : Except (Stop ErrorCode) ℕ :=
  if 0 < nesting then .ok (nesting - 1) else if checks then .error .panic else .ok (2 ^ 64 - 1)

/-- `TLVSequenceTLVIter::advance`. -/
def advance (checks : Bool) : Prog (Stop ErrorCode) TLVSequenceTLVIter Unit := do
  let it ← Prog.get
  let go ← Prog.ofExcept <|
    if 0 < it.nesting then .ok true
    else if it.seq.isEmpty then .ok false
    else do
      let c ← lift (control it.seq)
      return !c.isContainerEnd
  if go then do
    let seq ← Prog.ofExcept (Panicking.nextEnter it.seq)
    Prog.modify fun it => { it with seq := seq }
    let c ← Prog.ofExcept (lift (control seq))
    if c.valueType.isContainerStart then Prog.modify fun it => { it with nesting := it.nesting + 1 }
    else if c.isContainerEnd then do
      let nesting ← Prog.ofExcept (leave checks it.nesting)
      Prog.modify fun it => { it with nesting := nesting }
    else pure ()
  else pure ()

/-- `TLVElement::value`, with or without overflow checks. -/
def value (checks : Bool) (elem : List UInt8) : Except (Stop ErrorCode) TLVValue :=
  if checks then Checked.value .width64 elem else lift (TLVElement.value elem)

/-- `TLVElement::tlv`. -/
def tlv (checks : Bool) (elem : List UInt8) : Except (Stop ErrorCode) TLV := do
  let tag ← Checked.tag elem
  let value ← value checks elem
  return ⟨tag, value⟩

/-- `TLVSequenceTLVIter::try_next`. -/
def tryNext (checks : Bool) : Prog (Stop ErrorCode) TLVSequenceTLVIter (Option TLV) := do
  let it ← Prog.get
  let current ← Prog.ofExcept (lift (current it.seq))
  if current.isEmpty then pure none
  else do
    advance checks
    let tlv ← Prog.ofExcept (tlv checks current)
    pure (some tlv)

/-- `TLVSequenceTLVIter::next`. -/
def next (checks : Bool) (it : TLVSequenceTLVIter) :
    Except (Stop ErrorCode) (Option (Except ErrorCode TLV) × TLVSequenceTLVIter) :=
  match (tryNext checks).run it with
  | (it, .ok tlv) => .ok (tlv.map .ok, it)
  | (it, .error (.error e)) => .ok (some (.error e), it)
  | (_, .error .panic) => .error .panic

end TLVSequenceTLVIter

/-! ## Elements -/

def WellFormed (seq : List UInt8) : Prop :=
  ∃ body tail, Elements body ∧ AtEnd tail ∧ seq = body ++ tail

section Elements

variable {e seq rest : List UInt8}

theorem iterNext_cases (seq : List UInt8) :
    (AtEnd seq ∧ iterNext seq = .ok (none, seq)) ∨
    (∃ e rest, Element e ∧ seq = e ++ rest ∧ iterNext seq = .ok (some seq, rest)) ∨
    ∃ err, iterNext seq = .error err := by
  rw [iterNext]
  cases hcurrent : current seq with
  | error err => exact .inr (.inr ⟨err, rfl⟩)
  | ok elem =>
    rw [ok_bind]
    cases elem with
    | nil =>
      have hend := atEnd_of_current hcurrent
      rw [containerNext_atEnd hend]
      exact .inl ⟨hend, rfl⟩
    | cons byte elem =>
      obtain ⟨heq, c, hc, hno⟩ := eq_of_current hcurrent (List.cons_ne_nil byte elem)
      cases hnext : containerNext seq with
      | error err => exact .inr (.inr ⟨err, rfl⟩)
      | ok rest =>
        obtain ⟨e, he, hseq⟩ := exists_element hc hno hnext
        refine .inr (.inl ⟨e, rest, he, hseq, ?_⟩)
        rw [← heq]
        rfl

theorem iterNext_element (he : Element e) (rest : List UInt8) :
    iterNext (e ++ rest) = .ok (some (e ++ rest), rest) := by
  rw [iterNext, current_element he, ok_bind, containerNext_element he, ok_bind, he.append_isEmpty]
  rfl

theorem iterNext_atEnd (h : AtEnd seq) : iterNext seq = .ok (none, seq) := by
  rw [iterNext, current_atEnd h, ok_bind, containerNext_atEnd h]
  rfl

namespace TLVSequenceIter

theorem next_eq (seq : List UInt8) : next seq = .ok (match iterNext seq with
    | .error e => (some (.error e), seq)
    | .ok (elem, rest) => (elem.map .ok, rest)) := by
  rw [next, Panicking.iterNext_eq, Panicking.attempt_lift, ok_bind]
  cases iterNext seq <;> rfl

/-- **The iterator over elements** finishes exactly on well-formed bytes. -/
theorem finishes_iff (seq : List UInt8) : Finishes next seq ↔ WellFormed seq := by
  constructor
  · intro h
    induction h with
    | @done seq seq' h =>
      rw [next_eq] at h
      obtain ⟨hend, -⟩ | ⟨e, rest, -, -, hnext⟩ | ⟨err, hnext⟩ := iterNext_cases seq
      · exact ⟨[], seq, .nil, hend, rfl⟩
      · rw [hnext] at h
        cases h
      · rw [hnext] at h
        cases h
    | @step seq seq' a h _ ih =>
      rw [next_eq] at h
      obtain ⟨-, hnext⟩ | ⟨e, rest, he, rfl, hnext⟩ | ⟨err, hnext⟩ := iterNext_cases seq
      · rw [hnext] at h
        cases h
      · rw [hnext] at h
        obtain rfl : rest = seq' := (Prod.mk.inj (Except.ok.inj h)).2
        obtain ⟨body, tail, hbody, htail, rfl⟩ := ih
        exact ⟨e ++ body, tail, he.append hbody, htail, (List.append_assoc ..).symm⟩
      · -- the iterator has not moved
        rw [hnext] at h
        obtain rfl : seq = seq' := (Prod.mk.inj (Except.ok.inj h)).2
        exact ih
  · rintro ⟨body, tail, hbody, htail, rfl⟩
    obtain ⟨elems, helems, rfl⟩ := elements_iff.mp hbody
    clear hbody
    induction elems with
    | nil =>
      have hnext : next tail = .ok (none, tail) := by
        rw [next_eq, iterNext_atEnd htail]
        rfl
      exact .done hnext
    | cons e elems ih =>
      obtain ⟨he, helems⟩ := List.forall_mem_cons.mp helems
      have hnext : next ((e :: elems).flatten ++ tail) =
          .ok (some (.ok ((e :: elems).flatten ++ tail)), elems.flatten ++ tail) := by
        rw [next_eq, List.flatten_cons, List.append_assoc, iterNext_element he]
        rfl
      exact .step hnext (ih helems)

end TLVSequenceIter

theorem TLVContainerIter.finishes_iff {T : Type} (fromTlv : List UInt8 → Except ErrorCode T)
    (seq : List UInt8) : Finishes (next fromTlv) seq ↔ WellFormed seq := by
  refine (finishes_map_iff (f := fun elem => elem >>= fromTlv) (fun seq => ?_) seq).trans
    (TLVSequenceIter.finishes_iff seq)
  rw [next, TLVSequenceIter.next_eq]
  rfl

end Elements

/-! ## Tokens -/

section Tokens

variable {e rest seq : List UInt8} {c : TLVControl} {nesting : ℕ} {checks : Bool}

/-- With 64 bits, the reader with machine integers has the same tokens. -/
theorem TLVSequence.Token.tok (h : Token e c) : Checked.Tok .width64 e c := by
  obtain ⟨c', n, hc', hn, hlen⟩ := len_eq_ok.mp h.len
  refine ⟨h.control, Checked.extent_eq_ok.mpr ⟨c', n, hc', hn, ?_⟩⟩
  rw [hlen, Checked.asUsize]
  cases hsize : c'.valueType.fixedSize with
  | some m => rfl
  | none =>
    simp only
    rw [Nat.mod_eq_of_lt]
    rw [TLVSequence.valueLen, hsize] at hn
    obtain ⟨data, -, hn⟩ := except_bind_eq_ok.mp hn
    obtain ⟨slice, hslice, hn⟩ := except_bind_eq_ok.mp hn
    obtain ⟨-, rfl⟩ := sliceTo_eq_ok.mp hslice
    obtain rfl := Except.ok.inj hn
    -- a length field has at most eight bytes
    refine (ofLE_lt _).trans_le ?_
    have hbytes : (data.take c'.valueType.variableSizeLen).length ≤ 8 := by
      rw [List.length_take]
      have hfield : c'.valueType.variableSizeLen ≤ 8 := by
        cases c'.valueType <;> decide
      omega
    exact (Nat.pow_le_pow_right (by decide) hbytes).trans (by decide)

namespace TLVSequenceTLVIter

/-- The containers that are open when the iterator has come to a token. -/
def enter (checks : Bool) (c : TLVControl) (nesting : ℕ) : Except (Stop ErrorCode) ℕ :=
  if c.valueType.isContainerStart then .ok (nesting + 1)
  else if c.isContainerEnd then leave checks nesting
  else .ok nesting

theorem advance_run (checks : Bool) (it : TLVSequenceTLVIter) (hc : control it.seq = .ok c)
    (hend : c.valueType.isContainerEnd = false) : (advance checks).run it =
      match nextEnter it.seq with
      | .error err => (it, .error (.error err))
      | .ok rest =>
        match control rest with
        | .error err => (⟨rest, it.nesting⟩, .error (.error err))
        | .ok c =>
          match enter checks c it.nesting with
          | .error stop => (⟨rest, it.nesting⟩, .error stop)
          | .ok nesting => (⟨rest, nesting⟩, .ok ()) := by
  have hgo : (if 0 < it.nesting then (.ok true : Except (Stop ErrorCode) Bool)
      else if it.seq.isEmpty then .ok false
      else do
        let c ← lift (control it.seq)
        return !c.isContainerEnd) = .ok true := by
    have hno : c.isContainerEnd = false := by rw [TLVControl.isContainerEnd, hend, Bool.and_false]
    split
    · rfl
    · rw [isEmpty_of_ne_nil (ne_nil_of_control hc), if_neg Bool.false_ne_true, hc, lift_ok, ok_bind, hno]
      rfl
  rw [advance, run_bind_of_ok (run_get it), hgo, run_bind_of_ok (run_ofExcept _ it),
    if_pos rfl, Panicking.nextEnter_eq]
  cases hnext : nextEnter it.seq with
  | error err => rfl
  | ok rest =>
    rw [lift_ok, run_bind_of_ok (run_ofExcept _ it), run_bind_of_ok (run_modify _ it)]
    dsimp only
    cases hcontrol : control rest with
    | error err => rfl
    | ok c =>
      rw [lift_ok, run_bind_of_ok (run_ofExcept _ _)]
      simp only [enter]
      split
      · rfl
      · split
        · cases leave checks it.nesting <;> rfl
        · rfl

/-- **A call** at a token. -/
theorem next_token (hc : control seq = .ok c) (hend : c.valueType.isContainerEnd = false) (nesting : ℕ) :
    next checks ⟨seq, nesting⟩ =
      match nextEnter seq with
      | .error err => .ok (some (.error err), ⟨seq, nesting⟩)
      | .ok rest =>
        match control rest with
        | .error err => .ok (some (.error err), ⟨rest, nesting⟩)
        | .ok c =>
          match enter checks c nesting with
          | .error (.error err) => .ok (some (.error err), ⟨rest, nesting⟩)
          | .error .panic => .error .panic
          | .ok nesting => (attempt (tlv checks seq)).map fun tlv => (some tlv, ⟨rest, nesting⟩) := by
  have hcurrent : (lift (current seq) : Except (Stop ErrorCode) (List UInt8)) = .ok seq := by
    rw [current_of_control hc hend]
    rfl
  have htry : (tryNext checks).run ⟨seq, nesting⟩ = (do
      advance checks
      let tlv ← Prog.ofExcept (tlv checks seq)
      pure (some tlv) : Prog (Stop ErrorCode) TLVSequenceTLVIter (Option TLV)).run ⟨seq, nesting⟩ := by
    rw [tryNext, run_bind_of_ok (run_get _), hcurrent,
      run_bind_of_ok (run_ofExcept _ _), isEmpty_of_ne_nil (ne_nil_of_control hc),
      if_neg Bool.false_ne_true]
  have hrun := advance_run checks ⟨seq, nesting⟩ hc hend
  rw [next, htry]
  dsimp only at hrun
  cases hnext : nextEnter seq with
  | error err =>
    rw [hnext] at hrun
    rw [run_bind_of_error hrun]
  | ok rest =>
    rw [hnext] at hrun
    dsimp only at hrun ⊢
    cases hcontrol : control rest with
    | error err =>
      rw [hcontrol] at hrun
      rw [run_bind_of_error hrun]
    | ok c =>
      rw [hcontrol] at hrun
      dsimp only at hrun ⊢
      cases henter : enter checks c nesting with
      | error stop =>
        rw [henter] at hrun
        rw [run_bind_of_error hrun]
        cases stop <;> rfl
      | ok nesting' =>
        rw [henter] at hrun
        rw [run_bind_of_ok hrun]
        cases tlv checks seq with
        | ok item => rfl
        | error stop => cases stop <;> rfl

/-- At the end, or where no control byte can be read, the iterator stays. -/
theorem next_of_current (checks : Bool) (it : TLVSequenceTLVIter)
    (h : ∀ seq, current it.seq = .ok seq → seq = []) :
    next checks it = .ok (match current it.seq with
      | .error err => some (.error err)
      | .ok _ => none, it) := by
  rw [next, tryNext, run_bind_of_ok (run_get _)]
  cases hcurrent : current it.seq with
  | error err => rfl
  | ok seq =>
    obtain rfl := h seq hcurrent
    rfl

theorem exists_tag (he : Token e c) (rest : List UInt8) : ∃ tag, Checked.tag (e ++ rest) = .ok tag := by
  obtain ⟨c', n, hc', -, hlen⟩ := len_eq_ok.mp he.len
  obtain rfl : c = c' := Except.ok.inj (he.control.symm.trans hc')
  have hstart : tagStart (e ++ rest) = .ok ((e ++ rest).drop 1) := by
    refine sliceFrom_eq_ok.mpr ⟨?_, rfl⟩
    rw [List.length_append]
    omega
  have hslice : sliceTo ((e ++ rest).drop 1) c.tagType.size =
      .ok (((e ++ rest).drop 1).take c.tagType.size) := by
    refine sliceTo_eq_ok.mpr ⟨?_, rfl⟩
    rw [List.length_drop, List.length_append]
    omega
  rw [Checked.tag_eq, TLVElement.tag, control_append he.control rest, ok_bind, hstart, ok_bind, hslice,
    ok_bind]
  exact ⟨_, rfl⟩

/-- A token is read without a panic, unless lengths are checked and the members of a container burst. -/
theorem noPanic_tlv_iff (he : Token e c) (hend : c.valueType.isContainerEnd = false) (rest : List UInt8) :
    NoPanic (tlv checks (e ++ rest)) ↔
      (checks = true → c.valueType.isContainerStart = true → ¬ Checked.Bursts .width64 0 1 rest) := by
  have hc := control_append he.control rest
  obtain ⟨tag, htag⟩ := exists_tag he rest
  have hvalue : NoPanic (tlv checks (e ++ rest)) ↔ NoPanic (value checks (e ++ rest)) := by
    rw [tlv, htag, ok_bind]
    exact ⟨fun h => h.of_bind, fun h => h.bind fun _ _ => noPanic_ok _⟩
  rw [hvalue, value]
  cases checks with
  | false => exact iff_of_true (noPanic_lift _) (fun h => absurd h Bool.false_ne_true)
  | true =>
    rw [if_pos rfl, Checked.noPanic_value_iff hc, Checked.noPanic_containerValueLen_iff hc,
      forall_prop_of_true rfl, ← not_and, not_iff_not]
    constructor
    · rintro ⟨head, c', members, heq, hhead, hcontainer, hburst⟩
      obtain rfl : members = rest := by
        have hnext := hhead.nextEnter members
        rw [← heq, he.tok.nextEnter rest] at hnext
        exact (Except.ok.inj hnext).symm
      obtain rfl : c = c' := by
        rw [heq, control_append hhead.control] at hc
        exact (Except.ok.inj hc).symm
      rw [TLVValueType.isContainer, hend, Bool.or_false] at hcontainer
      exact ⟨hcontainer, hburst⟩
    · rintro ⟨hstart, hburst⟩
      exact ⟨e, c, rest, rfl, he.tok, isContainer_of_start hstart, hburst⟩

/-! ## Tokens up to an end -/

def IsToken (e : List UInt8) : Prop := ∃ c, Token e c ∧ c.valueType.isContainerEnd = false

/-- Tokens up to the first end marker, or to the end of the bytes. Where arithmetic is checked, the members of
a container among them do not burst, and if there is an end marker a container must be open, which does not
count if it is the first token. -/
def Flat (checks : Bool) (nesting : ℕ) (seq : List UInt8) : Prop :=
  ∃ tokens tail, (∀ e ∈ tokens, IsToken e) ∧ AtEnd tail ∧ seq = tokens.flatten ++ tail ∧
    (checks = true →
      (∀ before e after, tokens = before ++ e :: after → IsStart e →
        ¬ Checked.Bursts .width64 0 1 (after.flatten ++ tail)) ∧
      (tokens ≠ [] → tail ≠ [] → 0 < nesting ∨ ∃ e ∈ tokens.tail, IsStart e))

theorem isStart_iff (he : Token e c) : IsStart e ↔ c.valueType.isContainerStart = true := by
  constructor
  · rintro ⟨c', he', hstart⟩
    obtain rfl := Except.ok.inj (he.control.symm.trans he'.control)
    exact hstart
  · intro hstart
    exact ⟨c, he, hstart⟩

theorem isToken_of_control (hc : control seq = .ok c) (hend : c.valueType.isContainerEnd = false)
    (h : nextEnter seq = .ok rest) : ∃ e, Token e c ∧ IsToken e ∧ seq = e ++ rest := by
  obtain ⟨e, he, heq⟩ := TLVSequence.exists_token hc h
  exact ⟨e, he, ⟨c, he, hend⟩, heq⟩

theorem not_bursts_nil : ¬ Checked.Bursts .width64 0 1 [] := by
  rintro ⟨b, rest, level, -, heq, hstuck⟩
  obtain ⟨rfl, rfl⟩ := List.append_eq_nil_iff.mp heq.symm
  rcases hstuck with ⟨L, h, -⟩ | ⟨c, h, -⟩ <;> cases h

theorem flat_of_atEnd (h : AtEnd seq) (nesting : ℕ) : Flat checks nesting seq := by
  refine ⟨[], seq, fun _ h => absurd h List.not_mem_nil, h, rfl, fun _ => ⟨?_, fun h => absurd rfl h⟩⟩
  intro before e after heq
  cases before <;> cases heq

/-- Entering a token does not fail but by a panic: an end marker where no container is open. -/
theorem enter_cases (checks : Bool) (c : TLVControl) (nesting : ℕ) :
    (∃ nesting', enter checks c nesting = .ok nesting' ∧
      (c.valueType.isContainerStart = true → 0 < nesting') ∧
      (c.valueType.isContainerEnd = false → nesting ≤ nesting') ∧
      (0 < nesting' → c.valueType.isContainerEnd = false →
        c.valueType.isContainerStart = true ∨ 0 < nesting) ∧
      (c.isContainerEnd = true → checks = true → 0 < nesting)) ∨
    (enter checks c nesting = .error .panic ∧ checks = true ∧ nesting = 0 ∧ c.isContainerEnd = true) := by
  rw [enter]
  cases hstart : c.valueType.isContainerStart with
  | true =>
    rw [if_pos rfl]
    refine .inl ⟨nesting + 1, rfl, fun _ => Nat.succ_pos _, fun _ => Nat.le_succ _, fun _ _ => .inl rfl, ?_⟩
    intro hend
    rw [TLVControl.isContainerEnd, isContainerEnd_of_start hstart, Bool.and_false] at hend
    cases hend
  | false =>
    rw [if_neg Bool.false_ne_true]
    cases hend : c.isContainerEnd with
    | false =>
      rw [if_neg Bool.false_ne_true]
      exact .inl ⟨nesting, rfl, nofun, fun _ => le_rfl, fun h _ => .inr h, nofun⟩
    | true =>
      rw [if_pos rfl, leave]
      have hvalue : c.valueType.isContainerEnd = true := (Bool.and_eq_true_iff.mp hend).2
      have hno {P : Prop} (h : c.valueType.isContainerEnd = false) : P := by
        rw [hvalue] at h
        cases h
      by_cases hpos : 0 < nesting
      · rw [if_pos hpos]
        exact .inl ⟨nesting - 1, rfl, nofun, fun h => hno h, fun _ h => hno h, fun _ _ => hpos⟩
      · rw [if_neg hpos]
        cases checks with
        | true => exact .inr ⟨rfl, rfl, Nat.eq_zero_of_not_pos hpos, rfl⟩
        | false => exact .inl ⟨2 ^ 64 - 1, rfl, nofun, fun h => hno h, fun _ h => hno h, nofun⟩

theorem next_cases (checks : Bool) (seq : List UInt8) (nesting : ℕ) :
    (AtEnd seq ∧ next checks ⟨seq, nesting⟩ = .ok (none, ⟨seq, nesting⟩)) ∨
    (∃ err, next checks ⟨seq, nesting⟩ = .ok (some (.error err), ⟨seq, nesting⟩)) ∨
    ∃ e c rest, Token e c ∧ c.valueType.isContainerEnd = false ∧ seq = e ++ rest := by
  cases hcurrent : current seq with
  | error err =>
    have hnext := next_of_current checks ⟨seq, nesting⟩ fun s h => by
      cases hcurrent.symm.trans h
    rw [hnext]
    dsimp only
    rw [hcurrent]
    exact .inr (.inl ⟨err, rfl⟩)
  | ok elem =>
    cases elem with
    | nil =>
      have hnext := next_of_current checks ⟨seq, nesting⟩ fun s h =>
        (Except.ok.inj (hcurrent.symm.trans h)).symm
      rw [hnext]
      dsimp only
      rw [hcurrent]
      exact .inl ⟨atEnd_of_current hcurrent, rfl⟩
    | cons byte elem =>
      obtain ⟨-, c, hc, hend⟩ := eq_of_current hcurrent (List.cons_ne_nil byte elem)
      cases hnext : nextEnter seq with
      | error err =>
        refine .inr (.inl ⟨err, ?_⟩)
        rw [next_token hc hend, hnext]
      | ok rest =>
        obtain ⟨e, he, -, heq⟩ := isToken_of_control hc hend hnext
        exact .inr (.inr ⟨e, c, rest, he, hend, heq⟩)

theorem next_token_cases (checks : Bool) (he : Token e c) (hend : c.valueType.isContainerEnd = false)
    (rest : List UInt8) (nesting : ℕ) :
    (∃ err, control rest = .error err ∧
      next checks ⟨e ++ rest, nesting⟩ = .ok (some (.error err), ⟨rest, nesting⟩)) ∨
    (∃ c' nesting' item, control rest = .ok c' ∧ enter checks c' nesting = .ok nesting' ∧
      NoPanic (tlv checks (e ++ rest)) ∧
      next checks ⟨e ++ rest, nesting⟩ = .ok (some item, ⟨rest, nesting'⟩)) ∨
    (next checks ⟨e ++ rest, nesting⟩ = .error .panic ∧ ∃ c', control rest = .ok c' ∧
      (enter checks c' nesting = .error .panic ∨ ¬ NoPanic (tlv checks (e ++ rest)))) := by
  rw [next_token (control_append he.control rest) hend, he.nextEnter rest]
  dsimp only
  cases hcontrol : control rest with
  | error err => exact .inl ⟨err, rfl, rfl⟩
  | ok c' =>
    dsimp only
    obtain ⟨nesting', henter, -⟩ | ⟨henter, -⟩ := enter_cases checks c' nesting
    · rw [henter]
      dsimp only
      cases htlv : tlv checks (e ++ rest) with
      | ok item => exact .inr (.inl ⟨c', nesting', .ok item, rfl, henter, noPanic_ok _, rfl⟩)
      | error stop =>
        cases stop with
        | error err => exact .inr (.inl ⟨c', nesting', .error err, rfl, henter, noPanic_error _, rfl⟩)
        | panic => exact .inr (.inr ⟨rfl, c', rfl, .inr fun h => h rfl⟩)
    · rw [henter]
      exact .inr (.inr ⟨rfl, c', rfl, .inl henter⟩)

theorem next_atEnd (h : AtEnd seq) (nesting : ℕ) :
    next checks ⟨seq, nesting⟩ = .ok (none, ⟨seq, nesting⟩) := by
  have hcurrent := current_atEnd h
  have hnext := next_of_current checks ⟨seq, nesting⟩ fun s hs =>
    (Except.ok.inj (hcurrent.symm.trans hs)).symm
  rw [hnext]
  dsimp only
  rw [hcurrent]

theorem control_flatten {tokens : List (List UInt8)} {tail : List UInt8} (htokens : ∀ e ∈ tokens, IsToken e)
    (htail : AtEnd tail) :
    (tokens = [] ∧ tail = [] ∧ ∃ err, control (tokens.flatten ++ tail) = .error err) ∨
    (tokens = [] ∧ tail ≠ [] ∧ control (tokens.flatten ++ tail) = .ok ⟨.anonymous, .endCnt⟩) ∨
    ∃ t ts c, tokens = t :: ts ∧ Token t c ∧ c.valueType.isContainerEnd = false ∧
      control (tokens.flatten ++ tail) = .ok c := by
  cases tokens with
  | nil =>
    rcases htail with rfl | ⟨rest, rfl⟩
    · exact .inl ⟨rfl, rfl, _, rfl⟩
    · exact .inr (.inl ⟨rfl, List.cons_ne_nil _ _, rfl⟩)
  | cons t ts =>
    obtain ⟨c, ht, hend⟩ := htokens t List.mem_cons_self
    refine .inr (.inr ⟨t, ts, c, rfl, ht, hend, ?_⟩)
    rw [List.flatten_cons, List.append_assoc, control_append ht.control]

theorem Flat.cons (he : Token e c) (hend : c.valueType.isContainerEnd = false) {c' : TLVControl}
    {nesting' : ℕ} (hc' : control rest = .ok c') (henter : enter checks c' nesting = .ok nesting')
    (hno : NoPanic (tlv checks (e ++ rest))) (h : Flat checks nesting' rest) :
    Flat checks nesting (e ++ rest) := by
  obtain ⟨tokens, tail, htokens, htail, rfl, hchecks⟩ := h
  refine ⟨e :: tokens, tail, List.forall_mem_cons.mpr ⟨⟨c, he, hend⟩, htokens⟩, htail,
    (List.append_assoc ..).symm, fun htrue => ⟨fun before e' after heq hstart => ?_, fun _ hne => ?_⟩⟩
  · cases before with
    | nil =>
      obtain ⟨rfl, rfl⟩ := List.cons.inj heq
      exact (noPanic_tlv_iff he hend _).mp hno htrue ((isStart_iff he).mp hstart)
    | cons _ before => exact (hchecks htrue).1 before e' after (List.cons.inj heq).2 hstart
  · change 0 < nesting ∨ ∃ x ∈ tokens, IsStart x
    obtain ⟨n, hn, -, -, hfrom, hleave⟩ | ⟨hpanic, -⟩ := enter_cases checks c' nesting
    · obtain rfl : n = nesting' := Except.ok.inj (hn.symm.trans henter)
      obtain ⟨-, rfl, -⟩ | ⟨-, -, hcontrol⟩ | ⟨t, ts, d, rfl, ht, hd, hcontrol⟩ :=
        control_flatten htokens htail
      · exact absurd rfl hne
      · obtain rfl := Except.ok.inj (hc'.symm.trans hcontrol)
        exact .inl (hleave rfl htrue)
      · obtain rfl : c' = d := Except.ok.inj (hc'.symm.trans hcontrol)
        rcases (hchecks htrue).2 (List.cons_ne_nil t ts) hne with hpos | ⟨x, hx, hstart⟩
        · rcases hfrom hpos hd with hstart | hpos
          · exact .inr ⟨t, List.mem_cons_self, c', ht, hstart⟩
          · exact .inl hpos
        · exact .inr ⟨x, List.mem_cons_of_mem _ hx, hstart⟩
    · cases hpanic.symm.trans henter

/-- **The iterator over tokens** finishes exactly on tokens up to an end. -/
theorem finishes_iff (checks : Bool) (nesting : ℕ) (seq : List UInt8) :
    Finishes (next checks) ⟨seq, nesting⟩ ↔ Flat checks nesting seq := by
  constructor
  · intro h
    generalize hit : (⟨seq, nesting⟩ : TLVSequenceTLVIter) = it at h
    induction h generalizing seq nesting with
    | done h =>
      subst hit
      obtain ⟨hend, -⟩ | ⟨err, hnext⟩ | ⟨e, c, rest, he, hend, rfl⟩ := next_cases checks seq nesting
      · exact flat_of_atEnd hend nesting
      · cases h.symm.trans hnext
      · obtain ⟨err, -, hnext⟩ | ⟨_, _, _, -, -, -, hnext⟩ | ⟨hnext, -⟩ :=
          next_token_cases checks he hend rest nesting <;> cases h.symm.trans hnext
    | step h _ ih =>
      subst hit
      obtain ⟨-, hnext⟩ | ⟨err, hnext⟩ | ⟨e, c, rest, he, hend, rfl⟩ := next_cases checks seq nesting
      · cases h.symm.trans hnext
      · exact ih _ _ (Prod.mk.inj (Except.ok.inj (h.symm.trans hnext))).2.symm
      · obtain ⟨err, hcontrol, hnext⟩ | ⟨c', nesting', item, hcontrol, henter, hno, hnext⟩ | ⟨hnext, -⟩ :=
          next_token_cases checks he hend rest nesting
        · -- the bytes end with the token
          have hrest := ih _ _ (Prod.mk.inj (Except.ok.inj (h.symm.trans hnext))).2.symm
          obtain ⟨tokens, tail, htokens, htail, rfl, -⟩ := hrest
          obtain ⟨rfl, rfl, -⟩ | ⟨-, -, hok⟩ | ⟨_, _, _, -, -, -, hok⟩ := control_flatten htokens htail
          · refine ⟨[e], [], List.forall_mem_singleton.mpr ⟨c, he, hend⟩, htail, by simp,
              fun _ => ⟨fun before e' after heq _ => ?_, fun _ h => absurd rfl h⟩⟩
            cases before with
            | nil =>
              obtain ⟨-, rfl⟩ := List.cons.inj heq
              exact not_bursts_nil
            | cons _ before => cases before <;> cases heq
          · cases hcontrol.symm.trans hok
          · cases hcontrol.symm.trans hok
        · exact (ih _ _ (Prod.mk.inj (Except.ok.inj (h.symm.trans hnext))).2.symm).cons he hend hcontrol
            henter hno
        · cases h.symm.trans hnext
  · rintro ⟨tokens, tail, htokens, htail, rfl, hchecks⟩
    induction tokens generalizing nesting with
    | nil => exact .done (next_atEnd htail nesting)
    | cons e tokens ih =>
      obtain ⟨⟨c, he, hend⟩, htokens⟩ := List.forall_mem_cons.mp htokens
      have hfirst := control_flatten htokens htail
      rw [List.flatten_cons, List.append_assoc]
      obtain ⟨err, hcontrol, hnext⟩ | ⟨c', nesting', item, hcontrol, henter, -, hnext⟩ |
          ⟨-, c', hcontrol, hpanic⟩ := next_token_cases checks he hend (tokens.flatten ++ tail) nesting
      · -- the bytes end with the token
        obtain ⟨rfl, rfl, -⟩ | ⟨-, -, hok⟩ | ⟨_, _, _, -, -, -, hok⟩ := hfirst
        · exact .step hnext (.done (next_atEnd (.inl rfl) nesting))
        · cases hcontrol.symm.trans hok
        · cases hcontrol.symm.trans hok
      · refine .step hnext (ih nesting' htokens fun htrue =>
          ⟨fun before e' after heq => ?_, fun hne htail => ?_⟩)
        · exact (hchecks htrue).1 (e :: before) e' after (congrArg (e :: ·) heq)
        · obtain ⟨n, hn, hstart, hmono, -⟩ | ⟨hpanic, -⟩ := enter_cases checks c' nesting
          · obtain rfl : n = nesting' := Except.ok.inj (hn.symm.trans henter)
            obtain ⟨rfl, -⟩ | ⟨rfl, -⟩ | ⟨t, ts, d, rfl, ht, hd, hok⟩ := hfirst
            · exact absurd rfl hne
            · exact absurd rfl hne
            · obtain rfl : c' = d := Except.ok.inj (hcontrol.symm.trans hok)
              rcases (hchecks htrue).2 (List.cons_ne_nil _ _) htail with hpos | ⟨x, hx, hxstart⟩
              · exact .inl (hpos.trans_le (hmono hd))
              · rcases List.mem_cons.mp hx with rfl | hx
                · exact .inl (hstart ((isStart_iff ht).mp hxstart))
                · exact .inr ⟨x, hx, hxstart⟩
          · cases hpanic.symm.trans henter
      · exfalso
        rcases hpanic with hpanic | hpanic
        · -- an end marker where no container is open
          obtain ⟨n, hn, -⟩ | ⟨-, htrue, rfl, hmarker⟩ := enter_cases checks c' nesting
          · cases hpanic.symm.trans hn
          · obtain ⟨-, -, err, herror⟩ | ⟨rfl, hne, -⟩ | ⟨t, ts, d, -, -, hd, hok⟩ := hfirst
            · cases hcontrol.symm.trans herror
            · rcases (hchecks htrue).2 (List.cons_ne_nil _ _) hne with hpos | ⟨x, hx, -⟩
              · exact absurd hpos (lt_irrefl _)
              · cases hx
            · obtain rfl : c' = d := Except.ok.inj (hcontrol.symm.trans hok)
              rw [TLVControl.isContainerEnd, hd, Bool.and_false] at hmarker
              cases hmarker
        · refine hpanic ((noPanic_tlv_iff he hend _).mpr fun htrue hstart => ?_)
          exact (hchecks htrue).1 [] e tokens rfl ⟨c, he, hstart⟩

end TLVSequenceTLVIter

end Tokens

/-! ## All iterators -/

end RsMatter
