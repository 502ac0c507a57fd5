import RsMatter.TlvChecked

/-!
# The reader is total (`tlv/read.rs`)

The reader with machine integers goes over an element, gives its tag, its value and its members, and searches
them, without a panic, and what it gives lies in the slice, exactly if the slice is not overlong.
-/

namespace RsMatter

namespace Checked

open Stop TLVSequence

/-! ## Going over an element -/

section Next

variable {u : PointerWidth} {seq next rest b b' : List UInt8} {c : TLVControl} {fuel level level' : ℕ}

theorem Runs.shift (h : Runs u level b level') : Runs u (level + 1) b (level' + 1) := by
  induction h with
  | nil => exact .nil
  | leaf he hleaf _ ih => exact .leaf he hleaf ih
  | start he hstart _ ih => exact .start he hstart ih
  | stop _ ih => exact .stop ih

theorem Runs.trans {level'' : ℕ} (h : Runs u level b level') (h' : Runs u level' b' level'') :
    Runs u level (b ++ b') level'' := by
  induction h with
  | nil => exact h'
  | leaf he hleaf _ ih =>
    rw [List.append_assoc]
    exact .leaf he hleaf (ih h')
  | start he hstart _ ih =>
    rw [List.append_assoc]
    exact .start he hstart (ih h')
  | stop _ ih => exact .stop (ih h')

theorem containerNextLoop_cases {out : Except (Stop ErrorCode) (List UInt8)}
    (h : containerNextLoop u (fuel + 1) (level + 1) seq = out) :
    (∃ e, out = .error (.error e)) ∨ (out = .error .panic ∧ Deep (level + 1) seq) ∨
      ∃ e c rest, Tok u e c ∧ seq = e ++ rest ∧
        ((c.valueType.isContainer = false ∧ containerNextLoop u fuel (level + 1) rest = out) ∨
        (c.valueType.isContainerStart = true ∧ containerNextLoop u fuel (level + 2) rest = out) ∨
        (c = ⟨.anonymous, .endCnt⟩ ∧ containerNextLoop u fuel level rest = out)) := by
  rw [containerNextLoop] at h
  cases hc : control seq with
  | error e =>
    rw [hc] at h
    exact .inl ⟨e, h.symm⟩
  | ok c =>
    rw [hc, lift_ok, ok_bind] at h
    -- the rounds after this token
    have hgo (level' : ℕ) (h : (nextEnter u seq >>= fun next => containerNextLoop u fuel level' next) = out) :
        (∃ e, out = .error (.error e)) ∨
          ∃ e rest, Tok u e c ∧ seq = e ++ rest ∧ containerNextLoop u fuel level' rest = out := by
      cases hnext : nextEnter u seq with
      | error stop =>
        rw [hnext] at h
        cases stop with
        | error e => exact .inl ⟨e, h.symm⟩
        | panic => exact absurd hnext (noPanic_nextEnter u seq)
      | ok rest =>
        rw [hnext, ok_bind] at h
        obtain ⟨e, he, heq⟩ := exists_tok hc hnext
        exact .inr ⟨e, rest, he, heq, h⟩
    rcases control_cases c with hleaf | hstart | hend
    · rw [nextLevel_of_leaf hleaf, ok_bind] at h
      refine (hgo _ h).imp id fun ⟨e, rest, he, heq, h⟩ => .inr ⟨e, c, rest, he, heq, .inl ⟨hleaf, h⟩⟩
    · rw [nextLevel_of_start hstart] at h
      split at h
      · rw [ok_bind] at h
        refine (hgo _ h).imp id fun ⟨e, rest, he, heq, h⟩ =>
          .inr ⟨e, c, rest, he, heq, .inr (.inl ⟨hstart, h⟩)⟩
      · next hdeep => exact .inr (.inl ⟨h.symm, c, hc, hstart, Nat.le_of_not_lt hdeep⟩)
    · obtain ⟨hmarker, hlevel⟩ | ⟨-, hlevel⟩ := nextLevel_of_end hend level
      · rw [hlevel, ok_bind] at h
        refine (hgo _ h).imp id fun ⟨e, rest, he, heq, h⟩ =>
          .inr ⟨e, c, rest, he, heq, .inr (.inr ⟨hmarker, h⟩)⟩
      · rw [hlevel] at h
        exact .inl ⟨_, h.symm⟩

/-- The loop goes over tokens that close the containers that are open. -/
theorem runs_of_containerNextLoop (h : containerNextLoop u fuel level seq = .ok rest) :
    ∃ b, seq = b ++ rest ∧ ∀ outer, Runs u (level + (outer + 1)) b (outer + 1) := by
  induction fuel generalizing level seq with
  | zero =>
    cases level with
    | zero =>
      refine ⟨[], Except.ok.inj h, fun outer => ?_⟩
      rw [Nat.zero_add]
      exact .nil
    | succ level => cases h
  | succ fuel ih =>
    cases level with
    | zero =>
      refine ⟨[], Except.ok.inj h, fun outer => ?_⟩
      rw [Nat.zero_add]
      exact .nil
    | succ level =>
      obtain ⟨e, h⟩ | ⟨h, -⟩ | ⟨e, c, next, he, rfl, hcase⟩ := containerNextLoop_cases h
      · cases h
      · cases h
      · rcases hcase with ⟨hleaf, h⟩ | ⟨hstart, h⟩ | ⟨rfl, h⟩
        · obtain ⟨b, rfl, hruns⟩ := ih h
          exact ⟨e ++ b, (List.append_assoc ..).symm, fun outer => .leaf he hleaf (hruns outer)⟩
        · obtain ⟨b, rfl, hruns⟩ := ih h
          refine ⟨e ++ b, (List.append_assoc ..).symm, fun outer => .start he hstart ?_⟩
          have hlevel : level + 1 + (outer + 1) + 1 = level + 2 + (outer + 1) := by omega
          rw [hlevel]
          exact hruns outer
        · obtain ⟨b, rfl, hruns⟩ := ih h
          obtain rfl := he.eq_endMarker
          refine ⟨endMarker :: b, rfl, fun outer => ?_⟩
          have hlevel : level + 1 + (outer + 1) = level + outer + 2 := by omega
          rw [hlevel]
          exact .stop (hruns outer)

theorem deep_of_containerNextLoop (h : containerNextLoop u fuel (level + 1) seq = .error .panic) :
    ∃ b rest level', Runs u (level + 1) b level' ∧ seq = b ++ rest ∧ Deep level' rest := by
  induction fuel generalizing level seq with
  | zero => cases h
  | succ fuel ih =>
    obtain ⟨e, h⟩ | ⟨-, hdeep⟩ | ⟨e, c, next, he, rfl, hcase⟩ := containerNextLoop_cases h
    · cases h
    · exact ⟨[], seq, level + 1, .nil, rfl, hdeep⟩
    · rcases hcase with ⟨hleaf, h⟩ | ⟨hstart, h⟩ | ⟨rfl, h⟩
      · obtain ⟨b, rest, level', hruns, rfl, hdeep⟩ := ih h
        exact ⟨e ++ b, rest, level', .leaf he hleaf hruns, (List.append_assoc ..).symm, hdeep⟩
      · obtain ⟨b, rest, level', hruns, rfl, hdeep⟩ := ih h
        exact ⟨e ++ b, rest, level', .start he hstart hruns, (List.append_assoc ..).symm, hdeep⟩
      · cases level with
        | zero => cases fuel <;> cases h
        | succ level =>
          obtain ⟨b, rest, level', hruns, rfl, hdeep⟩ := ih h
          obtain rfl := he.eq_endMarker
          exact ⟨endMarker :: b, rest, level', .stop hruns, rfl, hdeep⟩

/-- **A step to the next element** gives what follows the element, or panics in a container that is too
deep. -/
theorem containerNext_cases (u : PointerWidth) (seq : List UInt8) :
    (∃ e, containerNext u seq = .error (.error e)) ∨
    (∃ e rest, containerNext u seq = .ok rest ∧ seq = e ++ rest ∧ Runs u 1 e 1) ∨
    (∃ e c inner, containerNext u seq = .error .panic ∧ seq = e ++ inner ∧ Tok u e c ∧
      c.valueType.isContainerStart = true ∧
      ∃ b rest level, Runs u 1 b level ∧ inner = b ++ rest ∧ Deep level rest) := by
  cases hc : control seq with
  | error e =>
    cases seq with
    | nil => exact .inr (.inl ⟨[], [], rfl, rfl, .nil⟩)
    | cons byte bytes =>
      refine .inl ⟨e, ?_⟩
      rw [containerNext, List.isEmpty_cons, if_neg Bool.false_ne_true, hc]
      rfl
  | ok c =>
    rw [containerNext, isEmpty_of_ne_nil (ne_nil_of_control hc), if_neg Bool.false_ne_true, hc, lift_ok,
      ok_bind]
    cases hend : c.valueType.isContainerEnd with
    | true =>
      rw [if_pos rfl]
      cases c.confirmContainerEnd with
      | error e => exact .inl ⟨e, rfl⟩
      | ok _ => exact .inr (.inl ⟨[], seq, rfl, rfl, .nil⟩)
    | false =>
      rw [if_neg Bool.false_ne_true]
      cases hnext : nextEnter u seq with
      | error stop =>
        cases stop with
        | error e => exact .inl ⟨e, rfl⟩
        | panic => exact absurd hnext (noPanic_nextEnter u seq)
      | ok inner =>
        obtain ⟨e, he, rfl⟩ := exists_tok hc hnext
        rw [ok_bind]
        rcases control_cases c with hleaf | hstart | hend'
        · rw [hleaf, if_neg Bool.false_ne_true]
          refine .inr (.inl ⟨e, inner, rfl, rfl, ?_⟩)
          exact List.append_nil e ▸ Runs.leaf he hleaf .nil
        · rw [isContainer_of_start hstart, if_pos rfl]
          cases hloop : containerNextLoop u (e ++ inner).length 1 inner with
          | error stop =>
            cases stop with
            | error e => exact .inl ⟨e, rfl⟩
            | panic =>
              exact .inr (.inr ⟨e, c, inner, rfl, rfl, he, hstart, deep_of_containerNextLoop hloop⟩)
          | ok rest =>
            obtain ⟨b, rfl, hruns⟩ := runs_of_containerNextLoop hloop
            exact .inr (.inl ⟨e ++ b, rest, rfl, (List.append_assoc ..).symm, .start he hstart (hruns 0)⟩)
        · rw [hend'] at hend
          cases hend

theorem bursts_of_deep {e inner : List UInt8} {n : ℕ} (hb : Runs u 1 b 1) (he : Tok u e c)
    (hstart : c.valueType.isContainerStart = true)
    (h : ∃ b rest level, Runs u 1 b level ∧ inner = b ++ rest ∧ Deep level rest) :
    Bursts u n 1 (b ++ (e ++ inner)) := by
  obtain ⟨b', rest, level, hruns, rfl, c', hc', hstart', hdeep⟩ := h
  refine ⟨b ++ (e ++ b'), rest, level + 1, hb.trans (.start he hstart hruns.shift), ?_, .inr ?_⟩
  · simp only [List.append_assoc]
  · exact ⟨c', hc', hstart', hdeep.trans (Nat.le_succ _)⟩

end Next

/-! ## Slices of the input -/

section Slices

variable {u : PointerWidth} {bytes seq slice : List UInt8} {c : TLVControl}

theorem nextEnter_suffix {next : List UInt8} (h : nextEnter u seq = .ok next) : next <:+ seq := by
  cases seq with
  | nil => exact Except.ok.inj h ▸ List.suffix_refl _
  | cons byte rest =>
    obtain ⟨L, -, -, rfl⟩ := (nextEnter_eq_ok (List.cons_ne_nil byte rest)).mp h
    exact List.drop_suffix ..

theorem containerValue_infix (hc : control bytes = .ok c) (h : containerValue u bytes c = .ok slice) :
    slice <:+: bytes := by
  obtain ⟨n, -, h⟩ := Prog.except_bind_eq_ok.mp h
  obtain ⟨data, hdata, h⟩ := Prog.except_bind_eq_ok.mp h
  obtain ⟨-, rfl⟩ := (valueStart_eq_ok' hc).mp hdata
  obtain ⟨-, rfl⟩ := sliceTo_eq_ok.mp (lift_eq_ok.mp h)
  exact (List.take_prefix ..).isInfix.trans (List.drop_suffix ..).isInfix

theorem length_containerValue (hleaf : c.valueType.isContainer = false) {n : ℕ}
    (hsize : c.valueType.fixedSize = some n) (h : containerValue u bytes c = .ok slice) :
    slice.length = n := by
  obtain ⟨n', hn', h⟩ := Prog.except_bind_eq_ok.mp h
  obtain ⟨data, -, h⟩ := Prog.except_bind_eq_ok.mp h
  obtain ⟨hle, rfl⟩ := sliceTo_eq_ok.mp (lift_eq_ok.mp h)
  rw [containerValueLen, hleaf, if_neg Bool.false_ne_true, valueLen, hsize] at hn'
  obtain rfl := Except.ok.inj hn'
  rw [List.length_take, Nat.min_eq_left hle]

theorem number_of_length {n : ℕ} (h : slice.length = n) :
    number n slice = .ok (BitVec.ofNat (8 * n) (ofLE slice)) := by
  rw [number, TLVElement.tryInto, if_pos h]
  rfl

theorem utf8Bytes_of_fromUtf8 {text : String} (h : TLVElement.fromUtf8 slice = .ok text) :
    utf8Bytes text = slice := by
  rw [TLVElement.fromUtf8, String.fromUTF8?] at h
  by_cases hvalid : (⟨slice.toArray⟩ : ByteArray).IsValidUTF8
  · rw [dif_pos hvalid] at h
    obtain rfl := Except.ok.inj h
    rfl
  · rw [dif_neg hvalid] at h
    cases h

theorem valueOf_ensures {t : TLVValueType}
    (hsize : ∀ n, t.isContainer = false → t.fixedSize = some n → slice.length = n) :
    Ensures (valueOf slice t) fun v => ∀ s ∈ sliceOf v, s = slice := by
  have hnumber (n : ℕ) (f : BitVec (8 * n) → TLVValue) (hlen : slice.length = n)
      (hno : ∀ v, sliceOf (f v) = none) : Ensures (number n slice >>= fun v => .ok (f v))
        fun v => ∀ s ∈ sliceOf v, s = slice := by
    rw [number_of_length hlen, ok_bind]
    refine ensures_ok fun s hs => ?_
    rw [hno] at hs
    exact absurd hs (Option.not_mem_none s)
  have htext (f : String → TLVValue) (hf : ∀ s, sliceOf (f s) = some (utf8Bytes s)) :
      Ensures (lift (TLVElement.fromUtf8 slice) >>= fun s => .ok (f s))
        fun v => ∀ s ∈ sliceOf v, s = slice := by
    cases htext : TLVElement.fromUtf8 slice with
    | error e => exact ensures_error e
    | ok text =>
      refine ensures_ok fun s hs => ?_
      rw [hf, Option.mem_some_iff] at hs
      rw [← hs, utf8Bytes_of_fromUtf8 htext]
  have hnone (v : TLVValue) (hno : sliceOf v = none) :
      Ensures (.ok v : Except (Stop ErrorCode) TLVValue) fun v => ∀ s ∈ sliceOf v, s = slice := by
    refine ensures_ok fun s hs => ?_
    rw [hno] at hs
    exact absurd hs (Option.not_mem_none s)
  cases t with
  | s8 => exact hnumber 1 .s8 (hsize 1 rfl rfl) fun _ => rfl
  | s16 => exact hnumber 2 .s16 (hsize 2 rfl rfl) fun _ => rfl
  | s32 => exact hnumber 4 .s32 (hsize 4 rfl rfl) fun _ => rfl
  | s64 => exact hnumber 8 .s64 (hsize 8 rfl rfl) fun _ => rfl
  | u8 => exact hnumber 1 .u8 (hsize 1 rfl rfl) fun _ => rfl
  | u16 => exact hnumber 2 .u16 (hsize 2 rfl rfl) fun _ => rfl
  | u32 => exact hnumber 4 .u32 (hsize 4 rfl rfl) fun _ => rfl
  | u64 => exact hnumber 8 .u64 (hsize 8 rfl rfl) fun _ => rfl
  | f32 => exact hnumber 4 .f32 (hsize 4 rfl rfl) fun _ => rfl
  | f64 => exact hnumber 8 .f64 (hsize 8 rfl rfl) fun _ => rfl
  | utf8l => exact htext .utf8l fun _ => rfl
  | utf16l => exact htext .utf16l fun _ => rfl
  | utf32l => exact htext .utf32l fun _ => rfl
  | utf64l => exact htext .utf64l fun _ => rfl
  | str8l | str16l | str32l | str64l =>
    exact ensures_ok fun s hs => (Option.mem_some_iff.mp hs).symm
  | «false» | «true» | null | struct | array | list | endCnt => exact hnone _ rfl

theorem tag_eq (bytes : List UInt8) : tag bytes = lift (TLVElement.tag bytes) := by
  rw [tag, TLVElement.tag, lift_bind]
  refine bind_congr fun c => ?_
  rw [lift_bind]
  refine bind_congr fun data => ?_
  by_cases hle : c.tagType.size ≤ data.length
  · have hlen : (data.take c.tagType.size).length = c.tagType.size := by
      rw [List.length_take, Nat.min_eq_left hle]
    rw [sliceTo, if_pos hle, lift_ok, ok_bind, ok_bind]
    generalize data.take c.tagType.size = slice at hlen
    cases htype : c.tagType with
    | anonymous => rfl
    | context =>
      rw [htype] at hlen
      obtain ⟨id, rfl⟩ := List.length_eq_one_iff.mp hlen
      rfl
    | commonPrf16 | implPrf16 =>
      have hlen : slice.length = 2 := by rw [hlen, htype]; rfl
      simp only
      rw [number_of_length hlen]
      rfl
    | commonPrf32 | implPrf32 =>
      have hlen : slice.length = 4 := by rw [hlen, htype]; rfl
      simp only
      rw [number_of_length hlen]
      rfl
    | fullQual48 =>
      rw [htype] at hlen
      rcases slice with _ | ⟨_, _ | ⟨_, _ | ⟨_, _ | ⟨_, _ | ⟨_, _ | ⟨_, _ | ⟨_, _⟩⟩⟩⟩⟩⟩⟩ <;> first | rfl | cases hlen
    | fullQual64 =>
      rw [htype] at hlen
      rcases slice with _ | ⟨_, _ | ⟨_, _ | ⟨_, _ | ⟨_, _ | ⟨_, _ | ⟨_, _ | ⟨_, _ | ⟨_, _ | ⟨_, _⟩⟩⟩⟩⟩⟩⟩⟩⟩ <;>
        first | rfl | cases hlen
  · rw [sliceTo, if_neg hle]
    rfl

theorem noPanic_tag (bytes : List UInt8) : NoPanic (tag bytes) := by
  rw [tag_eq]
  exact noPanic_lift _

end Slices

/-! ## Total, exactly when -/

section Exact

variable {u : PointerWidth} {bytes seq : List UInt8} {c : TLVControl}

/-- The length of a value is counted without a panic exactly if its members do not burst. -/
theorem noPanic_containerValueLen_iff (hc : control bytes = .ok c) :
    NoPanic (containerValueLen u bytes c) ↔ ¬ ∃ head c members, bytes = head ++ members ∧ Tok u head c ∧
      c.valueType.isContainer = true ∧ Bursts u 0 1 members := by
  have hhead {head members : List UInt8} {c' : TLVControl} (hbytes : bytes = head ++ members)
      (he : Tok u head c') : c = c' := by
    rw [hbytes, control_append he.control] at hc
    exact (Except.ok.inj hc).symm
  rw [containerValueLen]
  cases hcontainer : c.valueType.isContainer with
  | false =>
    rw [if_neg Bool.false_ne_true]
    refine iff_of_true (noPanic_valueLen hc) ?_
    rintro ⟨head, c', members, hbytes, he, htrue, -⟩
    rw [← hhead hbytes he, hcontainer] at htrue
    cases htrue
  | true =>
    rw [if_pos rfl, NoPanic, not_iff_not]
    cases hnext : nextEnter u bytes with
    | error stop =>
      refine iff_of_false (fun h => ?_) ?_
      · obtain ⟨fuel, hfuel⟩ := Nat.exists_eq_add_of_le' (List.length_pos_iff.mpr (ne_nil_of_control hc))
        rw [hfuel, containerValueLenLoop, hnext] at h
        cases h
        exact noPanic_nextEnter u bytes hnext
      · rintro ⟨head, c', members, rfl, he, -⟩
        cases hnext.symm.trans (he.nextEnter members)
    | ok members =>
      obtain ⟨head, he, rfl⟩ := exists_tok hc hnext
      have hone := he.one_le_length
      rw [containerValueLenLoop_eq_panic_iff hnext (by rw [List.length_append]; omega)]
      constructor
      · intro h
        exact ⟨head, c, members, rfl, he, hcontainer, h⟩
      · rintro ⟨head', c', members', heq, he', -, h⟩
        have hsame : members' = members :=
          Except.ok.inj ((he'.nextEnter members').symm.trans (heq ▸ hnext))
        exact hsame ▸ h

theorem noPanic_value_iff (hc : control bytes = .ok c) :
    NoPanic (value u bytes) ↔ NoPanic (containerValueLen u bytes c) := by
  rw [value, hc, lift_ok, ok_bind]
  refine ⟨fun h => h.of_bind.of_bind, fun h => ?_⟩
  refine NoPanic.bind (h.bind fun _ _ => (noPanic_valueStart hc).bind fun _ _ => noPanic_lift _)
    fun slice hslice => ?_
  exact (valueOf_ensures fun n hleaf hsize => length_containerValue hleaf hsize hslice).1

/-- The length of the element is counted without a panic exactly if the slice is not overlong. -/
theorem noPanic_containerLen_iff (hlen : bytes.length < 2 ^ u.bits) :
    NoPanic (containerLen u bytes) ↔ ¬ Overlong u bytes := by
  rw [containerLen, Overlong, not_or]
  cases hc : control bytes with
  | error e =>
    refine iff_of_true (noPanic_error e) ⟨?_, ?_⟩
    · rintro ⟨c, h, -⟩
      cases h
    · rintro ⟨head, c, members, rfl, he, -⟩
      cases hc.symm.trans (control_append he.control members)
  | ok c =>
    rw [lift_ok, ok_bind, ← noPanic_containerValueLen_iff hc]
    constructor
    · intro h
      refine ⟨?_, h.of_bind⟩
      rintro ⟨c', hc', hleaf, L, hL, hlong⟩
      obtain rfl := Except.ok.inj hc'
      obtain ⟨c', n, hc', hn, rfl⟩ := extent_eq_ok.mp hL
      obtain rfl := Except.ok.inj (hc.symm.trans hc')
      rw [containerValueLen, hleaf, if_neg Bool.false_ne_true, (valueLen_eq_ok hc).mpr ⟨n, hn, rfl⟩, ok_bind,
        add, if_neg (by omega)] at h
      exact h rfl
    · rintro ⟨hshort, hcount⟩
      refine hcount.bind fun n hn => ?_
      rw [add]
      split
      · exact noPanic_ok _
      · next hlong =>
        exfalso
        rw [containerValueLen] at hn
        cases hcontainer : c.valueType.isContainer with
        | false =>
          rw [hcontainer, if_neg Bool.false_ne_true] at hn
          obtain ⟨m, hm, rfl⟩ := (valueLen_eq_ok hc).mp hn
          exact hshort ⟨c, rfl, hcontainer, _, extent_eq_ok.mpr ⟨c, m, hc, hm, rfl⟩, by omega⟩
        | true =>
          -- what was counted is there
          rw [hcontainer, if_pos rfl] at hn
          cases hnext : nextEnter u bytes with
          | error stop =>
            obtain ⟨fuel, hfuel⟩ := Nat.exists_eq_add_of_le' (List.length_pos_iff.mpr (ne_nil_of_control hc))
            rw [hfuel, containerValueLenLoop, hnext] at hn
            cases hn
          | ok members =>
            have hle := le_of_containerValueLenLoop hnext hn
            obtain ⟨head, he, rfl⟩ := exists_tok hc hnext
            obtain ⟨c', m, hc', -, hhead⟩ := extent_eq_ok.mp he.extent
            obtain rfl : c = c' := Except.ok.inj (he.control.symm.trans hc')
            rw [List.length_append] at hlen
            omega

/-- A step to the next element does not panic in a slice that is not overlong. -/
theorem iterNext_ensures (h : ¬ Overlong u bytes) : Ensures (iterNext u bytes) fun step =>
    (∀ elem ∈ step.1, elem <:+: bytes) ∧ step.2 <:+: bytes := by
  rw [iterNext]
  cases hcurrent : current bytes with
  | error e => exact ensures_error e
  | ok elem =>
    rw [lift_ok, ok_bind]
    obtain ⟨e, herror⟩ | ⟨e, rest, hnext, rfl, -⟩ | ⟨e, c, inner, -, rfl, he, hstart, hdeep⟩ :=
      containerNext_cases u bytes
    · rw [herror]
      exact ensures_error e
    · rw [hnext]
      refine ensures_ok ⟨fun elem' helem' => ?_, (List.suffix_append ..).isInfix⟩
      cases elem with
      | nil => exact absurd helem' (Option.not_mem_none _)
      | cons byte elem =>
        obtain ⟨heq, -⟩ := eq_of_current hcurrent (List.cons_ne_nil byte elem)
        rw [← Option.mem_some_iff.mp helem', heq]
    · obtain ⟨b, rest, level, hruns, rfl, hdeep⟩ := hdeep
      exact absurd (.inr ⟨e, c, _, rfl, he, isContainer_of_start hstart, b, rest, level, hruns, rfl,
        .inr hdeep⟩) h

theorem findCtxLoop_ensures {members b : List UInt8} (h : ¬ Bursts u 0 1 members) (ctx : BitVec 8) (fuel : ℕ)
    (hb : Runs u 1 b 1) (hmembers : members = b ++ seq) :
    Ensures (findCtxLoop u ctx fuel seq) (· <:+: members) := by
  induction fuel generalizing seq b with
  | zero => exact ensures_error _
  | succ fuel ih =>
    rw [findCtxLoop, iterNext]
    cases hcurrent : current seq with
    | error e => exact ensures_error e
    | ok elem =>
      rw [lift_ok, ok_bind]
      obtain ⟨e, herror⟩ | ⟨e, rest, hnext, rfl, he⟩ | ⟨e, c, inner, -, rfl, he, hstart, hdeep⟩ :=
        containerNext_cases u seq
      · rw [herror]
        exact ensures_error e
      · rw [hnext]
        cases elem with
        | nil => exact ensures_ok (List.nil_infix ..)
        | cons byte elem =>
          obtain ⟨heq, -⟩ := eq_of_current hcurrent (List.cons_ne_nil byte elem)
          change Ensures (lift (TLVElement.tryCtx (byte :: elem)) >>= fun elemCtx =>
            if elemCtx = some ctx then pure (byte :: elem) else findCtxLoop u ctx fuel rest) _
          cases TLVElement.tryCtx (byte :: elem) with
          | error e => exact ensures_error e
          | ok elemCtx =>
            rw [lift_ok, ok_bind]
            split
            · rw [hmembers, heq]
              exact ensures_ok (List.suffix_append ..).isInfix
            · exact ih (hb.trans he) (by rw [hmembers, List.append_assoc])
      · exact absurd (hmembers ▸ bursts_of_deep hb he hstart hdeep) h

/-- **The reader is total** on a slice exactly if the slice is not overlong. -/
theorem total_iff (u : PointerWidth) (bytes : List UInt8) (hlen : bytes.length < 2 ^ u.bits) :
    Total u bytes ↔ ¬ Overlong u bytes := by
  refine ⟨fun h => (noPanic_containerLen_iff hlen).mp h.containerLen, fun h => ?_⟩
  have hvalue (c : TLVControl) (hc : control bytes = .ok c) : NoPanic (containerValue u bytes c) := by
    refine NoPanic.bind ?_ fun _ _ => (noPanic_valueStart hc).bind fun _ _ => noPanic_lift _
    exact (noPanic_containerValueLen_iff hc).mpr fun hburst => h (.inr hburst)
  have henter : Ensures (nextEnter u bytes) (· <:+: bytes) :=
    ⟨noPanic_nextEnter u bytes, fun next hnext => (nextEnter_suffix hnext).isInfix⟩
  refine ⟨noPanic_tag bytes, ?_, ?_, ?_, (noPanic_containerLen_iff hlen).mpr h, fun ctx => ?_,
    iterNext_ensures h⟩
  · -- the value
    rw [value]
    cases hc : control bytes with
    | error e => exact ensures_error e
    | ok c =>
      rw [lift_ok, ok_bind]
      refine (hvalue c hc).ensures.bind fun slice hslice => ?_
      refine (valueOf_ensures fun n hleaf hsize => length_containerValue hleaf hsize hslice).mono ?_
      intro v hv s hs
      exact hv s hs ▸ containerValue_infix hc hslice
  · -- the members
    rw [container]
    cases hc : control bytes with
    | error e => exact ensures_error e
    | ok c =>
      rw [lift_ok, ok_bind]
      split
      · exact henter
      · exact ensures_error _
  · -- the bytes of the value
    rw [rawValue]
    cases hc : control bytes with
    | error e => exact ensures_error e
    | ok c =>
      rw [lift_ok, ok_bind]
      exact ⟨hvalue c hc, fun slice hslice => containerValue_infix hc hslice⟩
  · -- a search
    rw [structureFindCtx, Checked.structure]
    cases hc : control bytes with
    | error e => exact ensures_error e
    | ok c =>
      rw [lift_ok, ok_bind]
      split
      · next hstruct =>
        have hstart : c.valueType.isContainer = true := by rw [hstruct]; rfl
        refine (noPanic_nextEnter u bytes).ensures.bind fun members hmembers => ?_
        obtain ⟨head, he, rfl⟩ := exists_tok hc hmembers
        have hburst : ¬ Bursts u 0 1 members :=
          fun hburst => h (.inr ⟨head, c, members, rfl, he, hstart, hburst⟩)
        refine (findCtxLoop_ensures hburst ctx _ .nil rfl).mono fun slice hslice => ?_
        exact hslice.trans (List.suffix_append ..).isInfix
      · exact ensures_error _

end Exact

theorem total_iff_string :
    Total .width64 [0x15, 0x10, 1, 7, 0x18] ↔ ¬ Overlong .width64 [0x15, 0x10, 1, 7, 0x18] :=
  total_iff .width64 [0x15, 0x10, 1, 7, 0x18] (by decide)

/-- A string whose length field says that there are `2 ^ 64 - 1` bytes, and structures with one; in the second
structure the field has four bytes, which is enough for a `usize` of 32 bits. -/
theorem containerLen_overflows :
    containerLen .width64 [0x13, 255, 255, 255, 255, 255, 255, 255, 255] = .error .panic ∧
    value .width64 [0x15, 0x13, 255, 255, 255, 255, 255, 255, 255, 255] = .error .panic ∧
    value .width32 [0x15, 0x12, 255, 255, 255, 255] = .error .panic ∧
    ¬ ∀ (u : PointerWidth) (bytes : List UInt8), bytes.length < 2 ^ u.bits → Total u bytes := by
  have hpanic : containerLen .width64 [0x13, 255, 255, 255, 255, 255, 255, 255, 255] = .error .panic := by
    decide +kernel
  refine ⟨hpanic, by decide +kernel, by decide +kernel, fun h => ?_⟩
  exact (h .width64 [0x13, 255, 255, 255, 255, 255, 255, 255, 255] (by decide)).containerLen hpanic

end Checked

end RsMatter
