import RsMatter.Prog
import RsMatter.TlvAccess

/-!
# Copying an element under another tag (`tlv/traits.rs`)

The value of a container is found by counting its starts and ends. The count looks at the value only,
so the copy of a container under another tag has the same value, whatever followed the original.
-/

namespace RsMatter

namespace TLVElement

/-- `TLVElement::to_tlv`: the value is copied as it is. Of a string it is the value without the length
field. -/
def toTlv (wb : WriteBuf) (tag : TLVTag) (elem : List UInt8) : Except ErrorCode WriteBuf :=
  if elem.isEmpty then .ok wb
  else do
    let c ← TLVSequence.control elem
    let value ← TLVSequence.containerValue elem c
    wb.rawValue tag c.valueType value

end TLVElement

/-! ## Slices -/

theorem sliceTo_eq_ok {data out : List UInt8} {n : ℕ} :
    sliceTo data n = .ok out ↔ n ≤ data.length ∧ out = data.take n := by
  rw [sliceTo]
  split
  · next h => exact ⟨fun heq => ⟨h, (Except.ok.inj heq).symm⟩, fun heq => congrArg _ heq.2.symm⟩
  · next h => exact ⟨by rintro ⟨⟩, fun heq => absurd heq.1 h⟩

theorem sliceFrom_eq_ok {data out : List UInt8} {n : ℕ} :
    sliceFrom data n = .ok out ↔ n ≤ data.length ∧ out = data.drop n := by
  rw [sliceFrom]
  split
  · next h => exact ⟨fun heq => ⟨h, (Except.ok.inj heq).symm⟩, fun heq => congrArg _ heq.2.symm⟩
  · next h => exact ⟨by rintro ⟨⟩, fun heq => absurd heq.1 h⟩

namespace TLVSequence

variable {seq next : List UInt8} {c : TLVControl} {L m : ℕ}

theorem valueLenStart_eq_ok {t : TLVTagType} {data : List UInt8} :
    valueLenStart seq t = .ok data ↔ 1 + t.size ≤ seq.length ∧ data = seq.drop (1 + t.size) := by
  rw [valueLenStart, Prog.except_bind_eq_ok]
  simp only [tagStart, sliceFrom_eq_ok]
  constructor
  · rintro ⟨_, ⟨h₁, rfl⟩, h₂, rfl⟩
    rw [List.length_drop] at h₂
    exact ⟨by omega, List.drop_drop⟩
  · rintro ⟨h, rfl⟩
    refine ⟨_, ⟨by omega, rfl⟩, ?_, List.drop_drop.symm⟩
    rw [List.length_drop]
    omega

theorem valueStart_eq_ok {data : List UInt8} :
    valueStart seq c = .ok data ↔
      1 + c.tagType.size + c.valueType.variableSizeLen ≤ seq.length ∧
        data = seq.drop (1 + c.tagType.size + c.valueType.variableSizeLen) := by
  rw [valueStart, Prog.except_bind_eq_ok]
  simp only [valueLenStart_eq_ok, sliceFrom_eq_ok]
  constructor
  · rintro ⟨_, ⟨h₁, rfl⟩, h₂, rfl⟩
    rw [List.length_drop] at h₂
    exact ⟨by omega, List.drop_drop⟩
  · rintro ⟨h, rfl⟩
    refine ⟨_, ⟨by omega, rfl⟩, ?_, List.drop_drop.symm⟩
    rw [List.length_drop]
    omega

theorem valueLen_take (hlen : valueLen seq c = .ok L)
    (hm : 1 + c.tagType.size + c.valueType.variableSizeLen ≤ m) : valueLen (seq.take m) c = .ok L := by
  rw [valueLen] at hlen ⊢
  cases hsize : c.valueType.fixedSize with
  | some n =>
    rw [hsize] at hlen
    exact hlen
  | none =>
    rw [hsize] at hlen
    simp only [Prog.except_bind_eq_ok, valueLenStart_eq_ok, sliceTo_eq_ok] at hlen ⊢
    obtain ⟨_, ⟨h₁, rfl⟩, _, ⟨h₂, rfl⟩, hL⟩ := hlen
    rw [List.length_drop] at h₂
    refine ⟨_, ⟨by rw [List.length_take]; omega, rfl⟩, _, ⟨?_, rfl⟩, ?_⟩
    · rw [List.length_drop, List.length_take]
      omega
    · rw [List.drop_take, List.take_take, Nat.min_eq_left (by omega)]
      exact hL

theorem len_eq_ok : len seq = .ok L ↔ ∃ c n, control seq = .ok c ∧ valueLen seq c = .ok n ∧
    L = 1 + c.tagType.size + c.valueType.variableSizeLen + n := by
  rw [len, Prog.except_bind_eq_ok]
  simp only [Prog.except_bind_eq_ok]
  constructor
  · rintro ⟨c, hc, n, hn, h⟩
    exact ⟨c, n, hc, hn, (Except.ok.inj h).symm⟩
  · rintro ⟨c, n, hc, hn, rfl⟩
    exact ⟨c, hc, n, hn, rfl⟩

theorem control_take (hm : 1 ≤ m) : control (seq.take m) = control seq := by
  cases seq with
  | nil => rw [List.take_nil]
  | cons byte rest =>
    obtain ⟨m, rfl⟩ := Nat.exists_eq_add_of_le' hm
    rfl

theorem len_take (hlen : len seq = .ok L) (hm : L ≤ m) : len (seq.take m) = .ok L := by
  obtain ⟨c, n, hc, hn, rfl⟩ := len_eq_ok.mp hlen
  refine len_eq_ok.mpr ⟨c, n, ?_, valueLen_take hn (by omega), rfl⟩
  rw [control_take (by omega), hc]

theorem one_le_len (hlen : len seq = .ok L) : 1 ≤ L := by
  obtain ⟨c, n, _, _, rfl⟩ := len_eq_ok.mp hlen
  omega

theorem nextEnter_eq_ok (hseq : seq ≠ []) :
    nextEnter seq = .ok next ↔ ∃ L, len seq = .ok L ∧ L ≤ seq.length ∧ next = seq.drop L := by
  have hempty : seq.isEmpty = false := by
    cases seq with
    | nil => exact absurd rfl hseq
    | cons byte rest => rfl
  rw [nextEnter, hempty, if_neg Bool.false_ne_true]
  simp only [nextStart, Prog.except_bind_eq_ok, valueStart_eq_ok, sliceFrom_eq_ok, len_eq_ok]
  constructor
  · rintro ⟨c, hc, n, hn, _, ⟨h₁, rfl⟩, h₂, rfl⟩
    rw [List.length_drop] at h₂
    exact ⟨_, ⟨c, n, hc, hn, rfl⟩, by omega, List.drop_drop⟩
  · rintro ⟨_, ⟨c, n, hc, hn, rfl⟩, h, rfl⟩
    refine ⟨c, hc, n, hn, _, ⟨by omega, rfl⟩, ?_, List.drop_drop.symm⟩
    rw [List.length_drop]
    omega

/-! ## The value of a container -/

/-- **The count of a container looks at its value only**: from a sequence whose next elements are those
of the value it comes to the same end, and a byte of the value is enough for each round. -/
theorem containerValueLenLoop_take {fuel level n total : ℕ}
    (h : containerValueLenLoop fuel (level + 1) seq n = .ok total) (hnext : nextEnter seq = .ok next)
    (htotal : total - n ≤ next.length) :
    n ≤ total ∧ ∀ fuel' seq', total - n ≤ fuel' → nextEnter seq' = .ok (next.take (total - n)) →
      containerValueLenLoop fuel' (level + 1) seq' n = .ok total := by
  induction fuel generalizing level seq next n with
  | zero => cases h
  | succ fuel ih =>
    rw [containerValueLenLoop, hnext, ok_bind] at h
    simp only [Prog.except_bind_eq_ok] at h
    obtain ⟨L, hL, c, hc, level', hlevel, h⟩ := h
    have hne : next ≠ [] := by
      rintro rfl
      cases hc
    have hL1 := one_le_len hL
    -- the first element of the value
    have hround (fuel' : ℕ) (seq' : List UInt8) (hLt : L ≤ total - n)
        (hseq' : nextEnter seq' = .ok (next.take (total - n))) :
        containerValueLenLoop (fuel' + 1) (level + 1) seq' n =
          containerValueLenLoop fuel' level' (next.take (total - n)) (n + L) := by
      rw [containerValueLenLoop, hseq', ok_bind, len_take hL hLt, ok_bind, control_take (by omega), hc,
        ok_bind, hlevel, ok_bind]
    cases level' with
    | zero =>
      obtain rfl : n + L = total := by
        cases fuel <;> exact Except.ok.inj h
      refine ⟨by omega, fun fuel' seq' hfuel hseq' => ?_⟩
      obtain ⟨fuel', rfl⟩ := Nat.exists_eq_add_of_le' (show 1 ≤ fuel' by omega)
      rw [hround fuel' seq' (by omega) hseq']
      cases fuel' <;> rfl
    | succ level' =>
      cases hnext' : nextEnter next with
      | error e =>
        cases fuel with
        | zero => cases h
        | succ fuel =>
          rw [containerValueLenLoop, hnext'] at h
          cases h
      | ok next' =>
        obtain ⟨L', hL', hle, rfl⟩ := (nextEnter_eq_ok hne).mp hnext'
        obtain rfl : L = L' := Except.ok.inj (hL.symm.trans hL')
        obtain ⟨hn, hrest⟩ := ih h hnext' (by rw [List.length_drop]; omega)
        have hLt : L ≤ total - n := by omega
        refine ⟨by omega, fun fuel' seq' hfuel hseq' => ?_⟩
        obtain ⟨fuel', rfl⟩ := Nat.exists_eq_add_of_le' (show 1 ≤ fuel' by omega)
        rw [hround fuel' seq' hLt hseq']
        refine hrest fuel' _ (by omega) ((nextEnter_eq_ok ?_).mpr ⟨L, len_take hL hLt, ?_, ?_⟩)
        · exact fun hnil => hne (by simpa [show total - n ≠ 0 by omega] using hnil)
        · rw [List.length_take]
          omega
        · rw [List.drop_take]
          congr 1
          omega

/-- **A container under another tag** has the same value. -/
theorem containerValue_retag {value : List UInt8} (tag : TLVTag) (hc : control seq = .ok c)
    (hstruct : c.valueType = .struct) (h : containerValue seq c = .ok value) :
    containerValue (elemBytes tag .struct ++ value) ⟨tag.tagType, .struct⟩ = .ok value := by
  obtain ⟨tagType, valueType⟩ := c
  obtain rfl : valueType = .struct := hstruct
  simp only [containerValue, Prog.except_bind_eq_ok, sliceTo_eq_ok] at h
  obtain ⟨total, hcount, data, hdata, htotal, rfl⟩ := h
  obtain ⟨hhead, hdrop⟩ := valueStart_eq_ok.mp hdata
  have hne : seq ≠ [] := by
    rintro rfl
    cases hc
  have hnext : nextEnter seq = .ok data :=
    (nextEnter_eq_ok hne).mpr ⟨_, len_eq_ok.mpr ⟨_, 0, hc, rfl, rfl⟩, hhead, hdrop⟩
  obtain ⟨_, hcopy⟩ := containerValueLenLoop_take hcount hnext htotal
  -- the value behind the new head
  have hvalue : nextEnter (elemBytes tag .struct ++ data.take total) = .ok (data.take (total - 0)) :=
    nextEnter_elem tag _ (by rintro ⟨⟩)
  have hlen : total - 0 ≤ (elemBytes tag .struct ++ data.take total).length := by
    rw [List.length_append, List.length_take, Nat.min_eq_left htotal]
    omega
  have hcount' : containerValueLen (elemBytes tag .struct ++ data.take total) ⟨tag.tagType, .struct⟩ =
      .ok total := hcopy _ _ hlen hvalue
  have hstart : valueStart (elemBytes tag .struct ++ data.take total) ⟨tag.tagType, .struct⟩ =
      .ok (data.take total) := valueStart_elem tag .struct _
  rw [containerValue, hcount', ok_bind, hstart, ok_bind]
  have hfits : (data.take total).length = total := by rw [List.length_take, Nat.min_eq_left htotal]
  exact sliceTo_eq_ok.mpr ⟨hfits.ge, (List.take_of_length_le hfits.le).symm⟩

end TLVSequence

namespace TLVElement

open TLVSequence

def HasValue (elem : List UInt8) (valueType : TLVValueType) (value : List UInt8) : Prop :=
  ∃ tagType, control elem = .ok ⟨tagType, valueType⟩ ∧
    containerValue elem ⟨tagType, valueType⟩ = .ok value

/-- **A copy of a structure** is the structure under the tag: the head is new, and the value is the same
byte for byte. -/
theorem toTlv_of_hasValue {elem value : List UInt8} (helem : HasValue elem .struct value) (wb : WriteBuf)
    (tag : TLVTag) : toTlv wb tag elem = wb.writeRawData (elemBytes tag .struct ++ value) := by
  obtain ⟨tagType, hc, hvalue⟩ := helem
  have hempty : elem.isEmpty = false := by
    cases elem with
    | nil => cases hc
    | cons byte rest => rfl
  have hbytes : elemBytes tag .struct ++ value =
      (TLVControl.mk tag.tagType .struct).asRaw :: (tag.bytes ++ value) := by
    simp [elemBytes, TLVValue.lenField, TLVValue.payload, TLVValue.valueType, TLVValueType.fixedSize]
  rw [toTlv, hempty, if_neg Bool.false_ne_true, hc, ok_bind, hvalue, ok_bind, WriteBuf.rawValue_eq, hbytes]

theorem hasValue_copy {elem value : List UInt8} (tag : TLVTag) (helem : HasValue elem .struct value) :
    HasValue (elemBytes tag .struct ++ value) .struct value := by
  obtain ⟨tagType, hc, hvalue⟩ := helem
  exact ⟨tag.tagType, control_elem tag .struct value, containerValue_retag tag hc rfl hvalue⟩

end TLVElement

end RsMatter
