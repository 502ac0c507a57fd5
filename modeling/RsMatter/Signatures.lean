import Mathlib.Data.Nat.Size
import RsMatter.Basic
import RsMatter.Bytes
import RsMatter.Prog

/-!
# Signatures (`cert/der_utils.rs`)

A signature comes as the DER encoding of two integers and is needed as the two in 32 bytes each. The
function that converts it reads the header of the sequence and the two integers, and nothing more:
what the sequence says of its length, what follows, and how an integer is written make no difference
to it (`Signature.convertsRightly_iff`).
-/

namespace RsMatter

namespace Signature

/-! ## DER -/

def derLength (l : ℕ) : List UInt8 :=
  if l < 128 then [UInt8.ofNat l]
  else UInt8.ofNat (128 + (l.size + 7) / 8) :: toBE ((l.size + 7) / 8) l

def derValue (tag : UInt8) (contents : List UInt8) : List UInt8 :=
  tag :: derLength contents.length ++ contents

/-- The contents of an `INTEGER`: as many bytes as the number needs and a sign. -/
def derInteger (n : ℕ) : List UInt8 := toBE (n.size / 8 + 1) n

def tagSequence : UInt8 := 0x30

def tagInteger : UInt8 := 0x02

/-- `SEQUENCE { INTEGER r, INTEGER s }`. -/
def derSignature (r s : ℕ) : List UInt8 :=
  derValue tagSequence (derValue tagInteger (derInteger r) ++ derValue tagInteger (derInteger s))

/-- The longest input and the longest value that are read. -/
def derMaxLength : ℕ := 0xfffffff

/-- A header, read from the front: its tag, its length and what follows. -/
def HeaderReader := List UInt8 → Option (UInt8 × ℕ × List UInt8)

/-- Headers of sequences and integers are read as they are specified. -/
def HeaderReader.Specified (header : HeaderReader) : Prop :=
  ∀ tag, tag = tagSequence ∨ tag = tagInteger → ∀ b l rest,
    header b = some (tag, l, rest) ↔ b = tag :: derLength l ++ rest ∧ l ≤ derMaxLength

/-! ## The conversion -/

def anyRef (header : HeaderReader) (b : List UInt8) : Except ErrorCode (UInt8 × List UInt8 × List UInt8) :=
  match header b with
  | none => .error .invalid
  | some (tag, l, rest) =>
    if rest.length < l then .error .invalid else .ok (tag, rest.take l, rest.drop l)

/-- The loop of `copyIntegerToFixed`. -/
def stripZeros : List UInt8 → List UInt8
  | 0 :: b :: rest => stripZeros (b :: rest)
  | src => src

def copyIntegerToFixed (target : ℕ) (integer : List UInt8) : Except ErrorCode (List UInt8) :=
  let src := stripZeros integer
  if target < src.length then .error .invalid
  else .ok (List.replicate (target - src.length) 0 ++ src)

/-- An `INTEGER`, and what follows. -/
def integerRef (header : HeaderReader) (b : List UInt8) : Except ErrorCode (List UInt8 × List UInt8) := do
  let (tag, value, rest) ← anyRef header b
  if tag ≠ tagInteger then .error .invalid else .ok (value, rest)

def ecdsaDerToRaw (header : HeaderReader) (der : List UInt8) : Except ErrorCode (List UInt8) := do
  if derMaxLength < der.length then .error .invalid
  else
    match header der with
    | none => .error .invalid
    | some (tag, _, rest) =>
      if tag ≠ tagSequence then .error .invalid
      else
        let (r, rest) ← integerRef header rest
        let (s, _) ← integerRef header rest
        let r ← copyIntegerToFixed 32 r
        let s ← copyIntegerToFixed 32 s
        .ok (r ++ s)

/-! ## Numbers in a fixed number of bytes -/

theorem ofBE_stripZeros (x : List UInt8) : ofBE (stripZeros x) = ofBE x := by
  induction x using stripZeros.induct with
  | case1 b rest ih =>
    rw [stripZeros, ih, ofBE_cons 0, UInt8.toNat_zero, Nat.zero_mul, Nat.zero_add]
  | case2 x h =>
    rw [stripZeros]
    exact h

/-- What is left over denotes a number that needs all of its bytes. -/
theorem pow_le_ofBE_stripZeros (x : List UInt8) :
    (stripZeros x).length ≤ 1 ∨ 256 ^ ((stripZeros x).length - 1) ≤ ofBE x := by
  rw [← ofBE_stripZeros x]
  induction x using stripZeros.induct with
  | case1 b rest ih =>
    rw [stripZeros]
    exact ih
  | case2 x h =>
    have hid : stripZeros x = x := by
      rw [stripZeros]
      exact h
    rw [hid]
    match x, h with
    | [], _ => exact .inl (Nat.zero_le _)
    | [b], _ => exact .inl le_rfl
    | b :: c :: rest, h =>
      refine .inr ?_
      have hb : 1 ≤ b.toNat := by
        by_contra hzero
        have hb : b = 0 := UInt8.toNat_inj.mp (by simpa using hzero)
        exact h c rest (by rw [hb])
      rw [ofBE_cons, List.length_cons, Nat.add_sub_cancel]
      exact (Nat.le_mul_of_pos_left _ hb).trans (Nat.le_add_right _ _)

theorem length_stripZeros_le {x : List UInt8} : (stripZeros x).length ≤ 32 ↔ ofBE x < 2 ^ 256 := by
  constructor
  · intro h
    rw [← ofBE_stripZeros]
    exact (ofBE_lt _).trans_le (Nat.pow_le_pow_right (by decide) h)
  · intro h
    by_contra hlong
    rcases pow_le_ofBE_stripZeros x with hshort | hlarge
    · omega
    · have hpow : 256 ^ 32 ≤ 256 ^ ((stripZeros x).length - 1) := Nat.pow_le_pow_right (by decide) (by omega)
      exact absurd (hpow.trans hlarge) (Nat.not_le.mpr h)

theorem ofBE_replicate_append (k : ℕ) (x : List UInt8) : ofBE (List.replicate k 0 ++ x) = ofBE x := by
  induction k with
  | zero => rfl
  | succ k ih =>
    rw [List.replicate_succ, List.cons_append, ofBE_cons, ih, UInt8.toNat_zero, Nat.zero_mul, Nat.zero_add]

theorem copyIntegerToFixed_eq_ok {x y : List UInt8} :
    copyIntegerToFixed 32 x = .ok y ↔ ofBE x < 2 ^ 256 ∧ y = toBE 32 (ofBE x) := by
  rw [copyIntegerToFixed, ← length_stripZeros_le]
  split_ifs with hlong
  · simp only [false_iff, not_and]
    exact fun h => absurd h (Nat.not_le.mpr hlong)
  · have hfill : List.replicate (32 - (stripZeros x).length) 0 ++ stripZeros x = toBE 32 (ofBE x) := by
      have hlen : (List.replicate (32 - (stripZeros x).length) 0 ++ stripZeros x).length = 32 := by
        rw [List.length_append, List.length_replicate]
        omega
      have hbytes := toBE_ofBE (List.replicate (32 - (stripZeros x).length) 0 ++ stripZeros x)
      rwa [hlen, ofBE_replicate_append, ofBE_stripZeros, eq_comm] at hbytes
    rw [hfill, Except.ok.injEq, eq_comm]
    exact ⟨fun h => ⟨Nat.not_lt.mp hlong, h⟩, fun h => h.2⟩

/-! ## What is accepted -/

section Reader

variable {header : HeaderReader} {b rest : List UInt8}

theorem anyRef_eq_ok (hspec : header.Specified) {tag : UInt8} (htag : tag = tagSequence ∨ tag = tagInteger)
    {v : List UInt8} : anyRef header b = .ok (tag, v, rest) ↔
      b = derValue tag v ++ rest ∧ v.length ≤ derMaxLength := by
  constructor
  · intro h
    rw [anyRef] at h
    split at h
    · cases h
    · next tag' l rest' hheader =>
      split_ifs at h with hshort
      cases h
      obtain ⟨hb, hl⟩ := (hspec _ htag _ _ _).mp hheader
      have hlen : (rest'.take l).length = l := by
        rw [List.length_take]
        omega
      rw [derValue, hlen, List.append_assoc, List.take_append_drop]
      exact ⟨hb, hl⟩
  · rintro ⟨hb, hl⟩
    have hheader : header b = some (tag, v.length, v ++ rest) := by
      rw [hspec tag htag, hb, derValue, List.append_assoc]
      exact ⟨rfl, hl⟩
    rw [anyRef, hheader]
    dsimp only
    rw [if_neg (by rw [List.length_append]; omega), List.take_left, List.drop_left]

theorem integerRef_eq_ok (hspec : header.Specified) {v : List UInt8} :
    integerRef header b = .ok (v, rest) ↔ b = derValue tagInteger v ++ rest ∧ v.length ≤ derMaxLength := by
  rw [← anyRef_eq_ok hspec (.inr rfl), integerRef, Prog.except_bind_eq_ok]
  constructor
  · rintro ⟨⟨tag, v', rest'⟩, hany, h⟩
    dsimp only at h
    split_ifs at h with htag
    rw [not_not] at htag
    cases h
    rw [hany, htag]
  · intro h
    exact ⟨_, h, rfl⟩

/-- The parts of an input: a sequence of some length, two integers that are not too large, and a rest. -/
structure Parts (b : List UInt8) (l : ℕ) (r s rest : List UInt8) : Prop where
  eq : b = tagSequence :: derLength l ++ (derValue tagInteger r ++ (derValue tagInteger s ++ rest))
  length_le : l ≤ derMaxLength
  input_le : b.length ≤ derMaxLength
  r_lt : ofBE r < 2 ^ 256
  s_lt : ofBE s < 2 ^ 256

theorem ecdsaDerToRaw_eq_ok (hspec : header.Specified) {raw : List UInt8} : ecdsaDerToRaw header b = .ok raw ↔
    ∃ l r s rest, Parts b l r s rest ∧ raw = toBE 32 (ofBE r) ++ toBE 32 (ofBE s) := by
  constructor
  · intro h
    rw [ecdsaDerToRaw] at h
    split_ifs at h with hmax
    split at h
    · cases h
    · next tag l rest₀ hheader =>
      split_ifs at h with htag
      rw [not_not] at htag
      obtain ⟨hb, hl⟩ := (hspec _ (.inl htag) _ _ _).mp hheader
      simp only [Prog.except_bind_eq_ok] at h
      obtain ⟨⟨r, rest₁⟩, hr, ⟨s, rest₂⟩, hs, r', hr', s', hs', h⟩ := h
      cases h
      obtain ⟨rfl, -⟩ := (integerRef_eq_ok hspec).mp hr
      obtain ⟨rfl, -⟩ := (integerRef_eq_ok hspec).mp hs
      obtain ⟨hrlt, rfl⟩ := copyIntegerToFixed_eq_ok.mp hr'
      obtain ⟨hslt, rfl⟩ := copyIntegerToFixed_eq_ok.mp hs'
      rw [htag] at hb
      exact ⟨l, r, s, rest₂, ⟨hb, hl, Nat.not_lt.mp hmax, hrlt, hslt⟩, rfl⟩
  · rintro ⟨l, r, s, rest, hparts, rfl⟩
    have hlen := hparts.input_le
    have hheader := (hspec tagSequence (.inl rfl) b l _).mpr ⟨hparts.eq, hparts.length_le⟩
    rw [hparts.eq] at hlen
    simp only [List.length_append, derValue, List.length_cons] at hlen
    have hr := (integerRef_eq_ok hspec).mpr
      ⟨(rfl : derValue tagInteger r ++ (derValue tagInteger s ++ rest) = _), (by omega : r.length ≤ derMaxLength)⟩
    have hs := (integerRef_eq_ok hspec).mpr
      ⟨(rfl : derValue tagInteger s ++ rest = _), (by omega : s.length ≤ derMaxLength)⟩
    rw [ecdsaDerToRaw, if_neg (Nat.not_lt.mpr hparts.input_le), hheader]
    dsimp only
    rw [if_neg (by simp), hr]
    simp only [ok_bind, hs, copyIntegerToFixed_eq_ok.mpr ⟨hparts.r_lt, rfl⟩,
      copyIntegerToFixed_eq_ok.mpr ⟨hparts.s_lt, rfl⟩]

theorem Parts.unique (hspec : header.Specified) {l l' : ℕ} {r s r' s' rest' : List UInt8}
    (h : Parts b l r s rest) (h' : Parts b l' r' s' rest') : l = l' ∧ r = r' ∧ s = s' ∧ rest = rest' := by
  have hheader := (hspec tagSequence (.inl rfl) b l _).mpr ⟨h.eq, h.length_le⟩
  rw [(hspec tagSequence (.inl rfl) b l' _).mpr ⟨h'.eq, h'.length_le⟩] at hheader
  simp only [Option.some.injEq, Prod.mk.injEq, true_and] at hheader
  obtain ⟨hl, hrest⟩ := hheader
  have hlen : ∀ {l r s rest}, Parts b l r s rest → r.length ≤ derMaxLength ∧ s.length ≤ derMaxLength := by
    intro l r s rest h
    have hlen := h.input_le
    rw [h.eq] at hlen
    simp only [List.length_append, derValue, List.length_cons] at hlen
    omega
  have hr := (integerRef_eq_ok hspec).mpr ⟨hrest, (hlen h).1⟩
  rw [(integerRef_eq_ok hspec).mpr ⟨rfl, (hlen h').1⟩, Except.ok.injEq, Prod.mk.injEq] at hr
  have hs := (integerRef_eq_ok hspec).mpr ⟨hr.2, (hlen h).2⟩
  rw [(integerRef_eq_ok hspec).mpr ⟨rfl, (hlen h').2⟩, Except.ok.injEq, Prod.mk.injEq] at hs
  exact ⟨hl.symm, hr.1.symm, hs.1.symm, hs.2.symm⟩

end Reader

/-! ## Encodings -/

theorem lt_pow_derInteger (n : ℕ) : n < 256 ^ (n.size / 8 + 1) := by
  refine n.lt_size_self.trans_le ?_
  rw [show 256 = 2 ^ 8 from rfl, ← Nat.pow_mul]
  exact Nat.pow_le_pow_right (by decide) (by omega)

theorem ofBE_derInteger (n : ℕ) : ofBE (derInteger n) = n := ofBE_toBE (lt_pow_derInteger n)

theorem length_derInteger_le {n : ℕ} (h : n < 2 ^ 256) : (derInteger n).length ≤ 33 := by
  have hsize : n.size ≤ 256 := Nat.size_le.mpr h
  rw [derInteger, length_toBE]
  omega

theorem length_derValue (tag : UInt8) {x : List UInt8} (h : x.length < 128) :
    (derValue tag x).length = x.length + 2 := by
  rw [derValue, derLength, if_pos h]
  rfl

theorem parts_derSignature {r s : ℕ} (hr : r < 2 ^ 256) (hs : s < 2 ^ 256) : Parts (derSignature r s)
    (derValue tagInteger (derInteger r) ++ derValue tagInteger (derInteger s)).length
      (derInteger r) (derInteger s) [] := by
  have hrlen := length_derInteger_le hr
  have hslen := length_derInteger_le hs
  have hlen : (derValue tagInteger (derInteger r) ++ derValue tagInteger (derInteger s)).length ≤ 70 := by
    rw [List.length_append, length_derValue _ (by omega), length_derValue _ (by omega)]
    omega
  refine ⟨?_, hlen.trans (by decide), ?_, (ofBE_derInteger r).trans_lt hr, (ofBE_derInteger s).trans_lt hs⟩
  · rw [derSignature, derValue, List.append_nil]
  · rw [derSignature, length_derValue _ (by omega)]
    exact (Nat.add_le_add_right hlen 2).trans (by decide)

/-- The conversion does what it is for: encodings of two numbers of 32 bytes are converted, and nothing
else is. -/
def ConvertsRightly (header : HeaderReader) (b : List UInt8) : Prop :=
  (∀ r s, r < 2 ^ 256 → s < 2 ^ 256 → b = derSignature r s →
    ecdsaDerToRaw header b = .ok (toBE 32 r ++ toBE 32 s)) ∧
  ((¬ ∃ r s, r < 2 ^ 256 ∧ s < 2 ^ 256 ∧ b = derSignature r s) →
    ∃ code, ecdsaDerToRaw header b = .error code)

/-- If there are a sequence and two integers, they are all there is, and encoded as they are to be. -/
def IsStrict (b : List UInt8) : Prop :=
  ∀ l r s rest, Parts b l r s rest → l = (derValue tagInteger r ++ derValue tagInteger s).length ∧
    rest = [] ∧ derInteger (ofBE r) = r ∧ derInteger (ofBE s) = s

theorem isStrict_of_convertsRightly {header : HeaderReader} (hspec : header.Specified) {b : List UInt8}
    (h : ConvertsRightly header b) : IsStrict b := by
  intro l r s rest hparts
  have hok := (ecdsaDerToRaw_eq_ok hspec).mpr ⟨l, r, s, rest, hparts, rfl⟩
  obtain ⟨m, n, hm, hn, hb⟩ : ∃ m n, m < 2 ^ 256 ∧ n < 2 ^ 256 ∧ b = derSignature m n := by
    by_contra hnone
    obtain ⟨code, herr⟩ := h.2 hnone
    rw [hok] at herr
    cases herr
  obtain ⟨rfl, rfl, rfl, rfl⟩ := hparts.unique hspec (hb ▸ parts_derSignature hm hn)
  rw [ofBE_derInteger, ofBE_derInteger]
  exact ⟨rfl, rfl, rfl, rfl⟩

/-- **When a signature is converted as it is to be.** -/
theorem convertsRightly_iff (header : HeaderReader) (hspec : header.Specified) (b : List UInt8) :
    ConvertsRightly header b ↔ IsStrict b := by
  refine ⟨isStrict_of_convertsRightly hspec, fun h => ⟨?_, fun hnone => ?_⟩⟩
  · rintro r s hr hs rfl
    refine (ecdsaDerToRaw_eq_ok hspec).mpr ⟨_, _, _, _, parts_derSignature hr hs, ?_⟩
    rw [ofBE_derInteger, ofBE_derInteger]
  · cases hrun : ecdsaDerToRaw header b with
    | error code => exact ⟨code, rfl⟩
    | ok raw =>
      obtain ⟨l, r, s, rest, hparts, -⟩ := (ecdsaDerToRaw_eq_ok hspec).mp hrun
      obtain ⟨rfl, rfl, hr, hs⟩ := h l r s rest hparts
      refine absurd ⟨ofBE r, ofBE s, hparts.r_lt, hparts.s_lt, ?_⟩ hnone
      rw [hparts.eq, derSignature, hr, hs, List.append_nil]
      rfl

/-! ## A reader -/

def readHeader : HeaderReader
  | tag :: n :: rest =>
    if n.toNat < 128 then some (tag, n.toNat, rest)
    else
      let octets := rest.take (n.toNat - 128)
      if n :: octets = derLength (ofBE octets) ∧ ofBE octets ≤ derMaxLength then
        some (tag, ofBE octets, rest.drop (n.toNat - 128))
      else none
  | _ => none

theorem readHeader_specified : HeaderReader.Specified readHeader := by
  intro tag _ b l rest
  constructor
  · intro h
    match b, h with
    | tag' :: n :: rest', h =>
      rw [readHeader] at h
      split_ifs at h with hn
      · cases h
        constructor
        · rw [derLength, if_pos hn, UInt8.ofNat_toNat]
          rfl
        · rw [derMaxLength]
          omega
      · dsimp only at h
        split_ifs at h with hlen
        rw [Option.some.injEq, Prod.mk.injEq, Prod.mk.injEq] at h
        obtain ⟨rfl, rfl, rfl⟩ := h
        rw [← hlen.1, List.cons_append, List.cons_append, List.take_append_drop]
        exact ⟨rfl, hlen.2⟩
  · rintro ⟨rfl, hl⟩
    by_cases hshort : l < 128
    · have hn : (UInt8.ofNat l).toNat = l := by
        rw [UInt8.toNat_ofNat']
        omega
      rw [derLength, if_pos hshort, List.cons_append, List.cons_append, readHeader, hn, if_pos hshort]
      rfl
    · have hsize : l.size ≤ 28 := Nat.size_le.mpr (hl.trans_lt (by decide))
      have hn : (UInt8.ofNat (128 + (l.size + 7) / 8)).toNat - 128 = (l.size + 7) / 8 := by
        rw [UInt8.toNat_ofNat']
        omega
      have hlong : ¬ (UInt8.ofNat (128 + (l.size + 7) / 8)).toNat < 128 := by
        rw [UInt8.toNat_ofNat']
        omega
      have hval : ofBE (toBE ((l.size + 7) / 8) l) = l := by
        apply ofBE_toBE
        refine l.lt_size_self.trans_le ?_
        rw [show 256 = 2 ^ 8 from rfl, ← Nat.pow_mul]
        exact Nat.pow_le_pow_right (by decide) (by omega)
      have hlen := length_toBE ((l.size + 7) / 8) l
      have hder : derLength l = UInt8.ofNat (128 + (l.size + 7) / 8) :: toBE ((l.size + 7) / 8) l := if_neg hshort
      rw [hder, List.cons_append, List.cons_append, readHeader, if_neg hlong, hn, List.take_left' hlen,
        List.drop_left' hlen]
      dsimp only
      rw [hval, if_pos ⟨hder.symm, hl⟩]

theorem convertsRightly_one_two : HeaderReader.Specified readHeader ∧
    (ConvertsRightly readHeader (derSignature 1 2) ↔ IsStrict (derSignature 1 2)) :=
  ⟨readHeader_specified, convertsRightly_iff readHeader readHeader_specified _⟩

/-- A signature with a byte behind it is converted, too. -/
theorem trailing_converted : ¬ ∀ header : HeaderReader, header.Specified → ∀ b, ConvertsRightly header b := by
  intro h
  have hstrict := isStrict_of_convertsRightly readHeader_specified
    (h readHeader readHeader_specified [0x30, 6, 2, 1, 1, 2, 1, 2, 0])
  have hparts : Parts [0x30, 6, 2, 1, 1, 2, 1, 2, 0] 6 [1] [2] [0] :=
    ⟨rfl, by decide, by decide, by decide, by decide⟩
  cases (hstrict _ _ _ _ hparts).2.1

end Signature

end RsMatter
