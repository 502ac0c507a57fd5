import RsMatter.FixedCapacity
import RsMatter.Text
import Mathlib.Data.BitVec

/-!
# The manual pairing code (`pairing/code.rs`)

The code is what a user types when there is no QR code to scan: eleven decimal digits, with the
upper four bits of the discriminator, the passcode and a check digit. The first digit and the
next five hold bits of both. The check digit is computed by a library, `verhoeff`, which is a
parameter.
-/

namespace RsMatter

open Stop

structure BasicCommData where
  /-- the passcode, which the source keeps as its four bytes -/
  password : BitVec 32
  /-- the discriminator, of which twelve bits are used -/
  discriminator : BitVec 16
  deriving DecidableEq

namespace BasicCommData

/-- Neither the vendor nor the product is in the code. -/
def vidPidPresent : BitVec 8 := 0

def computePairingCode (verhoeff : String → UInt8) (c : BasicCommData) :
    Except (Stop ErrorCode) (HString 11) := do
  let digits : HString 10 := HString.new
  let digits ← digits.write (String.ofList (Text.decimal 0
    ((vidPidPresent <<< 2) ||| (c.discriminator >>> 10).setWidth 8).toNat))
  let digits ← digits.write (String.ofList (Text.decimal 5
    (((c.discriminator &&& 0x300) <<< 6) ||| (c.password &&& 0x3FFF).setWidth 16).toNat))
  let digits ← digits.write (String.ofList (Text.decimal 4 (c.password >>> 14).toNat))
  let finalDigits : HString 11 := HString.new
  let finalDigits ← finalDigits.write digits.1
  finalDigits.write (String.ofList (Text.decimal 0 (verhoeff digits.1).toNat))

/-- The code with a dash after every four digits. -/
def computePrettyPairingCode (verhoeff : String → UInt8) (c : BasicCommData) :
    Except (Stop ErrorCode) (HString 13) := do
  let pairingCode ← c.computePairingCode verhoeff
  let pretty : HString 13 := HString.new
  let part ← Text.slice pairingCode.1 0 4
  let pretty ← pretty.write part
  let pretty ← pretty.write "-"
  let part ← Text.slice pairingCode.1 4 8
  let pretty ← pretty.write part
  let pretty ← pretty.write "-"
  let part ← Text.slice pairingCode.1 8 pairingCode.1.utf8ByteSize
  pretty.write part

/-! ## What is in the code -/

def first (c : BasicCommData) : ℕ := c.discriminator.toNat / 2 ^ 10

def second (c : BasicCommData) : ℕ :=
  c.discriminator.toNat / 2 ^ 8 % 4 * 2 ^ 14 + c.password.toNat % 2 ^ 14

def third (c : BasicCommData) : ℕ := c.password.toNat / 2 ^ 14

def digits (c : BasicCommData) : List Char :=
  Text.decimal 1 c.first ++ Text.decimal 5 c.second ++ Text.decimal 4 c.third

/-- The upper four bits of the discriminator and the passcode, from the digits of a code. -/
def decode (code : List Char) : ℕ × ℕ :=
  let first := Nat.ofDigitChars 10 (code.take 1) 0
  let second := Nat.ofDigitChars 10 ((code.drop 1).take 5) 0
  let third := Nat.ofDigitChars 10 ((code.drop 6).take 4) 0
  (first * 4 + second / 2 ^ 14, third * 2 ^ 14 + second % 2 ^ 14)

structure InRange (c : BasicCommData) : Prop where
  discriminator : c.discriminator.toNat < 4096
  password : c.password.toNat ≤ 99999998

variable {c : BasicCommData}

theorem and_mask (n k w : ℕ) : n &&& ((2 ^ w - 1) <<< k) = (n / 2 ^ k % 2 ^ w) <<< k := by
  refine Nat.eq_of_testBit_eq fun i => ?_
  simp only [Nat.testBit_and, Nat.testBit_shiftLeft, Nat.testBit_two_pow_sub_one,
    Nat.testBit_mod_two_pow, Nat.testBit_div_two_pow]
  by_cases hk : k ≤ i
  · simp [hk, Bool.and_comm]
  · simp [hk]

theorem toNat_first (h : c.InRange) :
    ((vidPidPresent <<< 2) ||| (c.discriminator >>> 10).setWidth 8).toNat = c.first := by
  have hlt := h.discriminator
  have hzero : vidPidPresent <<< 2 = 0#8 := rfl
  rw [hzero, BitVec.zero_or, BitVec.toNat_setWidth, BitVec.toNat_ushiftRight,
    Nat.shiftRight_eq_div_pow, first]
  omega

theorem toNat_second (c : BasicCommData) :
    (((c.discriminator &&& 0x300) <<< 6) ||| (c.password &&& 0x3FFF).setWidth 16).toNat =
      c.second := by
  have hhigh : c.discriminator.toNat &&& 768 = (c.discriminator.toNat / 2 ^ 8 % 2 ^ 2) <<< 8 :=
    and_mask _ 8 2
  have hlow : c.password.toNat &&& 16383 = c.password.toNat % 2 ^ 14 :=
    Nat.and_two_pow_sub_one_eq_mod _ 14
  have hfield : c.discriminator.toNat / 2 ^ 8 % 2 ^ 2 < 4 := Nat.mod_lt _ (by decide)
  have hrest : c.password.toNat % 2 ^ 14 < 2 ^ 14 := Nat.mod_lt _ (by decide)
  rw [BitVec.toNat_or, BitVec.toNat_shiftLeft, BitVec.toNat_and, BitVec.toNat_setWidth,
    BitVec.toNat_and]
  change (c.discriminator.toNat &&& 768) <<< 6 % 2 ^ 16 |||
    (c.password.toNat &&& 16383) % 2 ^ 16 = _
  rw [hhigh, hlow, ← Nat.shiftLeft_add, Nat.mod_eq_of_lt (by omega : _ % 2 ^ 14 < 2 ^ 16),
    Nat.mod_eq_of_lt (by rw [Nat.shiftLeft_eq]; omega), ← Nat.shiftLeft_add_eq_or_of_lt hrest,
    Nat.shiftLeft_eq]
  rfl

theorem toNat_third (c : BasicCommData) : (c.password >>> 14).toNat = c.third := by
  rw [BitVec.toNat_ushiftRight, Nat.shiftRight_eq_div_pow, third]

/-! ## The digits -/

theorem first_lt (h : c.InRange) : c.first < 10 ^ 1 := by
  have hlt := h.discriminator
  rw [first]
  omega

theorem second_lt (c : BasicCommData) : c.second < 10 ^ 5 := by
  rw [second]
  omega

theorem third_lt (h : c.InRange) : c.third < 10 ^ 4 := by
  have hle := h.password
  rw [third]
  omega

theorem length_digits (h : c.InRange) : c.digits.length = 10 := by
  rw [digits, List.length_append, List.length_append, Text.length_decimal (by decide) (first_lt h),
    Text.length_decimal (by decide) c.second_lt, Text.length_decimal (by decide) (third_lt h)]

theorem isDigit_digits {ch : Char} (hch : ch ∈ c.digits) : ch.isDigit = true := by
  rw [digits, List.mem_append, List.mem_append] at hch
  rcases hch with (hch | hch) | hch <;> exact Text.isDigit_decimal ch hch

theorem decimal_one (n : ℕ) : Text.decimal 0 n = Text.decimal 1 n := by
  have hpos : 0 < (Nat.toDigits 10 n).length := List.length_pos_of_ne_nil Nat.toDigits_ne_nil
  rw [Text.decimal, Text.decimal, List.leftpad, List.leftpad, Nat.zero_sub,
    Nat.sub_eq_zero_of_le hpos]

/-- The digits with the check digit behind them. -/
def withCheckDigit (verhoeff : String → UInt8) (c : BasicCommData) : List Char :=
  c.digits ++ Text.decimal 1 (verhoeff (String.ofList c.digits)).toNat

theorem decode_withCheckDigit (verhoeff : String → UInt8) (h : c.InRange) :
    decode (c.withCheckDigit verhoeff) = (c.discriminator.toNat / 2 ^ 8, c.password.toNat) := by
  have hfirst := Text.length_decimal (by decide) (first_lt h)
  have hsecond := Text.length_decimal (by decide) c.second_lt
  have hthird := Text.length_decimal (by decide) (third_lt h)
  rw [withCheckDigit, digits, decode]
  generalize hcheck : Text.decimal 1 (verhoeff _).toNat = check
  have htake : (Text.decimal 1 c.first ++ Text.decimal 5 c.second ++ Text.decimal 4 c.third ++
      check).take 1 = Text.decimal 1 c.first := by
    rw [List.append_assoc, List.append_assoc, List.take_left' hfirst]
  have hmiddle : ((Text.decimal 1 c.first ++ Text.decimal 5 c.second ++ Text.decimal 4 c.third ++
      check).drop 1).take 5 = Text.decimal 5 c.second := by
    rw [List.append_assoc, List.append_assoc, List.drop_left' hfirst, List.take_left' hsecond]
  have hlast : ((Text.decimal 1 c.first ++ Text.decimal 5 c.second ++ Text.decimal 4 c.third ++
      check).drop 6).take 4 = Text.decimal 4 c.third := by
    rw [List.append_assoc, List.drop_left' (by rw [List.length_append, hfirst, hsecond]),
      List.take_left' hthird]
  rw [htake, hmiddle, hlast]
  simp only [Text.ofDigitChars_decimal, first, second, third, Prod.mk.injEq]
  constructor <;> omega

theorem isDigit_withCheckDigit {verhoeff : String → UInt8} {ch : Char}
    (hch : ch ∈ c.withCheckDigit verhoeff) : ch.isDigit = true := by
  rcases List.mem_append.mp hch with hch | hch
  · exact isDigit_digits hch
  · exact Text.isDigit_decimal ch hch

theorem ascii_of_digits {cs : List Char} (h : ∀ ch ∈ cs, ch.isDigit = true) : Text.Ascii cs :=
  fun ch hch => Text.ascii_of_isDigit (h ch hch)

theorem write_digits {n : ℕ} {s : HString n} {cs cs' : List Char} (hs : s.1 = String.ofList cs)
    (hdigits : Text.Ascii (cs ++ cs')) (hroom : (cs ++ cs').length ≤ n) :
    ∃ s' : HString n, s.write (String.ofList cs') = .ok s' ∧ s'.1 = String.ofList (cs ++ cs') := by
  have hsize : (s.1 ++ String.ofList cs').utf8ByteSize ≤ n := by
    rw [hs, ← String.ofList_append, Text.utf8ByteSize_ofList hdigits]
    exact hroom
  refine ⟨⟨s.1 ++ String.ofList cs', hsize⟩, dif_pos hsize, ?_⟩
  change s.1 ++ String.ofList cs' = _
  rw [hs, ← String.ofList_append]

theorem write_new {n : ℕ} {cs : List Char} (hdigits : Text.Ascii cs) (hroom : cs.length ≤ n) :
    ∃ s : HString n, HString.new.write (String.ofList cs) = .ok s ∧ s.1 = String.ofList cs :=
  @write_digits n HString.new [] cs rfl hdigits hroom

theorem run_computePairingCode {verhoeff : String → UInt8} (h : c.InRange)
    (hcheck : (verhoeff (String.ofList c.digits)).toNat < 10) :
    ∃ code, c.computePairingCode verhoeff = .ok code ∧
      code.1 = String.ofList (c.withCheckDigit verhoeff) := by
  have hfirst := Text.length_decimal (by decide) (first_lt h)
  have hsecond := Text.length_decimal (by decide) c.second_lt
  have hthird := Text.length_decimal (by decide) (third_lt h)
  have hlast : (Text.decimal 1 (verhoeff (String.ofList c.digits)).toNat).length = 1 :=
    Text.length_decimal (by decide) hcheck
  have hdigit : ∀ w n, Text.Ascii (Text.decimal w n) := fun w n =>
    ascii_of_digits Text.isDigit_decimal
  obtain ⟨one, hone, eone⟩ := write_new (n := 10) (hdigit 1 c.first) (by rw [hfirst]; decide)
  obtain ⟨six, hsix, esix⟩ := write_digits (n := 10) eone ((hdigit _ _).append (hdigit 5 c.second))
    (by rw [List.length_append, hfirst, hsecond]; decide)
  obtain ⟨ten, hten, eten⟩ := write_digits (n := 10) esix
    (((hdigit _ _).append (hdigit _ _)).append (hdigit 4 c.third))
    (by rw [List.length_append, List.length_append, hfirst, hsecond, hthird])
  obtain ⟨copied, hcopied, ecopied⟩ := write_new (n := 11)
    (ascii_of_digits fun _ => isDigit_digits (c := c)) (by rw [length_digits h]; decide)
  obtain ⟨code, hcode, ecode⟩ := write_digits (n := 11) ecopied
    ((ascii_of_digits fun _ => isDigit_digits).append
      (hdigit 1 (verhoeff (String.ofList c.digits)).toNat))
    (by rw [List.length_append, length_digits h, hlast])
  refine ⟨code, ?_, ecode⟩
  rw [computePairingCode, toNat_first h, toNat_second, toNat_third, decimal_one]
  rw [hone, ok_bind, hsix, ok_bind, hten, ok_bind, eten]
  change (do
    let finalDigits ← HString.new.write (String.ofList c.digits)
    finalDigits.write (String.ofList (Text.decimal 0 (verhoeff (String.ofList c.digits)).toNat))) = _
  rw [hcopied, ok_bind, decimal_one, hcode]

/-- The digits in groups of four, with dashes between them. -/
def pretty (code : List Char) : List Char :=
  code.take 4 ++ '-' :: ((code.drop 4).take 4 ++ '-' :: code.drop 8)

theorem run_computePrettyPairingCode {verhoeff : String → UInt8} {code : HString 11} {cs : List Char}
    (h : c.computePairingCode verhoeff = .ok code) (hcs : code.1 = String.ofList cs)
    (hascii : Text.Ascii cs) (hlen : cs.length = 11) :
    ∃ text, c.computePrettyPairingCode verhoeff = .ok text ∧ text.1 = String.ofList (pretty cs) := by
  have hdash : Text.Ascii ['-'] := by
    intro ch hch
    rw [List.mem_singleton.mp hch]
    rfl
  have htake : Text.Ascii (cs.take 4) := fun ch hch => hascii ch (List.mem_of_mem_take hch)
  have hmiddle : Text.Ascii ((cs.drop 4).take 4) :=
    fun ch hch => hascii ch (List.mem_of_mem_drop (List.mem_of_mem_take hch))
  have hdrop : Text.Ascii (cs.drop 8) := fun ch hch => hascii ch (List.mem_of_mem_drop hch)
  obtain ⟨a, ha, ea⟩ := write_new (n := 13) htake (by rw [List.length_take]; omega)
  obtain ⟨b, hb, eb⟩ := write_digits ea (htake.append hdash) (by simp)
  obtain ⟨d, hd, ed⟩ := write_digits eb ((htake.append hdash).append hmiddle) (by simp; omega)
  obtain ⟨e, he, ee⟩ := write_digits ed (((htake.append hdash).append hmiddle).append hdash)
    (by simp; omega)
  obtain ⟨f, hf, ef⟩ := write_digits ee ((((htake.append hdash).append hmiddle).append hdash).append
    hdrop) (by simp; omega)
  refine ⟨f, ?_, ?_⟩
  · have hmid : ((cs.take 8).drop 4) = (cs.drop 4).take 4 := by rw [List.drop_take]
    have hend : (cs.take cs.length).drop 8 = cs.drop 8 := by rw [List.take_length]
    have hsize : code.1.utf8ByteSize = cs.length := by rw [hcs, Text.utf8ByteSize_ofList hascii]
    rw [computePrettyPairingCode, h, ok_bind, hsize, hcs, Text.slice_ascii hascii (by decide) (by omega),
      Text.slice_ascii hascii (by decide) (by omega),
      Text.slice_ascii hascii (by omega) (Nat.le_refl _), hmid, hend, List.drop_zero]
    dsimp only
    rw [ok_bind, ha, ok_bind]
    change (do
      let pretty ← a.write (String.ofList ['-'])
      let pretty ← pretty.write (String.ofList ((cs.drop 4).take 4))
      let pretty ← pretty.write (String.ofList ['-'])
      pretty.write (String.ofList (cs.drop 8))) = _
    rw [hb, ok_bind, hd, ok_bind, he, ok_bind, hf]
  · rw [ef, pretty]
    simp

/-- The upper four bits of the discriminator and the passcode. -/
def shortId (c : BasicCommData) : ℕ × ℕ := ((c.discriminator >>> 8).toNat, c.password.toNat)

theorem decode_eq_shortId (verhoeff : String → UInt8) (h : c.InRange) :
    decode (c.withCheckDigit verhoeff) = c.shortId := by
  rw [decode_withCheckDigit verhoeff h, shortId, BitVec.toNat_ushiftRight, Nat.shiftRight_eq_div_pow]

theorem digits_eq_of_shortId {c' : BasicCommData} (h : c'.shortId = c.shortId) :
    c'.digits = c.digits := by
  simp only [shortId, Prod.mk.injEq, BitVec.toNat_ushiftRight, Nat.shiftRight_eq_div_pow] at h
  obtain ⟨hdisc, hpass⟩ := h
  have hfirst : c'.first = c.first := by
    rw [first, first]
    omega
  rw [digits, digits, hfirst, second, second, third, third, hdisc, hpass]

/-- **The pairing code.** Both forms of the code are computed for every discriminator and passcode
in range. The code has eleven digits, the upper four bits of the discriminator and the passcode
can be read back from it, and it is the code of no other such pair. -/
theorem pairingCodes (verhoeff : String → UInt8)
    (hverhoeff : ∀ s : String, (∀ ch ∈ s.toList, ch.isDigit = true) → (verhoeff s).toNat < 10)
    (c : BasicCommData) (h : c.InRange) :
    ∃ code text, c.computePairingCode verhoeff = .ok code ∧
      c.computePrettyPairingCode verhoeff = .ok text ∧
      code.1.toList.length = 11 ∧ (∀ ch ∈ code.1.toList, ch.isDigit = true) ∧
      decode code.1.toList = ((c.discriminator >>> 8).toNat, c.password.toNat) ∧
      text.1.toList = pretty code.1.toList ∧
      ∀ c' : BasicCommData, c'.InRange → (c'.computePairingCode verhoeff = .ok code ↔
        c'.discriminator >>> 8 = c.discriminator >>> 8 ∧ c'.password = c.password) := by
  have hlast : ∀ c : BasicCommData, (verhoeff (String.ofList c.digits)).toNat < 10 := by
    intro c
    apply hverhoeff
    rw [String.toList_ofList]
    exact fun ch => isDigit_digits
  have hdigit : ∀ ch ∈ c.withCheckDigit verhoeff, ch.isDigit = true :=
    fun ch => isDigit_withCheckDigit
  have hlen : (c.withCheckDigit verhoeff).length = 11 := by
    rw [withCheckDigit, List.length_append, length_digits h,
      Text.length_decimal (by decide) (hlast c)]
  obtain ⟨code, hcode, ecode⟩ := run_computePairingCode h (hlast c)
  obtain ⟨text, htext, etext⟩ := run_computePrettyPairingCode hcode ecode (ascii_of_digits hdigit) hlen
  have hlist : code.1.toList = c.withCheckDigit verhoeff := by rw [ecode, String.toList_ofList]
  refine ⟨code, text, hcode, htext, ?_, ?_, ?_, ?_, ?_⟩
  · rw [hlist, hlen]
  · rw [hlist]
    exact hdigit
  · rw [hlist]
    exact decode_eq_shortId verhoeff h
  · rw [hlist, etext, String.toList_ofList]
  · intro c' h'
    obtain ⟨code', hcode', ecode'⟩ := run_computePairingCode h' (hlast c')
    constructor
    · intro heq
      have hsame : code' = code := Except.ok.inj (hcode'.symm.trans heq)
      -- what is read back from the one code is both pairs
      have hpair : c'.shortId = c.shortId := by
        rw [← decode_eq_shortId verhoeff h, ← decode_eq_shortId verhoeff h', ← hlist, ← hsame, ecode',
          String.toList_ofList]
      rw [shortId, shortId, Prod.mk.injEq] at hpair
      exact ⟨BitVec.eq_of_toNat_eq hpair.1, BitVec.eq_of_toNat_eq hpair.2⟩
    · rintro ⟨hdisc, hpass⟩
      have hdigits : c'.digits = c.digits := by
        apply digits_eq_of_shortId
        rw [shortId, shortId, hdisc, hpass]
      rw [hcode']
      refine congrArg Except.ok (Subtype.ext ?_)
      rw [ecode, ecode', withCheckDigit, withCheckDigit, hdigits]

def Sample.verhoeff (s : String) : UInt8 := if s = "0087680007" then 1 else 5

/-- The codes of the discriminator `250` and the passcode `123456`. -/
theorem pairingCodes_sample : ∃ code text,
    (BasicCommData.mk 123456 250).computePairingCode Sample.verhoeff = .ok code ∧
      (BasicCommData.mk 123456 250).computePrettyPairingCode Sample.verhoeff = .ok text ∧
      decode code.1.toList = (0, 123456) := by
  have hverhoeff : ∀ s : String, (∀ ch ∈ s.toList, ch.isDigit = true) →
      (Sample.verhoeff s).toNat < 10 := by
    intro s _
    rw [Sample.verhoeff]
    split <;> decide
  obtain ⟨code, text, hcode, htext, -, -, hdecode, -⟩ :=
    pairingCodes Sample.verhoeff hverhoeff ⟨123456, 250⟩ ⟨by decide, by decide⟩
  exact ⟨code, text, hcode, htext, hdecode⟩

example : ((BasicCommData.mk 34567890 2976).computePrettyPairingCode Sample.verhoeff).map (·.1) =
    .ok "2631-8621-095" := by
  decide

end BasicCommData

end RsMatter
