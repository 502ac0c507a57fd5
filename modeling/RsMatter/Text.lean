import RsMatter.Panic
import Mathlib.Data.Nat.Digits.Defs

/-!
# Text (`core::str`, `core::fmt`)

The bytes of a text are those of its characters in UTF-8. A text is cut at byte offsets, and a
cut inside a character is a panic. Where every character is ASCII, characters and bytes are the
same, and a text is cut like a list.
-/

namespace RsMatter

open Stop

namespace Text

/-- `s.as_bytes()`. -/
def asBytes (s : String) : List UInt8 := s.toList.flatMap String.utf8EncodeChar

/-- The characters before a byte offset and those behind it, if the offset is between two
characters. -/
def splitAt : List Char → ℕ → Option (List Char × List Char)
  | cs, 0 => some ([], cs)
  | [], _ + 1 => none
  | c :: cs, n + 1 =>
    if c.utf8Size ≤ n + 1 then
      (splitAt cs (n + 1 - c.utf8Size)).map fun parts => (c :: parts.1, parts.2)
    else none

/-- `&s[start..stop]`. -/
def slice {ε : Type} (s : String) (start stop : ℕ) : Except (Stop ε) String := do
  let front ← unwrapSome (splitAt s.toList stop)
  let back ← unwrapSome (splitAt front.1 start)
  return String.ofList back.2

/-- A number in decimal digits, after as many zeros as the width asks for (`{:0>width}`). -/
def decimal (width n : ℕ) : List Char := (Nat.toDigits 10 n).leftpad width '0'

/-! ## ASCII -/

def Ascii (cs : List Char) : Prop := ∀ c ∈ cs, c.utf8Size = 1

variable {cs : List Char}

theorem Ascii.tail {c : Char} (h : Ascii (c :: cs)) : Ascii cs :=
  fun c hc => h c (List.mem_cons_of_mem _ hc)

theorem Ascii.append {cs' : List Char} (h : Ascii cs) (h' : Ascii cs') : Ascii (cs ++ cs') := by
  intro c hc
  rcases List.mem_append.mp hc with hc | hc
  · exact h c hc
  · exact h' c hc

theorem ascii_of_isDigit {c : Char} (h : c.isDigit = true) : c.utf8Size = 1 := by
  rw [Char.utf8Size_eq_one_iff]
  simp only [Char.isDigit, Bool.and_eq_true, decide_eq_true_eq] at h
  exact UInt32.le_trans h.2 (by decide)

theorem asBytes_ofList (h : Ascii cs) : asBytes (String.ofList cs) = cs.map fun c => c.val.toUInt8 := by
  rw [asBytes, String.toList_ofList]
  induction cs with
  | nil => rfl
  | cons c cs ih =>
    rw [List.flatMap_cons, List.map_cons, ih h.tail,
      String.utf8EncodeChar_eq_singleton (h c List.mem_cons_self), List.singleton_append]

theorem utf8ByteSize_ofList (h : Ascii cs) : (String.ofList cs).utf8ByteSize = cs.length := by
  rw [← String.size_toByteArray, String.toByteArray_ofList]
  induction cs with
  | nil => rfl
  | cons c cs ih =>
    rw [List.utf8Encode_cons, ByteArray.size_append, ih h.tail, List.utf8Encode_singleton,
      String.utf8EncodeChar_eq_singleton (h c List.mem_cons_self), List.length_cons, Nat.add_comm]
    rfl

theorem splitAt_ascii (h : Ascii cs) {n : ℕ} (hn : n ≤ cs.length) :
    splitAt cs n = some (cs.take n, cs.drop n) := by
  induction n generalizing cs with
  | zero => cases cs <;> rfl
  | succ n ih =>
    cases cs with
    | nil => exact absurd hn (Nat.not_succ_le_zero n)
    | cons c cs =>
      rw [splitAt, h c List.mem_cons_self, if_pos (Nat.le_add_left 1 n), Nat.add_sub_cancel,
        ih h.tail (Nat.le_of_succ_le_succ hn)]
      rfl

theorem slice_ascii {ε : Type} (h : Ascii cs) {start stop : ℕ} (hstart : start ≤ stop)
    (hstop : stop ≤ cs.length) :
    (slice (String.ofList cs) start stop : Except (Stop ε) String) =
      .ok (String.ofList ((cs.take stop).drop start)) := by
  have hfront : Ascii (cs.take stop) := fun c hc => h c (List.mem_of_mem_take hc)
  rw [slice, String.toList_ofList, splitAt_ascii h hstop]
  change (do
    let back ← unwrapSome (splitAt (cs.take stop) start)
    return String.ofList back.2) = _
  rw [splitAt_ascii hfront (by rw [List.length_take]; omega)]
  rfl

/-! ## Decimal digits -/

theorem isDigit_decimal {width n : ℕ} : ∀ c ∈ decimal width n, c.isDigit = true := by
  intro c hc
  rw [decimal, List.leftpad, List.mem_append] at hc
  rcases hc with hc | hc
  · rw [List.eq_of_mem_replicate hc]
    rfl
  · exact Nat.isDigit_of_mem_toDigits (by decide) (by decide) hc

/-- A number with no more digits than the width has just that many. -/
theorem length_decimal {width n : ℕ} (hwidth : 0 < width) (hn : n < 10 ^ width) :
    (decimal width n).length = width := by
  have hle := Nat.toDigits_length 10 n width hwidth hn
  rw [decimal, List.length_leftpad]
  exact Nat.max_eq_left hle

theorem ofDigitChars_decimal {width n : ℕ} : Nat.ofDigitChars 10 (decimal width n) 0 = n := by
  rw [decimal, List.leftpad, Nat.ofDigitChars_append, Nat.ofDigitChars_replicate_zero, Nat.mul_zero,
    Nat.ofDigitChars_ten_toDigits]

end Text

end RsMatter
