import RsMatter.FixedCapacity
import RsMatter.Numeral
import RsMatter.Text
import Mathlib.Data.List.TakeWhile

/-!
# Base 38 (`utils/codec/base38.rs`)

Three bytes are five characters, two are four and one is two, each group a number with its lowest
digit first. There are more groups of characters than groups of bytes. The decoder looks at a
group after the other, and what it yields ends with the first thing that is wrong in a group, so
that nothing of it is ever reported.
-/

namespace RsMatter

open Stop

namespace Base38

def base38Chars : List Char :=
  ['0', '1', '2', '3', '4', '5', '6', '7', '8', '9', 'A', 'B', 'C', 'D', 'E', 'F', 'G', 'H', 'I',
    'J', 'K', 'L', 'M', 'N', 'O', 'P', 'Q', 'R', 'S', 'T', 'U', 'V', 'W', 'X', 'Y', 'Z', '-', '.']

def unused : UInt8 := 255

/-- The values of the characters from `-` on. -/
def decodeBase38Table : List UInt8 :=
  [36, 37, unused, 0, 1, 2, 3, 4, 5, 6, 7, 8, 9, unused, unused, unused, unused, unused, unused,
    unused, 10, 11, 12, 13, 14, 15, 16, 17, 18, 19, 20, 21, 22, 23, 24, 25, 26, 27, 28, 29, 30, 31,
    32, 33, 34, 35]

def radix : ℕ := base38Chars.length

theorem radix_pos : 0 < radix := by decide

def charOf (remainder : ℕ) : Char :=
  base38Chars.get ⟨remainder % radix, Nat.mod_lt remainder radix_pos⟩

/-! ## Encoding -/

def encodeBase38 (value : ℕ) : ℕ → List Char
  | 0 => []
  | n + 1 => charOf value :: encodeBase38 ((value - value % radix) / radix) n

/-- The groups of three bytes, and what remains. -/
def encode : List UInt8 → List Char
  | b₀ :: b₁ :: b₂ :: bytes =>
    encodeBase38 ((b₂.toNat <<< 16) ||| (b₁.toNat <<< 8) ||| b₀.toNat) 5 ++ encode bytes
  | [b₀, b₁] => encodeBase38 ((b₁.toNat <<< 8) ||| b₀.toNat) 4
  | [b₀] => encodeBase38 b₀.toNat 2
  | [] => encodeBase38 0 0

def encodeBits (bits bitsCount : ℕ) : Except (Stop ErrorCode) (List Char) :=
  if bitsCount ≤ 24 then
    match bitsCount / 8 with
    | 3 => .ok (encodeBase38 bits 5)
    | 2 => .ok (encodeBase38 bits 4)
    | 1 => .ok (encodeBase38 bits 2)
    | _ => .error .panic
  else .error .panic

/-! ## Decoding -/

def decodeChar (c : UInt8) : Except ErrorCode UInt8 :=
  if 45 ≤ c ∧ c ≤ 90 then
    match decodeBase38Table[c.toNat - 45]? with
    | some v => if v = unused then .error .invalidData else .ok v
    | none => .error .invalidData
  else .error .invalidData

/-- The number of bytes in a group, from the number of its characters; negative where there is no
such group. -/
def bytesIn : ℕ → ℤ
  | 5 => 3
  | 4 => 2
  | 2 => 1
  | 0 => 0
  | _ => -1

/-- The loop through the characters of a group, the last one first. A group has at most five, so
the `u32` has room for its number. -/
def decodeValue : List UInt8 → ℕ → Except ErrorCode ℕ
  | [], value => .ok value
  | c :: chars, value => do
    let v ← decodeChar c
    decodeValue chars (value * radix + v.toNat)

def groupBytes (group : Except ErrorCode ℕ) : ℕ → List (Except ErrorCode UInt8)
  | 0 => []
  | n + 1 =>
    match group with
    | .ok value => .ok (UInt8.ofNat value) :: groupBytes (.ok (value >>> 8)) n
    | .error e => .error e :: groupBytes group n

/-- What a group yields. It is cut off at the first error. -/
def decodeBase38 (chars : List UInt8) : List (Except ErrorCode UInt8) :=
  let group := if 0 ≤ bytesIn chars.length then decodeValue chars.reverse 0 else .error .invalidData
  (groupBytes group (bytesIn chars.length).toNat).takeWhile Except.isOk

/-- What the groups of five characters yield, and what remains. -/
def decodeGroups : List UInt8 → List (Except ErrorCode UInt8)
  | c₀ :: c₁ :: c₂ :: c₃ :: c₄ :: chars => decodeBase38 [c₀, c₁, c₂, c₃, c₄] ++ decodeGroups chars
  | chars => decodeBase38 chars

/-- What a text yields. It is cut off at the first error. -/
def decode (s : String) : List (Except ErrorCode UInt8) :=
  (decodeGroups (Text.asBytes s)).takeWhile Except.isOk

def decodeVec (n : ℕ) (s : String) : Except (Stop ErrorCode) (HVec UInt8 n) :=
  (decode s).foldlM (fun vec byte => do
    let byte ← lift byte
    vec.push byte .bufferTooSmall) HVec.new

/-! ## Characters and digits -/

theorem charOf_mod (d : ℕ) : charOf (d % radix) = charOf d := by
  rw [charOf, charOf]
  congr 2
  exact Nat.mod_mod d radix

theorem charOf_spec (d : ℕ) : (charOf d).utf8Size = 1 ∧ charOf d ∈ base38Chars ∧
    decodeChar (charOf d).val.toUInt8 = .ok (UInt8.ofNat (d % radix)) ∧
    base38Chars.idxOf (charOf d) = d % radix := by
  have hall : ∀ d < 38, (charOf d).utf8Size = 1 ∧ charOf d ∈ base38Chars ∧
      decodeChar (charOf d).val.toUInt8 = .ok (UInt8.ofNat d) ∧
      base38Chars.idxOf (charOf d) = d := by
    decide +kernel
  rw [← charOf_mod]
  exact hall (d % radix) (Nat.mod_lt d radix_pos)

theorem charOf_idxOf {c : Char} (hc : c ∈ base38Chars) : charOf (base38Chars.idxOf c) = c := by
  have hlt : base38Chars.idxOf c < radix := List.idxOf_lt_length_of_mem hc
  simp only [charOf, Nat.mod_eq_of_lt hlt, List.get_eq_getElem, List.getElem_idxOf]

theorem encodeBase38_eq (value n : ℕ) :
    encodeBase38 value n = (Numeral.digits radix n value).map charOf := by
  induction n generalizing value with
  | zero => rfl
  | succ n ih =>
    have hdiv : (value - value % radix) / radix = value / radix := by
      rw [Nat.sub_eq_of_eq_add (Nat.div_add_mod value radix).symm, Nat.mul_div_cancel_left _ radix_pos]
    rw [encodeBase38, Numeral.digits, List.map_cons, charOf_mod, hdiv, ih]

theorem ascii_encodeBase38 (value n : ℕ) : Text.Ascii (encodeBase38 value n) := by
  intro c hc
  rw [encodeBase38_eq] at hc
  obtain ⟨d, -, rfl⟩ := List.mem_map.mp hc
  exact (charOf_spec d).1

/-! ## Groups -/

def bytesNumber (bytes : List UInt8) : ℕ := Nat.ofDigits 256 (bytes.map UInt8.toNat)

theorem bytesNumber_lt (bytes : List UInt8) : bytesNumber bytes < 256 ^ bytes.length := by
  have hlt : ∀ d ∈ bytes.map UInt8.toNat, d < 256 := by
    intro d hd
    obtain ⟨byte, -, rfl⟩ := List.mem_map.mp hd
    exact byte.toNat_lt
  have hnumber := Numeral.ofDigits_lt (by decide) hlt
  rwa [List.length_map] at hnumber

theorem bytesNumber_two (b₀ b₁ : UInt8) :
    bytesNumber [b₀, b₁] = (b₁.toNat <<< 8) ||| b₀.toNat := by
  rw [← Nat.shiftLeft_add_eq_or_of_lt b₀.toNat_lt, Nat.shiftLeft_eq]
  simp only [bytesNumber, List.map_cons, List.map_nil, Nat.ofDigits_cons, Nat.ofDigits_nil]
  omega

theorem bytesNumber_three (b₀ b₁ b₂ : UInt8) :
    bytesNumber [b₀, b₁, b₂] = (b₂.toNat <<< 16) ||| (b₁.toNat <<< 8) ||| b₀.toNat := by
  have hlow : bytesNumber [b₀, b₁] < 2 ^ 16 := by
    have hlt := bytesNumber_lt [b₀, b₁]
    simp only [List.length_cons, List.length_nil] at hlt
    omega
  rw [Nat.or_assoc, ← bytesNumber_two, ← Nat.shiftLeft_add_eq_or_of_lt hlow, Nat.shiftLeft_eq]
  simp only [bytesNumber, List.map_cons, List.map_nil, Nat.ofDigits_cons, Nat.ofDigits_nil]
  omega

theorem decodeValue_append (cs cs' : List UInt8) (acc : ℕ) :
    decodeValue (cs ++ cs') acc = decodeValue cs acc >>= fun value => decodeValue cs' value := by
  induction cs generalizing acc with
  | nil => rfl
  | cons c cs ih =>
    rw [List.cons_append, decodeValue, decodeValue]
    cases decodeChar c with
    | error e => rfl
    | ok v => exact ih _

theorem decodeValue_encodeBase38 (value n : ℕ) :
    decodeValue ((encodeBase38 value n).map fun c => c.val.toUInt8).reverse 0 =
      .ok (value % radix ^ n) := by
  -- the digits are taken from the last one on, so what follows those of a prefix is in the sum
  have hloop : ∀ ds : List ℕ, (∀ d ∈ ds, d < radix) →
      ∀ acc, decodeValue ((ds.map charOf).map fun c => c.val.toUInt8).reverse acc =
        .ok (Nat.ofDigits radix ds + radix ^ ds.length * acc) := by
    intro ds
    induction ds with
    | nil =>
      intro _ acc
      simp [decodeValue]
    | cons d ds ih =>
      intro hlt acc
      have hd : d < radix := hlt d List.mem_cons_self
      have hbyte : (UInt8.ofNat d).toNat = d := by
        have hle : radix ≤ 256 := by decide
        simp only [UInt8.toNat_ofNat']
        omega
      rw [List.map_cons, List.map_cons, List.reverse_cons, decodeValue_append,
        ih (fun d hd => hlt d (List.mem_cons_of_mem _ hd)) acc, ok_bind, decodeValue,
        (charOf_spec d).2.2.1, ok_bind, decodeValue, Nat.mod_eq_of_lt hd, hbyte, Nat.ofDigits_cons,
        List.length_cons, Nat.pow_succ]
      congr 1
      ring
  rw [encodeBase38_eq, hloop _ (fun d hd => Numeral.lt_of_mem_digits radix_pos hd) 0,
    Numeral.ofDigits_digits_mod, Nat.mul_zero, Nat.add_zero]

theorem groupBytes_ok (value n : ℕ) :
    groupBytes (.ok value) n = ((Numeral.digits 256 n value).map UInt8.ofNat).map .ok := by
  induction n generalizing value with
  | zero => rfl
  | succ n ih =>
    have hbyte : UInt8.ofNat (value % 256) = UInt8.ofNat value := by
      apply UInt8.toNat_inj.mp
      simp
    rw [groupBytes, ih, Numeral.digits, List.map_cons, List.map_cons, hbyte,
      Nat.shiftRight_eq_div_pow]

theorem map_digits_bytesNumber (bytes : List UInt8) :
    (Numeral.digits 256 bytes.length (bytesNumber bytes)).map UInt8.ofNat = bytes := by
  have hlt : ∀ d ∈ bytes.map UInt8.toNat, d < 256 := by
    intro d hd
    obtain ⟨byte, -, rfl⟩ := List.mem_map.mp hd
    exact byte.toNat_lt
  have hdigits := Numeral.digits_ofDigits hlt
  rw [List.length_map] at hdigits
  rw [bytesNumber, hdigits, List.map_map]
  exact (List.map_congr_left fun byte _ => UInt8.ofNat_toNat).trans (List.map_id _)

theorem takeWhile_ok (bytes : List UInt8) :
    (bytes.map .ok : List (Except ErrorCode UInt8)).takeWhile Except.isOk = bytes.map .ok := by
  induction bytes with
  | nil => rfl
  | cons byte bytes ih =>
    rw [List.map_cons, List.takeWhile_cons_of_pos rfl, ih]

/-- **A group of bytes** is read back from its characters. -/
theorem decodeBase38_encodeBase38 {bytes : List UInt8} {k n : ℕ} (hk : bytes.length = k)
    (hn : bytesIn n = k) (hroom : 256 ^ k ≤ radix ^ n) :
    decodeBase38 ((encodeBase38 (bytesNumber bytes) n).map fun c => c.val.toUInt8) =
      bytes.map .ok := by
  subst hk
  have hlen : ((encodeBase38 (bytesNumber bytes) n).map fun c => c.val.toUInt8).length = n := by
    rw [List.length_map, encodeBase38_eq, List.length_map, Numeral.length_digits]
  have hlt : bytesNumber bytes < radix ^ n := Nat.lt_of_lt_of_le (bytesNumber_lt bytes) hroom
  rw [decodeBase38, hlen, hn, if_pos (Int.natCast_nonneg _), decodeValue_encodeBase38,
    Nat.mod_eq_of_lt hlt, Int.toNat_natCast, groupBytes_ok, map_digits_bytesNumber, takeWhile_ok]

/-! ## Texts -/

theorem ascii_encode (bytes : List UInt8) : Text.Ascii (encode bytes) := by
  induction bytes using encode.induct with
  | case1 b₀ b₁ b₂ bytes ih => exact (ascii_encodeBase38 _ _).append ih
  | case2 b₀ b₁ => exact ascii_encodeBase38 _ _
  | case3 b₀ => exact ascii_encodeBase38 _ _
  | case4 => exact ascii_encodeBase38 _ _

theorem decodeGroups_append {cs : List UInt8} (hlen : cs.length = 5) (rest : List UInt8) :
    decodeGroups (cs ++ rest) = decodeBase38 cs ++ decodeGroups rest := by
  match cs, hlen with
  | [c₀, c₁, c₂, c₃, c₄], _ => rfl

theorem decodeGroups_last {cs : List UInt8} (hlen : cs.length < 5) :
    decodeGroups cs = decodeBase38 cs := by
  match cs, hlen with
  | [], _ => rfl
  | [_], _ => rfl
  | [_, _], _ => rfl
  | [_, _, _], _ => rfl
  | [_, _, _, _], _ => rfl

theorem length_encodeBase38 (value n : ℕ) : (encodeBase38 value n).length = n := by
  rw [encodeBase38_eq, List.length_map, Numeral.length_digits]

theorem decodeGroups_encode (bytes : List UInt8) :
    decodeGroups ((encode bytes).map fun c => c.val.toUInt8) = bytes.map .ok := by
  induction bytes using encode.induct with
  | case1 b₀ b₁ b₂ bytes ih =>
    rw [encode, List.map_append, decodeGroups_append (by rw [List.length_map, length_encodeBase38]), ih,
      ← bytesNumber_three, decodeBase38_encodeBase38 (k := 3) rfl rfl (by decide)]
    rfl
  | case2 b₀ b₁ =>
    rw [encode, decodeGroups_last (by rw [List.length_map, length_encodeBase38]; decide),
      ← bytesNumber_two, decodeBase38_encodeBase38 (k := 2) rfl rfl (by decide)]
  | case3 b₀ =>
    have hnumber : b₀.toNat = bytesNumber [b₀] := by simp [bytesNumber]
    rw [encode, decodeGroups_last (by rw [List.length_map, length_encodeBase38]; decide), hnumber,
      decodeBase38_encodeBase38 (k := 1) rfl rfl (by decide)]
  | case4 => rfl

theorem decode_encode (bytes : List UInt8) :
    decode (String.ofList (encode bytes)) = bytes.map .ok := by
  rw [decode, Text.asBytes_ofList (ascii_encode bytes), decodeGroups_encode, takeWhile_ok]

theorem exists_decode (s : String) : ∃ bytes : List UInt8, decode s = bytes.map .ok := by
  have hall : ∀ rs : List (Except ErrorCode UInt8), (∀ r ∈ rs, r.isOk = true) →
      ∃ bytes : List UInt8, rs = bytes.map .ok := by
    intro rs
    induction rs with
    | nil => exact fun _ => ⟨[], rfl⟩
    | cons r rs ih =>
      intro hok
      obtain ⟨bytes, hbytes⟩ := ih fun r hr => hok r (List.mem_cons_of_mem _ hr)
      cases r with
      | error e => cases hok _ List.mem_cons_self
      | ok byte => exact ⟨byte :: bytes, by rw [hbytes, List.map_cons]⟩
  exact hall (decode s) fun r hr => List.mem_takeWhile_imp hr

theorem decodeVec_of_decode {n : ℕ} {s : String} {bytes : List UInt8} (h : decode s = bytes.map .ok)
    (hroom : bytes.length ≤ n) : ∃ vec, decodeVec n s = .ok vec ∧ vec.1 = bytes := by
  have hloop : ∀ (bytes : List UInt8) (vec : HVec UInt8 n), vec.1.length + bytes.length ≤ n →
      ∃ vec', (bytes.map .ok : List (Except ErrorCode UInt8)).foldlM (fun vec byte => do
          let byte ← lift byte
          HVec.push vec byte .bufferTooSmall) vec = .ok vec' ∧ vec'.1 = vec.1 ++ bytes := by
    intro bytes
    induction bytes with
    | nil => exact fun vec _ => ⟨vec, rfl, (List.append_nil _).symm⟩
    | cons byte bytes ih =>
      intro vec hroom
      rw [List.length_cons] at hroom
      have hlt : vec.1.length < n := by omega
      obtain ⟨vec', hrun, hvec'⟩ := ih ⟨vec.1 ++ [byte], by simpa [Nat.succ_le_iff] using hlt⟩ (by simp; omega)
      refine ⟨vec', ?_, ?_⟩
      · rw [List.map_cons, List.foldlM_cons, lift_ok, ok_bind, HVec.push, dif_pos hlt]
        exact hrun
      · rw [hvec', List.append_assoc]
        rfl
  obtain ⟨vec, hvec, hbytes⟩ := hloop bytes HVec.new (by simpa [HVec.new] using hroom)
  refine ⟨vec, ?_, hbytes⟩
  rw [decodeVec, h]
  exact hvec

/-! ## Which texts are encodings -/

def charsNumber (cs : List Char) : ℕ := Nat.ofDigits radix (cs.map base38Chars.idxOf)

/-- Are these the characters of a group of bytes: five, four or two of the alphabet, or none, with a
number that fits 24, 16 or 8 bits? -/
def groupFits (cs : List Char) : Bool :=
  cs.all base38Chars.contains &&
    match cs.length with
    | 5 => charsNumber cs < 2 ^ 24
    | 4 => charsNumber cs < 2 ^ 16
    | 2 => charsNumber cs < 2 ^ 8
    | 0 => true
    | _ => false

def groupsFit : List Char → Bool
  | c₀ :: c₁ :: c₂ :: c₃ :: c₄ :: cs => groupFits [c₀, c₁, c₂, c₃, c₄] && groupsFit cs
  | cs => groupFits cs

theorem idxOf_lt {c : Char} (hc : c ∈ base38Chars) : base38Chars.idxOf c < radix :=
  List.idxOf_lt_length_of_mem hc

/-- Characters with a number that fits are those of a group of bytes. -/
theorem exists_encodeBase38 {cs : List Char} {n : ℕ} (hcs : ∀ c ∈ cs, c ∈ base38Chars)
    (hlt : charsNumber cs < 256 ^ n) :
    ∃ bytes : List UInt8, bytes.length = n ∧ cs = encodeBase38 (bytesNumber bytes) cs.length := by
  refine ⟨(Numeral.digits 256 n (charsNumber cs)).map UInt8.ofNat, ?_, ?_⟩
  · rw [List.length_map, Numeral.length_digits]
  · have hbytes : bytesNumber ((Numeral.digits 256 n (charsNumber cs)).map UInt8.ofNat) =
        charsNumber cs := by
      have hsame : ((Numeral.digits 256 n (charsNumber cs)).map UInt8.ofNat).map UInt8.toNat =
          Numeral.digits 256 n (charsNumber cs) := by
        rw [List.map_map]
        refine (List.map_congr_left fun d hd => ?_).trans (List.map_id _)
        have hd := Numeral.lt_of_mem_digits (by decide) hd
        simp only [Function.comp_apply, UInt8.toNat_ofNat', id]
        omega
      rw [bytesNumber, hsame, Numeral.ofDigits_digits hlt]
    have hdigits : Numeral.digits radix cs.length (charsNumber cs) = cs.map base38Chars.idxOf := by
      have hall : ∀ d ∈ cs.map base38Chars.idxOf, d < radix := by
        intro d hd
        obtain ⟨c, hc, rfl⟩ := List.mem_map.mp hd
        exact idxOf_lt (hcs c hc)
      have h := Numeral.digits_ofDigits hall
      rwa [List.length_map] at h
    rw [hbytes, encodeBase38_eq, hdigits, List.map_map]
    exact ((List.map_congr_left fun c hc => charOf_idxOf (hcs c hc)).trans (List.map_id _)).symm

/-- The characters of a group of bytes have the number of the bytes. -/
theorem charsNumber_encodeBase38 {value n : ℕ} (h : value < radix ^ n) :
    charsNumber (encodeBase38 value n) = value := by
  have hsame : (encodeBase38 value n).map base38Chars.idxOf = Numeral.digits radix n value := by
    rw [encodeBase38_eq, List.map_map]
    refine (List.map_congr_left fun d hd => ?_).trans (List.map_id _)
    have hd := Numeral.lt_of_mem_digits radix_pos hd
    rw [Function.comp_apply, (charOf_spec d).2.2.2, Nat.mod_eq_of_lt hd, id]
  rw [charsNumber, hsame, Numeral.ofDigits_digits h]

theorem all_encodeBase38 (value n : ℕ) : (encodeBase38 value n).all base38Chars.contains = true := by
  rw [List.all_eq_true]
  intro c hc
  rw [encodeBase38_eq] at hc
  obtain ⟨d, -, rfl⟩ := List.mem_map.mp hc
  exact List.contains_iff_mem.mpr (charOf_spec d).2.1

/-- The lengths of groups of characters, with those of the groups of bytes. -/
def lengths : List (ℕ × ℕ) := [(5, 3), (4, 2), (2, 1)]

/-- A group of characters fits if, and only if, it is that of a group of bytes. -/
theorem groupFits_iff {cs : List Char} {k n : ℕ} (hlen : cs.length = n) (hkn : (n, k) ∈ lengths) :
    groupFits cs = true ↔ ∃ bytes : List UInt8, bytes.length = k ∧
      cs = encodeBase38 (bytesNumber bytes) n := by
  have hroom : 256 ^ k ≤ radix ^ n := by
    have hall : ∀ l ∈ lengths, 256 ^ l.2 ≤ radix ^ l.1 := by decide
    exact hall (n, k) hkn
  have hfits : groupFits cs = (cs.all base38Chars.contains && decide (charsNumber cs < 256 ^ k)) := by
    rw [groupFits, hlen]
    simp only [lengths, List.mem_cons, Prod.mk.injEq, List.not_mem_nil, or_false] at hkn
    rcases hkn with ⟨rfl, rfl⟩ | ⟨rfl, rfl⟩ | ⟨rfl, rfl⟩ <;> rfl
  rw [hfits, Bool.and_eq_true, decide_eq_true_eq]
  constructor
  · rintro ⟨hall, hlt⟩
    have hcs : ∀ c ∈ cs, c ∈ base38Chars := fun c hc =>
      List.contains_iff_mem.mp (List.all_eq_true.mp hall c hc)
    rw [← hlen]
    exact exists_encodeBase38 hcs hlt
  · rintro ⟨bytes, rfl, rfl⟩
    have hlt := bytesNumber_lt bytes
    refine ⟨all_encodeBase38 _ _, ?_⟩
    rw [charsNumber_encodeBase38 (Nat.lt_of_lt_of_le hlt hroom)]
    exact hlt

theorem groupFits_encodeBase38 {bytes : List UInt8} {k n : ℕ} (hk : bytes.length = k)
    (hkn : (n, k) ∈ lengths) : groupFits (encodeBase38 (bytesNumber bytes) n) = true :=
  (groupFits_iff (length_encodeBase38 _ _) hkn).mpr ⟨bytes, hk, rfl⟩

theorem groupsFit_append {cs : List Char} (hlen : cs.length = 5) (rest : List Char) :
    groupsFit (cs ++ rest) = (groupFits cs && groupsFit rest) := by
  match cs, hlen with
  | [c₀, c₁, c₂, c₃, c₄], _ => rfl

theorem groupsFit_last {cs : List Char} (hlen : cs.length < 5) : groupsFit cs = groupFits cs := by
  match cs, hlen with
  | [], _ => rfl
  | [_], _ => rfl
  | [_, _], _ => rfl
  | [_, _, _], _ => rfl
  | [_, _, _, _], _ => rfl

theorem groupsFit_encode (bytes : List UInt8) : groupsFit (encode bytes) = true := by
  induction bytes using encode.induct with
  | case1 b₀ b₁ b₂ bytes ih =>
    rw [encode, groupsFit_append (length_encodeBase38 _ _), ih, Bool.and_true, ← bytesNumber_three]
    exact groupFits_encodeBase38 (k := 3) rfl (by decide)
  | case2 b₀ b₁ =>
    rw [encode, groupsFit_last (by rw [length_encodeBase38]; decide), ← bytesNumber_two]
    exact groupFits_encodeBase38 (k := 2) rfl (by decide)
  | case3 b₀ =>
    have hnumber : b₀.toNat = bytesNumber [b₀] := by simp [bytesNumber]
    rw [encode, groupsFit_last (by rw [length_encodeBase38]; decide), hnumber]
    exact groupFits_encodeBase38 (k := 1) rfl (by decide)
  | case4 => rfl

theorem groupsFit_iff (cs : List Char) : groupsFit cs = true ↔ ∃ bytes, cs = encode bytes := by
  refine ⟨fun h => ?_, fun ⟨bytes, h⟩ => h ▸ groupsFit_encode bytes⟩
  induction cs using groupsFit.induct with
  | case1 c₀ c₁ c₂ c₃ c₄ cs ih =>
    rw [groupsFit, Bool.and_eq_true] at h
    obtain ⟨bytes, rfl⟩ := ih h.2
    obtain ⟨group, hgroup, hcs⟩ := (groupFits_iff (k := 3) (n := 5) rfl (by decide)).mp h.1
    match group, hgroup with
    | [b₀, b₁, b₂], _ =>
      refine ⟨b₀ :: b₁ :: b₂ :: bytes, ?_⟩
      rw [encode, ← bytesNumber_three]
      exact congrArg (· ++ encode bytes) hcs
  | case2 cs hcs =>
    have hlen : cs.length < 5 := by
      match cs with
      | [] | [_] | [_, _] | [_, _, _] | [_, _, _, _] => simp
      | c₀ :: c₁ :: c₂ :: c₃ :: c₄ :: cs => exact absurd rfl (hcs c₀ c₁ c₂ c₃ c₄ cs)
    rw [groupsFit_last hlen] at h
    match cs, hlen with
    | [], _ => exact ⟨[], rfl⟩
    | [_], _ => simp [groupFits] at h
    | [c₀, c₁], _ =>
      obtain ⟨group, hgroup, hcs⟩ := (groupFits_iff (k := 1) (n := 2) rfl (by decide)).mp h
      match group, hgroup with
      | [b₀], _ => exact ⟨[b₀], by simpa [bytesNumber, encode] using hcs⟩
    | [_, _, _], _ => simp [groupFits] at h
    | [c₀, c₁, c₂, c₃], _ =>
      obtain ⟨group, hgroup, hcs⟩ := (groupFits_iff (k := 2) (n := 4) rfl (by decide)).mp h
      match group, hgroup with
      | [b₀, b₁], _ => exact ⟨[b₀, b₁], by rw [encode, ← bytesNumber_two]; exact hcs⟩

/-- With room for what is in it, a text is decoded only if it is the encoding of the result, and
any other text is refused. -/
def Faithful (s : String) : Prop :=
  ∀ n, (decode s).length ≤ n →
    (∀ vec, decodeVec n s = .ok vec → s = String.ofList (encode vec.1)) ∧
      ((¬ ∃ bytes, s = String.ofList (encode bytes)) → ∃ e, decodeVec n s = .error (.error e))

theorem faithful_iff (s : String) : Faithful s ↔ groupsFit s.toList = true := by
  obtain ⟨bytes, hbytes⟩ := exists_decode s
  have hlen : (decode s).length = bytes.length := by rw [hbytes, List.length_map]
  rw [groupsFit_iff]
  constructor
  · intro h
    obtain ⟨vec, hvec, -⟩ := decodeVec_of_decode hbytes (Nat.le_refl bytes.length)
    have hs := (h bytes.length (Nat.le_of_eq hlen)).1 vec hvec
    exact ⟨vec.1, by rw [hs, String.toList_ofList]⟩
  · rintro ⟨bytes', hs⟩ n hroom
    have hs' : s = String.ofList (encode bytes') := by rw [← hs, String.ofList_toList]
    refine ⟨fun vec hvec => ?_, fun hno => absurd ⟨bytes', hs'⟩ hno⟩
    have hdecode : decode s = bytes'.map .ok := hs' ▸ decode_encode bytes'
    rw [hdecode, List.length_map] at hroom
    obtain ⟨vec', hvec', hbytes'⟩ := decodeVec_of_decode hdecode hroom
    rw [Except.ok.inj (hvec.symm.trans hvec'), hbytes']
    exact hs'

/-- **Base 38.** Bytes are read back from their characters; and a text is decoded faithfully if, and
only if, its characters are all of the alphabet, in groups of five and then four, two or none, each
with a number that fits its bits. -/
theorem base38 (bytes : List UInt8) (s : String) :
    (∀ n, bytes.length ≤ n →
      ∃ vec, decodeVec n (String.ofList (encode bytes)) = .ok vec ∧ vec.1 = bytes) ∧
    (Faithful s ↔ groupsFit s.toList = true) :=
  ⟨fun _ hroom => decodeVec_of_decode (decode_encode bytes) hroom, faithful_iff s⟩

/-- A wrong character, a wrong length and a number that is too large. -/
theorem base38_unfaithful :
    ¬ Faithful "!!" ∧ ¬ Faithful "A" ∧ ¬ Faithful "....." := by
  refine ⟨?_, ?_, ?_⟩ <;>
  · rw [faithful_iff]
    decide

end Base38

end RsMatter
