import RsMatter.Base38
import RsMatter.PairingCode
import RsMatter.TlvEncoders

/-!
# The QR code (`pairing/qr.rs`)

The text of a QR code is `MT:` and the base 38 digits of a sequence of bits: the fields of the
payload, each with its lowest bit first, and behind them the bytes of a TLV structure with the serial
number and further data, if there is any of it. The bits are packed into groups of up to 24, which
are the groups of the encoding.
-/

namespace RsMatter

open Stop

/-- How a device is made ready for commissioning. -/
inductive CommFlowType where
  | standard
  | userIntent
  | custom
  deriving DecidableEq

def CommFlowType.toNat : CommFlowType → ℕ
  | .standard => 0
  | .userIntent => 1
  | .custom => 2

structure QrPayload where
  /-- the version, always `0` -/
  version : BitVec 8
  /-- where the device can be discovered, as flags -/
  discoveryCapabilities : BitVec 8
  commFlow : CommFlowType
  commData : BasicCommData
  vid : BitVec 16
  pid : BitVec 16
  serialNo : String
  /-- what the iterator over the bytes of further elements yields -/
  optionalData : List (Except ErrorCode UInt8)

namespace QrPayload

/-! ## Which payloads are valid -/

def isValidSetupPin (setupPin : BitVec 32) : Bool :=
  if setupPin = 0 ∨ 99999998 < setupPin ∨ setupPin = 11111111 ∨ setupPin = 22222222 ∨
      setupPin = 33333333 ∨ setupPin = 44444444 ∨ setupPin = 55555555 ∨ setupPin = 66666666 ∨
      setupPin = 77777777 ∨ setupPin = 88888888 ∨ setupPin = 12345678 ∨ setupPin = 87654321 then false
  else true

def isValidOperationally (vendorId : BitVec 16) : Bool := vendorId != 0 && decide (vendorId ≤ 0xFFF4)

def checkPayloadCommonConstraints (p : QrPayload) : Bool :=
  if p.version ≠ 0 then false
  else if !isValidSetupPin p.commData.password then false
  else if isValidOperationally p.vid && p.vid != 0 then false
  else if p.pid == 0 && p.vid != 0 then false
  else true

def isValid (p : QrPayload) : Bool :=
  if (1 : BitVec 8) <<< 3 ≤ p.version then false
  else if p.discoveryCapabilities = 0 then false
  else if (1 : BitVec 32) <<< 27 ≤ p.commData.password then false
  else p.checkPayloadCommonConstraints

/-- A passcode of the range, and none of those that are too simple. -/
def Allowed (setupPin : BitVec 32) : Prop :=
  1 ≤ setupPin.toNat ∧ setupPin.toNat ≤ 99999998 ∧
    setupPin ∉ [11111111, 22222222, 33333333, 44444444, 55555555, 66666666, 77777777, 88888888,
      12345678, 87654321]

structure Valid (p : QrPayload) : Prop where
  version : p.version = 0
  discoveryCapabilities : p.discoveryCapabilities ≠ 0
  password : Allowed p.commData.password
  discriminator : p.commData.discriminator.toNat < 2 ^ 12
  /-- the vendor id is unspecified or in its range -/
  vid : p.vid = 0 ∨ 1 ≤ p.vid.toNat ∧ p.vid.toNat ≤ 0xFFF4
  pid : p.vid = 0 ∨ p.pid ≠ 0

theorem unless_iff (c : Prop) [Decidable c] (b : Bool) :
    (if c then false else b) = true ↔ ¬ c ∧ b = true := by
  by_cases h : c <;> simp [h]

theorem isValidSetupPin_iff (setupPin : BitVec 32) :
    isValidSetupPin setupPin = true ↔ Allowed setupPin := by
  have hzero : setupPin = 0 ↔ setupPin.toNat = 0 := by
    rw [← BitVec.toNat_inj]
    rfl
  have hmax : 99999998 < setupPin ↔ 99999998 < setupPin.toNat := BitVec.lt_def
  rw [isValidSetupPin, Allowed, unless_iff, hzero, hmax]
  simp only [List.mem_cons, List.not_mem_nil, or_false, not_or, and_true, Nat.not_lt,
    Nat.one_le_iff_ne_zero, BitVec.ofNat_eq_ofNat]

theorem isValidOperationally_iff (vendorId : BitVec 16) :
    isValidOperationally vendorId = true ↔ 1 ≤ vendorId.toNat ∧ vendorId.toNat ≤ 0xFFF4 := by
  have hne : vendorId ≠ 0 ↔ vendorId.toNat ≠ 0 := by
    rw [ne_eq, ← BitVec.toNat_inj]
    rfl
  have hle : vendorId ≤ 0xFFF4 ↔ vendorId.toNat ≤ 0xFFF4 := BitVec.le_def
  rw [isValidOperationally, Bool.and_eq_true, bne_iff_ne, decide_eq_true_iff, hne, hle]
  omega

theorem isValid_iff (p : QrPayload) :
    p.isValid = true ↔ p.version = 0 ∧ p.discoveryCapabilities ≠ 0 ∧ Allowed p.commData.password ∧
      ¬ (1 ≤ p.vid.toNat ∧ p.vid.toNat ≤ 0xFFF4) ∧ (p.vid = 0 ∨ p.pid ≠ 0) := by
  have hversion : p.version = 0 → ¬ (1 : BitVec 8) <<< 3 ≤ p.version := by
    intro h
    rw [h]
    decide
  have hpassword : Allowed p.commData.password → ¬ (1 : BitVec 32) <<< 27 ≤ p.commData.password := by
    rintro ⟨-, hle, -⟩ hge
    have hge : 2 ^ 27 ≤ p.commData.password.toNat := BitVec.le_def.mp hge
    omega
  have hvid : p.vid = 0 → ¬ (1 ≤ p.vid.toNat ∧ p.vid.toNat ≤ 0xFFF4) := by
    intro h
    rw [h]
    decide
  have hoperational : (isValidOperationally p.vid && p.vid != 0) = true ↔
      1 ≤ p.vid.toNat ∧ p.vid.toNat ≤ 0xFFF4 := by
    rw [Bool.and_eq_true, isValidOperationally_iff, bne_iff_ne]
    exact ⟨And.left, fun h => ⟨h, fun hzero => hvid hzero h⟩⟩
  have hproduct : (p.pid == 0 && p.vid != 0) = true ↔ ¬ (p.vid = 0 ∨ p.pid ≠ 0) := by
    rw [Bool.and_eq_true, beq_iff_eq, bne_iff_ne, not_or, not_not, and_comm]
  rw [isValid, unless_iff, unless_iff, unless_iff, checkPayloadCommonConstraints, unless_iff, unless_iff,
    unless_iff, unless_iff, Bool.not_eq_true', Bool.not_eq_false, isValidSetupPin_iff, hoperational,
    hproduct, not_not, not_not]
  constructor
  · rintro ⟨-, hcaps, -, hzero, hpin, hvendor, hpid, -⟩
    exact ⟨hzero, hcaps, hpin, hvendor, hpid⟩
  · rintro ⟨hzero, hcaps, hpin, hvendor, hpid⟩
    exact ⟨hversion hzero, hcaps, hpassword hpin, hzero, hpin, hvendor, hpid, rfl⟩

/-! ## Bits -/

/-- The low bits of a number, the lowest first. -/
def emitBits (input len : ℕ) : List (Except ErrorCode Bool) :=
  (List.range len).map fun i => .ok ((input >>> i) &&& 1 == 1)

def emitMaybeBits : Except ErrorCode (ℕ × ℕ) → List (Except ErrorCode Bool)
  | .ok (input, len) => emitBits input len
  | .error e => [.error e]

/-- The bytes of the structure behind the fields. -/
def emitOptionalTlvData (p : QrPayload) : List (Except ErrorCode UInt8) :=
  if p.serialNo.isEmpty && p.optionalData.isEmpty then []
  else
    let serialNo : List TLV :=
      if p.serialNo.isEmpty then [] else [⟨.context 0, .ofUtf8 p.serialNo⟩]
    ((⟨.anonymous, .struct⟩ :: serialNo).flatMap fun tlv => tlv.pulled.map .ok) ++ p.optionalData ++
      (TLV.mk .anonymous .endCnt).pulled.map .ok

def emitAllBits (p : QrPayload) : List (Except ErrorCode Bool) :=
  emitBits p.version.toNat 3 ++ emitBits p.vid.toNat 16 ++ emitBits p.pid.toNat 16 ++
    emitBits p.commFlow.toNat 2 ++ emitBits p.discoveryCapabilities.toNat 8 ++
    emitBits p.commData.discriminator.toNat 12 ++ emitBits p.commData.password.toNat 27 ++
    emitBits 0 4 ++
    p.emitOptionalTlvData.flatMap fun bits => emitMaybeBits (bits.map fun bits => (bits.toNat, 8))

/-! ## Packing bits -/

/-- The loop that packs bits, with the number of bits there is still room for. -/
def packLoop : ℕ → ℕ → ℕ → List (Except ErrorCode Bool) →
    Except ErrorCode (ℕ × ℕ) × List (Except ErrorCode Bool)
  | 0, index, chunk, bits => (.ok (chunk, index), bits)
  | _ + 1, index, chunk, [] => (.ok (chunk, index), [])
  | _ + 1, _, _, .error e :: bits => (.error e, bits)
  | n + 1, index, chunk, .ok bit :: bits => packLoop n (index + 1) (chunk ||| (bit.toNat <<< index)) bits

/-- `PackedBitsIterator::next`. -/
def nextPacked (bits : List (Except ErrorCode Bool)) :
    Except (Stop ErrorCode) (Option (Except ErrorCode (ℕ × ℕ)) × List (Except ErrorCode Bool)) :=
  match packLoop 24 0 0 bits with
  | (.error e, bits) => .ok (some (.error e), bits)
  | (.ok (chunk, packedBits), bits) =>
    if 0 < packedBits then
      if packedBits % 8 = 0 then .ok (some (.ok (chunk, packedBits)), bits) else .error .panic
    else .ok (none, bits)

def encodePacked : Except ErrorCode (ℕ × ℕ) → Except (Stop ErrorCode) (List (Except ErrorCode Char))
  | .ok (bits, bitsCount) => do
    let chars ← Base38.encodeBits bits bitsCount
    return chars.map .ok
  | .error e => .ok [.error e]

/-- The characters of all bits. Every round takes a bit, so that there are no more rounds than bits. -/
def emitPacked : ℕ → List (Except ErrorCode Bool) →
    Except (Stop ErrorCode) (List (Except ErrorCode Char))
  | 0, _ => .ok []
  | n + 1, bits => do
    match ← nextPacked bits with
    | (none, _) => return []
    | (some item, bits) => do
      let chars ← encodePacked item
      let more ← emitPacked n bits
      return chars ++ more

def emitChars (p : QrPayload) : Except (Stop ErrorCode) (List (Except ErrorCode Char)) := do
  let chars ← emitPacked p.emitAllBits.length p.emitAllBits
  return "MT:".toList.map .ok ++ chars

/-! ## The bits of bytes -/

def bitsOf (ds : List ℕ) : List (Except ErrorCode Bool) := ds.map fun d => .ok (d == 1)

def byteBits (bytes : List UInt8) : List ℕ := bytes.flatMap fun byte => Numeral.digits 2 8 byte.toNat

theorem bitsOf_append (ds ds' : List ℕ) : bitsOf (ds ++ ds') = bitsOf ds ++ bitsOf ds' :=
  List.map_append

theorem emitBits_eq (input len : ℕ) : emitBits input len = bitsOf (Numeral.digits 2 len input) := by
  induction len generalizing input with
  | zero => rfl
  | succ len ih =>
    have htail : (List.range len).map (fun i => (.ok ((input >>> (i + 1)) &&& 1 == 1) : Except ErrorCode Bool)) =
        emitBits (input / 2) len := by
      rw [emitBits]
      refine List.map_congr_left fun i _ => ?_
      rw [Nat.add_comm, Nat.shiftRight_add]
      rfl
    have hhead : input &&& 1 = input % 2 := Nat.and_one_is_mod input
    rw [emitBits, List.range_succ_eq_map, List.map_cons, List.map_map, Numeral.digits, bitsOf, List.map_cons]
    exact congrArg₂ List.cons (by rw [Nat.shiftRight_zero, hhead]) (htail.trans (ih _))

theorem map_toNat_digits (bytes : List UInt8) :
    Numeral.digits (2 ^ 8) bytes.length (Base38.bytesNumber bytes) = bytes.map UInt8.toNat := by
  have hlt : ∀ d ∈ bytes.map UInt8.toNat, d < 2 ^ 8 := by
    intro d hd
    obtain ⟨byte, -, rfl⟩ := List.mem_map.mp hd
    exact byte.toNat_lt
  have hdigits := Numeral.digits_ofDigits hlt
  rwa [List.length_map] at hdigits

theorem byteBits_eq (bytes : List UInt8) :
    byteBits bytes = Numeral.digits 2 (8 * bytes.length) (Base38.bytesNumber bytes) := by
  rw [← Numeral.flatMap_digits (by decide), map_toNat_digits, List.flatMap_map]
  rfl

theorem ofDigits_byteBits (bytes : List UInt8) :
    Nat.ofDigits 2 (byteBits bytes) = Base38.bytesNumber bytes := by
  have hlt := Base38.bytesNumber_lt bytes
  rw [byteBits_eq, Numeral.ofDigits_digits]
  rwa [Nat.pow_mul]

theorem length_byteBits (bytes : List UInt8) : (byteBits bytes).length = 8 * bytes.length := by
  rw [byteBits_eq, Numeral.length_digits]

theorem byteBits_append (bytes bytes' : List UInt8) :
    byteBits (bytes ++ bytes') = byteBits bytes ++ byteBits bytes' := List.flatMap_append

theorem lt_of_mem_byteBits {bytes : List UInt8} {d : ℕ} (hd : d ∈ byteBits bytes) : d < 2 := by
  rw [byteBits_eq] at hd
  exact Numeral.lt_of_mem_digits (by decide) hd

/-! ## Groups of bits -/

theorem packLoop_bitsOf (n index chunk : ℕ) (ds : List ℕ) (hds : ∀ d ∈ ds, d < 2)
    (hchunk : chunk < 2 ^ index) :
    packLoop n index chunk (bitsOf ds) =
      (.ok (chunk + 2 ^ index * Nat.ofDigits 2 (ds.take n), index + min n ds.length),
        bitsOf (ds.drop n)) := by
  induction n generalizing index chunk ds with
  | zero => simp [packLoop]
  | succ n ih =>
    cases ds with
    | nil => simp [packLoop, bitsOf]
    | cons d ds =>
      have hd : d < 2 := hds d List.mem_cons_self
      have hbit : (d == 1).toNat = d := by
        obtain rfl | rfl : d = 0 ∨ d = 1 := by omega
        · rfl
        · rfl
      have hor : chunk ||| (d <<< index) = chunk + 2 ^ index * d := by
        rw [Nat.or_comm, ← Nat.shiftLeft_add_eq_or_of_lt hchunk, Nat.shiftLeft_eq, Nat.mul_comm,
          Nat.add_comm]
      have hnext : chunk + 2 ^ index * d < 2 ^ (index + 1) := by
        have hle : 2 ^ index * d ≤ 2 ^ index * 1 := Nat.mul_le_mul_left _ (Nat.le_of_lt_succ hd)
        rw [Nat.pow_succ]
        omega
      have hrest := ih (index + 1) (chunk + 2 ^ index * d) ds
        (fun d hd => hds d (List.mem_cons_of_mem _ hd)) hnext
      have hstep : packLoop (n + 1) index chunk (bitsOf (d :: ds)) =
          packLoop n (index + 1) (chunk ||| ((d == 1).toNat <<< index)) (bitsOf ds) := rfl
      rw [hstep, hbit, hor, hrest, List.take_succ_cons, Nat.ofDigits_cons, List.length_cons,
        List.drop_succ_cons, Nat.succ_min_succ]
      congr 3
      · ring
      · omega

/-- A group of bits is that of the next three bytes, or of what there is of them. -/
theorem nextPacked_byteBits {group : List UInt8} (rest : List UInt8) (hpos : 0 < group.length)
    (hgroup : group.length = 3 ∨ group.length < 3 ∧ rest = []) :
    nextPacked (bitsOf (byteBits (group ++ rest))) =
      .ok (some (.ok (Base38.bytesNumber group, 8 * group.length)), bitsOf (byteBits rest)) := by
  have hbits : ∀ d ∈ byteBits (group ++ rest), d < 2 := fun d => lt_of_mem_byteBits
  have hlen := length_byteBits group
  have htake : (byteBits (group ++ rest)).take 24 = byteBits group := by
    rw [byteBits_append]
    rcases hgroup with hgroup | ⟨hlt, rfl⟩
    · exact List.take_left' (by rw [hlen, hgroup])
    · exact (congrArg (List.take 24) (List.append_nil _)).trans (List.take_of_length_le (by omega))
  have hdrop : (byteBits (group ++ rest)).drop 24 = byteBits rest := by
    rw [byteBits_append]
    rcases hgroup with hgroup | ⟨hlt, rfl⟩
    · exact List.drop_left' (by rw [hlen, hgroup])
    · exact (congrArg (List.drop 24) (List.append_nil _)).trans (List.drop_of_length_le (by omega))
  have hmin : min 24 (byteBits (group ++ rest)).length = 8 * group.length := by
    rw [byteBits_append, List.length_append, hlen]
    rcases hgroup with hgroup | ⟨hlt, rfl⟩
    · omega
    · simp [byteBits]
      omega
  rw [nextPacked, packLoop_bitsOf 24 0 0 _ hbits (by decide), htake, hdrop, hmin, ofDigits_byteBits]
  simp only [Nat.zero_add, Nat.pow_zero, Nat.one_mul]
  rw [if_pos (by omega), if_pos (Nat.mul_mod_right 8 _)]

theorem emitPacked_byteBits (bytes : List UInt8) (n : ℕ) (hn : 8 * bytes.length ≤ n) :
    emitPacked n (bitsOf (byteBits bytes)) = .ok ((Base38.encode bytes).map .ok) := by
  have hnil : ∀ n, emitPacked n (bitsOf (byteBits [])) = .ok [] := by
    intro n
    cases n with
    | zero => rfl
    | succ n => rfl
  induction bytes using Base38.encode.induct generalizing n with
  | case1 b₀ b₁ b₂ bytes ih =>
    obtain ⟨n, rfl⟩ : ∃ m, n = m + 1 := Nat.exists_eq_add_one.mpr (by simp at hn; omega)
    have hnext := @nextPacked_byteBits [b₀, b₁, b₂] bytes (Nat.succ_pos 2) (.inl rfl)
    have hrest := ih n (by simp at hn; omega)
    have hchars : encodePacked (.ok (Base38.bytesNumber [b₀, b₁, b₂], 8 * 3)) =
        .ok ((Base38.encodeBase38 (Base38.bytesNumber [b₀, b₁, b₂]) 5).map .ok) := rfl
    rw [List.cons_append, List.cons_append, List.cons_append, List.nil_append] at hnext
    rw [emitPacked, hnext, ok_bind]
    simp only [List.length_cons, List.length_nil, Nat.zero_add, Nat.reduceAdd]
    rw [hchars, ok_bind, hrest, ok_bind, Base38.encode, List.map_append, ← Base38.bytesNumber_three]
    rfl
  | case2 b₀ b₁ =>
    obtain ⟨n, rfl⟩ : ∃ m, n = m + 1 := Nat.exists_eq_add_one.mpr (by simp at hn; omega)
    have hnext := @nextPacked_byteBits [b₀, b₁] [] (Nat.succ_pos 1) (.inr ⟨Nat.lt_succ_self 2, rfl⟩)
    have hchars : encodePacked (.ok (Base38.bytesNumber [b₀, b₁], 8 * 2)) =
        .ok ((Base38.encodeBase38 (Base38.bytesNumber [b₀, b₁]) 4).map .ok) := rfl
    rw [List.append_nil] at hnext
    rw [emitPacked, hnext, ok_bind]
    simp only [List.length_cons, List.length_nil, Nat.zero_add, Nat.reduceAdd]
    rw [hchars, ok_bind, hnil, ok_bind, Base38.encode, List.append_nil, ← Base38.bytesNumber_two]
    rfl
  | case3 b₀ =>
    obtain ⟨n, rfl⟩ : ∃ m, n = m + 1 := Nat.exists_eq_add_one.mpr (by simp at hn; omega)
    have hnext := @nextPacked_byteBits [b₀] [] (Nat.succ_pos 0) (.inr ⟨Nat.one_lt_succ_succ 1, rfl⟩)
    have hnumber : b₀.toNat = Base38.bytesNumber [b₀] := by simp [Base38.bytesNumber]
    have hchars : encodePacked (.ok (Base38.bytesNumber [b₀], 8 * 1)) =
        .ok ((Base38.encodeBase38 (Base38.bytesNumber [b₀]) 2).map .ok) := rfl
    rw [List.append_nil] at hnext
    rw [emitPacked, hnext, ok_bind]
    simp only [List.length_cons, List.length_nil, Nat.zero_add]
    rw [hchars, ok_bind, hnil, ok_bind, Base38.encode, List.append_nil, hnumber]
    rfl
  | case4 => exact hnil n

/-! ## What is in the text -/

def widths : List ℕ := [3, 16, 16, 2, 8, 12, 27, 4]

def values (p : QrPayload) : List ℕ :=
  [p.version.toNat, p.vid.toNat, p.pid.toNat, p.commFlow.toNat, p.discoveryCapabilities.toNat,
    p.commData.discriminator.toNat, p.commData.password.toNat, 0]

def fieldBytes (p : QrPayload) : List UInt8 :=
  (Numeral.digits 256 11 (Numeral.pack 2 (widths.zip p.values))).map UInt8.ofNat

theorem bytesNumber_fieldBytes (p : QrPayload) :
    Base38.bytesNumber p.fieldBytes = Numeral.pack 2 (widths.zip p.values) := by
  have hbytes : p.fieldBytes.map UInt8.toNat =
      Numeral.digits 256 11 (Numeral.pack 2 (widths.zip p.values)) := by
    rw [fieldBytes, List.map_map]
    refine (List.map_congr_left fun d hd => ?_).trans (List.map_id _)
    have hlt : d < 256 := Numeral.lt_of_mem_digits (by decide) hd
    exact UInt8.toNat_ofNat_of_lt' hlt
  have hlt := Numeral.pack_lt (b := 2) (by decide) (widths.zip p.values)
  have hsum : ((widths.zip p.values).map Prod.fst).sum = 8 * 11 := rfl
  rw [hsum, Nat.pow_mul] at hlt
  rw [Base38.bytesNumber, hbytes, Numeral.ofDigits_digits hlt]

theorem length_fieldBytes (p : QrPayload) : p.fieldBytes.length = 11 := by
  rw [fieldBytes, List.length_map, Numeral.length_digits]

theorem emitAllBits_eq {p : QrPayload} {tlv : List UInt8} (h : p.emitOptionalTlvData = tlv.map .ok) :
    p.emitAllBits = bitsOf (byteBits (p.fieldBytes ++ tlv)) := by
  have hfields : byteBits p.fieldBytes =
      (widths.zip p.values).flatMap fun f => Numeral.digits 2 f.1 f.2 := by
    rw [byteBits_eq, bytesNumber_fieldBytes, length_fieldBytes, ← Numeral.digits_pack (by decide)]
    rfl
  have htlv : (tlv.map .ok).flatMap (fun bits : Except ErrorCode UInt8 =>
      emitMaybeBits (bits.map fun bits => (bits.toNat, 8))) = bitsOf (byteBits tlv) := by
    rw [List.flatMap_map, byteBits, bitsOf, List.map_flatMap]
    exact List.flatMap_congr fun byte _ => emitBits_eq byte.toNat 8
  rw [emitAllBits, h, htlv, byteBits_append, hfields, bitsOf_append]
  refine congrArg (· ++ bitsOf (byteBits tlv)) ?_
  simp only [widths, values, List.zip_cons_cons, List.zip_nil_right, List.flatMap_cons,
    List.flatMap_nil, List.append_nil, bitsOf_append, emitBits_eq, List.append_assoc]

/-- **The text of a payload** is that of its bytes. -/
theorem emitChars_eq {p : QrPayload} {tlv : List UInt8} (h : p.emitOptionalTlvData = tlv.map .ok) :
    p.emitChars = .ok (("MT:".toList ++ Base38.encode (p.fieldBytes ++ tlv)).map .ok) := by
  have hlen : 8 * (p.fieldBytes ++ tlv).length ≤ p.emitAllBits.length := by
    rw [emitAllBits_eq h, bitsOf, List.length_map, length_byteBits]
  rw [emitChars, emitAllBits_eq h] at *
  rw [emitPacked_byteBits _ _ hlen, ok_bind, List.map_append]
  rfl

/-! ## Payloads in texts -/

def serialBytes (p : QrPayload) : List UInt8 :=
  if p.serialNo.isEmpty then [] else elemBytes (.context 0) (.ofUtf8 p.serialNo)

/-- The structure behind the fields, if there is anything in it. -/
def tlvBytes (p : QrPayload) (data : List UInt8) : List UInt8 :=
  if p.serialNo.isEmpty && data.isEmpty then []
  else elemBytes .anonymous .struct ++ ((p.serialBytes ++ data) ++ [TLVSequence.endMarker])

/-- A payload with further elements is read back from its text: the fields from the first bytes, and
behind them the structure. -/
def RoundTrip (p : QrPayload) (data : List UInt8) : Prop :=
  ∃ (text : List Char) (bytes : List UInt8), p.emitChars = .ok (("MT:".toList ++ text).map .ok) ∧
    Base38.decode (String.ofList text) = bytes.map .ok ∧
    Numeral.unpack 2 widths (Base38.bytesNumber (bytes.take 11)) = p.values ∧
    bytes.drop 11 = p.tlvBytes data ∧
    (p.serialNo.isEmpty = false ∨ data ≠ [] → TLVSequence.Element (p.tlvBytes data))

variable {p : QrPayload} {data : List UInt8}

theorem Valid.unpack (h : p.Valid) :
    Numeral.unpack 2 widths (Base38.bytesNumber p.fieldBytes) = p.values := by
  have hflow : p.commFlow.toNat < 2 ^ 2 := by
    cases p.commFlow <;> decide
  have hversion : p.version.toNat < 2 ^ 3 := by
    rw [h.version]
    decide
  have hpassword : p.commData.password.toNat < 2 ^ 27 :=
    Nat.lt_of_le_of_lt h.password.2.1 (by decide)
  have hfields : ∀ f ∈ widths.zip p.values, f.2 < 2 ^ f.1 := by
    simp only [widths, values, List.zip_cons_cons, List.zip_nil_right, List.forall_mem_cons]
    exact ⟨hversion, p.vid.isLt, p.pid.isLt, hflow, p.discoveryCapabilities.isLt, h.discriminator,
      hpassword, by decide, fun _ h => absurd h List.not_mem_nil⟩
  have hunpack := Numeral.unpack_pack hfields
  rw [bytesNumber_fieldBytes]
  exact hunpack

theorem element_tlvBytes (hdata : TLVSequence.Elements data) (hlen : (utf8Bytes p.serialNo).length < 2 ^ 32)
    (hne : p.serialNo.isEmpty = false ∨ data ≠ []) : TLVSequence.Element (p.tlvBytes data) := by
  have hstart : TLVSequence.IsStart (elemBytes .anonymous .struct) := ⟨⟨.anonymous, .struct⟩, ⟨rfl, rfl⟩, rfl⟩
  have hcall : (utf8Bytes p.serialNo).length < 2 ^ 64 := hlen.trans (by decide)
  have hserial : TLVSequence.Elements (p.serialBytes ++ data) := by
    rw [serialBytes]
    split_ifs
    · exact hdata
    · exact (TLVSequence.element_bytes (.leaf (.context 0) (.utf8 p.serialNo hcall))).append hdata
  have hsome : ¬ (p.serialNo.isEmpty && data.isEmpty) = true := by
    rw [Bool.and_eq_true, List.isEmpty_iff]
    rintro ⟨hempty, hnil⟩
    rcases hne with hne | hne
    · rw [hne] at hempty
      cases hempty
    · exact hne hnil
  rw [tlvBytes, if_neg hsome]
  exact .container hstart hserial

/-- The bytes that are emitted for the structure. -/
def emittedBytes (p : QrPayload) (data : List UInt8) : List UInt8 :=
  if p.serialNo.isEmpty && data.isEmpty then []
  else elemBytes .anonymous .struct ++
    (((if p.serialNo.isEmpty then [] else (TLV.mk (.context 0) (.ofUtf8 p.serialNo)).pulled) ++ data) ++
      [TLVSequence.endMarker])

theorem emitOptionalTlvData_eq (h : p.optionalData = data.map .ok) :
    p.emitOptionalTlvData = (p.emittedBytes data).map .ok := by
  have hstart : (TLV.mk .anonymous .struct).pulled = elemBytes .anonymous .struct := rfl
  have hend : (TLV.mk .anonymous .endCnt).pulled = [TLVSequence.endMarker] := rfl
  rw [emitOptionalTlvData, emittedBytes, h, List.isEmpty_map, hend]
  cases p.serialNo.isEmpty <;> cases data.isEmpty <;> simp [hstart]

theorem emittedBytes_eq_iff :
    p.emittedBytes data = p.tlvBytes data ↔ (utf8Bytes p.serialNo).length < 2 ^ 32 := by
  have hpulled := (TLV.mk (.context 0) (.ofUtf8 p.serialNo)).pulled_eq_iff
  rw [not_isLong_ofUtf8] at hpulled
  rw [emittedBytes, tlvBytes, serialBytes]
  cases hserial : p.serialNo.isEmpty
  · simpa using hpulled
  · have hempty : p.serialNo = "" := String.isEmpty_iff.mp hserial
    have hlen : (utf8Bytes p.serialNo).length < 2 ^ 32 := by
      rw [hempty]
      decide
    exact iff_of_true (by simp) hlen

theorem Valid.roundTrip_iff (hvalid : p.Valid) (h : p.optionalData = data.map .ok)
    (hdata : TLVSequence.Elements data) : p.RoundTrip data ↔ (utf8Bytes p.serialNo).length < 2 ^ 32 := by
  have hchars := emitChars_eq (emitOptionalTlvData_eq h)
  have hdrop : (p.fieldBytes ++ p.emittedBytes data).drop 11 = p.emittedBytes data :=
    List.drop_left' p.length_fieldBytes
  constructor
  · rintro ⟨text, bytes, htext, hbytes, -, hrest, -⟩
    have htext := List.append_cancel_left (List.map_injective_iff.mpr (fun _ _ h => Except.ok.inj h)
      (Except.ok.inj (hchars.symm.trans htext)))
    rw [← htext, Base38.decode_encode] at hbytes
    have hbytes := List.map_injective_iff.mpr (fun _ _ h => Except.ok.inj h) hbytes
    rw [← hbytes, hdrop] at hrest
    exact emittedBytes_eq_iff.mp hrest
  · intro hlen
    refine ⟨_, _, hchars, Base38.decode_encode _, ?_, hdrop.trans (emittedBytes_eq_iff.mpr hlen),
      element_tlvBytes hdata hlen⟩
    rw [List.take_left' p.length_fieldBytes]
    exact hvalid.unpack

/-- Is the vendor id checked as it should be, and is the length of the discriminator no matter? -/
def Checked (p : QrPayload) : Prop :=
  p.version ≠ 0 ∨ p.discoveryCapabilities = 0 ∨ ¬ Allowed p.commData.password ∨
    (p.vid = 0 ∧ p.commData.discriminator.toNat < 2 ^ 12) ∨ (p.vid ≠ 0 ∧ p.pid = 0) ∨
    (1 ≤ p.vid.toNat ∧ p.vid.toNat ≤ 0xFFF4 ∧ 2 ^ 12 ≤ p.commData.discriminator.toNat)

theorem isValid_iff_valid : (p.isValid = true ↔ p.Valid) ↔ p.Checked := by
  have hvalid : p.Valid ↔ p.version = 0 ∧ p.discoveryCapabilities ≠ 0 ∧ Allowed p.commData.password ∧
      p.commData.discriminator.toNat < 2 ^ 12 ∧ (p.vid = 0 ∨ 1 ≤ p.vid.toNat ∧ p.vid.toNat ≤ 0xFFF4) ∧
      (p.vid = 0 ∨ p.pid ≠ 0) :=
    ⟨fun ⟨h₁, h₂, h₃, h₄, h₅, h₆⟩ => ⟨h₁, h₂, h₃, h₄, h₅, h₆⟩,
      fun ⟨h₁, h₂, h₃, h₄, h₅, h₆⟩ => ⟨h₁, h₂, h₃, h₄, h₅, h₆⟩⟩
  have hzero : p.vid = 0 ↔ p.vid.toNat = 0 := by
    rw [← BitVec.toNat_inj]
    rfl
  rw [isValid_iff, hvalid, Checked, ne_eq, ne_eq, ne_eq, ne_eq, hzero]
  by_cases hversion : p.version = 0
  · by_cases hcaps : p.discoveryCapabilities = 0
    · exact iff_of_true (iff_of_false (fun h => h.2.1 hcaps) fun h => h.2.1 hcaps) (.inr (.inl hcaps))
    · by_cases hpin : Allowed p.commData.password
      · by_cases hpid : p.pid = 0
        · simp only [hversion, hcaps, hpin, hpid, not_true, not_false_iff, true_and, or_false, false_or,
            and_true]
          omega
        · simp only [hversion, hcaps, hpin, hpid, not_true, not_false_iff, true_and, or_true, false_or,
            and_true, and_false]
          omega
      · exact iff_of_true (iff_of_false (fun h => hpin h.2.2.1) fun h => hpin h.2.2.1)
          (.inr (.inr (.inl hpin)))
  · exact iff_of_true (iff_of_false (fun h => hversion h.1) fun h => hversion h.1) (.inl hversion)

/-- **QR codes.** The validity check and the text do what they should. -/
theorem qrCode (h : p.optionalData = data.map .ok) (hdata : TLVSequence.Elements data) :
    ((p.isValid = true ↔ p.Valid) ∧ (p.Valid → p.RoundTrip data)) ↔
      p.Checked ∧ (p.Valid → (utf8Bytes p.serialNo).length < 2 ^ 32) := by
  rw [isValid_iff_valid]
  refine and_congr_right fun _ => ?_
  exact forall_congr' fun hvalid => hvalid.roundTrip_iff h hdata

def deviceOf (vid : BitVec 16) : QrPayload where
  version := 0
  discoveryCapabilities := 2
  commFlow := .standard
  commData := ⟨20202021, 3840⟩
  vid := vid
  pid := 0x8001
  serialNo := "1234567890"
  optionalData := []

theorem valid_deviceOf {vid : BitVec 16} (hvid : vid.toNat ≤ 0xFFF4) : (deviceOf vid).Valid where
  version := rfl
  discoveryCapabilities := show (2 : BitVec 8) ≠ 0 by decide
  password := (isValidSetupPin_iff 20202021).mp (by decide)
  discriminator := show (3840 : BitVec 16).toNat < 2 ^ 12 by decide
  vid := by
    rcases Nat.eq_zero_or_pos vid.toNat with h | h
    · exact .inl (BitVec.toNat_inj.mp h)
    · exact .inr ⟨h, hvid⟩
  pid := .inr (show (0x8001 : BitVec 16) ≠ 0 by decide)

/-- A device without a vendor does what it should. -/
theorem qrCode_deviceOf : (deviceOf 0).isValid = true ∧ (deviceOf 0).RoundTrip [] := by
  have hvalid : (deviceOf 0).Valid := valid_deviceOf (by decide)
  have h := (@qrCode (deviceOf 0) [] rfl .nil).mpr
    ⟨.inr (.inr (.inr (.inl ⟨rfl, by decide⟩))), fun _ => by decide⟩
  exact ⟨h.1.mpr hvalid, h.2 hvalid⟩

theorem vendor_refused : (deviceOf 0xFFF1).Valid ∧ (deviceOf 0xFFF1).isValid = false ∧
    ¬ (((deviceOf 0xFFF1).isValid = true ↔ (deviceOf 0xFFF1).Valid) ∧
      ((deviceOf 0xFFF1).Valid → (deviceOf 0xFFF1).RoundTrip [])) := by
  have hvalid : (deviceOf 0xFFF1).Valid := valid_deviceOf (by decide)
  have hrefused : (deviceOf 0xFFF1).isValid = false := by decide
  refine ⟨hvalid, hrefused, fun h => ?_⟩
  exact Bool.false_ne_true (hrefused.symm.trans (h.1.mpr hvalid))

end QrPayload

end RsMatter
