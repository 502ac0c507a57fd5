import Mathlib.Data.Nat.Basic
import Mathlib.Data.List.Basic
import Mathlib.Tactic.Ring

/-!
# Numbers as byte lists

`toLE w v` are the `w` low bytes of `v`, least significant first, and `ofLE` reads a
byte list back. On numbers that fit, the two are inverse to each other. `toBE` and `ofBE`
are the same with the most significant byte first.
-/

namespace RsMatter

/-- The `w` low bytes of `v`, least significant byte first. -/
def toLE : ℕ → ℕ → List UInt8
  | 0, _ => []
  | w + 1, v => UInt8.ofNat v :: toLE w (v / 256)

/-- The number a byte list denotes, least significant byte first. -/
def ofLE : List UInt8 → ℕ
  | [] => 0
  | b :: bs => b.toNat + 256 * ofLE bs

@[simp] theorem length_toLE (w v : ℕ) : (toLE w v).length = w := by
  induction w generalizing v with
  | zero => rfl
  | succ w ih => rw [toLE, List.length_cons, ih]

theorem ofLE_toLE_mod (w v : ℕ) : ofLE (toLE w v) = v % 256 ^ w := by
  induction w generalizing v with
  | zero => simp [toLE, ofLE, Nat.mod_one]
  | succ w ih =>
    have hbyte : (UInt8.ofNat v).toNat = v % 256 := by simp
    rw [toLE, ofLE, ih, hbyte, Nat.pow_succ', Nat.mod_mul]

theorem ofLE_toLE {w v : ℕ} (hv : v < 256 ^ w) : ofLE (toLE w v) = v := by
  rw [ofLE_toLE_mod, Nat.mod_eq_of_lt hv]

theorem ofLE_lt (bs : List UInt8) : ofLE bs < 256 ^ bs.length := by
  induction bs with
  | nil => simp [ofLE]
  | cons b bs ih =>
    have hb := b.toNat_lt
    rw [ofLE, List.length_cons, Nat.pow_succ']
    omega

theorem toLE_ofLE (l : List UInt8) : toLE l.length (ofLE l) = l := by
  induction l with
  | nil => rfl
  | cons byte l ih =>
    have hbyte : UInt8.ofNat (byte.toNat + 256 * ofLE l) = byte := by
      rw [← UInt8.toNat_inj, UInt8.toNat_ofNat']
      have := byte.toNat_lt
      omega
    have hrest : (byte.toNat + 256 * ofLE l) / 256 = ofLE l := by
      have := byte.toNat_lt
      omega
    rw [List.length_cons, ofLE, toLE, hbyte, hrest, ih]

theorem ofLE_append (a b : List UInt8) : ofLE (a ++ b) = ofLE a + 256 ^ a.length * ofLE b := by
  induction a with
  | nil => rw [List.nil_append, ofLE, List.length_nil, Nat.pow_zero, Nat.one_mul, Nat.zero_add]
  | cons x a ih =>
    rw [List.cons_append, ofLE, ofLE, ih, List.length_cons, Nat.pow_succ']
    ring

theorem toLE_injective {w v v' : ℕ} (hv : v < 256 ^ w) (hv' : v' < 256 ^ w)
    (h : toLE w v = toLE w v') : v = v' := by
  rw [← ofLE_toLE hv, h, ofLE_toLE hv']

/-- A bit vector of `w` bytes fits `w` bytes. -/
theorem toNat_lt_pow {n : ℕ} (w : ℕ) (hn : 8 * w = n) (v : BitVec n) : v.toNat < 256 ^ w := by
  subst hn
  have h := v.isLt
  rwa [Nat.pow_mul] at h

/-- The number that bytes denote, the most significant one first. -/
def ofBE (bs : List UInt8) : ℕ := ofLE bs.reverse

/-- The `w` low bytes of a number, the most significant one first. -/
def toBE (w n : ℕ) : List UInt8 := (toLE w n).reverse

@[simp] theorem length_toBE (w n : ℕ) : (toBE w n).length = w := by
  rw [toBE, List.length_reverse, length_toLE]

theorem toBE_ofBE (bs : List UInt8) : toBE bs.length (ofBE bs) = bs := by
  rw [toBE, ofBE, ← List.length_reverse, toLE_ofLE, List.reverse_reverse]

theorem ofBE_toBE {w n : ℕ} (h : n < 256 ^ w) : ofBE (toBE w n) = n := by
  rw [ofBE, toBE, List.reverse_reverse, ofLE_toLE h]

theorem ofBE_lt (bs : List UInt8) : ofBE bs < 256 ^ bs.length := by
  rw [← List.length_reverse]
  exact ofLE_lt bs.reverse

theorem ofBE_cons (b : UInt8) (bs : List UInt8) : ofBE (b :: bs) = b.toNat * 256 ^ bs.length + ofBE bs := by
  rw [ofBE, List.reverse_cons, ofLE_append, List.length_reverse, ofBE, ofLE, ofLE]
  ring

end RsMatter
