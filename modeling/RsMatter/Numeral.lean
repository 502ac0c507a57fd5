import Mathlib.Data.Nat.Digits.Defs

/-!
# Numbers in a fixed number of digits

`Nat.digits` has no leading zeros, so that its length depends on the number. Formats have fields
of a fixed width: `Numeral.digits b w n` are the `w` low digits of `n` in base `b`, the lowest
first. `Nat.ofDigits` reads them back.
-/

namespace RsMatter

namespace Numeral

/-- The `w` low digits of a number in base `b`, the lowest first. -/
def digits (b : ℕ) : ℕ → ℕ → List ℕ
  | 0, _ => []
  | w + 1, n => n % b :: digits b w (n / b)

variable {b w n : ℕ}

@[simp] theorem length_digits (b w n : ℕ) : (digits b w n).length = w := by
  induction w generalizing n with
  | zero => rfl
  | succ w ih => rw [digits, List.length_cons, ih]

theorem lt_of_mem_digits (hb : 0 < b) {d : ℕ} (hd : d ∈ digits b w n) : d < b := by
  induction w generalizing n with
  | zero => cases hd
  | succ w ih =>
    rcases List.mem_cons.mp hd with rfl | hd
    · exact Nat.mod_lt n hb
    · exact ih hd

theorem ofDigits_digits_mod (b w n : ℕ) : Nat.ofDigits b (digits b w n) = n % b ^ w := by
  induction w generalizing n with
  | zero => rw [Nat.pow_zero, Nat.mod_one]; rfl
  | succ w ih => rw [digits, Nat.ofDigits_cons, ih, Nat.pow_succ', Nat.mod_mul]

theorem ofDigits_digits (h : n < b ^ w) : Nat.ofDigits b (digits b w n) = n := by
  rw [ofDigits_digits_mod, Nat.mod_eq_of_lt h]

theorem digits_ofDigits {ds : List ℕ} (h : ∀ d ∈ ds, d < b) :
    digits b ds.length (Nat.ofDigits b ds) = ds := by
  induction ds with
  | nil => rfl
  | cons d ds ih =>
    have hd : d < b := h d List.mem_cons_self
    have htail := ih fun d hd => h d (List.mem_cons_of_mem _ hd)
    rw [List.length_cons, digits, Nat.ofDigits_cons, Nat.add_mul_mod_self_left, Nat.mod_eq_of_lt hd,
      Nat.add_mul_div_left _ _ (Nat.zero_lt_of_lt hd), Nat.div_eq_of_lt hd, Nat.zero_add, htail]

theorem ofDigits_lt {ds : List ℕ} (hb : 0 < b) (h : ∀ d ∈ ds, d < b) :
    Nat.ofDigits b ds < b ^ ds.length := by
  rw [← digits_ofDigits h, length_digits, ofDigits_digits_mod]
  exact Nat.mod_lt _ (Nat.pow_pos hb)

theorem digits_add (b v w n : ℕ) : digits b (v + w) n = digits b v n ++ digits b w (n / b ^ v) := by
  induction v generalizing n with
  | zero => rw [Nat.zero_add, Nat.pow_zero, Nat.div_one]; rfl
  | succ v ih =>
    rw [Nat.succ_add, digits, ih, digits, Nat.pow_succ', Nat.div_div_eq_div_mul, List.cons_append]

theorem digits_add_mul (b w r q : ℕ) (hb : 0 < b) : digits b w (r + b ^ w * q) = digits b w r := by
  induction w generalizing r q with
  | zero => rfl
  | succ w ih =>
    have hmul : b ^ (w + 1) * q = b * (b ^ w * q) := by rw [Nat.pow_succ', Nat.mul_assoc]
    rw [digits, digits, hmul, Nat.add_mul_mod_self_left, Nat.add_mul_div_left _ _ hb, ih]

theorem digits_mod (b w n : ℕ) (hb : 0 < b) : digits b w (n % b ^ w) = digits b w n := by
  have h := digits_add_mul b w (n % b ^ w) (n / b ^ w) hb
  rw [Nat.mod_add_div] at h
  exact h.symm

theorem flatMap_digits (hb : 0 < b) (w k n : ℕ) :
    (digits (b ^ w) k n).flatMap (digits b w) = digits b (w * k) n := by
  induction k generalizing n with
  | zero => rfl
  | succ k ih =>
    rw [digits, List.flatMap_cons, ih, digits_mod _ _ _ hb, Nat.mul_succ, Nat.add_comm, digits_add]

/-! ## Fields -/

/-- The number in base `b` whose digits are those of the fields, each of which has its width. -/
def pack (b : ℕ) : List (ℕ × ℕ) → ℕ
  | [] => 0
  | (w, v) :: fields => v % b ^ w + b ^ w * pack b fields

def unpack (b : ℕ) : List ℕ → ℕ → List ℕ
  | [], _ => []
  | w :: widths, n => n % b ^ w :: unpack b widths (n / b ^ w)

variable {fields : List (ℕ × ℕ)}

theorem digits_pack (hb : 0 < b) (fields : List (ℕ × ℕ)) :
    digits b (fields.map Prod.fst).sum (pack b fields) = fields.flatMap fun f => digits b f.1 f.2 := by
  induction fields with
  | nil => rfl
  | cons f fields ih =>
    obtain ⟨w, v⟩ := f
    have hlt : v % b ^ w < b ^ w := Nat.mod_lt _ (Nat.pow_pos hb)
    rw [List.map_cons, List.sum_cons, pack, List.flatMap_cons, digits_add, digits_add_mul _ _ _ _ hb,
      digits_mod _ _ _ hb, Nat.add_mul_div_left _ _ (Nat.pow_pos hb), Nat.div_eq_of_lt hlt,
      Nat.zero_add, ih]

theorem pack_lt (hb : 0 < b) (fields : List (ℕ × ℕ)) :
    pack b fields < b ^ (fields.map Prod.fst).sum := by
  induction fields with
  | nil => exact Nat.one_pos
  | cons f fields ih =>
    obtain ⟨w, v⟩ := f
    have hlt : v % b ^ w < b ^ w := Nat.mod_lt _ (Nat.pow_pos hb)
    rw [List.map_cons, List.sum_cons, pack, Nat.pow_add]
    calc v % b ^ w + b ^ w * pack b fields < b ^ w * (pack b fields + 1) := by
          rw [Nat.mul_succ]
          omega
      _ ≤ b ^ w * b ^ (fields.map Prod.fst).sum := Nat.mul_le_mul_left _ ih

theorem unpack_pack (h : ∀ f ∈ fields, f.2 < b ^ f.1) :
    unpack b (fields.map Prod.fst) (pack b fields) = fields.map Prod.snd := by
  induction fields with
  | nil => rfl
  | cons f fields ih =>
    obtain ⟨w, v⟩ := f
    have hlt : v < b ^ w := h (w, v) List.mem_cons_self
    rw [List.map_cons, unpack, pack, Nat.mod_eq_of_lt hlt, Nat.add_mul_mod_self_left,
      Nat.mod_eq_of_lt hlt, Nat.add_mul_div_left _ _ (Nat.zero_lt_of_lt hlt), Nat.div_eq_of_lt hlt,
      Nat.zero_add, ih fun f hf => h f (List.mem_cons_of_mem _ hf), List.map_cons]

end Numeral

end RsMatter
