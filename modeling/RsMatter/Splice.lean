import Mathlib.Data.List.Basic

/-!
# Overwriting a part of a list

`splice xs i ys` is `xs` with `ys` written over it from position `i` on, as a copy into a
slice of an array leaves it. What is before the position and what is behind the copy stay
(`take_splice`, `drop_splice`), and copies one behind the other are one copy
(`splice_splice`).
-/

namespace RsMatter

variable {α : Type}

/-- `xs` with the elements from `i` on overwritten by `ys`. -/
def splice (xs : List α) (i : ℕ) (ys : List α) : List α :=
  xs.take i ++ (ys ++ xs.drop (i + ys.length))

theorem length_le_splice (xs : List α) (i : ℕ) (ys : List α) :
    xs.length ≤ (splice xs i ys).length := by
  simp only [splice, List.length_append, List.length_take, List.length_drop]
  omega

theorem length_splice {xs ys : List α} {i : ℕ} (h : i + ys.length ≤ xs.length) :
    (splice xs i ys).length = xs.length := by
  simp only [splice, List.length_append, List.length_take, List.length_drop]
  omega

@[simp] theorem splice_nil (xs : List α) (i : ℕ) : splice xs i [] = xs := by
  simp [splice]

/-- **What is behind a prefix is overwritten**, and the prefix stays. -/
theorem splice_append_left (xs ys zs : List α) :
    splice (xs ++ zs) xs.length ys = xs ++ (ys ++ zs.drop ys.length) := by
  rw [splice, List.take_left, List.drop_append, List.drop_of_length_le (by omega), List.nil_append,
    Nat.add_sub_cancel_left]

theorem exists_prefix {xs : List α} {i : ℕ} (h : i ≤ xs.length) :
    ∃ ys zs, xs = ys ++ zs ∧ ys.length = i :=
  ⟨xs.take i, xs.drop i, (List.take_append_drop i xs).symm, List.length_take_of_le h⟩

section Bounded

variable {xs : List α} {i : ℕ}

/-- **The frame before the copy.** -/
theorem take_splice (h : i ≤ xs.length) (ys : List α) {j : ℕ} (hj : j ≤ i) :
    (splice xs i ys).take j = xs.take j := by
  obtain ⟨pre, rest, rfl, rfl⟩ := exists_prefix h
  rw [splice_append_left, List.take_append_of_le_length hj, List.take_append_of_le_length hj]

theorem take_splice_end (h : i ≤ xs.length) (ys : List α) :
    (splice xs i ys).take (i + ys.length) = xs.take i ++ ys := by
  obtain ⟨pre, rest, rfl, rfl⟩ := exists_prefix h
  rw [splice_append_left, ← List.append_assoc, ← List.length_append, List.take_left, List.take_left]

/-- **The frame behind the copy.** -/
theorem drop_splice (h : i ≤ xs.length) (ys : List α) :
    (splice xs i ys).drop (i + ys.length) = xs.drop (i + ys.length) := by
  obtain ⟨pre, rest, rfl, rfl⟩ := exists_prefix h
  rw [splice_append_left, ← List.append_assoc, ← List.length_append, List.drop_left,
    List.length_append, ← List.drop_drop, List.drop_left]

/-- **Copies one behind the other** are one copy. -/
theorem splice_splice (h : i ≤ xs.length) (ys zs : List α) :
    splice (splice xs i ys) (i + ys.length) zs = splice xs i (ys ++ zs) := by
  obtain ⟨pre, rest, rfl, rfl⟩ := exists_prefix h
  rw [splice_append_left, splice_append_left, ← List.append_assoc, ← List.length_append,
    splice_append_left, List.drop_drop, List.length_append, List.append_assoc, List.append_assoc,
    Nat.add_comm]

end Bounded

end RsMatter
