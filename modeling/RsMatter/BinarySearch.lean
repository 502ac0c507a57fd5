import Mathlib.Order.Lattice
import Mathlib.Order.Basic
import Mathlib.Data.List.Basic

/-!
# Binary search in an ascending list

`binarySearch keys x` is the position of `x` among the keys, or an error with the
position where it would have to be inserted.
-/

namespace RsMatter

variable {α : Type} [LinearOrder α]

/-- Search between the positions `lo` and `hi`. -/
def binarySearchLoop (keys : List α) (x : α) : ℕ → ℕ → ℕ → Except ℕ ℕ
  | 0, lo, _ => .error lo
  | fuel + 1, lo, hi =>
    if lo < hi then
      let mid := (lo + hi) / 2
      match keys[mid]? with
      | none => .error lo
      | some k =>
        if k = x then .ok mid
        else if k < x then binarySearchLoop keys x fuel (mid + 1) hi
        else binarySearchLoop keys x fuel lo mid
    else .error lo

/-- The position of `x`, or where to insert it. -/
def binarySearch (keys : List α) (x : α) : Except ℕ ℕ :=
  binarySearchLoop keys x keys.length 0 keys.length

variable {keys : List α} {x : α} {i : ℕ}

theorem lt_of_key_lt (hkeys : keys.Pairwise (· < ·)) {j : ℕ} {k k' : α} (hj : keys[j]? = some k)
    (hi : keys[i]? = some k') (hlt : k < k') : j < i := by
  by_contra hle
  obtain ⟨hjl, rfl⟩ := List.getElem?_eq_some_iff.mp hj
  obtain ⟨hil, rfl⟩ := List.getElem?_eq_some_iff.mp hi
  rcases Nat.lt_or_eq_of_le (Nat.le_of_not_lt hle) with hij | rfl
  · exact lt_asymm hlt (List.pairwise_iff_getElem.mp hkeys i j hil hjl hij)
  · exact lt_irrefl _ hlt

theorem binarySearchLoop_eq_ok (hkeys : keys.Pairwise (· < ·)) (hx : keys[i]? = some x)
    {fuel lo hi : ℕ} (hfuel : hi ≤ lo + fuel) (hlo : lo ≤ i) (hhi : i < hi)
    (hlen : hi ≤ keys.length) : binarySearchLoop keys x fuel lo hi = .ok i := by
  induction fuel generalizing lo hi with
  | zero => omega
  | succ fuel ih =>
    rw [binarySearchLoop, if_pos (by omega)]
    have hmid : (lo + hi) / 2 < keys.length := by omega
    have hget : keys[(lo + hi) / 2]? = some keys[(lo + hi) / 2] := List.getElem?_eq_getElem hmid
    simp only [hget]
    split
    · next heq =>
      have hnodup : keys.Nodup := hkeys.imp ne_of_lt
      rw [heq, ← hx] at hget
      rw [(List.getElem?_inj hmid hnodup).mp hget]
    · next hne =>
      split
      · next hlt =>
        have := lt_of_key_lt hkeys hget hx hlt
        exact ih (by omega) (by omega) hhi hlen
      · next hnlt =>
        have hgt := lt_of_le_of_ne (not_lt.mp hnlt) (Ne.symm hne)
        have := lt_of_key_lt hkeys hx hget hgt
        exact ih (by omega) hlo this (by omega)

/-- **A key is found** where it is. -/
theorem binarySearch_eq_ok (hkeys : keys.Pairwise (· < ·)) (hx : keys[i]? = some x) :
    binarySearch keys x = .ok i :=
  have hi : i < keys.length := (List.getElem?_eq_some_iff.mp hx).1
  binarySearchLoop_eq_ok hkeys hx (by omega) (Nat.zero_le i) hi (Nat.le_refl _)

theorem getElem?_of_binarySearchLoop {fuel lo hi : ℕ} (h : binarySearchLoop keys x fuel lo hi = .ok i) :
    keys[i]? = some x := by
  induction fuel generalizing lo hi with
  | zero => cases h
  | succ fuel ih =>
    rw [binarySearchLoop] at h
    split at h
    · dsimp only at h
      split at h
      · cases h
      · next k hk =>
        split at h
        · next heq =>
          rw [← Except.ok.inj h, hk, heq]
        · split at h
          · exact ih h
          · exact ih h
    · cases h

/-- **What is found** is the key. -/
theorem getElem?_of_binarySearch (h : binarySearch keys x = .ok i) : keys[i]? = some x :=
  getElem?_of_binarySearchLoop h

theorem binarySearchLoop_eq_error (hkeys : keys.Pairwise (· < ·)) {fuel lo hi : ℕ} (hfuel : hi ≤ lo + fuel)
    (hlen : hi ≤ keys.length) (hlo : ∀ (j : ℕ) k, keys[j]? = some k → j < lo → k < x)
    (hhi : ∀ (j : ℕ) k, keys[j]? = some k → hi ≤ j → x < k)
    (h : binarySearchLoop keys x fuel lo hi = .error i) :
    (∀ (j : ℕ) k, keys[j]? = some k → j < i → k < x) ∧ ∀ (j : ℕ) k, keys[j]? = some k → i ≤ j → x < k := by
  induction fuel generalizing lo hi with
  | zero =>
    rw [binarySearchLoop, Except.error.injEq] at h
    subst h
    exact ⟨hlo, fun j k hj hle => hhi j k hj (by omega)⟩
  | succ fuel ih =>
    rw [binarySearchLoop] at h
    by_cases hlt : lo < hi
    · rw [if_pos hlt] at h
      have hmid : (lo + hi) / 2 < keys.length := by omega
      have hget : keys[(lo + hi) / 2]? = some keys[(lo + hi) / 2] := List.getElem?_eq_getElem hmid
      simp only [hget] at h
      split at h
      · cases h
      · next hne =>
        -- the keys on the far side of the middle are beyond it
        split at h
        · next hk =>
          refine ih (by omega) hlen (fun j k hj hjlt => ?_) hhi h
          rcases Nat.lt_or_ge ((lo + hi) / 2) j with hgt | hle
          · omega
          · rcases Nat.lt_or_eq_of_le hle with hlt' | rfl
            · obtain ⟨hjl, rfl⟩ := List.getElem?_eq_some_iff.mp hj
              exact (List.pairwise_iff_getElem.mp hkeys _ _ hjl hmid hlt').trans hk
            · rw [hget, Option.some_inj] at hj
              exact hj ▸ hk
        · next hk =>
          have hgt := lt_of_le_of_ne (not_lt.mp hk) (Ne.symm hne)
          refine ih (by omega) (by omega) hlo (fun j k hj hle => ?_) h
          rcases Nat.lt_or_eq_of_le hle with hlt' | rfl
          · obtain ⟨hjl, rfl⟩ := List.getElem?_eq_some_iff.mp hj
            exact hgt.trans (List.pairwise_iff_getElem.mp hkeys _ _ hmid hjl hlt')
          · rw [hget, Option.some_inj] at hj
            exact hj ▸ hgt
    · rw [if_neg hlt, Except.error.injEq] at h
      subst h
      exact ⟨hlo, fun j k hj hle => hhi j k hj (by omega)⟩

/-- **A key that is not there** has the smaller keys before its place and the larger ones
from there on. -/
theorem binarySearch_eq_error (hkeys : keys.Pairwise (· < ·)) (h : binarySearch keys x = .error i) :
    (∀ k ∈ keys.take i, k < x) ∧ ∀ k ∈ keys.drop i, x < k := by
  obtain ⟨hbefore, hafter⟩ := binarySearchLoop_eq_error hkeys (by omega) (Nat.le_refl _)
    (fun j k _ hj => absurd hj (Nat.not_lt_zero j))
    (fun j k hj hle => by rw [List.getElem?_eq_none hle] at hj; cases hj) h
  refine ⟨fun k hk => ?_, fun k hk => ?_⟩
  · obtain ⟨j, hj, rfl⟩ := List.mem_take_iff_getElem.mp hk
    exact hbefore j _ (List.getElem?_eq_getElem (by omega)) (by omega)
  · obtain ⟨j, hj, rfl⟩ := List.mem_drop_iff_getElem.mp hk
    exact hafter (i + j) _ (List.getElem?_eq_getElem (by omega)) (by omega)

end RsMatter
