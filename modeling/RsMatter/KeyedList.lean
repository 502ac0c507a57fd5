import Mathlib.Data.List.Basic
import Mathlib.Data.List.Nodup

/-!
# Tables with a key

A table is a list whose entries carry a key. Entries are looked up by the first
match, replaced in place and taken out by a filter. What every operation does to
every other key is stated once here.
-/

namespace RsMatter

variable {α κ : Type*} [DecidableEq κ] (key : α → κ)

def lookup (l : List α) (k : κ) : Option α := l.find? fun x => key x == k

def replaceKey (l : List α) (k : κ) (y : α) : List α :=
  match l with
  | [] => []
  | x :: xs => if key x = k then y :: xs else x :: replaceKey xs k y

def removeKey (l : List α) (k : κ) : List α := l.filter fun x => key x != k

variable {key} {l : List α} {k k' : κ} {x y : α}

theorem lookup_cons : lookup key (x :: l) k = if key x = k then some x else lookup key l k := by
  by_cases h : key x = k <;> simp [lookup, h]

theorem key_of_lookup (h : lookup key l k = some x) : key x = k := by
  simpa using List.find?_some h

theorem mem_of_lookup (h : lookup key l k = some x) : x ∈ l := List.mem_of_find?_eq_some h

/-- Where no two elements have the same key, an element is found by its key. -/
theorem lookup_of_mem (h : (l.map key).Nodup) (hx : x ∈ l) : lookup key l (key x) = some x := by
  obtain ⟨y, hy⟩ : ∃ y, lookup key l (key x) = some y := by
    refine Option.ne_none_iff_exists'.mp fun hnone => ?_
    exact List.find?_eq_none.mp hnone x hx (beq_self_eq_true _)
  rw [hy, List.inj_on_of_nodup_map h (mem_of_lookup hy) hx (key_of_lookup hy)]

theorem lookup_eq_none : lookup key l k = none ↔ k ∉ l.map key := by
  simp [lookup, List.find?_eq_none]

theorem lookup_ne_none : lookup key l k ≠ none ↔ k ∈ l.map key := by
  rw [ne_eq, lookup_eq_none, not_not]

/-! ## Replacing -/

theorem lookup_replaceKey_self (hy : key y = k) (h : lookup key l k ≠ none) :
    lookup key (replaceKey key l k y) k = some y := by
  induction l with
  | nil => exact absurd rfl h
  | cons x l ih =>
    rw [replaceKey]
    by_cases hx : key x = k
    · rw [if_pos hx, lookup_cons, if_pos hy]
    · rw [if_neg hx, lookup_cons, if_neg hx]
      rw [lookup_cons, if_neg hx] at h
      exact ih h

theorem lookup_replaceKey_ne (hy : key y = k) (hk : k' ≠ k) :
    lookup key (replaceKey key l k y) k' = lookup key l k' := by
  induction l with
  | nil => rfl
  | cons x l ih =>
    rw [replaceKey]
    by_cases hx : key x = k
    · have hx' : key x ≠ k' := fun h => hk (h.symm.trans hx)
      have hy' : key y ≠ k' := fun h => hk (h.symm.trans hy)
      rw [if_pos hx, lookup_cons, lookup_cons, if_neg hx', if_neg hy']
    · rw [if_neg hx, lookup_cons, lookup_cons, ih]

theorem map_key_replaceKey (hy : key y = k) : (replaceKey key l k y).map key = l.map key := by
  induction l with
  | nil => rfl
  | cons x l ih =>
    rw [replaceKey]
    by_cases hx : key x = k
    · rw [if_pos hx, List.map_cons, List.map_cons, hx, hy]
    · rw [if_neg hx, List.map_cons, List.map_cons, ih]

theorem mem_replaceKey {z : α} (h : z ∈ replaceKey key l k y) : z = y ∨ z ∈ l := by
  induction l with
  | nil => cases h
  | cons x l ih =>
    rw [replaceKey] at h
    by_cases hx : key x = k
    · rw [if_pos hx] at h
      rcases List.mem_cons.mp h with rfl | h
      · exact .inl rfl
      · exact .inr (List.mem_cons_of_mem _ h)
    · rw [if_neg hx] at h
      rcases List.mem_cons.mp h with rfl | h
      · exact .inr List.mem_cons_self
      · exact (ih h).imp_right (List.mem_cons_of_mem _)

/-! ## Taking out -/

theorem lookup_removeKey_self : lookup key (removeKey key l k) k = none := by
  rw [lookup_eq_none, removeKey]
  simp

theorem lookup_removeKey_ne (hk : k' ≠ k) : lookup key (removeKey key l k) k' = lookup key l k' := by
  induction l with
  | nil => rfl
  | cons x l ih =>
    rw [removeKey, List.filter_cons, lookup_cons, ← removeKey]
    by_cases hx : key x = k
    · have hx' : key x ≠ k' := fun h => hk (h.symm.trans hx)
      rw [if_neg (by simp [hx]), if_neg hx', ih]
    · rw [if_pos (by simp [hx]), lookup_cons, ih]

theorem removeKey_sublist : (removeKey key l k).Sublist l := List.filter_sublist

theorem length_removeKey_lt (h : lookup key l k ≠ none) : (removeKey key l k).length < l.length := by
  rw [lookup_ne_none, List.mem_map] at h
  obtain ⟨x, hx, rfl⟩ := h
  exact List.length_filter_lt_length_iff_exists.mpr ⟨x, hx, by simp⟩

/-! ## Adding at the end -/

theorem lookup_append_ne (hy : key y ≠ k) : lookup key (l ++ [y]) k = lookup key l k := by
  simp [lookup, List.find?_append, hy]

theorem lookup_append_self (h : lookup key l (key y) = none) :
    lookup key (l ++ [y]) (key y) = some y := by
  rw [lookup] at h
  simp [lookup, List.find?_append, h]

theorem removeKey_append_self (h : lookup key l (key y) = none) : removeKey key (l ++ [y]) (key y) = l := by
  rw [lookup_eq_none] at h
  rw [removeKey, List.filter_append, List.filter_eq_self.mpr, List.filter_singleton]
  · simp
  · intro x hx
    simp only [bne_iff_ne]
    exact fun hxy => h (hxy ▸ List.mem_map_of_mem hx)

theorem nodup_map_append (hl : (l.map key).Nodup) (h : lookup key l (key y) = none) :
    ((l ++ [y]).map key).Nodup := by
  rw [List.map_append, List.map_singleton, ← List.concat_eq_append]
  exact hl.concat (lookup_eq_none.mp h)

end RsMatter
