import Mathlib.Data.List.Perm.Basic
import Mathlib.Data.List.Basic

/-!
# In-place operations of bounded vectors

The vectors of an allocation-free program are edited in place: an element is taken
out by moving the last one into its slot (`swapRemove`), a scan takes out every
element with a property that way (`swapRemoveWhere`), and an update changes the
first element with a property (`modifyFirst`). None of these keeps the order in
general; what they keep is stated up to permutation and membership.
-/

namespace RsMatter

variable {α : Type*}

/-- Take out the element at `i` by moving the last one there. -/
def swapRemove (l : List α) (i : ℕ) : List α :=
  match l.getLast? with
  | some z => (l.set i z).dropLast
  | none => []

/-- The scan `while i < len { if p(v[i]) { v.swap_remove(i) } else { i += 1 } }`, with
`fuel` for the rounds left. -/
def swapRemoveLoop (p : α → Bool) : ℕ → List α → ℕ → List α
  | 0, l, _ => l
  | fuel + 1, l, i =>
    match l[i]? with
    | some x =>
      if p x then swapRemoveLoop p fuel (swapRemove l i) i else swapRemoveLoop p fuel l (i + 1)
    | none => l

/-- Take out every element with a property. Every round either shortens the vector or
moves on in it, so its length bounds the rounds. -/
def swapRemoveWhere (p : α → Bool) (l : List α) : List α := swapRemoveLoop p l.length l 0

/-- The scan that starts over whenever it has taken an element out. -/
def swapRemoveFirsts (p : α → Bool) : ℕ → List α → List α
  | 0, l => l
  | fuel + 1, l =>
    match l.findIdx? p with
    | some i => swapRemoveFirsts p fuel (swapRemove l i)
    | none => l

/-- What that scan does to a second vector, from which it takes out the same slots. -/
def swapRemoveBoth {β : Type*} (p : α → Bool) : ℕ → List α → List β → List β
  | 0, _, m => m
  | fuel + 1, l, m =>
    match l.findIdx? p with
    | some i => swapRemoveBoth p fuel (swapRemove l i) (swapRemove m i)
    | none => m

/-- Change the first element with a property, if there is one. -/
def modifyFirst (p : α → Bool) (f : α → α) : List α → Option (List α)
  | [] => none
  | x :: xs => if p x then some (f x :: xs) else (modifyFirst p f xs).map (x :: ·)

/-- Change the first element with a property, if there is one, and return something. -/
def withFirst {β : Type*} (p : α → Bool) (f : α → α × β) : List α → Option (List α × β)
  | [] => none
  | x :: xs =>
    if p x then some ((f x).1 :: xs, (f x).2)
    else (withFirst p f xs).map fun r => (x :: r.1, r.2)

/-! ## `swapRemove` -/

/-- What stands before the slot stays, what stands after it is permuted. -/
theorem swapRemove_append (a : List α) (x : α) (b : List α) :
    ∃ b', swapRemove (a ++ x :: b) a.length = a ++ b' ∧ b'.Perm b := by
  rcases List.eq_nil_or_concat b with rfl | ⟨c, z, rfl⟩
  · refine ⟨[], ?_, List.Perm.refl _⟩
    simp [swapRemove]
  · rw [List.concat_eq_append]
    refine ⟨z :: c, ?_, (List.perm_append_singleton z c).symm⟩
    have hlast : (a ++ x :: (c ++ [z])).getLast? = some z := by
      rw [show a ++ x :: (c ++ [z]) = (a ++ x :: c) ++ [z] by simp, List.getLast?_concat]
    have hset : (a ++ x :: (c ++ [z])).set a.length z = (a ++ z :: c) ++ [z] := by simp
    rw [swapRemove, hlast]
    simp only
    rw [hset, List.dropLast_concat]

variable {l : List α}

theorem swapRemove_perm {i : ℕ} (hi : i < l.length) :
    (l[i] :: swapRemove l i).Perm l := by
  obtain ⟨b', hb', hperm⟩ := swapRemove_append (l.take i) l[i] (l.drop (i + 1))
  have hsplit : l.take i ++ l[i] :: l.drop (i + 1) = l := by simp
  rw [hsplit, List.length_take, Nat.min_eq_left (Nat.le_of_lt hi)] at hb'
  rw [hb']
  calc (l[i] :: (l.take i ++ b')).Perm (l.take i ++ l[i] :: b') := List.perm_middle.symm
    _ |>.Perm (l.take i ++ l[i] :: l.drop (i + 1)) := (hperm.cons _).append_left _
    _ = l := hsplit

theorem swapRemove_subperm {i : ℕ} (hi : i < l.length) :
    (swapRemove l i).Subperm l :=
  (List.sublist_cons_self _ _).subperm.trans (swapRemove_perm hi).subperm

variable {β : Type*}

theorem map_subperm (f : α → β) {l l' : List α} (h : l.Subperm l') :
    (l.map f).Subperm (l'.map f) := by
  obtain ⟨k, hperm, hsub⟩ := h
  exact ⟨k.map f, hperm.map f, hsub.map f⟩

theorem mem_of_mem_swapRemove {i : ℕ} (hi : i < l.length) {x : α}
    (hx : x ∈ swapRemove l i) : x ∈ l :=
  (swapRemove_subperm hi).subset hx

theorem map_swapRemove (f : α → β) (l : List α) (i : ℕ) :
    (swapRemove l i).map f = swapRemove (l.map f) i := by
  rw [swapRemove, swapRemove, List.getLast?_map]
  cases l.getLast? with
  | none => rfl
  | some z => simp only [Option.map_some, List.map_dropLast, List.map_set]

/-! ## `swapRemoveWhere` -/

/-- The scan from slot `a.length` on keeps what is before it and filters the rest. -/
theorem swapRemoveLoop_perm (p : α → Bool) (fuel : ℕ) :
    ∀ (a b : List α), b.length ≤ fuel →
      (swapRemoveLoop p fuel (a ++ b) a.length).Perm (a ++ b.filter fun x => !p x) := by
  induction fuel with
  | zero =>
    intro a b hb
    rw [List.length_eq_zero_iff.mp (Nat.le_zero.mp hb)]
    exact List.Perm.refl _
  | succ fuel ih =>
    intro a b hb
    rw [swapRemoveLoop]
    cases b with
    | nil => simp
    | cons x b =>
      have hx : (a ++ x :: b)[a.length]? = some x := by simp
      rw [hx]
      simp only
      have hlen : b.length ≤ fuel := Nat.le_of_succ_le_succ hb
      by_cases hp : p x
      · rw [if_pos hp]
        obtain ⟨b', hb', hperm⟩ := swapRemove_append a x b
        rw [hb', List.filter_cons_of_neg (by simp [hp])]
        exact (ih a b' (hperm.length_eq ▸ hlen)).trans ((hperm.filter _).append_left a)
      · rw [if_neg hp]
        have h := ih (a ++ [x]) b hlen
        rw [List.append_assoc, List.length_append, List.length_singleton] at h
        rw [List.filter_cons_of_pos (by simp [hp])]
        simpa using h

theorem swapRemoveWhere_perm (p : α → Bool) (l : List α) :
    (swapRemoveWhere p l).Perm (l.filter fun x => !p x) :=
  swapRemoveLoop_perm p l.length [] l (Nat.le_refl _)

variable {p : α → Bool}

@[simp] theorem mem_swapRemoveWhere {x : α} :
    x ∈ swapRemoveWhere p l ↔ x ∈ l ∧ p x = false := by
  rw [(swapRemoveWhere_perm p l).mem_iff, List.mem_filter, Bool.not_eq_true']

theorem length_swapRemoveWhere_add (p : α → Bool) (l : List α) :
    (swapRemoveWhere p l).length + l.countP p = l.length := by
  have hneg : (fun x => !p x) = fun x => decide ¬ (p x = true) := by
    funext x
    cases p x <;> rfl
  rw [(swapRemoveWhere_perm p l).length_eq, ← List.countP_eq_length_filter, Nat.add_comm, hneg]
  exact (List.length_eq_countP_add_countP p).symm

theorem swapRemoveLoop_eq_firsts (p : α → Bool) (fuel : ℕ) :
    ∀ (a b : List α) (n : ℕ), b.length ≤ fuel → b.countP p ≤ n → (∀ x ∈ a, p x = false) →
      swapRemoveLoop p fuel (a ++ b) a.length = swapRemoveFirsts p n (a ++ b) := by
  have hnone : ∀ (a : List α) (n : ℕ), (∀ x ∈ a, p x = false) → swapRemoveFirsts p n a = a := by
    intro a n ha
    cases n with
    | zero => rfl
    | succ n => rw [swapRemoveFirsts, List.findIdx?_eq_none_iff.mpr ha]
  induction fuel with
  | zero =>
    intro a b n hb _ ha
    rw [List.length_eq_zero_iff.mp (Nat.le_zero.mp hb), List.append_nil, hnone a n ha]
    rfl
  | succ fuel ih =>
    intro a b n hb hn ha
    rw [swapRemoveLoop]
    cases b with
    | nil =>
      rw [List.append_nil, hnone a n ha]
      simp
    | cons x b =>
      have hx : (a ++ x :: b)[a.length]? = some x := by simp
      have hlen : b.length ≤ fuel := Nat.le_of_succ_le_succ hb
      rw [hx]
      simp only
      cases hp : p x with
      | true =>
        obtain ⟨b', hb', hperm⟩ := swapRemove_append a x b
        have hfind : (a ++ x :: b).findIdx? p = some a.length := by
          rw [List.findIdx?_append, List.findIdx?_eq_none_iff.mpr ha]
          simp [List.findIdx?_cons, hp]
        rw [List.countP_cons_of_pos hp] at hn
        obtain ⟨m, rfl⟩ : ∃ m, n = m + 1 := ⟨n - 1, by omega⟩
        rw [if_pos rfl, swapRemoveFirsts, hfind]
        simp only
        rw [hb']
        refine ih a b' m (hperm.length_eq ▸ hlen) ?_ ha
        rw [hperm.countP_eq]
        omega
      | false =>
        rw [List.countP_cons_of_neg (by simp [hp])] at hn
        have h := ih (a ++ [x]) b n hlen hn (by
          intro y hy
          rcases List.mem_append.mp hy with hy | hy
          · exact ha y hy
          · rw [List.mem_singleton.mp hy, hp])
        rw [List.append_assoc, List.length_append, List.length_singleton] at h
        simpa using h

theorem swapRemoveWhere_eq_firsts (p : α → Bool) (l : List α) :
    swapRemoveWhere p l = swapRemoveFirsts p l.length l :=
  swapRemoveLoop_eq_firsts p l.length [] l l.length (Nat.le_refl _) List.countP_le_length nofun

/-- **Lock step.** Two vectors that agree slot by slot agree after the scan. -/
theorem map_swapRemoveBoth {β γ : Type*} (p : α → Bool) (f : α → γ) (g : β → γ) (fuel : ℕ)
    {m : List β} (h : m.map g = l.map f) :
    (swapRemoveBoth p fuel l m).map g = (swapRemoveFirsts p fuel l).map f := by
  induction fuel generalizing l m with
  | zero => exact h
  | succ fuel ih =>
    rw [swapRemoveBoth, swapRemoveFirsts]
    cases l.findIdx? p with
    | none => exact h
    | some i =>
      refine ih ?_
      rw [map_swapRemove, map_swapRemove, h]

/-! ## `modifyFirst` -/

variable {f : α → α}

theorem modifyFirst_eq_none :
    modifyFirst p f l = none ↔ ∀ x ∈ l, p x = false := by
  induction l with
  | nil => simp [modifyFirst]
  | cons x xs ih =>
    rw [modifyFirst]
    by_cases hp : p x <;> simp [hp, ih]

theorem modifyFirst_eq_some {l l' : List α}
    (h : modifyFirst p f l = some l') :
    ∃ a x b, l = a ++ x :: b ∧ p x = true ∧ l' = a ++ f x :: b := by
  induction l generalizing l' with
  | nil => cases h
  | cons x xs ih =>
    rw [modifyFirst] at h
    by_cases hp : p x
    · rw [if_pos hp] at h
      cases h
      exact ⟨[], x, xs, rfl, hp, rfl⟩
    · rw [if_neg hp, Option.map_eq_some_iff] at h
      obtain ⟨xs', hxs, rfl⟩ := h
      obtain ⟨a, y, b, rfl, hy, rfl⟩ := ih hxs
      exact ⟨x :: a, y, b, rfl, hy, rfl⟩

theorem modifyFirst_eq_self {x : α} (h : l.find? p = some x)
    (hf : f x = x) : modifyFirst p f l = some l := by
  induction l with
  | nil => cases h
  | cons y ys ih =>
    rw [modifyFirst]
    by_cases hp : p y = true
    · rw [List.find?_cons_of_pos hp] at h
      cases h
      rw [if_pos hp, hf]
    · rw [List.find?_cons_of_neg hp] at h
      rw [if_neg hp, ih h]
      rfl

theorem modifyFirst_append_singleton {x : α}
    (h : ∀ y ∈ l, p y = false) (hx : p x = true) : modifyFirst p f (l ++ [x]) = some (l ++ [f x]) := by
  induction l with
  | nil => rw [List.nil_append, modifyFirst, if_pos hx, List.nil_append]
  | cons y ys ih =>
    have hy : ¬ p y = true := by
      rw [h y List.mem_cons_self]
      exact Bool.false_ne_true
    rw [List.cons_append, modifyFirst, if_neg hy, ih fun z hz => h z (List.mem_cons_of_mem _ hz)]
    rfl

theorem withFirst_eq_none {f : α → α × β} :
    withFirst p f l = none ↔ ∀ x ∈ l, p x = false := by
  induction l with
  | nil => simp [withFirst]
  | cons x xs ih =>
    rw [withFirst, List.forall_mem_cons]
    cases hx : p x with
    | true => simp
    | false => simp [ih]

/-- What is returned is computed from the first element with the property. -/
theorem withFirst_map_snd (p : α → Bool) (f : α → α × β) (l : List α) :
    (withFirst p f l).map Prod.snd = (l.find? p).map fun x => (f x).2 := by
  induction l with
  | nil => rfl
  | cons x xs ih =>
    rw [withFirst, List.find?_cons]
    cases hx : p x with
    | true => rfl
    | false =>
      rw [if_neg (by simp), Option.map_map]
      exact ih

theorem withFirst_eq_some_find {f : α → α × β} {l l' : List α} {b : β}
    (h : withFirst p f l = some (l', b)) :
    ∃ a x c, l = a ++ x :: c ∧ l.find? p = some x ∧ l' = a ++ (f x).1 :: c ∧ b = (f x).2 := by
  induction l generalizing l' with
  | nil => cases h
  | cons y ys ih =>
    rw [withFirst] at h
    split at h
    · next hy =>
      cases h
      exact ⟨[], y, ys, rfl, List.find?_cons_of_pos hy, rfl, rfl⟩
    · next hy =>
      obtain ⟨⟨zs, b'⟩, hzs, hr⟩ := Option.map_eq_some_iff.mp h
      cases hr
      obtain ⟨a, x, c, hys, hx, rfl, rfl⟩ := ih hzs
      refine ⟨y :: a, x, c, by rw [hys]; rfl, ?_, rfl, rfl⟩
      rw [List.find?_cons_of_neg hy, hx]

theorem withFirst_eq_some {f : α → α × β} {l l' : List α} {b : β}
    (h : withFirst p f l = some (l', b)) :
    ∃ a x c, l = a ++ x :: c ∧ p x = true ∧ l' = a ++ (f x).1 :: c ∧ b = (f x).2 := by
  obtain ⟨a, x, c, hl, hx, hl', hb⟩ := withFirst_eq_some_find h
  exact ⟨a, x, c, hl, List.find?_some hx, hl', hb⟩

end RsMatter
