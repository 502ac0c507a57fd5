import RsMatter.Panic

/-!
# Iterators

An iterator is a state with a step, which gives an item or comes to its end, and can panic. What matters of a
run is whether it comes to its end, and the items on the way.
-/

namespace RsMatter

section Iteration

variable {ε σ α β : Type} {next : σ → Except (Stop ε) (Option α × σ)} {s s' : σ} {a : α} {as bs : List α}

/-! ## Finishing -/

/-- The iterator gives `None` after finitely many calls. -/
inductive Finishes (next : σ → Except (Stop ε) (Option α × σ)) : σ → Prop
  | done {s s' : σ} (h : next s = .ok (none, s')) : Finishes next s
  | step {s s' : σ} {a : α} (h : next s = .ok (some a, s')) (hs : Finishes next s') : Finishes next s

theorem finishes_map_iff {f : α → β}
    {next' : σ → Except (Stop ε) (Option β × σ)}
    (hnext : ∀ s, next' s = (next s).map fun (a, s) => (a.map f, s)) (s : σ) :
    Finishes next' s ↔ Finishes next s := by
  constructor
  · intro h
    induction h with
    | @done s s' h =>
      rw [hnext] at h
      cases hs : next s with
      | error stop =>
        rw [hs] at h
        cases h
      | ok step =>
        obtain ⟨_ | a, t⟩ := step
        · exact .done hs
        · rw [hs] at h
          cases h
    | @step s s' a h _ ih =>
      rw [hnext] at h
      cases hs : next s with
      | error stop =>
        rw [hs] at h
        cases h
      | ok step =>
        obtain ⟨_ | a, t⟩ := step
        · rw [hs] at h
          cases h
        · rw [hs] at h
          obtain rfl : t = s' := (Prod.mk.inj (Except.ok.inj h)).2
          exact .step hs ih
  · intro h
    induction h with
    | done h => exact .done (by rw [hnext, h]; rfl)
    | step h _ ih => exact .step (by rw [hnext, h]; rfl) ih

theorem not_finishes_of_stays (h : next s = .ok (some a, s)) : ¬ Finishes next s := by
  intro hfin
  generalize hs : s = t at hfin
  induction hfin with
  | done hdone =>
    subst hs
    cases h.symm.trans hdone
  | step hstep _ ih =>
    subst hs
    exact ih (Prod.mk.inj (Except.ok.inj (h.symm.trans hstep))).2

/-! ## The items -/

/-- The iterator gives these items, one a call, and then `None`. -/
inductive Yields (next : σ → Except (Stop ε) (Option α × σ)) : σ → List α → Prop
  | done {s s' : σ} (h : next s = .ok (none, s')) : Yields next s []
  | step {s s' : σ} {a : α} {as : List α} (h : next s = .ok (some a, s')) (hs : Yields next s' as) :
    Yields next s (a :: as)

namespace Yields

theorem finishes (h : Yields next s as) : Finishes next s := by
  induction h with
  | done h => exact .done h
  | step h _ ih => exact .step h ih

theorem unique (h : Yields next s as) (h' : Yields next s bs) : as = bs := by
  induction h generalizing bs with
  | done h =>
    cases h' with
    | done _ => rfl
    | step h' _ => cases h.symm.trans h'
  | step h _ ih =>
    cases h' with
    | done h' => cases h.symm.trans h'
    | step h' hs' =>
      have heq := Prod.mk.inj (Except.ok.inj (h.symm.trans h'))
      obtain rfl := heq.2
      rw [Option.some.inj heq.1, ih hs']

/-- **Counting through a list.** The states are numbered, and in the state `i` the item at `i` comes. -/
theorem of_index (as : List α) (state : ℕ → σ)
    (hstep : ∀ i a, as[i]? = some a → next (state i) = .ok (some a, state (i + 1)))
    (hend : Yields next (state as.length) bs) : Yields next (state 0) (as ++ bs) := by
  have hfrom (m : ℕ) : ∀ i, i + m = as.length → Yields next (state i) (as.drop i ++ bs) := by
    induction m with
    | zero =>
      intro i hi
      obtain rfl : i = as.length := hi
      rw [List.drop_length]
      exact hend
    | succ m ih =>
      intro i hi
      have hlt : i < as.length := by omega
      rw [List.drop_eq_getElem_cons hlt, List.cons_append]
      exact .step (hstep i as[i] (List.getElem?_eq_getElem hlt)) (ih (i + 1) (by omega))
  have hall := hfrom as.length 0 (Nat.zero_add _)
  rwa [List.drop_zero] at hall

end Yields

end Iteration

end RsMatter
