import Mathlib.Data.List.Basic

/-!
# Computations that may panic

A function of the source ends with a result, with an error for its caller, or with a
panic: an `unwrap` of what is not there, an index out of range, an assertion. The
functions whose panics matter are modelled with the panic as an outcome of its own, which
no `?` turns into an error. That a computation does not panic (`NoPanic`) is shown
along its binds.
-/

namespace RsMatter

inductive Stop (ε : Type) where
  | error (e : ε)
  | panic
  deriving DecidableEq

namespace Stop

variable {ε α β : Type}

/-- `?`: an error goes to the caller. -/
def lift : Except ε α → Except (Stop ε) α
  | .ok a => .ok a
  | .error e => .error (.error e)

/-- `unwrap` of a result. -/
def unwrap : Except ε α → Except (Stop ε) α
  | .ok a => .ok a
  | .error _ => .error .panic

/-- `unwrap` of an option, or an index into a slice. -/
def unwrapSome : Option α → Except (Stop ε) α
  | some a => .ok a
  | none => .error .panic

/-- A subtraction of `usize`s. -/
def sub (a b : ℕ) : Except (Stop ε) ℕ := if b ≤ a then .ok (a - b) else .error .panic

/-- `xs[i]`. -/
def index (xs : List α) (i : ℕ) : Except (Stop ε) α := unwrapSome xs[i]?

/-- `xs[i] = a`. -/
def store (xs : List α) (i : ℕ) (a : α) : Except (Stop ε) (List α) :=
  if i < xs.length then .ok (xs.set i a) else .error .panic

/-- `xs[i..i + ys.len()].copy_from_slice(ys)`. -/
def copyAt (xs : List α) (i : ℕ) (ys : List α) : Except (Stop ε) (List α) :=
  if i + ys.length ≤ xs.length then .ok (xs.take i ++ ys ++ xs.drop (i + ys.length))
  else .error .panic

/-- `&xs[..n]`. -/
def upTo (xs : List α) (n : ℕ) : Except (Stop ε) (List α) :=
  if n ≤ xs.length then .ok (xs.take n) else .error .panic

/-- The `Result` as a value, as an iterator yields it. -/
def attempt : Except (Stop ε) α → Except (Stop ε) (Except ε α)
  | .ok a => .ok (.ok a)
  | .error (.error e) => .ok (.error e)
  | .error .panic => .error .panic

theorem lift_bind (m : Except ε α) (k : α → Except ε β) :
    lift (m >>= k) = lift m >>= fun a => lift (k a) := by
  cases m <;> rfl

theorem lift_ok (a : α) : lift (.ok a : Except ε α) = .ok a := rfl

theorem lift_ite (c : Prop) [Decidable c] (x y : Except ε α) :
    lift (if c then x else y) = if c then lift x else lift y := by
  split <;> rfl

theorem sub_ok {a b : ℕ} (h : b ≤ a) : (sub a b : Except (Stop ε) ℕ) = .ok (a - b) := if_pos h

theorem index_ok {xs : List α} {i : ℕ} (h : i = xs.length) (a : α) (ys : List α) :
    (index (xs ++ a :: ys) i : Except (Stop ε) α) = .ok a := by
  simp [index, unwrapSome, h]

theorem store_ok {xs : List α} {i : ℕ} (h : i = xs.length) (a b : α) (ys : List α) :
    (store (xs ++ a :: ys) i b : Except (Stop ε) (List α)) = .ok (xs ++ b :: ys) := by
  simp [store, h]

theorem copyAt_ok {xs old new : List α} {i : ℕ} (h : i = xs.length)
    (hlen : old.length = new.length) (ys : List α) :
    (copyAt (xs ++ (old ++ ys)) i new : Except (Stop ε) (List α)) = .ok (xs ++ (new ++ ys)) := by
  rw [copyAt, if_pos (by simp [h, hlen])]
  simp [h, ← hlen, List.drop_append]

theorem upTo_ok (xs ys : List α) :
    (upTo (xs ++ ys) xs.length : Except (Stop ε) (List α)) = .ok xs := by
  simp [upTo]

end Stop

open Stop

variable {ε α β : Type}

def NoPanic (x : Except (Stop ε) α) : Prop := x ≠ .error .panic

theorem noPanic_ok (a : α) : NoPanic (.ok a : Except (Stop ε) α) := fun h => nomatch h

theorem noPanic_error (e : ε) : NoPanic (.error (.error e) : Except (Stop ε) α) :=
  fun h => nomatch h

theorem noPanic_lift (x : Except ε α) : NoPanic (lift x) := by
  cases x with
  | ok a => exact noPanic_ok a
  | error e => exact noPanic_error e

/-- **Sequencing.** Only what follows a result matters. -/
theorem NoPanic.bind {x : Except (Stop ε) α} {f : α → Except (Stop ε) β} (hx : NoPanic x)
    (hf : ∀ a, x = .ok a → NoPanic (f a)) : NoPanic (x >>= f) := by
  cases x with
  | ok a => exact hf a rfl
  | error stop =>
    cases stop with
    | error e => exact noPanic_error e
    | panic => exact absurd rfl hx

theorem noPanic_unwrap {x : Except ε α} {a : α} (h : x = .ok a) : NoPanic (unwrap x) := by
  rw [h]
  exact noPanic_ok a

theorem noPanic_unwrap_iff {x : Except ε α} : NoPanic (unwrap x) ↔ ∃ a, x = .ok a := by
  constructor
  · intro h
    cases x with
    | ok a => exact ⟨a, rfl⟩
    | error e => exact absurd rfl h
  · rintro ⟨a, h⟩
    exact noPanic_unwrap h

theorem NoPanic.attempt {x : Except (Stop ε) α} (h : NoPanic x) : NoPanic (Stop.attempt x) := by
  cases x with
  | ok a => exact noPanic_ok _
  | error stop =>
    cases stop with
    | error e => exact noPanic_ok _
    | panic => exact absurd rfl h

theorem NoPanic.of_bind {x : Except (Stop ε) α} {f : α → Except (Stop ε) β}
    (h : NoPanic (x >>= f)) : NoPanic x := by
  rintro rfl
  exact h rfl

/-! ## Postconditions -/

/-- The computation does not panic, and its result, if it has one, is as asked. -/
def Ensures (x : Except (Stop ε) α) (Q : α → Prop) : Prop := NoPanic x ∧ ∀ a, x = .ok a → Q a

section Ensures

variable {Q R : α → Prop} {x : Except (Stop ε) α} {a : α}

theorem ensures_ok (h : Q a) : Ensures (.ok a : Except (Stop ε) α) Q := by
  refine ⟨noPanic_ok a, ?_⟩
  rintro _ ⟨⟩
  exact h

theorem ensures_error (e : ε) : Ensures (.error (.error e)) Q :=
  ⟨noPanic_error e, fun _ h => nomatch h⟩

theorem NoPanic.ensures (h : NoPanic x) : Ensures x (fun a => x = .ok a) := ⟨h, fun _ ha => ha⟩

theorem Ensures.mono (h : Ensures x Q) (hQ : ∀ a, Q a → R a) : Ensures x R :=
  ⟨h.1, fun a ha => hQ a (h.2 a ha)⟩

/-- **Sequencing** with postconditions. -/
theorem Ensures.bind {S : β → Prop} {f : α → Except (Stop ε) β} (h : Ensures x Q)
    (hf : ∀ a, Q a → Ensures (f a) S) : Ensures (x >>= f) S := by
  refine ⟨h.1.bind fun a ha => (hf a (h.2 a ha)).1, fun b hb => ?_⟩
  cases x with
  | ok a => exact (hf a (h.2 a rfl)).2 b hb
  | error stop => cases hb

end Ensures

/-! ## Exact conditions -/

/-- The computation has a result, which is then as asked, exactly under the condition; it
panics otherwise. -/
def ReturnsIff (x : Except (Stop ε) α) (P : Prop) (Q : α → Prop) : Prop :=
  (P ∧ ∃ a, x = .ok a ∧ Q a) ∨ (¬P ∧ x = .error .panic)

section ReturnsIff

variable {P P' : Prop} {Q R : α → Prop} {x : Except (Stop ε) α} {a : α}

theorem returnsIff_ok (hP : P) (hQ : Q a) : ReturnsIff (.ok a : Except (Stop ε) α) P Q :=
  .inl ⟨hP, a, rfl, hQ⟩

theorem ReturnsIff.noPanic_iff (h : ReturnsIff x P Q) : NoPanic x ↔ P := by
  obtain ⟨hP, a, rfl, _⟩ | ⟨hP, rfl⟩ := h
  · exact iff_of_true (noPanic_ok a) hP
  · exact iff_of_false (fun hno => hno rfl) hP

theorem ReturnsIff.post (h : ReturnsIff x P Q) (hx : x = .ok a) : Q a := by
  obtain ⟨_, b, hb, hQ⟩ | ⟨_, hpanic⟩ := h
  · obtain rfl := Except.ok.inj (hx.symm.trans hb)
    exact hQ
  · rw [hx] at hpanic
    cases hpanic

theorem ReturnsIff.congr (h : ReturnsIff x P Q) (hP : P ↔ P') (hQ : ∀ a, Q a → R a) :
    ReturnsIff x P' R := by
  obtain ⟨h1, a, ha, h2⟩ | ⟨h1, hpanic⟩ := h
  · exact .inl ⟨hP.mp h1, a, ha, hQ a h2⟩
  · exact .inr ⟨fun h2 => h1 (hP.mpr h2), hpanic⟩

/-- **Sequencing** of exact conditions. -/
theorem ReturnsIff.bind {S : β → Prop} {f : α → Except (Stop ε) β} (h : ReturnsIff x P Q)
    (hf : ∀ a, Q a → ReturnsIff (f a) P' S) : ReturnsIff (x >>= f) (P ∧ P') S := by
  obtain ⟨hP, a, rfl, hQ⟩ | ⟨hP, rfl⟩ := h
  · exact (hf a hQ).congr (and_iff_right hP).symm fun _ hb => hb
  · exact .inr ⟨fun hPP' => hP hPP'.1, rfl⟩

theorem ReturnsIff.map {S : β → Prop} {f : α → β} (h : ReturnsIff x P Q)
    (hf : ∀ a, Q a → S (f a)) : ReturnsIff (x >>= fun a => .ok (f a)) P S := by
  obtain ⟨hP, a, rfl, hQ⟩ | ⟨hP, rfl⟩ := h
  · exact .inl ⟨hP, f a, rfl, hf a hQ⟩
  · exact .inr ⟨hP, rfl⟩

/-- A loop over a list goes through exactly when its body does for each element. -/
theorem ReturnsIff.mapM {f : α → Except (Stop ε) β} {l : List α} {C : α → Prop}
    {S : α → β → Prop} (hf : ∀ a ∈ l, ReturnsIff (f a) (C a) (S a)) :
    ReturnsIff (l.mapM f) (∀ a ∈ l, C a) (List.Forall₂ S l) := by
  induction l with
  | nil => exact returnsIff_ok (fun _ h => nomatch h) List.Forall₂.nil
  | cons a l ih =>
    rw [List.mapM_cons]
    have hrest := ih fun b hb => hf b (List.mem_cons_of_mem _ hb)
    refine ((hf a List.mem_cons_self).bind fun b hb => ?_).congr
      List.forall_mem_cons.symm fun _ h => h
    exact hrest.map fun bs hbs => List.Forall₂.cons hb hbs

/-- A fold whose steps depend on a view of the state, which they change as told, goes
through exactly when each step does in the view that the steps before it lead to. -/
theorem ReturnsIff.foldlM {σ κ ρ : Type} (view : σ → κ) (next : κ → ρ → κ) (C : κ → ρ → Prop)
    {f : σ → ρ → Except (Stop ε) σ}
    (hf : ∀ s r, ReturnsIff (f s r) (C (view s) r) fun s' => view s' = next (view s) r)
    (s : σ) (l : List ρ) :
    ReturnsIff (l.foldlM f s)
      (∀ (before : List ρ) r after, l = before ++ r :: after → C (before.foldl next (view s)) r)
      fun s' => view s' = l.foldl next (view s) := by
  induction l generalizing s with
  | nil => exact returnsIff_ok (by simp) rfl
  | cons r l ih =>
    rw [List.foldlM_cons]
    have hstep := (hf s r).bind fun s' hs' => (hs' ▸ ih s')
    refine hstep.congr ?_ fun s' hs' => hs'
    constructor
    · rintro ⟨hr, hl⟩ before r' after heq
      cases before with
      | nil =>
        obtain ⟨rfl, rfl⟩ := List.cons.inj heq
        exact hr
      | cons b before =>
        obtain ⟨rfl, rfl⟩ := List.cons.inj heq
        exact hl before r' after rfl
    · intro hall
      refine ⟨hall [] r l rfl, fun before r' after heq => ?_⟩
      exact hall (r :: before) r' after (by rw [heq]; rfl)

end ReturnsIff

/-! ## Where a panic comes from -/

theorem bind_eq_panic {x : Except (Stop ε) α} {f : α → Except (Stop ε) β} :
    (x >>= f) = .error .panic ↔ x = .error .panic ∨ ∃ a, x = .ok a ∧ f a = .error .panic := by
  cases x with
  | ok a =>
    constructor
    · intro h
      exact .inr ⟨a, rfl, h⟩
    · rintro (h | ⟨b, hb, hf⟩)
      · cases h
      · obtain rfl := Except.ok.inj hb
        exact hf
  | error stop =>
    constructor
    · intro h
      obtain rfl := Except.error.inj h
      exact .inl rfl
    · rintro (h | ⟨b, hb, _⟩)
      · obtain rfl := Except.error.inj h
        rfl
      · cases hb

theorem lift_ne_panic (x : Except ε α) : lift x ≠ .error .panic := noPanic_lift x

theorem lift_eq_ok {x : Except ε α} {a : α} : lift x = .ok a ↔ x = .ok a := by
  cases x with
  | ok b =>
    rw [lift_ok, Except.ok.injEq, Except.ok.injEq]
  | error e => exact ⟨fun h => (nomatch h), fun h => (nomatch h)⟩

theorem lift_bind_eq_panic {x : Except ε α} {f : α → Except (Stop ε) β} :
    (lift x >>= f) = .error .panic ↔ ∃ a, x = .ok a ∧ f a = .error .panic := by
  rw [bind_eq_panic]
  simp only [lift_eq_ok]
  exact or_iff_right (lift_ne_panic x)

/-! ## Two computations with the same outcome -/

/-- Neither panics, and they give the same result or an error both. -/
def Agree (x y : Except (Stop ε) α) : Prop :=
  (∃ a, x = .ok a ∧ y = .ok a) ∨ ∃ e e', x = .error (.error e) ∧ y = .error (.error e')

def Follows (x y : Except (Stop ε) α) : Prop := NoPanic x → Agree x y

section Agree

variable {x y : Except (Stop ε) α}

theorem Agree.noPanic (h : Agree x y) : NoPanic x ∧ NoPanic y := by
  obtain ⟨a, rfl, rfl⟩ | ⟨e, e', rfl, rfl⟩ := h
  · exact ⟨noPanic_ok a, noPanic_ok a⟩
  · exact ⟨noPanic_error e, noPanic_error e'⟩

theorem Agree.eq_ok_iff (h : Agree x y) (a : α) : x = .ok a ↔ y = .ok a := by
  obtain ⟨b, rfl, rfl⟩ | ⟨e, e', rfl, rfl⟩ := h
  · exact Iff.rfl
  · exact ⟨fun h => (nomatch h), fun h => (nomatch h)⟩

theorem Follows.refl (x : Except (Stop ε) α) : Follows x x := by
  intro hx
  cases x with
  | ok a => exact .inl ⟨a, rfl, rfl⟩
  | error stop =>
    cases stop with
    | error e => exact .inr ⟨e, e, rfl, rfl⟩
    | panic => exact absurd rfl hx

theorem follows_error (x : Except (Stop ε) α) (hx : ∀ a, x ≠ .ok a) (e : ε) :
    Follows x (.error (.error e)) := by
  intro hno
  cases x with
  | ok a => exact absurd rfl (hx a)
  | error stop =>
    cases stop with
    | error e' => exact .inr ⟨e', e, rfl, rfl⟩
    | panic => exact absurd rfl hno

/-- **Sequencing.** -/
theorem Follows.bind {f g : α → Except (Stop ε) β} (h : Follows x y)
    (hfg : ∀ a, Follows (f a) (g a)) : Follows (x >>= f) (y >>= g) := by
  intro hno
  obtain ⟨a, rfl, rfl⟩ | ⟨e, e', rfl, rfl⟩ := h hno.of_bind
  · exact hfg a hno
  · exact .inr ⟨e, e', rfl, rfl⟩

end Agree

end RsMatter
