import Mathlib.Data.Nat.Basic

/-!
# Programs that write to a sink

A function that is handed a consumer as a trait object only calls its methods, one
after the other, and stops at the first that fails. `Emit` is such a function as syntax:
the calls it makes and, at the end, its own outcome. A sink gives the calls a meaning
(`run`), and two sinks are compared call by call (`run_refines`): the second may give up
where it runs out of room, which a bound on the calls excludes.
-/

namespace RsMatter

/-- A program that makes calls `C`, and ends with an `α` or fails with an `ε`. -/
inductive Emit (C ε α : Type) where
  | done (r : Except ε α)
  | call (c : C) (next : Emit C ε α)

namespace Emit

variable {C ε α β γ σ τ : Type}

/-- Continue where a program ends with a value. -/
protected def bind : Emit C ε α → (α → Emit C ε β) → Emit C ε β
  | done (.ok a), k => k a
  | done (.error e), _ => done (.error e)
  | call c next, k => call c (next.bind k)

instance : Monad (Emit C ε) where
  pure a := done (.ok a)
  bind := Emit.bind

def emit (c : C) : Emit C ε Unit := call c (pure ())

def ofExcept (r : Except ε α) : Emit C ε α := done r

theorem call_bind (c : C) (next : Emit C ε α) (k : α → Emit C ε β) :
    call c next >>= k = call c (next >>= k) := rfl

protected theorem bind_assoc (m : Emit C ε α) (f : α → Emit C ε β) (g : β → Emit C ε γ) :
    m >>= f >>= g = m >>= fun a => f a >>= g := by
  induction m with
  | done r => cases r <;> rfl
  | call c next ih => exact congrArg (call c) ih

instance : LawfulMonad (Emit C ε) :=
  LawfulMonad.mk' _
    (fun m => by
      induction m with
      | done r => cases r <;> rfl
      | call c next ih => exact congrArg (call c) ih)
    (fun _ _ => rfl) Emit.bind_assoc

/-! ## Sinks -/

/-- Run a program on a sink: what each call does to the state. -/
def run (f : C → σ → Except ε σ) : Emit C ε α → σ → Except ε (σ × α)
  | done r, s => r.map fun a => (s, a)
  | call c next, s => f c s >>= next.run f

theorem run_bind (f : C → σ → Except ε σ) (m : Emit C ε α) (k : α → Emit C ε β) (s : σ) :
    (m >>= k).run f s = m.run f s >>= fun p => (k p.2).run f p.1 := by
  induction m generalizing s with
  | done r => cases r <;> rfl
  | call c next ih =>
    rw [call_bind, run, run]
    cases f c s with
    | error e => rfl
    | ok t => exact ih t

/-- The room a program needs, if each call needs some. -/
def need (cost : C → ℕ) : Emit C ε α → ℕ
  | done _ => 0
  | call c next => cost c + next.need cost

section Refines

variable {f : C → σ → Except ε σ} {g : C → τ → Except ε τ} {R : τ → σ → Prop}
  {cost : C → ℕ} {used size : τ → ℕ} {full : ε}

/-- What a call did on the second sink, from a state `t`, is what it did on the first one,
or it failed as there is less room than the call needs. -/
def CallRefines (R : τ → σ → Prop) (used size : τ → ℕ) (full : ε) (t : τ) (cost : ℕ)
    (x : Except ε τ) (y : Except ε σ) : Prop :=
  (x = .error full ∧ size t < used t + cost) ∨
  (∃ t' s', x = .ok t' ∧ y = .ok s' ∧ R t' s' ∧ size t' = size t ∧ used t' ≤ used t + cost) ∨
  ∃ e, x = .error e ∧ y = .error e

/-- **Refinement.** So does a program. -/
theorem run_refines
    (h : ∀ c t s, R t s → CallRefines R used size full t (cost c) (g c t) (f c s))
    (m : Emit C ε α) {t : τ} {s : σ} (hR : R t s) :
    (m.run g t = .error full ∧ size t < used t + m.need cost) ∨
    (∃ t' s' a, m.run g t = .ok (t', a) ∧ m.run f s = .ok (s', a) ∧ R t' s') ∨
    ∃ e, m.run g t = .error e ∧ m.run f s = .error e := by
  induction m generalizing t s with
  | done r =>
    cases r with
    | ok a => exact .inr (.inl ⟨t, s, a, rfl, rfl, hR⟩)
    | error e => exact .inr (.inr ⟨e, rfl, rfl⟩)
  | call c next ih =>
    obtain ⟨hg, hroom⟩ | ⟨t', s', hg, hf, hR', hsize, hused⟩ | ⟨e, hg, hf⟩ := h c t s hR
    · refine .inl ⟨?_, ?_⟩
      · rw [run, hg]
        rfl
      · rw [need]
        omega
    · have hnext := ih hR'
      rw [run, run, hg, hf, need]
      obtain ⟨hfull, hroom⟩ | hrest := hnext
      · refine .inl ⟨hfull, ?_⟩
        omega
      · exact .inr hrest
    · refine .inr (.inr ⟨e, ?_, ?_⟩)
      · rw [run, hg]
        rfl
      · rw [run, hf]
        rfl

end Refines

end Emit

end RsMatter
