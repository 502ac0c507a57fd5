import Mathlib.Logic.Basic
import Mathlib.Data.List.Basic

/-!
# Deterministic machines and their runs

A `Machine` is a partial step function on states. Partiality stands for an action
that cannot be taken in a state at all; an action that is *rejected* is an ordinary
step. Runs are executable (`Machine.run`), so a concrete run can be evaluated, and
the one rule every safety proof goes through is `Machine.invariant_of_meets`: a
property kept by every step *whose action meets a side condition* holds at the end
of every run all of whose steps meet it.
-/

namespace RsMatter

/-- A deterministic transition system with states `σ` and actions `α`. -/
structure Machine (σ α : Type*) where
  /-- the effect of an action, `none` where the action is not possible -/
  step : σ → α → Option σ

namespace Machine

variable {σ α : Type*} (M : Machine σ α)

def run (s : σ) : List α → Option σ
  | [] => some s
  | a :: as => (M.step s a).bind fun s' => run s' as

/-- Every step of the run of `as` from `s` meets the side condition `ok`. -/
def Meets (ok : σ → α → Prop) (s : σ) : List α → Prop
  | [] => True
  | a :: as => ok s a ∧ ∀ s', M.step s a = some s' → Meets ok s' as

/-- `s` can be reached from a state in `init`. -/
def Reachable (init : σ → Prop) (s : σ) : Prop :=
  ∃ s₀ as, init s₀ ∧ M.run s₀ as = some s

variable {M} {s s' : σ} {a : α} {as bs : List α}

@[simp] theorem run_nil : M.run s [] = some s := rfl

theorem run_cons : M.run s (a :: as) = (M.step s a).bind fun s' => M.run s' as := rfl

theorem run_cons_eq_some :
    M.run s (a :: as) = some s' ↔ ∃ t, M.step s a = some t ∧ M.run t as = some s' := by
  rw [run_cons, Option.bind_eq_some_iff]

theorem run_append : M.run s (as ++ bs) = (M.run s as).bind fun t => M.run t bs := by
  induction as generalizing s with
  | nil => rfl
  | cons a as ih =>
    rw [List.cons_append, run_cons, run_cons]
    cases M.step s a with
    | none => rfl
    | some t => exact ih

theorem meets_cons {ok : σ → α → Prop} {t : σ} (h : M.step s a = some t) :
    M.Meets ok s (a :: as) ↔ ok s a ∧ M.Meets ok t as := by
  refine and_congr_right fun _ => ⟨fun hm => hm t h, fun hm t' ht' => ?_⟩
  rw [h, Option.some_inj] at ht'
  exact ht' ▸ hm

theorem meets_append {ok : σ → α → Prop} {t : σ} (h : M.run s as = some t) :
    M.Meets ok s (as ++ bs) ↔ M.Meets ok s as ∧ M.Meets ok t bs := by
  induction as generalizing s with
  | nil =>
    rw [run_nil, Option.some_inj] at h
    subst h
    exact ⟨fun hm => ⟨trivial, hm⟩, fun hm => hm.2⟩
  | cons a as ih =>
    obtain ⟨u, hst, h⟩ := run_cons_eq_some.mp h
    rw [List.cons_append, meets_cons hst, meets_cons hst, ih h, and_assoc]

/-- A side condition that can be checked can be checked along a run. -/
instance decidableMeets {ok : σ → α → Prop} [∀ s a, Decidable (ok s a)] :
    (s : σ) → (as : List α) → Decidable (M.Meets ok s as)
  | _, [] => .isTrue trivial
  | s, a :: as =>
    match h : M.step s a with
    | none => decidable_of_iff (ok s a) (by simp [Meets, h])
    | some t =>
      have : Decidable (M.Meets ok t as) := decidableMeets t as
      decidable_of_iff (ok s a ∧ M.Meets ok t as) (meets_cons h).symm

/-- A side condition that the actions of the run meet in every state. -/
theorem meets_of_forall {ok : σ → α → Prop} (h : ∀ a ∈ as, ∀ s, ok s a) : M.Meets ok s as := by
  induction as generalizing s with
  | nil => trivial
  | cons a as ih =>
    exact ⟨h a List.mem_cons_self s, fun _ _ => ih fun b hb => h b (List.mem_cons_of_mem _ hb)⟩

/-- A side condition follows from another one in the states of the run. -/
theorem Meets.imp {ok ok' : σ → α → Prop} {I : σ → Prop}
    (hstep : ∀ s a s', I s → M.step s a = some s' → I s')
    (himp : ∀ s a, I s → ok s a → ok' s a) (hI : I s) (h : M.Meets ok s as) : M.Meets ok' s as := by
  induction as generalizing s with
  | nil => trivial
  | cons a as ih =>
    exact ⟨himp s a hI h.1, fun t hst => ih (hstep s a t hI hst) (h.2 t hst)⟩

/-- **Invariants under a side condition.** -/
theorem invariant_of_meets {ok : σ → α → Prop} {I : σ → Prop}
    (hstep : ∀ s a s', ok s a → I s → M.step s a = some s' → I s')
    (hI : I s) (hok : M.Meets ok s as) (hrun : M.run s as = some s') : I s' := by
  induction as generalizing s with
  | nil =>
    rw [run_nil, Option.some_inj] at hrun
    exact hrun ▸ hI
  | cons a as ih =>
    obtain ⟨t, hst, hrun⟩ := run_cons_eq_some.mp hrun
    exact ih (hstep s a t hok.1 hI hst) (hok.2 t hst) hrun

/-- **Invariants.** A property that holds initially and is kept by every step holds
in every reachable state. -/
theorem invariant_of_reachable {init : σ → Prop} {I : σ → Prop}
    (hinit : ∀ s, init s → I s) (hstep : ∀ s a s', I s → M.step s a = some s' → I s')
    (h : M.Reachable init s) : I s := by
  obtain ⟨s₀, as, h₀, hrun⟩ := h
  have hok : M.Meets (fun _ _ => True) s₀ as := meets_of_forall fun _ _ _ => trivial
  exact invariant_of_meets (fun s a s' _ => hstep s a s') (hinit s₀ h₀) hok hrun

end Machine

end RsMatter
