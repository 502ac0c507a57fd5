import Mathlib.Logic.Basic

/-!
# Programs that keep their changes when they fail

A function that works on a `&mut` state and returns a `Result` may fail half-way:
the early return leaves the state as it is at that moment. `Prog` is that: unlike
with an exception monad over a state, a failed program still has a final state.
The rules for reasoning about one are those of pre- and postconditions, with a
postcondition on the state *and* the result (`Prog.After`).
-/

namespace RsMatter

/-- A program on states `σ` that returns an `α` or fails with an `ε`. -/
def Prog (ε σ α : Type) : Type := σ → σ × Except ε α

namespace Prog

variable {ε σ τ α β : Type}

def run (m : Prog ε σ α) (s : σ) : σ × Except ε α := m s

instance : Monad (Prog ε σ) where
  pure a := fun s => (s, .ok a)
  bind m k := fun s =>
    match m s with
    | (t, .ok a) => k a t
    | (t, .error e) => (t, .error e)

def get : Prog ε σ σ := fun s => (s, .ok s)

def modify (f : σ → σ) : Prog ε σ Unit := fun s => (f s, .ok ())

def throw (e : ε) : Prog ε σ α := fun s => (s, .error e)

def ensure (c : Prop) [Decidable c] (e : ε) : Prog ε σ Unit := if c then pure () else throw e

def onlyIf (c : Prop) [Decidable c] (m : Prog ε σ Unit) : Prog ε σ Unit := if c then m else pure ()

/-- Run a program where there is a value for it. -/
def whenSome (o : Option β) (k : β → Prog ε σ Unit) : Prog ε σ Unit :=
  match o with
  | some b => k b
  | none => pure ()

/-- A computation that does not look at the state. -/
def ofExcept (r : Except ε α) : Prog ε σ α := fun s => (s, r)

def mapError (f : ε → ε) (m : Prog ε σ α) : Prog ε σ α := fun s =>
  match m s with
  | (t, .ok a) => (t, .ok a)
  | (t, .error e) => (t, .error (f e))

def mapResult (f : Except ε α → Except ε β) (m : Prog ε σ α) : Prog ε σ β := fun s =>
  match m s with
  | (t, r) => (t, f r)

def catching (m : Prog ε σ α) (handler : ε → Prog ε σ α) : Prog ε σ α := fun s =>
  match m s with
  | (t, .ok a) => (t, .ok a)
  | (t, .error e) => handler e t

def zoom (part : σ → τ) (put : σ → τ → σ) (m : Prog ε τ α) : Prog ε σ α := fun s =>
  match m (part s) with
  | (t, r) => (put s t, r)

/-! ## Running -/

@[simp] theorem run_pure (a : α) (s : σ) : (pure a : Prog ε σ α).run s = (s, .ok a) := rfl

theorem run_bind (m : Prog ε σ α) (k : α → Prog ε σ β) (s : σ) :
    (m >>= k).run s =
      match m.run s with
      | (t, .ok a) => (k a).run t
      | (t, .error e) => (t, .error e) := rfl

@[simp] theorem run_throw (e : ε) (s : σ) : (throw e : Prog ε σ α).run s = (s, .error e) := rfl

@[simp] theorem run_modify (f : σ → σ) (s : σ) : (modify f : Prog ε σ Unit).run s = (f s, .ok ()) := rfl

@[simp] theorem run_get (s : σ) : (get : Prog ε σ σ).run s = (s, .ok s) := rfl

@[simp] theorem run_ofExcept (r : Except ε α) (s : σ) : (ofExcept r : Prog ε σ α).run s = (s, r) := rfl

variable {a : α}

theorem run_bind_of_ok {m : Prog ε σ α} {k : α → Prog ε σ β} {s t : σ}
    (h : m.run s = (t, .ok a)) : (m >>= k).run s = (k a).run t := by
  rw [run_bind, h]

theorem run_bind_of_error {m : Prog ε σ α} {k : α → Prog ε σ β} {s t : σ} {e : ε}
    (h : m.run s = (t, .error e)) : (m >>= k).run s = (t, .error e) := by
  rw [run_bind, h]

theorem run_bind_eq_ok {m : Prog ε σ α} {k : α → Prog ε σ β} {s t : σ} {b : β} :
    (m >>= k).run s = (t, .ok b) ↔ ∃ u a, m.run s = (u, .ok a) ∧ (k a).run u = (t, .ok b) := by
  constructor
  · intro h
    rcases hm : m.run s with ⟨u, _ | a⟩
    · rw [run_bind_of_error hm] at h
      cases h
    · rw [run_bind_of_ok hm] at h
      exact ⟨u, a, rfl, h⟩
  · rintro ⟨u, a, hm, hk⟩
    rw [run_bind_of_ok hm, hk]

theorem run_ensure_eq_ok {c : Prop} [Decidable c] {e : ε} {s t : σ} {u : Unit} :
    (ensure c e).run s = (t, .ok u) ↔ c ∧ t = s := by
  by_cases h : c
  · rw [ensure, if_pos h, run_pure]
    exact ⟨fun heq => ⟨h, (Prod.mk.inj heq).1.symm⟩, fun heq => by rw [heq.2]⟩
  · rw [ensure, if_neg h, run_throw]
    exact ⟨nofun, fun heq => absurd heq.1 h⟩

variable {r : Except ε α}

theorem run_ofExcept_eq_ok {s t : σ} :
    (ofExcept r : Prog ε σ α).run s = (t, .ok a) ↔ r = .ok a ∧ t = s := by
  rw [run_ofExcept, Prod.mk.injEq]
  exact ⟨fun h => ⟨h.2, h.1.symm⟩, fun h => ⟨h.2.symm, h.1⟩⟩

theorem run_modify_eq_ok {f : σ → σ} {s t : σ} {u : Unit} :
    (modify f : Prog ε σ Unit).run s = (t, .ok u) ↔ t = f s := by
  rw [run_modify, Prod.mk.injEq]
  exact ⟨fun h => h.1.symm, fun h => ⟨h.symm, rfl⟩⟩

theorem run_get_eq_ok {s t a : σ} : (get : Prog ε σ σ).run s = (t, .ok a) ↔ t = s ∧ a = s := by
  rw [run_get, Prod.mk.injEq, Except.ok.injEq]
  exact ⟨fun h => ⟨h.1.symm, h.2.symm⟩, fun h => ⟨h.1.symm, h.2.symm⟩⟩

theorem run_zoom {part : σ → τ} (put : σ → τ → σ) {n : Prog ε τ α} (s : σ) {t : τ}
    (h : n.run (part s) = (t, r)) : (zoom part put n).run s = (put s t, r) := by
  rw [run] at h
  rw [run, zoom, h]

theorem run_mapError_of_ok {m : Prog ε σ α} {s t : σ} (f : ε → ε) (h : m.run s = (t, .ok a)) :
    (mapError f m).run s = (t, .ok a) := by
  rw [run] at h
  rw [run, mapError, h]

theorem run_mapError_of_error {m : Prog ε σ α} {s t : σ} {e : ε} (f : ε → ε)
    (h : m.run s = (t, .error e)) : (mapError f m).run s = (t, .error (f e)) := by
  rw [run] at h
  rw [run, mapError, h]

theorem run_mapError_eq_ok {m : Prog ε σ α} {s t : σ} {f : ε → ε} :
    (mapError f m).run s = (t, .ok a) ↔ m.run s = (t, .ok a) := by
  rcases hm : m.run s with ⟨u, _ | b⟩
  · rw [run_mapError_of_error f hm]
    exact ⟨nofun, nofun⟩
  · rw [run_mapError_of_ok f hm]

theorem run_zoom_eq_ok {part : σ → τ} {put : σ → τ → σ} {n : Prog ε τ α} {s t : σ} :
    (zoom part put n).run s = (t, .ok a) ↔ ∃ u, n.run (part s) = (u, .ok a) ∧ t = put s u := by
  rcases hn : n.run (part s) with ⟨u, r⟩
  rw [run_zoom put s hn, Prod.mk.injEq]
  constructor
  · rintro ⟨rfl, rfl⟩
    exact ⟨u, rfl, rfl⟩
  · rintro ⟨u', hu, rfl⟩
    obtain ⟨rfl, rfl⟩ := Prod.mk.inj hu
    exact ⟨rfl, rfl⟩

theorem fst_run_mapError (f : ε → ε) (m : Prog ε σ α) (s : σ) :
    ((mapError f m).run s).1 = (m.run s).1 := by
  rw [run, mapError]
  rcases hr : m s with ⟨t, _ | a⟩ <;> simp [run, hr]

variable {handler : ε → Prog ε σ α}

theorem run_catching_of_ok {m : Prog ε σ α} {s t : σ}
    (h : m.run s = (t, .ok a)) : (catching m handler).run s = (t, .ok a) := by
  rw [run] at h
  rw [run, catching, h]

theorem run_catching_of_error {m : Prog ε σ α} {s t : σ} {e : ε}
    (h : m.run s = (t, .error e)) : (catching m handler).run s = (handler e).run t := by
  rw [run] at h
  rw [run, catching, h]
  rfl

theorem run_mapResult (f : Except ε α → Except ε β) (m : Prog ε σ α) (s : σ) :
    (mapResult f m).run s = ((m.run s).1, f (m.run s).2) := rfl

theorem run_ensure_of_pos {c : Prop} [Decidable c] (h : c) (e : ε) (s : σ) :
    (ensure c e).run s = (s, .ok ()) := by
  rw [ensure, if_pos h, run_pure]

theorem run_ensure_of_neg {c : Prop} [Decidable c] (h : ¬ c) (e : ε) (s : σ) :
    (ensure c e).run s = (s, .error e) := by
  rw [ensure, if_neg h, run_throw]

theorem fst_run_bind {m : Prog ε σ α} {k : α → Prog ε σ β} (hk : ∀ a t, ((k a).run t).1 = t) (s : σ) :
    ((m >>= k).run s).1 = (m.run s).1 := by
  rw [run_bind]
  rcases m.run s with ⟨t, _ | a⟩
  · rfl
  · exact hk a t

theorem except_bind_eq_ok {m : Except ε α} {k : α → Except ε β} {b : β} :
    (m >>= k) = .ok b ↔ ∃ a, m = .ok a ∧ k a = .ok b := by
  cases m with
  | error e =>
    constructor
    · intro h
      cases h
    · rintro ⟨_, h, -⟩
      cases h
  | ok a =>
    constructor
    · intro h
      exact ⟨a, rfl, h⟩
    · rintro ⟨_, h, hk⟩
      cases h
      exact hk

/-! ## Postconditions -/

/-- What holds of the state and the result when `m` has run from `s`. -/
def After (m : Prog ε σ α) (s : σ) (Q : σ → Except ε α → Prop) : Prop :=
  Q (m.run s).1 (m.run s).2

variable {m : Prog ε σ α} {k : α → Prog ε σ β} {s : σ} {Q : σ → Except ε α → Prop}

theorem After.of_run_eq {n : Prog ε σ α} {t : σ} (h : m.run s = n.run t) (hn : After n t Q) : After m s Q := by
  rw [After, h]
  exact hn

/-- **Sequencing.** The middle condition is handed to the rest after a success and must
give the final one after a failure. -/
theorem after_bind {Q' : σ → Except ε β → Prop} (hm : After m s Q)
    (hok : ∀ t a, Q t (.ok a) → After (k a) t Q') (herr : ∀ t e, Q t (.error e) → Q' t (.error e)) :
    After (m >>= k) s Q' := by
  rw [After] at hm
  rw [After, run_bind]
  rcases hr : m.run s with ⟨t, r⟩
  rw [hr] at hm
  cases r with
  | ok a => exact hok t a hm
  | error e => exact herr t e hm

/-! ## Parts of the state that a program keeps -/

/-- Whatever `m` does, `f` of the state stays. -/
def Keeps {γ : Type} (f : σ → γ) (m : Prog ε σ α) : Prop := ∀ s, f (m.run s).1 = f s

variable {γ : Type} {f : σ → γ}

theorem kept_of_run {t : σ} (h : m.run s = (t, r)) (hm : Keeps f m) : f t = f s := by
  rw [← hm s, h]

theorem keeps_pure (a : α) : Keeps f (pure a : Prog ε σ α) := fun _ => rfl

theorem keeps_throw (e : ε) : Keeps f (throw e : Prog ε σ α) := fun _ => rfl

theorem keeps_ofExcept (r : Except ε α) : Keeps f (ofExcept r : Prog ε σ α) := fun _ => rfl

theorem keeps_get : Keeps f (get : Prog ε σ σ) := fun _ => rfl

theorem keeps_modify {g : σ → σ} (h : ∀ s, f (g s) = f s) : Keeps f (modify g : Prog ε σ Unit) := h

theorem keeps_ensure (c : Prop) [Decidable c] (e : ε) : Keeps f (ensure c e : Prog ε σ Unit) := by
  intro s
  by_cases h : c <;> simp [ensure, h]

theorem keeps_onlyIf (c : Prop) [Decidable c] {m : Prog ε σ Unit} (hm : Keeps f m) :
    Keeps f (onlyIf c m) := by
  by_cases h : c
  · rw [onlyIf, if_pos h]
    exact hm
  · rw [onlyIf, if_neg h]
    exact keeps_pure _

theorem keeps_whenSome (o : Option β) {k : β → Prog ε σ Unit} (hk : ∀ b, Keeps f (k b)) :
    Keeps f (whenSome o k) := by
  cases o with
  | none => exact keeps_pure _
  | some b => exact hk b

theorem keeps_catching (hm : Keeps f m) (hh : ∀ e, Keeps f (handler e)) :
    Keeps f (catching m handler) := by
  intro s
  have h := hm s
  rw [run] at h
  rw [run, catching]
  rcases hr : m s with ⟨t, _ | a⟩
  · rw [hr] at h
    exact (hh _ t).trans h
  · rw [hr] at h
    exact h

theorem keeps_mapError (g : ε → ε) (hm : Keeps f m) : Keeps f (mapError g m) := by
  intro s
  rw [fst_run_mapError]
  exact hm s

theorem keeps_rest (hk : ∀ a, Keeps f (k a)) (s : σ) : f ((m >>= k).run s).1 = f (m.run s).1 := by
  rw [run_bind]
  rcases m.run s with ⟨t, _ | a⟩
  · rfl
  · exact hk a t

theorem keeps_bind (hm : Keeps f m) (hk : ∀ a, Keeps f (k a)) : Keeps f (m >>= k) := by
  intro s
  have h : After m s fun t _ => f t = f s := hm s
  show After (m >>= k) s fun t _ => f t = f s
  refine after_bind h (fun t a ht => ?_) fun _ _ ht => ht
  exact (hk a t).trans ht

/-! ## Invariants of programs -/

/-- Whatever `m` does, `I` stays true. -/
def Maintains (I : σ → Prop) (m : Prog ε σ α) : Prop := ∀ s, I s → I (m.run s).1

variable {I : σ → Prop}

theorem maintains_of_keeps (hm : Keeps f m) (hI : ∀ s t, f t = f s → I s → I t) : Maintains I m :=
  fun s hs => hI s _ (hm s) hs

theorem maintains_pure (a : α) : Maintains I (pure a : Prog ε σ α) := fun _ h => h

theorem maintains_throw (e : ε) : Maintains I (throw e : Prog ε σ α) := fun _ h => h

theorem maintains_ofExcept (r : Except ε α) : Maintains I (ofExcept r : Prog ε σ α) := fun _ h => h

theorem maintains_modify {g : σ → σ} (h : ∀ s, I s → I (g s)) :
    Maintains I (modify g : Prog ε σ Unit) := h

theorem maintains_ensure (c : Prop) [Decidable c] (e : ε) : Maintains I (ensure c e : Prog ε σ Unit) :=
  maintains_of_keeps (f := id) (keeps_ensure c e) fun s t h hs => by rwa [show t = s from h]

theorem maintains_onlyIf (c : Prop) [Decidable c] {m : Prog ε σ Unit} (hm : Maintains I m) :
    Maintains I (onlyIf c m) := by
  by_cases h : c
  · rw [onlyIf, if_pos h]
    exact hm
  · rw [onlyIf, if_neg h]
    exact maintains_pure _

theorem maintains_whenSome {o : Option β} {k : β → Prog ε σ Unit} (hk : ∀ b ∈ o, Maintains I (k b)) :
    Maintains I (whenSome o k) := by
  cases o with
  | none => exact maintains_pure _
  | some b => exact hk b rfl

theorem maintains_mapError (g : ε → ε) (hm : Maintains I m) : Maintains I (mapError g m) := by
  intro s hs
  rw [fst_run_mapError]
  exact hm s hs

theorem maintains_catching (hm : Maintains I m)
    (hh : ∀ e, Maintains I (handler e)) : Maintains I (catching m handler) := by
  intro s hs
  have h := hm s hs
  rw [run] at h
  rw [run, catching]
  rcases hr : m s with ⟨t, e | a⟩
  · rw [hr] at h
    exact hh e t h
  · rw [hr] at h
    exact h

theorem maintains_bind_of {R : α → Prop} (hm : Maintains I m)
    (hR : ∀ s t a, I s → m.run s = (t, .ok a) → R a) (hk : ∀ a, R a → Maintains I (k a)) :
    Maintains I (m >>= k) := by
  intro s hs
  have h := hm s hs
  rw [run_bind]
  rcases hr : m.run s with ⟨t, e | a⟩
  · rw [hr] at h
    exact h
  · rw [hr] at h
    exact hk a (hR s t a hs hr) t h

theorem maintains_bind (hm : Maintains I m) (hk : ∀ a, Maintains I (k a)) : Maintains I (m >>= k) :=
  maintains_bind_of (R := fun _ => True) hm (fun _ _ _ _ _ => trivial) fun a _ => hk a

theorem maintains_get_bind {k : σ → Prog ε σ β} (hk : ∀ s, I s → Maintains I (k s)) :
    Maintains I (get >>= k) := fun s hs => hk s hs s hs

theorem maintains_ensure_bind {c : Prop} [Decidable c] {e : ε} {k : Unit → Prog ε σ β}
    (hk : c → Maintains I (k ())) : Maintains I (ensure c e >>= k) := by
  by_cases h : c
  · rw [ensure, if_pos h]
    exact hk h
  · rw [ensure, if_neg h]
    exact maintains_throw e

theorem maintains_ofExcept_bind (hk : ∀ a, r = .ok a → Maintains I (k a)) :
    Maintains I (ofExcept r >>= k) := by
  cases r with
  | error e => exact maintains_throw e
  | ok a => exact hk a rfl

/-! ## Programs that fail before they change anything -/

/-- Where `m` fails, the state is as it was. -/
def Atomic (m : Prog ε σ α) : Prop := ∀ s e, (m.run s).2 = .error e → (m.run s).1 = s

theorem atomic_modify (g : σ → σ) : Atomic (modify g : Prog ε σ Unit) := nofun

theorem atomic_bind (hm : Keeps id m) (hk : ∀ a, Atomic (k a)) : Atomic (m >>= k) := by
  intro s e he
  have hkept := hm s
  rw [run_bind] at he ⊢
  rcases hr : m.run s with ⟨t, r⟩
  rw [hr] at he hkept
  obtain rfl : t = s := hkept
  cases r with
  | error e' => rfl
  | ok a => exact hk a t e he

end Prog

end RsMatter
