import RsMatter.Machine

/-!
# Commands that wait

A command runs until it waits for something outside, and goes on with what comes of it. In
between, other commands begin, wait and go on, so what a command has seen before need not hold
after. A `Suspending` program says what a command does up to its first wait and what it does
after each; its runs are those of a machine, whose state has the commands that wait beside
what they share.

The one rule is that of interference freedom: each waiting command has an assertion of its own,
which the command establishes when it begins to wait and every step of the others leaves alone. Where
the steps of one command disturb another, the two must get on with each other from the start.
-/

namespace RsMatter

/-- Commands `γ` on a shared state `σ`, that wait as a `τ` for an `ο`. -/
structure Suspending (σ γ τ ο : Type*) where
  /-- up to the first wait, if the command can be given at all -/
  start : σ → γ → Option (σ × Option τ)
  /-- from one wait to the next, or to the end -/
  resume : σ → τ → ο → Option (σ × Option τ)

theorem forall_mem_none {α : Type*} {p : α → Prop} : ∀ a ∈ (none : Option α), p a :=
  fun _ h => absurd h (Option.not_mem_none _)

namespace Suspending

variable {σ γ τ ο : Type*}

/-- The shared state, and the commands that wait. -/
structure World (σ τ : Type*) where
  state : σ
  waiting : List τ

/-- A command begins, or one that waits goes on. -/
inductive Act (γ ο : Type*) where
  | start (c : γ)
  | resume (i : ℕ) (o : ο)

variable (P : Suspending σ γ τ ο)

def step (w : World σ τ) : Act γ ο → Option (World σ τ)
  | .start c => (P.start w.state c).map fun (s, t) => ⟨s, w.waiting ++ t.toList⟩
  | .resume i o => w.waiting[i]?.bind fun t =>
    (P.resume w.state t o).map fun (s, u) => ⟨s, w.waiting.eraseIdx i ++ u.toList⟩

def machine : Machine (World σ τ) (Act γ ο) := ⟨P.step⟩

variable {P} in
theorem step_start_eq_some {w w' : World σ τ} {c : γ} :
    P.machine.step w (.start c) = some w' ↔
      ∃ s t, P.start w.state c = some (s, t) ∧ w' = ⟨s, w.waiting ++ t.toList⟩ := by
  refine Option.map_eq_some_iff.trans ⟨?_, ?_⟩
  · rintro ⟨⟨s, t⟩, hrun, rfl⟩
    exact ⟨s, t, hrun, rfl⟩
  · rintro ⟨s, t, hrun, rfl⟩
    exact ⟨(s, t), hrun, rfl⟩

variable {P} in
theorem step_resume_eq_some {w w' : World σ τ} {i : ℕ} {o : ο} :
    P.machine.step w (.resume i o) = some w' ↔
      ∃ t s u, w.waiting[i]? = some t ∧ P.resume w.state t o = some (s, u) ∧
        w' = ⟨s, w.waiting.eraseIdx i ++ u.toList⟩ := by
  refine Option.bind_eq_some_iff.trans ⟨?_, ?_⟩
  · rintro ⟨t, ht, hrest⟩
    obtain ⟨⟨s, u⟩, hrun, rfl⟩ := Option.map_eq_some_iff.mp hrest
    exact ⟨t, s, u, ht, hrun, rfl⟩
  · rintro ⟨t, s, u, ht, hrun, rfl⟩
    exact ⟨t, ht, Option.map_eq_some_iff.mpr ⟨(s, u), hrun, rfl⟩⟩

/-- The shared state is as it should be, and so it is for each command that waits. -/
structure Holds (G : σ → Prop) (T : σ → τ → Prop) (w : World σ τ) : Prop where
  state : G w.state
  waiting (t : τ) (h : t ∈ w.waiting) : T w.state t

/-- Besides, any two commands that wait get on with each other. -/
structure HoldsApart (G : σ → Prop) (T : σ → τ → Prop) (R : τ → τ → Prop) (w : World σ τ) : Prop
    extends Holds G T w where
  apart : w.waiting.Pairwise R

variable {P} {G : σ → Prop} {T : σ → τ → Prop} {R : τ → τ → Prop} (ok : World σ τ → Act γ ο → Prop)

theorem apart_of_getElem? (hsymm : ∀ t u, R t u → R u t) {ts : List τ} {t u : τ} {i : ℕ}
    (h : ts.Pairwise R) (ht : ts[i]? = some t) (hu : u ∈ ts.eraseIdx i) : R t u := by
  obtain ⟨j, hne, hj⟩ := List.mem_eraseIdx_iff_getElem?.mp hu
  obtain ⟨hi, rfl⟩ := List.getElem?_eq_some_iff.mp ht
  obtain ⟨hj', rfl⟩ := List.getElem?_eq_some_iff.mp hj
  rcases Nat.lt_or_gt_of_ne hne with hlt | hlt
  · exact hsymm _ _ (List.pairwise_iff_getElem.mp h j i hj' hi hlt)
  · exact List.pairwise_iff_getElem.mp h i j hi hj' hlt

/-- **Interference freedom**, for one step: it keeps what is shared as it should be, the command that
takes it establishes its assertion and gets on with the others, and the assertions of the others
stay. -/
theorem holdsApart_step (hsymm : ∀ t u, R t u → R u t)
    (hstart : ∀ w c s t, ok w (.start c) → HoldsApart G T R w → P.start w.state c = some (s, t) →
      G s ∧ (∀ u ∈ t, T s u ∧ ∀ v ∈ w.waiting, R u v) ∧ ∀ u ∈ w.waiting, T s u)
    (hresume : ∀ w i t o s u, ok w (.resume i o) → HoldsApart G T R w → w.waiting[i]? = some t →
      P.resume w.state t o = some (s, u) → (∀ v ∈ w.waiting.eraseIdx i, R t v) →
      G s ∧ (∀ v ∈ u, T s v ∧ ∀ x ∈ w.waiting.eraseIdx i, R v x) ∧ ∀ v ∈ w.waiting.eraseIdx i, T s v)
    (w : World σ τ) (a : Act γ ο) (w' : World σ τ) (hok : ok w a) (hw : HoldsApart G T R w)
    (hstep : P.machine.step w a = some w') : HoldsApart G T R w' := by
  have hadd {s : σ} {ts : List τ} {t : Option τ} (hs : G s) (hts : ts.Pairwise R)
      (hown : ∀ u ∈ t, T s u ∧ ∀ v ∈ ts, R u v) (hothers : ∀ u ∈ ts, T s u) :
      HoldsApart G T R ⟨s, ts ++ t.toList⟩ := by
    refine ⟨⟨hs, fun u hu => ?_⟩, List.pairwise_append.mpr ⟨hts, ?_, fun u hu v hv => ?_⟩⟩
    · rcases List.mem_append.mp hu with hu | hu
      · exact hothers u hu
      · exact (hown u (Option.mem_toList.mp hu)).1
    · cases t with
      | none => exact List.Pairwise.nil
      | some u => exact List.pairwise_singleton R u
    · exact hsymm _ _ ((hown v (Option.mem_toList.mp hv)).2 u hu)
  cases a with
  | start c =>
    obtain ⟨s, t, hrun, rfl⟩ := step_start_eq_some.mp hstep
    obtain ⟨hG, hown, hothers⟩ := hstart w c s t hok hw hrun
    exact hadd hG hw.apart hown hothers
  | resume i o =>
    obtain ⟨t, s, u, ht, hrun, rfl⟩ := step_resume_eq_some.mp hstep
    obtain ⟨hG, hown, hothers⟩ := hresume w i t o s u hok hw ht hrun fun v hv =>
      apart_of_getElem? hsymm hw.apart ht hv
    exact hadd hG (hw.apart.sublist (List.eraseIdx_sublist w.waiting i)) hown hothers

/-- **Interference freedom** where any two commands get on with each other. -/
theorem holds_step
    (hstart : ∀ w c s t, ok w (.start c) → Holds G T w → P.start w.state c = some (s, t) →
      G s ∧ (∀ u ∈ t, T s u) ∧ ∀ u ∈ w.waiting, T s u)
    (hresume : ∀ w i t o s u, ok w (.resume i o) → Holds G T w → w.waiting[i]? = some t →
      P.resume w.state t o = some (s, u) →
      G s ∧ (∀ v ∈ u, T s v) ∧ ∀ v ∈ w.waiting.eraseIdx i, T s v)
    (w : World σ τ) (a : Act γ ο) (w' : World σ τ) (hok : ok w a) (hw : Holds G T w)
    (hstep : P.machine.step w a = some w') : Holds G T w' := by
  have happart (ts : List τ) : ts.Pairwise fun _ _ => True := List.pairwise_of_forall fun _ _ => trivial
  refine (holdsApart_step ok (fun _ _ _ => trivial) (fun w c s t hok hw hrun => ?_)
    (fun w i t o s u hok hw ht hrun _ => ?_) w a w' hok ⟨hw, happart _⟩ hstep).toHolds
  · obtain ⟨hG, hown, hothers⟩ := hstart w c s t hok hw.toHolds hrun
    exact ⟨hG, fun u hu => ⟨hown u hu, fun _ _ => trivial⟩, hothers⟩
  · obtain ⟨hG, hown, hothers⟩ := hresume w i t o s u hok hw.toHolds ht hrun
    exact ⟨hG, fun v hv => ⟨hown v hv, fun _ _ => trivial⟩, hothers⟩

end Suspending

end RsMatter
