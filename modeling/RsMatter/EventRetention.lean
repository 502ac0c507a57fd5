import RsMatter.EventRings
import Mathlib.Logic.Relation

/-!
# Which events make way

What the queue is for: a tier for each priority, through which an event moves until it comes to
the one of its own priority. Room is made by the oldest event of a tier, which moves on to the next
tier or, in the tier of its own priority, is gone (`Tiers.Evict`). Every push on the buffers is a
sequence of such evictions, and an event appended to the lowest tier (`Events.retained_of_run`).
So the events of one priority are gone in the order in which they came, whatever the other
priorities do.
-/

namespace RsMatter

namespace Events

/-- The events in the three rings, the oldest first. -/
structure Tiers where
  critical : List Event
  info : List Event
  debug : List Event

namespace Tiers

variable {t t' u : Tiers}

def all (t : Tiers) : List Event := t.critical ++ t.info ++ t.debug

/-- An event makes way: the oldest of its ring, which it leaves for the next one if its priority is
higher than that of the ring. -/
inductive Evict : Tiers → Tiers → Prop
  | dropDebug (cs is ds : List Event) (e : Event) : e.priority = .debug →
    Evict ⟨cs, is, e :: ds⟩ ⟨cs, is, ds⟩
  | promoteDebug (cs is ds : List Event) (e : Event) : e.priority ≠ .debug →
    Evict ⟨cs, is, e :: ds⟩ ⟨cs, is ++ [e], ds⟩
  | dropInfo (cs is ds : List Event) (e : Event) : e.priority = .info →
    Evict ⟨cs, e :: is, ds⟩ ⟨cs, is, ds⟩
  | promoteInfo (cs is ds : List Event) (e : Event) : e.priority = .critical →
    Evict ⟨cs, e :: is, ds⟩ ⟨cs ++ [e], is, ds⟩
  | dropCritical (cs is ds : List Event) (e : Event) : e.priority = .critical →
    Evict ⟨e :: cs, is, ds⟩ ⟨cs, is, ds⟩

structure Placed (t : Tiers) : Prop where
  critical : ∀ e ∈ t.critical, e.priority = .critical
  info : ∀ e ∈ t.info, e.priority = .info ∨ e.priority = .critical

theorem Evict.placed (h : Evict t t') (ht : t.Placed) : t'.Placed := by
  obtain ⟨hcritical, hinfo⟩ := ht
  cases h with
  | dropDebug cs is ds e he => exact ⟨hcritical, hinfo⟩
  | promoteDebug cs is ds e he =>
    refine ⟨hcritical, fun x hx => ?_⟩
    rcases List.mem_append.mp hx with hx | hx
    · exact hinfo x hx
    · rw [List.mem_singleton.mp hx]
      cases hprio : e.priority with
      | debug => exact absurd hprio he
      | info => exact .inl rfl
      | critical => exact .inr rfl
  | dropInfo cs is ds e he => exact ⟨hcritical, fun x hx => hinfo x (List.mem_cons_of_mem e hx)⟩
  | promoteInfo cs is ds e he =>
    refine ⟨fun x hx => ?_, fun x hx => hinfo x (List.mem_cons_of_mem e hx)⟩
    rcases List.mem_append.mp hx with hx | hx
    · exact hcritical x hx
    · rw [List.mem_singleton.mp hx]
      exact he
  | dropCritical cs is ds e he => exact ⟨fun x hx => hcritical x (List.mem_cons_of_mem e hx), hinfo⟩

/-- The events of one priority, the oldest first. -/
def ofPriority (t : Tiers) (prio : EventPriority) : List Event :=
  t.all.filter fun e => e.priority = prio

theorem suffix_of_drop {pre post : List Event} {e : Event} (hpre : ∀ x ∈ pre, x.priority ≠ e.priority)
    (prio : EventPriority) :
    ((pre ++ post).filter fun x => x.priority = prio) <:+
      (pre ++ e :: post).filter fun x => x.priority = prio := by
  rw [List.filter_append, List.filter_append, List.filter_cons]
  split_ifs with he
  · -- nothing before it has its priority
    have hnil : (pre.filter fun x => x.priority = prio) = [] := by
      refine List.filter_eq_nil_iff.mpr fun x hx => ?_
      rw [decide_eq_true_eq, ← of_decide_eq_true he]
      exact hpre x hx
    rw [hnil]
    exact List.suffix_cons _ _
  · exact List.suffix_refl _

theorem Evict.suffix (h : Evict t t') (ht : t.Placed) (prio : EventPriority) :
    t'.ofPriority prio <:+ t.ofPriority prio := by
  obtain ⟨hcritical, hinfo⟩ := ht
  cases h with
  | dropDebug cs is ds e he =>
    refine suffix_of_drop (fun x hx heq => ?_) prio
    rw [he] at heq
    rcases List.mem_append.mp hx with hx | hx
    · exact EventPriority.noConfusion (heq.symm.trans (hcritical x hx))
    · rcases hinfo x hx with hx | hx
      · exact EventPriority.noConfusion (heq.symm.trans hx)
      · exact EventPriority.noConfusion (heq.symm.trans hx)
  | promoteDebug cs is ds e he =>
    simp [ofPriority, all]
  | dropInfo cs is ds e he =>
    simp only [ofPriority, all, List.append_assoc]
    refine suffix_of_drop (fun x hx heq => ?_) prio
    rw [he] at heq
    exact EventPriority.noConfusion (heq.symm.trans (hcritical x hx))
  | promoteInfo cs is ds e he =>
    simp [ofPriority, all]
  | dropCritical cs is ds e he =>
    -- the oldest of the ring has nothing before it
    have hpre : ∀ x ∈ ([] : List Event), x.priority ≠ e.priority := nofun
    exact suffix_of_drop hpre prio

theorem placed_of_evicts (h : Relation.ReflTransGen Evict t u) (ht : t.Placed) : u.Placed := by
  induction h with
  | refl => exact ht
  | tail _ hstep ih => exact hstep.placed ih

theorem suffix_of_evicts (h : Relation.ReflTransGen Evict t u) (ht : t.Placed) (prio : EventPriority) :
    u.ofPriority prio <:+ t.ofPriority prio := by
  induction h with
  | refl => exact List.suffix_refl _
  | tail hbefore hstep ih => exact (hstep.suffix (placed_of_evicts hbefore ht) prio).trans ih

def push (t : Tiers) (e : Event) : Tiers := { t with debug := t.debug ++ [e] }

theorem placed_push (h : t.Placed) (e : Event) : (t.push e).Placed := ⟨h.critical, h.info⟩

theorem ofPriority_push (t : Tiers) (e : Event) (prio : EventPriority) :
    (t.push e).ofPriority prio = t.ofPriority prio ++ [e].filter fun e => e.priority = prio := by
  rw [ofPriority, ofPriority, ← List.filter_append]
  refine congrArg (List.filter _) ?_
  simp [all, push]

structure StoredIn {N : ℕ} (t : Tiers) (s : EventsInner N) : Prop where
  critical : s.bufCritical.data = encoded t.critical
  info : s.bufInfo.data = encoded t.info
  debug : s.bufDebug.data = encoded t.debug

theorem closed_evicts (ht : t.Placed) : Closed fun cs is ds => Relation.ReflTransGen Evict t ⟨cs, is, ds⟩ where
  dropDebug {cs is ds e} h hprio := by
    refine h.tail (.dropDebug cs is ds e ?_)
    cases he : e.priority with
    | debug => rfl
    | info => exact absurd (by rw [he]; decide) hprio
    | critical => exact absurd (by rw [he]; decide) hprio
  promoteDebug {cs is ds e} h hprio := by
    refine h.tail (.promoteDebug cs is ds e fun he => ?_)
    rw [he] at hprio
    exact absurd hprio (by decide)
  dropInfo {cs is ds e} h hprio := by
    refine h.tail (.dropInfo cs is ds e ?_)
    refine ((placed_of_evicts h ht).info e List.mem_cons_self).resolve_right fun he => hprio ?_
    rw [he]
    decide
  promoteInfo {cs is ds e} h hprio := by
    refine h.tail (.promoteInfo cs is ds e ?_)
    refine ((placed_of_evicts h ht).info e List.mem_cons_self).resolve_left fun he => ?_
    rw [he] at hprio
    exact absurd hprio (by decide)
  dropCritical {cs is ds e} h :=
    h.tail (.dropCritical cs is ds e ((placed_of_evicts h ht).critical e List.mem_cons_self))

end Tiers

/-! ## Pushes -/

variable {N : ℕ} {s s' : Log N} {t : Tiers}

structure Retains (s : Log N) (t : Tiers) : Prop where
  stored : t.StoredIn s.inner
  /-- no event is in a ring above its priority -/
  placed : t.Placed
  /-- of each priority these are the last events pushed -/
  suffix : ∀ prio, t.ofPriority prio <:+ s.pushed.filter fun e => e.priority = prio

/-- What a push does to the tiers: some events make way, and the event is appended if the push
succeeds. A queue without buffers takes no event. -/
def PushedTo (s s' : Log N) (t t' : Tiers) : Prop :=
  ∃ u, Relation.ReflTransGen Tiers.Evict t u ∧
    (s'.pushed = s.pushed ∧ t' = u ∨
      ∃ e, s'.pushed = s.pushed ++ [e] ∧ t' = if N = 0 then u else u.push e)

theorem retains_start (N : ℕ) (first : BitVec 64) : Retains (Log.start N first) ⟨[], [], []⟩ :=
  ⟨⟨rfl, rfl, rfl⟩, ⟨nofun, nofun⟩, fun _ => List.suffix_refl _⟩

theorem Tiers.StoredIn.all_eq_nil {s : EventsInner 0} (h : t.StoredIn s) : t.all = [] := by
  have hnil : ∀ {es : List Event} {b : EventsBuf 0}, b.data = encoded es → es = [] := by
    intro es b hb
    have hle := b.le
    rw [hb] at hle
    exact List.eq_nil_of_length_eq_zero (Nat.le_zero.mp ((length_le_encoded es).trans hle))
  rw [Tiers.all, hnil h.critical, hnil h.info, hnil h.debug]
  rfl

theorem Retains.pushedTo {t' : Tiers} (h : Retains s t) (hpush : PushedTo s s' t t')
    (hstored : t'.StoredIn s'.inner) : Retains s' t' := by
  obtain ⟨u, hevicts, hcases⟩ := hpush
  have hplaced := Tiers.placed_of_evicts hevicts h.placed
  have hsuffix : ∀ prio, u.ofPriority prio <:+ s.pushed.filter fun e => e.priority = prio :=
    fun prio => (Tiers.suffix_of_evicts hevicts h.placed prio).trans (h.suffix prio)
  rcases hcases with ⟨hpushed, rfl⟩ | ⟨e, hpushed, rfl⟩
  · exact ⟨hstored, hplaced, hpushed ▸ hsuffix⟩
  · refine ⟨hstored, ?_, fun prio => ?_⟩
    · split_ifs
      · exact hplaced
      · exact Tiers.placed_push hplaced e
    · by_cases hN : N = 0
      · subst hN
        rw [Tiers.ofPriority, hstored.all_eq_nil]
        exact List.nil_suffix
      · rw [if_neg hN, Tiers.ofPriority_push, hpushed, List.filter_append]
        obtain ⟨front, hfront⟩ := hsuffix prio
        exact ⟨front, by rw [← List.append_assoc, hfront]⟩

/-- **One push.** -/
theorem Retains.step (h : Retains s t) (p : Push) :
    ∃ s' t', (machine N).step s p = some s' ∧ PushedTo s s' t t' ∧ Retains s' t' := by
  suffices hpush : ∃ s' t', (machine N).step s p = some s' ∧ PushedTo s s' t t' ∧ t'.StoredIn s'.inner by
    obtain ⟨s', t', hstep, hpush, hstored⟩ := hpush
    exact ⟨s', t', hstep, hpush, h.pushedTo hpush hstored⟩
  rcases s.inner.drawEventNumber_cases p.stored with ⟨code, hdraw⟩ | hdraw
  · refine ⟨s, t, ?_, ⟨t, .refl, .inl ⟨rfl, rfl⟩⟩, h.stored⟩
    simp only [machine, hdraw]
  · have hrings : Rings (fun cs is ds => Relation.ReflTransGen Tiers.Evict t ⟨cs, is, ds⟩)
        ⟨{ s.inner with nextEventNumber := EventsInner.numberAfter s.inner.nextEventNumber }, 0⟩ t.debug []
        (EventsInner.numberAfter s.inner.nextEventNumber) := by
      refine ⟨t.critical, t.info, ⟨h.stored.critical, h.stored.info, ?_, rfl, rfl⟩, .refl⟩
      rw [List.append_nil]
      exact h.stored.debug
    obtain ⟨inner, r, cs, is, ds, hpush, hevicts, -, ⟨code, rfl, hholds⟩ | ⟨rfl, hholds⟩⟩ :=
      push_rings (Tiers.closed_evicts h.placed) p s.inner.nextEventNumber hrings
    · refine ⟨⟨inner, s.pushed⟩, ⟨cs, is, ds⟩, ?_, ⟨_, hevicts, .inl ⟨rfl, rfl⟩⟩, ?_⟩
      · simp only [machine, hdraw, hpush]
      · exact ⟨hholds.critical, hholds.info, hholds.debug⟩
    · refine ⟨⟨inner, s.pushed ++ [p.toEvent N s.inner.nextEventNumber]⟩, _, ?_,
        ⟨_, hevicts, .inr ⟨_, rfl, rfl⟩⟩, ?_⟩
      · simp only [machine, hdraw, hpush]
      · split_ifs with hN
        · rw [if_pos hN] at hholds
          exact ⟨hholds.critical, hholds.info, hholds.debug⟩
        · rw [if_neg hN] at hholds
          exact ⟨hholds.critical, hholds.info, hholds.debug⟩

theorem retains_of_run (N : ℕ) (first : BitVec 64) (pushes : List Push) :
    ∃ s t, (machine N).run (Log.start N first) pushes = some s ∧ Retains s t := by
  suffices h : ∀ {s : Log N} {t : Tiers}, Retains s t → ∃ s' t', (machine N).run s pushes = some s' ∧
      Retains s' t' from h (retains_start N first)
  induction pushes with
  | nil => exact fun {s t} h => ⟨s, t, rfl, h⟩
  | cons p pushes ih =>
    intro s t h
    obtain ⟨s', t', hstep, -, h'⟩ := h.step p
    obtain ⟨s'', t'', hrun, h''⟩ := ih h'
    exact ⟨s'', t'', Machine.run_cons_eq_some.mpr ⟨s', hstep, hrun⟩, h''⟩

/-- **Retention by priority.** After any pushes, the rings hold events that are in no ring above
their priority, and of each priority the last ones that were pushed; and a further push makes
events give way only at the front of a ring, where they are dropped if the ring is the one of
their priority and move on otherwise. -/
theorem retained_of_run (N : ℕ) (first : BitVec 64) (pushes : List Push) (p : Push) :
    ∃ s s' t t', (machine N).run (Log.start N first) pushes = some s ∧
      (machine N).step s p = some s' ∧ t.StoredIn s.inner ∧ t'.StoredIn s'.inner ∧
      (∀ e ∈ t.info, e.priority = .info ∨ e.priority = .critical) ∧
      (∀ e ∈ t.critical, e.priority = .critical) ∧
      (∀ prio, (t.all.filter fun e => e.priority = prio) <:+
        s.pushed.filter fun e => e.priority = prio) ∧
      PushedTo s s' t t' := by
  obtain ⟨s, t, hrun, h⟩ := retains_of_run N first pushes
  obtain ⟨s', t', hstep, hpush, h'⟩ := h.step p
  exact ⟨s, s', t, t', hrun, hstep, h.stored, h'.stored, h.placed.info, h.placed.critical, h.suffix, hpush⟩

end Events

end RsMatter
