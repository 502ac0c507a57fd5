import Mathlib.Data.List.Infix
import RsMatter.Basic
import RsMatter.Machine

/-!
# Identifying a device (`dm/clusters/identify.rs`)

A request says for how many seconds the device is to be found. The handler keeps the request, and its
task waits for the time to be over or for another request. A new request only wakes the task, and
the task looks at its timer first: a timer that is over ends whatever request is there.
-/

namespace RsMatter

namespace Identify

/-- `EffectIdentifierEnum`. -/
inductive EffectIdentifier where
  | blink
  | breathe
  | okay
  | channelChange
  | finishEffect
  | stopEffect
  deriving DecidableEq

/-- `EffectVariantEnum`. -/
inductive EffectVariant where
  | default
  deriving DecidableEq

/-- `IdentifyAction`. -/
inductive IdentifyAction where
  | time (value : BitVec 16)
  | effect (identifier : EffectIdentifier) (variant : EffectVariant)
  | cancel
  deriving DecidableEq

/-- `Session`. -/
structure Session where
  endpointId : BitVec 16
  duration : BitVec 16
  start : ℕ
  deriving DecidableEq

inductive Phase where
  /-- nowhere: it looks at the session next -/
  | looking
  | idle
  /-- for the deadline, or for another request -/
  | armed (endpointId : BitVec 16) (deadline : ℕ)
  deriving DecidableEq

structure State where
  session : Option Session
  /-- a request has come that the task has not seen -/
  stateChange : Bool
  phase : Phase
  deriving DecidableEq

inductive Entry where
  | request (now : ℕ) (value : BitVec 16)
  | effect (identifier : EffectIdentifier) (variant : EffectVariant)
  | expired (now : ℕ)
  deriving DecidableEq

def Entry.action : Entry → IdentifyAction
  | request _ value => if value = 0 then .cancel else .time value
  | effect identifier variant => .effect identifier variant
  | expired _ => .cancel

section Handler

variable (tickHz : ℕ)

def Session.deadline (s : Session) : ℕ := s.start + s.duration.toNat * tickHz

/-- `remaining`. -/
def remaining (s : State) (now : ℕ) : BitVec 16 :=
  match s.session with
  | none => 0
  | some session => BitVec.ofNat 16 (session.duration.toNat - (now - session.start) / tickHz)

/-- `set_identify_time_internal`. -/
def setIdentifyTimeInternal (s : State) (endpointId value : BitVec 16) (now : ℕ) : State × Entry :=
  ({ s with session := if value = 0 then none else some ⟨endpointId, value, now⟩, stateChange := true },
    .request now value)

/-- `run`, from one look or wait to the next. The timer comes before the signal. -/
def runStep (s : State) (now : ℕ) : State × Option Entry :=
  match s.phase with
  | .looking =>
    match s.session with
    | none => ({ s with phase := .idle }, none)
    | some session => ({ s with phase := .armed session.endpointId (session.deadline tickHz) }, none)
  | .idle => if s.stateChange then ({ s with stateChange := false, phase := .looking }, none) else (s, none)
  | .armed _ deadline =>
    if deadline ≤ now then ({ s with session := none, phase := .looking }, some (.expired now))
    else if s.stateChange then ({ s with stateChange := false, phase := .looking }, none)
    else (s, none)

end Handler

inductive Event where
  | setIdentifyTime (endpointId value : BitVec 16)
  | handleIdentify (endpointId : BitVec 16) (identifyTime : Except ErrorCode (BitVec 16))
  | handleTriggerEffect (identifier : Except ErrorCode EffectIdentifier) (variant : Except ErrorCode EffectVariant)
  | run
  deriving DecidableEq

/-- The handler, with the clock and what it has done, the last first. -/
structure World where
  state : State
  now : ℕ
  log : List Entry
  deriving DecidableEq

def World.handle (tickHz : ℕ) (w : World) (now : ℕ) : Event → World
  | .setIdentifyTime endpointId value =>
    let (state, entry) := setIdentifyTimeInternal w.state endpointId value now
    ⟨state, now, entry :: w.log⟩
  | .handleIdentify endpointId (.ok value) =>
    let (state, entry) := setIdentifyTimeInternal w.state endpointId value now
    ⟨state, now, entry :: w.log⟩
  | .handleIdentify _ (.error _) => { w with now }
  | .handleTriggerEffect (.ok identifier) (.ok variant) => { w with now, log := .effect identifier variant :: w.log }
  | .handleTriggerEffect _ _ => { w with now }
  | .run =>
    let (state, entry) := runStep tickHz w.state now
    ⟨state, now, entry.toList ++ w.log⟩

/-- The handler over time: the clock does not go back. -/
def machine (tickHz : ℕ) : Machine World (ℕ × Event) :=
  ⟨fun w (now, e) => if w.now ≤ now then some (w.handle tickHz now e) else none⟩

def World.new : World := ⟨⟨none, false, .looking⟩, 0, []⟩

/-! ## What the requests ask for -/

def latest : List Entry → Option (ℕ × BitVec 16)
  | [] => none
  | .request start value :: _ => some (start, value)
  | .effect _ _ :: log | .expired _ :: log => latest log

/-- The request that lasts: the last one, if it asks for some time and has not been found over. -/
def current : List Entry → Option (ℕ × BitVec 16)
  | [] | .expired _ :: _ => none
  | .request start value :: _ => if value = 0 then none else some (start, value)
  | .effect _ _ :: log => current log

/-- How many seconds the last request has left. -/
def secondsLeft (tickHz : ℕ) (log : List Entry) (now : ℕ) : ℕ :=
  match latest log with
  | none => 0
  | some (start, value) => value.toNat - (now - start) / tickHz

theorem latest_of_current {log : List Entry} {start : ℕ} {value : BitVec 16}
    (h : current log = some (start, value)) : latest log = some (start, value) := by
  induction log with
  | nil => cases h
  | cons e log ih =>
    cases e with
    | request start' value' =>
      rw [current] at h
      split at h
      · cases h
      · exact h
    | effect identifier variant => exact ih h
    | expired now => cases h

/-- The task has found the timer over in time: the last request was for some time, the time was over, and
nobody had found so before. -/
def Timely (tickHz : ℕ) : List Entry → Prop
  | [] => True
  | .expired now :: log => (∃ start value, current log = some (start, value) ∧ start + value.toNat * tickHz ≤ now) ∧
      Timely tickHz log
  | .request _ _ :: log | .effect _ _ :: log => Timely tickHz log

theorem Timely.of_suffix {tickHz : ℕ} {log log' : List Entry} (h : Timely tickHz log) (hlog : log' <:+ log) :
    Timely tickHz log' := by
  induction log with
  | nil => exact List.suffix_nil.mp hlog ▸ trivial
  | cons e log ih =>
    rcases List.suffix_cons_iff.mp hlog with rfl | hlog
    · exact h
    · refine ih ?_ hlog
      cases e with
      | request start value => exact h
      | effect identifier variant => exact h
      | expired now => exact h.2

/-! ## What holds of the handler -/

variable {tickHz : ℕ} {w : World} {now : ℕ}

structure Sound (tickHz : ℕ) (w : World) : Prop where
  /-- the session is that of the request that lasts -/
  session : w.state.session.map (fun s => (s.start, s.duration)) = current w.log
  /-- the timer is that of the session, unless another request has come -/
  armed (endpointId : BitVec 16) (deadline : ℕ) (hphase : w.state.phase = .armed endpointId deadline)
    (hseen : w.state.stateChange = false) : ∃ s, w.state.session = some s ∧ s.deadline tickHz = deadline
  timely : Timely tickHz w.log
  ended (start : ℕ) (value : BitVec 16) (hlatest : latest w.log = some (start, value))
    (hcurrent : current w.log = none) : start + value.toNat * tickHz ≤ w.now
  start_le (start : ℕ) (value : BitVec 16) (hlatest : latest w.log = some (start, value)) : start ≤ w.now

/-- The task finds its timer over and has not seen the last request, which is not over. -/
def overtaken (tickHz : ℕ) (s : State) (now : ℕ) : Bool :=
  match s.phase with
  | .armed _ deadline =>
    decide (deadline ≤ now) && s.stateChange && !s.session.any (·.deadline tickHz ≤ now)
  | .looking | .idle => false

def Suits (tickHz : ℕ) (w : World) : ℕ × Event → Prop
  | (now, .run) => overtaken tickHz w.state now = false
  | (_, .setIdentifyTime _ _) | (_, .handleIdentify _ _) | (_, .handleTriggerEffect _ _) => True

instance decidableSuits (w : World) : (a : ℕ × Event) → Decidable (Suits tickHz w a)
  | (now, .run) => inferInstanceAs (Decidable (overtaken tickHz w.state now = false))
  | (_, .setIdentifyTime _ _) | (_, .handleIdentify _ _) | (_, .handleTriggerEffect _ _) => .isTrue trivial

theorem Sound.wait (hs : Sound tickHz w) (hnow : w.now ≤ now) : Sound tickHz { w with now } :=
  ⟨hs.session, hs.armed, hs.timely, fun start value h hc => Nat.le_trans (hs.ended start value h hc) hnow,
    fun start value h => Nat.le_trans (hs.start_le start value h) hnow⟩

theorem Sound.request (hs : Sound tickHz w) (endpointId value : BitVec 16) (now : ℕ) :
    Sound tickHz ⟨(setIdentifyTimeInternal w.state endpointId value now).1, now, .request now value :: w.log⟩ := by
  refine ⟨?_, fun _ _ _ h => Bool.noConfusion h, hs.timely, fun start v hlatest hcurrent => ?_,
    fun start v hlatest => ?_⟩
  · change Option.map _ (if value = 0 then none else some _) = if value = 0 then none else some (now, value)
    split <;> rfl
  · obtain ⟨rfl, rfl⟩ := Prod.mk.inj (Option.some.inj hlatest)
    change (if value = 0 then none else some (now, value)) = none at hcurrent
    split at hcurrent
    · next hzero =>
      subst hzero
      exact Nat.le_of_eq (by simp)
    · cases hcurrent
  · obtain ⟨rfl, rfl⟩ := Prod.mk.inj (Option.some.inj hlatest)
    exact Nat.le_refl _

theorem Sound.effect (hs : Sound tickHz w) (identifier : EffectIdentifier) (variant : EffectVariant) :
    Sound tickHz { w with log := .effect identifier variant :: w.log } :=
  ⟨hs.session, hs.armed, hs.timely, hs.ended, hs.start_le⟩

theorem Sound.expired (hs : Sound tickHz w) (hnow : w.now ≤ now)
    (hover : ∃ s, w.state.session = some s ∧ s.deadline tickHz ≤ now) :
    Sound tickHz ⟨{ w.state with session := none, phase := .looking }, now, .expired now :: w.log⟩ := by
  obtain ⟨s, hsession, hdeadline⟩ := hover
  have hcurrent : current w.log = some (s.start, s.duration) := by
    rw [← hs.session, hsession]
    rfl
  refine ⟨rfl, fun _ _ h => Phase.noConfusion h, ⟨⟨_, _, hcurrent, hdeadline⟩, hs.timely⟩,
    fun start value hlatest _ => ?_, fun start value hlatest => ?_⟩
  · obtain ⟨rfl, rfl⟩ := Prod.mk.inj (Option.some.inj ((latest_of_current hcurrent).symm.trans hlatest))
    exact hdeadline
  · exact Nat.le_trans (hs.start_le start value hlatest) hnow

theorem Sound.run (hs : Sound tickHz w) (hnow : w.now ≤ now) (hok : Suits tickHz w (now, .run)) :
    Sound tickHz (w.handle tickHz now .run) := by
  have hkeep (state : State) (hsession : state.session = w.state.session)
      (harmed : ∀ endpointId deadline, state.phase = .armed endpointId deadline → state.stateChange = false →
        ∃ s, state.session = some s ∧ s.deadline tickHz = deadline) : Sound tickHz ⟨state, now, w.log⟩ := by
    refine ⟨?_, harmed, hs.timely, (hs.wait hnow).ended, (hs.wait hnow).start_le⟩
    rw [hsession]
    exact hs.session
  rw [World.handle, runStep]
  cases hphase : w.state.phase with
  | looking =>
    cases hsession : w.state.session with
    | none => exact hkeep _ hsession.symm fun _ _ h => Phase.noConfusion h
    | some s =>
      refine hkeep _ hsession.symm fun endpointId deadline h _ => ⟨s, rfl, ?_⟩
      exact (Phase.armed.inj h).2
  | idle =>
    simp only
    split
    · exact hkeep _ rfl fun _ _ h => Phase.noConfusion h
    · exact hkeep _ rfl fun _ _ h => Phase.noConfusion (hphase.symm.trans h)
  | armed endpointId deadline =>
    simp only
    split
    · next hdeadline =>
      refine hs.expired hnow ?_
      cases hseen : w.state.stateChange with
      | true =>
        rw [Suits, overtaken, hphase] at hok
        cases hsession : w.state.session with
        | none => simp [hdeadline, hseen, hsession] at hok
        | some s => exact ⟨s, rfl, by simpa [hdeadline, hseen, hsession] using hok⟩
      | false =>
        obtain ⟨s, hsession, rfl⟩ := hs.armed endpointId deadline hphase hseen
        exact ⟨s, hsession, hdeadline⟩
    · split
      · exact hkeep _ rfl fun _ _ h => Phase.noConfusion h
      · exact hkeep _ rfl fun endpointId' deadline' h hseen => hs.armed endpointId' deadline' h hseen

theorem sound_of_step (w : World) (a : ℕ × Event) (w' : World) (hok : Suits tickHz w a) (hs : Sound tickHz w)
    (hstep : (machine tickHz).step w a = some w') : Sound tickHz w' := by
  obtain ⟨now, e⟩ := a
  obtain ⟨hnow, hw'⟩ := Option.ite_none_right_eq_some.mp hstep
  obtain rfl := Option.some.inj hw'
  rcases e with ⟨endpointId, value⟩ | ⟨endpointId, _ | value⟩ | ⟨_ | identifier, _ | variant⟩ | _
  · exact hs.request endpointId value now
  · exact hs.wait hnow
  · exact hs.request endpointId value now
  · exact hs.wait hnow
  · exact hs.wait hnow
  · exact hs.wait hnow
  · exact (hs.wait hnow).effect identifier variant
  · exact hs.run hnow hok

theorem sound_new : Sound tickHz World.new :=
  ⟨rfl, fun _ _ h => Phase.noConfusion h, trivial, fun _ _ h => (nomatch h), fun _ _ h => (nomatch h)⟩

/-! ## Whole runs -/

theorem Sound.remaining_eq (hs : Sound tickHz w) (htick : 0 < tickHz) (hnow : w.now ≤ now) :
    (remaining tickHz w.state now).toNat = secondsLeft tickHz w.log now := by
  have hsession := hs.session
  cases hcurrent : current w.log with
  | some r =>
    obtain ⟨start, value⟩ := r
    rw [hcurrent] at hsession
    obtain ⟨s, hs', heq⟩ := Option.map_eq_some_iff.mp hsession
    obtain ⟨rfl, rfl⟩ := Prod.mk.inj heq
    rw [remaining, hs', secondsLeft, latest_of_current hcurrent]
    exact Nat.mod_eq_of_lt (Nat.lt_of_le_of_lt (Nat.sub_le _ _) s.duration.isLt)
  | none =>
    rw [hcurrent] at hsession
    rw [remaining, Option.map_eq_none_iff.mp hsession, secondsLeft]
    cases hlatest : latest w.log with
    | none => rfl
    | some r =>
      -- the last request was over before now
      have hover := Nat.le_trans (hs.ended r.1 r.2 hlatest hcurrent) hnow
      have hle : r.2.toNat ≤ (now - r.1) / tickHz := (Nat.le_div_iff_mul_le htick).mpr (by omega)
      exact (Nat.sub_eq_zero_of_le hle).symm

structure Correct (tickHz : ℕ) (w : World) : Prop where
  /-- the attribute counts down from the last request -/
  remaining (now : ℕ) (hnow : w.now ≤ now) :
    (remaining tickHz w.state now).toNat = secondsLeft tickHz w.log now
  /-- the application is told to cancel for a request of no time, or once for the last request when its time
  is over -/
  cancel (e : Entry) (log : List Entry) (hlog : e :: log <:+ w.log) (he : e.action = .cancel) :
    (∃ now, e = .request now 0) ∨ ∃ now start value, e = .expired now ∧ value ≠ 0 ∧
      current log = some (start, value) ∧ start + value.toNat * tickHz ≤ now

theorem value_ne_zero_of_current {log : List Entry} {start : ℕ} {value : BitVec 16}
    (h : current log = some (start, value)) : value ≠ 0 := by
  induction log with
  | nil => cases h
  | cons e log ih =>
    cases e with
    | request start' value' =>
      rw [current] at h
      split at h
      · cases h
      · next hne =>
        obtain ⟨_, rfl⟩ := Prod.mk.inj (Option.some.inj h)
        exact hne
    | effect identifier variant => exact ih h
    | expired now => cases h

/-- **Identify requests** run to their own deadline, if no request is unseen when the timer of the one before
is found over. -/
theorem requests_timely (tickHz : ℕ) (htick : 0 < tickHz) (as : List (ℕ × Event)) (w : World)
    (hsuits : (machine tickHz).Meets (Suits tickHz) World.new as)
    (hrun : (machine tickHz).run World.new as = some w) : Correct tickHz w := by
  have hs := Machine.invariant_of_meets sound_of_step sound_new hsuits hrun
  refine ⟨fun now hnow => hs.remaining_eq htick hnow, fun e log hlog he => ?_⟩
  have htimely := hs.timely.of_suffix hlog
  cases e with
  | request now value =>
    rw [Entry.action] at he
    split at he
    · next hzero => exact .inl ⟨now, hzero ▸ rfl⟩
    · cases he
  | effect identifier variant => cases he
  | expired now =>
    obtain ⟨⟨start, value, hcurrent, hdeadline⟩, _⟩ := htimely
    exact .inr ⟨now, start, value, rfl, value_ne_zero_of_current hcurrent, hcurrent, hdeadline⟩

/-- A request is made and replaced, and the second one ends in its time. -/
def replaced : List (ℕ × Event) :=
  [(0, .setIdentifyTime 1 5), (0, .run), (0, .run), (1, .run), (4, .setIdentifyTime 1 10), (4, .run), (4, .run),
    (14, .run)]

theorem requests_timely_replaced :
    ∃ w, (machine 1).run World.new replaced = some w ∧ Correct 1 w ∧
      w.log = [.expired 14, .request 4 10, .request 0 5] :=
  ⟨_, rfl, requests_timely 1 (by decide) replaced _ (by decide) rfl, rfl⟩

/-- **A request that is lost.** It comes when the timer of the one before is over, and before the task has
looked: the attribute is `0` at once, and the application is told to cancel. -/
theorem new_request_cancelled :
    ∃ w, (machine 1).run World.new [(0, .setIdentifyTime 1 5), (0, .run), (0, .run), (0, .run),
        (5, .setIdentifyTime 1 10), (5, .run)] = some w ∧
      secondsLeft 1 w.log 5 = 10 ∧ remaining 1 w.state 5 = 0 ∧
      w.log = [.expired 5, .request 5 10, .request 0 5] ∧ Entry.action (.expired 5) = .cancel :=
  ⟨_, rfl, rfl, rfl, rfl, rfl⟩

end Identify

end RsMatter
