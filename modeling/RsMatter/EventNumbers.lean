import RsMatter.EventRings

/-!
# Event numbers over reboots

The counter of the event numbers is stored once in an epoch, ahead of its use: what is stored is a
number that no event has yet, and the counter stops there to store the next one. A reboot goes on
with the stored number and gives up the rest of the epoch. So the numbers increase over reboots
too (`Events.numbers_of_run`), until the 64-bit counter has been used up, by the pushes and by the
reboots.
-/

namespace RsMatter

namespace Events

namespace EventsInner

/-- Is the counter stored before this number is used? -/
def EpochStart (number : BitVec 64) : Prop :=
  number = 1 ∨ number.toNat % eventNumberEpochSize = 0

instance (number : BitVec 64) : Decidable (EpochStart number) := inferInstanceAs (Decidable (_ ∨ _))

/-- `wrapping_add(EVENT_NUMBER_EPOCH_SIZE).max(1)`, but for the first number. -/
def epochAfter (number : BitVec 64) : BitVec 64 :=
  if number = 1 then BitVec.ofNat 64 eventNumberEpochSize
  else if number + BitVec.ofNat 64 eventNumberEpochSize = 0 then 1
  else number + BitVec.ofNat 64 eventNumberEpochSize

/-- What `store_tlv` stores of a counter. -/
def epochTlv (number : BitVec 64) : List UInt8 := elemBytes .anonymous (.ofU64 number)

end EventsInner

open EventsInner

/-- What can happen: a push, or a reboot. A push that fails to store the counter may have stored it
all the same. -/
inductive Act where
  | push (p : Push) (wrote : Bool)
  | reboot

/-- The queue with its history, over all reboots, and what is stored under the key of the
counter. -/
structure Persisted (N : ℕ) where
  /-- the queue and the events that were ever pushed -/
  log : Log N
  kv : Option (List UInt8)

def Persisted.new (N : ℕ) : Persisted N := ⟨.start N 1, none⟩

/-- The store after a push that draws a number. -/
def kvAfter (number : BitVec 64) (stored : Except ErrorCode Unit) (wrote : Bool)
    (kv : Option (List UInt8)) : Option (List UInt8) :=
  if EpochStart number then
    match stored with
    | .ok () => some (epochTlv (epochAfter number))
    | .error _ => if wrote then some (epochTlv (epochAfter number)) else kv
  else kv

def persistedMachine (N : ℕ) : Machine (Persisted N) Act where
  step s
    | .push p wrote =>
      ((machine N).step s.log p).map fun log =>
        ⟨log, kvAfter s.log.inner.nextEventNumber p.stored wrote s.kv⟩
    | .reboot => some ⟨⟨(loadPersist N s.kv).1, s.log.pushed⟩, s.kv⟩

/-- How many numbers an action uses up at most. -/
def Act.numbers : Act → ℕ
  | .push _ _ => 1
  | .reboot => eventNumberEpochSize

def numbersUsed (as : List Act) : ℕ := (as.map Act.numbers).sum

/-! ## The counter in the store -/

variable {N : ℕ} {s s' : Persisted N}

theorem loadPersist_epochTlv (N : ℕ) (number : BitVec 64) :
    loadPersist N (some (epochTlv number)) = (.start N number, .ok ()) := by
  have h : TLVElement.u64 (epochTlv number) = .ok number := by
    rw [epochTlv, ← List.append_nil (elemBytes _ _)]
    exact TLVElement.u64_elem _ _ number
  rw [loadPersist, h]

/-- The stored counter while no number has wrapped: the start of an epoch that is not behind the
next number and no more than an epoch ahead. -/
structure Reserves (stored next : ℕ) : Prop where
  epoch : stored % eventNumberEpochSize = 0
  le : next ≤ stored
  near : stored ≤ next + eventNumberEpochSize

theorem toNat_epochAfter {number : BitVec 64} (hlt : number.toNat + eventNumberEpochSize < 2 ^ 64) :
    (epochAfter number).toNat =
      if number = 1 then eventNumberEpochSize else number.toNat + eventNumberEpochSize := by
  have hsum : (number + BitVec.ofNat 64 eventNumberEpochSize).toNat =
      number.toNat + eventNumberEpochSize := by
    rw [BitVec.toNat_add, BitVec.toNat_ofNat, Nat.add_mod_mod]
    exact Nat.mod_eq_of_lt hlt
  rw [epochAfter]
  split_ifs with hone hzero
  · rfl
  · rw [hzero] at hsum
    simp [eventNumberEpochSize] at hsum
  · exact hsum

/-- What is stored at the start of an epoch is reserved, and stays so when its first number is
used. -/
theorem reserves_epochAfter {number : BitVec 64} (h : EpochStart number)
    (hlt : number.toNat + eventNumberEpochSize < 2 ^ 64) :
    Reserves (epochAfter number).toNat number.toNat ∧
      Reserves (epochAfter number).toNat (number.toNat + 1) := by
  rw [toNat_epochAfter hlt]
  split_ifs with hone
  · subst hone
    exact ⟨⟨rfl, by decide, by decide⟩, rfl, by decide, by decide⟩
  · have hepoch : (number.toNat + eventNumberEpochSize) % eventNumberEpochSize = 0 := by
      rw [Nat.add_mod_right]
      exact h.resolve_left hone
    have hsize : eventNumberEpochSize = 10000 := rfl
    exact ⟨⟨hepoch, by omega, by omega⟩, hepoch, by omega, by omega⟩

theorem Reserves.succ {stored next : ℕ} (h : Reserves stored next)
    (hnext : next % eventNumberEpochSize ≠ 0) : Reserves stored (next + 1) := by
  obtain ⟨hepoch, hle, hnear⟩ := h
  have hne : next ≠ stored := fun heq => hnext (heq ▸ hepoch)
  exact ⟨hepoch, by omega, by omega⟩

/-! ## Runs -/

/-- The numbers in use increase and are below the next one, and so the counter in the store has
not been used. -/
structure Counted (s : Persisted N) (used : ℕ) : Prop where
  inv : Inv s.log
  /-- the next number is not the reserved one -/
  pos : 1 ≤ s.log.inner.nextEventNumber.toNat
  le : s.log.inner.nextEventNumber.toNat ≤ 1 + used
  lt : ∀ e ∈ s.log.pushed, e.number.toNat < s.log.inner.nextEventNumber.toNat
  sorted : s.log.pushed.Pairwise fun a b => a.number < b.number
  /-- nothing is stored as long as there was no event -/
  stored : (s.kv = none ∧ s.log.inner.nextEventNumber = 1 ∧ s.log.pushed = []) ∨
    ∃ number, s.kv = some (epochTlv number) ∧
      Reserves number.toNat s.log.inner.nextEventNumber.toNat

theorem counted_new (N : ℕ) : Counted (Persisted.new N) 0 where
  inv := inv_start N 1
  pos := le_rfl
  le := le_rfl
  lt := nofun
  sorted := .nil
  stored := .inl ⟨rfl, rfl, rfl⟩

theorem toNat_numberAfter {number : BitVec 64} (hlt : number.toNat + 1 < 2 ^ 64) :
    (numberAfter number).toNat = number.toNat + 1 := by
  have hsum : (number + 1).toNat = number.toNat + 1 := by
    rw [BitVec.toNat_add]
    exact Nat.mod_eq_of_lt hlt
  have hne : number + 1 ≠ 0 := by
    intro h0
    rw [h0] at hsum
    exact Nat.succ_ne_zero _ hsum.symm
  rw [numberAfter, if_neg hne, hsum]

theorem step_of_error {log : Log N} {p : Push} {code : ErrorCode}
    (h : EpochStart log.inner.nextEventNumber) (hstored : p.stored = .error code) :
    (machine N).step log p = some log := by
  have hdraw : (drawEventNumber p.stored).run log.inner = (log.inner, .error code) := by
    rw [drawEventNumber, Prog.run_bind_of_ok (Prog.run_get _), hstored]
    have h : log.inner.nextEventNumber = 1 ∨
      log.inner.nextEventNumber.toNat % eventNumberEpochSize = 0 := h
    simp only [Prog.onlyIf, if_pos h]
    rfl
  simp only [machine, hdraw]

/-- The counter that a push leaves in the store is not the number it uses. -/
theorem Counted.kvAfter {used : ℕ} (h : Counted s used)
    (hlt : s.log.inner.nextEventNumber.toNat + eventNumberEpochSize < 2 ^ 64) (wrote : Bool)
    {stored : Except ErrorCode Unit}
    (hstored : EpochStart s.log.inner.nextEventNumber → stored = .ok ()) :
    ∃ number, kvAfter s.log.inner.nextEventNumber stored wrote s.kv = some (epochTlv number) ∧
      Reserves number.toNat s.log.inner.nextEventNumber.toNat ∧
      Reserves number.toNat (s.log.inner.nextEventNumber.toNat + 1) := by
  unfold Events.kvAfter
  by_cases hstart : EpochStart s.log.inner.nextEventNumber
  · rw [if_pos hstart, hstored hstart]
    exact ⟨_, rfl, reserves_epochAfter hstart hlt⟩
  · rw [if_neg hstart]
    obtain ⟨-, hone, -⟩ | ⟨number, hkv, hreserves⟩ := h.stored
    · exact absurd (.inl hone) hstart
    · exact ⟨number, hkv, hreserves, hreserves.succ fun hmod => hstart (.inr hmod)⟩

/-- **One push.** -/
theorem Counted.push {used : ℕ} (h : Counted s used) (p : Push) (wrote : Bool)
    (hlt : used + 1 + eventNumberEpochSize < 2 ^ 64) :
    ∃ s', (persistedMachine N).step s (.push p wrote) = some s' ∧ Counted s' (used + 1) := by
  have hle := h.le
  have hroom : s.log.inner.nextEventNumber.toNat + eventNumberEpochSize < 2 ^ 64 := by omega
  have hsame : Counted s (used + 1) := { h with le := by omega }
  by_cases herror : EpochStart s.log.inner.nextEventNumber ∧ p.stored ≠ .ok ()
  · -- the counter could not be stored
    obtain ⟨hstart, hstored⟩ := herror
    cases hcode : p.stored with
    | ok _ => exact absurd hcode hstored
    | error code =>
      refine ⟨⟨s.log, Events.kvAfter s.log.inner.nextEventNumber p.stored wrote s.kv⟩, ?_, ?_⟩
      · simp only [persistedMachine, step_of_error hstart hcode, Option.map_some]
      · refine ⟨h.inv, h.pos, hsame.le, h.lt, h.sorted, ?_⟩
        rw [hcode]
        unfold Events.kvAfter
        dsimp only
        rw [if_pos hstart]
        cases wrote with
        | false => exact h.stored
        | true => exact .inr ⟨_, rfl, (reserves_epochAfter hstart hroom).1⟩
  · have hstored : EpochStart s.log.inner.nextEventNumber → p.stored = .ok () := by
      intro hstart
      by_contra hne
      exact herror ⟨hstart, hne⟩
    obtain ⟨log, hstep, hinv, hcases⟩ := step_spec h.inv p
    obtain ⟨number, hkv, hreserves, hreserves'⟩ := h.kvAfter hroom wrote hstored
    refine ⟨⟨log, Events.kvAfter s.log.inner.nextEventNumber p.stored wrote s.kv⟩, ?_, ?_⟩
    · simp only [persistedMachine, hstep, Option.map_some]
    rcases hcases with ⟨hnext, hpushed⟩ | ⟨hnext, hpushed⟩
    · -- no number was drawn
      refine ⟨hinv, ?_, ?_, ?_, ?_, .inr ⟨number, hkv, ?_⟩⟩
      · rw [hnext]
        exact h.pos
      · rw [hnext]
        exact hsame.le
      · rw [hnext, hpushed]
        exact h.lt
      · rw [hpushed]
        exact h.sorted
      · rw [hnext]
        exact hreserves
    · have htoNat := toNat_numberAfter (lt_of_le_of_lt (Nat.add_le_add_left (by decide) _) hroom)
      have hlt' : ∀ e ∈ s.log.pushed, e.number.toNat < s.log.inner.nextEventNumber.toNat + 1 :=
        fun e he => Nat.lt_succ_of_lt (h.lt e he)
      refine ⟨hinv, ?_, ?_, ?_, ?_, .inr ⟨number, hkv, ?_⟩⟩
      · rw [hnext, htoNat]
        exact Nat.succ_pos _
      · rw [hnext, htoNat]
        omega
      · rw [hnext, htoNat]
        rcases hpushed with hpushed | hpushed
        · rw [hpushed]
          exact hlt'
        · rw [hpushed]
          intro e he
          rcases List.mem_append.mp he with he | he
          · exact hlt' e he
          · rw [List.mem_singleton.mp he]
            exact Nat.lt_succ_self _
      · rcases hpushed with hpushed | hpushed
        · rw [hpushed]
          exact h.sorted
        · rw [hpushed, List.pairwise_append]
          refine ⟨h.sorted, List.pairwise_singleton _ _, fun a ha b hb => ?_⟩
          rw [List.mem_singleton.mp hb]
          exact h.lt a ha
      · rw [hnext, htoNat]
        exact hreserves'

theorem inv_reboot {log : Log N} (h : Inv log) (first : BitVec 64) :
    Inv ⟨.start N first, log.pushed⟩ := by
  refine ⟨⟨[], ⟨[], [], ⟨rfl, rfl, rfl, rfl, rfl⟩, List.nil_sublist _⟩, fun _ => ?_⟩, h.2⟩
  exact List.nil_suffix

/-- **A reboot** goes on with a number that is not behind. -/
theorem Counted.reboot {used : ℕ} (h : Counted s used) :
    ∃ s', (persistedMachine N).step s .reboot = some s' ∧ Counted s' (used + eventNumberEpochSize) := by
  refine ⟨_, rfl, ?_⟩
  have hle := h.le
  obtain ⟨hkv, hone, hnil⟩ | ⟨number, hkv, hreserves⟩ := h.stored
  · rw [hkv]
    refine ⟨inv_reboot h.inv 1, le_rfl, Nat.le_add_right _ _, ?_, h.sorted, .inl ⟨rfl, rfl, hnil⟩⟩
    intro e he
    rw [hnil] at he
    cases he
  · obtain ⟨hepoch, hge, hnear⟩ := hreserves
    rw [hkv, loadPersist_epochTlv]
    refine ⟨inv_reboot h.inv number, h.pos.trans hge, ?_, ?_, h.sorted, .inr ⟨number, rfl, ?_⟩⟩
    · exact hnear.trans (by omega)
    · exact fun e he => (h.lt e he).trans_le hge
    · exact ⟨hepoch, le_rfl, Nat.le_add_right _ _⟩

theorem Counted.run {used : ℕ} (h : Counted s used) (as : List Act)
    (hlt : used + numbersUsed as + eventNumberEpochSize < 2 ^ 64) :
    ∃ s', (persistedMachine N).run s as = some s' ∧ Counted s' (used + numbersUsed as) := by
  induction as generalizing s used with
  | nil => exact ⟨s, rfl, h⟩
  | cons a as ih =>
    have hused : numbersUsed (a :: as) = a.numbers + numbersUsed as := by
      rw [numbersUsed, List.map_cons, List.sum_cons]
      rfl
    rw [hused, ← Nat.add_assoc] at hlt ⊢
    have hstep : ∃ t, (persistedMachine N).step s a = some t ∧ Counted t (used + a.numbers) := by
      cases a with
      | push p wrote => exact h.push p wrote (by rw [Act.numbers] at hlt; omega)
      | reboot => exact h.reboot
    obtain ⟨t, hstep, ht⟩ := hstep
    obtain ⟨s', hrun, hs'⟩ := ih ht hlt
    exact ⟨s', Machine.run_cons_eq_some.mpr ⟨t, hstep, hrun⟩, hs'⟩

/-- **Event numbers are never reused**, over any pushes and reboots that do not use up the
counter. -/
theorem numbers_of_run (N : ℕ) (as : List Act)
    (hused : numbersUsed as < 2 ^ 64 - 2 * eventNumberEpochSize) :
    ∃ s, (persistedMachine N).run (.new N) as = some s ∧
      s.log.pushed.Pairwise fun a b => a.number < b.number := by
  obtain ⟨s, hrun, hs⟩ := (counted_new N).run as (by rw [eventNumberEpochSize] at *; omega)
  exact ⟨s, hrun, hs.sorted⟩

theorem numbers_reboot : ∃ s, (persistedMachine 64).run (.new 64)
      [.push criticalPush false, .reboot, .push criticalPush false] = some s ∧
    s.log.pushed.Pairwise fun a b => a.number < b.number :=
  numbers_of_run 64 _ (by decide)

/-! ## Reboots use up numbers -/

def Sample.pushReboot : List Act := [.push criticalPush false, .reboot]

def Sample.rebooted (number : BitVec 64) (pushed : List Event) (kv : Option (List UInt8)) : Persisted 64 :=
  ⟨⟨.start 64 number, pushed⟩, kv⟩

def Act.isPush : Act → Bool
  | .push _ _ => true
  | .reboot => false

/-- A push and a reboot go from the start of an epoch to the next one. -/
theorem Sample.run_pushReboot {number : BitVec 64} (hstart : EpochStart number) (pushed : List Event)
    (htag : ∀ e ∈ pushed, e.data.tag = .context 7) (kv : Option (List UInt8)) :
    ∃ pushed', (∀ e ∈ pushed', e.data.tag = .context 7) ∧
      (persistedMachine 64).run (Sample.rebooted number pushed kv) Sample.pushReboot =
        some (Sample.rebooted (epochAfter number) pushed' (some (epochTlv (epochAfter number)))) := by
  have hinv : Inv (Sample.rebooted number pushed kv).log :=
    ⟨⟨[], ⟨[], [], ⟨rfl, rfl, rfl, rfl, rfl⟩, List.nil_sublist _⟩, fun _ => List.nil_suffix⟩, htag⟩
  obtain ⟨log, hstep, hinv, -⟩ := step_spec hinv criticalPush
  have hkv : kvAfter number criticalPush.stored false kv = some (epochTlv (epochAfter number)) := by
    unfold kvAfter
    rw [if_pos hstart]
    rfl
  have hpush : (persistedMachine 64).step (Sample.rebooted number pushed kv) (.push criticalPush false) =
      some ⟨log, some (epochTlv (epochAfter number))⟩ := by
    simp only [persistedMachine, hstep, Option.map_some]
    rw [← hkv]
    rfl
  refine ⟨log.pushed, hinv.2, ?_⟩
  rw [Sample.pushReboot, Machine.run_cons, hpush, Option.bind_some, Machine.run_cons]
  simp only [persistedMachine, Option.bind_some, Machine.run_nil, loadPersist_epochTlv]
  rfl

theorem Sample.run_pushReboots (k : ℕ) (hk : (k + 1) * eventNumberEpochSize < 2 ^ 64) :
    ∃ pushed kv, (∀ e ∈ pushed, e.data.tag = .context 7) ∧
      (persistedMachine 64).run (.new 64) (List.replicate (k + 1) Sample.pushReboot).flatten =
        some (Sample.rebooted (BitVec.ofNat 64 ((k + 1) * eventNumberEpochSize)) pushed kv) := by
  have hsize : eventNumberEpochSize = 10000 := rfl
  induction k with
  | zero =>
    obtain ⟨pushed, htag, hrun⟩ := Sample.run_pushReboot (.inl rfl) [] nofun none
    exact ⟨pushed, _, htag, hrun⟩
  | succ k ih =>
    have hsucc : (k + 1 + 1) * eventNumberEpochSize = (k + 1) * eventNumberEpochSize + eventNumberEpochSize :=
      Nat.succ_mul (k + 1) _
    have hge : eventNumberEpochSize ≤ (k + 1) * eventNumberEpochSize := Nat.le_mul_of_pos_left _ k.succ_pos
    obtain ⟨pushed, kv, htag, hrun⟩ := ih (by omega)
    have htoNat : (BitVec.ofNat 64 ((k + 1) * eventNumberEpochSize)).toNat =
        (k + 1) * eventNumberEpochSize := by
      rw [BitVec.toNat_ofNat]
      exact Nat.mod_eq_of_lt (by omega)
    have hne : BitVec.ofNat 64 ((k + 1) * eventNumberEpochSize) ≠ 1 := by
      intro heq
      rw [heq] at htoNat
      have hone : (1 : BitVec 64).toNat = 1 := rfl
      omega
    have hstart : EpochStart (BitVec.ofNat 64 ((k + 1) * eventNumberEpochSize)) := by
      refine .inr ?_
      rw [htoNat]
      exact Nat.mul_mod_left _ _
    have hafter : epochAfter (BitVec.ofNat 64 ((k + 1) * eventNumberEpochSize)) =
        BitVec.ofNat 64 ((k + 1 + 1) * eventNumberEpochSize) := by
      refine BitVec.eq_of_toNat_eq ?_
      rw [toNat_epochAfter (by rw [htoNat]; omega), if_neg hne, htoNat, BitVec.toNat_ofNat,
        Nat.mod_eq_of_lt hk, hsucc]
    obtain ⟨pushed', htag', hrun'⟩ := Sample.run_pushReboot hstart pushed htag kv
    rw [hafter] at hrun'
    refine ⟨pushed', _, htag', Eq.trans ?_ hrun'⟩
    rw [List.replicate_succ', List.flatten_append, Machine.run_append, hrun, Option.bind_some,
      List.flatten_singleton]

/-- A number is drawn right after a reboot, and the event is stored under it. -/
theorem Sample.step_push (number : BitVec 64) (pushed : List Event) (kv : Option (List UInt8))
    (h : ((EventsInner.start 64 (numberAfter number)).push criticalPush number).2 = .ok ()) :
    ∃ inner, (persistedMachine 64).step (Sample.rebooted number pushed kv) (.push criticalPush false) =
      some ⟨⟨inner, pushed ++ [criticalPush.toEvent 64 number]⟩,
        kvAfter number (.ok ()) false kv⟩ := by
  rcases hpush : (EventsInner.start 64 (numberAfter number)).push criticalPush number with ⟨inner, r⟩
  rw [hpush] at h
  have hdraw : (drawEventNumber criticalPush.stored).run (EventsInner.start 64 number) =
      (EventsInner.start 64 (numberAfter number), .ok number) := by
    obtain ⟨code, hcode⟩ | hdraw := drawEventNumber_cases (EventsInner.start 64 number) (.ok ())
    · rw [drawEventNumber, Prog.run_bind_of_ok (Prog.run_get _)] at hcode
      simp only [Prog.onlyIf] at hcode
      split_ifs at hcode
      · cases (Prod.mk.inj hcode).2
      · cases (Prod.mk.inj hcode).2
    · exact hdraw
  refine ⟨inner, ?_⟩
  simp only [persistedMachine, machine, Sample.rebooted, hdraw, hpush]
  rw [show r = .ok () from h]
  rfl

/-- A number of pushes that is far from using up the counter. -/
def Sample.epochs : ℕ := 1844674407370955

/-- The run: the device reboots after each push, and after two more pushes numbers come again. -/
def Sample.wrapping : List Act :=
  (List.replicate Sample.epochs Sample.pushReboot).flatten ++ Sample.pushReboot ++
    [Act.push criticalPush false]

theorem Sample.countP_pushReboots (k : ℕ) :
    (List.replicate k Sample.pushReboot).flatten.countP Act.isPush = k := by
  induction k with
  | zero => rfl
  | succ k ih =>
    rw [List.replicate_succ, List.flatten_cons, List.countP_append, ih, Nat.add_comm]
    rfl

/-- Few pushes are not enough: with as many reboots the counter wraps. -/
theorem numbers_not_increasing : ∃ s,
    Sample.wrapping.countP Act.isPush < 2 ^ 64 - 2 * eventNumberEpochSize ∧
      (persistedMachine 64).run (.new 64) Sample.wrapping = some s ∧
      ¬ s.log.pushed.Pairwise fun a b => a.number < b.number := by
  have hcount : Sample.wrapping.countP Act.isPush = Sample.epochs + 2 := by
    rw [Sample.wrapping, List.countP_append, List.countP_append, Sample.countP_pushReboots]
    rfl
  have hepochs : Sample.epochs = 1844674407370954 + 1 := rfl
  obtain ⟨pushed, kv, htag, hrun⟩ := Sample.run_pushReboots 1844674407370954 (by decide)
  rw [← hepochs] at hrun
  have hlast : BitVec.ofNat 64 (Sample.epochs * eventNumberEpochSize) = 18446744073709550000#64 := by
    decide
  rw [hlast] at hrun
  -- the last number of the counter, and the one that comes after it
  obtain ⟨inner, hpush⟩ := Sample.step_push 18446744073709550000#64 pushed kv (by decide +kernel)
  have hkv : kvAfter 18446744073709550000#64 (.ok ()) false kv = some (epochTlv 8384#64) := by
    unfold kvAfter
    rw [if_pos (by decide)]
    exact congrArg (fun number => some (epochTlv number)) (by decide)
  rw [hkv] at hpush
  obtain ⟨inner', hpush'⟩ := Sample.step_push 8384#64
    (pushed ++ [criticalPush.toEvent 64 18446744073709550000#64]) (some (epochTlv 8384#64)) (by decide +kernel)
  have hreboot : (persistedMachine 64).step
      ⟨⟨inner, pushed ++ [criticalPush.toEvent 64 18446744073709550000#64]⟩, some (epochTlv 8384#64)⟩ .reboot =
        some (Sample.rebooted 8384#64 (pushed ++ [criticalPush.toEvent 64 18446744073709550000#64])
          (some (epochTlv 8384#64))) := by
    simp only [persistedMachine, loadPersist_epochTlv]
    rfl
  refine ⟨⟨⟨inner', _⟩, _⟩, ?_, Eq.trans ?_ hpush', ?_⟩
  · rw [hcount, hepochs]
    decide
  · rw [Sample.wrapping, List.append_assoc, Machine.run_append, hrun, Option.bind_some, Machine.run_append,
      Sample.pushReboot, Machine.run_cons, hpush, Option.bind_some, Machine.run_cons, hreboot,
      Option.bind_some, Machine.run_nil, Option.bind_some, Machine.run_cons]
    exact Option.bind_fun_some _
  · intro h
    have hlt := (List.pairwise_append.mp h).2.2 _ (List.mem_append_right _ (List.mem_singleton_self _)) _
      (List.mem_singleton_self _)
    exact absurd hlt (by decide)

end Events

end RsMatter
