import Mathlib.Algebra.Order.Ring.Nat
import RsMatter.Mrp

/-!
# Back-off (`transport/mrp.rs`)

How long to wait before a message is transmitted again is computed in 64 bits, with fixed-point factors
and floor divisions. No product overflows as long as transmissions are counted up to their maximum
only, and a step never makes the delay shorter, so the delays are ordered like what they are
computed from.
-/

namespace RsMatter

/-- The number of transmissions after which delays grow. -/
def mrpBackoffThreshold : ℕ := 1

/-- The factor `1.6` of a retransmission. -/
def mrpBackoffBase : ℕ × ℕ := (16, 10)

/-- The factor `0.25` of the jitter. -/
def mrpBackoffJitter : ℕ × ℕ := (25, 100)

/-- The factor `1.1` of the base interval. -/
def mrpBackoffMargin : ℕ × ℕ := (11, 10)

def mrpJitterRandMax : UInt8 := 255

/-- A product of 64-bit numbers; `none` if it overflows. -/
def mulU64 (a b : ℕ) : Option ℕ := if a * b < 2 ^ 64 then some (a * b) else none

/-- A sum of 64-bit numbers; `none` if it overflows. -/
def addU64 (a b : ℕ) : Option ℕ := if a + b < 2 ^ 64 then some (a + b) else none

namespace RetransEntry

/-- The loop of `delayMsCounter`. -/
def backoffLoop : ℕ → ℕ → Option ℕ
  | 0, delay => some delay
  | n + 1, delay => do
    let p ← mulU64 delay mrpBackoffBase.1
    backoffLoop n (p / mrpBackoffBase.2)

/-- How long to wait after a number of transmissions; `none` is an overflow. -/
def delayMsCounter (r : RetransEntry) (counter : ℕ) (jitterRand : UInt8) : Option ℕ := do
  let p ← mulU64 r.baseDelayIntervalMs.toNat mrpBackoffMargin.1
  let rounds := if mrpBackoffThreshold < counter then counter - mrpBackoffThreshold else 0
  let delay ← backoffLoop rounds (p / mrpBackoffMargin.2)
  let q ← mulU64 delay jitterRand.toNat
  let q ← mulU64 q mrpBackoffJitter.1
  addU64 delay (q / (255 * mrpBackoffJitter.2))

def delayMs (r : RetransEntry) (jitterRand : UInt8) : Option ℕ := r.delayMsCounter r.counter jitterRand

def maxDelayMs (r : RetransEntry) : Option ℕ := r.delayMsCounter mrpMaxTransmissions mrpJitterRandMax

/-! ## Without overflow -/

def backoff : ℕ → ℕ → ℕ
  | 0, delay => delay
  | n + 1, delay => backoff n (delay * 16 / 10)

theorem backoff_mono {n m d e : ℕ} (hn : n ≤ m) (hd : d ≤ e) : backoff n d ≤ backoff m e := by
  induction m generalizing n d e with
  | zero =>
    obtain rfl := Nat.le_zero.mp hn
    exact hd
  | succ m ih =>
    cases n with
    | zero =>
      apply ih (Nat.zero_le m)
      omega
    | succ n =>
      apply ih (Nat.le_of_succ_le_succ hn)
      omega

theorem backoffLoop_eq {n d : ℕ} (h : d * 2 ^ n < 2 ^ 48) :
    backoffLoop n d = some (backoff n d) ∧ backoff n d < 2 ^ 48 := by
  induction n generalizing d with
  | zero => exact ⟨rfl, by simpa [backoff] using h⟩
  | succ n ih =>
    have hpos : 1 ≤ 2 ^ (n + 1) := Nat.one_le_two_pow
    have hd : d < 2 ^ 48 := (Nat.le_mul_of_pos_right d hpos).trans_lt h
    have hstep : d * 16 / 10 * 2 ^ n < 2 ^ 48 := by
      calc
        d * 16 / 10 * 2 ^ n ≤ d * 2 * 2 ^ n := Nat.mul_le_mul_right _ (by omega)
        _ = d * 2 ^ (n + 1) := by rw [Nat.pow_succ, Nat.mul_assoc, Nat.mul_comm 2]
        _ < 2 ^ 48 := h
    rw [backoffLoop, mulU64, mrpBackoffBase, if_pos (by omega)]
    exact ih hstep

/-- The delay for an interval, a number of transmissions and a random byte. -/
def delayOf (base counter jitter : ℕ) : ℕ :=
  backoff (counter - 1) (base * 11 / 10) + backoff (counter - 1) (base * 11 / 10) * jitter * 25 / 25500

theorem delayOf_mono {b b' c c' j j' : ℕ} (hb : b ≤ b') (hc : c ≤ c') (hj : j ≤ j') :
    delayOf b c j ≤ delayOf b' c' j' := by
  have hd : backoff (c - 1) (b * 11 / 10) ≤ backoff (c' - 1) (b' * 11 / 10) := by
    apply backoff_mono
    · omega
    · omega
  exact Nat.add_le_add hd (Nat.div_le_div_right (Nat.mul_le_mul_right 25 (Nat.mul_le_mul hd hj)))

theorem delayMsCounter_eq (r : RetransEntry) {counter : ℕ} (hc : counter ≤ mrpMaxTransmissions)
    (jitterRand : UInt8) :
    r.delayMsCounter counter jitterRand =
      some (delayOf r.baseDelayIntervalMs.toNat counter jitterRand.toNat) := by
  have hbase := r.baseDelayIntervalMs.isLt
  have hjitter := jitterRand.toNat_lt
  have hc : counter ≤ 10 := hc
  have hpow : 2 ^ (counter - 1) ≤ 2 ^ 9 := Nat.pow_le_pow_right (by decide) (by omega)
  have hstart : r.baseDelayIntervalMs.toNat * 11 / 10 * 2 ^ (counter - 1) < 2 ^ 48 := by
    calc
      _ ≤ r.baseDelayIntervalMs.toNat * 11 / 10 * 2 ^ 9 := Nat.mul_le_mul_left _ hpow
      _ < 2 ^ 48 := by omega
  obtain ⟨hloop, hlt⟩ := backoffLoop_eq hstart
  have hrounds : (if mrpBackoffThreshold < counter then counter - mrpBackoffThreshold else 0) = counter - 1 := by
    rw [mrpBackoffThreshold]
    split <;> omega
  rw [delayMsCounter, hrounds, mulU64, mrpBackoffMargin, if_pos (by dsimp only; omega), delayOf]
  simp only [Option.bind_eq_bind, Option.bind_some]
  rw [hloop, Option.bind_some]
  generalize backoff (counter - 1) (r.baseDelayIntervalMs.toNat * 11 / 10) = delay at hlt
  have hprod : delay * jitterRand.toNat ≤ 2 ^ 48 * 2 ^ 8 := Nat.mul_le_mul hlt.le hjitter.le
  have hfits : delay * jitterRand.toNat * 25 < 2 ^ 64 := by omega
  have hsum : delay + delay * jitterRand.toNat * 25 / 25500 < 2 ^ 64 := by omega
  rw [mulU64, if_pos (by omega), Option.bind_some, mulU64, mrpBackoffJitter, if_pos hfits, Option.bind_some]
  exact if_pos hsum

/-! ## Retransmissions -/

/-- An entry that transmissions of its message lead to. -/
inductive Reached (baseDelayIntervalMs : Option (BitVec 32)) (msgCtr : BitVec 32) : RetransEntry → Prop
  | new : Reached baseDelayIntervalMs msgCtr (.new baseDelayIntervalMs msgCtr)
  | preSend {r r' : RetransEntry} {ctr : BitVec 32} (h : Reached baseDelayIntervalMs msgCtr r)
      (hsend : r.preSend ctr = some (.ok r')) : Reached baseDelayIntervalMs msgCtr r'

theorem Reached.counter_le {base : Option (BitVec 32)} {msgCtr : BitVec 32} {r : RetransEntry}
    (h : Reached base msgCtr r) : r.counter ≤ mrpMaxTransmissions := by
  induction h with
  | new => exact Nat.zero_le _
  | preSend h hsend ih =>
    rw [RetransEntry.preSend] at hsend
    split at hsend
    · split at hsend
      · next hlt =>
        cases hsend
        exact hlt
      · cases hsend
    · cases hsend

/-- **The delays of retransmissions.** At every transmission the delay and the greatest delay are
computed without an overflow, and the one is not above the other; and delays grow with the base
interval, with the transmissions counted and with the jitter. -/
theorem delays_ordered :
    (∀ (base : Option (BitVec 32)) (msgCtr : BitVec 32) (r : RetransEntry), Reached base msgCtr r →
      ∀ jitterRand, ∃ delay max, r.delayMs jitterRand = some delay ∧ r.maxDelayMs = some max ∧
        delay ≤ max) ∧
    ∀ (r r' : RetransEntry) (counter counter' : ℕ) (jitterRand jitterRand' : UInt8),
      r.baseDelayIntervalMs ≤ r'.baseDelayIntervalMs → counter ≤ counter' → jitterRand ≤ jitterRand' →
      counter' ≤ mrpMaxTransmissions → ∃ delay delay', r.delayMsCounter counter jitterRand = some delay ∧
        r'.delayMsCounter counter' jitterRand' = some delay' ∧ delay ≤ delay' := by
  constructor
  · intro base msgCtr r h jitterRand
    have hc := h.counter_le
    refine ⟨_, _, r.delayMsCounter_eq hc jitterRand, r.delayMsCounter_eq le_rfl _, ?_⟩
    apply delayOf_mono le_rfl hc
    exact Nat.le_of_lt_succ jitterRand.toNat_lt
  · intro r r' c c' j j' hb hcc hj hc
    exact ⟨_, _, r.delayMsCounter_eq (hcc.trans hc) j, r'.delayMsCounter_eq hc j', delayOf_mono hb hcc hj⟩

end RetransEntry

end RsMatter
