import Mathlib.Data.BitVec
import Mathlib.Data.List.Count

/-!
# Receive counters: replays are rejected (`transport/dedup.rs`)

Every session tracks the largest message counter it has accepted together with
a 16-bit bitmap of the counters just below it. `RxCtrState.postRecv` decides
whether an incoming counter is new. For an encrypted session the decision is
one-way: the window only moves forward, and a counter it has left behind is
never accepted again.

The invariant that carries the proof (`RxCtrState.Fresh`) reads the bitmap from
its clear side: a *clear* bit stands for a counter strictly between the initial
value and the current maximum which has not been accepted. Set bits promise
nothing, which is why a far jump may saturate the bitmap.
-/

namespace RsMatter

/-- The width of the receive window below the maximum counter. -/
def msgRxStateBitmapLen : ℕ := 16

structure RxCtrState where
  /-- the largest counter accepted so far (or the initial one) -/
  maxCtr : BitVec 32
  /-- bit `i` stands for the counter `maxCtr - 1 - i` -/
  ctrBitmap : BitVec 16
  deriving DecidableEq

namespace RxCtrState

/-- A fresh state: nothing at or below `maxCtr` is acceptable. -/
def new (maxCtr : BitVec 32) : RxCtrState := ⟨maxCtr, 0xffff#16⟩

def contains (s : RxCtrState) (bitNumber : ℕ) : Bool :=
  s.ctrBitmap &&& (1#16 <<< bitNumber) != 0#16

def insert (s : RxCtrState) (bitNumber : ℕ) : RxCtrState :=
  { s with ctrBitmap := s.ctrBitmap ||| (1#16 <<< bitNumber) }

/-- The source's range test `(-(MSG_RX_STATE_BITMAP_LEN as i32)..0).contains(&idiff)`. -/
def InWindow (idiff : BitVec 32) : Prop :=
  -(msgRxStateBitmapLen : ℤ) ≤ idiff.toInt ∧ idiff.toInt < 0

instance (idiff : BitVec 32) : Decidable (InWindow idiff) :=
  inferInstanceAs (Decidable (_ ∧ _))

/-- Receive a counter. The Boolean is the answer of the source: `false` for a
duplicate. The difference is the wrapping `i32` one, and `udiff` its
`unsigned_abs`. -/
def postRecv (s : RxCtrState) (msgCtr : BitVec 32) (isEncrypted : Bool) :
    Bool × RxCtrState :=
  let idiff := msgCtr - s.maxCtr
  let udiff := idiff.abs.toNat
  if msgCtr = s.maxCtr then
    (false, s)
  else if InWindow idiff then
    let index := udiff - 1
    if s.contains index then (false, s) else (true, s.insert index)
  else if s.maxCtr < msgCtr then
    if udiff < msgRxStateBitmapLen then
      -- the previous maximum becomes an ordinary, already seen counter
      (true, insert ⟨msgCtr, s.ctrBitmap <<< udiff⟩ (udiff - 1))
    else
      (true, { maxCtr := msgCtr, ctrBitmap := 0xffff#16 })
  else if isEncrypted = false then
    -- the peer possibly rebooted and chose a different random counter
    (true, { maxCtr := msgCtr, ctrBitmap := 0xffff#16 })
  else
    (false, s)

/-- The calls `postRecv(ctr, true)` of one run, each with its answer. -/
def recvRun (s : RxCtrState) : List (BitVec 32) → List (BitVec 32 × Bool)
  | [] => []
  | c :: cs => (c, (s.postRecv c true).1) :: recvRun (s.postRecv c true).2 cs

/-! ## Bits -/

theorem contains_eq_getLsbD (s : RxCtrState) {i : ℕ} (hi : i < 16) :
    s.contains i = s.ctrBitmap.getLsbD i := by
  rw [contains]
  cases hb : s.ctrBitmap.getLsbD i
  · have hz : s.ctrBitmap &&& (1#16 <<< i) = 0#16 := by
      apply BitVec.eq_of_getLsbD_eq
      intro j hj
      by_cases hji : j = i
      · subst hji
        simp [hb]
      · simp only [BitVec.getLsbD_and, BitVec.getLsbD_shiftLeft, BitVec.getLsbD_one,
          BitVec.getLsbD_zero]
        by_cases hlt : j < i
        · simp [hlt]
        · have : ¬ (j - i = 0) := by omega
          simp [this]
    simp [hz]
  · have hnz : s.ctrBitmap &&& (1#16 <<< i) ≠ 0#16 := by
      intro hz
      have hbit : (s.ctrBitmap &&& (1#16 <<< i)).getLsbD i = false := by
        rw [hz, BitVec.getLsbD_zero]
      rw [BitVec.getLsbD_and, hb] at hbit
      simp [hi] at hbit
    simp [hnz]

theorem getLsbD_insert (s : RxCtrState) {i j : ℕ} (hj : j < 16) :
    (s.insert i).ctrBitmap.getLsbD j = (s.ctrBitmap.getLsbD j || decide (j = i)) := by
  simp only [insert, BitVec.getLsbD_or, BitVec.getLsbD_shiftLeft, BitVec.getLsbD_one]
  by_cases hji : j = i
  · subst hji
    simp [hj]
  · by_cases hlt : j < i
    · simp [hlt, hji]
    · have : ¬ (j - i = 0) := by omega
      simp [this, hji]

@[simp] theorem maxCtr_insert (s : RxCtrState) (i : ℕ) : (s.insert i).maxCtr = s.maxCtr := rfl

/-! ## The wrapping difference

The three places where the signed difference meets the unsigned order. All of
them are linear facts about `toNat` once the `2 ^ 32` wrap is made explicit. -/

section Diff

variable {c m : BitVec 32}

/-- In the window, the counter lies `udiff` below the maximum, modulo the wrap. -/
theorem abs_of_window (hw : InWindow (c - m)) :
    1 ≤ (c - m).abs.toNat ∧ (c - m).abs.toNat ≤ 16 ∧
      (c.toNat + (c - m).abs.toNat) % 2 ^ 32 = m.toNat := by
  have hc := c.isLt
  have hm := m.isLt
  obtain ⟨h₁, h₂⟩ := hw
  rw [msgRxStateBitmapLen, BitVec.toInt_eq_toNat_cond, BitVec.toNat_sub] at h₁
  rw [BitVec.toInt_eq_toNat_cond, BitVec.toNat_sub] at h₂
  rw [BitVec.toNat_abs, BitVec.msb_eq_decide, BitVec.toNat_sub]
  simp only [decide_eq_true_eq]
  split <;> split at h₁ <;> omega

/-- Ahead of the maximum and outside the window, a small `udiff` is the plain
distance. -/
theorem abs_of_ahead (hlt : m < c) (hw : ¬ InWindow (c - m))
    (hs : (c - m).abs.toNat < msgRxStateBitmapLen) :
    c.toNat = m.toNat + (c - m).abs.toNat := by
  have hc := c.isLt
  have hm := m.isLt
  rw [BitVec.lt_def] at hlt
  rw [msgRxStateBitmapLen] at hs
  rw [InWindow, msgRxStateBitmapLen, BitVec.toInt_eq_toNat_cond, BitVec.toNat_sub] at hw
  have habs := BitVec.toNat_abs (x := c - m)
  rw [BitVec.msb_eq_decide, BitVec.toNat_sub] at habs
  simp only [decide_eq_true_eq] at habs
  generalize (c - m).abs.toNat = u at hs habs ⊢
  split at habs <;> split at hw <;> omega

end Diff

/-! ## The invariant -/

/-- What a run that started at `m` and accepted `acc` knows about its state. -/
structure Fresh (m : BitVec 32) (acc : List (BitVec 32)) (s : RxCtrState) : Prop where
  /-- the maximum never falls below the initial value -/
  le_max : m ≤ s.maxCtr
  /-- everything accepted lies above the initial value and is covered by the maximum -/
  acc_mem : ∀ c ∈ acc, m < c ∧ c ≤ s.maxCtr
  /-- a clear bit stands for a counter above the initial value that is still new -/
  clear : ∀ i < 16, s.ctrBitmap.getLsbD i = false →
    m.toNat + i + 1 < s.maxCtr.toNat ∧ ∀ c ∈ acc, c.toNat + i + 1 ≠ s.maxCtr.toNat

theorem getLsbD_saturated {i : ℕ} (hi : i < 16) : (0xffff#16 : BitVec 16).getLsbD i = true := by
  have hones : (0xffff#16 : BitVec 16) = BitVec.allOnes 16 := by decide
  rw [hones, BitVec.getLsbD_allOnes]
  exact decide_eq_true hi

theorem fresh_new (m : BitVec 32) : Fresh m [] (new m) where
  le_max := BitVec.le_refl m
  acc_mem := by simp
  clear := by
    intro i hi hclear
    rw [new, getLsbD_saturated hi] at hclear
    cases hclear

variable {m : BitVec 32} {acc : List (BitVec 32)} {s : RxCtrState} {c : BitVec 32}

theorem postRecv_cases (s : RxCtrState) (c : BitVec 32) (e : Bool) :
    s.postRecv c e = (false, s) ∨
    (InWindow (c - s.maxCtr) ∧
      s.contains ((c - s.maxCtr).abs.toNat - 1) = false ∧
      s.postRecv c e = (true, s.insert ((c - s.maxCtr).abs.toNat - 1))) ∨
    (s.maxCtr < c ∧ ¬ InWindow (c - s.maxCtr) ∧
      (c - s.maxCtr).abs.toNat < msgRxStateBitmapLen ∧
      s.postRecv c e = (true, insert ⟨c, s.ctrBitmap <<< (c - s.maxCtr).abs.toNat⟩
        ((c - s.maxCtr).abs.toNat - 1))) ∨
    ((s.maxCtr < c ∨ e = false) ∧ s.postRecv c e = (true, ⟨c, 0xffff#16⟩)) := by
  unfold postRecv
  by_cases heq : c = s.maxCtr
  · exact .inl (if_pos heq)
  simp only [if_neg heq]
  by_cases hw : InWindow (c - s.maxCtr)
  · simp only [if_pos hw]
    cases hcont : s.contains ((c - s.maxCtr).abs.toNat - 1)
    · exact .inr (.inl ⟨hw, rfl, if_neg (by simp)⟩)
    · exact .inl (if_pos rfl)
  simp only [if_neg hw]
  by_cases hlt : s.maxCtr < c
  · simp only [if_pos hlt]
    by_cases hs : (c - s.maxCtr).abs.toNat < msgRxStateBitmapLen
    · exact .inr (.inr (.inl ⟨hlt, hw, hs, if_pos hs⟩))
    · exact .inr (.inr (.inr ⟨.inl hlt, if_neg hs⟩))
  simp only [if_neg hlt]
  cases e with
  | false => exact .inr (.inr (.inr ⟨.inr rfl, if_pos rfl⟩))
  | true => exact .inl (if_neg (by decide))

theorem postRecv_false {e : Bool} (h : (s.postRecv c e).1 = false) :
    (s.postRecv c e).2 = s := by
  rcases postRecv_cases s c e with h' | ⟨-, -, h'⟩ | ⟨-, -, -, h'⟩ | ⟨-, h'⟩
  · rw [h']
  all_goals
    rw [h'] at h
    cases h

/-- Accepting below the maximum: the bit was clear, so the counter is new and
above the initial value; setting the bit keeps the invariant. -/
theorem Fresh.insert_window (hF : Fresh m acc s) (hw : InWindow (c - s.maxCtr))
    (hc : s.contains ((c - s.maxCtr).abs.toNat - 1) = false) :
    c ∉ acc ∧ m < c ∧ Fresh m (c :: acc) (s.insert ((c - s.maxCtr).abs.toNat - 1)) := by
  obtain ⟨hu₁, hu₂, hwrap⟩ := abs_of_window hw
  have hlt := c.isLt
  generalize (c - s.maxCtr).abs.toNat = u at hc hu₁ hu₂ hwrap ⊢
  rw [contains_eq_getLsbD s (by omega)] at hc
  obtain ⟨hmi, hnew⟩ := hF.clear (u - 1) (by omega) hc
  -- a clear bit rules the wrap out: the counter is literally `u` below the maximum
  have hcu : c.toNat + (u - 1) + 1 = s.maxCtr.toNat := by omega
  have hmc : m < c := by
    rw [BitVec.lt_def]
    omega
  refine ⟨fun hmem => hnew c hmem hcu, hmc, hF.le_max, ?_, ?_⟩
  · intro d hd
    rcases List.mem_cons.mp hd with rfl | hd
    · refine ⟨hmc, ?_⟩
      rw [maxCtr_insert, BitVec.le_def]
      omega
    · exact hF.acc_mem d hd
  · intro i hi hclear
    rw [getLsbD_insert s hi, Bool.or_eq_false_iff, decide_eq_false_iff_not] at hclear
    obtain ⟨hb, hne⟩ := hclear
    obtain ⟨hlt', hnew'⟩ := hF.clear i hi hb
    refine ⟨hlt', ?_⟩
    intro d hd
    rcases List.mem_cons.mp hd with rfl | hd
    · rw [maxCtr_insert]
      omega
    · exact hnew' d hd

/-- Moving the maximum forward to `c` keeps everything but the bitmap, whose
clear bits have to be accounted for by the caller. -/
theorem Fresh.ahead (hF : Fresh m acc s) (hlt : s.maxCtr < c) {bm : BitVec 16}
    (hbm : ∀ i < 16, bm.getLsbD i = false →
      m.toNat + i + 1 < c.toNat ∧ ∀ d ∈ acc, d.toNat + i + 1 ≠ c.toNat) :
    c ∉ acc ∧ m < c ∧ Fresh m (c :: acc) ⟨c, bm⟩ := by
  have hle := hF.le_max
  rw [BitVec.lt_def] at hlt
  rw [BitVec.le_def] at hle
  have hmc : m < c := by
    rw [BitVec.lt_def]
    omega
  have hacc : ∀ d ∈ acc, m < d ∧ d.toNat < c.toNat := by
    intro d hd
    obtain ⟨hmd, hdm⟩ := hF.acc_mem d hd
    rw [BitVec.le_def] at hdm
    exact ⟨hmd, by omega⟩
  refine ⟨fun hmem => absurd (hacc c hmem).2 (Nat.lt_irrefl _), hmc, ?_, ?_, ?_⟩
  · rw [BitVec.le_def]
    show m.toNat ≤ c.toNat
    omega
  · intro d hd
    rcases List.mem_cons.mp hd with rfl | hd
    · exact ⟨hmc, BitVec.le_refl d⟩
    · refine ⟨(hacc d hd).1, ?_⟩
      rw [BitVec.le_def]
      exact Nat.le_of_lt (hacc d hd).2
  · intro i hi hclear
    obtain ⟨hlt', hnew⟩ := hbm i hi hclear
    refine ⟨hlt', ?_⟩
    intro d hd
    rcases List.mem_cons.mp hd with rfl | hd
    · show d.toNat + i + 1 ≠ d.toNat
      omega
    · exact hnew d hd

/-- The clear bits of the shifted bitmap: those above the old maximum are new,
the old maximum itself is marked, and the rest were clear before the shift. -/
theorem Fresh.clear_shift (hF : Fresh m acc s) {u : ℕ} (hu : u < 16)
    (hc : c.toNat = s.maxCtr.toNat + u) :
    ∀ i < 16, (insert ⟨c, s.ctrBitmap <<< u⟩ (u - 1)).ctrBitmap.getLsbD i = false →
      m.toNat + i + 1 < c.toNat ∧ ∀ d ∈ acc, d.toNat + i + 1 ≠ c.toNat := by
  intro i hi hclear
  have hle := hF.le_max
  rw [BitVec.le_def] at hle
  rw [getLsbD_insert _ hi, Bool.or_eq_false_iff, decide_eq_false_iff_not] at hclear
  obtain ⟨hb, hne⟩ := hclear
  rw [BitVec.getLsbD_shiftLeft] at hb
  by_cases hiu : i < u
  · refine ⟨by omega, ?_⟩
    intro d hd
    have hdm := (hF.acc_mem d hd).2
    rw [BitVec.le_def] at hdm
    omega
  · have hold : s.ctrBitmap.getLsbD (i - u) = false := by
      simpa [hi, hiu] using hb
    obtain ⟨hlt', hnew⟩ := hF.clear (i - u) (by omega) hold
    refine ⟨by omega, ?_⟩
    intro d hd
    have := hnew d hd
    omega

/-- **One call.** An accepted counter is new, above the initial value, and the
invariant moves on with it. -/
theorem Fresh.postRecv (hF : Fresh m acc s) (h : (s.postRecv c true).1 = true) :
    c ∉ acc ∧ m < c ∧ Fresh m (c :: acc) (s.postRecv c true).2 := by
  rcases postRecv_cases s c true with h' | ⟨hw, hc, h'⟩ | ⟨hlt, hw, hs, h'⟩ | ⟨hlt, h'⟩
  · rw [h'] at h
    cases h
  · rw [h']
    exact hF.insert_window hw hc
  · rw [h']
    exact hF.ahead hlt (hF.clear_shift hs (abs_of_ahead hlt hw hs))
  · rw [h']
    have hlt : s.maxCtr < c := hlt.resolve_right (by decide)
    refine hF.ahead hlt ?_
    intro i hi hclear
    rw [getLsbD_saturated hi] at hclear
    cases hclear

/-- Along a whole run: accepted counters are pairwise distinct, were not
accepted before, and lie above the initial value. -/
theorem recvRun_fresh (ctrs : List (BitVec 32)) :
    ∀ {acc : List (BitVec 32)} {s : RxCtrState}, Fresh m acc s →
      ∀ c, (recvRun s ctrs).count (c, true) ≤ 1 ∧
        ((c, true) ∈ recvRun s ctrs → c ∉ acc ∧ m < c) := by
  induction ctrs with
  | nil =>
    intro acc s _ c
    simp [recvRun]
  | cons d ds ih =>
    intro acc s hF c
    cases hd : (s.postRecv d true).1
    · -- rejected: the state is the old one
      have hF' : Fresh m acc (s.postRecv d true).2 := by
        rw [postRecv_false hd]
        exact hF
      have hne : (d, false) ≠ (c, true) := fun h => by cases congrArg Prod.snd h
      obtain ⟨hcount, hmem⟩ := ih hF' c
      rw [recvRun, hd, List.count_cons_of_ne hne]
      refine ⟨hcount, ?_⟩
      intro h
      rcases List.mem_cons.mp h with h | h
      · exact absurd h.symm hne
      · exact hmem h
    · -- accepted: from here on `d` is in the past
      obtain ⟨hnew, hlt, hF'⟩ := hF.postRecv hd
      obtain ⟨hcount, hmem⟩ := ih hF' c
      rw [recvRun, hd]
      by_cases hcd : d = c
      · subst hcd
        have hout : (d, true) ∉ recvRun (s.postRecv d true).2 ds := fun h =>
          (hmem h).1 (List.mem_cons_self ..)
        rw [List.count_cons_self, List.count_eq_zero.mpr hout]
        exact ⟨le_refl _, fun _ => ⟨hnew, hlt⟩⟩
      · have hne : (d, true) ≠ (c, true) := fun h => hcd (congrArg Prod.fst h)
        rw [List.count_cons_of_ne hne]
        refine ⟨hcount, ?_⟩
        intro h
        rcases List.mem_cons.mp h with h | h
        · exact absurd h.symm hne
        · obtain ⟨hout, hmc⟩ := hmem h
          exact ⟨fun h' => hout (List.mem_cons_of_mem _ h'), hmc⟩

/-- **Anti-replay.** Over any run of encrypted receives from a fresh state, a
counter is accepted at most once, only counters above the initial value are
accepted, and a rejected counter leaves the state as it was. -/
theorem recvRun_anti_replay (m : BitVec 32) (ctrs : List (BitVec 32)) :
    (∀ c, (recvRun (new m) ctrs).count (c, true) ≤ 1) ∧
    (∀ c, (c, true) ∈ recvRun (new m) ctrs → m < c) ∧
    ∀ (s : RxCtrState) (c : BitVec 32),
      (s.postRecv c true).1 = false → (s.postRecv c true).2 = s :=
  ⟨fun c => (recvRun_fresh ctrs (fresh_new m) c).1,
    fun c hc => ((recvRun_fresh ctrs (fresh_new m) c).2 hc).2,
    fun _ _ h => postRecv_false h⟩

end RxCtrState

end RsMatter
