import RsMatter.Dedup
import RsMatter.Machine
import RsMatter.Panic
import RsMatter.Basic

/-!
# Receive counters: what the window still takes, and its arithmetic (`transport/dedup.rs`)

A counter just below the maximum that has not come yet is new, and the bitmap is there to tell it from
the ones that have come. It does, with one exception: a counter that jumps ahead of the whole window marks
all of the new window as seen. The other matter here is the difference of two counters, which are read as
signed before they are subtracted.
-/

namespace RsMatter

namespace RxCtrState

/-! ## Runs -/

/-- The state after a run of encrypted receives. -/
def recvAll (s : RxCtrState) : List (BitVec 32) → RxCtrState
  | [] => s
  | c :: cs => recvAll (s.postRecv c true).2 cs

/-- The greatest of the counters that have come, and the one there was before. -/
def highest (h : ℕ) : List (BitVec 32) → ℕ
  | [] => h
  | c :: cs => highest (max h c.toNat) cs

/-- A counter above `x` has come ahead of the whole window. -/
def Overshot (h : ℕ) (x : BitVec 32) : List (BitVec 32) → Prop
  | [] => False
  | c :: cs => (h + msgRxStateBitmapLen ≤ c.toNat ∧ x.toNat < c.toNat) ∨ Overshot (max h c.toNat) x cs

instance decidableOvershot (h : ℕ) (x : BitVec 32) : (cs : List (BitVec 32)) → Decidable (Overshot h x cs)
  | [] => .isFalse id
  | c :: cs =>
    have : Decidable (Overshot (max h c.toNat) x cs) := decidableOvershot _ x cs
    inferInstanceAs (Decidable (_ ∨ _))

theorem recvAll_append (s : RxCtrState) (cs ds : List (BitVec 32)) :
    recvAll s (cs ++ ds) = recvAll (recvAll s cs) ds := by
  induction cs generalizing s with
  | nil => rfl
  | cons c cs ih => exact ih _

theorem recvRun_append (s : RxCtrState) (cs ds : List (BitVec 32)) :
    recvRun s (cs ++ ds) = recvRun s cs ++ recvRun (recvAll s cs) ds := by
  induction cs generalizing s with
  | nil => rfl
  | cons c cs ih => exact congrArg ((c, (s.postRecv c true).1) :: ·) (ih _)

theorem highest_append (h : ℕ) (cs ds : List (BitVec 32)) :
    highest h (cs ++ ds) = highest (highest h cs) ds := by
  induction cs generalizing h with
  | nil => rfl
  | cons c cs ih => exact ih _

theorem overshot_append (h : ℕ) (x : BitVec 32) (cs ds : List (BitVec 32)) :
    Overshot h x (cs ++ ds) ↔ Overshot h x cs ∨ Overshot (highest h cs) x ds := by
  induction cs generalizing h with
  | nil => exact (or_iff_right id).symm
  | cons c cs ih =>
    simp only [List.cons_append, Overshot, highest]
    rw [ih, or_assoc]

theorem overshot_snoc (h : ℕ) (x c : BitVec 32) (cs : List (BitVec 32)) :
    Overshot h x (cs ++ [c]) ↔ Overshot h x cs ∨
      (highest h cs + msgRxStateBitmapLen ≤ c.toNat ∧ x.toNat < c.toNat) := by
  rw [overshot_append]
  simp only [Overshot, or_false]

theorem le_highest (h : ℕ) (cs : List (BitVec 32)) : h ≤ highest h cs := by
  induction cs generalizing h with
  | nil => exact le_rfl
  | cons c cs ih => exact (Nat.le_max_left h _).trans (ih _)

theorem lt_highest_of_overshot {h : ℕ} {x : BitVec 32} {cs : List (BitVec 32)} (hx : Overshot h x cs) :
    x.toNat < highest h cs := by
  induction cs generalizing h with
  | nil => exact hx.elim
  | cons c cs ih =>
    rcases hx with ⟨-, hlt⟩ | hx
    · exact hlt.trans_le ((Nat.le_max_right h _).trans (le_highest _ cs))
    · exact ih hx

/-! ## One receive in the lower half

Below `2 ^ 31` the difference does not wrap, and the five cases of `postRecv` are told apart by the
counters themselves. -/

section LowerHalf

variable {s : RxCtrState} {c m : BitVec 32}

theorem abs_of_lowerHalf (hc : c.toNat < 2 ^ 31) (hm : m.toNat < 2 ^ 31) :
    (c - m).abs.toNat = if c.toNat < m.toNat then m.toNat - c.toNat else c.toNat - m.toNat := by
  rw [BitVec.toNat_abs, BitVec.msb_eq_decide, BitVec.toNat_sub]
  simp only [decide_eq_true_eq]
  split <;> split <;> omega

theorem inWindow_iff_of_lowerHalf (hc : c.toNat < 2 ^ 31) (hm : m.toNat < 2 ^ 31) :
    InWindow (c - m) ↔ c.toNat < m.toNat ∧ m.toNat ≤ c.toNat + 16 := by
  rw [InWindow, msgRxStateBitmapLen, BitVec.toInt_eq_toNat_cond, BitVec.toNat_sub]
  split <;> omega

theorem postRecv_inside (hc : c.toNat < 2 ^ 31) (hm : s.maxCtr.toNat < 2 ^ 31) {i : ℕ} (hi : i < 16)
    (hci : c.toNat + i + 1 = s.maxCtr.toNat) :
    s.postRecv c true = if s.ctrBitmap.getLsbD i = true then (false, s) else (true, s.insert i) := by
  have hne : c ≠ s.maxCtr := fun h => by
    rw [h] at hci
    omega
  have habs : (c - s.maxCtr).abs.toNat - 1 = i := by
    rw [abs_of_lowerHalf hc hm, if_pos (by omega)]
    omega
  rw [postRecv, if_neg hne, if_pos ((inWindow_iff_of_lowerHalf hc hm).mpr (by omega)), habs]
  dsimp only
  rw [contains_eq_getLsbD s hi]

theorem postRecv_refused (hc : c.toNat < 2 ^ 31) (hm : s.maxCtr.toNat < 2 ^ 31)
    (h : c.toNat = s.maxCtr.toNat ∨ c.toNat + 16 < s.maxCtr.toNat) : s.postRecv c true = (false, s) := by
  rw [postRecv]
  rcases h with h | h
  · exact if_pos (BitVec.eq_of_toNat_eq h)
  · have hne : c ≠ s.maxCtr := fun heq => by
      rw [heq] at h
      omega
    have hlt : ¬ s.maxCtr < c := by
      rw [BitVec.lt_def]
      omega
    rw [if_neg hne, if_neg (fun hw => by have := (inWindow_iff_of_lowerHalf hc hm).mp hw; omega),
      if_neg hlt]
    rfl

theorem postRecv_near (hc : c.toNat < 2 ^ 31) (hm : s.maxCtr.toNat < 2 ^ 31) {u : ℕ} (hu : u < 16)
    (hu₀ : 0 < u) (hcu : c.toNat = s.maxCtr.toNat + u) :
    s.postRecv c true = (true, insert ⟨c, s.ctrBitmap <<< u⟩ (u - 1)) := by
  have hne : c ≠ s.maxCtr := fun h => by
    rw [h] at hcu
    omega
  have hlt : s.maxCtr < c := by
    rw [BitVec.lt_def]
    omega
  have habs : (c - s.maxCtr).abs.toNat = u := by
    rw [abs_of_lowerHalf hc hm, if_neg (by omega)]
    omega
  rw [postRecv, if_neg hne, if_neg (fun hw => by have := (inWindow_iff_of_lowerHalf hc hm).mp hw; omega),
    if_pos hlt, habs, if_pos (by rw [msgRxStateBitmapLen]; exact hu)]

theorem postRecv_far (hc : c.toNat < 2 ^ 31) (hm : s.maxCtr.toNat < 2 ^ 31)
    (hfar : s.maxCtr.toNat + 16 ≤ c.toNat) : s.postRecv c true = (true, ⟨c, 0xffff#16⟩) := by
  have hne : c ≠ s.maxCtr := fun h => by
    rw [h] at hfar
    omega
  have hlt : s.maxCtr < c := by
    rw [BitVec.lt_def]
    omega
  have habs : ¬ (c - s.maxCtr).abs.toNat < msgRxStateBitmapLen := by
    rw [abs_of_lowerHalf hc hm, if_neg (by omega), msgRxStateBitmapLen]
    omega
  rw [postRecv, if_neg hne, if_neg (fun hw => by have := (inWindow_iff_of_lowerHalf hc hm).mp hw; omega),
    if_pos hlt, if_neg habs]

end LowerHalf

/-! ## What a bit means -/

def Accepted (m : BitVec 32) (cs : List (BitVec 32)) (x : BitVec 32) : Prop :=
  (x, true) ∈ recvRun (new m) cs

instance (m : BitVec 32) (cs : List (BitVec 32)) (x : BitVec 32) : Decidable (Accepted m cs x) :=
  inferInstanceAs (Decidable ((x, true) ∈ recvRun (new m) cs))

/-- What the state knows of the run: the maximum is the highest counter, and a set bit of a counter above
the initial one stands for a counter that was accepted, or that the maximum has overshot. -/
structure Exact (m : BitVec 32) (cs : List (BitVec 32)) (s : RxCtrState) : Prop where
  max_eq : s.maxCtr.toNat = highest m.toNat cs
  top : m.toNat < s.maxCtr.toNat → Accepted m cs s.maxCtr
  covered : ∀ x, Accepted m cs x → x.toNat ≤ s.maxCtr.toNat
  bit : ∀ i < 16, ∀ x : BitVec 32, x.toNat + i + 1 = s.maxCtr.toNat → m.toNat < x.toNat →
    (s.ctrBitmap.getLsbD i = true ↔ Accepted m cs x ∨ Overshot m.toNat x cs)

theorem exact_new (m : BitVec 32) : Exact m [] (new m) where
  max_eq := rfl
  top h := absurd h (lt_irrefl _)
  covered x h := absurd h List.not_mem_nil
  bit i _ x hx hm := by
    change _ = m.toNat at hx
    omega

section Step

variable {m c x : BitVec 32} {cs : List (BitVec 32)} {s : RxCtrState}

theorem accepted_snoc (hs : recvAll (new m) cs = s) :
    Accepted m (cs ++ [c]) x ↔ Accepted m cs x ∨ (x = c ∧ (s.postRecv c true).1 = true) := by
  rw [Accepted, recvRun_append, hs, List.mem_append]
  simp only [recvRun, List.mem_singleton, Prod.mk.injEq, Accepted]
  exact or_congr_right (and_congr_right fun _ => eq_comm)

theorem overshot_snoc_of_le (hE : Exact m cs s) (hle : c.toNat ≤ s.maxCtr.toNat) :
    Overshot m.toNat x (cs ++ [c]) ↔ Overshot m.toNat x cs := by
  rw [overshot_snoc, or_iff_left]
  rintro ⟨hfar, -⟩
  rw [← hE.max_eq, msgRxStateBitmapLen] at hfar
  omega

theorem highest_snoc_of_le (hE : Exact m cs s) (hle : c.toNat ≤ s.maxCtr.toNat) :
    highest m.toNat (cs ++ [c]) = s.maxCtr.toNat := by
  rw [highest_append, ← hE.max_eq]
  exact Nat.max_eq_left hle

theorem highest_snoc_of_lt (hE : Exact m cs s) (hlt : s.maxCtr.toNat < c.toNat) :
    highest m.toNat (cs ++ [c]) = c.toNat := by
  rw [highest_append, ← hE.max_eq]
  exact Nat.max_eq_right hlt.le

theorem Exact.refused (hE : Exact m cs s) (hs : recvAll (new m) cs = s) (hle : c.toNat ≤ s.maxCtr.toNat)
    (h : s.postRecv c true = (false, s)) : Exact m (cs ++ [c]) s := by
  have hacc (x : BitVec 32) : Accepted m (cs ++ [c]) x ↔ Accepted m cs x := by
    rw [accepted_snoc hs, h]
    simp
  refine ⟨(hE.max_eq.trans ?_), fun hlt => (hacc _).mpr (hE.top hlt), fun x hx => hE.covered x ((hacc x).mp hx),
    fun i hi x hx hm => ?_⟩
  · rw [highest_snoc_of_le hE hle, hE.max_eq]
  · rw [hE.bit i hi x hx hm, hacc, overshot_snoc_of_le hE hle]

theorem Exact.inside (hE : Exact m cs s) (hs : recvAll (new m) cs = s) {i : ℕ} (hi : i < 16)
    (hci : c.toNat + i + 1 = s.maxCtr.toNat) (h : s.postRecv c true = (true, s.insert i)) :
    Exact m (cs ++ [c]) (s.insert i) := by
  have hacc (x : BitVec 32) : Accepted m (cs ++ [c]) x ↔ Accepted m cs x ∨ x = c := by
    rw [accepted_snoc hs, h]
    simp
  refine ⟨?_, fun hlt => (hacc _).mpr (.inl (hE.top hlt)), fun x hx => ?_, fun j hj x hx hm => ?_⟩
  · rw [highest_snoc_of_le hE (by omega)]
    rfl
  · rw [maxCtr_insert]
    rcases (hacc x).mp hx with hx | rfl
    · exact hE.covered x hx
    · omega
  · rw [maxCtr_insert] at hx
    rw [getLsbD_insert s hj, Bool.or_eq_true, decide_eq_true_eq, hE.bit j hj x hx hm, hacc,
      overshot_snoc_of_le hE (by omega)]
    have hxc : j = i ↔ x = c :=
      ⟨fun hji => BitVec.eq_of_toNat_eq (by omega), fun hxc => by rw [hxc] at hx; omega⟩
    rw [hxc]
    tauto

/-- A counter ahead of the maximum is accepted and is the maximum from then on. -/
theorem Exact.ahead (hE : Exact m cs s) (hs : recvAll (new m) cs = s) (hlt : s.maxCtr.toNat < c.toNat)
    {bm : BitVec 16} (h : s.postRecv c true = (true, ⟨c, bm⟩))
    (hbm : ∀ i < 16, ∀ x : BitVec 32, x.toNat + i + 1 = c.toNat → m.toNat < x.toNat →
      (bm.getLsbD i = true ↔ Accepted m cs x ∨ Overshot m.toNat x (cs ++ [c]))) :
    Exact m (cs ++ [c]) ⟨c, bm⟩ := by
  have hacc (x : BitVec 32) : Accepted m (cs ++ [c]) x ↔ Accepted m cs x ∨ x = c := by
    rw [accepted_snoc hs, h]
    simp
  refine ⟨(highest_snoc_of_lt hE hlt).symm, fun _ => (hacc c).mpr (.inr rfl), fun x hx => ?_,
    fun i hi x hx hm => ?_⟩
  · rcases (hacc x).mp hx with hx | rfl
    · exact (hE.covered x hx).trans hlt.le
    · exact le_rfl
  · change x.toNat + i + 1 = c.toNat at hx
    have hxc : x ≠ c := fun hxc => by
      rw [hxc] at hx
      omega
    rw [hbm i hi x hx hm, hacc, or_iff_left hxc]

/-- The shifted bitmap: the counters between the old maximum and the new one have not come, the old
maximum has, and the others keep their bits. -/
theorem Exact.bit_shift (hE : Exact m cs s) {u : ℕ} (hu : u < 16) (hu₀ : 0 < u)
    (hcu : c.toNat = s.maxCtr.toNat + u) {i : ℕ} (hi : i < 16) (hx : x.toNat + i + 1 = c.toNat)
    (hm : m.toNat < x.toNat) :
    (insert ⟨c, s.ctrBitmap <<< u⟩ (u - 1)).ctrBitmap.getLsbD i = true ↔
      Accepted m cs x ∨ Overshot m.toNat x (cs ++ [c]) := by
  have hover : Overshot m.toNat x (cs ++ [c]) ↔ Overshot m.toNat x cs := by
    rw [overshot_snoc, or_iff_left]
    rintro ⟨hfar, -⟩
    rw [← hE.max_eq, msgRxStateBitmapLen] at hfar
    omega
  rw [hover, getLsbD_insert _ hi, Bool.or_eq_true, decide_eq_true_eq, BitVec.getLsbD_shiftLeft]
  rcases Nat.lt_trichotomy (i + 1) u with hiu | hiu | hiu
  · -- above the old maximum
    have hgt : s.maxCtr.toNat < x.toNat := by omega
    have hnot : ¬ (Accepted m cs x ∨ Overshot m.toNat x cs) := by
      rintro (hacc | hover)
      · exact absurd (hE.covered x hacc) (by omega)
      · have := lt_highest_of_overshot hover
        rw [← hE.max_eq] at this
        omega
    have hclear : ¬ ((decide (i < 16) && !decide (i < u) && s.ctrBitmap.getLsbD (i - u)) = true ∨ i = u - 1) := by
      simp [show i < u by omega, show i ≠ u - 1 by omega]
    exact iff_of_false hclear hnot
  · -- the old maximum
    obtain rfl : x = s.maxCtr := BitVec.eq_of_toNat_eq (by omega)
    exact iff_of_true (.inr (by omega)) (.inl (hE.top hm))
  · have hbit := hE.bit (i - u) (by omega) x (by omega) hm
    rw [← hbit]
    simp [hi, show ¬ i < u by omega, show i ≠ u - 1 by omega]

/-- **One receive.** -/
theorem Exact.step (hE : Exact m cs s) (hs : recvAll (new m) cs = s) (hc : c.toNat < 2 ^ 31)
    (hmax : s.maxCtr.toNat < 2 ^ 31) : Exact m (cs ++ [c]) (s.postRecv c true).2 := by
  rcases Nat.lt_trichotomy c.toNat s.maxCtr.toNat with hlt | heq | hgt
  · by_cases hin : s.maxCtr.toNat ≤ c.toNat + 16
    · -- inside the window
      have hi : s.maxCtr.toNat - c.toNat - 1 < 16 := by omega
      have hci : c.toNat + (s.maxCtr.toNat - c.toNat - 1) + 1 = s.maxCtr.toNat := by omega
      have h := postRecv_inside hc hmax hi hci
      split_ifs at h with hb
      · rw [h]
        exact hE.refused hs hlt.le h
      · rw [h]
        exact hE.inside hs hi hci h
    · have h := postRecv_refused hc hmax (.inr (by omega))
      rw [h]
      exact hE.refused hs hlt.le h
  · have h := postRecv_refused hc hmax (.inl heq)
    rw [h]
    exact hE.refused hs heq.le h
  · by_cases hnear : c.toNat < s.maxCtr.toNat + 16
    · have hcu : c.toNat = s.maxCtr.toNat + (c.toNat - s.maxCtr.toNat) := by omega
      have h := postRecv_near hc hmax (u := c.toNat - s.maxCtr.toNat) (by omega) (by omega) hcu
      rw [h]
      exact hE.ahead hs hgt h fun i hi x hx hm => hE.bit_shift (by omega) (by omega) hcu hi hx hm
    · have h := postRecv_far hc hmax (by omega)
      rw [h]
      refine hE.ahead hs hgt h fun i hi x hx hm => iff_of_true (getLsbD_saturated hi) (.inr ?_)
      -- the maximum has overshot everything in the new window
      refine (overshot_snoc _ _ _ _).mpr (.inr ⟨?_, by omega⟩)
      rw [← hE.max_eq, msgRxStateBitmapLen]
      omega

theorem highest_lt {h : ℕ} (hh : h < 2 ^ 31) (hcs : ∀ d ∈ cs, d.toNat < 2 ^ 31) :
    highest h cs < 2 ^ 31 := by
  induction cs generalizing h with
  | nil => exact hh
  | cons c cs ih =>
    exact ih (Nat.max_lt.mpr ⟨hh, hcs c List.mem_cons_self⟩) fun d hd => hcs d (List.mem_cons_of_mem _ hd)

/-- **Every run.** By induction on the run, the last receive last. -/
theorem exact_recvAll (hm : m.toNat < 2 ^ 31) (hcs : ∀ d ∈ cs, d.toNat < 2 ^ 31) :
    Exact m cs (recvAll (new m) cs) := by
  induction cs using List.reverseRecOn with
  | nil => exact exact_new m
  | append_singleton cs c ih =>
    have hcs' : ∀ d ∈ cs, d.toNat < 2 ^ 31 := fun d hd => hcs d (List.mem_append_left _ hd)
    have hE := ih hcs'
    have hmax : (recvAll (new m) cs).maxCtr.toNat < 2 ^ 31 := by
      rw [hE.max_eq]
      exact highest_lt hm hcs'
    rw [recvAll_append]
    exact hE.step rfl (hcs c (List.mem_append_right _ List.mem_cons_self)) hmax

end Step

/-- **No false duplicates.** A counter of the window that is above the initial one and has not been
accepted is accepted, unless the maximum jumped over it from below the window. -/
theorem accepted_iff_not_overshot (m : BitVec 32) (cs : List (BitVec 32)) (c : BitVec 32)
    (hm : m.toNat < 2 ^ 31) (hcs : ∀ d ∈ cs, d.toNat < 2 ^ 31) (hnew : ¬ Accepted m cs c)
    (hmc : m.toNat < c.toNat) (hwindow : (recvAll (new m) cs).maxCtr.toNat ≤ c.toNat + 16)
    (hbelow : c.toNat < (recvAll (new m) cs).maxCtr.toNat) :
    ((recvAll (new m) cs).postRecv c true).1 = true ↔ ¬ Overshot m.toNat c cs := by
  have hE := exact_recvAll hm hcs
  have hmax : (recvAll (new m) cs).maxCtr.toNat < 2 ^ 31 := by
    rw [hE.max_eq]
    exact highest_lt hm hcs
  have hci : c.toNat + ((recvAll (new m) cs).maxCtr.toNat - c.toNat - 1) + 1 =
      (recvAll (new m) cs).maxCtr.toNat := by omega
  have hbit := hE.bit _ (by omega) c hci hmc
  rw [or_iff_right hnew] at hbit
  rw [postRecv_inside (by omega) hmax (by omega) hci, ← hbit]
  split_ifs with hb <;> simp [hb]

/-- A gap of 10 counters leaves the counters in it acceptable. -/
theorem accepted_iff_not_overshot_gap :
    ((recvAll (new 100) [110]).postRecv 105 true).1 = true ↔ ¬ Overshot 100 105 [110] :=
  have hnew : ¬ Accepted 100 [110] 105 := by decide
  accepted_iff_not_overshot 100 [110] 105 (by decide) (List.forall_mem_singleton.mpr (by decide)) hnew
    (by decide) (by decide) (by decide)

/-- A gap of 20 counters does not: the counter before the maximum has never come, and it is refused. -/
theorem fresh_refused_after_jump :
    ¬ ∀ (m : BitVec 32) (cs : List (BitVec 32)) (c : BitVec 32), m.toNat < 2 ^ 31 →
      (∀ d ∈ cs, d.toNat < 2 ^ 31) → ¬ Accepted m cs c → m.toNat < c.toNat →
      (recvAll (new m) cs).maxCtr.toNat ≤ c.toNat + 16 → c.toNat < (recvAll (new m) cs).maxCtr.toNat →
      ((recvAll (new m) cs).postRecv c true).1 = true := by
  intro h
  have hrefused : ((recvAll (new 100) [120]).postRecv 119 true).1 = false := by decide
  have hnew : ¬ Accepted 100 [120] 119 := by decide
  have haccepted := h 100 [120] 119 (by decide) (List.forall_mem_singleton.mpr (by decide)) hnew (by decide)
    (by decide) (by decide)
  rw [hrefused] at haccepted
  cases haccepted

/-! ## Arithmetic with overflow checks -/

/-- The subtraction of two `i32`. -/
def subI32 (a b : BitVec 32) : Except (Stop ErrorCode) (BitVec 32) :=
  if BitVec.ssubOverflow a b then .error .panic else .ok (a - b)

/-- The subtraction of two `u32`. -/
def subU32 (a b : ℕ) : Except (Stop ErrorCode) ℕ := Stop.sub a b

/-- The shift of a `u16`. -/
def shlU16 (a : BitVec 16) (n : ℕ) : Except (Stop ErrorCode) (BitVec 16) :=
  if n < 16 then .ok (a <<< n) else .error .panic

/-- `contains`, with overflow checks. -/
def containsChecked (s : RxCtrState) (bitNumber : ℕ) : Except (Stop ErrorCode) Bool := do
  let bit ← shlU16 1#16 bitNumber
  return s.ctrBitmap &&& bit != 0#16

/-- `insert`, with overflow checks. -/
def insertChecked (s : RxCtrState) (bitNumber : ℕ) : Except (Stop ErrorCode) RxCtrState := do
  let bit ← shlU16 1#16 bitNumber
  return { s with ctrBitmap := s.ctrBitmap ||| bit }

/-- `post_recv`, with overflow checks. -/
def postRecvChecked (s : RxCtrState) (msgCtr : BitVec 32) (isEncrypted : Bool) :
    Except (Stop ErrorCode) (Bool × RxCtrState) := do
  let idiff ← subI32 msgCtr s.maxCtr
  let udiff := idiff.abs.toNat
  if msgCtr = s.maxCtr then
    return (false, s)
  else if InWindow idiff then do
    let index ← subU32 udiff 1
    let seen ← s.containsChecked index
    if seen then return (false, s)
    else do
      let s ← s.insertChecked index
      return (true, s)
  else if s.maxCtr < msgCtr then
    if udiff < msgRxStateBitmapLen then do
      let ctrBitmap ← shlU16 s.ctrBitmap udiff
      let index ← subU32 udiff 1
      let s ← insertChecked ⟨msgCtr, ctrBitmap⟩ index
      return (true, s)
    else return (true, { maxCtr := msgCtr, ctrBitmap := 0xffff#16 })
  else if isEncrypted = false then
    return (true, { maxCtr := msgCtr, ctrBitmap := 0xffff#16 })
  else
    return (false, s)

section Checked

variable {s : RxCtrState} {c : BitVec 32}

theorem containsChecked_eq {i : ℕ} (hi : i < 16) : s.containsChecked i = .ok (s.contains i) := by
  rw [containsChecked, shlU16, if_pos hi]
  rfl

theorem insertChecked_eq {i : ℕ} (hi : i < 16) : s.insertChecked i = .ok (s.insert i) := by
  rw [insertChecked, shlU16, if_pos hi]
  rfl

theorem one_le_abs {m : BitVec 32} (hne : c ≠ m) : 1 ≤ (c - m).abs.toNat := by
  refine Nat.one_le_iff_ne_zero.mpr fun hzero => hne (BitVec.eq_of_toNat_eq ?_)
  rw [BitVec.toNat_abs, BitVec.msb_eq_decide, BitVec.toNat_sub] at hzero
  have hc := c.isLt
  have hm := m.isLt
  simp only [decide_eq_true_eq] at hzero
  split at hzero <;> omega

/-- **After the subtraction nothing can overflow.** -/
theorem postRecvChecked_eq (e : Bool) (h : ¬ BitVec.ssubOverflow c s.maxCtr) :
    s.postRecvChecked c e = .ok (s.postRecv c e) := by
  rw [postRecvChecked, postRecv, subI32, if_neg h]
  change (if _ then _ else _) = _
  by_cases heq : c = s.maxCtr
  · rw [if_pos heq, if_pos heq]
    rfl
  rw [if_neg heq, if_neg heq]
  have hone := one_le_abs heq
  by_cases hw : InWindow (c - s.maxCtr)
  · obtain ⟨-, hle, -⟩ := abs_of_window hw
    rw [if_pos hw, if_pos hw, subU32, Stop.sub_ok hone]
    change containsChecked s _ >>= _ = _
    rw [containsChecked_eq (by omega)]
    dsimp only
    cases hcont : s.contains ((c - s.maxCtr).abs.toNat - 1)
    · change insertChecked s _ >>= _ = _
      rw [insertChecked_eq (by omega)]
      rfl
    · rfl
  rw [if_neg hw, if_neg hw]
  by_cases hlt : s.maxCtr < c
  · rw [if_pos hlt, if_pos hlt]
    by_cases hnear : (c - s.maxCtr).abs.toNat < msgRxStateBitmapLen
    · have hnear' : (c - s.maxCtr).abs.toNat < 16 := hnear
      rw [if_pos hnear, if_pos hnear, shlU16, if_pos hnear']
      change subU32 _ _ >>= _ = _
      rw [subU32, Stop.sub_ok hone]
      change insertChecked _ _ >>= _ = _
      rw [insertChecked_eq (by omega)]
      rfl
    · rw [if_neg hnear, if_neg hnear]
      rfl
  · rw [if_neg hlt, if_neg hlt]
    cases e <;> rfl

end Checked

/-- The two counters are in the same half of the range, or apart by more than a half. -/
def Apart (max c : ℕ) : Prop :=
  (c < 2 ^ 31 ↔ max < 2 ^ 31) ∨ (c < max ∧ 2 ^ 31 < max - c) ∨ (max < c ∧ 2 ^ 31 ≤ c - max)

instance (max c : ℕ) : Decidable (Apart max c) := inferInstanceAs (Decidable (_ ∨ _))

theorem not_ssubOverflow_iff (c m : BitVec 32) : ¬ BitVec.ssubOverflow c m ↔ Apart m.toNat c.toNat := by
  have hc := c.isLt
  have hm := m.isLt
  rw [BitVec.ssubOverflow, Apart]
  simp only [BitVec.toInt_eq_toNat_cond, Bool.or_eq_true, decide_eq_true_eq]
  split <;> split <;> omega

/-- The receives of one state, with overflow checks. -/
def receiver : Machine RxCtrState (BitVec 32 × Bool) where
  step s a := match s.postRecvChecked a.1 a.2 with
    | .ok out => some out.2
    | .error _ => none

theorem receiver_step_of_apart {s : RxCtrState} {a : BitVec 32 × Bool}
    (h : Apart s.maxCtr.toNat a.1.toNat) : receiver.step s a = some (s.postRecv a.1 a.2).2 := by
  change (match s.postRecvChecked a.1 a.2 with | .ok out => some out.2 | .error _ => none) = _
  rw [postRecvChecked_eq a.2 ((not_ssubOverflow_iff a.1 s.maxCtr).mpr h)]

theorem receiver_step_of_not_apart {s : RxCtrState} {a : BitVec 32 × Bool}
    (h : ¬ Apart s.maxCtr.toNat a.1.toNat) : receiver.step s a = none := by
  change (match s.postRecvChecked a.1 a.2 with | .ok out => some out.2 | .error _ => none) = _
  have hover : BitVec.ssubOverflow a.1 s.maxCtr = true := by
    by_contra hno
    exact h ((not_ssubOverflow_iff a.1 s.maxCtr).mp hno)
  rw [postRecvChecked, subI32, if_pos hover]
  rfl

/-- **Counter arithmetic.** A run of receives goes through with overflow checks exactly if every counter
is apart from the maximum it meets; and then it is the run without the checks. -/
theorem checked_run_iff (m : BitVec 32) (as : List (BitVec 32 × Bool)) :
    ((∃ t, receiver.run (new m) as = some t) ↔
      receiver.Meets (fun s a => Apart s.maxCtr.toNat a.1.toNat) (new m) as) ∧
    ∀ t, receiver.run (new m) as = some t → t = as.foldl (fun s a => (s.postRecv a.1 a.2).2) (new m) := by
  generalize new m = s
  induction as generalizing s with
  | nil => exact ⟨iff_of_true ⟨s, rfl⟩ trivial, fun t ht => (Option.some.inj ht).symm⟩
  | cons a as ih =>
    rw [Machine.run_cons, List.foldl_cons]
    by_cases h : Apart s.maxCtr.toNat a.1.toNat
    · rw [receiver_step_of_apart h, Machine.meets_cons (receiver_step_of_apart h), and_iff_right h]
      exact ih _
    · rw [receiver_step_of_not_apart h]
      refine ⟨iff_of_false ?_ fun hm => h hm.1, nofun⟩
      rintro ⟨t, ht⟩
      cases ht

/-- The first half of the range meets the second one. -/
theorem checked_run_overflows :
    ¬ ∀ (m : BitVec 32) (as : List (BitVec 32 × Bool)), ∃ t, receiver.run (new m) as = some t := by
  intro h
  obtain ⟨t, ht⟩ := h 0x80000000 [(0x7fffffff, true)]
  have hnone : receiver.run (new 0x80000000) [(0x7fffffff, true)] = none := by decide
  rw [hnone] at ht
  cases ht

end RxCtrState

end RsMatter
