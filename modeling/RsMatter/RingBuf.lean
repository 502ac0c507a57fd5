import Mathlib.Data.List.Basic
import Mathlib.Data.List.DropRight
import Mathlib.Data.Nat.Basic
import Mathlib.Order.Basic
import Mathlib.Tactic.SplitIfs

/-!
# Ring buffers (`utils/storage/ringbuf.rs`)

A ring buffer keeps its bytes in an array of a fixed size, from one index to another
and over the end of the array. `RingBuf.contents` are its bytes in order; what goes in
at the end (`RingBuf.contents_push`) comes out at the front (`RingBuf.pop_eq`).
-/

namespace RsMatter

/-- A ring buffer of capacity `N`. -/
structure RingBuf (N : ℕ) where
  /-- the array; it has no elements before the first `push` and `N` afterwards -/
  buf : List UInt8
  /-- where the bytes start -/
  start : ℕ
  /-- where they end -/
  stop : ℕ
  /-- are there any? -/
  nonEmpty : Bool
  deriving DecidableEq

namespace RingBuf

variable {N : ℕ}

def new : RingBuf N := ⟨[], 0, 0, false⟩

def clear (rb : RingBuf N) : RingBuf N := { rb with start := 0, stop := 0, nonEmpty := false }

def len (rb : RingBuf N) : ℕ :=
  if rb.nonEmpty = false then 0
  else if rb.start < rb.stop then rb.stop - rb.start
  else rb.buf.length + rb.stop - rb.start

def free (rb : RingBuf N) : ℕ := N - rb.len

/-- An index at the end of the array is one at its start. -/
def wrap (rb : RingBuf N) : RingBuf N :=
  { rb with
    start := if rb.start = rb.buf.length then 0 else rb.start
    stop := if rb.stop = rb.buf.length then 0 else rb.stop }

def resizeDefault (rb : RingBuf N) : RingBuf N :=
  { rb with buf := rb.buf ++ List.replicate (N - rb.buf.length) 0 }

/-- One turn of `push`: copy bytes up to the end of the array. The oldest bytes are dropped
where there is no room for them. -/
def pushChunk (rb : RingBuf N) (chunk : List UInt8) : RingBuf N :=
  let rb' : RingBuf N :=
    { rb with
      buf := rb.buf.take rb.stop ++ chunk ++ rb.buf.drop (rb.stop + chunk.length)
      start :=
        if rb.nonEmpty = true ∧ rb.stop ≤ rb.start ∧ rb.start < rb.stop + chunk.length then
          rb.stop + chunk.length
        else rb.start
      stop := rb.stop + chunk.length }
  { rb'.wrap with nonEmpty := true }

/-- The loop of `push`. Each turn copies at least one byte. -/
def pushLoop : ℕ → List UInt8 → RingBuf N → RingBuf N
  | 0, _, rb => rb
  | fuel + 1, data, rb =>
    if data = [] then rb
    else
      let len := min (rb.buf.length - rb.stop) data.length
      pushLoop fuel (data.drop len) (rb.pushChunk (data.take len))

def push (rb : RingBuf N) (data : List UInt8) : RingBuf N := pushLoop data.length data rb.resizeDefault

def pushByte (rb : RingBuf N) (data : UInt8) : RingBuf N :=
  let rb := rb.resizeDefault
  let rb' : RingBuf N :=
    { rb with
      buf := rb.buf.set rb.stop data
      start := if rb.nonEmpty = true ∧ rb.start = rb.stop then rb.stop + 1 else rb.start
      stop := rb.stop + 1 }
  { rb'.wrap with nonEmpty := true }

/-- How many bytes one turn of `pop` copies: at most `want`, and not over the end of the
array. -/
def popLen (rb : RingBuf N) (want : ℕ) : ℕ :=
  min ((if rb.start < rb.stop then rb.stop else rb.buf.length) - rb.start) want

/-- One turn of `pop`. -/
def popChunk (rb : RingBuf N) (len : ℕ) : RingBuf N :=
  let rb' : RingBuf N := { rb with start := rb.start + len }.wrap
  { rb' with nonEmpty := if rb'.start = rb'.stop then false else rb'.nonEmpty }

/-- The loop of `pop`. Each turn copies at least one byte. -/
def popLoop : ℕ → ℕ → RingBuf N → RingBuf N × List UInt8
  | 0, _, rb => (rb, [])
  | fuel + 1, want, rb =>
    if want = 0 ∨ rb.nonEmpty = false then (rb, [])
    else
      let len := rb.popLen want
      let (rb', out) := popLoop fuel (want - len) (rb.popChunk len)
      (rb', (rb.buf.drop rb.start).take len ++ out)

/-- Take up to `want` bytes from the front. -/
def pop (rb : RingBuf N) (want : ℕ) : RingBuf N × List UInt8 := popLoop want want rb

def popByte (rb : RingBuf N) : RingBuf N × Option UInt8 :=
  let (rb', out) := rb.pop 1
  (rb', out.head?)

def isFull (rb : RingBuf N) : Bool := rb.start = rb.stop ∧ rb.nonEmpty

def isEmpty (rb : RingBuf N) : Bool := !rb.nonEmpty

/-! ## The bytes in order -/

/-- The bytes in the buffer, the oldest one first. -/
def contents (rb : RingBuf N) : List UInt8 :=
  if rb.nonEmpty = false then []
  else if rb.start < rb.stop then (rb.buf.drop rb.start).take (rb.stop - rb.start)
  else rb.buf.drop rb.start ++ rb.buf.take rb.stop

/-- The indices are in the array, and an empty buffer starts where it ends. -/
structure WellFormed (rb : RingBuf N) : Prop where
  /-- the array has its size, or the buffer has never been used -/
  size : rb.buf.length = N ∨ (rb.buf = [] ∧ rb.nonEmpty = false)
  /-- the first byte is in the array -/
  start_lt : rb.start < N
  /-- and so is the end -/
  stop_lt : rb.stop < N
  /-- an empty buffer starts where it ends -/
  empty : rb.nonEmpty = false → rb.start = rb.stop

variable {rb : RingBuf N} {data chunk : List UInt8} {want : ℕ}

theorem wellFormed_new (hN : 0 < N) : (new : RingBuf N).WellFormed :=
  ⟨.inr ⟨rfl, rfl⟩, hN, hN, fun _ => rfl⟩

theorem WellFormed.clear (h : rb.WellFormed) : rb.clear.WellFormed := by
  have hN : 0 < N := Nat.zero_lt_of_lt h.start_lt
  refine ⟨?_, hN, hN, fun _ => rfl⟩
  rcases h.size with hsize | ⟨hnil, -⟩
  · exact .inl hsize
  · exact .inr ⟨hnil, rfl⟩

theorem WellFormed.size_of_nonEmpty (h : rb.WellFormed) (hne : rb.nonEmpty = true) : rb.buf.length = N :=
  h.size.resolve_right fun hnew => by simp [hne] at hnew

theorem length_contents (h : rb.WellFormed) : rb.contents.length = rb.len := by
  rw [contents, len]
  cases hne : rb.nonEmpty with
  | false => simp
  | true =>
    have hsize := h.size_of_nonEmpty hne
    have hstart := h.start_lt
    have hstop := h.stop_lt
    simp only [Bool.true_eq_false, if_false]
    split_ifs with hlt
    · simp only [List.length_take, List.length_drop]
      omega
    · simp only [List.length_append, List.length_take, List.length_drop]
      omega

/-! ## Adding -/

theorem WellFormed.resizeDefault (h : rb.WellFormed) :
    rb.resizeDefault.WellFormed ∧ rb.resizeDefault.buf.length = N ∧
      rb.resizeDefault.contents = rb.contents := by
  obtain ⟨hsize | ⟨hbuf, hne⟩, hstart, hstop, hempty⟩ := h
  · have hid : rb.resizeDefault = rb := by simp [RingBuf.resizeDefault, hsize]
    rw [hid]
    exact ⟨⟨.inl hsize, hstart, hstop, hempty⟩, hsize, rfl⟩
  · have hlen : rb.resizeDefault.buf.length = N := by simp [RingBuf.resizeDefault, hbuf]
    refine ⟨⟨.inl hlen, hstart, hstop, hempty⟩, hlen, ?_⟩
    simp [contents, RingBuf.resizeDefault, hne]

theorem rtake_of_length_le {l : List UInt8} {n : ℕ} (h : l.length ≤ n) : l.rtake n = l := by
  rw [List.rtake, Nat.sub_eq_zero_of_le h, List.drop_zero]

theorem rtake_append (n : ℕ) (a b : List UInt8) : (a.rtake n ++ b).rtake n = (a ++ b).rtake n := by
  simp only [List.rtake_eq_reverse_take_reverse, List.reverse_append, List.reverse_reverse, List.take_append,
    List.take_take]
  rw [Nat.min_eq_left (Nat.sub_le _ _)]

/-- **A turn of `push`** adds its bytes, and the oldest ones that there is no room for are gone. -/
theorem pushChunk_spec (h : rb.WellFormed) (hsize : rb.buf.length = N) (hchunk : chunk ≠ [])
    (hlen : rb.stop + chunk.length ≤ N) :
    (rb.pushChunk chunk).WellFormed ∧ (rb.pushChunk chunk).buf.length = N ∧
      (rb.pushChunk chunk).contents = (rb.contents ++ chunk).rtake N := by
  have hpos : 0 < chunk.length := List.length_pos_iff.mpr hchunk
  have hstart := h.start_lt
  have hstop := h.stop_lt
  have hfront : (rb.buf.take rb.stop ++ chunk).length = rb.stop + chunk.length := by
    rw [List.length_append, List.length_take]
    omega
  have hbuf : (rb.pushChunk chunk).buf =
      rb.buf.take rb.stop ++ chunk ++ rb.buf.drop (rb.stop + chunk.length) := rfl
  have hlen' : (rb.pushChunk chunk).buf.length = N := by
    rw [hbuf, List.length_append, hfront, List.length_drop]
    omega
  have hne' : (rb.pushChunk chunk).nonEmpty = true := rfl
  have hend : (rb.pushChunk chunk).stop = if rb.stop + chunk.length = N then 0 else rb.stop + chunk.length := by
    simp only [pushChunk, wrap]
    rw [← hbuf, hlen']
  by_cases hover : rb.nonEmpty = true ∧ rb.stop ≤ rb.start ∧ rb.start < rb.stop + chunk.length
  · -- the oldest bytes are overwritten, and the array is full
    obtain ⟨hne, hle, hlt⟩ := hover
    have hst : (rb.pushChunk chunk).start = (rb.pushChunk chunk).stop := by
      have hmove : (if rb.nonEmpty = true ∧ rb.stop ≤ rb.start ∧ rb.start < rb.stop + chunk.length then
          rb.stop + chunk.length else rb.start) = rb.stop + chunk.length := if_pos ⟨hne, hle, hlt⟩
      simp only [pushChunk, wrap, hmove]
    have hold : rb.contents = rb.buf.drop rb.start ++ rb.buf.take rb.stop := by
      rw [contents, hne, if_neg (by decide), if_neg (by omega)]
    have hall : (rb.contents ++ chunk).rtake N =
        rb.buf.drop (rb.stop + chunk.length) ++ (rb.buf.take rb.stop ++ chunk) := by
      have hgone : (rb.contents ++ chunk).length - N = rb.stop + chunk.length - rb.start := by
        rw [hold, List.append_assoc, List.length_append, hfront, List.length_drop]
        omega
      rw [List.rtake, hgone, hold, List.append_assoc, List.drop_append_of_le_length (by rw [List.length_drop]; omega),
        List.drop_drop]
      congr 2
      omega
    have hlt' : (rb.pushChunk chunk).stop < N := by
      rw [hend]
      split_ifs <;> omega
    refine ⟨⟨.inl hlen', hst.trans_lt hlt', hlt', fun _ => hst⟩, hlen', ?_⟩
    rw [hall, contents, hne', if_neg (by decide), hst, if_neg (lt_irrefl _), hend, hbuf]
    split_ifs with hfull
    · rw [hfull, List.drop_eq_nil_of_le hsize.le, List.append_nil, List.drop_zero, List.take_zero, List.append_nil,
        List.nil_append]
    · rw [← hfront, List.drop_left, List.take_left]
  -- nothing is overwritten
  have hroom : rb.nonEmpty = true → rb.stop ≤ rb.start → rb.stop + chunk.length ≤ rb.start :=
    fun hne hle => Nat.not_lt.mp fun hlt => hover ⟨hne, hle, hlt⟩
  have hst : (rb.pushChunk chunk).start = rb.start := by
    simp only [pushChunk, wrap, hover, if_false]
    rw [← hbuf, hlen', if_neg (by omega)]
  refine ⟨⟨.inl hlen', by rw [hst]; exact hstart, by rw [hend]; split_ifs <;> omega, by simp [hne']⟩, hlen', ?_⟩
  rw [contents, hne', if_neg (by decide : ¬ true = false), hst, hend, hbuf]
  by_cases hwrapped : rb.nonEmpty = true ∧ rb.stop ≤ rb.start
  · -- the bytes go on at the start of the array
    have hle := hroom hwrapped.1 hwrapped.2
    have hold : rb.contents = rb.buf.drop rb.start ++ rb.buf.take rb.stop := by
      rw [contents, hwrapped.1, if_neg (by decide), if_neg (by omega)]
    have hdrop : (rb.buf.take rb.stop ++ chunk ++ rb.buf.drop (rb.stop + chunk.length)).drop rb.start =
        rb.buf.drop rb.start := by
      rw [List.drop_append, List.drop_eq_nil_of_le (hfront.trans_le hle), hfront, List.nil_append, List.drop_drop]
      congr 1
      omega
    have htake : (rb.buf.take rb.stop ++ chunk ++ rb.buf.drop (rb.stop + chunk.length)).take
        (rb.stop + chunk.length) = rb.buf.take rb.stop ++ chunk := by
      rw [← hfront, List.take_left]
    rw [if_neg (by omega : ¬ rb.stop + chunk.length = N), if_neg (by omega), hdrop, htake, hold,
      List.append_assoc, rtake_of_length_le]
    rw [List.length_append, hfront, List.length_drop]
    omega
  · -- they go on where they are
    have hle : rb.start ≤ rb.stop := by
      cases hne : rb.nonEmpty with
      | false => exact (h.empty hne).le
      | true =>
        rw [hne] at hwrapped
        simp only [true_and, not_le] at hwrapped
        exact hwrapped.le
    have hold : rb.contents = (rb.buf.drop rb.start).take (rb.stop - rb.start) := by
      rw [contents]
      cases hne : rb.nonEmpty with
      | false => simp [h.empty hne]
      | true =>
        rw [hne] at hwrapped
        simp only [true_and, not_le] at hwrapped
        simp [hwrapped]
    have hdrop : (rb.buf.take rb.stop ++ chunk ++ rb.buf.drop (rb.stop + chunk.length)).drop rb.start =
        rb.contents ++ chunk ++ rb.buf.drop (rb.stop + chunk.length) := by
      rw [List.append_assoc, List.drop_append_of_le_length (by rw [List.length_take]; omega), List.drop_take,
        hold, List.append_assoc]
    have hclen : (rb.contents ++ chunk).length = rb.stop + chunk.length - rb.start := by
      rw [hold]
      simp only [List.length_append, List.length_take, List.length_drop]
      omega
    rw [rtake_of_length_le (by omega)]
    by_cases hfull : rb.stop + chunk.length = N
    · rw [if_pos hfull, if_neg (by omega), List.take_zero, List.append_nil, hdrop, hfull,
        List.drop_eq_nil_of_le hsize.le, List.append_nil]
    · rw [if_neg hfull, if_pos (by omega), hdrop, ← hclen, List.take_left]

theorem length_contents_le (h : rb.WellFormed) : rb.contents.length ≤ N := by
  rw [length_contents h, len]
  split_ifs with hne hlt
  · exact Nat.zero_le _
  · exact (Nat.sub_le _ _).trans h.stop_lt.le
  · rw [h.size_of_nonEmpty (Bool.not_eq_false _ ▸ hne)]
    omega

theorem pushLoop_spec (fuel : ℕ) (data : List UInt8) (h : rb.WellFormed) (hsize : rb.buf.length = N)
    (hfuel : data.length ≤ fuel) :
    (pushLoop fuel data rb).WellFormed ∧ (pushLoop fuel data rb).contents = (rb.contents ++ data).rtake N := by
  induction fuel generalizing rb data with
  | zero =>
    obtain rfl : data = [] := List.length_eq_zero_iff.mp (Nat.le_zero.mp hfuel)
    rw [List.append_nil, rtake_of_length_le (length_contents_le h)]
    exact ⟨h, rfl⟩
  | succ fuel ih =>
    rw [pushLoop]
    by_cases hdata : data = []
    · rw [if_pos hdata, hdata, List.append_nil, rtake_of_length_le (length_contents_le h)]
      exact ⟨h, rfl⟩
    rw [if_neg hdata]
    have hpos : 0 < data.length := List.length_pos_iff.mpr hdata
    have hstop := h.stop_lt
    dsimp only
    have htake : (data.take (min (rb.buf.length - rb.stop) data.length)).length =
        min (rb.buf.length - rb.stop) data.length := by
      rw [List.length_take]
      omega
    have hne : data.take (min (rb.buf.length - rb.stop) data.length) ≠ [] := by
      rw [← List.length_pos_iff, htake]
      omega
    obtain ⟨hwf, hsize', hcont⟩ := pushChunk_spec h hsize hne (by rw [htake]; omega)
    obtain ⟨hwf', hcont'⟩ := ih (data.drop (min (rb.buf.length - rb.stop) data.length)) hwf hsize'
      (by rw [List.length_drop]; omega)
    refine ⟨hwf', ?_⟩
    rw [hcont', hcont, rtake_append, List.append_assoc, List.take_append_drop]

/-- **`push`** keeps the last bytes. -/
theorem push_spec (h : rb.WellFormed) (data : List UInt8) :
    (rb.push data).WellFormed ∧ (rb.push data).contents = (rb.contents ++ data).rtake N := by
  obtain ⟨hwf, hsize, hcont⟩ := h.resizeDefault
  rw [push, ← hcont]
  exact pushLoop_spec data.length data hwf hsize le_rfl

/-- **Bytes there is room for** are added at the end. -/
theorem contents_push (h : rb.WellFormed) (data : List UInt8) (hfree : data.length ≤ rb.free) :
    (rb.push data).WellFormed ∧ (rb.push data).contents = rb.contents ++ data := by
  obtain ⟨hwf, hcont⟩ := push_spec h data
  refine ⟨hwf, hcont.trans (rtake_of_length_le ?_)⟩
  have hle := length_contents_le h
  rw [free, ← length_contents h] at hfree
  rw [List.length_append]
  omega

/-! ## Taking -/

/-- A turn of `pop` takes its bytes from the front. -/
theorem popChunk_spec (h : rb.WellFormed) (hne : rb.nonEmpty = true) (hwant : 0 < want) :
    0 < rb.popLen want ∧ rb.popLen want ≤ want ∧ (rb.popChunk (rb.popLen want)).WellFormed ∧
      ((rb.buf.drop rb.start).take (rb.popLen want)).length = rb.popLen want ∧
      rb.contents = (rb.buf.drop rb.start).take (rb.popLen want) ++
        (rb.popChunk (rb.popLen want)).contents := by
  have hsize := h.size_of_nonEmpty hne
  have hstart := h.start_lt
  have hstop := h.stop_lt
  have hlen : rb.popLen want = min ((if rb.start < rb.stop then rb.stop else N) - rb.start) want := by
    rw [popLen, hsize]
  generalize rb.popLen want = len at hlen
  by_cases hlt : rb.start < rb.stop
  · rw [if_pos hlt] at hlen
    have hchunk : rb.popChunk len =
        { rb with start := rb.start + len, nonEmpty := !decide (rb.start + len = rb.stop) } := by
      simp only [popChunk, wrap, hsize, hne]
      rw [if_neg (by omega), if_neg (by omega)]
      by_cases heq : rb.start + len = rb.stop <;> simp [heq]
    have hold : rb.contents = (rb.buf.drop rb.start).take (rb.stop - rb.start) := by
      simp [contents, hne, hlt]
    refine ⟨by omega, by omega, ?_, ?_, ?_⟩
    · rw [hchunk]
      refine ⟨.inl hsize, ?_, hstop, fun hf => by simpa using hf⟩
      show rb.start + len < N
      omega
    · rw [List.length_take, List.length_drop]
      omega
    · rw [hold, hchunk, contents]
      by_cases heq : rb.start + len = rb.stop
      · simp only [heq, decide_true, Bool.not_true, if_true, List.append_nil]
        rw [← heq, Nat.add_sub_cancel_left]
      · simp only [heq, decide_false, Bool.not_false]
        rw [if_neg (by decide), if_pos (by omega), ← List.drop_drop, ← List.take_add]
        congr 1
        omega
  · rw [if_neg hlt] at hlen
    have hold : rb.contents = rb.buf.drop rb.start ++ rb.buf.take rb.stop := by
      simp [contents, hne, hlt]
    by_cases hwrap : rb.start + len = N
    · have hchunk : rb.popChunk len = { rb with start := 0, nonEmpty := !decide (0 = rb.stop) } := by
        simp only [popChunk, wrap, hsize, hne, hwrap, if_true]
        rw [if_neg (by omega)]
        by_cases heq : 0 = rb.stop <;> simp [heq]
      have hall : (rb.buf.drop rb.start).take len = rb.buf.drop rb.start := by
        refine List.take_of_length_le ?_
        rw [List.length_drop]
        omega
      refine ⟨by omega, by omega, ?_, ?_, ?_⟩
      · rw [hchunk]
        exact ⟨.inl hsize, Nat.zero_lt_of_lt hstart, hstop, fun hf => by simpa using hf⟩
      · rw [hall, List.length_drop]
        omega
      · rw [hold, hall, hchunk, contents]
        by_cases heq : 0 = rb.stop
        · simp [← heq]
        · simp only [heq, decide_false, Bool.not_false]
          rw [if_neg (by decide), if_pos (by omega), List.drop_zero, Nat.sub_zero]
    · have hchunk : rb.popChunk len = { rb with start := rb.start + len } := by
        simp only [popChunk, wrap, hsize, hwrap, if_false]
        rw [if_neg (by omega : ¬ rb.stop = N), if_neg (by omega : ¬ rb.start + len = rb.stop)]
      refine ⟨by omega, by omega, ?_, ?_, ?_⟩
      · rw [hchunk]
        refine ⟨.inl hsize, ?_, hstop, fun hf => ?_⟩
        · show rb.start + len < N
          omega
        · rw [show rb.nonEmpty = false from hf] at hne
          cases hne
      · rw [List.length_take, List.length_drop]
        omega
      · rw [hold, hchunk, contents, hne, if_neg (by decide), if_neg (by dsimp only; omega), ← List.append_assoc,
          ← List.drop_drop, List.take_append_drop]

theorem contents_of_empty (hne : rb.nonEmpty = false) : rb.contents = [] := by
  rw [contents, if_pos hne]

theorem popLoop_spec (fuel want : ℕ) (h : rb.WellFormed) (hfuel : want ≤ fuel) :
    (popLoop fuel want rb).1.WellFormed ∧ (popLoop fuel want rb).1.contents = rb.contents.drop want ∧
      (popLoop fuel want rb).2 = rb.contents.take want := by
  induction fuel generalizing rb want with
  | zero =>
    obtain rfl := Nat.le_zero.mp hfuel
    exact ⟨h, rfl, rfl⟩
  | succ fuel ih =>
    rw [popLoop]
    by_cases hdone : want = 0 ∨ rb.nonEmpty = false
    · rw [if_pos hdone]
      rcases hdone with rfl | hne
      · exact ⟨h, rfl, rfl⟩
      · simp [h, contents_of_empty hne]
    rw [if_neg hdone]
    rw [not_or, Bool.not_eq_false] at hdone
    obtain ⟨hpos, hle, hwf, htake, hcont⟩ := popChunk_spec h hdone.2 (Nat.pos_of_ne_zero hdone.1)
    obtain ⟨hwf', hrest, hout⟩ := ih (want - rb.popLen want) hwf (by omega)
    refine ⟨hwf', ?_, ?_⟩
    · show (popLoop fuel (want - rb.popLen want) (rb.popChunk (rb.popLen want))).1.contents = _
      rw [hrest, hcont, List.drop_append, htake, List.drop_eq_nil_of_le (htake.trans_le hle), List.nil_append]
    · show _ ++ (popLoop fuel (want - rb.popLen want) (rb.popChunk (rb.popLen want))).2 = _
      rw [hout, hcont, List.take_append, htake, List.take_of_length_le (htake.trans_le hle)]

/-- **Bytes are taken** from the front, as many as there are. -/
theorem pop_eq (h : rb.WellFormed) (want : ℕ) :
    (rb.pop want).1.WellFormed ∧ (rb.pop want).1.contents = rb.contents.drop want ∧
      (rb.pop want).2 = rb.contents.take want :=
  popLoop_spec want want h le_rfl

/-! ## A bounded queue -/

theorem WellFormed.pushByte_spec (h : rb.WellFormed) (b : UInt8) :
    (rb.pushByte b).WellFormed ∧ (rb.pushByte b).contents = (rb.contents ++ [b]).rtake N := by
  obtain ⟨hwf, hsize, hcont⟩ := h.resizeDefault
  have hstop := hwf.stop_lt
  have hchunk : rb.pushByte b = rb.resizeDefault.pushChunk [b] := by
    have hset : rb.resizeDefault.buf.set rb.resizeDefault.stop b = rb.resizeDefault.buf.take rb.resizeDefault.stop ++
        [b] ++ rb.resizeDefault.buf.drop (rb.resizeDefault.stop + 1) := by
      rw [List.set_eq_take_append_cons_drop, if_pos (hstop.trans_eq hsize.symm), List.append_assoc]
      rfl
    have hfull : (rb.resizeDefault.nonEmpty = true ∧ rb.resizeDefault.start = rb.resizeDefault.stop) ↔
        (rb.resizeDefault.nonEmpty = true ∧ rb.resizeDefault.stop ≤ rb.resizeDefault.start ∧
          rb.resizeDefault.start < rb.resizeDefault.stop + 1) := by
      apply and_congr_right
      intro
      omega
    simp only [pushByte, pushChunk, hset, hfull, List.length_singleton]
  obtain ⟨hwf', -, hcont'⟩ := pushChunk_spec hwf hsize (List.cons_ne_nil b []) hstop
  rw [hchunk, ← hcont]
  exact ⟨hwf', hcont'⟩

theorem isEmpty_iff (h : rb.WellFormed) : rb.isEmpty = true ↔ rb.contents = [] := by
  rw [isEmpty, ← List.length_eq_zero_iff, length_contents h, len]
  cases hne : rb.nonEmpty with
  | false => simp
  | true =>
    have hsize := h.size_of_nonEmpty hne
    have hstart := h.start_lt
    simp only [Bool.not_true, Bool.false_eq_true, Bool.true_eq_false, if_false, false_iff]
    split_ifs <;> omega

theorem isFull_iff (h : rb.WellFormed) : rb.isFull = true ↔ rb.contents.length = N := by
  rw [isFull, decide_eq_true_iff, length_contents h, len]
  have hstart := h.start_lt
  have hstop := h.stop_lt
  cases hne : rb.nonEmpty with
  | false =>
    simp only [Bool.false_eq_true, and_false, if_true, false_iff]
    omega
  | true =>
    have hsize := h.size_of_nonEmpty hne
    simp only [and_true, Bool.true_eq_false, if_false]
    split_ifs <;> omega

inductive Call where
  | push (data : List UInt8)
  | pushByte (data : UInt8)
  | pop (want : ℕ)
  | popByte
  | clear

inductive Reply where
  | len (n : ℕ)
  | bytes (out : List UInt8)
  | byte (out : Option UInt8)
  | done
  deriving DecidableEq

/-- `pushLoop` with its indices checked: `none` is a range that leaves the array, or a loop that goes on. -/
def pushChecked : ℕ → List UInt8 → RingBuf N → Option (RingBuf N)
  | 0, data, rb => if data = [] then some rb else none
  | fuel + 1, data, rb =>
    if data = [] then some rb
    else
      let len := min (rb.buf.length - rb.stop) data.length
      if rb.stop ≤ rb.buf.length ∧ rb.stop + len ≤ rb.buf.length then
        pushChecked fuel (data.drop len) (rb.pushChunk (data.take len))
      else none

/-- `popLoop` with its indices checked. -/
def popChecked : ℕ → ℕ → RingBuf N → Option (RingBuf N × List UInt8)
  | 0, want, rb => if want = 0 ∨ rb.nonEmpty = false then some (rb, []) else none
  | fuel + 1, want, rb =>
    if want = 0 ∨ rb.nonEmpty = false then some (rb, [])
    else
      let len := rb.popLen want
      if rb.start ≤ (if rb.start < rb.stop then rb.stop else rb.buf.length) ∧ rb.start + len ≤ rb.buf.length then
        (popChecked fuel (want - len) (rb.popChunk len)).map
          fun (rb', out) => (rb', (rb.buf.drop rb.start).take len ++ out)
      else none

/-- An operation; `none` if an index leaves the array. -/
def serve (rb : RingBuf N) : Call → Option (RingBuf N × Reply)
  | .push data => (pushChecked data.length data rb.resizeDefault).map fun rb' => (rb', .len rb'.len)
  | .pushByte data =>
    if rb.resizeDefault.stop < rb.resizeDefault.buf.length then
      some (rb.pushByte data, .len (rb.pushByte data).len)
    else none
  | .pop want => (popChecked want want rb).map fun (rb', out) => (rb', .bytes out)
  | .popByte => (popChecked 1 1 rb).map fun (rb', out) => (rb', .byte out.head?)
  | .clear => some (rb.clear, .done)

def serveAll : List Call → RingBuf N → Option (RingBuf N × List Reply)
  | [], rb => some (rb, [])
  | c :: cs, rb => do
    let (rb', reply) ← rb.serve c
    let (rb'', replies) ← serveAll cs rb'
    some (rb'', reply :: replies)

/-- What a queue of the last `n` bytes does. -/
def queueServe (n : ℕ) (q : List UInt8) : Call → List UInt8 × Reply
  | .push data => ((q ++ data).rtake n, .len ((q ++ data).rtake n).length)
  | .pushByte data => ((q ++ [data]).rtake n, .len ((q ++ [data]).rtake n).length)
  | .pop want => (q.drop want, .bytes (q.take want))
  | .popByte => (q.drop 1, .byte q.head?)
  | .clear => ([], .done)

/-- The queue after some operations, and what they return. -/
def queueServeAll (n : ℕ) : List Call → List UInt8 → List UInt8 × List Reply
  | [], q => (q, [])
  | c :: cs, q =>
    let (q', reply) := queueServe n q c
    let (q'', replies) := queueServeAll n cs q'
    (q'', reply :: replies)

theorem pushChecked_eq (fuel : ℕ) (data : List UInt8) (h : rb.WellFormed) (hsize : rb.buf.length = N)
    (hfuel : data.length ≤ fuel) : pushChecked fuel data rb = some (pushLoop fuel data rb) := by
  induction fuel generalizing rb data with
  | zero =>
    obtain rfl : data = [] := List.length_eq_zero_iff.mp (Nat.le_zero.mp hfuel)
    rfl
  | succ fuel ih =>
    rw [pushChecked, pushLoop]
    by_cases hdata : data = []
    · rw [if_pos hdata, if_pos hdata]
    have hpos : 0 < data.length := List.length_pos_iff.mpr hdata
    have hstop := h.stop_lt
    dsimp only
    rw [if_neg hdata, if_neg hdata, if_pos (by omega)]
    have htake : (data.take (min (rb.buf.length - rb.stop) data.length)).length =
        min (rb.buf.length - rb.stop) data.length := by
      rw [List.length_take]
      omega
    have hne : data.take (min (rb.buf.length - rb.stop) data.length) ≠ [] := by
      rw [← List.length_pos_iff, htake]
      omega
    obtain ⟨hwf, hsize', -⟩ := pushChunk_spec h hsize hne (by rw [htake]; omega)
    apply ih _ hwf hsize'
    rw [List.length_drop]
    omega

theorem popChecked_eq (fuel want : ℕ) (h : rb.WellFormed) (hfuel : want ≤ fuel) :
    popChecked fuel want rb = some (popLoop fuel want rb) := by
  induction fuel generalizing rb want with
  | zero =>
    obtain rfl := Nat.le_zero.mp hfuel
    rfl
  | succ fuel ih =>
    rw [popChecked, popLoop]
    by_cases hdone : want = 0 ∨ rb.nonEmpty = false
    · rw [if_pos hdone, if_pos hdone]
    rw [if_neg hdone, if_neg hdone]
    rw [not_or, Bool.not_eq_false] at hdone
    obtain ⟨hpos, hle, hwf, htake, -⟩ := popChunk_spec h hdone.2 (Nat.pos_of_ne_zero hdone.1)
    have hsize := h.size_of_nonEmpty hdone.2
    have hstart := h.start_lt
    rw [List.length_take, List.length_drop] at htake
    dsimp only
    rw [if_pos ⟨by split_ifs <;> omega, by omega⟩, ih _ hwf (by omega)]
    rfl

/-- **An operation** is what the queue does, with every index in the array. -/
theorem serve_spec (h : rb.WellFormed) (c : Call) :
    ∃ rb' : RingBuf N, rb.serve c = some (rb', (queueServe N rb.contents c).2) ∧ rb'.WellFormed ∧
      rb'.contents = (queueServe N rb.contents c).1 := by
  obtain ⟨hwf, hsize, -⟩ := h.resizeDefault
  cases c with
  | push data =>
    obtain ⟨hpush, hcont⟩ := push_spec h data
    refine ⟨rb.push data, ?_, hpush, hcont⟩
    rw [serve, pushChecked_eq _ data hwf hsize le_rfl, Option.map_some, queueServe, ← hcont, length_contents hpush]
    rfl
  | pushByte b =>
    obtain ⟨hpush, hcont⟩ := h.pushByte_spec b
    refine ⟨rb.pushByte b, ?_, hpush, hcont⟩
    rw [serve, if_pos (hwf.stop_lt.trans_eq hsize.symm), queueServe, ← hcont, length_contents hpush]
  | pop want =>
    obtain ⟨hpop, hcont, hout⟩ := pop_eq h want
    refine ⟨(rb.pop want).1, ?_, hpop, hcont⟩
    rw [serve, popChecked_eq _ want h le_rfl, Option.map_some, queueServe, ← hout]
    rfl
  | popByte =>
    obtain ⟨hpop, hcont, hout⟩ := pop_eq h 1
    refine ⟨(rb.pop 1).1, ?_, hpop, hcont⟩
    rw [serve, popChecked_eq _ 1 h le_rfl, Option.map_some, queueServe]
    have hhead : (popLoop 1 1 rb).2.head? = rb.contents.head? := by
      rw [show (popLoop 1 1 rb).2 = rb.contents.take 1 from hout]
      cases rb.contents <;> rfl
    rw [← hhead]
    rfl
  | clear => exact ⟨rb.clear, rfl, h.clear, rfl⟩

theorem serveAll_spec (h : rb.WellFormed) (calls : List Call) :
    ∃ rb' : RingBuf N, serveAll calls rb = some (rb', (queueServeAll N calls rb.contents).2) ∧ rb'.WellFormed ∧
      rb'.contents = (queueServeAll N calls rb.contents).1 := by
  induction calls generalizing rb with
  | nil => exact ⟨rb, rfl, h, rfl⟩
  | cons c cs ih =>
    obtain ⟨rb', hserve, hwf, hcont⟩ := serve_spec h c
    obtain ⟨rb'', hall, hwf', hcont'⟩ := ih hwf
    rw [hcont] at hall hcont'
    refine ⟨rb'', ?_, hwf', hcont'⟩
    simp only [serveAll, hserve, hall, Option.bind_eq_bind, Option.bind_some, queueServeAll]

/-- **A ring buffer is a queue** of the last bytes added, for every sequence of operations. -/
theorem serveAll_refines (hN : 0 < N) (calls : List Call) :
    ∃ rb : RingBuf N, serveAll calls new = some (rb, (queueServeAll N calls []).2) ∧
      rb.contents = (queueServeAll N calls []).1 ∧ rb.len = (queueServeAll N calls []).1.length ∧
      rb.free = N - (queueServeAll N calls []).1.length ∧
      (rb.isEmpty = true ↔ (queueServeAll N calls []).1 = []) ∧
      (rb.isFull = true ↔ (queueServeAll N calls []).1.length = N) := by
  obtain ⟨rb, hall, hwf, hcont⟩ := serveAll_spec (wellFormed_new hN) calls
  have hnew : (new : RingBuf N).contents = [] := contents_of_empty rfl
  rw [hnew] at hall hcont
  refine ⟨rb, hall, hcont, ?_⟩
  rw [← hcont, free, length_contents hwf]
  refine ⟨rfl, rfl, isEmpty_iff hwf, ?_⟩
  rw [isFull_iff hwf, length_contents hwf]

theorem serveAll_refines_three :
    0 < 3 ∧ ∃ rb : RingBuf 3, serveAll [.push [1, 2, 3, 4], .pop 2, .pushByte 5] new =
      some (rb, [.len 3, .bytes [2, 3], .len 2]) ∧ rb.contents = [4, 5] := by
  refine ⟨by decide, ?_⟩
  obtain ⟨rb, hall, hcont, -⟩ :=
    serveAll_refines (by decide : 0 < 3) [.push [1, 2, 3, 4], .pop 2, .pushByte 5]
  exact ⟨rb, hall, hcont⟩

end RingBuf

end RsMatter
