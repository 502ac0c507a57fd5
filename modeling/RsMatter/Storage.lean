import RsMatter.Basic
import RsMatter.Bytes
import RsMatter.Panic
import RsMatter.Prog
import RsMatter.Splice

/-!
# Write buffers over memory (`utils/storage/writebuf.rs`)

A write buffer is an array with a window of bytes in it. Bytes are appended behind the
window, prepended before it, or written by a callback into the slice behind it; an index
outside of the array is a panic. What is before a window that only grows at its end stays,
and the appended bytes stand behind it (`run_append`, `appended_appended`).
-/

namespace RsMatter

open Prog

namespace Storage

/-- What a function makes of a slice it may write to: the slice afterwards, and how it ends. -/
abbrev Rewrite : Type :=
  (slice : List UInt8) → {slice' : List UInt8 // slice'.length = slice.length} ×
    Except (Stop ErrorCode) Unit

structure WriteBuf where
  buf : List UInt8
  bufSize : ℕ
  start : ℕ
  /-- where it ends (`end`) -/
  tail : ℕ
  fits : bufSize ≤ buf.length

namespace WriteBuf

/-- A buffer over a whole array, with a window. -/
def newWith (buf : List UInt8) (start tail : ℕ) : WriteBuf :=
  ⟨buf, buf.length, start, tail, Nat.le_refl _⟩

def new (buf : List UInt8) : WriteBuf := newWith buf 0 0

/-- The buffer with bytes of the array overwritten. -/
def overwrite (wb : WriteBuf) (i : ℕ) (bytes : List UInt8) : WriteBuf :=
  { wb with
    buf := splice wb.buf i bytes
    fits := Nat.le_trans wb.fits (length_le_splice wb.buf i bytes) }

def room (wb : WriteBuf) : ℕ := wb.bufSize - wb.tail

def appended (wb : WriteBuf) (bytes : List UInt8) : WriteBuf :=
  { wb.overwrite wb.tail bytes with tail := wb.tail + bytes.length }

/-- What a callback makes of the slice it is given: the slice afterwards, and how many bytes it has
filled. -/
abbrev Filler : Type :=
  (slice : List UInt8) → {slice' : List UInt8 // slice'.length = slice.length} ×
    Except (Stop ErrorCode) ℕ

/-! ## The operations -/

/-- `self.buf[i..i + bytes.len()].copy_from_slice(bytes)`. -/
def putAt (i : ℕ) (bytes : List UInt8) : Prog (Stop ErrorCode) WriteBuf Unit := do
  let wb ← Prog.get
  Prog.ensure (i + bytes.length ≤ wb.buf.length) .panic
  Prog.modify fun wb => wb.overwrite i bytes

/-- `self.buf.copy_within(i..i + n, j)`. -/
def copyWithin (i n j : ℕ) : Prog (Stop ErrorCode) WriteBuf Unit := do
  let wb ← Prog.get
  Prog.ensure (i + n ≤ wb.buf.length ∧ j + n ≤ wb.buf.length) .panic
  Prog.modify fun wb => wb.overwrite j ((wb.buf.drop i).take n)

def getTail : Prog (Stop ErrorCode) WriteBuf ℕ := do
  let wb ← Prog.get
  return wb.tail

def rewindTailTo (tail : ℕ) : Prog (Stop ErrorCode) WriteBuf Unit :=
  Prog.modify fun wb => { wb with tail := tail }

def asSlice : Prog (Stop ErrorCode) WriteBuf (List UInt8) := do
  let wb ← Prog.get
  Prog.ensure (wb.start ≤ wb.tail ∧ wb.tail ≤ wb.buf.length) .panic
  return (wb.buf.drop wb.start).take (wb.tail - wb.start)

/-- Let a function write to the bytes of the window (`as_mut_slice`). -/
def asMutSlice (f : Rewrite) : Prog (Stop ErrorCode) WriteBuf Unit := do
  let data ← asSlice
  let out := f data
  Prog.modify fun wb => wb.overwrite wb.start out.1
  Prog.ofExcept out.2

def prepend (src : List UInt8) : Prog (Stop ErrorCode) WriteBuf Unit := do
  let wb ← Prog.get
  Prog.ensure (src.length ≤ wb.start) (.error .noSpace)
  putAt (wb.start - src.length) src
  Prog.modify fun wb => { wb with start := wb.start - src.length }

def append (src : List UInt8) : Prog (Stop ErrorCode) WriteBuf Unit := do
  let wb ← Prog.get
  Prog.ensure (wb.tail + src.length ≤ wb.bufSize) (.error .noSpace)
  putAt wb.tail src
  Prog.modify fun wb => { wb with tail := wb.tail + src.length }

/-- Append a little-endian integer of `n` bytes (`le_u8`, `le_u16` and so on). -/
def le {w : ℕ} (n : ℕ) (data : BitVec w) : Prog (Stop ErrorCode) WriteBuf Unit :=
  append (toLE n data.toNat)

/-- Let a callback write into the slice behind the window. -/
def appendWithBuf (f : Filler) : Prog (Stop ErrorCode) WriteBuf ℕ := do
  let wb ← Prog.get
  Prog.ensure (wb.tail ≤ wb.bufSize) .panic
  let out := f ((wb.buf.take wb.bufSize).drop wb.tail)
  Prog.modify fun wb => wb.overwrite wb.tail out.1
  let len ← Prog.ofExcept out.2
  Prog.modify fun wb => { wb with tail := wb.tail + len }
  return len

/-! ## What they do -/

theorem run_putAt {wb : WriteBuf} {i : ℕ} {bytes : List UInt8} (h : i + bytes.length ≤ wb.buf.length) :
    (putAt i bytes).run wb = (wb.overwrite i bytes, .ok ()) := by
  rw [putAt, run_bind_of_ok (run_get wb), run_bind_of_ok (run_ensure_of_pos h _ _)]
  rfl

/-- **Writing into a part of the array** replaces that part. -/
theorem putAt_ok {wb : WriteBuf} {xs old ys : List UInt8} (i : ℕ) (bytes : List UInt8)
    (hbuf : wb.buf = xs ++ (old ++ ys)) (hi : i = xs.length) (hold : old.length = bytes.length) :
    ∃ t, (putAt i bytes).run wb = (t, .ok ()) ∧ t.buf = xs ++ (bytes ++ ys) ∧
      t.start = wb.start ∧ t.tail = wb.tail ∧ t.bufSize = wb.bufSize := by
  refine ⟨_, run_putAt ?_, ?_, rfl, rfl, rfl⟩
  · rw [hbuf, hi, List.length_append, List.length_append]
    omega
  · dsimp only [overwrite]
    rw [hbuf, hi, splice_append_left, ← hold, List.drop_left]

@[simp] theorem run_getTail (wb : WriteBuf) : getTail.run wb = (wb, .ok wb.tail) := rfl

/-- **Moving a part of the array down** over the bytes before it. -/
theorem copyWithin_ok {wb : WriteBuf} {xs gap d ys : List UInt8} {i n j : ℕ}
    (hbuf : wb.buf = xs ++ (gap ++ (d ++ ys))) (hi : i = xs.length + gap.length) (hn : n = d.length)
    (hj : j = xs.length) :
    ∃ t, (copyWithin i n j).run wb = (t, .ok ()) ∧
      t.buf = xs ++ (d ++ (gap ++ (d ++ ys)).drop d.length) ∧
      t.start = wb.start ∧ t.tail = wb.tail ∧ t.bufSize = wb.bufSize := by
  have hlen : i + n ≤ wb.buf.length ∧ j + n ≤ wb.buf.length := by
    rw [hbuf]
    simp only [List.length_append]
    omega
  have hpart : (wb.buf.drop i).take n = d := by
    rw [hbuf, hi, hn, ← List.drop_drop, List.drop_left, List.drop_left, List.take_left]
  refine ⟨wb.overwrite j d, ?_, ?_, rfl, rfl, rfl⟩
  · rw [copyWithin, run_bind_of_ok (run_get wb),
      run_bind_of_ok (run_ensure_of_pos hlen _ _), run_modify, hpart]
  · dsimp only [overwrite]
    rw [hbuf, hj, splice_append_left]

@[simp] theorem appended_nil (wb : WriteBuf) : wb.appended [] = wb := by
  cases wb
  simp [appended, overwrite]

theorem appended_appended {wb : WriteBuf} (h : wb.tail ≤ wb.buf.length) (a b : List UInt8) :
    (wb.appended a).appended b = wb.appended (a ++ b) := by
  simp only [appended, overwrite, splice_splice h, List.length_append, Nat.add_assoc]

/-- **Appending** succeeds where there is room. -/
theorem run_append (wb : WriteBuf) (src : List UInt8) :
    (append src).run wb =
      if wb.tail + src.length ≤ wb.bufSize then (wb.appended src, .ok ())
      else (wb, .error (.error .noSpace)) := by
  rw [append, run_bind_of_ok (run_get wb)]
  split
  · next h =>
    rw [run_bind_of_ok (run_ensure_of_pos h _ _),
      run_bind_of_ok (run_putAt (Nat.le_trans h wb.fits))]
    rfl
  · next h => exact run_bind_of_error (run_ensure_of_neg h _ _)

/-! ## The window

What the operations make of a window with bytes before and behind it. -/

/-- The array is what is before the window, the window, and what is behind it. -/
structure Window (wb : WriteBuf) (pre mid post : List UInt8) : Prop where
  buf : wb.buf = pre ++ (mid ++ post)
  start : wb.start = pre.length
  tail : wb.tail = pre.length + mid.length

variable {wb : WriteBuf} {pre mid post : List UInt8}

theorem window_of_le (hstart : wb.start ≤ wb.tail) (htail : wb.tail ≤ wb.buf.length) :
    wb.Window (wb.buf.take wb.start) ((wb.buf.drop wb.start).take (wb.tail - wb.start))
      (wb.buf.drop wb.tail) := by
  have hpre : (wb.buf.take wb.start).length = wb.start := List.length_take_of_le (by omega)
  have hmid : ((wb.buf.drop wb.start).take (wb.tail - wb.start)).length = wb.tail - wb.start := by
    rw [List.length_take, List.length_drop]
    omega
  refine ⟨?_, hpre.symm, ?_⟩
  · have hpost : wb.buf.drop wb.tail = (wb.buf.drop wb.start).drop (wb.tail - wb.start) := by
      rw [List.drop_drop, Nat.add_sub_cancel' hstart]
    rw [hpost, List.take_append_drop, List.take_append_drop]
  · rw [hpre, hmid]
    omega

theorem Window.run_asSlice (h : wb.Window pre mid post) : asSlice.run wb = (wb, .ok mid) := by
  have hin : wb.start ≤ wb.tail ∧ wb.tail ≤ wb.buf.length := by
    rw [h.start, h.tail, h.buf]
    simp only [List.length_append]
    omega
  have hbytes : (wb.buf.drop wb.start).take (wb.tail - wb.start) = mid := by
    rw [h.buf, h.start, h.tail, List.drop_left, Nat.add_sub_cancel_left, List.take_left]
  rw [asSlice, run_bind_of_ok (run_get wb), run_bind_of_ok (run_ensure_of_pos hin _ _),
    run_pure, hbytes]

/-- **A function on the window** is given its bytes and no others. -/
theorem Window.run_asMutSlice (h : wb.Window pre mid post) (f : Rewrite) :
    ∃ t : WriteBuf, (asMutSlice f).run wb = (t, (f mid).2) ∧ t.Window pre (f mid).1 post ∧
      t.bufSize = wb.bufSize := by
  have hlen : (f mid).1.val.length = mid.length := (f mid).1.property
  refine ⟨wb.overwrite wb.start (f mid).1, ?_, ⟨?_, h.start, ?_⟩, rfl⟩
  · rw [asMutSlice, run_bind_of_ok h.run_asSlice]
    rfl
  · dsimp only [overwrite]
    rw [h.buf, h.start, splice_append_left, hlen, List.drop_left]
  · rw [hlen]
    exact h.tail

/-- **Prepending** puts bytes before the window, where there is room. -/
theorem Window.run_prepend {gap src : List UInt8} (h : wb.Window (pre ++ gap) mid post)
    (hgap : gap.length = src.length) :
    ∃ t : WriteBuf, (prepend src).run wb = (t, .ok ()) ∧ t.Window pre (src ++ mid) post ∧
      t.bufSize = wb.bufSize := by
  have hstart : wb.start = pre.length + src.length := by
    rw [h.start, List.length_append, hgap]
  have hbuf : wb.buf = pre ++ (gap ++ (mid ++ post)) := by
    rw [h.buf, List.append_assoc]
  obtain ⟨t, hrun, hput, htstart, httail, htsize⟩ :=
    putAt_ok (wb.start - src.length) src hbuf (by omega) hgap
  refine ⟨{ t with start := t.start - src.length }, ?_, ⟨?_, ?_, ?_⟩, htsize⟩
  · rw [prepend, run_bind_of_ok (run_get wb),
      run_bind_of_ok (run_ensure_of_pos (by omega) _ _), run_bind_of_ok hrun]
    rfl
  · rw [List.append_assoc]
    exact hput
  · dsimp only
    omega
  · dsimp only
    rw [httail, h.tail, List.length_append, List.length_append]
    omega

/-- **Appending** puts bytes behind the window, where there is room. -/
theorem Window.run_append {gap src : List UInt8} (h : wb.Window pre mid (gap ++ post))
    (hgap : gap.length = src.length) (hroom : wb.tail + src.length ≤ wb.bufSize) :
    ∃ t : WriteBuf, (append src).run wb = (t, .ok ()) ∧ t.Window pre (mid ++ src) post ∧
      t.bufSize = wb.bufSize := by
  have hbuf : wb.buf = (pre ++ mid) ++ (gap ++ post) := by
    rw [h.buf, List.append_assoc]
  obtain ⟨t, hrun, hput, htstart, httail, htsize⟩ :=
    putAt_ok wb.tail src hbuf (by rw [h.tail, List.length_append]) hgap
  refine ⟨{ t with tail := t.tail + src.length }, ?_, ⟨?_, ?_, ?_⟩, htsize⟩
  · rw [append, run_bind_of_ok (run_get wb),
      run_bind_of_ok (run_ensure_of_pos hroom _ _), run_bind_of_ok hrun]
    simp [httail]
  · simp [hput]
  · exact htstart.trans h.start
  · dsimp only
    rw [httail, h.tail, List.length_append]
    omega

/-! ## Programs that append a fixed text -/

/-- The program appends these bytes if there is room for them. -/
def Serializes (m : Prog (Stop ErrorCode) WriteBuf Unit) (bytes : List UInt8) : Prop :=
  ∀ wb : WriteBuf, wb.tail + bytes.length ≤ wb.bufSize → m.run wb = (wb.appended bytes, .ok ())

section Serializes

variable {m n : Prog (Stop ErrorCode) WriteBuf Unit} {a b : List UInt8}

theorem serializes_nil : Serializes (pure ()) [] := by
  intro wb _
  rw [appended_nil]
  rfl

theorem serializes_append (src : List UInt8) : Serializes (append src) src := by
  intro wb h
  rw [run_append, if_pos h]

/-- **Sequencing.** -/
theorem Serializes.bind (hm : Serializes m a) (hn : Serializes n b) : Serializes (do m; n) (a ++ b) := by
  intro wb h
  rw [List.length_append] at h
  have hfits := wb.fits
  rw [run_bind_of_ok (hm wb (by omega)), hn]
  · rw [appended_appended (by omega)]
  · dsimp only [appended, overwrite]
    omega

theorem Serializes.onlyIf (c : Prop) [Decidable c] (hm : Serializes m a) :
    Serializes (Prog.onlyIf c m) (if c then a else []) := by
  by_cases hc : c
  · rw [Prog.onlyIf, if_pos hc, if_pos hc]
    exact hm
  · rw [Prog.onlyIf, if_neg hc, if_neg hc]
    exact serializes_nil

end Serializes

end WriteBuf

end Storage

end RsMatter
