import RsMatter.PacketDecode
import RsMatter.Panic
import RsMatter.Prog
import RsMatter.Storage

/-!
# Read buffers over memory (`utils/storage/parsebuf.rs`)

A read buffer is an array with an offset and a number of bytes left behind it. What lies
behind these bytes is no part of the packet. An index outside of the array is a panic.

A program on read buffers *parses* (`Parses`) like a function on what has been parsed and
what is left, which cannot look any further: it goes wrong only where that function does,
and it keeps what lies behind the packet.
-/

namespace RsMatter

open Prog

namespace Storage

structure ReadBuf where
  buf : List UInt8
  readOff : ℕ
  left : ℕ
  deriving DecidableEq

namespace ReadBuf

def new (buf : List UInt8) : ReadBuf := ⟨buf, 0, buf.length⟩

def Within (rb : ReadBuf) : Prop := rb.readOff + rb.left ≤ rb.buf.length

def view (rb : ReadBuf) : ParseBuf := ⟨rb.buf.take rb.readOff, (rb.buf.drop rb.readOff).take rb.left⟩

/-! ## The operations -/

/-- `&self.buf[i..i + n]`. -/
def slice (i n : ℕ) : Prog (Stop ErrorCode) ReadBuf (List UInt8) := do
  let rb ← Prog.get
  Prog.ensure (i + n ≤ rb.buf.length) .panic
  return (rb.buf.drop i).take n

def asSlice : Prog (Stop ErrorCode) ReadBuf (List UInt8) := do
  let rb ← Prog.get
  slice rb.readOff rb.left

/-- Let a function write to the bytes left (`as_mut_slice`). -/
def asMutSlice (f : Rewrite) : Prog (Stop ErrorCode) ReadBuf Unit := do
  let data ← asSlice
  let out := f data
  Prog.modify fun rb => { rb with buf := splice rb.buf rb.readOff out.1 }
  Prog.ofExcept out.2

def parsedAsSlice : Prog (Stop ErrorCode) ReadBuf (List UInt8) := do
  let rb ← Prog.get
  slice 0 rb.readOff

def advance (len : ℕ) : Prog (Stop ErrorCode) ReadBuf Unit := do
  let rb ← Prog.get
  let left ← Prog.ofExcept (Stop.sub rb.left len)
  Prog.modify fun rb => { rb with readOff := rb.readOff + len, left := left }

/-- Read a little-endian integer of `n` bytes (`le_u8`, `parse_as_array`). -/
def le (n w : ℕ) : Prog (Stop ErrorCode) ReadBuf (BitVec w) := do
  let rb ← Prog.get
  Prog.ensure (n ≤ rb.left) (.error .truncatedPacket)
  let bytes ← slice rb.readOff n
  advance n
  return BitVec.ofNat w (ofLE bytes)

def tail (size : ℕ) : Prog (Stop ErrorCode) ReadBuf (List UInt8) := do
  let rb ← Prog.get
  Prog.ensure (size ≤ rb.left) (.error .truncatedPacket)
  let endOffset := rb.readOff + rb.left
  let start ← Prog.ofExcept (Stop.sub endOffset size)
  let bytes ← slice start size
  Prog.modify fun rb => { rb with left := rb.left - size }
  return bytes

/-! ## Staying inside the packet -/

/-- A later state of a buffer: nothing more is left, and what is behind stays. -/
structure Inside (rb rb' : ReadBuf) : Prop where
  length : rb'.buf.length = rb.buf.length
  limit : rb'.readOff + rb'.left ≤ rb.readOff + rb.left
  behind : rb'.buf.drop (rb.readOff + rb.left) = rb.buf.drop (rb.readOff + rb.left)

theorem Inside.refl (rb : ReadBuf) : rb.Inside rb := ⟨rfl, Nat.le_refl _, rfl⟩

theorem Inside.trans {rb₁ rb₂ rb₃ : ReadBuf} (h : rb₁.Inside rb₂) (h' : rb₂.Inside rb₃) :
    rb₁.Inside rb₃ := by
  refine ⟨h'.length.trans h.length, h'.limit.trans h.limit, ?_⟩
  obtain ⟨k, hk⟩ := Nat.exists_eq_add_of_le h.limit
  have hbehind := congrArg (List.drop k) h'.behind
  rw [List.drop_drop, List.drop_drop, ← hk] at hbehind
  exact hbehind.trans h.behind

theorem Inside.within {rb rb' : ReadBuf} (h : rb.Inside rb') (hrb : rb.Within) : rb'.Within := by
  have hlimit := h.limit
  rw [Within, h.length]
  exact Nat.le_trans hlimit hrb

variable {α β : Type}

/-- How a run ended, as a function on what has been read and what is left says it. -/
def Ended (out : ReadBuf × Except (Stop ErrorCode) α) :
    Except (Stop ErrorCode) (α × ParseBuf) → Prop
  | .ok (a, pb) => out.2 = .ok a ∧ out.1.view = pb
  | .error stop => out.2 = .error stop

/-- The program parses like a function on what has been read and what is left. -/
def Parses (m : Prog (Stop ErrorCode) ReadBuf α)
    (f : ParseBuf → Except (Stop ErrorCode) (α × ParseBuf)) : Prop :=
  ∀ rb : ReadBuf, rb.Within → rb.Inside (m.run rb).1 ∧ Ended (m.run rb) (f rb.view)

theorem parses_pure (a : α) : Parses (pure a) fun pb => .ok (a, pb) :=
  fun rb _ => ⟨.refl rb, rfl, rfl⟩

variable {k : α → Prog (Stop ErrorCode) ReadBuf β} {m : Prog (Stop ErrorCode) ReadBuf α}

/-- **Sequencing.** -/
theorem Parses.bind
    {f : ParseBuf → Except (Stop ErrorCode) (α × ParseBuf)}
    {g : α × ParseBuf → Except (Stop ErrorCode) (β × ParseBuf)} (hm : Parses m f)
    (hk : ∀ a, Parses (k a) fun pb => g (a, pb)) : Parses (m >>= k) fun pb => f pb >>= g := by
  intro rb hrb
  obtain ⟨hinside, hout⟩ := hm rb hrb
  rcases hrun : m.run rb with ⟨rb', r⟩
  rw [hrun] at hinside hout
  simp only
  cases hf : f rb.view with
  | error stop =>
    rw [hf] at hout
    have hr : r = .error stop := hout
    subst hr
    rw [run_bind_of_error hrun]
    exact ⟨hinside, rfl⟩
  | ok p =>
    obtain ⟨a, pb⟩ := p
    rw [hf] at hout
    obtain ⟨hr, hview⟩ : r = .ok a ∧ rb'.view = pb := hout
    subst hr hview
    obtain ⟨hinside', hout'⟩ := hk a rb' (hinside.within hrb)
    rw [run_bind_of_ok hrun]
    exact ⟨hinside.trans hinside', hout'⟩

theorem Parses.congr
    {f g : ParseBuf → Except (Stop ErrorCode) (α × ParseBuf)} (hm : Parses m f)
    (hfg : ∀ pb, f pb = g pb) : Parses m g := by
  intro rb hrb
  rw [← hfg]
  exact hm rb hrb

theorem Parses.ensure_bind (c : Prop) [Decidable c] (stop : Stop ErrorCode)
    {k : Unit → Prog (Stop ErrorCode) ReadBuf β} {g : ParseBuf → Except (Stop ErrorCode) (β × ParseBuf)}
    (hk : Parses (k ()) g) :
    Parses (Prog.ensure c stop >>= k) fun pb => if c then g pb else .error stop := by
  intro rb hrb
  by_cases hc : c
  · simp only [hc, if_true]
    rw [run_bind_of_ok (run_ensure_of_pos hc stop rb)]
    exact hk rb hrb
  · simp only [hc, if_false]
    rw [run_bind_of_error (run_ensure_of_neg hc stop rb)]
    exact ⟨.refl rb, rfl⟩

theorem Parses.lift_bind
    {f : ParseBuf → Except ErrorCode (α × ParseBuf)}
    {g : α × ParseBuf → Except ErrorCode (β × ParseBuf)} (hm : Parses m fun pb => Stop.lift (f pb))
    (hk : ∀ a, Parses (k a) fun pb => Stop.lift (g (a, pb))) :
    Parses (m >>= k) fun pb => Stop.lift (f pb >>= g) := by
  intro rb hrb
  have hbind := Parses.bind (g := fun x => Stop.lift (g x)) hm hk rb hrb
  simp only [Stop.lift_bind]
  exact hbind

theorem Parses.lift_check (r : Except ErrorCode α)
    {g : α → ParseBuf → Except ErrorCode (β × ParseBuf)}
    (hk : ∀ a, Parses (k a) fun pb => Stop.lift (g a pb)) :
    Parses (Prog.ofExcept (Stop.lift r) >>= k) fun pb => Stop.lift (r >>= fun a => g a pb) := by
  intro rb hrb
  cases r with
  | error e => exact ⟨.refl rb, rfl⟩
  | ok a => exact hk a rb hrb

/-! ## What the operations do -/

section Operations

variable {rb : ReadBuf}

theorem run_slice {i n : ℕ} (h : i + n ≤ rb.buf.length) :
    (slice i n).run rb = (rb, .ok ((rb.buf.drop i).take n)) := by
  rw [slice, run_bind_of_ok (run_get rb), run_bind_of_ok (run_ensure_of_pos h _ _)]
  rfl

theorem run_advance {n : ℕ} (h : n ≤ rb.left) :
    (advance n).run rb = ({ rb with readOff := rb.readOff + n, left := rb.left - n }, .ok ()) := by
  rw [advance, run_bind_of_ok (run_get rb), Stop.sub_ok h,
    run_bind_of_ok (run_ofExcept _ _)]
  rfl

theorem length_left_view (h : rb.Within) : rb.view.left.length = rb.left := by
  rw [Within] at h
  simp only [view, List.length_take, List.length_drop]
  omega

theorem run_asSlice (h : rb.Within) : asSlice.run rb = (rb, .ok rb.view.left) := by
  rw [asSlice, run_bind_of_ok (run_get rb), run_slice h]
  rfl

theorem run_parsedAsSlice (h : rb.Within) : parsedAsSlice.run rb = (rb, .ok rb.view.parsed) := by
  have hin : 0 + rb.readOff ≤ rb.buf.length := by
    rw [Within] at h
    omega
  rw [parsedAsSlice, run_bind_of_ok (run_get rb), run_slice hin]
  rfl

theorem view_advance {n : ℕ} (hn : n ≤ rb.left) :
    ({ rb with readOff := rb.readOff + n, left := rb.left - n } : ReadBuf).view =
      ⟨rb.view.parsed ++ rb.view.left.take n, rb.view.left.drop n⟩ := by
  have htake : rb.buf.take (rb.readOff + n) = rb.buf.take rb.readOff ++ (rb.buf.drop rb.readOff).take n :=
    List.take_add
  simp only [view, htake, List.take_take, Nat.min_eq_left hn, List.drop_take, List.drop_drop]

/-- **Reading an integer** reads what the function on bytes reads. -/
theorem parses_le (n w : ℕ) : Parses (le n w) fun pb => Stop.lift (pb.le n w) := by
  intro rb h
  simp only [ParseBuf.le, length_left_view h]
  rw [le, run_bind_of_ok (run_get rb)]
  by_cases hn : n ≤ rb.left
  · have hslice : rb.readOff + n ≤ rb.buf.length := Nat.le_trans (Nat.add_le_add_left hn _) h
    rw [run_bind_of_ok (run_ensure_of_pos hn _ _), run_bind_of_ok (run_slice hslice),
      run_bind_of_ok (run_advance hn), if_pos hn]
    refine ⟨⟨rfl, ?_, rfl⟩, ?_, view_advance hn⟩
    · simp only [run_pure]
      omega
    · simp only [run_pure, view, List.take_take, Nat.min_eq_left hn]
  · rw [run_bind_of_error (run_ensure_of_neg hn _ _), if_neg hn]
    exact ⟨.refl rb, rfl⟩

/-- **Taking bytes off the end.** -/
theorem parses_tail (size : ℕ) :
    Parses (tail size) fun pb =>
      (do let rest ← Stop.lift (pb.tail size); .ok (pb.left.drop (pb.left.length - size), rest)) := by
  intro rb h
  simp only [ParseBuf.tail, length_left_view h]
  rw [tail, run_bind_of_ok (run_get rb)]
  by_cases hn : size ≤ rb.left
  · have hsub : size ≤ rb.readOff + rb.left := Nat.le_add_left_of_le hn
    have hslice : rb.readOff + rb.left - size + size ≤ rb.buf.length := by
      rw [Nat.sub_add_cancel hsub]
      exact h
    rw [run_bind_of_ok (run_ensure_of_pos hn _ _)]
    dsimp only
    rw [Stop.sub_ok hsub,
      run_bind_of_ok (run_ofExcept _ _), run_bind_of_ok (run_slice hslice),
      run_bind_of_ok (run_modify _ _), if_pos hn]
    refine ⟨⟨rfl, ?_, rfl⟩, ?_, ?_⟩
    · simp only [run_pure]
      omega
    · have hoff : rb.readOff + rb.left - size = rb.readOff + (rb.left - size) := by omega
      simp only [run_pure, view, List.drop_take, List.drop_drop, hoff, Nat.sub_sub_self hn]
    · simp only [run_pure, view, List.take_take, Nat.sub_le, Nat.min_eq_left]
  · rw [run_bind_of_error (run_ensure_of_neg hn _ _), if_neg hn]
    exact ⟨.refl rb, rfl⟩

theorem parses_parsedAsSlice : Parses parsedAsSlice fun pb => .ok (pb.parsed, pb) := by
  intro rb h
  rw [run_parsedAsSlice h]
  exact ⟨.refl rb, rfl, rfl⟩

/-- **A function that writes to the bytes left** is given these bytes and no others. -/
theorem parses_asMutSlice (f : Rewrite) :
    Parses (asMutSlice f) fun pb =>
      (do let () ← (f pb.left).2; .ok ((), { pb with left := (f pb.left).1 })) := by
  intro rb h
  have hlen : (f rb.view.left).1.val.length = rb.left :=
    (f rb.view.left).1.property.trans (length_left_view h)
  have hin : rb.readOff + (f rb.view.left).1.val.length ≤ rb.buf.length := by
    rw [hlen]
    exact h
  have hoff : rb.readOff ≤ rb.buf.length := Nat.le_trans (Nat.le_add_right _ _) hin
  rw [asMutSlice, run_bind_of_ok (run_asSlice h)]
  dsimp only
  rw [run_bind_of_ok (run_modify _ _), run_ofExcept]
  have hinside : rb.Inside { rb with buf := splice rb.buf rb.readOff (f rb.view.left).1 } := by
    refine ⟨length_splice hin, Nat.le_refl _, ?_⟩
    have hbehind := drop_splice hoff (f rb.view.left).1.val
    rwa [hlen] at hbehind
  refine ⟨hinside, ?_⟩
  cases hout : (f rb.view.left).2 with
  | error stop => rfl
  | ok u =>
    refine ⟨rfl, ?_⟩
    have htake := take_splice hoff (f rb.view.left).1.val (Nat.le_refl rb.readOff)
    have hdrop := congrArg (List.drop rb.readOff) (take_splice_end hoff (f rb.view.left).1.val)
    rw [hlen, List.drop_left' (List.length_take_of_le hoff), List.drop_take,
      Nat.add_sub_cancel_left] at hdrop
    exact congrArg₂ ParseBuf.mk htake hdrop

end Operations

end ReadBuf

end Storage

end RsMatter
