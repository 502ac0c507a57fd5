import RsMatter.Bytes

/-!
# Frames

A message on a stream is preceded by its length, in `w` bytes. Frames delimit themselves: where a
stream consists of frames, the first one is complete in a buffer as soon as the buffer is as long
as the frame, and it is then found whole, whatever follows it (`frameLen_of_frames`,
`split_of_frames`).
-/

namespace RsMatter

def frame (w : ℕ) (msg : List UInt8) : List UInt8 := toLE w msg.length ++ msg

def frames (w : ℕ) (msgs : List (List UInt8)) : List UInt8 := msgs.flatMap (frame w)

/-- The length of the message at the front of a buffer, if all of it is there. -/
def frameLen (w : ℕ) (buf : List UInt8) : Option ℕ :=
  if buf.length < w then none
  else
    let n := ofLE (buf.take w)
    if w + n ≤ buf.length then some n else none

variable {w : ℕ} {msg buf rest : List UInt8} {msgs : List (List UInt8)}

@[simp] theorem length_frame (w : ℕ) (msg : List UInt8) : (frame w msg).length = w + msg.length := by
  rw [frame, List.length_append, length_toLE]

@[simp] theorem frames_nil (w : ℕ) : frames w [] = [] := rfl

theorem frames_cons (w : ℕ) (msg : List UInt8) (msgs : List (List UInt8)) :
    frames w (msg :: msgs) = frame w msg ++ frames w msgs := List.flatMap_cons

theorem frames_append (w : ℕ) (msgs msgs' : List (List UInt8)) :
    frames w (msgs ++ msgs') = frames w msgs ++ frames w msgs' := List.flatMap_append

/-- A buffer at the front of a frame holds at least the length, or less than the length. -/
theorem take_of_frames (h : buf ++ rest = frames w (msg :: msgs)) (hw : w ≤ buf.length) :
    buf.take w = toLE w msg.length := by
  have htake := congrArg (List.take w) h
  rw [List.take_append_of_le_length hw, frames_cons, frame, List.append_assoc] at htake
  rw [htake, List.take_append_of_le_length (by rw [length_toLE])]
  exact List.take_of_length_le (by rw [length_toLE])

/-- **The first frame** is complete as soon as the buffer is long enough. -/
theorem frameLen_of_frames (hfit : msg.length < 256 ^ w) (h : buf ++ rest = frames w (msg :: msgs)) :
    frameLen w buf = if w + msg.length ≤ buf.length then some msg.length else none := by
  rw [frameLen]
  by_cases hw : buf.length < w
  · rw [if_pos hw, if_neg (by omega)]
  · rw [if_neg hw, take_of_frames h (Nat.le_of_not_lt hw)]
    dsimp only
    rw [ofLE_toLE hfit]

/-- A complete frame is found whole, and the other ones follow it. -/
theorem split_of_frames (h : buf ++ rest = frames w (msg :: msgs))
    (hlen : w + msg.length ≤ buf.length) :
    (buf.drop w).take msg.length = msg ∧ buf.drop (w + msg.length) ++ rest = frames w msgs := by
  rw [frames_cons] at h
  obtain ⟨tail, hbuf, hrest⟩ : ∃ tail, buf = frame w msg ++ tail ∧ frames w msgs = tail ++ rest := by
    rcases List.append_eq_append_iff.mp h with ⟨t, ht, hr⟩ | ⟨t, ht, hr⟩
    · -- the frame goes on after the buffer: then nothing of it does
      have hnil : t = [] := by
        have hlengths := congrArg List.length ht
        rw [List.length_append, length_frame] at hlengths
        exact List.length_eq_zero_iff.mp (by omega)
      subst hnil
      exact ⟨[], by simpa using ht.symm, by simpa using hr.symm⟩
    · exact ⟨t, ht, hr⟩
  constructor
  · rw [hbuf, frame, List.append_assoc, List.drop_left' (length_toLE w _), List.take_left]
  · rw [hbuf, ← length_frame w msg, List.drop_left, hrest]

theorem frameLen_nil (hw : 0 < w) : frameLen w [] = none := by
  rw [frameLen, if_pos (by simpa using hw)]

end RsMatter
