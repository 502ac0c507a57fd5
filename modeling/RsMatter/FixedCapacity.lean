import RsMatter.Basic
import RsMatter.Panic
import Mathlib.Data.List.InsertIdx

/-!
# Vectors and strings of a fixed capacity (`heapless`, `utils/storage/vec.rs`)

Without an allocator a vector or a string has a capacity that is part of its type, and
what does not fit is refused. The capacity is kept as a field, so that a value with more in it
than its type allows cannot be built.
-/

namespace RsMatter

/-- `heapless::Vec<α, n>`. -/
abbrev HVec (α : Type) (n : ℕ) := {l : List α // l.length ≤ n}

/-- `heapless::String<n>`: the capacity counts bytes. -/
abbrev HString (n : ℕ) := {s : String // s.utf8ByteSize ≤ n}

/-! ## Vectors -/

namespace HVec

variable {α : Type} {n : ℕ}

def new : HVec α n := ⟨[], Nat.zero_le n⟩

/-- `v.pop()`. -/
def pop (v : HVec α n) : HVec α n :=
  ⟨v.1.dropLast, Nat.le_trans (by simp) v.2⟩

/-- `v.push(a)`, with the error `e` when the vector is full. -/
def push (v : HVec α n) (a : α) (e : ErrorCode) : Except (Stop ErrorCode) (HVec α n) :=
  if h : v.1.length < n then .ok ⟨v.1 ++ [a], by simpa [Nat.succ_le_iff] using h⟩ else .error (.error e)

/-- `v.extend_from_slice(slice)`, with the error `e` when it does not fit. -/
def extendFromSlice (v : HVec α n) (slice : List α) (e : ErrorCode) : Except (Stop ErrorCode) (HVec α n) :=
  if h : v.1.length + slice.length ≤ n then .ok ⟨v.1 ++ slice, by rwa [List.length_append]⟩
  else .error (.error e)

/-- `Vec::try_from(slice)`, with the error `e` when it does not fit. -/
def tryFrom (slice : List α) (e : ErrorCode) : Except (Stop ErrorCode) (HVec α n) :=
  new.extendFromSlice slice e

/-- `unwrap!(v.extend_from_slice(slice))`. -/
def extendUnwrap (v : HVec α n) (slice : List α) : Except (Stop ErrorCode) (HVec α n) := do
  let r ← Stop.attempt (v.extendFromSlice slice .resourceExhausted)
  Stop.unwrap r

/-- `v[i] = a`. -/
def set (v : HVec α n) (i : ℕ) (a : α) : HVec α n := ⟨v.1.set i a, by rw [List.length_set]; exact v.2⟩

/-- `v.remove(i)`, without what was there. -/
def remove (v : HVec α n) (i : ℕ) : HVec α n :=
  ⟨v.1.eraseIdx i, Nat.le_trans (List.length_eraseIdx_le v.1 i) v.2⟩

/-- `unwrap!(v.insert(i, a))`. -/
def insert (v : HVec α n) (i : ℕ) (a : α) : Except (Stop ErrorCode) (HVec α n) :=
  if h : v.1.length < n ∧ i ≤ v.1.length then
    .ok ⟨v.1.insertIdx i a, by rw [List.length_insertIdx_of_le_length h.2]; exact h.1⟩
  else .error .panic

theorem push_eq_ok {vec vec' : HVec α n} {a : α} {e : ErrorCode} :
    vec.push a e = .ok vec' ↔ vec.1.length < n ∧ vec'.1 = vec.1 ++ [a] := by
  rw [HVec.push]
  split
  · next h =>
    rw [Except.ok.injEq, Subtype.ext_iff]
    exact ⟨fun heq => ⟨h, heq.symm⟩, fun heq => heq.2.symm⟩
  · next h => exact ⟨fun heq => (nomatch heq), fun heq => absurd heq.1 h⟩

end HVec

/-! ## Strings -/

namespace HString

variable {n : ℕ}

def new : HString n := ⟨"", Nat.zero_le n⟩

/-- `write_unwrap!(s, "{}", text)`. -/
def write (s : HString n) (text : String) : Except (Stop ErrorCode) (HString n) :=
  if h : (s.1 ++ text).utf8ByteSize ≤ n then .ok ⟨s.1 ++ text, h⟩ else .error .panic

/-- `String::try_from(text)`, with the error `e` when it does not fit. -/
def tryFrom (text : String) (e : ErrorCode) : Except (Stop ErrorCode) (HString n) :=
  if h : text.utf8ByteSize ≤ n then .ok ⟨text, h⟩ else .error (.error e)

end HString

end RsMatter
