import RsMatter.BtpSession

/-!
# Segments and what the receiver makes of them

A segment is what the sender means before it is bytes: a number, the number it
acknowledges, the part of a message it carries. `Rx` is what the receive buffer means:
complete messages and one that is coming. `Rx.Absorb` says which segments go on with
which buffer; the receiver takes all of these (`RecvWindow.run_acceptIncoming`), and the
sender makes no others (`Session.run_prepTxData`).
-/

namespace RsMatter

open Prog

namespace Btp

/-! ## Segments -/

inductive Part where
  /-- the first part of a message of a length -/
  | first (len : ℕ)
  | rest
  | ack
  deriving DecidableEq

/-- A segment. Its number and the one it acknowledges do not start over here. -/
structure Seg where
  seq : ℕ
  ack : Option ℕ
  part : Part
  final : Bool
  payload : List UInt8
  deriving DecidableEq

namespace Seg

def hdr (g : Seg) : BtpHdr :=
  let hdr := (BtpHdr.new.setSeq (some (BitVec.ofNat 8 g.seq))).setAck (g.ack.map (BitVec.ofNat 8))
  let hdr :=
    match g.part with
    | .first len => hdr.setMsgLen (some (BitVec.ofNat 16 len))
    | .rest => hdr.setContinue
    | .ack => hdr
  if g.final then hdr.setFinal else hdr

def hdrLen (g : Seg) : ℕ :=
  2 + (if g.ack.isSome then 1 else 0) +
    match g.part with
    | .first _ => 2
    | _ => 0

def bytes (g : Seg) : List UInt8 := g.hdr.encode ++ g.payload

/-- Does the segment carry the first part of a message? -/
def begins (g : Seg) : Bool :=
  match g.part with
  | .first _ => true
  | _ => false

def flagsOf (ack first rest final : Bool) : BitVec 8 :=
  (if ack then BtpFlags.ack else 0) ||| (if first then BtpFlags.beginningSegment else 0) |||
    (if rest then BtpFlags.continue else 0) ||| if final then BtpFlags.endingSegment else 0

theorem flagsContain_flagsOf : ∀ ack first rest final : Bool,
    flagsContain (flagsOf ack first rest final) BtpFlags.handshake = false ∧
      flagsContain (flagsOf ack first rest final) BtpFlags.management = false ∧
      flagsContain (flagsOf ack first rest final) BtpFlags.ack = ack ∧
      flagsContain (flagsOf ack first rest final) BtpFlags.beginningSegment = first ∧
      flagsContain (flagsOf ack first rest final) BtpFlags.continue = rest ∧
      flagsContain (flagsOf ack first rest final) BtpFlags.endingSegment = final ∧
      flagsOf ack first rest final &&& BtpFlags.all = flagsOf ack first rest final := by
  decide

variable (g : Seg)

theorem hdr_eq :
    g.hdr =
      { flags := flagsOf g.ack.isSome g.begins (decide (g.part = .rest)) g.final
        opcode := 0
        ackNum := (g.ack.map (BitVec.ofNat 8)).getD 0
        seqNum := BitVec.ofNat 8 g.seq
        msgLen :=
          match g.part with
          | .first len => BitVec.ofNat 16 len
          | _ => 0 } := by
  have hseq : flagsRemove 0#8 BtpFlags.handshake = 0#8 := by decide
  have hack : flagsRemove 0#8 BtpFlags.ack = 0#8 := by decide
  obtain ⟨seq, _ | ack, _ | _ | _, _ | _, payload⟩ := g <;>
    simp [hdr, flagsOf, begins, BtpHdr.new, BtpHdr.setSeq, BtpHdr.setAck, BtpHdr.setMsgLen,
      BtpHdr.setContinue, BtpHdr.setFinal, hseq, hack]

@[simp] theorem hdr_isHandshake : g.hdr.isHandshake = false := by
  simp [hdr_eq, BtpHdr.isHandshake, flagsContain_flagsOf]

@[simp] theorem hdr_getOpcode : g.hdr.getOpcode = none := by
  simp [hdr_eq, BtpHdr.getOpcode, flagsContain_flagsOf]

@[simp] theorem hdr_getAck : g.hdr.getAck = g.ack.map (BitVec.ofNat 8) := by
  cases h : g.ack <;> simp [hdr_eq, BtpHdr.getAck, flagsContain_flagsOf, h]

@[simp] theorem hdr_seqNum : g.hdr.seqNum = BitVec.ofNat 8 g.seq := by rw [hdr_eq]

@[simp] theorem hdr_getSeq : g.hdr.getSeq = some (BitVec.ofNat 8 g.seq) := by
  simp [hdr_eq, BtpHdr.getSeq, flagsContain_flagsOf]

@[simp] theorem hdr_isFinal : g.hdr.isFinal = g.final := by
  simp [hdr_eq, BtpHdr.isFinal, flagsContain_flagsOf]

@[simp] theorem hdr_isContinue : g.hdr.isContinue = decide (g.part = .rest) := by
  simp [hdr_eq, BtpHdr.isContinue, flagsContain_flagsOf]

@[simp] theorem hdr_hasMsgLen : g.hdr.hasMsgLen = g.begins := by
  simp [hdr_eq, BtpHdr.hasMsgLen, flagsContain_flagsOf]

@[simp] theorem hdr_getMsgLen :
    g.hdr.getMsgLen =
      match g.part with
      | .first len => some (BitVec.ofNat 16 len)
      | _ => none := by
  rw [BtpHdr.getMsgLen, hdr_hasMsgLen, hdr_eq]
  cases h : g.part <;> simp [begins, h]

@[simp] theorem hdr_len : g.hdr.len = g.hdrLen := by
  rw [BtpHdr.len, hdr_hasMsgLen, hdr_eq, hdrLen]
  cases h : g.part <;> simp [begins, h, flagsContain_flagsOf] <;> omega

theorem normal_hdr : g.hdr.Normal := by
  refine ⟨?_, fun _ => ?_, fun h => ?_, fun h => ?_, fun h => ?_⟩
  · rw [hdr_eq]
    exact (flagsContain_flagsOf _ _ _ _).2.2.2.2.2.2
  · rw [hdr_eq]
  · rw [hdr_eq] at h ⊢
    have hnone : g.ack = none := by simpa [flagsContain_flagsOf] using h
    simp [hnone]
  · rw [hdr_eq] at h
    simp [flagsContain_flagsOf] at h
  · rw [hdr_hasMsgLen, begins] at h
    rw [hdr_eq]
    cases hp : g.part with
    | first len => simp [hp] at h
    | rest => rfl
    | ack => rfl

theorem decode_bytes : BtpHdr.decode g.bytes = .ok (g.hdr, g.payload) :=
  BtpHdr.decode_encode g.normal_hdr g.payload

theorem length_bytes : g.bytes.length = g.hdrLen + g.payload.length := by
  rw [bytes, List.length_append, BtpHdr.length_encode, hdr_len]

theorem bytes_ne_nil : g.bytes ≠ [] := by
  rw [← List.length_pos_iff, length_bytes, hdrLen]
  omega

end Seg

/-! ## The receive buffer -/

def record (msg : List UInt8) : List UInt8 := toLE 2 msg.length ++ msg

structure Rx where
  done : List (List UInt8)
  /-- the length of the message that is coming and what has come of it -/
  current : Option (ℕ × List UInt8)
  deriving DecidableEq

attribute [ext] Rx

namespace Rx

def bytes (rx : Rx) : List UInt8 :=
  rx.done.flatMap record ++
    match rx.current with
    | none => []
    | some (len, part) => toLE 2 len ++ part

/-- How many bytes are missing from the message that is coming. -/
def missing (rx : Rx) : ℕ :=
  match rx.current with
  | none => 0
  | some (len, part) => len - part.length

inductive Absorb (mtu : ℕ) : Rx → Seg → Rx → Prop where
  | ack (rx : Rx) (seq n : ℕ) : Absorb mtu rx ⟨seq, some n, .ack, false, []⟩ rx
  | whole (done : List (List UInt8)) (seq : ℕ) (ack : Option ℕ) (msg : List UInt8) (hmsg : msg ≠ [])
    (hmax : msg.length ≤ maxTxPacketSize)
    (hfit : (Seg.mk seq ack (.first msg.length) true msg).hdrLen + msg.length ≤ mtu) :
    Absorb mtu ⟨done, none⟩ ⟨seq, ack, .first msg.length, true, msg⟩ ⟨done ++ [msg], none⟩
  /-- the first part of a message that does not fit into a segment -/
  | first (done : List (List UInt8)) (seq : ℕ) (ack : Option ℕ) (len : ℕ) (part : List UInt8)
    (hlong : mtu < len) (hmax : len ≤ maxTxPacketSize)
    (hfull : (Seg.mk seq ack (.first len) false part).hdrLen + part.length = mtu) :
    Absorb mtu ⟨done, none⟩ ⟨seq, ack, .first len, false, part⟩ ⟨done, some (len, part)⟩
  | middle (done : List (List UInt8)) (seq : ℕ) (ack : Option ℕ) (len : ℕ) (before part : List UInt8)
    (hless : before.length + part.length < len)
    (hfull : (Seg.mk seq ack .rest false part).hdrLen + part.length = mtu) :
    Absorb mtu ⟨done, some (len, before)⟩ ⟨seq, ack, .rest, false, part⟩ ⟨done, some (len, before ++ part)⟩
  | last (done : List (List UInt8)) (seq : ℕ) (ack : Option ℕ) (len : ℕ) (before part : List UInt8)
    (hpart : part ≠ []) (hlen : before.length + part.length = len)
    (hfit : (Seg.mk seq ack .rest true part).hdrLen + part.length ≤ mtu) :
    Absorb mtu ⟨done, some (len, before)⟩ ⟨seq, ack, .rest, true, part⟩ ⟨done ++ [before ++ part], none⟩

inductive AbsorbAll (mtu : ℕ) : Rx → List Seg → Rx → Prop where
  | nil (rx : Rx) : AbsorbAll mtu rx [] rx
  | cons {rx rx' rx'' : Rx} {g : Seg} {gs : List Seg} (hg : Absorb mtu rx g rx')
    (hgs : AbsorbAll mtu rx' gs rx'') : AbsorbAll mtu rx (g :: gs) rx''

variable {mtu : ℕ} {rx rx' rx'' : Rx} {g : Seg} {gs : List Seg}

theorem AbsorbAll.snoc (h : AbsorbAll mtu rx gs rx') (hg : Absorb mtu rx' g rx'') :
    AbsorbAll mtu rx (gs ++ [g]) rx'' := by
  induction h with
  | nil rx => exact .cons hg (.nil _)
  | cons hg' _ ih => exact .cons hg' (ih hg)

theorem Absorb.tail {msg : List UInt8} {done : List (List UInt8)} {current : Option (ℕ × List UInt8)}
    (h : Absorb mtu ⟨msg :: done, current⟩ g rx') :
    ∃ done', rx'.done = msg :: done' ∧ Absorb mtu ⟨done, current⟩ g ⟨done', rx'.current⟩ := by
  cases h with
  | ack rx seq n => exact ⟨done, rfl, .ack _ seq n⟩
  | whole done' seq ack m hmsg hmax hfit => exact ⟨done ++ [m], rfl, .whole done seq ack m hmsg hmax hfit⟩
  | first done' seq ack len part hlong hmax hfull =>
    exact ⟨done, rfl, .first done seq ack len part hlong hmax hfull⟩
  | middle done' seq ack len before part hless hfull =>
    exact ⟨done, rfl, .middle done seq ack len before part hless hfull⟩
  | last done' seq ack len before part hpart hlen hfit =>
    exact ⟨done ++ [before ++ part], rfl, .last done seq ack len before part hpart hlen hfit⟩

theorem AbsorbAll.tail {msg : List UInt8} {done : List (List UInt8)} {current : Option (ℕ × List UInt8)}
    (h : AbsorbAll mtu ⟨msg :: done, current⟩ gs rx') :
    ∃ done', rx'.done = msg :: done' ∧ AbsorbAll mtu ⟨done, current⟩ gs ⟨done', rx'.current⟩ := by
  generalize hrx : (⟨msg :: done, current⟩ : Rx) = rx at h
  induction h generalizing done current with
  | nil rx =>
    subst hrx
    exact ⟨done, rfl, .nil _⟩
  | cons hg _ ih =>
    subst hrx
    obtain ⟨done', hdone, hg'⟩ := hg.tail
    obtain ⟨done'', hdone', hgs'⟩ := ih (Rx.ext hdone.symm rfl)
    exact ⟨done'', hdone', .cons hg' hgs'⟩

end Rx

/-! ## Receiving -/

theorem toNat_ofNat_len {len : ℕ} (h : len ≤ maxTxPacketSize) : (BitVec.ofNat 16 len).toNat = len := by
  rw [BitVec.toNat_ofNat, Nat.mod_eq_of_lt]
  have hmax : maxTxPacketSize = 1232 := rfl
  omega

namespace RecvWindow

structure Holds (w : RecvWindow) (rx : Rx) : Prop where
  wf : w.buf.WellFormed
  contents : w.buf.contents = rx.bytes
  count : w.bufMessagesCt = rx.done.length
  missing : w.remMsgLen = rx.missing
  /-- the message that is coming is not complete -/
  current : ∀ len part, rx.current = some (len, part) → part.length < len ∧ len ≤ maxTxPacketSize
  done : ∀ msg ∈ rx.done, msg ≠ [] ∧ msg.length ≤ maxTxPacketSize

variable {w : RecvWindow} {rx rx' : Rx} {g : Seg} {mtu : ℕ} {hdr : BtpHdr} {payload : List UInt8}

theorem free_eq (h : w.buf.WellFormed) : w.buf.free = maxMessageSize - w.buf.contents.length := by
  rw [RingBuf.free, RingBuf.length_contents h]

/-- The window after a payload has gone into the buffer. -/
def withPayload (w : RecvWindow) (hdr : BtpHdr) (payload : List UInt8) : RecvWindow where
  buf := w.buf.push payload
  bufMessagesCt := if hdr.isFinal = true ∧ payload ≠ [] then w.bufMessagesCt + 1 else w.bufMessagesCt
  level := w.level - 1
  ackLevel := w.ackLevel + 1
  ackSeq := hdr.seqNum
  remMsgLen := w.remMsgLen - payload.length

theorem run_acceptPayload (hlen : payload.length < 65536) (hrem : payload.length ≤ w.remMsgLen)
    (hfinal : hdr.isFinal = true → w.remMsgLen = payload.length) (hfree : payload.length ≤ w.buf.free)
    (hlevel : 1 ≤ w.level) (hack : w.ackLevel < 255) (hct : w.bufMessagesCt < 255) :
    (acceptPayload hdr payload).run w = (w.withPayload hdr payload, .ok ()) := by
  have hmod : payload.length % 65536 = payload.length := Nat.mod_eq_of_lt hlen
  rw [acceptPayload, hmod, run_bind_of_ok (run_get w),
    run_bind_of_ok (run_ensure_of_pos hrem _ _), run_bind_of_ok (run_modify _ _),
    run_bind_of_ok (run_get _),
    run_bind_of_ok (run_ensure_of_pos (fun hf => by
      show w.remMsgLen - payload.length = 0
      rw [hfinal hf, Nat.sub_self]) _ _),
    run_bind_of_ok (run_ensure_of_pos hfree _ _), run_bind_of_ok (run_modify _ _),
    checkedSub_of_le hlevel, run_bind_of_ok (run_ofExcept _ _),
    run_bind_of_ok (run_modify _ _), checkedAdd_of_lt (show w.ackLevel + 1 < 256 by omega),
    run_bind_of_ok (run_ofExcept _ _), run_bind_of_ok (run_modify _ _)]
  by_cases hmsg : hdr.isFinal = true ∧ payload ≠ []
  · rw [Prog.onlyIf, if_pos hmsg, checkedAdd_of_lt (show w.bufMessagesCt + 1 < 256 by omega),
      run_bind_of_ok (run_ofExcept _ _), run_modify, withPayload, if_pos hmsg]
  · rw [Prog.onlyIf, if_neg hmsg, run_pure, withPayload, if_neg hmsg]

/-- The window after the first part of a message has begun. -/
def withLength (w : RecvWindow) (len : ℕ) : RecvWindow :=
  { w with remMsgLen := len, buf := w.buf.push (toLE 2 len) }

theorem run_beginMessage {len : ℕ} (hlen : len ≤ maxTxPacketSize) (hpos : 0 < len)
    (hfit : mtu < len ∨ hdr.isFinal = true) (hfree : 2 ≤ w.buf.free) :
    (beginMessage hdr (BitVec.ofNat 16 len) mtu).run w = (w.withLength len, .ok ()) := by
  rw [beginMessage, toNat_ofNat_len hlen, run_bind_of_ok (run_ensure_of_pos hfit _ _),
    run_bind_of_ok (run_modify _ _), Prog.onlyIf, if_pos hpos, run_bind_of_ok (run_get _),
    run_bind_of_ok (run_ensure_of_pos hfree _ _), run_modify]
  rfl

theorem checkDataIntegrity_of_absorb (habs : rx.Absorb mtu g rx')
    (hseq : w.ackSeq + 1 = BitVec.ofNat 8 g.seq) : w.checkDataIntegrity g.hdr g.payload mtu = true := by
  rw [checkDataIntegrity, Seg.hdr_getSeq, hseq, beq_self_eq_true, Bool.and_true]
  cases habs with
  | ack rx seq n => simp [BtpHdr.isStandaloneAck]
  | whole done seq ack msg hmsg hmax hfit => simp [BtpHdr.isStandaloneAck]
  | first done seq ack len part hlong hmax hfull =>
    rw [Nat.add_comm] at hfull
    simp [BtpHdr.isStandaloneAck, hfull]
  | middle done seq ack len before part hless hfull =>
    rw [Nat.add_comm] at hfull
    simp [BtpHdr.isStandaloneAck, hfull]
  | last done seq ack len before part hpart hlen hfit => simp [BtpHdr.isStandaloneAck]

theorem length_bytes_of_absorb (habs : rx.Absorb mtu g rx') :
    rx'.bytes.length ≤ rx.bytes.length + (mtu - 2) ∧
      (g.begins = true → g.payload.length + 4 ≤ mtu) ∧ g.payload.length + 2 ≤ max mtu 2 := by
  cases habs with
  | ack rx seq n => simp [Seg.begins]
  | whole done seq ack msg hmsg hmax hfit =>
    simp only [Seg.hdrLen] at hfit
    simp only [Rx.bytes, record, Seg.begins, List.flatMap_append, List.flatMap_singleton, List.append_nil,
      List.length_append, length_toLE]
    omega
  | first done seq ack len part hlong hmax hfull =>
    simp only [Seg.hdrLen] at hfull
    simp only [Rx.bytes, Seg.begins, List.append_nil, List.length_append, length_toLE]
    omega
  | middle done seq ack len before part hless hfull =>
    simp only [Seg.hdrLen] at hfull
    simp only [Rx.bytes, Seg.begins, List.length_append, length_toLE]
    exact ⟨by omega, nofun, by omega⟩
  | last done seq ack len before part hpart hlen hfit =>
    simp only [Seg.hdrLen] at hfit
    simp only [Rx.bytes, record, Seg.begins, List.flatMap_append, List.flatMap_singleton, List.append_nil,
      List.length_append, length_toLE]
    exact ⟨by omega, nofun, by omega⟩

/-- The part of `acceptIncoming` that is about the length. -/
theorem run_whenSome_beginMessage (hwf : w.buf.WellFormed) (habs : rx.Absorb mtu g rx')
    (hroom : w.buf.contents.length + (mtu - 2) ≤ maxMessageSize) :
    (Prog.whenSome g.hdr.getMsgLen fun msgLen => beginMessage g.hdr msgLen mtu).run w =
      (match g.part with
        | .first len => w.withLength len
        | _ => w, .ok ()) := by
  have hadd := length_bytes_of_absorb habs
  have hfree := free_eq hwf
  rw [Seg.hdr_getMsgLen]
  cases habs with
  | ack rx seq n => rfl
  | whole done seq ack msg hmsg hmax hfit =>
    simp only [Seg.begins, true_implies] at hadd
    exact run_beginMessage hmax (List.length_pos_iff.mpr hmsg) (.inr (Seg.hdr_isFinal _)) (by omega)
  | first done seq ack len part hlong hmax hfull =>
    simp only [Seg.begins, true_implies] at hadd
    exact run_beginMessage hmax (by omega) (.inl hlong) (by omega)
  | middle done seq ack len before part hless hfull => rfl
  | last done seq ack len before part hpart hlen hfit => rfl

/-- **The receiver takes every segment** its buffer goes on with. -/
theorem run_acceptIncoming (h : w.Holds rx) (habs : rx.Absorb mtu g rx')
    (hseq : w.ackSeq + 1 = BitVec.ofNat 8 g.seq) (hlevel : 1 ≤ w.level) (hack : w.ackLevel < 255)
    (hct : w.bufMessagesCt < 255) (hmtu : mtu < 65536)
    (hroom : w.buf.contents.length + (mtu - 2) ≤ maxMessageSize) :
    ∃ w', (acceptIncoming g.hdr g.payload mtu).run w = (w', .ok ()) ∧ w'.Holds rx' ∧
      w'.level = w.level - 1 ∧ w'.ackLevel = w.ackLevel + 1 ∧ w'.ackSeq = BitVec.ofNat 8 g.seq := by
  have hbegin := run_whenSome_beginMessage h.wf habs hroom
  have hadd := length_bytes_of_absorb habs
  have hmax : maxTxPacketSize = 1232 := rfl
  rw [acceptIncoming, run_bind_of_ok (run_get w),
    run_bind_of_ok (run_ensure_of_pos (checkDataIntegrity_of_absorb habs hseq) _ _),
    run_bind_of_ok hbegin]
  have hfree := free_eq h.wf
  have hcont := h.contents
  have hmiss := h.missing
  cases habs with
  | ack rx seq n =>
    obtain ⟨hwf, hpush⟩ := RingBuf.contents_push h.wf [] (Nat.zero_le _)
    refine ⟨_, run_acceptPayload (by simp) (Nat.zero_le _) (by simp) (Nat.zero_le _) hlevel hack hct, ?_,
      rfl, rfl, Seg.hdr_seqNum _⟩
    refine ⟨hwf, ?_, ?_, hmiss, h.current, h.done⟩
    · exact hpush.trans ((List.append_nil _).trans hcont)
    · rw [← h.count]
      exact if_neg (by simp)
  | whole done seq ack msg hmsg hlen hfit =>
    simp only [Seg.begins, true_implies] at hadd
    obtain ⟨hwf₁, hpush₁⟩ := RingBuf.contents_push h.wf (toLE 2 msg.length) (by rw [length_toLE]; omega)
    have hfree₁ : msg.length ≤ (w.buf.push (toLE 2 msg.length)).free := by
      rw [RingBuf.free, ← RingBuf.length_contents hwf₁, hpush₁, List.length_append, length_toLE]
      omega
    obtain ⟨hwf, hpush⟩ := RingBuf.contents_push hwf₁ msg hfree₁
    have hshort : msg.length < 65536 := by omega
    refine ⟨_, run_acceptPayload hshort le_rfl (fun _ => rfl) hfree₁ hlevel hack hct, ?_, rfl, rfl,
      Seg.hdr_seqNum _⟩
    refine ⟨hwf, ?_, ?_, Nat.sub_self _, by rintro _ _ ⟨⟩, ?_⟩
    · refine hpush.trans ?_
      rw [hpush₁, hcont]
      simp [Rx.bytes, record]
    · refine (if_pos ⟨Seg.hdr_isFinal _, hmsg⟩).trans ?_
      rw [List.length_append, List.length_singleton, ← h.count]
      rfl
    · intro m hm
      rcases List.mem_append.mp hm with hm | hm
      · exact h.done m hm
      · rw [List.mem_singleton.mp hm]
        exact ⟨hmsg, hlen⟩
  | first done seq ack len part hlong hlen hfull =>
    simp only [Seg.begins, true_implies] at hadd
    obtain ⟨hwf₁, hpush₁⟩ := RingBuf.contents_push h.wf (toLE 2 len) (by rw [length_toLE]; omega)
    have hfree₁ : part.length ≤ (w.buf.push (toLE 2 len)).free := by
      rw [RingBuf.free, ← RingBuf.length_contents hwf₁, hpush₁, List.length_append, length_toLE]
      omega
    obtain ⟨hwf, hpush⟩ := RingBuf.contents_push hwf₁ part hfree₁
    have hless : part.length < len := by omega
    have hshort : part.length < 65536 := by omega
    refine ⟨_, run_acceptPayload hshort hless.le (by simp) hfree₁ hlevel hack hct, ?_, rfl, rfl,
      Seg.hdr_seqNum _⟩
    refine ⟨hwf, ?_, ?_, rfl, ?_, h.done⟩
    · refine hpush.trans ?_
      rw [hpush₁, hcont]
      simp [Rx.bytes]
    · exact (if_neg (by simp)).trans h.count
    · rintro _ _ ⟨⟩
      exact ⟨hless, hlen⟩
  | middle done seq ack len before part hless hfull =>
    obtain ⟨-, hlen⟩ := h.current len before rfl
    have hfree₁ : part.length ≤ w.buf.free := by
      simp only [Seg.hdrLen] at hfull
      omega
    obtain ⟨hwf, hpush⟩ := RingBuf.contents_push h.wf part hfree₁
    have hrem : w.remMsgLen = len - before.length := hmiss
    have hshort : part.length < 65536 := by omega
    have henough : part.length ≤ w.remMsgLen := by omega
    refine ⟨_, run_acceptPayload hshort henough (by simp) hfree₁ hlevel hack hct, ?_, rfl, rfl,
      Seg.hdr_seqNum _⟩
    refine ⟨hwf, ?_, ?_, ?_, ?_, h.done⟩
    · refine hpush.trans ?_
      rw [hcont]
      simp [Rx.bytes]
    · exact (if_neg (by simp)).trans h.count
    · show w.remMsgLen - part.length = len - (before ++ part).length
      rw [List.length_append]
      omega
    · rintro _ _ ⟨⟩
      rw [List.length_append]
      exact ⟨hless, hlen⟩
  | last done seq ack len before part hpart hlen hfit =>
    obtain ⟨hless, hmaxlen⟩ := h.current len before rfl
    have hfree₁ : part.length ≤ w.buf.free := by
      simp only [Seg.hdrLen] at hfit
      omega
    obtain ⟨hwf, hpush⟩ := RingBuf.contents_push h.wf part hfree₁
    have hrem : w.remMsgLen = part.length := by
      have hrem : w.remMsgLen = len - before.length := hmiss
      omega
    have hshort : part.length < 65536 := by omega
    refine ⟨_, run_acceptPayload hshort hrem.ge (fun _ => hrem) hfree₁ hlevel hack hct, ?_, rfl, rfl,
      Seg.hdr_seqNum _⟩
    refine ⟨hwf, ?_, ?_, ?_, by rintro _ _ ⟨⟩, ?_⟩
    · refine hpush.trans ?_
      rw [hcont]
      simp [Rx.bytes, record, ← hlen]
    · refine (if_pos ⟨Seg.hdr_isFinal _, hpart⟩).trans ?_
      rw [List.length_append, List.length_singleton, ← h.count]
    · show w.remMsgLen - part.length = 0
      omega
    · intro m hm
      rcases List.mem_append.mp hm with hm | hm
      · exact h.done m hm
      · rw [List.mem_singleton.mp hm, List.length_append, hlen]
        exact ⟨by simp [hpart], hmaxlen⟩

theorem run_popExact (h : w.buf.WellFormed) (front : List UInt8) {back : List UInt8} (want : ℕ)
    (hwant : front.length = want) (hcont : w.buf.contents = front ++ back) :
    ∃ buf, (popExact want).run w = ({ w with buf }, .ok front) ∧ buf.WellFormed ∧
      buf.contents = back := by
  subst hwant
  obtain ⟨hwf, hrest, hout⟩ := RingBuf.pop_eq h front.length
  rw [hcont, List.take_left] at hout
  rw [hcont, List.drop_left] at hrest
  refine ⟨(w.buf.pop front.length).1, ?_, hwf, hrest⟩
  rw [popExact, run_bind_of_ok (run_get w), run_bind_of_ok (run_modify _ _),
    run_bind_of_ok (run_ensure_of_pos (by rw [hout]) _ _), run_pure, hout]

theorem run_fetchMessage_record {msg back : List UInt8} (hwf : w.buf.WellFormed)
    (hcont : w.buf.contents = record msg ++ back) (hshort : msg.length < 65536) (hct : w.bufMessagesCt ≠ 0)
    (cap : ℕ) :
    ∃ buf, (fetchMessage cap).run w =
        ({ w with buf, bufMessagesCt := w.bufMessagesCt - 1 }, .ok (msg.take cap)) ∧
      buf.WellFormed ∧ buf.contents = back := by
  have hlen : ofLE (toLE 2 msg.length) = msg.length := ofLE_toLE hshort
  -- the length takes two bytes
  obtain ⟨lo, hi, hle⟩ : ∃ lo hi, toLE 2 msg.length = [lo, hi] := ⟨_, _, rfl⟩
  have hsplit : w.buf.contents = [lo] ++ ([hi] ++ (msg.take cap ++ (msg.drop cap ++ back))) := by
    rw [hcont, record, hle, ← List.append_assoc (msg.take cap), List.take_append_drop]
    rfl
  rw [hle] at hlen
  have hmin : (msg.take cap).length = min msg.length cap := by
    rw [List.length_take, Nat.min_comm]
  obtain ⟨buf₁, hrun₁, hwf₁, hcont₁⟩ := run_popExact hwf [lo] 1 rfl hsplit
  obtain ⟨buf₂, hrun₂, hwf₂, hcont₂⟩ := run_popExact (w := { w with buf := buf₁ }) hwf₁ [hi] 1 rfl hcont₁
  obtain ⟨buf₃, hrun₃, hwf₃, hcont₃⟩ :=
    run_popExact (w := { w with buf := buf₂ }) hwf₂ (msg.take cap) _ hmin hcont₂
  obtain ⟨buf₄, hrun₄, hwf₄, hcont₄⟩ :=
    run_popExact (w := { w with buf := buf₃ }) hwf₃ (msg.drop cap) _ List.length_drop hcont₃
  refine ⟨buf₄, ?_, hwf₄, hcont₄⟩
  rw [fetchMessage, run_bind_of_ok (run_get w), if_neg hct, run_bind_of_ok hrun₁,
    run_bind_of_ok hrun₂]
  dsimp only
  rw [List.singleton_append, hlen, run_bind_of_ok hrun₃, run_bind_of_ok hrun₄]
  rfl

/-- **The first complete message** is fetched as it was. -/
theorem run_fetchMessage {msg : List UInt8} {done : List (List UInt8)} {current : Option (ℕ × List UInt8)}
    {cap : ℕ} (h : w.Holds ⟨msg :: done, current⟩) (hcap : maxTxPacketSize ≤ cap) :
    ∃ buf, (fetchMessage cap).run w =
        ({ w with buf, bufMessagesCt := w.bufMessagesCt - 1 }, .ok msg) ∧
      Holds { w with buf, bufMessagesCt := w.bufMessagesCt - 1 } ⟨done, current⟩ := by
  have hct : w.bufMessagesCt = done.length + 1 := h.count
  have hmsg := (h.done msg List.mem_cons_self).2
  have hmax : maxTxPacketSize = 1232 := rfl
  have hbytes : w.buf.contents = record msg ++ Rx.bytes ⟨done, current⟩ := by
    rw [h.contents]
    simp [Rx.bytes]
  obtain ⟨buf, hrun, hwf, hcont⟩ := run_fetchMessage_record h.wf hbytes (by omega) (by omega) cap
  rw [List.take_of_length_le (hmsg.trans hcap)] at hrun
  refine ⟨buf, hrun, ⟨hwf, hcont, ?_, h.missing, h.current, fun m hm => h.done m (List.mem_cons_of_mem _ hm)⟩⟩
  show w.bufMessagesCt - 1 = done.length
  omega

end RecvWindow

/-! ## Sending -/

namespace Session

variable {s : Session} {data : List UInt8} {offset cap t r : ℕ}

/-- How much of a message goes into the next segment. -/
def chunkLen (s : Session) (data : List UInt8) (offset : ℕ) : ℕ :=
  min (data.length - offset) (s.mtu - (s.dataHdr data offset).len)

/-- The next segment of a message, where `t` segments have been sent and `r` received. -/
def nextSeg (s : Session) (data : List UInt8) (offset t r : ℕ) : Seg where
  seq := t + 1
  ack := s.recvWindow.pendingAck.map fun _ => r
  part := if data = [] then .ack else if offset = 0 then .first data.length else .rest
  final := decide (data ≠ [] ∧ s.chunkLen data offset = data.length - offset)
  payload := (data.drop offset).take (s.chunkLen data offset)

def afterSend (s : Session) : Session :=
  { s with
    sendWindow :=
      { s.sendWindow with
        level := s.sendWindow.level - 1
        lastSentSeqNum := s.sendWindow.nextSeqNum }
    recvWindow :=
      if s.recvWindow.pendingAck.isSome then
        { s.recvWindow with level := s.recvWindow.level + s.recvWindow.ackLevel, ackLevel := 0 }
      else s.recvWindow }

/-- Without the flag of the last one, the header is the one `dataHdr` makes. -/
theorem hdr_nextSeg (hseq : s.sendWindow.lastSentSeqNum = BitVec.ofNat 8 t)
    (hack : s.recvWindow.ackSeq = BitVec.ofNat 8 r) :
    Seg.hdr { s.nextSeg data offset t r with final := false } = s.dataHdr data offset := by
  have hnext : s.sendWindow.nextSeqNum = BitVec.ofNat 8 (t + 1) := by
    rw [SendWindow.nextSeqNum, hseq, BitVec.ofNat_add]
    rfl
  have hpending : s.recvWindow.pendingAck.map (BitVec.ofNat 8 ∘ fun _ => r) = s.recvWindow.pendingAck := by
    rw [RecvWindow.pendingAck]
    split
    · rw [hack]
      rfl
    · rfl
  rw [dataHdr, hnext, Seg.hdr]
  simp only [nextSeg, Option.map_map, hpending]
  by_cases hdata : data = []
  · simp [hdata]
  · by_cases hoff : offset = 0 <;> simp [hdata, hoff]

theorem len_dataHdr (hseq : s.sendWindow.lastSentSeqNum = BitVec.ofNat 8 t)
    (hack : s.recvWindow.ackSeq = BitVec.ofNat 8 r) :
    (s.dataHdr data offset).len = (s.nextSeg data offset t r).hdrLen := by
  rw [← hdr_nextSeg hseq hack, Seg.hdr_len]
  rfl

theorem hdrLen_nextSeg_le : (s.nextSeg data offset t r).hdrLen ≤ 5 := by
  rw [Seg.hdrLen]
  split <;> split <;> omega

theorem hdr_nextSeg_final (hseq : s.sendWindow.lastSentSeqNum = BitVec.ofNat 8 t)
    (hack : s.recvWindow.ackSeq = BitVec.ofNat 8 r) :
    (s.nextSeg data offset t r).hdr =
      if data ≠ [] ∧ s.chunkLen data offset = data.length - offset then (s.dataHdr data offset).setFinal
      else s.dataHdr data offset := by
  have hfinal : (s.nextSeg data offset t r).hdr =
      if (s.nextSeg data offset t r).final = true then
        (Seg.hdr { s.nextSeg data offset t r with final := false }).setFinal
      else Seg.hdr { s.nextSeg data offset t r with final := false } := by
    simp [Seg.hdr]
  rw [hfinal, hdr_nextSeg hseq hack]
  simp only [nextSeg, decide_eq_true_eq]

theorem chunkLen_eq (data : List UInt8) (offset : ℕ) (hmtu : 5 ≤ s.mtu)
    (hseq : s.sendWindow.lastSentSeqNum = BitVec.ofNat 8 t)
    (hack : s.recvWindow.ackSeq = BitVec.ofNat 8 r) :
    s.chunkLen data offset = min (data.length - offset) (s.mtu - (s.nextSeg data offset t r).hdrLen) ∧
      (s.nextSeg data offset t r).hdrLen ≤ s.mtu := by
  rw [chunkLen, len_dataHdr hseq hack]
  exact ⟨rfl, hdrLen_nextSeg_le.trans hmtu⟩

theorem length_payload_nextSeg :
    (s.nextSeg data offset t r).payload.length = s.chunkLen data offset := by
  simp only [nextSeg, List.length_take, List.length_drop]
  exact Nat.min_eq_left (Nat.min_le_left _ _)

theorem run_prepTxData_of_full (hfull : s.sendWindow.isFull s.recvWindow = true) :
    (prepTxData data offset cap).run s = (s, .ok ([], offset)) := by
  rw [prepTxData, run_bind_of_ok (run_get _), if_pos hfull, run_pure]

theorem one_le_level_of_not_full (hfull : s.sendWindow.isFull s.recvWindow = false) :
    1 ≤ s.sendWindow.level := by
  rw [SendWindow.isFull] at hfull
  have hpos : s.sendWindow.level ≠ 0 := by
    intro h0
    simp [h0] at hfull
  omega

/-- A segment has been sent, as far as the window for what we send is concerned. -/
theorem run_onSendWindow_postSend (hsend : 1 ≤ s.sendWindow.level) :
    (onSendWindow SendWindow.postSend).run s = ({ s with sendWindow := s.afterSend.sendWindow }, .ok ()) := by
  refine run_onSendWindow ?_
  rw [SendWindow.postSend, run_bind_of_ok (run_get _), checkedSub_of_le hsend,
    run_bind_of_ok (run_ofExcept _ _), run_modify]
  rfl

theorem run_onRecvWindow_postSend (hlevel : s.recvWindow.level + s.recvWindow.ackLevel < 256) :
    (onRecvWindow RecvWindow.postSend).run { s with sendWindow := s.afterSend.sendWindow } =
      (s.afterSend, .ok ()) := by
  have hrun : RecvWindow.postSend.run s.recvWindow = (s.afterSend.recvWindow, .ok ()) := by
    rw [RecvWindow.postSend, run_bind_of_ok (run_get _), Prog.onlyIf]
    by_cases hpending : s.recvWindow.pendingAck.isSome = true
    · rw [if_pos hpending, checkedAdd_of_lt hlevel, run_bind_of_ok (run_ofExcept _ _),
        run_modify, afterSend, if_pos hpending]
    · rw [if_neg hpending, run_pure, afterSend, if_neg hpending]
  exact run_onRecvWindow hrun

/-- **The sender** makes the next segment. -/
theorem run_prepTxData (hfull : s.sendWindow.isFull s.recvWindow = false) (hmtu : 5 ≤ s.mtu)
    (hcap : s.mtu ≤ cap) (hoff : data = [] ∧ offset = 0 ∨ offset < data.length)
    (hlevel : s.recvWindow.level + s.recvWindow.ackLevel < 256)
    (hseq : s.sendWindow.lastSentSeqNum = BitVec.ofNat 8 t)
    (hack : s.recvWindow.ackSeq = BitVec.ofNat 8 r) :
    (prepTxData data offset cap).run s =
      (s.afterSend, .ok ((s.nextSeg data offset t r).bytes, offset + s.chunkLen data offset)) := by
  obtain ⟨hchunk, hhdr⟩ := chunkLen_eq data offset hmtu hseq hack
  have hpost₁ := run_onSendWindow_postSend (one_le_level_of_not_full hfull)
  have hpost₂ := run_onRecvWindow_postSend hlevel
  have hlen := (s.nextSeg data offset t r).length_bytes
  rw [length_payload_nextSeg] at hlen
  have hbytes : (s.nextSeg data offset t r).bytes.length ≤ cap := by omega
  rw [prepTxData, run_bind_of_ok (run_get _), hfull, if_neg (by simp)]
  dsimp only
  rw [run_bind_of_ok (run_ensure_of_pos (by omega) _ _)]
  have hmax : (if data = [] then .ok 0 else checkedSub s.mtu (s.dataHdr data offset).len) =
      (.ok (if data = [] then 0 else s.mtu - (s.dataHdr data offset).len) : Except Fault ℕ) := by
    rw [len_dataHdr hseq hack, checkedSub_of_le hhdr]
    split <;> rfl
  have hend : min (data.drop offset).length
      (if data = [] then 0 else s.mtu - (s.dataHdr data offset).len) = s.chunkLen data offset := by
    rw [List.length_drop, chunkLen]
    split
    · next hnil => simp [hnil]
    · rfl
  rw [hmax, run_bind_of_ok (run_ofExcept _ _), hend, List.length_drop,
    ← hdr_nextSeg_final hseq hack]
  have hseg : (s.nextSeg data offset t r).hdr.encode ++ (data.drop offset).take (s.chunkLen data offset) =
      (s.nextSeg data offset t r).bytes := rfl
  rw [hseg, write, run_bind_of_ok (run_ensure_of_pos hbytes _ _), run_bind_of_ok hpost₁,
    run_bind_of_ok hpost₂, run_pure]

theorem absorb_nextSeg_ack {rx : Rx} (hpending : s.recvWindow.pendingAck.isSome = true) :
    rx.Absorb s.mtu (s.nextSeg [] 0 t r) rx := by
  obtain ⟨n, hn⟩ := Option.isSome_iff_exists.mp hpending
  have hseg : s.nextSeg [] 0 t r = ⟨t + 1, some r, .ack, false, []⟩ := by
    simp [nextSeg, hn]
  rw [hseg]
  exact .ack rx (t + 1) r

/-- What the receiver has of a message of which some bytes have been sent. -/
def coming (data : List UInt8) (offset : ℕ) : Option (ℕ × List UInt8) :=
  if offset = 0 then none else some (data.length, data.take offset)

/-- **The receiver may take the next segment** of a message, if the first one is either too
short for the message or has room for all of it. -/
theorem absorb_nextSeg (hmtu : 6 ≤ s.mtu) (hoff : offset < data.length)
    (hmax : data.length ≤ maxTxPacketSize)
    (hfit : offset = 0 → s.mtu < data.length ∨ (s.nextSeg data 0 t r).hdrLen + data.length ≤ s.mtu)
    (hseq : s.sendWindow.lastSentSeqNum = BitVec.ofNat 8 t)
    (hack : s.recvWindow.ackSeq = BitVec.ofNat 8 r) (done : List (List UInt8)) :
    Rx.Absorb s.mtu ⟨done, coming data offset⟩ (s.nextSeg data offset t r)
      (if offset + s.chunkLen data offset = data.length then ⟨done ++ [data], none⟩
        else ⟨done, coming data (offset + s.chunkLen data offset)⟩) := by
  obtain ⟨hchunk, hhdr⟩ := chunkLen_eq data offset (by omega) hseq hack
  have hle : (s.nextSeg data offset t r).hdrLen ≤ 5 := hdrLen_nextSeg_le
  have hdata : data ≠ [] := List.ne_nil_of_length_pos (by omega)
  have hpayload : (s.nextSeg data offset t r).payload.length = s.chunkLen data offset :=
    length_payload_nextSeg
  have hpos : 0 < s.chunkLen data offset := by omega
  have hnext : coming data (offset + s.chunkLen data offset) =
      some (data.length, data.take offset ++ (data.drop offset).take (s.chunkLen data offset)) := by
    rw [coming, if_neg (by omega), List.take_add]
  by_cases hlast : offset + s.chunkLen data offset = data.length
  · have hfinal : s.chunkLen data offset = data.length - offset := by omega
    rw [if_pos hlast]
    by_cases hzero : offset = 0
    · subst hzero
      have hseg : s.nextSeg data 0 t r =
          ⟨t + 1, s.recvWindow.pendingAck.map fun _ => r, .first data.length, true, data⟩ := by
        simp [nextSeg, hdata, hfinal]
      rw [hseg] at hchunk hhdr ⊢
      exact .whole done (t + 1) _ data hdata hmax (by omega)
    · have hseg : s.nextSeg data offset t r =
          ⟨t + 1, s.recvWindow.pendingAck.map fun _ => r, .rest, true, data.drop offset⟩ := by
        simp [nextSeg, hdata, hfinal, hzero]
      rw [hseg] at hchunk hhdr hpayload ⊢
      rw [coming, if_neg hzero]
      have hjoin : done ++ [data] = done ++ [data.take offset ++ data.drop offset] := by
        rw [List.take_append_drop]
      rw [hjoin]
      refine .last done (t + 1) _ data.length (data.take offset) (data.drop offset) ?_ ?_ ?_
      · exact List.ne_nil_of_length_pos (by rw [List.length_drop]; omega)
      · rw [List.length_take, List.length_drop]
        omega
      · rw [List.length_drop]
        omega
  · have hless : s.chunkLen data offset ≠ data.length - offset := by omega
    rw [if_neg hlast, hnext]
    by_cases hzero : offset = 0
    · subst hzero
      have hseg : s.nextSeg data 0 t r = ⟨t + 1, s.recvWindow.pendingAck.map fun _ => r,
          .first data.length, false, data.take (s.chunkLen data 0)⟩ := by
        have hless' : s.chunkLen data 0 ≠ data.length := by omega
        simp [nextSeg, hdata, hless']
      rw [hseg] at hchunk hhdr hpayload hfit ⊢
      have hlong : s.mtu < data.length := by
        rcases hfit rfl with hlong | hfit
        · exact hlong
        · omega
      refine .first done (t + 1) _ data.length _ hlong hmax ?_
      rw [List.length_take]
      omega
    · have hseg : s.nextSeg data offset t r = ⟨t + 1, s.recvWindow.pendingAck.map fun _ => r,
          .rest, false, (data.drop offset).take (s.chunkLen data offset)⟩ := by
        simp [nextSeg, hdata, hzero, hless]
      rw [hseg] at hchunk hhdr hpayload ⊢
      rw [coming, if_neg hzero]
      refine .middle done (t + 1) _ data.length (data.take offset) _ ?_ ?_
      · rw [List.length_take, hpayload]
        omega
      · rw [hpayload]
        omega

end Session

end Btp

end RsMatter
