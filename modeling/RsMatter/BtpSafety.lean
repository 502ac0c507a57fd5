import RsMatter.BtpSegments
import RsMatter.Machine

/-!
# What a peer can do to a session

Every byte of a segment is the peer's choice: the sizes of the handshake, the number it
acknowledges, the length it announces for a message. A session is driven by calls in any
order here (`Session.calls`). `RecvWindow.Passes` and `RecvWindow.Takes` are the checks of
the receive window before and after it begins to change; what they leave to the peer is
`Session.Fits`, and with that all the arithmetic fits (`Session.inRange_of_fits`). Without
it, two bytes are enough for a panic (`Session.early_segment_panics`).
-/

namespace RsMatter

open Prog

namespace Btp

/-! ## Taking a segment -/

namespace RecvWindow

/-- The checks that come before anything changes. -/
def Passes (w : RecvWindow) (hdr : BtpHdr) (payload : List UInt8) (mtu : ℕ) : Prop :=
  w.checkDataIntegrity hdr payload mtu = true ∧
    ∀ len ∈ hdr.getMsgLen, mtu < len.toNat ∨ hdr.isFinal = true

/-- How many bytes are missing when the segment has begun a message, if it begins one. -/
def expected (w : RecvWindow) (hdr : BtpHdr) : ℕ := (hdr.getMsgLen.map BitVec.toNat).getD w.remMsgLen

/-- There is room for the length of the message that begins. -/
def HasRoom (w : RecvWindow) (hdr : BtpHdr) : Prop := ∀ len ∈ hdr.getMsgLen, 0 < len.toNat → 2 ≤ w.buf.free

/-- The window when the segment has begun a message, if it begins one. -/
def begun (w : RecvWindow) (hdr : BtpHdr) : RecvWindow :=
  match hdr.getMsgLen with
  | none => w
  | some len =>
    { w with
      remMsgLen := len.toNat
      buf := if 0 < len.toNat then w.buf.push (toLE 2 len.toNat) else w.buf }

structure Takes (w : RecvWindow) (hdr : BtpHdr) (payload : List UInt8) : Prop where
  room : w.HasRoom hdr
  /-- there are not more bytes than announced -/
  fits : payload.length % 65536 ≤ w.expected hdr
  whole : hdr.isFinal = true → w.expected hdr - payload.length % 65536 = 0
  free : payload.length ≤ (w.begun hdr).buf.free

-- by the value there is, not by all there could be
instance (w : RecvWindow) (hdr : BtpHdr) (payload : List UInt8) (mtu : ℕ) :
    Decidable (w.Passes hdr payload mtu) :=
  have : Decidable (∀ len ∈ hdr.getMsgLen, mtu < len.toNat ∨ hdr.isFinal = true) :=
    Option.decidableForallMem hdr.getMsgLen
  instDecidableAnd

instance (w : RecvWindow) (hdr : BtpHdr) : Decidable (w.HasRoom hdr) :=
  Option.decidableForallMem hdr.getMsgLen

instance (w : RecvWindow) (hdr : BtpHdr) (payload : List UInt8) : Decidable (w.Takes hdr payload) :=
  decidable_of_iff
    (w.HasRoom hdr ∧ payload.length % 65536 ≤ w.expected hdr ∧
      (hdr.isFinal = true → w.expected hdr - payload.length % 65536 = 0) ∧
      payload.length ≤ (w.begun hdr).buf.free)
    ⟨fun h => ⟨h.1, h.2.1, h.2.2.1, h.2.2.2⟩, fun h => ⟨h.room, h.fits, h.whole, h.free⟩⟩

variable {w : RecvWindow} {hdr : BtpHdr} {payload : List UInt8} {mtu : ℕ}

@[simp] theorem begun_remMsgLen : (w.begun hdr).remMsgLen = w.expected hdr := by
  rw [begun, expected]
  cases hdr.getMsgLen <;> rfl

@[simp] theorem begun_level : (w.begun hdr).level = w.level := by
  rw [begun]
  cases hdr.getMsgLen <;> rfl

@[simp] theorem begun_ackLevel : (w.begun hdr).ackLevel = w.ackLevel := by
  rw [begun]
  cases hdr.getMsgLen <;> rfl

@[simp] theorem begun_bufMessagesCt : (w.begun hdr).bufMessagesCt = w.bufMessagesCt := by
  rw [begun]
  cases hdr.getMsgLen <;> rfl

def lengthBytes (hdr : BtpHdr) : List UInt8 :=
  match hdr.getMsgLen with
  | none => []
  | some len => if 0 < len.toNat then toLE 2 len.toNat else []

theorem begun_buf (hwf : w.buf.WellFormed) (hroom : w.HasRoom hdr) :
    (w.begun hdr).buf.WellFormed ∧
      (w.begun hdr).buf.contents = w.buf.contents ++ lengthBytes hdr := by
  rw [begun, lengthBytes]
  rw [HasRoom] at hroom
  cases hlen : hdr.getMsgLen with
  | none => simp [hwf]
  | some len =>
    by_cases hpos : 0 < len.toNat
    · simp only [hpos, if_true]
      exact RingBuf.contents_push hwf _ (hroom len hlen hpos)
    · simp [hpos, hwf]

theorem free_le (w : RecvWindow) : w.buf.free ≤ maxMessageSize := Nat.sub_le _ _

/-- The first part of `acceptIncoming`, where there is room. -/
theorem run_begun (hpass : w.Passes hdr payload mtu) (hroom : w.HasRoom hdr) :
    (Prog.whenSome hdr.getMsgLen fun msgLen => beginMessage hdr msgLen mtu).run w = (w.begun hdr, .ok ()) := by
  rw [HasRoom] at hroom
  obtain ⟨-, hlong⟩ := hpass
  rw [begun]
  cases hlen : hdr.getMsgLen with
  | none => rfl
  | some len =>
    rw [Prog.whenSome, beginMessage, run_bind_of_ok (run_ensure_of_pos (hlong len hlen) _ _),
      run_bind_of_ok (run_modify _ _)]
    by_cases hpos : 0 < len.toNat
    · rw [Prog.onlyIf, if_pos hpos, run_bind_of_ok (run_get _),
        run_bind_of_ok (run_ensure_of_pos (hroom len hlen hpos) _ _), run_modify]
      simp [hpos]
    · rw [Prog.onlyIf, if_neg hpos, run_pure]
      simp [hpos]

/-- The first part of `acceptIncoming`, where there is no room. -/
theorem run_begun_of_full (hpass : w.Passes hdr payload mtu) (hroom : ¬ w.HasRoom hdr) :
    (Prog.whenSome hdr.getMsgLen fun msgLen => beginMessage hdr msgLen mtu).run w =
      ({ w with remMsgLen := w.expected hdr }, .error (.error .invalidData)) := by
  obtain ⟨-, hlong⟩ := hpass
  rw [HasRoom] at hroom
  push Not at hroom
  obtain ⟨len, hlen, hpos, hfree⟩ := hroom
  have hlen : hdr.getMsgLen = some len := hlen
  rw [expected, hlen, Prog.whenSome, beginMessage,
    run_bind_of_ok (run_ensure_of_pos (hlong len hlen) _ _),
    run_bind_of_ok (run_modify _ _), Prog.onlyIf, if_pos hpos, run_bind_of_ok (run_get _),
    run_bind_of_error (run_ensure_of_neg (by simpa using hfree) _ _)]
  rfl

/-- **A segment that does not pass** changes nothing. -/
theorem run_acceptIncoming_of_not_passes (h : ¬ w.Passes hdr payload mtu) :
    (acceptIncoming hdr payload mtu).run w = (w, .error (.error .invalidData)) := by
  rw [acceptIncoming, run_bind_of_ok (run_get w)]
  by_cases hint : w.checkDataIntegrity hdr payload mtu = true
  · rw [run_bind_of_ok (run_ensure_of_pos hint _ _)]
    obtain ⟨len, hlen, hshort⟩ : ∃ len, hdr.getMsgLen = some len ∧ ¬ (mtu < len.toNat ∨ hdr.isFinal = true) := by
      rw [Passes] at h
      push Not at h
      obtain ⟨len, hlen, hshort, hfinal⟩ := h hint
      exact ⟨len, hlen, not_or.mpr ⟨hshort.not_gt, hfinal⟩⟩
    rw [hlen, Prog.whenSome, beginMessage]
    exact run_bind_of_error (run_bind_of_error (run_ensure_of_neg hshort _ _))
  · exact run_bind_of_error (run_ensure_of_neg hint _ _)

/-- A segment that passes is begun and then its payload is accepted. -/
theorem run_acceptIncoming_of_passes (hpass : w.Passes hdr payload mtu) (hroom : w.HasRoom hdr) :
    (acceptIncoming hdr payload mtu).run w = (acceptPayload hdr payload).run (w.begun hdr) := by
  rw [acceptIncoming, run_bind_of_ok (run_get w),
    run_bind_of_ok (run_ensure_of_pos hpass.1 _ _), run_bind_of_ok (run_begun hpass hroom)]

theorem run_acceptPayload_of_long (h : ¬ payload.length % 65536 ≤ w.remMsgLen) :
    (acceptPayload hdr payload).run w = (w, .error (.error .invalidData)) := by
  rw [acceptPayload, run_bind_of_ok (run_get w)]
  exact run_bind_of_error (run_ensure_of_neg h _ _)

theorem run_acceptPayload_of_refused (hrem : payload.length % 65536 ≤ w.remMsgLen)
    (h : ¬ ((hdr.isFinal = true → w.remMsgLen - payload.length % 65536 = 0) ∧ payload.length ≤ w.buf.free)) :
    (acceptPayload hdr payload).run w =
      ({ w with remMsgLen := w.remMsgLen - payload.length % 65536 }, .error (.error .invalidData)) := by
  rw [acceptPayload, run_bind_of_ok (run_get w),
    run_bind_of_ok (run_ensure_of_pos hrem _ _), run_bind_of_ok (run_modify _ _),
    run_bind_of_ok (run_get _)]
  by_cases hfinal : hdr.isFinal = true → w.remMsgLen - payload.length % 65536 = 0
  · rw [run_bind_of_ok (run_ensure_of_pos hfinal _ _)]
    exact run_bind_of_error (run_ensure_of_neg (fun hfree => h ⟨hfinal, hfree⟩) _ _)
  · exact run_bind_of_error (run_ensure_of_neg hfinal _ _)

/-- **A segment that is refused half-way** changes the buffer and the number of missing bytes
only. -/
theorem run_acceptIncoming_of_not_takes (hwf : w.buf.WellFormed) (hpass : w.Passes hdr payload mtu)
    (h : ¬ w.Takes hdr payload) :
    ∃ buf remMsgLen, (acceptIncoming hdr payload mtu).run w =
        ({ w with buf, remMsgLen }, .error (.error .invalidData)) ∧ buf.WellFormed := by
  by_cases hroom : w.HasRoom hdr
  · obtain ⟨hwf', -⟩ := begun_buf hwf hroom
    have hsame : ∀ rem, { w.begun hdr with remMsgLen := rem } =
        { w with buf := (w.begun hdr).buf, remMsgLen := rem } := by
      intro rem
      rw [begun]
      cases hdr.getMsgLen <;> rfl
    rw [run_acceptIncoming_of_passes hpass hroom]
    by_cases hrem : payload.length % 65536 ≤ (w.begun hdr).remMsgLen
    · refine ⟨_, (w.begun hdr).remMsgLen - payload.length % 65536, ?_, hwf'⟩
      rw [run_acceptPayload_of_refused hrem, ← hsame]
      rintro ⟨hwhole, hfree⟩
      rw [begun_remMsgLen] at hrem hwhole
      exact h ⟨hroom, hrem, hwhole, hfree⟩
    · refine ⟨_, (w.begun hdr).remMsgLen, ?_, hwf'⟩
      rw [run_acceptPayload_of_long hrem, ← hsame]
  · refine ⟨w.buf, w.expected hdr, ?_, hwf⟩
    rw [acceptIncoming, run_bind_of_ok (run_get w),
      run_bind_of_ok (run_ensure_of_pos hpass.1 _ _)]
    exact run_bind_of_error (run_begun_of_full hpass hroom)

theorem Takes.length_lt (h : w.Takes hdr payload) : payload.length < 65536 := by
  have hfree := (w.begun hdr).free_le
  have hmax : maxMessageSize = 3166 := rfl
  have := h.free
  omega

theorem Takes.mod_eq (h : w.Takes hdr payload) : payload.length % 65536 = payload.length :=
  Nat.mod_eq_of_lt h.length_lt

/-- **A segment that is taken**, where the numbers fit. -/
theorem run_acceptIncoming_of_takes (hpass : w.Passes hdr payload mtu) (h : w.Takes hdr payload)
    (hlevel : 1 ≤ w.level) (hack : w.ackLevel < 255) (hct : w.bufMessagesCt < 255) :
    (acceptIncoming hdr payload mtu).run w = ((w.begun hdr).withPayload hdr payload, .ok ()) := by
  have hfits := h.fits
  have hwhole := h.whole
  rw [h.mod_eq] at hfits hwhole
  rw [run_acceptIncoming_of_passes hpass h.room]
  refine run_acceptPayload h.length_lt ?_ ?_ h.free ?_ ?_ ?_
  · rwa [begun_remMsgLen]
  · intro hfinal
    have := hwhole hfinal
    rw [begun_remMsgLen]
    omega
  · rwa [begun_level]
  · rwa [begun_ackLevel]
  · rwa [begun_bufMessagesCt]

end RecvWindow

/-! ## Calls -/

namespace Session

def reset (s : Session) : Session :=
  { s with
    address := 0
    version := 0
    mtu := 0
    windowSize := 0
    handshakePending := false
    recvWindow := ⟨s.recvWindow.buf.clear, 0, 0, 0, 255, 0⟩
    sendWindow := .new }

def setRelaxedMtuNego (relaxedMtuNego : Bool) (s : Session) : Session := { s with relaxedMtuNego }

/-- Choose the role; the one who starts the session has a handshake packet to send. -/
def setInitiator (initiator : Bool) (s : Session) : Session :=
  { s with
    initiator
    handshakePending := initiator }

inductive Call where
  | reset
  | setRelaxedMtuNego (relaxedMtuNego : Bool)
  | setInitiator (initiator : Bool)
  | processRx (gattMtu : Option (BitVec 16)) (address : BitVec 48) (data : List UInt8)
  | prepTxHandshake (gattMtu : Option (BitVec 16)) (cap : ℕ)
  | prepTxData (data : List UInt8) (offset cap : ℕ)
  | fetchMessage (cap : ℕ)
  deriving DecidableEq

def call : Call → Prog Fault Session Unit
  | .reset => Prog.modify reset
  | .setRelaxedMtuNego relaxedMtuNego => Prog.modify (setRelaxedMtuNego relaxedMtuNego)
  | .setInitiator initiator => Prog.modify (setInitiator initiator)
  | .processRx gattMtu address data => processRx (gattMtu.map BitVec.toNat) address data
  | .prepTxHandshake gattMtu cap => do
    let _ ← prepTxHandshake (gattMtu.map BitVec.toNat) cap
  | .prepTxData data offset cap => do
    let _ ← prepTxData data offset cap
  | .fetchMessage cap => do
    let _ ← fetchMessage cap

structure Driven where
  session : Session
  crashed : Bool
  deriving DecidableEq

/-- Calls in any order. Nothing is called after a panic. -/
def calls : Machine Driven Call where
  step d c :=
    if d.crashed then none
    else
      some
        { session := ((call c).run d.session).1
          crashed := decide (((call c).run d.session).2 = .error .panic) }

/-! ## Arithmetic -/

structure InRange (s : Session) : Prop where
  buf : s.recvWindow.buf.WellFormed
  windowSize : s.windowSize ≤ 255
  sendSize : s.sendWindow.windowSize = s.windowSize
  /-- not more can be sent than the window has room for -/
  send : s.sendWindow.level ≤ s.windowSize
  /-- what can be received and what is to be acknowledged fill the window -/
  recv : s.recvWindow.level + s.recvWindow.ackLevel = s.windowSize
  /-- complete messages have not been acknowledged yet -/
  count : s.recvWindow.bufMessagesCt ≤ s.recvWindow.ackLevel
  /-- there is no MTU before the handshake, and a payload fits into it afterwards -/
  mtu : s.mtu = 0 ∧ s.windowSize = 0 ∨ 1 ≤ s.mtu ∧ s.mtu ≤ maxMtu

/-- A handshake request can be answered: the MTU leaves room for a payload, and nothing is left to
be acknowledged from an earlier handshake. -/
def FitsReq (s : Session) (gattMtu : Option ℕ) (req : HandshakeReq) : Prop :=
  (gattMtu = some req.mtu ∨ s.relaxedMtuNego = true →
      gattHeaderSize < req.mtu ∧ ∀ mtu ∈ gattMtu, gattHeaderSize < mtu) ∧
    s.recvWindow.ackLevel = 0

def FitsResp (s : Session) (resp : HandshakeResp) : Prop :=
  1 ≤ resp.mtu ∧ resp.mtu ≤ maxMtu ∧ s.recvWindow.ackLevel = 0

/-- A segment with data can be taken: there is room in the window, and what it acknowledges has been
sent. -/
def FitsData (s : Session) (hdr : BtpHdr) (payload : List UInt8) : Prop :=
  s.recvWindow.Passes hdr payload s.mtu → s.recvWindow.Takes hdr payload →
    1 ≤ s.recvWindow.level ∧
      ∀ ack ∈ hdr.getAck, (s.sendWindow.lastSentSeqNum - ack).toNat ≤ s.sendWindow.windowSize

def FitsSegment (s : Session) (gattMtu : Option ℕ) (hdr : BtpHdr) (payload : List UInt8) : Prop :=
  if hdr.isHandshake then
    RecvWindow.checkHandshakeIntegrity hdr = true →
      if s.initiator then ∀ resp ∈ (HandshakeResp.decode payload).toOption, s.FitsResp resp
      else ∀ req ∈ (HandshakeReq.decode payload).toOption, s.FitsReq gattMtu req
  else s.FitsData hdr payload

def FitsRx (s : Session) (gattMtu : Option ℕ) (data : List UInt8) : Prop :=
  ∀ r ∈ (BtpHdr.decode data).toOption, s.FitsSegment gattMtu r.1 r.2

def Fits (d : Driven) : Call → Prop
  | .processRx gattMtu _ data => d.session.FitsRx (gattMtu.map BitVec.toNat) data
  | .prepTxHandshake _ _ => d.session.handshakePending = true → 1 ≤ d.session.sendWindow.level
  | .prepTxData data offset _ =>
    d.session.sendWindow.isFull d.session.recvWindow = false → data ≠ [] →
      offset ≤ data.length ∧ (d.session.dataHdr data offset).len ≤ d.session.mtu
  | _ => True

instance (s : Session) (gattMtu : Option ℕ) (req : HandshakeReq) : Decidable (s.FitsReq gattMtu req) :=
  inferInstanceAs (Decidable (_ ∧ _))

instance (s : Session) (resp : HandshakeResp) : Decidable (s.FitsResp resp) :=
  inferInstanceAs (Decidable (_ ∧ _))

instance (s : Session) (hdr : BtpHdr) (payload : List UInt8) : Decidable (s.FitsData hdr payload) :=
  have : Decidable (∀ ack ∈ hdr.getAck, (s.sendWindow.lastSentSeqNum - ack).toNat ≤ s.sendWindow.windowSize) :=
    Option.decidableForallMem hdr.getAck
  inferInstanceAs (Decidable (_ → _ → _ ∧ _))

instance (s : Session) (gattMtu : Option ℕ) (hdr : BtpHdr) (payload : List UInt8) :
    Decidable (s.FitsSegment gattMtu hdr payload) :=
  inferInstanceAs
    (Decidable
      (if hdr.isHandshake then
        RecvWindow.checkHandshakeIntegrity hdr = true →
          if s.initiator then ∀ resp ∈ (HandshakeResp.decode payload).toOption, s.FitsResp resp
          else ∀ req ∈ (HandshakeReq.decode payload).toOption, s.FitsReq gattMtu req
      else s.FitsData hdr payload))

instance (s : Session) (gattMtu : Option ℕ) (data : List UInt8) : Decidable (s.FitsRx gattMtu data) :=
  inferInstanceAs (Decidable (∀ r ∈ (BtpHdr.decode data).toOption, s.FitsSegment gattMtu r.1 r.2))

instance decidableFits (d : Driven) : (c : Call) → Decidable (Fits d c)
  | .reset | .setRelaxedMtuNego _ | .setInitiator _ | .fetchMessage _ => .isTrue trivial
  | .processRx _ _ _ => inferInstanceAs (Decidable (FitsRx _ _ _))
  | .prepTxHandshake _ _ => inferInstanceAs (Decidable (_ → _))
  | .prepTxData _ _ _ => inferInstanceAs (Decidable (_ → _ → _))

/-- A program keeps the numbers in range and does not panic. -/
def Safe {α : Type} (m : Prog Fault Session α) (s : Session) : Prop :=
  (m.run s).1.InRange ∧ (m.run s).2 ≠ .error .panic

variable {s : Session} {hdr : BtpHdr} {payload data : List UInt8}

theorem InRange.new : Session.new.InRange :=
  ⟨RingBuf.wellFormed_new (by decide), by decide, rfl, le_rfl, rfl, le_rfl, .inl ⟨rfl, rfl⟩⟩

theorem InRange.reset (h : s.InRange) : s.reset.InRange :=
  ⟨h.buf.clear, Nat.zero_le _, rfl, le_rfl, rfl, le_rfl, .inl ⟨rfl, rfl⟩⟩

theorem InRange.setup (h : s.InRange) (hack : s.recvWindow.ackLevel = 0) (address : BitVec 48)
    (version : ℕ) {mtu windowSize : ℕ} (hmtu : 1 ≤ mtu ∧ mtu ≤ maxMtu) (hsize : windowSize ≤ 255) :
    (s.setup address version mtu windowSize).InRange := by
  refine ⟨h.buf, hsize, rfl, le_rfl, ?_, h.count, .inr hmtu⟩
  show windowSize + s.recvWindow.ackLevel = windowSize
  rw [hack, Nat.add_zero]

theorem safe_of_error {α : Type} {m : Prog Fault Session α} {code : ErrorCode} (h : s.InRange)
    (hrun : m.run s = (s, .error (.error code))) : Safe m s := by
  rw [Safe, hrun]
  exact ⟨h, nofun⟩

theorem safe_of_ok {α : Type} {m : Prog Fault Session α} {s' : Session} {a : α}
    (hrun : m.run s = (s', .ok a)) (h : s'.InRange) : Safe m s := by
  rw [Safe, hrun]
  exact ⟨h, nofun⟩

theorem safe_ignore {α : Type} {m : Prog Fault Session α} (h : Safe m s) :
    Safe (do let _ ← m) s := by
  rw [Safe] at *
  show ((m >>= fun _ => pure PUnit.unit).run s).1.InRange ∧ ((m >>= fun _ => pure PUnit.unit).run s).2 ≠ _
  rw [run_bind]
  rcases hr : m.run s with ⟨s', r⟩
  rw [hr] at h
  cases r with
  | ok a => exact ⟨h.1, nofun⟩
  | error e => exact ⟨h.1, fun he => h.2 (by cases he; rfl)⟩

theorem safe_orFail {α β : Type} {r : Except ErrorCode α} {k : α → Prog Fault Session β} (h : s.InRange)
    (hk : ∀ a ∈ r.toOption, Safe (k a) s) : Safe (orFail r >>= k) s := by
  cases r with
  | error e => exact safe_of_error h (run_bind_of_error (run_ofExcept _ _))
  | ok a =>
    have hrun : (orFail (.ok a) >>= k).run s = (k a).run s := run_bind_of_ok (run_ofExcept _ _)
    rw [Safe, hrun]
    exact hk a rfl

theorem safe_ensure {β : Type} {c : Prop} [Decidable c] {code : ErrorCode} {k : Unit → Prog Fault Session β}
    (h : s.InRange) (hk : c → Safe (k ()) s) : Safe (Prog.ensure c (.error code) >>= k) s := by
  by_cases hc : c
  · rw [Safe, run_bind_of_ok (run_ensure_of_pos hc _ _)]
    exact hk hc
  · exact safe_of_error h (run_bind_of_error (run_ensure_of_neg hc _ _))

theorem safe_get {β : Type} {k : Session → Prog Fault Session β} (h : Safe (k s) s) :
    Safe (Prog.get >>= k) s := by
  rw [Safe, run_bind_of_ok (run_get s)]
  exact h

theorem negotiateMtu_of_fits {gattMtu : Option ℕ} {req : HandshakeReq} (h : s.FitsReq gattMtu req) :
    ∃ mtu, negotiateMtu s.relaxedMtuNego gattMtu req.mtu = .ok mtu ∧ 1 ≤ mtu ∧ mtu ≤ maxMtu := by
  obtain ⟨hroom, -⟩ := h
  have hmin : minMtu = 23 := rfl
  have hmax : maxMtu = 247 := rfl
  have hhdr : gattHeaderSize = 3 := rfl
  -- the larger of the two checks on what remains
  have hsub : ∀ {n : ℕ}, gattHeaderSize < n → n ≤ maxMtu →
      ∃ mtu, checkedSub n gattHeaderSize = .ok mtu ∧ 1 ≤ mtu ∧ mtu ≤ maxMtu := by
    intro n hlt hle
    exact ⟨_, checkedSub_of_le hlt.le, by omega, by omega⟩
  rw [negotiateMtu]
  by_cases hsame : gattMtu = some req.mtu
  · obtain ⟨hreq, -⟩ := hroom (.inl hsame)
    simp only [hsame, if_true]
    exact hsub (by omega) (Nat.min_le_right _ _)
  · simp only [hsame, if_false]
    cases hrel : s.relaxedMtuNego with
    | false =>
      simp only [Bool.false_eq_true, if_false]
      exact hsub (by decide) (by decide)
    | true =>
      obtain ⟨hreq, hgatt⟩ := hroom (.inr hrel)
      refine hsub ?_ (Nat.min_le_right _ _)
      cases gattMtu with
      | none =>
        show gattHeaderSize < min (min req.mtu minMtu) maxMtu
        omega
      | some mtu =>
        have := hgatt mtu rfl
        show gattHeaderSize < min (min req.mtu mtu) maxMtu
        omega

theorem safe_processRxHandshakeReq {gattMtu : Option ℕ} (address : BitVec 48) (h : s.InRange)
    (hfits : RecvWindow.checkHandshakeIntegrity hdr = true →
      ∀ req ∈ (HandshakeReq.decode payload).toOption, s.FitsReq gattMtu req) :
    Safe (processRxHandshakeReq gattMtu address hdr payload) s := by
  refine safe_ensure h fun hint => safe_orFail h fun req hreq => safe_get ?_
  have hfit := hfits hint req hreq
  obtain ⟨mtu, hneg, hpos, hle⟩ := negotiateMtu_of_fits hfit
  have hsize : initialWindowSize mtu = .ok (min (maxMessageSize / mtu / 2) 255) :=
    if_neg (Nat.one_le_iff_ne_zero.mp hpos)
  rw [Safe, hneg, run_bind_of_ok (run_ofExcept _ _), hsize,
    run_bind_of_ok (run_ofExcept _ _), run_modify]
  refine ⟨h.setup hfit.2 address _ ⟨hpos, hle⟩ ?_, nofun⟩
  exact (Nat.min_le_right _ _).trans (Nat.min_le_right _ _)

theorem safe_processRxHandshakeResp (address : BitVec 48) (h : s.InRange)
    (hfits : RecvWindow.checkHandshakeIntegrity hdr = true →
      ∀ resp ∈ (HandshakeResp.decode payload).toOption, s.FitsResp resp) :
    Safe (processRxHandshakeResp address hdr payload) s := by
  refine safe_ensure h fun hint => safe_orFail h fun resp hresp => ?_
  obtain ⟨hpos, hle, hack⟩ := hfits hint resp hresp
  have hbyte : resp.windowSize ≤ 255 := by
    match payload, hresp with
    | v :: m0 :: m1 :: w :: _, hresp =>
      obtain rfl : _ = resp := Option.some_inj.mp hresp
      exact Nat.le_of_lt_succ w.toNat_lt
  exact safe_of_ok (run_modify _ _) (h.setup hack address resp.version ⟨hpos, hle⟩ hbyte)

/-- What an acknowledgement does to the window, where it is about something that has been sent. -/
theorem run_sendAccept {w : SendWindow} (hack : ∀ ack ∈ hdr.getAck, (w.lastSentSeqNum - ack).toNat ≤ w.windowSize)
    (hlevel : w.level ≤ w.windowSize) :
    ∃ level, (SendWindow.acceptIncoming hdr).run w = ({ w with level }, .ok ()) ∧ level ≤ w.windowSize := by
  rw [SendWindow.acceptIncoming]
  cases hget : hdr.getAck with
  | none => exact ⟨w.level, rfl, hlevel⟩
  | some ack =>
    rw [Prog.whenSome, run_bind_of_ok (run_get w)]
    by_cases hlast : w.lastSentSeqNum = ack
    · rw [if_pos hlast, run_modify]
      exact ⟨w.windowSize, rfl, le_rfl⟩
    · rw [if_neg hlast, checkedSub_of_le (hack ack hget), run_bind_of_ok (run_ofExcept _ _),
        run_modify]
      exact ⟨_, rfl, Nat.sub_le _ _⟩

theorem safe_processRxData (h : s.InRange) (hfits : s.FitsData hdr payload) :
    Safe (processRxData hdr payload) s := by
  have hwf := h.buf
  have hrecv := h.recv
  have hcount := h.count
  have hsize := h.windowSize
  by_cases hpass : s.recvWindow.Passes hdr payload s.mtu
  · by_cases htakes : s.recvWindow.Takes hdr payload
    · obtain ⟨hlevel, hack⟩ := hfits hpass htakes
      have hrun := RecvWindow.run_acceptIncoming_of_takes hpass htakes hlevel (by omega) (by omega)
      obtain ⟨level, hsend, hle⟩ := run_sendAccept hack (h.send.trans h.sendSize.ge)
      obtain ⟨hwf', -⟩ := RecvWindow.begun_buf hwf htakes.room
      obtain ⟨hwf'', -⟩ := RingBuf.contents_push hwf' payload htakes.free
      have hboth : (processRxData hdr payload).run s =
          ({ s with
              recvWindow := (s.recvWindow.begun hdr).withPayload hdr payload
              sendWindow := { s.sendWindow with level } }, .ok ()) := by
        rw [processRxData, run_bind_of_ok (run_get s), run_bind_of_ok (run_onRecvWindow hrun)]
        exact run_onSendWindow hsend
      rw [Safe, hboth]
      refine ⟨⟨hwf'', hsize, h.sendSize, hle.trans h.sendSize.le, ?_, ?_, h.mtu⟩, by rintro ⟨⟩⟩
      · show (s.recvWindow.begun hdr).level - 1 + ((s.recvWindow.begun hdr).ackLevel + 1) = s.windowSize
        rw [RecvWindow.begun_level, RecvWindow.begun_ackLevel]
        omega
      · simp only [RecvWindow.withPayload, RecvWindow.begun_bufMessagesCt, RecvWindow.begun_ackLevel]
        split <;> omega
    · obtain ⟨buf, rem, hrun, hwf'⟩ := RecvWindow.run_acceptIncoming_of_not_takes hwf hpass htakes
      rw [Safe, processRxData, run_bind_of_ok (run_get s),
        run_bind_of_error (run_onRecvWindow hrun)]
      exact ⟨⟨hwf', hsize, h.sendSize, h.send, hrecv, hcount, h.mtu⟩, by rintro ⟨⟩⟩
  · have hrun := RecvWindow.run_acceptIncoming_of_not_passes hpass
    exact safe_get (safe_of_error h (run_bind_of_error (run_onRecvWindow hrun)))

theorem safe_processRx {gattMtu : Option ℕ} (address : BitVec 48) (h : s.InRange)
    (hfits : s.FitsRx gattMtu data) : Safe (processRx gattMtu address data) s := by
  refine safe_orFail h ?_
  rintro ⟨hdr, payload⟩ hdec
  have hfits := hfits (hdr, payload) hdec
  rw [FitsSegment] at hfits
  refine safe_get ?_
  cases hhs : hdr.isHandshake with
  | true =>
    simp only [hhs, if_true] at hfits
    simp only [if_true]
    cases hin : s.initiator with
    | true =>
      simp only [hin, if_true] at hfits
      exact safe_processRxHandshakeResp address h hfits
    | false =>
      simp only [hin, Bool.false_eq_true, if_false] at hfits
      exact safe_processRxHandshakeReq address h hfits
  | false =>
    simp only [hhs, Bool.false_eq_true, if_false] at hfits
    exact safe_processRxData h hfits

theorem InRange.afterSend (h : s.InRange) : s.afterSend.InRange := by
  have hrecv := h.recv
  have hcount := h.count
  refine ⟨?_, h.windowSize, h.sendSize, (Nat.sub_le _ _).trans h.send, ?_, ?_, h.mtu⟩
  · rw [Session.afterSend]
    split
    · exact h.buf
    · exact h.buf
  · rw [Session.afterSend]
    split
    · exact hrecv
    · exact hrecv
  · rw [Session.afterSend]
    split
    · next hpending =>
      -- nothing is acknowledged while there is a complete message
      have hzero : s.recvWindow.bufMessagesCt = 0 := by
        rw [RecvWindow.pendingAck] at hpending
        split at hpending
        · next hct => exact hct.2
        · cases hpending
      exact hzero.le
    · exact hcount

theorem safe_prepTxHandshake (gattMtu : Option ℕ) (cap : ℕ) (h : s.InRange)
    (hfits : s.handshakePending = true → 1 ≤ s.sendWindow.level) : Safe (prepTxHandshake gattMtu cap) s := by
  refine safe_get ?_
  cases hpending : s.handshakePending with
  | false => exact ⟨h, nofun⟩
  | true =>
    refine safe_ensure h fun _ => ?_
    rw [Safe, run_bind_of_ok (run_onSendWindow_postSend (hfits hpending)),
      run_bind_of_ok (run_modify _ _), run_pure]
    exact ⟨⟨h.buf, h.windowSize, h.sendSize, (Nat.sub_le _ _).trans h.send, h.recv, h.count, h.mtu⟩, nofun⟩

theorem safe_prepTxData (offset cap : ℕ) (h : s.InRange)
    (hfits : s.sendWindow.isFull s.recvWindow = false → data ≠ [] →
      offset ≤ data.length ∧ (s.dataHdr data offset).len ≤ s.mtu) : Safe (prepTxData data offset cap) s := by
  have hbyte : s.recvWindow.level + s.recvWindow.ackLevel < 256 := by
    rw [h.recv]
    exact Nat.lt_succ_of_le h.windowSize
  cases hfull : s.sendWindow.isFull s.recvWindow with
  | true => exact safe_of_ok (run_prepTxData_of_full hfull) h
  | false =>
    have hoff : data = [] ∨ offset ≤ data.length := or_iff_not_imp_left.mpr fun hne => (hfits hfull hne).1
    obtain ⟨room, hroom⟩ : ∃ room, (if data = [] then .ok 0 else checkedSub s.mtu (s.dataHdr data offset).len) =
        (.ok room : Except Fault ℕ) := by
      by_cases hnil : data = []
      · exact ⟨0, if_pos hnil⟩
      · refine ⟨_, (if_neg hnil).trans (checkedSub_of_le (hfits hfull hnil).2)⟩
    refine safe_get ?_
    rw [hfull]
    rw [Safe, if_neg (by simp), run_bind_of_ok (run_ensure_of_pos hoff _ _), hroom,
      run_bind_of_ok (run_ofExcept _ _)]
    refine safe_ensure h fun _ => ?_
    rw [Safe, run_bind_of_ok (run_onSendWindow_postSend (one_le_level_of_not_full hfull)),
      run_bind_of_ok (run_onRecvWindow_postSend hbyte), run_pure]
    exact ⟨h.afterSend, nofun⟩

end Session

/-! ## Taking a message -/

namespace RecvWindow

variable {w : RecvWindow}

theorem after_popExact {β : Type} {k : List UInt8 → Prog Fault RecvWindow β}
    {Q : RecvWindow → Except Fault β → Prop} (hwf : w.buf.WellFormed) (want : ℕ)
    (hok : ∀ buf out, buf.WellFormed → (k out).After { w with buf } Q)
    (herr : ∀ buf code, buf.WellFormed → Q { w with buf } (.error (.error code))) :
    (popExact want >>= k).After w Q := by
  obtain ⟨hwf', -, -⟩ := RingBuf.pop_eq hwf want
  by_cases hlen : (w.buf.pop want).2.length = want
  · have hrun : (popExact want).run w = ({ w with buf := (w.buf.pop want).1 }, .ok (w.buf.pop want).2) := by
      rw [popExact, run_bind_of_ok (run_get w), run_bind_of_ok (run_modify _ _),
        run_bind_of_ok (run_ensure_of_pos hlen _ _), run_pure]
    rw [After, run_bind_of_ok hrun]
    exact hok _ _ hwf'
  · have hrun : (popExact want).run w = ({ w with buf := (w.buf.pop want).1 }, .error (.error .invalid)) := by
      rw [popExact, run_bind_of_ok (run_get w), run_bind_of_ok (run_modify _ _),
        run_bind_of_error (run_ensure_of_neg hlen _ _)]
    rw [After, run_bind_of_error hrun]
    exact herr _ _ hwf'

/-- Taking a message changes the buffer and the number of messages only, and does not panic. -/
theorem after_fetchMessage (hwf : w.buf.WellFormed) (cap : ℕ) :
    (fetchMessage cap).After w fun w' r =>
      (∃ buf bufMessagesCt, w' = { w with buf, bufMessagesCt } ∧ buf.WellFormed ∧
        bufMessagesCt ≤ w.bufMessagesCt) ∧ r ≠ .error .panic := by
  have hkept : ∀ (buf : RingBuf maxMessageSize) (code : ErrorCode), buf.WellFormed →
      (∃ buf' bufMessagesCt, { w with buf } = { w with buf := buf', bufMessagesCt } ∧ buf'.WellFormed ∧
        bufMessagesCt ≤ w.bufMessagesCt) ∧ (.error (.error code) : Except Fault (List UInt8)) ≠ .error .panic :=
    fun buf code hbuf => ⟨⟨buf, w.bufMessagesCt, rfl, hbuf, le_rfl⟩, nofun⟩
  refine After.of_run_eq (run_bind_of_ok (run_get w)) ?_
  by_cases hzero : w.bufMessagesCt = 0
  · rw [if_pos hzero]
    exact ⟨⟨w.buf, w.bufMessagesCt, rfl, hwf, le_rfl⟩, nofun⟩
  · rw [if_neg hzero]
    refine after_popExact hwf 1 (fun buf₁ lo hwf₁ => ?_) hkept
    refine after_popExact hwf₁ 1 (fun buf₂ hi hwf₂ => ?_) hkept
    refine after_popExact hwf₂ _ (fun buf₃ out hwf₃ => ?_) hkept
    refine after_popExact hwf₃ _ (fun buf₄ _ hwf₄ => ?_) hkept
    exact ⟨⟨buf₄, w.bufMessagesCt - 1, rfl, hwf₄, Nat.sub_le _ _⟩, nofun⟩

end RecvWindow

namespace Session

variable {s : Session} {cs : List Call}

theorem safe_fetchMessage (cap : ℕ) (h : s.InRange) : Safe (fetchMessage cap) s := by
  have hafter := RecvWindow.after_fetchMessage h.buf cap
  rw [After] at hafter
  rcases hr : (RecvWindow.fetchMessage cap).run s.recvWindow with ⟨w, r⟩
  rw [hr] at hafter
  obtain ⟨⟨buf, ct, rfl, hwf, hle⟩, hne⟩ := hafter
  rw [Safe, fetchMessage, run_onRecvWindow hr]
  exact ⟨⟨hwf, h.windowSize, h.sendSize, h.send, h.recv, hle.trans h.count, h.mtu⟩, hne⟩

theorem safe_call {d : Driven} (c : Call) (h : d.session.InRange) (hfits : Fits d c) :
    Safe (call c) d.session := by
  cases c with
  | reset => exact safe_of_ok (run_modify _ _) h.reset
  | setRelaxedMtuNego relaxedMtuNego =>
    exact safe_of_ok (run_modify _ _) ⟨h.buf, h.windowSize, h.sendSize, h.send, h.recv, h.count, h.mtu⟩
  | setInitiator initiator =>
    exact safe_of_ok (run_modify _ _) ⟨h.buf, h.windowSize, h.sendSize, h.send, h.recv, h.count, h.mtu⟩
  | processRx gattMtu address data => exact safe_processRx address h hfits
  | prepTxHandshake gattMtu cap => exact safe_ignore (safe_prepTxHandshake _ cap h hfits)
  | prepTxData data offset cap => exact safe_ignore (safe_prepTxData offset cap h hfits)
  | fetchMessage cap => exact safe_ignore (safe_fetchMessage cap h)

def start : Driven := ⟨.new, false⟩

/-- **The arithmetic fits** along every run whose calls fit: nothing panics, and the numbers stay in
range. -/
theorem inRange_of_fits (hfits : calls.Meets Fits start cs) :
    ∃ d, calls.run start cs = some d ∧ d.crashed = false ∧ d.session.InRange := by
  have hall : ∀ (cs : List Call) (d : Driven), d.crashed = false → d.session.InRange → calls.Meets Fits d cs →
      ∃ d', calls.run d cs = some d' ∧ d'.crashed = false ∧ d'.session.InRange := by
    intro cs
    induction cs with
    | nil =>
      intro d hd h _
      exact ⟨d, rfl, hd, h⟩
    | cons c cs ih =>
      intro d hd h hmeets
      obtain ⟨hrange, hne⟩ := safe_call c h hmeets.1
      have hstep : calls.step d c = some ⟨((call c).run d.session).1, false⟩ := by
        show (if d.crashed then none else some _) = _
        rw [hd, decide_eq_false hne]
        rfl
      obtain ⟨d', hrun, hd', h'⟩ := ih _ rfl hrange (hmeets.2 _ hstep)
      exact ⟨d', Machine.run_cons_eq_some.mpr ⟨_, hstep, hrun⟩, hd', h'⟩
  exact hall cs start rfl .new hfits

/-- Two bytes before the handshake: the window for what we receive is empty. -/
theorem early_segment_panics :
    (calls.run start [.processRx none 0 [0x04, 0x00]]).map Driven.crashed = some true := by
  decide +kernel

/-- A handshake, a message of three bytes, and its acknowledgement. -/
def shortTalk : List Call :=
  [.processRx (some 247) 1 [0x65, 0x6c, 4, 0, 0, 0, 0xf7, 0, 6], .prepTxHandshake (some 247) 247,
    .processRx (some 247) 1 [0x0d, 0, 0, 3, 0, 1, 2, 3], .fetchMessage 1280, .prepTxData [] 0 247, .reset]

theorem inRange_shortTalk :
    ∃ d, calls.run start shortTalk = some d ∧ d.crashed = false ∧ d.session.InRange :=
  inRange_of_fits (by decide +kernel)

end Session

end Btp

end RsMatter
