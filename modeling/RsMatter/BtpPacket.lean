import RsMatter.Headers
import RsMatter.Prog

/-!
# BTP packets (`transport/network/btp/session/packet.rs`)

A BTP segment has a header of one to six bytes, which depends on its flags, and a
payload. A header without anything in the fields its flags do not announce reads back
as it was written (`BtpHdr.decode_encode`).
-/

namespace RsMatter

namespace BtpFlags

def handshake : BitVec 8 := 0x40#8
def management : BitVec 8 := 0x20#8
def ack : BitVec 8 := 0x08#8
def endingSegment : BitVec 8 := 0x04#8
def «continue» : BitVec 8 := 0x02#8
def beginningSegment : BitVec 8 := 0x01#8
def all : BitVec 8 :=
  handshake ||| management ||| ack ||| endingSegment ||| «continue» ||| beginningSegment

end BtpFlags

structure BtpHdr where
  flags : BitVec 8
  /-- the opcode, meaningful under `management` -/
  opcode : BitVec 8
  /-- the acknowledged sequence number, meaningful under `ack` -/
  ackNum : BitVec 8
  /-- the sequence number, meaningful unless under `handshake` -/
  seqNum : BitVec 8
  /-- the length of the message, meaningful under `beginningSegment` -/
  msgLen : BitVec 16
  deriving DecidableEq

namespace BtpHdr

def new : BtpHdr := ⟨0, 0, 0, 0, 0⟩

def isHandshake (h : BtpHdr) : Bool := flagsContain h.flags BtpFlags.handshake

def setHandshake (h : BtpHdr) : BtpHdr :=
  { h with
    flags := h.flags ||| (BtpFlags.handshake ||| BtpFlags.beginningSegment ||| BtpFlags.endingSegment) }

def getOpcode (h : BtpHdr) : Option (BitVec 8) :=
  if flagsContain h.flags BtpFlags.management then some h.opcode else none

def setOpcode (h : BtpHdr) : Option (BitVec 8) → BtpHdr
  | some opcode => { h with flags := h.flags ||| BtpFlags.management, opcode }
  | none => { h with flags := flagsRemove h.flags BtpFlags.management, opcode := 0 }

/-- The acknowledged sequence number, if there is one. -/
def getAck (h : BtpHdr) : Option (BitVec 8) :=
  if flagsContain h.flags BtpFlags.ack then some h.ackNum else none

def setAck (h : BtpHdr) : Option (BitVec 8) → BtpHdr
  | some ackNum => { h with flags := h.flags ||| BtpFlags.ack, ackNum }
  | none => { h with flags := flagsRemove h.flags BtpFlags.ack, ackNum := 0 }

/-- The sequence number; handshake packets have none. -/
def getSeq (h : BtpHdr) : Option (BitVec 8) :=
  if flagsContain h.flags BtpFlags.handshake then none else some h.seqNum

def setSeq (h : BtpHdr) : Option (BitVec 8) → BtpHdr
  | some seqNum => { h with flags := flagsRemove h.flags BtpFlags.handshake, seqNum }
  | none => { h with flags := h.flags ||| BtpFlags.handshake, seqNum := 0 }

def hasMsgLen (h : BtpHdr) : Bool :=
  flagsContain h.flags BtpFlags.beginningSegment && !flagsContain h.flags BtpFlags.handshake

/-- The length of the message, if there is one. -/
def getMsgLen (h : BtpHdr) : Option (BitVec 16) := if h.hasMsgLen then some h.msgLen else none

def setMsgLen (h : BtpHdr) : Option (BitVec 16) → BtpHdr
  | some msgLen => { h with flags := h.flags ||| BtpFlags.beginningSegment, msgLen }
  | none => { h with flags := flagsRemove h.flags BtpFlags.beginningSegment, msgLen := 0 }

def isContinue (h : BtpHdr) : Bool := flagsContain h.flags BtpFlags.continue

def setContinue (h : BtpHdr) : BtpHdr := { h with flags := h.flags ||| BtpFlags.continue }

def isFinal (h : BtpHdr) : Bool := flagsContain h.flags BtpFlags.endingSegment

def setFinal (h : BtpHdr) : BtpHdr := { h with flags := h.flags ||| BtpFlags.endingSegment }

def isStandaloneAck (h : BtpHdr) : Bool :=
  !h.isHandshake && h.getMsgLen.isNone && !h.isContinue && !h.isFinal && h.getAck.isSome

def encode (h : BtpHdr) : List UInt8 :=
  toLE 1 h.flags.toNat ++
    (if flagsContain h.flags BtpFlags.management then toLE 1 h.opcode.toNat else []) ++
    (if flagsContain h.flags BtpFlags.ack then toLE 1 h.ackNum.toNat else []) ++
    (if flagsContain h.flags BtpFlags.handshake then [] else toLE 1 h.seqNum.toNat) ++
    if h.hasMsgLen then toLE 2 h.msgLen.toNat else []

def len (h : BtpHdr) : ℕ :=
  1 + (if flagsContain h.flags BtpFlags.management then 1 else 0) +
    (if flagsContain h.flags BtpFlags.ack then 1 else 0) +
    (if flagsContain h.flags BtpFlags.handshake then 0 else 1) +
    if h.hasMsgLen then 2 else 0

def nextByte : List UInt8 → Except ErrorCode (BitVec 8 × List UInt8)
  | [] => .error .invalid
  | b :: bs => .ok (b.toBitVec, bs)

def nextIf (c : Bool) (msg : List UInt8) : Except ErrorCode (BitVec 8 × List UInt8) :=
  if c then nextByte msg else .ok (0, msg)

def decode (msg : List UInt8) : Except ErrorCode (BtpHdr × List UInt8) := do
  let (bits, msg) ← nextByte msg
  let flags := bits &&& BtpFlags.all
  let (opcode, msg) ← nextIf (flagsContain flags BtpFlags.management) msg
  let (ackNum, msg) ← nextIf (flagsContain flags BtpFlags.ack) msg
  let (seqNum, msg) ← nextIf (!flagsContain flags BtpFlags.handshake) msg
  let begins := flagsContain flags BtpFlags.beginningSegment && !flagsContain flags BtpFlags.handshake
  let (lo, msg) ← nextIf begins msg
  let (hi, msg) ← nextIf begins msg
  return (⟨flags, opcode, ackNum, seqNum, hi ++ lo⟩, msg)

/-- Fields that the flags do not announce are zero. -/
structure Normal (h : BtpHdr) : Prop where
  flags : h.flags &&& BtpFlags.all = h.flags
  opcode : flagsContain h.flags BtpFlags.management = false → h.opcode = 0
  ackNum : flagsContain h.flags BtpFlags.ack = false → h.ackNum = 0
  seqNum : flagsContain h.flags BtpFlags.handshake = true → h.seqNum = 0
  msgLen : h.hasMsgLen = false → h.msgLen = 0

theorem nextByte_toLE (v : BitVec 8) (rest : List UInt8) : nextByte (toLE 1 v.toNat ++ rest) = .ok (v, rest) := by
  have hv : (UInt8.ofNat v.toNat).toBitVec = v := by
    apply BitVec.eq_of_toNat_eq
    simp
  show Except.ok ((UInt8.ofNat v.toNat).toBitVec, rest) = _
  rw [hv]

theorem nextIf_encode {c : Bool} {v : BitVec 8} (hv : c = false → v = 0) (rest : List UInt8) :
    nextIf c ((if c then toLE 1 v.toNat else []) ++ rest) = .ok (v, rest) := by
  cases c with
  | true => exact nextByte_toLE v rest
  | false =>
    rw [hv rfl]
    rfl

theorem toLE_two (v : BitVec 16) :
    toLE 2 v.toNat = toLE 1 (v.setWidth 8).toNat ++ toLE 1 (v.extractLsb' 8 8).toNat := by
  have hlo : UInt8.ofNat v.toNat = UInt8.ofNat (v.setWidth 8).toNat := by
    apply UInt8.eq_of_toBitVec_eq
    apply BitVec.eq_of_toNat_eq
    simp
  have hhi : UInt8.ofNat (v.toNat / 256) = UInt8.ofNat (v.extractLsb' 8 8).toNat := by
    apply UInt8.eq_of_toBitVec_eq
    apply BitVec.eq_of_toNat_eq
    simp [Nat.shiftRight_eq_div_pow]
  simp only [toLE, hlo, hhi]
  rfl

/-- **Round trip.** -/
theorem decode_encode {h : BtpHdr} (hn : h.Normal) (rest : List UInt8) :
    decode (h.encode ++ rest) = .ok (h, rest) := by
  have hlen : (if h.hasMsgLen then toLE 2 h.msgLen.toNat else []) =
      (if h.hasMsgLen then toLE 1 (h.msgLen.setWidth 8).toNat else []) ++
        (if h.hasMsgLen then toLE 1 (h.msgLen.extractLsb' 8 8).toNat else []) := by
    cases h.hasMsgLen with
    | true => exact toLE_two h.msgLen
    | false => rfl
  have hseq : (if flagsContain h.flags BtpFlags.handshake then [] else toLE 1 h.seqNum.toNat) =
      if (!flagsContain h.flags BtpFlags.handshake) = true then toLE 1 h.seqNum.toNat else [] := by
    cases flagsContain h.flags BtpFlags.handshake <;> rfl
  have hlo : h.hasMsgLen = false → h.msgLen.setWidth 8 = 0 := fun hno => by rw [hn.msgLen hno]; rfl
  have hhi : h.hasMsgLen = false → h.msgLen.extractLsb' 8 8 = 0 := fun hno => by rw [hn.msgLen hno]; rfl
  have hsq : (!flagsContain h.flags BtpFlags.handshake) = false → h.seqNum = 0 := fun hs =>
    hn.seqNum (by simpa using hs)
  have hjoin : h.msgLen.extractLsb' 8 8 ++ h.msgLen.setWidth 8 = h.msgLen := by
    apply BitVec.eq_of_getLsbD_eq
    intro i hi
    rw [BitVec.getLsbD_append, BitVec.getLsbD_setWidth, BitVec.getLsbD_extractLsb']
    by_cases h8 : i < 8
    · simp [h8]
    · simp [h8, show i - 8 < 8 by omega, show 8 + (i - 8) = i by omega]
  rw [encode, hlen, hseq]
  simp only [List.append_assoc, decode, bind, Except.bind, nextByte_toLE, hn.flags]
  rw [nextIf_encode hn.opcode]
  dsimp only
  rw [nextIf_encode hn.ackNum]
  dsimp only
  rw [nextIf_encode hsq]
  dsimp only
  rw [← hasMsgLen, nextIf_encode hlo]
  dsimp only
  rw [nextIf_encode hhi]
  dsimp only
  rw [hjoin]
  rfl

theorem length_encode (h : BtpHdr) : h.encode.length = h.len := by
  simp only [encode, len, List.length_append, length_toLE, apply_ite List.length, List.length_nil]

end BtpHdr

/-! ## Handshakes -/

structure HandshakeReq where
  /-- the versions the peer supports, four bits each -/
  versions : BitVec 32
  mtu : ℕ
  windowSize : ℕ
  deriving DecidableEq

namespace HandshakeReq

/-- The versions it supports. Each is read with the four bits of the next one. -/
def versionList (req : HandshakeReq) : List ℕ :=
  ((List.range 7).map fun i => ((req.versions >>> (4 * i)) &&& 0xff#32).toNat).filter (0 < ·)

def decode : List UInt8 → Except ErrorCode HandshakeReq
  | v0 :: v1 :: v2 :: v3 :: m0 :: m1 :: w :: _ =>
    .ok ⟨BitVec.ofNat 32 (ofLE [v0, v1, v2, v3]), ofLE [m0, m1], w.toNat⟩
  | _ => .error .invalid

def encode (req : HandshakeReq) : List UInt8 :=
  toLE 4 req.versions.toNat ++ toLE 2 req.mtu ++ toLE 1 req.windowSize

end HandshakeReq

structure HandshakeResp where
  version : ℕ
  mtu : ℕ
  windowSize : ℕ
  deriving DecidableEq

namespace HandshakeResp

def decode : List UInt8 → Except ErrorCode HandshakeResp
  | v :: m0 :: m1 :: w :: _ => .ok ⟨v.toNat, ofLE [m0, m1], w.toNat⟩
  | _ => .error .invalid

def encode (resp : HandshakeResp) : List UInt8 :=
  toLE 1 resp.version ++ toLE 2 resp.mtu ++ toLE 1 resp.windowSize

end HandshakeResp

end RsMatter
