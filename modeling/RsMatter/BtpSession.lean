import RsMatter.BtpPacket
import RsMatter.RingBuf

/-!
# BTP sessions (`transport/network/btp/session.rs`)

A session cuts messages into segments, numbers the segments and keeps a window of those
that the peer has not acknowledged yet; and it puts the segments of the peer together
again. Machine integers are natural numbers here, and a subtraction or an addition that
does not fit is a panic (`Fault.panic`), as it is where overflows are checked. When a
segment was sent or received is left out: it only matters to the two timeouts.
-/

namespace RsMatter

namespace Btp

/-! ## Constants -/

/-- How many bytes of a packet are received at most. -/
def maxRxPacketSize : ℕ := 1583

/-- How many bytes of a packet are sent at most. -/
def maxTxPacketSize : ℕ := 1232

/-- How many bytes of received messages are kept at most. -/
def maxMessageSize : ℕ := maxRxPacketSize * 2

def maxBtpSegmentSize : ℕ := 244

def gattHeaderSize : ℕ := 3

def minMtu : ℕ := 20 + gattHeaderSize

def maxMtu : ℕ := maxBtpSegmentSize + gattHeaderSize

inductive Fault where
  | error (code : ErrorCode)
  | panic
  deriving DecidableEq

def checkedSub (a b : ℕ) : Except Fault ℕ := if b ≤ a then .ok (a - b) else .error .panic

def checkedAdd (a b : ℕ) : Except Fault ℕ := if a + b < 256 then .ok (a + b) else .error .panic

theorem checkedSub_of_le {a b : ℕ} (h : b ≤ a) : checkedSub a b = .ok (a - b) := if_pos h

theorem checkedAdd_of_lt {a b : ℕ} (h : a + b < 256) : checkedAdd a b = .ok (a + b) := if_pos h

/-! ## Windows -/

structure SendWindow where
  windowSize : ℕ
  level : ℕ
  lastSentSeqNum : BitVec 8
  deriving DecidableEq

structure RecvWindow where
  /-- the messages that have come, and the one that is coming -/
  buf : RingBuf maxMessageSize
  bufMessagesCt : ℕ
  /-- how many more segments can be received -/
  level : ℕ
  /-- how many segments an acknowledgement would be about -/
  ackLevel : ℕ
  ackSeq : BitVec 8
  /-- how many bytes of the current message are missing -/
  remMsgLen : ℕ
  deriving DecidableEq

namespace SendWindow

def new : SendWindow := ⟨0, 0, 255⟩

def acceptIncoming (hdr : BtpHdr) : Prog Fault SendWindow Unit :=
  Prog.whenSome hdr.getAck fun ackSeqNum => do
    let w ← Prog.get
    if w.lastSentSeqNum = ackSeqNum then
      Prog.modify ({ · with level := w.windowSize })
    else
      let level ← Prog.ofExcept (checkedSub w.windowSize (w.lastSentSeqNum - ackSeqNum).toNat)
      Prog.modify ({ · with level })

/-- Can nothing be sent? The last place is for an acknowledgement. -/
def isFull (w : SendWindow) (recvWindow : RecvWindow) : Bool :=
  w.level == 0 || (w.level == 1 && recvWindow.ackLevel == 0)

def nextSeqNum (w : SendWindow) : BitVec 8 := w.lastSentSeqNum + 1

def postSend : Prog Fault SendWindow Unit := do
  let w ← Prog.get
  let level ← Prog.ofExcept (checkedSub w.level 1)
  Prog.modify ({ · with level, lastSentSeqNum := w.nextSeqNum })

end SendWindow

namespace RecvWindow

def new : RecvWindow := ⟨.new, 0, 0, 0, 255, 0⟩

/-- Is this segment what the peer may send now? -/
def checkDataIntegrity (w : RecvWindow) (hdr : BtpHdr) (payload : List UInt8) (mtu : ℕ) : Bool :=
  !hdr.isHandshake && hdr.getOpcode.isNone &&
    (if hdr.isStandaloneAck then payload.isEmpty
      else
        (hdr.getMsgLen.isSome || hdr.isContinue || hdr.isFinal) &&
          !(hdr.getMsgLen.isSome && hdr.isContinue) &&
            (hdr.isFinal || payload.length + hdr.len == mtu)) &&
    hdr.getSeq == some (w.ackSeq + 1)

/-- The first part of a message begins: its length goes into the buffer. -/
def beginMessage (hdr : BtpHdr) (msgLen : BitVec 16) (mtu : ℕ) : Prog Fault RecvWindow Unit := do
  -- a message that fits into a segment must come in one
  Prog.ensure (mtu < msgLen.toNat ∨ hdr.isFinal = true) (.error .invalidData)
  Prog.modify ({ · with remMsgLen := msgLen.toNat })
  Prog.onlyIf (0 < msgLen.toNat) do
    let w ← Prog.get
    Prog.ensure (2 ≤ w.buf.free) (.error .invalidData)
    Prog.modify ({ · with buf := w.buf.push (toLE 2 msgLen.toNat) })

/-- The payload of a segment goes into the buffer. -/
def acceptPayload (hdr : BtpHdr) (payload : List UInt8) : Prog Fault RecvWindow Unit := do
  let w ← Prog.get
  Prog.ensure (payload.length % 65536 ≤ w.remMsgLen) (.error .invalidData)
  Prog.modify ({ · with remMsgLen := w.remMsgLen - payload.length % 65536 })
  let w ← Prog.get
  Prog.ensure (hdr.isFinal = true → w.remMsgLen = 0) (.error .invalidData)
  Prog.ensure (payload.length ≤ w.buf.free) (.error .invalidData)
  Prog.modify ({ · with buf := w.buf.push payload })
  let level ← Prog.ofExcept (checkedSub w.level 1)
  Prog.modify ({ · with level, ackSeq := hdr.seqNum })
  let ackLevel ← Prog.ofExcept (checkedAdd w.ackLevel 1)
  Prog.modify ({ · with ackLevel })
  Prog.onlyIf (hdr.isFinal = true ∧ payload ≠ []) do
    let bufMessagesCt ← Prog.ofExcept (checkedAdd w.bufMessagesCt 1)
    Prog.modify ({ · with bufMessagesCt })

/-- Take a segment. What fails half-way leaves what it has done. -/
def acceptIncoming (hdr : BtpHdr) (payload : List UInt8) (mtu : ℕ) : Prog Fault RecvWindow Unit := do
  let w ← Prog.get
  Prog.ensure (w.checkDataIntegrity hdr payload mtu = true) (.error .invalidData)
  Prog.whenSome hdr.getMsgLen fun msgLen => beginMessage hdr msgLen mtu
  acceptPayload hdr payload

/-- Is this a handshake packet as it should be? -/
def checkHandshakeIntegrity (hdr : BtpHdr) : Bool :=
  hdr.isHandshake && hdr.isFinal && hdr.getOpcode == some 0x6c && hdr.getMsgLen.isNone && !hdr.isContinue &&
    hdr.getSeq.isNone && hdr.getAck.isNone

/-- The sequence number to acknowledge. Nothing is acknowledged while there is a complete
message: the buffer could overflow. -/
def pendingAck (w : RecvWindow) : Option (BitVec 8) :=
  if 0 < w.ackLevel ∧ w.bufMessagesCt = 0 then some w.ackSeq else none

/-- A segment has been sent, and has acknowledged what there was. -/
def postSend : Prog Fault RecvWindow Unit := do
  let w ← Prog.get
  Prog.onlyIf (w.pendingAck.isSome = true) do
    let level ← Prog.ofExcept (checkedAdd w.level w.ackLevel)
    Prog.modify ({ · with level, ackLevel := 0 })

/-- Take bytes from the buffer, and fail where there are not as many. -/
def popExact (want : ℕ) : Prog Fault RecvWindow (List UInt8) := do
  let w ← Prog.get
  Prog.modify ({ · with buf := (w.buf.pop want).1 })
  Prog.ensure ((w.buf.pop want).2.length = want) (.error .invalid)
  return (w.buf.pop want).2

/-- Take the first complete message; what does not fit into `cap` bytes is lost. The two bytes
of the length and what is lost are taken one by one in the source. -/
def fetchMessage (cap : ℕ) : Prog Fault RecvWindow (List UInt8) := do
  let w ← Prog.get
  if w.bufMessagesCt = 0 then
    return []
  else
    let lo ← popExact 1
    let hi ← popExact 1
    let len := ofLE (lo ++ hi)
    let out ← popExact (min len cap)
    let _ ← popExact (len - cap)
    Prog.modify ({ · with bufMessagesCt := w.bufMessagesCt - 1 })
    return out

end RecvWindow

/-! ## Sessions -/

structure Session where
  initiator : Bool
  address : BitVec 48
  version : ℕ
  /-- how many bytes a segment has at most -/
  mtu : ℕ
  windowSize : ℕ
  /-- is there a handshake packet to be sent? -/
  handshakePending : Bool
  recvWindow : RecvWindow
  sendWindow : SendWindow
  /-- is the MTU negotiated although it is not the one of GATT? -/
  relaxedMtuNego : Bool
  deriving DecidableEq

namespace Session

def new : Session := ⟨false, 0, 0, 0, 0, false, .new, .new, false⟩

def onRecvWindow {α : Type} (m : Prog Fault RecvWindow α) : Prog Fault Session α :=
  Prog.zoom recvWindow (fun s recvWindow => { s with recvWindow }) m

def onSendWindow {α : Type} (m : Prog Fault SendWindow α) : Prog Fault Session α :=
  Prog.zoom sendWindow (fun s sendWindow => { s with sendWindow }) m

theorem run_onRecvWindow {α : Type} {m : Prog Fault RecvWindow α} {s : Session} {w : RecvWindow}
    {r : Except Fault α} (h : m.run s.recvWindow = (w, r)) :
    (onRecvWindow m).run s = ({ s with recvWindow := w }, r) := Prog.run_zoom _ s h

theorem run_onSendWindow {α : Type} {m : Prog Fault SendWindow α} {s : Session} {w : SendWindow}
    {r : Except Fault α} (h : m.run s.sendWindow = (w, r)) :
    (onSendWindow m).run s = ({ s with sendWindow := w }, r) := Prog.run_zoom _ s h

def setup (address : BitVec 48) (version mtu windowSize : ℕ) (s : Session) : Session :=
  { s with
    address
    version
    mtu
    windowSize
    handshakePending := !s.initiator
    recvWindow.level := windowSize
    sendWindow.windowSize := windowSize
    sendWindow.level := windowSize }

/-- The largest window for an MTU: what is in it must fit into half of the buffer. -/
def initialWindowSize (mtu : ℕ) : Except Fault ℕ :=
  if mtu = 0 then .error .panic else .ok (min (maxMessageSize / mtu / 2) 255)

def negotiateMtu (relaxedMtuNego : Bool) (gattMtu : Option ℕ) (reqMtu : ℕ) : Except Fault ℕ :=
  let mtu :=
    if gattMtu = some reqMtu then min reqMtu maxMtu
    else if relaxedMtuNego then min (min reqMtu (gattMtu.getD minMtu)) maxMtu
    else minMtu
  checkedSub mtu gattHeaderSize

def orFail {α : Type} (r : Except ErrorCode α) : Prog Fault Session α := Prog.ofExcept (r.mapError .error)

def processRxHandshakeReq (gattMtu : Option ℕ) (address : BitVec 48) (hdr : BtpHdr) (payload : List UInt8) :
    Prog Fault Session Unit := do
  Prog.ensure (RecvWindow.checkHandshakeIntegrity hdr = true) (.error .invalidData)
  let req ← orFail (HandshakeReq.decode payload)
  let s ← Prog.get
  let mtu ← Prog.ofExcept (negotiateMtu s.relaxedMtuNego gattMtu req.mtu)
  let initial ← Prog.ofExcept (initialWindowSize mtu)
  Prog.modify (setup address (req.versionList.min?.getD 4) mtu (min req.windowSize initial))

def processRxHandshakeResp (address : BitVec 48) (hdr : BtpHdr) (payload : List UInt8) :
    Prog Fault Session Unit := do
  Prog.ensure (RecvWindow.checkHandshakeIntegrity hdr = true) (.error .invalidData)
  let resp ← orFail (HandshakeResp.decode payload)
  Prog.modify (setup address resp.version resp.mtu resp.windowSize)

/-- Take a segment with data or an acknowledgement. -/
def processRxData (hdr : BtpHdr) (payload : List UInt8) : Prog Fault Session Unit := do
  let s ← Prog.get
  onRecvWindow (RecvWindow.acceptIncoming hdr payload s.mtu)
  onSendWindow (SendWindow.acceptIncoming hdr)

def processRx (gattMtu : Option ℕ) (address : BitVec 48) (data : List UInt8) : Prog Fault Session Unit := do
  let (hdr, payload) ← orFail (BtpHdr.decode data)
  let s ← Prog.get
  if hdr.isHandshake then
    if s.initiator then processRxHandshakeResp address hdr payload
    else processRxHandshakeReq gattMtu address hdr payload
  else processRxData hdr payload

/-- Write a packet into a buffer of `cap` bytes. -/
def write (cap : ℕ) (data : List UInt8) : Prog Fault Session Unit :=
  Prog.ensure (data.length ≤ cap) (.error .noSpace)

/-- Prepare a handshake packet, if there is one to be sent. -/
def prepTxHandshake (gattMtu : Option ℕ) (cap : ℕ) : Prog Fault Session (List UInt8) := do
  let s ← Prog.get
  if s.handshakePending then
    let body :=
      if s.initiator then HandshakeReq.encode ⟨4, gattMtu.getD minMtu, s.windowSize⟩
      else HandshakeResp.encode ⟨s.version, s.mtu, s.windowSize⟩
    let data := (BtpHdr.new.setHandshake.setOpcode (some 0x6c)).encode ++ body
    write cap data
    onSendWindow SendWindow.postSend
    Prog.modify ({ · with handshakePending := false })
    return data
  else
    return []

/-- The header of a segment, but for the flag of the last one. -/
def dataHdr (s : Session) (data : List UInt8) (offset : ℕ) : BtpHdr :=
  let hdr := (BtpHdr.new.setSeq (some s.sendWindow.nextSeqNum)).setAck s.recvWindow.pendingAck
  if data = [] then hdr
  else if offset = 0 then hdr.setMsgLen (some (BitVec.ofNat 16 data.length))
  else hdr.setContinue

/-- Prepare the next segment of a message, or an acknowledgement if there is no message: the
segment, nothing if the window is full, and how much of the message has been sent. -/
def prepTxData (data : List UInt8) (offset cap : ℕ) : Prog Fault Session (List UInt8 × ℕ) := do
  let s ← Prog.get
  if s.sendWindow.isFull s.recvWindow then
    return ([], offset)
  else
    let hdr := s.dataHdr data offset
    Prog.ensure (data = [] ∨ offset ≤ data.length) .panic
    let remaining := data.drop offset
    let maxPayloadLen ← Prog.ofExcept (if data = [] then .ok 0 else checkedSub s.mtu hdr.len)
    let chunkEnd := min remaining.length maxPayloadLen
    let hdr := if data ≠ [] ∧ chunkEnd = remaining.length then hdr.setFinal else hdr
    let segment := hdr.encode ++ remaining.take chunkEnd
    write cap segment
    onSendWindow SendWindow.postSend
    onRecvWindow RecvWindow.postSend
    return (segment, offset + chunkEnd)

/-- Must an acknowledgement be sent, `late` if the last segment came long ago? -/
def isAckDue (s : Session) (late : Bool) : Bool :=
  s.recvWindow.pendingAck.isSome && (decide (s.recvWindow.level ≤ 1) || late)

def messageAvailable (s : Session) : Bool := decide (0 < s.recvWindow.bufMessagesCt)

def fetchMessage (cap : ℕ) : Prog Fault Session (List UInt8) := onRecvWindow (RecvWindow.fetchMessage cap)

end Session

end Btp

end RsMatter
