import Mathlib.Data.BitVec
import RsMatter.Basic
import RsMatter.Bytes

/-!
# Packet headers (`transport/plain_hdr.rs`, `proto_hdr.rs`, `packet.rs`, `exchange.rs`)

A packet carries a plain header, which travels unencrypted and names the session
and the message counter, and a protocol header, which is encrypted together with
the payload and names the exchange, the protocol opcode and the acknowledged
counter. Flags are kept as the bytes the source keeps them in, so that what is on
the wire (`encode`) is a function of the record alone.
-/

namespace RsMatter

/-! ## Flags -/

/-- The `contains` of a flags byte. -/
def flagsContain (flags flag : BitVec 8) : Bool := flags &&& flag == flag

/-- The `remove` of a flags byte. -/
def flagsRemove (flags flag : BitVec 8) : BitVec 8 := flags &&& ~~~flag

section Flags

variable {f g h : BitVec 8}

theorem flagsContain_or_self (f g : BitVec 8) : flagsContain (f ||| g) g = true := by
  have hg : (f ||| g) &&& g = g := by
    apply BitVec.eq_of_getLsbD_eq
    intro i _
    simp only [BitVec.getLsbD_and, BitVec.getLsbD_or]
    cases f.getLsbD i <;> cases g.getLsbD i <;> rfl
  simp [flagsContain, hg]

theorem flagsContain_remove_self (hg : g ≠ 0#8) : flagsContain (flagsRemove f g) g = false := by
  have hz : f &&& ~~~g &&& g = 0#8 := by
    apply BitVec.eq_of_getLsbD_eq
    intro i hi
    simp only [BitVec.getLsbD_and, BitVec.getLsbD_not, BitVec.getLsbD_zero]
    cases f.getLsbD i <;> cases g.getLsbD i <;> simp
  simp [flagsContain, flagsRemove, hz, hg.symm]

theorem flagsContain_or_of_disjoint (hgh : g &&& h = 0#8) :
    flagsContain (f ||| g) h = flagsContain f h := by
  have hd : (f ||| g) &&& h = f &&& h := by
    apply BitVec.eq_of_getLsbD_eq
    intro i _
    have hi : (g &&& h).getLsbD i = false := by rw [hgh, BitVec.getLsbD_zero]
    rw [BitVec.getLsbD_and] at hi
    simp only [BitVec.getLsbD_and, BitVec.getLsbD_or]
    revert hi
    cases f.getLsbD i <;> cases g.getLsbD i <;> cases h.getLsbD i <;> simp
  rw [flagsContain, flagsContain, hd]

theorem flagsContain_remove_of_disjoint (hgh : g &&& h = 0#8) :
    flagsContain (flagsRemove f g) h = flagsContain f h := by
  have hd : f &&& ~~~g &&& h = f &&& h := by
    apply BitVec.eq_of_getLsbD_eq
    intro i hlt
    have hi : (g &&& h).getLsbD i = false := by rw [hgh, BitVec.getLsbD_zero]
    rw [BitVec.getLsbD_and] at hi
    simp only [BitVec.getLsbD_and, BitVec.getLsbD_not, hlt, decide_true, Bool.true_and]
    revert hi
    cases f.getLsbD i <;> cases g.getLsbD i <;> cases h.getLsbD i <;> simp
  rw [flagsContain, flagsContain, flagsRemove, hd]

end Flags

namespace MsgFlags

def dsizUnicastNodeid : BitVec 8 := 0x01#8
def dsizGroupcastNodeid : BitVec 8 := 0x02#8
def srcAddrPresent : BitVec 8 := 0x04#8
def dsizMask : BitVec 8 := dsizUnicastNodeid ||| dsizGroupcastNodeid

end MsgFlags

namespace SecFlags

def groupSession : BitVec 8 := 0x01#8

end SecFlags

namespace ExchFlags

def vendor : BitVec 8 := 0x10#8
def secex : BitVec 8 := 0x08#8
def reliable : BitVec 8 := 0x04#8
def ack : BitVec 8 := 0x02#8
def initiator : BitVec 8 := 0x01#8

end ExchFlags

/-! ## The plain header -/

structure PlainHdr where
  flags : BitVec 8
  sessId : BitVec 16
  secFlags : BitVec 8
  ctr : BitVec 32
  /-- the source node, meaningful under `srcAddrPresent` -/
  srcNodeid : BitVec 64
  /-- the destination node or group, meaningful under a destination flag -/
  dstNodeid : BitVec 64
  deriving DecidableEq

namespace PlainHdr

def new : PlainHdr := ⟨0, 0, 0, 0, 0, 0⟩

def getSrcNodeid (h : PlainHdr) : Option (BitVec 64) :=
  if flagsContain h.flags MsgFlags.srcAddrPresent then some h.srcNodeid else none

def setSrcNodeid (h : PlainHdr) : Option (BitVec 64) → PlainHdr
  | some id => { h with flags := h.flags ||| MsgFlags.srcAddrPresent, srcNodeid := id }
  | none => { h with flags := flagsRemove h.flags MsgFlags.srcAddrPresent, srcNodeid := 0 }

def getDstUnicastNodeid (h : PlainHdr) : Option (BitVec 64) :=
  if h.flags &&& MsgFlags.dsizMask = MsgFlags.dsizUnicastNodeid then some h.dstNodeid else none

def setDstUnicastNodeid (h : PlainHdr) : Option (BitVec 64) → PlainHdr
  | some id =>
    { h with
      flags := flagsRemove (h.flags ||| MsgFlags.dsizUnicastNodeid) MsgFlags.dsizGroupcastNodeid
      dstNodeid := id }
  | none => { h with flags := flagsRemove h.flags MsgFlags.dsizMask, dstNodeid := 0 }

@[simp] theorem ctr_setSrcNodeid (h : PlainHdr) (id : Option (BitVec 64)) :
    (h.setSrcNodeid id).ctr = h.ctr := by
  cases id <;> rfl

@[simp] theorem ctr_setDstUnicastNodeid (h : PlainHdr) (id : Option (BitVec 64)) :
    (h.setDstUnicastNodeid id).ctr = h.ctr := by
  cases id <;> rfl

def isGroupSession (h : PlainHdr) : Bool := flagsContain h.secFlags SecFlags.groupSession

def isEncrypted (h : PlainHdr) : Bool := h.sessId != 0 || h.isGroupSession

def encode (h : PlainHdr) : List UInt8 :=
  toLE 1 h.flags.toNat ++ toLE 2 h.sessId.toNat ++ toLE 1 h.secFlags.toNat ++
    toLE 4 h.ctr.toNat ++
    (if flagsContain h.flags MsgFlags.srcAddrPresent then toLE 8 h.srcNodeid.toNat else []) ++
    if flagsContain h.flags MsgFlags.dsizMask then []
    else if flagsContain h.flags MsgFlags.dsizUnicastNodeid then toLE 8 h.dstNodeid.toNat
    else if flagsContain h.flags MsgFlags.dsizGroupcastNodeid then
      toLE 2 (h.dstNodeid.setWidth 16).toNat
    else []

end PlainHdr

/-! ## The protocol header -/

structure ProtoHdr where
  exchId : BitVec 16
  exchFlags : BitVec 8
  protoId : BitVec 16
  protoOpcode : BitVec 8
  /-- the vendor, meaningful under `vendor` -/
  protoVendorId : BitVec 16
  /-- the acknowledged counter, meaningful under `ack` -/
  ackMsgCtr : BitVec 32
  deriving DecidableEq

namespace ProtoHdr

def new : ProtoHdr := ⟨0, 0, 0xffff#16, 0xff#8, 0, 0⟩

def getVendor (h : ProtoHdr) : Option (BitVec 16) :=
  if flagsContain h.exchFlags ExchFlags.vendor then some h.protoVendorId else none

def setVendor (h : ProtoHdr) : Option (BitVec 16) → ProtoHdr
  | some v => { h with exchFlags := h.exchFlags ||| ExchFlags.vendor, protoVendorId := v }
  | none => { h with exchFlags := flagsRemove h.exchFlags ExchFlags.vendor, protoVendorId := 0 }

def isReliable (h : ProtoHdr) : Bool := flagsContain h.exchFlags ExchFlags.reliable

def unsetReliable (h : ProtoHdr) : ProtoHdr :=
  { h with exchFlags := flagsRemove h.exchFlags ExchFlags.reliable }

def setReliable (h : ProtoHdr) : ProtoHdr :=
  { h with exchFlags := h.exchFlags ||| ExchFlags.reliable }

def getAck (h : ProtoHdr) : Option (BitVec 32) :=
  if flagsContain h.exchFlags ExchFlags.ack then some h.ackMsgCtr else none

def setAck (h : ProtoHdr) : Option (BitVec 32) → ProtoHdr
  | some ctr => { h with exchFlags := h.exchFlags ||| ExchFlags.ack, ackMsgCtr := ctr }
  | none => { h with exchFlags := flagsRemove h.exchFlags ExchFlags.ack, ackMsgCtr := 0 }

def isInitiator (h : ProtoHdr) : Bool := flagsContain h.exchFlags ExchFlags.initiator

def unsetInitiator (h : ProtoHdr) : ProtoHdr :=
  { h with exchFlags := flagsRemove h.exchFlags ExchFlags.initiator }

def setInitiator (h : ProtoHdr) : ProtoHdr :=
  { h with exchFlags := h.exchFlags ||| ExchFlags.initiator }

def toggleInitiator (h : ProtoHdr) : ProtoHdr :=
  if h.isInitiator then h.unsetInitiator else h.setInitiator

/-- Over a reliable network the R and A flags are lowered. (The source's `rx`
argument only decides whether this is logged.) -/
def adjustReliability (h : ProtoHdr) (addr : Address) : ProtoHdr :=
  if addr.isReliable then h.unsetReliable.setAck none else h

/-! The R and A flags are independent of the other ones, and of each other. -/

section Flags

variable (h : ProtoHdr)

@[simp] theorem isReliable_setReliable : h.setReliable.isReliable = true :=
  flagsContain_or_self ..

@[simp] theorem isReliable_unsetReliable : h.unsetReliable.isReliable = false :=
  flagsContain_remove_self (by decide)

@[simp] theorem isReliable_setAck (ctr : Option (BitVec 32)) :
    (h.setAck ctr).isReliable = h.isReliable := by
  cases ctr with
  | some ctr => exact flagsContain_or_of_disjoint (by decide)
  | none => exact flagsContain_remove_of_disjoint (by decide)

@[simp] theorem isReliable_setInitiator : h.setInitiator.isReliable = h.isReliable :=
  flagsContain_or_of_disjoint (by decide)

@[simp] theorem isReliable_unsetInitiator : h.unsetInitiator.isReliable = h.isReliable :=
  flagsContain_remove_of_disjoint (by decide)

theorem getAck_congr {h h' : ProtoHdr}
    (hf : flagsContain h'.exchFlags ExchFlags.ack = flagsContain h.exchFlags ExchFlags.ack)
    (hc : h'.ackMsgCtr = h.ackMsgCtr) : h'.getAck = h.getAck := by
  rw [getAck, getAck, hf, hc]

@[simp] theorem getAck_setAck (ctr : Option (BitVec 32)) : (h.setAck ctr).getAck = ctr := by
  cases ctr with
  | some ctr => exact if_pos (flagsContain_or_self ..)
  | none =>
    refine if_neg ?_
    show ¬ flagsContain (flagsRemove h.exchFlags ExchFlags.ack) ExchFlags.ack = true
    rw [flagsContain_remove_self (by decide)]
    exact Bool.false_ne_true

@[simp] theorem getAck_setReliable : h.setReliable.getAck = h.getAck :=
  getAck_congr (flagsContain_or_of_disjoint (by decide)) rfl

@[simp] theorem getAck_unsetReliable : h.unsetReliable.getAck = h.getAck :=
  getAck_congr (flagsContain_remove_of_disjoint (by decide)) rfl

@[simp] theorem getAck_setInitiator : h.setInitiator.getAck = h.getAck :=
  getAck_congr (flagsContain_or_of_disjoint (by decide)) rfl

@[simp] theorem getAck_unsetInitiator : h.unsetInitiator.getAck = h.getAck :=
  getAck_congr (flagsContain_remove_of_disjoint (by decide)) rfl

@[simp] theorem getAck_setVendor_none : (h.setVendor none).getAck = h.getAck :=
  getAck_congr (flagsContain_remove_of_disjoint (by decide)) rfl

theorem isReliable_adjustReliability (addr : Address) :
    (h.adjustReliability addr).isReliable = (h.isReliable && !addr.isReliable) := by
  rw [adjustReliability]
  cases addr.isReliable <;> simp

end Flags

def encode (h : ProtoHdr) : List UInt8 :=
  toLE 1 h.exchFlags.toNat ++ toLE 1 h.protoOpcode.toNat ++ toLE 2 h.exchId.toNat ++
    toLE 2 h.protoId.toNat ++
    (match h.getVendor with
      | some v => toLE 2 v.toNat
      | none => []) ++
    match h.getAck with
    | some ctr => toLE 4 ctr.toNat
    | none => []

end ProtoHdr

structure PacketHdr where
  plain : PlainHdr
  proto : ProtoHdr
  deriving DecidableEq

/-- The header a message is built in: default, but reliable. -/
def PacketHdr.reset : PacketHdr := ⟨.new, ProtoHdr.new.setReliable⟩

/-! ## Message meta-data -/

/-- What the layers above choose about a message. -/
structure MessageMeta where
  protoId : BitVec 16
  protoOpcode : BitVec 8
  reliable : Bool
  deriving DecidableEq

def protoIdSecureChannel : BitVec 16 := 0x00#16

namespace OpCode

def mrpStandAloneAck : BitVec 8 := 0x10#8
def statusReport : BitVec 8 := 0x40#8

end OpCode

namespace MessageMeta

/-- The meta-data of a standalone acknowledgement. -/
def standaloneAck : MessageMeta := ⟨protoIdSecureChannel, OpCode.mrpStandAloneAck, false⟩

def ofProto (h : ProtoHdr) : MessageMeta := ⟨h.protoId, h.protoOpcode, h.isReliable⟩

def setInto (m : MessageMeta) (h : ProtoHdr) : ProtoHdr :=
  let h := { h with protoId := m.protoId, protoOpcode := m.protoOpcode }.setVendor none
  if m.reliable then h.setReliable else h.unsetReliable

theorem getAck_setInto (m : MessageMeta) (h : ProtoHdr) : (m.setInto h).getAck = h.getAck := by
  rw [setInto]
  cases m.reliable
  · exact (ProtoHdr.getAck_unsetReliable _).trans (ProtoHdr.getAck_setVendor_none _)
  · exact (ProtoHdr.getAck_setReliable _).trans (ProtoHdr.getAck_setVendor_none _)

@[simp] theorem isReliable_setInto (m : MessageMeta) (h : ProtoHdr) :
    (m.setInto h).isReliable = m.reliable := by
  rw [setInto]
  cases m.reliable <;> simp

def isStandaloneAck (m : MessageMeta) : Bool :=
  m.protoId == protoIdSecureChannel && m.protoOpcode == OpCode.mrpStandAloneAck

def isScStatus (m : MessageMeta) : Bool :=
  m.protoId == protoIdSecureChannel && m.protoOpcode == OpCode.statusReport

def isNewExchange (m : MessageMeta) : Bool := !m.isStandaloneAck && !m.isScStatus

end MessageMeta

end RsMatter
