import RsMatter.PacketDecode

/-!
# The headers a sender builds (`transport/plain_hdr.rs`, `transport/proto_hdr.rs`)

The flags of a header are private: a sender raises and lowers them by its setters, together
with the field that each of them announces. A header that is built so is read back as it was
(`PlainHdr.decode_encode_of_built`, `ProtoHdr.decode_encode_of_built`): a field that is there is
taken from the wire, and one that is not is zero on both sides.
-/

namespace RsMatter

/-! ## The plain header -/

namespace PlainHdr

/-- Set or clear the group that is the destination. -/
def setDstGroupcastNodeid (h : PlainHdr) : Option (BitVec 16) → PlainHdr
  | some id =>
    { h with
      flags := flagsRemove (h.flags ||| MsgFlags.dsizGroupcastNodeid) MsgFlags.dsizUnicastNodeid
      dstNodeid := id.setWidth 64 }
  | none => { h with flags := flagsRemove h.flags MsgFlags.dsizMask, dstNodeid := 0 }

inductive Built : PlainHdr → Prop
  | new : Built .new
  | sessId {h : PlainHdr} (id : BitVec 16) : Built h → Built { h with sessId := id }
  | ctr {h : PlainHdr} (ctr : BitVec 32) : Built h → Built { h with ctr := ctr }
  | groupSession {h : PlainHdr} : Built h → Built { h with secFlags := SecFlags.groupSession }
  | unicastSession {h : PlainHdr} : Built h → Built { h with secFlags := 0 }
  | srcNodeid {h : PlainHdr} (id : Option (BitVec 64)) : Built h → Built (h.setSrcNodeid id)
  | dstUnicastNodeid {h : PlainHdr} (id : Option (BitVec 64)) : Built h → Built (h.setDstUnicastNodeid id)
  | dstGroupcastNodeid {h : PlainHdr} (id : Option (BitVec 16)) :
    Built h → Built (h.setDstGroupcastNodeid id)

/-- The message flags that setters produce: not both kinds of destination. -/
def sendable : List (BitVec 8) := [0, 1, 2, 4, 5, 6]

structure Consistent (h : PlainHdr) : Prop where
  flags : h.flags ∈ sendable
  secFlags : h.secFlags = 0 ∨ h.secFlags = SecFlags.groupSession
  src : flagsContain h.flags MsgFlags.srcAddrPresent = false → h.srcNodeid = 0
  /-- no destination, no destination node -/
  dst : flagsContain h.flags MsgFlags.dsizUnicastNodeid = false →
    flagsContain h.flags MsgFlags.dsizGroupcastNodeid = false → h.dstNodeid = 0
  group : flagsContain h.flags MsgFlags.dsizGroupcastNodeid = true →
    (h.dstNodeid.setWidth 16).setWidth 64 = h.dstNodeid

theorem flags_setSrc : ∀ f ∈ sendable, f ||| MsgFlags.srcAddrPresent ∈ sendable ∧
    flagsRemove f MsgFlags.srcAddrPresent ∈ sendable := by decide +kernel

theorem flags_setUnicast : ∀ f ∈ sendable,
    let g := flagsRemove (f ||| MsgFlags.dsizUnicastNodeid) MsgFlags.dsizGroupcastNodeid
    g ∈ sendable ∧ flagsContain g MsgFlags.dsizUnicastNodeid = true ∧
      flagsContain g MsgFlags.dsizGroupcastNodeid = false ∧
      flagsContain g MsgFlags.srcAddrPresent = flagsContain f MsgFlags.srcAddrPresent := by decide +kernel

theorem flags_setGroupcast : ∀ f ∈ sendable,
    let g := flagsRemove (f ||| MsgFlags.dsizGroupcastNodeid) MsgFlags.dsizUnicastNodeid
    g ∈ sendable ∧ flagsContain g MsgFlags.dsizUnicastNodeid = false ∧
      flagsContain g MsgFlags.dsizGroupcastNodeid = true ∧
      flagsContain g MsgFlags.srcAddrPresent = flagsContain f MsgFlags.srcAddrPresent := by decide +kernel

theorem flags_clearDst : ∀ f ∈ sendable,
    let g := flagsRemove f MsgFlags.dsizMask
    g ∈ sendable ∧ flagsContain g MsgFlags.dsizGroupcastNodeid = false ∧
      flagsContain g MsgFlags.srcAddrPresent = flagsContain f MsgFlags.srcAddrPresent := by decide +kernel

/-- A header without destination is as consistent as the one it comes from. -/
theorem Consistent.clearDst {h : PlainHdr} (hc : h.Consistent) :
    Consistent { h with flags := flagsRemove h.flags MsgFlags.dsizMask, dstNodeid := 0 } := by
  obtain ⟨hmem, hgroup, hsrc⟩ := flags_clearDst h.flags hc.flags
  refine ⟨hmem, hc.secFlags, fun hs => hc.src (hsrc.symm.trans hs), fun _ _ => rfl, fun hg => ?_⟩
  cases hgroup.symm.trans hg

/-- **Every header that is built is consistent.** -/
theorem Built.consistent {h : PlainHdr} (hb : h.Built) : h.Consistent := by
  induction hb with
  | new => exact ⟨by decide, .inl rfl, fun _ => rfl, fun _ _ => rfl, by decide⟩
  | sessId id _ ih => exact ⟨ih.flags, ih.secFlags, ih.src, ih.dst, ih.group⟩
  | ctr ctr _ ih => exact ⟨ih.flags, ih.secFlags, ih.src, ih.dst, ih.group⟩
  | groupSession _ ih => exact ⟨ih.flags, .inr rfl, ih.src, ih.dst, ih.group⟩
  | unicastSession _ ih => exact ⟨ih.flags, .inl rfl, ih.src, ih.dst, ih.group⟩
  | @srcNodeid h id _ ih =>
    cases id with
    | some id =>
      refine ⟨(flags_setSrc _ ih.flags).1, ih.secFlags, fun habs => ?_, fun hu hg => ?_, fun hg => ?_⟩
      · cases (flagsContain_or_self h.flags MsgFlags.srcAddrPresent).symm.trans habs
      · exact ih.dst ((flagsContain_or_of_disjoint (by decide)).symm.trans hu)
          ((flagsContain_or_of_disjoint (by decide)).symm.trans hg)
      · exact ih.group ((flagsContain_or_of_disjoint (by decide)).symm.trans hg)
    | none =>
      refine ⟨(flags_setSrc _ ih.flags).2, ih.secFlags, fun _ => rfl, fun hu hg => ?_, fun hg => ?_⟩
      · exact ih.dst ((flagsContain_remove_of_disjoint (by decide)).symm.trans hu)
          ((flagsContain_remove_of_disjoint (by decide)).symm.trans hg)
      · exact ih.group ((flagsContain_remove_of_disjoint (by decide)).symm.trans hg)
  | @dstUnicastNodeid h id _ ih =>
    cases id with
    | some id =>
      obtain ⟨hmem, hunicast, hgroup, hsrc⟩ := flags_setUnicast h.flags ih.flags
      refine ⟨hmem, ih.secFlags, fun hs => ih.src (hsrc.symm.trans hs), fun hu _ => ?_, fun hg => ?_⟩
      · cases hunicast.symm.trans hu
      · cases hgroup.symm.trans hg
    | none => exact ih.clearDst
  | @dstGroupcastNodeid h id _ ih =>
    cases id with
    | some id =>
      obtain ⟨hmem, -, hgroup, hsrc⟩ := flags_setGroupcast h.flags ih.flags
      refine ⟨hmem, ih.secFlags, fun hs => ih.src (hsrc.symm.trans hs), fun _ hg => ?_, fun _ => ?_⟩
      · cases hgroup.symm.trans hg
      · apply BitVec.eq_of_toNat_eq
        simp [setDstGroupcastNodeid]
    | none => exact ih.clearDst

/-- A header read over another one: what is not there keeps its value. -/
def readOver (h₀ h : PlainHdr) : PlainHdr :=
  { h with
    srcNodeid := if flagsContain h.flags MsgFlags.srcAddrPresent then h.srcNodeid else h₀.srcNodeid
    dstNodeid :=
      if flagsContain h.flags MsgFlags.dsizMask then h₀.dstNodeid
      else if flagsContain h.flags MsgFlags.dsizUnicastNodeid then h.dstNodeid
      else if flagsContain h.flags MsgFlags.dsizGroupcastNodeid then (h.dstNodeid.setWidth 16).setWidth 64
      else h₀.dstNodeid }

/-- **A header is read back** over another one. -/
theorem decode_encode_over (h₀ : PlainHdr) {h : PlainHdr} (hc : h.Consistent) (parsed rest : List UInt8) :
    h₀.decode ⟨parsed, h.encode ++ rest⟩ = .ok (h₀.readOver h, ⟨parsed ++ h.encode, rest⟩) := by
  have hflags : flagsFromBits (MsgFlags.dsizMask ||| MsgFlags.srcAddrPresent) h.flags = .ok h.flags := by
    have hknown : ∀ f ∈ sendable, f &&& ~~~(MsgFlags.dsizMask ||| MsgFlags.srcAddrPresent) = 0 := by decide +kernel
    exact if_pos (hknown h.flags hc.flags)
  have hsec : flagsFromBits SecFlags.groupSession h.secFlags = .ok h.secFlags := by
    rcases hc.secFlags with hs | hs <;> rw [hs] <;> rfl
  have hgroup (bytes : List UInt8) :
      (⟨bytes, toLE 2 (h.dstNodeid.setWidth 16).toNat ++ rest⟩ : ParseBuf).le 2 64 =
      .ok ((h.dstNodeid.setWidth 16).setWidth 64,
        ⟨bytes ++ toLE 2 (h.dstNodeid.setWidth 16).toNat, rest⟩) := by
    rw [ParseBuf.le_append 64 (length_toLE 2 _), ofLE_toLE (toNat_lt_pow 2 rfl _), BitVec.ofNat_toNat]
  rw [decode, encode]
  simp only [List.append_assoc, ParseBuf.le_toLE (n := 1) (w := 8) rfl,
    ParseBuf.le_toLE (n := 2) (w := 16) rfl, ParseBuf.le_toLE (n := 4) (w := 32) rfl, ok_bind, hflags, hsec]
  -- which of the optional fields there are
  cases hs : flagsContain h.flags MsgFlags.srcAddrPresent <;>
    cases hm : flagsContain h.flags MsgFlags.dsizMask <;>
    cases hu : flagsContain h.flags MsgFlags.dsizUnicastNodeid <;>
    cases hg : flagsContain h.flags MsgFlags.dsizGroupcastNodeid <;>
    simp only [readOver, hs, hm, hu, hg, ParseBuf.leIf, ParseBuf.le_toLE (n := 8) (w := 64) rfl, hgroup, ok_bind,
      pure, Except.pure, if_true, if_false, Bool.false_eq_true, List.nil_append, List.append_nil,
      List.append_assoc]

structure Same (h h' : PlainHdr) : Prop where
  flags : h.flags = h'.flags
  sessId : h.sessId = h'.sessId
  secFlags : h.secFlags = h'.secFlags
  ctr : h.ctr = h'.ctr
  src : h.getSrcNodeid = h'.getSrcNodeid
  dstUnicast : h.getDstUnicastNodeid = h'.getDstUnicastNodeid
  dstGroupcast : h.getDstGroupcastNodeid = h'.getDstGroupcastNodeid

theorem flags_dst : ∀ f ∈ sendable, flagsContain f MsgFlags.dsizMask = false ∧
    (f &&& MsgFlags.dsizMask = MsgFlags.dsizUnicastNodeid →
      flagsContain f MsgFlags.dsizUnicastNodeid = true) ∧
    (f &&& MsgFlags.dsizMask = MsgFlags.dsizGroupcastNodeid →
      flagsContain f MsgFlags.dsizUnicastNodeid = false ∧
        flagsContain f MsgFlags.dsizGroupcastNodeid = true) := by decide +kernel

/-- **What is read over a header says what was sent**, whatever that header was. -/
theorem Consistent.same_over {h : PlainHdr} (hc : h.Consistent) (h₀ : PlainHdr) : (h₀.readOver h).Same h := by
  obtain ⟨hmask, hunicast, hgroup⟩ := flags_dst h.flags hc.flags
  refine ⟨rfl, rfl, rfl, rfl, ?_, ?_, ?_⟩
  · simp only [getSrcNodeid, readOver]
    split <;> rfl
  · simp only [getDstUnicastNodeid, readOver, hmask]
    split
    · next hf => simp [hunicast hf]
    · rfl
  · simp only [getDstGroupcastNodeid, readOver, hmask]
    split
    · next hf => simp [hgroup hf, hc.group (hgroup hf).2]
    · rfl

theorem Consistent.over_eq {h h₀ : PlainHdr} (hc : h.Consistent) (hsrc : h₀.srcNodeid = 0)
    (hdst : h₀.dstNodeid = 0) : h₀.readOver h = h := by
  have hsrc' : (h₀.readOver h).srcNodeid = h.srcNodeid := by
    simp only [readOver, hsrc]
    split
    · rfl
    · next hs => exact (hc.src (Bool.eq_false_iff.mpr hs)).symm
  have hdst' : (h₀.readOver h).dstNodeid = h.dstNodeid := by
    simp only [readOver, hdst, (flags_dst h.flags hc.flags).1]
    cases hu : flagsContain h.flags MsgFlags.dsizUnicastNodeid <;>
      cases hg : flagsContain h.flags MsgFlags.dsizGroupcastNodeid
    · exact (hc.dst hu hg).symm
    · exact hc.group hg
    · rfl
    · rfl
  calc h₀.readOver h = { h with srcNodeid := (h₀.readOver h).srcNodeid, dstNodeid := (h₀.readOver h).dstNodeid } := rfl
    _ = h := by rw [hsrc', hdst']

end PlainHdr

/-! ## The protocol header -/

namespace ProtoHdr

inductive Built : ProtoHdr → Prop
  | new : Built .new
  | exchId {h : ProtoHdr} (id : BitVec 16) : Built h → Built { h with exchId := id }
  | protoId {h : ProtoHdr} (id : BitVec 16) : Built h → Built { h with protoId := id }
  | protoOpcode {h : ProtoHdr} (opcode : BitVec 8) : Built h → Built { h with protoOpcode := opcode }
  | vendor {h : ProtoHdr} (vendorId : Option (BitVec 16)) : Built h → Built (h.setVendor vendorId)
  | setReliable {h : ProtoHdr} : Built h → Built h.setReliable
  | unsetReliable {h : ProtoHdr} : Built h → Built h.unsetReliable
  | ack {h : ProtoHdr} (ackMsgCtr : Option (BitVec 32)) : Built h → Built (h.setAck ackMsgCtr)
  | setInitiator {h : ProtoHdr} : Built h → Built h.setInitiator
  | unsetInitiator {h : ProtoHdr} : Built h → Built h.unsetInitiator

def known : BitVec 8 :=
  ExchFlags.vendor ||| ExchFlags.secex ||| ExchFlags.reliable ||| ExchFlags.ack ||| ExchFlags.initiator

structure Consistent (h : ProtoHdr) : Prop where
  flags : h.exchFlags &&& ~~~known = 0
  vendor : flagsContain h.exchFlags ExchFlags.vendor = false → h.protoVendorId = 0
  /-- no acknowledgement flag, no acknowledged counter -/
  ack : flagsContain h.exchFlags ExchFlags.ack = false → h.ackMsgCtr = 0

theorem known_or {f g : BitVec 8} (hf : f &&& ~~~known = 0) (hg : g &&& ~~~known = 0) :
    (f ||| g) &&& ~~~known = 0 := by
  have hdistrib : (f ||| g) &&& ~~~known = (f &&& ~~~known) ||| (g &&& ~~~known) := by
    apply BitVec.eq_of_getLsbD_eq
    intro i _
    simp [Bool.and_or_distrib_right]
  rw [hdistrib, hf, hg]
  rfl

theorem known_remove {f : BitVec 8} (hf : f &&& ~~~known = 0) (g : BitVec 8) :
    flagsRemove f g &&& ~~~known = 0 := by
  have hcomm : flagsRemove f g &&& ~~~known = (f &&& ~~~known) &&& ~~~g := by
    rw [flagsRemove, BitVec.and_assoc, BitVec.and_comm (~~~g), ← BitVec.and_assoc]
  rw [hcomm, hf]
  simp

section Consistent

variable {h h₀ : ProtoHdr} {g : BitVec 8}

theorem Consistent.raise (hc : h.Consistent) (hg : g &&& ~~~known = 0) (hvendor : g &&& ExchFlags.vendor = 0)
    (hack : g &&& ExchFlags.ack = 0) : Consistent { h with exchFlags := h.exchFlags ||| g } := by
  refine ⟨known_or hc.flags hg, fun hv => hc.vendor ?_, fun ha => hc.ack ?_⟩
  · exact (flagsContain_or_of_disjoint hvendor).symm.trans hv
  · exact (flagsContain_or_of_disjoint hack).symm.trans ha

theorem Consistent.lower (hc : h.Consistent) (hvendor : g &&& ExchFlags.vendor = 0)
    (hack : g &&& ExchFlags.ack = 0) : Consistent { h with exchFlags := flagsRemove h.exchFlags g } := by
  refine ⟨known_remove hc.flags g, fun hv => hc.vendor ?_, fun ha => hc.ack ?_⟩
  · exact (flagsContain_remove_of_disjoint hvendor).symm.trans hv
  · exact (flagsContain_remove_of_disjoint hack).symm.trans ha

theorem Consistent.setVendor (hc : h.Consistent) (vendorId : Option (BitVec 16)) :
    (h.setVendor vendorId).Consistent := by
  cases vendorId with
  | some vendorId =>
    refine ⟨known_or hc.flags (by decide), fun hv => ?_, fun ha => hc.ack ?_⟩
    · cases (flagsContain_or_self h.exchFlags ExchFlags.vendor).symm.trans hv
    · exact (flagsContain_or_of_disjoint (by decide)).symm.trans ha
  | none =>
    refine ⟨known_remove hc.flags _, fun _ => rfl, fun ha => hc.ack ?_⟩
    exact (flagsContain_remove_of_disjoint (by decide)).symm.trans ha

theorem Consistent.setAck (hc : h.Consistent) (ackMsgCtr : Option (BitVec 32)) :
    (h.setAck ackMsgCtr).Consistent := by
  cases ackMsgCtr with
  | some ackMsgCtr =>
    refine ⟨known_or hc.flags (by decide), fun hv => hc.vendor ?_, fun ha => ?_⟩
    · exact (flagsContain_or_of_disjoint (by decide)).symm.trans hv
    · cases (flagsContain_or_self h.exchFlags ExchFlags.ack).symm.trans ha
  | none =>
    refine ⟨known_remove hc.flags _, fun hv => hc.vendor ?_, fun _ => rfl⟩
    exact (flagsContain_remove_of_disjoint (by decide)).symm.trans hv

/-- **Every header that is built is consistent.** -/
theorem Built.consistent (hb : h.Built) : h.Consistent := by
  induction hb with
  | new => exact ⟨by decide, fun _ => rfl, fun _ => rfl⟩
  | exchId id _ ih => exact ⟨ih.flags, ih.vendor, ih.ack⟩
  | protoId id _ ih => exact ⟨ih.flags, ih.vendor, ih.ack⟩
  | protoOpcode opcode _ ih => exact ⟨ih.flags, ih.vendor, ih.ack⟩
  | vendor vendorId _ ih => exact ih.setVendor vendorId
  | setReliable _ ih => exact ih.raise (by decide) (by decide) (by decide)
  | unsetReliable _ ih => exact ih.lower (by decide) (by decide)
  | ack ackMsgCtr _ ih => exact ih.setAck ackMsgCtr
  | setInitiator _ ih => exact ih.raise (by decide) (by decide) (by decide)
  | unsetInitiator _ ih => exact ih.lower (by decide) (by decide)

/-- A header read over another one: what is not there keeps its value. -/
def readOver (h₀ h : ProtoHdr) : ProtoHdr :=
  { h with
    protoVendorId := if flagsContain h.exchFlags ExchFlags.vendor then h.protoVendorId else h₀.protoVendorId
    ackMsgCtr := if flagsContain h.exchFlags ExchFlags.ack then h.ackMsgCtr else h₀.ackMsgCtr }

/-- Parse the protocol header, without decrypting. -/
def decode (h : ProtoHdr) (pb : ParseBuf) : Except ErrorCode (ProtoHdr × ParseBuf) := do
  let (exchFlags, pb) ← pb.le 1 8
  let exchFlags ← flagsFromBits (ExchFlags.vendor ||| ExchFlags.secex ||| ExchFlags.reliable |||
    ExchFlags.ack ||| ExchFlags.initiator) exchFlags
  let (protoOpcode, pb) ← pb.le 1 8
  let (exchId, pb) ← pb.le 2 16
  let (protoId, pb) ← pb.le 2 16
  let (protoVendorId, pb) ← pb.leIf (flagsContain exchFlags ExchFlags.vendor) 2 16 h.protoVendorId
  let (ackMsgCtr, pb) ← pb.leIf (flagsContain exchFlags ExchFlags.ack) 4 32 h.ackMsgCtr
  return (⟨exchId, exchFlags, protoId, protoOpcode, protoVendorId, ackMsgCtr⟩, pb)

/-- **A header is read back** over another one. -/
theorem decode_encode_over (h₀ : ProtoHdr) (hc : h.Consistent) (parsed rest : List UInt8) :
    h₀.decode ⟨parsed, h.encode ++ rest⟩ = .ok (h₀.readOver h, ⟨parsed ++ h.encode, rest⟩) := by
  have hflags : flagsFromBits (ExchFlags.vendor ||| ExchFlags.secex ||| ExchFlags.reliable |||
      ExchFlags.ack ||| ExchFlags.initiator) h.exchFlags = .ok h.exchFlags := if_pos hc.flags
  rw [decode, encode]
  simp only [List.append_assoc, ParseBuf.le_toLE (n := 1) (w := 8) rfl,
    ParseBuf.le_toLE (n := 2) (w := 16) rfl, ok_bind, hflags, getVendor, getAck]
  -- which of the optional fields there are
  cases hv : flagsContain h.exchFlags ExchFlags.vendor <;>
    cases ha : flagsContain h.exchFlags ExchFlags.ack <;>
    simp only [readOver, hv, ha, ParseBuf.leIf, ParseBuf.le_toLE (n := 2) (w := 16) rfl,
      ParseBuf.le_toLE (n := 4) (w := 32) rfl, ok_bind, pure, Except.pure, if_true, if_false,
      Bool.false_eq_true, List.nil_append, List.append_nil, List.append_assoc]

structure Same (h h' : ProtoHdr) : Prop where
  exchId : h.exchId = h'.exchId
  exchFlags : h.exchFlags = h'.exchFlags
  protoId : h.protoId = h'.protoId
  protoOpcode : h.protoOpcode = h'.protoOpcode
  vendor : h.getVendor = h'.getVendor
  ack : h.getAck = h'.getAck

/-- **What is read over a header says what was sent**, whatever that header was. -/
theorem same_over (h₀ h : ProtoHdr) : (h₀.readOver h).Same h := by
  refine ⟨rfl, rfl, rfl, rfl, ?_, ?_⟩
  · simp only [getVendor, readOver]
    split <;> rfl
  · simp only [getAck, readOver]
    split <;> rfl

/-- Over a header without vendor and acknowledgement it is what was sent. -/
theorem Consistent.over_eq (hc : h.Consistent) (hvendor : h₀.protoVendorId = 0) (hack : h₀.ackMsgCtr = 0) :
    h₀.readOver h = h := by
  have hvendor' : (h₀.readOver h).protoVendorId = h.protoVendorId := by
    simp only [readOver, hvendor]
    split
    · rfl
    · next hv => exact (hc.vendor (Bool.eq_false_iff.mpr hv)).symm
  have hack' : (h₀.readOver h).ackMsgCtr = h.ackMsgCtr := by
    simp only [readOver, hack]
    split
    · rfl
    · next ha => exact (hc.ack (Bool.eq_false_iff.mpr ha)).symm
  calc h₀.readOver h =
      { h with protoVendorId := (h₀.readOver h).protoVendorId, ackMsgCtr := (h₀.readOver h).ackMsgCtr } := rfl
    _ = h := by rw [hvendor', hack']

end Consistent

end ProtoHdr

end RsMatter
