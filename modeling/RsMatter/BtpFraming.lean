import RsMatter.BtpSafety

/-!
# The receive buffer as a list of messages

A message goes into the buffer with its length before it, and comes out by that length. So
the buffer must be a list of complete messages and the beginning of at most one more
(`RecvWindow.Framed`). The window leaves that to the peer: a message may begin in the middle
of another one, a segment may be refused after its length has gone into the buffer, and the
last byte of a message may come before the segment that says so. Where none of these happens
(`RecvWindow.OrderlyData`), the buffer stays in order (`Session.framed_of_orderly`).
-/

namespace RsMatter

open Prog

namespace Btp

namespace RecvWindow

/-! ## Framing -/

/-- The window has these messages in its buffer. -/
structure FramedAs (w : RecvWindow) (rx : Rx) : Prop where
  wf : w.buf.WellFormed
  contents : w.buf.contents = rx.bytes
  count : w.bufMessagesCt = rx.done.length
  missing : w.remMsgLen = rx.missing
  /-- the message that is coming is not complete -/
  current : ∀ len part, rx.current = some (len, part) → part.length < len ∧ len < 65536
  /-- a length can say how long a message is -/
  done : ∀ msg ∈ rx.done, msg.length < 65536

/-- **Framing.** The buffer is a list of complete messages, as many as are counted, and the beginning
of at most one more, with as many bytes missing as are counted. -/
def Framed (w : RecvWindow) : Prop := ∃ rx, w.FramedAs rx

variable {w w' : RecvWindow} {rx : Rx} {hdr : BtpHdr} {payload : List UInt8} {mtu : ℕ}

def frame (w : RecvWindow) : RingBuf maxMessageSize × ℕ × ℕ := (w.buf, w.bufMessagesCt, w.remMsgLen)

theorem Framed.of_frame_eq (h : w.Framed) (heq : w'.frame = w.frame) : w'.Framed := by
  obtain ⟨rx, h⟩ := h
  simp only [frame, Prod.mk.injEq] at heq
  obtain ⟨hbuf, hct, hrem⟩ := heq
  refine ⟨rx, ?_, ?_, ?_, ?_, h.current, h.done⟩
  · rw [hbuf]
    exact h.wf
  · rw [hbuf, h.contents]
  · rw [hct, h.count]
  · rw [hrem, h.missing]

/-- Nothing is missing from the messages there are: none is coming. -/
theorem FramedAs.current_eq_none (h : w.FramedAs rx) (hrem : w.remMsgLen = 0) : rx.current = none := by
  cases hcur : rx.current with
  | none => rfl
  | some p =>
    obtain ⟨len, part⟩ := p
    have hlt := (h.current len part hcur).1
    have hmiss := h.missing
    rw [hrem, Rx.missing, hcur] at hmiss
    dsimp only at hmiss
    omega

theorem FramedAs.begun (h : w.FramedAs rx) (hroom : w.HasRoom hdr)
    (hbegin : hdr.getMsgLen.isSome = true → w.remMsgLen = 0) : (w.begun hdr).Framed := by
  obtain ⟨hwf, hcont⟩ := begun_buf h.wf hroom
  rw [lengthBytes] at hcont
  have hrem : (w.begun hdr).remMsgLen = w.expected hdr := begun_remMsgLen
  rw [expected] at hrem
  cases hlen : hdr.getMsgLen with
  | none =>
    rw [hlen] at hcont hrem
    exact ⟨rx, hwf, hcont.trans ((List.append_nil _).trans h.contents), begun_bufMessagesCt.trans h.count,
      hrem.trans h.missing, h.current, h.done⟩
  | some len =>
    rw [hlen] at hcont hrem hbegin
    have hnone := h.current_eq_none (hbegin rfl)
    obtain ⟨done, current⟩ := rx
    obtain rfl : current = none := hnone
    by_cases hpos : 0 < len.toNat
    · refine ⟨⟨done, some (len.toNat, [])⟩, hwf, ?_, begun_bufMessagesCt.trans h.count, hrem, ?_, h.done⟩
      · dsimp only at hcont
        rw [hcont, if_pos hpos, h.contents]
        simp [Rx.bytes]
      · rintro _ _ ⟨⟩
        exact ⟨hpos, len.isLt⟩
    · refine ⟨⟨done, none⟩, hwf, ?_, begun_bufMessagesCt.trans h.count, ?_, by rintro _ _ ⟨⟩, h.done⟩
      · dsimp only at hcont
        rw [hcont, if_neg hpos, List.append_nil, h.contents]
      · exact hrem.trans (Nat.eq_zero_of_not_pos hpos)

theorem FramedAs.withPayload (h : w.FramedAs rx) (hfits : payload.length ≤ w.remMsgLen)
    (hwhole : hdr.isFinal = true → w.remMsgLen = payload.length) (hfree : payload.length ≤ w.buf.free)
    (hlast : 0 < w.remMsgLen → payload.length = w.remMsgLen → hdr.isFinal = true) :
    (w.withPayload hdr payload).Framed := by
  obtain ⟨hwf, hpush⟩ := RingBuf.contents_push h.wf payload hfree
  have hmiss := h.missing
  have hcont := h.contents
  obtain ⟨done, current⟩ := rx
  cases current with
  | none =>
    -- nothing is coming, and there is nothing in the segment
    have hzero : w.remMsgLen = 0 := hmiss
    obtain rfl : payload = [] := List.length_eq_zero_iff.mp (by omega)
    refine ⟨⟨done, none⟩, hwf, hpush.trans ((List.append_nil _).trans hcont), ?_, hmiss, nofun, h.done⟩
    exact (if_neg (by simp)).trans h.count
  | some p =>
    obtain ⟨len, part⟩ := p
    obtain ⟨hlt, hbyte⟩ := h.current len part rfl
    have hrem : w.remMsgLen = len - part.length := hmiss
    by_cases heq : payload.length = w.remMsgLen
    · have hfinal := hlast (by omega) heq
      have hne : payload ≠ [] := by
        intro hnil
        rw [hnil, List.length_nil] at heq
        omega
      refine ⟨⟨done ++ [part ++ payload], none⟩, hwf, ?_, ?_, ?_, nofun, ?_⟩
      · refine hpush.trans ?_
        have hlen : len = (part ++ payload).length := by
          rw [List.length_append]
          omega
        rw [hcont, hlen]
        simp [Rx.bytes, record]
      · refine (if_pos ⟨hfinal, hne⟩).trans ?_
        rw [List.length_append, List.length_singleton, h.count]
      · show w.remMsgLen - payload.length = 0
        omega
      · intro m hm
        rcases List.mem_append.mp hm with hm | hm
        · exact h.done m hm
        · rw [List.mem_singleton.mp hm, List.length_append]
          omega
    · have hnot : ¬ (hdr.isFinal = true ∧ payload ≠ []) := fun hf => heq (hwhole hf.1).symm
      refine ⟨⟨done, some (len, part ++ payload)⟩, hwf, ?_, (if_neg hnot).trans h.count, ?_, ?_, h.done⟩
      · refine hpush.trans ?_
        rw [hcont]
        simp [Rx.bytes]
      · show w.remMsgLen - payload.length = len - (part ++ payload).length
        rw [List.length_append]
        omega
      · rintro _ _ ⟨⟩
        rw [List.length_append]
        exact ⟨by omega, hbyte⟩

theorem run_acceptIncoming_of_ne_panic (hpass : w.Passes hdr payload mtu) (h : w.Takes hdr payload)
    (hne : ((acceptIncoming hdr payload mtu).run w).2 ≠ .error .panic) :
    (acceptIncoming hdr payload mtu).run w = ((w.begun hdr).withPayload hdr payload, .ok ()) := by
  have hrem : payload.length % 65536 ≤ (w.begun hdr).remMsgLen := by
    rw [begun_remMsgLen]
    exact h.fits
  have hwhole : hdr.isFinal = true → (w.begun hdr).remMsgLen - payload.length % 65536 = 0 := by
    rw [begun_remMsgLen]
    exact h.whole
  rw [run_acceptIncoming_of_passes hpass h.room, acceptPayload, run_bind_of_ok (run_get _),
    run_bind_of_ok (run_ensure_of_pos hrem _ _), run_bind_of_ok (run_modify _ _),
    run_bind_of_ok (run_get _), run_bind_of_ok (run_ensure_of_pos hwhole _ _),
    run_bind_of_ok (run_ensure_of_pos h.free _ _), run_bind_of_ok (run_modify _ _)] at hne ⊢
  -- the three numbers, one after the other
  by_cases hlevel : 1 ≤ (w.begun hdr).level
  · rw [checkedSub_of_le hlevel, run_bind_of_ok (run_ofExcept _ _),
      run_bind_of_ok (run_modify _ _)] at hne ⊢
    by_cases hack : (w.begun hdr).ackLevel + 1 < 256
    · rw [checkedAdd_of_lt hack, run_bind_of_ok (run_ofExcept _ _),
        run_bind_of_ok (run_modify _ _), h.mod_eq] at hne ⊢
      rw [RecvWindow.withPayload]
      by_cases hmsg : hdr.isFinal = true ∧ payload ≠ []
      · rw [Prog.onlyIf, if_pos hmsg] at hne ⊢
        by_cases hct : (w.begun hdr).bufMessagesCt + 1 < 256
        · rw [checkedAdd_of_lt hct, run_bind_of_ok (run_ofExcept _ _), run_modify]
          simp [hmsg]
        · rw [checkedAdd, if_neg hct, run_bind_of_error (run_ofExcept _ _)] at hne
          exact absurd rfl hne
      · rw [Prog.onlyIf, if_neg hmsg, run_pure]
        simp [hmsg]
    · rw [checkedAdd, if_neg hack, run_bind_of_error (run_ofExcept _ _)] at hne
      exact absurd rfl hne
  · rw [checkedSub, if_neg hlevel, run_bind_of_error (run_ofExcept _ _)] at hne
    exact absurd rfl hne

/-! ## Order -/

/-- A segment is refused before anything has changed although it passes: it has more bytes than
announced, or nothing and claims to be the end. -/
def RefusedAtOnce (w : RecvWindow) (hdr : BtpHdr) (payload : List UInt8) : Prop :=
  w.expected hdr = w.remMsgLen ∧
    (w.expected hdr < payload.length % 65536 ∨ hdr.isFinal = true ∧ payload = [] ∧ 0 < w.remMsgLen)

/-- A segment is in order, if it passes: a message begins where none is coming, the segment is not
refused half-way, and the last byte of a message is in a segment that says it is the end. -/
def OrderlyData (w : RecvWindow) (hdr : BtpHdr) (payload : List UInt8) (mtu : ℕ) : Prop :=
  w.Passes hdr payload mtu →
    (hdr.getMsgLen.isSome = true → w.remMsgLen = 0) ∧
      (w.Takes hdr payload ∨ w.RefusedAtOnce hdr payload) ∧
      (0 < w.expected hdr → payload.length = w.expected hdr → hdr.isFinal = true)

instance (w : RecvWindow) (hdr : BtpHdr) (payload : List UInt8) : Decidable (w.RefusedAtOnce hdr payload) :=
  inferInstanceAs (Decidable (_ ∧ _))

instance (w : RecvWindow) (hdr : BtpHdr) (payload : List UInt8) (mtu : ℕ) :
    Decidable (w.OrderlyData hdr payload mtu) := inferInstanceAs (Decidable (_ → _))

theorem run_acceptIncoming_of_refusedAtOnce (hpass : w.Passes hdr payload mtu)
    (hbegin : hdr.getMsgLen.isSome = true → w.remMsgLen = 0) (h : w.RefusedAtOnce hdr payload) :
    (acceptIncoming hdr payload mtu).run w = (w, .error (.error .invalidData)) := by
  obtain ⟨hexp, hwhy⟩ := h
  -- only a message of length zero may have begun
  have hsame : w.HasRoom hdr ∧ w.begun hdr = w := by
    rw [HasRoom, RecvWindow.begun]
    rw [expected] at hexp
    cases hlen : hdr.getMsgLen with
    | none => exact ⟨by rintro _ ⟨⟩, rfl⟩
    | some len =>
      rw [hlen] at hexp hbegin
      have hrem := hbegin rfl
      have hzero : len.toNat = 0 := hexp.trans hrem
      refine ⟨?_, ?_⟩
      · rintro _ ⟨⟩ hpos
        omega
      · simp only [hzero, Nat.lt_irrefl, if_false]
        rw [← hrem]
  obtain ⟨hroom, hbegun⟩ := hsame
  rw [run_acceptIncoming_of_passes hpass hroom, hbegun]
  rw [hexp] at hwhy
  rcases hwhy with hlong | ⟨hfinal, rfl, hpos⟩
  · exact run_acceptPayload_of_long (by omega)
  · refine (run_acceptPayload_of_refused (Nat.zero_le _) ?_).trans rfl
    rintro ⟨hwhole, -⟩
    have hrest : w.remMsgLen - 0 = 0 := hwhole hfinal
    omega

/-- **A segment that is in order** leaves the buffer in order, and if it is refused it changes
nothing. -/
theorem framed_of_orderlyData (h : w.Framed) (horder : w.OrderlyData hdr payload mtu)
    (hne : ((acceptIncoming hdr payload mtu).run w).2 ≠ .error .panic) :
    ((acceptIncoming hdr payload mtu).run w).1.Framed ∧
      (((acceptIncoming hdr payload mtu).run w).2 = .ok () ∨ ((acceptIncoming hdr payload mtu).run w).1 = w) := by
  by_cases hpass : w.Passes hdr payload mtu
  · obtain ⟨hbegin, htakes | hrefused, hlast⟩ := horder hpass
    · rw [run_acceptIncoming_of_ne_panic hpass htakes hne]
      obtain ⟨rx, h⟩ := h
      obtain ⟨rx', h'⟩ := h.begun htakes.room hbegin
      have hfits := htakes.fits
      have hwhole := htakes.whole
      rw [htakes.mod_eq] at hfits hwhole
      refine ⟨h'.withPayload ?_ ?_ htakes.free ?_, .inl rfl⟩
      · rwa [begun_remMsgLen]
      · intro hfinal
        have := hwhole hfinal
        rw [begun_remMsgLen]
        omega
      · rwa [begun_remMsgLen]
    · rw [run_acceptIncoming_of_refusedAtOnce hpass hbegin hrefused]
      exact ⟨h, .inr rfl⟩
  · rw [run_acceptIncoming_of_not_passes hpass]
    exact ⟨h, .inr rfl⟩

theorem framed_fetchMessage (h : w.Framed) (cap : ℕ) : ((fetchMessage cap).run w).1.Framed := by
  obtain ⟨⟨done, current⟩, h⟩ := h
  cases done with
  | nil =>
    have hzero : w.bufMessagesCt = 0 := h.count
    rw [fetchMessage, run_bind_of_ok (run_get w), if_pos hzero, run_pure]
    exact ⟨_, h⟩
  | cons msg done =>
    have hct : w.bufMessagesCt = done.length + 1 := h.count
    have hcont : w.buf.contents = record msg ++ Rx.bytes ⟨done, current⟩ := by
      rw [h.contents]
      simp [Rx.bytes]
    obtain ⟨buf, hrun, hwf, hback⟩ :=
      run_fetchMessage_record h.wf hcont (h.done msg List.mem_cons_self) (by omega) cap
    rw [hrun]
    refine ⟨⟨done, current⟩, hwf, hback, ?_, h.missing, h.current,
      fun m hm => h.done m (List.mem_cons_of_mem _ hm)⟩
    show w.bufMessagesCt - 1 = done.length
    omega

end RecvWindow

namespace Session

variable {s : Session} {cs : List Call}

def frame (s : Session) : RingBuf maxMessageSize × ℕ × ℕ := s.recvWindow.frame

theorem keeps_frame_onSendWindow {α : Type} (m : Prog Fault SendWindow α) : (onSendWindow m).Keeps frame :=
  fun _ => rfl

theorem keeps_frame_postSend : (onRecvWindow RecvWindow.postSend).Keeps frame := by
  have hpost : RecvWindow.postSend.Keeps RecvWindow.frame := by
    refine keeps_bind keeps_get fun w => keeps_onlyIf _ ?_
    exact keeps_bind (keeps_ofExcept _) fun _ => keeps_modify fun _ => rfl
  exact fun s => hpost s.recvWindow

theorem keeps_frame_prepTxHandshake (gattMtu : Option ℕ) (cap : ℕ) :
    (prepTxHandshake gattMtu cap).Keeps frame := by
  refine keeps_bind keeps_get fun s => ?_
  cases s.handshakePending with
  | false => exact keeps_pure _
  | true =>
    refine keeps_bind (keeps_ensure _ _) fun _ => ?_
    refine keeps_bind (keeps_frame_onSendWindow _) fun _ => ?_
    exact keeps_bind (keeps_modify fun _ => rfl) fun _ => keeps_pure _

theorem keeps_frame_prepTxData (data : List UInt8) (offset cap : ℕ) :
    (prepTxData data offset cap).Keeps frame := by
  refine keeps_bind keeps_get fun s => ?_
  cases s.sendWindow.isFull s.recvWindow with
  | true => exact keeps_pure _
  | false =>
    refine keeps_bind (keeps_ensure _ _) fun _ => ?_
    refine keeps_bind (keeps_ofExcept _) fun _ => ?_
    refine keeps_bind (keeps_ensure _ _) fun _ => ?_
    refine keeps_bind (keeps_frame_onSendWindow _) fun _ => ?_
    exact keeps_bind keeps_frame_postSend fun _ => keeps_pure _

theorem keeps_frame_handshakeReq (gattMtu : Option ℕ) (address : BitVec 48) (hdr : BtpHdr)
    (payload : List UInt8) : (processRxHandshakeReq gattMtu address hdr payload).Keeps frame := by
  refine keeps_bind (keeps_ensure _ _) fun _ => ?_
  refine keeps_bind (keeps_ofExcept _) fun _ => ?_
  refine keeps_bind keeps_get fun _ => ?_
  refine keeps_bind (keeps_ofExcept _) fun _ => ?_
  exact keeps_bind (keeps_ofExcept _) fun _ => keeps_modify fun _ => rfl

theorem keeps_frame_handshakeResp (address : BitVec 48) (hdr : BtpHdr) (payload : List UInt8) :
    (processRxHandshakeResp address hdr payload).Keeps frame := by
  refine keeps_bind (keeps_ensure _ _) fun _ => ?_
  exact keeps_bind (keeps_ofExcept _) fun _ => keeps_modify fun _ => rfl

theorem atomic_handshakeReq (gattMtu : Option ℕ) (address : BitVec 48) (hdr : BtpHdr)
    (payload : List UInt8) : (processRxHandshakeReq gattMtu address hdr payload).Atomic := by
  refine atomic_bind (keeps_ensure _ _) fun _ => ?_
  refine atomic_bind (keeps_ofExcept _) fun _ => ?_
  refine atomic_bind keeps_get fun _ => ?_
  refine atomic_bind (keeps_ofExcept _) fun _ => ?_
  exact atomic_bind (keeps_ofExcept _) fun _ => atomic_modify _

theorem atomic_handshakeResp (address : BitVec 48) (hdr : BtpHdr) (payload : List UInt8) :
    (processRxHandshakeResp address hdr payload).Atomic := by
  refine atomic_bind (keeps_ensure _ _) fun _ => ?_
  exact atomic_bind (keeps_ofExcept _) fun _ => atomic_modify _

/-- What the window for what we receive has to do with a segment with data. -/
theorem processRxData_recvWindow (hdr : BtpHdr) (payload : List UInt8) (s : Session) :
    ((processRxData hdr payload).run s).1.recvWindow =
        ((RecvWindow.acceptIncoming hdr payload s.mtu).run s.recvWindow).1 ∧
      ∀ e, ((RecvWindow.acceptIncoming hdr payload s.mtu).run s.recvWindow).2 = .error e →
        ((processRxData hdr payload).run s).2 = .error e := by
  rw [processRxData, run_bind_of_ok (run_get s)]
  rcases hr : (RecvWindow.acceptIncoming hdr payload s.mtu).run s.recvWindow with ⟨w, r⟩
  cases r with
  | error e =>
    rw [run_bind_of_error (run_onRecvWindow hr)]
    exact ⟨rfl, fun _ he => he⟩
  | ok _ =>
    rw [run_bind_of_ok (run_onRecvWindow hr)]
    exact ⟨rfl, by rintro _ ⟨⟩⟩

theorem sendAccept_ne_invalidData (hdr : BtpHdr) (w : SendWindow) :
    ((SendWindow.acceptIncoming hdr).run w).2 ≠ .error (.error .invalidData) := by
  rw [SendWindow.acceptIncoming]
  cases hdr.getAck with
  | none => rintro ⟨⟩
  | some ack =>
    rw [Prog.whenSome, run_bind_of_ok (run_get w)]
    split
    · rintro ⟨⟩
    · rw [checkedSub]
      split
      · rintro ⟨⟩
      · rintro ⟨⟩

/-- A segment with data that is refused is refused by the window for what we receive. -/
theorem accept_of_processRxData_ok (hdr : BtpHdr) (payload : List UInt8) (s : Session)
    (hok : ((RecvWindow.acceptIncoming hdr payload s.mtu).run s.recvWindow).2 = .ok ()) :
    ((processRxData hdr payload).run s).2 ≠ .error (.error .invalidData) := by
  rw [processRxData, run_bind_of_ok (run_get s)]
  rcases hr : (RecvWindow.acceptIncoming hdr payload s.mtu).run s.recvWindow with ⟨w, r⟩
  rw [hr] at hok
  obtain rfl : r = .ok () := hok
  rw [run_bind_of_ok (run_onRecvWindow hr)]
  exact sendAccept_ne_invalidData hdr s.sendWindow

def Orderly (d : Driven) : Call → Prop
  | .processRx _ _ data =>
    ∀ r ∈ (BtpHdr.decode data).toOption, r.1.isHandshake = false →
      d.session.recvWindow.OrderlyData r.1 r.2 d.session.mtu
  | _ => True

instance decidableOrderly (d : Driven) : (c : Call) → Decidable (Orderly d c)
  | .reset | .setRelaxedMtuNego _ | .setInitiator _ | .fetchMessage _ | .prepTxHandshake _ _
  | .prepTxData _ _ _ => .isTrue trivial
  | .processRx _ _ data =>
    inferInstanceAs (Decidable (∀ r ∈ (BtpHdr.decode data).toOption, r.1.isHandshake = false →
      d.session.recvWindow.OrderlyData r.1 r.2 d.session.mtu))

/-- What has come, if it is in order, leaves the buffer in order, and what is refused changes
nothing. -/
theorem framed_processRx {gattMtu : Option ℕ} {address : BitVec 48} {data : List UInt8}
    (h : s.recvWindow.Framed)
    (horder : ∀ r ∈ (BtpHdr.decode data).toOption, r.1.isHandshake = false →
      s.recvWindow.OrderlyData r.1 r.2 s.mtu)
    (hne : ((processRx gattMtu address data).run s).2 ≠ .error .panic) :
    ((processRx gattMtu address data).run s).1.recvWindow.Framed ∧
      (((processRx gattMtu address data).run s).2 = .error (.error .invalidData) →
        ((processRx gattMtu address data).run s).1.recvWindow = s.recvWindow) := by
  cases hdec : BtpHdr.decode data with
  | error e =>
    have hrun : (processRx gattMtu address data).run s = (s, .error (.error e)) := by
      rw [processRx, hdec]
      exact run_bind_of_error (run_ofExcept _ _)
    rw [hrun]
    exact ⟨h, fun _ => rfl⟩
  | ok r =>
    obtain ⟨hdr, payload⟩ := r
    have hrun : (processRx gattMtu address data).run s =
        (if hdr.isHandshake then
          if s.initiator then processRxHandshakeResp address hdr payload
          else processRxHandshakeReq gattMtu address hdr payload
        else processRxData hdr payload).run s := by
      rw [processRx, hdec]
      exact run_bind_of_ok (run_ofExcept _ _)
    rw [hrun] at hne ⊢
    rw [hdec] at horder
    cases hhs : hdr.isHandshake with
    | true =>
      simp only [if_true]
      cases s.initiator with
      | true =>
        exact ⟨h.of_frame_eq (keeps_frame_handshakeResp address hdr payload s),
          fun he => congrArg recvWindow (atomic_handshakeResp address hdr payload s _ he)⟩
      | false =>
        exact ⟨h.of_frame_eq (keeps_frame_handshakeReq gattMtu address hdr payload s),
          fun he => congrArg recvWindow (atomic_handshakeReq gattMtu address hdr payload s _ he)⟩
    | false =>
      simp only [hhs, Bool.false_eq_true, if_false] at hne ⊢
      obtain ⟨hwin, herr⟩ := processRxData_recvWindow hdr payload s
      obtain ⟨hframed, hok | hsame⟩ :=
        RecvWindow.framed_of_orderlyData h (horder _ rfl hhs) fun he => hne (herr _ he)
      · rw [hwin]
        exact ⟨hframed, fun he => absurd he (accept_of_processRxData_ok hdr payload s hok)⟩
      · rw [hwin]
        exact ⟨hframed, fun _ => hsame⟩

theorem fst_run_ignore {α : Type} (m : Prog Fault Session α) (s : Session) :
    ((do let _ ← m : Prog Fault Session Unit).run s).1 = (m.run s).1 :=
  fst_run_bind (fun _ _ => rfl) s

theorem framed_call {d : Driven} (c : Call) (h : d.session.recvWindow.Framed) (horder : Orderly d c)
    (hne : ((call c).run d.session).2 ≠ .error .panic) : ((call c).run d.session).1.recvWindow.Framed := by
  cases c with
  | reset =>
    obtain ⟨rx, h⟩ := h
    exact ⟨⟨[], none⟩, h.wf.clear, rfl, rfl, rfl, nofun, nofun⟩
  | setRelaxedMtuNego relaxedMtuNego => exact h
  | setInitiator initiator => exact h
  | processRx gattMtu address data => exact (framed_processRx h horder hne).1
  | prepTxHandshake gattMtu cap =>
    rw [call, fst_run_ignore]
    exact h.of_frame_eq (keeps_frame_prepTxHandshake _ cap d.session)
  | prepTxData data offset cap =>
    rw [call, fst_run_ignore]
    exact h.of_frame_eq (keeps_frame_prepTxData data offset cap d.session)
  | fetchMessage cap =>
    rw [call, fst_run_ignore]
    exact RecvWindow.framed_fetchMessage h cap

theorem framed_of_step {d d' : Driven} {c : Call} (horder : Orderly d c)
    (h : d.crashed = false → d.session.recvWindow.Framed) (hstep : calls.step d c = some d') :
    d'.crashed = false → d'.session.recvWindow.Framed := by
  have hstep : (if d.crashed then none else some _) = some d' := hstep
  cases hd : d.crashed with
  | true =>
    rw [hd] at hstep
    cases hstep
  | false =>
    rw [hd] at hstep
    obtain rfl := Option.some_inj.mp hstep
    exact fun hcrash => framed_call c (h hd) horder (of_decide_eq_false hcrash)

/-- **Framing along a run.** In every run whose calls are in order the buffer is in order, and what is
refused changes nothing. -/
theorem framed_of_orderly {d : Driven} (horder : calls.Meets Orderly start cs)
    (hrun : calls.run start cs = some d) (hd : d.crashed = false) :
    d.session.recvWindow.Framed ∧
      ∀ gattMtu address data, Orderly d (.processRx gattMtu address data) →
        ((call (.processRx gattMtu address data)).run d.session).2 = .error (.error .invalidData) →
          ((call (.processRx gattMtu address data)).run d.session).1.recvWindow = d.session.recvWindow := by
  have hnew : start.session.recvWindow.Framed :=
    ⟨⟨[], none⟩, RingBuf.wellFormed_new (by decide), rfl, rfl, rfl, nofun, nofun⟩
  have h := Machine.invariant_of_meets (fun _ _ _ => framed_of_step) (fun _ => hnew) horder hrun hd
  refine ⟨h, fun gattMtu address data hdata he => ?_⟩
  refine (framed_processRx h hdata ?_).2 he
  rw [show ((processRx _ address data).run d.session).2 = .error (.error .invalidData) from he]
  exact nofun

theorem framed_shortTalk : ∃ d, calls.run start shortTalk = some d ∧ d.session.recvWindow.Framed := by
  obtain ⟨d, hrun, hd⟩ : ∃ d ∈ calls.run start shortTalk, d.crashed = false := by decide +kernel
  exact ⟨d, hrun, (framed_of_orderly (by decide +kernel) hrun hd).1⟩

/-- The first message announces five bytes and ends after three: it is refused, but its length stays
in the buffer. -/
theorem refused_segment_stays :
    ∃ d ∈ calls.run start (shortTalk.take 2), d.crashed = false ∧
      ((call (.processRx (some 247) 1 [0x05, 0, 5, 0, 1, 2, 3])).run d.session).2 = .error (.error .invalidData) ∧
      ((call (.processRx (some 247) 1 [0x05, 0, 5, 0, 1, 2, 3])).run d.session).1.recvWindow ≠
        d.session.recvWindow := by
  decide +kernel

end Session

/-! ## Whole messages -/

namespace RecvWindow

variable {w : RecvWindow} {hdr : BtpHdr} {payload : List UInt8} {mtu : ℕ}

def StartsWhole (w : RecvWindow) : Prop :=
  ∃ msg rest, w.buf.contents = record msg ++ rest ∧ msg.length < 65536

/-- A segment leaves the ring of the buffer in order, if not its messages. -/
theorem wellFormed_acceptIncoming (hwf : w.buf.WellFormed)
    (hne : ((acceptIncoming hdr payload mtu).run w).2 ≠ .error .panic) :
    ((acceptIncoming hdr payload mtu).run w).1.buf.WellFormed := by
  by_cases hpass : w.Passes hdr payload mtu
  · by_cases htakes : w.Takes hdr payload
    · rw [run_acceptIncoming_of_ne_panic hpass htakes hne]
      have hbegun := (begun_buf hwf htakes.room).1
      exact (RingBuf.contents_push hbegun payload htakes.free).1
    · obtain ⟨buf, remMsgLen, hrun, hbuf⟩ := run_acceptIncoming_of_not_takes hwf hpass htakes
      rw [hrun]
      exact hbuf
  · rw [run_acceptIncoming_of_not_passes hpass]
    exact hwf

end RecvWindow

namespace Session

variable {s : Session} {d d' : Driven} {c : Call}

theorem wellFormed_processRx {gattMtu : Option ℕ} {address : BitVec 48} {data : List UInt8}
    (hwf : s.recvWindow.buf.WellFormed)
    (hne : ((processRx gattMtu address data).run s).2 ≠ .error .panic) :
    ((processRx gattMtu address data).run s).1.recvWindow.buf.WellFormed := by
  have hframe : ∀ s' : Session, s'.frame = s.frame → s'.recvWindow.buf.WellFormed := by
    intro s' heq
    have hbuf : s'.recvWindow.buf = s.recvWindow.buf := congrArg Prod.fst heq
    rwa [hbuf]
  cases hdec : BtpHdr.decode data with
  | error e =>
    have hrun : (processRx gattMtu address data).run s = (s, .error (.error e)) := by
      rw [processRx, hdec]
      exact run_bind_of_error (run_ofExcept _ _)
    rw [hrun]
    exact hwf
  | ok r =>
    obtain ⟨hdr, payload⟩ := r
    have hrun : (processRx gattMtu address data).run s =
        (if hdr.isHandshake then
          if s.initiator then processRxHandshakeResp address hdr payload
          else processRxHandshakeReq gattMtu address hdr payload
        else processRxData hdr payload).run s := by
      rw [processRx, hdec]
      exact run_bind_of_ok (run_ofExcept _ _)
    rw [hrun] at hne ⊢
    cases hhs : hdr.isHandshake with
    | true =>
      simp only [if_true]
      cases s.initiator with
      | true => exact hframe _ (keeps_frame_handshakeResp address hdr payload s)
      | false => exact hframe _ (keeps_frame_handshakeReq gattMtu address hdr payload s)
    | false =>
      simp only [hhs, Bool.false_eq_true, if_false] at hne ⊢
      obtain ⟨hwin, herr⟩ := processRxData_recvWindow hdr payload s
      rw [hwin]
      exact RecvWindow.wellFormed_acceptIncoming hwf fun he => hne (herr _ he)

theorem wellFormed_fetchMessage (hwf : s.recvWindow.buf.WellFormed) (cap : ℕ) :
    ((fetchMessage cap).run s).1.recvWindow.buf.WellFormed := by
  have hafter := RecvWindow.after_fetchMessage hwf cap
  rw [After] at hafter
  rcases hr : (RecvWindow.fetchMessage cap).run s.recvWindow with ⟨w, r⟩
  rw [hr] at hafter
  obtain ⟨⟨buf, ct, rfl, hbuf, -⟩, -⟩ := hafter
  rw [fetchMessage, run_onRecvWindow hr]
  exact hbuf

/-- **A call** leaves the ring of the buffer in order. -/
theorem wellFormed_of_step (hstep : calls.step d c = some d')
    (h : d.crashed = false → d.session.recvWindow.buf.WellFormed) :
    d'.crashed = false → d'.session.recvWindow.buf.WellFormed := by
  have hstep : (if d.crashed then none else some _) = some d' := hstep
  cases hd : d.crashed with
  | true =>
    rw [hd] at hstep
    cases hstep
  | false =>
    rw [hd] at hstep
    obtain rfl := Option.some_inj.mp hstep
    intro hcrash
    replace hcrash := of_decide_eq_false hcrash
    replace h := h hd
    have hframe : ∀ s' : Session, s'.frame = d.session.frame → s'.recvWindow.buf.WellFormed := by
      intro s' heq
      have hbuf : s'.recvWindow.buf = d.session.recvWindow.buf := congrArg Prod.fst heq
      rwa [hbuf]
    dsimp only
    cases c with
    | reset => exact h.clear
    | setRelaxedMtuNego relaxedMtuNego => exact h
    | setInitiator initiator => exact h
    | processRx gattMtu address data => exact wellFormed_processRx h hcrash
    | prepTxHandshake gattMtu cap =>
      rw [call, fst_run_ignore]
      exact hframe _ (keeps_frame_prepTxHandshake _ cap d.session)
    | prepTxData data offset cap =>
      rw [call, fst_run_ignore]
      exact hframe _ (keeps_frame_prepTxData data offset cap d.session)
    | fetchMessage cap =>
      rw [call, fst_run_ignore]
      exact wellFormed_fetchMessage h cap

theorem fetchMessage_of_startsWhole (hwf : s.recvWindow.buf.WellFormed)
    (havail : s.messageAvailable = true) (h : s.recvWindow.StartsWhole) (cap : ℕ) :
    ∃ s' msg, (fetchMessage cap).run s = (s', .ok msg) ∧ s'.recvWindow.buf.WellFormed := by
  obtain ⟨msg, rest, hcont, hshort⟩ := h
  have hct : s.recvWindow.bufMessagesCt ≠ 0 := Nat.pos_iff_ne_zero.mp (of_decide_eq_true havail)
  obtain ⟨buf, hrun, hbuf, -⟩ := RecvWindow.run_fetchMessage_record hwf hcont hshort hct cap
  exact ⟨_, _, run_onRecvWindow hrun, hbuf⟩

end Session

end Btp

end RsMatter
