import RsMatter.BtpFraming
import RsMatter.ReplyChains
import RsMatter.Tcp

/-!
# The loop that receives (`TransportRunner::process_rx`)

What comes in over UDP, TCP and BTP goes through one loop: it waits until something is there and the
RX buffer is free, takes it, and handles it. Whatever handling it comes to, the loop goes on. But an
error of taking it ends the loop, and the transport with it; and handling it looks up a session
without another look at whether there is one.

So there are two parts here: handling never panics (`exists_handleRxPacket`), and the loop as a
machine (`RxLoop`), in which the three transports, the peers and the rest of the node take their
steps in any order.
-/

namespace RsMatter

namespace KeyedSession

variable {s : KeyedSession} {peer : Address} {plain : PlainHdr}

/-- Is this a session that a packet is looked up with? -/
def isFoundFor (peer : Address) (plain : PlainHdr) (s : KeyedSession) : Bool :=
  !s.expired && s.isForRx peer plain

theorem isFoundFor_postRecv (rx : PacketHdr) (now : ℕ) :
    (s.postRecv rx now).1.isFoundFor peer plain = s.isFoundFor peer plain := by
  have hframe := Session.postRecv_frame s.toSession rx now
  have hsession : (s.postRecv rx now).1.toSession = (s.toSession.postRecv rx now).1 := rfl
  rw [isFoundFor, isFoundFor, isForRx, isForRx, hsession, hframe]
  rfl

theorem isFoundFor_new {id msgCtr : BitVec 32} {now : ℕ} (hplain : plain.isEncrypted = false) :
    (KeyedSession.new id msgCtr false peer plain.getSrcNodeid now).isFoundFor peer plain = true := by
  have hid : plain.sessId = 0 := by
    rw [PlainHdr.isEncrypted, Bool.or_eq_false_iff] at hplain
    exact bne_eq_false_iff_eq.mp hplain.1
  rw [isFoundFor, isForRx, hplain, hid]
  cases plain.getSrcNodeid <;> simp [KeyedSession.new, Session.new, Session.isEncrypted]

end KeyedSession

namespace KeyedSessions

variable {env : RxEnv} {peer : Address} {buf : List UInt8} {ss ss' : KeyedSessions}
  {plain : PlainHdr} {pb : ParseBuf} {s : KeyedSession}

def Finds (ss : KeyedSessions) (peer : Address) (plain : PlainHdr) : Prop :=
  ∃ s ∈ ss.sessions, s.isFoundFor peer plain = true

theorem finds_of_decodeForSession {rx : PacketHdr} {result : Except ErrorCode Bool}
    (h : ss.decodeForSession env peer rx pb = some (ss', result)) : ss'.Finds peer rx.plain := by
  rw [decodeForSession] at h
  obtain ⟨⟨l, r⟩, hfirst, heq⟩ := Option.map_eq_some_iff.mp h
  cases heq
  obtain ⟨a, s, c, -, hfor, rfl, -⟩ := withFirst_eq_some hfirst
  refine ⟨_, List.mem_append_right _ List.mem_cons_self, ?_⟩
  dsimp only
  split
  · exact hfor
  · rw [KeyedSession.isFoundFor_postRecv]
    exact hfor

theorem finds_of_postRecvLast {kept : List KeyedSession} (h : ss.sessions = kept ++ [s])
    (hs : s.isFoundFor peer plain = true) (rx : PacketHdr) (now : ℕ) :
    (ss.postRecvLast rx now).1.Finds peer plain := by
  refine ⟨(s.postRecv rx now).1, ?_, ?_⟩
  · rw [sessions_postRecvLast h]
    exact List.mem_append_right _ (List.mem_singleton_self _)
  · rw [KeyedSession.isFoundFor_postRecv, hs]

/-- The errors after which the session of a packet is looked up. -/
def LooksUp (plain : PlainHdr) (code : ErrorCode) : Prop :=
  code = .duplicate ∧ plain.isGroupSession = false ∨ code = .noSpaceExchanges


theorem finds_of_group {rx rx' : PacketHdr} (hrx : rx.plain.isEncrypted = true)
    (h : ss.getOrCreateForGroupRx env peer rx pb = (ss', .ok rx')) (now : ℕ) :
    (ss'.postRecvLast rx' now).1.Finds peer rx.plain := by
  rw [getOrCreateForGroupRx] at h
  split at h
  · next srcNodeid groupId hsrc hgroup =>
    split at h
    · cases h
    · split at h
      · cases h
      · next fabIdx rx₁ hkey =>
        dsimp only at h
        split at h
        · cases h
        · split at h
          · cases h
          · next rand hrand =>
            obtain ⟨ss₁, result, hadd, ⟨rfl, -, kept, msgCtr, -, hsessions⟩ | ⟨⟨code, rfl⟩, -⟩⟩ :=
              addEvicting_cases rand peer srcNodeid env.now
                { ss with
                  groupCtrStore :=
                    (ss.groupCtrStore.postRecv fabIdx srcNodeid rx₁.plain.ctr).2 }
            · rw [hadd] at h
              obtain ⟨rfl, -⟩ := Prod.mk.inj h
              refine finds_of_postRecvLast (sessions_modifyLast hsessions _) ?_ rx' now
              rw [KeyedSession.isFoundFor, KeyedSession.isForRx, hsrc, hrx, plain_findGroupKey hkey]
              simp [KeyedSession.new, Session.new, Session.isEncrypted]
            · rw [hadd] at h
              cases h
  · cases h

/-- The errors of the random number generator are none of those that are answered on a session. -/
def RandOk (env : RxEnv) : Prop :=
  ∀ code, env.rand = .error code → code ≠ .duplicate ∧ code ≠ .noSpaceExchanges

theorem add_error {msgCtr : BitVec 32} {reserved : Bool} {peerNodeid : Option (BitVec 64)} {now : ℕ}
    {code : ErrorCode} (h : (ss.add msgCtr reserved peer peerNodeid now).2 = .error code) :
    code = .noSpaceSessions := by
  rw [add] at h
  dsimp only at h
  split at h
  · cases h
  · exact (Except.error.inj h).symm

theorem addEvicting_error {rand : BitVec 32 × BitVec 32} {srcNodeid : BitVec 64} {now : ℕ}
    {code : ErrorCode} (h : (ss.addEvicting rand peer srcNodeid now).2 = .error code) :
    code = .noSpaceSessions := by
  rw [addEvicting] at h
  split at h
  · cases h
  · split at h
    · exact (Except.error.inj h).symm
    · exact add_error h

theorem not_looksUp {code : ErrorCode} (hdup : code ≠ .duplicate) (hspace : code ≠ .noSpaceExchanges) :
    ¬ LooksUp plain code := by
  rintro (⟨h, -⟩ | h)
  · exact hdup h
  · exact hspace h

theorem not_looksUp_of_isParse {code : ErrorCode} (h : code.IsParse) : ¬ LooksUp plain code := by
  apply not_looksUp
  · rintro rfl
    exact absurd h (by decide)
  · rintro rfl
    exact absurd h (by decide)

theorem not_looksUp_of_group {rx : PacketHdr} {code : ErrorCode} (henv : RandOk env)
    (hgroup : rx.plain.isGroupSession = true)
    (h : (ss.getOrCreateForGroupRx env peer rx pb).2 = .error code) : ¬ LooksUp rx.plain code := by
  rw [getOrCreateForGroupRx] at h
  split at h
  · split at h
    · cases h
      exact not_looksUp (by rintro ⟨⟩) (by rintro ⟨⟩)
    · split at h
      · cases h
        exact not_looksUp (by rintro ⟨⟩) (by rintro ⟨⟩)
      · dsimp only at h
        split at h
        · -- a duplicate, which is not looked up for a group
          cases h
          rintro (⟨-, hnot⟩ | hspace)
          · rw [hgroup] at hnot
            cases hnot
          · cases hspace
        · split at h
          · next hrand =>
            cases h
            exact not_looksUp (henv _ hrand).1 (henv _ hrand).2
          · next rand hrand =>
            split at h
            · next hadd =>
              cases h
              rw [addEvicting_error (congrArg Prod.snd hadd)]
              exact not_looksUp (by rintro ⟨⟩) (by rintro ⟨⟩)
            · cases h
  · cases h
    exact not_looksUp (by rintro ⟨⟩) (by rintro ⟨⟩)

/-- **There is a session** wherever it is looked up after receiving a packet. -/
theorem finds_of_decodePacket {code : ErrorCode} (henv : RandOk env)
    (hdecode : PlainHdr.new.decode ⟨[], buf⟩ = .ok (plain, pb))
    (h : (ss.decodePacket env peer buf).2 = .error code) (hlooks : LooksUp plain code) :
    (ss.decodePacket env peer buf).1.Finds peer plain := by
  rw [decodePacket, hdecode] at h ⊢
  dsimp only at h ⊢
  cases hsession : ss.decodeForSession env peer { PacketHdr.reset with plain } pb with
  | some result =>
    obtain ⟨ss₁, outcome⟩ := result
    have hfinds := finds_of_decodeForSession hsession
    exact hfinds
  | none =>
    rw [hsession] at h
    dsimp only at h ⊢
    split at h
    · next hplain =>
      rw [if_pos hplain]
      rw [Bool.not_eq_true'] at hplain
      split at h
      · next hproto =>
        cases h
        exact absurd hlooks (not_looksUp_of_isParse (ProtoHdr.fails_decode _ _ _ _ _ _ hproto))
      · next proto pb' hproto =>
        split at h
        · next hnew =>
          rw [if_pos hnew]
          split at h
          · next hrand =>
            cases h
            exact absurd hlooks (not_looksUp (henv _ hrand).1 (henv _ hrand).2)
          · next rand hrand =>
            obtain ⟨ss₁, result, hadd, -, ⟨rfl, -, hsessions⟩ | ⟨⟨code', rfl⟩, -, -⟩⟩ :=
              add_cases rand.1 false peer plain.getSrcNodeid env.now ss
            · rw [hadd]
              exact finds_of_postRecvLast hsessions (KeyedSession.isFoundFor_new hplain) _ _
            · have hcode := add_error (congrArg Prod.snd hadd)
              rw [hadd] at h
              cases h
              rw [hcode] at hlooks
              exact absurd hlooks (not_looksUp (by rintro ⟨⟩) (by rintro ⟨⟩))
        · cases h
          exact absurd hlooks (not_looksUp (by rintro ⟨⟩) (by rintro ⟨⟩))
    · next hplain =>
      rw [if_neg hplain]
      rw [Bool.not_eq_true', Bool.not_eq_false] at hplain
      split at h
      · next hgroup =>
        rw [if_pos hgroup]
        cases hcreate : ss.getOrCreateForGroupRx env peer { PacketHdr.reset with plain } pb with
        | mk ss₁ result =>
          cases result with
          | error code' =>
            rw [hcreate] at h
            cases h
            exact absurd hlooks (not_looksUp_of_group henv hgroup (congrArg Prod.snd hcreate))
          | ok rx =>
            have hfinds := finds_of_group hplain hcreate
            dsimp only at hfinds ⊢
            exact hfinds env.now
      · cases h
        exact absurd hlooks (not_looksUp (by rintro ⟨⟩) (by rintro ⟨⟩))

end KeyedSessions

namespace TransportRunner

variable {env : RxEnv} {peer : Address} {buf : List UInt8} {t t' : TransportRunner}
  {sent : List Outgoing} {r : Except ErrorCode Bool}

theorem exists_writeEvictSessionPacket (ht : t.sessions.Sound) {s : KeyedSession}
    (hs : s ∈ t.sessions.sessions) (proto : ProtoHdr) :
    ∃ t' q, t.writeEvictSessionPacket s.id proto = some (t', q) := by
  obtain ⟨⟨exchId, nextExchId⟩, hnext⟩ := KeyedSessions.exists_nextExchId ht.few
    (fun s hs => (ht.sessions s hs).exchanges) t.nextExchId
  obtain ⟨s', hget⟩ : ∃ s', t.sessions.get s.id = some s' := by
    rw [← Option.isSome_iff_exists, KeyedSessions.get, List.find?_isSome]
    exact ⟨s, hs, beq_self_eq_true _⟩
  obtain ⟨msgCtr, q, hwrite, -⟩ := exists_writePacket s' { proto with exchId }.setInitiator
    SCStatusCodes.closeSession.scMeta (SCStatusCodes.closeSession.asReport [])
  rw [writeEvictSessionPacket, hnext, hget]
  dsimp only
  rw [hwrite]
  exact ⟨_, _, rfl⟩

theorem exists_writeAck {hdr : PacketHdr} (h : t.sessions.Finds peer hdr.plain) (now : ℕ) :
    ∃ t' q, t.writeAck now peer hdr = some (t', q) := by
  obtain ⟨s, hs, hfor⟩ := h
  rw [writeAck]
  dsimp only
  generalize hf : (fun s : KeyedSession => (_ : KeyedSession × Option Outgoing)) = f
  cases hfirst : withFirst (fun s : KeyedSession => !s.expired && s.isForRx peer hdr.plain) f
      t.sessions.sessions with
  | none =>
    have hnone := withFirst_eq_none.mp hfirst s hs
    rw [KeyedSession.isFoundFor] at hfor
    rw [hfor] at hnone
    cases hnone
  | some found =>
    obtain ⟨l, b⟩ := found
    obtain ⟨a, s', c, -, -, -, rfl⟩ := withFirst_eq_some hfirst
    obtain ⟨msgCtr, q, hwrite, -⟩ := exists_writePacket (s'.updateLastUsed now)
      (hdr.proto.toggleInitiator.setAck (some hdr.plain.ctr)) .standaloneAck []
    rw [← hf]
    dsimp only
    rw [hwrite]
    exact ⟨_, _, rfl⟩

theorem sound_handleRxPacket (ht : t.sessions.Sound)
    (h : t.handleRxPacket env peer buf = some (t', sent, r)) : t'.sessions.Sound := by
  have hsound := ht.decodePacket env peer buf
  cases handled_of_handleRxPacket h with
  | silent _ hsub => exact hsound.of_subperm hsub
  | acked q _ _ _ hwrite =>
    obtain ⟨a, s, c, msgCtr, hold, -, -, hnew⟩ := writeAck_cases hwrite
    exact hsound.of_middle hold hnew fun hs => ⟨hs.peerSessId, hs.exchanges⟩
  | busy q more hdr _ _ _ _ hevict => exact (total_evict env.aead hsound hevict).1
  | closed q s proto _ _ _ hwrite => exact (total_close env.aead hsound hwrite).1

theorem finds_of_looksUp {ss : KeyedSessions} {code : ErrorCode}
    (henv : KeyedSessions.RandOk env) (h : (ss.decodePacket env peer buf).2 = .error code)
    (hlooks : KeyedSessions.LooksUp (ss.rxPacket env peer buf).1.plain code) :
    (ss.decodePacket env peer buf).1.Finds peer (ss.rxPacket env peer buf).1.plain := by
  cases hdecode : PlainHdr.new.decode ⟨[], buf⟩ with
  | error code' =>
    rw [KeyedSessions.decodePacket, hdecode] at h
    cases h
    have hparse := PlainHdr.fails_decode _ _ _ hdecode
    exact absurd hlooks (KeyedSessions.not_looksUp_of_isParse hparse)
  | ok decoded =>
    obtain ⟨plain, pb⟩ := decoded
    rw [plain_rxPacket hdecode] at hlooks ⊢
    exact KeyedSessions.finds_of_decodePacket henv hdecode h hlooks

/-- **No packet makes handling it panic**, whatever its bytes and whatever the sessions. -/
theorem exists_handleRxPacket (henv : KeyedSessions.RandOk env) (ht : t.sessions.Sound)
    (peer : Address) (buf : List UInt8) :
    ∃ t' sent r, t.handleRxPacket env peer buf = some (t', sent, r) := by
  have hsound := ht.decodePacket env peer buf
  rw [handleRxPacket]
  dsimp only
  split
  · next hres =>
    split_ifs with hc
    · simp only [Bool.and_eq_true, Bool.not_eq_true'] at hc
      have hfinds := finds_of_looksUp henv hres (.inl ⟨rfl, hc.1.1⟩)
      obtain ⟨t₁, q, hack⟩ := exists_writeAck
        (t := { t with sessions := (t.sessions.decodePacket env peer buf).1 }) hfinds env.now
      rw [hack]
      exact ⟨_, _, _, rfl⟩
    · exact ⟨_, _, _, rfl⟩
  · split_ifs
    · split
      · exact ⟨_, _, _, rfl⟩
      · next q _ =>
        obtain ⟨t₁, more, hevict⟩ := exists_writeEvictSomeSessionPacket
          (t := { t with sessions := (t.sessions.decodePacket env peer buf).1 }) hsound env.now
          q.packet.hdr.proto
        rw [hevict]
        exact ⟨_, _, _, rfl⟩
    · exact ⟨_, _, _, rfl⟩
  · next hres =>
    obtain ⟨s, hs, hfor⟩ := finds_of_looksUp henv hres (.inr rfl)
    cases hget : (t.sessions.decodePacket env peer buf).1.getForRx peer
        (t.sessions.rxPacket env peer buf).1.plain with
    | none => exact absurd hfor (List.find?_eq_none.mp hget s hs)
    | some s' =>
      obtain ⟨t₁, q, hclose⟩ := exists_writeEvictSessionPacket
        (t := { t with sessions := (t.sessions.decodePacket env peer buf).1 }) hsound
        (KeyedSessions.mem_of_getForRx hget).1 (t.sessions.rxPacket env peer buf).1.proto
      rw [Option.bind_some, hclose]
      exact ⟨_, _, _, rfl⟩
  · split <;> exact ⟨_, _, _, rfl⟩
  · exact ⟨_, _, _, rfl⟩
  · split_ifs
    · exact ⟨_, _, _, rfl⟩
    · split <;> exact ⟨_, _, _, rfl⟩
    · exact ⟨_, _, _, rfl⟩

end TransportRunner

/-! ## The loop -/

inductive LoopPhase where
  /-- it waits for something to come in, and for the RX buffer to be free -/
  | waiting
  /-- it waits until a reply has been sent -/
  | sending
  /-- it has ended with an error, and the transport with it -/
  | ended (code : ErrorCode)
  | panicked
  deriving DecidableEq

/-- The loop with the transports that it takes messages from. -/
structure RxLoop where
  tcp : Tcp.Receiver
  btp : Btp.Session.Driven
  runner : TransportRunner
  /-- the message in the RX buffer that is left for an exchange -/
  rx : Option (Address × List UInt8)
  phase : LoopPhase
  /-- the messages that have been handled so far -/
  handled : List (Address × List UInt8)
  deriving DecidableEq

namespace RxLoop

def start (nextExchId : BitVec 16) : RxLoop :=
  ⟨.new, Btp.Session.start, ⟨.new, nextExchId⟩, none, .waiting, []⟩

inductive Action where
  | udp (env : RxEnv) (addr : SocketAddr) (datagram : List UInt8)
  | tcp (env : RxEnv)
  | btp (env : RxEnv)
  | sent
  /-- the RX buffer is freed: an exchange has taken the message, or it is dropped -/
  | cleared
  /-- something happens to the connections -/
  | connections (a : Tcp.Receiver.Action)
  /-- something happens to the BTP session -/
  | bluetooth (c : Btp.Session.Call)
  /-- something happens to the sessions of the node -/
  | sessions (a : KeyedSessions.Action) (nextExchId : BitVec 16)

/-- A message is handled. Errors of that do not matter; a reply is sent before the loop goes on. -/
def handle (env : RxEnv) (peer : Address) (buf : List UInt8) (s : RxLoop) : RxLoop :=
  match s.runner.handleRxPacket env peer buf with
  | none => { s with phase := .panicked }
  | some (runner, sent, result) =>
    { s with
      runner
      rx := match result with
        | .ok true => some (peer, buf)
        | _ => none
      phase := if sent = [] then .waiting else .sending
      handled := s.handled ++ [(peer, buf)] }

def isReady (s : RxLoop) : Bool := s.phase == .waiting && s.rx.isNone

/-- What `recv_from` of TCP has come to. -/
def received (env : RxEnv) (tcp : Tcp.Receiver) (s : RxLoop) : RxLoop :=
  match tcp.results[s.tcp.results.length]? with
  | none => { s with tcp }
  | some (_, .error code) => { s with tcp, phase := .ended code }
  | some (_, .ok (data, addr)) => { s with tcp }.handle env (.tcp addr) data

/-- A step, with `N` connections and an RX buffer of `cap` bytes. -/
def step (N cap : ℕ) (s : RxLoop) : Action → Option RxLoop
  | .udp env addr datagram =>
    if s.isReady then some (s.handle env (.udp addr) (datagram.take cap)) else none
  | .tcp env =>
    if s.isReady then ((Tcp.Receiver.machine N cap).step s.tcp .take).map fun tcp => s.received env tcp
    else none
  | .btp env =>
    if s.isReady && !s.btp.crashed && s.btp.session.messageAvailable then
      match (Btp.Session.fetchMessage cap).run s.btp.session with
      | (session, .ok data) =>
        some ({ s with btp.session := session }.handle env (.btp session.address) data)
      | (session, .error (.error code)) =>
        some { s with btp.session := session, phase := .ended code }
      | (session, .error .panic) => some { s with btp.session := session, phase := .panicked }
    else none
  | .sent => if s.phase = .sending then some { s with phase := .waiting } else none
  | .cleared => some { s with rx := none }
  -- only the loop takes messages
  | .connections .take => none
  | .connections a => ((Tcp.Receiver.machine N cap).step s.tcp a).map fun tcp => { s with tcp }
  | .bluetooth (.fetchMessage _) => none
  | .bluetooth c => (Btp.Session.calls.step s.btp c).map fun btp => { s with btp }
  | .sessions a nextExchId =>
    (s.runner.sessions.step a).map fun sessions => { s with runner := ⟨sessions, nextExchId⟩ }

def machine (N cap : ℕ) : Machine RxLoop Action := ⟨step N cap⟩

/-! ## The loop goes on -/

def Running (s : RxLoop) : Prop := s.phase = .waiting ∨ s.phase = .sending

/-- The message that TCP would hand over fits into the RX buffer. -/
def NextFits (cap : ℕ) (r : Tcp.Receiver) : Prop :=
  ∀ idx ∈ r.inner.findReadyConnection, ∀ c ∈ r.inner.connections[idx]?,
    ∀ len ∈ c.hasCompleteMessage, len ≤ cap

/-- Is what is taken a message that fits, over TCP, or a whole one, over BTP? -/
def Fits (cap : ℕ) (s : RxLoop) : Action → Prop
  | .udp env _ _ => KeyedSessions.RandOk env
  | .tcp env => KeyedSessions.RandOk env ∧ NextFits cap s.tcp
  | .btp env => KeyedSessions.RandOk env ∧ s.btp.session.recvWindow.StartsWhole
  | _ => True

structure Inv (s : RxLoop) : Prop where
  running : s.Running
  sound : s.runner.sessions.Sound
  ring : s.btp.crashed = false → s.btp.session.recvWindow.buf.WellFormed

variable {N cap : ℕ} {s s' : RxLoop} {env : RxEnv}

theorem inv_start (nextExchId : BitVec 16) : (start nextExchId).Inv where
  running := .inl rfl
  sound := .of_nil rfl
  ring _ := RingBuf.wellFormed_new (by decide)

/-- **Handling a message** leaves the loop there. -/
theorem Inv.handle (hinv : s.Inv) (henv : KeyedSessions.RandOk env) (peer : Address)
    (buf : List UInt8) :
    (s.handle env peer buf).Inv ∧ (s.handle env peer buf).handled = s.handled ++ [(peer, buf)] := by
  obtain ⟨runner, sent, result, hhandle⟩ :=
    TransportRunner.exists_handleRxPacket henv hinv.sound peer buf
  have hsound := TransportRunner.sound_handleRxPacket hinv.sound hhandle
  rw [RxLoop.handle, hhandle]
  refine ⟨⟨?_, hsound, hinv.ring⟩, rfl⟩
  rw [Running]
  dsimp only
  split
  · exact .inl rfl
  · exact .inr rfl

theorem takeMessage_of_nextFits {r : Tcp.Receiver} (h : NextFits cap r) :
    (r.takeMessage cap).results = r.results ∨
      ∃ id data addr, (r.takeMessage cap).results = r.results ++ [(id, .ok (data, addr))] := by
  rw [Tcp.Receiver.takeMessage]
  split
  · exact .inl rfl
  · next idx hready =>
    split
    · exact .inl rfl
    · next c hc =>
      split
      · exact .inl rfl
      · next len hlen =>
        dsimp only
        rw [if_neg (Nat.not_lt.mpr (h idx hready c hc len hlen))]
        exact .inr ⟨_, _, _, rfl⟩

theorem Inv.setTcp (hinv : s.Inv) (tcp : Tcp.Receiver) : { s with tcp : RxLoop }.Inv :=
  ⟨hinv.running, hinv.sound, hinv.ring⟩

theorem Inv.received (hinv : s.Inv) (henv : KeyedSessions.RandOk env) (h : NextFits cap s.tcp) :
    (s.received env (s.tcp.takeMessage cap)).Inv := by
  rw [RxLoop.received]
  rcases takeMessage_of_nextFits h with hsame | ⟨id, data, addr, hnew⟩
  · rw [hsame, List.getElem?_eq_none (Nat.le_refl _)]
    exact hinv.setTcp _
  · rw [hnew, List.getElem?_concat_length]
    exact ((hinv.setTcp _).handle henv _ _).1

theorem step_btp (hinv : s.Inv) (henv : KeyedSessions.RandOk env) (hready : s.isReady = true)
    (hcrashed : s.btp.crashed = false) (havail : s.btp.session.messageAvailable = true)
    (h : s.btp.session.recvWindow.StartsWhole) :
    ∃ s' peer msg, (machine N cap).step s (.btp env) = some s' ∧ s'.Inv ∧
      s'.handled = s.handled ++ [(Address.btp peer, msg)] := by
  obtain ⟨session, msg, hrun, hring⟩ :=
    Btp.Session.fetchMessage_of_startsWhole (hinv.ring hcrashed) havail h cap
  have hinv' : { s with btp.session := session : RxLoop }.Inv :=
    ⟨hinv.running, hinv.sound, fun _ => hring⟩
  obtain ⟨hnext, hhandled⟩ := hinv'.handle henv (.btp session.address) msg
  refine ⟨_, session.address, msg, ?_, hnext, hhandled⟩
  show RxLoop.step N cap s (.btp env) = _
  rw [RxLoop.step, if_pos (by rw [hready, hcrashed, havail]; rfl), hrun]

theorem step_udp (hinv : s.Inv) (henv : KeyedSessions.RandOk env) (hready : s.isReady = true)
    (addr : SocketAddr) (datagram : List UInt8) :
    ∃ s', (machine N cap).step s (.udp env addr datagram) = some s' ∧ s'.Inv ∧
      s'.handled = s.handled ++ [(Address.udp addr, datagram.take cap)] := by
  obtain ⟨hnext, hhandled⟩ := hinv.handle henv (.udp addr) (datagram.take cap)
  exact ⟨_, if_pos hready, hnext, hhandled⟩

theorem step_tcp (hinv : s.Inv) (henv : KeyedSessions.RandOk env) (hready : s.isReady = true)
    {idx len : ℕ} {c : Tcp.TcpConnection} (hphase : s.tcp.phase = .taking)
    (hidx : s.tcp.inner.findReadyConnection = some idx)
    (hc : s.tcp.inner.connections[idx]? = some c) (hlen : c.hasCompleteMessage = some len)
    (hfits : len ≤ cap) :
    ∃ s', (machine N cap).step s (.tcp env) = some s' ∧ s'.Inv ∧
      s'.handled = s.handled ++ [(Address.tcp c.remote, (c.extractMessage len).1)] := by
  have hresults : (s.tcp.takeMessage cap).results =
      s.tcp.results ++ [(c.connId, .ok ((c.extractMessage len).1, c.remote))] := by
    rw [Tcp.Receiver.takeMessage, hidx]
    dsimp only
    rw [hc]
    dsimp only
    rw [hlen]
    dsimp only
    rw [if_neg (Nat.not_lt.mpr hfits)]
  obtain ⟨hnext, hhandled⟩ := (hinv.setTcp (s.tcp.takeMessage cap)).handle henv (.tcp c.remote)
    (c.extractMessage len).1
  refine ⟨_, ?_, hnext, hhandled⟩
  show RxLoop.step N cap s (.tcp env) = _
  have htake : (Tcp.Receiver.machine N cap).step s.tcp .take = some (s.tcp.takeMessage cap) :=
    if_pos hphase
  rw [RxLoop.step, if_pos hready, htake, Option.map_some, RxLoop.received, hresults,
    List.getElem?_concat_length]

/-- **One step** keeps the loop there. -/
theorem Inv.step {a : Action} (hinv : s.Inv) (hfits : Fits cap s a)
    (h : (machine N cap).step s a = some s') : s'.Inv := by
  change RxLoop.step N cap s a = some s' at h
  unfold RxLoop.step at h
  split at h
  · split at h <;> cases h
    exact (hinv.handle hfits _ _).1
  · split at h
    · obtain ⟨tcp, htake, rfl⟩ := Option.map_eq_some_iff.mp h
      have htake : (if s.tcp.phase = .taking then some (s.tcp.takeMessage cap) else none) = some tcp :=
        htake
      split at htake <;> cases htake
      exact hinv.received hfits.1 hfits.2
    · cases h
  · next env =>
    split at h
    · next hcan =>
      simp only [Bool.and_eq_true, Bool.not_eq_true'] at hcan
      obtain ⟨session, msg, hrun, hring⟩ :=
        Btp.Session.fetchMessage_of_startsWhole (hinv.ring hcan.1.2) hcan.2 hfits.2 cap
      have hinv' : { s with btp.session := session : RxLoop }.Inv :=
        ⟨hinv.running, hinv.sound, fun _ => hring⟩
      rw [hrun] at h
      cases h
      exact (hinv'.handle hfits.1 _ _).1
    · cases h
  · split at h <;> cases h
    exact ⟨.inl rfl, hinv.sound, hinv.ring⟩
  · cases h
    exact ⟨hinv.running, hinv.sound, hinv.ring⟩
  · cases h
  · obtain ⟨tcp, -, rfl⟩ := Option.map_eq_some_iff.mp h
    exact hinv.setTcp tcp
  · cases h
  · obtain ⟨btp, hcall, rfl⟩ := Option.map_eq_some_iff.mp h
    exact ⟨hinv.running, hinv.sound, Btp.Session.wellFormed_of_step hcall hinv.ring⟩
  · obtain ⟨sessions, hsessions, rfl⟩ := Option.map_eq_some_iff.mp h
    exact ⟨hinv.running, hinv.sound.step hsessions, hinv.ring⟩

/-! ## Runs -/

/-- The loop is there; it becomes ready by what does not depend on peers; and then it handles what
comes next, from whatever peer. -/
structure GoesOn (N cap : ℕ) (s : RxLoop) : Prop where
  running : s.Running
  /-- replies are sent and the RX buffer is freed, and then it takes the next message -/
  ready : ∃ (as : List Action) (s₁ : RxLoop), (as = [.cleared] ∨ as = [.sent, .cleared]) ∧
    (machine N cap).run s as = some s₁ ∧ s₁.isReady = true ∧ s₁.handled = s.handled
  udp : s.isReady = true → ∀ env addr datagram, KeyedSessions.RandOk env →
    ∃ s', (machine N cap).step s (.udp env addr datagram) = some s' ∧ s'.Running ∧
      s'.handled = s.handled ++ [(Address.udp addr, datagram.take cap)]
  tcp : s.isReady = true → s.tcp.phase = .taking → ∀ env idx c len, KeyedSessions.RandOk env →
    s.tcp.inner.findReadyConnection = some idx → s.tcp.inner.connections[idx]? = some c →
    c.hasCompleteMessage = some len → len ≤ cap →
    ∃ s', (machine N cap).step s (.tcp env) = some s' ∧ s'.Running ∧
      s'.handled = s.handled ++ [(Address.tcp c.remote, (c.extractMessage len).1)]
  btp : s.isReady = true → s.btp.crashed = false → s.btp.session.messageAvailable = true →
    ∀ env, KeyedSessions.RandOk env → s.btp.session.recvWindow.StartsWhole →
    ∃ s' peer msg, (machine N cap).step s (.btp env) = some s' ∧ s'.Running ∧
      s'.handled = s.handled ++ [(Address.btp peer, msg)]

theorem Inv.goesOn (hinv : s.Inv) (N cap : ℕ) : s.GoesOn N cap where
  running := hinv.running
  ready := by
    rcases hinv.running with hphase | hphase
    · refine ⟨[.cleared], { s with rx := none }, .inl rfl, rfl, ?_, rfl⟩
      rw [isReady, hphase]
      rfl
    · refine ⟨[.sent, .cleared], { s with phase := .waiting, rx := none }, .inr rfl, ?_, rfl, rfl⟩
      have hsent : (machine N cap).step s .sent = some { s with phase := .waiting } := if_pos hphase
      rw [Machine.run_cons, hsent]
      rfl
  udp hready env addr datagram henv := by
    obtain ⟨s', hstep, hnext, hhandled⟩ := step_udp hinv henv hready addr datagram
    exact ⟨s', hstep, hnext.running, hhandled⟩
  tcp hready hphase env idx c len henv hidx hc hlen hfits := by
    obtain ⟨s', hstep, hnext, hhandled⟩ := step_tcp hinv henv hready hphase hidx hc hlen hfits
    exact ⟨s', hstep, hnext.running, hhandled⟩
  btp hready hcrashed havail env henv h := by
    obtain ⟨s', peer, msg, hstep, hnext, hhandled⟩ := step_btp hinv henv hready hcrashed havail h
    exact ⟨s', peer, msg, hstep, hnext.running, hhandled⟩

namespace Sample

def rxBufSize : ℕ := Btp.maxRxPacketSize

def addr : SocketAddr := ⟨.v4 1, 5540⟩

/-- A peer connects, and its message is read as far as it comes. -/
def overTcp (data : List UInt8) : List Action :=
  [.connections .call, .connections (.check fun _ => .wouldBlock),
    .connections (.listenerReady addr (frame Tcp.frameHdrLen data)),
    .connections (.check fun _ => .data Tcp.readLen)]

/-- A message of one byte more than there is room for. -/
def large : List Action :=
  overTcp (List.replicate (rxBufSize + 1) 0) ++ [Action.tcp TransportRunner.Sample.rxEnv]

/-- A message that is refused leaves its length in the BTP buffer; the next one is complete. -/
def misframed : List Action :=
  [.bluetooth (.processRx (some 247) 1 [0x65, 0x6c, 4, 0, 0, 0, 0xf7, 0, 6]),
    .bluetooth (.prepTxHandshake (some 247) 247),
    .bluetooth (.processRx (some 247) 1 [0x05, 0, 5, 0, 1, 2, 3]),
    .bluetooth (.processRx (some 247) 1 [0x0d, 0, 0, 1, 0, 9]), .btp TransportRunner.Sample.rxEnv]

def fitting : List Action := overTcp [1, 2, 3]

end Sample

end RxLoop

end RsMatter
