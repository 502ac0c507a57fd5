import RsMatter.BoundedVec
import RsMatter.Expiry
import RsMatter.PacketDecode

/-!
# The keys of sessions (`transport/session.rs`, `transport.rs`)

A session starts without keys: they are all zero. A handshake reserves a session, loads the
keys it has agreed on into it and makes it available. A group message is decrypted under an
operational key of a group, which is derived for the occasion; the session that is set up for
it then is marked as encrypted, but no key is loaded into it.

Packets find their session by the address of the peer and the session id, whether they are
group messages or not.
-/

namespace RsMatter

/-- The key of a session that no key has been loaded into. -/
def aeadKeyZeroed : List UInt8 := List.replicate aeadCanonKeyLen 0

/-- A session with its keys, and with a mark that is not in the source: has a key been loaded
into it? -/
structure KeyedSession extends Session where
  /-- what the peer's packets are decrypted with -/
  decKey : List UInt8
  /-- what packets to the peer are encrypted with -/
  encKey : List UInt8
  lastUse : ℕ
  loaded : Bool
  deriving DecidableEq

def SessionMode.isGroup : SessionMode → Bool
  | .group .. => true
  | _ => false

namespace KeyedSession

def new (id msgCtr : BitVec 32) (reserved : Bool) (peerAddr : Address)
    (peerNodeid : Option (BitVec 64)) (now : ℕ) : KeyedSession :=
  { Session.new id msgCtr reserved peerAddr peerNodeid with
    decKey := aeadKeyZeroed
    encKey := aeadKeyZeroed
    lastUse := now
    loaded := false }

def getDecKey (s : KeyedSession) : Option (List UInt8) :=
  match s.mode with
  | .case .. => some s.decKey
  | .pase .. => some s.decKey
  | .group .. => some s.decKey
  | .plainText => none

/-- Does a received packet belong to the session? -/
def isForRx (s : KeyedSession) (rxPeer : Address) (rxPlain : PlainHdr) : Bool :=
  let nodeidMatches := s.peerNodeid.isNone || rxPlain.getSrcNodeid.isNone ||
    s.peerNodeid == rxPlain.getSrcNodeid
  let destNodeidMatches := s.isEncrypted || s.localNodeid == 0 ||
    rxPlain.getDstUnicastNodeid.isNone || rxPlain.getDstUnicastNodeid == some s.localNodeid
  nodeidMatches && destNodeidMatches && s.localSessId == rxPlain.sessId &&
    s.peerAddr == rxPeer && s.isEncrypted == rxPlain.isEncrypted && !s.reserved

/-- Decrypt and parse a packet of the session after its plain header. -/
def decodeRemaining (s : KeyedSession) (aead : Aead) (rx : PacketHdr) (pb : ParseBuf) :
    Except ErrorCode PacketHdr := do
  let (proto, _) ← rx.proto.decryptAndDecode aead s.getDecKey (s.peerNodeid.getD 0) rx.plain pb
  return { rx with proto := proto.adjustReliability s.peerAddr }

def updateLastUsed (now : ℕ) (s : KeyedSession) : KeyedSession := { s with lastUse := now }

/-- Update the session for a received packet: `true` if it opened an exchange. -/
def postRecv (s : KeyedSession) (rx : PacketHdr) (now : ℕ) :
    KeyedSession × Except ErrorCode Bool :=
  let (session, result) := s.toSession.postRecv rx now
  ({ s with toSession := session }, result)

/-- Load what a handshake has agreed on (`update_with_state`). -/
def update (params : Device.SecureParams) (mode : SessionMode)
    (decKey encKey : Option (List UInt8)) (s : KeyedSession) : KeyedSession :=
  let s := { s with
    localNodeid := params.localNodeid
    peerNodeid := some params.peerNodeid
    peerSessId := params.peerSessId
    localSessId := params.localSessId
    peerAddr := params.peerAddr
    mode := mode }
  let s := match decKey with
    | some key => { s with decKey := key, loaded := true }
    | none => s
  match encKey with
  | some key => { s with encKey := key }
  | none => s

/-- A PASE session gets the fabric that has been added on it. -/
def upgradeFabricIdx (fabricIdx : ℕ) (s : KeyedSession) : KeyedSession × Except ErrorCode Unit :=
  match s.mode with
  | .pase 0 => ({ s with mode := .pase fabricIdx }, .ok ())
  | _ => (s, .error .invalid)

end KeyedSession

/-- The sessions of the node, with the counters of group messages. -/
structure KeyedSessions where
  /-- the internal id of the next session -/
  nextSessUniqueId : BitVec 32
  sessions : List KeyedSession
  groupCtrStore : GroupCtrStore
  deriving DecidableEq

/-- What receiving a packet depends on besides the packet and the sessions. -/
structure RxEnv where
  crypto : Crypto
  aead : Aead
  /-- the session id of an operational group key -/
  deriveGroupSessionId : List UInt8 → Except ErrorCode (BitVec 16)
  fabrics : Fabrics
  now : ℕ
  /-- two draws of the random number generator -/
  rand : Except ErrorCode (BitVec 32 × BitVec 32)

namespace KeyedSessions

def new : KeyedSessions := ⟨0, [], .new⟩

def reset (ss : KeyedSessions) : KeyedSessions :=
  { ss with sessions := [], groupCtrStore := .new }

/-- Add a session that is not secured yet. Ids have 28 bits and start over. -/
def add (msgCtr : BitVec 32) (reserved : Bool) (peerAddr : Address)
    (peerNodeid : Option (BitVec 64)) (now : ℕ) (ss : KeyedSessions) :
    KeyedSessions × Except ErrorCode Unit :=
  let id := ss.nextSessUniqueId
  let ss := { ss with nextSessUniqueId := if 0x0fffffff#32 < id + 1 then 0 else id + 1 }
  if ss.sessions.length < maxSessions then
    let session := KeyedSession.new id msgCtr reserved peerAddr peerNodeid now
    ({ ss with sessions := ss.sessions ++ [session] }, .ok ())
  else (ss, .error .noSpaceSessions)

def modifyLast (f : KeyedSession → KeyedSession) (ss : KeyedSessions) : KeyedSessions :=
  match ss.sessions.getLast? with
  | some s => { ss with sessions := ss.sessions.dropLast ++ [f s] }
  | none => ss

/-- Change the session with an internal id, which is used by that. -/
def onSession {β : Type} (id : BitVec 32) (now : ℕ) (f : KeyedSession → KeyedSession × β)
    (ss : KeyedSessions) : Option (KeyedSessions × β) :=
  (withFirst (·.id == id) (fun s => f (s.updateLastUsed now)) ss.sessions).map fun r =>
    ({ ss with sessions := r.1 }, r.2)

def remove (id : BitVec 32) (ss : KeyedSessions) : KeyedSessions :=
  match ss.sessions.findIdx? (·.id == id) with
  | some index => { ss with sessions := swapRemove ss.sessions index }
  | none => ss

/-- Drop the sessions with a property, except for one, which is expired instead if it has
another property. -/
def dropExcept (p q : KeyedSession → Bool) (expireSessId : Option (BitVec 32))
    (ss : KeyedSessions) : KeyedSessions :=
  let sessions :=
    swapRemoveWhere (fun s => p s && decide (some s.id ≠ expireSessId)) ss.sessions
  match expireSessId with
  | some id =>
    let expire (s : KeyedSession) : KeyedSession := { s with expired := true }
    { ss with sessions := (modifyFirst (fun s => s.id == id && q s) expire sessions).getD sessions }
  | none => { ss with sessions }

def removeForFabric (fabricIdx : ℕ) (expireSessId : Option (BitVec 32)) (ss : KeyedSessions) :
    KeyedSessions :=
  ss.dropExcept (fun s => s.mode.fabIdx == fabricIdx) (fun _ => true) expireSessId

/-- Remove the PASE sessions, those that have got a fabric too. -/
def removePase (expireSessId : Option (BitVec 32)) (ss : KeyedSessions) : KeyedSessions :=
  ss.dropExcept (fun s => s.mode.isPase) (fun s => s.mode.isPase) expireSessId

/-- The loop of `getSessionForEviction`. -/
def evictionLoop : List KeyedSession → ℕ → Option (BitVec 32) → Option (BitVec 32)
  | [], _, lru => lru
  | s :: rest, lruTs, lru =>
    if (s.expired || s.lastUse < lruTs) && !s.reserved && s.exchanges.all Option.isNone then
      if s.expired then some s.id else evictionLoop rest s.lastUse (some s.id)
    else evictionLoop rest lruTs lru

/-- The session that is evicted if there is no room: an expired one, or the one that was used
the longest ago. -/
def getSessionForEviction (now : ℕ) (ss : KeyedSessions) : Option (BitVec 32) :=
  evictionLoop ss.sessions now none

/-! ## Receiving -/

/-- The operational keys of a group on a fabric that lead to a session id. -/
def groupKeys (env : RxEnv) (fabric : Fabric) (groupId sessId : BitVec 16) : List (List UInt8) :=
  (fabric.groups.keyMap.filter (·.groupId == groupId)).flatMap fun entry =>
    match fabric.groups.keySets.find? (·.groupKeySetId == entry.groupKeySetId) with
    | none => []
    | some keySet => keySet.epochKeys.filterMap fun epochKey =>
      match KeySet.update env.crypto epochKey.epochKey fabric.compressedFabricId with
      | .error _ => none
      | .ok keys =>
        match env.deriveGroupSessionId keys.opKey with
        | .ok id => if id = sessId then some keys.opKey else none
        | .error _ => none

/-- The fabric with the first group key that decrypts a packet, and the packet. -/
def findGroupKey (env : RxEnv) (groupId : BitVec 16) (srcNodeid : BitVec 64) (peer : Address)
    (rx : PacketHdr) (pb : ParseBuf) : Option (ℕ × PacketHdr) :=
  env.fabrics.findSome? fun fabric =>
    (groupKeys env fabric groupId rx.plain.sessId).findSome? fun opKey =>
      match rx.proto.decryptAndDecode env.aead (some opKey) srcNodeid rx.plain pb with
      | .ok (proto, _) => some (fabric.fabIdx, { rx with proto := proto.adjustReliability peer })
      | .error _ => none

/-- Add a session; if there is no room, evict one. -/
def addEvicting (rand : BitVec 32 × BitVec 32) (peer : Address) (srcNodeid : BitVec 64) (now : ℕ)
    (ss : KeyedSessions) : KeyedSessions × Except ErrorCode Unit :=
  match ss.add rand.1 false peer (some srcNodeid) now with
  | (ss, .ok ()) => (ss, .ok ())
  | (ss, .error _) =>
    match ss.getSessionForEviction now with
    | none => (ss, .error .noSpaceSessions)
    | some lruId => (ss.remove lruId).add rand.2 false peer (some srcNodeid) now

/-- How many encrypted bytes of a group message can be kept for another try. -/
def savedEncryptedLen : ℕ := 1280

/-- Try the group keys on a group message, and set up a session for it. -/
def getOrCreateForGroupRx (env : RxEnv) (peer : Address) (rx : PacketHdr) (pb : ParseBuf)
    (ss : KeyedSessions) : KeyedSessions × Except ErrorCode PacketHdr :=
  match rx.plain.getSrcNodeid, rx.plain.getDstGroupcastNodeid with
  | some srcNodeid, some groupId =>
    if savedEncryptedLen < pb.left.length then (ss, .error .bufferTooSmall)
    else
      match findGroupKey env groupId srcNodeid peer rx pb with
      | none => (ss, .error .noSession)
      | some (fabIdx, rx) =>
        let (isNew, groupCtrStore) := ss.groupCtrStore.postRecv fabIdx srcNodeid rx.plain.ctr
        let ss := { ss with groupCtrStore }
        if isNew = false then (ss, .error .duplicate)
        else
          match env.rand with
          | .error code => (ss, .error code)
          | .ok rand =>
            match ss.addEvicting rand peer srcNodeid env.now with
            | (ss, .error code) => (ss, .error code)
            | (ss, .ok ()) =>
              let ss := ss.modifyLast fun s =>
                { s with
                  mode := .group fabIdx groupId
                  localSessId := rx.plain.sessId
                  lastUse := env.now }
              (ss, .ok rx)
  | _, _ => (ss, .error .invalidData)

def postRecvLast (rx : PacketHdr) (now : ℕ) (ss : KeyedSessions) :
    KeyedSessions × Except ErrorCode Bool :=
  match ss.sessions.getLast? with
  | some s =>
    let (s, result) := s.postRecv rx now
    ({ ss with sessions := ss.sessions.dropLast ++ [s] }, result)
  | none => (ss, .error .noSession)

end KeyedSessions

def MessageMeta.isNewSession (m : MessageMeta) : Bool :=
  m.protoId == protoIdSecureChannel && (m.protoOpcode == 0x20#8 || m.protoOpcode == 0x30#8)

namespace KeyedSessions

/-- The session of a packet, if there is one, decrypts, parses and takes it. -/
def decodeForSession (env : RxEnv) (peer : Address) (rx : PacketHdr) (pb : ParseBuf)
    (ss : KeyedSessions) : Option (KeyedSessions × Except ErrorCode Bool) :=
  (withFirst (fun s => !s.expired && s.isForRx peer rx.plain)
    (fun s =>
      let s := s.updateLastUsed env.now
      match s.decodeRemaining env.aead rx pb with
      | .error code => (s, .error code)
      | .ok rx => s.postRecv rx env.now) ss.sessions).map fun r =>
    ({ ss with sessions := r.1 }, r.2)

/-- Receive a packet: `true` if it opened an exchange. -/
def decodePacket (env : RxEnv) (peer : Address) (buf : List UInt8) (ss : KeyedSessions) :
    KeyedSessions × Except ErrorCode Bool :=
  match PlainHdr.new.decode ⟨[], buf⟩ with
  | .error code => (ss, .error code)
  | .ok (plain, pb) =>
    let rx : PacketHdr := { PacketHdr.reset with plain }
    match ss.decodeForSession env peer rx pb with
    | some result => result
    | none =>
      if !plain.isEncrypted then
        match rx.proto.decryptAndDecode env.aead none 0 plain pb with
        | .error code => (ss, .error code)
        | .ok (proto, _) =>
          let rx := { rx with proto := proto.adjustReliability peer }
          if (MessageMeta.ofProto rx.proto).isNewSession then
            match env.rand with
            | .error code => (ss, .error code)
            | .ok rand =>
              match ss.add rand.1 false peer plain.getSrcNodeid env.now with
              | (ss, .error code) => (ss, .error code)
              | (ss, .ok ()) => ss.postRecvLast rx env.now
          else (ss, .error .noSession)
      else if plain.isGroupSession then
        match ss.getOrCreateForGroupRx env peer rx pb with
        | (ss, .error code) => (ss, .error code)
        | (ss, .ok rx) => ss.postRecvLast rx env.now
      else (ss, .error .noSession)

/-! ## The table of sessions as a machine -/

inductive Action where
  | decodePacket (env : RxEnv) (peer : Address) (buf : List UInt8)
  /-- we start a handshake on an unsecured session -/
  | createUnsecured (msgCtr : BitVec 32) (peer : Address) (ephemeralId : BitVec 64) (now : ℕ)
  | reserveNow (msgCtr : BitVec 32) (now : ℕ)
  /-- a PASE handshake has agreed on keys -/
  | updatePase (id : BitVec 32) (params : Device.SecureParams) (decKey encKey : List UInt8)
    (now : ℕ)
  /-- a CASE handshake has agreed on keys -/
  | updateCase (id : BitVec 32) (fabIdx : ℕ) (catIds : List (BitVec 32))
    (params : Device.SecureParams) (decKey encKey : List UInt8) (now : ℕ)
  /-- a handshake is done with its session -/
  | complete (id : BitVec 32) (now : ℕ)
  /-- a session is removed: its handshake fails, it is evicted, or the peer closes it -/
  | remove (id : BitVec 32)
  | removeForFabric (fabricIdx : ℕ) (expireSessId : Option (BitVec 32))
  | removePase (expireSessId : Option (BitVec 32))
  | upgradeFabricIdx (id : BitVec 32) (fabricIdx : ℕ) (now : ℕ)
  | addExch (id : BitVec 32) (exchId : BitVec 16) (role : Role) (now : ℕ)
  | removeExch (id : BitVec 32) (index now : ℕ)
  | preSend (id : BitVec 32) (exchIndex : Option ℕ) (tx : PacketHdr)
    (sessionActiveIntervalMs : Option (BitVec 32)) (now : ℕ)
  | reset

/-- Change the part of a session that has nothing to do with its keys. -/
def onPlain (id : BitVec 32) (now : ℕ) (f : Session → Option Session) (ss : KeyedSessions) :
    Option KeyedSessions :=
  (ss.onSession id now fun s =>
    match f s.toSession with
    | some session => ({ s with toSession := session }, true)
    | none => (s, false)).bind fun r => if r.2 then some r.1 else none

/-- The sessions after something has happened. A handshake that is done needs its session. -/
def step (ss : KeyedSessions) : Action → Option KeyedSessions
  | .decodePacket env peer buf => some (ss.decodePacket env peer buf).1
  | .createUnsecured msgCtr peer ephemeralId now =>
    match ss.add msgCtr false peer none now with
    | (ss, .ok ()) => some (ss.modifyLast fun s => { s with localNodeid := ephemeralId })
    | (ss, .error _) => some ss
  | .reserveNow msgCtr now =>
    some (ss.add msgCtr true (.udp ⟨.v4 0, 0⟩) none now).1
  | .updatePase id params decKey encKey now =>
    (ss.onSession id now fun s => (s.update params (.pase 0) (some decKey) (some encKey), ())).map
      Prod.fst
  | .updateCase id fabIdx catIds params decKey encKey now =>
    (ss.onSession id now fun s =>
      (s.update params (.case fabIdx catIds) (some decKey) (some encKey), ())).map Prod.fst
  | .complete id now =>
    (ss.onSession id now fun s => ({ s with reserved := false }, ())).map Prod.fst
  | .remove id => some (ss.remove id)
  | .removeForFabric fabricIdx expireSessId => some (ss.removeForFabric fabricIdx expireSessId)
  | .removePase expireSessId => some (ss.removePase expireSessId)
  | .upgradeFabricIdx id fabricIdx now =>
    (ss.onSession id now (KeyedSession.upgradeFabricIdx fabricIdx)).map Prod.fst
  | .addExch id exchId role now =>
    ss.onPlain id now fun s => (s.addExch exchId role).map Prod.snd
  | .removeExch id index now => ss.onPlain id now fun s => (s.removeExch index).map Prod.snd
  | .preSend id exchIndex tx sessionActiveIntervalMs now =>
    ss.onPlain id now fun s => (s.preSend exchIndex tx sessionActiveIntervalMs).map Prod.fst
  | .reset => some ss.reset

def machine : Machine KeyedSessions Action := ⟨step⟩

/-! ## The property -/

/-- Every session that encrypted packets can reach has got its key from a handshake or from a
group. -/
def KeysInstalled (ss : KeyedSessions) : Prop :=
  ∀ s ∈ ss.sessions, s.reserved = false → s.isEncrypted = true → s.loaded = true

/-- An encrypted packet that a session of the table decrypts was encrypted under a key that
has been loaded into the session. -/
def AcceptsNegotiated (ss : KeyedSessions) : Prop :=
  ∀ (aead : Aead) (peer : Address) (rx rx' : PacketHdr) (pb : ParseBuf), ∀ s ∈ ss.sessions,
    s.isForRx peer rx.plain = true → rx.plain.isEncrypted = true →
    s.decodeRemaining aead rx pb = .ok rx' →
    s.loaded = true ∧ ∃ text, pb.left =
      aead.encrypt s.decKey (rx.plain.iv (s.peerNodeid.getD 0)) pb.parsed text

/-- Is a group message such that a session is set up for it? A group key of a fabric decrypts
it, its counter is new, and there is room or a session that can be evicted. -/
def groupAccepted (env : RxEnv) (peer : Address) (rx : PacketHdr) (pb : ParseBuf)
    (ss : KeyedSessions) : Bool :=
  match rx.plain.getSrcNodeid, rx.plain.getDstGroupcastNodeid with
  | some srcNodeid, some groupId =>
    decide (pb.left.length ≤ savedEncryptedLen) &&
    match findGroupKey env groupId srcNodeid peer rx pb, env.rand with
    | some (fabIdx, _), .ok _ =>
      (ss.groupCtrStore.postRecv fabIdx srcNodeid rx.plain.ctr).1 &&
      (decide (ss.sessions.length < maxSessions) || (ss.getSessionForEviction env.now).isSome)
    | _, _ => false
  | _, _ => false

/-- Does a step set up a group session? No session is there for the packet it receives, and
that is a group message that is accepted. -/
def opensGroup (ss : KeyedSessions) : Action → Bool
  | .decodePacket env peer buf =>
    match PlainHdr.new.decode ⟨[], buf⟩ with
    | .error _ => false
    | .ok (plain, pb) =>
      (ss.sessions.all fun s => !(!s.expired && s.isForRx peer plain)) && plain.isGroupSession &&
        groupAccepted env peer { PacketHdr.reset with plain } pb ss
  | _ => false

end KeyedSessions

/-! ## What sessions keep -/

namespace Session

variable {s s' : Session}

theorem addExch_frame {exchId : BitVec 16} {role : Role} {index : ℕ}
    (h : s.addExch exchId role = some (index, s')) :
    s' = { s with exchanges := s'.exchanges } := by
  rw [addExch] at h
  split at h
  · cases h
    rfl
  · split at h
    · cases h
      rfl
    · cases h

theorem removeExch_frame {index : ℕ} {b : Bool} (h : s.removeExch index = some (b, s')) :
    s' = { s with exchanges := s'.exchanges } := by
  rw [removeExch] at h
  split at h
  · cases h
  · split at h
    all_goals
      cases h
      rfl

theorem preSend_frame {exchIndex : Option ℕ} {tx hdr : PacketHdr}
    {sessionActiveIntervalMs : Option (BitVec 32)} {addr : Address} {b : Bool}
    (h : s.preSend exchIndex tx sessionActiveIntervalMs = some (s', hdr, addr, b)) :
    s' = { s with exchanges := s'.exchanges, msgCtr := s'.msgCtr } := by
  rw [preSend.eq_def] at h
  split at h
  · cases h
    rfl
  · split at h
    · cases h
    · next e _ =>
      cases hpending : e.mrp.retrans.map (·.msgCtr) with
      | none =>
        simp only [hpending] at h
        split at h
        · cases h
        · cases h
          rfl
      | some ctr =>
        simp only [hpending] at h
        split at h
        · cases h
        · cases h
          rfl

theorem postRecv_frame (s : Session) (rx : PacketHdr) (nowMs : ℕ) :
    (s.postRecv rx nowMs).1 =
      { s with
        exchanges := (s.postRecv rx nowMs).1.exchanges
        rxCtrState := (s.postRecv rx nowMs).1.rxCtrState } := by
  rw [postRecv]
  dsimp only
  split
  · rfl
  · split
    · split
      · split <;> rfl
      · rfl
    · split
      · rfl
      · split
        · next hadd =>
          have hframe := addExch_frame hadd
          split
          · split
            · rw [hframe]
              rfl
            · rw [hframe]
          · rw [hframe]
        · rfl

theorem mode_postRecv (s : Session) (rx : PacketHdr) (nowMs : ℕ) :
    (s.postRecv rx nowMs).1.mode = s.mode := by
  rw [postRecv_frame]

end Session

/-- Have the two parties agreed on keys in a handshake? -/
def SessionMode.isHandshake : SessionMode → Bool
  | .case .. => true
  | .pase .. => true
  | _ => false

namespace KeyedSessions

variable {ss ss' : KeyedSessions} {s : KeyedSession}

theorem mem_onSession {β : Type} {id : BitVec 32} {now : ℕ} {f : KeyedSession → KeyedSession × β}
    {b : β} (h : ss.onSession id now f = some (ss', b)) (hs : s ∈ ss'.sessions) :
    s ∈ ss.sessions ∨ ∃ t ∈ ss.sessions, s = (f (t.updateLastUsed now)).1 := by
  rw [onSession] at h
  obtain ⟨⟨l, b'⟩, hl, hr⟩ := Option.map_eq_some_iff.mp h
  cases hr
  obtain ⟨a, t, c, ht, -, rfl, -⟩ := withFirst_eq_some hl
  rw [ht]
  rcases List.mem_append.mp hs with hs | hs
  · exact .inl (List.mem_append_left _ hs)
  · rcases List.mem_cons.mp hs with rfl | hs
    · exact .inr ⟨t, by simp, rfl⟩
    · exact .inl (List.mem_append_right _ (List.mem_cons_of_mem _ hs))

theorem remove_subperm (id : BitVec 32) (ss : KeyedSessions) :
    (ss.remove id).sessions.Subperm ss.sessions := by
  rw [remove]
  split
  · next index hindex =>
    obtain ⟨hlt, -⟩ := List.findIdx?_eq_some_iff_findIdx_eq.mp hindex
    exact swapRemove_subperm hlt
  · exact List.Subperm.refl _

@[simp] theorem nextSessUniqueId_remove (id : BitVec 32) (ss : KeyedSessions) :
    (ss.remove id).nextSessUniqueId = ss.nextSessUniqueId := by
  rw [remove]
  split <;> rfl

/-- A property of the mode and the mark of sessions that new sessions have, that agreeing on
keys gives and that getting a fabric keeps. -/
structure Kept (P : SessionMode → Bool → Prop) : Prop where
  new : P .plainText false
  /-- sessions with keys that a PASE handshake agreed on have it -/
  pase : P (.pase 0) true
  /-- sessions with keys that a CASE handshake agreed on have it -/
  case : ∀ fabIdx catIds, P (.case fabIdx catIds) true
  /-- a session that gets a fabric keeps it -/
  upgrade : ∀ fabIdx loaded, P (.pase 0) loaded → P (.pase fabIdx) loaded

def All (P : SessionMode → Bool → Prop) (ss : KeyedSessions) : Prop :=
  ∀ s ∈ ss.sessions, P s.mode s.loaded

section Kept

variable {P : SessionMode → Bool → Prop}

theorem All.of_subset (h : ss.All P) (hsub : ∀ s ∈ ss'.sessions, s ∈ ss.sessions) : ss'.All P :=
  fun s hs => h s (hsub s hs)

theorem All.append (h : ss.All P) (hs : P s.mode s.loaded)
    (heq : ss'.sessions = ss.sessions ++ [s]) : ss'.All P := by
  intro t ht
  rw [heq] at ht
  rcases List.mem_append.mp ht with ht | ht
  · exact h t ht
  · obtain rfl := List.mem_singleton.mp ht
    exact hs

theorem All.onSession {β : Type} {id : BitVec 32} {now : ℕ} {f : KeyedSession → KeyedSession × β}
    {b : β} (h : ss.All P) (hf : ∀ t : KeyedSession, P t.mode t.loaded →
      P (f t).1.mode (f t).1.loaded)
    (heq : ss.onSession id now f = some (ss', b)) : ss'.All P := by
  intro s hs
  rcases mem_onSession heq hs with hs | ⟨t, ht, rfl⟩
  · exact h s hs
  · exact hf _ (h t ht)

theorem All.onPlain {id : BitVec 32} {now : ℕ} {f : Session → Option Session} (h : ss.All P)
    (hf : ∀ t t' : Session, f t = some t' → t'.mode = t.mode)
    (heq : ss.onPlain id now f = some ss') : ss'.All P := by
  rw [KeyedSessions.onPlain] at heq
  obtain ⟨⟨ss'', b⟩, hon, hr⟩ := Option.bind_eq_some_iff.mp heq
  dsimp only at hr
  split at hr
  · cases hr
    refine h.onSession (fun t ht => ?_) hon
    cases hft : f t.toSession with
    | none => exact ht
    | some t' =>
      simp only
      rw [hf _ _ hft]
      exact ht
  · cases hr

theorem All.remove {id : BitVec 32} (h : ss.All P) : (ss.remove id).All P :=
  h.of_subset (remove_subperm id ss).subset

theorem All.dropExcept {p q : KeyedSession → Bool} {expireSessId : Option (BitVec 32)}
    (h : ss.All P) : (ss.dropExcept p q expireSessId).All P := by
  have hdrop : ∀ s ∈ swapRemoveWhere (fun s => p s && decide (some s.id ≠ expireSessId)) ss.sessions,
      P s.mode s.loaded := fun s hs => h s (mem_swapRemoveWhere.mp hs).1
  cases expireSessId with
  | none => exact hdrop
  | some id =>
    intro s hs
    rw [KeyedSessions.dropExcept] at hs
    dsimp only at hs
    cases hmod : modifyFirst (fun s : KeyedSession => s.id == id && q s)
        (fun s => { s with expired := true })
        (swapRemoveWhere (fun s => p s && decide (some s.id ≠ some id)) ss.sessions) with
    | none =>
      rw [hmod, Option.getD_none] at hs
      exact hdrop s hs
    | some l =>
      rw [hmod, Option.getD_some] at hs
      obtain ⟨a, x, b, hl, -, rfl⟩ := modifyFirst_eq_some hmod
      rw [hl] at hdrop
      rcases List.mem_append.mp hs with hs | hs
      · exact hdrop s (List.mem_append_left _ hs)
      · rcases List.mem_cons.mp hs with rfl | hs
        · exact hdrop x (by simp)
        · exact hdrop s (List.mem_append_right _ (List.mem_cons_of_mem _ hs))

end Kept

def succId (id : BitVec 32) : BitVec 32 := if 0x0fffffff#32 < id + 1 then 0 else id + 1

/-- The internal id that a step gives to a session it sets up: an id is passed over if there is
no room at first. -/
def newId (ss : KeyedSessions) : BitVec 32 :=
  if ss.sessions.length < maxSessions then ss.nextSessUniqueId else succId ss.nextSessUniqueId

def setsUp (ss : KeyedSessions) : Action → Bool
  | .decodePacket env peer buf =>
    match PlainHdr.new.decode ⟨[], buf⟩ with
    | .error _ => false
    | .ok (plain, pb) =>
      let rx : PacketHdr := { PacketHdr.reset with plain }
      (ss.sessions.all fun s => !(!s.expired && s.isForRx peer plain)) &&
        if !plain.isEncrypted then
          match rx.proto.decryptAndDecode env.aead none 0 plain pb, env.rand with
          | .ok (proto, _), .ok _ =>
            (MessageMeta.ofProto (proto.adjustReliability peer)).isNewSession &&
              decide (ss.sessions.length < maxSessions)
          | _, _ => false
        else plain.isGroupSession && groupAccepted env peer rx pb ss
  | .createUnsecured .. => decide (ss.sessions.length < maxSessions)
  | .reserveNow .. => decide (ss.sessions.length < maxSessions)
  | _ => false

theorem add_cases (msgCtr : BitVec 32) (reserved : Bool) (peerAddr : Address)
    (peerNodeid : Option (BitVec 64)) (now : ℕ) (ss : KeyedSessions) :
    ∃ ss' result, ss.add msgCtr reserved peerAddr peerNodeid now = (ss', result) ∧
      ss'.nextSessUniqueId = succId ss.nextSessUniqueId ∧
      ((result = .ok () ∧ ss.sessions.length < maxSessions ∧ ss'.sessions = ss.sessions ++
        [KeyedSession.new ss.nextSessUniqueId msgCtr reserved peerAddr peerNodeid now]) ∨
      (∃ code, result = .error code) ∧ ¬ ss.sessions.length < maxSessions ∧
        ss'.sessions = ss.sessions) := by
  rw [add]
  dsimp only
  split
  · next hroom => exact ⟨_, _, rfl, rfl, .inl ⟨rfl, hroom, rfl⟩⟩
  · next hfull => exact ⟨_, _, rfl, rfl, .inr ⟨⟨_, rfl⟩, hfull, rfl⟩⟩

/-- Is there room for a session, or one that can be evicted? -/
def HasRoom (now : ℕ) (ss : KeyedSessions) : Prop :=
  ss.sessions.length < maxSessions ∨ (ss.getSessionForEviction now).isSome = true

/-- Adding a session with eviction: a new one at the end of what is left. -/
theorem addEvicting_cases (rand : BitVec 32 × BitVec 32) (peer : Address)
    (srcNodeid : BitVec 64) (now : ℕ) (ss : KeyedSessions) :
    ∃ ss' result, ss.addEvicting rand peer srcNodeid now = (ss', result) ∧
      ((result = .ok () ∧ ss.HasRoom now ∧
        ∃ kept msgCtr, kept.Subperm ss.sessions ∧ ss'.sessions =
          kept ++ [KeyedSession.new ss.newId msgCtr false peer (some srcNodeid) now]) ∨
      (∃ code, result = .error code) ∧ ss'.sessions.Subperm ss.sessions) := by
  obtain ⟨ss₁, result, hadd, hnext, ⟨rfl, hroom, hsessions⟩ | ⟨⟨code, rfl⟩, hfull, hsessions⟩⟩ :=
    add_cases rand.1 false peer (some srcNodeid) now ss
  · refine ⟨ss₁, .ok (), ?_, .inl ⟨rfl, .inl hroom, ss.sessions, rand.1, List.Subperm.refl _, ?_⟩⟩
    · rw [addEvicting, hadd]
    · rw [newId, if_pos hroom]
      exact hsessions
  · rw [addEvicting, hadd]
    dsimp only
    cases hlru : ss₁.getSessionForEviction now with
    | none => exact ⟨ss₁, _, rfl, .inr ⟨⟨_, rfl⟩, hsessions ▸ List.Subperm.refl _⟩⟩
    | some lruId =>
      have hroom : ss.HasRoom now := by
        refine .inr ?_
        rw [getSessionForEviction, hsessions] at hlru
        rw [getSessionForEviction, hlru]
        rfl
      have hremove : (ss₁.remove lruId).sessions.Subperm ss.sessions :=
        hsessions ▸ remove_subperm lruId ss₁
      have hid : (ss₁.remove lruId).nextSessUniqueId = ss.newId := by
        rw [nextSessUniqueId_remove, hnext, newId, if_neg hfull]
      obtain ⟨ss₂, result, hadd₂, -, ⟨rfl, -, hsessions₂⟩ | ⟨herr, -, hsessions₂⟩⟩ :=
        add_cases rand.2 false peer (some srcNodeid) now (ss₁.remove lruId)
      · rw [hid] at hsessions₂
        exact ⟨ss₂, _, hadd₂, .inl ⟨rfl, hroom, _, rand.2, hremove, hsessions₂⟩⟩
      · exact ⟨ss₂, _, hadd₂, .inr ⟨herr, hsessions₂ ▸ hremove⟩⟩

theorem sessions_modifyLast {kept : List KeyedSession} (h : ss.sessions = kept ++ [s])
    (f : KeyedSession → KeyedSession) : (ss.modifyLast f).sessions = kept ++ [f s] := by
  rw [modifyLast, h, List.getLast?_concat]
  simp only
  rw [List.dropLast_concat]

theorem plain_findGroupKey {env : RxEnv} {groupId : BitVec 16} {srcNodeid : BitVec 64}
    {peer : Address} {rx rx' : PacketHdr} {pb : ParseBuf} {fabIdx : ℕ}
    (h : findGroupKey env groupId srcNodeid peer rx pb = some (fabIdx, rx')) :
    rx'.plain = rx.plain := by
  obtain ⟨fabric, -, hfabric⟩ := List.exists_of_findSome?_eq_some h
  obtain ⟨opKey, -, hkey⟩ := List.exists_of_findSome?_eq_some hfabric
  split at hkey
  · cases hkey
    rfl
  · cases hkey

def rxSessId (buf : List UInt8) : BitVec 16 :=
  match PlainHdr.new.decode ⟨[], buf⟩ with
  | .ok (plain, _) => plain.sessId
  | .error _ => 0

/-- A session as it is set up for a packet with a session id from a peer. -/
structure Blank (ss : KeyedSessions) (peer : Address) (sessId : BitVec 16) (s : KeyedSession) :
    Prop where
  id : s.id = ss.newId
  exchanges : s.exchanges = []
  expired : s.expired = false
  loaded : s.loaded = false
  /-- the peer has not named a session id -/
  peerSessId : s.peerSessId = 0
  peerAddr : s.peerAddr = peer
  /-- it gets the session id of the packet -/
  localSessId : s.localSessId = sessId

/-- A group message that is accepted gets a session without a key at the end of the table;
else sessions can only go. -/
theorem getOrCreateForGroupRx_cases (env : RxEnv) (peer : Address) (rx : PacketHdr)
    (pb : ParseBuf) (ss : KeyedSessions) :
    ∃ ss' result, ss.getOrCreateForGroupRx env peer rx pb = (ss', result) ∧
      ((∃ rx', result = .ok rx') ∧ groupAccepted env peer rx pb ss = true ∧
        (∃ kept s, kept.Subperm ss.sessions ∧ ss'.sessions = kept ++ [s] ∧
          ss.Blank peer rx.plain.sessId s ∧ s.mode.isGroup = true) ∨
      (∃ code, result = .error code) ∧ ss'.sessions.Subperm ss.sessions) := by
  rw [getOrCreateForGroupRx, groupAccepted]
  split
  · next srcNodeid groupId hsrc hgroup =>
    split
    · exact ⟨ss, _, rfl, .inr ⟨⟨_, rfl⟩, List.Subperm.refl _⟩⟩
    · next hlen =>
      cases hkey : findGroupKey env groupId srcNodeid peer rx pb with
      | none => exact ⟨ss, _, rfl, .inr ⟨⟨_, rfl⟩, List.Subperm.refl _⟩⟩
      | some found =>
        obtain ⟨fabIdx, rx'⟩ := found
        dsimp only
        rw [plain_findGroupKey hkey]
        cases hnew : (ss.groupCtrStore.postRecv fabIdx srcNodeid rx.plain.ctr).1 with
        | false => exact ⟨_, _, rfl, .inr ⟨⟨_, rfl⟩, List.Subperm.refl _⟩⟩
        | true =>
          rw [if_neg (by simp)]
          cases hrand : env.rand with
          | error code => exact ⟨_, _, rfl, .inr ⟨⟨_, rfl⟩, List.Subperm.refl _⟩⟩
          | ok rand =>
            obtain ⟨ss₁, result, hadd, ⟨rfl, hroom, kept, msgCtr, hkept, hsessions⟩ |
              ⟨⟨code, rfl⟩, hkept⟩⟩ := addEvicting_cases rand peer srcNodeid env.now
                { ss with
                  groupCtrStore :=
                    (ss.groupCtrStore.postRecv fabIdx srcNodeid rx.plain.ctr).2 }
            · simp only [hadd]
              refine ⟨_, _, rfl, .inl ⟨⟨_, rfl⟩, ?_, kept, _, hkept,
                sessions_modifyLast hsessions _, ⟨rfl, rfl, rfl, rfl, rfl, rfl, rfl⟩, rfl⟩⟩
              rw [Bool.and_eq_true]
              refine ⟨decide_eq_true (Nat.le_of_not_lt hlen), ?_⟩
              rw [hnew, Bool.true_and, Bool.or_eq_true, decide_eq_true_eq]
              exact hroom
            · simp only [hadd]
              exact ⟨_, _, rfl, .inr ⟨⟨_, rfl⟩, hkept⟩⟩
  · exact ⟨ss, _, rfl, .inr ⟨⟨_, rfl⟩, List.Subperm.refl _⟩⟩

theorem sessions_postRecvLast {kept : List KeyedSession} (h : ss.sessions = kept ++ [s])
    (rx : PacketHdr) (now : ℕ) :
    (ss.postRecvLast rx now).1.sessions = kept ++ [(s.postRecv rx now).1] := by
  rw [postRecvLast, h, List.getLast?_concat]
  simp only
  rw [List.dropLast_concat]

@[simp] theorem mode_postRecv (s : KeyedSession) (rx : PacketHdr) (now : ℕ) :
    (s.postRecv rx now).1.mode = s.mode := Session.mode_postRecv s.toSession rx now

@[simp] theorem loaded_postRecv (s : KeyedSession) (rx : PacketHdr) (now : ℕ) :
    (s.postRecv rx now).1.loaded = s.loaded := rfl

/-- What receiving a packet can do to the table, with what is returned. -/
inductive Received (env : RxEnv) (peer : Address) (buf : List UInt8) (ss ss' : KeyedSessions)
    (result : Except ErrorCode Bool) : Prop where
  /-- no session is for the packet, and none is set up; one may have been evicted -/
  | refused (hsub : ss'.sessions.Subperm ss.sessions) (hresult : ∃ code, result = .error code)
  /-- the session of the packet cannot decrypt or parse it -/
  | undecoded (a : List KeyedSession) (s : KeyedSession) (c : List KeyedSession)
    (code : ErrorCode) (hexpired : s.expired = false) (hold : ss.sessions = a ++ s :: c)
    (hnew : ss'.sessions = a ++ s.updateLastUsed env.now :: c) (hresult : result = .error code)
  | taken (a : List KeyedSession) (s : KeyedSession) (c : List KeyedSession) (plain : PlainHdr)
    (pb : ParseBuf) (rx : PacketHdr) (hdecode : PlainHdr.new.decode ⟨[], buf⟩ = .ok (plain, pb))
    (hfor : s.expired = false ∧ s.isForRx peer plain = true)
    (hrx : s.decodeRemaining env.aead { PacketHdr.reset with plain } pb = .ok rx)
    (hold : ss.sessions = a ++ s :: c)
    (hnew : ss'.sessions = a ++ ((s.updateLastUsed env.now).postRecv rx env.now).1 :: c)
    (hresult : result = ((s.updateLastUsed env.now).postRecv rx env.now).2)
  /-- a session is set up for the packet and gets it -/
  | opened (kept : List KeyedSession) (s : KeyedSession) (rx : PacketHdr)
    (hkept : kept.Subperm ss.sessions) (hblank : ss.Blank peer (rxSessId buf) s)
    (hsetsUp : ss.setsUp (.decodePacket env peer buf) = true)
    (hmode : s.mode = .plainText ∨
      s.mode.isGroup = true ∧ ss.opensGroup (.decodePacket env peer buf) = true)
    (hnew : ss'.sessions = kept ++ [(s.postRecv rx env.now).1])
    (hresult : result = (s.postRecv rx env.now).2)

theorem result_postRecvLast {kept : List KeyedSession} (h : ss.sessions = kept ++ [s])
    (rx : PacketHdr) (now : ℕ) : (ss.postRecvLast rx now).2 = (s.postRecv rx now).2 := by
  rw [postRecvLast, h, List.getLast?_concat]

theorem all_of_decodeForSession_none {env : RxEnv} {peer : Address} {rx : PacketHdr}
    {pb : ParseBuf} (h : ss.decodeForSession env peer rx pb = none) :
    (ss.sessions.all fun s => !(!s.expired && s.isForRx peer rx.plain)) = true := by
  rw [KeyedSessions.decodeForSession, Option.map_eq_none_iff, withFirst_eq_none] at h
  rw [List.all_eq_true]
  intro s hs
  rw [h s hs]
  rfl

/-- **Receiving a packet**, case by case. -/
theorem received_decodePacket (env : RxEnv) (peer : Address) (buf : List UInt8)
    (ss : KeyedSessions) : Received env peer buf ss (ss.decodePacket env peer buf).1
      (ss.decodePacket env peer buf).2 := by
  have hrefl := List.Subperm.refl ss.sessions
  rw [KeyedSessions.decodePacket]
  cases hdecode : PlainHdr.new.decode ⟨[], buf⟩ with
  | error code => exact .refused hrefl ⟨_, rfl⟩
  | ok decoded =>
    obtain ⟨plain, pb⟩ := decoded
    dsimp only
    cases hsession : ss.decodeForSession env peer { PacketHdr.reset with plain } pb with
    | some result =>
      obtain ⟨ss₁, outcome⟩ := result
      rw [KeyedSessions.decodeForSession] at hsession
      obtain ⟨⟨l, result'⟩, hl, hr⟩ := Option.map_eq_some_iff.mp hsession
      cases hr
      obtain ⟨a, s, c, hs, hp, rfl, rfl⟩ := withFirst_eq_some hl
      rw [Bool.and_eq_true, Bool.not_eq_true'] at hp
      cases hrx : s.decodeRemaining env.aead { PacketHdr.reset with plain } pb with
      | error code =>
        have hrx' : (s.updateLastUsed env.now).decodeRemaining env.aead
          { PacketHdr.reset with plain } pb = .error code := hrx
        simp only [hrx']
        exact .undecoded a s c code hp.1 hs rfl rfl
      | ok rx =>
        have hrx' : (s.updateLastUsed env.now).decodeRemaining env.aead
          { PacketHdr.reset with plain } pb = .ok rx := hrx
        simp only [hrx']
        exact .taken a s c plain pb rx hdecode hp hrx hs rfl rfl
    | none =>
      have hnone := all_of_decodeForSession_none hsession
      dsimp only
      split
      · next hplain =>
        split
        · exact .refused hrefl ⟨_, rfl⟩
        · next proto pb' hproto =>
          split
          · next hnewSession =>
            split
            · exact .refused hrefl ⟨_, rfl⟩
            · next rand hrand =>
              obtain ⟨ss₁, result, hadd, -, ⟨rfl, hroom, hsessions⟩ |
                ⟨⟨code, rfl⟩, -, hsessions⟩⟩ :=
                  add_cases rand.1 false peer plain.getSrcNodeid env.now ss
              · rw [hadd]
                have hsessId : rxSessId buf = 0 := by
                  rw [Bool.not_eq_true', PlainHdr.isEncrypted, Bool.or_eq_false_iff] at hplain
                  rw [rxSessId, hdecode]
                  exact bne_eq_false_iff_eq.mp hplain.1
                refine .opened _ _ _ hrefl ⟨?_, rfl, rfl, rfl, rfl, rfl, hsessId.symm⟩ ?_ (.inl rfl)
                  (sessions_postRecvLast hsessions _ env.now)
                  (result_postRecvLast hsessions _ env.now)
                · rw [newId, if_pos hroom]
                  rfl
                · rw [setsUp, hdecode]
                  dsimp only
                  rw [hnone, Bool.true_and, if_pos hplain, hproto, hrand]
                  dsimp only
                  rw [hnewSession, decide_eq_true hroom]
                  rfl
              · rw [hadd]
                exact .refused (hsessions ▸ hrefl) ⟨_, rfl⟩
          · exact .refused hrefl ⟨_, rfl⟩
      · next hplain =>
        split
        · next hgroupSession =>
          obtain ⟨ss₁, result, hcreate, ⟨⟨rx, rfl⟩, haccepted, kept, s, hkept, hsessions, hblank,
            hmode⟩ | ⟨⟨code, rfl⟩, hkept⟩⟩ := getOrCreateForGroupRx_cases env peer
              { PacketHdr.reset with plain } pb ss
          · rw [hcreate]
            have hsessId : rxSessId buf = plain.sessId := by rw [rxSessId, hdecode]
            refine .opened kept s rx hkept (hsessId ▸ hblank) ?_ (.inr ⟨hmode, ?_⟩)
              (sessions_postRecvLast hsessions rx env.now)
              (result_postRecvLast hsessions rx env.now)
            · rw [setsUp, hdecode]
              dsimp only
              rw [hnone, if_neg hplain, hgroupSession, haccepted]
              rfl
            · rw [opensGroup, hdecode]
              dsimp only
              rw [hnone, hgroupSession, haccepted]
              rfl
          · rw [hcreate]
            exact .refused hkept ⟨_, rfl⟩
        · exact .refused hrefl ⟨_, rfl⟩

section Kept

variable {P : SessionMode → Bool → Prop}

/-- **Receiving a packet** keeps the property, unless it sets up a group session and those do
not have it. -/
theorem All.decodePacket (hP : Kept P) {env : RxEnv} {peer : Address} {buf : List UInt8}
    (h : ss.All P) (hgroup : ss.opensGroup (.decodePacket env peer buf) = true →
      ∀ mode : SessionMode, mode.isGroup = true → P mode false) :
    (ss.decodePacket env peer buf).1.All P := by
  cases received_decodePacket env peer buf ss with
  | refused hsub _ => exact h.of_subset hsub.subset
  | undecoded a s c code _ hold hnew _ =>
    rw [All, hold, List.forall_mem_append, List.forall_mem_cons] at h
    rw [All, hnew, List.forall_mem_append, List.forall_mem_cons]
    exact h
  | taken a s c plain pb rx _ _ _ hold hnew _ =>
    rw [All, hold, List.forall_mem_append, List.forall_mem_cons] at h
    rw [All, hnew, List.forall_mem_append, List.forall_mem_cons]
    refine ⟨h.1, ?_, h.2.2⟩
    rw [mode_postRecv, loaded_postRecv]
    exact h.2.1
  | opened kept s rx hkept hblank _ hmode hnew _ =>
    have hkeptP : (KeyedSessions.mk 0 kept .new).All P := fun t ht => h t (hkept.subset ht)
    refine hkeptP.append ?_ hnew
    rw [mode_postRecv, loaded_postRecv, hblank.loaded]
    rcases hmode with hmode | ⟨hmode, hopens⟩
    · rw [hmode]
      exact hP.new
    · exact hgroup hopens s.mode hmode

/-- **One step** keeps the property, unless it sets up a group session and those do not have
it. -/
theorem All.step (hP : Kept P) {a : Action} (h : ss.All P)
    (hgroup : ss.opensGroup a = true → ∀ mode : SessionMode, mode.isGroup = true → P mode false)
    (hstep : ss.step a = some ss') : ss'.All P := by
  cases a with
  | decodePacket env peer buf =>
    cases hstep
    exact h.decodePacket hP hgroup
  | createUnsecured msgCtr peer ephemeralId now =>
    rw [KeyedSessions.step] at hstep
    obtain ⟨ss₁, result, hadd, -, ⟨rfl, -, hsessions⟩ | ⟨⟨code, rfl⟩, -, hsessions⟩⟩ :=
      add_cases msgCtr false peer none now ss
    · rw [hadd] at hstep
      cases hstep
      exact h.append hP.new (sessions_modifyLast hsessions _)
    · rw [hadd] at hstep
      cases hstep
      exact h.of_subset fun s hs => hsessions ▸ hs
  | reserveNow msgCtr now =>
    obtain ⟨ss₁, result, hadd, -, ⟨rfl, -, hsessions⟩ | ⟨⟨code, rfl⟩, -, hsessions⟩⟩ :=
      add_cases msgCtr true (.udp ⟨.v4 0, 0⟩) none now ss
    · rw [KeyedSessions.step, hadd] at hstep
      cases hstep
      exact h.append hP.new hsessions
    · rw [KeyedSessions.step, hadd] at hstep
      cases hstep
      exact h.of_subset fun s hs => hsessions ▸ hs
  | updatePase id params decKey encKey now =>
    obtain ⟨⟨ss₁, b⟩, hon, rfl⟩ := Option.map_eq_some_iff.mp hstep
    exact h.onSession (fun t _ => hP.pase) hon
  | updateCase id fabIdx catIds params decKey encKey now =>
    obtain ⟨⟨ss₁, b⟩, hon, rfl⟩ := Option.map_eq_some_iff.mp hstep
    exact h.onSession (fun t _ => hP.case fabIdx catIds) hon
  | complete id now =>
    obtain ⟨⟨ss₁, b⟩, hon, rfl⟩ := Option.map_eq_some_iff.mp hstep
    exact h.onSession (fun t ht => ht) hon
  | remove id =>
    cases hstep
    exact h.remove
  | removeForFabric fabricIdx expireSessId =>
    cases hstep
    exact h.dropExcept
  | removePase expireSessId =>
    cases hstep
    exact h.dropExcept
  | upgradeFabricIdx id fabricIdx now =>
    obtain ⟨⟨ss₁, b⟩, hon, rfl⟩ := Option.map_eq_some_iff.mp hstep
    refine h.onSession (fun t ht => ?_) hon
    rw [KeyedSession.upgradeFabricIdx]
    split
    · next hmode =>
      rw [hmode] at ht
      exact hP.upgrade fabricIdx t.loaded ht
    · exact ht
  | addExch id exchId role now =>
    rw [KeyedSessions.step] at hstep
    refine h.onPlain (fun t t' ht => ?_) hstep
    obtain ⟨⟨index, t''⟩, hadd, rfl⟩ := Option.map_eq_some_iff.mp ht
    exact (congrArg Session.mode (Session.addExch_frame hadd) :)
  | removeExch id index now =>
    rw [KeyedSessions.step] at hstep
    refine h.onPlain (fun t t' ht => ?_) hstep
    obtain ⟨⟨b, t''⟩, hremove, rfl⟩ := Option.map_eq_some_iff.mp ht
    exact (congrArg Session.mode (Session.removeExch_frame hremove) :)
  | preSend id exchIndex tx sessionActiveIntervalMs now =>
    rw [KeyedSessions.step] at hstep
    refine h.onPlain (fun t t' ht => ?_) hstep
    obtain ⟨⟨t'', hdr, addr, b⟩, hsend, rfl⟩ := Option.map_eq_some_iff.mp ht
    exact (congrArg Session.mode (Session.preSend_frame hsend) :)
  | reset =>
    cases hstep
    exact fun s hs => nomatch hs

end Kept

/-! ## Which sessions have keys -/

theorem kept_marked : Kept fun mode loaded => loaded = mode.isHandshake :=
  ⟨rfl, rfl, fun _ _ => rfl, fun _ _ h => h⟩

theorem kept_unicast : Kept fun mode _ => mode.isGroup = false :=
  ⟨rfl, rfl, fun _ _ => rfl, fun _ _ h => h⟩

theorem all_new (P : SessionMode → Bool → Prop) : new.All P := fun _ hs => nomatch hs

/-- In every run, the sessions with a key are those that a handshake has set up. -/
theorem marked_of_run {as : List Action} (hrun : machine.run new as = some ss) :
    ss.All fun mode loaded => loaded = mode.isHandshake := by
  refine Machine.invariant_of_meets (fun ss a ss' _ h hstep => ?_)
    (all_new _) (Machine.meets_of_forall fun _ _ _ => trivial) hrun
  refine All.step kept_marked h (fun _ mode hmode => ?_) hstep
  cases mode with
  | group fabIdx groupId => rfl
  | case _ _ => cases hmode
  | pase _ => cases hmode
  | plainText => cases hmode

theorem unicast_of_run {as : List Action} (hrun : machine.run new as = some ss)
    (hmeets : machine.Meets (fun ss a => ss.opensGroup a = false) new as) :
    ss.All fun mode _ => mode.isGroup = false := by
  refine Machine.invariant_of_meets (fun ss a ss' hok h hstep => ?_)
    (all_new _) hmeets hrun
  refine All.step kept_unicast h (fun hopens => ?_) hstep
  rw [hok] at hopens
  cases hopens

theorem isEncrypted_of_isForRx {peer : Address} {rx : PacketHdr}
    (h : s.isForRx peer rx.plain = true) (hrx : rx.plain.isEncrypted = true) :
    s.reserved = false ∧ s.isEncrypted = true := by
  rw [KeyedSession.isForRx] at h
  simp only [Bool.and_eq_true, beq_iff_eq, Bool.not_eq_true'] at h
  obtain ⟨⟨-, henc⟩, hreserved⟩ := h
  exact ⟨hreserved, henc.trans hrx⟩

theorem getDecKey_of_isEncrypted (h : s.isEncrypted = true) : s.getDecKey = some s.decKey := by
  rw [Session.isEncrypted] at h
  rw [KeyedSession.getDecKey]
  split at h <;> simp_all

/-- Where the keys are installed, packets are accepted only under them. -/
theorem KeysInstalled.acceptsNegotiated (h : ss.KeysInstalled) : ss.AcceptsNegotiated := by
  intro aead peer rx rx' pb s hs hfor hrx hdec
  obtain ⟨hreserved, henc⟩ := isEncrypted_of_isForRx hfor hrx
  refine ⟨h s hs hreserved henc, ?_⟩
  rw [KeyedSession.decodeRemaining, getDecKey_of_isEncrypted henc] at hdec
  cases hproto : rx.proto.decryptAndDecode aead (some s.decKey) (s.peerNodeid.getD 0) rx.plain
      pb with
  | error code =>
    rw [hproto] at hdec
    cases hdec
  | ok out => exact ProtoHdr.encrypted_of_decryptAndDecode hproto

theorem isHandshake_of_isEncrypted (h : s.isEncrypted = true) :
    s.mode.isHandshake = !s.mode.isGroup := by
  rw [Session.isEncrypted] at h
  split at h <;> simp_all [SessionMode.isHandshake, SessionMode.isGroup]

/-- **The keys of sessions.** In every run, the keys of all sessions that encrypted packets can
reach are installed exactly if no such session is a group session; and so they are, and
packets are accepted under them only, if no step of the run sets up a group session. -/
theorem keysInstalled_of_run {as : List Action} (hrun : machine.run new as = some ss) :
    (ss.KeysInstalled ↔
      ∀ s ∈ ss.sessions, s.reserved = false → s.mode.isGroup = false) ∧
    (machine.Meets (fun ss a => ss.opensGroup a = false) new as →
      ss.KeysInstalled ∧ ss.AcceptsNegotiated) := by
  have hmarked := marked_of_run hrun
  have hiff : ss.KeysInstalled ↔
      ∀ s ∈ ss.sessions, s.reserved = false → s.mode.isGroup = false := by
    constructor
    · intro h s hs hreserved
      by_contra hgroup
      rw [Bool.not_eq_false] at hgroup
      have henc : s.isEncrypted = true := by
        cases hmode : s.mode <;> simp_all [Session.isEncrypted, SessionMode.isGroup]
      have hloaded := h s hs hreserved henc
      rw [hmarked s hs, isHandshake_of_isEncrypted henc, hgroup] at hloaded
      cases hloaded
    · intro h s hs hreserved henc
      rw [hmarked s hs, isHandshake_of_isEncrypted henc, h s hs hreserved]
      rfl
  refine ⟨hiff, fun hmeets => ?_⟩
  have hinstalled := hiff.mpr fun s hs _ => unicast_of_run hrun hmeets s hs
  exact ⟨hinstalled, hinstalled.acceptsNegotiated⟩

/-! ## Samples -/

namespace Sample

def aead : Aead where
  encrypt key _ _ text := text ++ key
  decrypt key _ _ data :=
    if data.drop (data.length - aeadTagLen) = key then .ok (data.take (data.length - aeadTagLen))
    else .error .invalidData
  encrypt_of_decrypt {key iv aad data text} h := by
    split at h
    · next hkey =>
      cases h
      rw [← hkey, List.take_append_drop]
    · cases h

def groupKey : List UInt8 := List.replicate aeadCanonKeyLen 7

def fabric : Fabric :=
  { Fabric.init 1 with groups := ⟨[⟨5, 0, [⟨groupKey, 0⟩]⟩], [⟨9, 5⟩], []⟩ }

def env : RxEnv where
  crypto := RsMatter.Device.Sample.crypto
  aead := aead
  deriveGroupSessionId _ := .ok 0x1234
  fabrics := [fabric]
  now := 1
  rand := .ok (17, 18)

def peer : Address := .udp ⟨.v4 1, 5540⟩

/-- The protocol header of a request on a new exchange. -/
def request (exchId : UInt8) : List UInt8 := [0x01, 0x08, exchId, 0x00, 0x01, 0x00]

/-- A message to the group, under the group key. -/
def groupMessage : List UInt8 :=
  [0x06, 0x34, 0x12, 0x01, 1, 0, 0, 0, 3, 0, 0, 0, 0, 0, 0, 0, 9, 0] ++ (request 1 ++ groupKey)

/-- The plain header of a message to the node alone, with the session id of the group. -/
def unicast : List UInt8 := [0x00, 0x34, 0x12, 0x00, 2, 0, 0, 0]

/-- A message that anybody can make: it is encrypted under the key that is all zero. -/
def forged : List UInt8 := unicast ++ aead.encrypt aeadKeyZeroed [] unicast (request 2)

def handshake : List Action :=
  [.reserveNow 1 1, .updatePase 0 ⟨1, 2, 3, 4, peer⟩ groupKey groupKey 2, .complete 0 3]

end Sample

/-- After one group message, the node takes a message that is encrypted under no key of
anybody. -/
theorem forged_accepted : ∃ ss,
    machine.run new [.decodePacket Sample.env Sample.peer Sample.groupMessage] = some ss ∧
    ¬ ss.KeysInstalled ∧
    (ss.decodePacket Sample.env Sample.peer Sample.forged).2 = .ok true := by
  refine ⟨(new.decodePacket Sample.env Sample.peer Sample.groupMessage).1, rfl, ?_,
    by decide +kernel⟩
  intro h
  have hzero : ∃ s ∈ (new.decodePacket Sample.env Sample.peer Sample.groupMessage).1.sessions,
      s.reserved = false ∧ s.isEncrypted = true ∧ s.loaded = false := by decide +kernel
  obtain ⟨s, hs, hreserved, henc, hloaded⟩ := hzero
  rw [h s hs hreserved henc] at hloaded
  cases hloaded

theorem keysInstalled_of_handshake : ∃ ss, machine.run new Sample.handshake = some ss ∧
    ss.sessions ≠ [] ∧ ss.KeysInstalled ∧ ss.AcceptsNegotiated := by
  obtain ⟨ss, hrun, hne⟩ : ∃ ss, machine.run new Sample.handshake = some ss ∧
      ss.sessions ≠ [] := by
    refine ⟨(machine.run new Sample.handshake).getD new, ?_⟩
    decide +kernel
  refine ⟨ss, hrun, hne, (keysInstalled_of_run hrun).2 ?_⟩
  exact ⟨rfl, fun _ _ => ⟨rfl, fun _ _ => ⟨rfl, fun _ _ => trivial⟩⟩⟩

end KeyedSessions

end RsMatter
