import Mathlib.Data.List.Forall2
import RsMatter.Tcp

/-!
# Reassembly (`transport/network/tcp.rs`)

Reading moves bytes from the stream of a connection to its buffer, and taking a message removes the
frame at the front of the buffer. So the buffer and the rest of the stream always are the frames
of the messages that have not been taken yet (`Receiver.Inv`), and the messages of a connection
are taken in order, each of them once and whole (`Receiver.reassembled_of_run`).

A connection is given up when a read takes its buffer over the limit. The message that is being
read never does that alone, as the limit has room for the largest one; but a read that goes beyond
its end does, if the message is nearly that large.
-/

namespace RsMatter

namespace Tcp

/-! ## One connection -/

namespace TcpConnection

structure Reads (c c' : TcpConnection) : Prop where
  connId : c'.connId = c.connId
  /-- bytes move from the stream to the buffer -/
  bytes : c'.rxBuf ++ c'.stream = c.rxBuf ++ c.stream

variable {c c' : TcpConnection} {os : Readiness} {rest : List (List UInt8)}

theorem Reads.refl (c : TcpConnection) : c.Reads c := ⟨rfl, rfl⟩

theorem connId_of_reads {l l' : List TcpConnection} (h : List.Forall₂ Reads l l') :
    l'.map (·.connId) = l.map (·.connId) := by
  induction h with
  | nil => rfl
  | cons h _ ih => rw [List.map_cons, List.map_cons, h.connId, ih]

theorem exists_of_reads {l l' : List TcpConnection} (h : List.Forall₂ Reads l l') (hc : c ∈ l') :
    ∃ b ∈ l, b.Reads c := by
  induction h with
  | nil => cases hc
  | cons h _ ih =>
    rcases List.mem_cons.mp hc with rfl | hc
    · exact ⟨_, List.mem_cons_self, h⟩
    · obtain ⟨b, hb, hreads⟩ := ih hc
      exact ⟨b, List.mem_cons_of_mem _ hb, hreads⟩

/-- Can the read not fail, as far as the operating system and the peer go? -/
def ReadsOn (os : Readiness) (c : TcpConnection) : Prop :=
  match os with
  | .data n => 1 ≤ n ∧ c.stream ≠ []
  | .wouldBlock => True
  | .error => False

/-- Does the read leave the buffer within the limit? -/
def Fits (os : Readiness) (c : TcpConnection) : Prop :=
  match os with
  | .data n => c.rxBuf.length + (c.stream.take (min n readLen)).length ≤ maxRxBufSize
  | _ => True

instance (os : Readiness) (c : TcpConnection) : Decidable (ReadsOn os c) := by
  unfold ReadsOn
  split <;> infer_instance

instance (os : Readiness) (c : TcpConnection) : Decidable (Fits os c) := by
  unfold Fits
  split <;> infer_instance

/-- Are these the frames of messages that are not too large? -/
def Holds (c : TcpConnection) (rest : List (List UInt8)) : Prop :=
  c.rxBuf ++ c.stream = frames frameHdrLen rest ∧ ∀ msg ∈ rest, msg.length ≤ maxRxLargePacketSize

theorem Reads.holds (h : c.Reads c') (hc : c.Holds rest) : c'.Holds rest :=
  ⟨h.bytes.trans hc.1, hc.2⟩

theorem Holds.fit {msg : List UInt8} (h : c.Holds (msg :: rest)) : msg.length < 256 ^ frameHdrLen :=
  (h.2 msg List.mem_cons_self).trans_lt (by decide)

/-- A connection that has no complete message has room in its buffer. -/
theorem Holds.length_lt (h : c.Holds rest) (hnone : c.hasCompleteMessage = none) :
    c.rxBuf.length < maxRxBufSize := by
  cases rest with
  | nil =>
    rw [(List.append_eq_nil_iff.mp h.1).1]
    decide
  | cons msg rest =>
    rw [hasCompleteMessage, frameLen_of_frames h.fit h.1] at hnone
    have hmax := h.2 msg List.mem_cons_self
    split at hnone
    · cases hnone
    · rw [maxRxBufSize]
      omega

theorem Holds.eq_nil (h : c.Holds rest) (hstream : c.stream = []) (hnone : c.hasCompleteMessage = none) :
    rest = [] := by
  cases rest with
  | nil => rfl
  | cons msg rest =>
    rw [hasCompleteMessage, frameLen_of_frames h.fit h.1] at hnone
    have hlen := congrArg List.length h.1
    rw [hstream, List.append_nil, frames_cons, List.length_append, length_frame] at hlen
    rw [if_pos (by omega)] at hnone
    cases hnone

theorem Holds.extractMessage {msgLen : ℕ} (h : c.Holds rest)
    (hsome : c.hasCompleteMessage = some msgLen) :
    ∃ msg rest', rest = msg :: rest' ∧ msgLen = msg.length ∧
      (c.extractMessage msgLen).1 = msg ∧ (c.extractMessage msgLen).2.Holds rest' := by
  cases rest with
  | nil =>
    rw [hasCompleteMessage, (List.append_eq_nil_iff.mp h.1).1, frameLen_nil (by decide)] at hsome
    cases hsome
  | cons msg rest =>
    rw [hasCompleteMessage, frameLen_of_frames h.fit h.1] at hsome
    split at hsome
    · next hlen =>
      cases hsome
      obtain ⟨hmsg, hrest⟩ := split_of_frames h.1 hlen
      exact ⟨msg, rest, rfl, rfl, hmsg, hrest, fun m hm => h.2 m (List.mem_cons_of_mem _ hm)⟩
    · cases hsome

/-- **One read** of a connection that has room, if the read stays within the limit. -/
theorem reads_tryReadNonblocking (hroom : c.rxBuf.length < maxRxBufSize) (hon : ReadsOn os c)
    (hfits : Fits os c) : ∃ c' n, c.tryReadNonblocking os = (c', .ok n) ∧ c.Reads c' := by
  cases os with
  | data n =>
    rw [tryReadNonblocking, if_neg (Nat.not_le_of_lt hroom)]
    obtain ⟨hn, hstream⟩ := hon
    have hdata : c.stream.take (min n readLen) ≠ [] := by
      rw [Ne, List.take_eq_nil_iff, not_or]
      exact ⟨by rw [readLen]; omega, hstream⟩
    rw [if_neg hdata, if_neg (by rw [List.length_append]; exact Nat.not_lt_of_le hfits)]
    refine ⟨_, _, rfl, rfl, ?_⟩
    rw [List.append_assoc, List.append_cancel_left_eq]
    exact List.prefix_iff_eq_append.mp (List.take_prefix _ _)
  | wouldBlock =>
    rw [tryReadNonblocking, if_neg (Nat.not_le_of_lt hroom)]
    exact ⟨c, 0, rfl, .refl c⟩
  | error => exact hon.elim

end TcpConnection

/-! ## The pool -/

namespace TcpInner

variable {t : TcpInner}

theorem exists_add_mod {len j : ℕ} (p : ℕ) (hj : j < len) : ∃ i < len, (p + i) % len = j := by
  have hpos : 0 < len := Nat.zero_lt_of_lt hj
  refine ⟨(j + (len - p % len)) % len, Nat.mod_lt _ hpos, ?_⟩
  have hle := (Nat.mod_lt p hpos).le
  have hsum : p + (j + (len - p % len)) = j + len * (p / len + 1) := by
    have hdiv := Nat.div_add_mod p len
    rw [Nat.mul_add, Nat.mul_one]
    omega
  rw [Nat.add_mod_mod, hsum, Nat.add_mul_mod_self_left, Nat.mod_eq_of_lt hj]

theorem hasCompleteMessage_of_findReadyConnection (h : t.findReadyConnection = none) :
    ∀ c ∈ t.connections, c.hasCompleteMessage = none := by
  intro c hc
  obtain ⟨j, hj, rfl⟩ := List.mem_iff_getElem.mp hc
  obtain ⟨i, hi, hij⟩ := exists_add_mod t.pollIndex hj
  have hlooked : j ∈ (List.range t.connections.length).map fun i =>
      (t.pollIndex + i) % t.connections.length := List.mem_map.mpr ⟨i, List.mem_range.mpr hi, hij⟩
  have hready := List.find?_eq_none.mp h j hlooked
  rw [isReady, List.getElem?_eq_getElem hj, Option.bind_some, Option.not_isSome_iff_eq_none] at hready
  exact hready

theorem findReadyConnection_isSome {c : TcpConnection} (hc : c ∈ t.connections)
    (hready : c.hasCompleteMessage.isSome = true) : t.findReadyConnection.isSome = true := by
  rw [Option.isSome_iff_ne_none]
  intro hnone
  rw [hasCompleteMessage_of_findReadyConnection hnone c hc] at hready
  cases hready

theorem findReadyConnection_eq_some {idx : ℕ} (h : t.findReadyConnection = some idx) :
    ∃ c msgLen, t.connections[idx]? = some c ∧ c.hasCompleteMessage = some msgLen := by
  have hready := List.find?_some h
  rw [isReady, Option.isSome_iff_exists] at hready
  obtain ⟨msgLen, hbind⟩ := hready
  obtain ⟨c, hc, hmsg⟩ := Option.bind_eq_some_iff.mp hbind
  exact ⟨c, msgLen, hc, hmsg⟩

/-- **Reading on**: bytes move, and if nothing is found no message is complete. -/
theorem readAllLoop_spec (os : ℕ → Readiness) (done : List TcpConnection) {rest : List TcpConnection}
    (hdone : ∀ c ∈ done, c.hasCompleteMessage = none)
    (hrest : ∀ c ∈ rest, c.rxBuf.length < maxRxBufSize ∧ c.ReadsOn (os c.connId) ∧
      c.Fits (os c.connId)) :
    ∃ l found, readAllLoop os done rest = (done ++ l, found) ∧
      List.Forall₂ TcpConnection.Reads rest l ∧
      (found = none → ∀ c ∈ done ++ l, c.hasCompleteMessage = none) := by
  induction rest generalizing done with
  | nil =>
    rw [readAllLoop]
    refine ⟨[], none, by rw [List.append_nil], .nil, fun _ => ?_⟩
    rw [List.append_nil]
    exact hdone
  | cons c rest ih =>
    obtain ⟨hroom, hon, hfits⟩ := hrest c List.mem_cons_self
    obtain ⟨c', n, hread, hreads⟩ := TcpConnection.reads_tryReadNonblocking hroom hon hfits
    rw [readAllLoop, hread]
    dsimp only
    split
    · -- a message is complete, and the other connections are left alone
      refine ⟨c' :: rest, _, rfl, .cons hreads ?_, nofun⟩
      exact List.forall₂_same.mpr fun c _ => TcpConnection.Reads.refl c
    · next hnot =>
      have hnone : c'.hasCompleteMessage = none := Option.not_isSome_iff_eq_none.mp hnot
      have hdone' : ∀ d ∈ done ++ [c'], d.hasCompleteMessage = none := by
        intro d hd
        rcases List.mem_append.mp hd with hd | hd
        · exact hdone d hd
        · rw [List.mem_singleton.mp hd]
          exact hnone
      obtain ⟨l, found, hloop, hall, hfound⟩ := ih _ hdone' fun d hd => hrest d (List.mem_cons_of_mem _ hd)
      rw [List.append_assoc, List.singleton_append] at hloop hfound
      exact ⟨c' :: l, found, hloop, .cons hreads hall, hfound⟩

end TcpInner

/-! ## Receiving -/

namespace Receiver

/-- The messages that have been taken from a connection. -/
def delivered (results : List (ℕ × Except ErrorCode (List UInt8 × SocketAddr))) (id : ℕ) :
    List (List UInt8) :=
  results.filterMap fun p =>
    match p.2 with
    | .ok (msg, _) => if p.1 = id then some msg else none
    | .error _ => none

/-- What is assumed of peers, the operating system and the sending side: connection `k` is sent the
messages `sent k` and nothing else, there is room for the connections, none of them fails, and a
read yields at least a byte if it does not block. -/
def Quiet (N : ℕ) (sent : ℕ → List (List UInt8)) (r : Receiver) : Action → Prop
  | .check os => ∀ c ∈ r.inner.connections, c.ReadsOn (os c.connId)
  | .listenerReady _ stream =>
    r.inner.connections.length < N ∧ stream = frames frameHdrLen (sent r.inner.nextConnId)
  | .connected _ stream =>
    r.inner.connections.length < N ∧ stream = frames frameHdrLen (sent r.inner.nextConnId)
  | .connectionReadable idx os => ∀ c ∈ r.inner.connections[idx]?, c.ReadsOn os
  | .connectionError _ => False
  | .gaveUp _ => False
  | _ => True

def Fits (r : Receiver) : Action → Prop
  | .check os => ∀ c ∈ r.inner.connections, c.Fits (os c.connId)
  | .connectionReadable idx os => ∀ c ∈ r.inner.connections[idx]?, c.Fits os
  | _ => True

structure Inv (sent : ℕ → List (List UInt8)) (r : Receiver) : Prop where
  ids : r.inner.connections.map (·.connId) = List.range r.inner.nextConnId
  /-- what has not been taken from a connection is in its buffer and its stream -/
  held : ∀ c ∈ r.inner.connections, ∃ rest, sent c.connId = delivered r.results c.connId ++ rest ∧ c.Holds rest
  /-- a call waits only if there is no complete message -/
  waiting : r.phase = .waiting → ∀ c ∈ r.inner.connections, c.hasCompleteMessage = none
  results : ∀ p ∈ r.results, p.1 < r.inner.nextConnId ∧ ∃ x, p.2 = .ok x

variable {N : ℕ} {sent : ℕ → List (List UInt8)} {r r' : Receiver} {a : Action}

theorem inv_new (sent : ℕ → List (List UInt8)) : new.Inv sent where
  ids := rfl
  held := nofun
  waiting := nofun
  results := nofun

theorem Inv.phase (hinv : r.Inv sent) {phase : Phase}
    (hwaiting : phase = .waiting → ∀ c ∈ r.inner.connections, c.hasCompleteMessage = none) :
    { r with phase : Receiver }.Inv sent :=
  ⟨hinv.ids, hinv.held, hwaiting, hinv.results⟩

theorem Inv.of_reads (hinv : r.Inv sent) {l : List TcpConnection} {phase : Phase}
    (hall : List.Forall₂ TcpConnection.Reads r.inner.connections l)
    (hwaiting : phase = .waiting → ∀ c ∈ l, c.hasCompleteMessage = none) :
    { r with inner := { r.inner with connections := l }, phase : Receiver }.Inv sent where
  ids := (TcpConnection.connId_of_reads hall).trans hinv.ids
  held c hc := by
    obtain ⟨b, hb, hreads⟩ := TcpConnection.exists_of_reads hall hc
    obtain ⟨rest, hsent, hholds⟩ := hinv.held b hb
    rw [← hreads.connId] at hsent
    exact ⟨rest, hsent, hreads.holds hholds⟩
  waiting := hwaiting
  results := hinv.results

theorem Inv.length_lt (hinv : r.Inv sent) {c : TcpConnection} (hc : c ∈ r.inner.connections)
    (hnone : c.hasCompleteMessage = none) : c.rxBuf.length < maxRxBufSize := by
  obtain ⟨rest, -, hholds⟩ := hinv.held c hc
  exact hholds.length_lt hnone

theorem Inv.check (hinv : r.Inv sent) {os : ℕ → Readiness}
    (hon : ∀ c ∈ r.inner.connections, c.ReadsOn (os c.connId))
    (hfits : ∀ c ∈ r.inner.connections, c.Fits (os c.connId)) (hnone : r.inner.findReadyConnection = none) :
    { r with
      inner := (r.inner.tryReadAll os).1
      phase := if (r.inner.tryReadAll os).2.isSome then .taking else .waiting : Receiver }.Inv sent := by
  have hready := TcpInner.hasCompleteMessage_of_findReadyConnection hnone
  obtain ⟨l, found, hloop, hall, hfound⟩ := TcpInner.readAllLoop_spec os [] nofun
    fun c hc => ⟨hinv.length_lt hc (hready c hc), hon c hc, hfits c hc⟩
  rw [TcpInner.tryReadAll, hloop]
  refine hinv.of_reads hall fun hphase => hfound ?_
  cases found with
  | none => rfl
  | some idx => cases hphase

theorem Inv.readAt (hinv : r.Inv sent) {idx : ℕ} {os : Readiness} (hwaiting : r.phase = .waiting)
    (hon : ∀ c ∈ r.inner.connections[idx]?, c.ReadsOn os)
    (hfits : ∀ c ∈ r.inner.connections[idx]?, c.Fits os) :
    { r with inner := r.inner.readAt idx os, phase := .checking : Receiver }.Inv sent := by
  rw [TcpInner.readAt]
  cases hc : r.inner.connections[idx]? with
  | none => exact hinv.phase nofun
  | some c =>
    have hmem := List.mem_of_getElem? hc
    obtain ⟨c', n, hread, hreads⟩ := TcpConnection.reads_tryReadNonblocking
      (hinv.length_lt hmem (hinv.waiting hwaiting c hmem)) (hon c hc) (hfits c hc)
    dsimp only
    rw [hread]
    refine hinv.of_reads ?_ nofun
    obtain ⟨hlt, rfl⟩ := List.getElem?_eq_some_iff.mp hc
    rw [List.forall₂_iff_get]
    refine ⟨by rw [List.length_set], fun i hi hi' => ?_⟩
    rw [List.get_eq_getElem, List.get_eq_getElem, List.getElem_set]
    split
    · next heq =>
      subst heq
      exact hreads
    · exact .refl _

theorem Inv.addConnection (hsize : ∀ id, ∀ msg ∈ sent id, msg.length ≤ maxRxLargePacketSize)
    (hinv : r.Inv sent) {addr : SocketAddr} {phase : Phase} (hroom : r.inner.connections.length < N)
    (hwaiting : phase = .waiting → r.phase = .waiting) :
    { r with
      inner := r.inner.addConnection N addr (frames frameHdrLen (sent r.inner.nextConnId))
      phase : Receiver }.Inv sent := by
  rw [TcpInner.addConnection, if_neg (Nat.not_le_of_lt hroom)]
  refine ⟨?_, ?_, ?_, ?_⟩
  · dsimp only
    rw [List.map_append, hinv.ids, List.range_succ]
    rfl
  · intro c hc
    rcases List.mem_append.mp hc with hc | hc
    · exact hinv.held c hc
    · rw [List.mem_singleton.mp hc]
      -- nothing has been taken from it
      have hnone : delivered r.results r.inner.nextConnId = [] := by
        refine List.filterMap_eq_nil_iff.mpr fun p hp => ?_
        split
        · exact if_neg (hinv.results p hp).1.ne
        · rfl
      refine ⟨sent r.inner.nextConnId, ?_, rfl, hsize _⟩
      dsimp only
      rw [hnone, List.nil_append]
  · intro hphase c hc
    rcases List.mem_append.mp hc with hc | hc
    · exact hinv.waiting (hwaiting hphase) c hc
    · rw [List.mem_singleton.mp hc]
      exact frameLen_nil (by decide)
  · intro p hp
    exact ⟨(hinv.results p hp).1.trans (Nat.lt_succ_self _), (hinv.results p hp).2⟩

theorem Inv.length_connections (hinv : r.Inv sent) :
    r.inner.connections.length = r.inner.nextConnId := by
  rw [← List.length_range (n := r.inner.nextConnId), ← hinv.ids, List.length_map]

theorem Inv.connId_getElem (hinv : r.Inv sent) {i : ℕ} (hi : i < r.inner.connections.length) :
    r.inner.connections[i].connId = i := by
  have hid := congrArg (·[i]?) hinv.ids
  simpa [List.getElem?_eq_getElem hi, List.getElem?_range, ← hinv.length_connections, hi] using hid

theorem Inv.takeMessage (hinv : r.Inv sent) : (r.takeMessage maxRxLargePacketSize).Inv sent := by
  rw [Receiver.takeMessage]
  cases hfind : r.inner.findReadyConnection with
  | none => exact hinv.phase nofun
  | some idx =>
    obtain ⟨c, msgLen, hc, hmsg⟩ := TcpInner.findReadyConnection_eq_some hfind
    obtain ⟨rest, hsent, hholds⟩ := hinv.held c (List.mem_of_getElem? hc)
    obtain ⟨msg, rest, rfl, rfl, hpayload, hholds'⟩ := hholds.extractMessage hmsg
    have hid : (c.extractMessage msg.length).2.connId = c.connId := rfl
    obtain ⟨hlt, rfl⟩ := List.getElem?_eq_some_iff.mp hc
    have hids : (r.inner.connections.set idx (r.inner.connections[idx].extractMessage msg.length).2).map
        (·.connId) = r.inner.connections.map (·.connId) := by
      rw [List.map_set, hid, ← List.getElem_map fun c : TcpConnection => c.connId,
        List.set_getElem_self]
      rwa [List.length_map]
    dsimp only
    rw [hc]
    dsimp only
    rw [hmsg]
    dsimp only
    rw [if_neg (Nat.not_lt_of_le (hholds.2 msg List.mem_cons_self)), hpayload]
    refine ⟨?_, ?_, nofun, ?_⟩
    · dsimp only
      rw [hids, hinv.ids]
    · intro d hd
      dsimp only at hd ⊢
      rw [delivered, List.filterMap_append]
      obtain ⟨i, hi, rfl⟩ := List.mem_iff_getElem.mp hd
      rw [List.length_set] at hi
      by_cases hidx : idx = i
      · subst hidx
        rw [List.getElem_set_self]
        refine ⟨rest, ?_, hholds'⟩
        rw [hid, hsent, delivered]
        simp
      · rw [List.getElem_set_ne hidx]
        obtain ⟨rest', hsent', hholds'⟩ := hinv.held _ (List.getElem_mem hi)
        refine ⟨rest', ?_, hholds'⟩
        -- ids tell connections apart
        have hne : r.inner.connections[idx].connId ≠ r.inner.connections[i].connId := by
          rw [hinv.connId_getElem hlt, hinv.connId_getElem hi]
          exact hidx
        rw [hsent', delivered]
        simp [hne]
    · intro p hp
      rcases List.mem_append.mp hp with hp | hp
      · exact hinv.results p hp
      · rw [List.mem_singleton.mp hp]
        refine ⟨?_, _, rfl⟩
        dsimp only
        rw [hinv.connId_getElem hlt, ← hinv.length_connections]
        exact hlt

/-- **One step.** -/
theorem Inv.step (hsize : ∀ id, ∀ msg ∈ sent id, msg.length ≤ maxRxLargePacketSize)
    (hok : r.Quiet N sent a ∧ r.Fits a) (hinv : r.Inv sent)
    (hstep : r.step N maxRxLargePacketSize a = some r') : r'.Inv sent := by
  obtain ⟨hquiet, hfits⟩ := hok
  cases a with
  | call =>
    rw [Receiver.step] at hstep
    split at hstep
    · cases hstep
      exact hinv.phase nofun
    · cases hstep
  | check os =>
    rw [Receiver.step] at hstep
    split at hstep
    · split at hstep
      · cases hstep
        exact hinv.phase nofun
      · next hnone =>
        cases hstep
        exact hinv.check hquiet hfits (Option.not_isSome_iff_eq_none.mp hnone)
    · cases hstep
  | listenerReady addr stream =>
    rw [Receiver.step] at hstep
    split at hstep
    · cases hstep
      obtain ⟨hroom, rfl⟩ := hquiet
      exact hinv.addConnection hsize hroom nofun
    · cases hstep
  | connectionReadable idx os =>
    rw [Receiver.step] at hstep
    split at hstep
    · next hwaiting =>
      cases hstep
      exact hinv.readAt hwaiting hquiet hfits
    · cases hstep
  | connectionError idx => exact hquiet.elim
  | poolChanged =>
    rw [Receiver.step] at hstep
    split at hstep
    · cases hstep
      exact hinv.phase nofun
    · cases hstep
  | take =>
    rw [Receiver.step] at hstep
    split at hstep
    · cases hstep
      exact hinv.takeMessage
    · cases hstep
  | connected addr stream =>
    cases hstep
    obtain ⟨hroom, rfl⟩ := hquiet
    exact hinv.addConnection hsize hroom id
  | gaveUp idx => exact hquiet.elim

theorem results_takeMessage (cap : ℕ) (h : r.inner.findReadyConnection.isSome = true) :
    ∃ p, (r.takeMessage cap).results = r.results ++ [p] := by
  obtain ⟨idx, hfind⟩ := Option.isSome_iff_exists.mp h
  obtain ⟨c, msgLen, hc, hmsg⟩ := TcpInner.findReadyConnection_eq_some hfind
  rw [takeMessage, hfind]
  dsimp only
  rw [hc]
  dsimp only
  rw [hmsg]
  dsimp only
  split
  · exact ⟨_, rfl⟩
  · exact ⟨_, rfl⟩

theorem returns_of_ready (cap : ℕ) (hidle : r.phase = .idle)
    (h : r.inner.findReadyConnection.isSome = true) (os : ℕ → Readiness) :
    ∃ r' p, (machine N cap).run r [.call, .check os, .take] = some r' ∧ r'.results = r.results ++ [p] := by
  have hcall : r.step N cap .call = some { r with phase := .checking } := by
    rw [step, if_pos hidle]
  have hcheck : { r with phase := .checking : Receiver }.step N cap (.check os) =
      some { r with phase := .taking } := by
    rw [step, if_pos rfl, if_pos h]
  have htake : { r with phase := .taking : Receiver }.step N cap .take =
      some ({ r with phase := .taking : Receiver }.takeMessage cap) := by
    rw [step, if_pos rfl]
  obtain ⟨p, hp⟩ := results_takeMessage (r := { r with phase := .taking }) cap h
  refine ⟨_, p, ?_, hp⟩
  refine Machine.run_cons_eq_some.mpr ⟨_, hcall, Machine.run_cons_eq_some.mpr ⟨_, hcheck, ?_⟩⟩
  exact Machine.run_cons_eq_some.mpr ⟨_, htake, rfl⟩

/-- **Reassembly.** Where peers send messages that are not too large and no read takes a buffer
over the limit, no connection is dropped and no call fails; what the calls take from a connection
are the messages it was sent, from the first one on, and all of them once everything is read and
no message of it is waiting; and as long as a message of any connection is, a call returns. -/
theorem reassembled_of_run (hsize : ∀ id, ∀ msg ∈ sent id, msg.length ≤ maxRxLargePacketSize)
    {as : List Action}
    (hok : (machine N maxRxLargePacketSize).Meets (fun r a => r.Quiet N sent a ∧ r.Fits a) new as)
    (hrun : (machine N maxRxLargePacketSize).run new as = some r) :
    r.inner.connections.map (·.connId) = List.range r.inner.nextConnId ∧
    (∀ p ∈ r.results, ∃ x, p.2 = .ok x) ∧
    (∀ c ∈ r.inner.connections, delivered r.results c.connId <+: sent c.connId ∧
      (c.stream = [] → c.hasCompleteMessage = none →
        delivered r.results c.connId = sent c.connId)) ∧
    (r.phase = .idle → (∃ c ∈ r.inner.connections, c.hasCompleteMessage.isSome = true) →
      ∀ os, ∃ r' p, (machine N maxRxLargePacketSize).run r [.call, .check os, .take] = some r' ∧
        r'.results = r.results ++ [p]) := by
  have hinv : r.Inv sent := Machine.invariant_of_meets
    (fun _ _ _ hok hinv hstep => hinv.step hsize hok hstep) (inv_new sent) hok hrun
  refine ⟨hinv.ids, fun p hp => (hinv.results p hp).2, fun c hc => ?_, fun hidle hready os => ?_⟩
  · obtain ⟨rest, hsent, hholds⟩ := hinv.held c hc
    refine ⟨⟨rest, hsent.symm⟩, fun hstream hnone => ?_⟩
    rw [hsent, hholds.eq_nil hstream hnone, List.append_nil]
  · obtain ⟨c, hc, hready⟩ := hready
    exact returns_of_ready _ hidle (TcpInner.findReadyConnection_isSome hc hready) os

/-! ## Two messages in one read -/

instance (N : ℕ) (sent : ℕ → List (List UInt8)) (r : Receiver) :
    (a : Action) → Decidable (r.Quiet N sent a)
  | .check os => inferInstanceAs (Decidable (∀ c ∈ r.inner.connections, c.ReadsOn (os c.connId)))
  | .listenerReady _ stream => inferInstanceAs (Decidable
      (r.inner.connections.length < N ∧ stream = frames frameHdrLen (sent r.inner.nextConnId)))
  | .connected _ stream => inferInstanceAs (Decidable
      (r.inner.connections.length < N ∧ stream = frames frameHdrLen (sent r.inner.nextConnId)))
  | .connectionReadable idx os =>
    inferInstanceAs (Decidable (∀ c ∈ r.inner.connections[idx]?, c.ReadsOn os))
  | .connectionError _ => .isFalse id
  | .gaveUp _ => .isFalse id
  | .call => .isTrue trivial
  | .poolChanged => .isTrue trivial
  | .take => .isTrue trivial

instance (r : Receiver) : (a : Action) → Decidable (r.Fits a)
  | .check os => inferInstanceAs (Decidable (∀ c ∈ r.inner.connections, c.Fits (os c.connId)))
  | .connectionReadable idx os =>
    inferInstanceAs (Decidable (∀ c ∈ r.inner.connections[idx]?, c.Fits os))
  | .call => .isTrue trivial
  | .listenerReady .. => .isTrue trivial
  | .connectionError _ => .isTrue trivial
  | .poolChanged => .isTrue trivial
  | .take => .isTrue trivial
  | .connected .. => .isTrue trivial
  | .gaveUp _ => .isTrue trivial

namespace Sample

def addr : SocketAddr := ⟨.v4 1, 5540⟩

def blocked : Action := .check fun _ => .wouldBlock

def connecting (stream : List UInt8) : List Action := [.call, blocked, .listenerReady addr stream]

/-- A message of the largest size, and an empty one. -/
def large : ℕ → List (List UInt8)
  | 0 => [List.replicate maxRxLargePacketSize 0, []]
  | _ => []

def largeStream : List UInt8 := frames frameHdrLen (large 0)

def reading (n : ℕ) : Receiver :=
  ⟨⟨[⟨0, addr, largeStream.drop n, largeStream.take n⟩], 0, 1⟩, .waiting, []⟩

/-- As much as possible is read, so many times. -/
def reads : ℕ → List Action
  | 0 => []
  | k + 1 => .connectionReadable 0 (.data readLen) :: blocked :: reads k

def pipelined : List Action :=
  connecting largeStream ++ (blocked :: (reads 256 ++ [.connectionReadable 0 (.data readLen)]))

def short : ℕ → List (List UInt8)
  | 0 => [[1, 2], [3]]
  | _ => []

def shortRun : List Action :=
  connecting (frames frameHdrLen (short 0)) ++
    [Action.check fun _ => .data 5, .connectionReadable 0 (.data readLen), blocked, .take, .call, blocked, .take]

end Sample

theorem length_largeStream : Sample.largeStream.length = maxRxBufSize + frameHdrLen := by
  rw [Sample.largeStream, Sample.large, frames_cons, frames_cons, frames_nil, List.length_append,
    List.length_append, length_frame, length_frame, List.length_replicate]
  rfl

theorem hasCompleteMessage_reading {n : ℕ} (hn : n < maxRxBufSize) :
    frameLen frameHdrLen (Sample.largeStream.take n) = none := by
  have hfit : (List.replicate maxRxLargePacketSize (0 : UInt8)).length < 256 ^ frameHdrLen := by
    rw [List.length_replicate]
    decide
  rw [frameLen_of_frames hfit (List.take_append_drop n Sample.largeStream), List.length_replicate,
    if_neg]
  rw [List.length_take, length_largeStream, Nat.min_eq_left (by omega)]
  exact Nat.not_le_of_lt (by rwa [maxRxBufSize, Nat.add_comm] at hn)

theorem step_blocked {n : ℕ} (hn : n < maxRxBufSize) (N : ℕ) :
    { Sample.reading n with phase := .checking : Receiver }.step N maxRxLargePacketSize Sample.blocked =
      some (Sample.reading n) := by
  have hnone := hasCompleteMessage_reading hn
  have hfind : (Sample.reading n).inner.findReadyConnection = none := by
    simp [Sample.reading, TcpInner.findReadyConnection, TcpInner.isReady,
      TcpConnection.hasCompleteMessage, hnone, Nat.mod_one]
  have hread : (Sample.reading n).inner.tryReadAll (fun _ => .wouldBlock) =
      ((Sample.reading n).inner, none) := by
    simp [Sample.reading, TcpInner.tryReadAll, TcpInner.readAllLoop,
      TcpConnection.tryReadNonblocking, TcpConnection.hasCompleteMessage, hnone, Nat.not_le_of_lt hn]
  rw [Sample.blocked, step, if_pos rfl]
  dsimp only
  rw [hfind, hread]
  rfl

theorem data_reading {n : ℕ} (hn : n < maxRxBufSize) :
    (Sample.largeStream.drop n).take (min readLen readLen) ≠ [] := by
  rw [Ne, List.take_eq_nil_iff, List.drop_eq_nil_iff, length_largeStream, not_or]
  exact ⟨by decide, by omega⟩

theorem step_readable {n : ℕ} (hn : n + readLen < maxRxBufSize) (N cap : ℕ) :
    (Sample.reading n).step N cap (.connectionReadable 0 (.data readLen)) =
      some { Sample.reading (n + readLen) with phase := .checking } := by
  have hlen : (Sample.largeStream.take n).length = n := by
    rw [List.length_take, length_largeStream]
    omega
  have hdata : ((Sample.largeStream.drop n).take readLen).length = readLen := by
    rw [List.length_take, List.length_drop, length_largeStream]
    omega
  have hread : TcpConnection.tryReadNonblocking (.data readLen)
      ⟨0, Sample.addr, Sample.largeStream.drop n, Sample.largeStream.take n⟩ =
      (⟨0, Sample.addr, Sample.largeStream.drop (n + readLen), Sample.largeStream.take (n + readLen)⟩,
        .ok readLen) := by
    rw [TcpConnection.tryReadNonblocking]
    dsimp only
    rw [if_neg (by omega), if_neg (data_reading (by omega)), Nat.min_self, hdata, List.drop_drop,
      ← List.take_add, if_neg]
    rw [List.length_take]
    omega
  have hphase : (Sample.reading n).phase = .waiting := rfl
  have hget : (Sample.reading n).inner.connections[0]? =
      some ⟨0, Sample.addr, Sample.largeStream.drop n, Sample.largeStream.take n⟩ := rfl
  rw [step, if_pos hphase, TcpInner.readAt, hget]
  dsimp only
  rw [hread]
  rfl

theorem run_reads (N k n : ℕ) {m : ℕ} (hm : n + readLen * k = m) (hlt : m < maxRxBufSize) :
    (machine N maxRxLargePacketSize).run (Sample.reading n) (Sample.reads k) =
      some (Sample.reading m) ∧
    (machine N maxRxLargePacketSize).Meets (Quiet N Sample.large) (Sample.reading n) (Sample.reads k) := by
  induction k generalizing n with
  | zero =>
    subst hm
    exact ⟨rfl, trivial⟩
  | succ k ih =>
    rw [Nat.mul_succ, ← Nat.add_assoc, Nat.add_right_comm] at hm
    have hnext : n + readLen < maxRxBufSize := by omega
    have hreadable : (machine N maxRxLargePacketSize).step (Sample.reading n)
        (.connectionReadable 0 (.data readLen)) = _ := step_readable hnext N maxRxLargePacketSize
    have hstream : Sample.largeStream.drop n ≠ [] := by
      rw [Ne, List.drop_eq_nil_iff, length_largeStream]
      omega
    obtain ⟨hrun, hmeets⟩ := ih (n + readLen) hm
    generalize n + readLen = j at hnext hreadable hrun hmeets
    have hblocked : (machine N maxRxLargePacketSize).step
        { Sample.reading j with phase := .checking } Sample.blocked = _ := step_blocked hnext N
    rw [Sample.reads]
    constructor
    · rw [Machine.run_cons, hreadable, Option.bind_some, Machine.run_cons, hblocked, Option.bind_some,
        hrun]
    · rw [Machine.meets_cons hreadable, Machine.meets_cons hblocked]
      refine ⟨?_, fun c _ => trivial, hmeets⟩
      rintro c ⟨⟩
      exact ⟨by decide, hstream⟩

/-- A read that goes beyond the end of the first message, and over the limit. -/
theorem step_last {n : ℕ} (hn : n < maxRxBufSize) (hlast : maxRxBufSize + frameHdrLen ≤ n + readLen)
    (N cap : ℕ) : (Sample.reading n).step N cap (.connectionReadable 0 (.data readLen)) =
      some ⟨⟨[], 0, 1⟩, .checking, []⟩ := by
  have hread : (TcpConnection.tryReadNonblocking (.data readLen) ⟨0, Sample.addr,
      Sample.largeStream.drop n, Sample.largeStream.take n⟩).2 = .error .stdIoError := by
    rw [TcpConnection.tryReadNonblocking]
    dsimp only
    rw [if_neg, if_neg (data_reading hn), if_pos]
    · have hpos : 0 < frameHdrLen := by decide
      rw [List.length_append, List.length_take, List.length_take, List.length_drop,
        length_largeStream]
      omega
    · rw [List.length_take, length_largeStream]
      omega
  have hphase : (Sample.reading n).phase = .waiting := rfl
  have hget : (Sample.reading n).inner.connections[0]? =
      some ⟨0, Sample.addr, Sample.largeStream.drop n, Sample.largeStream.take n⟩ := rfl
  rw [step, if_pos hphase, TcpInner.readAt, hget]
  dsimp only
  split
  · next hok =>
    rw [hok] at hread
    cases hread
  · rfl

theorem run_connecting (cap : ℕ) (sent : ℕ → List (List UInt8)) (stream : List UInt8)
    (h : stream = frames frameHdrLen (sent 0)) :
    (machine 8 cap).run new (Sample.connecting stream) =
      some ⟨⟨[⟨0, Sample.addr, stream, []⟩], 0, 1⟩, .checking, []⟩ ∧
    (machine 8 cap).Meets (Quiet 8 sent) new (Sample.connecting stream) := by
  refine ⟨rfl, trivial, ?_⟩
  rintro _ ⟨⟩
  refine ⟨nofun, ?_⟩
  rintro _ ⟨⟩
  exact ⟨⟨by decide, h⟩, fun _ _ => trivial⟩

/-- A peer sends a message of the largest size and a further one behind it, and reads end where they
may: the connection is dropped before a message is taken. -/
theorem connection_dropped : ∃ r,
    (machine 8 maxRxLargePacketSize).Meets (Quiet 8 Sample.large) new Sample.pipelined ∧
    (machine 8 maxRxLargePacketSize).run new Sample.pipelined = some r ∧
    r.inner.nextConnId = 1 ∧ r.inner.connections = [] ∧ r.results = [] ∧
    ∀ id, ∀ msg ∈ Sample.large id, msg.length ≤ maxRxLargePacketSize := by
  obtain ⟨hstart, hquiet⟩ := run_connecting maxRxLargePacketSize Sample.large Sample.largeStream rfl
  have hzero : Sample.reading 0 = ⟨⟨[⟨0, Sample.addr, Sample.largeStream, []⟩], 0, 1⟩, .waiting, []⟩ := by
    rw [Sample.reading, List.drop_zero, List.take_zero]
  replace hstart : (machine 8 maxRxLargePacketSize).run new (Sample.connecting Sample.largeStream) =
      some { Sample.reading 0 with phase := .checking } := by
    rw [hstart, hzero]
  have hblocked : (machine 8 maxRxLargePacketSize).step { Sample.reading 0 with phase := .checking }
      Sample.blocked = some (Sample.reading 0) := step_blocked (n := 0) (by decide) 8
  -- the number of bytes is kept symbolic
  obtain ⟨n, hn⟩ : ∃ n, 0 + readLen * 256 = n := ⟨_, rfl⟩
  have hlt : n < maxRxBufSize := by
    rw [← hn]
    decide
  have hover : maxRxBufSize + frameHdrLen ≤ n + readLen := by
    rw [← hn]
    decide
  have hstream : n < maxRxBufSize + frameHdrLen := by omega
  obtain ⟨hrun, hmeets⟩ := run_reads 8 256 0 hn hlt
  have hlast : (machine 8 maxRxLargePacketSize).step (Sample.reading n)
      (.connectionReadable 0 (.data readLen)) = _ := step_last hlt hover 8 maxRxLargePacketSize
  refine ⟨⟨⟨[], 0, 1⟩, .checking, []⟩, ?_, ?_, rfl, rfl, rfl, ?_⟩
  · rw [Sample.pipelined, Machine.meets_append hstart, Machine.meets_cons hblocked,
      Machine.meets_append hrun, Machine.meets_cons hlast]
    refine ⟨hquiet, fun c _ => trivial, hmeets, ?_, trivial⟩
    rintro c ⟨⟩
    refine ⟨by decide, ?_⟩
    rw [Ne, List.drop_eq_nil_iff, length_largeStream]
    exact Nat.not_le_of_lt hstream
  · rw [Sample.pipelined, Machine.run_append, hstart, Option.bind_some, Machine.run_cons, hblocked,
      Option.bind_some, Machine.run_append, hrun, Option.bind_some, Machine.run_cons, hlast,
      Option.bind_some, Machine.run_nil]
  · intro id msg hmsg
    cases id with
    | zero =>
      rcases List.mem_cons.mp hmsg with rfl | hmsg
      · rw [List.length_replicate]
      · rw [List.mem_singleton.mp hmsg]
        exact Nat.zero_le _
    | succ id => cases hmsg

theorem reassembled_short : ∃ r,
    (machine 8 maxRxLargePacketSize).run new Sample.shortRun = some r ∧
    delivered r.results 0 = [[1, 2], [3]] ∧ r.inner.connections.map (·.connId) = [0] := by
  obtain ⟨r, hrun, hdelivered, hnext⟩ : ∃ r,
      (machine 8 maxRxLargePacketSize).run new Sample.shortRun = some r ∧
      delivered r.results 0 = [[1, 2], [3]] ∧ r.inner.nextConnId = 1 := by
    refine ⟨((machine 8 maxRxLargePacketSize).run new Sample.shortRun).getD new, ?_⟩
    decide +kernel
  have hsize : ∀ id, ∀ msg ∈ Sample.short id, msg.length ≤ maxRxLargePacketSize := by
    intro id msg hmsg
    cases id with
    | zero =>
      have hshort : ∀ msg ∈ Sample.short 0, msg.length ≤ 2 := by decide
      exact (hshort msg hmsg).trans (by decide)
    | succ id => cases hmsg
  have hids := (reassembled_of_run hsize (by decide +kernel) hrun).1
  rw [hnext] at hids
  exact ⟨r, hrun, hdelivered, hids⟩

end Receiver

end Tcp

end RsMatter
