import RsMatter.Machine
import RsMatter.Settings
import RsMatter.TlvCodec

/-!
# Wireless networks (`dm/networks/wireless.rs`, `dm/networks/wireless/*.rs`, `dm/clusters/net_comm.rs`)

The networks that a node may connect to are kept in a list of a fixed capacity. A Wi-Fi network
is a name with a password; a Thread network is a dataset, a string of TLVs of its own, and
its id is one of these: the dataset is parsed each time that the id is asked for. The manager
goes round the list until it is connected, and `ConnectNetwork` picks one network by its id.
-/

namespace RsMatter

namespace Wireless

open Stop Panicking

/-! ## Credentials -/

inductive WirelessCreds where
  | wifi (ssid pass : List UInt8)
  | thread (datasetTlv : List UInt8)
  deriving DecidableEq

namespace ThreadTLV

/-- The first TLV of a dataset, type and value, and what follows it. -/
def nextTlv : List UInt8 → Option ((UInt8 × List UInt8) × List UInt8)
  | tlvType :: len :: slice =>
    if len = 255 then
      match slice with
      | a :: b :: c :: slice =>
        let tlvLen := a.toNat * 2 ^ 16 + b.toNat * 2 ^ 8 + c.toNat
        if tlvLen ≤ slice.length then some ((tlvType, slice.take tlvLen), slice.drop tlvLen) else none
      | _ => none
    else if len.toNat ≤ slice.length then
      some ((tlvType, slice.take len.toNat), slice.drop len.toNat)
    else none
  | _ => none

/-- The loop of `extPanId`. -/
def extPanIdLoop : ℕ → List UInt8 → Option (List UInt8)
  | 0, _ => none
  | fuel + 1, slice =>
    match nextTlv slice with
    | none => none
    | some ((tlvType, tlvValue), slice) =>
      if tlvType = 2 then some tlvValue else extPanIdLoop fuel slice

/-- The first TLV of type 2. Every round takes two bytes. -/
def extPanId (dataset : List UInt8) : Except ErrorCode (List UInt8) :=
  match extPanIdLoop dataset.length dataset with
  | some id => .ok id
  | none => .error .invalidData

end ThreadTLV

/-- The id of the network that the credentials are for. -/
def WirelessCreds.id : WirelessCreds → Except ErrorCode (List UInt8)
  | wifi ssid _ => .ok ssid
  | thread datasetTlv => ThreadTLV.extPanId datasetTlv

/-! ## Kinds of networks -/

structure Wifi where
  ssid : HVec UInt8 32
  password : HVec UInt8 64

structure Thread where
  dataset : HVec UInt8 256

namespace Wifi

def initFrom : WirelessCreds → Except (Stop ErrorCode) Wifi
  | .wifi ssid pass => do
    let ssid ← HVec.new.extendFromSlice ssid .invalidData
    let password ← HVec.new.extendFromSlice pass .invalidData
    return ⟨ssid, password⟩
  | .thread _ => .error (.error .invalidData)

def update (_ : Wifi) : WirelessCreds → Except (Stop ErrorCode) Wifi
  | .wifi ssid pass =>
    if 32 < ssid.length then .error (.error .invalidData)
    else if 64 < pass.length then .error (.error .invalidData)
    else do
      let ssid ← HVec.new.extendUnwrap ssid
      let password ← HVec.new.extendUnwrap pass
      return ⟨ssid, password⟩
  | .thread _ => .error (.error .invalidData)

end Wifi

namespace Thread

/-- The id, which the dataset is expected to have. -/
def extPanId (network : Thread) : Except (Stop ErrorCode) (List UInt8) :=
  unwrap (ThreadTLV.extPanId network.dataset.1)

def initFrom : WirelessCreds → Except (Stop ErrorCode) Thread
  | .thread datasetTlv => do
    let dataset ← HVec.new.extendFromSlice datasetTlv .invalidData
    return ⟨dataset⟩
  | .wifi .. => .error (.error .invalidData)

def update (_ : Thread) : WirelessCreds → Except (Stop ErrorCode) Thread
  | .thread datasetTlv =>
    if 256 < datasetTlv.length then .error (.error .invalidData)
    else do
      let dataset ← HVec.new.extendUnwrap datasetTlv
      return ⟨dataset⟩
  | .wifi .. => .error (.error .invalidData)

end Thread

structure Kind (T : Type) where
  id : T → Except (Stop ErrorCode) (List UInt8)
  initFrom : WirelessCreds → Except (Stop ErrorCode) T
  update : T → WirelessCreds → Except (Stop ErrorCode) T
  creds : T → WirelessCreds
  /-- the fields that a network is stored as -/
  Fields : Type
  codec : Codec Fields
  fields : T → Fields
  ofFields : Fields → T

def wifi : Kind Wifi where
  id network := .ok network.ssid.1
  initFrom := Wifi.initFrom
  update := Wifi.update
  creds network := .wifi network.ssid.1 network.password.1
  Fields := HVec UInt8 32 × HVec UInt8 64 × Unit
  codec := .struct .struct false
    (.cons 0 (.octetsOwned 32 (by decide)) (.cons 1 (.octetsOwned 64 (by decide)) .nil))
  fields network := (network.ssid, network.password, ())
  ofFields f := ⟨f.1, f.2.1⟩

def thread : Kind Thread where
  id := Thread.extPanId
  initFrom := Thread.initFrom
  update := Thread.update
  creds network := .thread network.dataset.1
  Fields := HVec UInt8 256 × Unit
  codec := .struct .struct false (.cons 0 (.octetsOwned 256 (by decide)) .nil)
  fields network := (network.dataset, ())
  ofFields f := ⟨f.1⟩

inductive WirelessType where
  | wifi
  | thread
  deriving DecidableEq

namespace WirelessType

def Network : WirelessType → Type
  | wifi => Wifi
  | thread => Thread

def kind : (t : WirelessType) → Kind t.Network
  | wifi => Wireless.wifi
  | thread => Wireless.thread

end WirelessType

/-! ## The list of networks -/

/-- `WirelessNetworks`. -/
structure Networks (T : Type) (N : ℕ) where
  networks : HVec T N
  commissioned : Bool

namespace Networks

variable {T : Type} {N : ℕ} (kind : Kind T)

def new : Networks T N := ⟨.new, false⟩

/-- `Error` as a `NetworksError`. -/
def other {α : Type} : Except (Stop ErrorCode) α → Except (Stop NetworksError) α
  | .ok a => .ok a
  | .error (.error e) => .error (.error (.other e))
  | .error .panic => .error .panic

/-- The first network with an id, with its position. -/
def find (networkId : List UInt8) : List T → Except (Stop ErrorCode) (Option (ℕ × T))
  | [] => .ok none
  | network :: networks => do
    let id ← kind.id network
    if id = networkId then return some (0, network)
    else do
      let found ← find networkId networks
      return found.map fun (index, network) => (index + 1, network)

/-- `add_or_update`. -/
def addOrUpdate (creds : WirelessCreds) : Prog (Stop NetworksError) (Networks T N) (BitVec 8) := do
  let networkId ← Prog.ofExcept (other (lift creds.id))
  let s ← Prog.get
  let found ← Prog.ofExcept (other (find kind networkId s.networks.1))
  match found with
  | some (index, network) => do
    let network ← Prog.ofExcept (other (kind.update network creds))
    Prog.modify fun s => { s with networks := s.networks.set index network }
    return .ofNat 8 index
  | none =>
    if N ≤ s.networks.1.length then Prog.throw (.error .boundsExceeded)
    else do
      let network ← Prog.ofExcept (other (kind.initFrom creds))
      let networks ← Prog.ofExcept (other (s.networks.push network .resourceExhausted))
      Prog.modify fun s => { s with networks }
      return .ofNat 8 (networks.1.length - 1)

/-- `reorder`. -/
def reorder (index : BitVec 8) (networkId : List UInt8) :
    Prog (Stop NetworksError) (Networks T N) (BitVec 8) := do
  let s ← Prog.get
  let found ← Prog.ofExcept (other (find kind networkId s.networks.1))
  match found with
  | some (curIndex, conf) =>
    if index < .ofNat 8 s.networks.1.length then do
      let networks ← Prog.ofExcept (other ((s.networks.remove curIndex).insert index.toNat conf))
      Prog.modify fun s => { s with networks }
      return index
    else Prog.throw (.error .outOfRange)
  | none => Prog.throw (.error .networkIdNotFound)

/-- `remove`. -/
def remove (networkId : List UInt8) : Prog (Stop NetworksError) (Networks T N) (BitVec 8) := do
  let s ← Prog.get
  let found ← Prog.ofExcept (other (find kind networkId s.networks.1))
  match found with
  | some (index, _) => do
    Prog.modify fun s => { s with networks := s.networks.remove index }
    return .ofNat 8 index
  | none => Prog.throw (.error .networkIdNotFound)

/-- `reset`. -/
def reset (_ : Networks T N) : Networks T N := new

/-- `TLVSequence::ctx`. -/
def ctx (tag : BitVec 8) (seq : List UInt8) : Except (Stop ErrorCode) (List UInt8) := do
  let elem ← findCtx tag seq
  if elem.isEmpty then .error (.error .notFound) else return elem

/-- The loop that loads one network after the other. -/
def loadItems : ℕ → List UInt8 → Prog (Stop ErrorCode) (Networks T N) Unit
  | 0, _ => Prog.throw (.error .tlvTypeMismatch)
  | fuel + 1, seq => do
    let (elem, seq) ← Prog.ofExcept (iterNext seq)
    match elem with
    | none => return ()
    | some elem => do
      let s ← Prog.get
      if s.networks.1.length < N then do
        let fields ← Prog.ofExcept (initFromTlv kind.codec elem)
        let networks ← Prog.ofExcept (s.networks.push (kind.ofFields fields) .resourceExhausted)
        Prog.modify fun s => { s with networks }
        loadItems fuel seq
      else Prog.throw (.error .resourceExhausted)

/-- `load`: a structure with the networks and the flag, or, from older versions, an array of
networks. Every round but the last takes a byte. -/
def load (data : List UInt8) : Prog (Stop ErrorCode) (Networks T N) Unit := do
  Prog.modify fun s => { s with networks := .new }
  let root ← Prog.ofExcept (attempt (Panicking.structure data))
  match root with
  | .ok members => do
    let elem ← Prog.ofExcept (ctx 0 members)
    let seq ← Prog.ofExcept (Panicking.array elem)
    loadItems kind (seq.length + 1) seq
    let elem ← Prog.ofExcept (ctx 1 members)
    let commissioned ← Prog.ofExcept (Panicking.bool elem)
    Prog.modify fun s => { s with commissioned }
  | .error _ => do
    let seq ← Prog.ofExcept (Panicking.array data)
    loadItems kind (seq.length + 1) seq
    Prog.modify fun s => { s with commissioned := false }

/-- `load_persist`. -/
def loadPersist (blob : Option (List UInt8)) : Prog (Stop ErrorCode) (Networks T N) Unit := do
  Prog.modify reset
  match blob with
  | some data => load kind data
  | none => return ()

/-- `store`. -/
def store (s : Networks T N) : Prog ErrorCode WriteBuf Unit := do
  TLVWriter.start .anonymous .struct
  toTlv (.vec kind.codec N)
    ⟨s.networks.1.map kind.fields, by rw [List.length_map]; exact s.networks.2⟩ (.context 0)
  toTlv .bool s.commissioned (.context 1)
  TLVWriter.endContainer

/-- The networks behind the first one with an id. -/
def skipPast (networkId : List UInt8) : List T → Except (Stop ErrorCode) (List T)
  | [] => .ok []
  | network :: networks => do
    let id ← kind.id network
    if id = networkId then return networks else skipPast networkId networks

/-- `next_network`: the network behind the last one, or else the first one. -/
def nextNetwork (last : Option (List UInt8)) (s : Networks T N) : Except (Stop ErrorCode) (Option T) :=
  match last with
  | some last => do
    let networks ← skipPast kind last s.networks.1
    match networks with
    | network :: _ => return some network
    | [] => return s.networks.1.head?
  | none => return s.networks.1.head?

end Networks

/-! ## Connecting -/

inductive NetCtlError where
  | networkNotFound
  | unsupportedSecurity
  | authFailure
  | otherConnectionFailure
  | ipBindFailed
  | ipV6Failed
  | other (e : ErrorCode)
  deriving DecidableEq

inductive NetworkingStatus where
  | success
  | outOfRange
  | boundsExceeded
  | networkIdNotFound
  | duplicateNetworkId
  | networkNotFound
  | authFailure
  | unsupportedSecurity
  | otherConnectionFailure
  | ipV6Failed
  | ipBindFailed
  deriving DecidableEq

namespace NetworkingStatus

/-- `map`: what is left over is an error of its own. -/
def map {α : Type} : Except (Stop NetworksError) α → Except (Stop ErrorCode) (NetworkingStatus × Option α)
  | .ok a => .ok (success, some a)
  | .error (.error .networkIdNotFound) => .ok (networkIdNotFound, none)
  | .error (.error .duplicateNetworkId) => .ok (duplicateNetworkId, none)
  | .error (.error .outOfRange) => .ok (outOfRange, none)
  | .error (.error .boundsExceeded) => .ok (boundsExceeded, none)
  | .error (.error (.other e)) => .error (.error e)
  | .error .panic => .error .panic

/-- `map_ctl_status`. -/
def mapCtlStatus : Except NetCtlError Unit → Option NetworkingStatus
  | .ok () => some success
  | .error .unsupportedSecurity => some unsupportedSecurity
  | .error .authFailure => some authFailure
  | .error .ipBindFailed => some ipBindFailed
  | .error .ipV6Failed => some ipV6Failed
  | .error .otherConnectionFailure => some otherConnectionFailure
  | .error .networkNotFound => some networkNotFound
  | .error (.other _) => none

end NetworkingStatus

/-- `NetCtlState`: how the last attempt to connect went. -/
structure NetCtlState where
  networkId : HVec UInt8 32
  networkingStatus : Option NetworkingStatus

namespace NetCtlState

def new : NetCtlState := ⟨.new, none⟩

/-- `update`: remember an attempt, and hand its result on. -/
def update (networkId : Option (List UInt8)) (result : Except NetCtlError Unit) :
    Prog (Stop ErrorCode) NetCtlState (Except NetCtlError Unit) := do
  Prog.modify fun s => { s with networkId := .new }
  Prog.whenSome networkId fun networkId => do
    let s ← Prog.get
    let networkId ← Prog.ofExcept (s.networkId.extendUnwrap networkId)
    Prog.modify fun s => { s with networkId }
  Prog.modify fun s => { s with networkingStatus := NetworkingStatus.mapCtlStatus result }
  return result

/-- `NetCtlWithStatusImpl::connect`, where the controller behind it gives `result`. -/
def connect (creds : WirelessCreds) (result : Except NetCtlError Unit) :
    Prog (Stop ErrorCode) NetCtlState (Except NetCtlError Unit) :=
  match creds.id with
  | .error e => return .error (.other e)
  | .ok id => update (some id) result

end NetCtlState

/-! ## The manager -/

structure WirelessMgr where
  state : NetCtlState
  /-- how many attempts the controller has made -/
  attempts : ℕ

namespace WirelessMgr

variable {T : Type} {N : ℕ} (kind : Kind T)

/-- `next_creds`: the credentials go through a buffer of 256 bytes. -/
def nextCreds (s : Networks T N) (last : Option (List UInt8)) :
    Except (Stop ErrorCode) (Option WirelessCreds) := do
  let network ← Networks.nextNetwork kind last s
  match network with
  | none => return none
  | some network =>
    match kind.creds network with
    | .wifi ssid pass =>
      if 256 < ssid.length + pass.length then .error (.error .invalidData)
      else return some (.wifi ssid pass)
    | .thread datasetTlv =>
      if 256 < datasetTlv.length then .error (.error .invalidData)
      else return some (.thread datasetTlv)

/-- What `next_creds` gives in its first `n` calls, each with the id from the one before. -/
def visits (s : Networks T N) :
    ℕ → Option (List UInt8) → Except (Stop ErrorCode) (List WirelessCreds)
  | 0, _ => .ok []
  | n + 1, last => do
    let creds ← nextCreds kind s last
    match creds with
    | none => return []
    | some creds => do
      let id ← lift creds.id
      let visited ← visits s n (some id)
      return creds :: visited

/-- One attempt to connect; `ctl` tells how each attempt ends. -/
def attempt (ctl : ℕ → Except NetCtlError Unit) (creds : WirelessCreds) :
    Prog (Stop ErrorCode) WirelessMgr (Except NetCtlError Unit) := do
  let mgr ← Prog.get
  Prog.modify fun mgr => { mgr with attempts := mgr.attempts + 1 }
  Prog.zoom (·.state) (fun mgr state => { mgr with state })
    (NetCtlState.connect creds (ctl mgr.attempts))

/-- `connect`, with up to so many attempts. -/
def connect (ctl : ℕ → Except NetCtlError Unit) (creds : WirelessCreds) :
    ℕ → Prog (Stop ErrorCode) WirelessMgr Bool
  | 0 => return false
  | n + 1 => do
    let result ← attempt ctl creds
    match result with
    | .ok () => return true
    | .error _ => connect ctl creds n

/-- `run_connect`, for so many rounds. It is either about to pick a network, or it keeps the node
connected to one, whose credentials are `current`. The networks may be others in every round. -/
def runConnect (ctl : ℕ → Except NetCtlError Unit) (s : ℕ → Networks T N) :
    ℕ → Option WirelessCreds → HVec UInt8 32 → Prog (Stop ErrorCode) WirelessMgr Unit
  | 0, _, _ => return ()
  | rounds + 1, none, networkId => do
    let last := if networkId.1.isEmpty then none else some networkId.1
    let creds ← Prog.ofExcept (nextCreds kind (s rounds) last)
    match creds with
    | none => return ()
    | some creds => do
      let id ← Prog.ofExcept (lift creds.id)
      let networkId ← Prog.ofExcept (HVec.new.extendFromSlice id .invalidData)
      runConnect ctl s rounds (some creds) networkId
  | rounds + 1, some creds, networkId => do
    let connected ← connect ctl creds 3
    runConnect ctl s rounds (if connected then some creds else none) networkId

end WirelessMgr

/-! ## `ConnectNetwork` -/

inductive NetworkType where
  | wifi
  | thread
  | ethernet
  deriving DecidableEq

section ConnectNetwork

variable {T : Type} {N : ℕ} (kind : Kind T)

/-- The credentials of a network, which must be of the type and fit into the free space of the
response. -/
def copyCreds (netType : NetworkType) (space : ℕ) (networkId : List UInt8) (s : Networks T N) :
    Except (Stop NetworksError) WirelessCreds := do
  let found ← Networks.other (Networks.find kind networkId s.networks.1)
  match found with
  | none => .error (.error .networkIdNotFound)
  | some (_, network) =>
    match netType, kind.creds network with
    | .thread, .thread datasetTlv =>
      if space < datasetTlv.length then .error (.error (.other .constraintError))
      else return .thread datasetTlv
    | .wifi, .wifi ssid pass =>
      if space / 2 < ssid.length then .error (.error (.other .constraintError))
      else if space - space / 2 < pass.length then .error (.error (.other .constraintError))
      else return .wifi ssid pass
    | _, _ => .error (.error (.other .invalidAction))

/-- `ConnectNetwork`; `armed` is the check of the fail-safe, and the controller gives `result`. -/
def handleConnectNetwork (netType : NetworkType) (armed : Except ErrorCode Unit) (space : ℕ)
    (s : Networks T N) (networkId : List UInt8) (result : Except NetCtlError Unit) :
    Prog (Stop ErrorCode) NetCtlState NetworkingStatus := do
  Prog.ensure (networkId.length ≤ 32) (.error .constraintError)
  Prog.ensure (netType ≠ .ethernet) (.error .invalidAction)
  let (status, creds) ← Prog.ofExcept (NetworkingStatus.map (do
    Networks.other (lift armed)
    copyCreds kind netType space networkId s))
  match creds with
  | none => return status
  | some creds => do
    let result ← NetCtlState.connect creds result
    match NetworkingStatus.mapCtlStatus result, result with
    | some status, _ => return status
    | none, .error (.other e) => Prog.throw (.error e)
    | none, _ => Prog.throw .panic

end ConnectNetwork

/-! ## The store over a run -/

/-- The networks in memory, and the blob that they were stored as last. -/
structure Store (T : Type) (N : ℕ) where
  mem : Networks T N
  blob : Option (List UInt8)

namespace Store

variable {T : Type} {N : ℕ} (kind : Kind T)

def new : Store T N := ⟨.new, none⟩

inductive Action where
  | addOrUpdate (creds : WirelessCreds)
  | remove (networkId : List UInt8)
  | reorder (index : BitVec 8) (networkId : List UInt8)
  | setCommissioned (commissioned : Bool)
  /-- store the networks, with a buffer of so many bytes -/
  | store (room : ℕ)
  | load
  | reset
  | resetPersist

inductive Outcome where
  | done
  | failed
  | panicked
  deriving DecidableEq

def Outcome.of {ε α : Type} : Except (Stop ε) α → Outcome
  | .ok _ => done
  | .error (.error _) => failed
  | .error .panic => panicked

def call {ε α : Type} (s : Store T N) (m : Prog (Stop ε) (Networks T N) α) : Store T N × Outcome :=
  match m.run s.mem with
  | (mem, r) => ({ s with mem }, .of r)

/-- The store after a call, and how the call ends. -/
def perform (s : Store T N) : Action → Store T N × Outcome
  | .addOrUpdate creds => s.call (Networks.addOrUpdate kind creds)
  | .remove networkId => s.call (Networks.remove kind networkId)
  | .reorder index networkId => s.call (Networks.reorder kind index networkId)
  | .setCommissioned commissioned => ({ s with mem := { s.mem with commissioned } }, .done)
  | .store room =>
    match (Networks.store kind s.mem).run ⟨[], room⟩ with
    | (wb, .ok ()) => ({ s with blob := some wb.data }, .done)
    | (_, .error _) => (s, .failed)
  | .load => s.call (Networks.loadPersist kind s.blob)
  | .reset => ({ s with mem := s.mem.reset }, .done)
  | .resetPersist => (⟨s.mem.reset, none⟩, .done)

def machine : Machine (Store T N) Action := ⟨fun s a => some (s.perform kind a).1⟩

end Store

end Wireless

end RsMatter
