import RsMatter.Rollback

/-!
# The settings of a node (`dm/clusters/net_comm.rs`, `gen_comm.rs`, `basic_info.rs`, `dm/networks/wireless.rs`)

What a commissioner sets besides the fabric: the networks of the node, its country code
and its regulatory location. The networks are only changed in memory while the
fail-safe is armed, and stored by `CommissioningComplete`. `SetRegulatoryConfig` asks
for no fail-safe and stores at once, as a write to the `Location` attribute does.
-/

namespace RsMatter

/-! ## Networks -/

inductive NetworksError where
  | networkIdNotFound
  | duplicateNetworkId
  | outOfRange
  | boundsExceeded
  | other (e : ErrorCode)
  deriving DecidableEq

/-- A kind of wireless networks. A network is the bytes it is stored as. -/
structure WirelessNetwork (Creds : Type) where
  id : List UInt8 → List UInt8
  /-- the id of the network some credentials are for -/
  credsId : Creds → Except ErrorCode (List UInt8)
  initFrom : Creds → Except ErrorCode (List UInt8)
  update : Creds → Prog ErrorCode (List UInt8) Unit

namespace WirelessNetworks

variable {Creds : Type} (kind : WirelessNetwork Creds)

/-- Give the network at a position other credentials. -/
def updateAt (index : ℕ) (creds : Creds) : Prog NetworksError (List (List UInt8)) Unit := fun networks =>
  match (kind.update creds).run (networks.getD index []) with
  | (network, r) => (networks.set index network, r.mapError .other)

/-- Add a network or, if there is one with its id, update that. There is room for `cap`. -/
def addOrUpdate (cap : ℕ) (creds : Creds) : Prog NetworksError (List (List UInt8)) (BitVec 8) := do
  let networkId ← Prog.ofExcept ((kind.credsId creds).mapError .other)
  let networks ← Prog.get
  match networks.findIdx? (kind.id · == networkId) with
  | some index =>
    updateAt kind index creds
    return .ofNat 8 index
  | none =>
    Prog.ensure (networks.length < cap) .boundsExceeded
    let network ← Prog.ofExcept ((kind.initFrom creds).mapError .other)
    Prog.modify (· ++ [network])
    return .ofNat 8 networks.length

def reorder (index : BitVec 8) (networkId : List UInt8) :
    Prog NetworksError (List (List UInt8)) (BitVec 8) := do
  let networks ← Prog.get
  match networks.findIdx? (kind.id · == networkId) with
  | some curIndex =>
    Prog.ensure (index < .ofNat 8 networks.length) .outOfRange
    Prog.modify fun networks =>
      (networks.eraseIdx curIndex).insertIdx index.toNat (networks.getD curIndex [])
    return index
  | none => Prog.throw .networkIdNotFound

def remove (networkId : List UInt8) : Prog NetworksError (List (List UInt8)) (BitVec 8) := do
  let networks ← Prog.get
  match networks.findIdx? (kind.id · == networkId) with
  | some index =>
    Prog.modify (·.eraseIdx index)
    return .ofNat 8 index
  | none => Prog.throw .networkIdNotFound

end WirelessNetworks

/-- The status of a command about networks, and the position of the network if it succeeded. -/
inductive NetworkCommissioningStatus where
  | success (index : BitVec 8)
  | networkIdNotFound
  | duplicateNetworkId
  | outOfRange
  | boundsExceeded
  deriving DecidableEq

def NetworkCommissioningStatus.map : Except NetworksError (BitVec 8) → Except ErrorCode NetworkCommissioningStatus
  | .ok index => .ok (.success index)
  | .error .networkIdNotFound => .ok .networkIdNotFound
  | .error .duplicateNetworkId => .ok .duplicateNetworkId
  | .error .outOfRange => .ok .outOfRange
  | .error .boundsExceeded => .ok .boundsExceeded
  | .error (.other e) => .error e

namespace Device

def onNetworks (m : Prog NetworksError (List (List UInt8)) (BitVec 8)) :
    Prog ErrorCode Device NetworkCommissioningStatus := fun d =>
  match m.run d.networks.networks with
  | (networks, r) => ({ d with networks.networks := networks }, NetworkCommissioningStatus.map r)

/-- `AddOrUpdateWiFiNetwork` and `AddOrUpdateThreadNetwork`. -/
def handleAddOrUpdateNetwork {Creds : Type} (kind : WirelessNetwork Creds) (cap : ℕ) (sess : StampedSession)
    (creds : Creds) : Prog ErrorCode Device NetworkCommissioningStatus :=
  withArmedFailsafe sess.mode (onNetworks (WirelessNetworks.addOrUpdate kind cap creds))

/-- `RemoveNetwork`. -/
def handleRemoveNetwork {Creds : Type} (kind : WirelessNetwork Creds) (sess : StampedSession)
    (networkId : List UInt8) : Prog ErrorCode Device NetworkCommissioningStatus :=
  withArmedFailsafe sess.mode (onNetworks (WirelessNetworks.remove kind networkId))

/-- `ReorderNetwork`. -/
def handleReorderNetwork {Creds : Type} (kind : WirelessNetwork Creds) (sess : StampedSession)
    (index : BitVec 8) (networkId : List UInt8) : Prog ErrorCode Device NetworkCommissioningStatus :=
  withArmedFailsafe sess.mode (onNetworks (WirelessNetworks.reorder kind index networkId))

end Device

/-! ## Basic information -/

inductive RegulatoryLocationType where
  | indoor
  | outdoor
  | indoorOutdoor
  deriving DecidableEq

structure BasicInfoSettings where
  location : Option String
  locationType : RegulatoryLocationType
  deriving DecidableEq

namespace BasicInfoSettings

def new : BasicInfoSettings := ⟨none, .indoorOutdoor⟩

/-- Set the country code; `XX` stands for none. -/
def setLocation (location : String) (info : BasicInfoSettings) : BasicInfoSettings :=
  { info with location := if location = "XX" then none else some location }

end BasicInfoSettings

/-! ## The node with its settings -/

structure MatterState where
  device : Device
  basicInfoSettings : BasicInfoSettings
  /-- the basic information as it is stored -/
  kvBasicInfo : Option BasicInfoSettings

namespace MatterState

def factoryNew : MatterState := ⟨.factoryNew, .new, none⟩

/-- The basic information a restart would find. -/
def storedBasicInfo (s : MatterState) : BasicInfoSettings := s.kvBasicInfo.getD .new

/-- Store the basic information, if storage works. -/
def storeBasicInfo (works : Bool) : Prog ErrorCode MatterState Unit := do
  Prog.ensure works .stdIoError
  Prog.modify fun s => { s with kvBasicInfo := some s.basicInfoSettings }

/-- Does a node that may be used at `cap` support a regulatory location? -/
def isRegulatoryConfigSupported (cap newConfig : RegulatoryLocationType) : Bool :=
  match cap with
  | .indoor => newConfig == .indoor
  | .outdoor => newConfig == .outdoor
  | .indoorOutdoor => true

/-- The status of `SetRegulatoryConfig`. -/
inductive RegulatoryStatus where
  | ok
  | valueOutsideRange
  deriving DecidableEq

/-- `SetRegulatoryConfig`. A regulatory location we do not know is `none`. -/
def handleSetRegulatoryConfig (cap : RegulatoryLocationType) (works : Bool) (countryCode : String)
    (newRegulatoryConfig : Option RegulatoryLocationType) (breadcrumb : BitVec 64) :
    Prog ErrorCode MatterState RegulatoryStatus := do
  Prog.ensure (countryCode.utf8ByteSize = 2) .constraintError
  match newRegulatoryConfig.filter (isRegulatoryConfigSupported cap) with
  | none => return .valueOutsideRange
  | some locationType =>
    Prog.modify fun s =>
      { s with
        basicInfoSettings := { s.basicInfoSettings.setLocation countryCode with locationType }
        device.failsafe.breadcrumb := breadcrumb }
    storeBasicInfo works
    return .ok

/-- A write to the `Location` attribute. -/
def handleSetLocation (works : Bool) (location : String) : Prog ErrorCode MatterState Unit := do
  Prog.ensure (location.utf8ByteSize = 2) .constraintError
  Prog.modify fun s => { s with basicInfoSettings := s.basicInfoSettings.setLocation location }
  storeBasicInfo works

/-- What can happen to the node and its settings. -/
inductive Action (Creds : Type) where
  | device (a : Device.Action)
  | addOrUpdateNetwork (id : BitVec 32) (creds : Creds)
  | removeNetwork (id : BitVec 32) (networkId : List UInt8)
  | reorderNetwork (id : BitVec 32) (index : BitVec 8) (networkId : List UInt8)
  | setRegulatoryConfig (id : BitVec 32) (works : Bool) (countryCode : String)
      (newRegulatoryConfig : Option RegulatoryLocationType) (breadcrumb : BitVec 64)
  | setLocation (id : BitVec 32) (works : Bool) (location : String)

structure Config (Creds : Type) where
  crypto : Crypto
  kind : WirelessNetwork Creds
  /-- how many networks there is room for -/
  cap : ℕ
  locationCap : RegulatoryLocationType

/-- A command about networks that came in on a session. -/
def onSession (s : MatterState) (id : BitVec 32)
    (m : StampedSession → Prog ErrorCode Device NetworkCommissioningStatus) : Option MatterState :=
  (s.device.sessions.get id).map fun sess => { s with device := ((m sess).run s.device).1 }

/-- The node after something has happened to it. A restart loads the basic information, too. -/
def step {Creds : Type} (cfg : Config Creds) (s : MatterState) : Action Creds → Option MatterState
  | .device .restart =>
    s.device.restart.map fun device => { s with device, basicInfoSettings := s.storedBasicInfo }
  | .device a => (Device.step cfg.crypto s.device a).map fun device => { s with device }
  | .addOrUpdateNetwork id creds =>
    s.onSession id fun sess => Device.handleAddOrUpdateNetwork cfg.kind cfg.cap sess creds
  | .removeNetwork id networkId =>
    s.onSession id fun sess => Device.handleRemoveNetwork cfg.kind sess networkId
  | .reorderNetwork id index networkId =>
    s.onSession id fun sess => Device.handleReorderNetwork cfg.kind sess index networkId
  | .setRegulatoryConfig id works countryCode newRegulatoryConfig breadcrumb =>
    (s.device.sessions.get id).map fun _ =>
      ((handleSetRegulatoryConfig cfg.locationCap works countryCode newRegulatoryConfig breadcrumb).run s).1
  | .setLocation id works location =>
    (s.device.sessions.get id).map fun _ => ((handleSetLocation works location).run s).1

def machine {Creds : Type} (cfg : Config Creds) : Machine MatterState (Action Creds) := ⟨step cfg⟩

end MatterState

end RsMatter
