import RsMatter.FixedCapacity
import RsMatter.Tlv
import Mathlib.Data.List.DropRight

/-!
# Discovery of commissionable devices (`transport/network/mdns.rs`)

What a responder advertises and what a commissioner asks for: the descriptions of the
two Matter services (`MatterService.service`), the filter of a search
(`CommissionableFilter`) and the device a search puts together (`DiscoveredDevice`). All
numbers travel as decimal text. The strings of a discovered device have fixed
capacities, and a text that does not fit into one of them is a panic.
-/

namespace RsMatter

/-! ## Text -/

/-- `s.trim_end_matches('.')`. -/
def trimEndDots (s : String) : String := String.ofList (s.toList.rdropWhile (· = '.'))

/-- `s.to_ascii_lowercase()`. -/
def toAsciiLowercase (s : String) : String := String.ofList (s.toList.map Char.toLower)

/-- `core::str::from_utf8(bytes)`. -/
def fromUtf8 (bytes : List UInt8) : Option String := String.fromUTF8? ⟨bytes.toArray⟩

/-- `write!(buf, "{}", v)`. -/
def decimal {w : ℕ} (v : BitVec w) : String := String.ofList (Nat.toDigits 10 v.toNat)

/-- `text.parse::<uW>()`: one plus sign may stand in front of the digits. -/
def parseDecimal (w : ℕ) (text : String) : Option (BitVec w) :=
  let digits := match text.toList with
    | '+' :: cs => cs
    | cs => cs
  if digits ≠ [] ∧ digits.all Char.isDigit ∧ Nat.ofDigitChars 10 digits 0 < 2 ^ w then
    some (BitVec.ofNat w (Nat.ofDigitChars 10 digits 0))
  else none

/-- `write!(buf, "{:016X}", v)`. -/
def hex16 (v : BitVec 64) : String :=
  String.ofList (((Nat.toDigits 16 v.toNat).map Char.toUpper).leftpad 16 '0')

/-! ## Addresses -/

def IpAddr.isUnspecified : IpAddr → Bool
  | .v4 addr => addr == 0
  | .v6 addr => addr == 0

/-- `score_ip_address`: higher is preferred. -/
def scoreIpAddress : IpAddr → ℕ
  | .v6 addr =>
    let segment := addr.extractLsb' 112 16
    if segment &&& 0xffc0 = 0xfe80 then 100
    else if segment &&& 0xfe00 = 0xfc00 then 80
    else if segment &&& 0xe000 = 0x2000 then 60
    else 40
  | .v4 _ => 20

/-! ## A discovered device -/

/-- `CommissioningMode`. -/
inductive CommissioningMode where
  | disabled
  | basic
  | enhanced
  deriving DecidableEq

namespace CommissioningMode

/-- `CommissioningMode::from_txt_value`. -/
def fromTxtValue (value : String) : CommissioningMode :=
  if value = "1" then .basic else if value = "2" then .enhanced else .disabled

/-- `is_commissionable`. -/
def isCommissionable : CommissioningMode → Bool
  | .disabled => false
  | .basic | .enhanced => true

end CommissioningMode

/-- `DiscoveredDevice<A>`. -/
structure DiscoveredDevice (A : ℕ) where
  addresses : HVec IpAddr A
  port : BitVec 16
  discriminator : BitVec 16
  vendorId : BitVec 16
  productId : BitVec 16
  commissioningMode : CommissioningMode
  /-- the device type, 0 when it is not known -/
  deviceType : BitVec 32
  /-- the retry interval of the idle mode -/
  mrpRetryIntervalIdle : Option (BitVec 32)
  /-- the retry interval of the active mode -/
  mrpRetryIntervalActive : Option (BitVec 32)
  pairingHint : Option (BitVec 16)
  pairingInstruction : HString 128
  deviceName : HString 32
  instanceName : HString 128
  deriving DecidableEq

namespace DiscoveredDevice

variable {A : ℕ}

/-- `DiscoveredDevice::new`. -/
def new : DiscoveredDevice A where
  addresses := HVec.new
  port := 0
  discriminator := 0
  vendorId := 0
  productId := 0
  commissioningMode := .disabled
  deviceType := 0
  mrpRetryIntervalIdle := none
  mrpRetryIntervalActive := none
  pairingHint := none
  pairingInstruction := HString.new
  deviceName := HString.new
  instanceName := HString.new

/-- `add_address`: keeps the addresses sorted, and drops the last one when there is no
room. -/
def addAddress (dev : DiscoveredDevice A) (addr : IpAddr) :
    Except (Stop ErrorCode) (DiscoveredDevice A) :=
  if addr ∈ dev.addresses.1 then .ok dev
  else
    let score := scoreIpAddress addr
    let pos := dev.addresses.1.findIdx fun a => scoreIpAddress a < score
    if pos < A then do
      let room := if dev.addresses.1.length ≥ A then dev.addresses.pop else dev.addresses
      let addresses ← room.insert pos addr
      .ok { dev with addresses := addresses }
    else .ok dev

/-- `set_txt_value`: the keys are compared without regard to case, other keys ignored. -/
def setTxtValue (dev : DiscoveredDevice A) (key value : String) :
    Except (Stop ErrorCode) (DiscoveredDevice A) :=
  let key := toAsciiLowercase key
  if key = "d" then
    match parseDecimal 16 value with
    | some d => .ok (if d ≤ 0xFFF then { dev with discriminator := d } else dev)
    | none => .ok dev
  else if key = "vp" then
    match value.toList.span (· ≠ '+') with
    | (vid, _ :: pid) =>
      let dev := match parseDecimal 16 (String.ofList vid) with
        | some vid => { dev with vendorId := vid }
        | none => dev
      .ok (match parseDecimal 16 (String.ofList pid) with
        | some pid => { dev with productId := pid }
        | none => dev)
    | (_, []) => .ok dev
  else if key = "cm" then
    .ok { dev with commissioningMode := CommissioningMode.fromTxtValue value }
  else if key = "dt" then
    match parseDecimal 32 value with
    | some dt => .ok { dev with deviceType := dt }
    | none => .ok dev
  else if key = "sii" then
    match parseDecimal 32 value with
    | some sii => .ok { dev with mrpRetryIntervalIdle := some sii }
    | none => .ok dev
  else if key = "sai" then
    match parseDecimal 32 value with
    | some sai => .ok { dev with mrpRetryIntervalActive := some sai }
    | none => .ok dev
  else if key = "ph" then
    match parseDecimal 16 value with
    | some ph => .ok { dev with pairingHint := some ph }
    | none => .ok dev
  else if key = "pi" then do
    let instruction ← HString.new.write value
    .ok { dev with pairingInstruction := instruction }
  else if key = "dn" then do
    let name ← HString.new.write value
    .ok { dev with deviceName := name }
  else .ok dev

/-- `set_instance_name`: written after what is there. -/
def setInstanceName (dev : DiscoveredDevice A) (name : String) :
    Except (Stop ErrorCode) (DiscoveredDevice A) := do
  let name ← dev.instanceName.write name
  .ok { dev with instanceName := name }

end DiscoveredDevice

/-! ## The filter of a search -/

/-- `CommissionableFilter`. -/
structure CommissionableFilter where
  discriminator : Option (BitVec 16)
  shortDiscriminator : Option (BitVec 8)
  vendorId : Option (BitVec 16)
  /-- the product id, compared after the search -/
  productId : Option (BitVec 16)
  deviceType : Option (BitVec 32)
  commissioningModeOnly : Bool

namespace CommissionableFilter

/-- `service_type`: the name to search under, with the first subtype there is. -/
def serviceType (filter : CommissionableFilter) (includeLocal : Bool) :
    Except (Stop ErrorCode) (HString 64) :=
  let suffix := if includeLocal then ".local" else ""
  HString.new.write <| match filter.discriminator, filter.shortDiscriminator,
      filter.vendorId, filter.deviceType, filter.commissioningModeOnly with
    | some disc, _, _, _, _ => "_L" ++ decimal disc ++ "._sub._matterc._udp" ++ suffix
    | none, some short, _, _, _ => "_S" ++ decimal short ++ "._sub._matterc._udp" ++ suffix
    | none, none, some vid, _, _ => "_V" ++ decimal vid ++ "._sub._matterc._udp" ++ suffix
    | none, none, none, some dt, _ => "_T" ++ decimal dt ++ "._sub._matterc._udp" ++ suffix
    | none, none, none, none, true => "_CM._sub._matterc._udp" ++ suffix
    | none, none, none, none, false => "_matterc._udp" ++ suffix

/-- `matches`: does the device meet what the filter asks for? -/
def Matches {A : ℕ} (filter : CommissionableFilter) (dev : DiscoveredDevice A) : Prop :=
  (∀ disc ∈ filter.discriminator, dev.discriminator = disc) ∧
  (∀ short ∈ filter.shortDiscriminator, (dev.discriminator >>> 8).setWidth 8 = short) ∧
  (∀ vid ∈ filter.vendorId, dev.vendorId = vid) ∧
  (∀ pid ∈ filter.productId, dev.productId = pid) ∧
  (∀ dt ∈ filter.deviceType, dev.deviceType = dt) ∧
  (filter.commissioningModeOnly = true → dev.commissioningMode.isCommissionable = true)

/-- What a filter may ask of a field is decided by what it asks. -/
def decidableAsked {α : Type} [DecidableEq α] (asked : Option α) (field : α) :
    Decidable (∀ x ∈ asked, field = x) :=
  Option.decidableForallMem asked

instance {A : ℕ} (filter : CommissionableFilter) (dev : DiscoveredDevice A) :
    Decidable (filter.Matches dev) :=
  have := decidableAsked filter.discriminator dev.discriminator
  have := decidableAsked filter.shortDiscriminator ((dev.discriminator >>> 8).setWidth 8)
  have := decidableAsked filter.vendorId dev.vendorId
  have := decidableAsked filter.productId dev.productId
  have := decidableAsked filter.deviceType dev.deviceType
  inferInstanceAs (Decidable (_ ∧ _))

end CommissionableFilter

/-! ## The services -/

/-- What a device's configuration says for its advertisements (`BasicInfoConfig`). -/
structure BasicInfoConfig where
  vid : BitVec 16
  pid : BitVec 16
  deviceName : String
  deviceType : Option (BitVec 16)
  pairingHint : BitVec 32
  pairingInstruction : String
  /-- the retry interval of the active mode -/
  sai : Option (BitVec 32)
  /-- the retry interval of the idle mode -/
  sii : Option (BitVec 32)
  tcpSupported : Bool

/-- `Service`: an mDNS description of a service. -/
structure Service where
  name : String
  service : String
  protocol : String
  serviceProtocol : String
  port : BitVec 16
  serviceSubtypes : List String
  /-- the keys and values of the TXT record -/
  txtKvs : List (String × String)
  deriving DecidableEq

/-- `MatterService`. -/
inductive MatterService where
  | commissioned (compressedFabricId nodeId : BitVec 64)
  | commissionable (id : BitVec 64) (discriminator : BitVec 16) (enhanced : Bool)
  deriving DecidableEq

/-- `write_split!`: the text is cut off a buffer with `room` bytes. -/
def writeSplit (room : ℕ) (text : String) : Except ErrorCode (String × ℕ) :=
  if text.utf8ByteSize ≤ room then .ok (text, room - text.utf8ByteSize)
  else .error .bufferTooSmall

/-- The decimal text of a value that may be missing, or no text. -/
def writeSplitOpt {w : ℕ} (room : ℕ) (start : String) :
    Option (BitVec w) → Except ErrorCode (String × ℕ)
  | some v => writeSplit room (start ++ decimal v)
  | none => .ok ("", room)

namespace MatterService

/-- `compute_short_discriminator`. -/
def computeShortDiscriminator (discriminator : BitVec 16) : BitVec 16 :=
  (discriminator &&& 0xF00) >>> 8

/-- `service`: the description of a service, and the bytes left of the buffer. -/
def service (s : MatterService) (devDet : BasicInfoConfig) (matterPort : BitVec 16)
    (room : ℕ) : Except ErrorCode (Service × ℕ) :=
  match s with
  | commissioned compressedFabricId nodeId => do
    let (name, room) ← writeSplit room (hex16 compressedFabricId ++ "-" ++ hex16 nodeId)
    let (subtypeI, room) ← writeSplit room ("_I" ++ hex16 compressedFabricId)
    let (txtSai, room) ← writeSplitOpt room "" devDet.sai
    let (txtSii, room) ← writeSplitOpt room "" devDet.sii
    let txtKvs := [("SAI", txtSai), ("SII", txtSii),
      ("T", if devDet.tcpSupported then "6" else ""), ("DUMMY", "DUMMY")]
    .ok ({
      name := name
      service := "_matter"
      protocol := "_tcp"
      serviceProtocol := "_matter._tcp"
      port := matterPort
      serviceSubtypes := [subtypeI]
      txtKvs := txtKvs.filter (·.2 ≠ "") }, room)
  | commissionable id discriminator enhanced => do
    let (name, room) ← writeSplit room (hex16 id)
    let (subtypeDiscr, room) ← writeSplit room ("_L" ++ decimal discriminator)
    let (subtypeShortDiscr, room) ←
      writeSplit room ("_S" ++ decimal (computeShortDiscriminator discriminator))
    let (subtypeV, room) ← writeSplit room ("_V" ++ decimal devDet.vid)
    let (subtypeT, room) ← writeSplitOpt room "_T" devDet.deviceType
    let serviceSubtypes := [subtypeDiscr, subtypeShortDiscr, subtypeV, subtypeT, "_CM"]
    let (txtDiscr, room) ← writeSplit room (decimal discriminator)
    let (txtVidPid, room) ← writeSplit room (decimal devDet.vid ++ "+" ++ decimal devDet.pid)
    let (txtSai, room) ← writeSplitOpt room "" devDet.sai
    let (txtSii, room) ← writeSplitOpt room "" devDet.sii
    let (txtDn, room) ← writeSplit room devDet.deviceName
    let (txtPi, room) ← writeSplit room devDet.pairingInstruction
    let (txtPh, room) ← writeSplit room (decimal devDet.pairingHint)
    let (txtDt, room) ← writeSplitOpt room "" devDet.deviceType
    let (txtTcp, room) ← if devDet.tcpSupported then writeSplit room "6" else .ok ("", room)
    let txtKvs := [("D", txtDiscr), ("CM", if enhanced then "2" else "1"), ("VP", txtVidPid),
      ("SAI", txtSai), ("SII", txtSii), ("DN", txtDn), ("PI", txtPi), ("PH", txtPh),
      ("DT", txtDt), ("T", txtTcp)]
    .ok ({
      name := name
      service := "_matterc"
      protocol := "_udp"
      serviceProtocol := "_matterc._udp"
      port := matterPort
      serviceSubtypes := serviceSubtypes.filter (· ≠ "")
      txtKvs := txtKvs.filter (·.2 ≠ "") }, room)

end MatterService

end RsMatter
