import RsMatter.MdnsResponder

/-!
# The mDNS querier (`mdns/builtin/querier.rs`)

A response is gone through once, record by record: a PTR record names a device, and SRV,
TXT, A and AAAA records say something about the devices known so far whose names they
bear. Every name is first printed into a string of a fixed capacity.
-/

namespace RsMatter

/-- `DiscoveryState`: a device that is being put together. -/
structure DiscoveryState (A : ℕ) where
  device : DiscoveredDevice A
  hasPort : Bool
  hasTxt : Bool
  hostname : HString 64
  deriving DecidableEq

namespace DiscoveryState

variable {A : ℕ}

/-- `DiscoveryState::new`. -/
def new : DiscoveryState A := ⟨DiscoveredDevice.new, false, false, HString.new⟩

/-- `is_complete`. -/
def isComplete (state : DiscoveryState A) : Bool :=
  !state.device.addresses.1.isEmpty && state.hasPort && state.hasTxt

end DiscoveryState

/-- `names_match`. -/
def namesMatch (name1 name2 : String) : Bool :=
  toAsciiLowercase (trimEndDots name1) == toAsciiLowercase (trimEndDots name2)

section ParseResponse

variable {A : ℕ} (dns : Dns)

def forMatching (p : DiscoveryState A → Bool)
    (f : DiscoveryState A → Except (Stop ErrorCode) (DiscoveryState A))
    (states : List (DiscoveryState A)) : Except (Stop ErrorCode) (List (DiscoveryState A)) :=
  states.mapM fun state => if p state then f state else .ok state

/-- One item of a TXT record: a key, an equals sign and a value, if both are text. -/
def parseTxtItem (device : DiscoveredDevice A) (item : List UInt8) :
    Except (Stop ErrorCode) (DiscoveredDevice A) :=
  match item.span (· ≠ 61) with
  | (key, _ :: value) =>
    match fromUtf8 key, fromUtf8 value with
    | some key, some value => device.setTxtValue key value
    | _, _ => .ok device
  | (_, []) => .ok device

/-- `parse_txt_record`. -/
def parseTxtRecord (txt : List (List UInt8)) (device : DiscoveredDevice A) :
    Except (Stop ErrorCode) (DiscoveredDevice A) :=
  txt.foldlM parseTxtItem device

/-- `process_srv`. -/
def processSrv (owner : String) (port : BitVec 16) (target : String) :
    List (DiscoveryState A) → Except (Stop ErrorCode) (List (DiscoveryState A)) :=
  forMatching (fun state => namesMatch owner state.device.instanceName.1) fun state => do
    let hostname ← HString.new.write (trimEndDots target)
    .ok { state with
      device := { state.device with port := port }, hasPort := true, hostname := hostname }

/-- `process_txt`. -/
def processTxt (owner : String) (txt : List (List UInt8)) :
    List (DiscoveryState A) → Except (Stop ErrorCode) (List (DiscoveryState A)) :=
  forMatching (fun state => namesMatch owner state.device.instanceName.1) fun state => do
    let device ← parseTxtRecord txt state.device
    .ok { state with device := device, hasTxt := true }

/-- `process_a` and `process_aaaa`. -/
def processAddress (owner : String) (ip : IpAddr) :
    List (DiscoveryState A) → Except (Stop ErrorCode) (List (DiscoveryState A)) :=
  forMatching (fun state => state.hostname.1 ≠ "" && namesMatch owner state.hostname.1)
    fun state => do
      let device ← state.device.addAddress ip
      .ok { state with device := device }

/-- The device of a PTR record, if it is new and there is room for `D` devices. -/
def processPtr (D : ℕ) (instanceName : String) (states : List (DiscoveryState A)) :
    Except (Stop ErrorCode) (List (DiscoveryState A)) :=
  if !(states.any fun state => namesMatch state.device.instanceName.1 instanceName) ∧
      states.length < D then do
    let device ← DiscoveredDevice.new.setInstanceName instanceName
    .ok (states ++ [⟨device, false, false, HString.new⟩])
  else .ok states

/-- What both sections have in common: SRV, TXT, A and AAAA records. -/
def processRecord (owner : String) (data : RData) (states : List (DiscoveryState A)) :
    Except (Stop ErrorCode) (List (DiscoveryState A)) :=
  match data with
  | .srv _ _ port target => do
    let target ← (HString.new : HString 72).write (dns.display target)
    processSrv owner port target.1 states
  | .txt rdata =>
    match dns.charStrings rdata with
    | some txt => processTxt owner txt states
    | none => .ok states
  | .a addr => processAddress owner (.v4 addr) states
  | .aaaa addr => processAddress owner (.v6 addr) states
  | .ptr _ | .other _ _ => .ok states

def processAnswer (D : ℕ) (states : List (DiscoveryState A)) (record : Record) :
    Except (Stop ErrorCode) (List (DiscoveryState A)) := do
  let owner ← (HString.new : HString 128).write (dns.display record.owner)
  match record.data with
  | .ptr ptrdname =>
    let instanceName ← (HString.new : HString 128).write (dns.display ptrdname)
    processPtr D instanceName.1 states
  | data => processRecord dns owner.1 data states

def processAdditional (states : List (DiscoveryState A)) (record : Record) :
    Except (Stop ErrorCode) (List (DiscoveryState A)) := do
  let owner ← (HString.new : HString 128).write (dns.display record.owner)
  processRecord dns owner.1 record.data states

/-- `parse_response`: `data` is what the library makes of the datagram, `D` the capacity of
the list of devices. -/
def parseResponse (D : ℕ) (data : Option Message) (states : List (DiscoveryState A)) :
    Except (Stop ErrorCode) (List (DiscoveryState A)) :=
  match data with
  | none => .error (.error .mdnsError)
  | some message =>
    if !message.qr then .ok states
    else do
      let states ← message.answer.foldlM (processAnswer dns D) states
      message.additional.foldlM (processAdditional dns) states

/-- The complete devices that pass the filter (the end of `discover_commissionable`). -/
def results (filter : CommissionableFilter) (states : List (DiscoveryState A)) :
    List (DiscoveredDevice A) :=
  ((states.filter fun state => state.isComplete).map fun state => state.device).filter
    fun device => filter.Matches device

end ParseResponse

end RsMatter
