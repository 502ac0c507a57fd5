import RsMatter.Headers

/-!
# Status reports (`sc.rs`)

The secure channel reports with a status whether a handshake or a session comes to an end, and
how. A report is a message like others; whether it is to be acknowledged depends on its status.
-/

namespace RsMatter

/-- The status of a report of the secure channel. -/
inductive SCStatusCodes where
  | sessionEstablishmentSuccess
  | noSharedTrustRoots
  | invalidParameter
  | closeSession
  | busy
  | sessionNotFound
  deriving DecidableEq

namespace SCStatusCodes

def code : SCStatusCodes → ℕ
  | sessionEstablishmentSuccess => 0
  | noSharedTrustRoots => 1
  | invalidParameter => 2
  | closeSession => 3
  | busy => 4
  | sessionNotFound => 5

def reliable : SCStatusCodes → Bool
  | closeSession => false
  | busy => false
  | _ => true

/-- The number of the general code: success, failure or busy. -/
def generalCode : SCStatusCodes → ℕ
  | sessionEstablishmentSuccess => 0
  | closeSession => 0
  | busy => 8
  | _ => 1

def asReport (status : SCStatusCodes) (payload : List UInt8) : List UInt8 :=
  toLE 2 status.generalCode ++ toLE 4 protoIdSecureChannel.toNat ++ toLE 2 status.code ++ payload

/-- The meta-data of the report (`sc_write`). -/
def scMeta (status : SCStatusCodes) : MessageMeta :=
  ⟨protoIdSecureChannel, OpCode.statusReport, status.reliable⟩

end SCStatusCodes

/-- Does a report close the session? There are 17 general codes. -/
def isCloseSession (payload : List UInt8) : Bool :=
  8 ≤ payload.length && ofLE (payload.take 2) ≤ 16 &&
    ofLE ((payload.drop 2).take 4) == protoIdSecureChannel.toNat &&
    ofLE ((payload.drop 6).take 2) == SCStatusCodes.closeSession.code

end RsMatter
