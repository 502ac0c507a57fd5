import Mathlib.Data.Nat.Basic

/-!
# What the modules share (`error.rs`, `transport/network.rs`, `dm/types.rs`)

The error codes the modelled functions return, the network addresses of peers and
the ids of the data model.
-/

namespace RsMatter

/-- The error codes of `error.rs` that a modelled function can return. -/
inductive ErrorCode where
  | bufferTooSmall
  | busy
  | commandNotFound
  | constraintError
  | duplicate
  | dynamicConstraintError
  | failSafeRequired
  | failure
  | gennCommInvalidAuthentication
  | invalid
  | invalidAction
  | invalidAuthKey
  | invalidCommand
  | invalidData
  | invalidSignature
  | invalidState
  | mdnsError
  | noExchange
  | noFabricId
  | noNodeId
  | noSession
  | noSpace
  | noSpaceExchanges
  | noSpaceSessions
  | nocFabricConflict
  | nocFabricTableFull
  | nocInvalidAdminSubject
  | nocInvalidFabricIndex
  | nocInvalidNoc
  | nocInvalidPublicKey
  | nocLabelConflict
  | nocMissingCsr
  | notFound
  | resourceExhausted
  | stdIoError
  | tlvTypeMismatch
  | truncatedPacket
  | txTimeout
  | unsupportedAccess
  deriving DecidableEq

/-- What a stream of a camera is for (`StreamUsageEnum`). -/
inductive StreamUsage where
  | internal
  | recording
  | analysis
  | liveView
  deriving DecidableEq

theorem ok_bind {ε α β : Type} (a : α) (f : α → Except ε β) : (Except.ok a >>= f) = f a := rfl

inductive IpAddr where
  | v4 (addr : BitVec 32)
  | v6 (addr : BitVec 128)
  deriving DecidableEq

structure SocketAddr where
  ip : IpAddr
  port : BitVec 16
  deriving DecidableEq

inductive Address where
  | udp (addr : SocketAddr)
  | tcp (addr : SocketAddr)
  | btp (addr : BitVec 48)
  deriving DecidableEq

/-- Does the network deliver reliably by itself? -/
def Address.isReliable : Address → Bool
  | .udp _ => false
  | .tcp _ => true
  | .btp _ => true

/-! ## Data-model ids -/

abbrev EndptId := BitVec 16

abbrev ClusterId := BitVec 32

abbrev AttrId := BitVec 32

end RsMatter
