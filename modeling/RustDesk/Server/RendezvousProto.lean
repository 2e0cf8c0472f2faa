import RustDesk.Server.PeerMap

/-!
# Messages of the rendezvous server

References: `rustdesk-server/libs/hbb_common/protos/rendezvous.proto`.

The fields are those that hbbs and hbbr read or write, and all fields of a message that is passed on
as a whole. A field that nothing sets is its default on the wire and is left out.
-/

namespace RustDesk.Server

/-- An enumeration field as it was received (`EnumOrUnknown`). -/
inductive EnumOrUnknown (E : Type)
  | known (e : E)
  | unknown (value : ℤ)
deriving DecidableEq

/-- `enum_value`, without the error. -/
def EnumOrUnknown.enumValue {E : Type} : EnumOrUnknown E → Option E
  | known e => some e
  | unknown _ => none

inductive NatType
  | unknownNat
  | asymmetric
  | symmetric
deriving DecidableEq

inductive ConnType
  | defaultConn
  | fileTransfer
  | portForward
  | rdp
  | viewCamera
  | terminal
deriving DecidableEq

structure RegisterPeer where
  id : String
  serial : ℤ
deriving DecidableEq

structure PunchHoleRequest where
  id : String
  natType : EnumOrUnknown NatType
  licenceKey : String
  token : String
  relayServer : String
  relayUseWss : Bool
deriving DecidableEq

structure PunchHole where
  socketAddr : List UInt8
  relayServer : String
  natType : EnumOrUnknown NatType
  relayUseWss : Bool
deriving DecidableEq

structure FetchLocalAddr where
  socketAddr : List UInt8
  relayServer : String
  relayUseWss : Bool
deriving DecidableEq

structure PunchHoleSent where
  socketAddr : List UInt8
  id : String
  relayServer : String
  natType : EnumOrUnknown NatType
  version : String
deriving DecidableEq

structure LocalAddr where
  socketAddr : List UInt8
  localAddr : List UInt8
  relayServer : String
  id : String
  version : String
deriving DecidableEq

/-- `punch_hole_response::Failure`; the first is what an answer without a failure has. -/
inductive Failure
  | idNotExist
  | offline
  | licenseMismatch
  | licenseOveruse
deriving DecidableEq

/-- The union of a `PunchHoleResponse`. -/
inductive NatOrLocal
  | natType (t : NatType)
  | isLocal (local_ : Bool)
deriving DecidableEq

structure PunchHoleResponse where
  socketAddr : List UInt8
  pk : List UInt8
  failure : Failure
  relayServer : String
  union : Option NatOrLocal
  otherFailure : String
deriving DecidableEq

def PunchHoleResponse.default : PunchHoleResponse := ⟨[], [], .idNotExist, "", none, ""⟩

structure RequestRelay where
  id : String
  uuid : String
  socketAddr : List UInt8
  relayServer : String
  secure : Bool
  licenceKey : String
  connType : EnumOrUnknown ConnType
  token : String
deriving DecidableEq

/-- The union of a `RelayResponse`. -/
inductive IdOrPk
  | id (id : String)
  | pk (pk : List UInt8)
deriving DecidableEq

structure RelayResponse where
  socketAddr : List UInt8
  uuid : String
  relayServer : String
  union : Option IdOrPk
  refuseReason : String
  version : String
  feedback : ℤ
  socketAddrV6 : List UInt8
  upnpPort : ℤ
deriving DecidableEq

/-- The accessor `id`: the id, or the empty string where the union holds none. -/
def RelayResponse.getId (rr : RelayResponse) : String :=
  match rr.union with
  | some (.id id) => id
  | _ => ""

structure RelayServerEntry where
  name : String
  region : String
  relayServer : String
  priority : ℤ
  costWeight : ℤ
  supportWss : Bool
  wsHost : String
deriving DecidableEq

structure ConfigUpdate where
  serial : ℤ
  rendezvousServers : List String
  relayServers : List RelayServerEntry
deriving DecidableEq

/-- `RendezvousMessage`, by its union. -/
inductive RendezvousMessage
  | registerPeer (rp : RegisterPeer)
  | registerPeerResponse (requestPk : Bool)
  | punchHoleRequest (ph : PunchHoleRequest)
  | punchHole (ph : PunchHole)
  | punchHoleSent (phs : PunchHoleSent)
  | punchHoleResponse (phr : PunchHoleResponse)
  | fetchLocalAddr (fla : FetchLocalAddr)
  | localAddr (la : LocalAddr)
  | configureUpdate (cu : ConfigUpdate)
  | registerPk (rk : RegisterPk)
  | registerPkResponse (result : RegisterPkResult)
  | softwareUpdate (url : String)
  | requestRelay (rf : RequestRelay)
  | relayResponse (rr : RelayResponse)
  | testNatRequest (serial : ℤ)
  | testNatResponse (port : ℤ) (cu : Option ConfigUpdate)
  | peerDiscovery
  | onlineRequest (peers : List String)
  | onlineResponse (states : List UInt8)
  | keyExchange (keys : List (List UInt8))
  | hc
deriving DecidableEq

end RustDesk.Server
