import Mathlib.Tactic.Common

/-!
# What the handshakes build on

The handshakes are written over a type `B` of byte strings and the operations they use: `sign` and
`box_` of sodiumoxide, base64, and the protobuf codecs of the messages. None of it is code of the
repository. The same handshake can then be run over real bytes, over symbolic terms, or over any
operations with the properties a result asks for.
-/

namespace RustDesk.Handshake

/-- `IdPk`. -/
structure IdPk (B : Type) where
  id : String
  pk : B
deriving DecidableEq

/-- `message::Union` as far as the handshakes tell its variants apart. -/
inductive MessageUnion (B : Type)
  | signedId (id : B)
  | publicKey (asymmetricValue symmetricValue : B)
  | other (body : B)
deriving DecidableEq

/-- `Message`. -/
structure Message (B : Type) where
  union : Option (MessageUnion B)
deriving DecidableEq

/-- `Message::new()`. -/
def Message.new {B : Type} : Message B := ⟨none⟩

/-- `punch_hole_response::Failure`. -/
inductive PunchHoleFailure
  | idNotExist
  | offline
  | licenseMismatch
  | licenseOveruse
  | unknown
deriving DecidableEq

/-- `PunchHoleRequest`. -/
structure PunchHoleRequest (B : Type) where
  id : String
  natType : ℕ
  licenceKey : String
  connType : ℕ
  token : String
  version : String
  udpPort : ℕ
  forceRelay : Bool
  socketAddrV6 : B
deriving DecidableEq

/-- `RequestRelay`. -/
structure RequestRelay where
  id : String
  uuid : String
  relayServer : String
  secure : Bool
  licenceKey : String
  connType : ℕ
  token : String
deriving DecidableEq

/-- `rendezvous_message::Union` as far as the callers tell its variants apart. -/
inductive RendezvousUnion (B : Type)
  | keyExchange (keys : List B)
  | punchHoleRequest (request : PunchHoleRequest B)
  | requestRelay (request : RequestRelay)
  | hc (token : String)
  | punchHoleResponse (socketAddr : B) (failure : PunchHoleFailure) (otherFailure : String)
  | relayResponse (refuseReason : String)
  | other (body : B)
deriving DecidableEq

/-- `RendezvousMessage`. -/
structure RendezvousMessage (B : Type) where
  union : Option (RendezvousUnion B)
deriving DecidableEq

/-- `sodiumoxide::crypto::{sign, box_}`. `boxSeal` and `boxOpen` take the other side's public key
and one's own secret key, and use the all-zero nonce. -/
structure Sodium (B : Type) where
  /-- `sign::sign`: message, secret key. -/
  sign : B → B → B
  /-- `sign::verify`: signed message, public key. -/
  verify : B → B → Option B
  /-- The public key of a secret key made by `box_::gen_keypair`. -/
  boxPk : B → B
  boxSeal : B → B → B → B
  boxOpen : B → B → B → Option B

/-- Byte strings: their length, the empty one, base64, and the protobuf codecs. -/
structure Wire (B : Type) where
  len : B → ℕ
  empty : B
  decode64 : String → Option B
  writeIdPk : IdPk B → B
  parseIdPk : B → Except String (IdPk B)
  writeMessage : Message B → B
  parseMessage : B → Except String (Message B)
  writeRendezvous : RendezvousMessage B → B
  parseRendezvous : B → Except String (RendezvousMessage B)

structure Primitives (B : Type) extends Sodium B, Wire B

/-- What a `box_::gen_keypair` and a `secretbox::gen_key` call yield, the public key aside. -/
structure KeyMaterial (B : Type) where
  boxSk : B
  key : B
deriving DecidableEq

/-- The operations do what they are for: codecs round trip, a verified message is the signed one, an
opened box holds what was sealed, and keys have their lengths. -/
structure Primitives.Correct {B : Type} (P : Primitives B) : Prop where
  len_empty : P.len P.empty = 0
  parse_writeIdPk : ∀ m, P.parseIdPk (P.writeIdPk m) = .ok m
  parse_writeMessage : ∀ m, P.parseMessage (P.writeMessage m) = .ok m
  parse_writeRendezvous : ∀ m, P.parseRendezvous (P.writeRendezvous m) = .ok m
  verify_sign : ∀ m sk pk m', P.verify (P.sign m sk) pk = some m' → m' = m
  open_seal : ∀ m sk sk', P.boxOpen (P.boxSeal m (P.boxPk sk') sk) (P.boxPk sk) sk' = some m
  len_boxPk : ∀ sk, P.len (P.boxPk sk) = 32

end RustDesk.Handshake
