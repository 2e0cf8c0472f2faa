import RustDesk.Common.Duplex
import RustDesk.Handshake.SecureConnection
import RustDesk.Handshake.SymbolicPrimitives

/-!
# Agreement of client and host

`secure_connection` against `create_tcp_connection` over a reliable ordered stream. A complete run of
either is one exchange (`secureConnection_finishes`, `createTcpConnection_finishes`), and the host
reads the client's answer to its own message as the client meant it (`reactToAnswer_answerFrame`).

What is left is whether both ends take part. A client without a usable host key sends an empty
message and does not wait. A host without a usable key pair sends nothing, so a client that waits
takes the host's first application message instead.
-/

namespace RustDesk.Handshake

open Dialogue

variable {B : Type} {P : Primitives B}

/-! ## Complete runs -/

/-- One connection: what the client was called with, and the host's identity, key pair and flag. -/
structure Meeting (B : Type) where
  fresh : KeyMaterial B
  peerId : String
  signedIdPk : B
  key : String
  ourSkB : B
  hostId : String
  pk : B
  sk : B
  secure : Bool

namespace Meeting

/-- The results of the two handshakes. -/
def Result (B : Type) : Side → Type
  | .controlling => Option B
  | .controlled => Bool

def proc (P : Primitives B) (x : Meeting B) : ∀ d, Dialogue B B String (Result B d)
  | .controlling => secureConnection P x.fresh x.peerId x.signedIdPk x.key
  | .controlled => createTcpConnection P x.ourSkB x.hostId x.pk x.sk x.secure

/-- In every run in which both handshakes return, both ends installed the same key or neither
installed one, and neither handshake took an application frame. -/
def Agrees (P : Primitives B) (x : Meeting B) : Prop :=
  ∀ acts c, Run Duplex.Step (Duplex.start (x.proc P)) acts c →
    (∀ d, ∃ r, c.proc d = .done (.ok r)) →
    installedKey (c.history .controlling) = installedKey (c.history .controlled) ∧
      ∀ d, ∀ t ∈ c.taken d, t.app = false

variable {x : Meeting B}

end Meeting

end RustDesk.Handshake
