import RustDesk.Net.RawSwitch
import RustDesk.PortForward.HostLogin

/-!
# A port-forward tunnel

References: `src/port_forward.rs` (`connect_and_login`, `run_forward`) and
`src/server/connection.rs` (`start`, `try_port_forward_loop`).

Client and host frame their messages until each leaves its loop and calls `set_raw`: the client when
it takes a login response off the stream, the host when a port forward is ready to run. From then on
either one copies bytes between the stream and its TCP socket.

The bytes of a message are whatever the other end parses as that message. An end may be done with the
stream at any time.
-/

namespace RustDesk.PortForward

open Net Connection

/-- What `Message::parse_from_bytes` makes of a frame, at the host and at the client. -/
structure Parsers where
  message : Bytes → Option Message
  effect : Bytes → Option Effect

/-- Both ends and what is between them. `pendingToHost` and `pendingToClient` record the messages
that were framed and not taken off the stream yet, `sentByClient` and `sentByHost` the bytes that
were sent raw. -/
structure Tunnel (K : Type*) where
  host : Host
  hostPhase : Phase
  hostStream : FramedStream K
  clientPhase : Phase
  clientStream : FramedStream K
  /-- Whether the client sent a login request. -/
  asked : Bool
  /-- `buffer`: what the client read from its local socket before the login response. -/
  buffer : Bytes
  wireToHost : Bytes
  wireToClient : Bytes
  pendingToHost : List Bytes
  pendingToClient : List Bytes
  sentByClient : Bytes
  sentByHost : Bytes
  /-- What the host wrote to the forwarded socket. -/
  forwarded : Bytes
  /-- What the client wrote to its local socket. -/
  delivered : Bytes

/-- The tunnel when the host enters its loop. -/
def Tunnel.start {K : Type*} (host : Host) (hostStream clientStream : FramedStream K) : Tunnel K where
  host := host
  hostPhase := .framed
  hostStream := hostStream
  clientPhase := .framed
  clientStream := clientStream
  asked := false
  buffer := []
  wireToHost := []
  wireToClient := []
  pendingToHost := []
  pendingToClient := []
  sentByClient := []
  sentByHost := []
  forwarded := []
  delivered := []

inductive TunnelAction
  /-- The local socket has bytes for the client. -/
  | localBytes (bytes : Bytes)
  /-- The client sends a login request, for `handle_hash` or for the user. -/
  | login (bytes : Bytes)
  /-- The user enters a code at the client. -/
  | code (bytes : Bytes)
  /-- Up to `n` bytes reach the client. -/
  | clientArrive (n : ℕ)
  /-- The client polls its stream. `keep` is what `handle_login_error` returns, `reply` is a frame for
  the reply to a probe. -/
  | clientNext (keep : Bool) (reply : Bytes)
  | clientEnded
  /-- Up to `n` bytes reach the host. -/
  | hostArrive (n : ℕ)
  /-- The host polls its stream, and sends `frames` if it frames them. -/
  | hostNext (env : Env) (frames : List Bytes)
  /-- The user clicks on accept, in the window that a login put up. -/
  | click (env : Env) (frames : List Bytes)
  /-- `test_delay_timer` ticks. -/
  | timer (env : Env) (frames : List Bytes)
  /-- The forwarded socket has bytes for the host. -/
  | forwardBytes (bytes : Bytes)
  | hostEnded

namespace Tunnel

variable {K : Type*} (p : Parsers) (box : SecretBox K) (b : Build)

/-! ## The client -/

/-- `stream.send` at the client. A message that the codec refuses is no step. -/
def clientSend (t : Tunnel K) (msg : Bytes) : Option (Tunnel K) :=
  match t.clientStream.sendRaw box msg with
  | (.ok frame, s) => some
    { t with
      clientStream := s
      wireToHost := t.wireToHost ++ frame
      pendingToHost := t.pendingToHost ++ [msg] }
  | (.error _, _) => none

/-- What the client reads from its local socket: buffered, and sent on once the stream is raw. -/
def onLocalBytes (t : Tunnel K) (bytes : Bytes) : Option (Tunnel K) :=
  match t.clientPhase with
  | .framed => some { t with buffer := t.buffer ++ bytes }
  | .raw => some
    { t with
      wireToHost := t.wireToHost ++ bytes
      sentByClient := t.sentByClient ++ bytes }
  | .ended => none

/-- A login request for a port forward. -/
def isForwardRequest : Option Message → Bool
  | some (.loginRequest lr) =>
    match lr.union with
    | some (.portForward _) => true
    | _ => false
  | _ => false

/-- A code for the second factor. -/
def isCode : Option Message → Bool
  | some (.auth2fa _) => true
  | _ => false

/-- The reply to a probe. -/
def isReply (m : Option Message) : Bool := m = some (.testDelay false)

/-- The end of the loop of `connect_and_login`: `set_raw`, then the buffer. -/
def clientSetRaw (t : Tunnel K) : Tunnel K :=
  { t with
    clientPhase := .raw
    clientStream := t.clientStream.setRaw
    wireToHost := t.wireToHost ++ t.buffer
    sentByClient := t.sentByClient ++ t.buffer
    buffer := [] }

/-- A message in the loop of `connect_and_login`. -/
def clientMessage (t : Tunnel K) (keep : Bool) (reply bytes : Bytes) : Option (Tunnel K) :=
  match p.effect bytes with
  | none => some { t with clientPhase := .ended }
  | some (.loginError ..) | some (.loginResponse (.error _)) =>
    if keep then some t else some { t with clientPhase := .ended }
  | some (.loginResponse (.ok _)) => some t.clientSetRaw
  | some .testDelay =>
    -- `handle_test_delay` sends the message back
    if isReply (p.message reply) then t.clientSend box reply else none
  | some _ => some t

/-- A poll of the stream at the client. -/
def onClientNext (t : Tunnel K) (keep : Bool) (reply : Bytes) : Option (Tunnel K) :=
  match t.clientPhase, t.clientStream.pollNext box with
  | .ended, _ => none
  | _, (none, s) => some { t with clientStream := s }
  | _, (some (.error _), s) => some { t with clientStream := s, clientPhase := .ended }
  | .framed, (some (.ok bytes), s) =>
    { t with clientStream := s, pendingToClient := t.pendingToClient.tail }.clientMessage p box keep
      reply bytes
  | .raw, (some (.ok bytes), s) => some
    { t with clientStream := s, delivered := t.delivered ++ bytes }

/-! ## The host -/

/-- `stream.send` at the host, for one message after the other. -/
def sendAll (s : FramedStream K) : List Bytes → Option (Bytes × FramedStream K)
  | [] => some ([], s)
  | m :: ms =>
    match s.sendRaw box m with
    | (.ok frame, s) => (sendAll s ms).map fun (frames, s) => (frame ++ frames, s)
    | (.error _, _) => none

/-- Whether a turn of the loop that leaves it has a socket to go on with. `on_close`, which follows a
close reason, drops the socket. -/
def leaves (h h' : Host) : Bool :=
  !h'.isOpen && h'.conn.portForwardSocket.isSome &&
    !(sentToPeer h h').any fun
      | .closeReason _ => true
      | _ => false

/-- A turn of the loop of `start`: what it has for the peer is framed, and behind the loop
`try_port_forward_loop` calls `set_raw`. -/
def hostTurn (t : Tunnel K) (h' : Host) (frames : List Bytes) : Option (Tunnel K) :=
  if frames.map p.effect = (sentToPeer t.host h').map some then
    (sendAll box t.hostStream frames).map fun (bytes, s) =>
      let t' := { t with
        host := h'
        hostStream := s
        wireToClient := t.wireToClient ++ bytes
        pendingToClient := t.pendingToClient ++ frames }
      if h'.isOpen then t'
      else if leaves t.host h' then { t' with hostPhase := .raw, hostStream := s.setRaw }
      else { t' with hostPhase := .ended }
  else none

/-- A poll of the stream at the host. A frame that does not parse is passed over. -/
def onHostNext (t : Tunnel K) (env : Env) (frames : List Bytes) : Option (Tunnel K) :=
  match t.hostPhase, t.hostStream.pollNext box with
  | .ended, _ => none
  | _, (none, s) => some { t with hostStream := s }
  | _, (some (.error _), s) => some { t with hostStream := s, hostPhase := .ended }
  | .framed, (some (.ok bytes), s) =>
    let t := { t with hostStream := s, pendingToHost := t.pendingToHost.tail }
    match p.message bytes with
    | none => some t
    | some msg => (Connection.step b t.host (.message env msg)).bind (t.hostTurn p box · frames)
  | .raw, (some (.ok bytes), s) => some
    { t with hostStream := s, forwarded := t.forwarded ++ bytes }

/-- A turn of the loop of `start` that no message starts. -/
def onHostEvent (t : Tunnel K) (e : Event) (frames : List Bytes) : Option (Tunnel K) :=
  if t.hostPhase = .framed then (Connection.step b t.host e).bind (t.hostTurn p box · frames)
  else none

/-! ## Both -/

/-- One step of the tunnel. -/
def step (t : Tunnel K) : TunnelAction → Option (Tunnel K)
  | .localBytes bytes => t.onLocalBytes bytes
  | .login bytes =>
    if t.clientPhase = .framed ∧ isForwardRequest (p.message bytes) then
      { t with asked := true }.clientSend box bytes
    else none
  | .code bytes =>
    if t.clientPhase = .framed ∧ t.asked ∧ isCode (p.message bytes) then t.clientSend box bytes
    else none
  | .clientArrive n => some
    { t with
      clientStream := { t.clientStream with
        readBuf := t.clientStream.readBuf ++ t.wireToClient.take n }
      wireToClient := t.wireToClient.drop n }
  | .clientNext keep reply => t.onClientNext p box keep reply
  | .clientEnded => some { t with clientPhase := .ended }
  | .hostArrive n => some
    { t with
      hostStream := { t.hostStream with readBuf := t.hostStream.readBuf ++ t.wireToHost.take n }
      wireToHost := t.wireToHost.drop n }
  | .hostNext env frames => t.onHostNext p box b env frames
  | .click env frames =>
    if (lastLogin t.host.log).isSome then t.onHostEvent p box b (.authorize env) frames else none
  | .timer env frames => t.onHostEvent p box b (.testDelayTimer env) frames
  | .forwardBytes bytes =>
    if t.hostPhase = .raw then some
      { t with
        wireToClient := t.wireToClient ++ bytes
        sentByHost := t.sentByHost ++ bytes }
    else none
  | .hostEnded => some { t with hostPhase := .ended }

/-- **Only tunnel bytes**: what either end wrote to its socket is the beginning of what the other one
sent raw, and all of it once nothing is under way. -/
structure Faithful (t : Tunnel K) : Prop where
  forwarded : t.forwarded <+: t.sentByClient
  delivered : t.delivered <+: t.sentByHost
  all_forwarded : t.hostPhase = .raw → t.hostStream.readBuf = [] → t.wireToHost = [] →
    t.forwarded = t.sentByClient
  all_delivered : t.clientPhase = .raw → t.clientStream.readBuf = [] → t.wireToClient = [] →
    t.delivered = t.sentByHost

/-- What keeps the framed messages out of the raw bytes. When a click makes the host leave its loop,
no probe is unanswered and no message of the client is under way; when a message does, no other
message of the client is. The client logs in while the host is in its loop, and no code reaches a host
that is authorized and closes connections for messages out of scope. -/
def Quiet (t : Tunnel K) : TunnelAction → Prop
  | .login _ | .code _ => t.hostPhase = .framed
  | .click env _ => ∀ h', Connection.step b t.host (.authorize env) = some h' → leaves t.host h' →
    t.host.conn.lastTestDelay = none ∧ t.pendingToHost = []
  | .hostNext env _ => t.hostPhase = .framed → ∀ bytes s msg,
    t.hostStream.pollNext box = (some (.ok bytes), s) → p.message bytes = some msg →
      (t.host.conn.authorized → isCode (some msg) →
        allowOption2bool (env.option "allow-scope-violation-close") = false) ∧
      ∀ h', Connection.step b t.host (.message env msg) = some h' → leaves t.host h' →
        t.pendingToHost.tail = []
  | _ => True

end Tunnel

end RustDesk.PortForward
