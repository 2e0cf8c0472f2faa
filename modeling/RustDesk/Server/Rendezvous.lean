import RustDesk.Common.Run
import RustDesk.Server.PunchHole

/-!
# The rendezvous server

References: `rustdesk-server/src/rendezvous_server.rs` (`handle_tcp`, `handle_udp`,
`handle_listener_inner`, `handle_hole_sent`, `handle_local_addr`, `get_pk`, `send_to_tcp`,
`handle_tcp_punch_hole_request`, `handle_udp_punch_hole_request`, `peers_online_state`).

A connection has a sink to write to. A handler may take it out of the connection and leave it in
`tcp_punch` or `ws_map` under the address of the connection, and whoever finds it there writes to it. A
sink is named by its connection. Every message is handled by itself; the log keeps what was sent, and on
whose message.
-/

namespace RustDesk.Server

open Net Handshake

/-- Where a message comes from: a connection, or an address over UDP. -/
inductive Source (C : Type*)
  | conn (c : C)
  | udp (addr : SocketAddr)
deriving DecidableEq

/-- What the server does for a message. A forward goes to the peer that was looked up under an id, to a
sink or as a datagram. -/
inductive Effect (C : Type*)
  | send (c : C) (msg : RendezvousMessage)
  | datagram (addr : SocketAddr) (msg : RendezvousMessage)
  | forward (id : String) (dest : C ⊕ SocketAddr) (msg : RendezvousMessage)
  | setKey (c : C) (key : List UInt8)
deriving DecidableEq

/-- A connection. `isOpen` is whether its messages are still read, `hasSink` whether its sink is still
with it. -/
structure Conn where
  addr : SocketAddr
  ws : Bool
  isOpen : Bool
  hasSink : Bool
deriving DecidableEq

/-- hbbs. `registeredBy` and `log` are observations: who registered an id last and was answered OK, and
what was sent on whose message. -/
structure Rendezvous (C : Type*) where
  registry : Registry
  sessions : Sessions
  tcpPunch : SocketAddr → Option C
  wsMap : SocketAddr → Option C
  conn : C → Option Conn
  registeredBy : String → Option (Source C)
  log : List (Source C × Effect C)

/-- What a message takes from outside. The serial number and the lists of servers are those of the
handler's own clone of the server. -/
structure HbbsEnv extends PunchEnv where
  writeOk : Bool
  guid : Vector UInt8 16
  ipAllowed : Bool
  serial : ℤ
  rendezvousServers : List String
  relayEntries : List RelayServerEntry

def HbbsEnv.registerIo (env : HbbsEnv) : RegisterIo :=
  ⟨env.now, env.getPeerOk, env.writeOk, env.guid, env.ipAllowed⟩

/-- How the read loop of a connection goes on after a message. -/
inductive After
  | continue
  | stop
  | panic
deriving DecidableEq

namespace Rendezvous

variable {C : Type*}

def start (registry : Registry) (sessions : Sessions) : Rendezvous C where
  registry
  sessions
  tcpPunch := fun _ => none
  wsMap := fun _ => none
  conn := fun _ => none
  registeredBy := fun _ => none
  log := []

/-! ## Sinks -/

/-- `send_to_sink` with the connection's own sink. -/
def sendToSink (c : C) (conn : Conn) (msg : RendezvousMessage) : List (Effect C) :=
  if conn.hasSink then [.send c msg] else []

/-- `send_to_tcp` and `send_to_tcp_sync`: the sink is taken for one message. -/
def sendToTcp (s : Rendezvous C) (msg : RendezvousMessage) (addr : SocketAddr) :
    Rendezvous C × List (Effect C) :=
  match s.tcpPunch (tryIntoV4 addr) with
  | some c => ({ s with tcpPunch := Function.update s.tcpPunch (tryIntoV4 addr) none }, [.send c msg])
  | none => (s, [])

/-- `get_pk`. -/
def getPk (cfg : HbbsConfig) (env : HbbsEnv) (s : Rendezvous C) (version id : String) :
    List UInt8 × Rendezvous C :=
  match cfg.sk with
  | none => ([], s)
  | some sk =>
    if version = "" then ([], s)
    else
      match s.registry.get env.now env.getPeerOk id with
      | (some peer, registry) =>
        (cfg.sign (IdPk.writeToBytes ⟨id, peer.pk⟩) sk, { s with registry })
      | (none, registry) => ([], { s with registry })

/-- An answer of a peer goes to who asked: over UDP as a datagram, else to the sink that waits under the
address. -/
def answer (s : Rendezvous C) (msg : RendezvousMessage) (addrA : SocketAddr) (udp : Bool) :
    Rendezvous C × List (Effect C) :=
  if udp then (s, [.datagram addrA msg]) else s.sendToTcp msg addrA

/-- `handle_hole_sent`. -/
def handleHoleSent (cfg : HbbsConfig) (env : HbbsEnv) (s : Rendezvous C) (phs : PunchHoleSent)
    (addr : SocketAddr) (udp : Bool) : Rendezvous C × List (Effect C) :=
  let addrA := AddrMangle.decode phs.socketAddr
  let (pk, s) := s.getPk cfg env phs.version phs.id
  let msg := RendezvousMessage.punchHoleResponse { PunchHoleResponse.default with
    socketAddr := AddrMangle.encode env.tm addr
    pk
    relayServer := phs.relayServer
    union := phs.natType.enumValue.map .natType }
  s.answer msg addrA udp

/-- `handle_local_addr`. -/
def handleLocalAddr (cfg : HbbsConfig) (env : HbbsEnv) (s : Rendezvous C) (la : LocalAddr)
    (udp : Bool) : Rendezvous C × List (Effect C) :=
  let addrA := AddrMangle.decode la.socketAddr
  let (pk, s) := s.getPk cfg env la.version la.id
  let msg := RendezvousMessage.punchHoleResponse { PunchHoleResponse.default with
    socketAddr := la.localAddr
    pk
    relayServer := la.relayServer
    union := some (.isLocal true) }
  s.answer msg addrA udp

/-- The answer `RelayResponse` of `handle_tcp`. -/
def handleRelayResponse (cfg : HbbsConfig) (env : HbbsEnv) (s : Rendezvous C) (rr : RelayResponse)
    (addr : SocketAddr) : Rendezvous C × List (Effect C) :=
  let addrB := AddrMangle.decode rr.socketAddr
  let id := rr.getId
  let (union, s) :=
    if id ≠ "" then
      let (pk, s) := s.getPk cfg env rr.version id
      (some (.pk pk), s)
    else (rr.union, s)
  let relayServer :=
    if rr.relayServer ≠ "" then
      if isLan cfg addrB then cfg.localIp
      else if rr.relayServer = cfg.localIp then env.relayServer addr.ip addrB.ip
      else rr.relayServer
    else rr.relayServer
  s.sendToTcp (.relayResponse { rr with socketAddr := [], union, relayServer }) addrB

/-! ## Requests -/

/-- `handle_tcp_punch_hole_request`. -/
def handleTcpPunchHoleRequest (cfg : HbbsConfig) (env : HbbsEnv) (s : Rendezvous C)
    (addr : SocketAddr) (ph : PunchHoleRequest) (ws : Bool) : Rendezvous C × List (Effect C) :=
  let ((msg, toAddr), registry, sessions) :=
    handlePunchHoleRequest cfg env.toPunchEnv s.registry s.sessions addr ph ws
  let s := { s with registry, sessions }
  match toAddr with
  | some peerAddr =>
    match s.wsMap (tryIntoV4 peerAddr) with
    | some c =>
      ({ s with wsMap := Function.update s.wsMap (tryIntoV4 peerAddr) none },
        [.forward ph.id (.inl c) msg])
    | none => (s, [.forward ph.id (.inr peerAddr) msg])
  | none => s.sendToTcp msg addr

/-- `handle_udp_punch_hole_request`. -/
def handleUdpPunchHoleRequest (cfg : HbbsConfig) (env : HbbsEnv) (s : Rendezvous C)
    (addr : SocketAddr) (ph : PunchHoleRequest) : Rendezvous C × List (Effect C) :=
  let ((msg, toAddr), registry, sessions) :=
    handlePunchHoleRequest cfg env.toPunchEnv s.registry s.sessions addr ph false
  match toAddr with
  | some peerAddr => ({ s with registry, sessions }, [.forward ph.id (.inr peerAddr) msg])
  | none => ({ s with registry, sessions }, [.datagram addr msg])

/-- `update_addr` and its two answers. -/
def handleRegisterPeer (cfg : HbbsConfig) (env : HbbsEnv) (s : Rendezvous C) (rp : RegisterPeer)
    (addr : SocketAddr) : List RendezvousMessage × Rendezvous C :=
  let (requestPk, registry) := s.registry.updateAddr env.now rp.id addr (cfg.ipText addr.ip)
  let update := if env.serial > rp.serial then
    [RendezvousMessage.configureUpdate ⟨env.serial, env.rendezvousServers, env.relayEntries⟩] else []
  (.registerPeerResponse requestPk :: update, { s with registry })

/-- `handle_register_pk`, and whether it answers OK. -/
def handleRegisterPk (cfg : HbbsConfig) (env : HbbsEnv) (s : Rendezvous C) (source : Source C)
    (rk : RegisterPk) (addr : SocketAddr) (ws : Bool) :
    Except RegisterPkResult RegisterPkResult × Rendezvous C :=
  match s.registry.handleRegisterPk env.registerIo rk addr (cfg.ipText addr.ip) ws with
  | (.ok res, registry) =>
    (.ok res, { s with
      registry, registeredBy := Function.update s.registeredBy rk.id (some source) })
  | (.error e, registry) => (.error e, { s with registry })

/-- `peers_online_state`: a bit for each peer, the first in the highest bit of the first byte. -/
def peersOnlineState (s : Rendezvous C) (now : ℕ) (peers : List String) : List UInt8 :=
  let online (id : Option String) : Bool :=
    match id.bind s.registry.getInMemory with
    | some peer => peer.elapsed now < regTimeout
    | none => false
  (List.range ((peers.length + 7) / 8)).map fun i =>
    (List.range 8).foldl (fun byte j =>
      if online peers[8 * i + j]? then byte ||| (1 <<< UInt8.ofNat (7 - j)) else byte) 0

/-! ## Messages -/

/-- The key of a `KeyExchange`, where the message has two keys of the right lengths and the second can
be opened. -/
def symmetricKey (cfg : HbbsConfig) : List (List UInt8) → Option (List UInt8)
  | [theirPk, cryptobox] =>
    if theirPk.length = 32 ∧ cryptobox.length = 48 then cfg.openBox theirPk cryptobox else none
  | _ => none

section

variable [DecidableEq C]

/-- A sink is taken out of its connection, if it is there, and left in `tcp_punch`. -/
def park (s : Rendezvous C) (c : C) (conn : Conn) : Rendezvous C :=
  if conn.hasSink then
    { s with
      tcpPunch := Function.update s.tcpPunch (tryIntoV4 conn.addr) (some c)
      conn := Function.update s.conn c (some { conn with hasSink := false }) }
  else s

/-- A sink is taken out of its connection, if it is there, and left in `ws_map`. -/
def keepWs (s : Rendezvous C) (c : C) (conn : Conn) : Rendezvous C :=
  if conn.hasSink then
    { s with
      wsMap := Function.update s.wsMap (tryIntoV4 conn.addr) (some c)
      conn := Function.update s.conn c (some { conn with hasSink := false }) }
  else s

/-- `handle_tcp`. A message that cannot be parsed is `none`. -/
def handleTcp (cfg : HbbsConfig) (env : HbbsEnv) (s : Rendezvous C) (c : C) (conn : Conn) :
    Option RendezvousMessage → (Rendezvous C × List (Effect C)) × After
  | some (.registerPeer rp) =>
    if rp.id ≠ "" then
      let (answers, s) := s.handleRegisterPeer cfg env rp conn.addr
      ((s, answers.flatMap (sendToSink c conn)), .stop)
    else ((s, []), .stop)
  | some (.punchHoleRequest ph) =>
    ((s.park c conn).handleTcpPunchHoleRequest cfg env conn.addr ph conn.ws, .continue)
  | some (.requestRelay rf) =>
    let s := s.park c conn
    match s.registry.getInMemory rf.id with
    | some peer =>
      ((s, [.forward rf.id (.inr peer.socketAddr)
        (.requestRelay { rf with socketAddr := AddrMangle.encode env.tm conn.addr })]), .continue)
    | none => ((s, []), .continue)
  | some (.relayResponse rr) => (s.handleRelayResponse cfg env rr conn.addr, .stop)
  | some (.punchHoleSent phs) => (s.handleHoleSent cfg env phs conn.addr false, .stop)
  | some (.localAddr la) => (s.handleLocalAddr cfg env la false, .stop)
  | some (.testNatRequest serial) =>
    let cu := if env.serial > serial then some ⟨env.serial, env.rendezvousServers, []⟩ else none
    ((s, sendToSink c conn (.testNatResponse conn.addr.port.toNat cu)), .stop)
  | some (.registerPk rk) =>
    match s.handleRegisterPk cfg env (.conn c) rk conn.addr conn.ws with
    | (.error e, s) => ((s, sendToSink c conn (.registerPkResponse e)), .stop)
    | (.ok res, s) =>
      ((if conn.ws then s.keepWs c conn else s, sendToSink c conn (.registerPkResponse res)),
        .continue)
  | some (.keyExchange keys) =>
    if keys.length ≠ 2 then ((s, []), .stop)
    else
      match symmetricKey cfg keys with
      | some key => ((s, if conn.hasSink then [.setKey c key] else []), .continue)
      | none => ((s, []), .panic)
  | some (.onlineRequest peers) =>
    ((s, sendToSink c conn (.onlineResponse (s.peersOnlineState env.now peers))), .stop)
  | _ => ((s, []), .stop)

/-- The end of the read loop of a connection. -/
def cleanup (s : Rendezvous C) (c : C) : Rendezvous C :=
  match s.conn c with
  | some conn =>
    { s with
      tcpPunch := if conn.hasSink then s.tcpPunch
        else Function.update s.tcpPunch (tryIntoV4 conn.addr) none
      conn := Function.update s.conn c (some { conn with isOpen := false }) }
  | none => s

/-- `handle_udp`. What a `ConfigureUpdate` changes is in the environment of later messages. -/
def handleUdp (cfg : HbbsConfig) (env : HbbsEnv) (s : Rendezvous C) (addr : SocketAddr) :
    Option RendezvousMessage → Rendezvous C × List (Effect C)
  | some (.registerPeer rp) =>
    if rp.id ≠ "" then
      let (answers, s) := s.handleRegisterPeer cfg env rp addr
      (s, answers.map (.datagram addr))
    else (s, [])
  | some (.registerPk rk) =>
    match s.handleRegisterPk cfg env (.udp addr) rk addr false with
    | (.error e, s) => (s, [.datagram addr (.registerPkResponse e)])
    | (.ok res, s) => (s, [.datagram addr (.registerPkResponse res)])
  | some (.punchHoleRequest ph) => s.handleUdpPunchHoleRequest cfg env addr ph
  | some (.punchHoleSent phs) => s.handleHoleSent cfg env phs addr true
  | some (.localAddr la) => s.handleLocalAddr cfg env la true
  | some (.softwareUpdate url) =>
    if cfg.version ≠ "" ∧ url ≠ cfg.version then
      (s, [.datagram addr (.softwareUpdate cfg.softwareUrl)])
    else (s, [])
  | _ => (s, [])

end

end Rendezvous

/-- What happens at the server: a connection is accepted, sends a message or is closed, or a datagram
arrives. -/
inductive HbbsEvent (C : Type*)
  | accept (c : C) (addr : SocketAddr) (ws : Bool)
  | tcp (c : C) (env : HbbsEnv) (msg : Option RendezvousMessage)
  | close (c : C)
  | udp (addr : SocketAddr) (env : HbbsEnv) (msg : Option RendezvousMessage)

def HbbsEvent.source {C : Type*} : HbbsEvent C → Source C
  | .accept c _ _ | .tcp c _ _ | .close c => .conn c
  | .udp addr _ _ => .udp addr

namespace Rendezvous

variable {C : Type*} [DecidableEq C]

/-- What was sent is logged. -/
def record (source : Source C) (r : Rendezvous C × List (Effect C)) : Rendezvous C :=
  { r.1 with log := r.1.log ++ r.2.map fun e => (source, e) }

/-- The task of a connection panics: its read loop is over, without `cleanup`. -/
def kill (s : Rendezvous C) (c : C) : Rendezvous C :=
  { s with conn := Function.update s.conn c ((s.conn c).map fun conn => { conn with isOpen := false }) }

/-- How the read loop goes on after a message. -/
def finish (s : Rendezvous C) (c : C) : After → Rendezvous C
  | .continue => s
  | .stop => s.cleanup c
  | .panic => s.kill c

/-- A connection number is used once. -/
def step (cfg : HbbsConfig) (s : Rendezvous C) : HbbsEvent C → Option (Rendezvous C)
  | .accept c addr ws =>
    match s.conn c with
    | none => some { s with conn := Function.update s.conn c (some ⟨addr, ws, true, true⟩) }
    | some _ => none
  | .tcp c env msg =>
    match s.conn c with
    | some conn =>
      if conn.isOpen then
        let (r, after) := s.handleTcp cfg env c conn msg
        some ((record (.conn c) r).finish c after)
      else none
    | none => none
  | .close c =>
    match s.conn c with
    | some conn => if conn.isOpen then some (s.cleanup c) else none
    | none => none
  | .udp addr env msg => some (record (.udp addr) (s.handleUdp cfg env addr msg))

end Rendezvous

end RustDesk.Server
