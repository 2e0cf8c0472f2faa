import RustDesk.Server.Rendezvous

/-!
# Steps of the rendezvous server

What one event does to each part of the server: which sinks move, which peers change, and what is sent.
`TcpActs` lists what `handle_tcp` can do; what later modules need to know of a step is derived from it.
-/

namespace RustDesk.Server

open Net

/-- Who an answer of a peer is for: it says so itself. -/
def RendezvousMessage.answerTo : RendezvousMessage → Option SocketAddr
  | .relayResponse rr => some (AddrMangle.decode rr.socketAddr)
  | .punchHoleSent phs => some (AddrMangle.decode phs.socketAddr)
  | .localAddr la => some (AddrMangle.decode la.socketAddr)
  | _ => none

/-- The id that an answer names, and the version it gives. -/
def RendezvousMessage.names : RendezvousMessage → Option (String × String)
  | .relayResponse rr => some (rr.getId, rr.version)
  | .punchHoleSent phs => some (phs.id, phs.version)
  | .localAddr la => some (la.id, la.version)
  | _ => none

/-- The message is a request, for which the sink of its connection is left in `tcp_punch`. -/
def IsRequest (msg : Option RendezvousMessage) : Prop :=
  (∃ ph, msg = some (.punchHoleRequest ph)) ∨ ∃ rf, msg = some (.requestRelay rf)

/-- The key in a response. -/
def RendezvousMessage.pk : RendezvousMessage → List UInt8
  | .punchHoleResponse phr => phr.pk
  | .relayResponse ⟨_, _, _, some (.pk pk), _, _, _, _, _⟩ => pk
  | _ => []

/-- A message for who sent one. -/
def Effect.IsReply {C : Type*} (c : C) : Effect C → Prop
  | .send c' _ => c' = c
  | .datagram _ _ | .setKey _ _ | .forward _ _ _ => False

/-- Something that goes to no sink and to no peer. -/
def Effect.IsDatagram {C : Type*} : Effect C → Prop
  | .datagram _ _ => True
  | .send _ _ | .setKey _ _ | .forward _ _ _ => False

/-- What may become of a connection: it keeps its address, and a sink that is gone does not come back. -/
def Conn.Later (conn conn' : Conn) : Prop :=
  conn'.addr = conn.addr ∧ conn'.ws = conn.ws ∧ (conn.hasSink = false → conn'.hasSink = false)

theorem Conn.Later.refl (conn : Conn) : Conn.Later conn conn := ⟨rfl, rfl, id⟩

theorem Conn.Later.trans {conn conn' conn'' : Conn} (h : conn.Later conn') (h' : conn'.Later conn'') :
    conn.Later conn'' :=
  ⟨h'.1.trans h.1, h'.2.1.trans h.2.1, fun hsink => h'.2.2 (h.2.2 hsink)⟩

namespace Rendezvous

variable {C : Type*} {cfg : HbbsConfig} {env : HbbsEnv} {s t : Rendezvous C} {addr : SocketAddr}
  {u : Rendezvous C} {effs : List (Effect C)} {ev : HbbsEvent C} {after : After} {c : C} {e : Effect C}
  {msg : Option RendezvousMessage}

/-! ## Handlers -/

/-- A message for the sink under an address: the place is empty afterwards. -/
theorem sendToTcp_eq (s : Rendezvous C) (msg : RendezvousMessage) (addr : SocketAddr) :
    s.sendToTcp msg addr = ({ s with tcpPunch := Function.update s.tcpPunch (tryIntoV4 addr) none },
        (s.tcpPunch (tryIntoV4 addr)).toList.map fun c => .send c msg) := by
  unfold sendToTcp
  cases hsink : s.tcpPunch (tryIntoV4 addr) with
  | some c => rfl
  | none =>
    have hsame : Function.update s.tcpPunch (tryIntoV4 addr) none = s.tcpPunch := by
      rw [← hsink, Function.update_eq_self]
    rw [hsame]
    rfl

/-- The peers in memory after a look at one of them. -/
def Looked (env : HbbsEnv) (s : Rendezvous C) (registry : Registry) : Prop :=
  registry = s.registry ∨ ∃ id, registry = (s.registry.get env.now env.getPeerOk id).2

/-- `get_pk` changes the peers in memory only. -/
theorem getPk_snd (cfg : HbbsConfig) (env : HbbsEnv) (s : Rendezvous C) (version id : String) :
    ∃ registry, (s.getPk cfg env version id).2 = { s with registry } ∧ Looked env s registry := by
  unfold getPk
  cases cfg.sk with
  | none => exact ⟨s.registry, rfl, .inl rfl⟩
  | some sk =>
    by_cases hversion : version = ""
    · exact ⟨s.registry, by simp [hversion], .inl rfl⟩
    · refine ⟨(s.registry.get env.now env.getPeerOk id).2, ?_, .inr ⟨id, rfl⟩⟩
      generalize s.registry.get env.now env.getPeerOk id = r
      obtain ⟨peer, registry⟩ := r
      cases peer <;> simp [hversion]

/-- What comes of an answer: the peers may be looked at, and the sink under the address that it gives
gets a message, whose key is that of the id that it names. -/
def Answered (cfg : HbbsConfig) (env : HbbsEnv) (s : Rendezvous C) (m : RendezvousMessage)
    (addr : SocketAddr) (r : Rendezvous C × List (Effect C)) : Prop :=
  ∃ registry reply, Looked env s registry ∧
    r = ({ s with registry, tcpPunch := Function.update s.tcpPunch (tryIntoV4 addr) none },
      (s.tcpPunch (tryIntoV4 addr)).toList.map fun c => .send c reply) ∧
    ∀ id version, m.names = some (id, version) → id ≠ "" → reply.pk = (s.getPk cfg env version id).1

theorem Answered.of_sendToTcp {m reply : RendezvousMessage}
    (hu : ∃ registry, u = { s with registry } ∧ Looked env s registry)
    (hpk : ∀ id version, m.names = some (id, version) → id ≠ "" → reply.pk = (s.getPk cfg env version id).1) :
    Answered cfg env s m addr (u.sendToTcp reply addr) := by
  obtain ⟨registry, rfl, hlooked⟩ := hu
  exact ⟨registry, reply, hlooked, by rw [sendToTcp_eq], hpk⟩

/-- An answer empties the place under the address that it gives, and changes nothing else but the peers
in memory. -/
theorem Answered.state {m : RendezvousMessage} (h : Answered cfg env s m addr (u, effs)) :
    ∃ registry, Looked env s registry ∧
      u = { s with registry, tcpPunch := Function.update s.tcpPunch (tryIntoV4 addr) none } := by
  obtain ⟨registry, reply, hlooked, hu, -⟩ := h
  exact ⟨registry, hlooked, (Prod.mk.inj hu).1⟩

theorem handleHoleSent_answered (phs : PunchHoleSent) (addr : SocketAddr) :
    Answered cfg env s (.punchHoleSent phs) (AddrMangle.decode phs.socketAddr)
      (s.handleHoleSent cfg env phs addr false) := by
  refine .of_sendToTcp (getPk_snd cfg env s phs.version phs.id) ?_
  rintro id version hnames -
  obtain ⟨rfl, rfl⟩ : phs.id = id ∧ phs.version = version := by simpa [RendezvousMessage.names] using hnames
  rfl

theorem handleLocalAddr_answered (la : LocalAddr) :
    Answered cfg env s (.localAddr la) (AddrMangle.decode la.socketAddr) (s.handleLocalAddr cfg env la false) := by
  refine .of_sendToTcp (getPk_snd cfg env s la.version la.id) ?_
  rintro id version hnames -
  obtain ⟨rfl, rfl⟩ : la.id = id ∧ la.version = version := by simpa [RendezvousMessage.names] using hnames
  rfl

/-- A `RelayResponse` without an id is passed on with what it holds. -/
theorem handleRelayResponse_answered (rr : RelayResponse) (addr : SocketAddr) :
    Answered cfg env s (.relayResponse rr) (AddrMangle.decode rr.socketAddr)
      (s.handleRelayResponse cfg env rr addr) := by
  by_cases hid : rr.getId = ""
  · rw [handleRelayResponse]
    simp only [hid, ne_eq, not_true_eq_false, if_false]
    refine .of_sendToTcp ⟨s.registry, rfl, .inl rfl⟩ ?_
    intro id version hnames hne
    obtain ⟨rfl, -⟩ : rr.getId = id ∧ rr.version = version := by simpa [RendezvousMessage.names] using hnames
    exact absurd hid hne
  · rw [handleRelayResponse]
    simp only [hid, ne_eq, not_false_eq_true, if_true]
    refine .of_sendToTcp (getPk_snd cfg env s rr.version rr.getId) ?_
    rintro id version hnames -
    obtain ⟨rfl, rfl⟩ : rr.getId = id ∧ rr.version = version := by
      simpa [RendezvousMessage.names] using hnames
    rfl

/-! ## What a message does -/

section

variable [DecidableEq C]

/-- What `handle_tcp` can do for a message: the server after it, what is sent, and how the loop goes
on. -/
inductive TcpActs (cfg : HbbsConfig) (env : HbbsEnv) (s : Rendezvous C) (c : C) (conn : Conn) :
    Option RendezvousMessage → Rendezvous C → List (Effect C) → After → Prop
  | quiet {msg : Option RendezvousMessage} {effs : List (Effect C)} {after : After}
      (hmsg : ¬ IsRequest msg) (hreply : ∀ e ∈ effs, e.IsReply c) :
      TcpActs cfg env s c conn msg s effs after
  | keyExchange {keys : List (List UInt8)} {effs : List (Effect C)} {after : After}
      (hset : ∀ e ∈ effs, ∃ key, e = .setKey c key) :
      TcpActs cfg env s c conn (some (.keyExchange keys)) s effs after
  | registerPeer {rp : RegisterPeer} {effs : List (Effect C)} (hreply : ∀ e ∈ effs, e.IsReply c) :
      TcpActs cfg env s c conn (some (.registerPeer rp))
        { s with
          registry := (s.registry.updateAddr env.now rp.id conn.addr (cfg.ipText conn.addr.ip)).2 }
        effs .stop
  | registerPkRefused {rk : RegisterPk} {e : RegisterPkResult} {registry : Registry}
      {effs : List (Effect C)}
      (h : s.registry.handleRegisterPk env.registerIo rk conn.addr (cfg.ipText conn.addr.ip) conn.ws =
        (.error e, registry)) (hreply : ∀ e ∈ effs, e.IsReply c) :
      TcpActs cfg env s c conn (some (.registerPk rk)) { s with registry } effs .stop
  | registerPk {rk : RegisterPk} {res : RegisterPkResult} {registry : Registry}
      {effs : List (Effect C)} {u : Rendezvous C}
      (h : s.registry.handleRegisterPk env.registerIo rk conn.addr (cfg.ipText conn.addr.ip) conn.ws =
        (.ok res, registry)) (hreply : ∀ e ∈ effs, e.IsReply c)
      (hu : u = { s with
        registry, registeredBy := Function.update s.registeredBy rk.id (some (.conn c)) }) :
      TcpActs cfg env s c conn (some (.registerPk rk)) (if conn.ws then u.keepWs c conn else u) effs
        .continue
  | passed {ph : PunchHoleRequest} {msg : RendezvousMessage} {peerAddr : SocketAddr}
      {registry : Registry} {sessions : Sessions}
      (h : handlePunchHoleRequest cfg env.toPunchEnv s.registry s.sessions conn.addr ph conn.ws =
        ((msg, some peerAddr), registry, sessions)) :
      TcpActs cfg env s c conn (some (.punchHoleRequest ph))
        { s.park c conn with
          registry, sessions
          wsMap := Function.update (s.park c conn).wsMap (tryIntoV4 peerAddr) none }
        [.forward ph.id (match (s.park c conn).wsMap (tryIntoV4 peerAddr) with
          | some w => .inl w
          | none => .inr peerAddr) msg] .continue
  | refused {ph : PunchHoleRequest} {msg : RendezvousMessage} {registry : Registry}
      {sessions : Sessions}
      (h : handlePunchHoleRequest cfg env.toPunchEnv s.registry s.sessions conn.addr ph conn.ws =
        ((msg, none), registry, sessions)) :
      TcpActs cfg env s c conn (some (.punchHoleRequest ph))
        { s.park c conn with
          registry, sessions
          tcpPunch := Function.update (s.park c conn).tcpPunch (tryIntoV4 conn.addr) none }
        (((s.park c conn).tcpPunch (tryIntoV4 conn.addr)).toList.map fun c => .send c msg) .continue
  | relay {rf : RequestRelay} {effs : List (Effect C)}
      (heffs : effs = (s.registry.map rf.id).toList.map fun peer =>
        .forward rf.id (.inr peer.socketAddr)
          (.requestRelay { rf with socketAddr := AddrMangle.encode env.tm conn.addr })) :
      TcpActs cfg env s c conn (some (.requestRelay rf)) (s.park c conn) effs .continue
  | answer {m : RendezvousMessage} {addr : SocketAddr} {u : Rendezvous C} {effs : List (Effect C)}
      (hto : m.answerTo = some addr) (h : Answered cfg env s m addr (u, effs)) :
      TcpActs cfg env s c conn (some m) u effs .stop

omit [DecidableEq C] in
theorem isReply_sendToSink {c : C} {conn : Conn} {msg : RendezvousMessage} {e : Effect C}
    (he : e ∈ sendToSink c conn msg) : e.IsReply c := by
  unfold sendToSink at he
  by_cases hsink : conn.hasSink = true
  · rw [if_pos hsink, List.mem_singleton] at he
    subst he
    rfl
  · rw [if_neg hsink] at he
    cases he

@[simp] theorem registry_park (s : Rendezvous C) (c : C) (conn : Conn) : (s.park c conn).registry = s.registry := by
  unfold park
  split <;> rfl

@[simp] theorem sessions_park (s : Rendezvous C) (c : C) (conn : Conn) : (s.park c conn).sessions = s.sessions := by
  unfold park
  split <;> rfl

@[simp] theorem wsMap_park (s : Rendezvous C) (c : C) (conn : Conn) : (s.park c conn).wsMap = s.wsMap := by
  unfold park
  split <;> rfl

theorem handleTcpPunchHoleRequest_acts (c : C) (conn : Conn) (ph : PunchHoleRequest) :
    TcpActs cfg env s c conn (some (.punchHoleRequest ph))
      ((s.park c conn).handleTcpPunchHoleRequest cfg env conn.addr ph conn.ws).1
      ((s.park c conn).handleTcpPunchHoleRequest cfg env conn.addr ph conn.ws).2 .continue := by
  obtain ⟨⟨⟨msg, to?⟩, registry, sessions⟩, h⟩ : ∃ r,
      handlePunchHoleRequest cfg env.toPunchEnv s.registry s.sessions conn.addr ph conn.ws = r := ⟨_, rfl⟩
  simp only [handleTcpPunchHoleRequest, registry_park, sessions_park, h]
  cases to? with
  | none =>
    simp only [sendToTcp_eq]
    exact .refused h
  | some peerAddr =>
    have hpassed : TcpActs cfg env s c conn _ _ _ _ := .passed h
    cases hws : (s.park c conn).wsMap (tryIntoV4 peerAddr) with
    | some w =>
      rw [hws] at hpassed
      simp only [hws]
      exact hpassed
    | none =>
      rw [← hws, Function.update_eq_self, hws] at hpassed
      simp only [hws]
      exact hpassed

/-- `handle_tcp` does one of these. -/
theorem handleTcp_acts (c : C) (conn : Conn) (msg : Option RendezvousMessage) :
    TcpActs cfg env s c conn msg (s.handleTcp cfg env c conn msg).1.1
      (s.handleTcp cfg env c conn msg).1.2 (s.handleTcp cfg env c conn msg).2 := by
  have hnone : ∀ e ∈ ([] : List (Effect C)), e.IsReply c := by simp
  cases msg with
  | none => exact .quiet (by simp [IsRequest]) hnone
  | some m =>
    cases m with
    | registerPeer rp =>
      by_cases hid : rp.id = ""
      · simp only [handleTcp, hid, ne_eq, not_true_eq_false, if_false]
        exact .quiet (by simp [IsRequest]) hnone
      · simp only [handleTcp, ne_eq, hid, not_false_eq_true, if_true]
        refine .registerPeer fun e he => ?_
        obtain ⟨_, -, he⟩ := List.mem_flatMap.mp he
        exact isReply_sendToSink he
    | punchHoleRequest ph => exact handleTcpPunchHoleRequest_acts c conn ph
    | requestRelay rf =>
      have hpeer : (s.park c conn).registry.getInMemory rf.id = s.registry.map rf.id := by
        rw [registry_park, Registry.getInMemory]
      simp only [handleTcp, hpeer]
      cases hmap : s.registry.map rf.id with
      | some | none => exact .relay (by rw [hmap]; rfl)
    | relayResponse rr => exact .answer rfl (handleRelayResponse_answered rr conn.addr)
    | punchHoleSent phs => exact .answer rfl (handleHoleSent_answered phs conn.addr)
    | localAddr la => exact .answer rfl (handleLocalAddr_answered la)
    | testNatRequest serial => exact .quiet (by simp [IsRequest]) fun e he => isReply_sendToSink he
    | registerPk rk =>
      obtain ⟨⟨res, registry⟩, h⟩ : ∃ r, s.registry.handleRegisterPk env.registerIo rk conn.addr
        (cfg.ipText conn.addr.ip) conn.ws = r := ⟨_, rfl⟩
      cases res with
      | error e =>
        simp only [handleTcp, handleRegisterPk, h]
        exact .registerPkRefused h fun e he => isReply_sendToSink he
      | ok res =>
        simp only [handleTcp, handleRegisterPk, h]
        exact .registerPk h (fun e he => isReply_sendToSink he) rfl
    | keyExchange keys =>
      have hempty : ∀ e ∈ ([] : List (Effect C)), ∃ key, e = .setKey c key := by simp
      by_cases hlen : keys.length ≠ 2
      · simp only [handleTcp, if_pos hlen]
        exact .keyExchange hempty
      · simp only [handleTcp, if_neg hlen]
        cases symmetricKey cfg keys with
        | none => exact .keyExchange hempty
        | some key =>
          refine .keyExchange fun e he => ?_
          by_cases hsink : conn.hasSink = true
          · simp only [hsink, if_true, List.mem_singleton] at he
            exact ⟨key, he⟩
          · simp [hsink] at he
    | onlineRequest peers => exact .quiet (by simp [IsRequest]) fun e he => isReply_sendToSink he
    | registerPeerResponse | punchHole | punchHoleResponse | fetchLocalAddr | configureUpdate
    | registerPkResponse | softwareUpdate | testNatResponse | peerDiscovery | onlineResponse
    | hc => exact .quiet (by simp [IsRequest]) hnone

end

/-- What `handle_udp` can do for a datagram: no sink moves. -/
inductive UdpActs (cfg : HbbsConfig) (env : HbbsEnv) (s : Rendezvous C) (addr : SocketAddr) :
    Option RendezvousMessage → Rendezvous C → List (Effect C) → Prop
  | quiet {msg : Option RendezvousMessage} {effs : List (Effect C)}
      (hdatagram : ∀ e ∈ effs, e.IsDatagram) : UdpActs cfg env s addr msg s effs
  | registerPeer {rp : RegisterPeer} {effs : List (Effect C)}
      (hdatagram : ∀ e ∈ effs, e.IsDatagram) :
      UdpActs cfg env s addr (some (.registerPeer rp))
        { s with registry := (s.registry.updateAddr env.now rp.id addr (cfg.ipText addr.ip)).2 } effs
  | registerPkRefused {rk : RegisterPk} {e : RegisterPkResult} {registry : Registry}
      {effs : List (Effect C)}
      (h : s.registry.handleRegisterPk env.registerIo rk addr (cfg.ipText addr.ip) false =
        (.error e, registry)) (hdatagram : ∀ e ∈ effs, e.IsDatagram) :
      UdpActs cfg env s addr (some (.registerPk rk)) { s with registry } effs
  | registerPk {rk : RegisterPk} {res : RegisterPkResult} {registry : Registry}
      {effs : List (Effect C)}
      (h : s.registry.handleRegisterPk env.registerIo rk addr (cfg.ipText addr.ip) false =
        (.ok res, registry)) (hdatagram : ∀ e ∈ effs, e.IsDatagram) :
      UdpActs cfg env s addr (some (.registerPk rk))
        { s with
          registry, registeredBy := Function.update s.registeredBy rk.id (some (.udp addr)) } effs
  | passed {ph : PunchHoleRequest} {msg : RendezvousMessage} {peerAddr : SocketAddr}
      {registry : Registry} {sessions : Sessions}
      (h : handlePunchHoleRequest cfg env.toPunchEnv s.registry s.sessions addr ph false =
        ((msg, some peerAddr), registry, sessions)) :
      UdpActs cfg env s addr (some (.punchHoleRequest ph)) { s with registry, sessions }
        [.forward ph.id (.inr peerAddr) msg]
  | refused {ph : PunchHoleRequest} {msg : RendezvousMessage} {registry : Registry}
      {sessions : Sessions} {effs : List (Effect C)}
      (h : handlePunchHoleRequest cfg env.toPunchEnv s.registry s.sessions addr ph false =
        ((msg, none), registry, sessions)) (hdatagram : ∀ e ∈ effs, e.IsDatagram) :
      UdpActs cfg env s addr (some (.punchHoleRequest ph)) { s with registry, sessions } effs
  | answer {m : RendezvousMessage} {registry : Registry} {effs : List (Effect C)}
      (hlooked : Looked env s registry) (hdatagram : ∀ e ∈ effs, e.IsDatagram) :
      UdpActs cfg env s addr (some m) { s with registry } effs

theorem isDatagram_singleton {msg : RendezvousMessage} : ∀ e ∈ [(.datagram addr msg : Effect C)], e.IsDatagram := by
  intro e he
  rw [List.mem_singleton] at he
  subst he
  trivial

/-- `handle_udp` does one of these. -/
theorem handleUdp_acts (addr : SocketAddr) (msg : Option RendezvousMessage) :
    UdpActs cfg env s addr msg (s.handleUdp cfg env addr msg).1 (s.handleUdp cfg env addr msg).2 := by
  have hnone : ∀ e ∈ ([] : List (Effect C)), e.IsDatagram := by simp
  cases msg with
  | none => exact .quiet hnone
  | some m =>
    cases m with
    | registerPeer rp =>
      by_cases hid : rp.id = ""
      · simp only [handleUdp, hid, ne_eq, not_true_eq_false, if_false]
        exact .quiet hnone
      · simp only [handleUdp, ne_eq, hid, not_false_eq_true, if_true]
        refine .registerPeer fun e he => ?_
        obtain ⟨_, -, rfl⟩ := List.mem_map.mp he
        trivial
    | registerPk rk =>
      obtain ⟨⟨res, registry⟩, h⟩ : ∃ r, s.registry.handleRegisterPk env.registerIo rk addr
        (cfg.ipText addr.ip) false = r := ⟨_, rfl⟩
      cases res with
      | error e =>
        simp only [handleUdp, handleRegisterPk, h]
        exact .registerPkRefused h isDatagram_singleton
      | ok res =>
        simp only [handleUdp, handleRegisterPk, h]
        exact .registerPk h isDatagram_singleton
    | punchHoleRequest ph =>
      obtain ⟨⟨⟨msg, to?⟩, registry, sessions⟩, h⟩ : ∃ r,
        handlePunchHoleRequest cfg env.toPunchEnv s.registry s.sessions addr ph false = r := ⟨_, rfl⟩
      simp only [handleUdp, handleUdpPunchHoleRequest, h]
      cases to? with
      | none => exact .refused h isDatagram_singleton
      | some peerAddr => exact .passed h
    | punchHoleSent phs =>
      obtain ⟨registry, hsnd, hlooked⟩ := getPk_snd cfg env s phs.version phs.id
      simp only [handleUdp, handleHoleSent, answer, hsnd, if_true]
      exact .answer hlooked isDatagram_singleton
    | localAddr la =>
      obtain ⟨registry, hsnd, hlooked⟩ := getPk_snd cfg env s la.version la.id
      simp only [handleUdp, handleLocalAddr, answer, hsnd, if_true]
      exact .answer hlooked isDatagram_singleton
    | softwareUpdate url =>
      by_cases hupdate : cfg.version ≠ "" ∧ url ≠ cfg.version
      · simp only [handleUdp, if_pos hupdate]
        exact .quiet isDatagram_singleton
      · simp only [handleUdp, if_neg hupdate]
        exact .quiet hnone
    | registerPeerResponse | punchHole | punchHoleResponse | fetchLocalAddr | configureUpdate
    | registerPkResponse | requestRelay | relayResponse | testNatRequest | testNatResponse | peerDiscovery
    | onlineRequest | onlineResponse | keyExchange | hc => exact .quiet hnone

/-! ## Steps -/

variable [DecidableEq C]

/-- What an event makes the server send. -/
def effects (cfg : HbbsConfig) (s : Rendezvous C) : HbbsEvent C → List (Effect C)
  | .tcp c env msg =>
    match s.conn c with
    | some conn => (s.handleTcp cfg env c conn msg).1.2
    | none => []
  | .udp addr env msg => (s.handleUdp cfg env addr msg).2
  | .accept _ _ _ | .close _ => []

/-- What a step can be. -/
inductive Stepped (cfg : HbbsConfig) (s : Rendezvous C) : HbbsEvent C → Rendezvous C → Prop
  | accept {c : C} {addr : SocketAddr} {ws : Bool} (hnew : s.conn c = none) :
      Stepped cfg s (.accept c addr ws)
        { s with conn := Function.update s.conn c (some ⟨addr, ws, true, true⟩) }
  | tcp {c : C} {env : HbbsEnv} {msg : Option RendezvousMessage} {conn : Conn} {u : Rendezvous C}
      {effs : List (Effect C)} {after : After} (hconn : s.conn c = some conn)
      (hopen : conn.isOpen = true) (hu : s.handleTcp cfg env c conn msg = ((u, effs), after))
      (hacts : TcpActs cfg env s c conn msg u effs after) :
      Stepped cfg s (.tcp c env msg) ((record (.conn c) (u, effs)).finish c after)
  | close {c : C} {conn : Conn} (hconn : s.conn c = some conn) (hopen : conn.isOpen = true) :
      Stepped cfg s (.close c) (s.cleanup c)
  | udp {addr : SocketAddr} {env : HbbsEnv} {msg : Option RendezvousMessage} {u : Rendezvous C}
      {effs : List (Effect C)} (hu : s.handleUdp cfg env addr msg = (u, effs))
      (hacts : UdpActs cfg env s addr msg u effs) :
      Stepped cfg s (.udp addr env msg) (record (.udp addr) (u, effs))

theorem step_stepped (h : step cfg s ev = some t) : Stepped cfg s ev t := by
  cases ev with
  | accept c addr ws =>
    cases hconn : s.conn c with
    | none =>
      simp only [step, hconn] at h
      cases h
      exact .accept hconn
    | some conn => simp [step, hconn] at h
  | tcp c env msg =>
    cases hconn : s.conn c with
    | none => simp [step, hconn] at h
    | some conn =>
      by_cases hopen : conn.isOpen = true
      · simp only [step, hconn, hopen, if_true] at h
        cases h
        exact .tcp hconn hopen rfl (handleTcp_acts c conn msg)
      · simp [step, hconn, hopen] at h
  | close c =>
    cases hconn : s.conn c with
    | none => simp [step, hconn] at h
    | some conn =>
      by_cases hopen : conn.isOpen = true
      · simp only [step, hconn, hopen, if_true] at h
        cases h
        exact .close hconn hopen
      · simp [step, hconn, hopen] at h
  | udp addr env msg =>
    cases h
    exact .udp rfl (handleUdp_acts addr msg)

/-! ### What is sent -/

/-- What an event can make the server send. -/
inductive Sends (cfg : HbbsConfig) (s : Rendezvous C) : HbbsEvent C → Effect C → Prop
  | reply {c : C} {env : HbbsEnv} {msg : Option RendezvousMessage} {e : Effect C} (h : e.IsReply c) :
      Sends cfg s (.tcp c env msg) e
  | setKey {c : C} {env : HbbsEnv} {keys : List (List UInt8)} {key : List UInt8} :
      Sends cfg s (.tcp c env (some (.keyExchange keys))) (.setKey c key)
  | passed {c : C} {env : HbbsEnv} {ph : PunchHoleRequest} {conn : Conn} {dest : C ⊕ SocketAddr}
      {msg : RendezvousMessage} {peerAddr : SocketAddr} {registry : Registry} {sessions : Sessions}
      (h : handlePunchHoleRequest cfg env.toPunchEnv s.registry s.sessions conn.addr ph conn.ws =
        ((msg, some peerAddr), registry, sessions)) :
      Sends cfg s (.tcp c env (some (.punchHoleRequest ph))) (.forward ph.id dest msg)
  | refused {c c' : C} {env : HbbsEnv} {ph : PunchHoleRequest} {conn : Conn} {msg : RendezvousMessage}
      {registry : Registry} {sessions : Sessions}
      (h : handlePunchHoleRequest cfg env.toPunchEnv s.registry s.sessions conn.addr ph conn.ws =
        ((msg, none), registry, sessions)) :
      Sends cfg s (.tcp c env (some (.punchHoleRequest ph))) (.send c' msg)
  | relay {c : C} {env : HbbsEnv} {rf : RequestRelay} {peer : LivePeer} {msg : RendezvousMessage}
      (h : s.registry.map rf.id = some peer) :
      Sends cfg s (.tcp c env (some (.requestRelay rf))) (.forward rf.id (.inr peer.socketAddr) msg)
  | answer {c c' : C} {env : HbbsEnv} {m reply : RendezvousMessage} {addr : SocketAddr}
      (hto : m.answerTo = some addr) (hparked : s.tcpPunch (tryIntoV4 addr) = some c')
      (hpk : ∀ id version, m.names = some (id, version) → id ≠ "" →
        reply.pk = (s.getPk cfg env version id).1) :
      Sends cfg s (.tcp c env (some m)) (.send c' reply)
  | datagram {addr : SocketAddr} {env : HbbsEnv} {msg : Option RendezvousMessage} {e : Effect C}
      (h : e.IsDatagram) : Sends cfg s (.udp addr env msg) e
  | passedUdp {addr : SocketAddr} {env : HbbsEnv} {ph : PunchHoleRequest} {msg : RendezvousMessage}
      {peerAddr : SocketAddr} {registry : Registry} {sessions : Sessions}
      (h : handlePunchHoleRequest cfg env.toPunchEnv s.registry s.sessions addr ph false =
        ((msg, some peerAddr), registry, sessions)) :
      Sends cfg s (.udp addr env (some (.punchHoleRequest ph))) (.forward ph.id (.inr peerAddr) msg)

theorem TcpActs.sends {conn : Conn} (h : TcpActs cfg env s c conn msg u effs after)
    (he : e ∈ effs) : Sends cfg s (.tcp c env msg) e := by
  cases h with
  | quiet hmsg hreply => exact .reply (hreply e he)
  | keyExchange hset =>
    obtain ⟨key, rfl⟩ := hset e he
    exact .setKey
  | registerPeer hreply | registerPkRefused h hreply | registerPk h hreply => exact .reply (hreply e he)
  | passed h =>
    obtain rfl := List.mem_singleton.mp he
    exact .passed h
  | refused h =>
    obtain ⟨c', -, rfl⟩ := List.mem_map.mp he
    exact .refused h
  | relay heffs =>
    rw [heffs] at he
    obtain ⟨peer, hpeer, rfl⟩ := List.mem_map.mp he
    exact .relay (Option.mem_toList.mp hpeer)
  | answer hto h =>
    obtain ⟨registry, reply, -, hu, hpk⟩ := h
    rw [(Prod.mk.inj hu).2] at he
    obtain ⟨c', hparked, rfl⟩ := List.mem_map.mp he
    exact .answer hto (Option.mem_toList.mp hparked) hpk

omit [DecidableEq C] in
theorem UdpActs.sends (h : UdpActs cfg env s addr msg u effs) (he : e ∈ effs) :
    Sends cfg s (.udp addr env msg) e := by
  cases h with
  | quiet h | registerPeer h | registerPkRefused _ h | registerPk _ h => exact .datagram (h e he)
  | passed h =>
    obtain rfl := List.mem_singleton.mp he
    exact .passedUdp h
  | refused _ h | answer _ h => exact .datagram (h e he)

/-- A step sends nothing else. -/
theorem sends_of_mem_effects (hstep : step cfg s ev = some t) (he : e ∈ effects cfg s ev) : Sends cfg s ev e := by
  cases step_stepped hstep with
  | accept | close => cases he
  | tcp hconn hopen hu hacts =>
    simp only [effects, hconn, hu] at he
    exact hacts.sends he
  | udp hu hacts =>
    simp only [effects, hu] at he
    exact hacts.sends he

@[simp] theorem log_park (s : Rendezvous C) (c : C) (conn : Conn) : (s.park c conn).log = s.log := by
  unfold park
  split <;> rfl

@[simp] theorem log_keepWs (s : Rendezvous C) (c : C) (conn : Conn) : (s.keepWs c conn).log = s.log := by
  unfold keepWs
  split <;> rfl

@[simp] theorem log_cleanup (s : Rendezvous C) (c : C) : (s.cleanup c).log = s.log := by
  unfold cleanup
  split <;> rfl

@[simp] theorem log_finish (s : Rendezvous C) (c : C) (after : After) : (s.finish c after).log = s.log := by
  cases after with
  | «continue» => rfl
  | stop => exact log_cleanup s c
  | panic => rfl

theorem TcpActs.log {conn : Conn} (h : TcpActs cfg env s c conn msg u effs after) : u.log = s.log := by
  cases h with
  | quiet | keyExchange | registerPeer | registerPkRefused => rfl
  | registerPk h hreply hu =>
    subst hu
    split
    · exact log_keepWs _ c conn
    · rfl
  | passed | refused | relay => exact log_park s c conn
  | answer _ h =>
    obtain ⟨registry, -, rfl⟩ := h.state
    rfl

omit [DecidableEq C] in
theorem UdpActs.log (h : UdpActs cfg env s addr msg u effs) : u.log = s.log := by cases h <;> rfl

/-- A step logs what is sent on its event. -/
theorem log_step (h : step cfg s ev = some t) : t.log = s.log ++ (effects cfg s ev).map fun e => (ev.source, e) := by
  cases step_stepped h with
  | accept hnew => simp [effects]
  | @tcp c env msg conn u effs after hconn hopen hu hacts =>
    rw [log_finish, effects, hconn]
    simp only [record, hacts.log, hu]
    rfl
  | close hconn hopen => simp [effects, log_cleanup]
  | udp hu hacts =>
    simp only [record, effects, hacts.log, hu]
    rfl

/-- What was sent stays in the log. -/
theorem log_run {evs : List (HbbsEvent C)} (hrun : Run (Steps (step cfg)) s evs t)
    {entry : Source C × Effect C} (h : entry ∈ s.log) : entry ∈ t.log := by
  have hstep : ∀ (s : Rendezvous C) ev t, entry ∈ s.log → Steps (step cfg) s ev t → entry ∈ t.log := by
    intro s ev t hentry hstep
    rw [log_step hstep]
    exact List.mem_append_left _ hentry
  have hlog := Run.invariant hstep hrun h
  exact hlog

/-! ### Sinks -/

theorem conn_park (s : Rendezvous C) (c : C) (conn : Conn) : (s.park c conn).conn = s.conn ∨
      (s.park c conn).conn = Function.update s.conn c (some { conn with hasSink := false }) := by
  unfold park
  split
  · exact .inr rfl
  · exact .inl rfl

theorem conn_keepWs (s : Rendezvous C) (c : C) (conn : Conn) : (s.keepWs c conn).conn = s.conn ∨
      (s.keepWs c conn).conn = Function.update s.conn c (some { conn with hasSink := false }) := by
  unfold keepWs
  split
  · exact .inr rfl
  · exact .inl rfl

/-- A message takes the sink of its own connection at most. -/
theorem TcpActs.conn {conn : Conn} (h : TcpActs cfg env s c conn msg u effs after) :
    u.conn = s.conn ∨ u.conn = Function.update s.conn c (some { conn with hasSink := false }) := by
  cases h with
  | quiet | keyExchange | registerPeer | registerPkRefused => exact .inl rfl
  | registerPk h hreply hu =>
    subst hu
    split
    · exact conn_keepWs _ c conn
    · exact .inl rfl
  | passed | refused | relay => exact conn_park s c conn
  | answer _ h =>
    obtain ⟨registry, -, rfl⟩ := h.state
    exact .inl rfl

/-- The end of a read loop closes its own connection at most. -/
theorem conn_finish (s : Rendezvous C) (c : C) (after : After) :
    (s.finish c after).conn = s.conn ∨ (s.finish c after).conn =
      Function.update s.conn c ((s.conn c).map fun conn => { conn with isOpen := false }) := by
  cases after with
  | «continue» => exact .inl rfl
  | panic => exact .inr rfl
  | stop =>
    show (s.cleanup c).conn = s.conn ∨ (s.cleanup c).conn = _
    unfold cleanup
    cases hconn : s.conn c with
    | none => exact .inl rfl
    | some conn => exact .inr rfl

omit [DecidableEq C] in
theorem UdpActs.sinks (h : UdpActs cfg env s addr msg u effs) :
    u.conn = s.conn ∧ u.wsMap = s.wsMap ∧ u.tcpPunch = s.tcpPunch := by
  cases h <;> exact ⟨rfl, rfl, rfl⟩

/-- A connection keeps its address over a step, and a sink that is gone does not come back. -/
theorem conn_step {conn : Conn} (hstep : step cfg s ev = some t)
    (hc : s.conn c = some conn) : ∃ conn', t.conn c = some conn' ∧ conn.Later conn' := by
  have hfinish : ∀ (u : Rendezvous C) (c' : C) (after : After), (∃ conn', u.conn c = some conn' ∧
      conn.Later conn') → ∃ conn', (u.finish c' after).conn c = some conn' ∧ conn.Later conn' := by
    rintro u c' after ⟨conn', hu, hlater⟩
    rcases conn_finish u c' after with h | h
    · exact ⟨conn', by rw [h, hu], hlater⟩
    · rw [h]
      by_cases heq : c = c'
      · subst heq
        rw [Function.update_self, hu]
        exact ⟨_, rfl, hlater.trans ⟨rfl, rfl, id⟩⟩
      · exact ⟨conn', by rw [Function.update_of_ne heq, hu], hlater⟩
  cases step_stepped hstep with
  | @accept c' addr ws hnew =>
    have hne : c ≠ c' := by
      rintro rfl
      rw [hc] at hnew
      cases hnew
    exact ⟨conn, by simpa [Function.update_of_ne hne] using hc, .refl conn⟩
  | @close c' => exact hfinish s c' .stop ⟨conn, hc, .refl conn⟩
  | @tcp c' env msg conn' u effs after hconn hopen hu hacts =>
    refine hfinish (record _ (u, effs)) c' after ?_
    show ∃ conn', u.conn c = some conn' ∧ conn.Later conn'
    rcases hacts.conn with h | h
    · exact ⟨conn, by rw [h, hc], .refl conn⟩
    · rw [h]
      by_cases heq : c = c'
      · subst heq
        obtain rfl : conn' = conn := Option.some.inj (hconn.symm.trans hc)
        exact ⟨_, Function.update_self .., rfl, rfl, fun _ => rfl⟩
      · exact ⟨conn, by rw [Function.update_of_ne heq, hc], .refl conn⟩
  | udp hu hacts => exact ⟨conn, (congrFun hacts.sinks.1 c).trans hc, .refl conn⟩

end Rendezvous

end RustDesk.Server
