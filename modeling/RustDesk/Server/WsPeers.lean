import RustDesk.Server.LoginEnforcement
import RustDesk.Server.PeerAddresses

/-!
# Peers on a WebSocket

References: `rustdesk-server/src/rendezvous_server.rs` (`handle_tcp`, `handle_tcp_punch_hole_request`,
`handle_udp_punch_hole_request`).

`handle_tcp` moves the sink of a WebSocket into `ws_map` when the peer on it registers its key. The
request that is forwarded through it takes it out and drops it, and no later registration on the
connection has a sink to put back. So one request is delivered there, and the next goes as a datagram to
the address of the WebSocket.
-/

namespace RustDesk.Server.Rendezvous

open Net

variable {C : Type*} {cfg : HbbsConfig} {s t u : Rendezvous C} {d : String} {key : SocketAddr}
  {ev : HbbsEvent C}

/-- A request over a connection gets a message for the peer, whose address has the key. -/
def PassesTo (cfg : HbbsConfig) (key : SocketAddr) (s : Rendezvous C) : HbbsEvent C → Prop
  | .tcp c env (some (.punchHoleRequest ph)) => ∃ conn peerAddr, s.conn c = some conn ∧
    (handlePunchHoleRequest cfg env.toPunchEnv s.registry s.sessions conn.addr ph conn.ws).1.2 =
      some peerAddr ∧ tryIntoV4 peerAddr = key
  | _ => False

/-- A request for the device that passes all checks, over whatever transport. -/
def Passes (cfg : HbbsConfig) (d : String) (s : Rendezvous C) : HbbsEvent C → Prop
  | .tcp c env (some (.punchHoleRequest ph)) => ph.id = d ∧ ∃ conn, s.conn c = some conn ∧
    (handlePunchHoleRequest cfg env.toPunchEnv s.registry s.sessions conn.addr ph conn.ws).1.2 ≠ none
  | .udp addr env (some (.punchHoleRequest ph)) => ph.id = d ∧
    (handlePunchHoleRequest cfg env.toPunchEnv s.registry s.sessions addr ph false).1.2 ≠ none
  | _ => False

/-- A WebSocket registers a key, and its sink is kept under the key of its address. -/
def KeepsWs (cfg : HbbsConfig) (key : SocketAddr) (c : C) (s : Rendezvous C) : HbbsEvent C → Prop
  | .tcp c' env (some (.registerPk rk)) => c' = c ∧ ∃ conn, s.conn c = some conn ∧ conn.ws = true ∧
    conn.hasSink = true ∧ tryIntoV4 conn.addr = key ∧
    (s.registry.handleRegisterPk env.registerIo rk conn.addr (cfg.ipText conn.addr.ip) true).1 = .ok .ok
  | _ => False

/-- The registration of the device on the connection `w` is left alone: no one else registers it, and no
other WebSocket leaves its sink under the same key. -/
structure Alone (cfg : HbbsConfig) (w : C) (addr : SocketAddr) (d : String) (s : Rendezvous C)
    (ev : HbbsEvent C) : Prop where
  registers : ∀ addr', RegistersAt cfg d s addr' ev → ev.source = .conn w
  keeps : ∀ c, KeepsWs cfg (tryIntoV4 addr) c s ev → c = w

variable [DecidableEq C]

@[simp] theorem wsMap_finish (s : Rendezvous C) (c : C) (after : After) : (s.finish c after).wsMap = s.wsMap := by
  cases after with
  | «continue» | panic => rfl
  | stop =>
    show (s.cleanup c).wsMap = s.wsMap
    unfold cleanup
    split <;> rfl

/-- **Where a kept sink goes**: a place in `ws_map` is emptied by a request that passes to it, and filled
by a WebSocket that registers a key, and by nothing else. -/
theorem wsMap_step (hstep : step cfg s ev = some t) (key : SocketAddr) :
    (PassesTo cfg key s ev ∧ t.wsMap key = none) ∨ (∃ c, KeepsWs cfg key c s ev ∧ t.wsMap key = some c) ∨
      ¬ PassesTo cfg key s ev ∧ t.wsMap key = s.wsMap key := by
  cases step_stepped hstep with
  | accept => exact .inr (.inr ⟨id, rfl⟩)
  | @close c => exact .inr (.inr ⟨id, congrFun (wsMap_finish s c .stop) key⟩)
  | @tcp c env msg conn u effs after hconn hopen hu hacts =>
    rw [wsMap_finish]
    show _ ∧ u.wsMap key = _ ∨ (∃ c', _ ∧ u.wsMap key = _) ∨ _ ∧ u.wsMap key = _
    cases hacts with
    | quiet hmsg =>
      refine .inr (.inr ⟨fun hpasses => ?_, rfl⟩)
      cases msg with
      | none => exact hpasses
      | some m =>
        cases m with
        | punchHoleRequest ph => exact hmsg (.inl ⟨ph, rfl⟩)
        | _ => exact hpasses
    | keyExchange | registerPeer | registerPkRefused => exact .inr (.inr ⟨id, rfl⟩)
    | @registerPk rk res registry effs v h hreply hv =>
      by_cases hkeeps : conn.ws = true ∧ conn.hasSink = true ∧ tryIntoV4 conn.addr = key
      · obtain ⟨hws, hsink, rfl⟩ := hkeeps
        obtain rfl : res = .ok := Registry.handleRegisterPk_eq_ok (congrArg Prod.fst h)
        rw [hws] at h
        refine .inr (.inl ⟨c, ⟨rfl, conn, hconn, hws, hsink, rfl, congrArg Prod.fst h⟩, ?_⟩)
        simp [hws, keepWs, hsink]
      · refine .inr (.inr ⟨id, ?_⟩)
        subst hv
        by_cases hws : conn.ws = true
        · by_cases hsink : conn.hasSink = true
          · have hkey : tryIntoV4 conn.addr ≠ key := fun h => hkeeps ⟨hws, hsink, h⟩
            simp [hws, keepWs, hsink, Function.update_of_ne (Ne.symm hkey)]
          · simp [hws, keepWs, hsink]
        · simp [hws]
    | @passed ph msg peerAddr registry sessions h =>
      by_cases hkey : tryIntoV4 peerAddr = key
      · subst hkey
        exact .inl ⟨⟨conn, peerAddr, hconn, by rw [h], rfl⟩, Function.update_self ..⟩
      · refine .inr (.inr ⟨?_, ?_⟩)
        · rintro ⟨conn', peerAddr', hconn', hpasses, hkey'⟩
          obtain rfl : conn = conn' := Option.some.inj (hconn.symm.trans hconn')
          rw [h] at hpasses
          cases hpasses
          exact hkey hkey'
        · show Function.update _ _ _ key = _
          rw [Function.update_of_ne (Ne.symm hkey), wsMap_park]
    | refused h =>
      refine .inr (.inr ⟨?_, congrFun (wsMap_park s c conn) key⟩)
      rintro ⟨conn', peerAddr', hconn', hpasses, -⟩
      obtain rfl : conn = conn' := Option.some.inj (hconn.symm.trans hconn')
      rw [h] at hpasses
      cases hpasses
    | relay => exact .inr (.inr ⟨id, congrFun (wsMap_park s c conn) key⟩)
    | @answer m addr u effs hto h =>
      obtain ⟨registry, -, rfl⟩ := h.state
      refine .inr (.inr ⟨fun hpasses => ?_, rfl⟩)
      cases m with
      | punchHoleRequest ph => cases hto
      | _ => exact hpasses
  | udp hu hacts => exact .inr (.inr ⟨id, congrFun hacts.sinks.2.1 key⟩)

/-! ## The registration -/

/-- The device is in memory at the address of the connection, whose sink is gone from it. -/
structure OnWs (w : C) (addr : SocketAddr) (d : String) (s : Rendezvous C) : Prop where
  conn : ∃ conn, s.conn w = some conn ∧ conn.addr = addr ∧ conn.hasSink = false
  peer : ∃ peer, s.registry.map d = some peer ∧ peer.socketAddr = addr

/-- The registration of a key on a WebSocket that has its sink. -/
structure RegisteredWs (cfg : HbbsConfig) (w : C) (addr : SocketAddr) (d : String) (s t : Rendezvous C) :
    Prop where
  conn : ∃ conn, s.conn w = some conn ∧ conn.addr = addr ∧ conn.ws = true ∧ conn.hasSink = true
  step : ∃ env rk, step cfg s (.tcp w env (some (.registerPk rk))) = some t ∧ rk.id = d ∧
    (s.registry.handleRegisterPk env.registerIo rk addr (cfg.ipText addr.ip) true).1 = .ok .ok

variable {w : C} {addr : SocketAddr}

/-- It leaves the sink in `ws_map`. -/
theorem RegisteredWs.onWs (h : RegisteredWs cfg w addr d s t) :
    OnWs w addr d t ∧ t.wsMap (tryIntoV4 addr) = some w := by
  obtain ⟨⟨conn, hconn, rfl, hws, hsink⟩, env, rk, hstep, rfl, hok⟩ := h
  obtain ⟨peer, hmap, haddr⟩ := Registry.map_handleRegisterPk_ok hok
  obtain ⟨⟨res, registry⟩, h⟩ : ∃ r, s.registry.handleRegisterPk env.registerIo rk conn.addr
    (cfg.ipText conn.addr.ip) true = r := ⟨_, rfl⟩
  rw [h] at hok hmap
  obtain rfl : res = .ok .ok := hok
  by_cases hopen : conn.isOpen = true
  · simp only [Rendezvous.step, hconn, hopen, if_true, handleTcp, handleRegisterPk, hws, h, keepWs, hsink,
      finish, record, Option.some.injEq] at hstep
    subst hstep
    exact ⟨⟨⟨_, Function.update_self .., rfl, rfl⟩, peer, hmap, haddr rfl⟩, Function.update_self ..⟩
  · simp [Rendezvous.step, hconn, hopen] at hstep

omit [DecidableEq C] in
/-- Who registers on a connection registers at its address. -/
theorem addr_of_registersAt {addr' : SocketAddr} {conn : Conn}
    (h : RegistersAt cfg d s addr' ev) (hsource : ev.source = .conn w) (hconn : s.conn w = some conn) :
    conn.addr = addr' := by
  cases ev with
  | accept | close => exact h.elim
  | udp => cases hsource
  | tcp c env msg =>
    cases hsource
    cases msg with
    | none => exact h.elim
    | some m =>
      cases m with
      | registerPeer rp =>
        obtain ⟨-, ⟨conn', hconn', haddr⟩, -⟩ := h
        obtain rfl : conn = conn' := Option.some.inj (hconn.symm.trans hconn')
        exact haddr
      | registerPk rk =>
        obtain ⟨-, conn', hconn', haddr, -⟩ := h
        obtain rfl : conn = conn' := Option.some.inj (hconn.symm.trans hconn')
        exact haddr
      | _ => exact h.elim

section

variable (hs : OnWs w addr d s) (halone : Alone cfg w addr d s ev)
include hs halone

theorem OnWs.step (hstep : step cfg s ev = some t) : OnWs w addr d t := by
  obtain ⟨⟨conn, hconn, haddr, hsink⟩, peer, hmap, hpeer⟩ := hs
  obtain ⟨conn', hconn', hlater⟩ := conn_step hstep hconn
  obtain ⟨peer', hmap', hsame | hregisters⟩ := map_step hstep hmap
  · exact ⟨⟨conn', hconn', hlater.1.trans haddr, hlater.2.2 hsink⟩, peer', hmap', hsame.trans hpeer⟩
  · have hsource := halone.registers _ hregisters
    have haddr' := addr_of_registersAt hregisters hsource hconn
    exact ⟨⟨conn', hconn', hlater.1.trans haddr, hlater.2.2 hsink⟩, peer', hmap', haddr'.symm.trans haddr⟩

section

variable (hstep : Rendezvous.step cfg s ev = some t)
include hstep

/-- While the sink is away from the connection, its place in `ws_map` can only be emptied. -/
theorem OnWs.wsMap_step
    :
    (PassesTo cfg (tryIntoV4 addr) s ev ∧ t.wsMap (tryIntoV4 addr) = none) ∨
      ¬ PassesTo cfg (tryIntoV4 addr) s ev ∧ t.wsMap (tryIntoV4 addr) = s.wsMap (tryIntoV4 addr) := by
  rcases Rendezvous.wsMap_step hstep (tryIntoV4 addr) with hpasses | ⟨c, hkeeps, -⟩ | hsame
  · exact .inl hpasses
  · exfalso
    obtain rfl := halone.keeps c hkeeps
    obtain ⟨⟨conn, hconn, -, hsink⟩, -⟩ := hs
    cases ev with
    | accept | close | udp => exact hkeeps
    | tcp c' env msg =>
      cases msg with
      | none => exact hkeeps
      | some m =>
        cases m with
        | registerPk rk =>
          obtain ⟨-, conn', hconn', -, hsink', -⟩ := hkeeps
          obtain rfl : conn = conn' := Option.some.inj (hconn.symm.trans hconn')
          rw [hsink] at hsink'
          cases hsink'
        | _ => exact hkeeps
  · exact .inr hsame

theorem OnWs.stays_gone (hgone : s.wsMap (tryIntoV4 addr) ≠ some w) : t.wsMap (tryIntoV4 addr) ≠ some w := by
  obtain ⟨-, hnone⟩ | ⟨-, hsame⟩ := hs.wsMap_step halone hstep
  · rw [hnone]
    simp
  · rwa [hsame]

theorem OnWs.stays_kept (hnot : ¬ PassesTo cfg (tryIntoV4 addr) s ev)
    (hkept : s.wsMap (tryIntoV4 addr) = some w) : t.wsMap (tryIntoV4 addr) = some w := by
  obtain ⟨hpasses, -⟩ | ⟨-, hsame⟩ := hs.wsMap_step halone hstep
  · exact absurd hpasses hnot
  · rwa [hsame]

end

end

/-! ## Requests for the device -/

/-- Over a connection, a request that passes goes to the sink that is kept under the address, and as a
datagram where none is kept. -/
theorem log_of_passes_tcp {c : C} {env : HbbsEnv} {ph : PunchHoleRequest} {peer : LivePeer}
    (hstep : step cfg s (.tcp c env (some (.punchHoleRequest ph))) = some t)
    (hpasses : Passes cfg d s (.tcp c env (some (.punchHoleRequest ph))))
    (hmap : s.registry.map d = some peer) :
    ∃ msg, t.log = s.log ++ [(.conn c, .forward d (match s.wsMap (tryIntoV4 peer.socketAddr) with
      | some w => .inl w
      | none => .inr peer.socketAddr) msg)] := by
  obtain ⟨rfl, conn, hconn, hpasses⟩ := hpasses
  obtain ⟨⟨⟨msg, to?⟩, registry, sessions⟩, h⟩ : ∃ r,
    handlePunchHoleRequest cfg env.toPunchEnv s.registry s.sessions conn.addr ph conn.ws = r := ⟨_, rfl⟩
  obtain ⟨peerAddr, rfl⟩ : ∃ peerAddr, to? = some peerAddr := by
    rw [h] at hpasses
    exact Option.ne_none_iff_exists'.mp hpasses
  obtain rfl : peerAddr = peer.socketAddr := addr_of_passed hmap (by rw [h])
  refine ⟨msg, ?_⟩
  rw [log_step hstep, effects, hconn]
  simp only [handleTcp, handleTcpPunchHoleRequest, registry_park, sessions_park, wsMap_park, h]
  cases s.wsMap (tryIntoV4 peer.socketAddr) <;> rfl

/-- Over UDP it goes as a datagram. -/
theorem log_of_passes_udp {from_ : SocketAddr} {env : HbbsEnv} {ph : PunchHoleRequest}
    {peer : LivePeer} (hstep : step cfg s (.udp from_ env (some (.punchHoleRequest ph))) = some t)
    (hpasses : Passes cfg d s (.udp from_ env (some (.punchHoleRequest ph))))
    (hmap : s.registry.map d = some peer) :
    ∃ msg, t.log = s.log ++ [(.udp from_, .forward d (.inr peer.socketAddr) msg)] := by
  obtain ⟨rfl, hpasses⟩ := hpasses
  obtain ⟨⟨⟨msg, to?⟩, registry, sessions⟩, h⟩ : ∃ r,
    handlePunchHoleRequest cfg env.toPunchEnv s.registry s.sessions from_ ph false = r := ⟨_, rfl⟩
  obtain ⟨peerAddr, rfl⟩ : ∃ peerAddr, to? = some peerAddr := by
    rw [h] at hpasses
    exact Option.ne_none_iff_exists'.mp hpasses
  obtain rfl : peerAddr = peer.socketAddr := addr_of_passed hmap (by rw [h])
  refine ⟨msg, ?_⟩
  rw [log_step hstep]
  simp only [effects, handleUdp, handleUdpPunchHoleRequest, h]
  rfl

/-- The event is delivered on the WebSocket of a connection. -/
def Delivered (d : String) (w : C) (ev : HbbsEvent C) (s t : Rendezvous C) : Prop :=
  ∃ msg, t.log = s.log ++ [(ev.source, .forward d (.inl w) msg)]

/-- The event is over a connection. -/
def IsTcp : HbbsEvent C → Prop
  | .tcp _ _ _ => True
  | _ => False

/-- Whether a request that passes is delivered on the WebSocket: it is over a connection, and the sink is
still kept. -/
theorem delivered_iff_wsMap (hs : OnWs w addr d s) (hpasses : Passes cfg d s ev) (hstep : step cfg s ev = some t) :
    Delivered d w ev s t ↔ IsTcp ev ∧ s.wsMap (tryIntoV4 addr) = some w := by
  obtain ⟨-, peer, hmap, rfl⟩ := hs
  cases ev with
  | accept | close => exact hpasses.elim
  | tcp c env msg =>
    cases msg with
    | none => exact hpasses.elim
    | some m =>
      cases m with
      | punchHoleRequest ph =>
        obtain ⟨msg, hlog⟩ := log_of_passes_tcp hstep hpasses hmap
        rw [Delivered, hlog]
        cases hws : s.wsMap (tryIntoV4 peer.socketAddr) with
        | none => simp [HbbsEvent.source]
        | some w' => simp [HbbsEvent.source, IsTcp, eq_comm]
      | _ => exact hpasses.elim
  | udp from_ env msg =>
    cases msg with
    | none => exact hpasses.elim
    | some m =>
      cases m with
      | punchHoleRequest ph =>
        obtain ⟨msg, hlog⟩ := log_of_passes_udp hstep hpasses hmap
        rw [Delivered, hlog]
        simp [HbbsEvent.source, IsTcp]
      | _ => exact hpasses.elim

/-- **A request for a peer on a WebSocket is delivered there** exactly if it comes over a connection and
no request over a connection has passed to the address since the registration. In the run in between, the
registration is left alone. -/
theorem delivered_iff_first {evs : List (HbbsEvent C)} {v : Rendezvous C} {ev : HbbsEvent C}
    (hregistered : RegisteredWs cfg w addr d s t)
    (hrun : Run (Only (Alone cfg w addr d) (Steps (step cfg))) t evs u)
    (hpasses : Passes cfg d u ev) (hstep : step cfg u ev = some v) :
    Delivered d w ev u v ↔ IsTcp ev ∧
      Run (Only (fun s ev => ¬ PassesTo cfg (tryIntoV4 addr) s ev) (Steps (step cfg))) t evs u := by
  obtain ⟨honWs, hkept⟩ := hregistered.onWs
  have honWs' : OnWs w addr d u :=
    hrun.invariant (fun _ _ _ (h : OnWs w addr d _) hstep => h.step hstep.1 hstep.2) honWs
  rw [delivered_iff_wsMap honWs' hpasses hstep]
  refine and_congr_right fun _ => ?_
  constructor
  · intro hstill
    obtain honly | ⟨before, ev, after, m, m', -, hbefore, hnot, hstep, hafter⟩ :=
      hrun.only_or_not fun s ev => ¬ PassesTo cfg (tryIntoV4 addr) s ev
    · exact honly.mono fun _ _ _ h => ⟨h.1, h.2.2⟩
    · -- after a request that passed, the place is empty or another's to the end
      have hm : OnWs w addr d m :=
        hbefore.invariant (fun _ _ _ (h : OnWs w addr d _) hstep => h.step hstep.1 hstep.2) honWs
      have hgone : m'.wsMap (tryIntoV4 addr) ≠ some w := by
        obtain ⟨-, hnone⟩ | ⟨hpasses, -⟩ := hm.wsMap_step hstep.1 hstep.2
        · rw [hnone]
          simp
        · exact absurd hpasses hnot
      have hend := hafter.invariant
        (fun s ev t (h : OnWs w addr d s ∧ s.wsMap (tryIntoV4 addr) ≠ some w) hstep =>
          (⟨h.1.step hstep.1 hstep.2, h.1.stays_gone hstep.1 hstep.2 h.2⟩ :
            OnWs w addr d t ∧ t.wsMap (tryIntoV4 addr) ≠ some w))
        ⟨hm.step hstep.1 hstep.2, hgone⟩
      exact absurd hstill hend.2
  · intro hfirst
    have hend := (hfirst.only_both hrun).invariant
      (fun s ev t (h : OnWs w addr d s ∧ s.wsMap (tryIntoV4 addr) = some w) hstep =>
        (⟨h.1.step hstep.2.1 hstep.2.2, h.1.stays_kept hstep.2.1 hstep.2.2 hstep.1 h.2⟩ :
          OnWs w addr d t ∧ t.wsMap (tryIntoV4 addr) = some w))
      ⟨honWs, hkept⟩
    exact hend.2

/-! ## Two requests -/

/-- The address of a WebSocket, as the proxy gives it. -/
def exampleWs : SocketAddr := ⟨.ofOctets 10 0 0 1, 0⟩

def exampleRequest : HbbsEvent ℕ := .tcp 0 exampleHbbsEnv (some (.punchHoleRequest examplePunch))

/-- The WebSocket is connection 1; it registers, and registers again after connection 0 is there. -/
def exampleRegistrations : List (HbbsEvent ℕ) :=
  [.accept 1 exampleWs true, .tcp 1 exampleHbbsEnv (some (.registerPk exampleDevice)),
    .accept 0 ⟨.ofOctets 10 0 0 2, 40000⟩ false,
    .tcp 1 exampleHbbsEnv (some (.registerPk exampleDevice))]

theorem exampleRegistered : RegisteredWs exampleConfig 1 exampleWs "123456789"
    (exampleAfter (exampleRegistrations.take 1)) (exampleAfter (exampleRegistrations.take 2)) :=
  ⟨⟨_, rfl, rfl, rfl, rfl⟩, exampleHbbsEnv, exampleDevice, rfl, rfl, rfl⟩

/-- The first request is delivered on the WebSocket. -/
theorem delivered_first :
    Delivered "123456789" 1 exampleRequest (exampleAfter exampleRegistrations)
      (exampleAfter (exampleRegistrations ++ [exampleRequest])) := by
  have halone : Run (Only (Alone exampleConfig 1 exampleWs "123456789") (Steps (step exampleConfig)))
      (exampleAfter (exampleRegistrations.take 2)) (exampleRegistrations.drop 2)
      (exampleAfter exampleRegistrations) := by
    refine .cons ⟨⟨fun _ h => h.elim, fun _ h => h.elim⟩, rfl⟩ (.cons ⟨⟨fun _ _ => rfl, ?_⟩, rfl⟩ (.nil _))
    rintro c ⟨rfl, -⟩
    rfl
  have hfirst : Run (Only (fun s ev => ¬ PassesTo exampleConfig (tryIntoV4 exampleWs) s ev)
      (Steps (step exampleConfig))) (exampleAfter (exampleRegistrations.take 2))
      (exampleRegistrations.drop 2) (exampleAfter exampleRegistrations) :=
    .cons ⟨id, rfl⟩ (.cons ⟨id, rfl⟩ (.nil _))
  have hpasses : Passes exampleConfig "123456789" (exampleAfter exampleRegistrations) exampleRequest := by
    show _ ∧ ∃ conn, _ ∧ _
    exact ⟨rfl, _, rfl, by decide⟩
  exact (delivered_iff_first exampleRegistered halone hpasses rfl).mpr ⟨trivial, hfirst⟩

/-- The second, which passes all checks as well, goes as a datagram to the address of the WebSocket. -/
theorem second_diverted :
    let s := exampleAfter (exampleRegistrations ++ [exampleRequest])
    let t := exampleAfter (exampleRegistrations ++ [exampleRequest, exampleRequest])
    RegisteredWs exampleConfig 1 exampleWs "123456789" (exampleAfter (exampleRegistrations.take 1))
        (exampleAfter (exampleRegistrations.take 2)) ∧
      Run (Steps (step exampleConfig)) (exampleAfter (exampleRegistrations.take 2))
        (exampleRegistrations.drop 2 ++ [exampleRequest]) s ∧
      Passes exampleConfig "123456789" s exampleRequest ∧
      step exampleConfig s exampleRequest = some t ∧ ¬ Delivered "123456789" 1 exampleRequest s t ∧
      ∃ msg, t.log = s.log ++ [(.conn 0, .forward "123456789" (.inr exampleWs) msg)] := by
  have hrun : Run (Steps (step exampleConfig)) (exampleAfter (exampleRegistrations.take 2))
      (exampleRegistrations.drop 2 ++ [exampleRequest])
      (exampleAfter (exampleRegistrations ++ [exampleRequest])) :=
    .cons rfl (.cons rfl (.cons rfl (.nil _)))
  have hpasses : Passes exampleConfig "123456789"
      (exampleAfter (exampleRegistrations ++ [exampleRequest])) exampleRequest := by
    show _ ∧ ∃ conn, _ ∧ _
    exact ⟨rfl, _, rfl, by decide⟩
  obtain ⟨msg, hlog⟩ : ∃ msg, (exampleAfter (exampleRegistrations ++ [exampleRequest, exampleRequest])).log =
      (exampleAfter (exampleRegistrations ++ [exampleRequest])).log ++
        [(.conn 0, .forward "123456789" (.inr exampleWs) msg)] := ⟨_, rfl⟩
  refine ⟨exampleRegistered, hrun, hpasses, rfl, ?_, msg, hlog⟩
  rintro ⟨msg', hlog'⟩
  rw [hlog] at hlog'
  simp at hlog'

end RustDesk.Server.Rendezvous
