import RustDesk.Server.Durability
import RustDesk.Server.RendezvousSteps

/-!
# Addresses of peers

References: `rustdesk-server/src/rendezvous_server.rs` (`update_addr`, `handle_register_pk`) and
`src/peer.rs` (`get`, `get_or`, `update_pk`).

A peer in memory stays there, and its address changes only where `RegisterPeer` or `RegisterPk` is
accepted for its id.
-/

namespace RustDesk.Server

open Net

namespace Registry

variable {s : Registry} {d id : String} {peer : LivePeer} {res : RegisterPkResult}

/-- A look leaves the peers in memory alone. -/
theorem map_get (hmap : s.map d = some peer) (now : ℕ) (getPeerOk : Bool) (id : String) :
    (s.get now getPeerOk id).2.map d = some peer := by
  obtain ⟨_, -, h⟩ | ⟨row, hnone, -, h⟩ | ⟨-, -, h⟩ := s.get_cases now getPeerOk id
  · rw [h]
    exact hmap
  · have hne : d ≠ id := by
      rintro rfl
      rw [hmap] at hnone
      cases hnone
    rw [h]
    exact (set_map_of_ne s hne _).trans hmap
  · rw [h]
    exact hmap

theorem get_of_map (hmap : s.map id = some peer) (now : ℕ) (getPeerOk : Bool) :
    s.get now getPeerOk id = (some peer, s) := by
  simp [get, hmap]

theorem getOr_of_map (hmap : s.map id = some peer) (now : ℕ) (getPeerOk : Bool) :
    s.getOr now getPeerOk id = (peer, s) := by
  simp [getOr, get_of_map hmap]

theorem map_getOr_of_ne (hne : d ≠ id) (now : ℕ) (getPeerOk : Bool) :
    (s.getOr now getPeerOk id).2.map d = s.map d := by
  obtain ⟨peer, -, h⟩ | ⟨row, -, -, h⟩ | ⟨-, -, h⟩ := s.get_cases now getPeerOk id
  · simp only [getOr, h]
  · simp only [getOr, h, set_map_of_ne s hne]
  · simp only [getOr, h, set_map_of_ne s hne]

variable {io : RegisterIo} {addr : SocketAddr} {uuid pk : List UInt8} {ip : String}

theorem map_updatePk_self (s : Registry) (io : RegisterIo) (id : String) (peer : LivePeer)
    (addr : SocketAddr) (uuid pk : List UInt8) (ip : String) :
    ∃ peer', (s.updatePk io id peer addr uuid pk ip).2.map id = some peer' ∧ peer'.socketAddr = addr := by
  unfold updatePk
  by_cases hguid : peer.guid = []
  · simp only [LivePeer.register, hguid, if_true]
    split <;> exact ⟨_, set_map_self _ id _, rfl⟩
  · simp only [LivePeer.register, hguid, if_false]
    split <;> exact ⟨_, set_map_self _ id _, rfl⟩

theorem map_updatePk_of_ne (hne : d ≠ id) : (s.updatePk io id peer addr uuid pk ip).2.map d = s.map d := by
  unfold updatePk
  by_cases hguid : peer.guid = []
  · simp only [LivePeer.register, hguid, if_true]
    split
    · exact (set_map_of_ne _ hne _).trans (set_map_of_ne s hne _)
    · exact set_map_of_ne s hne _
  · simp only [LivePeer.register, hguid, if_false]
    split <;> exact set_map_of_ne s hne _

/-- A registration is refused, and the peer may have come into memory for it, or it is answered OK, and
the peer is there with its old address or with the new one. Over WebSocket it is the new one. -/
theorem handleRegisterPk_cases (s : Registry) (io : RegisterIo) (rk : RegisterPk) (addr : SocketAddr)
    (ip : String) (ws : Bool) :
    ((∃ e, (s.handleRegisterPk io rk addr ip ws).1 = .error e) ∧ ((s.handleRegisterPk io rk addr ip ws).2 = s ∨
        (s.handleRegisterPk io rk addr ip ws).2 = (s.getOr io.now io.getPeerOk rk.id).2)) ∨
    (s.handleRegisterPk io rk addr ip ws).1 = .ok .ok ∧ ∃ peer u,
      peer.socketAddr = (s.getOr io.now io.getPeerOk rk.id).1.socketAddr ∧
      u = (s.getOr io.now io.getPeerOk rk.id).2.set rk.id peer ∧
      (ws = false ∧ (s.handleRegisterPk io rk addr ip ws).2 = u ∨ (s.handleRegisterPk io rk addr ip ws).2 =
          (u.updatePk io rk.id peer addr rk.uuid rk.pk ip).2) := by
  unfold handleRegisterPk
  by_cases hempty : rk.uuid = [] ∨ rk.pk = []
  · rw [if_pos hempty]
    exact .inl ⟨⟨_, rfl⟩, .inl rfl⟩
  rw [if_neg hempty]
  by_cases hlength : rk.id.utf8ByteSize < 6
  · rw [if_pos hlength]
    exact .inl ⟨⟨_, rfl⟩, .inl rfl⟩
  rw [if_neg hlength]
  by_cases hblocked : ¬ io.ipAllowed = true
  · rw [if_pos hblocked]
    exact .inl ⟨⟨_, rfl⟩, .inl rfl⟩
  rw [if_neg hblocked]
  generalize s.getOr io.now io.getPeerOk rk.id = r
  obtain ⟨peer, s'⟩ := r
  simp only
  cases PeerMap.checkPeer peer.toPeer rk ip with
  | error e => exact .inl ⟨⟨e, rfl⟩, .inr rfl⟩
  | ok changed =>
    simp only
    cases peer.countRegPk io.now with
    | error e => exact .inl ⟨⟨e, rfl⟩, .inr rfl⟩
    | ok regPk =>
      simp only
      by_cases hwrite : changed = true ∨ ws = true
      · rw [if_pos hwrite]
        exact .inr ⟨rfl, { peer with regPk }, _, rfl, rfl, .inr rfl⟩
      · rw [if_neg hwrite]
        exact .inr ⟨rfl, { peer with regPk }, _, rfl, rfl, .inl ⟨by simp_all, rfl⟩⟩

variable {rk : RegisterPk} {ws : Bool}

section

variable (h : (s.handleRegisterPk io rk addr ip ws).1 = .ok res)
include h

/-- There is one answer to a registration that is not refused. -/
theorem handleRegisterPk_eq_ok : res = .ok := by
  obtain ⟨⟨e, he⟩, -⟩ | ⟨hok, -⟩ := s.handleRegisterPk_cases io rk addr ip ws
  · rw [he] at h
    cases h
  · rw [hok] at h
    exact (Except.ok.inj h).symm

/-- An id that is too short is refused. -/
theorem id_ne_of_handleRegisterPk : rk.id ≠ "" := by
  intro hid
  have hlength : rk.id.utf8ByteSize < 6 := by
    rw [hid]
    decide
  unfold handleRegisterPk at h
  by_cases hempty : rk.uuid = [] ∨ rk.pk = []
  · rw [if_pos hempty] at h
    cases h
  · rw [if_neg hempty, if_pos hlength] at h
    cases h

end

theorem map_handleRegisterPk_of_ne (hne : d ≠ rk.id) : (s.handleRegisterPk io rk addr ip ws).2.map d = s.map d := by
  have hgetOr := map_getOr_of_ne (s := s) hne io.now io.getPeerOk
  obtain ⟨-, h | h⟩ | ⟨-, peer, u, -, rfl, ⟨-, h⟩ | h⟩ := s.handleRegisterPk_cases io rk addr ip ws
  · rw [h]
  · rw [h, hgetOr]
  · rw [h, set_map_of_ne _ hne, hgetOr]
  · rw [h, map_updatePk_of_ne hne, set_map_of_ne _ hne, hgetOr]

/-- A peer in memory keeps its address, unless a registration for it is answered OK. -/
theorem map_handleRegisterPk (hmap : s.map d = some peer) :
    ∃ peer', (s.handleRegisterPk io rk addr ip ws).2.map d = some peer' ∧
      (peer'.socketAddr = peer.socketAddr ∨ rk.id = d ∧
        (s.handleRegisterPk io rk addr ip ws).1 = .ok .ok ∧ peer'.socketAddr = addr) := by
  by_cases hid : rk.id = d
  swap
  · exact ⟨peer, (map_handleRegisterPk_of_ne (Ne.symm hid)).trans hmap, .inl rfl⟩
  subst hid
  obtain ⟨-, h | h⟩ | ⟨hok, peer', u, haddr, rfl, ⟨-, h⟩ | h⟩ := s.handleRegisterPk_cases io rk addr ip ws
  · exact ⟨peer, by rw [h, hmap], .inl rfl⟩
  · exact ⟨peer, by rw [h, getOr_of_map hmap, hmap], .inl rfl⟩
  · rw [getOr_of_map hmap] at haddr
    exact ⟨peer', by rw [h, set_map_self], .inl haddr⟩
  · rw [h]
    obtain ⟨peer'', hmap', haddr'⟩ := map_updatePk_self
      ((s.getOr io.now io.getPeerOk rk.id).2.set rk.id peer') io rk.id peer' addr rk.uuid rk.pk ip
    exact ⟨peer'', hmap', .inr ⟨rfl, hok, haddr'⟩⟩

/-- It keeps its address over a registration that is refused. -/
theorem map_handleRegisterPk_refused {e : RegisterPkResult} {s' : Registry} (hmap : s.map d = some peer)
    (h : s.handleRegisterPk io rk addr ip ws = (.error e, s')) :
    ∃ peer', s'.map d = some peer' ∧ peer'.socketAddr = peer.socketAddr := by
  have hfst := congrArg Prod.fst h
  have hsnd : (s.handleRegisterPk io rk addr ip ws).2 = s' := congrArg Prod.snd h
  obtain ⟨peer', hmap', haddr | ⟨-, hok, -⟩⟩ := map_handleRegisterPk hmap
  · exact ⟨peer', hsnd ▸ hmap', haddr⟩
  · cases hok.symm.trans hfst

/-- A registration that is answered OK leaves a peer, over WebSocket with the address of the
connection. -/
theorem map_handleRegisterPk_ok (hok : (s.handleRegisterPk io rk addr ip ws).1 = .ok res) :
    ∃ peer', (s.handleRegisterPk io rk addr ip ws).2.map rk.id = some peer' ∧
      (ws = true → peer'.socketAddr = addr) := by
  obtain ⟨⟨e, he⟩, -⟩ | ⟨-, peer, u, -, rfl, ⟨hws, h⟩ | h⟩ := s.handleRegisterPk_cases io rk addr ip ws
  · rw [he] at hok
    cases hok
  · refine ⟨peer, by rw [h, set_map_self], fun hws' => ?_⟩
    rw [hws] at hws'
    cases hws'
  · rw [h]
    obtain ⟨peer', hmap, haddr⟩ := map_updatePk_self
      ((s.getOr io.now io.getPeerOk rk.id).2.set rk.id peer) io rk.id peer addr rk.uuid rk.pk ip
    exact ⟨peer', hmap, fun _ => haddr⟩

/-- A peer in memory keeps its address, unless `update_addr` takes the new one for it. -/
theorem map_updateAddr (hmap : s.map d = some peer) (now : ℕ) :
    ∃ peer', (s.updateAddr now id addr ip).2.map d = some peer' ∧ (peer'.socketAddr = peer.socketAddr ∨
        id = d ∧ peer.requestPk addr ip = false ∧ peer'.socketAddr = addr) := by
  by_cases hid : id = d
  · subst hid
    simp only [updateAddr, hmap, set_map_self, Option.some.injEq, exists_eq_left', LivePeer.updateAddr]
    cases hrequest : peer.requestPk addr ip with
    | true => exact .inl rfl
    | false => exact .inr ⟨trivial, rfl, rfl⟩
  · refine ⟨peer, ?_, .inl rfl⟩
    unfold updateAddr
    cases s.map id with
    | none => exact hmap
    | some old => exact (set_map_of_ne s (Ne.symm hid) _).trans hmap

end Registry

/-- A request looks at one peer at most. -/
theorem registry_handlePunchHoleRequest (cfg : HbbsConfig) (env : PunchEnv) (s : Registry)
    (sessions : Sessions) (addr : SocketAddr) (ph : PunchHoleRequest) (ws : Bool) :
    (handlePunchHoleRequest cfg env s sessions addr ph ws).2.1 = s ∨
      (handlePunchHoleRequest cfg env s sessions addr ph ws).2.1 = (s.get env.now env.getPeerOk ph.id).2 := by
  have hpunch : (punch cfg env s addr ph ws).2 = (s.get env.now env.getPeerOk ph.id).2 := by
    unfold punch
    generalize s.get env.now env.getPeerOk ph.id = r
    obtain ⟨peer, s'⟩ := r
    cases peer with
    | none => rfl
    | some peer =>
      simp only
      split <;> rfl
  unfold handlePunchHoleRequest
  cases checkLogin cfg env ph with
  | error msg => exact .inl rfl
  | ok admitted =>
    cases admitted with
    | none => exact .inr hpunch
    | some admitted =>
      simp only
      generalize checkSession env sessions admitted.1 admitted.2 ph.id = r
      obtain ⟨refusal, sessions'⟩ := r
      cases refusal with
      | some msg => exact .inl rfl
      | none => exact .inr hpunch

/-- The address of a request that passes is that of the peer. -/
theorem addr_of_passed {cfg : HbbsConfig} {env : PunchEnv} {s : Registry} {sessions : Sessions}
    {addr peerAddr : SocketAddr} {ph : PunchHoleRequest} {ws : Bool} {peer : LivePeer}
    (hmap : s.map ph.id = some peer)
    (h : (handlePunchHoleRequest cfg env s sessions addr ph ws).1.2 = some peerAddr) :
    peerAddr = peer.socketAddr := by
  have hpunch : (punch cfg env s addr ph ws).1.2 = some peerAddr → peerAddr = peer.socketAddr := by
    intro h
    simp only [punch, Registry.get_of_map hmap] at h
    by_cases helapsed : peer.elapsed env.now ≥ regTimeout
    · rw [if_pos helapsed] at h
      cases h
    · rw [if_neg helapsed] at h
      exact (Option.some.inj h).symm
  unfold handlePunchHoleRequest at h
  cases hlogin : checkLogin cfg env ph with
  | error msg => simp [hlogin] at h
  | ok admitted =>
    cases admitted with
    | none => exact hpunch (by simpa [hlogin] using h)
    | some admitted =>
      obtain ⟨claims, sub⟩ := admitted
      simp only [hlogin] at h
      generalize checkSession env sessions claims sub ph.id = r at h
      obtain ⟨refusal, sessions'⟩ := r
      cases refusal with
      | some msg => cases h
      | none => exact hpunch h

namespace Rendezvous

variable {C : Type*} {cfg : HbbsConfig} {env : HbbsEnv} {s t : Rendezvous C} {d : String}
  {peer : LivePeer}

theorem Looked.map {registry : Registry} (h : Looked env s registry)
    (hmap : s.registry.map d = some peer) : registry.map d = some peer := by
  rcases h with rfl | ⟨id, rfl⟩
  · exact hmap
  · exact Registry.map_get hmap _ _ id

theorem looked_of_request {addr : SocketAddr} {ph : PunchHoleRequest} {ws : Bool}
    {answer : RendezvousMessage × Option SocketAddr} {registry : Registry} {sessions : Sessions}
    (h : handlePunchHoleRequest cfg env.toPunchEnv s.registry s.sessions addr ph ws =
      (answer, registry, sessions)) : Looked env s registry := by
  have hlooked := registry_handlePunchHoleRequest cfg env.toPunchEnv s.registry s.sessions addr ph ws
  rw [h] at hlooked
  exact hlooked.imp_right fun h => ⟨ph.id, h⟩

/-- The event registers the device at an address: a `RegisterPeer` that is not asked for a key, or a
`RegisterPk` that is answered OK. -/
def RegistersAt (cfg : HbbsConfig) (d : String) (s : Rendezvous C) (addr : SocketAddr) :
    HbbsEvent C → Prop
  | .tcp c _ (some (.registerPeer rp)) => rp.id = d ∧ (∃ conn, s.conn c = some conn ∧ conn.addr = addr) ∧
    ∃ peer, s.registry.map d = some peer ∧ peer.requestPk addr (cfg.ipText addr.ip) = false
  | .tcp c env (some (.registerPk rk)) => rk.id = d ∧ ∃ conn, s.conn c = some conn ∧ conn.addr = addr ∧
    (s.registry.handleRegisterPk env.registerIo rk addr (cfg.ipText addr.ip) conn.ws).1 = .ok .ok
  | .udp from_ _ (some (.registerPeer rp)) => rp.id = d ∧ from_ = addr ∧
    ∃ peer, s.registry.map d = some peer ∧ peer.requestPk addr (cfg.ipText addr.ip) = false
  | .udp from_ env (some (.registerPk rk)) => rk.id = d ∧ from_ = addr ∧
    (s.registry.handleRegisterPk env.registerIo rk addr (cfg.ipText addr.ip) false).1 = .ok .ok
  | _ => False

variable [DecidableEq C]

theorem registry_keepWs (s : Rendezvous C) (c : C) (conn : Conn) :
    (if conn.ws then s.keepWs c conn else s).registry = s.registry := by
  unfold keepWs
  repeat' split
  all_goals rfl

@[simp] theorem registry_finish (s : Rendezvous C) (c : C) (after : After) :
    (s.finish c after).registry = s.registry := by
  cases after with
  | «continue» | panic => rfl
  | stop =>
    show (s.cleanup c).registry = s.registry
    unfold cleanup
    split <;> rfl

/-- **A peer in memory stays**, with the address that it had or with the one that the event registers it
at. -/
theorem map_step {ev : HbbsEvent C} (hstep : step cfg s ev = some t) (hmap : s.registry.map d = some peer) :
    ∃ peer', t.registry.map d = some peer' ∧
      (peer'.socketAddr = peer.socketAddr ∨ RegistersAt cfg d s peer'.socketAddr ev) := by
  cases step_stepped hstep with
  | accept => exact ⟨peer, hmap, .inl rfl⟩
  | @close c => exact ⟨peer, by rw [← hmap]; exact congrArg (·.map d) (registry_finish s c .stop), .inl rfl⟩
  | @tcp c env msg conn u effs after hconn hopen hu hacts =>
    rw [registry_finish]
    show ∃ peer', u.registry.map d = some peer' ∧ _
    cases hacts with
    | quiet | keyExchange => exact ⟨peer, hmap, .inl rfl⟩
    | registerPeer =>
      obtain ⟨peer', hmap', haddr | ⟨hid, hrequest, haddr⟩⟩ := Registry.map_updateAddr hmap env.now
      · exact ⟨peer', hmap', .inl haddr⟩
      · exact ⟨peer', hmap', .inr (haddr ▸ ⟨hid, ⟨conn, hconn, rfl⟩, peer, hmap, hrequest⟩)⟩
    | registerPkRefused h =>
      obtain ⟨peer', hmap', haddr⟩ := Registry.map_handleRegisterPk_refused hmap h
      exact ⟨peer', hmap', .inl haddr⟩
    | registerPk h hreply hv =>
      obtain ⟨peer', hmap', haddr | ⟨hid, hok, haddr⟩⟩ := Registry.map_handleRegisterPk hmap
      · exact ⟨peer', by rw [registry_keepWs, hv, ← hmap', h], .inl haddr⟩
      · exact ⟨peer', by rw [registry_keepWs, hv, ← hmap', h], .inr (haddr ▸ ⟨hid, conn, hconn, rfl, hok⟩)⟩
    | passed h | refused h => exact ⟨peer, (looked_of_request h).map hmap, .inl rfl⟩
    | relay => exact ⟨peer, by rw [registry_park, hmap], .inl rfl⟩
    | answer hto h =>
      obtain ⟨registry, hlooked, rfl⟩ := h.state
      exact ⟨peer, hlooked.map hmap, .inl rfl⟩
  | @udp addr env msg u effs hu hacts =>
    show ∃ peer', u.registry.map d = some peer' ∧ _
    cases hacts with
    | quiet => exact ⟨peer, hmap, .inl rfl⟩
    | registerPeer =>
      obtain ⟨peer', hmap', haddr | ⟨hid, hrequest, haddr⟩⟩ := Registry.map_updateAddr hmap env.now
      · exact ⟨peer', hmap', .inl haddr⟩
      · exact ⟨peer', hmap', .inr (by rw [haddr]; exact ⟨hid, rfl, peer, hmap, hrequest⟩)⟩
    | registerPkRefused h =>
      obtain ⟨peer', hmap', haddr⟩ := Registry.map_handleRegisterPk_refused hmap h
      exact ⟨peer', hmap', .inl haddr⟩
    | registerPk h =>
      obtain ⟨peer', hmap', haddr | ⟨hid, hok, haddr⟩⟩ := Registry.map_handleRegisterPk hmap
      · exact ⟨peer', by rw [← hmap', h], .inl haddr⟩
      · exact ⟨peer', by rw [← hmap', h], .inr (by rw [haddr]; exact ⟨hid, rfl, hok⟩)⟩
    | passed h | refused h => exact ⟨peer, (looked_of_request h).map hmap, .inl rfl⟩
    | answer hlooked => exact ⟨peer, hlooked.map hmap, .inl rfl⟩

end Rendezvous

end RustDesk.Server
