import RustDesk.Server.LoginEnforcement
import RustDesk.Server.PeerAddresses

/-!
# Answers of peers

References: `rustdesk-server/src/rendezvous_server.rs` (`handle_tcp`, `handle_hole_sent`,
`handle_local_addr`, `get_pk`, `send_to_tcp`, `send_to_tcp_sync`).

A request leaves the sink of its connection in `tcp_punch`, under the key of its address. An answer says
itself which address it is for, and whoever sends it takes the sink there: nothing compares the sender
with the device that was asked for, and the id in the answer, whose key goes into the response, is the
sender's choice. Over UDP an answer is passed on as a datagram, and no sink is touched.
-/

namespace RustDesk.Server

open Net Handshake

/-- A response that tells a client where to connect to. -/
def RendezvousMessage.Directs : RendezvousMessage → Prop
  | .punchHoleResponse phr => phr.socketAddr ≠ []
  | .relayResponse _ => True
  | _ => False

/-- A message goes to the sink of a connection. -/
def Effect.SentTo {C : Type*} (a : C) (msg : RendezvousMessage) : Effect C → Prop
  | .send c msg' | .forward _ (.inl c) msg' => c = a ∧ msg' = msg
  | _ => False

theorem not_directs_refuse (text : String) : ¬ (refuse text).Directs := fun h => h rfl

theorem not_directs_fail (failure : Failure) : ¬ (fail failure).Directs := fun h => h rfl

section

variable {cfg : HbbsConfig} {env : PunchEnv} {ph : PunchHoleRequest} {msg : RendezvousMessage}

theorem not_directs_checkLogin (h : checkLogin cfg env ph = .error msg) : ¬ msg.Directs := by
  have hrefused : (∃ text, msg = refuse text) ∨ ∃ failure, msg = fail failure := by
    unfold checkLogin at h
    repeat' split at h
    all_goals cases h
    exacts [.inr ⟨_, rfl⟩, .inl ⟨_, rfl⟩, .inl ⟨_, rfl⟩, .inl ⟨_, rfl⟩, .inl ⟨_, rfl⟩, .inl ⟨_, rfl⟩,
      .inl ⟨_, rfl⟩, .inl ⟨_, rfl⟩]
  obtain ⟨text, rfl⟩ | ⟨failure, rfl⟩ := hrefused
  · exact not_directs_refuse text
  · exact not_directs_fail failure

theorem not_directs_checkSession {sessions sessions' : Sessions} {claims : Claims} {sub : Subscription}
    {id : String}
    (h : checkSession env sessions claims sub id = (some msg, sessions')) : ¬ msg.Directs := by
  unfold checkSession at h
  generalize checkAndRegister env sessions claims.userId claims.uuid (asI32 sub.concurrentLimit) = r at h
  obtain ⟨ok, sessions''⟩ := r
  cases ok with
  | false => exact (Option.some.inj (Prod.mk.inj h).1) ▸ not_directs_refuse _
  | true =>
    cases hpermission : env.permission claims.userId id with
    | none =>
      simp only [hpermission] at h
      exact (Option.some.inj (Prod.mk.inj h).1) ▸ not_directs_refuse _
    | some permitted =>
      simp only [hpermission] at h
      cases permitted with
      | false => exact (Option.some.inj (Prod.mk.inj h).1) ▸ not_directs_refuse _
      | true => cases h

/-- What `handle_punch_hole_request` gives is a refusal or a message for the peer. -/
theorem not_directs_request {s registry : Registry} {sessions sessions' : Sessions} {addr : SocketAddr}
    {ws : Bool} {to? : Option SocketAddr}
    (h : handlePunchHoleRequest cfg env s sessions addr ph ws = ((msg, to?), registry, sessions')) :
    ¬ msg.Directs := by
  have hpunch : ¬ (punch cfg env s addr ph ws).1.1.Directs := by
    unfold punch
    generalize s.get env.now env.getPeerOk ph.id = r
    obtain ⟨peer, s'⟩ := r
    cases peer with
    | none => exact not_directs_fail .idNotExist
    | some peer =>
      simp only
      split
      · exact not_directs_fail .offline
      · unfold punchMessage
        simp only
        split <;> exact id
  unfold handlePunchHoleRequest at h
  cases hlogin : checkLogin cfg env ph with
  | error msg' =>
    rw [hlogin] at h
    obtain rfl := (Prod.mk.inj (Prod.mk.inj h).1).1
    exact not_directs_checkLogin hlogin
  | ok admitted =>
    rw [hlogin] at h
    cases admitted with
    | none =>
      obtain rfl := (Prod.mk.inj (Prod.mk.inj h).1).1
      exact hpunch
    | some admitted =>
      obtain ⟨claims, sub⟩ := admitted
      simp only at h
      cases hsession : checkSession env sessions claims sub ph.id with
      | mk refusal sessions'' =>
        rw [hsession] at h
        cases refusal with
        | some msg' =>
          obtain rfl := (Prod.mk.inj (Prod.mk.inj h).1).1
          exact not_directs_checkSession hsession
        | none =>
          obtain rfl := (Prod.mk.inj (Prod.mk.inj h).1).1
          exact hpunch

end

namespace Rendezvous

variable {C P : Type*} {cfg : HbbsConfig} {s t u : Rendezvous C} {d : String} {key : SocketAddr} {a : C}

/-- The event is an answer for the sink under a key. -/
def Answers (key : SocketAddr) (m : RendezvousMessage) : HbbsEvent C → Prop
  | .tcp _ _ msg => msg = some m ∧ ∃ addr, m.answerTo = some addr ∧ tryIntoV4 addr = key
  | _ => False

/-- The event comes from who is registered as the device: a party may use many connections. -/
def FromPeer (party : Source C → P) (d : String) (s : Rendezvous C) (ev : HbbsEvent C) : Prop :=
  ∃ source, s.registeredBy d = some source ∧ party ev.source = party source

/-- The key is that of the device, under the signature of the server. -/
def SignedKey (cfg : HbbsConfig) (s : Rendezvous C) (d : String) (pk : List UInt8) : Prop :=
  ∃ peer sk, s.registry.map d = some peer ∧ cfg.sk = some sk ∧
    pk = cfg.sign (IdPk.writeToBytes ⟨d, peer.pk⟩) sk

section

variable [DecidableEq C]

/-- A connection whose address has the key takes what is under it: it leaves its own sink there, or it
has none and is refused, or it has none and its read loop ends. -/
def Displaces (cfg : HbbsConfig) (key : SocketAddr) (s : Rendezvous C) : HbbsEvent C → Prop
  | .tcp c env msg => ∃ conn, s.conn c = some conn ∧ tryIntoV4 conn.addr = key ∧
    (conn.hasSink = true ∧ IsRequest msg ∨
      conn.hasSink = false ∧ ((∃ ph, msg = some (.punchHoleRequest ph) ∧
          (handlePunchHoleRequest cfg env.toPunchEnv s.registry s.sessions conn.addr ph conn.ws).1.2 =
            none) ∨
        (s.handleTcp cfg env c conn msg).2 = .stop))
  | .close c => ∃ conn, s.conn c = some conn ∧ tryIntoV4 conn.addr = key ∧ conn.hasSink = false
  | _ => False

end

/-- Every sink in `tcp_punch` is under the key of the address of its own connection, which is without
it. -/
def Owned (s : Rendezvous C) : Prop :=
  ∀ key c, s.tcpPunch key = some c →
    ∃ conn, s.conn c = some conn ∧ tryIntoV4 conn.addr = key ∧ conn.hasSink = false

variable [DecidableEq C] {env : HbbsEnv} {c : C} {conn : Conn} {msg : Option RendezvousMessage}
  {effs : List (Effect C)} {after : After}

theorem tcpPunch_park (s : Rendezvous C) (c : C) (conn : Conn) (key : SocketAddr) :
    (s.park c conn).tcpPunch key = s.tcpPunch key ∨
      conn.hasSink = true ∧ tryIntoV4 conn.addr = key ∧ (s.park c conn).tcpPunch key = some c ∧
        (s.park c conn).conn c = some { conn with hasSink := false } := by
  unfold park
  by_cases hsink : conn.hasSink = true
  · rw [if_pos hsink]
    by_cases hkey : tryIntoV4 conn.addr = key
    · subst hkey
      exact .inr ⟨hsink, rfl, Function.update_self .., Function.update_self ..⟩
    · exact .inl (Function.update_of_ne (Ne.symm hkey) ..)
  · rw [if_neg hsink]
    exact .inl rfl

theorem tcpPunch_finish (s : Rendezvous C) (c : C) (after : After) (key : SocketAddr) :
    (s.finish c after).tcpPunch key = s.tcpPunch key ∨ after = .stop ∧ (s.finish c after).tcpPunch key = none ∧
        ∃ conn, s.conn c = some conn ∧ tryIntoV4 conn.addr = key ∧ conn.hasSink = false := by
  cases after with
  | «continue» | panic => exact .inl rfl
  | stop =>
    show (s.cleanup c).tcpPunch key = _ ∨ _ ∧ (s.cleanup c).tcpPunch key = none ∧ _
    unfold cleanup
    cases hconn : s.conn c with
    | none => exact .inl rfl
    | some conn =>
      by_cases hsink : conn.hasSink = true
      · simp [hsink]
      · by_cases hkey : tryIntoV4 conn.addr = key
        · subst hkey
          exact .inr ⟨rfl, by simp [hsink], conn, rfl, rfl, by simpa using hsink⟩
        · exact .inl (by simp [hsink, Function.update_of_ne (Ne.symm hkey)])

/-- What a message does to a place in `tcp_punch`. -/
theorem TcpActs.tcpPunch (h : TcpActs cfg env s c conn msg u effs after) (key : SocketAddr) :
    u.tcpPunch key = s.tcpPunch key ∨
      ((∃ m addr, msg = some m ∧ m.answerTo = some addr ∧ tryIntoV4 addr = key) ∧ u.tcpPunch key = none) ∨
      (IsRequest msg ∧ tryIntoV4 conn.addr = key ∧ conn.hasSink = true ∧
        (u.tcpPunch key = none ∨ after = .continue ∧ u.tcpPunch key = some c ∧
          u.conn c = some { conn with hasSink := false })) ∨
      (∃ ph, msg = some (.punchHoleRequest ph) ∧ tryIntoV4 conn.addr = key ∧ u.tcpPunch key = none ∧
        (handlePunchHoleRequest cfg env.toPunchEnv s.registry s.sessions conn.addr ph conn.ws).1.2 = none) := by
  cases h with
  | quiet | keyExchange | registerPeer | registerPkRefused => exact .inl rfl
  | registerPk h hreply hv =>
    subst hv
    refine .inl ?_
    split
    · unfold keepWs
      split <;> rfl
    · rfl
  | @passed ph =>
    rcases tcpPunch_park s c conn key with hsame | ⟨hsink, hkey, hpunch, hconn⟩
    · exact .inl hsame
    · exact .inr (.inr (.inl ⟨.inl ⟨ph, rfl⟩, hkey, hsink, .inr ⟨rfl, hpunch, hconn⟩⟩))
  | @refused ph msg registry sessions h =>
    by_cases hkey : tryIntoV4 conn.addr = key
    · subst hkey
      exact .inr (.inr (.inr ⟨ph, rfl, rfl, Function.update_self .., by rw [h]⟩))
    · rcases tcpPunch_park s c conn key with hsame | ⟨-, hkey', -⟩
      · exact .inl ((Function.update_of_ne (Ne.symm hkey) ..).trans hsame)
      · exact absurd hkey' hkey
  | @relay rf =>
    rcases tcpPunch_park s c conn key with hsame | ⟨hsink, hkey, hpunch, hconn⟩
    · exact .inl hsame
    · exact .inr (.inr (.inl ⟨.inr ⟨rf, rfl⟩, hkey, hsink, .inr ⟨rfl, hpunch, hconn⟩⟩))
  | @answer m addr u effs hto h =>
    obtain ⟨registry, -, rfl⟩ := h.state
    by_cases hkey : tryIntoV4 addr = key
    · subst hkey
      exact .inr (.inl ⟨⟨m, addr, rfl, hto, rfl⟩, Function.update_self ..⟩)
    · exact .inl (Function.update_of_ne (Ne.symm hkey) ..)

/-! ## Invariants -/

theorem Owned.step {ev : HbbsEvent C} (hs : Owned s) (hstep : step cfg s ev = some t) : Owned t := by
  intro key c' hparked
  have hold : s.tcpPunch key = some c' →
      ∃ conn, t.conn c' = some conn ∧ tryIntoV4 conn.addr = key ∧ conn.hasSink = false := by
    intro hparked
    obtain ⟨conn, hconn, hkey, hsink⟩ := hs key c' hparked
    obtain ⟨conn', hconn', hlater⟩ := conn_step hstep hconn
    exact ⟨conn', hconn', by rw [hlater.1, hkey], hlater.2.2 hsink⟩
  cases step_stepped hstep with
  | accept => exact hold hparked
  | @close c =>
    rcases tcpPunch_finish s c .stop key with hsame | ⟨-, hnone, -⟩
    · exact hold (hsame.symm.trans hparked)
    · cases hnone.symm.trans hparked
  | @tcp c env msg conn u effs after hconn hopen hu hacts =>
    rcases tcpPunch_finish (record (.conn c) (u, effs)) c after key with hsame | ⟨-, hnone, -⟩
    swap
    · cases hnone.symm.trans hparked
    have hparked' : u.tcpPunch key = some c' := hsame.symm.trans hparked
    rcases hacts.tcpPunch key with hsame | ⟨-, hnone⟩ | ⟨-, hkey, -, hnone | ⟨rfl, hpunch, hconn'⟩⟩ |
      ⟨-, -, -, hnone, -⟩
    · exact hold (hsame.symm.trans hparked')
    · cases hnone.symm.trans hparked'
    · cases hnone.symm.trans hparked'
    · obtain rfl : c = c' := Option.some.inj (hpunch.symm.trans hparked')
      exact ⟨_, hconn', hkey, rfl⟩
    · cases hnone.symm.trans hparked'
  | udp hu hacts =>
    have hsame := congrFun hacts.sinks.2.2 key
    exact hold (hsame.symm.trans hparked)

/-- Who registered has a peer in memory. -/
def Known (s : Rendezvous C) : Prop :=
  ∀ d source, s.registeredBy d = some source → d ≠ "" ∧ ∃ peer, s.registry.map d = some peer

@[simp] theorem registeredBy_finish (s : Rendezvous C) (c : C) (after : After) :
    (s.finish c after).registeredBy = s.registeredBy := by
  cases after with
  | «continue» | panic => rfl
  | stop =>
    show (s.cleanup c).registeredBy = s.registeredBy
    unfold cleanup
    split <;> rfl

theorem registeredBy_keepWs (s : Rendezvous C) (c : C) (conn : Conn) :
    (if conn.ws then s.keepWs c conn else s).registeredBy = s.registeredBy := by
  unfold keepWs
  repeat' split
  all_goals rfl

@[simp] theorem registeredBy_park (s : Rendezvous C) (c : C) (conn : Conn) :
    (s.park c conn).registeredBy = s.registeredBy := by
  unfold park
  split <;> rfl

/-- Who is registered changes only with a registration, which leaves a peer in memory. -/
theorem TcpActs.registeredBy (h : TcpActs cfg env s c conn msg u effs after) (d : String) :
    u.registeredBy d = s.registeredBy d ∨ d ≠ "" ∧ ∃ peer, u.registry.map d = some peer := by
  cases h with
  | quiet | keyExchange | registerPeer | registerPkRefused => exact .inl rfl
  | @registerPk rk res registry effs v h hreply hv =>
    rw [registeredBy_keepWs, registry_keepWs, hv]
    by_cases hid : d = rk.id
    · subst hid
      have hok := congrArg Prod.fst h
      obtain ⟨peer, hmap, -⟩ := Registry.map_handleRegisterPk_ok hok
      rw [h] at hmap
      exact .inr ⟨Registry.id_ne_of_handleRegisterPk hok, peer, hmap⟩
    · exact .inl (Function.update_of_ne hid ..)
  | passed | refused | relay => exact .inl (congrFun (registeredBy_park s c conn) d)
  | answer hto h =>
    obtain ⟨registry, -, rfl⟩ := h.state
    exact .inl rfl

omit [DecidableEq C] in
theorem UdpActs.registeredBy {addr : SocketAddr} (h : UdpActs cfg env s addr msg u effs) (d : String) :
    u.registeredBy d = s.registeredBy d ∨ d ≠ "" ∧ ∃ peer, u.registry.map d = some peer := by
  cases h with
  | quiet | registerPeer | registerPkRefused | passed | refused | answer => exact .inl rfl
  | @registerPk rk res registry effs h =>
    by_cases hid : d = rk.id
    · subst hid
      have hok := congrArg Prod.fst h
      obtain ⟨peer, hmap, -⟩ := Registry.map_handleRegisterPk_ok hok
      rw [h] at hmap
      exact .inr ⟨Registry.id_ne_of_handleRegisterPk hok, peer, hmap⟩
    · exact .inl (Function.update_of_ne hid ..)

theorem Known.step {ev : HbbsEvent C} (hs : Known s) (hstep : step cfg s ev = some t) : Known t := by
  intro d source hregistered
  have hold : t.registeredBy d = s.registeredBy d → d ≠ "" ∧ ∃ peer, t.registry.map d = some peer := by
    intro hsame
    obtain ⟨hne, peer, hmap⟩ := hs d source (hsame.symm.trans hregistered)
    obtain ⟨peer', hmap', -⟩ := map_step hstep hmap
    exact ⟨hne, peer', hmap'⟩
  cases step_stepped hstep with
  | accept => exact hold rfl
  | @close c => exact hold (congrFun (registeredBy_finish s c .stop) d)
  | @tcp c env msg conn u effs after hconn hopen hu hacts =>
    rw [registry_finish]
    rcases hacts.registeredBy d with hsame | hnew
    · have hmap := hold ((congrFun (registeredBy_finish _ c after) d).trans hsame)
      rwa [registry_finish] at hmap
    · exact hnew
  | udp hu hacts =>
    rcases hacts.registeredBy d with hsame | hnew
    · exact hold hsame
    · exact hnew

/-! ## Pending requests -/

/-- A connection asks for a device, and its sink waits under the key of its address. -/
structure Pending (cfg : HbbsConfig) (a : C) (d : String) (key : SocketAddr) (s t : Rendezvous C) :
    Prop where
  asked : ∃ env, (∃ ph, ph.id = d ∧ step cfg s (.tcp a env (some (.punchHoleRequest ph))) = some t) ∨
    ∃ rf, rf.id = d ∧ step cfg s (.tcp a env (some (.requestRelay rf))) = some t
  parked : t.tcpPunch key = some a

/-- What directs the client in a step comes from the device with its signed key, and only an answer of
the device takes the sink. -/
structure ByPeer (cfg : HbbsConfig) (party : Source C → P) (d : String) (a : C) (key : SocketAddr)
    (s : Rendezvous C) (ev : HbbsEvent C) (t : Rendezvous C) : Prop where
  delivered : ∀ e ∈ effects cfg s ev, ∀ msg, e.SentTo a msg → msg.Directs →
    FromPeer party d s ev ∧ SignedKey cfg s d msg.pk
  kept : s.tcpPunch key = some a →
    t.tcpPunch key = some a ∨ FromPeer party d s ev ∧ ∃ m, Answers key m ev

/-- An event of another source. While the sink waits, an answer for it is the device's own and names the
device, with a version, and no other connection displaces it. -/
structure Proper (cfg : HbbsConfig) (party : Source C → P) (d : String) (a : C) (key : SocketAddr)
    (s : Rendezvous C) (ev : HbbsEvent C) : Prop where
  other : ev.source ≠ .conn a
  answers : s.tcpPunch key = some a → ∀ m, Answers key m ev →
    FromPeer party d s ev ∧ ∃ version, m.names = some (d, version) ∧ version ≠ ""
  stays : s.tcpPunch key = some a → ¬ Displaces cfg key s ev

/-- What holds while a request of a connection may be pending. -/
structure Serving (a : C) (key : SocketAddr) (s : Rendezvous C) : Prop where
  owned : Owned s
  known : Known s
  conn : ∃ conn, s.conn a = some conn ∧ tryIntoV4 conn.addr = key

theorem Serving.step {ev : HbbsEvent C} (hs : Serving a key s) (hstep : step cfg s ev = some t) :
    Serving a key t := by
  obtain ⟨conn, hconn, hkey⟩ := hs.conn
  obtain ⟨conn', hconn', hlater⟩ := conn_step hstep hconn
  exact ⟨hs.owned.step hstep, hs.known.step hstep, conn', hconn', by rw [hlater.1, hkey]⟩

omit [DecidableEq C] in
theorem Serving.key_eq (hs : Serving a key s) {key' : SocketAddr} (hparked : s.tcpPunch key' = some a) :
    key' = key := by
  obtain ⟨conn, hconn, hkey⟩ := hs.conn
  obtain ⟨conn', hconn', hkey', -⟩ := hs.owned key' a hparked
  obtain rfl : conn = conn' := Option.some.inj (hconn.symm.trans hconn')
  exact hkey'.symm.trans hkey

omit [DecidableEq C] in
/-- `get_pk` signs the key of a peer in memory. -/
theorem signedKey_getPk {peer : LivePeer} {sk : List UInt8} {version : String} (hsk : cfg.sk = some sk)
    (hversion : version ≠ "") (hmap : s.registry.map d = some peer) :
    SignedKey cfg s d (s.getPk cfg env version d).1 := by
  refine ⟨peer, sk, hmap, hsk, ?_⟩
  simp [getPk, hsk, hversion, Registry.get_of_map hmap]

theorem TcpActs.conn_of_stop (h : TcpActs cfg env s c conn msg u effs .stop) : u.conn = s.conn := by
  cases h with
  | quiet | keyExchange | registerPeer | registerPkRefused => rfl
  | answer hto h =>
    obtain ⟨registry, -, rfl⟩ := h.state
    rfl

variable {party : Source C → P} {ev : HbbsEvent C}

/-- Nothing but an answer for it takes a sink that is not displaced. -/
theorem kept_or_answered (hstep : step cfg s ev = some t) (hdisplaces : ¬ Displaces cfg key s ev) :
    t.tcpPunch key = s.tcpPunch key ∨ ∃ m, Answers key m ev := by
  cases step_stepped hstep with
  | accept => exact .inl rfl
  | @close c conn hconn =>
    rcases tcpPunch_finish s c .stop key with hsame | ⟨-, -, hends⟩
    · exact .inl hsame
    · exact absurd hends hdisplaces
  | @tcp c env msg conn u effs after hconn hopen hu hacts =>
    have hu' : u.tcpPunch key = s.tcpPunch key ∨ ∃ m, Answers key m (.tcp c env msg) := by
      rcases hacts.tcpPunch key with hsame | ⟨⟨m, addr, hmsg, hto, hkey⟩, -⟩ |
        ⟨hrequest, hkey, hsink, -⟩ | ⟨ph, rfl, hkey, -, hrefused⟩
      · exact .inl hsame
      · exact .inr ⟨m, hmsg, addr, hto, hkey⟩
      · exact absurd ⟨conn, hconn, hkey, .inl ⟨hsink, hrequest⟩⟩ hdisplaces
      · refine absurd ⟨conn, hconn, hkey, ?_⟩ hdisplaces
        cases hsink : conn.hasSink with
        | true => exact .inl ⟨rfl, .inl ⟨ph, rfl⟩⟩
        | false => exact .inr ⟨rfl, .inl ⟨ph, rfl, hrefused⟩⟩
    rcases hu' with hsame | hanswers
    swap
    · exact .inr hanswers
    rcases tcpPunch_finish (record (.conn c) (u, effs)) c after key with hfinish | ⟨rfl, -, hends⟩
    · exact .inl (hfinish.trans hsame)
    · -- the loop ends on a message that left the connection as it was
      obtain ⟨conn', hconn', hkey, hsink⟩ := hends
      rw [show (record (.conn c) (u, effs)).conn c = s.conn c from congrFun hacts.conn_of_stop c, hconn] at hconn'
      cases hconn'
      exact absurd ⟨conn, hconn, hkey, .inr ⟨hsink, .inr (by rw [hu])⟩⟩ hdisplaces
  | udp hu hacts => exact .inl (congrFun hacts.sinks.2.2 key)

/-- What directs the client in a step is an answer for its sink. -/
theorem answers_of_sentTo (hs : Serving a key s) (hstep : step cfg s ev = some t)
    (hother : ev.source ≠ .conn a) {e : Effect C} (he : e ∈ effects cfg s ev)
    {msg : RendezvousMessage} (hsent : e.SentTo a msg) (hdirects : msg.Directs) :
    s.tcpPunch key = some a ∧ ∃ m env, Answers key m ev ∧
      ∀ id version, m.names = some (id, version) → id ≠ "" → msg.pk = (s.getPk cfg env version id).1 := by
  cases sends_of_mem_effects hstep he with
  | @reply c env msg' e hreply =>
    have hne : c ≠ a := by
      rintro rfl
      exact hother rfl
    cases e with
    | send c' msg' => exact absurd (hreply.symm.trans hsent.1) hne
    | setKey | datagram => exact hsent.elim
    | forward => exact hreply.elim
  | setKey => exact hsent.elim
  | @passed _ _ _ _ dest msg' _ _ _ h =>
    cases dest with
    | inl w =>
      obtain ⟨-, rfl⟩ := hsent
      exact absurd hdirects (not_directs_request h)
    | inr addr => exact hsent.elim
  | refused h =>
    obtain ⟨-, rfl⟩ := hsent
    exact absurd hdirects (not_directs_request h)
  | relay => exact hsent.elim
  | @answer c c' env m reply addr hto hparked hpk =>
    obtain ⟨rfl, rfl⟩ := hsent
    obtain rfl := hs.key_eq hparked
    exact ⟨hparked, m, env, ⟨rfl, addr, hto, rfl⟩, hpk⟩
  | @datagram _ _ _ e h =>
    cases e with
    | datagram => exact hsent.elim
    | send | setKey | forward => exact h.elim
  | passedUdp => exact hsent.elim

theorem Proper.byPeer {sk : List UInt8} (hsk : cfg.sk = some sk) (hs : Serving a key s)
    (hproper : Proper cfg party d a key s ev) (hstep : step cfg s ev = some t) :
    ByPeer cfg party d a key s ev t where
  delivered := by
    intro e he msg hsent hdirects
    obtain ⟨hparked, m, env, hanswers, hpk⟩ := answers_of_sentTo hs hstep hproper.other he hsent hdirects
    obtain ⟨hpeer, version, hnames, hversion⟩ := hproper.answers hparked m hanswers
    obtain ⟨source, hregistered, hparty⟩ := hpeer
    obtain ⟨hne, peer, hmap⟩ := hs.known d source hregistered
    rw [hpk d version hnames hne]
    exact ⟨⟨source, hregistered, hparty⟩, signedKey_getPk hsk hversion hmap⟩
  kept := by
    intro hparked
    rcases kept_or_answered hstep (hproper.stays hparked) with hsame | ⟨m, hanswers⟩
    · exact .inl (hsame.trans hparked)
    · exact .inr ⟨(hproper.answers hparked m hanswers).1, m, hanswers⟩

/-- **Only the peer that was asked for answers**, in every run in which, while the sink of the request
waits, every answer for it is the peer's and names the device, and no other connection displaces it. -/
theorem answered_by_peer (party : Source C → P) {registry : Registry} {sessions : Sessions}
    {sk : List UInt8} {before evs : List (HbbsEvent C)} (hsk : cfg.sk = some sk)
    (hbefore : Run (Steps (step cfg)) (start registry sessions) before s)
    (hpending : Pending cfg a d key s t)
    (hrun : Run (Only (Proper cfg party d a key) (Steps (step cfg))) t evs u) :
    Run (fun s ev t => step cfg s ev = some t ∧ ByPeer cfg party d a key s ev t) t evs u := by
  have howned : Owned s :=
    hbefore.invariant (fun _ _ _ (h : Owned _) hstep => h.step hstep) fun _ _ h => (by cases h)
  have hknown : Known s :=
    hbefore.invariant (fun _ _ _ (h : Known _) hstep => h.step hstep) fun _ _ h => (by cases h)
  have ht : Serving a key t := by
    obtain ⟨m, hstep⟩ : ∃ m, step cfg s m = some t := by
      obtain ⟨env, ⟨ph, -, hstep⟩ | ⟨rf, -, hstep⟩⟩ := hpending.asked
      · exact ⟨_, hstep⟩
      · exact ⟨_, hstep⟩
    obtain ⟨conn, hconn, hkey, -⟩ := howned.step hstep key a hpending.parked
    exact ⟨howned.step hstep, hknown.step hstep, conn, hconn, hkey⟩
  have hserving : ∀ (s : Rendezvous C) ev t, Serving a key s →
      Only (Proper cfg party d a key) (Steps (step cfg)) s ev t → Serving a key t :=
    fun _ _ _ h hstep => h.step hstep.2
  exact hrun.mono_of_invariant hserving
    (fun _ _ _ h hstep => ⟨hstep.2, hstep.1.byPeer hsk h hstep.2⟩) ht

/-! ## Two answers -/

/-- The client's request for the device, from connection 0; connection 2 is there as well. -/
def examplePending : List (HbbsEvent ℕ) :=
  exampleStart ++ [.accept 2 ⟨.ofOctets 10 0 0 3, 40000⟩ false,
    .tcp 0 exampleHbbsEnv (some (.punchHoleRequest examplePunch))]

def exampleKey : SocketAddr := ⟨.ofOctets 10 0 0 2, 40000⟩

/-- An answer for the client, that names the device. -/
def exampleSent : PunchHoleSent :=
  ⟨AddrMangle.encode 0 exampleKey, "123456789", "", .known .asymmetric, "1.4.0"⟩

/-- Another one, with a relay server. -/
def exampleResponse : RelayResponse :=
  ⟨AddrMangle.encode 0 exampleKey, "uuid", "attacker", some (.id "123456789"), "", "1.4.0", 0, [], 0⟩

theorem examplePending_pending : Pending exampleConfig 0 "123456789" exampleKey
    (exampleAfter (examplePending.take 3)) (exampleAfter examplePending) :=
  ⟨⟨exampleHbbsEnv, .inl ⟨examplePunch, rfl, rfl⟩⟩, rfl⟩

/-- Connection 2 is the device's, and it answers. -/
theorem answered_by_device :
    Run (fun s ev t => step exampleConfig s ev = some t ∧
        ByPeer exampleConfig (fun source => source ≠ .conn 0) "123456789" 0 exampleKey s ev t)
      (exampleAfter examplePending) [.tcp 2 exampleHbbsEnv (some (.punchHoleSent exampleSent))]
      (exampleAfter
        (examplePending ++ [.tcp 2 exampleHbbsEnv (some (.punchHoleSent exampleSent))])) := by
  have hbefore : Run (Steps (step exampleConfig)) (start ⟨fun _ => none, .empty⟩ fun _ => .empty)
      (examplePending.take 3) (exampleAfter (examplePending.take 3)) :=
    .cons rfl (.cons rfl (.cons rfl (.nil _)))
  refine answered_by_peer _ rfl hbefore examplePending_pending (.cons ⟨⟨by decide, ?_, ?_⟩, rfl⟩ (.nil _))
  · rintro - m ⟨hm, -⟩
    cases hm
    exact ⟨⟨.udp _, rfl, by simp [HbbsEvent.source]⟩, "1.4.0", rfl, by decide⟩
  · rintro - ⟨conn, hconn, hkey, -⟩
    cases hconn
    revert hkey
    decide

/-- Connection 2 is a stranger's, and sends the client to a relay of its choice, under the device's
key. -/
theorem answered_by_stranger :
    let forged := .tcp 2 exampleHbbsEnv (some (.relayResponse exampleResponse))
    let s := exampleAfter examplePending
    let t := exampleAfter (examplePending ++ [forged])
    Pending exampleConfig 0 "123456789" exampleKey (exampleAfter (examplePending.take 3)) s ∧
      step exampleConfig s forged = some t ∧ ¬ FromPeer id "123456789" s forged ∧
      (∃ rr, effects exampleConfig s forged = [.send 0 (.relayResponse rr)] ∧
        rr.relayServer = "attacker") ∧
      t.tcpPunch exampleKey = none := by
  refine ⟨examplePending_pending, rfl, ?_, ⟨_, rfl, rfl⟩, rfl⟩
  rintro ⟨source, hregistered, hsource⟩
  cases hregistered
  cases hsource

/-- **A sink is parked once**, in every run: by its own connection, which is then without it, and under no
other key. -/
theorem parked_once {registry : Registry} {sessions : Sessions} {evs : List (HbbsEvent C)}
    (hrun : Run (Steps (step cfg)) (start registry sessions) evs s) :
    Owned s ∧ ∀ key key' c, s.tcpPunch key = some c → s.tcpPunch key' = some c → key = key' := by
  have howned : Owned s := hrun.invariant (fun _ _ _ (h : Owned _) hstep => h.step hstep) fun _ _ h => (by cases h)
  refine ⟨howned, fun key key' c hkey hkey' => ?_⟩
  obtain ⟨conn, hconn, hparked, -⟩ := howned key c hkey
  obtain ⟨conn', hconn', hparked', -⟩ := howned key' c hkey'
  cases hconn.symm.trans hconn'
  exact hparked.symm.trans hparked'

theorem parked_once_pending : (exampleAfter examplePending).tcpPunch exampleKey = some 0 ∧
    Owned (exampleAfter examplePending) := by
  have hrun : Run (Steps (step exampleConfig)) (start ⟨fun _ => none, .empty⟩ fun _ => .empty) examplePending
      (exampleAfter examplePending) := exec_eq_some_iff.mp rfl
  exact ⟨rfl, (parked_once hrun).1⟩

end Rendezvous

end RustDesk.Server
