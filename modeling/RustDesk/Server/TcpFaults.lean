import RustDesk.Common.Checked
import RustDesk.Server.Answers
import RustDesk.Server.OnlineStates
import RustDesk.Server.RelayChoice

/-!
# What a message over TCP may crash the server at

References: `rustdesk-server/src/rendezvous_server.rs` (`handle_tcp`, `get_symetric_key_from_msg`,
`handle_punch_hole_request`, `get_pk`, `get_relay_server`, `legacy_relay_server`, `peers_online_state`,
`handle_hole_sent`, `handle_local_addr`, `handle_listener_inner`) and `rustdesk-server/libs/hbb_common/src/lib.rs`
(`AddrMangle`).

The handlers of `Rendezvous` with every index, slice, `unwrap`, array conversion and `panic!` of the source. The
arithmetic is that of the release build, which wraps. A fault is the end of the task, and there of the whole server:
the connection is not cleaned up.
-/

namespace RustDesk.Net.AddrMangle

open LittleEndian MayPanic

/-- `encode`, with its slice. -/
def encodeSliced (tm : UInt32) (addr : SocketAddr) : MayPanic (List UInt8) :=
  let addr := tryIntoV4 addr
  match addr.ip with
  | .v4 octets =>
    let bytes := leBytes 16 (mangle (ofLeBytes octets.toList) addr.port.toNat tm.toNat)
    let nPadding := (bytes.reverse.takeWhile (· = 0)).length
    sliceTo bytes (16 - nPadding)
  | .v6 octets => .ok (octets.toList ++ leBytes 2 addr.port.toNat)

theorem encodeSliced_eq (tm : UInt32) (addr : SocketAddr) : encodeSliced tm addr = .ok (encode tm addr) := by
  unfold encodeSliced encode
  dsimp only
  cases (tryIntoV4 addr).ip with
  | v4 octets =>
    dsimp only
    rw [sliceTo, if_pos, stripPadding]
    rw [leBytes_length]
    exact Nat.sub_le _ _
  | v6 octets => rfl

/-- `decode`, with its slices. -/
def decodeSliced (bytes : List UInt8) : MayPanic SocketAddr :=
  if bytes.length > 16 then
    if bytes.length ≠ 18 then .ok anyListenAddrV6
    else
      (sliceFrom bytes 16).bind fun tmp =>
        let port := UInt16.ofNat (ofLeBytes (toOctets 2 tmp).toList)
        (sliceTo bytes 16).bind fun tmp => .ok ⟨.v6 (toOctets 16 tmp), port⟩
  else
    (sliceTo (List.replicate 16 (0 : UInt8)) bytes.length).bind fun window =>
      (toArray window.length bytes).bind fun bytes => .ok (decodeV4 bytes)

theorem decodeSliced_eq (bytes : List UInt8) : decodeSliced bytes = .ok (decode bytes) := by
  unfold decodeSliced decode
  by_cases hlong : bytes.length > 16
  · rw [if_pos hlong, if_pos hlong]
    by_cases h18 : bytes.length = 18
    · rw [if_neg (not_not.mpr h18), dif_pos h18, sliceFrom, if_pos (by omega)]
      dsimp only [Except.bind]
      rw [sliceTo, if_pos (by omega)]
      dsimp only
      have htake : (bytes.take 16).length = 16 := by
        rw [List.length_take]
        omega
      have hdrop : (bytes.drop 16).length = 2 := by
        rw [List.length_drop]
        omega
      have hport : (toOctets 2 (bytes.drop 16)).toList = bytes.drop 16 := by
        rw [toOctets, dif_pos hdrop]
        rfl
      have hip : toOctets 16 (bytes.take 16) = ⟨(bytes.take 16).toArray, by simp [h18]⟩ := dif_pos htake
      rw [hport, hip]
    · rw [if_pos h18, dif_neg h18]
  · have hle : bytes.length ≤ (List.replicate 16 (0 : UInt8)).length := by
      rw [List.length_replicate]
      omega
    rw [if_neg hlong, if_neg hlong, sliceTo, if_pos hle]
    dsimp only [Except.bind]
    rw [toArray, if_pos]
    rw [List.length_take, Nat.min_eq_left hle]

end RustDesk.Net.AddrMangle

namespace RustDesk.Server

open Net MayPanic

/-! ## The choice of a relay -/

/-- What `get_relay_server` reads, with the rotation counter before the call. -/
structure RelayTable where
  topology : List Api.ServerTopologyEntry
  relayServers : List String
  rotation : ℕ

namespace RelayTable

variable (table : RelayTable)

/-- `legacy_relay_server`. -/
def legacyRelayServer : MayPanic String :=
  if table.relayServers.isEmpty then .ok ""
  else if table.relayServers.length = 1 then index table.relayServers 0
  else index table.relayServers (table.rotation % table.relayServers.length)

/-- `get_relay_server`. -/
def getRelayServer (pa pb : IpAddr) : MayPanic String :=
  if table.topology.isEmpty then table.legacyRelayServer
  else
    let regionA := ipToRegion pa cnCidrs
    let regionB := ipToRegion pb cnCidrs
    let scored := table.topology.map fun s => (scoreServer s regionA regionB, s)
    match (sortByScore scored).head? with
    | some (_, s) => .ok s.relayServer
    | none => table.legacyRelayServer

/-- What a message takes from outside, where the server chooses by the table. -/
def env (env : HbbsEnv) : HbbsEnv :=
  { env with relayServer := Server.getRelayServer table.topology table.relayServers table.rotation }

theorem legacyRelayServer_eq :
    table.legacyRelayServer = .ok (Server.legacyRelayServer table.relayServers table.rotation) := by
  unfold legacyRelayServer Server.legacyRelayServer
  match hservers : table.relayServers with
  | [] => rfl
  | [relayServer] => rfl
  | a :: b :: rest =>
    have hlt : table.rotation % (a :: b :: rest).length < (a :: b :: rest).length :=
      Nat.mod_lt _ (Nat.succ_pos _)
    have hone : (a :: b :: rest).length ≠ 1 := by simp
    rw [List.isEmpty_cons, if_neg Bool.false_ne_true, if_neg hone]
    rw [index_eq_ok, List.getElem?_eq_getElem hlt, List.getD_eq_getElem _ _ hlt]

theorem getRelayServer_eq (pa pb : IpAddr) (env : HbbsEnv) :
    table.getRelayServer pa pb = .ok ((table.env env).relayServer pa pb) := by
  show table.getRelayServer pa pb =
    .ok (Server.getRelayServer table.topology table.relayServers table.rotation pa pb)
  unfold getRelayServer Server.getRelayServer
  rw [legacyRelayServer_eq]
  split
  · rfl
  · dsimp only
    generalize (sortByScore _).head? = best
    cases best <;> rfl

end RelayTable

/-! ## A punch hole request -/

section PunchHole

variable (cfg : HbbsConfig) (table : RelayTable) (env : HbbsEnv)

/-- `checkLogin`, with the `unwrap` of the claims. -/
def checkLoginChecked (ph : PunchHoleRequest) :
    MayPanic (Except RendezvousMessage (Option (Claims × Subscription))) :=
  if cfg.key ≠ "" ∧ ph.licenceKey ≠ cfg.key then .ok (.error (fail .licenseMismatch))
  else if cfg.mustLogin then
    if ph.token = "" then .ok (.error (refuse "连接失败，请登录！"))
    else if cfg.secret ≠ "" then
      let tokenResult := verifyToken env.toPunchEnv ph.token
      if tokenResult.isNone then .ok (.error (refuse "令牌错误，请注销并重新登录！"))
      else
        (unwrap tokenResult).bind fun claims => .ok <|
          match env.userStatus claims.userId with
          | none => .error (refuse "服务器内部错误 (SaaS-U)")
          | some status =>
            if status = "banned" then .error (refuse "该帐户已被禁止")
            else
              match env.subscription claims.userId with
              | none => .error (refuse "服务器内部错误 (SaaS-S)")
              | some none => .error (refuse "未找到有效订阅")
              | some (some sub) =>
                if sub.expirationDatetime ≤ env.utcNow then .error (refuse "订阅已过期")
                else .ok (some (claims, sub))
    else .ok (.ok none)
  else .ok (.ok none)

theorem checkLoginChecked_eq (ph : PunchHoleRequest) :
    checkLoginChecked cfg env ph = .ok (checkLogin cfg (table.env env).toPunchEnv ph) := by
  have htoken : verifyToken (table.env env).toPunchEnv ph.token = verifyToken env.toPunchEnv ph.token := rfl
  unfold checkLoginChecked checkLogin
  rw [htoken]
  split
  · rfl
  · split
    · split
      · rfl
      · split
        · cases verifyToken env.toPunchEnv ph.token <;> rfl
        · rfl
    · rfl

/-- `punchMessage`, with the choice of a relay and the slice of `encode`. -/
def punchMessageChecked (addr peerAddr : SocketAddr) (ph : PunchHoleRequest) (ws : Bool) :
    MayPanic RendezvousMessage :=
  let peerIsLan := isLan cfg peerAddr
  let isLan := isLan cfg addr
  (if ph.relayServer ≠ "" then .ok ph.relayServer else table.getRelayServer addr.ip peerAddr.ip).bind
    fun relayServer =>
    let forced : Bool := env.alwaysUseRelay ∨ peerIsLan ≠ isLan
    let relayServer := if forced ∧ peerIsLan then cfg.localIp else relayServer
    let natType := if forced then .known .symmetric else ph.natType
    let sameIntranet : Bool := ¬ ws ∧ (peerIsLan ∧ isLan ∨ peerAddr.ip = addr.ip)
    (AddrMangle.encodeSliced env.tm addr).bind fun socketAddr =>
      .ok (if sameIntranet then .fetchLocalAddr ⟨socketAddr, relayServer, ph.relayUseWss⟩
        else .punchHole ⟨socketAddr, relayServer, natType, ph.relayUseWss⟩)

theorem punchMessageChecked_eq (addr peerAddr : SocketAddr) (ph : PunchHoleRequest) (ws : Bool) :
    punchMessageChecked cfg table env addr peerAddr ph ws =
      .ok (punchMessage cfg (table.env env).toPunchEnv addr peerAddr ph ws) := by
  unfold punchMessageChecked punchMessage
  rw [table.getRelayServer_eq _ _ env, ← apply_ite Except.ok, AddrMangle.encodeSliced_eq]
  rfl

/-- `punch`. -/
def punchChecked (s : Registry) (addr : SocketAddr) (ph : PunchHoleRequest) (ws : Bool) :
    MayPanic ((RendezvousMessage × Option SocketAddr) × Registry) :=
  match s.get env.now env.getPeerOk ph.id with
  | (some peer, s) =>
    if peer.elapsed env.now ≥ regTimeout then .ok ((fail .offline, none), s)
    else
      (punchMessageChecked cfg table env addr peer.socketAddr ph ws).bind fun msg =>
        .ok ((msg, some peer.socketAddr), s)
  | (none, s) => .ok ((fail .idNotExist, none), s)

theorem punchChecked_eq (s : Registry) (addr : SocketAddr) (ph : PunchHoleRequest) (ws : Bool) :
    punchChecked cfg table env s addr ph ws = .ok (punch cfg (table.env env).toPunchEnv s addr ph ws) := by
  have hget : s.get (table.env env).now (table.env env).getPeerOk ph.id = s.get env.now env.getPeerOk ph.id := rfl
  have hnow : (table.env env).now = env.now := rfl
  unfold punchChecked punch
  rw [hget, hnow]
  generalize s.get env.now env.getPeerOk ph.id = res
  match res with
  | (some peer, s) =>
    dsimp only
    rw [punchMessageChecked_eq]
    split <;> rfl
  | (none, s) => rfl

/-- `handle_punch_hole_request`. -/
def handlePunchHoleRequestChecked (s : Registry) (sessions : Sessions) (addr : SocketAddr)
    (ph : PunchHoleRequest) (ws : Bool) :
    MayPanic ((RendezvousMessage × Option SocketAddr) × Registry × Sessions) :=
  (checkLoginChecked cfg env ph).bind fun
    | .error msg => .ok ((msg, none), s, sessions)
    | .ok none => (punchChecked cfg table env s addr ph ws).bind fun (res, s) => .ok (res, s, sessions)
    | .ok (some (claims, sub)) =>
      match checkSession env.toPunchEnv sessions claims sub ph.id with
      | (some msg, sessions) => .ok ((msg, none), s, sessions)
      | (none, sessions) =>
        (punchChecked cfg table env s addr ph ws).bind fun (res, s) => .ok (res, s, sessions)

theorem handlePunchHoleRequestChecked_eq (s : Registry) (sessions : Sessions) (addr : SocketAddr)
    (ph : PunchHoleRequest) (ws : Bool) :
    handlePunchHoleRequestChecked cfg table env s sessions addr ph ws =
      .ok (handlePunchHoleRequest cfg (table.env env).toPunchEnv s sessions addr ph ws) := by
  have hsession (claims : Claims) (sub : Subscription) :
      checkSession (table.env env).toPunchEnv sessions claims sub ph.id =
        checkSession env.toPunchEnv sessions claims sub ph.id := rfl
  unfold handlePunchHoleRequestChecked handlePunchHoleRequest
  rw [checkLoginChecked_eq cfg table env, punchChecked_eq]
  dsimp only [Except.bind]
  match checkLogin cfg (table.env env).toPunchEnv ph with
  | .error msg => rfl
  | .ok none => rfl
  | .ok (some (claims, sub)) =>
    dsimp only
    rw [hsession]
    match checkSession env.toPunchEnv sessions claims sub ph.id with
    | (some msg, sessions) => rfl
    | (none, sessions) => rfl

end PunchHole

/-! ## The state of the peers -/

/-- The loop of `peers_online_state`, from the peer with the number `i` on. -/
def onlineLoop (s : Registry) (now : ℕ) (states : List UInt8) (i : ℕ) : List String → MayPanic (List UInt8)
  | [] => .ok states
  | id :: ids =>
    (if s.answersOnline now id then modifyAt states (i / 8) (· ||| Bitmap.mask i) else .ok states).bind
      fun states => onlineLoop s now states (i + 1) ids

/-- Every peer has its bit. -/
theorem onlineLoop_eq {s : Registry} {now : ℕ} {states : List UInt8} {i : ℕ} {ids : List String}
    (h : i + ids.length ≤ 8 * states.length) :
    onlineLoop s now states i ids = .ok (Bitmap.setAll states i (ids.map (s.answersOnline now))) := by
  induction ids generalizing states i with
  | nil => rfl
  | cons id ids ih =>
    rw [List.length_cons] at h
    have hset : modifyAt states (i / 8) (· ||| Bitmap.mask i) = .ok (Bitmap.setBit states i) :=
      if_pos (by omega)
    rw [onlineLoop, hset, ← apply_ite Except.ok]
    dsimp only [Except.bind]
    rw [ih, List.map_cons, Bitmap.setAll]
    split
    · rw [Bitmap.length_setBit]
      omega
    · omega

/-- `peers_online_state`. -/
def peersOnlineStateChecked (s : Registry) (now : ℕ) (peers : List String) : MayPanic (List UInt8) :=
  onlineLoop s now (Bitmap.zeroed ((peers.length + 7) / 8)) 0 peers

theorem peersOnlineStateChecked_eq (s : Registry) (now : ℕ) (peers : List String) :
    peersOnlineStateChecked s now peers = .ok (s.peersOnlineState now peers) := by
  refine onlineLoop_eq ?_
  rw [Bitmap.zeroed, List.length_replicate]
  omega

/-! ## A key exchange -/

/-- `get_symetric_key_from_msg`. -/
def getSymmetricKeyFromMsg (cfg : HbbsConfig) (theirPk sealedValue : List UInt8) : MayPanic (List UInt8) :=
  match cfg.openBox theirPk sealedValue with
  | some key => toArray 32 key
  | none => .error .panicked

/-- The symmetric key in two keys. -/
def symmetricKeyChecked (cfg : HbbsConfig) (keys : List (List UInt8)) : MayPanic (List UInt8) :=
  (index keys 0).bind fun key0 =>
    (toArray 32 key0).bind fun theirPk =>
      (index keys 1).bind fun key1 =>
        (toArray 48 key1).bind fun cryptobox => getSymmetricKeyFromMsg cfg theirPk cryptobox

/-- `secretbox::Key::from_slice`. -/
def keyFromSlice (key : List UInt8) : Option (List UInt8) := if key.length = 32 then some key else none

/-- What `box_::open` opens is 16 bytes shorter than the box. -/
def HbbsConfig.OpensShorter (cfg : HbbsConfig) : Prop :=
  ∀ theirPk cryptobox key, cfg.openBox theirPk cryptobox = some key → key.length + 16 = cryptobox.length

/-- The message is not a key exchange with two keys, or the first has 32 bytes, and the second has 48 and opens. -/
def Openable (cfg : HbbsConfig) (msg : Option RendezvousMessage) : Prop :=
  ∀ theirPk cryptobox, msg = some (.keyExchange [theirPk, cryptobox]) →
    theirPk.length = 32 ∧ cryptobox.length = 48 ∧ (cfg.openBox theirPk cryptobox).isSome

/-- The check of lengths and box at once. -/
theorem isSome_symmetricKey (cfg : HbbsConfig) (theirPk cryptobox : List UInt8) :
    (Rendezvous.symmetricKey cfg [theirPk, cryptobox]).isSome ↔
      theirPk.length = 32 ∧ cryptobox.length = 48 ∧ (cfg.openBox theirPk cryptobox).isSome := by
  rw [Rendezvous.symmetricKey]
  by_cases hlen : theirPk.length = 32 ∧ cryptobox.length = 48
  · rw [if_pos hlen]
    exact ⟨fun h => ⟨hlen.1, hlen.2, h⟩, fun h => h.2.2⟩
  · rw [if_neg hlen]
    exact ⟨nofun, fun h => absurd ⟨h.1, h.2.1⟩ hlen⟩

section

variable {cfg : HbbsConfig} {theirPk cryptobox key : List UInt8} (hshort : cfg.OpensShorter)
include hshort

theorem length_symmetricKey (h : Rendezvous.symmetricKey cfg [theirPk, cryptobox] = some key) : key.length = 32 := by
  rw [Rendezvous.symmetricKey] at h
  split at h
  next hlen =>
    have hkey := hshort _ _ _ h
    omega
  next => cases h

/-- The checks of the code come to those of the model. -/
theorem symmetricKeyChecked_eq_ok :
    symmetricKeyChecked cfg [theirPk, cryptobox] = .ok key ↔
      Rendezvous.symmetricKey cfg [theirPk, cryptobox] = some key := by
  have hfirst : index [theirPk, cryptobox] 0 = .ok theirPk := rfl
  have hsecond : index [theirPk, cryptobox] 1 = .ok cryptobox := rfl
  rw [symmetricKeyChecked, Rendezvous.symmetricKey, hfirst, hsecond]
  dsimp only [Except.bind]
  by_cases hpk : theirPk.length = 32
  · by_cases hbox : cryptobox.length = 48
    · rw [if_pos ⟨hpk, hbox⟩, toArray, if_pos hpk]
      rw [toArray, if_pos hbox]
      dsimp only
      rw [getSymmetricKeyFromMsg]
      cases hopen : cfg.openBox theirPk cryptobox with
      | none => exact ⟨nofun, nofun⟩
      | some key' =>
        have hlength : key'.length = 32 := by
          have hkey := hshort _ _ _ hopen
          omega
        rw [toArray_eq_ok, Option.some.injEq]
        exact ⟨fun h => h.2, fun h => ⟨hlength, h⟩⟩
    · rw [if_neg fun h => hbox h.2, toArray, if_pos hpk]
      rw [toArray, if_neg hbox]
      exact ⟨nofun, nofun⟩
  · rw [if_neg fun h => hpk h.1, toArray, if_neg hpk]
    exact ⟨nofun, nofun⟩

end

namespace Rendezvous

variable {C : Type*}

section

variable (cfg : HbbsConfig) (table : RelayTable) (env : HbbsEnv) (s : Rendezvous C)

/-! ## Answers of peers -/

/-- `get_pk`. -/
def getPkChecked (version id : String) : MayPanic (List UInt8 × Rendezvous C) :=
  if version = "" ∨ cfg.sk.isNone then .ok ([], s)
  else
    match s.registry.get env.now env.getPeerOk id with
    | (some peer, registry) =>
      (unwrap cfg.sk).bind fun sk => .ok (cfg.sign (Handshake.IdPk.writeToBytes ⟨id, peer.pk⟩) sk, { s with registry })
    | (none, registry) => .ok ([], { s with registry })

theorem getPkChecked_eq (version id : String) :
    getPkChecked cfg env s version id = .ok (s.getPk cfg (table.env env) version id) := by
  have hget : s.registry.get (table.env env).now (table.env env).getPeerOk id =
    s.registry.get env.now env.getPeerOk id := rfl
  unfold getPkChecked getPk
  rw [hget]
  cases hsk : cfg.sk with
  | none => rw [if_pos (.inr rfl)]
  | some sk =>
    by_cases hversion : version = ""
    · rw [if_pos (.inl hversion)]
      exact congrArg _ (if_pos hversion).symm
    · have hno : ¬ (version = "" ∨ (some sk).isNone = true) := by simp [hversion]
      rw [if_neg hno]
      dsimp only
      rw [if_neg hversion]
      match s.registry.get env.now env.getPeerOk id with
      | (some peer, registry) => rfl
      | (none, registry) => rfl

/-- `handle_hole_sent`. -/
def handleHoleSentChecked (phs : PunchHoleSent) (addr : SocketAddr) (udp : Bool) :
    MayPanic (Rendezvous C × List (Effect C)) :=
  (AddrMangle.decodeSliced phs.socketAddr).bind fun addrA =>
    (AddrMangle.encodeSliced env.tm addr).bind fun socketAddr =>
      (getPkChecked cfg env s phs.version phs.id).bind fun (pk, s) =>
        let msg := RendezvousMessage.punchHoleResponse { PunchHoleResponse.default with
          socketAddr := socketAddr
          pk
          relayServer := phs.relayServer
          union := phs.natType.enumValue.map .natType }
        .ok (s.answer msg addrA udp)

theorem handleHoleSentChecked_eq (phs : PunchHoleSent) (addr : SocketAddr) (udp : Bool) :
    handleHoleSentChecked cfg env s phs addr udp = .ok (s.handleHoleSent cfg (table.env env) phs addr udp) := by
  unfold handleHoleSentChecked
  rw [AddrMangle.decodeSliced_eq, AddrMangle.encodeSliced_eq, getPkChecked_eq cfg table]
  rfl

/-- `handle_local_addr`. -/
def handleLocalAddrChecked (la : LocalAddr) (udp : Bool) : MayPanic (Rendezvous C × List (Effect C)) :=
  (AddrMangle.decodeSliced la.socketAddr).bind fun addrA =>
    (getPkChecked cfg env s la.version la.id).bind fun (pk, s) =>
      let msg := RendezvousMessage.punchHoleResponse { PunchHoleResponse.default with
        socketAddr := la.localAddr
        pk
        relayServer := la.relayServer
        union := some (.isLocal true) }
      .ok (s.answer msg addrA udp)

theorem handleLocalAddrChecked_eq (la : LocalAddr) (udp : Bool) :
    handleLocalAddrChecked cfg env s la udp = .ok (s.handleLocalAddr cfg (table.env env) la udp) := by
  unfold handleLocalAddrChecked
  rw [AddrMangle.decodeSliced_eq, getPkChecked_eq cfg table]
  rfl

/-- The key of a peer that answers with its id. -/
def signRelayResponse (rr : RelayResponse) : MayPanic (Option IdOrPk × Rendezvous C) :=
  if rr.getId ≠ "" then
    (getPkChecked cfg env s rr.version rr.getId).bind fun (pk, s) => .ok (some (.pk pk), s)
  else .ok (rr.union, s)

/-- The relay in a `RelayResponse`. -/
def rewriteRelayServer (rr : RelayResponse) (addr addrB : SocketAddr) : MayPanic String :=
  if rr.relayServer ≠ "" then
    if isLan cfg addrB then .ok cfg.localIp
    else if rr.relayServer = cfg.localIp then table.getRelayServer addr.ip addrB.ip
    else .ok rr.relayServer
  else .ok rr.relayServer

/-- The answer `RelayResponse` of `handle_tcp`. -/
def handleRelayResponseChecked (rr : RelayResponse) (addr : SocketAddr) :
    MayPanic (Rendezvous C × List (Effect C)) :=
  (AddrMangle.decodeSliced rr.socketAddr).bind fun addrB =>
    (signRelayResponse cfg env s rr).bind fun (union, s) =>
      (rewriteRelayServer cfg table rr addr addrB).bind fun relayServer =>
        .ok (s.sendToTcp (.relayResponse { rr with socketAddr := [], union, relayServer }) addrB)

theorem handleRelayResponseChecked_eq (rr : RelayResponse) (addr : SocketAddr) :
    handleRelayResponseChecked cfg table env s rr addr =
      .ok (s.handleRelayResponse cfg (table.env env) rr addr) := by
  unfold handleRelayResponseChecked handleRelayResponse signRelayResponse rewriteRelayServer
  rw [AddrMangle.decodeSliced_eq, getPkChecked_eq cfg table]
  dsimp only [Except.bind]
  rw [table.getRelayServer_eq _ _ env]
  by_cases hid : rr.getId = ""
  · rw [if_neg (not_not.mpr hid), if_neg (not_not.mpr hid)]
    simp only [← apply_ite Except.ok]
  · rw [if_pos hid, if_pos hid]
    simp only [← apply_ite Except.ok]

end

/-! ## `handle_tcp` -/

section

variable [DecidableEq C] (cfg : HbbsConfig) (table : RelayTable) (env : HbbsEnv) (s : Rendezvous C) (c : C)
  (conn : Conn)

/-- `handle_tcp_punch_hole_request`. -/
def handleTcpPunchHoleRequestChecked (addr : SocketAddr) (ph : PunchHoleRequest) (ws : Bool) :
    MayPanic (Rendezvous C × List (Effect C)) :=
  (handlePunchHoleRequestChecked cfg table env s.registry s.sessions addr ph ws).bind
    fun ((msg, toAddr), registry, sessions) =>
      let s := { s with registry, sessions }
      .ok <|
        match toAddr with
        | some peerAddr =>
          match s.wsMap (tryIntoV4 peerAddr) with
          | some c =>
            ({ s with wsMap := Function.update s.wsMap (tryIntoV4 peerAddr) none },
              [.forward ph.id (.inl c) msg])
          | none => (s, [.forward ph.id (.inr peerAddr) msg])
        | none => s.sendToTcp msg addr

omit [DecidableEq C] in
theorem handleTcpPunchHoleRequestChecked_eq (addr : SocketAddr) (ph : PunchHoleRequest) (ws : Bool) :
    handleTcpPunchHoleRequestChecked cfg table env s addr ph ws =
      .ok (s.handleTcpPunchHoleRequest cfg (table.env env) addr ph ws) := by
  unfold handleTcpPunchHoleRequestChecked
  rw [handlePunchHoleRequestChecked_eq]
  rfl

/-- `handle_tcp`, and whether it returns true. -/
def handleTcpChecked : Option RendezvousMessage → MayPanic ((Rendezvous C × List (Effect C)) × Bool)
  | some (.registerPeer rp) =>
    if rp.id ≠ "" then
      let (answers, s) := s.handleRegisterPeer cfg env rp conn.addr
      .ok ((s, answers.flatMap (sendToSink c conn)), false)
    else .ok ((s, []), false)
  | some (.punchHoleRequest ph) =>
    (handleTcpPunchHoleRequestChecked cfg table env (s.park c conn) conn.addr ph conn.ws).bind fun r => .ok (r, true)
  | some (.requestRelay rf) =>
    let s := s.park c conn
    match s.registry.getInMemory rf.id with
    | some peer =>
      (AddrMangle.encodeSliced env.tm conn.addr).bind fun socketAddr =>
        .ok ((s, [.forward rf.id (.inr peer.socketAddr) (.requestRelay { rf with socketAddr })]), true)
    | none => .ok ((s, []), true)
  | some (.relayResponse rr) =>
    (handleRelayResponseChecked cfg table env s rr conn.addr).bind fun r => .ok (r, false)
  | some (.punchHoleSent phs) =>
    (handleHoleSentChecked cfg env s phs conn.addr false).bind fun r => .ok (r, false)
  | some (.localAddr la) => (handleLocalAddrChecked cfg env s la false).bind fun r => .ok (r, false)
  | some (.testNatRequest serial) =>
    let cu := if env.serial > serial then some ⟨env.serial, env.rendezvousServers, []⟩ else none
    .ok ((s, sendToSink c conn (.testNatResponse conn.addr.port.toNat cu)), false)
  | some (.registerPk rk) =>
    match s.handleRegisterPk cfg env (.conn c) rk conn.addr conn.ws with
    | (.error e, s) => .ok ((s, sendToSink c conn (.registerPkResponse e)), false)
    | (.ok res, s) =>
      .ok ((if conn.ws then s.keepWs c conn else s, sendToSink c conn (.registerPkResponse res)), true)
  | some (.keyExchange keys) =>
    if keys.length ≠ 2 then .ok ((s, []), false)
    else
      (symmetricKeyChecked cfg keys).bind fun symmetricKey =>
        match keyFromSlice symmetricKey with
        | some key => .ok ((s, if conn.hasSink then [.setKey c key] else []), true)
        | none => .ok ((s, []), false)
  | some (.onlineRequest peers) =>
    (peersOnlineStateChecked s.registry env.now peers).bind fun states =>
      .ok ((s, sendToSink c conn (.onlineResponse states)), false)
  | _ => .ok ((s, []), false)

section

variable {msg : Option RendezvousMessage} (h : ∀ keys, msg ≠ some (.keyExchange keys))
include h

/-- Without a key exchange there is no fault. -/
theorem handleTcpChecked_of_not_keyExchange :
    ∃ r goesOn, handleTcpChecked cfg table env s c conn msg = .ok (r, goesOn) ∧
      s.handleTcp cfg (table.env env) c conn msg = (r, if goesOn then .continue else .stop) := by
  cases msg with
  | none => exact ⟨_, false, rfl, rfl⟩
  | some msg =>
    cases msg with
    | registerPeer rp =>
      simp only [handleTcpChecked, handleTcp]
      split <;> exact ⟨_, false, rfl, rfl⟩
    | punchHoleRequest ph =>
      simp only [handleTcpChecked, handleTcpPunchHoleRequestChecked_eq]
      exact ⟨_, true, rfl, rfl⟩
    | requestRelay rf =>
      simp only [handleTcpChecked, handleTcp, AddrMangle.encodeSliced_eq]
      cases (s.park c conn).registry.getInMemory rf.id with
      | some | none => exact ⟨_, true, rfl, rfl⟩
    | relayResponse rr =>
      simp only [handleTcpChecked, handleRelayResponseChecked_eq]
      exact ⟨_, false, rfl, rfl⟩
    | punchHoleSent phs =>
      simp only [handleTcpChecked, handleHoleSentChecked_eq cfg table]
      exact ⟨_, false, rfl, rfl⟩
    | localAddr la =>
      simp only [handleTcpChecked, handleLocalAddrChecked_eq cfg table]
      exact ⟨_, false, rfl, rfl⟩
    | registerPk rk =>
      have hregister : s.handleRegisterPk cfg (table.env env) (.conn c) rk conn.addr conn.ws =
        s.handleRegisterPk cfg env (.conn c) rk conn.addr conn.ws := rfl
      simp only [handleTcpChecked, handleTcp, hregister]
      rcases s.handleRegisterPk cfg env (.conn c) rk conn.addr conn.ws with ⟨e | res, t⟩
      · exact ⟨_, false, rfl, rfl⟩
      · exact ⟨_, true, rfl, rfl⟩
    | keyExchange keys => exact absurd rfl (h keys)
    | onlineRequest peers =>
      simp only [handleTcpChecked, peersOnlineStateChecked_eq, ← peersOnlineState_eq]
      exact ⟨_, false, rfl, rfl⟩
    | testNatRequest serial => exact ⟨_, false, rfl, rfl⟩
    | registerPeerResponse | punchHole | punchHoleResponse | fetchLocalAddr | configureUpdate | registerPkResponse
    | softwareUpdate | testNatResponse | peerDiscovery | onlineResponse | hc => exact ⟨_, false, rfl, rfl⟩

theorem handleTcp_ne_panic :
    (s.handleTcp cfg env c conn msg).2 ≠ .panic := by
  have hgo : After.continue ≠ .panic := nofun
  have hstop : After.stop ≠ .panic := nofun
  unfold handleTcp
  split
  case h_9 keys => exact absurd rfl (h keys)
  case h_3 =>
    dsimp only
    split
    all_goals exact hgo
  case h_1 | h_8 =>
    split
    all_goals first | exact hgo | exact hstop
  all_goals first | exact hgo | exact hstop

end

variable {cfg env s c conn} {msg : Option RendezvousMessage}

/-- The model panics at a key that does not open only. -/
theorem handleTcp_ne_panic_of_openable (hok : Openable cfg msg) : (s.handleTcp cfg env c conn msg).2 ≠ .panic := by
  by_cases hkeys : ∃ keys, msg = some (.keyExchange keys)
  · obtain ⟨keys, rfl⟩ := hkeys
    match keys with
    | [] | [_] | _ :: _ :: _ :: _ => exact nofun
    | [theirPk, cryptobox] =>
      obtain ⟨key, hkey⟩ := Option.isSome_iff_exists.mp ((isSome_symmetricKey cfg theirPk cryptobox).mpr (hok _ _ rfl))
      show (match symmetricKey cfg [theirPk, cryptobox] with
        | some key => ((s, if conn.hasSink then [Effect.setKey c key] else []), After.continue)
        | none => ((s, []), .panic)).2 ≠ _
      rw [hkey]
      exact nofun
  · exact handleTcp_ne_panic cfg env s c conn fun keys heq => hkeys ⟨keys, heq⟩

/-- With a key that opens, the code goes on as the model does. -/
theorem handleTcpChecked_of_openable (hshort : cfg.OpensShorter) (hok : Openable cfg msg) :
    ∃ r goesOn, handleTcpChecked cfg table env s c conn msg = .ok (r, goesOn) ∧
      s.handleTcp cfg (table.env env) c conn msg = (r, if goesOn then .continue else .stop) := by
  by_cases hkeys : ∃ keys, msg = some (.keyExchange keys)
  · obtain ⟨keys, rfl⟩ := hkeys
    match keys with
    | [] | [_] | _ :: _ :: _ :: _ => exact ⟨_, false, rfl, rfl⟩
    | [theirPk, cryptobox] =>
      obtain ⟨key, hkey⟩ := Option.isSome_iff_exists.mp ((isSome_symmetricKey cfg theirPk cryptobox).mpr (hok _ _ rfl))
      have hchecked := (symmetricKeyChecked_eq_ok hshort).mpr hkey
      have hlength : keyFromSlice key = some key := if_pos (length_symmetricKey hshort hkey)
      refine ⟨(s, if conn.hasSink then [.setKey c key] else []), true, ?_, ?_⟩
      · show (symmetricKeyChecked cfg [theirPk, cryptobox]).bind _ = _
        rw [hchecked]
        dsimp only [Except.bind]
        rw [hlength]
      · show (match symmetricKey cfg [theirPk, cryptobox] with
          | some key => _
          | none => _) = _
        rw [hkey]
        rfl
  · exact handleTcpChecked_of_not_keyExchange cfg table env s c conn fun keys heq => hkeys ⟨keys, heq⟩

/-- With a key that does not open, there is a fault, and the model panics. -/
theorem handleTcpChecked_of_not_openable (hshort : cfg.OpensShorter) (hok : ¬ Openable cfg msg) :
    ¬ Fine (handleTcpChecked cfg table env s c conn msg) ∧ (s.handleTcp cfg env c conn msg).2 = .panic := by
  obtain ⟨theirPk, cryptobox, rfl, hnot⟩ : ∃ theirPk cryptobox,
      msg = some (.keyExchange [theirPk, cryptobox]) ∧ ¬ (theirPk.length = 32 ∧ cryptobox.length = 48 ∧
        (cfg.openBox theirPk cryptobox).isSome) := by
    simpa only [Openable, not_forall, exists_prop] using hok
  have hnone : symmetricKey cfg [theirPk, cryptobox] = none := by
    rwa [← isSome_symmetricKey, Option.not_isSome_iff_eq_none] at hnot
  constructor
  · show ¬ Fine ((symmetricKeyChecked cfg [theirPk, cryptobox]).bind _)
    rw [fine_bind]
    rintro ⟨key, hkey, -⟩
    rw [symmetricKeyChecked_eq_ok hshort, hnone] at hkey
    cases hkey
  · show (match symmetricKey cfg [theirPk, cryptobox] with
      | some key => ((s, if conn.hasSink then [Effect.setKey c key] else []), After.continue)
      | none => ((s, []), .panic)).2 = _
    rw [hnone]

/-- `handle_tcp` returns on what is received, and the server is as its read loop leaves it: where the answer is false,
the connection is cleaned up. -/
def Serves (cfg : HbbsConfig) (table : RelayTable) (parse : List UInt8 → Option RendezvousMessage) (env : HbbsEnv)
    (s : Rendezvous C) (c : C) (conn : Conn) (bytes : List UInt8) : Prop :=
  ∃ r goesOn, handleTcpChecked cfg table env s c conn (parse bytes) = .ok (r, goesOn) ∧
    s.step cfg (.tcp c (table.env env) (parse bytes)) =
      some (if goesOn then record (.conn c) r else (record (.conn c) r).cleanup c)

/-- **The server goes on after a message of anyone exactly where it is no key exchange that cannot be opened.** -/
theorem serves_iff_openable (cfg : HbbsConfig) (table : RelayTable)
    (parse : List UInt8 → Option RendezvousMessage) (env : HbbsEnv) (s : Rendezvous C) (c : C) (conn : Conn)
    (bytes : List UInt8) (hshort : cfg.OpensShorter) (hconn : s.conn c = some conn) (hopen : conn.isOpen = true) :
    Serves cfg table parse env s c conn bytes ↔ Openable cfg (parse bytes) := by
  constructor
  · rintro ⟨r, goesOn, hreturns, -⟩
    by_contra hok
    exact (handleTcpChecked_of_not_openable table hshort hok).1 ⟨_, hreturns⟩
  · intro hok
    obtain ⟨r, goesOn, hreturns, hmodel⟩ : ∃ r goesOn,
        handleTcpChecked cfg table env s c conn (parse bytes) = .ok (r, goesOn) ∧
          s.handleTcp cfg (table.env env) c conn (parse bytes) = (r, if goesOn then .continue else .stop) :=
      handleTcpChecked_of_openable table hshort hok
    refine ⟨r, goesOn, hreturns, ?_⟩
    rw [step, hconn]
    dsimp only
    rw [if_pos hopen, hmodel]
    cases goesOn <;> rfl

end

/-! ## The clean-up -/

section

variable [DecidableEq C] {cfg : HbbsConfig} {s t : Rendezvous C}

/-- Whoever waits in `tcp_punch` is still connected. -/
def CleanedUp (s : Rendezvous C) : Prop :=
  ∀ key c, s.tcpPunch key = some c → ∃ conn, s.conn c = some conn ∧ conn.isOpen = true

/-- The messages over TCP can be opened. -/
def OpenableEvent (cfg : HbbsConfig) : HbbsEvent C → Prop
  | .tcp _ _ msg => Openable cfg msg
  | .accept _ _ _ | .close _ | .udp _ _ _ => True

/-- `cleanup` takes the sink of its own connection out of `tcp_punch`, and leaves the other connections alone. -/
theorem parked_cleanup {key : SocketAddr} {c c' : C} (howned : Owned (s.cleanup c))
    (hparked : (s.cleanup c).tcpPunch key = some c') :
    c' ≠ c ∧ s.tcpPunch key = some c' ∧ (s.cleanup c).conn c' = s.conn c' := by
  obtain ⟨conn', hconn', hkey, hsink⟩ := howned key c' hparked
  have hne : c' ≠ c := by
    rintro rfl
    cases hconn : s.conn c' with
    | none =>
      simp only [cleanup, hconn] at hconn'
      cases hconn'
    | some conn =>
      simp only [cleanup, hconn, Function.update_self] at hconn'
      cases hconn'
      have hgone : conn.hasSink = false := hsink
      have hkey' : tryIntoV4 conn.addr = key := hkey
      simp [cleanup, hconn, hgone, hkey'] at hparked
  refine ⟨hne, ?_, ?_⟩
  · rcases tcpPunch_finish s c .stop key with hsame | ⟨-, hnone, -⟩
    · exact hsame.symm.trans hparked
    · cases hnone.symm.trans hparked
  · rcases conn_finish s c .stop with hsame | hclosed
    · exact congrFun hsame c'
    · exact (congrFun hclosed c').trans (Function.update_of_ne hne ..)

/-- **A connection that is closed has no sink left in `tcp_punch`**, over every message that can be opened. -/
theorem CleanedUp.step {ev : HbbsEvent C} (hclean : CleanedUp s) (howned : Owned s) (hok : OpenableEvent cfg ev)
    (hstep : step cfg s ev = some t) : CleanedUp t := by
  intro key c' hparked
  have howned' := howned.step hstep
  cases step_stepped hstep with
  | @accept c addr ws hnew =>
    obtain ⟨conn, hconn, hopen⟩ := hclean key c' hparked
    have hne : c' ≠ c := by
      rintro rfl
      rw [hconn] at hnew
      cases hnew
    exact ⟨conn, (Function.update_of_ne hne ..).trans hconn, hopen⟩
  | @close c =>
    obtain ⟨-, hold, hsame⟩ := parked_cleanup howned' hparked
    rw [hsame]
    exact hclean key c' hold
  | @tcp c env msg conn u effs after hconn hopen hu hacts =>
    -- another connection is as it was, and has waited before
    have hother : c' ≠ c → u.tcpPunch key = some c' → ∃ conn, u.conn c' = some conn ∧ conn.isOpen = true := by
      intro hne hparked'
      have hold : s.tcpPunch key = some c' := by
        rcases hacts.tcpPunch key with hsame | ⟨-, hnone⟩ | ⟨-, -, -, hnone | ⟨-, hpunch, -⟩⟩ | ⟨-, -, -, hnone, -⟩
        · exact hsame.symm.trans hparked'
        · cases hnone.symm.trans hparked'
        · cases hnone.symm.trans hparked'
        · exact absurd (Option.some.inj (hparked'.symm.trans hpunch)) hne
        · cases hnone.symm.trans hparked'
      have hsame : u.conn c' = s.conn c' := by
        rcases hacts.conn with h | h
        · exact congrFun h c'
        · exact (congrFun h c').trans (Function.update_of_ne hne ..)
      rw [hsame]
      exact hclean key c' hold
    cases after with
    | «continue» =>
      by_cases hne : c' = c
      · subst hne
        show ∃ conn, u.conn c' = some conn ∧ conn.isOpen = true
        rcases hacts.conn with h | h
        · exact ⟨conn, (congrFun h c').trans hconn, hopen⟩
        · exact ⟨_, (congrFun h c').trans (Function.update_self ..), hopen⟩
      · exact hother hne hparked
    | stop =>
      obtain ⟨hne, hold, hsame⟩ := parked_cleanup howned' hparked
      obtain ⟨conn, hconn', hopen'⟩ := hother hne hold
      exact ⟨conn, hsame.trans hconn', hopen'⟩
    | panic =>
      have hpanic : (s.handleTcp cfg env c conn msg).2 = .panic := by rw [hu]
      exact absurd hpanic (handleTcp_ne_panic_of_openable hok)
  | udp hu hacts =>
    obtain ⟨hconn, -, hpunch⟩ := hacts.sinks
    have hold := hclean key c' ((congrFun hpunch key).symm.trans hparked)
    rwa [← hconn] at hold

/-- **In every run over messages that can be opened**, no sink of a connection that is closed is left in
`tcp_punch`. -/
theorem cleanedUp_run {registry : Registry} {sessions : Sessions} {evs : List (HbbsEvent C)}
    (hrun : Run (Only (fun _ => OpenableEvent cfg) (Steps (Rendezvous.step cfg))) (start registry sessions) evs t) :
    CleanedUp t := by
  have hstep : ∀ (s : Rendezvous C) ev t, Owned s ∧ CleanedUp s →
      Only (fun _ => OpenableEvent cfg) (Steps (Rendezvous.step cfg)) s ev t → Owned t ∧ CleanedUp t :=
    fun _ _ _ h hstep => ⟨h.1.step hstep.2, h.2.step h.1 hstep.1 hstep.2⟩
  have hstart : Owned (start registry sessions : Rendezvous C) ∧ CleanedUp (start registry sessions : Rendezvous C) :=
    ⟨fun _ _ h => (by cases h), fun _ _ h => (by cases h)⟩
  exact (Run.invariant hstep hrun hstart).2

/-- A client that waits for a relay and is gone then. -/
theorem cleanedUp_gone : (exampleAfter exampleRelayed).tcpPunch ⟨.ofOctets 10 0 0 2, 40000⟩ = some 0 ∧
    CleanedUp (exampleAfter (exampleRelayed ++ [.close 0])) := by
  have hrun : Run (Steps (step exampleConfig)) (start ⟨fun _ => none, .empty⟩ fun _ => .empty)
      (exampleRelayed ++ [.close 0]) (exampleAfter (exampleRelayed ++ [.close 0])) := exec_eq_some_iff.mp rfl
  have hok : ∀ ev ∈ exampleRelayed ++ [.close 0], OpenableEvent exampleConfig ev := by
    simp [exampleRelayed, exampleStart, OpenableEvent, Openable]
  exact ⟨rfl, cleanedUp_run (hrun.only hok)⟩

end

/-! ## Two key exchanges -/

/-- No relay servers are configured or published. -/
def noRelays : RelayTable := ⟨[], [], 0⟩

/-- A `KeyExchange` of two keys without a byte, as it is on the wire. -/
def emptyKeys : List UInt8 := [0xca, 0x01, 0x04, 0x0a, 0x00, 0x0a, 0x00]

/-- The parser, on the message above and on a message of two keys of 32 and 48 bytes. -/
def parseKeys (bytes : List UInt8) : Option RendezvousMessage :=
  if bytes = emptyKeys then some (.keyExchange [[], []])
  else if bytes.take 5 = [0xca, 0x01, 0x54, 0x0a, 0x20] ∧ (bytes.drop 37).take 2 = [0x0a, 0x30] ∧
      bytes.length = 87 then
    some (.keyExchange [(bytes.drop 5).take 32, bytes.drop 39])
  else none

/-- `box_::open`, on boxes that open. -/
def openingConfig : HbbsConfig :=
  { exampleConfig with openBox := fun _ box => if 16 ≤ box.length then some (box.drop 16) else none }

theorem openingConfig_opensShorter : openingConfig.OpensShorter := by
  intro theirPk box key h
  simp only [openingConfig] at h
  split at h
  next hle =>
    cases h
    rw [List.length_drop]
    omega
  next => cases h

/-- The connection of the client that has asked for a relay. -/
def relayedConn : Conn := ⟨⟨.ofOctets 10 0 0 2, 40000⟩, false, true, false⟩

/-- A message of two keys of 32 and 48 bytes. -/
def twoKeys : List UInt8 :=
  [0xca, 0x01, 0x54, 0x0a, 0x20] ++ List.replicate 32 1 ++ [0x0a, 0x30] ++ List.replicate 48 2

/-- A key exchange that opens. -/
theorem serves_key_exchange :
    Serves openingConfig noRelays parseKeys exampleHbbsEnv (exampleAfter exampleRelayed) 0 relayedConn twoKeys := by
  refine (serves_iff_openable _ _ _ _ _ _ _ _ openingConfig_opensShorter rfl rfl).mpr ?_
  intro theirPk cryptobox h
  have hparse : parseKeys twoKeys = some (.keyExchange [List.replicate 32 1, List.replicate 48 2]) := by
    decide +kernel
  simp only [hparse, Option.some.injEq, RendezvousMessage.keyExchange.injEq, List.cons.injEq, and_true] at h
  obtain ⟨rfl, rfl⟩ := h
  exact ⟨by decide, by decide, by decide⟩

/-- Seven bytes of anyone end the task, and the sink of its connection is left in `tcp_punch`. -/
theorem empty_keys_crash :
    exampleConfig.OpensShorter ∧
      (exampleAfter exampleRelayed).conn 0 = some relayedConn ∧ relayedConn.isOpen = true ∧
      handleTcpChecked exampleConfig noRelays exampleHbbsEnv (exampleAfter exampleRelayed) 0 relayedConn
        (parseKeys emptyKeys) = .error .lengthMismatch ∧
      ¬ Serves exampleConfig noRelays parseKeys exampleHbbsEnv (exampleAfter exampleRelayed) 0 relayedConn
        emptyKeys ∧
      ¬ CleanedUp (exampleAfter
        (exampleRelayed ++ [.tcp 0 (noRelays.env exampleHbbsEnv) (parseKeys emptyKeys)])) := by
  refine ⟨fun _ _ _ h => (by cases h), rfl, rfl, rfl, ?_, ?_⟩
  · rintro ⟨r, goesOn, hreturns, -⟩
    cases hreturns
  · intro h
    obtain ⟨conn, hconn, hopen⟩ := h ⟨.ofOctets 10 0 0 2, 40000⟩ 0 rfl
    cases hconn
    cases hopen

end Rendezvous

end RustDesk.Server
