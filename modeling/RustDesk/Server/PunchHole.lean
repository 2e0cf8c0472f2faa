import RustDesk.Common.SortedSet
import RustDesk.Server.Registry
import Mathlib.Data.String.Basic

/-!
# Punch hole requests

References: `rustdesk-server/src/rendezvous_server.rs` (`handle_punch_hole_request`, `is_lan`),
`src/redis_session.rs` (`check_and_register`), `src/jwt.rs` (`verify_token`).

What the server takes from outside during a request is in `PunchEnv`: the clocks, the answers of the
database about users, the decoded token and the choice of a relay server.
-/

namespace RustDesk.Server

open Net

/-- `Claims`. -/
structure Claims where
  userId : ℤ
  uuid : String
  exp : ℕ
deriving DecidableEq

/-- `Subscription`. -/
structure Subscription where
  expirationDatetime : ℤ
  concurrentLimit : ℤ
deriving DecidableEq

/-- How a call of Redis ends: no connection or an error before the script ran, an answer, or a script
that ran and whose answer was lost. -/
inductive RedisCall
  | unreachable
  | answered
  | lostReply
deriving DecidableEq

/-- The settings of hbbs. `mask` is whether an address is in the network of `--mask`, if there is one.
`sk` is the signing key, `openBox` opens what a client sealed under its key for the server's box key, and
`ipText` is the text of an address. -/
structure HbbsConfig where
  key : String
  mustLogin : Bool
  secret : String
  mask : Option (Vector UInt8 4 → Bool)
  localIp : String
  sk : Option (List UInt8)
  sign : List UInt8 → List UInt8 → List UInt8
  openBox : List UInt8 → List UInt8 → Option (List UInt8)
  ipText : IpAddr → String
  version : String
  softwareUrl : String

/-- What a request takes from outside. An answer of the database is `none` where the call fails.
`decode` is what `jsonwebtoken` makes of a token under the secret. -/
structure PunchEnv where
  decode : String → Option Claims
  timestamp : ℕ
  userStatus : ℤ → Option String
  subscription : ℤ → Option (Option Subscription)
  utcNow : ℤ
  redis : RedisCall
  timestampMillis : ℤ
  permission : ℤ → String → Option Bool
  now : ℕ
  getPeerOk : Bool
  alwaysUseRelay : Bool
  relayServer : IpAddr → IpAddr → String
  tm : UInt32

/-- `REG_TIMEOUT`. -/
def regTimeout : ℤ := 30_000

/-- `verify_token`. -/
def verifyToken (env : PunchEnv) (token : String) : Option Claims :=
  match env.decode token with
  | some claims => if claims.exp > env.timestamp then some claims else none
  | none => none

/-- `is_lan`. -/
def isLan (cfg : HbbsConfig) (addr : SocketAddr) : Bool :=
  match cfg.mask with
  | some contains =>
    match addr.ip with
    | .v4 octets => contains octets
    | .v6 octets =>
      match IpAddr.toIpv4 octets with
      | some v4 => contains v4
      | none => false
  | none => false

/-! ## Sessions -/

/-- The active sessions of each user: the devices, by the time they came. -/
abbrev Sessions := ℤ → SortedSet String

/-- The script of `check_and_register`. -/
def sessionScript (set : SortedSet String) (member : String) (score limit : ℤ) :
    Bool × SortedSet String :=
  let set := set.zadd member score
  let cnt : ℤ := set.zcard
  if cnt ≤ limit then (true, set)
  else
    let (popped, set) := set.zpopmin (cnt - limit).toNat
    (member ∉ popped, set)

/-- `check_and_register`. -/
def checkAndRegister (env : PunchEnv) (sessions : Sessions) (userId : ℤ) (deviceId : String)
    (limit : ℤ) : Bool × Sessions :=
  let (kept, set) := sessionScript (sessions userId) deviceId env.timestampMillis limit
  match env.redis with
  | .unreachable => (true, sessions)
  | .answered => (kept, Function.update sessions userId set)
  | .lostReply => (true, Function.update sessions userId set)

/-! ## The request -/

/-- A refusal with a text. -/
def refuse (text : String) : RendezvousMessage :=
  .punchHoleResponse { PunchHoleResponse.default with otherFailure := text }

/-- A refusal with a code. -/
def fail (failure : Failure) : RendezvousMessage :=
  .punchHoleResponse { PunchHoleResponse.default with failure }

/-- The checks up to the subscription: a refusal, or the claims and the subscription of a user who has
to have a session, or nothing where no login is asked for. -/
def checkLogin (cfg : HbbsConfig) (env : PunchEnv) (ph : PunchHoleRequest) :
    Except RendezvousMessage (Option (Claims × Subscription)) :=
  if cfg.key ≠ "" ∧ ph.licenceKey ≠ cfg.key then .error (fail .licenseMismatch)
  else if cfg.mustLogin then
    if ph.token = "" then .error (refuse "连接失败，请登录！")
    else if cfg.secret ≠ "" then
      match verifyToken env ph.token with
      | none => .error (refuse "令牌错误，请注销并重新登录！")
      | some claims =>
        match env.userStatus claims.userId with
        | none => .error (refuse "服务器内部错误 (SaaS-U)")
        | some status =>
          if status = "banned" then .error (refuse "该帐户已被禁止")
          else
            match env.subscription claims.userId with
            | none => .error (refuse "服务器内部错误 (SaaS-S)")
            | some none => .error (refuse "未找到有效订阅")
            | some (some sub) =>
              if sub.expirationDatetime ≤ env.utcNow then .error (refuse "订阅已过期")
              else .ok (some (claims, sub))
    else .ok none
  else .ok none

/-- The session and the permission of a user for a device: a refusal or nothing. -/
def checkSession (env : PunchEnv) (sessions : Sessions) (claims : Claims) (sub : Subscription)
    (id : String) : Option RendezvousMessage × Sessions :=
  let (ok, sessions) :=
    checkAndRegister env sessions claims.userId claims.uuid (asI32 sub.concurrentLimit)
  if ¬ ok then (some (refuse "并发检查失败 (Redis)"), sessions)
  else
    match env.permission claims.userId id with
    | some true => (none, sessions)
    | some false => (some (refuse "拒绝访问此设备"), sessions)
    | none => (some (refuse "服务器内部错误 (SaaS-P)"), sessions)

/-- What is sent to the peer, and where. -/
def punchMessage (cfg : HbbsConfig) (env : PunchEnv) (addr peerAddr : SocketAddr)
    (ph : PunchHoleRequest) (ws : Bool) : RendezvousMessage :=
  let peerIsLan := isLan cfg peerAddr
  let isLan := isLan cfg addr
  let relayServer :=
    if ph.relayServer ≠ "" then ph.relayServer else env.relayServer addr.ip peerAddr.ip
  let forced : Bool := env.alwaysUseRelay ∨ peerIsLan ≠ isLan
  let relayServer := if forced ∧ peerIsLan then cfg.localIp else relayServer
  let natType := if forced then .known .symmetric else ph.natType
  let sameIntranet : Bool := ¬ ws ∧ (peerIsLan ∧ isLan ∨ peerAddr.ip = addr.ip)
  let socketAddr := AddrMangle.encode env.tm addr
  if sameIntranet then .fetchLocalAddr ⟨socketAddr, relayServer, ph.relayUseWss⟩
  else .punchHole ⟨socketAddr, relayServer, natType, ph.relayUseWss⟩

/-- The last part of `handle_punch_hole_request`: the message to the peer and its address, or a
refusal. -/
def punch (cfg : HbbsConfig) (env : PunchEnv) (s : Registry) (addr : SocketAddr)
    (ph : PunchHoleRequest) (ws : Bool) : (RendezvousMessage × Option SocketAddr) × Registry :=
  match s.get env.now env.getPeerOk ph.id with
  | (some peer, s) =>
    if peer.elapsed env.now ≥ regTimeout then ((fail .offline, none), s)
    else ((punchMessage cfg env addr peer.socketAddr ph ws, some peer.socketAddr), s)
  | (none, s) => ((fail .idNotExist, none), s)

/-- `handle_punch_hole_request`: the answer, with the address of the peer if it is one for the peer. -/
def handlePunchHoleRequest (cfg : HbbsConfig) (env : PunchEnv) (s : Registry) (sessions : Sessions)
    (addr : SocketAddr) (ph : PunchHoleRequest) (ws : Bool) :
    (RendezvousMessage × Option SocketAddr) × Registry × Sessions :=
  match checkLogin cfg env ph with
  | .error msg => ((msg, none), s, sessions)
  | .ok none =>
    let (res, s) := punch cfg env s addr ph ws
    (res, s, sessions)
  | .ok (some (claims, sub)) =>
    match checkSession env sessions claims sub ph.id with
    | (some msg, sessions) => ((msg, none), s, sessions)
    | (none, sessions) =>
      let (res, s) := punch cfg env s addr ph ws
      (res, s, sessions)

end RustDesk.Server
