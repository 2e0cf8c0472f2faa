import Mathlib.Algebra.Group.Nat.Defs
import Mathlib.Data.List.Infix
import Mathlib.Logic.Function.Basic

/-!
# A connection to the controlled side

References: `src/server/connection.rs` (`Connection`, `Session`, `AuthConnType`, the audit enums),
`src/ipc.rs` (`Data::Login`), `flutter/lib/models/server_model.dart` (`type_`) and the login
messages of `message.proto`.

`Conn` holds the fields that decide who gets authorized and as what. The tables it shares with the
other connections of the process are in `Shared`, and what a handler asks of anything else (the
configuration, the operating system, the clock, the crates) is answered by an `Env`. What a handler
does to the outside is written to a log of `Effect`s.
-/

namespace RustDesk.Connection

/-! ## Messages of the peer -/

/-- `BoolOption` as it comes off the wire. -/
inductive BoolOption
  | notSet
  | no
  | yes
  | unknown (value : ℤ)
deriving DecidableEq

/-- `OptionMessage`. -/
structure OptionMessage where
  terminalPersistent : BoolOption
deriving DecidableEq

/-- `FileTransfer`. -/
structure FileTransfer where
  dir : String
  showHidden : Bool
deriving DecidableEq

/-- `PortForward`. -/
structure PortForward where
  host : String
  port : ℤ
deriving DecidableEq

/-- `login_request::Union`. -/
inductive LoginUnion
  | fileTransfer (ft : FileTransfer)
  | portForward (pf : PortForward)
  | viewCamera
  | terminal (serviceId : String)
deriving DecidableEq

/-- `OSLogin`. -/
structure OsLogin where
  username : String
  password : String
deriving DecidableEq

/-- `LoginRequest`. -/
structure LoginRequest where
  username : String
  password : List UInt8
  myId : String
  myName : String
  option : Option OptionMessage
  union : Option LoginUnion
  sessionId : ℕ
  version : String
  osLogin : OsLogin
  myPlatform : String
  hwid : List UInt8
  avatar : String
deriving DecidableEq

/-- `LoginRequest::default()`. -/
def LoginRequest.default : LoginRequest :=
  ⟨"", [], "", "", none, none, 0, "", ⟨"", ""⟩, "", [], ""⟩

/-- `Auth2FA`. -/
structure Auth2fa where
  code : String
  hwid : List UInt8
deriving DecidableEq

/-- `SwitchSidesResponse`. -/
structure SwitchSidesResponse where
  uuid : List UInt8
  lr : Option LoginRequest
deriving DecidableEq

/-- `message::Union` as far as the login tells its variants apart. A message of a running session
comes with its name in `message_family`. -/
inductive Message
  | closeReason (reason : String)
  | loginRequest (lr : LoginRequest)
  | auth2fa (tfa : Auth2fa)
  | testDelay (fromClient : Bool)
  | switchSidesResponse (s : SwitchSidesResponse)
  | session (family : String)
deriving DecidableEq

/-! ## State -/

/-- `AuthConnType`. -/
inductive AuthConnType
  | remote
  | fileTransfer
  | portForward
  | viewCamera
  | terminal
deriving DecidableEq

/-- `ConnAuditPrimaryAuth`. -/
inductive ConnAuditPrimaryAuth
  | none
  | click
  | temporaryPassword
  | permanentPassword
  | switchSides
deriving DecidableEq

/-- `ConnAuditTwoFactor`. -/
inductive ConnAuditTwoFactor
  | none
  | totp
  | trustedDevice
deriving DecidableEq

/-- `TerminalUserToken`. -/
inductive TerminalUserToken
  | selfUser
  | currentLogonUser (token : ℕ)
deriving DecidableEq

/-- The secret of a `totp_rs::TOTP`. -/
abbrev Totp := List UInt8

/-- `SessionKey`. -/
structure SessionKey where
  peerId : String
  name : String
  sessionId : ℕ
deriving DecidableEq

/-- `Session`. -/
structure Session where
  lastRecvTime : ℕ
  randomPassword : String
  tfa : Bool
deriving DecidableEq

/-- `TrustedDevice`. -/
structure TrustedDevice where
  hwid : List UInt8
  time : ℤ
  id : String
  name : String
  platform : String
deriving DecidableEq

/-- `Hash`: what the peer needs to send its password. -/
structure Hash where
  salt : String
  challenge : String
deriving DecidableEq

/-- The permissions that the connection manager shows and switches. -/
structure Permissions where
  keyboard : Bool
  clipboard : Bool
  audio : Bool
  file : Bool
  restart : Bool
  recording : Bool
  blockInput : Bool
  privacyMode : Bool
deriving DecidableEq

/-- `Connection`. `portForwardSocket` is the address that the socket is connected to, and
`authedConnId` is the type the connection was authorized as. -/
structure Conn where
  id : ℤ
  hash : Hash
  fileTransfer : Option (String × Bool)
  viewCamera : Bool
  terminal : Bool
  portForwardSocket : Option String
  portForwardAddress : String
  authorized : Bool
  require2fa : Option Totp
  permissions : Permissions
  controlPermissions : Option (BitVec 64)
  lastTestDelay : Option ℕ
  networkDelay : ℕ
  lr : LoginRequest
  fromSwitch : Bool
  optionsInLogin : Option OptionMessage
  isHeadlessAllowed : Bool
  startCmIpcPara : Bool
  authedConnId : Option AuthConnType
  terminalServiceId : String
  terminalPersistent : Bool
  terminalUserToken : Option TerminalUserToken
  connAuditPrimaryAuth : ConnAuditPrimaryAuth
  connAuditTwoFactor : ConnAuditTwoFactor
deriving DecidableEq

/-- The state in which `start` opens a connection. -/
def Conn.start (id : ℤ) (hash : Hash) (require2fa : Option Totp) (permissions : Permissions)
    (controlPermissions : Option (BitVec 64)) (isHeadlessAllowed : Bool) : Conn where
  id := id
  hash := hash
  fileTransfer := none
  viewCamera := false
  terminal := false
  portForwardSocket := none
  portForwardAddress := ""
  authorized := false
  require2fa := require2fa
  permissions := permissions
  controlPermissions := controlPermissions
  lastTestDelay := none
  networkDelay := 0
  lr := .default
  fromSwitch := false
  optionsInLogin := none
  isHeadlessAllowed := isHeadlessAllowed
  startCmIpcPara := true
  authedConnId := none
  terminalServiceId := ""
  terminalPersistent := false
  terminalUserToken := none
  connAuditPrimaryAuth := .none
  connAuditTwoFactor := .none

/-- `session_key`. -/
def Conn.sessionKey (c : Conn) : SessionKey := ⟨c.lr.myId, c.lr.myName, c.lr.sessionId⟩

/-- What the connections of the process share: `SESSIONS`, `SWITCH_SIDES_UUID` and the trusted
devices of the configuration. -/
structure Shared where
  sessions : SessionKey → Option Session
  switchSidesUuid : String → Option (ℕ × List UInt8)
  trustedDevices : List TrustedDevice

/-! ## Effects -/

/-- `ipc::Data::Login`. -/
structure CmLogin where
  id : ℤ
  isFileTransfer : Bool
  isViewCamera : Bool
  isTerminal : Bool
  peerId : String
  name : String
  avatar : String
  authorized : Bool
  portForward : String
  permissions : Permissions
  fileTransferEnabled : Bool
  fromSwitch : Bool
deriving DecidableEq

/-- `type_`: what the connection manager shows a login as. -/
def CmLogin.type (d : CmLogin) : AuthConnType :=
  if d.isFileTransfer then .fileTransfer
  else if d.isViewCamera then .viewCamera
  else if d.isTerminal then .terminal
  else if d.portForward ≠ "" then .portForward
  else .remote

/-- What a handler does to the outside: what it sends to the peer and to the connection manager, the
failures it records, and the audit calls. -/
inductive Effect
  | loginError (err : String) (enableTrustedDevices : Bool)
  | loginResponse (res : Except String AuthConnType)
  | testDelay
  | closeReason (reason : String)
  | permissionKeyboard (enabled : Bool)
  | cmLogin (data : CmLogin)
  | startCmIpc
  | updateFailure (remove : Bool) (i : ℕ)
  | osCredentialFailure
  /-- `set_conn_audit_primary_auth` -/
  | primaryAuth (method : ConnAuditPrimaryAuth)
  /-- `set_conn_audit_two_factor` -/
  | twoFactor (twoFactor : ConnAuditTwoFactor)
  /-- `post_conn_audit` of an authorized connection -/
  | connAudit (peer : String × String) (type : AuthConnType) (primary : ConnAuditPrimaryAuth)
      (twoFactor : ConnAuditTwoFactor)
deriving DecidableEq

/-- The login data in an effect. -/
def Effect.login? : Effect → Option CmLogin
  | .cmLogin data => some data
  | _ => none

/-- The last login data sent to the connection manager. -/
def lastLogin (log : List Effect) : Option CmLogin := (log.filterMap Effect.login?).getLast?

/-- A connection with all it works on. `isOpen` says that the loop of `start` still runs. -/
structure Host where
  conn : Conn
  shared : Shared
  log : List Effect
  isOpen : Bool

namespace Host

def emit (h : Host) (e : Effect) : Host := { h with log := h.log ++ [e] }

@[simp] theorem emit_conn (h : Host) (e : Effect) : (h.emit e).conn = h.conn := rfl
@[simp] theorem emit_shared (h : Host) (e : Effect) : (h.emit e).shared = h.shared := rfl
@[simp] theorem emit_log (h : Host) (e : Effect) : (h.emit e).log = h.log ++ [e] := rfl
@[simp] theorem emit_isOpen (h : Host) (e : Effect) : (h.emit e).isOpen = h.isOpen := rfl

end Host

@[simp] theorem lastLogin_append_login (log : List Effect) (data : CmLogin) :
    lastLogin (log ++ [.cmLogin data]) = some data := by
  simp [lastLogin, Effect.login?]

theorem lastLogin_append {log : List Effect} {e : Effect} (h : e.login? = none) :
    lastLogin (log ++ [e]) = lastLogin log := by
  simp [lastLogin, h]

end RustDesk.Connection
