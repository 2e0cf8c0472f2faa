import RustDesk.Connection.Environment
import RustDesk.Common.Run

/-!
# The login of a connection

References: `src/server/connection.rs` (`start`, `on_message` up to its authorized branch, and what
they call).

A handler takes the host and returns it changed, with the `bool` of the source: whether to keep the
connection. `step` is one turn of the loop of `start`, as far as it bears on the login.
-/

namespace RustDesk.Connection

/-- `const REQUIRE_2FA`. -/
def require2faMsg : String := "2FA Required"

/-- `const LOGIN_MSG_DESKTOP_SESSION_NOT_READY`. -/
def desktopSessionNotReady : String := "Desktop session not ready"

/-- `normalize_port_forward_target`: the address, and whether it is RDP. -/
def normalizePortForwardTarget (pf : PortForward) : String × Bool :=
  let isRdp : Bool := pf.host = "RDP" ∧ pf.port = 0
  let pf := if isRdp then ⟨"localhost", 3389⟩ else pf
  let host := if pf.host = "" then "localhost" else pf.host
  (host ++ ":" ++ toString pf.port, isRdp)

namespace Host

variable (b : Build) (env : Env)

/-! ## Small operations -/

/-- `send_login_error`. -/
def sendLoginError (h : Host) (err : String) : Host :=
  h.emit (.loginError err (err = require2faMsg && env.enableTrustedDevices))

/-- `set_conn_audit_primary_auth`. -/
def setConnAuditPrimaryAuth (h : Host) (method : ConnAuditPrimaryAuth) : Host :=
  { h with conn := { h.conn with connAuditPrimaryAuth := method } }.emit (.primaryAuth method)

/-- `set_conn_audit_two_factor`. -/
def setConnAuditTwoFactor (h : Host) (twoFactor : ConnAuditTwoFactor) : Host :=
  { h with conn := { h.conn with connAuditTwoFactor := twoFactor } }.emit (.twoFactor twoFactor)

/-- The login data that `try_start_cm` sends. -/
def cmLogin (h : Host) (peerId name : String) (authorized : Bool) : CmLogin where
  id := h.conn.id
  isFileTransfer := h.conn.fileTransfer.isSome
  isViewCamera := h.conn.viewCamera
  isTerminal := h.conn.terminal
  peerId := peerId
  name := name
  avatar := h.conn.lr.avatar
  authorized := authorized
  portForward := h.conn.portForwardAddress
  permissions := h.conn.permissions
  fileTransferEnabled := h.conn.permissions.file
  fromSwitch := h.conn.fromSwitch

/-- `try_start_cm`. -/
def tryStartCm (h : Host) (peerId name : String) (authorized : Bool) : Host :=
  h.emit (.cmLogin (h.cmLogin peerId name authorized))

/-- `try_start_cm_ipc`. -/
def tryStartCmIpc (h : Host) : Host :=
  if h.conn.startCmIpcPara then
    { h with conn := { h.conn with startCmIpcPara := false } }.emit .startCmIpc
  else h

/-- `check_failure`. -/
def checkFailure (h : Host) (i : ℕ) : Host × Bool :=
  match env.checkFailure i with
  | some err => (h.sendLoginError env err, false)
  | none => (h, true)

/-- `update_failure`. -/
def updateFailure (h : Host) (remove : Bool) (i : ℕ) : Host := h.emit (.updateFailure remove i)

/-- The other connections had their turn before a shared table is read. -/
def acquire (h : Host) (r : SharedRead) : Host := { h with shared := env.meanwhile r h.shared }

/-! ## Passwords and sessions -/

/-- `AuthedConnID::update_or_insert_session`. -/
def updateOrInsertSession (h : Host) (password : Option String) (tfa : Option Bool) : Host :=
  let session : Session := (h.shared.sessions h.conn.sessionKey).getD ⟨env.now, "", false⟩
  let session := { session with
    randomPassword := password.getD session.randomPassword, tfa := tfa.getD session.tfa }
  { h with shared := { h.shared with
    sessions := Function.update h.shared.sessions h.conn.sessionKey (some session) } }

/-- `validate_password`. -/
def validatePassword (h : Host) (allowPermanentPassword : Bool) : Host × Bool :=
  if env.temporaryEnabled ∧
      validatePasswordPlain b h.conn.hash h.conn.lr.password env.temporaryPassword then
    let h := h.setConnAuditPrimaryAuth .temporaryPassword
    (h.updateOrInsertSession env (some env.temporaryPassword) (some false), true)
  else if (env.permanentEnabled ∨ allowPermanentPassword) ∧
      isPermanentPassword b h.conn.hash h.conn.lr.password env then
    (h.setConnAuditPrimaryAuth .permanentPassword, true)
  else (h, false)

/-- `SESSIONS.retain` of the sessions heard from in the last 30 seconds. -/
def retainSessions (h : Host) : Host :=
  { h with shared := { h.shared with
    sessions := fun key => (h.shared.sessions key).filter (env.now - ·.lastRecvTime < 30000) } }

/-- The test of `is_recent_session` on the session found. -/
def isRecent (h : Host) (tfa : Bool) (session : Session) : Bool :=
  h.conn.lr.password ≠ [] &&
    (tfa && session.tfa ||
      !tfa && validatePasswordPlain b h.conn.hash h.conn.lr.password session.randomPassword)

/-- `is_recent_session`. -/
def isRecentSession (h : Host) (tfa : Bool) : Host × Bool :=
  let h := (h.acquire env (if tfa then .recentTfa else .recentPassword)).retainSessions env
  match h.shared.sessions h.conn.sessionKey with
  | some session =>
    if h.isRecent b tfa session then
      if tfa then (h.setConnAuditTwoFactor .totp, true)
      else (h.setConnAuditPrimaryAuth .temporaryPassword, true)
    else (h, false)
  | none => (h, false)

/-! ## Terminal logins -/

/-- `fill_terminal_user_token`, with `handle_administrator_check` and `handle_installed_user`: the
token, or what is wrong. -/
def fillTerminalUserToken (username password : String) : Except String TerminalUserToken :=
  if b.os ≠ .windows then .ok .selfUser
  else if username ≠ "" then
    if env.isAdministrator username password then .ok .selfUser
    else .error "Incorrect username or password."
  else if env.isPrelogin then
    .error "No active console user logged on, please connect and logon first."
  else if env.isInstalled then
    match env.installedUserToken with
    | .ok token => .ok (.currentLogonUser token)
    | .error msg => .error msg
  else .ok .selfUser

/-- The end of `prepare_terminal_login_for_authorization`, with the token filled in: it has to be of
the kind that the service asked for runs under. -/
def checkTerminalService (h : Host) (isTerminalOsLogin : Bool) (token : TerminalUserToken) :
    Host × Option Bool :=
  let h := { h with conn := { h.conn with terminalUserToken := some token } }
  if ∃ isUser ∈ env.isServiceSpecifiedUser h.conn.terminalServiceId,
      isUser ≠ decide (token ≠ .selfUser) then
    (h.sendLoginError env "Terminal service user mismatch detected.", some false)
  else if isTerminalOsLogin then (h.tryStartCmIpc, none)
  else (h, none)

/-- `prepare_terminal_login_for_authorization`: `none` to go on, else what to return. -/
def prepareTerminalLoginForAuthorization (h : Host) : Host × Option Bool :=
  if ¬ b.os.isDesktop then (h, none)
  else if ¬ h.conn.terminal ∨ h.conn.terminalUserToken.isSome then (h, none)
  else
    let username := trim h.conn.lr.osLogin.username
    let isTerminalOsLogin := shouldUseTerminalOsLoginScope b h.conn.terminal username
    match if isTerminalOsLogin then env.osCredentialBlocked else none with
    | some loginError => (loginError.elim h (h.sendLoginError env), some false)
    | none =>
      if isTerminalOsLogin ∧ ¬ env.osCredentialGate then
        (h.sendLoginError env "Please try 1 minute later", some false)
      else
        match fillTerminalUserToken b env username h.conn.lr.osLogin.password with
        | .error msg =>
          let h := if isTerminalOsLogin then h.emit .osCredentialFailure else h
          (h.sendLoginError env msg, some false)
        | .ok token => h.checkTerminalService env isTerminalOsLogin token

/-! ## Authorization -/

/-- `connect_port_forward_if_needed`. -/
def connectPortForwardIfNeeded (h : Host) : Host × Bool :=
  if h.conn.portForwardSocket.isSome then (h, true)
  else
    match h.conn.lr.union with
    | some (.portForward pf) =>
      let (addr, isRdp) := normalizePortForwardTarget pf
      let h := { h with conn := { h.conn with portForwardAddress := addr } }
      if env.connects addr then
        ({ h with conn := { h.conn with portForwardSocket := some addr } }, true)
      else
        (h.sendLoginError env ("Failed to access remote " ++ (if isRdp then "RDP" else addr) ++
          ". Please make sure it is reachable/open."), false)
    | _ => (h, true)

/-- The type that `send_logon_response_and_keep_alive` authorizes a connection as. -/
def authConnType (h : Host) : AuthConnType :=
  if h.conn.fileTransfer.isSome then .fileTransfer
  else if h.conn.portForwardSocket.isSome then .portForward
  else if h.conn.viewCamera then .viewCamera
  else if h.conn.terminal then .terminal
  else .remote

/-- `normalize_conn_audit_auth_fields`. -/
def normalizeConnAuditAuthFields (h : Host) : Host :=
  if h.conn.connAuditPrimaryAuth = .click ∨ h.conn.connAuditPrimaryAuth = .switchSides then
    { h with conn := { h.conn with connAuditTwoFactor := .none } }
  else h

/-- `is_remote`. -/
def isRemote (h : Host) : Bool :=
  h.conn.fileTransfer.isNone && h.conn.portForwardSocket.isNone && !h.conn.viewCamera &&
    !h.conn.terminal

/-- The part of `send_logon_response_and_keep_alive` that makes the connection an authorized one. -/
def authorize (h : Host) : Host :=
  let type := h.authConnType
  let h := { h with conn := { h.conn with authorized := true, authedConnId := some type } }
  let h := h.normalizeConnAuditAuthFields
  h.emit (.connAudit (h.conn.lr.myId, h.conn.lr.myName) type h.conn.connAuditPrimaryAuth
    h.conn.connAuditTwoFactor)

/-- The login response: the peer info, unless the displays of a remote session cannot be had. -/
def loginResult (h : Host) : Except String AuthConnType :=
  match if h.isRemote then env.displaysError else none with
  | some err => .error err
  | none => .ok h.authConnType

/-- `update_scoped_login_options` takes the options that came with the login. -/
def takeLoginOptions (h : Host) : Host := { h with conn := { h.conn with optionsInLogin := none } }

/-- Only remote sessions get a keyboard. -/
def restrictKeyboard (h : Host) : Host :=
  if h.isRemote then h
  else
    let h := { h with conn := { h.conn with
      permissions := { h.conn.permissions with keyboard := false } } }
    if h.conn.fileTransfer.isNone ∧ ¬ h.conn.terminal then h.emit (.permissionKeyboard false)
    else h

/-- The rest of `send_logon_response_and_keep_alive`. -/
def respond (h : Host) : Host :=
  if h.conn.portForwardSocket.isSome then h.emit (.loginResponse (.ok .portForward))
  else
    match if b.os = .linux ∧ h.isRemote then env.displayServerError else none with
    | some msg => h.emit (.loginResponse (.error msg))
    | none => (h.emit (.loginResponse (h.loginResult env))).takeLoginOptions.restrictKeyboard

/-- The second half of `send_logon_response_and_keep_alive`, past the question for a second
factor. -/
def openSession (h : Host) : Host × Bool :=
  match h.prepareTerminalLoginForAuthorization b env with
  | (h, some keepAlive) => (h, keepAlive)
  | (h, none) =>
    match h.connectPortForwardIfNeeded env with
    | (h, false) => (h, false)
    | (h, true) => (h.authorize.respond b env, true)

/-- `send_logon_response_and_keep_alive`. -/
def sendLogonResponseAndKeepAlive (h : Host) : Host × Bool :=
  if h.conn.authorized then (h, true)
  else if h.conn.require2fa.isSome then
    match h.isRecentSession b env true with
    | (h, recent) =>
      if ¬ recent ∧ ¬ h.conn.fromSwitch then (h.sendLoginError env require2faMsg, true)
      else h.openSession b env
  else h.openSession b env

end Host

end RustDesk.Connection
