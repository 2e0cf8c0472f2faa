import RustDesk.Connection.Login

/-!
# Messages of the peer and clicks of the user

References: `src/server/connection.rs` (`on_message` up to its authorized branch,
`handle_login_request_without_validation`, `reset_session_scope_for_login`,
`handle_authorized_scope_violation`, `start`).

`step` is one turn of the loop of `start`, as far as it bears on the login: a message of the peer, the
user's click on accept, or the timer that measures the delay.
-/

namespace RustDesk.Connection

namespace Host

variable (b : Build) (env : Env)

/-! ## Login requests -/

/-- The test of a trusted device against a login request. -/
def matchesDevice (lr : LoginRequest) (device : TrustedDevice) : Bool :=
  !device.outdate env.now && device.id = lr.myId && device.name = lr.myName &&
    device.platform = lr.myPlatform

/-- The trusted device that stands in for the second factor of a login request. -/
def trustedDevice? (h : Host) (lr : LoginRequest) : Option TrustedDevice :=
  if h.conn.require2fa.isSome ∧ lr.hwid ≠ [] ∧ env.enableTrustedDevices then
    (h.shared.trustedDevices.find? (·.hwid = lr.hwid)).filter (matchesDevice env lr)
  else none

/-- `handle_login_request_without_validation`. -/
def handleLoginRequestWithoutValidation (h : Host) (lr : LoginRequest) : Host :=
  let h := { h with conn := { h.conn with
    lr := lr, optionsInLogin := lr.option.or h.conn.optionsInLogin } }
  let h := h.acquire env .trustedDevices
  match h.trustedDevice? env lr with
  | some _ =>
    let h := h.setConnAuditTwoFactor .trustedDevice
    { h with conn := { h.conn with require2fa := none } }
  | none => h

/-- `reset_session_scope_for_login`. -/
def resetSessionScopeForLogin (h : Host) : Host :=
  { h with conn := { h.conn with
    fileTransfer := none, viewCamera := false, terminal := false, portForwardAddress := "",
    terminalPersistent := false } }

/-- The scope that the union of a login request asks for, or a refusal. -/
def openScope (h : Host) (lr : LoginRequest) : Except Host Host :=
  match lr.union with
  | some (.fileTransfer ft) =>
    if ¬ env.permission b .file h.conn.controlPermissions then
      .error (h.sendLoginError env "No permission of file transfer")
    else .ok { h with conn := { h.conn with fileTransfer := some (ft.dir, ft.showHidden) } }
  | some .viewCamera =>
    if ¬ env.permission b .camera h.conn.controlPermissions then
      .error (h.sendLoginError env "No permission of viewing camera")
    else .ok { h with conn := { h.conn with viewCamera := true } }
  | some (.terminal serviceId) =>
    if ¬ env.permission b .terminal h.conn.controlPermissions then
      .error (h.sendLoginError env "No permission of terminal")
    else if b.os = .windows ∧ lr.osLogin.username ≠ "" ∧ ¬ env.isInstalled then
      .error (h.sendLoginError env "Supported only in the installed version.")
    else
      .ok { h with conn := { h.conn with
        terminal := true
        terminalPersistent := match h.conn.optionsInLogin with
          | some o => o.terminalPersistent = .yes
          | none => h.conn.terminalPersistent
        terminalServiceId := serviceId } }
  | some (.portForward pf) =>
    if ¬ env.permission b .tunnel h.conn.controlPermissions then
      .error (h.sendLoginError env "No permission of IP tunneling")
    else
      .ok { h with conn := { h.conn with portForwardAddress := (normalizePortForwardTarget pf).1 } }
  | none =>
    -- `check_privacy_mode_on`
    if env.isInPrivacyMode then
      .error (h.sendLoginError env "Someone turns on privacy mode, exit")
    else .ok h

/-- What a login does once it is accepted: `send_logon_response_and_keep_alive`, then tell the
connection manager. -/
def logon (h : Host) (peerId name : String) : Host × Bool :=
  match h.sendLogonResponseAndKeepAlive b env with
  | (h, false) => (h, false)
  | (h, true) => (h.tryStartCm peerId name h.conn.authorized, true)

/-- Tell the connection manager of a login that waits for a click. On Windows a terminal login with
the credentials of a user has to prove them first, and may end the connection instead. -/
def awaitClick (h : Host) (lr : LoginRequest) : Host × Option Bool :=
  if b.os.isDesktop ∧ shouldUseTerminalOsLoginScope b h.conn.terminal lr.osLogin.username then
    match h.prepareTerminalLoginForAuthorization b env with
    | (h, some keepAlive) => (h, some keepAlive)
    | (h, none) => (h.tryStartCm lr.myId lr.myName false, none)
  else (h.tryStartCm lr.myId lr.myName false, none)

/-- A login with a password that is neither empty nor that of a recent session. -/
def tryPassword (h : Host) (lr : LoginRequest) (errMsg : String) : Host × Bool :=
  match h.checkFailure env 0 with
  | (h, false) => (h, true)
  | (h, true) =>
    match h.validatePassword b env (env.allowLogonScreenPassword b) with
    | (h, false) =>
      let h := h.updateFailure false 0
      if errMsg = "" then
        ((h.sendLoginError env "Wrong Password").tryStartCm lr.myId lr.myName false, true)
      else (h.sendLoginError env "Desktop session not ready, password wrong", true)
    | (h, true) =>
      let h := h.updateFailure true 0
      if errMsg = "" then h.logon b env lr.myId lr.myName
      else (h.sendLoginError env errMsg, true)

/-- The approval of a login: by click, by a recent session, or by a password. `errMsg` is what the
desktop start had to say. -/
def approve (h : Host) (lr : LoginRequest) (errMsg : String) : Host × Bool :=
  if env.clickOnly b then
    match h.awaitClick b env lr with
    | (h, some keepAlive) => (h, keepAlive)
    | (h, none) =>
      if env.versionNumber lr.version ≥ env.versionNumber "1.2.0" then
        (h.sendLoginError env "No Password Access", true)
      else (h, true)
  else
    match h.isRecentSession b env false with
    | (h, true) =>
      if errMsg = "" then h.logon b env lr.myId lr.myName
      else (h.sendLoginError env errMsg, true)
    | (h, false) =>
      if lr.password = [] then
        if errMsg = "" then
          match h.awaitClick b env lr with
          | (h, some keepAlive) => (h, keepAlive)
          | (h, none) => (h, true)
        else (h.sendLoginError env "Desktop session not ready, password empty", true)
      else h.tryPassword b env lr errMsg

/-- `err_msg`, a variable of the login: what the desktop start on Linux had to say. -/
def desktopError (h : Host) (lr : LoginRequest) : String :=
  if b.os = .linux ∧ h.conn.isHeadlessAllowed then
    env.tryStartDesktop lr.osLogin.username lr.osLogin.password
  else ""

/-- The check of the failures before a desktop is started for the user of a login. -/
def checkHeadlessAuth (h : Host) (lr : LoginRequest) : Host × Bool :=
  if b.os = .linux ∧
      shouldCheckLinuxHeadlessOsAuth env h.conn.isHeadlessAllowed lr.osLogin.username then
    h.checkFailure env 0
  else (h, true)

/-- The desktop start of a login. -/
def startDesktop (h : Host) (lr : LoginRequest) : Host × Bool :=
  match h.checkHeadlessAuth b env lr with
  | (h, false) => (h, true)
  | (h, true) =>
    let errMsg := h.desktopError b env lr
    if errMsg ≠ "" ∧ errMsg ≠ desktopSessionNotReady then
      if b.os = .linux ∧ shouldRecordLinuxHeadlessOsAuthFailure h.conn.isHeadlessAllowed
          lr.osLogin.username errMsg then
        match h.checkFailure env 0 with
        | (h, false) => (h, true)
        | (h, true) => ((h.updateFailure false 0).sendLoginError env errMsg, true)
      else (h.sendLoginError env errMsg, true)
    else h.approve b env lr errMsg

/-- `try_start_cm_ipc` where a login does it. -/
def startCmIpcForLogin (h : Host) (lr : LoginRequest) : Host :=
  if b.os.isDesktop ∧ ¬ shouldUseTerminalOsLoginScope b h.conn.terminal lr.osLogin.username then
    h.tryStartCmIpc
  else h

/-- The arm of `LoginRequest`. -/
def onLoginRequest (h : Host) (lr : LoginRequest) : Host × Bool :=
  let h := h.handleLoginRequestWithoutValidation env lr
  if h.conn.authorized then (h, true)
  else
    match h.resetSessionScopeForLogin.openScope b env lr with
    | .error h => (h, false)
    | .ok h =>
      if ¬ env.isDirectIpAccess lr.username ∧ lr.username ≠ env.id then
        (h.sendLoginError env "Offline", false)
      else if b.os = .windows ∧ h.conn.terminal ∧ trim lr.osLogin.username = "" ∧
          env.isPrelogin then
        (h.sendLoginError env "No active console user logged on, please connect and logon first.",
          false)
      else (h.startCmIpcForLogin b lr).startDesktop b env lr

/-! ## The other messages -/

/-- `AuthedConnID::set_session_2fa`. -/
def setSession2fa (h : Host) : Host := h.updateOrInsertSession env none (some true)

/-- `Config::add_trusted_device`. -/
def addTrustedDevice (h : Host) (device : TrustedDevice) : Host :=
  let h := h.acquire env .trustedDevices
  let devices := h.shared.trustedDevices.filter (·.hwid ≠ device.hwid) ++ [device]
  { h with shared := { h.shared with
    trustedDevices := devices.filter fun d => !d.outdate env.now } }

/-- What the arm of `Auth2fa` records of a right code. -/
def recordCode (h : Host) : Host :=
  let h := h.updateFailure true 1
  let h := { h with conn := { h.conn with require2fa := none } }
  (h.setConnAuditTwoFactor .totp).setSession2fa env

/-- What a right code does. -/
def acceptCode (h : Host) (tfa : Auth2fa) : Host × Bool :=
  match (h.recordCode env).logon b env h.conn.lr.myId h.conn.lr.myName with
  | (h, false) => (h, false)
  | (h, true) =>
    if tfa.hwid ≠ [] ∧ env.enableTrustedDevices then
      (h.addTrustedDevice env
        ⟨tfa.hwid, env.now, h.conn.lr.myId, h.conn.lr.myName, h.conn.lr.myPlatform⟩, true)
    else (h, true)

/-- The arm of `Auth2fa`. -/
def onAuth2fa (h : Host) (tfa : Auth2fa) : Host × Bool :=
  match h.checkFailure env 1 with
  | (h, false) => (h, true)
  | (h, true) =>
    match h.conn.require2fa.bind (env.checkCurrent · tfa.code) with
    | some true => h.acceptCode b env tfa
    | some false => ((h.updateFailure false 1).sendLoginError env "Wrong 2FA Code", true)
    | none => (h, true)

/-- The arm of `TestDelay`. -/
def onTestDelay (h : Host) (fromClient : Bool) : Host :=
  if fromClient then h.emit .testDelay
  else
    match h.conn.lastTestDelay with
    | some tm => { h with conn := { h.conn with
        lastTestDelay := none, networkDelay := (env.now - tm) % 2 ^ 32 } }
    | none => h

/-- The uuid that is pending for an id, taken off the table. Uuids are kept for ten seconds. -/
def takeSwitchSidesUuid (h : Host) (id : String) : Host × Option (List UInt8) :=
  let h := h.acquire env .switchSidesUuid
  let uuids id := (h.shared.switchSidesUuid id).filter (env.now - ·.1 < 10000)
  ({ h with shared := { h.shared with switchSidesUuid := Function.update uuids id none } },
    (uuids id).map (·.2))

/-- What the arm of `SwitchSidesResponse` records of a switch. -/
def recordSwitch (h : Host) : Host :=
  { h with conn := { h.conn with fromSwitch := true } }.setConnAuditPrimaryAuth .switchSides

/-- The arm of `SwitchSidesResponse`. -/
def onSwitchSidesResponse (h : Host) (s : SwitchSidesResponse) : Host × Bool :=
  match if b.flutter ∧ b.os.isDesktop then s.lr else none with
  | none => (h, true)
  | some lr =>
    let h := h.handleLoginRequestWithoutValidation env lr
    match h.takeSwitchSidesUuid env lr.myId with
    | (h, uuidOld) =>
      -- `Uuid::from_slice` takes 16 bytes
      if s.uuid.length = 16 ∧ uuidOld = some s.uuid then
        match h.recordSwitch.logon b env lr.myId lr.myName with
        | (h, false) => (h, false)
        | (h, true) => (h.tryStartCmIpc, true)
      else (h, true)

/-- `is_connection_housekeeping_message`. -/
def isConnectionHousekeepingMessage : Message → Bool
  | .loginRequest _ | .testDelay _ | .closeReason _ => true
  | _ => false

/-- `message_family`. -/
def messageFamily : Message → String
  | .session family => family
  | .closeReason _ => "misc.other"
  | _ => "message.other"

/-- `authorized_scope_violation`, with `authorized_message_scope_violation`. -/
def authorizedScopeViolation (h : Host) (msg : Message) : Option String :=
  if isConnectionHousekeepingMessage msg then none
  else
    match h.conn.authedConnId with
    | none => some "session.auth_type"
    | some .remote => none
    | some type =>
      match msg with
      | .session family => if env.inScope type family then none else some family
      | _ => some (messageFamily msg)

/-- `handle_authorized_scope_violation`. -/
def handleAuthorizedScopeViolation (h : Host) : Host × Bool :=
  if allowOption2bool (env.option "allow-scope-violation-close") then
    (h.emit (.closeReason "Connection not allowed"), false)
  else (h, true)

/-- The dispatch of `on_message`. -/
def dispatch (h : Host) : Message → Host × Bool
  | .loginRequest lr => h.onLoginRequest b env lr
  | .auth2fa tfa => h.onAuth2fa b env tfa
  | .testDelay fromClient => (h.onTestDelay env fromClient, true)
  | .switchSidesResponse s => h.onSwitchSidesResponse b env s
  | .session _ =>
    if h.conn.authorized ∧ h.conn.portForwardSocket.isNone then (h, env.sessionKeepAlive)
    else (h, true)
  | .closeReason _ => (h, true)

/-- `on_message`. -/
def onMessage (h : Host) (msg : Message) : Host × Bool :=
  match msg with
  | .closeReason _ => (h, false)
  | msg =>
    if h.conn.authorized then
      match msg with
      | .loginRequest _ => (h, true)
      | msg =>
        match h.authorizedScopeViolation env msg with
        | some _ => h.handleAuthorizedScopeViolation env
        | none => h.dispatch b env msg
    else h.dispatch b env msg

/-! ## The loop -/

/-- The arm of `ipc::Data::Authorize`. -/
def onAuthorize (h : Host) : Host × Bool :=
  let h := h.setConnAuditPrimaryAuth .click
  let h := { h with conn := { h.conn with require2fa := none } }
  h.sendLogonResponseAndKeepAlive b env

/-- The arm of the delay timer. -/
def onTestDelayTimer (h : Host) : Host :=
  if h.conn.lastTestDelay.isNone ∧ ¬ (h.conn.portForwardSocket.isSome ∧ h.conn.authorized) then
    { h with conn := { h.conn with lastTestDelay := some env.now } }.emit .testDelay
  else h

def close (h : Host) : Host := { h with isOpen := false }

end Host

/-- What the loop of `start` selects on, with the surroundings that its handler meets. -/
inductive Event
  | message (env : Env) (msg : Message)
  | authorize (env : Env)
  | testDelayTimer (env : Env)

/-- One turn of the loop. A handler that does not keep the connection ends it, and so does a port
forward that is ready to run: its loop takes over. -/
def step (b : Build) (h : Host) (e : Event) : Option Host :=
  if ¬ h.isOpen then none
  else
    match e with
    | .message env msg =>
      match h.onMessage b env msg with
      | (h, false) => some h.close
      | (h, true) =>
        if h.conn.portForwardSocket.isSome ∧ h.conn.authorized ∧ h.conn.lastTestDelay.isNone then
          some h.close
        else some h
    | .authorize env =>
      match h.onAuthorize b env with
      | (h, false) => some h.close
      | (h, true) => if h.conn.portForwardSocket.isSome then some h.close else some h
    | .testDelayTimer env => some (h.onTestDelayTimer env)

/-- A host that starts on a connection. -/
structure Host.Fresh (h : Host) : Prop where
  conn : ∃ id hash require2fa permissions controlPermissions isHeadlessAllowed,
    h.conn = .start id hash require2fa permissions controlPermissions isHeadlessAllowed
  log : h.log = []

/-! ## A host with default settings -/

/-- A Flutter build for Linux. -/
def linuxBuild (sha256 : List UInt8 → List UInt8) : Build := ⟨.linux, true, sha256⟩

/-- A Linux host with every option unset, no permanent password, and a user logged on. -/
def plainEnv : Env where
  now := 1000
  meanwhile := fun _ => id
  option := fun _ => ""
  builtinOption := fun _ => ""
  id := "987654321"
  temporaryPassword := "abc123"
  localPassword := ⟨"", "", false, none⟩
  presetPassword := ⟨"", "", false, none⟩
  isDirectIpAccess := fun _ => false
  versionNumber := fun _ => 0
  isInPrivacyMode := false
  isPrelogin := false
  isLocked := false
  isLogonUi := false
  isInstalled := true
  desktopUsername := "user"
  tryStartDesktop := fun _ _ => ""
  displayServerError := none
  displaysError := none
  checkFailure := fun _ => none
  osCredentialBlocked := none
  osCredentialGate := true
  isAdministrator := fun _ _ => false
  installedUserToken := .ok 1
  isServiceSpecifiedUser := fun _ => none
  connects := fun _ => false
  checkCurrent := fun _ code => some (code = "123456")
  inScope := fun _ _ => false
  sessionKeepAlive := true

/-- A connection to such a host. -/
def plainHost (require2fa : Option Totp) : Host where
  conn := .start 1 ⟨"salt", "challenge"⟩ require2fa ⟨true, true, true, true, true, true, true, true⟩
    none false
  shared := ⟨fun _ => none, fun _ => none, []⟩
  log := []
  isOpen := true

theorem plainHost_fresh (require2fa : Option Totp) : (plainHost require2fa).Fresh :=
  ⟨⟨_, _, _, _, _, _, rfl⟩, rfl⟩

end RustDesk.Connection
