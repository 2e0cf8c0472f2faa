import RustDesk.Connection.OnMessage

/-!
# What the parts of a login do

Two properties are proved of the login, and both follow the same few fields: who has asked for what
(`LoginView`), and what was sent and recorded. A `Quiet` operation leaves these alone. The others
have an outcome each: `PasswordCheck` for the password checks, `LogonOutcome` for
`send_logon_response_and_keep_alive`.
-/

namespace RustDesk.Connection

/-! ## The fields a login goes by -/

/-- The fields a login goes by. -/
structure LoginView where
  controlPermissions : Option (BitVec 64)
  lr : LoginRequest
  fileTransfer : Option (String × Bool)
  viewCamera : Bool
  terminal : Bool
  portForwardSocket : Option String
  portForwardAddress : String
  authorized : Bool
  authedConnId : Option AuthConnType
  require2fa : Option Totp
  fromSwitch : Bool
  connAuditPrimaryAuth : ConnAuditPrimaryAuth

def Conn.view (c : Conn) : LoginView where
  controlPermissions := c.controlPermissions
  lr := c.lr
  fileTransfer := c.fileTransfer
  viewCamera := c.viewCamera
  terminal := c.terminal
  portForwardSocket := c.portForwardSocket
  portForwardAddress := c.portForwardAddress
  authorized := c.authorized
  authedConnId := c.authedConnId
  require2fa := c.require2fa
  fromSwitch := c.fromSwitch
  connAuditPrimaryAuth := c.connAuditPrimaryAuth

/-- The view with the port forward of the login request connected. -/
def LoginView.connected (v : LoginView) : LoginView :=
  match v.portForwardSocket, v.lr.union with
  | none, some (.portForward pf) =>
    { v with
      portForwardAddress := (normalizePortForwardTarget pf).1
      portForwardSocket := some (normalizePortForwardTarget pf).1 }
  | _, _ => v

/-- The type that a connection with this view is authorized as. -/
def LoginView.type (v : LoginView) : AuthConnType :=
  if v.fileTransfer.isSome then .fileTransfer
  else if v.portForwardSocket.isSome then .portForward
  else if v.viewCamera then .viewCamera
  else if v.terminal then .terminal
  else .remote

/-- The view once the connection is authorized. -/
def LoginView.opened (v : LoginView) : LoginView :=
  { v.connected with authorized := true, authedConnId := some v.connected.type }

@[simp] theorem LoginView.opened_authorized (v : LoginView) : v.opened.authorized = true := rfl

@[simp] theorem LoginView.opened_lr (v : LoginView) : v.opened.lr = v.lr := by
  unfold opened connected
  split <;> rfl

@[simp] theorem LoginView.opened_require2fa (v : LoginView) : v.opened.require2fa = v.require2fa := by
  unfold opened connected
  split <;> rfl

@[simp] theorem LoginView.opened_fromSwitch (v : LoginView) : v.opened.fromSwitch = v.fromSwitch := by
  unfold opened connected
  split <;> rfl

/-! ## Quiet operations -/

/-- Nothing that a login goes by changes, and the connection manager is told nothing. -/
structure Quiet (h h' : Host) : Prop where
  view : h'.conn.view = h.conn.view
  log : h.log ⊆ h'.log
  lastLogin : lastLogin h'.log = lastLogin h.log

namespace Quiet

variable {h h₁ h₂ : Host}

theorem refl (h : Host) : Quiet h h := ⟨rfl, fun _ => id, rfl⟩

theorem trans (h₀₁ : Quiet h h₁) (h₁₂ : Quiet h₁ h₂) : Quiet h h₂ where
  view := h₁₂.view.trans h₀₁.view
  log := fun _ he => h₁₂.log (h₀₁.log he)
  lastLogin := h₁₂.lastLogin.trans h₀₁.lastLogin

/-- What leaves the view and the log as they are is quiet. -/
theorem of_eq (hview : h₁.conn.view = h.conn.view) (hlog : h₁.log = h.log) : Quiet h h₁ where
  view := hview
  log := by
    rw [hlog]
    exact fun _ => id
  lastLogin := by rw [hlog]

theorem emit (hq : Quiet h h₁) {e : Effect} (he : e.login? = none) : Quiet h (h₁.emit e) where
  view := hq.view
  log := fun _ hmem => List.mem_append_left _ (hq.log hmem)
  lastLogin := (lastLogin_append he).trans hq.lastLogin

end Quiet

section Operations

variable (b : Build) (env : Env) (h : Host)

theorem quiet_sendLoginError (err : String) : Quiet h (h.sendLoginError env err) := (Quiet.refl h).emit rfl

theorem quiet_updateFailure (remove : Bool) (i : ℕ) : Quiet h (h.updateFailure remove i) :=
  (Quiet.refl h).emit rfl

theorem quiet_tryStartCmIpc : Quiet h h.tryStartCmIpc := by
  unfold Host.tryStartCmIpc
  split
  · have hq : Quiet h { h with conn := { h.conn with startCmIpcPara := false } } := Quiet.of_eq rfl rfl
    exact hq.emit rfl
  · exact Quiet.refl h

theorem quiet_checkFailure (i : ℕ) : Quiet h (h.checkFailure env i).1 := by
  unfold Host.checkFailure
  split
  · exact quiet_sendLoginError env h _
  · exact Quiet.refl h

theorem quiet_checkHeadlessAuth (lr : LoginRequest) : Quiet h (h.checkHeadlessAuth b env lr).1 := by
  unfold Host.checkHeadlessAuth
  split
  · exact quiet_checkFailure env h 0
  · exact Quiet.refl h

theorem quiet_setConnAuditTwoFactor (tf : ConnAuditTwoFactor) : Quiet h (h.setConnAuditTwoFactor tf) := by
  have hq : Quiet h { h with conn := { h.conn with connAuditTwoFactor := tf } } := Quiet.of_eq rfl rfl
  exact hq.emit rfl

theorem quiet_updateOrInsertSession (password : Option String) (tfa : Option Bool) :
    Quiet h (h.updateOrInsertSession env password tfa) := Quiet.of_eq rfl rfl

/-- Looking for a recent session with a second factor is quiet, and it finds one only if it records
that. -/
theorem quiet_isRecentSession_tfa : Quiet h (h.isRecentSession b env true).1 ∧
      ((h.isRecentSession b env true).2 = true → .twoFactor .totp ∈ (h.isRecentSession b env true).1.log) := by
  have hq : Quiet h ((h.acquire env .recentTfa).retainSessions env) := Quiet.of_eq rfl rfl
  unfold Host.isRecentSession
  simp only [↓reduceIte]
  split
  next =>
    split
    · refine ⟨hq.trans (quiet_setConnAuditTwoFactor _ _), fun _ => ?_⟩
      simp [Host.setConnAuditTwoFactor]
    · exact ⟨hq, nofun⟩
  · exact ⟨hq, nofun⟩

theorem quiet_checkTerminalService (isTerminalOsLogin : Bool) (token : TerminalUserToken) :
    Quiet h (h.checkTerminalService env isTerminalOsLogin token).1 := by
  have hq : Quiet h { h with conn := { h.conn with terminalUserToken := some token } } := Quiet.of_eq rfl rfl
  unfold Host.checkTerminalService
  dsimp only
  split
  · exact hq.trans (quiet_sendLoginError env _ _)
  · split
    · exact hq.trans (quiet_tryStartCmIpc _)
    · exact hq

theorem checkTerminalService_snd (isTerminalOsLogin : Bool) (token : TerminalUserToken) :
    (h.checkTerminalService env isTerminalOsLogin token).2 ≠ some true := by
  unfold Host.checkTerminalService
  dsimp only
  split
  · exact nofun
  · split <;> exact nofun

theorem quiet_prepareTerminalLogin : Quiet h (h.prepareTerminalLoginForAuthorization b env).1 := by
  unfold Host.prepareTerminalLoginForAuthorization
  split
  · exact Quiet.refl h
  split
  · exact Quiet.refl h
  dsimp only
  split
  next loginError _ =>
    cases loginError with
    | none => exact Quiet.refl h
    | some err => exact quiet_sendLoginError env h err
  next =>
    split
    · exact quiet_sendLoginError env h _
    · split
      · split
        · exact ((Quiet.refl h).emit rfl).trans (quiet_sendLoginError env _ _)
        · exact quiet_sendLoginError env h _
      · exact quiet_checkTerminalService env h _ _

/-- A terminal login that is not let through ends the connection. -/
theorem prepareTerminalLogin_snd : (h.prepareTerminalLoginForAuthorization b env).2 ≠ some true := by
  unfold Host.prepareTerminalLoginForAuthorization
  split
  · exact nofun
  split
  · exact nofun
  dsimp only
  split
  · exact nofun
  · split
    · exact nofun
    · split
      · exact nofun
      · exact checkTerminalService_snd env h _ _

theorem quiet_onTestDelay (fromClient : Bool) : Quiet h (h.onTestDelay env fromClient) := by
  unfold Host.onTestDelay
  split
  · exact (Quiet.refl h).emit rfl
  · split
    · exact Quiet.of_eq rfl rfl
    · exact Quiet.refl h

theorem quiet_onTestDelayTimer : Quiet h (h.onTestDelayTimer env) := by
  unfold Host.onTestDelayTimer
  split
  · have hq : Quiet h { h with conn := { h.conn with lastTestDelay := some env.now } } := Quiet.of_eq rfl rfl
    exact hq.emit rfl
  · exact Quiet.refl h

theorem quiet_handleAuthorizedScopeViolation : Quiet h (h.handleAuthorizedScopeViolation env).1 := by
  unfold Host.handleAuthorizedScopeViolation
  split
  · exact (Quiet.refl h).emit rfl
  · exact Quiet.refl h

theorem quiet_close : Quiet h h.close := Quiet.of_eq rfl rfl

end Operations

/-! ## Password checks -/

/-- What a check of a password may come to. -/
inductive PasswordCheck (h : Host) : Host × Bool → Prop
  | refused {h' : Host} : Quiet h h' → PasswordCheck h (h', false)
  | accepted {h₁ h' : Host} {m : ConnAuditPrimaryAuth} :
    m = .temporaryPassword ∨ m = .permanentPassword → Quiet h h₁ →
    Quiet (h₁.setConnAuditPrimaryAuth m) h' → PasswordCheck h (h', true)

section Passwords

variable (b : Build) (env : Env) (h : Host)

theorem isRecentSession_check : PasswordCheck h (h.isRecentSession b env false) := by
  have hq : Quiet h ((h.acquire env .recentPassword).retainSessions env) := Quiet.of_eq rfl rfl
  unfold Host.isRecentSession
  simp only [Bool.false_eq_true, ↓reduceIte]
  split
  next =>
    split
    · exact .accepted (.inl rfl) hq (Quiet.refl _)
    · exact .refused hq
  · exact .refused hq

theorem validatePassword_check (allow : Bool) : PasswordCheck h (h.validatePassword b env allow) := by
  unfold Host.validatePassword
  split
  · exact .accepted (.inl rfl) (Quiet.refl h) (quiet_updateOrInsertSession env _ _ _)
  · split
    · exact .accepted (.inr rfl) (Quiet.refl h) (Quiet.refl _)
    · exact .refused (Quiet.refl h)

end Passwords

/-! ## The logon -/

/-- What `send_logon_response_and_keep_alive` may come to: the connection is authorized already, it is
asked for its second factor, it is ended, or it is opened. -/
inductive LogonOutcome (h : Host) : Host × Bool → Prop
  | already {h' : Host} : h.conn.authorized = true → Quiet h h' → LogonOutcome h (h', true)
  | asked {h' : Host} : h.conn.require2fa.isSome → h.conn.fromSwitch = false → Quiet h h' →
    LogonOutcome h (h', true)
  | ended {h' : Host} (address : String) :
    h'.conn.view = { h.conn.view with portForwardAddress := address } → h.log ⊆ h'.log →
    LogonOutcome h (h', false)
  | opened {h' : Host} :
    h.conn.require2fa = none ∨ h.conn.fromSwitch = true ∨ .twoFactor .totp ∈ h'.log →
    h'.conn.view = h.conn.view.opened → h.log ⊆ h'.log → lastLogin h'.log = lastLogin h.log →
    LogonOutcome h (h', true)

section Logon

variable (b : Build) (env : Env) (h : Host)

theorem connectPortForwardIfNeeded_cases : (∃ h' address, h.connectPortForwardIfNeeded env = (h', false) ∧
      h'.conn.view = { h.conn.view with portForwardAddress := address } ∧ h.log ⊆ h'.log) ∨
    ∃ h', h.connectPortForwardIfNeeded env = (h', true) ∧ h'.conn.view = h.conn.view.connected ∧
      h'.log = h.log := by
  unfold Host.connectPortForwardIfNeeded
  split
  next hsocket =>
    obtain ⟨addr, haddr⟩ := Option.isSome_iff_exists.mp hsocket
    refine .inr ⟨h, rfl, ?_, rfl⟩
    simp [LoginView.connected, Conn.view, haddr]
  next hsocket =>
    have hsocket : h.conn.portForwardSocket = none := by simpa using hsocket
    split
    next pf hpf =>
      dsimp only
      split
      · refine .inr ⟨_, rfl, ?_, rfl⟩
        simp [LoginView.connected, Conn.view, hsocket, hpf]
      · exact .inl ⟨_, _, rfl, rfl, List.subset_append_left _ _⟩
    next hunion =>
      refine .inr ⟨h, rfl, ?_, rfl⟩
      unfold LoginView.connected
      split
      next pf _ hpf => exact absurd hpf (hunion pf)
      · rfl

theorem authorize_view : h.authorize.conn.view =
      { h.conn.view with authorized := true, authedConnId := some h.conn.view.type } := by
  unfold Host.authorize Host.normalizeConnAuditAuthFields
  dsimp only
  split <;> rfl

theorem authorize_log : ∃ e : Effect, e.login? = none ∧ h.authorize.log = h.log ++ [e] := by
  unfold Host.authorize Host.normalizeConnAuditAuthFields
  dsimp only
  split <;> exact ⟨_, rfl, rfl⟩

theorem quiet_restrictKeyboard : Quiet h h.restrictKeyboard := by
  unfold Host.restrictKeyboard
  split
  · exact Quiet.refl h
  · have hq : Quiet h { h with conn := { h.conn with
        permissions := { h.conn.permissions with keyboard := false } } } := Quiet.of_eq rfl rfl
    dsimp only
    split
    · exact hq.emit rfl
    · exact hq

theorem quiet_respond : Quiet h (h.respond b env) := by
  unfold Host.respond
  split
  · exact (Quiet.refl h).emit rfl
  · split
    · exact (Quiet.refl h).emit rfl
    · have hsent (e : Effect) (he : e.login? = none) : Quiet h (h.emit e).takeLoginOptions :=
        ((Quiet.refl h).emit he).trans (Quiet.of_eq rfl rfl)
      exact (hsent _ rfl).trans (quiet_restrictKeyboard _)

/-- An outcome after a quiet operation is an outcome before it. -/
theorem LogonOutcome.of_quiet {h h₁ : Host} {r : Host × Bool} (hq : Quiet h h₁)
    (hr : LogonOutcome h₁ r) : LogonOutcome h r := by
  have hauth : h₁.conn.authorized = h.conn.authorized := congrArg LoginView.authorized hq.view
  have hrequire : h₁.conn.require2fa = h.conn.require2fa := congrArg LoginView.require2fa hq.view
  have hswitch : h₁.conn.fromSwitch = h.conn.fromSwitch := congrArg LoginView.fromSwitch hq.view
  cases hr with
  | already ha hq' => exact .already (by rw [← hauth, ha]) (hq.trans hq')
  | asked ha hs hq' => exact .asked (by rw [← hrequire, ha]) (by rw [← hswitch, hs]) (hq.trans hq')
  | ended address hview hlog => exact .ended address (by rw [hview, hq.view]) fun _ he => hlog (hq.log he)
  | opened hfactor hview hlog hlast =>
    rw [hrequire, hswitch] at hfactor
    exact .opened hfactor (by rw [hview, hq.view]) (fun _ he => hlog (hq.log he)) (hlast.trans hq.lastLogin)

/-- Past the question for a second factor, the connection is ended or opened. -/
theorem openSession_outcome (hfactor : h.conn.require2fa = none ∨ h.conn.fromSwitch = true ∨
    .twoFactor .totp ∈ h.log) : LogonOutcome h (h.openSession b env) := by
  have hprep := quiet_prepareTerminalLogin b env h
  have hend := prepareTerminalLogin_snd b env h
  unfold Host.openSession
  split
  next h₁ keepAlive heq =>
    rw [heq] at hprep hend
    obtain rfl : keepAlive = false := by
      cases keepAlive with
      | false => rfl
      | true => exact absurd rfl hend
    exact .ended h.conn.portForwardAddress hprep.view hprep.log
  next h₁ heq =>
    rw [heq] at hprep
    rcases connectPortForwardIfNeeded_cases env h₁ with
      ⟨h₂, address, hconn, hview, hlog⟩ | ⟨h₂, hconn, hview, hlog⟩
    · rw [hconn]
      exact .ended address (by rw [hview, hprep.view]) fun _ he => hlog (hprep.log he)
    · rw [hconn]
      obtain ⟨e, he, hauth⟩ := authorize_log h₂
      have hopen := quiet_respond b env h₂.authorize
      have hlog : h.log ⊆ (h₂.authorize.respond b env).log := by
        intro e' he'
        apply hopen.log
        rw [hauth, hlog]
        exact List.mem_append_left _ (hprep.log he')
      refine .opened (hfactor.imp_right (Or.imp_right fun hmem => hlog hmem)) ?_ hlog ?_
      · rw [hopen.view, authorize_view, hview, hprep.view]
        rfl
      · rw [hopen.lastLogin, hauth, lastLogin_append he, ‹h₂.log = h₁.log›, hprep.lastLogin]

/-- **What a logon comes to.** It is opened only if no second factor is asked for, sides were
switched, or a recent session has the second factor. -/
theorem logon_outcome : LogonOutcome h (h.sendLogonResponseAndKeepAlive b env) := by
  unfold Host.sendLogonResponseAndKeepAlive
  split
  next hauth => exact .already hauth (Quiet.refl h)
  split
  next hrequire =>
    obtain ⟨hq, hfound⟩ := quiet_isRecentSession_tfa b env h
    split
    next h₁ recent heq =>
      rw [heq] at hq hfound
      split
      next hasked =>
        have hswitch : h₁.conn.fromSwitch = h.conn.fromSwitch := congrArg LoginView.fromSwitch hq.view
        refine .asked hrequire ?_ (hq.trans (quiet_sendLoginError env _ _))
        rw [← hswitch]
        simpa using hasked.2
      next hasked =>
        have hfactor : h₁.conn.fromSwitch = true ∨ .twoFactor .totp ∈ h₁.log := by
          by_cases hsw : h₁.conn.fromSwitch = true
          · exact .inl hsw
          · exact .inr (hfound (by simpa [hsw] using hasked))
        exact (openSession_outcome b env h₁ (.inr hfactor)).of_quiet hq
  next hrequire => exact openSession_outcome b env h (.inl (by simpa using hrequire))

end Logon

/-! ## Turns of the loop -/

section Turns

variable (b : Build) (env : Env) {h h' : Host}

/-- A message is dropped, refused as out of scope, or dispatched. To an authorized connection only
what is in scope is dispatched, and no login request. -/
theorem onMessage_cases (msg : Message) : (∃ keepAlive, h.onMessage b env msg = (h, keepAlive)) ∨
      h.onMessage b env msg = h.handleAuthorizedScopeViolation env ∨
      h.onMessage b env msg = h.dispatch b env msg ∧ (h.conn.authorized = true →
          h.authorizedScopeViolation env msg = none ∧ ∀ lr, msg ≠ .loginRequest lr) := by
  unfold Host.onMessage
  split
  · exact .inl ⟨false, rfl⟩
  · split
    · split
      · exact .inl ⟨true, rfl⟩
      next hlogin =>
        split
        · exact .inr (.inl rfl)
        next hscope => exact .inr (.inr ⟨rfl, fun _ => ⟨hscope, hlogin⟩⟩)
    next hauth => exact .inr (.inr ⟨rfl, fun ha => absurd ha hauth⟩)

/-- A turn of an open loop is the turn of one handler, after which the loop may end. It goes on only
if the handler kept the connection. -/
theorem step_cases {e : Event} (hstep : step b h e = some h') :
    h.isOpen = true ∧ ∃ r : Host × Bool, (h' = r.1.close ∨ h' = r.1 ∧ r.2 = true) ∧
      ((∃ env msg, e = .message env msg ∧ r = h.onMessage b env msg) ∨
        (∃ env, e = .authorize env ∧ r = h.onAuthorize b env) ∨
        ∃ env, e = .testDelayTimer env ∧ r = (h.onTestDelayTimer env, true)) := by
  unfold step at hstep
  split at hstep
  · cases hstep
  next hopen =>
    refine ⟨not_not.mp hopen, ?_⟩
    cases e with
    | testDelayTimer env =>
      cases hstep
      exact ⟨_, .inr ⟨rfl, rfl⟩, .inr (.inr ⟨env, rfl, rfl⟩)⟩
    | message env msg =>
      refine ⟨_, ?_, .inl ⟨env, msg, rfl, rfl⟩⟩
      dsimp only at hstep
      split at hstep
      next heq =>
        cases hstep
        exact .inl (by rw [heq])
      next heq =>
        rw [heq]
        split at hstep <;> cases hstep
        · exact .inl rfl
        · exact .inr ⟨rfl, rfl⟩
    | authorize env =>
      refine ⟨_, ?_, .inr (.inl ⟨env, rfl, rfl⟩)⟩
      dsimp only at hstep
      split at hstep
      next heq =>
        cases hstep
        exact .inl (by rw [heq])
      next heq =>
        rw [heq]
        split at hstep <;> cases hstep
        · exact .inl rfl
        · exact .inr ⟨rfl, rfl⟩

end Turns

end RustDesk.Connection
