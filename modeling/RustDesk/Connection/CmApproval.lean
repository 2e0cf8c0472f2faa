import RustDesk.Connection.LoginSpec

/-!
# What the user approves

References: `src/server/connection.rs` (`try_start_cm`, `reset_session_scope_for_login`,
`handle_login_request_without_validation`, `on_message`, `start`).

The user clicks accept on what the connection manager was last told, and the click opens what the
fields of the connection say by then. A login request sets these fields and tells the connection
manager, except on some ways out; a `SwitchSidesResponse` sets the login request alone. `Tells` says
that a step goes none of these ways, and then `click_opens_shown` holds.
-/

namespace RustDesk.Connection

/-! ## Scopes -/

/-- The fields that a login request sets to what it asks for. -/
def LoginView.withScope (v : LoginView) : Option LoginUnion → LoginView
  | some (.fileTransfer ft) => { v with
      fileTransfer := some (ft.dir, ft.showHidden), viewCamera := false, terminal := false,
      portForwardAddress := "" }
  | some .viewCamera => { v with
      fileTransfer := none, viewCamera := true, terminal := false, portForwardAddress := "" }
  | some (.terminal _) => { v with
      fileTransfer := none, viewCamera := false, terminal := true, portForwardAddress := "" }
  | some (.portForward pf) => { v with
      fileTransfer := none, viewCamera := false, terminal := false,
      portForwardAddress := (normalizePortForwardTarget pf).1 }
  | none => { v with
      fileTransfer := none, viewCamera := false, terminal := false, portForwardAddress := "" }

/-- The type that a login request asks for. -/
def LoginRequest.type (lr : LoginRequest) : AuthConnType :=
  match lr.union with
  | some (.fileTransfer _) => .fileTransfer
  | some .viewCamera => .viewCamera
  | some (.terminal _) => .terminal
  | some (.portForward _) => .portForward
  | none => .remote

/-- The permission that a type needs. -/
def AuthConnType.permission : AuthConnType → Option Permission
  | .fileTransfer => some .file
  | .viewCamera => some .camera
  | .terminal => some .terminal
  | .portForward => some .tunnel
  | .remote => none

section

variable (v : LoginView) (u : Option LoginUnion)
include v u

theorem LoginView.withScope_withScope : (v.withScope u).withScope u = v.withScope u := by
  unfold withScope
  split <;> rfl

@[simp] theorem LoginView.withScope_lr : (v.withScope u).lr = v.lr := by
  unfold withScope
  split <;> rfl

@[simp] theorem LoginView.withScope_portForwardSocket :
    (v.withScope u).portForwardSocket = v.portForwardSocket := by
  unfold withScope
  split <;> rfl

@[simp] theorem LoginView.withScope_controlPermissions :
    (v.withScope u).controlPermissions = v.controlPermissions := by
  unfold withScope
  split <;> rfl

/-- The scope does not depend on the factors of the login. -/
theorem LoginView.withScope_factors (require2fa : Option Totp) (m : ConnAuditPrimaryAuth) :
    ({ v with require2fa := require2fa, connAuditPrimaryAuth := m } : LoginView).withScope u =
      { v.withScope u with require2fa := require2fa, connAuditPrimaryAuth := m } := by
  unfold withScope
  split <;> rfl

end

/-- An address is never empty, so that it marks a port forward. -/
theorem normalizePortForwardTarget_ne (pf : PortForward) : (normalizePortForwardTarget pf).1 ≠ "" := by
  unfold normalizePortForwardTarget
  intro hempty
  have := congrArg String.length hempty
  simp only [String.length_append] at this
  have hcolon : (":" : String).length = 1 := rfl
  have hnone : ("" : String).length = 0 := rfl
  omega

/-! ## What is shown -/

/-- The login data show what a view has. -/
structure CmLogin.Shows (d : CmLogin) (v : LoginView) : Prop where
  peerId : d.peerId = v.lr.myId
  name : d.name = v.lr.myName
  isFileTransfer : d.isFileTransfer = v.fileTransfer.isSome
  isViewCamera : d.isViewCamera = v.viewCamera
  isTerminal : d.isTerminal = v.terminal
  portForward : d.portForward = v.portForwardAddress

/-- What is opened is what the login data show. -/
structure OpensAsShown (d : CmLogin) (v : LoginView) : Prop where
  peerId : v.lr.myId = d.peerId
  name : v.lr.myName = d.name
  type : v.authedConnId = some d.type
  address : v.portForwardAddress = d.portForward
  socket : d.type = .portForward → v.portForwardSocket = some d.portForward

/-- A view in scope is opened as shown, and as what its login request asks for. -/
theorem CmLogin.Shows.opened {d : CmLogin} {v : LoginView} (hd : d.Shows v)
    (hscope : v.withScope v.lr.union = v) (hsocket : v.portForwardSocket = none) :
    OpensAsShown d v.opened ∧ d.type = v.lr.type := by
  have hft := congrArg LoginView.fileTransfer hscope
  have hvc := congrArg LoginView.viewCamera hscope
  have hterm := congrArg LoginView.terminal hscope
  have haddr := congrArg LoginView.portForwardAddress hscope
  have htype : v.opened.authedConnId = some d.type ∧ d.type = v.lr.type := by
    unfold LoginView.opened LoginView.connected LoginView.type CmLogin.type LoginRequest.type
    rw [hd.isFileTransfer, hd.isViewCamera, hd.isTerminal, hd.portForward]
    cases hu : v.lr.union with
    | none =>
      simp only [hu, LoginView.withScope] at hft hvc hterm haddr
      simp [hsocket, ← hft, ← hvc, ← hterm, ← haddr]
    | some u =>
      cases u <;> simp only [hu, LoginView.withScope] at hft hvc hterm haddr <;>
        simp [hsocket, ← hft, ← hvc, ← hterm, ← haddr, normalizePortForwardTarget_ne]
  have haddress : v.opened.portForwardAddress = v.portForwardAddress ∧
      (v.lr.type = .portForward → v.opened.portForwardSocket = some v.portForwardAddress) := by
    unfold LoginView.opened LoginView.connected LoginRequest.type
    cases hu : v.lr.union with
    | none => simp [hsocket]
    | some u => cases u <;> simp only [hu, LoginView.withScope] at haddr <;> simp [hsocket, haddr]
  refine ⟨⟨?_, ?_, htype.1, ?_, fun htp => ?_⟩, htype.2⟩
  · rw [v.opened_lr, hd.peerId]
  · rw [v.opened_lr, hd.name]
  · rw [haddress.1, hd.portForward]
  · rw [haddress.2 (htype.2 ▸ htp), hd.portForward]

/-! ## Logins that tell the connection manager -/

/-- What a login that tells the connection manager may come to. -/
inductive Settled (h : Host) : Host × Bool → Prop
  | ended {h' : Host} : Settled h (h', false)
  | authorized {h' : Host} : h'.conn.view.authorized = true → Settled h (h', true)
  | told {h' : Host} {d : CmLogin} (m : ConnAuditPrimaryAuth) :
    h'.conn.view = { h.conn.view with connAuditPrimaryAuth := m } → lastLogin h'.log = some d →
    d.Shows h'.conn.view → Settled h (h', true)

/-- An approval of a login tells the connection manager, or ends the connection: it waits for a click,
or it is accepted or refused with the desktop ready. -/
def ApprovalTells (b : Build) (env : Env) (h : Host) (lr : LoginRequest) (errMsg : String) : Prop :=
  env.clickOnly b = true ∨
    errMsg = "" ∧ ((h.isRecentSession b env false).2 = true ∨ lr.password = [] ∨
      env.checkFailure 0 = none)

/-- The desktop start lets a login go on to its approval, and that tells. -/
def DesktopTells (b : Build) (env : Env) (h : Host) (lr : LoginRequest) : Prop :=
  (h.checkHeadlessAuth b env lr).2 = true ∧
    (h.desktopError b env lr = "" ∨ h.desktopError b env lr = desktopSessionNotReady) ∧
    ApprovalTells b env h lr (h.desktopError b env lr)

/-- A login request that is not refused for good tells the connection manager. -/
def LoginTells (b : Build) (env : Env) (h : Host) (lr : LoginRequest) : Prop :=
  ∀ h₁, (h.handleLoginRequestWithoutValidation env lr).resetSessionScopeForLogin.openScope b env lr
      = .ok h₁ →
    ¬ (¬ env.isDirectIpAccess lr.username ∧ lr.username ≠ env.id) →
    ¬ (b.os = .windows ∧ h₁.conn.terminal ∧ trim lr.osLogin.username = "" ∧ env.isPrelogin) →
    DesktopTells b env (h₁.startCmIpcForLogin b lr) lr

section Logins

variable (b : Build) (env : Env) {h h₁ : Host} {lr : LoginRequest} {r : Host × Bool}

theorem Settled.of_view (hr : Settled h₁ r) (m : ConnAuditPrimaryAuth)
    (hview : h₁.conn.view = { h.conn.view with connAuditPrimaryAuth := m }) : Settled h r := by
  cases hr with
  | ended => exact .ended
  | authorized ha => exact .authorized ha
  | told m' hview' hlast hshows => exact .told m' (by rw [hview', hview]) hlast hshows

theorem Settled.of_quiet (hr : Settled h₁ r) (hq : Quiet h h₁) : Settled h r :=
  hr.of_view h.conn.connAuditPrimaryAuth hq.view

/-- A quiet operation after a login leaves it settled. -/
theorem Settled.quiet {h₂ : Host} (hr : Settled h (h₁, true)) (hq : Quiet h₁ h₂) : Settled h (h₂, true) := by
  cases hr with
  | authorized ha => exact .authorized (by rw [hq.view, ha])
  | told m hview hlast hshows =>
    exact .told m (by rw [hq.view, hview]) (hq.lastLogin.trans hlast) (by rwa [hq.view])

/-- `try_start_cm` with the names of the login request shows the connection as it is. -/
theorem settled_tryStartCm (hlr : h.conn.lr = lr) (authorized : Bool) :
    Settled h (h.tryStartCm lr.myId lr.myName authorized, true) := by
  subst hlr
  refine .told h.conn.connAuditPrimaryAuth rfl (lastLogin_append_login _ _) ?_
  exact ⟨rfl, rfl, rfl, rfl, rfl, rfl⟩

theorem settled_logon (hlr : h.conn.lr = lr) : Settled h (h.logon b env lr.myId lr.myName) := by
  have hlogon := logon_outcome b env h
  unfold Host.logon
  split
  next => exact .ended
  next h₁ heq =>
    rw [heq] at hlogon
    cases hlogon with
    | already ha hq =>
      have ha₁ : h₁.conn.view.authorized = true := by
        rw [hq.view]
        exact ha
      exact .authorized ha₁
    | asked _ _ hq =>
      have hlr₁ : h₁.conn.lr = lr := (congrArg LoginView.lr hq.view).trans hlr
      exact (settled_tryStartCm hlr₁ _).of_quiet hq
    | opened _ hview =>
      have ha₁ : h₁.conn.view.authorized = true := by rw [hview, LoginView.opened_authorized]
      exact .authorized ha₁

/-- A login that waits for a click has told the connection manager. -/
theorem settled_awaitClick (hlr : h.conn.lr = lr) : (∃ h₁, h.awaitClick b env lr = (h₁, some false)) ∨
      ∃ h₁, h.awaitClick b env lr = (h₁, none) ∧ Settled h (h₁, true) := by
  have hprep := quiet_prepareTerminalLogin b env h
  have hend := prepareTerminalLogin_snd b env h
  unfold Host.awaitClick
  split
  · split
    next h₁ keepAlive heq =>
      rw [heq] at hend
      cases keepAlive with
      | false => exact .inl ⟨h₁, rfl⟩
      | true => exact absurd rfl hend
    next h₁ heq =>
      rw [heq] at hprep
      have hlr₁ : h₁.conn.lr = lr := (congrArg LoginView.lr hprep.view).trans hlr
      exact .inr ⟨_, rfl, (settled_tryStartCm hlr₁ _).of_quiet hprep⟩
  · exact .inr ⟨_, rfl, settled_tryStartCm hlr _⟩

theorem PasswordCheck.view (hr : PasswordCheck h r) :
    ∃ m, r.1.conn.view = { h.conn.view with connAuditPrimaryAuth := m } := by
  cases hr with
  | refused hq => exact ⟨h.conn.connAuditPrimaryAuth, hq.view⟩
  | @accepted h₁ h' m _ hq hq' =>
    refine ⟨m, hq'.view.trans ?_⟩
    have hset : (h₁.setConnAuditPrimaryAuth m).conn.view = { h₁.conn.view with connAuditPrimaryAuth := m } := rfl
    rw [hset, hq.view]

theorem settled_tryPassword (hlr : h.conn.lr = lr) (hfail : env.checkFailure 0 = none) :
    Settled h (h.tryPassword b env lr "") := by
  obtain ⟨m, hview⟩ := (validatePassword_check b env h (env.allowLogonScreenPassword b)).view
  have hlr₁ : (h.validatePassword b env (env.allowLogonScreenPassword b)).1.conn.lr = lr :=
    (congrArg LoginView.lr hview).trans hlr
  unfold Host.tryPassword Host.checkFailure
  rw [hfail]
  dsimp only
  split
  next h₁ heq =>
    rw [heq] at hview hlr₁
    have hq := (quiet_updateFailure h₁ false 0).trans (quiet_sendLoginError env _ "Wrong Password")
    exact ((settled_tryStartCm (h := (h₁.updateFailure false 0).sendLoginError env "Wrong Password")
      hlr₁ false).of_quiet hq).of_view m hview
  next h₁ heq =>
    rw [heq] at hview hlr₁
    have hq := quiet_updateFailure h₁ true 0
    exact ((settled_logon b env (h := h₁.updateFailure true 0) hlr₁).of_quiet hq).of_view m hview

theorem settled_approve {errMsg : String} (hlr : h.conn.lr = lr)
    (htells : ApprovalTells b env h lr errMsg) : Settled h (h.approve b env lr errMsg) := by
  unfold Host.approve
  split
  · rcases settled_awaitClick b env hlr with ⟨h₁, heq⟩ | ⟨h₁, heq, hset⟩
    · rw [heq]
      exact .ended
    · rw [heq]
      dsimp only
      split
      · exact hset.quiet (quiet_sendLoginError env _ _)
      · exact hset
  next hclick =>
    obtain ⟨rfl, hrest⟩ := htells.resolve_left hclick
    obtain ⟨m, hview⟩ := (isRecentSession_check b env h).view
    have hlr₁ : (h.isRecentSession b env false).1.conn.lr = lr := (congrArg LoginView.lr hview).trans hlr
    split
    next h₁ heq =>
      rw [heq] at hview hlr₁
      exact (settled_logon b env hlr₁).of_view m hview
    next h₁ heq =>
      rw [heq] at hview hlr₁ hrest
      split
      · rcases settled_awaitClick b env hlr₁ with ⟨h₂, heq₂⟩ | ⟨h₂, heq₂, hset⟩
        · rw [heq₂]
          exact .ended
        · rw [heq₂]
          exact hset.of_view m hview
      next hpassword =>
        have hfail : env.checkFailure 0 = none := (hrest.resolve_left nofun).resolve_left hpassword
        exact (settled_tryPassword b env hlr₁ hfail).of_view m hview

theorem settled_startDesktop (hlr : h.conn.lr = lr) (htells : DesktopTells b env h lr) :
    Settled h (h.startDesktop b env lr) := by
  obtain ⟨hauth, herr, happrove⟩ := htells
  have hsame : (h.checkHeadlessAuth b env lr).1 = h := by
    unfold Host.checkHeadlessAuth Host.checkFailure at hauth ⊢
    split at hauth
    next hcond =>
      rw [if_pos hcond]
      split at hauth
      · cases hauth
      next hfail => rfl
    next hcond => rw [if_neg hcond]
  unfold Host.startDesktop
  split
  next heq =>
    rw [heq] at hauth
    cases hauth
  next h₁ heq =>
    obtain rfl : h₁ = h := by simpa [heq] using hsame
    dsimp only
    split
    next hbad => exact absurd (herr.resolve_left hbad.1) hbad.2
    · exact settled_approve b env hlr happrove

theorem quiet_startCmIpcForLogin : Quiet h (h.startCmIpcForLogin b lr) := by
  unfold Host.startCmIpcForLogin
  split
  · exact quiet_tryStartCmIpc h
  · exact Quiet.refl h

/-- A login request is taken over as it is. Only a trusted device takes off the second factor. -/
theorem handleLogin_view (env : Env) (h : Host) (lr : LoginRequest) :
    ∃ require2fa, (h.handleLoginRequestWithoutValidation env lr).conn.view =
      { h.conn.view with lr := lr, require2fa := require2fa } := by
  unfold Host.handleLoginRequestWithoutValidation
  dsimp only
  split
  · exact ⟨none, rfl⟩
  · exact ⟨h.conn.require2fa, rfl⟩

theorem handleLogin_lastLogin (env : Env) (h : Host) (lr : LoginRequest) :
    lastLogin (h.handleLoginRequestWithoutValidation env lr).log = lastLogin h.log := by
  unfold Host.handleLoginRequestWithoutValidation
  dsimp only
  split
  · exact lastLogin_append rfl
  · rfl

/-- A scope that is opened is the one asked for, and it is permitted. -/
theorem openScope_ok (hopen : h.resetSessionScopeForLogin.openScope b env lr = .ok h₁) :
    h₁.conn.view = h.conn.view.withScope lr.union ∧
      ∀ p, lr.type.permission = some p → env.permission b p h.conn.controlPermissions = true := by
  revert hopen
  unfold Host.openScope LoginRequest.type LoginView.withScope
  cases lr.union with
  | none =>
    intro hopen
    dsimp only at hopen
    split at hopen
    · cases hopen
    · cases hopen
      exact ⟨rfl, nofun⟩
  | some union =>
    -- each of the other scopes is opened behind the check of its own permission
    have hneeds : ∀ {t : AuthConnType} {q : Permission}, t.permission = some q →
        env.permission b q h.conn.controlPermissions = true →
        ∀ p, t.permission = some p → env.permission b p h.conn.controlPermissions = true := by
      intro t q hq hperm p hp
      obtain rfl : q = p := Option.some.inj (hq.symm.trans hp)
      exact hperm
    cases union with
    | terminal serviceId =>
      intro hopen
      dsimp only at hopen
      split at hopen
      · cases hopen
      next hperm =>
        split at hopen
        · cases hopen
        · cases hopen
          exact ⟨rfl, hneeds rfl (not_not.mp hperm)⟩
    | _ =>
      intro hopen
      dsimp only at hopen
      split at hopen
      · cases hopen
      next hperm =>
        cases hopen
        exact ⟨rfl, hneeds rfl (not_not.mp hperm)⟩

/-- **What a login request comes to.** It is refused for good, or it is settled in the scope it asks
for. -/
theorem settled_onLoginRequest (hauth : h.conn.authorized = false) (htells : LoginTells b env h lr) :
    (h.onLoginRequest b env lr).2 = false ∨ ∃ h₁ require2fa, h₁.conn.view =
          ({ h.conn.view with lr := lr, require2fa := require2fa }).withScope lr.union ∧
        (∀ p, lr.type.permission = some p → env.permission b p h.conn.controlPermissions = true) ∧
        Settled h₁ (h.onLoginRequest b env lr) := by
  obtain ⟨require2fa, hview⟩ := handleLogin_view env h lr
  have hauth₁ : (h.handleLoginRequestWithoutValidation env lr).conn.authorized = false :=
    (congrArg LoginView.authorized hview).trans hauth
  have hcontrol : (h.handleLoginRequestWithoutValidation env lr).conn.controlPermissions =
      h.conn.controlPermissions := congrArg LoginView.controlPermissions hview
  unfold Host.onLoginRequest
  rw [if_neg (by simp [hauth₁])]
  cases hopen : (h.handleLoginRequestWithoutValidation env lr).resetSessionScopeForLogin.openScope
      b env lr with
  | error h₁ => exact .inl rfl
  | ok h₁ =>
    obtain ⟨hscope, hperm⟩ := openScope_ok b env hopen
    dsimp only
    split
    · exact .inl rfl
    next honline =>
      split
      · exact .inl rfl
      next hprelogin =>
        have hlr₁ : (h₁.startCmIpcForLogin b lr).conn.lr = lr := by
          have hq : Quiet h₁ (h₁.startCmIpcForLogin b lr) := quiet_startCmIpcForLogin b
          have hlr₁ := congrArg LoginView.lr (hq.view.trans hscope)
          rw [LoginView.withScope_lr, hview] at hlr₁
          exact hlr₁
        refine .inr ⟨h₁, require2fa, by rw [hscope, hview], ?_, ?_⟩
        · rwa [hcontrol] at hperm
        · exact (settled_startDesktop b env hlr₁ (htells h₁ hopen honline hprelogin)).of_quiet
            (quiet_startCmIpcForLogin b)

end Logins

/-! ## Steps -/

/-- The uuid of a response is the one that is pending for the id of its login request. -/
def PendingSwitch (env : Env) (h : Host) (s : SwitchSidesResponse) (lr : LoginRequest) : Prop :=
  s.uuid.length = 16 ∧
    ((h.handleLoginRequestWithoutValidation env lr).takeSwitchSidesUuid env lr.myId).2 = some s.uuid

/-- A step does not change the login request behind the back of the user: a login request tells the
connection manager, and a response with another login request comes with the pending uuid, and not on
an authorized remote connection. -/
def Tells (b : Build) (h : Host) : Event → Prop
  | .message env (.loginRequest lr) => h.conn.authorized = false → LoginTells b env h lr
  | .message env (.switchSidesResponse s) =>
    b.flutter ∧ b.os.isDesktop → ∀ lr, s.lr = some lr → lr ≠ h.conn.lr →
      (h.conn.authorized = true → h.conn.authedConnId ≠ some .remote) ∧
        (h.conn.authorized = false → PendingSwitch env h s lr)
  | _ => True

/-- The login request stays, and so does an authorization. -/
structure SameRequest (h h' : Host) : Prop where
  lr : h'.conn.lr = h.conn.lr
  authorized : h.conn.authorized = true → h'.conn.authorized = true

section Steps

variable (b : Build) (env : Env) {h h₁ h₂ h' : Host} {lr : LoginRequest}

theorem SameRequest.trans (h₀₁ : SameRequest h h₁) (h₁₂ : SameRequest h₁ h₂) : SameRequest h h₂ :=
  ⟨h₁₂.lr.trans h₀₁.lr, fun ha => h₁₂.authorized (h₀₁.authorized ha)⟩

theorem Quiet.sameRequest (hq : Quiet h h₁) : SameRequest h h₁ :=
  ⟨congrArg LoginView.lr hq.view, fun ha => (congrArg LoginView.authorized hq.view).trans ha⟩

theorem sameRequest_sendLogon : SameRequest h (h.sendLogonResponseAndKeepAlive b env).1 := by
  have hlogon := logon_outcome b env h
  cases hr : h.sendLogonResponseAndKeepAlive b env with
  | mk h₁ keepAlive =>
    rw [hr] at hlogon
    cases hlogon with
    | already _ hq | asked _ _ hq => exact hq.sameRequest
    | ended address hview _ =>
      exact ⟨congrArg LoginView.lr hview, fun ha => (congrArg LoginView.authorized hview).trans ha⟩
    | opened _ hview =>
      exact ⟨(congrArg LoginView.lr hview).trans (LoginView.opened_lr _),
        fun _ => congrArg LoginView.authorized hview⟩

theorem sameRequest_logon (peerId name : String) : SameRequest h (h.logon b env peerId name).1 := by
  have hlogon := sameRequest_sendLogon b env (h := h)
  unfold Host.logon
  split
  next heq =>
    rw [heq] at hlogon
    exact hlogon
  next heq =>
    rw [heq] at hlogon
    exact hlogon.trans ⟨rfl, id⟩

/-- A logon that has no second factor to ask for ends or opens the connection. -/
theorem logon_decides (hfactor : h.conn.require2fa = none ∨ h.conn.fromSwitch = true) (peerId name : String) :
    (h.logon b env peerId name).2 = false ∨ (h.logon b env peerId name).1.conn.authorized = true := by
  have hlogon := logon_outcome b env h
  unfold Host.logon
  split
  next => exact .inl rfl
  next h₁ heq =>
    rw [heq] at hlogon
    refine .inr ?_
    cases hlogon with
    | already ha hq => exact hq.sameRequest.authorized ha
    | asked hrequire hswitch _ =>
      rcases hfactor with hn | hsw
      · simp [hn] at hrequire
      · simp [hsw] at hswitch
    | opened _ hview => exact congrArg LoginView.authorized hview

theorem sameRequest_acceptCode (tfa : Auth2fa) : SameRequest h (h.acceptCode b env tfa).1 := by
  have hlogon := sameRequest_logon b env (h := h.recordCode env) h.conn.lr.myId
    h.conn.lr.myName
  have hrecord : SameRequest h (h.recordCode env) := ⟨rfl, id⟩
  unfold Host.acceptCode
  split
  next heq =>
    rw [heq] at hlogon
    exact hrecord.trans hlogon
  next h₁ heq =>
    rw [heq] at hlogon
    have hadd (d : TrustedDevice) : SameRequest h₁ (h₁.addTrustedDevice env d) := ⟨rfl, id⟩
    split
    · exact (hrecord.trans hlogon).trans (hadd _)
    · exact hrecord.trans hlogon

theorem acceptCode_decides (tfa : Auth2fa) :
    (h.acceptCode b env tfa).2 = false ∨ (h.acceptCode b env tfa).1.conn.authorized = true := by
  have hlogon := logon_decides b env (h := h.recordCode env) (.inl rfl)
    h.conn.lr.myId h.conn.lr.myName
  unfold Host.acceptCode
  split
  next => exact .inl rfl
  next heq =>
    rw [heq] at hlogon
    have ha := hlogon.resolve_left nofun
    split <;> exact .inr ha

theorem sameRequest_onAuth2fa (tfa : Auth2fa) : SameRequest h (h.onAuth2fa b env tfa).1 := by
  have hfail := quiet_checkFailure env h 1
  unfold Host.onAuth2fa
  split
  next heq =>
    rw [heq] at hfail
    exact hfail.sameRequest
  next h₁ heq =>
    rw [heq] at hfail
    split
    · exact hfail.sameRequest.trans (sameRequest_acceptCode b env tfa)
    · have hq := (quiet_updateFailure h₁ false 1).trans (quiet_sendLoginError env _ "Wrong 2FA Code")
      exact (hfail.trans hq).sameRequest
    · exact hfail.sameRequest

theorem sameRequest_handleLogin : SameRequest h (h.handleLoginRequestWithoutValidation env h.conn.lr) := by
  obtain ⟨require2fa, hview⟩ := handleLogin_view env h h.conn.lr
  exact ⟨congrArg LoginView.lr hview, fun ha => (congrArg LoginView.authorized hview).trans ha⟩

/-- The arm of `SwitchSidesResponse`, once it has a login request. -/
theorem onSwitchSidesResponse_cases (s : SwitchSidesResponse) :
    h.onSwitchSidesResponse b env s = (h, true) ∨ ∃ lr h₁, s.lr = some lr ∧ (b.flutter ∧ b.os.isDesktop) ∧
        h₁ = ((h.handleLoginRequestWithoutValidation env lr).takeSwitchSidesUuid env lr.myId).1 ∧
        (¬ PendingSwitch env h s lr ∧ h.onSwitchSidesResponse b env s = (h₁, true) ∨
          PendingSwitch env h s lr ∧ ∃ h₂ keepAlive, h.onSwitchSidesResponse b env s = (h₂, keepAlive) ∧
              SameRequest h₁ h₂ ∧ (keepAlive = false ∨ h₂.conn.authorized = true)) := by
  unfold Host.onSwitchSidesResponse
  split
  · exact .inl rfl
  next lr hlr =>
    have hbuild : b.flutter ∧ b.os.isDesktop := by
      by_contra hbuild
      rw [if_neg hbuild] at hlr
      cases hlr
    rw [if_pos hbuild] at hlr
    refine .inr ⟨lr, _, hlr, hbuild, rfl, ?_⟩
    dsimp only
    split
    next hpending =>
      refine .inr ⟨hpending, ?_⟩
      set h₁ := ((h.handleLoginRequestWithoutValidation env lr).takeSwitchSidesUuid env lr.myId).1
      have hrecord : SameRequest h₁ h₁.recordSwitch := ⟨rfl, id⟩
      have hlogon := sameRequest_logon b env (h := h₁.recordSwitch) lr.myId lr.myName
      have hdecides := logon_decides b env (h := h₁.recordSwitch) (.inr rfl)
        lr.myId lr.myName
      split
      next h₂ heq =>
        rw [heq] at hlogon
        exact ⟨h₂, false, rfl, hrecord.trans hlogon, .inl rfl⟩
      next h₂ heq =>
        rw [heq] at hlogon hdecides
        have hipc := (quiet_tryStartCmIpc h₂).sameRequest
        exact ⟨_, true, rfl, (hrecord.trans hlogon).trans hipc,
          .inr (hipc.authorized (hdecides.resolve_left nofun))⟩
    next hpending => exact .inl ⟨hpending, rfl⟩

/-- Only a remote session takes the response to a switch of sides. -/
theorem authedConnId_of_switch {s : SwitchSidesResponse}
    (hscope : h.authorizedScopeViolation env (.switchSidesResponse s) = none) :
    h.conn.authedConnId = some .remote := by
  unfold Host.authorizedScopeViolation at hscope
  simp only [Host.isConnectionHousekeepingMessage, Bool.false_eq_true, ↓reduceIte] at hscope
  split at hscope
  · cases hscope
  · assumption
  · cases hscope

/-- Once a connection is authorized, its login request stays. -/
theorem sameRequest_onMessage {msg : Message} (hauth : h.conn.authorized = true)
    (htells : Tells b h (.message env msg)) : SameRequest h (h.onMessage b env msg).1 := by
  have hrefl : SameRequest h h := ⟨rfl, id⟩
  rcases onMessage_cases b env (h := h) msg with ⟨_, heq⟩ | heq | ⟨heq, hinScope⟩ <;> rw [heq]
  · exact hrefl
  · exact (quiet_handleAuthorizedScopeViolation env h).sameRequest
  obtain ⟨hscope, hlogin⟩ := hinScope hauth
  cases msg with
  | closeReason _ => exact hrefl
  | loginRequest lr => exact absurd rfl (hlogin lr)
  | auth2fa tfa => exact sameRequest_onAuth2fa b env tfa
  | testDelay fromClient => exact (quiet_onTestDelay env h fromClient).sameRequest
  | session family =>
    unfold Host.dispatch
    dsimp only
    split <;> exact hrefl
  | switchSidesResponse s =>
    have hsame (lr : LoginRequest) (hlr : s.lr = some lr) (hbuild : b.flutter ∧ b.os.isDesktop) :
        h.conn.lr = lr := by
      by_contra hne
      exact (htells hbuild lr hlr (Ne.symm hne)).1 hauth (authedConnId_of_switch env hscope)
    rw [Host.dispatch]
    rcases onSwitchSidesResponse_cases b env (h := h) s with
      heq' | ⟨lr, h₁, hlr, hbuild, rfl, hrest⟩
    · rw [heq']
      exact hrefl
    · obtain rfl := hsame lr hlr hbuild
      have htake : SameRequest h ((h.handleLoginRequestWithoutValidation env
          h.conn.lr).takeSwitchSidesUuid env h.conn.lr.myId).1 :=
        (sameRequest_handleLogin env).trans ⟨rfl, id⟩
      rcases hrest with ⟨-, heq'⟩ | ⟨-, h₂, keepAlive, heq', hsame₂, -⟩
      · rw [heq']
        exact htake
      · rw [heq']
        exact htake.trans hsame₂

theorem sameRequest_onAuthorize : SameRequest h (h.onAuthorize b env).1 := by
  have hclick : SameRequest h { h.setConnAuditPrimaryAuth .click with
      conn := { (h.setConnAuditPrimaryAuth .click).conn with require2fa := none } } := ⟨rfl, id⟩
  exact hclick.trans (sameRequest_sendLogon b env)

/-- **Step lemma of an authorized connection.** -/
theorem sameRequest_step {e : Event} (hauth : h.conn.authorized = true) (htells : Tells b h e)
    (hstep : step b h e = some h') : SameRequest h h' := by
  obtain ⟨-, r, hr, hhandler⟩ := step_cases b hstep
  have hsame : SameRequest h r.1 := by
    rcases hhandler with ⟨env, msg, rfl, rfl⟩ | ⟨env, rfl, rfl⟩ | ⟨env, rfl, rfl⟩
    · exact sameRequest_onMessage b env hauth htells
    · exact sameRequest_onAuthorize b env
    · exact (quiet_onTestDelayTimer env h).sameRequest
  rcases hr with rfl | ⟨rfl, -⟩
  · exact hsame.trans ⟨rfl, id⟩
  · exact hsame

end Steps

/-! ## Runs -/

/-- The login request came in a message, and what it asks for was permitted when it was handled. -/
def Permitted (b : Build) (controlPermissions : Option (BitVec 64)) (as : List Event)
    (lr : LoginRequest) : Prop :=
  ∃ env, Event.message env (.loginRequest lr) ∈ as ∧
    ∀ p, lr.type.permission = some p → env.permission b p controlPermissions = true

/-- **The invariant** of a connection that waits for a click: what the connection manager was told
last, if anything, is what the connection has. -/
structure Announced (b : Build) (controlPermissions : Option (BitVec 64)) (as : List Event)
    (h : Host) : Prop where
  control : h.conn.view.controlPermissions = controlPermissions
  socket : h.conn.view.portForwardSocket = none
  shown : ∀ d, lastLogin h.log = some d → d.Shows h.conn.view ∧
    h.conn.view.withScope h.conn.view.lr.union = h.conn.view ∧
    Permitted b controlPermissions as h.conn.view.lr

section Runs

variable (b : Build) (env : Env) {controlPermissions : Option (BitVec 64)}
  {as as' : List Event} {h h' h₀ : Host}

theorem Permitted.mono {lr : LoginRequest} (has : as ⊆ as')
    (hp : Permitted b controlPermissions as lr) : Permitted b controlPermissions as' lr := by
  obtain ⟨env, hmem, hperm⟩ := hp
  exact ⟨env, has hmem, hperm⟩

section

variable (ha : Announced b controlPermissions as h)
include ha

/-- The invariant does not depend on the factors of the login. -/
theorem Announced.of_view (require2fa : Option Totp) (m : ConnAuditPrimaryAuth) (has : as ⊆ as')
    (hview : h'.conn.view = { h.conn.view with
      require2fa := require2fa, connAuditPrimaryAuth := m })
    (hlast : lastLogin h'.log = lastLogin h.log) : Announced b controlPermissions as' h' := by
  refine ⟨?_, ?_, fun d hd => ?_⟩
  · rw [hview]
    exact ha.control
  · rw [hview]
    exact ha.socket
  · obtain ⟨hshows, hin, hperm⟩ := ha.shown d (hlast ▸ hd)
    rw [hview]
    refine ⟨⟨hshows.peerId, hshows.name, hshows.isFileTransfer, hshows.isViewCamera,
      hshows.isTerminal, hshows.portForward⟩, ?_, hperm.mono b has⟩
    rw [LoginView.withScope_factors]
    rw [hin]

theorem Announced.of_quiet (has : as ⊆ as') (hq : Quiet h h') : Announced b controlPermissions as' h' :=
  ha.of_view b h.conn.require2fa h.conn.connAuditPrimaryAuth has hq.view hq.lastLogin

/-- A settled login request is announced, unless it has ended or opened the connection. -/
theorem announced_onLoginRequest {lr : LoginRequest}
    (hauth : h.conn.authorized = false) (htells : LoginTells b env h lr) :
    (h.onLoginRequest b env lr).2 = false ∨ (h.onLoginRequest b env lr).1.conn.authorized = true ∨
      Announced b controlPermissions (as ++ [.message env (.loginRequest lr)]) (h.onLoginRequest b env lr).1 := by
  rcases settled_onLoginRequest b env hauth htells with hend | ⟨h₁, require2fa, hview, hperm, hset⟩
  · exact .inl hend
  cases hr : h.onLoginRequest b env lr with
  | mk h' keepAlive =>
    rw [hr] at hset
    cases hset with
    | ended => exact .inl rfl
    | authorized hauth' => exact .inr (.inl hauth')
    | told m hview' hlast hshows =>
      refine .inr (.inr ⟨?_, ?_, fun d hd => ?_⟩)
      · rw [hview', hview]
        simpa using ha.control
      · rw [hview', hview]
        simpa using ha.socket
      · obtain rfl : _ = d := Option.some.inj (hlast.symm.trans hd)
        have hlr : h'.conn.view.lr = lr := by rw [hview', hview, LoginView.withScope_lr]
        refine ⟨hshows, ?_, ?_⟩
        · rw [hlr, hview', hview]
          exact (LoginView.withScope_factors _ _ _ _).trans (by rw [LoginView.withScope_withScope])
        · rw [hlr]
          refine ⟨env, List.mem_append_right _ (List.mem_singleton_self _), fun p hp => ?_⟩
          rw [← ha.control]
          exact hperm p hp

theorem announced_onAuth2fa (has : as ⊆ as') (tfa : Auth2fa) :
    (h.onAuth2fa b env tfa).2 = false ∨ (h.onAuth2fa b env tfa).1.conn.authorized = true ∨
      Announced b controlPermissions as' (h.onAuth2fa b env tfa).1 := by
  have hfail := quiet_checkFailure env h 1
  unfold Host.onAuth2fa
  split
  next heq =>
    rw [heq] at hfail
    exact .inr (.inr (ha.of_quiet b has hfail))
  next h₁ heq =>
    rw [heq] at hfail
    split
    · exact (acceptCode_decides b env tfa).imp_right .inl
    · have hq := (quiet_updateFailure h₁ false 1).trans (quiet_sendLoginError env _ "Wrong 2FA Code")
      exact .inr (.inr (ha.of_quiet b has (hfail.trans hq)))
    · exact .inr (.inr (ha.of_quiet b has hfail))

theorem announced_onSwitchSidesResponse (has : as ⊆ as')
    (hauth : h.conn.authorized = false) {s : SwitchSidesResponse}
    (htells : Tells b h (.message env (.switchSidesResponse s))) :
    (h.onSwitchSidesResponse b env s).2 = false ∨ (h.onSwitchSidesResponse b env s).1.conn.authorized = true ∨
      Announced b controlPermissions as' (h.onSwitchSidesResponse b env s).1 := by
  rcases onSwitchSidesResponse_cases b env (h := h) s with
    heq | ⟨lr, h₁, hlr, hbuild, rfl, ⟨hpending, heq⟩ | ⟨-, h₂, keepAlive, heq, -, hdecides⟩⟩
  · rw [heq]
    exact .inr (.inr (ha.of_quiet b has (Quiet.refl h)))
  · -- without the pending uuid, the login request is the one the connection has
    have hsame : lr = h.conn.lr := by
      by_contra hne
      exact hpending ((htells hbuild lr hlr hne).2 hauth)
    obtain ⟨require2fa, hview⟩ := handleLogin_view env h lr
    rw [heq]
    refine .inr (.inr (ha.of_view b require2fa h.conn.connAuditPrimaryAuth has ?_ (handleLogin_lastLogin env h lr)))
    subst hsame
    exact hview
  · rw [heq]
    exact hdecides.imp_right .inl

/-- A message to a connection that waits for a click ends or opens it, or leaves it announced. -/
theorem announced_onMessage
    (hauth : h.conn.authorized = false) {msg : Message} (htells : Tells b h (.message env msg)) :
    (h.onMessage b env msg).2 = false ∨ (h.onMessage b env msg).1.conn.authorized = true ∨
      Announced b controlPermissions (as ++ [.message env msg]) (h.onMessage b env msg).1 := by
  have has : as ⊆ as ++ [.message env msg] := List.subset_append_left _ _
  have hdispatch : (h.dispatch b env msg).2 = false ∨ (h.dispatch b env msg).1.conn.authorized = true ∨
      Announced b controlPermissions (as ++ [.message env msg]) (h.dispatch b env msg).1 := by
    cases msg with
    | closeReason _ => exact .inr (.inr (ha.of_quiet b has (Quiet.refl h)))
    | loginRequest lr => exact announced_onLoginRequest b env ha hauth (htells hauth)
    | auth2fa tfa => exact announced_onAuth2fa b env ha has tfa
    | testDelay fromClient => exact .inr (.inr (ha.of_quiet b has (quiet_onTestDelay env h fromClient)))
    | switchSidesResponse s => exact announced_onSwitchSidesResponse b env ha has hauth htells
    | session _ =>
      rw [Host.dispatch, if_neg (by simp [hauth])]
      exact .inr (.inr (ha.of_quiet b has (Quiet.refl h)))
  rcases onMessage_cases b env (h := h) msg with ⟨_, heq⟩ | heq | ⟨heq, -⟩ <;> rw [heq]
  · exact .inr (.inr (ha.of_quiet b has (Quiet.refl h)))
  · exact .inr (.inr (ha.of_quiet b has (quiet_handleAuthorizedScopeViolation env h)))
  · exact hdispatch

end

/-- The click ends or opens the connection. What it opens is what the connection has by then. -/
theorem onAuthorize_cases (hauth : h.conn.authorized = false) :
    (h.onAuthorize b env).2 = false ∧ (h.onAuthorize b env).1.conn.authorized = false ∨
      ∃ m, (h.onAuthorize b env).1.conn.view =
        ({ h.conn.view with require2fa := none, connAuditPrimaryAuth := m } : LoginView).opened := by
  have hlogon := logon_outcome b env { h.setConnAuditPrimaryAuth .click with
    conn := { (h.setConnAuditPrimaryAuth .click).conn with require2fa := none } }
  unfold Host.onAuthorize
  generalize Host.sendLogonResponseAndKeepAlive b env _ = r at hlogon ⊢
  cases hlogon with
  | already ha _ => exact absurd (ha.symm.trans hauth) nofun
  | asked hrequire _ _ => cases hrequire
  | ended address hview _ => exact .inl ⟨rfl, (congrArg LoginView.authorized hview).trans hauth⟩
  | opened _ hview _ _ => exact .inr ⟨.click, hview⟩

/-- **Step lemma.** A connection that waits for a click stays announced. -/
theorem announced_step {e : Event}
    (ha : h.isOpen = true → h.conn.authorized = false → Announced b controlPermissions as h)
    (hopen : h.isOpen = true) (htells : Tells b h e) (hstep : step b h e = some h') :
    h'.isOpen = true → h'.conn.authorized = false → Announced b controlPermissions (as ++ [e]) h' := by
  intro hopen' hauth'
  have hauth : h.conn.authorized = false := by
    by_contra hne
    have hsame := sameRequest_step b (by simpa using hne) htells hstep
    rw [hsame.authorized (by simpa using hne)] at hauth'
    cases hauth'
  obtain ⟨-, r, hr, hhandler⟩ := step_cases b hstep
  rcases hr with rfl | ⟨rfl, hkeep⟩
  · cases hopen'
  rcases hhandler with ⟨env, msg, rfl, rfl⟩ | ⟨env, rfl, rfl⟩ | ⟨env, rfl, rfl⟩
  · rcases announced_onMessage b env (ha hopen hauth) hauth htells with hend | hopened | hann
    · exact absurd (hend.symm.trans hkeep) nofun
    · exact absurd (hopened.symm.trans hauth') nofun
    · exact hann
  · rcases onAuthorize_cases b env hauth with ⟨hend, -⟩ | ⟨m, hview⟩
    · exact absurd (hend.symm.trans hkeep) nofun
    · have hopened := congrArg LoginView.authorized hview
      exact absurd (hopened.symm.trans hauth') nofun
  · exact (ha hopen hauth).of_quiet b (List.subset_append_left _ _) (quiet_onTestDelayTimer env h)

theorem announced_run (hfresh : h₀.Fresh) (hrun : Run (Only (Tells b) (Steps (step b))) h₀ as h) :
    h.isOpen = true → h.conn.authorized = false → Announced b h₀.conn.controlPermissions as h := by
  apply hrun.invariant_history
  · intro as h e h' ha hstep
    exact announced_step b ha (step_cases b hstep.2).1 hstep.1 hstep.2
  · intro _ _
    obtain ⟨⟨id, hash, require2fa, permissions, controlPermissions, headless, hconn⟩, hlog⟩ := hfresh
    refine ⟨rfl, by rw [hconn]; rfl, fun d hd => ?_⟩
    rw [hlog] at hd
    cases hd

theorem sameRequest_run (hauth : h.conn.authorized = true)
    (hrun : Run (Only (Tells b) (Steps (step b))) h as h') : SameRequest h h' := by
  refine hrun.invariant ?_ ⟨rfl, id⟩
  intro h₁ e h₂ hsame hstep
  exact hsame.trans (sameRequest_step b (hsame.authorized hauth) hstep.1 hstep.2)

/-- **The click opens what was shown.** In a run whose steps do not change the login request behind
the back of the user, the click opens what the connection manager was last told, its permission was
enabled when it was asked for, and an authorized connection keeps its login request. -/
theorem click_opens_shown (hfresh : h₀.Fresh)
    (hrun : Run (Only (Tells b) (Steps (step b))) h₀ as h) :
    (∀ env h' d, step b h (.authorize env) = some h' → h.conn.authorized = false →
      h'.conn.authorized = true → lastLogin h.log = some d →
      OpensAsShown d h'.conn.view ∧ d.type = h'.conn.lr.type ∧
        Permitted b h₀.conn.controlPermissions as h'.conn.lr) ∧
    (h.conn.authorized = true → ∀ bs h', Run (Only (Tells b) (Steps (step b))) h bs h' →
      h'.conn.lr = h.conn.lr) := by
  refine ⟨fun env h' d hstep hauth hauth' hlast => ?_,
    fun hauth bs h' hrun' => (sameRequest_run b hauth hrun').lr⟩
  obtain ⟨hopen, r, hr, hhandler⟩ := step_cases b hstep
  have hann := announced_run b hfresh hrun hopen hauth
  have hr' : h'.conn.view = r.1.conn.view := by
    rcases hr with rfl | ⟨rfl, -⟩ <;> rfl
  obtain rfl : r = h.onAuthorize b env := by
    rcases hhandler with ⟨_, _, he, -⟩ | ⟨_, he, rfl⟩ | ⟨_, he, -⟩ <;> cases he
    rfl
  rcases onAuthorize_cases b env hauth with ⟨-, hclosed⟩ | ⟨m, hview⟩
  · have := congrArg LoginView.authorized hr'
    exact absurd (this.symm.trans hauth') (by simp [Conn.view, hclosed])
  obtain ⟨hshows, hin, hperm⟩ := hann.shown d hlast
  let v : LoginView := { h.conn.view with require2fa := none, connAuditPrimaryAuth := m }
  have hshows' : d.Shows v := ⟨hshows.peerId, hshows.name, hshows.isFileTransfer,
    hshows.isViewCamera, hshows.isTerminal, hshows.portForward⟩
  have hin' : v.withScope v.lr.union = v := by
    refine (LoginView.withScope_factors _ _ _ _).trans ?_
    rw [hin]
  obtain ⟨hopens, htype⟩ := hshows'.opened hin' hann.socket
  have hlr : h'.conn.lr = h.conn.lr := by
    have := congrArg LoginView.lr (hr'.trans hview)
    rwa [LoginView.opened_lr] at this
  rw [hr', hview, hlr]
  exact ⟨hopens, htype, hperm⟩

end Runs

/-! ## Samples -/

/-- A host that a port forward can connect from. -/
def forwardingEnv : Env := { plainEnv with connects := fun _ => true }

/-- The login request of a peer for an id and a kind of session. -/
def sampleRequest (myId : String) (union : Option LoginUnion) : LoginRequest :=
  { LoginRequest.default with username := "987654321", myId := myId, myName := myId, union := union }

/-- A file transfer is asked for and clicked. -/
theorem click_opens_shown_file_transfer :
    ∃ h h' : Host, ∃ d : CmLogin, lastLogin h.log = some d ∧ d.type = .fileTransfer ∧
      OpensAsShown d h'.conn.view := by
  let b := linuxBuild fun _ => []
  let request := sampleRequest "alice" (some (.fileTransfer ⟨"", false⟩))
  let h := ((plainHost none).onMessage b plainEnv (.loginRequest request)).1
  let h' := (h.onAuthorize b plainEnv).1
  have htells : Tells b (plainHost none) (.message plainEnv (.loginRequest request)) := by
    intro _ h₁ hopen _ _
    cases hopen
    exact ⟨rfl, .inl rfl, .inr ⟨rfl, .inr (.inl rfl)⟩⟩
  have hrun : Run (Only (Tells b) (Steps (step b))) (plainHost none)
      [.message plainEnv (.loginRequest request)] h := .cons ⟨htells, rfl⟩ (.nil _)
  have hclick := (click_opens_shown b (plainHost_fresh none) hrun).1 plainEnv h' _ rfl (by decide)
    (by decide) rfl
  exact ⟨h, h', _, rfl, by decide, hclick.1⟩

/-- A remote session of "alice" is shown, and a port forward of "mallory" is opened. -/
theorem click_opens_what_was_not_shown :
    ∃ h h' : Host, ∃ d : CmLogin, (plainHost none).Fresh ∧
      Run (Steps (step (linuxBuild fun _ => []))) (plainHost none)
        [.message forwardingEnv (.loginRequest (sampleRequest "alice" none)),
          .message forwardingEnv (.switchSidesResponse
            ⟨[], some (sampleRequest "mallory" (some (.portForward ⟨"10.0.0.1", 22⟩)))⟩)] h ∧
      step (linuxBuild fun _ => []) h (.authorize forwardingEnv) = some h' ∧
      h.conn.authorized = false ∧ h'.conn.authorized = true ∧ lastLogin h.log = some d ∧
      d.type = .remote ∧ d.peerId = "alice" ∧
      h'.conn.authedConnId = some .portForward ∧ h'.conn.lr.myId = "mallory" ∧
      h'.conn.portForwardSocket = some "10.0.0.1:22" := by
  let b := linuxBuild fun _ => []
  let h₁ := ((plainHost none).onMessage b forwardingEnv
    (.loginRequest (sampleRequest "alice" none))).1
  let h := (h₁.onMessage b forwardingEnv (.switchSidesResponse
    ⟨[], some (sampleRequest "mallory" (some (.portForward ⟨"10.0.0.1", 22⟩)))⟩)).1
  refine ⟨h, (h.onAuthorize b forwardingEnv).1.close, _, plainHost_fresh none,
    .cons (t := h₁) rfl (.cons rfl (.nil _)), rfl, by decide, by decide, rfl, by decide, by decide,
    by decide, by decide, by decide⟩

end RustDesk.Connection
