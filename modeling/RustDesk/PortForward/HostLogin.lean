import RustDesk.Connection.LoginSpec

/-!
# The login of a port forward

References: `src/server/connection.rs` (`on_message`, `send_logon_response_and_keep_alive`). Until a
connection that asks for a port forward is authorized, the host sends it nothing but its probes and
login errors; what authorizes it ends with the login response (`Outcome`), and after that nothing
more is framed.
-/

namespace RustDesk.PortForward

open Connection

/-- What goes to the peer. -/
def toPeer : Effect → Bool
  | .loginError .. | .loginResponse _ | .testDelay | .closeReason _ | .permissionKeyboard _ => true
  | _ => false

/-- A login error. -/
def isLoginError : Effect → Bool
  | .loginError .. => true
  | _ => false

/-- The fields that a port forward goes by. -/
structure View where
  fileTransfer : Option (String × Bool)
  viewCamera : Bool
  terminal : Bool
  socket : Bool
  authorized : Bool
  authedConnId : Option AuthConnType
  lastTestDelay : Option ℕ
  union : Option LoginUnion
  running : Bool

def view (h : Host) : View where
  fileTransfer := h.conn.fileTransfer
  viewCamera := h.conn.viewCamera
  terminal := h.conn.terminal
  socket := h.conn.portForwardSocket.isSome
  authorized := h.conn.authorized
  authedConnId := h.conn.authedConnId
  lastTestDelay := h.conn.lastTestDelay
  union := h.conn.lr.union
  running := h.isOpen

/-- A connection differs from another in that it left the loop at most. -/
def SameButRunning (h h' : Host) : Prop := view h' = { view h with running := h'.isOpen }

theorem SameButRunning.get {h h' : Host} (hs : SameButRunning h h') {α : Type} (F : View → α)
    (hF : ∀ v r, F { v with running := r } = F v) : F (view h') = F (view h) := by
  rw [hs]
  exact hF _ _

/-- A connection of which nothing but a port forward was asked. -/
structure Forwarding (h : Host) : Prop where
  fileTransfer : h.conn.fileTransfer = none
  viewCamera : h.conn.viewCamera = false
  terminal : h.conn.terminal = false
  socket : h.conn.portForwardSocket.isSome = h.conn.authorized
  type : h.conn.authorized = true → h.conn.authedConnId = some .portForward

/-- A port forward was asked for. -/
def Named (h : Host) : Prop := ∃ pf, h.conn.lr.union = some (.portForward pf)

/-! ## Operations that send login errors at most -/

/-- Nothing that a port forward goes by changes, and of what goes to the peer all is as `p` says. -/
structure Chat (p : Effect → Bool) (h h' : Host) : Prop where
  view : view h' = view h
  log : ∃ new, h'.log = h.log ++ new ∧ ∀ e ∈ new, toPeer e → p e

namespace Chat

variable {p : Effect → Bool} {h h₁ h₂ : Host}

theorem refl (h : Host) : Chat p h h := ⟨rfl, [], by simp, by simp⟩

theorem trans (h₀₁ : Chat p h h₁) (h₁₂ : Chat p h₁ h₂) : Chat p h h₂ := by
  obtain ⟨new, hlog, hnew⟩ := h₀₁.log
  obtain ⟨new', hlog', hnew'⟩ := h₁₂.log
  refine ⟨h₁₂.view.trans h₀₁.view, new ++ new', by rw [hlog', hlog, List.append_assoc], ?_⟩
  intro e he
  exact (List.mem_append.mp he).elim (hnew e) (hnew' e)

theorem of_eq (hview : PortForward.view h₁ = PortForward.view h) (hlog : h₁.log = h.log) :
    Chat p h h₁ := ⟨hview, [], by simp [hlog], by simp⟩

theorem emit (hc : Chat p h h₁) {e : Effect} (he : toPeer e → p e) : Chat p h (h₁.emit e) := by
  obtain ⟨new, hlog, hnew⟩ := hc.log
  refine ⟨hc.view, new ++ [e], by rw [Host.emit_log, hlog, List.append_assoc], ?_⟩
  intro e' he'
  obtain hold | hlast := List.mem_append.mp he'
  · exact hnew e' hold
  · rw [List.mem_singleton.mp hlast]
    exact he

theorem mono {q : Effect → Bool} (hc : Chat p h h₁) (hpq : ∀ e, p e → q e) : Chat q h h₁ := by
  obtain ⟨new, hlog, hnew⟩ := hc.log
  exact ⟨hc.view, new, hlog, fun e he ht => hpq e (hnew e he ht)⟩

end Chat

/-- Nothing goes to the peer. -/
abbrev Silent : Host → Host → Prop := Chat fun _ => false

section Operations

variable (b : Build) (env : Env) (h : Host)

theorem chat_sendLoginError (err : String) : Chat isLoginError h (h.sendLoginError env err) :=
  (Chat.refl h).emit fun _ => rfl

theorem silent_setConnAuditPrimaryAuth (m : ConnAuditPrimaryAuth) : Silent h (h.setConnAuditPrimaryAuth m) := by
  have hsame : Silent h { h with conn := { h.conn with connAuditPrimaryAuth := m } } := .of_eq rfl rfl
  exact hsame.emit nofun

theorem silent_setConnAuditTwoFactor (tf : ConnAuditTwoFactor) : Silent h (h.setConnAuditTwoFactor tf) := by
  have hsame : Silent h { h with conn := { h.conn with connAuditTwoFactor := tf } } := .of_eq rfl rfl
  exact hsame.emit nofun

theorem silent_tryStartCm (peerId name : String) (authorized : Bool) :
    Silent h (h.tryStartCm peerId name authorized) := (Chat.refl h).emit nofun

theorem silent_updateFailure (remove : Bool) (i : ℕ) : Silent h (h.updateFailure remove i) :=
  (Chat.refl h).emit nofun

theorem silent_tryStartCmIpc : Silent h h.tryStartCmIpc := by
  unfold Host.tryStartCmIpc
  split
  · have hsame : Silent h { h with conn := { h.conn with startCmIpcPara := false } } := .of_eq rfl rfl
    exact hsame.emit nofun
  · exact Chat.refl h

theorem chat_checkFailure (i : ℕ) : Chat isLoginError h (h.checkFailure env i).1 := by
  unfold Host.checkFailure
  split
  · exact chat_sendLoginError env h _
  · exact Chat.refl h

theorem silent_validatePassword (allow : Bool) : Silent h (h.validatePassword b env allow).1 := by
  unfold Host.validatePassword
  split
  · exact (silent_setConnAuditPrimaryAuth h _).trans (.of_eq rfl rfl)
  · split
    · exact silent_setConnAuditPrimaryAuth h _
    · exact Chat.refl h

theorem silent_isRecentSession (tfa : Bool) : Silent h (h.isRecentSession b env tfa).1 := by
  have hsame (r : SharedRead) : Silent h ((h.acquire env r).retainSessions env) := .of_eq rfl rfl
  cases tfa with
  | true =>
    unfold Host.isRecentSession
    simp only [↓reduceIte]
    split
    · split
      · exact (hsame .recentTfa).trans (silent_setConnAuditTwoFactor _ _)
      · exact hsame .recentTfa
    · exact hsame .recentTfa
  | false =>
    unfold Host.isRecentSession
    simp only [Bool.false_eq_true, ↓reduceIte]
    split
    · split
      · exact (hsame .recentPassword).trans (silent_setConnAuditPrimaryAuth _ _)
      · exact hsame .recentPassword
    · exact hsame .recentPassword

end Operations

theorem Chat.of_silent {p : Effect → Bool} {h h' : Host} (hs : Silent h h') : Chat p h h' :=
  hs.mono fun _ hfalse => absurd hfalse Bool.false_ne_true

/-! ## What a login comes to -/

/-- The connection is authorized. What the peer is sent ends with the login response. -/
structure Opened (h h' : Host) : Prop where
  view : view h' =
    { view h with socket := true, authorized := true, authedConnId := some .portForward }
  log : ∃ errs, h'.log.filter toPeer
    = h.log.filter toPeer ++ errs ++ [.loginResponse (.ok .portForward)] ∧
    (∀ e ∈ errs, isLoginError e) ∧ h.log <+: h'.log

/-- What a login comes to: it is not let in yet, or not at all, or it is. -/
inductive Outcome (h : Host) : Host × Bool → Prop
  | refused {h' : Host} {keepAlive : Bool} : Chat isLoginError h h' → Outcome h (h', keepAlive)
  | opened {h' : Host} : Opened h h' → Outcome h (h', true)

namespace Opened

variable {h h₁ h₂ : Host}

/-- What is said before the opening belongs to it. -/
theorem of_chat (hc : Chat isLoginError h h₁) (ho : Opened h₁ h₂) : Opened h h₂ := by
  obtain ⟨new, hnew, herr⟩ := hc.log
  obtain ⟨errs, hlog, herrs, hpre⟩ := ho.log
  refine ⟨by rw [ho.view, hc.view], new.filter toPeer ++ errs, ?_, ?_, ?_⟩
  · rw [hlog, hnew, List.filter_append, List.append_assoc _ _ errs]
  · intro e he
    obtain hold | hlate := List.mem_append.mp he
    · obtain ⟨hmem, hpeer⟩ := List.mem_filter.mp hold
      exact herr e hmem hpeer
    · exact herrs e hlate
  · exact (hnew ▸ List.prefix_append _ _ : h.log <+: h₁.log).trans hpre

/-- What happens in silence after the opening belongs to it. -/
theorem silent (ho : Opened h h₁) (hs : Silent h₁ h₂) : Opened h h₂ := by
  obtain ⟨new, hnew, hquiet⟩ := hs.log
  obtain ⟨errs, hlog, herrs, hpre⟩ := ho.log
  have hnone : new.filter toPeer = [] :=
    List.filter_eq_nil_iff.mpr fun e he hpeer => Bool.false_ne_true (hquiet e he hpeer)
  refine ⟨by rw [hs.view, ho.view], errs, ?_, herrs, ?_⟩
  · rw [hnew, List.filter_append, hnone, List.append_nil, hlog]
  · exact hpre.trans (hnew ▸ List.prefix_append _ _)

end Opened

namespace Outcome

variable {h h₁ : Host} {r : Host × Bool}

theorem of_chat (hc : Chat isLoginError h h₁) (hr : Outcome h₁ r) : Outcome h r := by
  cases hr with
  | refused hc' => exact .refused (hc.trans hc')
  | opened ho => exact .opened (ho.of_chat hc)

/-- An authorization is an opening. -/
theorem opened_of_authorized (ho : Outcome h r) (hauth : h.conn.authorized = false)
    (hnow : r.1.conn.authorized = true) : Opened h r.1 ∧ r.2 = true := by
  cases ho with
  | refused hc =>
    have hstill : _ = h.conn.authorized := congrArg View.authorized hc.view
    exact absurd ((hstill.trans hauth).symm.trans hnow) Bool.false_ne_true
  | opened ho => exact ⟨ho, rfl⟩

end Outcome

section Logon

variable (b : Build) (env : Env) {h : Host} {h' : Host} {p : Effect → Bool}

theorem Forwarding.of_chat (hf : Forwarding h) (hc : Chat p h h') : Forwarding h' where
  fileTransfer := (congrArg View.fileTransfer hc.view).trans hf.fileTransfer
  viewCamera := (congrArg View.viewCamera hc.view).trans hf.viewCamera
  terminal := (congrArg View.terminal hc.view).trans hf.terminal
  socket := ((congrArg View.socket hc.view).trans hf.socket).trans (congrArg View.authorized hc.view).symm
  type hauth := (congrArg View.authedConnId hc.view).trans
    (hf.type ((congrArg View.authorized hc.view).symm.trans hauth))

theorem Named.of_chat (hn : Named h) (hc : Chat p h h') : Named h' := by
  obtain ⟨pf, hpf⟩ := hn
  exact ⟨pf, (congrArg View.union hc.view).trans hpf⟩

theorem Chat.authorized (hc : Chat p h h') :
    h'.conn.authorized = h.conn.authorized := congrArg View.authorized hc.view

/-- A port forward is not a terminal, so nobody has to be authorized for one. -/
theorem prepareTerminal_eq (hf : Forwarding h) : h.prepareTerminalLoginForAuthorization b env = (h, none) := by
  unfold Host.prepareTerminalLoginForAuthorization
  split
  · rfl
  · rw [if_pos (.inl (by simp [hf.terminal]))]

theorem awaitClick_eq (hf : Forwarding h) (lr : LoginRequest) :
    h.awaitClick b env lr = (h.tryStartCm lr.myId lr.myName false, none) := by
  unfold Host.awaitClick
  rw [if_neg]
  simp [shouldUseTerminalOsLoginScope, hf.terminal]

/-- The rest of an authorization, once the socket is there. -/
theorem opened_respond (hfile : h.conn.fileTransfer = none)
    (hsocket : h.conn.portForwardSocket.isSome) : Opened h (h.authorize.respond b env) := by
  have htype : h.authConnType = .portForward := by
    unfold Host.authConnType
    rw [if_neg (by simp [hfile]), if_pos hsocket]
  obtain ⟨e, hpeer, hlog⟩ : ∃ e, toPeer e = false ∧ h.authorize.log = h.log ++ [e] := by
    unfold Host.authorize Host.normalizeConnAuditAuthFields
    dsimp only
    split <;> exact ⟨_, rfl, rfl⟩
  have hview : view h.authorize = { view h with authorized := true, authedConnId := some .portForward } := by
    unfold Host.authorize Host.normalizeConnAuditAuthFields
    dsimp only
    rw [htype]
    split <;> rfl
  have hsame : h.authorize.conn.portForwardSocket.isSome := (congrArg View.socket hview).trans hsocket
  unfold Host.respond
  rw [if_pos hsame]
  refine ⟨?_, [], ?_, by simp, ?_⟩
  · have hv : view (h.authorize.emit (.loginResponse (.ok .portForward))) = view h.authorize := rfl
    rw [hv, hview]
    simp [view, hsocket]
  · have hlast : [e].filter toPeer = [] := by simp [hpeer]
    rw [Host.emit_log, hlog, List.filter_append, List.filter_append, hlast]
    rfl
  · rw [Host.emit_log, hlog]
    exact (List.prefix_append _ _).trans (List.prefix_append _ _)

section

variable (hf : Forwarding h) (hn : Named h) (hauth : h.conn.authorized = false)
include hf hn hauth

/-- Past the question for a second factor, the connection is let in if the socket connects. -/
theorem openSession_outcome :
    Outcome h (h.openSession b env) := by
  obtain ⟨pf, hpf⟩ := hn
  have hsocket : h.conn.portForwardSocket.isSome = false := hf.socket.trans hauth
  unfold Host.openSession
  rw [prepareTerminal_eq b env hf]
  dsimp only
  unfold Host.connectPortForwardIfNeeded
  rw [if_neg (by simp [hsocket]), hpf]
  dsimp only
  by_cases hconn : env.connects (normalizePortForwardTarget pf).1
  · rw [if_pos hconn]
    refine .opened ?_
    have ho := opened_respond b env (h := { h with conn := { h.conn with
      portForwardAddress := (normalizePortForwardTarget pf).1
      portForwardSocket := some (normalizePortForwardTarget pf).1 } }) hf.fileTransfer rfl
    exact ⟨ho.view, ho.log⟩
  · rw [if_neg hconn]
    refine .refused ?_
    have hsame : Chat isLoginError h { h with conn := { h.conn with
        portForwardAddress := (normalizePortForwardTarget pf).1 } } := .of_eq rfl rfl
    exact hsame.trans (chat_sendLoginError env _ _)

/-- **What a logon of a port forward comes to.** -/
theorem sendLogon_outcome :
    Outcome h (h.sendLogonResponseAndKeepAlive b env) := by
  unfold Host.sendLogonResponseAndKeepAlive
  rw [if_neg (by simp [hauth])]
  split
  · have hs := silent_isRecentSession b env h true
    have hc : Chat isLoginError h (h.isRecentSession b env true).1 := .of_silent hs
    split
    next h₁ recent heq =>
      rw [heq] at hc
      split
      · exact .refused (hc.trans (chat_sendLoginError env _ _))
      · exact (openSession_outcome b env (hf.of_chat hc) (hn.of_chat hc) (hc.authorized.trans hauth)).of_chat hc
  · exact openSession_outcome b env hf hn hauth

/-- A logon, and the connection manager told of it. -/
theorem logon_outcome (peerId name : String) : Outcome h (h.logon b env peerId name) := by
  have ho := sendLogon_outcome b env hf hn hauth
  unfold Host.logon
  split
  next heq =>
    rw [heq] at ho
    exact ho
  next heq =>
    rw [heq] at ho
    cases ho with
    | refused hc => exact .refused (hc.trans (.of_silent (silent_tryStartCm _ _ _ _)))
    | opened ho => exact .opened (ho.silent (silent_tryStartCm _ _ _ _))

end

/-! ## Handlers -/

section

variable (hf : Forwarding h) (hn : Named h) (hauth : h.conn.authorized = false) (lr : LoginRequest)
include hf hn hauth lr

theorem tryPassword_outcome (errMsg : String) : Outcome h (h.tryPassword b env lr errMsg) := by
  have hcheck := chat_checkFailure env h 0
  unfold Host.tryPassword
  split
  next h₁ heq =>
    rw [heq] at hcheck
    exact .refused hcheck
  next h₁ heq =>
    rw [heq] at hcheck
    have hvalid : Chat isLoginError h (h₁.validatePassword b env (env.allowLogonScreenPassword b)).1 :=
      hcheck.trans (.of_silent (silent_validatePassword b env h₁ _))
    split
    next h₂ heq₂ =>
      rw [heq₂] at hvalid
      have hwrong := hvalid.trans (.of_silent (silent_updateFailure h₂ false 0))
      split
      · exact .refused ((hwrong.trans (chat_sendLoginError env _ _)).trans (.of_silent (silent_tryStartCm _ _ _ _)))
      · exact .refused (hwrong.trans (chat_sendLoginError env _ _))
    next h₂ heq₂ =>
      rw [heq₂] at hvalid
      have hright := hvalid.trans (.of_silent (silent_updateFailure h₂ true 0))
      split
      · exact (logon_outcome b env (hf.of_chat hright) (hn.of_chat hright)
          (hright.authorized.trans hauth) _ _).of_chat hright
      · exact .refused (hright.trans (chat_sendLoginError env _ _))

theorem approve_outcome (errMsg : String) : Outcome h (h.approve b env lr errMsg) := by
  have hcm : Chat isLoginError h (h.tryStartCm lr.myId lr.myName false) :=
    .of_silent (silent_tryStartCm h _ _ _)
  have hrecent : Chat isLoginError h (h.isRecentSession b env false).1 :=
    .of_silent (silent_isRecentSession b env h false)
  unfold Host.approve
  rw [awaitClick_eq b env hf]
  split
  · dsimp only
    split
    · exact .refused (hcm.trans (chat_sendLoginError env _ _))
    · exact .refused hcm
  split
  next h₁ heq =>
    rw [heq] at hrecent
    split
    · exact (logon_outcome b env (hf.of_chat hrecent) (hn.of_chat hrecent)
        (hrecent.authorized.trans hauth) _ _).of_chat hrecent
    · exact .refused (hrecent.trans (chat_sendLoginError env _ _))
  next h₁ heq =>
    rw [heq] at hrecent
    split
    · split
      · rw [awaitClick_eq b env (hf.of_chat hrecent)]
        exact .refused (hrecent.trans (.of_silent (silent_tryStartCm _ _ _ _)))
      · exact .refused (hrecent.trans (chat_sendLoginError env _ _))
    · exact (tryPassword_outcome b env (hf.of_chat hrecent) (hn.of_chat hrecent)
        (hrecent.authorized.trans hauth) lr errMsg).of_chat hrecent

theorem startDesktop_outcome : Outcome h (h.startDesktop b env lr) := by
  have hcheck : Chat isLoginError h (h.checkHeadlessAuth b env lr).1 := by
    unfold Host.checkHeadlessAuth
    split
    · exact chat_checkFailure env h 0
    · exact Chat.refl h
  unfold Host.startDesktop
  split
  next h₁ heq =>
    rw [heq] at hcheck
    exact .refused hcheck
  next h₁ heq =>
    rw [heq] at hcheck
    dsimp only
    split
    · split
      · have hagain := chat_checkFailure env h₁ 0
        split
        next heq₂ =>
          rw [heq₂] at hagain
          exact .refused (hcheck.trans hagain)
        next heq₂ =>
          rw [heq₂] at hagain
          exact .refused ((hcheck.trans hagain).trans
            ((Chat.of_silent (silent_updateFailure _ false 0)).trans (chat_sendLoginError env _ _)))
      · exact .refused (hcheck.trans (chat_sendLoginError env _ _))
    · exact (approve_outcome b env (hf.of_chat hcheck) (hn.of_chat hcheck)
        (hcheck.authorized.trans hauth) lr _).of_chat hcheck

end

/-- What a request for a port forward is judged in: the request is taken down, the scope reset. -/
structure Asked (h h' : Host) : Prop where
  forwarding : Forwarding h'
  named : Named h'
  authorized : h'.conn.authorized = false
  lastTestDelay : h'.conn.lastTestDelay = h.conn.lastTestDelay
  running : h'.isOpen = h.isOpen
  log : ∃ new, h'.log = h.log ++ new ∧ ∀ e ∈ new, toPeer e → isLoginError e

theorem handleLoginRequest_silent (lr : LoginRequest) :
    view (h.handleLoginRequestWithoutValidation env lr) = { view h with union := lr.union } ∧
      ∃ new, (h.handleLoginRequestWithoutValidation env lr).log = h.log ++ new ∧ ∀ e ∈ new, toPeer e = false := by
  unfold Host.handleLoginRequestWithoutValidation
  dsimp only
  split
  · exact ⟨rfl, [_], rfl, by simp [toPeer]⟩
  · exact ⟨rfl, [], by simp [Host.acquire], by simp⟩

theorem Asked.of_chat {h₁ h₂ : Host} (ha : Asked h h₁) (hc : Chat isLoginError h₁ h₂) : Asked h h₂ where
  forwarding := ha.forwarding.of_chat hc
  named := ha.named.of_chat hc
  authorized := hc.authorized.trans ha.authorized
  lastTestDelay := (congrArg View.lastTestDelay hc.view).trans ha.lastTestDelay
  running := (congrArg View.running hc.view).trans ha.running
  log := by
    obtain ⟨new, hlog, hnew⟩ := ha.log
    obtain ⟨new', hlog', hnew'⟩ := hc.log
    refine ⟨new ++ new', by rw [hlog', hlog, List.append_assoc], fun e he => ?_⟩
    exact (List.mem_append.mp he).elim (hnew e) (hnew' e)

theorem silent_startCmIpcForLogin (h : Host) (lr : LoginRequest) : Silent h (h.startCmIpcForLogin b lr) := by
  unfold Host.startCmIpcForLogin
  split
  · exact silent_tryStartCmIpc h
  · exact Chat.refl h

/-- What a request for a port forward comes to, from the state that it is judged in. -/
theorem onLoginRequest_outcome {lr : LoginRequest} {pf : PortForward}
    (hpf : lr.union = some (.portForward pf)) (hf : Forwarding h)
    (hauth : h.conn.authorized = false) :
    ∃ h₁, Asked h h₁ ∧ Outcome h₁ (h.onLoginRequest b env lr) := by
  obtain ⟨hview, new, hlog, hnew⟩ := handleLoginRequest_silent env (h := h) lr
  unfold Host.onLoginRequest
  set h₀ := h.handleLoginRequestWithoutValidation env lr
  have hauth₀ : h₀.conn.authorized = false := (congrArg View.authorized hview).trans hauth
  have hsocket₀ : h₀.conn.portForwardSocket.isSome = h₀.conn.authorized := by
    rw [hauth₀, ← hauth, ← hf.socket]
    exact congrArg View.socket hview
  have hasked (address : String) : Asked h { h₀.resetSessionScopeForLogin with
      conn := { h₀.resetSessionScopeForLogin.conn with portForwardAddress := address } } := by
    have hclosed : h₀.conn.authorized = true → h₀.conn.authedConnId = some .portForward :=
      fun hnow => absurd (hauth₀.symm.trans hnow) Bool.false_ne_true
    refine ⟨⟨rfl, rfl, rfl, hsocket₀, hclosed⟩, ⟨pf, ?_⟩, hauth₀, congrArg View.lastTestDelay hview,
      congrArg View.running hview, new, hlog, fun e he hpeer => absurd (hnew e he) (by simp [hpeer])⟩
    exact (congrArg View.union hview).trans hpf
  rw [if_neg (by simp [hauth₀])]
  unfold Host.openScope
  rw [hpf]
  dsimp only
  by_cases hpermission : env.permission b .tunnel h₀.resetSessionScopeForLogin.conn.controlPermissions
  · rw [if_neg (not_not.mpr hpermission)]
    dsimp only
    have ha := hasked (normalizePortForwardTarget pf).1
    refine ⟨_, ha, ?_⟩
    split
    · exact .refused (chat_sendLoginError env _ _)
    split
    next hterminal => exact absurd (show false = true from hterminal.2.1) Bool.false_ne_true
    have ha' := ha.of_chat (.of_silent (silent_startCmIpcForLogin b _ lr))
    exact (startDesktop_outcome b env ha'.forwarding ha'.named ha'.authorized lr).of_chat
      (.of_silent (silent_startCmIpcForLogin b _ lr))
  · rw [if_pos hpermission]
    exact ⟨_, hasked h₀.resetSessionScopeForLogin.conn.portForwardAddress, .refused (chat_sendLoginError env _ _)⟩

/-- What a code comes to. -/
theorem onAuth2fa_outcome (hf : Forwarding h) (hn : Named h) (hauth : h.conn.authorized = false)
    (tfa : Auth2fa) : Outcome h (h.onAuth2fa b env tfa) := by
  have hcheck := chat_checkFailure env h 1
  unfold Host.onAuth2fa
  split
  next h₁ heq =>
    rw [heq] at hcheck
    exact .refused hcheck
  next h₁ heq =>
    rw [heq] at hcheck
    split
    · have hrecord : Silent h₁ (h₁.recordCode env) := by
        have htaken : Silent h₁ { h₁.updateFailure true 1 with
            conn := { (h₁.updateFailure true 1).conn with require2fa := none } } :=
          (silent_updateFailure h₁ true 1).trans (.of_eq rfl rfl)
        exact (htaken.trans (silent_setConnAuditTwoFactor _ _)).trans (.of_eq rfl rfl)
      have hright := hcheck.trans (.of_silent hrecord)
      have ho := (logon_outcome b env (hf.of_chat hright) (hn.of_chat hright)
        (hright.authorized.trans hauth) h₁.conn.lr.myId h₁.conn.lr.myName).of_chat hright
      unfold Host.acceptCode
      have hdevice (h₂ : Host) (device : TrustedDevice) :
          Silent h₂ (h₂.addTrustedDevice env device) := .of_eq rfl rfl
      split
      next heq₂ =>
        rw [heq₂] at ho
        exact ho
      next heq₂ =>
        rw [heq₂] at ho
        split
        · cases ho with
          | refused hc => exact .refused (hc.trans (.of_silent (hdevice _ _)))
          | opened ho => exact .opened (ho.silent (hdevice _ _))
        · exact ho
    · exact .refused (hcheck.trans ((Chat.of_silent (silent_updateFailure _ false 1)).trans
        (chat_sendLoginError env _ _)))
    · exact .refused hcheck

/-- What a click on accept comes to. -/
theorem onAuthorize_outcome (hf : Forwarding h) (hn : Named h) (hauth : h.conn.authorized = false) :
    Outcome h (h.onAuthorize b env) := by
  have htaken : Silent h { h.setConnAuditPrimaryAuth .click with
      conn := { (h.setConnAuditPrimaryAuth .click).conn with require2fa := none } } :=
    (silent_setConnAuditPrimaryAuth h _).trans (.of_eq rfl rfl)
  have hc : Chat isLoginError h _ := .of_silent htaken
  exact (sendLogon_outcome b env (hf.of_chat hc) (hn.of_chat hc) (hc.authorized.trans hauth)).of_chat hc

end Logon

/-! ## Turns of the loop -/

/-- What a turn of the loop of `start` comes to, before the connection is authorized: the peer is sent
no login response; or it is sent one after all else, and the loop goes on only for the reply to a
probe. -/
inductive Turn (h h' : Host) (sent : List Effect) : Prop
  | refused : Forwarding h' → h'.conn.authorized = false →
    h'.conn.lastTestDelay = h.conn.lastTestDelay → (∀ e ∈ sent, isLoginError e) → Turn h h' sent
  | opened (errs : List Effect) : Forwarding h' → h'.conn.authorized = true →
    h'.conn.lastTestDelay = h.conn.lastTestDelay → (∀ e ∈ errs, isLoginError e) →
    sent = errs ++ [.loginResponse (.ok .portForward)] →
    (h'.isOpen = true → h'.conn.lastTestDelay.isSome) → Turn h h' sent

/-- What a turn sends to the peer. -/
def sentToPeer (h h' : Host) : List Effect := (h'.log.drop h.log.length).filter toPeer

theorem sentToPeer_eq {h h' : Host} {new : List Effect} (hlog : h'.log = h.log ++ new) :
    sentToPeer h h' = new.filter toPeer := by
  rw [sentToPeer, hlog, List.drop_left]

section Turns

variable {b : Build} {env : Env} {h h₁ h' : Host} {r : Host × Bool} {msg : Message}

/-- A handler's outcome is the outcome of its turn, if a connection that it opened leaves the loop
unless a probe is unanswered. -/
theorem Turn.of_outcome (ha : Asked h h₁) (ho : Outcome h₁ r) (hsame : SameButRunning r.1 h')
    (hlog : h'.log = r.1.log)
    (hopen : r.1.conn.authorized = true → h'.isOpen = true → h'.conn.lastTestDelay.isSome) :
    Turn h h' (sentToPeer h h') ∧ Named h' := by
  obtain ⟨new, hnew, hsaid⟩ := ha.log
  have hdelay : (view r.1).lastTestDelay = h.conn.lastTestDelay := by
    cases ho with
    | refused hc => exact (congrArg View.lastTestDelay hc.view).trans ha.lastTestDelay
    | opened ho => exact (congrArg View.lastTestDelay ho.view).trans ha.lastTestDelay
  have hdelay' : h'.conn.lastTestDelay = h.conn.lastTestDelay :=
    (hsame.get View.lastTestDelay fun _ _ => rfl).trans hdelay
  have hunion : (view h').union = (view h₁).union := by
    refine (hsame.get View.union fun _ _ => rfl).trans ?_
    cases ho with
    | refused hc => exact congrArg View.union hc.view
    | opened ho =>
      have hopened := congrArg View.union ho.view
      exact hopened
  refine ⟨?_, ?_⟩
  · cases ho with
    | refused hc =>
      have hall := ha.of_chat hc
      obtain ⟨new', hnew', herrs⟩ := hall.log
      have hforward := hall.forwarding
      refine .refused ⟨?_, ?_, ?_, ?_, ?_⟩ ?_ hdelay' ?_
      · exact (hsame.get View.fileTransfer fun _ _ => rfl).trans hforward.fileTransfer
      · exact (hsame.get View.viewCamera fun _ _ => rfl).trans hforward.viewCamera
      · exact (hsame.get View.terminal fun _ _ => rfl).trans hforward.terminal
      · exact ((hsame.get View.socket fun _ _ => rfl).trans hforward.socket).trans
          (hsame.get View.authorized fun _ _ => rfl).symm
      · intro hnow
        exact (hsame.get View.authedConnId fun _ _ => rfl).trans
          (hforward.type ((hsame.get View.authorized fun _ _ => rfl).symm.trans hnow))
      · exact (hsame.get View.authorized fun _ _ => rfl).trans hall.authorized
      · rw [sentToPeer_eq (hlog.trans hnew')]
        intro e he
        obtain ⟨hmem, hpeer⟩ := List.mem_filter.mp he
        exact herrs e hmem hpeer
    | opened ho =>
      obtain ⟨errs, hsent, herrs, more, hmore⟩ := ho.log
      have hauth : h'.conn.authorized = true :=
        (hsame.get View.authorized fun _ _ => rfl).trans (congrArg View.authorized ho.view)
      refine .opened (new.filter toPeer ++ errs) ⟨?_, ?_, ?_, ?_, fun _ => ?_⟩ hauth hdelay' ?_ ?_
        (hopen (congrArg View.authorized ho.view))
      · exact ((hsame.get View.fileTransfer fun _ _ => rfl).trans
          (congrArg View.fileTransfer ho.view)).trans ha.forwarding.fileTransfer
      · exact ((hsame.get View.viewCamera fun _ _ => rfl).trans
          (congrArg View.viewCamera ho.view)).trans ha.forwarding.viewCamera
      · exact ((hsame.get View.terminal fun _ _ => rfl).trans
          (congrArg View.terminal ho.view)).trans ha.forwarding.terminal
      · rw [hauth]
        exact (hsame.get View.socket fun _ _ => rfl).trans (congrArg View.socket ho.view)
      · exact (hsame.get View.authedConnId fun _ _ => rfl).trans (congrArg View.authedConnId ho.view)
      · intro e he
        obtain hold | hlate := List.mem_append.mp he
        · obtain ⟨hmem, hpeer⟩ := List.mem_filter.mp hold
          exact hsaid e hmem hpeer
        · exact herrs e hlate
      · have hall : h'.log = h.log ++ (new ++ more) := by rw [hlog, ← hmore, hnew, List.append_assoc]
        rw [sentToPeer_eq hall, List.filter_append]
        rw [← hmore, List.filter_append, List.append_assoc] at hsent
        rw [List.append_cancel_left hsent, List.append_assoc]
  · obtain ⟨pf, hpf⟩ := ha.named
    exact ⟨pf, hunion.trans hpf⟩

/-- A turn for a message: the loop goes on only if the handler kept the connection, and not for a port
forward that may run. -/
theorem step_message (hstep : step b h (.message env msg) = some h') :
    SameButRunning (h.onMessage b env msg).1 h' ∧ h'.log = (h.onMessage b env msg).1.log ∧
      (h'.isOpen = true → ¬ (h'.conn.portForwardSocket.isSome ∧ h'.conn.authorized ∧
        h'.conn.lastTestDelay.isNone)) ∧
      ((h.onMessage b env msg).1.isOpen = true → (h.onMessage b env msg).2 = true →
        ¬ (h'.conn.portForwardSocket.isSome ∧ h'.conn.authorized ∧ h'.conn.lastTestDelay.isNone) →
        h'.isOpen = true) := by
  unfold step at hstep
  split at hstep
  · cases hstep
  dsimp only at hstep
  split at hstep
  next heq =>
    cases hstep
    rw [heq]
    exact ⟨rfl, rfl, nofun, nofun⟩
  next heq =>
    rw [heq]
    split at hstep
    next hready =>
      cases hstep
      exact ⟨rfl, rfl, nofun, fun _ _ hnot => absurd hready hnot⟩
    next hready =>
      cases hstep
      exact ⟨rfl, rfl, fun _ => hready, fun hopen _ _ => hopen⟩

/-- A turn that a message gives an unauthorized connection, from the outcome of its handler. If it
leaves the loop once it is authorized, no probe is unanswered. -/
theorem turn_message (ha : Asked h h₁) (ho : Outcome h₁ (h.onMessage b env msg))
    (hrun : h.isOpen = true) (hstep : step b h (.message env msg) = some h') :
    Turn h h' (sentToPeer h h') ∧ Named h' ∧
      (h'.conn.authorized = true → h'.isOpen = false → h'.conn.lastTestDelay = none) := by
  obtain ⟨hview, hlog, hleaves, hstays⟩ := step_message hstep
  have hopened (hauth : (h.onMessage b env msg).1.conn.authorized = true) :=
    ho.opened_of_authorized ha.authorized hauth
  have hsocket (hauth : (h.onMessage b env msg).1.conn.authorized = true) :
      h'.conn.portForwardSocket.isSome = true :=
    (hview.get View.socket fun _ _ => rfl).trans (congrArg View.socket (hopened hauth).1.view)
  have hsame : h'.conn.authorized = (h.onMessage b env msg).1.conn.authorized :=
    hview.get View.authorized fun _ _ => rfl
  obtain ⟨hturn, hnamed⟩ := Turn.of_outcome ha ho hview hlog fun hauth hgo => by
    by_contra hnone
    exact hleaves hgo ⟨hsocket hauth, hsame.trans hauth, by simpa using hnone⟩
  refine ⟨hturn, hnamed, fun hnow hclosed => ?_⟩
  have hauth := hsame.symm.trans hnow
  have hstill : (h.onMessage b env msg).1.isOpen = true :=
    (congrArg View.running (hopened hauth).1.view).trans (ha.running.trans hrun)
  by_contra hsome
  have hgoes := hstays hstill (hopened hauth).2
    fun hready => hsome (Option.isNone_iff_eq_none.mp hready.2.2)
  exact Bool.false_ne_true (hclosed.symm.trans hgoes)

theorem Asked.self (hf : Forwarding h) (hn : Named h) (hauth : h.conn.authorized = false) :
    Asked h h := ⟨hf, hn, hauth, rfl, rfl, [], by simp, by simp⟩

/-- **A request for a port forward**, in the loop. -/
theorem turn_login {lr : LoginRequest} {pf : PortForward} (hpf : lr.union = some (.portForward pf))
    (hf : Forwarding h) (hauth : h.conn.authorized = false) (hrun : h.isOpen = true)
    (hstep : step b h (.message env (.loginRequest lr)) = some h') :
    Turn h h' (sentToPeer h h') ∧ Named h' ∧
      (h'.conn.authorized = true → h'.isOpen = false → h'.conn.lastTestDelay = none) := by
  obtain ⟨h₁, hasked, ho⟩ := onLoginRequest_outcome b env hpf hf hauth
  have hmsg : h.onMessage b env (.loginRequest lr) = h.onLoginRequest b env lr := by
    simp only [Host.onMessage, hauth, Bool.false_eq_true, if_false, Host.dispatch]
  exact turn_message hasked (hmsg ▸ ho) hrun hstep

/-- **A code**, in the loop. -/
theorem turn_auth2fa {tfa : Auth2fa} (hf : Forwarding h) (hn : Named h)
    (hauth : h.conn.authorized = false) (hrun : h.isOpen = true)
    (hstep : step b h (.message env (.auth2fa tfa)) = some h') :
    Turn h h' (sentToPeer h h') ∧ Named h' ∧
      (h'.conn.authorized = true → h'.isOpen = false → h'.conn.lastTestDelay = none) := by
  have hmsg : h.onMessage b env (.auth2fa tfa) = h.onAuth2fa b env tfa := by
    simp only [Host.onMessage, hauth, Bool.false_eq_true, if_false, Host.dispatch]
  exact turn_message (.self hf hn hauth) (hmsg ▸ onAuth2fa_outcome b env hf hn hauth tfa) hrun hstep

/-- **A click on accept**, in the loop: an opened connection leaves it. -/
theorem turn_authorize (hf : Forwarding h) (hn : Named h) (hauth : h.conn.authorized = false)
    (hstep : step b h (.authorize env) = some h') :
    Turn h h' (sentToPeer h h') ∧ Named h' ∧ (h'.conn.authorized = true → h'.isOpen = false) := by
  have ho := onAuthorize_outcome b env hf hn hauth
  obtain ⟨hview, hlog, hopen⟩ : SameButRunning (h.onAuthorize b env).1 h' ∧ h'.log = (h.onAuthorize b env).1.log ∧
      (h'.conn.portForwardSocket.isSome → h'.isOpen = false) := by
    unfold step at hstep
    split at hstep
    · cases hstep
    dsimp only at hstep
    split at hstep
    next heq =>
      cases hstep
      rw [heq]
      exact ⟨rfl, rfl, fun _ => rfl⟩
    next heq =>
      rw [heq]
      split at hstep
      · cases hstep
        exact ⟨rfl, rfl, fun _ => rfl⟩
      next hready =>
        cases hstep
        exact ⟨rfl, rfl, fun h => absurd h hready⟩
  have hclosed : (h.onAuthorize b env).1.conn.authorized = true → h'.isOpen = false := by
    intro hnow
    have hopened := (ho.opened_of_authorized hauth hnow).1
    exact hopen ((hview.get View.socket fun _ _ => rfl).trans (congrArg View.socket hopened.view))
  obtain ⟨hturn, hnamed⟩ := Turn.of_outcome (.self hf hn hauth) ho hview hlog
    fun hnow hrun => absurd (hclosed hnow) (by simp [hrun])
  exact ⟨hturn, hnamed, fun hnow => hclosed ((hview.get View.authorized fun _ _ => rfl).symm.trans hnow)⟩

/-- The port forward stays what it was, and nothing is said of a login. -/
structure Still (h h' : Host) : Prop where
  forwarding : Forwarding h'
  named : Named h → Named h'
  authorized : h'.conn.authorized = h.conn.authorized
  lastLogin : lastLogin h'.log = lastLogin h.log

theorem Still.of_view {t : Option ℕ} (hf : Forwarding h)
    (hview : view h' = { view h with lastTestDelay := t, running := h'.isOpen })
    (hlog : Connection.lastLogin h'.log = Connection.lastLogin h.log) : Still h h' where
  forwarding :=
    { fileTransfer := (congrArg View.fileTransfer hview).trans hf.fileTransfer
      viewCamera := (congrArg View.viewCamera hview).trans hf.viewCamera
      terminal := (congrArg View.terminal hview).trans hf.terminal
      socket := ((congrArg View.socket hview).trans hf.socket).trans (congrArg View.authorized hview).symm
      type := fun hnow => (congrArg View.authedConnId hview).trans
        (hf.type ((congrArg View.authorized hview).symm.trans hnow)) }
  named := fun ⟨pf, hpf⟩ => ⟨pf, (congrArg View.union hview).trans hpf⟩
  authorized := congrArg View.authorized hview
  lastLogin := hlog

/-- **The reply to a probe**, in the loop: nothing is sent, and a port forward that is authorized
leaves the loop. -/
theorem turn_reply (hopen : h.isOpen = true) (hf : Forwarding h)
    (hstep : step b h (.message env (.testDelay false)) = some h') :
    sentToPeer h h' = [] ∧ Still h h' ∧ h'.conn.lastTestDelay = none ∧ h'.isOpen = !h.conn.authorized := by
  -- it is no message of a session, so that its scope is not looked at
  have hmsg : h.onMessage b env (.testDelay false) = (h.onTestDelay env false, true) := by
    simp [Host.onMessage, Host.authorizedScopeViolation, Host.isConnectionHousekeepingMessage, Host.dispatch]
  obtain ⟨hview, hlog⟩ : view (h.onTestDelay env false) = { view h with lastTestDelay := none } ∧
      (h.onTestDelay env false).log = h.log := by
    unfold Host.onTestDelay
    split
    · contradiction
    · split
      · exact ⟨rfl, rfl⟩
      next hnone => exact ⟨by simp [view, hnone], rfl⟩
  obtain ⟨hview', hlog', hleaves, hstays⟩ := step_message hstep
  rw [hmsg] at hview' hlog' hstays
  have hsame : view h' = { view h with lastTestDelay := none, running := h'.isOpen } := by
    rw [show view h' = _ from hview', hview]
  have hstill : Still h h' := .of_view hf hsame (by rw [hlog', hlog])
  have hsocket : h'.conn.portForwardSocket.isSome = h.conn.authorized :=
    (congrArg View.socket hsame).trans hf.socket
  have hnone : h'.conn.lastTestDelay = none := congrArg View.lastTestDelay hsame
  refine ⟨?_, hstill, hnone, ?_⟩
  · have hall : h'.log = h.log ++ [] := by rw [hlog', hlog, List.append_nil]
    rw [sentToPeer_eq hall]
    rfl
  · have hrun : (h.onTestDelay env false).isOpen = true := by
      unfold Host.onTestDelay
      split
      · contradiction
      · split <;> exact hopen
    rw [hsocket, hstill.authorized, hnone] at hleaves hstays
    cases hnow : h.conn.authorized with
    | true =>
      by_contra hgo
      exact hleaves (by simpa using hgo) ⟨hnow, hnow, rfl⟩
    | false => exact hstays hrun rfl fun hready => by simp [hnow] at hready

/-- **The probe timer**, in the loop. -/
theorem turn_timer (hf : Forwarding h) (hstep : step b h (.testDelayTimer env) = some h') :
    Still h h' ∧ h'.isOpen = h.isOpen ∧ (sentToPeer h h' = [] ∧ h'.conn.lastTestDelay = h.conn.lastTestDelay ∨
        sentToPeer h h' = [.testDelay] ∧ h.conn.lastTestDelay = none ∧
          h'.conn.lastTestDelay.isSome ∧ h.conn.authorized = false) := by
  unfold step at hstep
  split at hstep
  · cases hstep
  cases hstep
  unfold Host.onTestDelayTimer
  split
  next hprobe =>
    refine ⟨.of_view hf rfl (lastLogin_append rfl), rfl, .inr ⟨?_, ?_⟩⟩
    · rw [sentToPeer_eq rfl]
      rfl
    · obtain ⟨hnone, hnot⟩ := hprobe
      refine ⟨Option.isNone_iff_eq_none.mp hnone, rfl, ?_⟩
      by_contra hauth
      rw [Bool.not_eq_false] at hauth
      exact hnot ⟨hf.socket.trans hauth, hauth⟩
  · refine ⟨.of_view hf rfl rfl, rfl, .inl ⟨?_, rfl⟩⟩
    rw [sentToPeer_eq (List.append_nil _).symm]
    rfl

/-- **A login request or a code that comes late**, in the loop of an authorized connection: nothing
is sent or changed, unless a message out of scope is to close the connection. -/
theorem turn_late (hopen : h.isOpen = true) (hf : Forwarding h)
    (hauth : h.conn.authorized = true) (hwait : h.conn.lastTestDelay.isSome)
    (hmsg : (∃ lr, msg = .loginRequest lr) ∨ (∃ tfa, msg = .auth2fa tfa) ∧
        allowOption2bool (env.option "allow-scope-violation-close") = false)
    (hstep : step b h (.message env msg) = some h') : h' = h := by
  have hsame : h.onMessage b env msg = (h, true) := by
    obtain ⟨lr, rfl⟩ | ⟨⟨tfa, rfl⟩, hoption⟩ := hmsg
    · simp [Host.onMessage, hauth]
    · simp [Host.onMessage, hauth, Host.authorizedScopeViolation,
        Host.isConnectionHousekeepingMessage, hf.type hauth, Host.handleAuthorizedScopeViolation,
        hoption]
  unfold step at hstep
  rw [if_neg (by simp [hopen])] at hstep
  simp only [hsame] at hstep
  rw [if_neg (by simp [Option.isNone_iff_eq_none, Option.isSome_iff_ne_none.mp hwait])] at hstep
  exact (Option.some.inj hstep).symm

/-- **A click that comes late**, to an authorized connection: it leaves the loop. -/
theorem turn_click_late (hf : Forwarding h) (hauth : h.conn.authorized = true)
    (hstep : step b h (.authorize env) = some h') :
    sentToPeer h h' = [] ∧ h'.isOpen = false ∧ h'.conn.portForwardSocket.isSome := by
  have hsame : h.onAuthorize b env = ({ h.setConnAuditPrimaryAuth .click with
      conn := { (h.setConnAuditPrimaryAuth .click).conn with require2fa := none } }, true) := by
    unfold Host.onAuthorize Host.sendLogonResponseAndKeepAlive
    exact if_pos hauth
  have hsocket : h.conn.portForwardSocket.isSome := hf.socket.trans hauth
  unfold step at hstep
  split at hstep
  · cases hstep
  simp only [hsame] at hstep
  rw [if_pos (show (h.setConnAuditPrimaryAuth .click).conn.portForwardSocket.isSome from hsocket)]
    at hstep
  cases hstep
  refine ⟨?_, rfl, hsocket⟩
  rw [sentToPeer_eq rfl]
  rfl

end Turns

end RustDesk.PortForward
