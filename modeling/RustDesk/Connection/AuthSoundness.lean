import RustDesk.Connection.LoginSpec

/-!
# Who gets authorized

References: `src/server/connection.rs` (`on_message`, `send_logon_response_and_keep_alive`).

Four arms of `on_message` end in `send_logon_response_and_keep_alive`. Three of them have checked a
password or a switch of sides before. The arm of `Auth2fa` has checked a code only, and nothing in the
state says that a password came first: `code_alone_authorizes`. `authorization_sound` says that this
is all that is wrong. Its invariant is `Sound`.
-/

namespace RustDesk.Connection

/-! ## Factors -/

/-- A password was accepted: by `validate_password`, or that of a recent session. -/
def PasswordAccepted (log : List Effect) : Prop :=
  .primaryAuth .temporaryPassword ∈ log ∨ .primaryAuth .permanentPassword ∈ log

/-- The pending uuid of a switch of sides was presented. -/
def SwitchSidesAccepted (log : List Effect) : Prop := .primaryAuth .switchSides ∈ log

/-- A second factor was accepted: a code, a trusted device, or a recent session that had one. -/
def SecondFactorAccepted (log : List Effect) : Prop :=
  .twoFactor .totp ∈ log ∨ .twoFactor .trustedDevice ∈ log

def FirstFactorAccepted (log : List Effect) : Prop :=
  PasswordAccepted log ∨ SwitchSidesAccepted log

section Mono

variable {log log' : List Effect}

theorem FirstFactorAccepted.mono (hlog : log ⊆ log') (h : FirstFactorAccepted log) : FirstFactorAccepted log' :=
  h.imp (Or.imp (@hlog _) (@hlog _)) (@hlog _)

theorem SecondFactorAccepted.mono (hlog : log ⊆ log') (h : SecondFactorAccepted log) : SecondFactorAccepted log' :=
  h.imp (@hlog _) (@hlog _)

end Mono

/-- The fields of a login that its authorization depends on. -/
structure Standing where
  authorized : Bool
  require2fa : Option Totp
  fromSwitch : Bool
  connAuditPrimaryAuth : ConnAuditPrimaryAuth

def Conn.standing (c : Conn) : Standing :=
  ⟨c.authorized, c.require2fa, c.fromSwitch, c.connAuditPrimaryAuth⟩

theorem standing_eq_of_view {c c' : Conn} (hview : c'.view = c.view) : c'.standing = c.standing :=
  congrArg (fun v : LoginView =>
    (⟨v.authorized, v.require2fa, v.fromSwitch, v.connAuditPrimaryAuth⟩ : Standing)) hview

/-- **The invariant.** An authorized connection has shown what it has to; a connection that 2FA was
configured for is disarmed by a second factor only; and the audit field knows of a first factor. -/
structure Sound (tfa : Prop) (h : Host) : Prop where
  first : h.conn.standing.authorized = true → FirstFactorAccepted h.log
  second : tfa → h.conn.standing.authorized = true →
    h.conn.standing.fromSwitch = true ∨ SecondFactorAccepted h.log
  switched : h.conn.standing.fromSwitch = true → SwitchSidesAccepted h.log
  disarmed : tfa → h.conn.standing.require2fa = none → SecondFactorAccepted h.log
  audited : h.conn.standing.connAuditPrimaryAuth ≠ .none → FirstFactorAccepted h.log

namespace Sound

variable {tfa : Prop} {h h' : Host}

section

variable (hs : Sound tfa h)
include hs

theorem mono (hst : h'.conn.standing = h.conn.standing) (hlog : h.log ⊆ h'.log) : Sound tfa h' where
  first ha := (hs.first (hst ▸ ha)).mono hlog
  second htfa ha := (hs.second htfa (hst ▸ ha)).imp (fun hsw => hst ▸ hsw) (.mono hlog)
  switched hsw := hlog (hs.switched (hst ▸ hsw))
  disarmed htfa hr := (hs.disarmed htfa (hst ▸ hr)).mono hlog
  audited ha := (hs.audited (hst ▸ ha)).mono hlog

theorem quiet (hq : Quiet h h') : Sound tfa h' := hs.mono (standing_eq_of_view hq.view) hq.log

theorem emit (e : Effect) : Sound tfa (h.emit e) := hs.mono rfl (List.subset_append_left _ _)

/-- Recording a first factor that the user did not click. -/
theorem setConnAuditPrimaryAuth {m : ConnAuditPrimaryAuth}
    (hm : m = .temporaryPassword ∨ m = .permanentPassword ∨ m = .switchSides) :
    Sound tfa (h.setConnAuditPrimaryAuth m) ∧ FirstFactorAccepted (h.setConnAuditPrimaryAuth m).log := by
  have hlog : h.log ⊆ (h.setConnAuditPrimaryAuth m).log := List.subset_append_left _ _
  have hmem : Effect.primaryAuth m ∈ (h.setConnAuditPrimaryAuth m).log := by
    simp [Host.setConnAuditPrimaryAuth]
  have hfirst : FirstFactorAccepted (h.setConnAuditPrimaryAuth m).log := by
    rcases hm with rfl | rfl | rfl
    · exact .inl (.inl hmem)
    · exact .inl (.inr hmem)
    · exact .inr hmem
  refine ⟨⟨fun _ => hfirst, fun htfa ha => ?_, fun hsw => ?_, fun htfa hr => ?_, fun _ => hfirst⟩, hfirst⟩
  · exact (hs.second htfa ha).imp_right (.mono hlog)
  · exact hlog (hs.switched hsw)
  · exact (hs.disarmed htfa hr).mono hlog

/-- A switch of sides, as its arm records it. -/
theorem switchSides (hst : h'.conn.standing = { h.conn.standing with
      fromSwitch := true, connAuditPrimaryAuth := .switchSides })
    (hlog : h.log ⊆ h'.log) (hswitch : SwitchSidesAccepted h'.log) : Sound tfa h' where
  first _ := .inr hswitch
  second _ _ := .inl (by rw [hst])
  switched _ := hswitch
  disarmed htfa hr := (hs.disarmed htfa (by simpa [hst] using hr)).mono hlog
  audited _ := .inr hswitch

/-- Recording a second factor, and asking for none any more. -/
theorem disarm (hst : h'.conn.standing = { h.conn.standing with require2fa := none })
    (hlog : h.log ⊆ h'.log) (hfactor : SecondFactorAccepted h'.log) : Sound tfa h' where
  first ha := (hs.first (by simpa [hst] using ha)).mono hlog
  second _ _ := .inr hfactor
  switched hsw := hlog (hs.switched (by simpa [hst] using hsw))
  disarmed _ _ := hfactor
  audited ha := (hs.audited (by simpa [hst] using ha)).mono hlog

theorem of_check {r : Host × Bool} (hr : PasswordCheck h r) :
    Sound tfa r.1 ∧ (r.2 = true → FirstFactorAccepted r.1.log) := by
  cases hr with
  | refused hq => exact ⟨hs.quiet hq, nofun⟩
  | accepted hm hq hq' =>
    have hset := (hs.quiet hq).setConnAuditPrimaryAuth (hm.imp_right .inl)
    exact ⟨hset.1.quiet hq', fun _ => hset.2.mono hq'.log⟩

/-- A logon after a first factor keeps the invariant. -/
theorem of_logon {r : Host × Bool} (hfirst : FirstFactorAccepted h.log)
    (hr : LogonOutcome h r) : Sound tfa r.1 := by
  cases hr with
  | already _ hq => exact hs.quiet hq
  | asked _ _ hq => exact hs.quiet hq
  | @ended h' address hview hlog =>
    have hst : h'.conn.standing = h.conn.standing :=
      standing_eq_of_view (c := { h.conn with portForwardAddress := address }) hview
    exact hs.mono hst hlog
  | @opened h' hfactor hview hlog _ =>
    have hsw : h'.conn.standing.fromSwitch = h.conn.standing.fromSwitch := by
      exact (congrArg LoginView.fromSwitch hview).trans (LoginView.opened_fromSwitch _)
    have hrequire : h'.conn.standing.require2fa = h.conn.standing.require2fa := by
      exact (congrArg LoginView.require2fa hview).trans (LoginView.opened_require2fa _)
    refine ⟨fun _ => hfirst.mono hlog, fun htfa _ => ?_, fun hsw' => ?_, fun htfa hn => ?_,
      fun _ => hfirst.mono hlog⟩
    · rw [hsw]
      rcases hfactor with hn | hsw' | htotp
      · exact .inr ((hs.disarmed htfa hn).mono hlog)
      · exact .inl hsw'
      · exact .inr (.inl htotp)
    · exact hlog (hs.switched (hsw ▸ hsw'))
    · exact (hs.disarmed htfa (hrequire ▸ hn)).mono hlog

end

end Sound

/-! ## The arms of `on_message` -/

section Arms

variable {tfa : Prop} (b : Build) (env : Env) {h : Host}

section

variable (hs : Sound tfa h)
include hs

theorem sound_logon (hfirst : FirstFactorAccepted h.log) (peerId name : String) :
    Sound tfa (h.logon b env peerId name).1 := by
  have hlogon := hs.of_logon hfirst (logon_outcome b env h)
  unfold Host.logon
  split
  next heq => simpa [heq] using hlogon
  next heq => exact Sound.emit (by simpa [heq] using hlogon) _

section

variable (lr : LoginRequest)
include lr

theorem sound_awaitClick : Sound tfa (h.awaitClick b env lr).1 := by
  have hprep := hs.quiet (quiet_prepareTerminalLogin b env h)
  unfold Host.awaitClick
  split
  · split
    next heq => simpa [heq] using hprep
    next heq => exact Sound.emit (by simpa [heq] using hprep) _
  · exact hs.emit _

theorem sound_tryPassword (errMsg : String) : Sound tfa (h.tryPassword b env lr errMsg).1 := by
  have hfail := hs.quiet (quiet_checkFailure env h 0)
  unfold Host.tryPassword
  split
  next h₁ heq => simpa [heq] using hfail
  next h₁ heq =>
    have hs₁ : Sound tfa h₁ := by simpa [heq] using hfail
    obtain ⟨hcheck, hfirst⟩ := hs₁.of_check (validatePassword_check b env h₁ (env.allowLogonScreenPassword b))
    split
    next heq₂ =>
      rw [heq₂] at hcheck
      have hfailed := hcheck.emit (.updateFailure false 0)
      split
      · exact (hfailed.quiet (quiet_sendLoginError env _ _)).emit _
      · exact hfailed.quiet (quiet_sendLoginError env _ _)
    next heq₂ =>
      rw [heq₂] at hcheck hfirst
      have hok := hcheck.emit (.updateFailure true 0)
      split
      · exact sound_logon b env hok ((hfirst rfl).mono (List.subset_append_left _ _)) _ _
      · exact hok.quiet (quiet_sendLoginError env _ _)

theorem sound_approve (errMsg : String) : Sound tfa (h.approve b env lr errMsg).1 := by
  have hclick := sound_awaitClick b env hs lr
  unfold Host.approve
  split
  · split
    next heq => simpa [heq] using hclick
    next heq =>
      rw [heq] at hclick
      split
      · exact hclick.quiet (quiet_sendLoginError env _ _)
      · exact hclick
  · obtain ⟨hrecent, hfirst⟩ := hs.of_check (isRecentSession_check b env h)
    split
    next heq =>
      rw [heq] at hrecent hfirst
      split
      · exact sound_logon b env hrecent (hfirst rfl) _ _
      · exact hrecent.quiet (quiet_sendLoginError env _ _)
    next h₁ heq =>
      rw [heq] at hrecent
      split
      · split
        · have hclick₁ := sound_awaitClick b env hrecent lr
          split
          next heq₁ => simpa [heq₁] using hclick₁
          next heq₁ => simpa [heq₁] using hclick₁
        · exact hrecent.quiet (quiet_sendLoginError env _ _)
      · exact sound_tryPassword b env hrecent lr errMsg

theorem sound_startDesktop : Sound tfa (h.startDesktop b env lr).1 := by
  have hauth := hs.quiet (quiet_checkHeadlessAuth b env h lr)
  unfold Host.startDesktop
  split
  next heq =>
    rw [heq] at hauth
    exact hauth
  next h₁ heq =>
    rw [heq] at hauth
    dsimp only
    split
    · split
      · have hfail := hauth.quiet (quiet_checkFailure env h₁ 0)
        split
        next heq₁ =>
          rw [heq₁] at hfail
          exact hfail
        next heq₁ =>
          rw [heq₁] at hfail
          exact (hfail.emit _).quiet (quiet_sendLoginError env _ _)
      · exact hauth.quiet (quiet_sendLoginError env _ _)
    · exact sound_approve b env hauth lr _

theorem sound_handleLoginRequestWithoutValidation : Sound tfa (h.handleLoginRequestWithoutValidation env lr) := by
  unfold Host.handleLoginRequestWithoutValidation
  dsimp only
  split
  · refine hs.disarm rfl (List.subset_append_left _ _) (.inr ?_)
    simp [Host.setConnAuditTwoFactor]
  · exact hs.mono rfl fun _ => id

theorem sound_openScope : (∃ h', h.openScope b env lr = .error h' ∧ Sound tfa h') ∨
      ∃ h', h.openScope b env lr = .ok h' ∧ Sound tfa h' := by
  unfold Host.openScope
  split
  · split
    · exact .inl ⟨_, rfl, hs.quiet (quiet_sendLoginError env _ _)⟩
    · exact .inr ⟨_, rfl, hs.mono rfl fun _ => id⟩
  · split
    · exact .inl ⟨_, rfl, hs.quiet (quiet_sendLoginError env _ _)⟩
    · exact .inr ⟨_, rfl, hs.mono rfl fun _ => id⟩
  · split
    · exact .inl ⟨_, rfl, hs.quiet (quiet_sendLoginError env _ _)⟩
    · split
      · exact .inl ⟨_, rfl, hs.quiet (quiet_sendLoginError env _ _)⟩
      · exact .inr ⟨_, rfl, hs.mono rfl fun _ => id⟩
  · split
    · exact .inl ⟨_, rfl, hs.quiet (quiet_sendLoginError env _ _)⟩
    · exact .inr ⟨_, rfl, hs.mono rfl fun _ => id⟩
  · split
    · exact .inl ⟨_, rfl, hs.quiet (quiet_sendLoginError env _ _)⟩
    · exact .inr ⟨_, rfl, hs⟩

theorem sound_onLoginRequest : Sound tfa (h.onLoginRequest b env lr).1 := by
  have hs₁ := sound_handleLoginRequestWithoutValidation env hs lr
  unfold Host.onLoginRequest
  dsimp only
  split
  · exact hs₁
  · have hs₂ : Sound tfa (h.handleLoginRequestWithoutValidation env lr).resetSessionScopeForLogin :=
      hs₁.mono rfl fun _ => id
    rcases sound_openScope b env hs₂ lr with ⟨h₃, heq, hs₃⟩ | ⟨h₃, heq, hs₃⟩
    · rw [heq]
      exact hs₃
    · rw [heq]
      dsimp only
      split
      · exact hs₃.quiet (quiet_sendLoginError env _ _)
      · split
        · exact hs₃.quiet (quiet_sendLoginError env _ _)
        · apply sound_startDesktop
          unfold Host.startCmIpcForLogin
          split
          · exact hs₃.quiet (quiet_tryStartCmIpc _)
          · exact hs₃

end

/-- A right code keeps the invariant if it comes after a first factor. -/
theorem sound_acceptCode (hfirst : FirstFactorAccepted h.log) (tfa' : Auth2fa) :
    Sound tfa (h.acceptCode b env tfa').1 := by
  have hlog : h.log ⊆ (h.recordCode env).log := fun _ he => List.mem_append_left _ (List.mem_append_left _ he)
  have hs₁ : Sound tfa (h.recordCode env) :=
    hs.disarm rfl hlog (.inl (List.mem_append_right _ (List.mem_singleton_self _)))
  have hlogon := sound_logon b env hs₁ (hfirst.mono hlog) h.conn.lr.myId
    h.conn.lr.myName
  unfold Host.acceptCode
  split
  next heq =>
    rw [heq] at hlogon
    exact hlogon
  next heq =>
    rw [heq] at hlogon
    split
    · exact hlogon.mono rfl fun _ => id
    · exact hlogon

end

end Arms

/-! ## Runs -/

/-- Whenever `Auth2fa` is handled with a right code, a first factor was recorded before. -/
def CodeComesSecond (h : Host) : Event → Prop
  | .message env (.auth2fa tfa) =>
    env.checkFailure 1 = none →
      h.conn.require2fa.bind (env.checkCurrent · tfa.code) = some true →
      h.conn.connAuditPrimaryAuth ≠ .none
  | _ => True

section Runs

variable {tfa : Prop} (b : Build) (env : Env) {h h' : Host}

section

variable (hs : Sound tfa h)
include hs

theorem sound_onAuth2fa {tfa' : Auth2fa} (hok : CodeComesSecond h (.message env (.auth2fa tfa'))) :
    Sound tfa (h.onAuth2fa b env tfa').1 := by
  unfold Host.onAuth2fa Host.checkFailure
  cases hfail : env.checkFailure 1 with
  | some err => exact hs.quiet (quiet_sendLoginError env h err)
  | none =>
    dsimp only
    split
    next hcode => exact sound_acceptCode b env hs (hs.audited (hok hfail hcode)) tfa'
    · exact (hs.emit _).quiet (quiet_sendLoginError env _ _)
    · exact hs

theorem sound_onSwitchSidesResponse (s : SwitchSidesResponse) : Sound tfa (h.onSwitchSidesResponse b env s).1 := by
  unfold Host.onSwitchSidesResponse
  split
  · exact hs
  next lr _ =>
    have hs₁ : Sound tfa ((h.handleLoginRequestWithoutValidation env lr).takeSwitchSidesUuid env lr.myId).1 :=
      (sound_handleLoginRequestWithoutValidation env hs lr).mono rfl fun _ => id
    dsimp only
    split
    · have hswitch : SwitchSidesAccepted (((h.handleLoginRequestWithoutValidation env
          lr).takeSwitchSidesUuid env lr.myId).1.recordSwitch).log :=
        List.mem_append_right _ (List.mem_singleton_self _)
      have hs₂ := hs₁.switchSides rfl (List.subset_append_left _ _) hswitch
      have hlogon := sound_logon b env hs₂ (.inr hswitch) lr.myId lr.myName
      split
      next heq =>
        rw [heq] at hlogon
        exact hlogon
      next heq =>
        rw [heq] at hlogon
        exact hlogon.quiet (quiet_tryStartCmIpc _)
    · exact hs₁

theorem sound_dispatch {msg : Message}
    (hok : CodeComesSecond h (.message env msg)) : Sound tfa (h.dispatch b env msg).1 := by
  cases msg with
  | closeReason _ => exact hs
  | loginRequest lr => exact sound_onLoginRequest b env hs lr
  | auth2fa tfa' => exact sound_onAuth2fa b env hs hok
  | testDelay fromClient => exact hs.quiet (quiet_onTestDelay env h fromClient)
  | switchSidesResponse s => exact sound_onSwitchSidesResponse b env hs s
  | session family =>
    unfold Host.dispatch
    dsimp only
    split <;> exact hs

theorem sound_onMessage {msg : Message}
    (hok : CodeComesSecond h (.message env msg)) : Sound tfa (h.onMessage b env msg).1 := by
  rcases onMessage_cases b env (h := h) msg with ⟨_, heq⟩ | heq | ⟨heq, -⟩ <;> rw [heq]
  · exact hs
  · exact hs.quiet (quiet_handleAuthorizedScopeViolation env h)
  · exact sound_dispatch b env hs hok

/-- **Step lemma.** A turn of the loop keeps the invariant, unless it takes a code first or the user
clicks. -/
theorem sound_step {e : Event} (hclick : ∀ env, e ≠ .authorize env)
    (hok : CodeComesSecond h e) (hstep : step b h e = some h') : Sound tfa h' := by
  obtain ⟨-, r, hr, hhandler⟩ := step_cases b hstep
  have hsound : Sound tfa r.1 := by
    rcases hhandler with ⟨env, msg, rfl, rfl⟩ | ⟨env, rfl, -⟩ | ⟨env, rfl, rfl⟩
    · exact sound_onMessage b env hs hok
    · exact absurd rfl (hclick env)
    · exact hs.quiet (quiet_onTestDelayTimer env h)
  rcases hr with rfl | ⟨rfl, -⟩
  · exact hsound.quiet (quiet_close _)
  · exact hsound

end

theorem sound_of_fresh (hfresh : h.Fresh) : Sound (h.conn.require2fa.isSome = true) h := by
  obtain ⟨⟨id, hash, require2fa, permissions, controlPermissions, headless, hconn⟩, -⟩ := hfresh
  rw [Conn.start] at hconn
  refine ⟨?_, fun _ => ?_, ?_, fun htfa hn => ?_, ?_⟩
  · simp [Conn.standing, hconn]
  · simp [Conn.standing, hconn]
  · simp [Conn.standing, hconn]
  · simp [Conn.standing] at hn
    simp [hn] at htfa
  · simp [Conn.standing, hconn]

/-- **Who gets authorized.** Without a click of the user, and if no code is taken first, a connection
is authorized only after a password or a switch of sides was accepted. If 2FA was configured and
sides were not switched, a second factor was accepted too. -/
theorem authorization_sound {as : List Event} (hfresh : h.Fresh)
    (hrun : Run (Only CodeComesSecond (Steps (step b))) h as h')
    (hclick : ∀ env, Event.authorize env ∉ as) (hauth : h'.conn.authorized = true) :
    FirstFactorAccepted h'.log ∧
      (h.conn.require2fa.isSome = true →
        h'.conn.fromSwitch = true ∧ SwitchSidesAccepted h'.log ∨ SecondFactorAccepted h'.log) := by
  have hclick' : ∀ e ∈ as, ∀ env, e ≠ .authorize env := fun e he env heq => hclick env (heq ▸ he)
  have hrun' := hrun.only hclick'
  have hsound : Sound (h.conn.require2fa.isSome = true) h' :=
    hrun'.invariant (fun _ _ _ hs hstep => sound_step b hs hstep.1 hstep.2.1 hstep.2.2)
      (sound_of_fresh hfresh)
  refine ⟨hsound.first hauth, fun htfa => ?_⟩
  exact (hsound.second htfa hauth).imp_left fun hsw => ⟨hsw, hsound.switched hsw⟩

end Runs

/-! ## Samples -/

/-- SHA-256 on what the sample below hashes: its password with the salt, and the digest of that with
the challenge. -/
def sampleSha256 (bytes : List UInt8) : List UInt8 :=
  let h1 := [88, 238, 153, 171, 59, 128, 150, 137, 153, 137, 98, 223, 54, 153, 120, 155, 107, 155, 189,
    230, 96, 128, 156, 177, 87, 17, 153, 233, 55, 107, 66, 100]
  if bytes = "abc123salt".toUTF8.data.toList then h1
  else if bytes = h1 ++ "challenge".toUTF8.data.toList then
    [160, 1, 89, 148, 254, 185, 5, 148, 94, 194, 65, 223, 187, 47, 145, 94, 196, 84, 43, 43, 133, 122,
    243, 149, 50, 194, 6, 220, 10, 151, 54, 213]
  else []

/-- A login with the temporary password of the host. -/
def samplePassword : Event :=
  .message plainEnv (.loginRequest { LoginRequest.default with
    username := "987654321", myId := "123456789", myName := "peer"
    password := sampleSha256 (sampleSha256 "abc123salt".toUTF8.data.toList ++
      "challenge".toUTF8.data.toList) })

/-- A right code. -/
def sampleCode : Event := .message plainEnv (.auth2fa ⟨"123456", []⟩)

/-- A password and then a code authorize, by both factors. -/
theorem authorization_sound_password_then_code :
    ∃ h' : Host, Run (Only CodeComesSecond (Steps (step (linuxBuild sampleSha256))))
        (plainHost (some [1])) [samplePassword, sampleCode] h' ∧
      h'.conn.authorized = true ∧ FirstFactorAccepted h'.log ∧
      (h'.conn.fromSwitch = true ∧ SwitchSidesAccepted h'.log ∨ SecondFactorAccepted h'.log) := by
  obtain ⟨h₁, hpassword, h₂, hcode, haudited, hauth⟩ : ∃ h₁,
      step (linuxBuild sampleSha256) (plainHost (some [1])) samplePassword = some h₁ ∧
      ∃ h₂, step (linuxBuild sampleSha256) h₁ sampleCode = some h₂ ∧
        h₁.conn.connAuditPrimaryAuth ≠ .none ∧ h₂.conn.authorized = true :=
    ⟨_, rfl, _, rfl, by decide, by decide⟩
  have hsecond : CodeComesSecond h₁ sampleCode := fun _ _ => haudited
  have hrun : Run (Only CodeComesSecond (Steps (step (linuxBuild sampleSha256))))
      (plainHost (some [1])) [samplePassword, sampleCode] h₂ :=
    .cons ⟨trivial, hpassword⟩ (.cons ⟨hsecond, hcode⟩ (.nil _))
  have hclick : ∀ env, Event.authorize env ∉ [samplePassword, sampleCode] := by
    intro env hmem
    simp [samplePassword, sampleCode] at hmem
  have hsound := authorization_sound _ (plainHost_fresh _) hrun hclick hauth
  exact ⟨h₂, hrun, hauth, hsound.1, hsound.2 rfl⟩

/-- A code alone authorizes: the first message of the peer is a right code, and that is all. -/
theorem code_alone_authorizes :
    ∃ h' : Host, (plainHost (some [1])).Fresh ∧
      Run (Steps (step (linuxBuild sampleSha256))) (plainHost (some [1])) [sampleCode] h' ∧
      h'.conn.authorized = true ∧ ¬ FirstFactorAccepted h'.log := by
  refine ⟨_, plainHost_fresh _, .cons rfl (.nil _), by decide, ?_⟩
  unfold FirstFactorAccepted PasswordAccepted SwitchSidesAccepted
  decide

end RustDesk.Connection
