import RustDesk.Api.PasswordReset

/-!
# What a reset code does in a run

References: `rustdesk-api/service/password_reset.go` (`SendCode`, `ResetWithCode`).

The invariant says of each code in the cache that it was sent, to whom and when, that it is the latest one or
the latest one is still to be stored, and that after a success only the call that has to mark it stands before
its end.
-/

namespace RustDesk.Api

theorem sent_unique {log : List ResetFact} (h : CodesUsedOnce log) {number : ℕ} {email email' : String}
    {userId userId' sentAt sentAt' : ℕ} (hsent : .sent number email userId sentAt ∈ log)
    (hsent' : .sent number email' userId' sentAt' ∈ log) : email = email' := by
  induction log with
  | nil => exact absurd hsent List.not_mem_nil
  | cons fact log ih =>
    obtain ⟨hfollows, hlog⟩ := h
    rcases List.mem_cons.mp hsent with rfl | hold <;> rcases List.mem_cons.mp hsent' with heq | hold'
    · exact (ResetFact.sent.inj heq).2.1.symm
    · exact absurd (hfollows _ hold') (Nat.lt_irrefl _)
    · subst heq
      exact absurd (hfollows _ hold) (Nat.lt_irrefl _)
    · exact ih hlog hold hold'

/-- A code lets one call succeed at most. -/
theorem CodesUsedOnce.count_succeeded {log : List ResetFact} (h : CodesUsedOnce log) (number : ℕ) :
    log.count (.succeeded number) ≤ 1 := by
  induction log with
  | nil => exact Nat.zero_le _
  | cons fact log ih =>
    obtain ⟨hfollows, hlog⟩ := h
    by_cases hfact : fact = .succeeded number
    · subst hfact
      have hnone := List.count_eq_zero_of_not_mem hfollows.2
      rw [List.count_cons_self]
      omega
    · rw [List.count_cons_of_ne hfact]
      exact ih hlog

namespace ResetPhase

variable {phase : ResetPhase} {shared shared' : ResetShared} {number : ℕ}

/-- No other call may have a code that was mailed and is not stored, or that changed the password and has not
succeeded. -/
def Owns (number : ℕ) : ResetPhase → Prop
  | .sendMailed _ _ number' _ => number' = number
  | .resetChanged _ _ _ number' => number' = number
  | _ => False

/-- A call has a code to store or to mark. -/
def Has (number : ℕ) : ResetPhase → Prop
  | .sendMailed _ _ number' _ => number' = number
  | .resetChanged _ _ _ number' => number' = number
  | .resetFlushed _ _ number' => number' = number
  | _ => False

theorem Owns.has (h : phase.Owns number) : phase.Has number := by
  cases phase with
  | sendMailed => exact h
  | resetChanged => exact h
  | _ => exact h.elim

theorem Mailed.has {email : String} (h : phase.Mailed email number) : phase.Has number := by
  cases phase with
  | sendMailed => exact h.2
  | _ => exact h.elim

theorem Flushed.has {email : String} (h : phase.Flushed email number) : phase.Has number := by
  cases phase with
  | resetFlushed => exact h.2
  | _ => exact h.elim

/-- What is known of a call in a phase. -/
def Sound (shared : ResetShared) : ResetPhase → Prop
  | .sendMailed email state number sentAt =>
    state.used = false ∧ .sent number email state.userId sentAt ∈ shared.log ∧
      .succeeded number ∉ shared.log ∧
      ∀ email v, shared.codes email = some v → v.state.used = false → v.number ≠ number
  | .resetRead _ _ user state _ => state.userId = user.1 ∧ state.used = false
  | .resetChanged email _ _ number =>
    (∃ userId now, .changed number email userId now ∈ shared.log) ∧
      (∃ userId sentAt, .sent number email userId sentAt ∈ shared.log) ∧ .succeeded number ∉ shared.log
  | .resetFlushed _ _ number => .succeeded number ∈ shared.log
  | _ => True

/-- A phase in which there is no code to store or to mark. -/
def Quiet (phase : ResetPhase) : Prop := (∀ shared, phase.Sound shared) ∧ ∀ number, ¬ phase.Has number

/-- What is known stays known if no code of the call is stored and none succeeds. -/
theorem Sound.mono (h : phase.Sound shared) (hlog : ∀ fact ∈ shared.log, fact ∈ shared'.log)
    (hsucceeded : ∀ number, phase.Owns number → .succeeded number ∈ shared'.log → .succeeded number ∈ shared.log)
    (hcodes : ∀ number, phase.Owns number → ∀ email v, shared'.codes email = some v → v.state.used = false →
      v.number = number → ∃ email, shared.codes email = some v) :
    phase.Sound shared' := by
  cases phase with
  | sendMailed email state number sentAt =>
    obtain ⟨hused, hsent, hunused, hstored⟩ := h
    refine ⟨hused, hlog _ hsent, fun hmem => hunused (hsucceeded number rfl hmem),
      fun email v hv hvused hnumber => ?_⟩
    obtain ⟨email', hv'⟩ := hcodes number rfl email v hv hvused hnumber
    exact hstored email' v hv' hvused hnumber
  | resetRead => exact h
  | resetChanged email user state number =>
    obtain ⟨⟨userId, now, hchanged⟩, ⟨userId', sentAt, hsent⟩, hunused⟩ := h
    exact ⟨⟨userId, now, hlog _ hchanged⟩, ⟨userId', sentAt, hlog _ hsent⟩,
      fun hmem => hunused (hsucceeded number rfl hmem)⟩
  | resetFlushed => exact hlog _ h
  | _ => trivial

/-- The number that a call has was given. -/
theorem Sound.lt (h : phase.Sound shared) (hnumbered : ∀ fact ∈ shared.log, fact.number < shared.numbers)
    (hhas : phase.Has number) : number < shared.numbers := by
  cases phase with
  | sendMailed email state number' sentAt =>
    obtain rfl : number' = number := hhas
    exact hnumbered _ h.2.1
  | resetChanged email user state number' =>
    obtain rfl : number' = number := hhas
    obtain ⟨⟨userId, now, hchanged⟩, -⟩ := h
    exact hnumbered _ hchanged
  | resetFlushed email state number' =>
    obtain rfl : number' = number := hhas
    exact hnumbered _ h
  | _ => exact hhas.elim

end ResetPhase

namespace ResetSystem

variable {C : Type*} [DecidableEq C] {text : EmailText} {s t : ResetSystem C} {number : ℕ} {email : String}
  {state : PasswordResetState} {user : ℕ × ResetUser}

/-- The invariant. -/
structure Sound (s : ResetSystem C) : Prop where
  used : CodesUsedOnce s.shared.log
  numbered : ∀ fact ∈ s.shared.log, fact.number < s.shared.numbers
  codes : ∀ email v, s.shared.codes email = some v → v.state.used = false →
    ∃ sentAt, .sent v.number email v.state.userId sentAt ∈ s.shared.log ∧
      v.expires ≤ sentAt + passwordResetCodeExpireSeconds
  latest : ∀ email v, s.shared.codes email = some v → v.Usable s.shared.now →
    lastSent email s.shared.log = some v.number ∨ s.Pending email
  spent : ∀ email v, s.shared.codes email = some v → v.Usable s.shared.now →
    .succeeded v.number ∈ s.shared.log → ∃ c, (s.phase c).Flushed email v.number
  phases : ∀ c, (s.phase c).Sound s.shared
  alone : ∀ c c' number, (s.phase c).Owns number → (s.phase c').Has number → c' = c

/-! ### A phase that changes -/

variable {c c' : C} {q : ResetPhase} {shared : ResetShared}

theorem update_of {P : ResetPhase → Prop} (hc : ¬ P (s.phase c)) (h : P (s.phase c')) :
    P (Function.update s.phase c q c') := by
  have hne : c' ≠ c := by
    rintro rfl
    exact hc h
  rwa [Function.update_of_ne hne]

theorem Sound.phases_update (h : s.Sound) (hlog : ∀ fact ∈ s.shared.log, fact ∈ shared.log)
    (hsucceeded : ∀ c' ≠ c, ∀ number, (s.phase c').Owns number → .succeeded number ∈ shared.log →
      .succeeded number ∈ s.shared.log)
    (hcodes : ∀ c' ≠ c, ∀ number, (s.phase c').Owns number → ∀ email v, shared.codes email = some v →
      v.state.used = false → v.number = number → ∃ email, s.shared.codes email = some v)
    (hq : q.Sound shared) (c' : C) : (Function.update s.phase c q c').Sound shared := by
  by_cases hc : c' = c
  · rwa [hc, Function.update_self]
  · rw [Function.update_of_ne hc]
    exact (h.phases c').mono hlog (hsucceeded c' hc) (hcodes c' hc)

theorem Sound.alone_update (h : s.Sound)
    (hq : ∀ number, q.Has number → (s.phase c).Owns number ∨ ∀ c', ¬ (s.phase c').Has number) {c₁ c₂ : C}
    (howns : (Function.update s.phase c q c₁).Owns number)
    (hhas : (Function.update s.phase c q c₂).Has number) : c₂ = c₁ := by
  by_cases hc₁ : c₁ = c <;> by_cases hc₂ : c₂ = c
  · rw [hc₁, hc₂]
  · rw [hc₁, Function.update_self] at howns
    rw [Function.update_of_ne hc₂] at hhas
    rcases hq number howns.has with hold | hnone
    · rw [hc₁, h.alone c c₂ number hold hhas]
    · exact absurd hhas (hnone c₂)
  · rw [Function.update_of_ne hc₁] at howns
    rw [hc₂, Function.update_self] at hhas
    rcases hq number hhas with hold | hnone
    · rw [hc₂, h.alone c₁ c number howns hold.has]
    · exact absurd howns.has (hnone c₁)
  · rw [Function.update_of_ne hc₁] at howns
    rw [Function.update_of_ne hc₂] at hhas
    exact h.alone c₁ c₂ number howns hhas

/-- The latest code is still to be stored if it was, and another call has it. -/
theorem Pending.update (h : s.Pending email) (hlast : lastSent email shared.log = lastSent email s.shared.log)
    (hc : ∀ number, lastSent email s.shared.log = some number → ¬ (s.phase c).Mailed email number) :
    Pending ⟨shared, Function.update s.phase c q⟩ email := by
  obtain ⟨number, hnumber, c', hmailed⟩ := h
  exact ⟨number, hlast.trans hnumber, c',
    update_of (P := fun phase => phase.Mailed email number) (hc number hnumber) hmailed⟩

/-- The code of a call that has succeeded is still to be marked, if another call marks it. -/
theorem Sound.spent_update (h : s.Sound) {v : CachedReset} (hv : s.shared.codes email = some v)
    (husable : v.Usable s.shared.now) (hspent : .succeeded v.number ∈ s.shared.log)
    (hc : ¬ (s.phase c).Flushed email v.number) :
    ∃ c', (Function.update s.phase c q c').Flushed email v.number :=
  (h.spent email v hv husable hspent).imp fun _ hflush =>
    update_of (P := fun phase => phase.Flushed email v.number) hc hflush

omit [DecidableEq C] in
/-- The codes that are there were sent, whatever else is noted. -/
theorem Sound.codes_cons (h : s.Sound) (fact : ResetFact) {v : CachedReset} (hv : s.shared.codes email = some v)
    (hused : v.state.used = false) :
    ∃ sentAt, .sent v.number email v.state.userId sentAt ∈ fact :: s.shared.log ∧
      v.expires ≤ sentAt + passwordResetCodeExpireSeconds :=
  (h.codes email v hv hused).imp fun _ hsent => hsent.imp_left (List.mem_cons_of_mem _)

/-- What is there after a code is stored was there, or is that code. -/
theorem codes_setCode {value v : CachedReset} {outcome : SetOutcome} {email' : String}
    (hv : (shared.setCode email value outcome).codes email' = some v) :
    shared.codes email' = some v ∧ (email' = email → outcome = .kept) ∨
      email' = email ∧ v = value ∧ (outcome = .ok ∨ outcome = .written) := by
  unfold ResetShared.setCode at hv
  dsimp only at hv
  by_cases hemail : email' = email
  · subst hemail
    rw [Function.update_self] at hv
    cases outcome with
    | ok => exact .inr ⟨rfl, (Option.some.inj hv).symm, .inl rfl⟩
    | kept => exact .inl ⟨hv, fun _ => rfl⟩
    | lost => exact absurd hv nofun
    | written => exact .inr ⟨rfl, (Option.some.inj hv).symm, .inr rfl⟩
  · rw [Function.update_of_ne hemail] at hv
    exact .inl ⟨hv, fun heq => absurd heq hemail⟩

/-! ### The steps -/

section

variable (h : s.Sound)
include h

/-- A step that neither touches the codes nor the history, of a call that has no code to store or to mark
afterwards. -/
theorem Sound.quiet (hcodes : shared.codes = s.shared.codes) (hnow : shared.now = s.shared.now)
    (hnumbers : shared.numbers = s.shared.numbers) (hlog : shared.log = s.shared.log)
    (hmailed : ∀ email number, ¬ (s.phase c).Mailed email number)
    (hflushed : ∀ email number, ¬ (s.phase c).Flushed email number) (hq : q.Quiet) : Sound ⟨shared, Function.update s.phase c q⟩ := by
  obtain ⟨users, tokens, codes, cooldowns, now, numbers, log⟩ := shared
  subst hcodes hnow hnumbers hlog
  refine ⟨h.used, h.numbered, h.codes, fun email v hv husable => ?_, fun email v hv husable hspent => ?_, ?_, ?_⟩
  · exact (h.latest email v hv husable).imp_right fun hp => hp.update rfl fun number _ => hmailed email number
  · exact h.spent_update hv husable hspent (hflushed email v.number)
  · exact h.phases_update (fun _ => id) (fun _ _ _ _ => id) (fun _ _ _ _ email v hv _ _ => ⟨email, hv⟩) (hq.1 _)
  · exact fun c₁ c₂ number => h.alone_update fun number hnumber => absurd hnumber (hq.2 number)

/-- A new code is mailed. -/
theorem Sound.mail
    (hphase : s.phase c = .sendCooled email user) (huser : state.userId = user.1) (hused : state.used = false) :
    Sound ⟨{ s.shared with
        numbers := s.shared.numbers + 1
        log := .sent s.shared.numbers email user.1 s.shared.now :: s.shared.log },
      Function.update s.phase c (.sendMailed email state s.shared.numbers s.shared.now)⟩ := by
  have hold {fact : ResetFact} (hfact : fact ∈ s.shared.log) (hnumber : fact.number = s.shared.numbers) : False :=
    Nat.ne_of_lt (h.numbered fact hfact) hnumber
  refine ⟨⟨h.numbered, h.used⟩, ?_, fun email' v hv hvused => ?_, fun email' v hv husable => ?_,
    fun email' v hv husable hspent => ?_, ?_, ?_⟩
  · exact List.forall_mem_cons.mpr ⟨Nat.lt_succ_self _, fun fact hfact =>
      Nat.lt_succ_of_lt (h.numbered fact hfact)⟩
  · exact h.codes_cons _ hv hvused
  · by_cases hemail : email = email'
    · -- the latest code is the new one
      refine .inr ⟨s.shared.numbers, if_pos hemail, c, ?_⟩
      dsimp only
      rw [Function.update_self]
      exact ⟨hemail, rfl⟩
    · have hlast : lastSent email' (.sent s.shared.numbers email user.1 s.shared.now :: s.shared.log) =
          lastSent email' s.shared.log := if_neg hemail
      exact (h.latest email' v hv husable).imp hlast.trans fun hp => hp.update hlast fun number _ => hphase ▸ id
  · exact h.spent_update hv husable (by simpa using hspent) (hphase ▸ id)
  · refine h.phases_update (fun _ => List.mem_cons_of_mem _) (fun _ _ number _ hmem => ?_)
      (fun _ _ _ _ email v hv _ _ => ⟨email, hv⟩) ⟨hused, ?_, fun hmem => ?_, fun email' v hv hvused hnumber => ?_⟩
    · simpa using hmem
    · rw [huser]
      exact List.mem_cons_self
    · exact hold (by simpa using hmem) rfl
    · obtain ⟨sentAt, hsent, -⟩ := h.codes email' v hv hvused
      exact hold hsent hnumber
  · intro c₁ c₂ number
    refine h.alone_update fun number' hnumber => .inr fun c' hhas => ?_
    exact Nat.ne_of_lt ((h.phases c').lt h.numbered hhas) hnumber.symm

/-- A code is stored as the latest, or the one that is there stays. -/
theorem Sound.store {sentAt : ℕ} {outcome : SetOutcome} (hphase : s.phase c = .sendMailed email state number sentAt)
    (hok : s.StoresLatest email number sentAt outcome) (hq : q.Quiet) :
    Sound ⟨s.shared.setCode email ⟨state, number, s.shared.now + passwordResetCodeExpireSeconds⟩ outcome,
      Function.update s.phase c q⟩ := by
  obtain ⟨hused, hsent, hunused, hstored⟩ : (ResetPhase.sendMailed email state number sentAt).Sound s.shared :=
    hphase ▸ h.phases c
  have howns : (s.phase c).Owns number := by
    rw [hphase]
    rfl
  -- what is there afterwards was there, or is the code that is stored
  have hvalue : ∀ email' v,
      (s.shared.setCode email ⟨state, number, s.shared.now + passwordResetCodeExpireSeconds⟩ outcome).codes email' =
        some v →
      s.shared.codes email' = some v ∧ (email' = email → outcome = .kept) ∨
        email' = email ∧ v = ⟨state, number, s.shared.now + passwordResetCodeExpireSeconds⟩ ∧
          s.shared.now = sentAt ∧ (lastSent email s.shared.log = some number ∨ s.Pending email) := by
    intro email' v hv
    refine (codes_setCode hv).imp_right fun ⟨hemail, hvalue, hwritten⟩ => ⟨hemail, hvalue, ?_⟩
    rcases hwritten with rfl | rfl <;> exact hok
  have hpending {email' : String} (hp : s.Pending email')
      (hne : email' = email → lastSent email s.shared.log ≠ some number) :
      Pending ⟨s.shared.setCode email ⟨state, number, s.shared.now + passwordResetCodeExpireSeconds⟩ outcome,
        Function.update s.phase c q⟩ email' := by
    refine hp.update rfl fun number' hlast hmailed => ?_
    rw [hphase] at hmailed
    obtain ⟨rfl, rfl⟩ := hmailed
    exact hne rfl hlast
  refine ⟨h.used, h.numbered, fun email' v hv hvused => ?_, fun email' v hv husable => ?_,
    fun email' v hv husable hspent => ?_, ?_, ?_⟩
  · rcases hvalue email' v hv with ⟨hold, -⟩ | ⟨rfl, rfl, hnow, -⟩
    · exact h.codes email' v hold hvused
    · exact ⟨sentAt, hsent, Nat.le_of_eq (congrArg (· + _) hnow)⟩
  · rcases hvalue email' v hv with ⟨hold, hkept⟩ | ⟨rfl, rfl, -, hlatest⟩
    · refine (h.latest email' v hold husable).imp_right fun hp => hpending hp fun hemail hlast => ?_
      subst hemail
      rw [hkept rfl] at hok
      exact hok hlast v hold husable
    · by_cases hlast : lastSent email' s.shared.log = some number
      · exact .inl hlast
      · exact .inr (hpending (hlatest.resolve_left hlast) fun _ => hlast)
  · rcases hvalue email' v hv with ⟨hold, -⟩ | ⟨rfl, rfl, -⟩
    · exact h.spent_update hold husable hspent (hphase ▸ id)
    · exact absurd hspent hunused
  · refine h.phases_update (fun _ => id) (fun _ _ _ _ => id) (fun c' hc number' howns' email' v hv _ hnumber => ?_)
      (hq.1 _)
    rcases hvalue email' v hv with ⟨hold, -⟩ | ⟨-, rfl, -⟩
    · exact ⟨email', hold⟩
    · obtain rfl : number = number' := hnumber
      exact absurd (h.alone c c' number howns howns'.has) hc
  · exact fun c₁ c₂ number => h.alone_update fun number hnumber => absurd hnumber (hq.2 number)

/-- The password is changed by a code that is still there. -/
theorem Sound.update {newPassword : String} (hphase : s.phase c = .resetRead email newPassword user state number)
    (hok : s.StillReads email state number) (users : Table ResetUser) :
    Sound ⟨{ s.shared with
        users := users
        log := .changed number email user.1 s.shared.now :: s.shared.log },
      Function.update s.phase c (.resetChanged email user state number)⟩ := by
  obtain ⟨⟨expires, hv, hexpires⟩, hpending, hothers⟩ := hok
  obtain ⟨huser, hused⟩ : (ResetPhase.resetRead email newPassword user state number).Sound s.shared :=
    hphase ▸ h.phases c
  have husable : (⟨state, number, expires⟩ : CachedReset).Usable s.shared.now := ⟨hused, hexpires⟩
  obtain ⟨sentAt, hsent, hbound⟩ := h.codes email _ hv hused
  have hlast := (h.latest email _ hv husable).resolve_right hpending
  have hunused : .succeeded number ∉ s.shared.log := fun hmem =>
    let ⟨c', hflush⟩ := h.spent email _ hv husable hmem
    (hothers c').2 hflush
  -- no call has the code
  have hnone : ∀ c', ¬ (s.phase c').Has number := by
    intro c' hhas
    have hsound := h.phases c'
    have hother := hothers c'
    cases hphase' : s.phase c' with
    | sendMailed email' state' number' sentAt' =>
      rw [hphase'] at hhas hsound
      obtain rfl : number' = number := hhas
      exact hsound.2.2.2 email _ hv hused rfl
    | resetChanged email' user' state' number' =>
      rw [hphase'] at hhas hsound hother
      obtain rfl : number' = number := hhas
      obtain ⟨-, ⟨userId, sentAt', hsent'⟩, -⟩ := hsound
      exact hother.1 ⟨sent_unique h.used hsent' hsent, rfl⟩
    | resetFlushed email' state' number' =>
      rw [hphase'] at hhas hsound
      obtain rfl : number' = number := hhas
      exact hunused hsound
    | _ =>
      rw [hphase'] at hhas
      exact hhas.elim
  refine ⟨⟨⟨sentAt, huser ▸ hsent, Nat.le_trans hexpires hbound, hlast⟩, h.used⟩, ?_,
    fun email' v hv hvused => ?_, fun email' v hv husable => ?_, fun email' v hv husable hspent => ?_, ?_, ?_⟩
  · exact List.forall_mem_cons.mpr ⟨show number < _ from h.numbered _ hsent, h.numbered⟩
  · exact h.codes_cons _ hv hvused
  · exact (h.latest email' v hv husable).imp_right fun hp => hp.update rfl fun number' _ => hphase ▸ id
  · exact h.spent_update hv husable (by simpa using hspent) (hphase ▸ id)
  · refine h.phases_update (fun _ => List.mem_cons_of_mem _) (fun _ _ number' _ hmem => by simpa using hmem)
      (fun _ _ _ _ email v hv _ _ => ⟨email, hv⟩)
      ⟨⟨user.1, s.shared.now, List.mem_cons_self⟩, ⟨_, _, List.mem_cons_of_mem _ hsent⟩, fun hmem => ?_⟩
    exact hunused (by simpa using hmem)
  · intro c₁ c₂ number₁
    refine h.alone_update fun number' hnumber => .inr ?_
    obtain rfl : number = number' := hnumber
    exact hnone

/-- A call succeeds. -/
theorem Sound.flush (hphase : s.phase c = .resetChanged email user state number) (tokens : Table ℕ) :
    Sound ⟨{ s.shared with
        tokens := tokens
        log := .succeeded number :: s.shared.log },
      Function.update s.phase c (.resetFlushed email state number)⟩ := by
  obtain ⟨⟨userId, now, hchanged⟩, ⟨userId', sentAt, hsent⟩, hunused⟩ :
    (ResetPhase.resetChanged email user state number).Sound s.shared := hphase ▸ h.phases c
  have howns : (s.phase c).Owns number := by
    rw [hphase]
    rfl
  refine ⟨⟨⟨⟨email, userId, now, hchanged⟩, hunused⟩, h.used⟩, ?_, fun email' v hv hvused => ?_,
    fun email' v hv husable => ?_, fun email' v hv husable hspent => ?_, ?_, ?_⟩
  · exact List.forall_mem_cons.mpr ⟨show number < _ from h.numbered _ hchanged, h.numbered⟩
  · exact h.codes_cons _ hv hvused
  · exact (h.latest email' v hv husable).imp_right fun hp => hp.update rfl fun number' _ => hphase ▸ id
  · rcases List.mem_cons.mp hspent with heq | hspent
    · -- the call that succeeds has the code to mark
      have hnumber : v.number = number := ResetFact.succeeded.inj heq
      obtain ⟨sentAt', hsent', -⟩ := h.codes email' v hv husable.1
      rw [hnumber] at hsent' ⊢
      refine ⟨c, ?_⟩
      dsimp only
      rw [Function.update_self]
      exact ⟨sent_unique h.used hsent hsent', rfl⟩
    · exact h.spent_update hv husable hspent (hphase ▸ id)
  · refine h.phases_update (fun _ => List.mem_cons_of_mem _) (fun c' hc number' howns' hmem => ?_)
      (fun _ _ _ _ email v hv _ _ => ⟨email, hv⟩) List.mem_cons_self
    rcases List.mem_cons.mp hmem with heq | hmem
    · obtain rfl : number' = number := ResetFact.succeeded.inj heq
      exact absurd (h.alone c c' number' howns howns'.has) hc
    · exact hmem
  · intro c₁ c₂ number₁
    refine h.alone_update fun number' hnumber => .inl ?_
    obtain rfl : number = number' := hnumber
    exact howns

/-- A code is marked, or gone, or the mark fails and another code is there. -/
theorem Sound.mark {expires : ℕ} {outcome : SetOutcome} (hphase : s.phase c = .resetFlushed email state number)
    (hok : s.Marks email number outcome) :
    Sound ⟨s.shared.setCode email ⟨{ state with used := true, code := "" }, number, expires⟩ outcome,
      Function.update s.phase c .done⟩ := by
  -- a code that can be used afterwards was there
  have hvalue : ∀ email' v,
      (s.shared.setCode email ⟨{ state with used := true, code := "" }, number, expires⟩ outcome).codes email' =
        some v → v.state.used = false → s.shared.codes email' = some v ∧ (email' = email → outcome = .kept) := by
    intro email' v hv hused
    refine (codes_setCode hv).resolve_right ?_
    rintro ⟨-, rfl, -⟩
    cases hused
  refine ⟨h.used, h.numbered, fun email' v hv hused => ?_, fun email' v hv husable => ?_,
    fun email' v hv husable hspent => ?_, ?_, ?_⟩
  · exact h.codes email' v (hvalue email' v hv hused).1 hused
  · exact (h.latest email' v (hvalue email' v hv husable.1).1 husable).imp_right fun hp =>
      hp.update rfl fun number' _ => hphase ▸ id
  · obtain ⟨hold, hkept⟩ := hvalue email' v hv husable.1
    refine h.spent_update hold husable hspent ?_
    rw [hphase]
    rintro ⟨hemail, hnumber⟩
    subst hemail
    exact hok (hkept rfl) v hold husable hnumber.symm
  · exact h.phases_update (fun _ => id) (fun _ _ _ _ => id)
      (fun _ _ _ _ email' v hv hused _ => ⟨email', (hvalue email' v hv hused).1⟩) trivial
  · exact fun c₁ c₂ number' => h.alone_update fun number hnumber => absurd hnumber id

end

omit [DecidableEq C] in
/-- Time passes. -/
theorem Sound.pass (h : s.Sound) (seconds : ℕ) :
    Sound { s with shared := { s.shared with now := s.shared.now + seconds } } := by
  have husable {v : CachedReset} (hv : v.Usable (s.shared.now + seconds)) : v.Usable s.shared.now :=
    ⟨hv.1, Nat.le_trans (Nat.le_add_right ..) hv.2⟩
  refine ⟨h.used, h.numbered, h.codes, fun email v hv hlive => h.latest email v hv (husable hlive),
    fun email v hv hlive => h.spent email v hv (husable hlive), fun c => ?_, h.alone⟩
  exact (h.phases c).mono (fun _ => id) (fun _ _ => id) fun _ _ email v hv _ _ => ⟨email, hv⟩

/-! ### What the checks lead to -/

theorem quiet_sendCode (email : String) (configured : Bool) :
    (ResetShared.sendCode text email configured).Quiet := by
  unfold ResetShared.sendCode
  dsimp only
  split_ifs <;> exact ⟨fun _ => trivial, fun _ => id⟩

theorem quiet_resetWithCode (email code newPassword : String) :
    (ResetShared.resetWithCode text email code newPassword).Quiet := by
  unfold ResetShared.resetWithCode
  dsimp only
  split_ifs <;> exact ⟨fun _ => trivial, fun _ => id⟩

theorem quiet_cooldown (email : String) (user : ℕ × ResetUser) (ok : Bool) :
    (shared.cooldown email user ok).Quiet := by
  unfold ResetShared.cooldown
  split <;> exact ⟨fun _ => trivial, fun _ => id⟩

/-- What a call that reads a code knows of it. -/
theorem quiet_get (email code newPassword : String) (user : ℕ × ResetUser) (ok : Bool) :
    (shared.get email code newPassword user ok).Quiet := by
  unfold ResetShared.get
  split
  · exact ⟨fun _ => trivial, fun _ => id⟩
  · split
    · exact ⟨fun _ => trivial, fun _ => id⟩
    · next hused =>
      split
      · exact ⟨fun _ => trivial, fun _ => id⟩
      · next hmatch =>
        split
        · exact ⟨fun _ => trivial, fun _ => id⟩
        · rw [not_or, not_not, not_not] at hmatch
          exact ⟨fun _ => ⟨hmatch.2, Bool.eq_false_iff.mpr hused⟩, fun _ => id⟩

/-- What a statement that looks for a user leads to. -/
theorem quiet_find (found : ℕ × ResetUser → ResetPhase) (hfound : ∀ user, (found user).Quiet)
    (user : Option (ℕ × ResetUser)) : ((user.map found).getD .done).Quiet := by
  cases user with
  | none => exact ⟨fun _ => trivial, fun _ => id⟩
  | some user => exact hfound user

theorem Sound.step (h : s.Sound) {e : ResetEvent C} (hok : s.Undisturbed e)
    (hstep : step text s e = some t) : t.Sound := by
  cases e with
  | pass seconds =>
    cases hstep
    exact h.pass seconds
  | move c m =>
    obtain ⟨next, hmove, rfl⟩ := Option.map_eq_some_iff.mp hstep
    unfold Undisturbed at hok
    dsimp only at hok
    generalize hphase : s.phase c = phase at hmove hok
    -- a move without a code, from a phase without one to store or to mark
    have hquiet {q : ResetPhase} (hq : q.Quiet) (hold : phase.Quiet) :
        Sound ⟨s.shared, Function.update s.phase c q⟩ := by
      refine h.quiet rfl rfl rfl rfl (fun email number hmailed => ?_) (fun email number hflushed => ?_) hq
      · rw [hphase] at hmailed
        exact hold.2 number (ResetPhase.Mailed.has hmailed)
      · rw [hphase] at hflushed
        exact hold.2 number (ResetPhase.Flushed.has hflushed)
    unfold ResetPhase.move at hmove
    split at hmove
    · cases hmove
      exact hquiet (quiet_sendCode ..) ⟨fun _ => trivial, fun _ => id⟩
    · cases hmove
      exact hquiet (quiet_resetWithCode ..) ⟨fun _ => trivial, fun _ => id⟩
    · next email ok =>
      cases hmove
      exact hquiet (quiet_find (.sendFound email) (fun _ => ⟨fun _ => trivial, fun _ => id⟩) _)
        ⟨fun _ => trivial, fun _ => id⟩
    · next email code newPassword ok =>
      cases hmove
      exact hquiet (quiet_find (.resetFound email code newPassword) (fun _ => ⟨fun _ => trivial, fun _ => id⟩) _)
        ⟨fun _ => trivial, fun _ => id⟩
    · cases hmove
      exact hquiet (quiet_cooldown ..) ⟨fun _ => trivial, fun _ => id⟩
    · next email user code ok =>
      cases hmove
      unfold ResetShared.mail
      split
      · exact h.mail hphase rfl rfl
      · exact hquiet ⟨fun _ => trivial, fun _ => id⟩ ⟨fun _ => trivial, fun _ => id⟩
    · next email state number sentAt outcome =>
      cases hmove
      refine h.store hphase hok ?_
      unfold ResetShared.store
      split <;> exact ⟨fun _ => trivial, fun _ => id⟩
    · next email outcome =>
      cases hmove
      have hnone : ∀ email number, ¬ (s.phase c).Mailed email number ∧ ¬ (s.phase c).Flushed email number := by
        rw [hphase]
        exact fun _ _ => ⟨id, id⟩
      exact h.quiet rfl rfl rfl rfl (fun email number => (hnone email number).1)
        (fun email number => (hnone email number).2) ⟨fun _ => trivial, fun _ => id⟩
    · cases hmove
      exact hquiet (quiet_get ..) ⟨fun _ => trivial, fun _ => id⟩
    · next email newPassword user state number encrypted =>
      cases hmove
      cases encrypted with
      | none =>
        refine h.quiet rfl rfl rfl rfl ?_ ?_ ⟨fun _ => trivial, fun _ => id⟩
        all_goals
          rw [hphase]
          exact fun _ _ => id
      | some password => exact h.update hphase hok _
    · next email user state number ok =>
      cases hmove
      unfold ResetShared.flush
      split
      · exact h.flush hphase _
      · refine h.quiet rfl rfl rfl rfl ?_ ?_ ⟨fun _ => trivial, fun _ => id⟩
        all_goals
          rw [hphase]
          exact fun _ _ => id
    · next email state number outcome =>
      cases hmove
      exact h.mark hphase hok
    · cases hmove

omit [DecidableEq C] in
theorem sound_start (users : Table ResetUser) (tokens : Table ℕ) : (start users tokens : ResetSystem C).Sound where
  used := trivial
  numbered := fun _ hfact => absurd hfact List.not_mem_nil
  codes := nofun
  latest := nofun
  spent := nofun
  phases := fun _ => trivial
  alone := fun _ _ _ h => h.elim

/-- In every run whose calls are not disturbed between reading a code and changing the password, store a code in
the second of its mail and do not leave a code that was used or is not the latest, each code lets one call
succeed at most and changes only the password of the user to whom it was sent, within 600 seconds and while it
is the latest. -/
theorem codesUsedOnce_of_undisturbed {users : Table ResetUser} {tokens : Table ℕ} {events : List (ResetEvent C)}
    (hrun : Run (Only Undisturbed (Steps (step text))) (start users tokens) events s) :
    CodesUsedOnce s.shared.log :=
  (hrun.invariant (fun _ _ _ h hstep => h.step hstep.1 hstep.2) (sound_start users tokens)).used

/-! ### Two calls with one code -/

/-- A user whose address nothing is to be done to. -/
def plainText : EmailText := ⟨id, id, id, fun _ => true⟩

def oneUser : Table ResetUser := Table.empty.insert ⟨"alice@host", "old"⟩

/-- A code is sent, with the calls that go on. -/
def sendEvents : List (ResetEvent (Fin 3)) :=
  [.move 0 (.sendCode "alice@host" true), .move 0 (.find true), .move 0 (.cooldown true),
    .move 0 (.mail "123456" true), .move 0 (.store .ok), .move 0 (.storeCooldown .ok)]

/-- A call comes as far as it reads the code. -/
def readEvents (c : Fin 3) : List (ResetEvent (Fin 3)) :=
  [.move c (.resetWithCode "alice@host" "123456" "secret"), .move c (.find true), .move c (.get true)]

/-- A call changes the password and marks the code. -/
def changeEvents (c : Fin 3) (outcome : SetOutcome) : List (ResetEvent (Fin 3)) :=
  [.move c (.update (some "new")), .move c (.flush true), .move c (.mark outcome)]

theorem codesUsedOnce_of_undisturbed_change :
    ∃ s, Run (Only Undisturbed (Steps (step plainText))) (start oneUser .empty)
      (sendEvents ++ readEvents 1 ++ changeEvents 1 .ok) s ∧ CodesUsedOnce s.shared.log := by
  refine Exists.imp (fun _ hrun => ⟨hrun, codesUsedOnce_of_undisturbed hrun⟩) ?_
  refine ⟨_, .cons ⟨trivial, rfl⟩ <| .cons ⟨trivial, rfl⟩ <| .cons ⟨trivial, rfl⟩ <| .cons ⟨trivial, rfl⟩ <|
    .cons ⟨⟨rfl, .inl (if_pos rfl)⟩, rfl⟩ <| .cons ⟨trivial, rfl⟩ <| .cons ⟨trivial, rfl⟩ <|
    .cons ⟨trivial, rfl⟩ <| .cons ⟨trivial, rfl⟩ <|
    .cons ⟨⟨⟨600, rfl, by decide⟩, ?_, ?_⟩, rfl⟩ <| .cons ⟨trivial, rfl⟩ <| .cons ⟨nofun, rfl⟩ <| .nil _⟩
  · rintro ⟨number, -, c, hmailed⟩
    match c with
    | 0 => exact hmailed
    | 1 => exact hmailed
    | 2 => exact hmailed
  · intro c
    match c with
    | 0 => exact ⟨id, id⟩
    | 1 => exact ⟨id, id⟩
    | 2 => exact ⟨id, id⟩

/-- Two calls read one code before one of them marks it, and a code whose mark fails is good for a second
call. -/
theorem code_succeeds_twice :
    (∃ s, Run (Steps (step plainText)) (start oneUser .empty)
      (sendEvents ++ readEvents 1 ++ readEvents 2 ++ changeEvents 1 .ok ++ changeEvents 2 .ok) s ∧
        ¬ CodesUsedOnce s.shared.log) ∧
    ∃ s, Run (Steps (step plainText)) (start oneUser .empty)
      (sendEvents ++ readEvents 1 ++ changeEvents 1 .kept ++ readEvents 2 ++ changeEvents 2 .ok) s ∧
        ¬ CodesUsedOnce s.shared.log := by
  have htwice (events : List (ResetEvent (Fin 3)))
      (h : (exec (step plainText) (start oneUser .empty) events).map
        (fun s => s.shared.log.count (.succeeded 0)) = some 2) :
      ∃ s, Run (Steps (step plainText)) (start oneUser .empty) events s ∧ ¬ CodesUsedOnce s.shared.log := by
    obtain ⟨s, hs, hcount⟩ := Option.map_eq_some_iff.mp h
    refine ⟨s, exec_eq_some_iff.mp hs, fun honce => ?_⟩
    have hle := honce.count_succeeded 0
    omega
  exact ⟨htwice _ (by decide +kernel), htwice _ (by decide +kernel)⟩

end ResetSystem

end RustDesk.Api
