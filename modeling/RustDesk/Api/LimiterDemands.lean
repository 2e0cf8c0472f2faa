import RustDesk.Api.LoginLimiter

/-!
# When the limiter demands a captcha

Reference: `rustdesk-api/utils/login_limiter.go`.

Time, pruning and the calls for other ips bring no demand for a captcha: only a recorded failure does
(`Follows.demands_step`), or, where a captcha is always needed, the end of a ban (`Follows.demands_later`). Attempts
go when they leave the window, when they make up a ban and when they are removed (`lost_attempt`), and captchas with
the solution that is accepted (`waiting_step`).
-/

namespace RustDesk.Api

/-- A call changes a standing in one of three ways. -/
theorem Standing.after_cases (policy : SecurityPolicy) (s : Standing) (now : ℤ) (ip : String) (event : LimiterEvent) :
    (event = .recordFailedAttempt ip ∧ s.after policy now ip event = s.fail policy now) ∨
      s.after policy now ip event = s ∨ s.after policy now ip event = ⟨[], s.bans⟩ := by
  unfold Standing.after
  cases event with
  | recordFailedAttempt ip' =>
    by_cases hip : ip' = ip
    · exact .inl ⟨by rw [hip], if_pos hip⟩
    · exact .inr (.inl (if_neg hip))
  | removeAttempts ip' =>
    by_cases hip : ip' = ip
    · exact .inr (.inr (if_pos hip))
    · exact .inr (.inl (if_neg hip))
  | _ => exact .inr (.inl rfl)

namespace LoginLimiter

variable (ll : LoginLimiter) (ip : String) (now : ℤ)

/-- A ban that still holds. -/
def bans : Bool := (ll.bannedIPs ip).any fun record => now ≤ record.expiresAt

/-- The failures still inside the window. -/
def failures : ℕ := (ll.attempts ip).countP (now - ll.policy.attemptsWindow < ·)

/-- A login from the ip needs a captcha. -/
def demands : Bool :=
  !ll.isDisabled && !ll.bans ip now && decide (ll.policy.captchaThreshold ≤ ll.failures ip now)

/-- One failure more and a login from the ip needs a captcha. -/
def nearlyDemands : Bool :=
  !ll.isDisabled && !ll.bans ip now && decide (ll.policy.captchaThreshold ≤ ll.failures ip now + 1) &&
    !decide (0 < ll.policy.banThreshold ∧ ll.policy.banThreshold ≤ ll.failures ip now + 1)

/-- The ids of the captchas that a call makes. -/
def generates : LimiterEvent → List String
  | .requireCaptcha generated =>
    match (ll.requireCaptcha now generated).2 with
    | .ok captcha => [captcha.id]
    | .error _ => []
  | _ => []

/-- The ids of the captchas whose solution a call accepts. -/
def accepts : LimiterEvent → List String
  | .verifyCaptcha id answer => if (ll.verifyCaptcha now id answer).2 then [id] else []
  | _ => []

variable {ll ip now}

theorem isBanned_eq : (ll.isBanned ip now).2.isSome = ll.bans ip now := by
  unfold isBanned bans
  cases hrecord : ll.bannedIPs ip with
  | none => rfl
  | some record =>
    dsimp only
    split
    · next hexpired =>
      have hover : ¬ now ≤ record.expiresAt := by omega
      simp [hover]
    · next hvalid =>
      have hholds : now ≤ record.expiresAt := by omega
      simp [hholds]

theorem isBanned_attempts : (ll.isBanned ip now).1.attempts = ll.attempts := by
  unfold isBanned
  split
  · rfl
  · split <;> rfl

/-- **`CheckSecurityStatus`**, read off the maps. -/
theorem checkSecurityStatus_eq :
    (ll.checkSecurityStatus ip now).2 = (!ll.isDisabled && ll.bans ip now, ll.demands ip now) := by
  have hbanned := @isBanned_eq ll ip now
  have hattempts := @isBanned_attempts ll ip now
  have hpolicy := isBanned_policy ll ip now
  unfold checkSecurityStatus demands failures
  cases ll.isDisabled with
  | true => rfl
  | false =>
    rcases hres : ll.isBanned ip now with ⟨ll₁, _ | record⟩
    all_goals
      rw [hres] at hbanned hattempts hpolicy
      dsimp only at hbanned hattempts hpolicy
    · rw [← hbanned, if_neg Bool.false_ne_true]
      simp only [pruneAttempts, Function.update_self, hattempts, hpolicy, List.countP_eq_length_filter]
      rfl
    · rw [← hbanned, if_neg Bool.false_ne_true]
      rfl

theorem checkSecurityStatus_demands : (ll.checkSecurityStatus ip now).2.2 = ll.demands ip now := by
  rw [checkSecurityStatus_eq]

/-- The limiter goes by the standings of the ips, and the failures that led to a ban do not count again. -/
def Follows (ll : LoginLimiter) (now : ℤ) (st : String → Standing) : Prop :=
  Tracks ll.policy ll st now ∧ ∀ ip, (st ip).Banned ll.policy now → (st ip).failures = []

variable {st : String → Standing}

section

variable (h : ll.Follows now st)
include h

theorem Follows.bans_iff {later : ℤ} (hlater : now ≤ later) :
    ll.bans ip later = true ↔ (st ip).Banned ll.policy later := by
  rw [← h.1.bans ip later hlater, bans, Option.any_eq_true]
  simp only [decide_eq_true_eq, Option.mem_def]

theorem Follows.demands_iff {later : ℤ} (hlater : now ≤ later) :
    ll.demands ip later = true ↔ ll.isDisabled = false ∧ ¬ (st ip).Banned ll.policy later ∧
      ll.policy.captchaThreshold ≤ (st ip).inWindow ll.policy later := by
  rw [← h.bans_iff hlater, ← h.1.failures ip later hlater, demands, failures, Bool.and_eq_true, Bool.and_eq_true,
    decide_eq_true_eq, Bool.not_eq_true', Bool.not_eq_true', Bool.not_eq_true, and_assoc]

theorem Follows.later {later : ℤ} (hlater : now ≤ later) : ll.Follows later st :=
  ⟨h.1.later hlater, fun ip hbanned => h.2 ip (hbanned.earlier hlater)⟩

theorem Follows.step (hon : ll.isDisabled = false) (event : LimiterEvent) :
    (ll.step now event).Follows now fun ip => (st ip).after ll.policy now ip event := by
  unfold Follows
  rw [step_policy]
  refine ⟨h.1.step hon event, fun ip hbanned => ?_⟩
  have hclean := h.2 ip
  dsimp only at hbanned ⊢
  rcases Standing.after_cases ll.policy (st ip) now ip event with ⟨-, hafter⟩ | hafter | hafter
  · rw [hafter] at hbanned ⊢
    unfold Standing.fail at hbanned ⊢
    split at hbanned
    · next hwas =>
      rw [if_pos hwas]
      exact hclean hwas
    · next hnot =>
      rw [if_neg hnot]
      split at hbanned
      · next hban => rw [if_pos hban]
      · exact absurd hbanned hnot
  · rw [hafter] at hbanned ⊢
    exact hclean hbanned
  · rw [hafter]

/-- **Time** does not bring a demand, unless a ban ends and a captcha is always needed. -/
theorem Follows.demands_later {later : ℤ} (hlater : now ≤ later)
    (hends : ll.bans ip now = true → ll.bans ip later = true ∨ 0 < ll.policy.captchaThreshold)
    (hdemands : ll.demands ip later = true) : ll.demands ip now = true := by
  rw [h.demands_iff hlater] at hdemands
  rw [h.demands_iff (le_refl now)]
  rw [h.bans_iff hlater, h.bans_iff (le_refl now)] at hends
  obtain ⟨hon, hfree, hreached⟩ := hdemands
  by_cases hbanned : (st ip).Banned ll.policy now
  · rcases hends hbanned with hstill | hpos
    · exact absurd hstill hfree
    · -- no failure is left from before the ban
      rw [Standing.inWindow, h.2 ip hbanned, List.countP_nil] at hreached
      omega
  · refine ⟨hon, hbanned, le_trans hreached ?_⟩
    have hwindow : (st ip).inWindow ll.policy later ≤ (st ip).inWindow ll.policy now := by
      refine List.countP_mono_left fun t _ => ?_
      simp only [decide_eq_true_eq]
      omega
    omega

/-- **A call** does not bring a demand, unless it records the failure that was missing. -/
theorem Follows.demands_step (hduration : 0 ≤ ll.policy.banDuration) {event : LimiterEvent}
    (hnear : event = .recordFailedAttempt ip → ll.nearlyDemands ip now = false)
    (hdemands : (ll.step now event).demands ip now = true) : ll.demands ip now = true := by
  have hon : ll.isDisabled = false := by
    have hpolicy := @step_policy ll now event
    rw [demands, Bool.and_eq_true, Bool.and_eq_true, Bool.not_eq_true'] at hdemands
    have hon := hdemands.1.1
    unfold isDisabled at hon ⊢
    rwa [hpolicy] at hon
  have hbans : ll.bans ip now = true ↔ (st ip).Banned ll.policy now := h.bans_iff (le_refl now)
  have hfailures := h.1.failures ip now (le_refl now)
  rw [(h.step hon event).demands_iff (le_refl now), step_policy] at hdemands
  rw [h.demands_iff (le_refl now)]
  obtain ⟨-, hfree, hreached⟩ := hdemands
  rcases Standing.after_cases ll.policy (st ip) now ip event with ⟨hevent, hafter⟩ | hafter | hafter
  all_goals rw [hafter] at hfree hreached
  · have hnear := hnear hevent
    unfold Standing.fail at hfree hreached
    split at hfree
    · next hwas => exact absurd hwas hfree
    · next hnot =>
      rw [if_neg hnot] at hreached
      have hunbanned : ll.bans ip now = false := by rwa [← Bool.not_eq_true, hbans]
      split at hfree
      · -- the failure makes up a ban
        rw [Standing.banned_cons] at hfree
        exact absurd (.inl (by omega)) hfree
      · next hban =>
        rw [if_neg hban, Standing.inWindow_cons] at hreached
        have hle : (st ip).inWindow ll.policy now +
            (if now - ll.policy.attemptsWindow < now then 1 else 0) ≤ (st ip).inWindow ll.policy now + 1 := by
          split <;> omega
        unfold nearlyDemands failures at hnear
        rw [hon, hunbanned, hfailures, decide_eq_true (by omega), decide_eq_false hban] at hnear
        cases hnear
  · exact ⟨hon, hfree, hreached⟩
  · refine ⟨hon, hfree, le_trans hreached ?_⟩
    have hnone : Standing.inWindow ll.policy ⟨[], (st ip).bans⟩ now = 0 := rfl
    rw [hnone]
    omega

end

theorem lost_of_filter {attempts : List ℤ} {cutoff t : ℤ} (ht : t ∈ attempts)
    (hlost : t ∉ attempts.filter (cutoff < ·)) : t ≤ cutoff := by
  by_contra hgt
  exact hlost (List.mem_filter.mpr ⟨ht, by simpa using hgt⟩)

/-- What pruning takes from one ip has left the window. -/
theorem lost_of_prune {cutoff t : ℤ} (ip' : String) (more : List ℤ) (ht : t ∈ ll.attempts ip)
    (hlost : t ∉ Function.update ll.attempts ip' ((ll.attempts ip').filter (cutoff < ·) ++ more) ip) :
    t ≤ cutoff := by
  by_cases hip : ip = ip'
  · subst hip
    rw [Function.update_self] at hlost
    exact lost_of_filter ht fun hmem => hlost (List.mem_append_left _ hmem)
  · rw [Function.update_of_ne hip] at hlost
    exact absurd ht hlost

theorem lost_of_checkSecurityStatus {ip' : String} {t : ℤ} (ht : t ∈ ll.attempts ip)
    (hlost : t ∉ (ll.checkSecurityStatus ip' now).1.attempts ip) : t ≤ now - ll.policy.attemptsWindow := by
  have hattempts := @isBanned_attempts ll ip' now
  have hpolicy := isBanned_policy ll ip' now
  unfold checkSecurityStatus at hlost
  split at hlost
  · exact absurd ht hlost
  · rcases hres : ll.isBanned ip' now with ⟨ll₁, _ | record⟩
    all_goals
      rw [hres] at hattempts hpolicy hlost
      rw [← hattempts] at ht
    · rw [← hpolicy]
      refine lost_of_prune ip' [] ht ?_
      rw [List.append_nil]
      exact hlost
    · exact absurd ht hlost

/-- A recorded failure changes no attempts, or prunes those of the ip, or makes up a ban of the ip. -/
theorem recordFailedAttempt_cases : (ll.recordFailedAttempt ip now).attempts = ll.attempts ∨
      (∀ ip', ∀ t ∈ ll.attempts ip', t ∉ (ll.recordFailedAttempt ip now).attempts ip' →
        t ≤ now - ll.policy.attemptsWindow) ∨
      ((0 ≤ ll.policy.banDuration → (ll.recordFailedAttempt ip now).bans ip now = true) ∧
        ∀ ip', ip' ≠ ip → (ll.recordFailedAttempt ip now).attempts ip' = ll.attempts ip') := by
  have hattempts := @isBanned_attempts ll ip now
  have hpolicy := isBanned_policy ll ip now
  unfold recordFailedAttempt
  split
  · exact .inl rfl
  · rcases hres : ll.isBanned ip now with ⟨ll₁, _ | record⟩
    all_goals
      rw [hres] at hattempts hpolicy
      dsimp only at hattempts hpolicy ⊢
    · split
      · refine .inr (.inr ⟨fun hduration => ?_, fun ip' hip => ?_⟩)
        · rw [← hpolicy] at hduration
          simp only [bans, banIP, pruneAttempts, Function.update_self, Option.any_some, decide_eq_true_eq]
          omega
        · simp only [banIP, pruneAttempts, Function.update_of_ne hip, hattempts]
      · refine .inr (.inl fun ip' t ht hlost => ?_)
        rw [← hattempts] at ht
        rw [← hpolicy]
        refine lost_of_prune ip [now] ht ?_
        simpa only [pruneAttempts, Function.update_idem] using hlost
    · exact .inl hattempts

/-- **An attempt that a call loses** has left the window or made up a ban, or the call removes attempts. -/
theorem lost_attempt {event : LimiterEvent} {t : ℤ} (hduration : 0 ≤ ll.policy.banDuration)
    (ht : t ∈ ll.attempts ip) (hlost : t ∉ (ll.step now event).attempts ip) :
    t ≤ now - ll.policy.attemptsWindow ∨ (ll.step now event).bans ip now = true ∨ event = .removeAttempts ip := by
  cases event with
  | recordFailedAttempt ip' =>
    rcases @recordFailedAttempt_cases ll ip' now with hsame | hkept | ⟨hban, hothers⟩
    · exact absurd (hsame ▸ ht) hlost
    · exact .inl (hkept ip t ht hlost)
    · by_cases hip : ip = ip'
      · rw [hip]
        exact .inr (.inl (hban hduration))
      · exact absurd (hothers ip hip ▸ ht) hlost
  | removeAttempts ip' =>
    by_cases hip : ip = ip'
    · exact .inr (.inr (by rw [hip]))
    · refine absurd ?_ hlost
      show t ∈ Function.update ll.attempts ip' [] ip
      rwa [Function.update_of_ne hip]
  | checkSecurityStatus ip' => exact .inl (lost_of_checkSecurityStatus ht hlost)
  | cleanupExpired => exact .inl (lost_of_filter ht hlost)
  | registerProvider expiration => exact absurd ht hlost
  | requireCaptcha generated =>
    refine absurd ?_ hlost
    show t ∈ (ll.requireCaptcha now generated).1.attempts ip
    unfold requireCaptcha
    split
    · exact ht
    · split <;> exact ht
  | verifyCaptcha id answer =>
    refine absurd ?_ hlost
    show t ∈ (ll.verifyCaptcha now id answer).1.attempts ip
    unfold verifyCaptcha
    split
    · split
      · exact ht
      · split <;> exact ht
    · exact ht

/-- Whether a captcha of this id waits for its solution. -/
def waiting (ll : LoginLimiter) (id : String) : ℕ := if (ll.captchas id).isSome then 1 else 0

theorem isBanned_captchas : (ll.isBanned ip now).1.captchas = ll.captchas := by
  unfold isBanned
  split
  · rfl
  · split <;> rfl

theorem checkSecurityStatus_captchas : (ll.checkSecurityStatus ip now).1.captchas = ll.captchas := by
  have hcaptchas := @isBanned_captchas ll ip now
  unfold checkSecurityStatus
  split
  · rfl
  · rcases hres : ll.isBanned ip now with ⟨ll₁, _ | record⟩
    all_goals
      rw [hres] at hcaptchas
      exact hcaptchas

theorem recordFailedAttempt_captchas (id : String) : (ll.recordFailedAttempt ip now).captchas id = ll.captchas id ∨
      (ll.recordFailedAttempt ip now).captchas id = none := by
  have hcaptchas := @isBanned_captchas ll ip now
  unfold recordFailedAttempt
  split
  · exact .inl rfl
  · rcases hres : ll.isBanned ip now with ⟨ll₁, _ | record⟩
    all_goals
      rw [hres] at hcaptchas
      dsimp only at hcaptchas ⊢
    · split
      · -- a ban takes the captcha whose id is the ip
        simp only [banIP, pruneAttempts, hcaptchas]
        by_cases hid : id = ip
        · rw [hid]
          exact .inr (Function.update_self ..)
        · exact .inl (Function.update_of_ne hid ..)
      · exact .inl (by rw [pruneAttempts, hcaptchas])
    · exact .inl (by rw [hcaptchas])

theorem verifyCaptcha_cases (id answer : String) : ((ll.verifyCaptcha now id answer).2 = false ∧
      ∀ id', (ll.verifyCaptcha now id answer).1.captchas id' = ll.captchas id' ∨
        (ll.verifyCaptcha now id answer).1.captchas id' = none) ∨
      ((ll.verifyCaptcha now id answer).2 = true ∧ (ll.captchas id).isSome = true ∧
        (ll.verifyCaptcha now id answer).1.captchas = Function.update ll.captchas id none) := by
  unfold verifyCaptcha
  split
  · next expiration captcha _ hcaptcha =>
    split
    · refine .inl ⟨rfl, fun id' => ?_⟩
      by_cases hid : id' = id
      · subst hid
        exact .inr (Function.update_self ..)
      · exact .inl (Function.update_of_ne hid ..)
    · split
      · exact .inr ⟨rfl, by rw [hcaptcha]; rfl, rfl⟩
      · exact .inl ⟨rfl, fun id' => .inl rfl⟩
  · exact .inl ⟨rfl, fun id' => .inl rfl⟩

theorem waiting_update_none (ll' : LoginLimiter) (id id' : String)
    (hcaptchas : ll'.captchas = Function.update ll.captchas id none) :
    ll'.waiting id' + (if id = id' then ll.waiting id else 0) = ll.waiting id' := by
  unfold waiting
  rw [hcaptchas]
  by_cases hid : id' = id
  · subst hid
    rw [Function.update_self, if_pos rfl]
    simp
  · rw [Function.update_of_ne hid, if_neg (Ne.symm hid), Nat.add_zero]

/-- **A captcha goes with the solution that is accepted.** -/
theorem waiting_step (event : LimiterEvent) (id : String) :
    (ll.step now event).waiting id + (ll.accepts now event).count id ≤
      ll.waiting id + (ll.generates now event).count id := by
  have hkept : ∀ {ll' : LoginLimiter}, (ll'.captchas id = ll.captchas id ∨ ll'.captchas id = none) →
      ll'.waiting id ≤ ll.waiting id := by
    rintro ll' (hsame | hnone)
    · exact le_of_eq (by rw [waiting, waiting, hsame])
    · rw [waiting, hnone]
      exact Nat.zero_le _
  cases event with
  | recordFailedAttempt ip => exact hkept (recordFailedAttempt_captchas id)
  | removeAttempts ip => exact hkept (.inl rfl)
  | checkSecurityStatus ip => exact hkept (.inl (by rw [LoginLimiter.step, checkSecurityStatus_captchas]))
  | cleanupExpired =>
    refine hkept ?_
    show (ll.captchas id).filter _ = ll.captchas id ∨ (ll.captchas id).filter _ = none
    cases ll.captchas id with
    | none => exact .inl rfl
    | some captcha =>
      rw [Option.filter_some]
      split
      · exact .inl rfl
      · exact .inr rfl
  | registerProvider expiration => exact hkept (.inl rfl)
  | requireCaptcha generated =>
    show (ll.requireCaptcha now generated).1.waiting id + _ ≤ _
    unfold generates requireCaptcha
    split
    · exact le_refl _
    · split
      · exact le_refl _
      · next id' content answer =>
        show waiting _ id + 0 ≤ _
        unfold waiting
        by_cases hid : id = id'
        · subst hid
          simp
        · simp [hid]
  | verifyCaptcha id' answer =>
    show (ll.verifyCaptcha now id' answer).1.waiting id +
      List.count id (if (ll.verifyCaptcha now id' answer).2 then [id'] else []) ≤ ll.waiting id + 0
    rcases @verifyCaptcha_cases ll now id' answer with ⟨hno, hcaptchas⟩ | ⟨hyes, hsome, hcaptchas⟩
    · rw [hno, if_neg Bool.false_ne_true, List.count_nil]
      exact hkept (hcaptchas id)
    · have hupdate := waiting_update_none _ id' id hcaptchas
      have hone : ll.waiting id' = 1 := if_pos hsome
      rw [hone] at hupdate
      rw [hyes, if_pos rfl, List.count_singleton, ← hupdate]
      simp

end LoginLimiter

end RustDesk.Api
