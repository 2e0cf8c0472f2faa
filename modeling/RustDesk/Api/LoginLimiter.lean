import Mathlib.Algebra.Order.Group.Unbundled.Int
import Mathlib.Data.Int.Order.Basic
import Mathlib.Tactic.Common

/-!
# The login limiter

Reference: `rustdesk-api/utils/login_limiter.go`.

Times and durations are nanoseconds, and a call reads the clock once. A map from ips to attempts has no empty entries, so an ip without an entry has no attempts.

What the limiter is for is a `Standing` of each ip: the failures that count, and when it was banned. A ban
uses up the failures that led to it, and failures while banned do not count. `status_iff` reads
`CheckSecurityStatus` off the standing, so that neither pruning nor the background cleaner shows. The one
policy it leaves out is a captcha threshold below 0 with a ban threshold (`negative_threshold_requires`).
-/

namespace RustDesk.Api

structure SecurityPolicy where
  /-- Below 0 for no captcha, 0 for always. -/
  captchaThreshold : ℤ
  /-- 0 for no bans. -/
  banThreshold : ℤ
  attemptsWindow : ℤ
  banDuration : ℤ
deriving DecidableEq

structure CaptchaMeta where
  id : String
  content : String
  answer : String
  expiresAt : ℤ

structure BanRecord where
  expiresAt : ℤ
  reason : String

/-- The limiter. Of the captcha provider it keeps how long its captchas last. -/
structure LoginLimiter where
  policy : SecurityPolicy
  attempts : String → List ℤ
  captchas : String → Option CaptchaMeta
  bannedIPs : String → Option BanRecord
  provider : Option ℤ

/-- A minute. -/
def minute : ℤ := 60 * 1000000000

/-- The policy with the defaults that `NewLoginLimiter` puts in. -/
def SecurityPolicy.withDefaults (policy : SecurityPolicy) : SecurityPolicy :=
  { policy with
    attemptsWindow := if policy.attemptsWindow = 0 then 5 * minute else policy.attemptsWindow
    banDuration := if policy.banDuration = 0 then 30 * minute else policy.banDuration }

/-- A call of the limiter. -/
inductive LimiterEvent
  | recordFailedAttempt (ip : String)
  | removeAttempts (ip : String)
  | checkSecurityStatus (ip : String)
  | cleanupExpired
  | registerProvider (expiration : ℤ)
  | requireCaptcha (generated : Except String (String × String × String))
  | verifyCaptcha (id answer : String)
deriving DecidableEq

namespace LoginLimiter

def new (policy : SecurityPolicy) : LoginLimiter where
  policy := policy.withDefaults
  attempts := fun _ => []
  captchas := fun _ => none
  bannedIPs := fun _ => none
  provider := none

variable (ll : LoginLimiter) (ip : String) (now : ℤ)

def isDisabled : Bool := ll.policy.captchaThreshold < 0 && ll.policy.banThreshold == 0

def isBanned : LoginLimiter × Option BanRecord :=
  match ll.bannedIPs ip with
  | none => (ll, none)
  | some record =>
    if record.expiresAt < now then
      ({ ll with bannedIPs := Function.update ll.bannedIPs ip none }, none)
    else (ll, some record)

def banIP (reason : String) : LoginLimiter :=
  { ll with
    bannedIPs := Function.update ll.bannedIPs ip (some ⟨now + ll.policy.banDuration, reason⟩)
    attempts := Function.update ll.attempts ip []
    captchas := Function.update ll.captchas ip none }

def pruneAttempts (cutoff : ℤ) : LoginLimiter × List ℤ :=
  let valid := (ll.attempts ip).filter (cutoff < ·)
  ({ ll with attempts := Function.update ll.attempts ip valid }, valid)

def recordFailedAttempt : LoginLimiter :=
  if ll.isDisabled then ll
  else
    match ll.isBanned ip now with
    | (ll, some _) => ll
    | (ll, none) =>
      let windowStart := now - ll.policy.attemptsWindow
      let (ll, valid) := ll.pruneAttempts ip windowStart
      let validAttempts := valid ++ [now]
      let ll : LoginLimiter := { ll with attempts := Function.update ll.attempts ip validAttempts }
      if 0 < ll.policy.banThreshold ∧ ll.policy.banThreshold ≤ validAttempts.length then
        ll.banIP ip now "excessive failed attempts"
      else ll

def removeAttempts : LoginLimiter :=
  { ll with attempts := Function.update ll.attempts ip [] }

/-- What is left, and whether the ip is banned and whether it needs a captcha. -/
def checkSecurityStatus : LoginLimiter × Bool × Bool :=
  if ll.isDisabled then (ll, false, false)
  else
    match ll.isBanned ip now with
    | (ll, some _) => (ll, true, false)
    | (ll, none) =>
      let (ll, _) := ll.pruneAttempts ip (now - ll.policy.attemptsWindow)
      (ll, false, decide (ll.policy.captchaThreshold ≤ (ll.attempts ip).length))

/-- The cleaner goes over all entries of the three maps, with `pruneAttempts` and `pruneCaptchas` for the
last two. -/
def cleanupExpired : LoginLimiter :=
  { ll with
    bannedIPs := fun ip => (ll.bannedIPs ip).filter fun record => ¬ record.expiresAt < now
    attempts := fun ip => (ll.attempts ip).filter (now - ll.policy.attemptsWindow < ·)
    captchas := fun id => (ll.captchas id).filter fun captcha => ¬ captcha.expiresAt < now }

def requireCaptcha (generated : Except String (String × String × String)) :
    LoginLimiter × Except String CaptchaMeta :=
  match ll.provider with
  | none => (ll, .error "no captcha provider available")
  | some expiration =>
    match generated with
    | .error err => (ll, .error err)
    | .ok (id, content, answer) =>
      let captcha := ⟨id, content, answer, now + expiration⟩
      ({ ll with captchas := Function.update ll.captchas id (some captcha) }, .ok captcha)

def verifyCaptcha (id answer : String) : LoginLimiter × Bool :=
  match ll.provider, ll.captchas id with
  | some _, some captcha =>
    if captcha.expiresAt < now then
      ({ ll with captchas := Function.update ll.captchas id none }, false)
    else if answer = captcha.answer then
      ({ ll with captchas := Function.update ll.captchas id none }, true)
    else (ll, false)
  | _, _ => (ll, false)

/-- What a call leaves. -/
def step : LimiterEvent → LoginLimiter
  | .recordFailedAttempt ip => ll.recordFailedAttempt ip now
  | .removeAttempts ip => ll.removeAttempts ip
  | .checkSecurityStatus ip => (ll.checkSecurityStatus ip now).1
  | .cleanupExpired => ll.cleanupExpired now
  | .registerProvider expiration => { ll with provider := some expiration }
  | .requireCaptcha generated => (ll.requireCaptcha now generated).1
  | .verifyCaptcha id answer => (ll.verifyCaptcha now id answer).1

end LoginLimiter

/-- Calls and their times, the latest first. -/
abbrev LimiterHistory := List (ℤ × LimiterEvent)

/-- No call is earlier than the one before it. -/
def LimiterHistory.Timed (h : LimiterHistory) : Prop :=
  h.Pairwise fun later earlier => earlier.1 ≤ later.1

/-- The limiter after a history. -/
def LoginLimiter.after (policy : SecurityPolicy) : LimiterHistory → LoginLimiter
  | [] => .new policy
  | (now, event) :: h => (after policy h).step now event

/-! ## Standing -/

/-- How an ip stands: the failures that count, and when it was banned. -/
structure Standing where
  failures : List ℤ
  bans : List ℤ

namespace Standing

variable (policy : SecurityPolicy) (s : Standing) (now : ℤ)

/-- At most the ban duration has passed since a ban. -/
def Banned : Prop := ∃ ban ∈ s.bans, now ≤ ban + policy.banDuration

instance : Decidable (s.Banned policy now) := List.decidableBEx ..

variable {policy s now} in
theorem Banned.earlier {later : ℤ} (h : s.Banned policy later) (hlater : now ≤ later) : s.Banned policy now := by
  obtain ⟨ban, hban, hle⟩ := h
  exact ⟨ban, hban, hlater.trans hle⟩

/-- The failures still inside the window. -/
def inWindow : ℕ := s.failures.countP (now - policy.attemptsWindow < ·)

theorem banned_cons {failures : List ℤ} {ban : ℤ} : Banned policy ⟨failures, ban :: s.bans⟩ now ↔
      now ≤ ban + policy.banDuration ∨ s.Banned policy now := by
  simp [Banned]

theorem inWindow_cons {failure : ℤ} {bans : List ℤ} : inWindow policy ⟨failure :: s.failures, bans⟩ now =
      s.inWindow policy now + if now - policy.attemptsWindow < failure then 1 else 0 := by
  simp [inWindow, List.countP_cons]

/-- A failure. It counts unless the ip is banned, and it may complete what it takes for a ban. -/
def fail : Standing :=
  if s.Banned policy now then s
  else if 0 < policy.banThreshold ∧ policy.banThreshold ≤ s.inWindow policy now + 1 then
    ⟨[], now :: s.bans⟩
  else ⟨now :: s.failures, s.bans⟩

/-- What a call does to the standing of an ip. -/
def after (ip : String) : LimiterEvent → Standing
  | .recordFailedAttempt ip' => if ip' = ip then s.fail policy now else s
  | .removeAttempts ip' => if ip' = ip then ⟨[], s.bans⟩ else s
  | _ => s

/-- The standing of an ip after a history. -/
def ofHistory (ip : String) : LimiterHistory → Standing
  | [] => ⟨[], []⟩
  | (now, event) :: h => (ofHistory ip h).after policy now ip event

end Standing

/-! ## The limiter tracks the standings -/

namespace LoginLimiter

variable {policy : SecurityPolicy} {ll : LoginLimiter} {st : String → Standing} {now : ℤ}

/-- From some time on, the limiter knows of each ip whether it is banned and which failures are still
inside the window. -/
structure Tracks (policy : SecurityPolicy) (ll : LoginLimiter) (st : String → Standing) (since : ℤ) :
    Prop where
  policy_eq : ll.policy = policy
  bans : ∀ ip now, since ≤ now →
    ((∃ record ∈ ll.bannedIPs ip, now ≤ record.expiresAt) ↔ (st ip).Banned policy now)
  failures : ∀ ip now, since ≤ now →
    (ll.attempts ip).countP (now - policy.attemptsWindow < ·) = (st ip).inWindow policy now

theorem Tracks.later {since : ℤ} (h : Tracks policy ll st since) (hnow : since ≤ now) : Tracks policy ll st now :=
  ⟨h.policy_eq, fun ip later hlater => h.bans ip later (hnow.trans hlater),
    fun ip later hlater => h.failures ip later (hnow.trans hlater)⟩

/-- What has left the window is not missed. -/
theorem countP_filter_window (window : ℤ) {later : ℤ} (hlater : now ≤ later) (attempts : List ℤ) :
    (attempts.filter (now - window < ·)).countP (later - window < ·) = attempts.countP (later - window < ·) := by
  rw [List.countP_filter]
  refine List.countP_congr fun t _ => ?_
  simp only [Bool.and_eq_true, decide_eq_true_eq]
  omega

section

variable (h : Tracks policy ll st now)
include h

theorem Tracks.isBanned (ip : String) : Tracks policy (ll.isBanned ip now).1 st now ∧
      (((ll.isBanned ip now).2.isSome = true) ↔ (st ip).Banned policy now) := by
  have hbans := h.bans ip now (le_refl now)
  unfold LoginLimiter.isBanned
  cases hrecord : ll.bannedIPs ip with
  | none =>
    refine ⟨h, ?_⟩
    rw [← hbans, hrecord]
    simp
  | some record =>
    dsimp only
    split
    · next hexpired =>
      refine ⟨⟨h.policy_eq, fun ip' later hlater => ?_, h.failures⟩, ?_⟩
      · rw [← h.bans ip' later hlater]
        by_cases hip : ip' = ip
        · rw [hip, hrecord]
          simp only [Function.update_self, Option.mem_def, Option.some.injEq]
          constructor
          · rintro ⟨r, hr, -⟩
            cases hr
          · rintro ⟨r, rfl, hr⟩
            omega
        · simp only [Function.update_of_ne hip]
      · rw [← hbans, hrecord]
        simp only [Option.isSome_none, Option.mem_def, Option.some.injEq, exists_eq_left']
        constructor
        · intro hfalse
          cases hfalse
        · intro hle
          omega
    · next hvalid =>
      refine ⟨h, ?_⟩
      rw [← hbans, hrecord]
      simp only [Option.isSome_some, Option.mem_def, Option.some.injEq, exists_eq_left', true_iff]
      omega

theorem Tracks.pruneAttempts (ip : String) :
    Tracks policy (ll.pruneAttempts ip (now - policy.attemptsWindow)).1 st now ∧
      (ll.pruneAttempts ip (now - policy.attemptsWindow)).2.length = (st ip).inWindow policy now := by
  refine ⟨⟨h.policy_eq, h.bans, fun ip' later hlater => ?_⟩, ?_⟩
  · rw [← h.failures ip' later hlater]
    show (Function.update ll.attempts ip _ ip').countP _ = _
    by_cases hip : ip' = ip
    · rw [hip, Function.update_self, countP_filter_window _ hlater]
    · rw [Function.update_of_ne hip]
  · rw [← h.failures ip now (le_refl now), List.countP_eq_length_filter]
    rfl

/-- A change of one standing. -/
theorem Tracks.update {ll' : LoginLimiter} {ip : String} {standing : Standing} (hpolicy : ll'.policy = ll.policy)
    (hothers : ∀ ip', ip' ≠ ip → ll'.bannedIPs ip' = ll.bannedIPs ip' ∧ ll'.attempts ip' = ll.attempts ip')
    (hbans : ∀ later, now ≤ later →
      ((∃ record ∈ ll'.bannedIPs ip, later ≤ record.expiresAt) ↔ standing.Banned policy later))
    (hfailures : ∀ later, now ≤ later →
      (ll'.attempts ip).countP (later - policy.attemptsWindow < ·) = standing.inWindow policy later) :
    Tracks policy ll' (Function.update st ip standing) now := by
  refine ⟨hpolicy.trans h.policy_eq, fun ip' later hlater => ?_, fun ip' later hlater => ?_⟩
  · by_cases hip : ip' = ip
    · rw [hip, Function.update_self]
      exact hbans later hlater
    · rw [Function.update_of_ne hip, (hothers ip' hip).1]
      exact h.bans ip' later hlater
  · by_cases hip : ip' = ip
    · rw [hip, Function.update_self]
      exact hfailures later hlater
    · rw [Function.update_of_ne hip, (hothers ip' hip).2]
      exact h.failures ip' later hlater

theorem Tracks.recordFailedAttempt (hon : ll.isDisabled = false) (ip : String) :
    Tracks policy (ll.recordFailedAttempt ip now) (Function.update st ip ((st ip).fail policy now)) now := by
  obtain ⟨h₁, hbanned⟩ := h.isBanned ip
  unfold LoginLimiter.recordFailedAttempt Standing.fail
  rw [hon, if_neg Bool.false_ne_true]
  rcases hres : ll.isBanned ip now with ⟨ll₁, _ | record⟩
  · rw [hres] at h₁ hbanned
    have hfree : ¬ (st ip).Banned policy now := fun hb => Bool.false_ne_true (hbanned.mpr hb)
    obtain ⟨h₂, hlen⟩ := h₁.pruneAttempts ip
    have hcount : ((ll₁.pruneAttempts ip (now - policy.attemptsWindow)).2 ++ [now]).length =
        (st ip).inWindow policy now + 1 := by rw [List.length_append, hlen, List.length_singleton]
    have hothers : ∀ ip', ip' ≠ ip → ∀ attempts : List ℤ,
        Function.update (ll₁.pruneAttempts ip (now - policy.attemptsWindow)).1.attempts ip attempts ip' =
          ll₁.attempts ip' := by
      intro ip' hip attempts
      rw [Function.update_of_ne hip]
      exact Function.update_of_ne hip _ _
    dsimp only
    rw [if_neg hfree, h₁.policy_eq, hcount]
    show Tracks policy (if 0 < ll₁.policy.banThreshold ∧ ll₁.policy.banThreshold ≤ _ then _ else _) _ now
    rw [h₁.policy_eq]
    push_cast
    split
    · next hban =>
      -- the bans before this one are over
      refine h₁.update rfl (fun ip' hip => ⟨Function.update_of_ne hip _ _, ?_⟩) (fun later hlater => ?_)
        (fun later _ => ?_)
      · exact (Function.update_of_ne hip _ _).trans (hothers ip' hip _)
      · have hover : ¬ (st ip).Banned policy later := fun hb => hfree (hb.earlier hlater)
        have hpolicy : (ll₁.pruneAttempts ip (now - policy.attemptsWindow)).1.policy = policy := h₂.policy_eq
        rw [Standing.banned_cons, or_iff_left hover]
        simp only [banIP, Function.update_self, Option.mem_def, Option.some.injEq, exists_eq_left', hpolicy]
      · simp only [banIP, Function.update_self]
        rfl
    · next hno =>
      refine h₁.update rfl (fun ip' hip => ⟨rfl, hothers ip' hip _⟩) (fun later hlater => ?_)
        (fun later hlater => ?_)
      · exact h₁.bans ip later hlater
      · have hwindow := countP_filter_window policy.attemptsWindow hlater (ll₁.attempts ip)
        rw [Standing.inWindow_cons, ← h₁.failures ip later hlater, ← hwindow]
        simp only [Function.update_self, List.countP_append, List.countP_singleton, decide_eq_true_eq]
        rfl
  · rw [hres] at h₁ hbanned
    rw [if_pos (hbanned.mp rfl), Function.update_eq_self]
    exact h₁

theorem Tracks.removeAttempts (ip : String) :
    Tracks policy (ll.removeAttempts ip) (Function.update st ip ⟨[], (st ip).bans⟩) now :=
  h.update rfl (fun _ hip => ⟨rfl, Function.update_of_ne hip _ _⟩) (fun later => h.bans ip later)
    fun later _ => by simp [LoginLimiter.removeAttempts, Standing.inWindow]

theorem Tracks.cleanupExpired : Tracks policy (ll.cleanupExpired now) st now := by
  refine ⟨h.policy_eq, fun ip later hlater => ?_, fun ip later hlater => ?_⟩
  · rw [← h.bans ip later hlater]
    simp only [LoginLimiter.cleanupExpired, Option.mem_def, Option.filter_eq_some_iff, decide_eq_true_eq]
    constructor
    · rintro ⟨record, ⟨hrecord, -⟩, hle⟩
      exact ⟨record, hrecord, hle⟩
    · rintro ⟨record, hrecord, hle⟩
      exact ⟨record, ⟨hrecord, by omega⟩, hle⟩
  · rw [← h.failures ip later hlater]
    show ((ll.attempts ip).filter (now - ll.policy.attemptsWindow < ·)).countP _ = _
    rw [h.policy_eq]
    exact countP_filter_window _ hlater _

/-- **`CheckSecurityStatus`** answers by the standing of the ip. -/
theorem Tracks.checkSecurityStatus (hon : ll.isDisabled = false) (ip : String) :
    Tracks policy (ll.checkSecurityStatus ip now).1 st now ∧
      (ll.checkSecurityStatus ip now).2 = (decide ((st ip).Banned policy now),
        decide (¬ (st ip).Banned policy now ∧ policy.captchaThreshold ≤ (st ip).inWindow policy now)) := by
  obtain ⟨h₁, hbanned⟩ := h.isBanned ip
  unfold LoginLimiter.checkSecurityStatus
  rw [hon, if_neg Bool.false_ne_true]
  rcases hres : ll.isBanned ip now with ⟨ll₁, _ | record⟩
  · rw [hres] at h₁ hbanned
    have hfree : ¬ (st ip).Banned policy now := fun hb => Bool.false_ne_true (hbanned.mpr hb)
    obtain ⟨h₂, hlen⟩ := h₁.pruneAttempts ip
    dsimp only
    rw [h₁.policy_eq]
    refine ⟨h₂, ?_⟩
    have hattempts : (ll₁.pruneAttempts ip (now - policy.attemptsWindow)).1.attempts ip =
        (ll₁.pruneAttempts ip (now - policy.attemptsWindow)).2 := Function.update_self _ _ _
    rw [hattempts, hlen, h₂.policy_eq]
    simp [hfree]
  · rw [hres] at h₁ hbanned
    refine ⟨h₁, ?_⟩
    simp [hbanned.mp rfl]

/-- **One call**, at the time from which the limiter tracks the standings. -/
theorem Tracks.step (hon : ll.isDisabled = false) (event : LimiterEvent) :
    Tracks policy (ll.step now event) (fun ip => (st ip).after policy now ip event) now := by
  cases event with
  | recordFailedAttempt ip =>
    have hst : (fun ip' => (st ip').after policy now ip' (.recordFailedAttempt ip)) =
        Function.update st ip ((st ip).fail policy now) := by
      funext ip'
      by_cases hip : ip = ip'
      · rw [← hip, Function.update_self, Standing.after, if_pos rfl]
      · rw [Function.update_of_ne (Ne.symm hip), Standing.after, if_neg hip]
    rw [hst]
    exact h.recordFailedAttempt hon ip
  | removeAttempts ip =>
    have hst : (fun ip' => (st ip').after policy now ip' (.removeAttempts ip)) =
        Function.update st ip ⟨[], (st ip).bans⟩ := by
      funext ip'
      by_cases hip : ip = ip'
      · rw [← hip, Function.update_self, Standing.after, if_pos rfl]
      · rw [Function.update_of_ne (Ne.symm hip), Standing.after, if_neg hip]
    rw [hst]
    exact h.removeAttempts ip
  | checkSecurityStatus ip => exact (h.checkSecurityStatus hon ip).1
  | cleanupExpired => exact h.cleanupExpired
  | registerProvider expiration => exact ⟨h.policy_eq, h.bans, h.failures⟩
  | requireCaptcha generated =>
    show Tracks policy (ll.requireCaptcha now generated).1 st now
    unfold LoginLimiter.requireCaptcha
    split
    · exact h
    · split
      · exact h
      · exact ⟨h.policy_eq, h.bans, h.failures⟩
  | verifyCaptcha id answer =>
    show Tracks policy (ll.verifyCaptcha now id answer).1 st now
    unfold LoginLimiter.verifyCaptcha
    split
    · split
      · exact ⟨h.policy_eq, h.bans, h.failures⟩
      · split
        · exact ⟨h.policy_eq, h.bans, h.failures⟩
        · exact h
    · exact h

end

theorem tracks_new (policy : SecurityPolicy) (now : ℤ) :
    Tracks policy.withDefaults (new policy) (fun _ => ⟨[], []⟩) now :=
  ⟨rfl, fun ip later _ => by simp [new, Standing.Banned], fun ip later _ => rfl⟩

theorem Tracks.isDisabled (h : Tracks policy ll st now) :
    ll.isDisabled = (decide (policy.captchaThreshold < 0) && policy.banThreshold == 0) := by
  unfold LoginLimiter.isDisabled
  rw [h.policy_eq]

/-- **The whole history**, if the policy does not disable the limiter. -/
theorem tracks_after {h : LimiterHistory}
    (hon : (decide (policy.captchaThreshold < 0) && policy.banThreshold == 0) = false)
    (htimed : h.Timed) (hnow : ∀ call ∈ h, call.1 ≤ now) :
    Tracks policy.withDefaults (after policy h) (fun ip => Standing.ofHistory policy.withDefaults ip h) now := by
  induction h generalizing now with
  | nil => exact tracks_new policy now
  | cons call h ih =>
    obtain ⟨time, event⟩ := call
    obtain ⟨hearlier, htimed'⟩ := List.pairwise_cons.mp htimed
    have hbefore := ih htimed' hearlier
    have hafter := hbefore.step (hbefore.isDisabled.trans hon) event
    exact hafter.later (hnow _ (List.mem_cons_self ..))

theorem isBanned_policy (ll : LoginLimiter) (ip : String) (now : ℤ) : (ll.isBanned ip now).1.policy = ll.policy := by
  unfold isBanned
  split
  · rfl
  · split <;> rfl

theorem step_policy (event : LimiterEvent) : (ll.step now event).policy = ll.policy := by
  cases event with
  | recordFailedAttempt ip =>
    have hpolicy := isBanned_policy ll ip now
    show (ll.recordFailedAttempt ip now).policy = _
    unfold LoginLimiter.recordFailedAttempt
    split
    · rfl
    · split
      · next heq =>
        rw [heq] at hpolicy
        exact hpolicy
      · next heq =>
        rw [heq] at hpolicy
        dsimp only
        split <;> exact hpolicy
  | removeAttempts ip => rfl
  | checkSecurityStatus ip =>
    have hpolicy := isBanned_policy ll ip now
    show (ll.checkSecurityStatus ip now).1.policy = _
    unfold LoginLimiter.checkSecurityStatus
    split
    · rfl
    · split <;> next heq =>
        rw [heq] at hpolicy
        exact hpolicy
  | cleanupExpired => rfl
  | registerProvider expiration => rfl
  | requireCaptcha generated =>
    show (ll.requireCaptcha now generated).1.policy = _
    unfold LoginLimiter.requireCaptcha
    split
    · rfl
    · split <;> rfl
  | verifyCaptcha id answer =>
    show (ll.verifyCaptcha now id answer).1.policy = _
    unfold LoginLimiter.verifyCaptcha
    split
    · split
      · rfl
      · split <;> rfl
    · rfl

theorem after_policy (h : LimiterHistory) : (after policy h).policy = policy.withDefaults := by
  induction h with
  | nil => rfl
  | cons call h ih => exact (step_policy call.2).trans ih

theorem isDisabled_after (policy : SecurityPolicy) (h : LimiterHistory) :
    (after policy h).isDisabled = (decide (policy.captchaThreshold < 0) && policy.banThreshold == 0) := by
  unfold isDisabled
  rw [after_policy]
  rfl

end LoginLimiter

namespace Standing

variable {policy : SecurityPolicy} {ip : String}

theorem bans_eq_nil (hoff : policy.banThreshold ≤ 0) (h : LimiterHistory) : (ofHistory policy ip h).bans = [] := by
  induction h with
  | nil => rfl
  | cons call h ih =>
    obtain ⟨now, event⟩ := call
    cases event with
    | recordFailedAttempt ip' =>
      show (if ip' = ip then (ofHistory policy ip h).fail policy now else ofHistory policy ip h).bans = []
      unfold fail
      rw [if_neg (by omega : ¬ (0 < policy.banThreshold ∧ _))]
      split
      · split <;> exact ih
      · exact ih
    | removeAttempts ip' =>
      show (if ip' = ip then ⟨[], (ofHistory policy ip h).bans⟩ else ofHistory policy ip h).bans = []
      split <;> exact ih
    | _ => exact ih

/-- The cleaner is no part of what the standing depends on. -/
theorem ofHistory_filter (h : LimiterHistory) :
    ofHistory policy ip (h.filter (·.2 ≠ .cleanupExpired)) = ofHistory policy ip h := by
  induction h with
  | nil => rfl
  | cons call h ih =>
    obtain ⟨now, event⟩ := call
    by_cases hclean : event = .cleanupExpired
    · subst hclean
      rw [List.filter_cons_of_neg (by simp), ih]
      rfl
    · rw [List.filter_cons_of_pos (by simpa using hclean), ofHistory, ofHistory, ih]

end Standing

namespace LoginLimiter

variable {policy : SecurityPolicy} {h : LimiterHistory} {now : ℤ} {ip : String}

/-- The answer after a history, by the standing. -/
theorem checkSecurityStatus_after (htimed : LimiterHistory.Timed ((now, .checkSecurityStatus ip) :: h)) :
    ((after policy h).checkSecurityStatus ip now).2 =
      if (decide (policy.captchaThreshold < 0) && policy.banThreshold == 0) then (false, false)
      else
        let standing := Standing.ofHistory policy.withDefaults ip h
        (decide (standing.Banned policy.withDefaults now),
          decide (¬ standing.Banned policy.withDefaults now ∧
            policy.captchaThreshold ≤ standing.inWindow policy.withDefaults now)) := by
  obtain ⟨hnow, htimed'⟩ := List.pairwise_cons.mp htimed
  have hdisabled := isDisabled_after policy h
  split
  · next hoff =>
    rw [hoff] at hdisabled
    unfold checkSecurityStatus
    rw [if_pos hdisabled]
  · next hon =>
    rw [Bool.not_eq_true] at hon
    exact ((tracks_after hon htimed' hnow).checkSecurityStatus (hdisabled.trans hon) ip).2

/-- **What the limiter is for.** After any calls at any times in order, an ip is reported banned if at most
the ban duration has passed since a failure that counted and completed the threshold within the window,
and, where the captcha is not switched off for a limiter that bans, it is reported to need a captcha if it
is not banned and the failures that count and are still inside the window reach the threshold. When the
cleaner ran makes no difference. -/
theorem status_iff (htimed : LimiterHistory.Timed ((now, .checkSecurityStatus ip) :: h)) :
    let status := ((after policy h).checkSecurityStatus ip now).2
    let standing := Standing.ofHistory policy.withDefaults ip h
    (status.1 = true ↔ standing.Banned policy.withDefaults now) ∧
      (0 ≤ policy.captchaThreshold ∨ policy.banThreshold = 0 →
        (status.2 = true ↔ ¬ standing.Banned policy.withDefaults now ∧ 0 ≤ policy.captchaThreshold ∧
          policy.captchaThreshold ≤ standing.inWindow policy.withDefaults now)) ∧
      status =
        ((after policy (h.filter (·.2 ≠ .cleanupExpired))).checkSecurityStatus ip now).2 := by
  have htimed' : LimiterHistory.Timed
      ((now, .checkSecurityStatus ip) :: h.filter (·.2 ≠ .cleanupExpired)) :=
    List.Pairwise.sublist (List.filter_sublist.cons_cons _) htimed
  rw [checkSecurityStatus_after htimed, checkSecurityStatus_after htimed', Standing.ofHistory_filter]
  split
  · next hoff =>
    have hoff' : policy.captchaThreshold < 0 ∧ policy.banThreshold = 0 := by simpa using hoff
    have hfree : ¬ (Standing.ofHistory policy.withDefaults ip h).Banned policy.withDefaults now := by
      rintro ⟨ban, hban, -⟩
      have hnone : policy.withDefaults.banThreshold ≤ 0 := Int.le_of_eq hoff'.2
      rw [Standing.bans_eq_nil hnone] at hban
      cases hban
    refine ⟨iff_of_false Bool.false_ne_true hfree, fun _ => iff_of_false Bool.false_ne_true ?_, rfl⟩
    omega
  · next hon =>
    have hon' : ¬ (policy.captchaThreshold < 0 ∧ policy.banThreshold = 0) := by simpa using hon
    refine ⟨decide_eq_true_iff, fun hmeant => ?_, rfl⟩
    have hnonneg : 0 ≤ policy.captchaThreshold := by omega
    rw [decide_eq_true_iff]
    exact and_congr_right fun _ => (and_iff_right hnonneg).symm

/-- Three failures with the cleaner in between, and a third of the ban has passed. -/
theorem status_iff_third_failure :
    ((after ⟨2, 3, 10 * minute, 30 * minute⟩ [(9 * minute, .recordFailedAttempt "ip"),
        (8 * minute, .cleanupExpired), (5 * minute, .recordFailedAttempt "ip"),
        (0, .recordFailedAttempt "ip")]).checkSecurityStatus "ip" (19 * minute)).2.1 = true :=
  (status_iff (by unfold LimiterHistory.Timed; decide)).1.mpr (by decide)

/-- A captcha threshold below 0 does not switch the captcha off for a limiter that bans: it is required
of every ip that is not banned. -/
theorem negative_threshold_requires (htimed : LimiterHistory.Timed ((now, .checkSecurityStatus ip) :: h))
    (hcaptcha : policy.captchaThreshold < 0) (hban : policy.banThreshold ≠ 0) :
    ((after policy h).checkSecurityStatus ip now).2.2 = !((after policy h).checkSecurityStatus ip now).2.1 := by
  rw [checkSecurityStatus_after htimed, if_neg (by simp [hban])]
  have hreached : policy.captchaThreshold ≤
      (Standing.ofHistory policy.withDefaults ip h).inWindow policy.withDefaults now := by omega
  simp [hreached]

/-- The failures of an ip since its attempts were last removed. -/
def uncleared (ip : String) : LimiterHistory → List ℤ
  | [] => []
  | (now, .recordFailedAttempt ip') :: h => if ip' = ip then now :: uncleared ip h else uncleared ip h
  | (_, .removeAttempts ip') :: h => if ip' = ip then [] else uncleared ip h
  | _ :: h => uncleared ip h

/-- Any failure may complete what it takes for a ban, and any failure counts towards it. -/
def EveryFailureCounts (policy : SecurityPolicy) (ip : String) (h : LimiterHistory) (now : ℤ) : Prop :=
  ∃ time earlier, (time, .recordFailedAttempt ip) :: earlier <:+ h ∧ 0 < policy.banThreshold ∧
    policy.banThreshold ≤ (uncleared ip earlier).countP (time - policy.attemptsWindow < ·) + 1 ∧
    now ≤ time + policy.banDuration

/-- Two failures lead to a ban. Two more while banned do not count, so after half an hour the ip is free,
although 20 minutes ago the last two fell into one window. And a captcha threshold below 0 requires a captcha
of an ip that never failed. -/
theorem failures_while_banned :
    (let policy : SecurityPolicy := ⟨3, 2, 10 * minute, 30 * minute⟩
      let h : LimiterHistory := [(20 * minute, .recordFailedAttempt "ip"),
        (20 * minute, .recordFailedAttempt "ip"), (0, .recordFailedAttempt "ip"),
        (0, .recordFailedAttempt "ip")]
      LimiterHistory.Timed ((40 * minute, .checkSecurityStatus "ip") :: h) ∧
        EveryFailureCounts policy "ip" h (40 * minute) ∧
        ((after policy h).checkSecurityStatus "ip" (40 * minute)).2 = (false, false)) ∧
      ((after ⟨-1, 5, 10 * minute, 30 * minute⟩ []).checkSecurityStatus "ip" 0).2 = (false, true) := by
  refine ⟨⟨by unfold LimiterHistory.Timed; decide, ⟨20 * minute, _, List.suffix_refl _, ?_⟩, by decide⟩, by decide⟩
  decide

end LoginLimiter

end RustDesk.Api
