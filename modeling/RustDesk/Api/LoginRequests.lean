import RustDesk.Api.LimiterDemands
import RustDesk.Common.Run

/-!
# Login requests side by side

References: `rustdesk-api/http/middleware/limiter.go`, `http/controller/api/login.go` (`Login`),
`http/controller/admin/login.go` (`Login`), `cmd/apimain.go` (the policy).

The handlers of the requests take turns: a step is one call of the limiter, or one look at the user table. Other
requests, for a captcha or for the login options, are calls of the limiter that come at any time. What the user table
says to a name and a password is part of the step that asks it.

Only the handler of the admin route asks for a captcha, and it asks by what the limiter told it before.
-/

namespace RustDesk.Api

inductive LoginRoute
  | api
  | admin
deriving DecidableEq

/-- A request, with whether `ShouldBindJSON` finds a form in its body and whether `ValidStruct` lets it pass. -/
structure LoginRequest where
  route : LoginRoute
  clientIp : String
  binds : Bool
  valid : Bool
  captchaId : String
  captcha : String
deriving DecidableEq

def LoginRequest.wellFormed (request : LoginRequest) : Bool := request.binds && request.valid

/-- What the user table says: no such user or another password, a user who is disabled, or one who is not. -/
inductive UserResult
  | unknown
  | disabled
  | enabled
deriving DecidableEq

/-- A look at the user table: the result, whether the request had solved a captcha, and whether the limiter demanded
one at that time. -/
structure PasswordCheck where
  result : UserResult
  solved : Bool
  demanded : Bool
deriving DecidableEq

/-- What the handler of a request does next. -/
inductive Handler
  | bind
  /-- Of the admin route, after its `CheckSecurityStatus`. -/
  | bindAdmin (needCaptcha : Bool)
  | checkPassword (solved : Bool)
  | recordFailedAttempt (bound : Bool)
  /-- Of the admin route, for the code of its answer. -/
  | recheck
  /-- Of the admin route, after the user has logged in. -/
  | removeAttempts
  | answered
deriving DecidableEq

/-- A request that has arrived: whether the middleware was told that its ip is banned, what its handler does next, and
what it did so far. -/
structure Served where
  request : LoginRequest
  banned : Bool
  handler : Handler
  passwordChecks : List PasswordCheck
  recorded : ℕ
deriving DecidableEq

/-- `Limiter`: a banned ip is answered at once. -/
def LoginLimiter.serve (ll : LoginLimiter) (now : ℤ) (request : LoginRequest) : Served :=
  let banned := (ll.checkSecurityStatus request.clientIp now).2.1
  ⟨request, banned, if banned then .answered else .bind, [], 0⟩

namespace Served

variable (disablePwdLogin : Bool) (ll : LoginLimiter) (now : ℤ) (result : UserResult)

/-- One step of `Login`: the call of the limiter in it, and what is left to do. -/
def next (r : Served) : Option LimiterEvent × Served :=
  let clientIp := r.request.clientIp
  match r.handler with
  | .bind =>
    if disablePwdLogin then (none, { r with handler := .answered })
    else
      match r.request.route with
      | .api =>
        (none, { r with
          handler := if r.request.wellFormed then .checkPassword false else .recordFailedAttempt false })
      | .admin =>
        (some (.checkSecurityStatus clientIp),
          { r with handler := .bindAdmin (ll.checkSecurityStatus clientIp now).2.2 })
  | .bindAdmin needCaptcha =>
    if r.request.wellFormed then
      if needCaptcha then
        if r.request.captchaId = "" ∨ r.request.captcha = "" then (none, { r with handler := .answered })
        else
          (some (.verifyCaptcha r.request.captchaId r.request.captcha),
            { r with
              handler := if (ll.verifyCaptcha now r.request.captchaId r.request.captcha).2
                then .checkPassword true else .answered })
      else (none, { r with handler := .checkPassword false })
    else (none, { r with handler := .recordFailedAttempt false })
  | .checkPassword solved =>
    let check := ⟨result, solved, (ll.checkSecurityStatus clientIp now).2.2⟩
    (none, { r with
      passwordChecks := r.passwordChecks ++ [check]
      handler :=
        match result, r.request.route with
        | .unknown, _ => .recordFailedAttempt true
        | .enabled, .admin => .removeAttempts
        | _, _ => .answered })
  | .recordFailedAttempt bound =>
    (some (.recordFailedAttempt clientIp), { r with
      recorded := r.recorded + 1
      handler :=
        match bound, r.request.route with
        | true, .admin => .recheck
        | _, _ => .answered })
  | .recheck => (some (.checkSecurityStatus clientIp), { r with handler := .answered })
  | .removeAttempts => (some (.removeAttempts clientIp), { r with handler := .answered })
  | .answered => (none, r)

/-- On its way to the password check with no captcha asked of it. -/
def unasked (r : Served) : Bool :=
  r.request.wellFormed &&
    match r.handler, r.request.route with
    | .bind, .api => !disablePwdLogin
    | .bindAdmin false, _ | .checkPassword false, _ => true
    | _, _ => false

/-- The looks at the user table that found no user. -/
def wrongs (r : Served) : ℕ := r.passwordChecks.countP (·.result = .unknown)

/-- What has been done for a request, by what its handler does next. -/
def Progress (r : Served) : Prop :=
  match r.handler with
  | .bind | .bindAdmin _ | .recordFailedAttempt false => r.passwordChecks = [] ∧ r.recorded = 0
  | .checkPassword _ => r.request.wellFormed = true ∧ r.passwordChecks = [] ∧ r.recorded = 0
  | .recordFailedAttempt true => r.wrongs = 1 ∧ r.recorded = 0
  | .recheck => r.wrongs = 1 ∧ r.recorded = 1
  | .removeAttempts => r.wrongs = 0 ∧ r.recorded = 0
  | .answered => r.wrongs ≤ r.recorded ∧ r.recorded ≤ 1

section Next

variable {disablePwdLogin : Bool} {ll : LoginLimiter} {now : ℤ} {result : UserResult} {r : Served}

theorem next_request : (r.next disablePwdLogin ll now result).2.request = r.request := by
  unfold next
  grind

theorem next_banned : (r.next disablePwdLogin ll now result).2.banned = r.banned := by
  unfold next
  grind

theorem next_of_answered (h : r.handler = .answered) : r.next disablePwdLogin ll now result = (none, r) := by
  unfold next
  rw [h]

/-- **One step of a handler** keeps the count. -/
theorem Progress.next (h : r.Progress) : (r.next disablePwdLogin ll now result).2.Progress := by
  obtain ⟨request, banned, handler, passwordChecks, recorded⟩ := r
  unfold Served.next
  cases handler with
  | bind =>
    obtain ⟨rfl, rfl⟩ := h
    dsimp only
    split
    · exact ⟨le_refl _, Nat.zero_le _⟩
    · split
      · split
        · next hform => exact ⟨hform, rfl, rfl⟩
        · exact ⟨rfl, rfl⟩
      · exact ⟨rfl, rfl⟩
  | bindAdmin needCaptcha =>
    obtain ⟨rfl, rfl⟩ := h
    dsimp only
    split
    · next hform =>
      split
      · split
        · exact ⟨le_refl _, Nat.zero_le _⟩
        · split
          · exact ⟨hform, rfl, rfl⟩
          · exact ⟨le_refl _, Nat.zero_le _⟩
      · exact ⟨hform, rfl, rfl⟩
    · exact ⟨rfl, rfl⟩
  | checkPassword solved =>
    obtain ⟨hform, rfl, rfl⟩ := h
    cases result with
    | unknown => exact ⟨rfl, rfl⟩
    | disabled => exact ⟨le_refl _, Nat.zero_le _⟩
    | enabled =>
      cases request.route with
      | api => exact ⟨le_refl _, Nat.zero_le _⟩
      | admin => exact ⟨rfl, rfl⟩
  | recordFailedAttempt bound =>
    cases bound with
    | true =>
      obtain ⟨hwrongs, rfl⟩ := h
      cases request.route with
      | api => exact ⟨le_of_eq hwrongs, le_refl _⟩
      | admin => exact ⟨hwrongs, rfl⟩
    | false =>
      obtain ⟨rfl, rfl⟩ := h
      exact ⟨Nat.zero_le _, le_refl _⟩
  | recheck =>
    obtain ⟨hwrongs, hrecorded⟩ := h
    exact ⟨le_of_eq (hwrongs.trans hrecorded.symm), le_of_eq hrecorded⟩
  | removeAttempts =>
    obtain ⟨hwrongs, hrecorded⟩ := h
    exact ⟨le_of_eq (hwrongs.trans hrecorded.symm), hrecorded ▸ Nat.zero_le 1⟩
  | answered => exact h

/-- A handler records a failure of its own ip, and then its request does not get to the password check. -/
theorem next_recordFailedAttempt {ip : String}
    (h : (r.next disablePwdLogin ll now result).1 = some (.recordFailedAttempt ip)) :
    r.request.clientIp = ip ∧ (∃ bound, r.handler = .recordFailedAttempt bound) ∧
      (r.next disablePwdLogin ll now result).2.unasked disablePwdLogin = false := by
  unfold next unasked at *
  grind

/-- A handler removes the attempts of its own ip, and only once the user has logged in. -/
theorem next_removeAttempts {ip : String}
    (h : (r.next disablePwdLogin ll now result).1 = some (.removeAttempts ip)) :
    r.request.clientIp = ip ∧ r.handler = .removeAttempts := by
  unfold next at h
  grind

/-- A request with no captcha asked of it was one before, or the limiter did not demand one. -/
theorem next_unasked (h : (r.next disablePwdLogin ll now result).2.unasked disablePwdLogin = true) :
    r.unasked disablePwdLogin = true ∨ ll.demands r.request.clientIp now = false := by
  rw [← LoginLimiter.checkSecurityStatus_demands]
  unfold next unasked at *
  grind

/-- A look at the user table is one of the step, by a request that had a captcha asked of it or not. -/
theorem next_passwordChecks (hprogress : r.Progress) {check : PasswordCheck}
    (h : check ∈ (r.next disablePwdLogin ll now result).2.passwordChecks) :
    check ∈ r.passwordChecks ∨ check.demanded = ll.demands r.request.clientIp now ∧
        (check.solved = true ∨ r.unasked disablePwdLogin = true) := by
  rw [← LoginLimiter.checkSecurityStatus_demands]
  unfold next unasked Progress at *
  grind

end Next

end Served

structure LoginWorld where
  disablePwdLogin : Bool
  limiter : LoginLimiter
  now : ℤ
  served : List Served
  /-- The ids of the captchas made and of the solutions accepted so far. -/
  generated : List String
  accepted : List String

inductive LoginStep
  | tick (time : ℤ)
  | cleanupExpired
  | checkSecurityStatus (ip : String)
  | requireCaptcha (generated : Except String (String × String × String))
  | arrive (request : LoginRequest)
  | next (k : ℕ) (result : UserResult)
deriving DecidableEq

namespace LoginWorld

/-- The server as it starts, with the thresholds of its configuration. -/
def start (disablePwdLogin : Bool) (captchaThreshold banThreshold now : ℤ) : LoginWorld where
  disablePwdLogin := disablePwdLogin
  limiter := (LoginLimiter.new ⟨captchaThreshold, banThreshold, 10 * minute, 30 * minute⟩).step now
    (.registerProvider (5 * minute))
  now := now
  served := []
  generated := []
  accepted := []

def call (w : LoginWorld) (event : LimiterEvent) : LoginWorld :=
  { w with
    limiter := w.limiter.step w.now event
    generated := w.generated ++ w.limiter.generates w.now event
    accepted := w.accepted ++ w.limiter.accepts w.now event }

def step (w : LoginWorld) : LoginStep → Option LoginWorld
  | .tick time => if w.now ≤ time then some { w with now := time } else none
  | .cleanupExpired => some (w.call .cleanupExpired)
  | .checkSecurityStatus ip => some (w.call (.checkSecurityStatus ip))
  | .requireCaptcha generated => some (w.call (.requireCaptcha generated))
  | .arrive request =>
    some { w.call (.checkSecurityStatus request.clientIp) with
      served := w.served ++ [w.limiter.serve w.now request] }
  | .next k result =>
    w.served[k]?.map fun r =>
      let (event, r) := r.next w.disablePwdLogin w.limiter w.now result
      { event.elim w w.call with served := w.served.set k r }

/-- A request from the ip is on its way to the password check with no captcha asked of it. -/
def unasked (w : LoginWorld) (ip : String) : Bool :=
  w.served.any fun r => r.request.clientIp = ip && r.unasked w.disablePwdLogin

/-- What is meant by failed logins that count the same everywhere. -/
structure CountsFailures (w : LoginWorld) : Prop where
  recorded_once : ∀ r ∈ w.served, r.recorded ≤ 1 ∧
    (r.handler = .answered → (∃ check ∈ r.passwordChecks, check.result = .unknown) → r.recorded = 1)
  banned : ∀ r ∈ w.served, r.banned = true → r.passwordChecks = []
  captcha : ∀ r ∈ w.served, ∀ check ∈ r.passwordChecks, check.demanded = true → check.solved = true
  accepted_once : ∀ id, w.accepted.count id ≤ w.generated.count id
  /-- An attempt that is gone after a step has left the window or made up a ban, or a user has logged in. -/
  cleared : ∀ step w', w.step step = some w' → ∀ ip, ∀ t ∈ w.limiter.attempts ip,
    t ∉ w'.limiter.attempts ip →
      t ≤ w.now - w.limiter.policy.attemptsWindow ∨ w'.limiter.bans ip w.now = true ∨
        ∃ r ∈ w.served, r.request.clientIp = ip ∧ r.handler = .removeAttempts

/-- What keeps a login from the password check without the captcha it needs. No request of the api route comes from an
ip that needs one; while a request is on its way with no captcha asked of it, no failure from its ip is the one from
which on a captcha is needed; and, if a captcha is always needed, no ban of its ip ends. -/
def AskedInTime (w : LoginWorld) : LoginStep → Prop
  | .arrive request => request.route = .api → request.wellFormed = true → w.disablePwdLogin = false →
      w.limiter.demands request.clientIp w.now = false
  | .next k _ => ∀ r, w.served[k]? = some r → (∃ bound, r.handler = .recordFailedAttempt bound) →
      w.unasked r.request.clientIp = true → w.limiter.nearlyDemands r.request.clientIp w.now = false
  | .tick time => ∀ ip, w.unasked ip = true → w.limiter.bans ip w.now = true →
      w.limiter.bans ip time = true ∨ 0 < w.limiter.policy.captchaThreshold
  | _ => True

variable {w w' : LoginWorld} {a : LoginStep}

/-- What a step can do. -/
theorem step_cases (h : w.step a = some w') :
    (∃ time, a = .tick time ∧ w.now ≤ time ∧ w' = { w with now := time }) ∨
      (∃ event, (∀ ip, event ≠ .recordFailedAttempt ip ∧ event ≠ .removeAttempts ip) ∧ w' = w.call event) ∨
      (∃ request, a = .arrive request ∧ w' = { w.call (.checkSecurityStatus request.clientIp) with
        served := w.served ++ [w.limiter.serve w.now request] }) ∨
      ∃ k result r, a = .next k result ∧ w.served[k]? = some r ∧
        w' = { (r.next w.disablePwdLogin w.limiter w.now result).1.elim w w.call with
          served := w.served.set k (r.next w.disablePwdLogin w.limiter w.now result).2 } := by
  cases a with
  | tick time =>
    obtain ⟨htime, h⟩ := Option.ite_none_right_eq_some.mp h
    cases h
    exact .inl ⟨time, rfl, htime, rfl⟩
  | cleanupExpired =>
    cases h
    exact .inr (.inl ⟨.cleanupExpired, fun ip => ⟨nofun, nofun⟩, rfl⟩)
  | checkSecurityStatus ip =>
    cases h
    exact .inr (.inl ⟨.checkSecurityStatus ip, fun ip => ⟨nofun, nofun⟩, rfl⟩)
  | requireCaptcha generated =>
    cases h
    exact .inr (.inl ⟨.requireCaptcha generated, fun ip => ⟨nofun, nofun⟩, rfl⟩)
  | arrive request =>
    cases h
    exact .inr (.inr (.inl ⟨request, rfl, rfl⟩))
  | next k result =>
    obtain ⟨r, hr, h⟩ := Option.map_eq_some_iff.mp h
    cases h
    exact .inr (.inr (.inr ⟨k, result, r, rfl, hr, rfl⟩))

/-- What holds whatever the order of the steps. -/
structure Sound (w : LoginWorld) : Prop where
  banDuration_nonneg : 0 ≤ w.limiter.policy.banDuration
  follows : w.limiter.isDisabled = false → ∃ st, w.limiter.Follows w.now st
  captchas : ∀ id, w.limiter.waiting id + w.accepted.count id ≤ w.generated.count id
  served : ∀ r ∈ w.served, r.Progress ∧ (r.banned = true → r.handler = .answered ∧ r.passwordChecks = [])

theorem start_sound (disablePwdLogin : Bool) (captchaThreshold banThreshold now : ℤ) :
    (start disablePwdLogin captchaThreshold banThreshold now).Sound where
  banDuration_nonneg := by
    show (0 : ℤ) ≤ 30 * minute
    decide
  follows _ := by
    have htracks := LoginLimiter.tracks_new ⟨captchaThreshold, banThreshold, 10 * minute, 30 * minute⟩ now
    exact ⟨_, ⟨htracks.policy_eq.symm ▸ rfl, htracks.bans, htracks.failures⟩, fun ip _ => rfl⟩
  captchas id := le_refl _
  served := nofun

theorem Sound.call (h : w.Sound) (event : LimiterEvent) : (w.call event).Sound where
  banDuration_nonneg := by
    show 0 ≤ (w.limiter.step w.now event).policy.banDuration
    rw [LoginLimiter.step_policy]
    exact h.banDuration_nonneg
  follows hon := by
    have hbefore : w.limiter.isDisabled = false := by
      have hpolicy := @LoginLimiter.step_policy w.limiter w.now event
      unfold LoginWorld.call LoginLimiter.isDisabled at hon
      rwa [hpolicy] at hon
    obtain ⟨st, hst⟩ := h.follows hbefore
    exact ⟨_, hst.step hbefore event⟩
  captchas id := by
    have hwaiting := @LoginLimiter.waiting_step w.limiter w.now event id
    have hbefore := h.captchas id
    show (w.limiter.step w.now event).waiting id + List.count id (w.accepted ++ w.limiter.accepts w.now event) ≤
      List.count id (w.generated ++ w.limiter.generates w.now event)
    rw [List.count_append, List.count_append]
    omega
  served := h.served

theorem Sound.with_served (h : w.Sound) {served : List Served}
    (hserved : ∀ r ∈ served, r.Progress ∧ (r.banned = true → r.handler = .answered ∧ r.passwordChecks = [])) :
    Sound { w with served := served } :=
  ⟨h.banDuration_nonneg, h.follows, h.captchas, hserved⟩

/-- The limiter's side of a step of a handler. -/
theorem Sound.elim (h : w.Sound) (event : Option LimiterEvent) : (event.elim w w.call).Sound := by
  cases event with
  | none => exact h
  | some event => exact h.call event

theorem Sound.step (h : w.Sound) (hstep : w.step a = some w') : w'.Sound := by
  rcases step_cases hstep with ⟨time, rfl, htime, rfl⟩ | ⟨event, -, rfl⟩ | ⟨request, rfl, rfl⟩ |
    ⟨k, result, r, rfl, hr, rfl⟩
  · refine ⟨h.banDuration_nonneg, fun hon => ?_, h.captchas, h.served⟩
    obtain ⟨st, hst⟩ := h.follows hon
    exact ⟨st, hst.later htime⟩
  · exact h.call event
  · refine (h.call _).with_served fun r hr => ?_
    rcases List.mem_append.mp hr with hr | hr
    · exact h.served r hr
    · obtain rfl := List.mem_singleton.mp hr
      unfold LoginLimiter.serve
      dsimp only
      split
      · exact ⟨⟨le_refl _, Nat.zero_le _⟩, fun _ => ⟨rfl, rfl⟩⟩
      · next hfree => exact ⟨⟨rfl, rfl⟩, fun hbanned => absurd hbanned hfree⟩
  · refine (h.elim _).with_served fun r' hr' => ?_
    rcases List.mem_or_eq_of_mem_set hr' with hr' | rfl
    · exact h.served r' hr'
    · obtain ⟨hprogress, hbanned⟩ := h.served r (List.mem_of_getElem? hr)
      refine ⟨hprogress.next, fun hwas => ?_⟩
      rw [Served.next_banned] at hwas
      rw [Served.next_of_answered (hbanned hwas).1]
      exact hbanned hwas

/-- What holds of the captchas as long as they are asked for in time. -/
structure Asked (w : LoginWorld) : Prop where
  unasked : ∀ r ∈ w.served, r.unasked w.disablePwdLogin = true →
    w.limiter.demands r.request.clientIp w.now = false
  captcha : ∀ r ∈ w.served, ∀ check ∈ r.passwordChecks, check.demanded = true → check.solved = true

theorem unasked_of_mem {r : Served} (hr : r ∈ w.served) (hunasked : r.unasked w.disablePwdLogin = true) :
    w.unasked r.request.clientIp = true :=
  List.any_eq_true.mpr ⟨r, hr, by rw [hunasked]; simp⟩

/-- A call brings no demand where the missing failure is not recorded. -/
theorem Sound.demands_call (h : w.Sound) {ip : String} {event : LimiterEvent}
    (hnear : event = .recordFailedAttempt ip → w.limiter.nearlyDemands ip w.now = false)
    (hbefore : w.limiter.demands ip w.now = false) : (w.call event).limiter.demands ip w.now = false := by
  rw [← Bool.not_eq_true] at hbefore ⊢
  intro hdemands
  have hon : w.limiter.isDisabled = false := by
    have hpolicy := @LoginLimiter.step_policy w.limiter w.now event
    unfold LoginWorld.call LoginLimiter.demands LoginLimiter.isDisabled at hdemands
    rw [Bool.and_eq_true, Bool.and_eq_true, Bool.not_eq_true', hpolicy] at hdemands
    exact hdemands.1.1
  obtain ⟨st, hst⟩ := h.follows hon
  exact hbefore (hst.demands_step h.banDuration_nonneg hnear hdemands)

theorem Asked.step (h : w.Asked) (hsound : w.Sound) (hasked : w.AskedInTime a) (hstep : w.step a = some w') :
    w'.Asked := by
  rcases step_cases hstep with ⟨time, rfl, htime, rfl⟩ | ⟨event, hevent, rfl⟩ | ⟨request, rfl, rfl⟩ |
    ⟨k, result, r, rfl, hr, rfl⟩
  · refine ⟨fun r hr hunasked => ?_, h.captcha⟩
    have hbefore := h.unasked r hr hunasked
    rw [← Bool.not_eq_true] at hbefore ⊢
    intro hdemands
    have hon : w.limiter.isDisabled = false := by
      unfold LoginLimiter.demands at hdemands
      rw [Bool.and_eq_true, Bool.and_eq_true, Bool.not_eq_true'] at hdemands
      exact hdemands.1.1
    obtain ⟨st, hst⟩ := hsound.follows hon
    exact hbefore (hst.demands_later htime (hasked _ (unasked_of_mem hr hunasked)) hdemands)
  · refine ⟨fun r hr hunasked => ?_, h.captcha⟩
    exact hsound.demands_call (fun heq => absurd heq (hevent _).1) (h.unasked r hr hunasked)
  · refine ⟨fun r hr hunasked => ?_, fun r hr => ?_⟩
    · refine hsound.demands_call nofun ?_
      rcases List.mem_append.mp hr with hr | hr
      · exact h.unasked r hr hunasked
      · -- only a request of the api route has no captcha asked of it yet
        obtain rfl := List.mem_singleton.mp hr
        unfold Served.unasked LoginLimiter.serve at hunasked
        unfold AskedInTime at hasked
        grind [LoginLimiter.serve, LoginWorld.call]
    · rcases List.mem_append.mp hr with hr | hr
      · exact h.captcha r hr
      · obtain rfl := List.mem_singleton.mp hr
        exact nofun
  · have hmem := List.mem_of_getElem? hr
    refine ⟨fun r' hr' hunasked => ?_, fun r' hr' check hcheck hdemanded => ?_⟩
    · have hdisable : ∀ event : Option LimiterEvent, (event.elim w w.call).disablePwdLogin = w.disablePwdLogin := by
        rintro (_ | _) <;> rfl
      dsimp only at hr' hunasked ⊢
      rw [hdisable] at hunasked
      have hbefore : w.limiter.demands r'.request.clientIp w.now = false := by
        rcases List.mem_or_eq_of_mem_set hr' with hr' | rfl
        · exact h.unasked r' hr' hunasked
        · rw [Served.next_request]
          exact (Served.next_unasked hunasked).elim (h.unasked r hmem) id
      cases hevent : (r.next w.disablePwdLogin w.limiter w.now result).1 with
      | none => exact hbefore
      | some event =>
        refine hsound.demands_call (fun hrecord => ?_) hbefore
        rw [hrecord] at hevent
        obtain ⟨hip, hhandler, hgone⟩ := Served.next_recordFailedAttempt hevent
        rcases List.mem_or_eq_of_mem_set hr' with hr' | rfl
        · rw [← hip]
          exact hasked r hr hhandler (hip ▸ unasked_of_mem hr' hunasked)
        · rw [hgone] at hunasked
          cases hunasked
    · rcases List.mem_or_eq_of_mem_set hr' with hr' | rfl
      · exact h.captcha r' hr' check hcheck hdemanded
      · rcases Served.next_passwordChecks (hsound.served r hmem).1 hcheck with hcheck | ⟨hdemands, hsolved | hunasked⟩
        · exact h.captcha r hmem check hcheck hdemanded
        · exact hsolved
        · rw [hdemands, h.unasked r hmem hunasked] at hdemanded
          cases hdemanded

/-- **An attempt that a step loses** has left the window or made up a ban, or a user has logged in. -/
theorem Sound.lost_attempt (h : w.Sound) (hstep : w.step a = some w') {ip : String} {t : ℤ}
    (ht : t ∈ w.limiter.attempts ip) (hlost : t ∉ w'.limiter.attempts ip) :
    t ≤ w.now - w.limiter.policy.attemptsWindow ∨ w'.limiter.bans ip w.now = true ∨
      ∃ r ∈ w.served, r.request.clientIp = ip ∧ r.handler = .removeAttempts := by
  rcases step_cases hstep with ⟨time, rfl, htime, rfl⟩ | ⟨event, hevent, rfl⟩ | ⟨request, rfl, rfl⟩ |
    ⟨k, result, r, rfl, hr, rfl⟩
  · exact absurd ht hlost
  · rcases LoginLimiter.lost_attempt h.banDuration_nonneg ht hlost with hold | hban | hremove
    · exact .inl hold
    · exact .inr (.inl hban)
    · exact absurd hremove (hevent ip).2
  · rcases LoginLimiter.lost_attempt h.banDuration_nonneg ht hlost with hold | hban | hremove
    · exact .inl hold
    · exact .inr (.inl hban)
    · cases hremove
  · dsimp only at hlost ⊢
    cases hevent : (r.next w.disablePwdLogin w.limiter w.now result).1 with
    | none =>
      rw [hevent] at hlost
      exact absurd ht hlost
    | some event =>
      rw [hevent] at hlost
      rcases LoginLimiter.lost_attempt h.banDuration_nonneg ht hlost with hold | hban | hremove
      · exact .inl hold
      · exact .inr (.inl hban)
      · rw [hremove] at hevent
        exact .inr (.inr ⟨r, List.mem_of_getElem? hr, Served.next_removeAttempts hevent⟩)

/-- **A sound server that asks in time** counts failed logins the same everywhere. -/
theorem Sound.countsFailures (h : w.Sound) (hasked : w.Asked) : w.CountsFailures where
  recorded_once r hr := by
    obtain ⟨hprogress, -⟩ := h.served r hr
    constructor
    · unfold Served.Progress at hprogress
      split at hprogress <;> omega
    · rintro hanswered ⟨check, hcheck, hresult⟩
      unfold Served.Progress at hprogress
      rw [hanswered] at hprogress
      have hwrongs : 0 < r.wrongs := List.countP_pos_iff.mpr ⟨check, hcheck, by simp [hresult]⟩
      omega
  banned r hr hbanned := ((h.served r hr).2 hbanned).2
  captcha := hasked.captcha
  accepted_once id := (Nat.le_add_left _ _).trans (h.captchas id)
  cleared _ _ hstep _ _ ht hlost := h.lost_attempt hstep ht hlost

/-- **Failed logins count the same everywhere** in every run that asks for captchas in time. -/
theorem countsFailures_of_run {disablePwdLogin : Bool} {captchaThreshold banThreshold now : ℤ} {as : List LoginStep}
    (hrun : Run (Only AskedInTime (Steps LoginWorld.step))
      (start disablePwdLogin captchaThreshold banThreshold now) as w) : w.CountsFailures := by
  have hinv : w.Sound ∧ w.Asked := by
    apply hrun.invariant
    · rintro w a w' ⟨hsound, hasked⟩ ⟨hok, hstep⟩
      exact ⟨hsound.step hstep, hasked.step hsound hok hstep⟩
    · exact ⟨start_sound .., nofun, nofun⟩
  exact hinv.1.countsFailures hinv.2

/-- A login through the admin route with the solution of a captcha. -/
def solvedLogin : List LoginStep :=
  [.requireCaptcha (.ok ("id", "content", "x7kq")), .arrive ⟨.admin, "192.0.2.1", true, true, "id", "x7kq"⟩,
    .next 0 .enabled, .next 0 .enabled, .next 0 .enabled, .next 0 .enabled]

/-- A captcha is always needed, and the login brings one. -/
theorem countsFailures_solvedLogin :
    ∃ w, Run (Only AskedInTime (Steps LoginWorld.step)) (start false 0 5 0) solvedLogin w ∧
      w.served.map (·.passwordChecks) = [[⟨.enabled, true, true⟩]] ∧ w.CountsFailures := by
  have hnext : ∀ {w : LoginWorld} {k : ℕ} {result : UserResult},
      (w.served.any fun r => r.handler = .recordFailedAttempt true ∨ r.handler = .recordFailedAttempt false) = false →
        w.AskedInTime (.next k result) := by
    rintro w k result hnone r hr ⟨bound, hbound⟩ -
    have hno := List.any_eq_false.mp hnone r (List.mem_of_getElem? hr)
    cases bound <;> simp [hbound] at hno
  refine exists_and_and (fun _ hrun _ => countsFailures_of_run hrun) ?_
  refine ⟨_, .cons ⟨trivial, rfl⟩ (.cons ⟨nofun, rfl⟩ (.cons ⟨hnext rfl, rfl⟩ (.cons ⟨hnext rfl, rfl⟩
    (.cons ⟨hnext rfl, rfl⟩ (.cons ⟨hnext rfl, rfl⟩ (.nil _)))))), rfl⟩

/-- Four requests to the api route one after the other, with a wrong password. -/
def fourLogins : List LoginStep :=
  (List.range 4).flatMap fun k =>
    [.arrive ⟨.api, "192.0.2.1", true, true, "", ""⟩, .next k .unknown, .next k .unknown, .next k .unknown]

/-- The fourth needs a captcha and gets to the password check without one. -/
theorem not_countsFailures_fourLogins :
    ∃ w, Run (Steps LoginWorld.step) (start false 3 0 0) fourLogins w ∧ ¬ w.CountsFailures := by
  have hchecks : (exec LoginWorld.step (start false 3 0 0) fourLogins).any (fun w =>
      w.served.any fun r => r.passwordChecks.any fun check => check.demanded && !check.solved) = true := by decide
  obtain ⟨w, hw, hany⟩ := (Option.any_eq_true ..).mp hchecks
  refine ⟨w, exec_eq_some_iff.mp hw, fun hcounts => ?_⟩
  obtain ⟨r, hr, hany⟩ := List.any_eq_true.mp hany
  obtain ⟨check, hcheck, hbad⟩ := List.any_eq_true.mp hany
  rw [Bool.and_eq_true, Bool.not_eq_true'] at hbad
  have hsolved := hcounts.captcha r hr check hcheck hbad.1
  rw [hbad.2] at hsolved
  cases hsolved

end LoginWorld

end RustDesk.Api
