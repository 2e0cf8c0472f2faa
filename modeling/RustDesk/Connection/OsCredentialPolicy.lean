import Mathlib.Algebra.Order.Ring.Int
import Mathlib.Data.List.Chain
import RustDesk.Common.Run

/-!
# The back-off of logins with an account of the operating system

Reference: `src/server/login_failure_check.rs`. There is one state for all connections. A failure adds to a
count and, from the third on, starts a back-off. Both end lazily, when the state is looked at next.
-/

namespace RustDesk.Connection

def OS_CREDENTIAL_LOGIN_TOTAL_IDLE_RESET_MS : ℤ := 120 * 60 * 1000

def OS_CREDENTIAL_LOGIN_BACKOFF_BASE_SECONDS : ℤ := 15

def OS_CREDENTIAL_LOGIN_BACKOFF_MAX_SECONDS : ℤ := 30 * 60

inductive FailureScope
  | default
  | terminalOsLogin
  deriving DecidableEq

/-- The one audit of a back-off. -/
inductive AlarmAuditType
  | terminalOsLoginBackoff
  deriving DecidableEq

structure OsCredentialPolicyDecision where
  allowed : Bool
  loginError : Option String
  audit : Option AlarmAuditType
  deriving DecidableEq

structure OsCredentialFailureState where
  totalFailures : ℤ
  backoffUntilMs : Option ℤ
  lastFailureMs : Option ℤ
  deriving DecidableEq

/-- `OsCredentialFailureState::default()`. -/
def OsCredentialFailureState.default : OsCredentialFailureState := ⟨0, none, none⟩

def isOsCredentialScope : FailureScope → Bool
  | .terminalOsLogin => true
  | .default => false

def backoffAuditTypeForScope : FailureScope → Option AlarmAuditType
  | .terminalOsLogin => some .terminalOsLoginBackoff
  | .default => none

/-- The shift of `1_i64 << exp`. -/
def backoffExp (totalFailures : ℤ) : ℤ := min (totalFailures - 3) 7

def osCredentialLoginBackoffSeconds (totalFailures : ℤ) : ℤ :=
  if totalFailures ≤ 2 then 0
  else
    let seconds := OS_CREDENTIAL_LOGIN_BACKOFF_BASE_SECONDS * 2 ^ (backoffExp totalFailures).toNat
    min seconds OS_CREDENTIAL_LOGIN_BACKOFF_MAX_SECONDS

/-- `i64::saturating_sub`. -/
def saturatingSub (a b : ℤ) : ℤ := max (-2 ^ 63) (min (2 ^ 63 - 1) (a - b))

/-- `i32::saturating_add(1)`. -/
def saturatingSucc (n : ℤ) : ℤ := min (2 ^ 31 - 1) (n + 1)

def normalizeBackoff (state : OsCredentialFailureState) (nowMs : ℤ) : OsCredentialFailureState :=
  match state.backoffUntilMs with
  | some untilMs => if untilMs ≤ nowMs then { state with backoffUntilMs := none } else state
  | none => state

def resetTotalsOnIdle (state : OsCredentialFailureState) (nowMs : ℤ) : OsCredentialFailureState :=
  match state.lastFailureMs with
  | some lastMs =>
    if OS_CREDENTIAL_LOGIN_TOTAL_IDLE_RESET_MS ≤ saturatingSub nowMs lastMs then ⟨0, none, none⟩ else state
  | none => state

def allowDecision : OsCredentialPolicyDecision := ⟨true, none, none⟩

def blockDecision (loginError : String) (alarmType : Option AlarmAuditType) : OsCredentialPolicyDecision :=
  ⟨false, some loginError, alarmType⟩

/-- The state as both functions find it. -/
def current (state : OsCredentialFailureState) (nowMs : ℤ) : OsCredentialFailureState :=
  normalizeBackoff (resetTotalsOnIdle state nowMs) nowMs

/-- The decision, and the state after it. Only the scope of the operating system has a state. -/
def evaluateOsCredentialPolicy (scope : FailureScope) (nowMs : ℤ) (state : OsCredentialFailureState) :
    OsCredentialPolicyDecision × OsCredentialFailureState :=
  if isOsCredentialScope scope then
    let state := current state nowMs
    match state.backoffUntilMs with
    | some untilMs =>
      let remainingMs := max (untilMs - nowMs) 0
      let remainingSeconds := max ((remainingMs + 999) / 1000) 1
      let secondsLabel := if remainingSeconds = 1 then "second" else "seconds"
      (blockDecision s!"Please try again in {remainingSeconds} {secondsLabel}."
        (backoffAuditTypeForScope scope), state)
    | none => (allowDecision, state)
  else (allowDecision, state)

def recordOsCredentialFailure (scope : FailureScope) (nowMs : ℤ) (state : OsCredentialFailureState) :
    OsCredentialFailureState :=
  if isOsCredentialScope scope then
    let state := current state nowMs
    let totalFailures := saturatingSucc state.totalFailures
    let backoffSeconds := osCredentialLoginBackoffSeconds totalFailures
    ⟨totalFailures,
      if 0 < backoffSeconds then some (nowMs + backoffSeconds * 1000) else state.backoffUntilMs,
      some nowMs⟩
  else state

/-! ## The arithmetic -/

/-- What `evaluate_os_credential_policy` computes, with the width of each result. -/
def evaluateArithmetic (nowMs : ℤ) (state : OsCredentialFailureState) : List (ℕ × ℤ) :=
  match (current state nowMs).backoffUntilMs with
  | some untilMs => [(64, untilMs - nowMs), (64, max (untilMs - nowMs) 0 + 999)]
  | none => []

/-- What `record_os_credential_failure` computes. -/
def recordArithmetic (nowMs : ℤ) (state : OsCredentialFailureState) : List (ℕ × ℤ) :=
  let totalFailures := saturatingSucc (current state nowMs).totalFailures
  let seconds := osCredentialLoginBackoffSeconds totalFailures
  (32, totalFailures) ::
    if totalFailures ≤ 2 then []
    else
      [(32, totalFailures - 3), (64, 2 ^ (backoffExp totalFailures).toNat),
        (64, OS_CREDENTIAL_LOGIN_BACKOFF_BASE_SECONDS * 2 ^ (backoffExp totalFailures).toNat),
        (64, seconds * 1000), (64, nowMs + seconds * 1000)]

/-- The result is a number of its width. -/
def InWidth (result : ℕ × ℤ) : Prop := -2 ^ (result.1 - 1) ≤ result.2 ∧ result.2 < 2 ^ (result.1 - 1)

/-! ## The events of all connections -/

/-- The shared state, the failures so far with the latest first, when it was last looked at, and whether this
was an evaluation that allowed an attempt. -/
structure PolicyRun where
  state : OsCredentialFailureState
  failures : List ℤ
  clock : ℤ
  allowed : Bool

inductive PolicyEvent
  | evaluate (nowMs : ℤ)
  | record (nowMs : ℤ)

/-- Below this time. -/
def TIME_LIMIT_MS : ℤ := 2 ^ 62

namespace PolicyRun

def init : PolicyRun := ⟨.default, [], -2 ^ 63, false⟩

/-- Times do not go back, and a failure is recorded right after an evaluation that allowed the attempt. -/
def step (run : PolicyRun) : PolicyEvent → Option PolicyRun
  | .evaluate nowMs =>
    if run.clock ≤ nowMs ∧ nowMs < TIME_LIMIT_MS then
      let evaluated := evaluateOsCredentialPolicy .terminalOsLogin nowMs run.state
      some ⟨evaluated.2, run.failures, nowMs, evaluated.1.allowed⟩
    else none
  | .record nowMs =>
    if run.allowed ∧ run.clock ≤ nowMs ∧ nowMs < TIME_LIMIT_MS then
      some ⟨recordOsCredentialFailure .terminalOsLogin nowMs run.state, nowMs :: run.failures, nowMs, false⟩
    else none

end PolicyRun

/-! ## What the policy is for -/

/-- Which failure of its series the latest is. A series ends after 120 minutes without a failure. -/
def seriesCount : List ℤ → ℕ
  | [] => 0
  | [_] => 1
  | now :: last :: older =>
    if OS_CREDENTIAL_LOGIN_TOTAL_IDLE_RESET_MS ≤ now - last then 1 else seriesCount (last :: older) + 1

/-- How long the `n`-th failure of a series blocks. -/
def waitMs (n : ℕ) : ℤ := min (15 * 2 ^ min (n - 3) 7) 1800 * 1000

def Blocks (failures : List ℤ) (nowMs : ℤ) : Prop :=
  3 ≤ seriesCount failures ∧ ∃ latest ∈ failures.head?, nowMs - latest < waitMs (seriesCount failures)

/-- Failures of one series, the latest first. -/
def OneSeries (failures : List ℤ) : Prop :=
  failures.IsChain fun newer older => newer - older < OS_CREDENTIAL_LOGIN_TOTAL_IDLE_RESET_MS

/-! ## How long a failure blocks -/

theorem waitMs_bounds (n : ℕ) : 15000 ≤ waitMs n ∧ waitMs n ≤ 1800000 ∧ (10 ≤ n → waitMs n = 1800000) := by
  have hexp : min (n - 3) 7 ≤ 7 := Nat.min_le_right _ _
  have hlong : 10 ≤ n → min (n - 3) 7 = 7 := fun hn => by omega
  unfold waitMs
  generalize min (n - 3) 7 = e at hexp hlong
  have hpow : (1 : ℤ) ≤ 2 ^ e := one_le_pow₀ (by decide)
  refine ⟨by omega, by omega, fun hn => ?_⟩
  rw [hlong hn]
  decide

/-- The count that is kept, for the `n`-th failure of a series. -/
def counted (n : ℕ) : ℤ := min (2 ^ 31 - 1) n

theorem saturatingSucc_counted (n : ℕ) : saturatingSucc (counted n) = counted (n + 1) := by
  unfold saturatingSucc counted
  omega

/-- The saturating counter does not show in the back-off. -/
theorem backoffSeconds_counted {n : ℕ} (hn : 3 ≤ n) : (backoffExp (counted n)).toNat = min (n - 3) 7 ∧
      osCredentialLoginBackoffSeconds (counted n) * 1000 = waitMs n := by
  have hexp : (backoffExp (counted n)).toNat = min (n - 3) 7 := by
    unfold backoffExp counted
    omega
  refine ⟨hexp, ?_⟩
  have hmany : ¬ counted n ≤ 2 := by
    unfold counted
    omega
  rw [osCredentialLoginBackoffSeconds, if_neg hmany, hexp]
  rfl

theorem backoffSeconds_of_le {n : ℕ} (hn : n ≤ 2) : osCredentialLoginBackoffSeconds (counted n) = 0 := by
  have hfew : counted n ≤ 2 := by
    unfold counted
    omega
  rw [osCredentialLoginBackoffSeconds, if_pos hfew]

/-! ## The state and the failures so far -/

/-- The state, as it is when it has been looked at or changed at this time. -/
inductive Looked (failures : List ℤ) (nowMs : ℤ) : OsCredentialFailureState → Prop
  | idle (h : ∀ latest ∈ failures.head?, OS_CREDENTIAL_LOGIN_TOTAL_IDLE_RESET_MS ≤ nowMs - latest) :
    Looked failures nowMs .default
  | free {latest : ℤ} {older : List ℤ} (hfailures : failures = latest :: older) (hle : latest ≤ nowMs)
    (hidle : nowMs - latest < OS_CREDENTIAL_LOGIN_TOTAL_IDLE_RESET_MS)
    (hfree : 3 ≤ seriesCount failures → waitMs (seriesCount failures) ≤ nowMs - latest) :
    Looked failures nowMs ⟨counted (seriesCount failures), none, some latest⟩
  | blocked {latest : ℤ} {older : List ℤ} (hfailures : failures = latest :: older) (hle : latest ≤ nowMs)
    (hmany : 3 ≤ seriesCount failures) (hwait : nowMs - latest < waitMs (seriesCount failures)) :
    Looked failures nowMs
      ⟨counted (seriesCount failures), some (latest + waitMs (seriesCount failures)), some latest⟩

variable {failures : List ℤ} {clock nowMs : ℤ} {state : OsCredentialFailureState}

theorem saturatingSub_idle {lastMs : ℤ} (h : lastMs ≤ nowMs) :
    OS_CREDENTIAL_LOGIN_TOTAL_IDLE_RESET_MS ≤ saturatingSub nowMs lastMs ↔
      OS_CREDENTIAL_LOGIN_TOTAL_IDLE_RESET_MS ≤ nowMs - lastMs := by
  unfold saturatingSub OS_CREDENTIAL_LOGIN_TOTAL_IDLE_RESET_MS
  omega

/-- A pause that ends the series is longer than any back-off. -/
theorem waitMs_lt_idle (n : ℕ) : waitMs n < OS_CREDENTIAL_LOGIN_TOTAL_IDLE_RESET_MS := by
  have hwait := (waitMs_bounds n).2.1
  unfold OS_CREDENTIAL_LOGIN_TOTAL_IDLE_RESET_MS
  omega

/-- **Looking at the state** ends what has ended, and nothing else. -/
theorem Looked.current (h : Looked failures clock state) (hclock : clock ≤ nowMs) :
    Looked failures nowMs (current state nowMs) := by
  cases h with
  | idle hidle => exact .idle fun latest hlatest => by have := hidle latest hlatest; omega
  | @free latest older hfailures hle hidle hfree =>
    have hreset := saturatingSub_idle (hle.trans hclock)
    unfold Connection.current resetTotalsOnIdle
    dsimp only
    split
    · next hidle =>
      rw [hreset] at hidle
      refine .idle fun last hlast => ?_
      rw [hfailures] at hlast
      obtain rfl : latest = last := by simpa using hlast
      exact hidle
    · next hidle =>
      rw [hreset, not_le] at hidle
      exact .free hfailures (hle.trans hclock) hidle fun hmany => by have := hfree hmany; omega
  | @blocked latest older hfailures hle hmany hwait =>
    have hreset := saturatingSub_idle (hle.trans hclock)
    unfold Connection.current resetTotalsOnIdle
    dsimp only
    split
    · next hidle =>
      rw [hreset] at hidle
      refine .idle fun last hlast => ?_
      rw [hfailures] at hlast
      obtain rfl : latest = last := by simpa using hlast
      exact hidle
    · next hidle =>
      rw [hreset, not_le] at hidle
      unfold normalizeBackoff
      dsimp only
      split
      · exact .free hfailures (hle.trans hclock) hidle fun _ => by omega
      · exact .blocked hfailures (hle.trans hclock) hmany (by omega)

/-- The policy blocks just while the latest failure does. -/
theorem Looked.blocks_iff (h : Looked failures nowMs state) :
    state.backoffUntilMs ≠ none ↔ Blocks failures nowMs := by
  cases h with
  | idle hidle =>
    refine iff_of_false (fun h => h rfl) ?_
    rintro ⟨-, latest, hlatest, hwait⟩
    have hidle := hidle latest hlatest
    have hshort := waitMs_lt_idle (seriesCount failures)
    omega
  | @free latest older hfailures hle hidle hfree =>
    refine iff_of_false (fun h => h rfl) ?_
    rintro ⟨hmany, last, hlast, hwait⟩
    have hfree := hfree hmany
    rw [hfailures] at hlast
    obtain rfl : latest = last := by simpa using hlast
    omega
  | @blocked latest older hfailures hle hmany hwait =>
    refine iff_of_true (by simp) ⟨hmany, latest, ?_, hwait⟩
    rw [hfailures]
    rfl

theorem evaluate_allowed (h : Looked failures clock state) (hclock : clock ≤ nowMs) :
    (evaluateOsCredentialPolicy .terminalOsLogin nowMs state).1.allowed = false ↔ Blocks failures nowMs := by
  rw [← (h.current hclock).blocks_iff]
  unfold evaluateOsCredentialPolicy
  rw [if_pos (show isOsCredentialScope .terminalOsLogin = true from rfl)]
  dsimp only
  cases (current state nowMs).backoffUntilMs with
  | none => simp [allowDecision]
  | some untilMs => simp [blockDecision]

theorem evaluate_state : (evaluateOsCredentialPolicy .terminalOsLogin nowMs state).2 = current state nowMs := by
  unfold evaluateOsCredentialPolicy
  rw [if_pos (show isOsCredentialScope .terminalOsLogin = true from rfl)]
  dsimp only
  cases (current state nowMs).backoffUntilMs <;> rfl

/-- A failure while the series goes on is its next one. -/
theorem seriesCount_cons {latest : ℤ} {older : List ℤ} (hfailures : failures = latest :: older)
    (hidle : nowMs - latest < OS_CREDENTIAL_LOGIN_TOTAL_IDLE_RESET_MS) :
    seriesCount (nowMs :: failures) = seriesCount failures + 1 := by
  subst hfailures
  rw [seriesCount, if_neg (not_le.mpr hidle)]

/-- What is counted already, when the next failure is recorded. -/
theorem Looked.counts (h : Looked failures nowMs state) :
    saturatingSucc state.totalFailures = counted (seriesCount (nowMs :: failures)) ∧
      (seriesCount (nowMs :: failures) ≤ 2 → state.backoffUntilMs = none) := by
  cases h with
  | idle hidle =>
    refine ⟨?_, fun _ => rfl⟩
    have hone : seriesCount (nowMs :: failures) = 1 := by
      cases failures with
      | nil => rfl
      | cons latest older => rw [seriesCount, if_pos (hidle latest rfl)]
    rw [hone]
    decide
  | @free latest older hfailures hle hidle hfree =>
    rw [seriesCount_cons hfailures hidle]
    exact ⟨saturatingSucc_counted _, fun _ => rfl⟩
  | @blocked latest older hfailures hle hmany hwait =>
    rw [seriesCount_cons hfailures (hwait.trans (waitMs_lt_idle _))]
    exact ⟨saturatingSucc_counted _, fun h => by omega⟩

/-- **A failure recorded** is the latest, and blocks from the third of its series on. -/
theorem record_looked (h : Looked failures clock state) (hclock : clock ≤ nowMs) :
    Looked (nowMs :: failures) nowMs (recordOsCredentialFailure .terminalOsLogin nowMs state) := by
  obtain ⟨htotal, hnone⟩ := (h.current hclock).counts
  unfold recordOsCredentialFailure
  rw [if_pos (show isOsCredentialScope .terminalOsLogin = true from rfl)]
  dsimp only
  rw [htotal]
  by_cases hmany : 3 ≤ seriesCount (nowMs :: failures)
  · have hwait := waitMs_bounds (seriesCount (nowMs :: failures))
    have hseconds := (backoffSeconds_counted hmany).2
    rw [if_pos (by omega), hseconds]
    exact .blocked rfl (le_refl _) hmany (by omega)
  · rw [backoffSeconds_of_le (by omega), if_neg (by decide), hnone (by omega)]
    refine .free rfl (le_refl _) ?_ fun h => absurd h hmany
    rw [sub_self]
    decide

/-! ## How far failures are apart -/

/-- Every failure waits for the one before it. -/
def Spaced : List ℤ → Prop
  | [] => True
  | [_] => True
  | now :: last :: older =>
    (last ≤ now ∧ (3 ≤ seriesCount (last :: older) → waitMs (seriesCount (last :: older)) ≤ now - last)) ∧
      Spaced (last :: older)

theorem Spaced.of_append {newer older : List ℤ} (h : Spaced (newer ++ older)) : Spaced older := by
  induction newer with
  | nil => exact h
  | cons now newer ih =>
    refine ih ?_
    cases hrest : newer ++ older with
    | nil => trivial
    | cons last rest =>
      rw [List.cons_append, hrest] at h
      exact h.2

theorem Spaced.cons (h : Spaced failures) (hle : ∀ latest ∈ failures.head?, latest ≤ nowMs)
    (hfree : ¬ Blocks failures nowMs) : Spaced (nowMs :: failures) := by
  cases failures with
  | nil => trivial
  | cons latest older =>
    refine ⟨⟨hle latest rfl, fun hmany => ?_⟩, h⟩
    by_contra hshort
    exact hfree ⟨hmany, latest, rfl, not_le.mp hshort⟩

/-- As many failures in a row of one series are counted. -/
theorem OneSeries.length_le {failures : List ℤ} (h : OneSeries failures) (older : List ℤ) :
    failures.length ≤ seriesCount (failures ++ older) := by
  induction failures with
  | nil => exact Nat.zero_le _
  | cons now failures ih =>
    cases failures with
    | nil =>
      cases older with
      | nil => exact Nat.le_refl 1
      | cons last older =>
        rw [List.singleton_append, seriesCount]
        split
        · exact Nat.le_refl _
        · exact Nat.succ_le_succ (Nat.zero_le _)
    | cons last failures =>
      rw [OneSeries, List.isChain_cons_cons] at h
      have hlast := ih h.2
      rw [List.cons_append] at hlast
      rw [List.cons_append, List.cons_append, seriesCount, if_neg (not_le.mpr h.1), List.length_cons]
      exact Nat.succ_le_succ hlast

/-- **The failures of one series in a window.** From the fourth on each takes fifteen seconds. -/
theorem Spaced.length_le {failures older : List ℤ} (hspaced : Spaced (failures ++ older))
    (hseries : OneSeries failures) {first last : ℤ} (hlast : failures.head? = some last)
    (hfirst : failures.getLast? = some first) :
    first ≤ last ∧ 15000 * ((failures.length : ℤ) - 3) ≤ last - first := by
  induction failures generalizing last with
  | nil => cases hlast
  | cons now failures ih =>
    obtain rfl : now = last := by simpa using hlast
    cases failures with
    | nil =>
      obtain rfl : now = first := by simpa using hfirst
      rw [List.length_singleton]
      omega
    | cons before failures =>
      have hcount := OneSeries.length_le (List.IsChain.tail hseries) older
      have hspaced : Spaced (now :: before :: (failures ++ older)) := hspaced
      obtain ⟨⟨hle, hwait⟩, hrest⟩ := hspaced
      rw [OneSeries, List.isChain_cons_cons] at hseries
      obtain ⟨hsorted, hlength⟩ := ih hrest hseries.2 rfl (by rwa [List.getLast?_cons_cons] at hfirst)
      rw [List.tail_cons, List.cons_append] at hcount
      rw [List.length_cons] at hcount hlength ⊢
      rw [List.length_cons]
      refine ⟨hsorted.trans hle, ?_⟩
      by_cases hmany : 3 ≤ seriesCount (before :: (failures ++ older))
      · have hwait := hwait hmany
        have hbound := (waitMs_bounds (seriesCount (before :: (failures ++ older)))).1
        push_cast at hlength ⊢
        omega
      · push_cast at hlength ⊢
        omega

/-! ## Runs -/

theorem mem_evaluateArithmetic_inWidth (h : Looked failures clock state) (hclock : clock ≤ nowMs) :
    ∀ result ∈ evaluateArithmetic nowMs state, InWidth result := by
  have hlooked := h.current hclock
  unfold evaluateArithmetic
  generalize current state nowMs = looked at hlooked
  cases hlooked with
  | idle => simp [OsCredentialFailureState.default]
  | free => simp
  | @blocked latest older hfailures hle hmany hwait =>
    have hbound := (waitMs_bounds (seriesCount failures)).2.1
    simp only [List.forall_mem_cons, InWidth]
    refine ⟨by omega, by omega, fun result hresult => absurd hresult List.not_mem_nil⟩

theorem mem_recordArithmetic_inWidth (h : Looked failures clock state) (hclock : clock ≤ nowMs)
    (hstart : -2 ^ 63 ≤ nowMs) (hlimit : nowMs < TIME_LIMIT_MS) :
    ∀ result ∈ recordArithmetic nowMs state, InWidth result := by
  obtain ⟨htotal, -⟩ := (h.current hclock).counts
  unfold recordArithmetic
  rw [htotal]
  generalize seriesCount (nowMs :: failures) = n
  have hcounted : 0 ≤ counted n ∧ counted n < 2 ^ 31 := by
    unfold counted
    omega
  rw [List.forall_mem_cons]
  refine ⟨⟨by dsimp only; omega, hcounted.2⟩, ?_⟩
  split
  · exact fun result hresult => absurd hresult List.not_mem_nil
  · next hmany =>
    have hn : 3 ≤ n := by
      unfold counted at hmany
      omega
    obtain ⟨hexp, hseconds⟩ := backoffSeconds_counted hn
    have hbound := waitMs_bounds n
    have hshift : min (n - 3) 7 ≤ 7 := Nat.min_le_right _ _
    rw [hexp, hseconds]
    have hpow : (2 : ℤ) ^ min (n - 3) 7 ≤ 2 ^ 7 := pow_le_pow_right₀ (by decide) hshift
    have hpos : (0 : ℤ) < 2 ^ min (n - 3) 7 := pow_pos (by decide) _
    unfold TIME_LIMIT_MS at hlimit
    simp only [List.forall_mem_cons, InWidth, OS_CREDENTIAL_LOGIN_BACKOFF_BASE_SECONDS]
    refine ⟨by omega, by omega, by omega, by omega, by omega, fun result hresult =>
      absurd hresult List.not_mem_nil⟩

namespace PolicyRun

/-- What holds all along. -/
structure Sound (run : PolicyRun) : Prop where
  looked : Looked run.failures run.clock run.state
  spaced : Spaced run.failures
  latest : ∀ latest ∈ run.failures.head?, latest ≤ run.clock
  start : -2 ^ 63 ≤ run.clock
  free : run.allowed = true → ¬ Blocks run.failures run.clock

theorem Sound.init : Sound init where
  looked := .idle fun latest hlatest => by cases hlatest
  spaced := trivial
  latest := fun latest hlatest => by cases hlatest
  start := le_refl _
  free := fun h => absurd h (by decide)

theorem Sound.step {run run' : PolicyRun} {event : PolicyEvent} (h : Sound run)
    (hstep : run.step event = some run') : Sound run' := by
  cases event with
  | evaluate nowMs =>
    rw [PolicyRun.step, Option.ite_none_right_eq_some] at hstep
    obtain ⟨⟨hclock, -⟩, hstep⟩ := hstep
    cases hstep
    refine ⟨?_, h.spaced, fun latest hlatest => (h.latest latest hlatest).trans hclock,
      h.start.trans hclock, fun hallowed hblocks => ?_⟩
    · dsimp only
      rw [evaluate_state]
      exact h.looked.current hclock
    · rw [(evaluate_allowed h.looked hclock).mpr hblocks] at hallowed
      cases hallowed
  | record nowMs =>
    rw [PolicyRun.step, Option.ite_none_right_eq_some] at hstep
    obtain ⟨⟨hallowed, hclock, -⟩, hstep⟩ := hstep
    cases hstep
    refine ⟨record_looked h.looked hclock, ?_, fun latest hlatest => ?_, h.start.trans hclock,
      fun h => absurd h Bool.false_ne_true⟩
    · refine h.spaced.cons (fun latest hlatest => (h.latest latest hlatest).trans hclock) ?_
      rintro ⟨hmany, latest, hlatest, hwait⟩
      exact h.free hallowed ⟨hmany, latest, hlatest, by omega⟩
    · obtain rfl : nowMs = latest := by simpa using hlatest
      exact le_refl _

end PolicyRun

/-- **The back-off.** Whatever was evaluated and recorded before: the policy blocks just while the latest
failure does, four failures of one series take fifteen seconds and each more as much again, from the tenth on
half an hour, and no result is out of its width. -/
theorem osCredentialPolicy_backs_off {events : List PolicyEvent} {run : PolicyRun}
    (hrun : Run (Steps PolicyRun.step) .init events run) :
    (∀ nowMs, run.clock ≤ nowMs → nowMs < TIME_LIMIT_MS →
      ((evaluateOsCredentialPolicy .terminalOsLogin nowMs run.state).1.allowed = false ↔
        Blocks run.failures nowMs) ∧
      (∀ result ∈ evaluateArithmetic nowMs run.state, InWidth result) ∧
      ∀ result ∈ recordArithmetic nowMs run.state, InWidth result) ∧
    (∀ newer series older first last, run.failures = newer ++ series ++ older → OneSeries series →
      series.head? = some last → series.getLast? = some first →
      ∀ T, last - first ≤ T → (series.length : ℤ) ≤ 3 + T / 15000) ∧
    ∀ newer now last older, run.failures = newer ++ now :: last :: older → 10 ≤ seriesCount (last :: older) →
      1800 * 1000 ≤ now - last := by
  have hsound : run.Sound := hrun.invariant (fun _ _ _ h hstep => h.step hstep) .init
  refine ⟨fun nowMs hclock hlimit => ⟨evaluate_allowed hsound.looked hclock,
    mem_evaluateArithmetic_inWidth hsound.looked hclock,
    mem_recordArithmetic_inWidth hsound.looked hclock (hsound.start.trans hclock) hlimit⟩, ?_, ?_⟩
  · intro newer series older first last hfailures hseries hlast hfirst T hT
    have hspaced := hsound.spaced
    rw [hfailures, List.append_assoc] at hspaced
    have hwindow := (hspaced.of_append.length_le hseries hlast hfirst).2
    omega
  · intro newer now last older hfailures hmany
    have hspaced := hsound.spaced
    rw [hfailures] at hspaced
    have hwait := hspaced.of_append.1.2 (by omega)
    rw [(waitMs_bounds _).2.2 hmany] at hwait
    omega

/-- Three failures at once, and the policy blocks. -/
theorem osCredentialPolicy_backs_off_third :
    ∃ run, Run (Steps PolicyRun.step) .init
        [.evaluate 0, .record 0, .evaluate 0, .record 0, .evaluate 0, .record 0] run ∧
      ((evaluateOsCredentialPolicy .terminalOsLogin 14999 run.state).1.allowed = false ↔
        Blocks run.failures 14999) := by
  have hrun : Run (Steps PolicyRun.step) .init
      [.evaluate 0, .record 0, .evaluate 0, .record 0, .evaluate 0, .record 0]
      ⟨⟨3, some 15000, some 0⟩, [0, 0, 0], 0, false⟩ := exec_eq_some_iff.mp rfl
  exact ⟨_, hrun, ((osCredentialPolicy_backs_off hrun).1 14999 (by decide) (by decide)).1⟩

end RustDesk.Connection
