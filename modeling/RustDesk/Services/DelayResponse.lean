import RustDesk.Services.VideoQosRuns
import Mathlib.Data.Nat.Cast.Order.Field

/-!
# How the fps follows the delay

More delay asks for no more frames, band by band and over their edges, but for one: from 300 ms on the fps is no longer
compared with the one in force.
-/

namespace RustDesk.Services

variable {minFps normalFps oldAvgDelay avgDelay avgDelay' fps quick increase : ℕ}

theorem asU32_mono {x y : ℚ} (h : x ≤ y) : asU32 x ≤ asU32 y := min_le_min_right _ (Nat.floor_le_floor h)

theorem dividedFps_anti (fps : ℕ) (hpos : 0 < avgDelay) (hle : avgDelay ≤ avgDelay') :
    dividedFps fps avgDelay' ≤ dividedFps fps avgDelay := by
  refine asU32_mono (Int.cast_le.mpr (Int.ceil_le_ceil ?_))
  have hthreshold : (0 : ℚ) < delayThreshold := by decide
  have hpos' : (0 : ℚ) < (avgDelay : ℚ) / delayThreshold := div_pos (by exact_mod_cast hpos) hthreshold
  refine div_le_div_of_nonneg_left (Nat.cast_nonneg fps) hpos' ?_
  exact (div_le_div_iff_of_pos_right hthreshold).mpr (by exact_mod_cast hle)

/-- From the minimum fps on, dividing the fps in force leaves at least what dividing the minimum does. -/
theorem dividend_le_dividedFps (hle : delayThreshold ≤ avgDelay) (hle' : avgDelay ≤ avgDelay') (hmin : minFps ≤ fps)
    (hfps : fps ≤ maxFps) : delayThreshold * minFps / avgDelay' ≤ dividedFps fps avgDelay := by
  have hpos : (0 : ℚ) < avgDelay := by exact_mod_cast Nat.lt_of_lt_of_le (by decide) hle
  have hdiv : ((delayThreshold * minFps / avgDelay' : ℕ) : ℚ) ≤ (fps : ℚ) / ((avgDelay : ℚ) / delayThreshold) :=
    calc ((delayThreshold * minFps / avgDelay' : ℕ) : ℚ)
        ≤ ((delayThreshold * minFps : ℕ) : ℚ) / avgDelay' := Nat.cast_div_le
      _ ≤ ((delayThreshold * fps : ℕ) : ℚ) / avgDelay :=
        div_le_div₀ (Nat.cast_nonneg _) (by exact_mod_cast Nat.mul_le_mul_left _ hmin) hpos (by exact_mod_cast hle')
      _ = (fps : ℚ) / ((avgDelay : ℚ) / delayThreshold) := by rw [div_div_eq_mul_div, Nat.cast_mul, mul_comm]
  have hsmall : delayThreshold * minFps / avgDelay' ≤ 2 ^ 32 - 1 := by
    refine Nat.le_trans (Nat.div_le_of_le_mul (Nat.mul_le_mul_right _ (Nat.le_trans hle hle'))) ?_
    exact Nat.le_trans (Nat.le_trans hmin hfps) (by decide)
  refine le_min (Nat.le_floor ?_) hsmall
  exact le_trans hdiv (Int.le_ceil _)

/-- The one edge that more delay may cross to more frames: the fps is below the minimum of the quality, and from
300 ms on nothing holds it there. -/
def OverEdge (minFps fps avgDelay avgDelay' : ℕ) : Prop :=
  fps < minFps ∧ 200 ≤ avgDelay ∧ avgDelay < 300 ∧ 300 ≤ avgDelay' ∧ avgDelay' < 600

/-- The bands below the threshold raise the fps, or leave it. -/
theorem max_le_bandLaw (h : avgDelay < delayThreshold) :
    max minFps fps ≤ bandLaw minFps normalFps oldAvgDelay avgDelay fps quick := by
  unfold bandLaw
  rw [if_pos h]
  split_ifs <;> omega

/-- The bands from the threshold on. -/
theorem bandLaw_of_le (h : delayThreshold ≤ avgDelay) : bandLaw minFps normalFps oldAvgDelay avgDelay fps quick =
      if avgDelay < 200 then max minFps (dividedFps fps avgDelay)
      else if avgDelay < 300 then min minFps (dividedFps fps avgDelay)
      else if avgDelay < 600 then delayThreshold * minFps / avgDelay
      else min (delayThreshold * minFps / avgDelay) (dividedFps fps avgDelay) := by
  have h150 : 150 ≤ avgDelay := h
  unfold bandLaw
  rw [if_neg (by omega), if_neg (by omega), if_neg (Nat.not_lt_of_le h)]

theorem dividend_le (h : 300 ≤ avgDelay) : delayThreshold * minFps / avgDelay ≤ minFps :=
  Nat.div_le_of_le_mul (Nat.mul_le_mul_right _ (Nat.le_trans (by decide) h))

theorem bandLaw_le_max (h : delayThreshold ≤ avgDelay) :
    bandLaw minFps normalFps oldAvgDelay avgDelay fps quick ≤ max minFps fps := by
  have hdivided : dividedFps fps avgDelay ≤ fps := dividedFps_le h
  have hdividend := @dividend_le minFps avgDelay
  rw [bandLaw_of_le h]
  split_ifs <;> omega

/-- The bands below the threshold: the shorter the delay, the more it may raise the fps. -/
theorem bandLaw_anti_of_lt (h : avgDelay' < delayThreshold) (hle : avgDelay ≤ avgDelay') :
    bandLaw minFps normalFps oldAvgDelay avgDelay' fps quick ≤
      bandLaw minFps normalFps oldAvgDelay avgDelay fps quick := by
  unfold bandLaw
  rw [if_pos h, if_pos (Nat.lt_of_le_of_lt hle h)]
  split_ifs <;> omega

/-- The bands from the threshold on, where the fps is divided. -/
theorem bandLaw_anti_of_le (hfps : fps ≤ maxFps) (h : delayThreshold ≤ avgDelay) (hle : avgDelay ≤ avgDelay')
    (hedge : ¬ OverEdge minFps fps avgDelay avgDelay') :
    bandLaw minFps normalFps oldAvgDelay avgDelay' fps quick ≤
      bandLaw minFps normalFps oldAvgDelay avgDelay fps quick := by
  have hpos : 0 < avgDelay := Nat.lt_of_lt_of_le (by decide) h
  have hdivided := dividedFps_anti fps hpos hle
  have hdividend : delayThreshold * minFps / avgDelay' ≤ delayThreshold * minFps / avgDelay :=
    Nat.div_le_div_left hle hpos
  have hmin := @dividend_le minFps avgDelay'
  -- over the edge only an fps from the minimum on stays above what is divided
  have hcross : minFps ≤ fps → delayThreshold * minFps / avgDelay' ≤ dividedFps fps avgDelay :=
    fun hmin => dividend_le_dividedFps h hle hmin hfps
  unfold OverEdge at hedge
  rw [bandLaw_of_le h, bandLaw_of_le (Nat.le_trans h hle)]
  split_ifs <;> omega

/-- **More delay asks for no more frames**, but over the edge. -/
theorem bandLaw_anti (hfps : fps ≤ maxFps) (hle : avgDelay ≤ avgDelay')
    (hedge : ¬ OverEdge minFps fps avgDelay avgDelay') :
    bandLaw minFps normalFps oldAvgDelay avgDelay' fps quick ≤
      bandLaw minFps normalFps oldAvgDelay avgDelay fps quick := by
  rcases Nat.lt_or_ge avgDelay' delayThreshold with h' | h'
  · exact bandLaw_anti_of_lt h' hle
  rcases Nat.lt_or_ge avgDelay delayThreshold with h | h
  · calc bandLaw minFps normalFps oldAvgDelay avgDelay' fps quick
        ≤ max minFps fps := bandLaw_le_max h'
      _ ≤ bandLaw minFps normalFps oldAvgDelay avgDelay fps quick := max_le_bandLaw h
  · exact bandLaw_anti_of_le hfps h hle hedge

theorem stableStep_anti (hle : avgDelay ≤ avgDelay') : stableStep avgDelay' increase ≤ stableStep avgDelay increase := by
  unfold stableStep
  split_ifs <;> omega

theorem UserDelay.fpsLaw_anti (user : UserDelay) {range : ℕ × ℕ} (hfps : fps ≤ maxFps) (hle : avgDelay ≤ avgDelay') (hedge : ¬ OverEdge range.1 fps avgDelay avgDelay') :
    user.fpsLaw range fps avgDelay' ≤ user.fpsLaw range fps avgDelay :=
  Nat.add_le_add (bandLaw_anti hfps hle hedge) (stableStep_anti hle)

/-! ## Any two delays of a user in any run -/

/-- More delay gives no smaller average, from delays on that are `Ok`. -/
def UserDelay.AvgMonotone (user : UserDelay) (Ok : ℕ → Prop) : Prop :=
  ∀ d d', d ≤ d' → d' < delayBound → Ok d → ∃ avg avg',
    (user.addDelay d).avgDelay = .ok avg ∧ (user.addDelay d').avgDelay = .ok avg' ∧ avg ≤ avg'

theorem UserDelay.Sound.avgMonotone {user : UserDelay} (h : user.Sound) : user.AvgMonotone user.Steady := by
  intro d d' hle hd' hsteady
  have hd : d < delayBound := Nat.lt_of_le_of_lt hle hd'
  exact ⟨_, _, (h.addDelay hd).avgDelay_ok, (h.addDelay hd').avgDelay_ok, h.corrected_mono hle hd' hsteady⟩

namespace VideoQos

/-- The fps that is stored for a user. -/
def storedFps (qos : VideoQos) (id : ℤ) : Option ℕ := (qos.users.lookup id).bind fun user => user.delay.fps

/-- More delay stores no larger fps for a user, for delays that are `Ok`. -/
def FpsAntitone (qos : VideoQos) (os : TargetOs) (now : ℕ) (id : ℤ) (Ok : ℕ → ℕ → Prop) : Prop :=
  ∀ d d', d ≤ d' → d' < delayBound → Ok d d' → ∃ next next' fps fps',
    qos.userNetworkDelay os now id d = .ok next ∧ qos.userNetworkDelay os now id d' = .ok next' ∧
      next.storedFps id = some fps ∧ next'.storedFps id = some fps' ∧ fps' ≤ fps

/-- No call meets a fault, and one that adjusts the fps leaves it in its range. -/
def Faultless (qos : VideoQos) (os : TargetOs) : Prop :=
  (∃ spf, qos.spf = .ok spf) ∧ ∀ now call, call.InRange →
    ∃ next, qos.call os now call = .ok next ∧ (call.Adjusts qos → next.Settled)

/-- The RTT is steady from the first of two delays on, and the averages are not over the edge. -/
def SteadyFps (qos : VideoQos) (user : UserDelay) (d d' : ℕ) : Prop :=
  user.Steady (max d 10) ∧ ¬ OverEdge (fpsFor qos.latestQuality.ratio).1 qos.fps
    (user.addDelay (max d 10)).corrected (user.addDelay (max d' 10)).corrected

variable {qos : VideoQos} {os : TargetOs} {id : ℤ} {user : UserData} {now : ℕ}

theorem Sound.faultless (h : qos.Sound) (os : TargetOs) : qos.Faultless os := by
  constructor
  · have hpos : (qos.getFps : ℚ) ≠ 0 := by
      refine Nat.cast_ne_zero.mpr ?_
      unfold getFps
      split
      · next hrange => exact Nat.ne_of_gt hrange.1
      · decide
    exact ⟨_, MayPanic.div_ok hpos⟩
  · intro now call hrange
    obtain ⟨next, hok, -, hsettled⟩ := h.call_ok os now hrange
    exact ⟨next, hok, hsettled⟩

theorem Sound.fpsAntitone (h : qos.Sound) (os : TargetOs) (now : ℕ) (hid : qos.users.lookup id = some user) :
    qos.FpsAntitone os now id (qos.SteadyFps user.delay) := by
  intro d d' hle hd' ⟨hsteady, hedge⟩
  have hd : d < delayBound := Nat.lt_of_le_of_lt hle hd'
  obtain ⟨next, highestFps, hok, hhighest, -, -, hstored⟩ := h.userNetworkDelay os now id hd
  obtain ⟨next', highestFps', hok', hhighest', -, -, hstored'⟩ := h.userNetworkDelay os now id hd'
  cases hhighest.symm.trans hhighest'
  obtain ⟨after, hafter, hfps⟩ := hstored user hid
  obtain ⟨after', hafter', hfps'⟩ := hstored' user hid
  have hmax : max d 10 ≤ max d' 10 := max_le_max_right 10 hle
  have havg := (h.users id user hid).delay.corrected_mono hmax (max_lt hd' (by decide)) hsteady
  have hedge' : ¬ OverEdge (fpsFor qos.latestQuality.ratio).1 qos.fps
      (max (user.delay.addDelay (max d 10)).corrected 10) (max (user.delay.addDelay (max d' 10)).corrected 10) := by
    unfold OverEdge at hedge ⊢
    omega
  have hlaw := user.delay.fpsLaw_anti h.fps_le (max_le_max_right 10 havg) hedge'
  refine ⟨next, next', _, _, hok, hok', ?_, ?_, max_le_max_left minFps (min_le_min_right highestFps hlaw)⟩
  · rw [storedFps, hafter, Option.bind_some, hfps]
  · rw [storedFps, hafter', Option.bind_some, hfps']

/-- **The controller in any run** with delays below 2^29 ms. No call meets a fault, and the fps is in its range when
it was adjusted. Where the RTT is steady, more delay of a user gives no smaller average, and over all edges but one it
stores no larger fps. -/
theorem reacts_to_delay {trace : List (ℕ × QosCall)} (hrun : Run (Step os) (default now) trace qos) :
    qos.Faultless os ∧ ∀ id user, qos.users.lookup id = some user →
      user.delay.AvgMonotone user.delay.Steady ∧ ∀ now, qos.FpsAntitone os now id (qos.SteadyFps user.delay) := by
  have hsound := sound_of_run hrun
  refine ⟨hsound.faultless os, fun id user hid => ⟨(hsound.users id user hid).delay.avgMonotone, fun now => ?_⟩⟩
  exact hsound.fpsAntitone os now hid

/-- Calls that go through one after the other are a run. -/
theorem run_of_calls {s t : VideoQos} {actions : List (ℕ × QosCall)} (hrange : ∀ a ∈ actions, a.2.InRange)
    (h : actions.foldlM (fun qos a => qos.call os a.1 a.2) s = .ok t) : Run (Step os) s actions t := by
  induction actions generalizing s with
  | nil =>
    obtain rfl := Except.ok.inj h
    exact .nil s
  | cons a actions ih =>
    rw [List.forall_mem_cons] at hrange
    rw [List.foldlM_cons] at h
    cases hcall : s.call os a.1 a.2 with
    | error e =>
      rw [hcall] at h
      cases h
    | ok next =>
      rw [hcall] at h
      exact .cons ⟨hrange.1, next, hcall, .refl _, rfl⟩ (ih hrange.2 h)

/-- The delays of a user who did not answer in time, ten times over. -/
def slowDelay : UserDelay :=
  ⟨true, List.replicate 3 2001, none, ⟨some 2001, some 2001, none, List.replicate 10 2001⟩, 0, 0⟩

def slowUser : UserData := { UserData.default with delay := slowDelay }

def slowQos : VideoQos := { default 0 with fps := 2, users := AList.singleton 1 slowUser }

def slowTrace : List (ℕ × QosCall) :=
  (0, .onConnectionOpen 1 true) :: List.replicate 10 (5000, .userDelayResponseElapsed 1 2001)

theorem slow_run : Run (Step .linux) (default 0) slowTrace slowQos := by
  refine run_of_calls ?_ rfl
  intro a ha
  rcases List.mem_cons.mp ha with rfl | ha
  · trivial
  · obtain rfl := (List.mem_replicate.mp ha).2
    show 2001 < delayBound
    decide

theorem reacts_to_delay_slow : slowQos.Faultless .linux ∧
    ∀ id user, slowQos.users.lookup id = some user → user.delay.AvgMonotone user.delay.Steady ∧
      ∀ now, slowQos.FpsAntitone .linux now id (slowQos.SteadyFps user.delay) :=
  reacts_to_delay slow_run

/-- A delay that is less than all before lowers the RTT at once, so that 10 ms after ten times 2001 ms give a larger
average than 1000 ms do. -/
theorem not_reacts_to_delay :
    ¬ ∀ (os : TargetOs) (start : ℕ) (trace : List (ℕ × QosCall)) (qos : VideoQos),
      Run (Step os) (default start) trace qos → qos.Faultless os ∧
        ∀ id user, qos.users.entries.length = 1 → qos.users.lookup id = some user →
          user.delay.AvgMonotone (fun _ => True) ∧ ∀ now, qos.FpsAntitone os now id fun _ _ => True := by
  intro h
  obtain ⟨havg, -⟩ := (h .linux 0 slowTrace slowQos slow_run).2 1 slowUser rfl rfl
  obtain ⟨avg, avg', hlow, hhigh, hle⟩ := havg 10 1000 (by decide) (by decide) trivial
  have hlow' : (slowDelay.addDelay 10).avgDelay = .ok 1327 := rfl
  have hhigh' : (slowDelay.addDelay 1000).avgDelay = .ok 667 := rfl
  cases hlow'.symm.trans hlow
  cases hhigh'.symm.trans hhigh
  exact absurd hle (by decide)

end VideoQos

end RustDesk.Services
