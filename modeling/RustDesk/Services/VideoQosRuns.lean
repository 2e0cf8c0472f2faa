import RustDesk.Services.VideoQos

/-!
# No fault in the QoS controller

In every run of the controller with delays below 2^29 ms no sum leaves its type, nothing is divided by zero and no
range that a value is clamped to is empty; what the steps compute is told without the checks.
-/

namespace RustDesk.Services

open MayPanic (addU32 clamp)

/-! ## The fps of a user, without the checks -/

/-- `devide_fps`. -/
def dividedFps (fps avgDelay : ℕ) : ℕ := asU32 (⌈(fps : ℚ) / ((avgDelay : ℚ) / delayThreshold)⌉ : ℤ)

/-- The fps in the band of an average delay. -/
def bandLaw (minFps normalFps oldAvgDelay avgDelay fps quick : ℕ) : ℕ :=
  if avgDelay < 50 then max minFps (fps + if 3 ≤ quick + 1 then 5 else if fps < normalFps then 1 else 0)
  else if avgDelay < 100 then max minFps (fps + if avgDelay < oldAvgDelay ∧ fps < normalFps then 1 else 0)
  else if avgDelay < delayThreshold then max minFps fps
  else if avgDelay < 200 then max minFps (dividedFps fps avgDelay)
  else if avgDelay < 300 then min minFps (dividedFps fps avgDelay)
  else if avgDelay < 600 then delayThreshold * minFps / avgDelay
  else min (delayThreshold * minFps / avgDelay) (dividedFps fps avgDelay)

/-- The frame that three good delays in a row add. -/
def stableStep (avgDelay increase : ℕ) : ℕ := if avgDelay < delayThreshold ∧ 3 ≤ increase + 1 then 1 else 0

/-- The fps of a user after a delay. -/
def UserDelay.fpsLaw (user : UserDelay) (range : ℕ × ℕ) (fps avgDelay : ℕ) : ℕ :=
  bandLaw range.1 range.2 user.corrected avgDelay fps user.quickIncreaseFpsCount +
    stableStep avgDelay user.increaseFpsCount

variable {avgDelay fps : ℕ}

theorem devideFps_ok (h : 0 < avgDelay) : devideFps fps avgDelay = .ok (dividedFps fps avgDelay) := by
  have hpos : (0 : ℚ) < avgDelay := by exact_mod_cast h
  have hthreshold : ((delayThreshold : ℕ) : ℚ) ≠ 0 := by decide
  have htimes : (avgDelay : ℚ) / delayThreshold ≠ 0 := div_ne_zero (ne_of_gt hpos) hthreshold
  rw [devideFps, MayPanic.div_ok hthreshold]
  dsimp only [Except.bind]
  rw [MayPanic.div_ok htimes]
  rfl

/-- More delay than the threshold does not raise the fps. -/
theorem dividedFps_le (h : delayThreshold ≤ avgDelay) : dividedFps fps avgDelay ≤ fps := by
  refine asU32_le ?_
  have hthreshold : (0 : ℚ) < delayThreshold := by decide
  have hone : 1 ≤ (avgDelay : ℚ) / delayThreshold := (one_le_div hthreshold).mpr (by exact_mod_cast h)
  have hceil : ⌈(fps : ℚ) / ((avgDelay : ℚ) / delayThreshold)⌉ ≤ (fps : ℤ) :=
    Int.ceil_le.mpr (div_le_self (Nat.cast_nonneg fps) hone)
  exact_mod_cast hceil

theorem bandFps_ok (minFps normalFps oldAvgDelay quick : ℕ) (hfps : fps ≤ maxFps)
    (havg : 10 ≤ avgDelay) : ∃ quick', bandFps minFps normalFps oldAvgDelay avgDelay fps quick =
      .ok (bandLaw minFps normalFps oldAvgDelay avgDelay fps quick, quick') := by
  have hne : avgDelay ≠ 0 := by omega
  unfold bandFps bandLaw
  dsimp only
  by_cases h50 : avgDelay < 50
  · rw [if_pos h50, if_pos h50]
    by_cases hquick : 3 ≤ quick + 1
    · rw [if_pos hquick, if_pos hquick, MayPanic.addU32_ok (by unfold maxFps at hfps; omega)]
      exact ⟨0, rfl⟩
    · rw [if_neg hquick, if_neg hquick]
      rw [MayPanic.addU32_ok (by unfold maxFps at hfps; split <;> omega)]
      exact ⟨quick + 1, rfl⟩
  rw [if_neg h50, if_neg h50]
  by_cases h100 : avgDelay < 100
  · have hstep : (if avgDelay < oldAvgDelay then if fps < normalFps then 1 else 0 else 0) =
        if avgDelay < oldAvgDelay ∧ fps < normalFps then 1 else 0 := by
      split <;> split <;> simp_all
    rw [if_pos h100, if_pos h100, hstep, MayPanic.addU32_ok (by unfold maxFps at hfps; split <;> omega)]
    exact ⟨quick, rfl⟩
  rw [if_neg h100, if_neg h100]
  by_cases h150 : avgDelay < delayThreshold
  · rw [if_pos h150, if_pos h150]
    exact ⟨quick, rfl⟩
  rw [if_neg h150, if_neg h150, devideFps_ok (by omega)]
  dsimp only [Except.bind]
  refine ⟨quick, ?_⟩
  rw [MayPanic.div_ok hne]
  split
  · rfl
  · split
    · rfl
    · split <;> rfl

theorem bandLaw_le (minFps normalFps oldAvgDelay avgDelay fps quick : ℕ) :
    bandLaw minFps normalFps oldAvgDelay avgDelay fps quick ≤ minFps + fps + 5 := by
  have hdiv : delayThreshold ≤ avgDelay → dividedFps fps avgDelay ≤ fps := dividedFps_le
  have hmin : 300 ≤ avgDelay → delayThreshold * minFps / avgDelay ≤ minFps := fun h =>
    Nat.div_le_of_le_mul (Nat.mul_le_mul_right _ (Nat.le_trans (by decide) h))
  unfold bandLaw
  split_ifs <;> omega

theorem fpsFor_le (targetRatio : ℚ) : (fpsFor targetRatio).1 ≤ 12 := by
  unfold fpsFor
  split_ifs <;> decide

/-- Only the counters differ from a sound history with one more delay. -/
theorem UserDelay.Sound.congr {user user' : UserDelay} (h : user.Sound)
    (hhistory : user'.delayHistory = user.delayHistory) (hrtt : user'.rttCalculator = user.rttCalculator) :
    user'.Sound := by
  obtain ⟨hrecent, hhist, hsamples, hlt, hleast, hunsmoothed⟩ := h
  rw [← hrtt] at hrecent hsamples hlt hleast hunsmoothed
  rw [← hhistory] at hrecent hhist
  exact ⟨hrecent, hhist, hsamples, hlt, hleast, hunsmoothed⟩

/-- **The fps of a user after a delay**, without a fault on the way. -/
theorem UserDelay.Sound.networkDelay_ok {user : UserDelay} (h : user.Sound) {targetRatio : ℚ}
    {highestFps delay : ℕ} (hdelay : delay < delayBound) (hfps : fps ≤ maxFps) (hhighest : minFps ≤ highestFps) :
    ∃ user', user.networkDelay (fpsFor targetRatio) highestFps fps delay = .ok user' ∧ user'.Sound ∧
      user'.fps = some (max minFps (min (user.fpsLaw (fpsFor targetRatio) fps
        (max (user.addDelay (max delay 10)).corrected 10)) highestFps)) := by
  have hbound : max delay 10 < delayBound := max_lt hdelay (by decide)
  unfold networkDelay
  rw [h.avgDelay_ok]
  dsimp only [Except.bind]
  rw [(h.addDelay hbound).avgDelay_ok]
  dsimp only
  generalize hrange : fpsFor targetRatio = range
  have hlow : range.1 ≤ 12 := hrange ▸ fpsFor_le targetRatio
  generalize havg : max (user.addDelay (max delay 10)).corrected 10 = avgDelay
  have hten : 10 ≤ avgDelay := havg ▸ Nat.le_max_right _ _
  obtain ⟨quick, hband⟩ := bandFps_ok range.1 range.2 user.corrected user.quickIncreaseFpsCount hfps hten
  have hroom := bandLaw_le range.1 range.2 user.corrected avgDelay fps user.quickIncreaseFpsCount
  have hstep : stableStep avgDelay user.increaseFpsCount ≤ 1 := by
    unfold stableStep
    split <;> omega
  have hadd : addU32 (bandLaw range.1 range.2 user.corrected avgDelay fps user.quickIncreaseFpsCount)
      (stableStep avgDelay user.increaseFpsCount) = .ok (user.fpsLaw range fps avgDelay) :=
    MayPanic.addU32_ok (by unfold maxFps at hfps; omega)
  show ∃ user', (bandFps range.1 range.2 user.corrected avgDelay fps user.quickIncreaseFpsCount).bind _ = _ ∧ _
  rw [hband]
  dsimp only [Except.bind]
  rw [show (user.addDelay (max delay 10)).increaseFpsCount = user.increaseFpsCount from rfl]
  generalize hincrease : (if avgDelay < delayThreshold then user.increaseFpsCount + 1 else 0) = increase
  have hcounted : (if 3 ≤ increase then (0, 1) else (increase, 0)) =
      (if 3 ≤ increase then 0 else increase, stableStep avgDelay user.increaseFpsCount) := by
    unfold stableStep
    subst hincrease
    split_ifs <;> first | rfl | omega
  rw [hcounted]
  rw [hadd]
  dsimp only
  rw [MayPanic.clamp_ok hhighest]
  exact ⟨_, rfl, (h.addDelay hbound).congr rfl rfl, rfl⟩

/-! ## What is true in every run -/

/-- A ratio of one's own is in its range. -/
def Quality.Sound : Quality → Prop
  | .custom v => brMin ≤ v ∧ v ≤ brMax
  | _ => True

structure UserData.Sound (user : UserData) : Prop where
  delay : user.delay.Sound
  quality : ∀ time quality, user.quality = some (time, quality) → quality.Sound

namespace VideoQos

structure Sound (qos : VideoQos) : Prop where
  users : ∀ id user, qos.users.lookup id = some user → user.Sound
  fps_pos : minFps ≤ qos.fps
  fps_le : qos.fps ≤ maxFps
  bitrate_lt : qos.bitrateStore + 150 < 2 ^ 32

/-- The fps is in the range of the users. -/
def Settled (qos : VideoQos) : Prop := ∃ highestFps, qos.highestFps = .ok highestFps ∧ minFps ≤ qos.fps ∧ qos.fps ≤ highestFps

variable {qos : VideoQos} {now : ℕ} {user : UserData}

theorem sound_default (now : ℕ) : (default now).Sound :=
  ⟨fun _ _ h => absurd (AList.lookup_isSome.mp (Option.isSome_iff_exists.mpr ⟨_, h⟩)) (AList.notMem_empty _),
    by show minFps ≤ stdFps; decide, by show stdFps ≤ maxFps; decide, by show 0 + 150 < 2 ^ 32; decide⟩

theorem mem_userList : user ∈ qos.userList ↔ ∃ id, qos.users.lookup id = some user := by
  rw [userList, List.mem_map]
  constructor
  · rintro ⟨e, he, rfl⟩
    exact ⟨e.1, AList.mem_lookup_iff.mpr he⟩
  · rintro ⟨id, hid⟩
    exact ⟨⟨id, user⟩, AList.mem_lookup_iff.mp hid, rfl⟩

theorem Sound.of_mem (h : qos.Sound) (huser : user ∈ qos.userList) : user.Sound := by
  obtain ⟨id, hid⟩ := mem_userList.mp huser
  exact h.users id user hid

theorem Sound.congr {next : VideoQos} (h : qos.Sound) (husers : next.users = qos.users) (hfps : next.fps = qos.fps)
    (hbitrate : next.bitrateStore = qos.bitrateStore) : next.Sound :=
  ⟨husers ▸ h.users, hfps ▸ h.fps_pos, hfps ▸ h.fps_le, hbitrate ▸ h.bitrate_lt⟩

/-- A user is written. -/
theorem Sound.set (h : qos.Sound) (id : ℤ) (huser : user.Sound) :
    Sound { qos with users := qos.users.set id user } := by
  refine ⟨fun id' user' hid' => ?_, h.fps_pos, h.fps_le, h.bitrate_lt⟩
  rcases AList.of_lookup_set hid' with rfl | hid'
  · exact huser
  · exact h.users id' user' hid'

theorem highestFps_ok (qos : VideoQos) :
    ∃ highestFps, qos.highestFps = .ok highestFps ∧ minFps ≤ highestFps ∧ highestFps ≤ maxFps := by
  refine ⟨_, MayPanic.clamp_ok (by decide), Nat.le_max_left _ _, max_le (by decide) (Nat.min_le_right _ _)⟩

theorem adjustFps_ok (qos : VideoQos) (now : ℕ) : ∃ fps highestFps, qos.adjustFps now = .ok { qos with fps } ∧
    qos.highestFps = .ok highestFps ∧ minFps ≤ fps ∧ fps ≤ highestFps ∧ highestFps ≤ maxFps := by
  obtain ⟨highestFps, hhighest, hmin, hmax⟩ := qos.highestFps_ok
  unfold adjustFps
  rw [hhighest]
  dsimp only [Except.bind]
  rw [MayPanic.clamp_ok hmin]
  exact ⟨_, highestFps, rfl, rfl, Nat.le_max_left _ _, max_le hmin (Nat.min_le_right _ _), hmax⟩

theorem laterQuality_sound {latest : Option (ℤ × Quality)} (huser : user.Sound)
    (hlatest : ∀ q ∈ latest, q.2.Sound) : ∀ q ∈ laterQuality latest user, q.2.Sound := by
  intro q hq
  unfold laterQuality at hq
  split at hq
  · next quality latest' hquality =>
    split at hq
    · exact hlatest q hq
    · cases hq
      exact huser.quality _ _ hquality
  · next quality hquality =>
    cases hq
    exact huser.quality _ _ hquality
  · exact hlatest q hq

theorem Sound.latestQuality (h : qos.Sound) : qos.latestQuality.Sound := by
  have hfold : ∀ users : List UserData, (∀ user ∈ users, user.Sound) → ∀ latest : Option (ℤ × Quality),
      (∀ q ∈ latest, q.2.Sound) → ∀ q ∈ users.foldl laterQuality latest, q.2.Sound := by
    intro users husers
    induction users with
    | nil => exact fun latest hlatest => hlatest
    | cons user users ih =>
      rw [List.forall_mem_cons] at husers
      exact fun latest hlatest => ih husers.2 _ (laterQuality_sound husers.1 hlatest)
  unfold VideoQos.latestQuality
  cases hlatest : qos.userList.foldl laterQuality none with
  | none => trivial
  | some q => exact hfold qos.userList (fun user => h.of_mem) none (by simp) q hlatest

theorem atMost1mbps_le (min : ℚ) (ratio1mbps : Option ℚ) : atMost1mbps min ratio1mbps ≤ min := by
  unfold atMost1mbps
  split
  · split
    · next hlt => exact le_of_lt hlt
    · exact le_refl min
  · exact le_refl min

/-- **The range of the ratio is not empty**, whatever the bitrate. -/
theorem minRatio_le {quality : Quality} (h : quality.Sound) (ratio1mbps : Option ℚ) :
    minRatio quality ratio1mbps ≤ quality.ratio * maxBrMultiple := by
  rw [maxBrMultiple, mul_one]
  cases quality with
  | best => refine max_le (le_trans (atMost1mbps_le _ _) ?_) ?_ <;> norm_num [Quality.ratio, brBest, brMin]
  | balanced =>
    refine max_le (le_trans (atMost1mbps_le _ _) (le_trans (min_le_left _ _) ?_)) ?_ <;>
      norm_num [Quality.ratio, brBalanced, brMinHighResolution]
  | low => norm_num [minRatio, Quality.ratio, brMinHighResolution, brSpeed]
  | custom v => exact le_trans (by norm_num [minRatio, brMinHighResolution, brMin]) h.1

theorem bitrateRatios_ok {bitrate : ℕ} (h : bitrate + 150 < 2 ^ 32) (ratio : ℚ) :
    ∃ ratios, bitrateRatios ratio bitrate = .ok ratios := by
  unfold bitrateRatios
  split
  · next hpos =>
    have hne : (bitrate : ℚ) ≠ 0 := Nat.cast_ne_zero.mpr (Nat.ne_of_gt hpos)
    rw [MayPanic.div_ok hne]
    dsimp only [Except.bind]
    rw [MayPanic.addU32_ok h]
    dsimp only
    rw [MayPanic.div_ok hne]
    exact ⟨_, rfl⟩
  · exact ⟨none, rfl⟩

theorem Sound.adjustRatio_ok (h : qos.Sound) (now : ℕ) (dynamicScreen : Bool) :
    ∃ ratio instant, qos.adjustRatio now dynamicScreen = .ok { qos with ratio, adjustRatioInstant := instant } := by
  unfold adjustRatio
  split
  · rw [MayPanic.mapM_ok fun user huser => (h.of_mem huser).delay.avgDelay_ok]
    dsimp only [Except.bind]
    split
    · obtain ⟨ratios, hratios⟩ := bitrateRatios_ok h.bitrate_lt qos.ratio
      rw [hratios]
      dsimp only
      rw [MayPanic.clamp_ok (minRatio_le h.latestQuality _)]
      exact ⟨_, now, rfl⟩
    · exact ⟨qos.ratio, qos.adjustRatioInstant, rfl⟩
  · exact ⟨qos.ratio, qos.adjustRatioInstant, rfl⟩

/-! ## Calls -/

theorem Sound.modifyUser (h : qos.Sound) (id : ℤ) {f : UserData → UserData}
    (hf : ∀ user : UserData, user.Sound → (f user).Sound) : (qos.modifyUser id f).Sound := by
  unfold VideoQos.modifyUser
  split
  · next user hid => exact h.set id (hf user (h.users id user hid))
  · exact h

theorem Sound.modifyDisplay (h : qos.Sound) (name : String) (f : DisplayData → DisplayData) :
    (qos.modifyDisplay name f).Sound := by
  unfold VideoQos.modifyDisplay
  split
  · exact h.congr rfl rfl rfl
  · exact h

theorem Sound.adjustFps (h : qos.Sound) (now : ℕ) : ∃ fps, qos.adjustFps now = .ok { qos with fps } ∧
    Sound { qos with fps } ∧ Settled { qos with fps } := by
  obtain ⟨fps, highestFps, hok, hhighest, hmin, hle, hmax⟩ := qos.adjustFps_ok now
  exact ⟨fps, hok, ⟨h.users, hmin, Nat.le_trans hle hmax, h.bitrate_lt⟩, highestFps, hhighest, hmin, hle⟩

theorem Sound.adjustRatio (h : qos.Sound) (hsettled : qos.Settled) (now : ℕ) (dynamicScreen : Bool) :
    ∃ next, qos.adjustRatio now dynamicScreen = .ok next ∧ next.Sound ∧ next.Settled := by
  obtain ⟨ratio, instant, hok⟩ := h.adjustRatio_ok now dynamicScreen
  exact ⟨_, hok, h.congr rfl rfl rfl, hsettled⟩

theorem convertQuality_ok (q : ℤ) : ∃ quality, convertQuality q = .ok quality ∧ quality.Sound := by
  unfold convertQuality
  split_ifs
  · exact ⟨_, rfl, trivial⟩
  · exact ⟨_, rfl, trivial⟩
  · exact ⟨_, rfl, trivial⟩
  · have hrange : brMin ≤ brMax := by norm_num [brMin, brMax]
    dsimp only
    rw [MayPanic.clamp_ok hrange]
    exact ⟨_, rfl, le_max_left _ _, max_le hrange (min_le_right _ _)⟩

section

variable (h : qos.Sound)
include h

theorem Sound.userImageQuality (id imageQuality time : ℤ) :
    ∃ next, qos.userImageQuality id imageQuality time = .ok next ∧ next.Sound := by
  obtain ⟨quality, hok, hquality⟩ := convertQuality_ok imageQuality
  unfold VideoQos.userImageQuality
  rw [hok]
  dsimp only [Except.bind]
  split
  · next user hid =>
    have huser : UserData.Sound { user with quality := some (time, quality) } := by
      refine ⟨(h.users id user hid).delay, fun time' quality' heq => ?_⟩
      cases heq
      exact hquality
    exact ⟨_, rfl, (h.set id huser).congr rfl rfl rfl⟩
  · exact ⟨qos, rfl, h⟩

/-- **A delay that a user reports**: its fps is that of the law, and the controller stays sound. -/
theorem Sound.userNetworkDelay (os : TargetOs) (now : ℕ) (id : ℤ) {delay : ℕ} (hdelay : delay < delayBound) :
    ∃ next highestFps, qos.userNetworkDelay os now id delay = .ok next ∧ qos.highestFps = .ok highestFps ∧
      next.Sound ∧ next.Settled ∧ ∀ user, qos.users.lookup id = some user →
        ∃ user', next.users.lookup id = some user' ∧ user'.delay.fps =
          some (max minFps (min (user.delay.fpsLaw (fpsFor qos.latestQuality.ratio) qos.fps
            (max (user.delay.addDelay (max delay 10)).corrected 10)) highestFps)) := by
  obtain ⟨highestFps, hhighest, hmin, -⟩ := qos.highestFps_ok
  unfold VideoQos.userNetworkDelay
  rw [hhighest]
  dsimp only [Except.bind]
  cases hid : qos.users.lookup id with
  | none =>
    obtain ⟨fps, hok, hsound, hsettled⟩ := h.adjustFps now
    exact ⟨_, highestFps, hok, rfl, hsound, hsettled, fun _ heq => absurd heq (Option.some_ne_none _).symm⟩
  | some user =>
    have huser := h.users id user hid
    obtain ⟨delays, hnetwork, hdelays, hfps⟩ := huser.delay.networkDelay_ok hdelay h.fps_le hmin
    dsimp only
    rw [hnetwork]
    dsimp only
    have hwritten : UserData.Sound { user with delay := delays } := ⟨hdelays, huser.quality⟩
    obtain ⟨fps, hok, hsound, hsettled⟩ := (h.set id hwritten).adjustFps now
    rw [hok]
    dsimp only
    have hlookup : (qos.users.set id { user with delay := delays }).lookup id = some { user with delay := delays } :=
      AList.lookup_set _ hid
    split
    · -- the ratio is adjusted too, which leaves the users as they are
      obtain ⟨ratio, instant, hratio⟩ := hsound.adjustRatio_ok now false
      refine ⟨_, highestFps, hratio, rfl, hsound.congr rfl rfl rfl, hsettled, fun user' heq => ?_⟩
      cases heq
      exact ⟨_, hlookup, hfps⟩
    · refine ⟨_, highestFps, rfl, rfl, hsound, hsettled, fun user' heq => ?_⟩
      cases heq
      exact ⟨_, hlookup, hfps⟩

theorem Sound.userDelayResponseElapsed (now : ℕ) (id : ℤ) {elapsed : ℕ} (helapsed : elapsed < delayBound) :
    ∃ next, qos.userDelayResponseElapsed now id elapsed = .ok next ∧ next.Sound ∧
      (id ∈ qos.users ∧ elapsed > 2000 → next.Settled) := by
  unfold VideoQos.userDelayResponseElapsed
  split
  · next user hid =>
    have huser := h.users id user hid
    split
    · have hlt : elapsed % 2 ^ 32 < delayBound := Nat.lt_of_le_of_lt (Nat.mod_le _ _) helapsed
      have hdelay : UserDelay.Sound { user.delay with responseDelayed := true } := huser.delay.congr rfl rfl
      have hwritten : UserData.Sound { user with
          delay := { user.delay with responseDelayed := true }.addDelay (elapsed % 2 ^ 32) } :=
        ⟨hdelay.addDelay hlt, huser.quality⟩
      obtain ⟨fps, hok, hsound, hsettled⟩ := (h.set id hwritten).adjustFps now
      exact ⟨_, hok, hsound, fun _ => hsettled⟩
    · next hfast =>
      exact ⟨_, rfl, h.set id ⟨huser.delay.congr rfl rfl, huser.quality⟩, fun hslow => absurd hslow.2 hfast⟩
  · next hid => exact ⟨qos, rfl, h, fun hmem => absurd hmem.1 (AList.lookup_eq_none.mp hid)⟩

theorem Sound.updateDisplayData (now : ℕ) (name : String) (sendCounter : ℕ) :
    ∃ next, qos.updateDisplayData now name sendCounter = .ok next ∧ next.Sound ∧ next.Settled := by
  unfold VideoQos.updateDisplayData
  dsimp only
  have hshown := h.modifyDisplay name fun display =>
    { display with sendCounter := display.sendCounter + sendCounter }
  generalize qos.modifyDisplay name _ = shown at hshown ⊢
  obtain ⟨fps, hok, hsound, hsettled⟩ := hshown.adjustFps now
  rw [hok]
  dsimp only [Except.bind]
  split
  · split
    · have hreset : Sound { shown with fps, displays := resetCounters shown.displays } := hsound.congr rfl rfl rfl
      exact hreset.adjustRatio hsettled now _
    · exact ⟨_, rfl, hsound, hsettled⟩
  · exact ⟨_, rfl, hsound.congr rfl rfl rfl, hsettled⟩

/-- **What a call does** in a sound state: it meets no fault, and where it adjusts the fps, this is in its range. -/
theorem Sound.call_ok (os : TargetOs) (now : ℕ) {call : QosCall} (hrange : call.InRange) :
    ∃ next, qos.call os now call = .ok next ∧ next.Sound ∧ (call.Adjusts qos → next.Settled) := by
  cases call with
  | onConnectionOpen id abr =>
    refine ⟨_, rfl, ⟨fun id' user hid' => ?_, h.fps_pos, h.fps_le, h.bitrate_lt⟩, nofun⟩
    by_cases hid : id' = id
    · rw [onConnectionOpen, hid, AList.lookup_insert] at hid'
      cases hid'
      exact ⟨UserDelay.sound_default, nofun⟩
    · rw [onConnectionOpen, AList.lookup_insert_ne hid] at hid'
      exact h.users id' user hid'
  | onConnectionClose id =>
    refine ⟨_, rfl, ?_, nofun⟩
    unfold onConnectionClose
    dsimp only
    split
    · exact sound_default now
    · refine ⟨fun id' user hid' => h.users id' user ?_, h.fps_pos, h.fps_le, h.bitrate_lt⟩
      have hne : id' ≠ id := by
        rintro rfl
        rw [AList.lookup_erase] at hid'
        cases hid'
      rwa [AList.lookup_erase_ne hne] at hid'
  | userCustomFps id fps =>
    refine ⟨_, rfl, ?_, nofun⟩
    unfold userCustomFps
    split
    · exact h
    · exact h.modifyUser id fun user huser => ⟨huser.delay, huser.quality⟩
  | userAutoAdjustFps id fps =>
    refine ⟨_, rfl, ?_, nofun⟩
    unfold userAutoAdjustFps
    split
    · exact h
    · exact h.modifyUser id fun user huser => ⟨huser.delay, huser.quality⟩
  | userImageQuality id imageQuality time =>
    obtain ⟨next, hok, hsound⟩ := h.userImageQuality id imageQuality time
    exact ⟨next, hok, hsound, nofun⟩
  | userRecord id v => exact ⟨_, rfl, h.modifyUser id fun user huser => ⟨huser.delay, huser.quality⟩, nofun⟩
  | userNetworkDelay id delay =>
    obtain ⟨next, -, hok, -, hsound, hsettled, -⟩ := h.userNetworkDelay os now id hrange
    exact ⟨next, hok, hsound, fun _ => hsettled⟩
  | userDelayResponseElapsed id elapsed => exact h.userDelayResponseElapsed now id hrange
  | newDisplay | removeDisplay => exact ⟨_, rfl, h.congr rfl rfl rfl, nofun⟩
  | setSupportChangingQuality name support => exact ⟨_, rfl, h.modifyDisplay name _, nofun⟩
  | updateDisplayData name sendCounter =>
    obtain ⟨next, hok, hsound, hsettled⟩ := h.updateDisplayData now name sendCounter
    exact ⟨next, hok, hsound, fun _ => hsettled⟩
  | storeBitrate encoder => exact ⟨_, rfl, ⟨h.users, h.fps_pos, h.fps_le, encoder.bitrate_lt os⟩, nofun⟩
  | ratio => exact ⟨_, rfl, h.congr rfl rfl rfl, nofun⟩

theorem Sound.step {os : TargetOs} {a : ℕ × QosCall} {next : VideoQos} (hstep : Step os qos a next) :
    next.Sound := by
  obtain ⟨hrange, qos', hcall, hperm, heq⟩ := hstep
  obtain ⟨qos'', hok, hsound, -⟩ := h.call_ok os a.1 hrange
  cases hcall.symm.trans hok
  rw [heq]
  refine ⟨fun id user hid => hsound.users id user ?_, hsound.fps_pos, hsound.fps_le, hsound.bitrate_lt⟩
  exact (AList.perm_lookup hperm).symm.trans hid

end

theorem sound_of_run {os : TargetOs} {trace : List (ℕ × QosCall)} (hrun : Run (Step os) (default now) trace qos) :
    qos.Sound :=
  hrun.invariant (fun _ _ _ h hstep => h.step hstep) (sound_default now)

end VideoQos

end RustDesk.Services
