import RustDesk.Common.Checked
import Mathlib.Algebra.Order.BigOperators.Group.List
import Mathlib.Data.List.MinMax
import Mathlib.Data.Rat.Floor

/-!
# Network delay of a user

Reference: `src/server/video_qos.rs` (`RttCalculator`, `UserDelay::add_delay`, `UserDelay::avg_delay`). An `f32` is
the number that it stands for. The average of the last delays is taken less the RTT, an estimate from the least
delays of a longer window.
-/

namespace RustDesk.Services

open MayPanic (sumU32 subU32)

/-- `as u32` of an `f32`. -/
def asU32 (x : ℚ) : ℕ := min ⌊x⌋₊ (2 ^ 32 - 1)

/-- `pop_front` at the capacity, and `push_back`. -/
def pushWindow (capacity : ℕ) (window : List ℕ) (x : ℕ) : List ℕ :=
  (if capacity ≤ window.length then window.tail else window) ++ [x]

/-! ## The RTT -/

/-- `RttCalculator`. The oldest sample stands first. -/
structure RttCalculator where
  minRtt : Option ℕ
  windowMinRtt : Option ℕ
  smoothedRtt : Option ℕ
  samples : List ℕ
  deriving DecidableEq

namespace RttCalculator

def windowSamples : ℕ := 60

def minSamples : ℕ := 10

def alpha : ℚ := 1 / 2

def default : RttCalculator := ⟨none, none, none, []⟩

def update (rtt : RttCalculator) (delay : ℕ) : RttCalculator :=
  let minRtt :=
    match rtt.minRtt with
    | some minRtt => if delay < minRtt then some delay else some minRtt
    | none => some delay
  let samples := pushWindow windowSamples rtt.samples delay
  let windowMinRtt := samples.min?
  let smoothedRtt :=
    if windowSamples ≤ samples.length then
      match minRtt, windowMinRtt with
      | some min, some windowMin => some (asU32 ((1 - alpha) * min + alpha * windowMin))
      | _, _ => rtt.smoothedRtt
    else rtt.smoothedRtt
  ⟨minRtt, windowMinRtt, smoothedRtt, samples⟩

def getRtt (rtt : RttCalculator) : Option ℕ :=
  match rtt.smoothedRtt with
  | some rtt => some rtt
  | none => if minSamples ≤ rtt.samples.length then rtt.minRtt else none

end RttCalculator

/-! ## The delay -/

/-- `UserDelay`. -/
structure UserDelay where
  responseDelayed : Bool
  delayHistory : List ℕ
  fps : Option ℕ
  rttCalculator : RttCalculator
  quickIncreaseFpsCount : ℕ
  increaseFpsCount : ℕ
  deriving DecidableEq

def historyDelayLen : ℕ := 2

/-- `DELAY_THRESHOLD_150MS`. -/
def delayThreshold : ℕ := 150

namespace UserDelay

def default : UserDelay := ⟨false, [], none, .default, 0, 0⟩

def addDelay (user : UserDelay) (delay : ℕ) : UserDelay :=
  { user with
    rttCalculator := user.rttCalculator.update delay
    delayHistory := pushWindow (historyDelayLen + 1) user.delayHistory delay }

/-- The average of the history, before the RTT is taken off. -/
def rawDelay (user : UserDelay) : MayPanic ℕ :=
  (sumU32 0 user.delayHistory).bind fun sum => MayPanic.div sum user.delayHistory.length

def avgDelay (user : UserDelay) : MayPanic ℕ :=
  if 0 < user.delayHistory.length then
    user.rawDelay.bind fun avgDelay =>
      match user.rttCalculator.getRtt with
      | some rtt => if rtt < avgDelay then subU32 avgDelay rtt else .ok avgDelay
      | none => .ok avgDelay
  else .ok delayThreshold

/-- The delays that stay when one more comes. -/
def retained (user : UserDelay) : List ℕ :=
  if RttCalculator.windowSamples ≤ user.rttCalculator.samples.length then user.rttCalculator.samples.tail
  else user.rttCalculator.samples

end UserDelay

/-! ## Windows -/

section

variable {capacity : ℕ} {window window' : List ℕ} {x y : ℕ}

theorem mem_pushWindow (h : y ∈ pushWindow capacity window x) : y ∈ window ∨ y = x := by
  rw [pushWindow, List.mem_append, List.mem_singleton] at h
  refine h.imp_left fun h => ?_
  split at h
  · exact List.mem_of_mem_tail h
  · exact h

theorem length_pushWindow_le (hcapacity : 0 < capacity) (h : window.length ≤ capacity) :
    (pushWindow capacity window x).length ≤ capacity := by
  rw [pushWindow, List.length_append, List.length_singleton]
  split
  · rw [List.length_tail]
    omega
  · omega

theorem length_pushWindow : (pushWindow capacity window x).length = (pushWindow capacity window y).length := by
  rw [pushWindow, pushWindow, List.length_append, List.length_append]
  rfl

/-- A shorter window is the end of a longer one. -/
theorem pushWindow_suffix {capacity' : ℕ} (hlt : capacity' < capacity) (hle : window'.length ≤ capacity')
    (h : window' <:+ window) : pushWindow capacity' window' x <:+ pushWindow capacity window x := by
  refine List.suffix_concat_iff.mpr (.inr ⟨_, rfl, ?_⟩)
  have htail : (if capacity' ≤ window'.length then window'.tail else window') <:+ window' := by
    split
    · exact List.tail_suffix window'
    · exact List.suffix_refl window'
  refine htail.trans ?_
  split
  · next hfull =>
    -- the longer window has more than the shorter one, so that its first entry is no part of this
    refine List.suffix_of_suffix_length_le h (List.tail_suffix window) ?_
    rw [List.length_tail]
    omega
  · exact h

/-- The least of a window does not depend on a new entry that is not less than another. -/
theorem min?_concat {m : ℕ} (hm : m ∈ window) (hx : m ≤ x) : (window ++ [x]).min? = window.min? := by
  cases hmin : window.min? with
  | none =>
    rw [List.min?_eq_none_iff.mp hmin] at hm
    cases hm
  | some least =>
    rw [List.min?_eq_some_iff] at hmin ⊢
    refine ⟨List.mem_append_left _ hmin.1, fun y hy => ?_⟩
    rcases List.mem_append.mp hy with hy | hy
    · exact hmin.2 y hy
    · rw [List.mem_singleton.mp hy]
      exact Nat.le_trans (hmin.2 m hm) hx

end

/-! ## What is true of every delay history -/

/-- The bound of the delays, 2^29 ms. -/
def delayBound : ℕ := 2 ^ 29

/-- What `add_delay` keeps. -/
structure UserDelay.Sound (user : UserDelay) : Prop where
  recent : user.delayHistory <:+ user.rttCalculator.samples
  history_le : user.delayHistory.length ≤ historyDelayLen + 1
  samples_le : user.rttCalculator.samples.length ≤ RttCalculator.windowSamples
  lt : ∀ x ∈ user.rttCalculator.samples, x < delayBound
  least : ∀ x ∈ user.rttCalculator.samples, ∃ m, user.rttCalculator.minRtt = some m ∧ m ≤ x
  unsmoothed : user.rttCalculator.samples.length < RttCalculator.windowSamples →
    user.rttCalculator.smoothedRtt = none

namespace UserDelay

theorem sound_default : default.Sound :=
  ⟨List.suffix_refl [], Nat.zero_le _, Nat.zero_le _, nofun, nofun, fun _ => rfl⟩

variable {user : UserDelay} {d d' : ℕ}

theorem addDelay_samples : (user.addDelay d).rttCalculator.samples =
      pushWindow RttCalculator.windowSamples user.rttCalculator.samples d := rfl

theorem samples_addDelay : (user.addDelay d).rttCalculator.samples = user.retained ++ [d] := rfl

theorem length_history_pos (user : UserDelay) (d : ℕ) : 0 < (user.addDelay d).delayHistory.length := by
  show 0 < (pushWindow _ _ d).length
  rw [pushWindow, List.length_append]
  exact Nat.succ_pos _

/-- The least delay of all so far. -/
theorem minRtt_addDelay : (user.addDelay d).rttCalculator.minRtt =
    some (user.rttCalculator.minRtt.elim d fun m => min d m) := by
  show (match user.rttCalculator.minRtt with
    | some minRtt => if d < minRtt then some d else some minRtt
    | none => some d) = _
  cases user.rttCalculator.minRtt with
  | none => rfl
  | some m =>
    dsimp only [Option.elim]
    split
    · next h => rw [min_eq_left (Nat.le_of_lt h)]
    · next h => rw [min_eq_right (Nat.le_of_not_lt h)]

/-- The weighted average of two least delays. -/
def weighted (minRtt windowMinRtt : Option ℕ) : Option ℕ :=
  minRtt.bind fun m => windowMinRtt.map fun w =>
    asU32 ((1 - RttCalculator.alpha) * m + RttCalculator.alpha * w)

theorem smoothedRtt_of_lt (h : (user.addDelay d).rttCalculator.samples.length < RttCalculator.windowSamples) :
    (user.addDelay d).rttCalculator.smoothedRtt = user.rttCalculator.smoothedRtt :=
  if_neg (Nat.not_le_of_lt h)

theorem smoothedRtt_of_le (h : RttCalculator.windowSamples ≤ (user.addDelay d).rttCalculator.samples.length) :
    (user.addDelay d).rttCalculator.smoothedRtt =
      weighted (user.addDelay d).rttCalculator.minRtt (user.addDelay d).rttCalculator.samples.min? := by
  have hmin : (user.addDelay d).rttCalculator.minRtt ≠ none := by
    rw [minRtt_addDelay]
    exact Option.some_ne_none _
  have hwindow : (user.addDelay d).rttCalculator.samples.min? ≠ none := by
    rw [Ne, List.min?_eq_none_iff, samples_addDelay]
    exact List.append_ne_nil_of_right_ne_nil _ (List.cons_ne_nil _ _)
  obtain ⟨m, hm⟩ := Option.ne_none_iff_exists'.mp hmin
  obtain ⟨w, hw⟩ := Option.ne_none_iff_exists'.mp hwindow
  rw [hm, hw]
  refine (if_pos h).trans ?_
  show (match (user.addDelay d).rttCalculator.minRtt, (user.addDelay d).rttCalculator.samples.min? with
    | some min, some windowMin => some (asU32 ((1 - RttCalculator.alpha) * min + RttCalculator.alpha * windowMin))
    | _, _ => user.rttCalculator.smoothedRtt) = _
  rw [hm, hw]
  rfl

theorem Sound.addDelay (h : user.Sound) (hd : d < delayBound) : (user.addDelay d).Sound := by
  have hmem : ∀ x ∈ (user.addDelay d).rttCalculator.samples, x ∈ user.rttCalculator.samples ∨ x = d :=
    fun x hx => mem_pushWindow hx
  constructor
  case recent => exact pushWindow_suffix (by decide) h.history_le h.recent
  case history_le => exact length_pushWindow_le (by decide) h.history_le
  case samples_le => exact length_pushWindow_le (by decide) h.samples_le
  case lt =>
    intro x hx
    rcases hmem x hx with hx | rfl
    · exact h.lt x hx
    · exact hd
  case least =>
    intro x hx
    refine ⟨_, minRtt_addDelay, ?_⟩
    rcases hmem x hx with hx | rfl
    · obtain ⟨m, hm, hle⟩ := h.least x hx
      rw [hm]
      exact Nat.le_trans (Nat.min_le_right _ _) hle
    · cases user.rttCalculator.minRtt with
      | none => exact Nat.le_refl _
      | some m => exact Nat.min_le_left _ _
  case unsmoothed =>
    intro hlt
    rw [smoothedRtt_of_lt hlt]
    refine h.unsmoothed ?_
    rw [addDelay_samples, pushWindow, List.length_append, List.length_singleton] at hlt
    split at hlt
    · next hfull =>
      -- a full window stays full
      rw [List.length_tail] at hlt
      omega
    · next hfree => exact Nat.lt_of_not_le hfree

theorem Sound.history_lt (h : user.Sound) : ∀ x ∈ user.delayHistory, x < delayBound :=
  fun x hx => h.lt x (h.recent.subset hx)

/-- The average, without the checks. -/
def mean (user : UserDelay) : ℕ := user.delayHistory.foldl (· + ·) 0 / user.delayHistory.length

/-- What is left of an average without the RTT. -/
def lessRtt (avgDelay : ℕ) : Option ℕ → ℕ
  | some rtt => if rtt < avgDelay then avgDelay - rtt else avgDelay
  | none => avgDelay

/-- The corrected average, without the checks. -/
def corrected (user : UserDelay) : ℕ :=
  if 0 < user.delayHistory.length then lessRtt user.mean user.rttCalculator.getRtt else delayThreshold

/-- The sum of a history fits in an `u32`. -/
theorem Sound.rawDelay_ok (h : user.Sound) (hne : 0 < user.delayHistory.length) :
    user.rawDelay = .ok user.mean := by
  have hsum : user.delayHistory.sum ≤ user.delayHistory.length * delayBound := by
    have := List.sum_le_card_nsmul user.delayHistory delayBound fun x hx => Nat.le_of_lt (h.history_lt x hx)
    simpa using this
  have hfits : 0 + user.delayHistory.sum < 2 ^ 32 := by
    rw [Nat.zero_add]
    have hlen := h.history_le
    refine Nat.lt_of_le_of_lt (Nat.le_trans hsum (Nat.mul_le_mul_right _ hlen)) ?_
    decide
  rw [rawDelay, MayPanic.sumU32_ok hfits, mean, ← List.sum_eq_foldl, Nat.zero_add]
  exact MayPanic.div_ok (Nat.ne_of_gt hne)

theorem Sound.avgDelay_ok (h : user.Sound) : user.avgDelay = .ok user.corrected := by
  unfold avgDelay corrected
  split
  · next hne =>
    rw [h.rawDelay_ok hne]
    dsimp only [Except.bind]
    cases user.rttCalculator.getRtt with
    | none => rfl
    | some rtt =>
      dsimp only [lessRtt]
      split
      · next hlt => exact MayPanic.subU32_ok (Nat.le_of_lt hlt)
      · rfl
  · rfl

theorem mean_addDelay_mono (user : UserDelay) (hle : d ≤ d') :
    (user.addDelay d).mean ≤ (user.addDelay d').mean := by
  have hlen : (user.addDelay d').delayHistory.length = (user.addDelay d).delayHistory.length :=
    length_pushWindow
  rw [mean, mean, hlen]
  refine Nat.div_le_div_right ?_
  show (pushWindow _ _ d).foldl (· + ·) 0 ≤ (pushWindow _ _ d').foldl (· + ·) 0
  rw [pushWindow, pushWindow, List.foldl_append, List.foldl_append]
  exact Nat.add_le_add_left hle _

section

variable (h : user.Sound) (hd : d < delayBound) {rtt : ℕ}
  (hrtt : (user.addDelay d).rttCalculator.getRtt = some rtt)
include h hd hrtt

/-- The RTT is at most every delay of the window, from the first that is added on. -/
theorem Sound.getRtt_le :
    ∀ x ∈ (user.addDelay d).rttCalculator.samples, rtt ≤ x := by
  intro x hx
  obtain ⟨m, hm, hmx⟩ := (h.addDelay hd).least x hx
  unfold RttCalculator.getRtt at hrtt
  rcases Nat.lt_or_ge (user.addDelay d).rttCalculator.samples.length RttCalculator.windowSamples with hlt | hge
  · rw [(h.addDelay hd).unsmoothed hlt] at hrtt
    dsimp only at hrtt
    split at hrtt
    · rw [hm] at hrtt
      cases hrtt
      exact hmx
    · cases hrtt
  · -- the weighted average lies between the two least delays
    obtain ⟨w, hw⟩ : ∃ w, (user.addDelay d).rttCalculator.samples.min? = some w :=
      Option.isSome_iff_exists.mp (List.isSome_min?_iff.mpr (List.ne_nil_of_mem hx))
    rw [smoothedRtt_of_le hge, hm, hw] at hrtt
    cases hrtt
    obtain ⟨hmem, hleast⟩ := List.min?_eq_some_iff.mp hw
    obtain ⟨m', hm', hmw⟩ := (h.addDelay hd).least w hmem
    cases hm.symm.trans hm'
    have havg : (1 - RttCalculator.alpha) * (m : ℚ) + RttCalculator.alpha * w ≤ w := by
      have hcast : (m : ℚ) ≤ w := by exact_mod_cast hmw
      unfold RttCalculator.alpha
      linarith
    refine Nat.le_trans (Nat.min_le_left _ _) (Nat.le_trans (Nat.floor_le_of_le havg) (hleast x hx))

theorem Sound.rtt_le_mean : rtt ≤ (user.addDelay d).mean := by
  have hle : ∀ x ∈ (user.addDelay d).delayHistory, rtt ≤ x := fun x hx =>
    h.getRtt_le hd hrtt x ((h.addDelay hd).recent.subset hx)
  rw [mean, ← List.sum_eq_foldl, Nat.le_div_iff_mul_le (length_history_pos user d), Nat.mul_comm]
  simpa using List.card_nsmul_le_sum _ rtt hle

end

/-- The RTT does not move with delays that are not below all that stay in its window. -/
theorem Sound.getRtt_eq (h : user.Sound) {x : ℕ} (hx : x ∈ user.retained) (hxd : x ≤ d) (hle : d ≤ d') :
    (user.addDelay d').rttCalculator.getRtt = (user.addDelay d).rttCalculator.getRtt := by
  have hmem : x ∈ user.rttCalculator.samples := by
    unfold retained at hx
    split at hx
    · exact List.mem_of_mem_tail hx
    · exact hx
  obtain ⟨m, hm, hmx⟩ := h.least x hmem
  have hmin : (user.addDelay d').rttCalculator.minRtt = (user.addDelay d).rttCalculator.minRtt := by
    rw [minRtt_addDelay, minRtt_addDelay, hm]
    dsimp only [Option.elim]
    rw [min_eq_right (by omega), min_eq_right (by omega)]
  have hwindow : (user.addDelay d').rttCalculator.samples.min? = (user.addDelay d).rttCalculator.samples.min? := by
    rw [samples_addDelay, samples_addDelay, min?_concat hx (Nat.le_trans hxd hle), min?_concat hx hxd]
  have hlen : (user.addDelay d').rttCalculator.samples.length = (user.addDelay d).rttCalculator.samples.length :=
    length_pushWindow
  have hsmoothed : (user.addDelay d').rttCalculator.smoothedRtt = (user.addDelay d).rttCalculator.smoothedRtt := by
    rcases Nat.lt_or_ge (user.addDelay d).rttCalculator.samples.length RttCalculator.windowSamples with hlt | hge
    · rw [smoothedRtt_of_lt hlt, smoothedRtt_of_lt (hlen ▸ hlt)]
    · rw [smoothedRtt_of_le hge, smoothedRtt_of_le (hlen ▸ hge), hmin, hwindow]
  rw [RttCalculator.getRtt, RttCalculator.getRtt, hsmoothed, hlen, hmin]

theorem Sound.getRtt_eq_none (h : user.Sound) (hd : d < delayBound)
    (hfew : user.retained.length + 1 < RttCalculator.minSamples) :
    (user.addDelay d).rttCalculator.getRtt = none := by
  have hlen : (user.addDelay d).rttCalculator.samples.length = user.retained.length + 1 := by
    rw [samples_addDelay, List.length_append, List.length_singleton]
  have hlt : (user.addDelay d).rttCalculator.samples.length < RttCalculator.windowSamples := by
    rw [hlen]
    exact Nat.lt_trans hfew (by decide)
  rw [RttCalculator.getRtt, (h.addDelay hd).unsmoothed hlt, hlen]
  exact if_neg (Nat.not_le_of_lt hfew)

/-- The RTT is not there yet, or it stays where it is from `d` on and the average with `d` is not the RTT itself. -/
def Steady (user : UserDelay) (d : ℕ) : Prop :=
  user.retained.length + 1 < RttCalculator.minSamples ∨
    (∃ x ∈ user.retained, x ≤ d) ∧ (user.addDelay d).rttCalculator.getRtt ≠ some (user.addDelay d).mean

/-- **The corrected average is monotone** where the RTT is steady. -/
theorem Sound.corrected_mono (h : user.Sound) (hle : d ≤ d') (hd' : d' < delayBound) (hsteady : user.Steady d) :
    (user.addDelay d).corrected ≤ (user.addDelay d').corrected := by
  have hd : d < delayBound := Nat.lt_of_le_of_lt hle hd'
  have hmean := mean_addDelay_mono user hle
  rw [corrected, corrected, if_pos (length_history_pos user d), if_pos (length_history_pos user d')]
  rcases hsteady with hfew | ⟨⟨x, hx, hxd⟩, hne⟩
  · rw [h.getRtt_eq_none hd hfew, h.getRtt_eq_none hd' hfew]
    exact hmean
  · rw [h.getRtt_eq hx hxd hle]
    cases hrtt : (user.addDelay d).rttCalculator.getRtt with
    | none => exact hmean
    | some rtt =>
      have hlt : rtt < (user.addDelay d).mean :=
        Nat.lt_of_le_of_ne (h.rtt_le_mean hd hrtt) fun heq => hne (hrtt.trans (congrArg some heq))
      simp only [lessRtt, hlt, Nat.lt_of_lt_of_le hlt hmean, if_true]
      exact Nat.sub_le_sub_right hmean rtt

end UserDelay

end RustDesk.Services
