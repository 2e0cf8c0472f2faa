import Mathlib.Data.List.DropRight
import Mathlib.Tactic.Common

/-!
# Check, then count

A counter that is compared with a limit in one critical section and raised in a later one, with
anything in between. `Gate` is such a counter together with how many have passed the check and not
yet raised it. The bound is on what the counter records between two resets: the limit, and one more
for each that passed at the same time.
-/

/-! ## Logs with resets -/

section Stretches

variable {α : Type*} {isReset p : α → Bool} {log : List α} {bound : ℕ} {a : α}

/-- The part of a log after its last reset. -/
def sinceReset (isReset : α → Bool) (log : List α) : List α := log.rtakeWhile (!isReset ·)

theorem sinceReset_concat (h : isReset a = false) : sinceReset isReset (log ++ [a]) = sinceReset isReset log ++ [a] :=
  List.rtakeWhile_concat_pos _ _ _ (by simp [h])

theorem sinceReset_reset (h : isReset a = true) : sinceReset isReset (log ++ [a]) = [] :=
  List.rtakeWhile_concat_neg _ _ _ (by simp [h])

/-- A stretch without a reset lies in what follows the last reset at its end. -/
theorem suffix_sinceReset {pre seg : List α} (hseg : ∀ a ∈ seg, isReset a = false) :
    seg <:+ sinceReset isReset (pre ++ seg) := by
  induction seg using List.reverseRecOn with
  | nil => exact List.nil_suffix
  | append_singleton seg a ih =>
    rw [← List.append_assoc, sinceReset_concat (hseg a (by simp))]
    exact List.suffix_append_self_iff.mpr (ih fun b hb => hseg b (by simp [hb]))

/-- What holds of a log and of what precedes its last entry holds all along. -/
theorem history_concat {P : List α → Prop} (hlog : ∀ before, before <+: log → P before)
    (hnew : P (log ++ [a])) : ∀ before, before <+: log ++ [a] → P before := by
  intro before hbefore
  obtain rfl | hbefore := List.prefix_concat_iff.mp hbefore
  · exact hnew
  · exact hlog before hbefore

/-- **Bounds between two resets.** A bound on what follows the last reset, at all times, bounds every
stretch without one. -/
theorem countP_stretch_le (hlog : ∀ before, before <+: log → (sinceReset isReset before).countP p ≤ bound)
    {seg : List α} (hseg : seg <:+: log) (hreset : ∀ a ∈ seg, isReset a = false) :
    seg.countP p ≤ bound := by
  obtain ⟨pre, post, rfl⟩ := hseg
  exact (suffix_sinceReset hreset).sublist.countP_le.trans (hlog _ (List.prefix_append _ _))

end Stretches

/-! ## Gates -/

/-- What is written down of a counter. -/
inductive Gate.Mark
  | record
  | reset
deriving DecidableEq

/-- A counter, those between its check and its update, and what happened to it. -/
structure Gate where
  total : ℕ
  passed : ℕ
  log : List Gate.Mark

namespace Gate

/-- A check passes up to the limit. Whoever passed records, resets or leaves once. -/
inductive Step (limit : ℕ) : Gate → Gate → Prop
  | idle (g : Gate) : Step limit g g
  | pass {n p : ℕ} {log : List Mark} : n ≤ limit → Step limit ⟨n, p, log⟩ ⟨n, p + 1, log⟩
  | leave {n p : ℕ} {log : List Mark} : Step limit ⟨n, p + 1, log⟩ ⟨n, p, log⟩
  | record {n p : ℕ} {log : List Mark} :
      Step limit ⟨n, p + 1, log⟩ ⟨n + 1, p, log ++ [.record]⟩
  | reset {n p : ℕ} {log : List Mark} : Step limit ⟨n, p + 1, log⟩ ⟨0, p, log ++ [.reset]⟩

/-- What was recorded after the last reset. -/
def recorded (log : List Mark) : ℕ := (sinceReset (· = .reset) log).countP (· = .record)

@[simp] theorem recorded_record (log : List Mark) : recorded (log ++ [.record]) = recorded log + 1 := by
  rw [recorded, sinceReset_concat (by decide), List.countP_append, recorded]
  rfl

@[simp] theorem recorded_reset (log : List Mark) : recorded (log ++ [.reset]) = 0 := by
  rw [recorded, sinceReset_reset (by decide)]
  rfl

/-- The invariant of a gate through which at most `k` pass at a time. -/
structure Bounded (limit k : ℕ) (g : Gate) : Prop where
  sum_le : g.total + g.passed ≤ limit + k
  total_eq : g.total = recorded g.log
  history : ∀ before, before <+: g.log → recorded before ≤ limit + k

theorem Bounded.init (limit k : ℕ) : Bounded limit k ⟨0, 0, []⟩ where
  sum_le := Nat.zero_le _
  total_eq := rfl
  history before hbefore := by
    rw [List.prefix_nil.mp hbefore]
    exact Nat.zero_le _

/-- **The step lemma.** Recording moves one from those who passed to the total; passing adds one to
a sum that the check found to be no more than the limit and the others who passed. -/
theorem Bounded.step {limit k : ℕ} {g g' : Gate} (hg : Bounded limit k g) (h : Step limit g g')
    (hk : g'.passed ≤ k) : Bounded limit k g' := by
  obtain ⟨hsum, htotal, hhistory⟩ := hg
  cases h with
  | idle => exact ⟨hsum, htotal, hhistory⟩
  | pass hcheck => exact ⟨Nat.add_le_add hcheck hk, htotal, hhistory⟩
  | leave => exact ⟨by dsimp only at hsum ⊢; omega, htotal, hhistory⟩
  | @record n p log =>
    dsimp only at hsum htotal hhistory
    have hnew : n + 1 = recorded (log ++ [.record]) := by rw [recorded_record, htotal]
    exact ⟨by dsimp only; omega, hnew, history_concat hhistory (by omega)⟩
  | @reset n p log =>
    dsimp only at hsum hhistory
    have hnew : 0 = recorded (log ++ [.reset]) := (recorded_reset log).symm
    exact ⟨by dsimp only; omega, hnew, history_concat hhistory (by omega)⟩

/-- **The bound between two resets.** -/
theorem Bounded.countP_le {limit k : ℕ} {g : Gate} (hg : Bounded limit k g) {seg : List Mark}
    (hseg : seg <:+: g.log) (hreset : .reset ∉ seg) : seg.countP (· = .record) ≤ limit + k :=
  countP_stretch_le hg.history hseg fun _ hm => decide_eq_false fun h => hreset (h ▸ hm)

end Gate
