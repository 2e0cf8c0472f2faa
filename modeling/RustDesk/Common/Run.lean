import Mathlib.Tactic.Common

/-!
# Runs of a labelled transition relation

A step relation `Step s a s'` says that action `a` may lead from `s` to `s'`. `Run` is its closure
over action lists, `Run.invariant` the induction over whole runs, stated once. A partial step
function is the special case `Steps f`, whose runs `exec` computes.
-/

variable {σ α : Type*} {Ok : σ → α → Prop} {f : σ → α → Option σ}

/-- A run from `s` through the given actions. -/
inductive Run (Step : σ → α → σ → Prop) : σ → List α → σ → Prop
  | nil (s : σ) : Run Step s [] s
  | cons {s t u : σ} {a : α} {as : List α} : Step s a t → Run Step t as u → Run Step s (a :: as) u

namespace Run

variable {Step Step' : σ → α → σ → Prop} {s t u : σ} {as bs : List α}

/-- **The invariant rule.** What every step preserves holds wherever a run can get. -/
theorem invariant {Inv : σ → Prop} (hstep : ∀ s a t, Inv s → Step s a t → Inv t)
    (hrun : Run Step s as t) (hs : Inv s) : Inv t := by
  induction hrun with
  | nil => exact hs
  | cons h _ ih => exact ih (hstep _ _ _ hs h)

/-- The invariant rule, for what is said of a state and of the actions that led to it. -/
theorem invariant_history {Inv : List α → σ → Prop} (hstep : ∀ as s a t, Inv as s → Step s a t → Inv (as ++ [a]) t)
    (hrun : Run Step s as t) (hs : Inv [] s) : Inv as t := by
  have hfrom : ∀ before, Inv before s → Inv (before ++ as) t := by
    clear hs
    induction hrun with
    | nil =>
      intro before hbefore
      rwa [List.append_nil]
    | cons h _ ih =>
      intro before hbefore
      rw [List.append_cons]
      exact ih _ (hstep _ _ _ _ hbefore h)
  exact hfrom [] hs

theorem append (h : Run Step s as t) (h' : Run Step t bs u) : Run Step s (as ++ bs) u := by
  induction h with
  | nil => exact h'
  | cons hstep _ ih => exact .cons hstep (ih h')

/-- A run of a relation is one of any relation that allows its steps. -/
theorem mono (hsub : ∀ s a t, Step s a t → Step' s a t) (h : Run Step s as t) : Run Step' s as t := by
  induction h with
  | nil => exact .nil _
  | cons hstep _ ih => exact .cons (hsub _ _ _ hstep) ih

/-- A run under an invariant is one of any relation that allows its steps there. -/
theorem mono_of_invariant {Inv : σ → Prop} (hstep : ∀ s a t, Inv s → Step s a t → Inv t)
    (hsub : ∀ s a t, Inv s → Step s a t → Step' s a t) (hrun : Run Step s as t) (hs : Inv s) :
    Run Step' s as t := by
  induction hrun with
  | nil => exact .nil _
  | cons h _ ih => exact .cons (hsub _ _ _ hs h) (ih (hstep _ _ _ hs h))

end Run

/-- What is known of every end of a run is known of the one that is given. -/
theorem exists_and_and {P Q R : σ → Prop} (h : ∀ s, P s → Q s → R s) : (∃ s, P s ∧ Q s) → ∃ s, P s ∧ Q s ∧ R s
  | ⟨s, hp, hq⟩ => ⟨s, hp, hq, h s hp hq⟩

/-- The relation of a partial step function. -/
def Steps (f : σ → α → Option σ) (s : σ) (a : α) (t : σ) : Prop := f s a = some t

/-- Only the steps that meet a condition on the state before and the action. -/
def Only (Ok : σ → α → Prop) (Step : σ → α → σ → Prop) (s : σ) (a : α) (t : σ) : Prop :=
  Ok s a ∧ Step s a t

section

variable {Step : σ → α → σ → Prop} {s t : σ} {as : List α}

/-- A run whose actions all meet a condition takes only such steps. -/
theorem Run.only {Ok : α → Prop}
    (hrun : Run Step s as t) (hok : ∀ a ∈ as, Ok a) : Run (Only (fun _ => Ok) Step) s as t := by
  induction hrun with
  | nil => exact .nil _
  | cons hstep _ ih =>
    rw [List.forall_mem_cons] at hok
    exact .cons ⟨hok.1, hstep⟩ (ih hok.2)

/-- A run takes only steps that meet a condition, or one of its steps does not. -/
theorem Run.only_or_not (Ok : σ → α → Prop)
    (hrun : Run Step s as t) :
    Run (Only Ok Step) s as t ∨ ∃ before a after m m', as = before ++ a :: after ∧ Run Step s before m ∧ ¬ Ok m a ∧
        Step m a m' ∧ Run Step m' after t := by
  induction hrun with
  | nil => exact .inl (.nil _)
  | @cons s u t a as hstep hrest ih =>
    by_cases hok : Ok s a
    · rcases ih with honly | ⟨before, a', after, m, m', rfl, hbefore, hnot, hstep', hafter⟩
      · exact .inl (.cons ⟨hok, hstep⟩ honly)
      · exact .inr ⟨a :: before, a', after, m, m', rfl, .cons hstep hbefore, hnot, hstep', hafter⟩
    · exact .inr ⟨[], a, as, s, u, rfl, .nil s, hok, hstep, hrest⟩

/-- Where a step leads on to what is good just if it meets a condition, a run stays with what is good just if all its
steps meet the condition. -/
theorem Run.good_iff_only {Inv Good : σ → Prop}
    (hinv : ∀ s a t, Inv s → Step s a t → Inv t)
    (hstep : ∀ s a t, Inv s → Good s → Step s a t → (Good t ↔ Ok s a)) (hs : Inv s) (hgood : Good s) :
    Run (fun s a t => Step s a t ∧ Good t) s as t ↔ Run (Only Ok Step) s as t := by
  constructor
  · intro hrun
    have hkeep : ∀ s a t, Inv s ∧ Good s → Step s a t ∧ Good t → Inv t ∧ Good t :=
      fun s a t h hst => ⟨hinv s a t h.1 hst.1, hst.2⟩
    exact hrun.mono_of_invariant hkeep
      (fun s a t h hst => ⟨(hstep s a t h.1 h.2 hst.1).mp hst.2, hst.1⟩) ⟨hs, hgood⟩
  · intro hrun
    have hkeep : ∀ s a t, Inv s ∧ Good s → Only Ok Step s a t → Inv t ∧ Good t :=
      fun s a t h hst => ⟨hinv s a t h.1 hst.2, (hstep s a t h.1 h.2 hst.2).mpr hst.1⟩
    exact hrun.mono_of_invariant hkeep (fun s a t h hst => ⟨hst.2, (hkeep s a t h hst).2⟩) ⟨hs, hgood⟩

/-- The steps of a run that only takes some of them are steps. -/
theorem Run.of_only (hrun : Run (Only Ok Step) s as t) : Run Step s as t :=
  hrun.mono fun _ _ _ h => h.2

end

/-- Two conditions on the steps of one run of a step function hold together. -/
theorem Run.only_both {s t : σ} {as : List α} {P Q : σ → α → Prop}
    (hp : Run (Only P (Steps f)) s as t) (hq : Run (Only Q (Steps f)) s as t) :
    Run (Only P (Only Q (Steps f))) s as t := by
  induction hp with
  | nil => exact .nil _
  | cons h _ ih =>
    cases hq with
    | cons h' hrest =>
      cases h.2.symm.trans h'.2
      exact .cons ⟨h.1, h'⟩ (ih hrest)

/-- What every step keeps just if it meets a condition holds at the end of a run just if all its steps
meet the condition. -/
theorem Run.holds_iff_only {s t : σ} {as : List α} {Inv Good : σ → Prop}
    (hinv : ∀ s a t, Inv s → f s a = some t → Inv t)
    (hstep : ∀ s a t, Inv s → f s a = some t → (Good t ↔ Good s ∧ Ok s a))
    (hrun : Run (Steps f) s as t) (hs : Inv s) :
    Good t ↔ Good s ∧ Run (Only Ok (Steps f)) s as t := by
  induction hrun with
  | nil s => exact ⟨fun h => ⟨h, .nil s⟩, And.left⟩
  | @cons s u t a as hfirst _ ih =>
    rw [ih (hinv s a u hs hfirst), hstep s a u hs hfirst]
    constructor
    · rintro ⟨⟨hgood, hok⟩, honly⟩
      exact ⟨hgood, .cons ⟨hok, hfirst⟩ honly⟩
    · rintro ⟨hgood, honly⟩
      cases honly with
      | cons hfirst' honly =>
        -- a step function has one successor
        cases hfirst.symm.trans hfirst'.2
        exact ⟨⟨hgood, hfirst'.1⟩, honly⟩

/-- Run a partial step function, `none` once a step is refused. -/
def exec (f : σ → α → Option σ) (s : σ) : List α → Option σ
  | [] => some s
  | a :: as => (f s a).bind fun t => exec f t as

/-- `exec` computes the runs of a step function. -/
theorem exec_eq_some_iff {s t : σ} {as : List α} : exec f s as = some t ↔ Run (Steps f) s as t := by
  induction as generalizing s with
  | nil =>
    constructor
    · intro h
      obtain rfl : s = t := by simpa [exec] using h
      exact .nil s
    · rintro ⟨⟩
      rfl
  | cons a as ih =>
    rw [exec, Option.bind_eq_some_iff]
    constructor
    · rintro ⟨u, hu, hrest⟩
      exact .cons hu (ih.mp hrest)
    · rintro (_ | ⟨hu, hrest⟩)
      exact ⟨_, hu, ih.mpr hrest⟩
