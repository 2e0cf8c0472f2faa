import Mathlib.Data.Int.Order.Basic
import RustDesk.Common.Run

/-!
# Redeeming an activation code

References: `rustdesk-api/service/activationCode.go` (`Validate`, `MarkUsed`, `ValidateAndUse`) and
`RegisterWithActivationCode` of `rustdesk-api/service/user.go`.

Any number of calls (one for each element of `C`) redeem one code. A call checks the code with one
statement and marks it with a later one, whatever has become of it in between. `redeemedOnce_iff` says
when a code is redeemed once all the same.
-/

namespace RustDesk.Api

/-- The id of a user, which the database gives from 1 on. -/
abbrev UserId := { id : ℕ // 0 < id }

/-- The row of the code. `usedBy` is 0 until it is used. -/
structure ActivationCode where
  code : String
  validDays : ℤ
  deviceLimit : ℤ
  expiresAt : Option ℤ
  usedBy : ℕ
  usedAt : Option ℤ
deriving DecidableEq

namespace ActivationCode

/-- `Validate`, on what its statement finds. -/
def validate (row : Option ActivationCode) (now : ℤ) : Except String ActivationCode :=
  match row with
  | none => .error "activation code not found"
  | some ac =>
    if 0 < ac.usedBy then .error "activation code already used"
    else if ∃ expiresAt ∈ ac.expiresAt, expiresAt < now then .error "activation code expired"
    else .ok ac

/-- The columns that `MarkUsed` writes. -/
def markUsed (ac : ActivationCode) (user : UserId) (now : ℤ) : ActivationCode :=
  { ac with usedBy := user.val, usedAt := some now }

theorem validate_ok {row : Option ActivationCode} {now : ℤ} {ac : ActivationCode}
    (h : validate row now = .ok ac) : row = some ac ∧ ac.usedBy = 0 := by
  unfold validate at h
  split at h
  · cases h
  · split at h
    · cases h
    · next hused =>
      split at h
      · cases h
      · cases h
        exact ⟨rfl, by omega⟩

end ActivationCode

/-- What a call redeems the code for: a user, or a new one. -/
inductive RedeemCall
  | validateAndUse (user : UserId)
  | registerWithActivationCode
deriving DecidableEq

/-- How far a call is. -/
inductive RedeemPhase
  | waiting
  | validated (ac : ActivationCode)
  | created (ac : ActivationCode) (user : UserId)
  | applied (ac : ActivationCode) (user : UserId)
  | succeeded (user : UserId)
  | failed (err : String)

/-- The code, how many users were created, and the calls. -/
structure Redemption (C : Type*) where
  row : Option ActivationCode
  users : ℕ
  phase : C → RedeemPhase

/-- A statement of a call, and its error. Creating the user is one step here, with the check of its name,
and reading it back after `MarkUsed` cannot fail a call. -/
inductive RedeemStep (C : Type*)
  | validate (c : C) (now : ℤ) (err : Option String)
  | create (c : C) (err : Option String)
  | applyToUser (c : C) (err : Option String)
  | markUsed (c : C) (now : ℤ) (err : Option String)
deriving DecidableEq

/-- The check is behind a call, and its mark ahead. -/
def RedeemPhase.PastCheck : RedeemPhase → Prop
  | .validated _ => True
  | .created _ _ => True
  | .applied _ _ => True
  | _ => False

/-- The user a call has redeemed the code for. -/
def RedeemPhase.redeemer : RedeemPhase → Option UserId
  | .succeeded user => some user
  | _ => none

theorem RedeemPhase.PastCheck.redeemer {phase : RedeemPhase} (h : phase.PastCheck) : phase.redeemer = none := by
  cases phase with
  | succeeded user => exact h.elim
  | _ => rfl

namespace Redemption

variable {C : Type*} [DecidableEq C] {call : C → RedeemCall} {s t : Redemption C} {e : RedeemStep C}

def setPhase (s : Redemption C) (c : C) (phase : RedeemPhase) : Redemption C :=
  { s with phase := Function.update s.phase c phase }

/-- The user a call is about to mark the code for. -/
def markFor (call : C → RedeemCall) (s : Redemption C) (c : C) : Option UserId :=
  match call c, s.phase c with
  | .validateAndUse user, .validated _ => some user
  | .registerWithActivationCode, .applied _ user => some user
  | _, _ => none

def step (call : C → RedeemCall) (s : Redemption C) : RedeemStep C → Option (Redemption C)
  | .validate c now err =>
    match s.phase c with
    | .waiting =>
      match err with
      | some err => some (s.setPhase c (.failed err))
      | none =>
        match ActivationCode.validate s.row now with
        | .ok ac => some (s.setPhase c (.validated ac))
        | .error err => some (s.setPhase c (.failed err))
    | _ => none
  | .create c err =>
    match call c, s.phase c with
    | .registerWithActivationCode, .validated ac =>
      match err with
      | some err => some (s.setPhase c (.failed err))
      | none =>
        let user : UserId := ⟨s.users + 1, Nat.succ_pos _⟩
        some ({ s with users := s.users + 1 }.setPhase c (.created ac user))
    | _, _ => none
  | .applyToUser c err =>
    match s.phase c with
    | .created ac user =>
      match err with
      | some err => some (s.setPhase c (.failed err))
      | none => some (s.setPhase c (.applied ac user))
    | _ => none
  | .markUsed c now err =>
    match s.markFor call c with
    | some user =>
      match err with
      | some err => some (s.setPhase c (.failed err))
      | none =>
        let row := s.row.map fun ac => ac.markUsed user now
        some ({ s with row := row }.setPhase c (.succeeded user))
    | none => none

/-- At most one call redeems the code, and the code says for whom. -/
structure RedeemedOnce (s : Redemption C) : Prop where
  once : ∀ c d, (s.phase c).redeemer.isSome → (s.phase d).redeemer.isSome → c = d
  usedBy : ∀ c user, (s.phase c).redeemer = some user → ∃ ac, s.row = some ac ∧ ac.usedBy = user.val

/-- A mark is set on a code that is not used yet. -/
def MarksUnused (s : Redemption C) : RedeemStep C → Prop
  | .markUsed _ _ none => ∀ ac ∈ s.row, ac.usedBy = 0
  | _ => True

omit [DecidableEq C] in
theorem markFor_pastCheck {c : C} {user : UserId} (h : s.markFor call c = some user) : (s.phase c).PastCheck := by
  unfold markFor at h
  split at h
  · next hphase =>
    rw [hphase]
    trivial
  · next hphase =>
    rw [hphase]
    trivial
  · cases h

/-- What a step can be: a mark, or a step of one call that leaves the code alone. -/
theorem step_cases (h : step call s e = some t) :
    (∃ c phase, MarksUnused s e ∧ t.row = s.row ∧ t.phase = Function.update s.phase c phase ∧
      (s.phase c).redeemer = none ∧ phase.redeemer = none ∧
      (phase.PastCheck → (s.phase c).PastCheck ∨ ∃ ac, s.row = some ac ∧ ac.usedBy = 0)) ∨
    ∃ c now user, e = .markUsed c now none ∧ (s.phase c).PastCheck ∧ t.row = s.row.map (·.markUsed user now) ∧
      t.phase = Function.update s.phase c (.succeeded user) := by
  cases e with
  | validate c now err =>
    simp only [step] at h
    split at h
    · next hphase =>
      have hnone : (s.phase c).redeemer = none := by rw [hphase]; rfl
      split at h
      · cases h
        exact .inl ⟨c, _, trivial, rfl, rfl, hnone, rfl, False.elim⟩
      · split at h
        · next ac hok =>
          cases h
          exact .inl ⟨c, _, trivial, rfl, rfl, hnone, rfl,
            fun _ => .inr ⟨ac, ActivationCode.validate_ok hok⟩⟩
        · cases h
          exact .inl ⟨c, _, trivial, rfl, rfl, hnone, rfl, False.elim⟩
    · cases h
  | create c err | applyToUser c err =>
    simp only [step] at h
    split at h
    · next hphase =>
      have hnone : (s.phase c).redeemer = none := by rw [hphase]; rfl
      have hpast : (s.phase c).PastCheck := by rw [hphase]; trivial
      split at h
      · cases h
        exact .inl ⟨c, _, trivial, rfl, rfl, hnone, rfl, False.elim⟩
      · cases h
        exact .inl ⟨c, _, trivial, rfl, rfl, hnone, rfl, fun _ => .inl hpast⟩
    · cases h
  | markUsed c now err =>
    simp only [step] at h
    split at h
    · next user hmark =>
      have hpast := markFor_pastCheck hmark
      split at h
      · cases h
        exact .inl ⟨c, _, trivial, rfl, rfl, hpast.redeemer, rfl, False.elim⟩
      · cases h
        exact .inr ⟨c, now, user, rfl, hpast, rfl, rfl⟩
    · cases h

/-! ## Every mark finds the code unused -/

/-- Whoever is past the check has found a code. Whoever is past the check of a code that is used now was
overtaken. -/
structure Checked (s : Redemption C) : Prop where
  found : ∀ c, (s.phase c).PastCheck → s.row.isSome
  overtaken : ∀ c, (s.phase c).PastCheck → ∀ ac ∈ s.row, ac.usedBy ≠ 0 →
    ∃ d, (s.phase d).redeemer.isSome

omit [DecidableEq C] in
theorem redeemer_ne {c d : C} (hd : (s.phase d).redeemer.isSome) (hc : (s.phase c).redeemer = none) : d ≠ c := by
  rintro rfl
  rw [hc] at hd
  cases hd

theorem Checked.step (h : Checked s) (hstep : Redemption.step call s e = some t) : Checked t := by
  rcases step_cases hstep with ⟨c, phase, -, hrow, hphase, hnone, -, hpast⟩ | ⟨c, now, user, -, hpast, hrow, hphase⟩
  · rw [show t = ⟨s.row, t.users, Function.update s.phase c phase⟩ by rw [← hrow, ← hphase]]
    refine ⟨fun d hd => ?_, fun d hd ac hac hused => ?_⟩
    · by_cases hdc : d = c
      · dsimp only at hd
        rw [hdc, Function.update_self] at hd
        rcases hpast hd with hpast | ⟨ac, hac, -⟩
        · exact h.found c hpast
        · exact Option.isSome_iff_exists.mpr ⟨ac, hac⟩
      · dsimp only at hd
        rw [Function.update_of_ne hdc] at hd
        exact h.found d hd
    · -- whoever redeemed it before has still done so
      obtain ⟨r, hr⟩ : ∃ r, (s.phase r).redeemer.isSome := by
        by_cases hdc : d = c
        · dsimp only at hd
          rw [hdc, Function.update_self] at hd
          rcases hpast hd with hpast | ⟨ac', hac', hunused⟩
          · exact h.overtaken c hpast ac hac hused
          · cases hac'.symm.trans hac
            exact absurd hunused hused
        · dsimp only at hd
          rw [Function.update_of_ne hdc] at hd
          exact h.overtaken d hd ac hac hused
      refine ⟨r, ?_⟩
      dsimp only
      rw [Function.update_of_ne (redeemer_ne hr hnone)]
      exact hr
  · refine ⟨fun d hd => ?_, fun d hd ac hac hused => ⟨c, ?_⟩⟩
    · rw [hrow, Option.isSome_map]
      exact h.found c hpast
    · rw [hphase, Function.update_self]
      rfl

theorem RedeemedOnce.step (h : RedeemedOnce s) (hchecked : Checked s) (hunused : MarksUnused s e)
    (hstep : Redemption.step call s e = some t) : RedeemedOnce t := by
  rcases step_cases hstep with ⟨c, phase, -, hrow, hphase, -, hnone, -⟩ | ⟨c, now, user, rfl, hpast, hrow, hphase⟩
  · have hbefore : ∀ d user, (t.phase d).redeemer = some user → (s.phase d).redeemer = some user := by
      intro d user hd
      rw [hphase] at hd
      by_cases hdc : d = c
      · rw [hdc, Function.update_self, hnone] at hd
        cases hd
      · rwa [Function.update_of_ne hdc] at hd
    refine ⟨fun d d' hd hd' => ?_, fun d user hd => ?_⟩
    · obtain ⟨u, hu⟩ := Option.isSome_iff_exists.mp hd
      obtain ⟨u', hu'⟩ := Option.isSome_iff_exists.mp hd'
      exact h.once d d' (Option.isSome_iff_exists.mpr ⟨u, hbefore d u hu⟩)
        (Option.isSome_iff_exists.mpr ⟨u', hbefore d' u' hu'⟩)
    · rw [hrow]
      exact h.usedBy d user (hbefore d user hd)
  · -- nobody has redeemed an unused code, so this call is the first
    have honly : ∀ d user', (t.phase d).redeemer = some user' → d = c ∧ user' = user := by
      intro d user' hd
      rw [hphase] at hd
      by_cases hdc : d = c
      · rw [hdc, Function.update_self] at hd
        exact ⟨hdc, (Option.some.inj hd).symm⟩
      · rw [Function.update_of_ne hdc] at hd
        obtain ⟨ac, hac, hused⟩ := h.usedBy d user' hd
        have hzero := hunused ac hac
        have hpos := user'.2
        omega
    refine ⟨fun d d' hd hd' => ?_, fun d user' hd => ?_⟩
    · obtain ⟨u, hu⟩ := Option.isSome_iff_exists.mp hd
      obtain ⟨u', hu'⟩ := Option.isSome_iff_exists.mp hd'
      rw [(honly d u hu).1, (honly d' u' hu').1]
    · obtain ⟨-, rfl⟩ := honly d user' hd
      obtain ⟨ac, hac⟩ := Option.isSome_iff_exists.mp (hchecked.found c hpast)
      refine ⟨ac.markUsed user' now, ?_, rfl⟩
      rw [hrow, hac, Option.map_some]

/-- A mark on a used code redeems it a second time. -/
theorem Checked.marksUnused (h : Checked s) (hstep : Redemption.step call s e = some t)
    (ht : RedeemedOnce t) : MarksUnused s e := by
  rcases step_cases hstep with ⟨-, -, hunused, -⟩ | ⟨c, now, user, rfl, hpast, -, hphase⟩
  · exact hunused
  · intro ac hac
    by_contra hused
    obtain ⟨d, hd⟩ := h.overtaken c hpast ac hac hused
    have hdc := redeemer_ne hd hpast.redeemer
    refine hdc (ht.once d c ?_ ?_)
    · rw [hphase, Function.update_of_ne hdc]
      exact hd
    · rw [hphase, Function.update_self]
      rfl

/-- **Redeemed once.** Whatever calls redeem a code and however their statements interleave, in all
states of a run at most one of them has redeemed it, and the code says for whom, if and only if every mark
that is set finds the code unused. -/
theorem redeemedOnce_iff {row : Option ActivationCode} {users : ℕ} {steps : List (RedeemStep C)} :
    Run (fun s e t => step call s e = some t ∧ RedeemedOnce t) ⟨row, users, fun _ => .waiting⟩ steps t ↔
      Run (Only MarksUnused (Steps (step call))) ⟨row, users, fun _ => .waiting⟩ steps t := by
  have hchecked : Checked (⟨row, users, fun _ => .waiting⟩ : Redemption C) :=
    ⟨fun _ hpast => hpast.elim, fun _ hpast => hpast.elim⟩
  have honce : RedeemedOnce (⟨row, users, fun _ => .waiting⟩ : Redemption C) :=
    ⟨fun _ _ hc => (Bool.false_ne_true hc).elim, fun _ _ hc => (Option.some_ne_none _ hc.symm).elim⟩
  refine Run.good_iff_only (fun s e t (h : Checked s) hstep => h.step hstep) ?_ hchecked honce
  exact fun s e t h honce hstep => ⟨fun ht => h.marksUnused hstep ht, fun hok => honce.step h hok hstep⟩

/-- Two users redeem one code: both checks come before both marks, both calls succeed, and the code says
that only the second one used it. -/
theorem redeemed_twice :
    let call : Bool → RedeemCall := fun c => .validateAndUse (if c then ⟨2, by decide⟩ else ⟨1, by decide⟩)
    let code : ActivationCode := ⟨"ABCDEFGHJKLMN", 365, 10, none, 0, none⟩
    ∃ t, exec (step call) (⟨some code, 2, fun _ => .waiting⟩ : Redemption Bool)
        [.validate false 0 none, .validate true 0 none, .markUsed false 1 none,
          .markUsed true 1 none] = some t ∧
      t.phase false = .succeeded ⟨1, by decide⟩ ∧ t.phase true = .succeeded ⟨2, by decide⟩ ∧
      t.row = some { code with usedBy := 2, usedAt := some 1 } ∧ ¬ RedeemedOnce t := by
  refine ⟨_, rfl, rfl, rfl, rfl, fun honce => ?_⟩
  cases honce.once false true rfl rfl

end Redemption

end RustDesk.Api
