import RustDesk.Api.Oauth
import RustDesk.Api.RedeemFailures

/-!
# How long a redeemed code lasts

References: `rustdesk-api/service/activationCode.go` (`ApplyToUser`) and `service/user.go`
(`CheckUserEnable`, `SetFirstLoginIfNeeded`).

The validity of an account is a number of days from its first login on. A code only adds to the number, so
the days of an account that has expired are counted from long ago, and buy nothing, or less than they
should. `buys_iff_stillRuns` is the exact condition.

Times are nanoseconds, and a day has 24 hours, as in a location without daylight saving.
-/

namespace RustDesk.Api

/-- A user with what its validity depends on. -/
structure Member extends RedeemUser where
  isAdmin : Option Bool
  firstLoginAt : Option ℤ
deriving DecidableEq

/-- 24 hours. -/
def day : ℤ := 86400 * 1000000000

/-- `AddDate(0, 0, days)`. -/
def addDays (time days : ℤ) : ℤ := time + days * day

namespace Member

/-- `CheckUserEnable` at a time. -/
def checkUserEnable (u : Member) (now : ℤ) : Bool :=
  Api.checkUserEnable addDays now
    ⟨u.email, u.status, u.isAdmin = some true, u.validDays, u.firstLoginAt⟩

/-- `SetFirstLoginIfNeeded` at a time. -/
def setFirstLoginIfNeeded (u : Member) (now : ℤ) : Member :=
  if u.firstLoginAt = none then { u with firstLoginAt := some now } else u

/-- The user after some logins. -/
def afterLogins (u : Member) (logins : List ℤ) : Member := logins.foldl setFirstLoginIfNeeded u

/-- `ApplyToUser` in accumulate mode, and its updates written. -/
def redeem (u : Member) (t : RedeemTables) (ac : CodeRow) : Member :=
  { u with toRedeemUser := (t.applyToUser u.toRedeemUser ac true).write u.toRedeemUser }

/-- Logins of a span of time. -/
def Between (time s : ℤ) (logins : List ℤ) : Prop := time ≤ s ∧ ∀ l ∈ logins, time ≤ l ∧ l ≤ s

/-- A code redeemed at a time buys its days, whenever the user logs in after it, and takes none away. -/
def Buys (u : Member) (t : RedeemTables) (ac : CodeRow) (time : ℤ) : Prop :=
  (∀ logins s, Between time s logins →
    (u.validDays = -1 ∨ ac.validDays = -1 ∨ s ≤ addDays time ac.validDays) →
      ((u.redeem t ac).afterLogins logins).checkUserEnable s = true) ∧
  ∀ logins s, Between time s logins → (u.afterLogins logins).checkUserEnable s = true →
    ((u.redeem t ac).afterLogins logins).checkUserEnable s = true

/-- The account or the code is for a lifetime, or the days of the account have not run out. -/
def StillRuns (u : Member) (ac : CodeRow) (time : ℤ) : Prop :=
  u.validDays = -1 ∨ ac.validDays = -1 ∨ u.validDays + ac.validDays = -1 ∨
    0 < u.validDays + ac.validDays ∧ u.validDays + ac.validDays < 9223372036854775808 ∧
      (u.firstLoginAt = none → 0 ≤ u.validDays) ∧
      ∀ first, u.firstLoginAt = some first → time ≤ addDays first u.validDays

section Redeem

variable {u : Member} {t : RedeemTables} {ac : CodeRow} {time : ℤ}

theorem afterLogins_eq (u : Member) (logins : List ℤ) :
    u.afterLogins logins = { u with firstLoginAt := u.firstLoginAt.or logins.head? } := by
  induction logins generalizing u with
  | nil => simp [afterLogins]
  | cons l logins ih =>
    show (u.setFirstLoginIfNeeded l).afterLogins logins = _
    rw [ih, setFirstLoginIfNeeded]
    cases hfirst : u.firstLoginAt with
    | none => simp
    | some first => simp [hfirst]

/-- What `CheckUserEnable` says of an enabled user who is no admin. -/
theorem checkUserEnable_iff (hstatus : u.status = statusEnable) (hadmin : u.isAdmin ≠ some true) (now : ℤ) :
    u.checkUserEnable now = true ↔ u.validDays = -1 ∨ 0 < u.validDays ∧
        ∀ first, u.firstLoginAt = some first → now ≤ addDays first u.validDays := by
  simp only [checkUserEnable, Api.checkUserEnable, hstatus, hadmin]
  by_cases hlife : u.validDays = -1
  · simp [hlife]
  · by_cases hzero : u.validDays ≤ 0
    · simp [hlife, hzero]
    · have hpos : 0 < u.validDays := by omega
      cases hfirst : u.firstLoginAt with
      | none => simp [hlife, hpos]
      | some first => simp [hlife, hzero, hpos]

/-- The days after a redemption. -/
theorem redeem_validDays : (u.redeem t ac).validDays =
      if u.validDays = -1 then -1
      else if ac.validDays = -1 then -1
      else goInt (u.validDays + ac.validDays) := by
  simp only [redeem, RedeemTables.applyToUser, UserUpdates.write, if_true]
  by_cases hlife : u.validDays = -1
  · simp [hlife]
  · by_cases hcode : ac.validDays = -1
    · simp [hlife, hcode]
    · simp [hlife, hcode]

/-- The sum of a number of days and the days of a code, which is out of range above only. -/
theorem goInt_sum {days added : ℤ} (hdays : -9223372036854775808 ≤ days ∧ days < 9223372036854775808)
    (hadded : 0 < added ∧ added < 9223372036854775808) :
    goInt (days + added) =
      if days + added < 9223372036854775808 then days + added
      else days + added - 18446744073709551616 := by
  unfold goInt
  split
  · rw [Int.bmod_eq_iff (by omega)]
    omega
  · rw [Int.bmod_eq_iff (by omega)]
    omega

section

variable (hstatus : u.status = statusEnable) (hadmin : u.isAdmin ≠ some true)
include hstatus hadmin

theorem enabled_afterLogins (logins : List ℤ) (s : ℤ) : (u.afterLogins logins).checkUserEnable s = true ↔
      u.validDays = -1 ∨ 0 < u.validDays ∧
        ∀ first, u.firstLoginAt.or logins.head? = some first → s ≤ addDays first u.validDays := by
  rw [afterLogins_eq]
  exact @checkUserEnable_iff { u with firstLoginAt := u.firstLoginAt.or logins.head? } hstatus hadmin s

/-- The same user, with the new days. -/
theorem enabled_redeemed (logins : List ℤ) (s : ℤ) : ((u.redeem t ac).afterLogins logins).checkUserEnable s = true ↔
      (u.redeem t ac).validDays = -1 ∨ 0 < (u.redeem t ac).validDays ∧
        ∀ first, u.firstLoginAt.or logins.head? = some first → s ≤ addDays first (u.redeem t ac).validDays :=
  @enabled_afterLogins (u.redeem t ac) hstatus hadmin logins s

theorem buys_of_lifetime (hlife : (u.redeem t ac).validDays = -1) : Buys u t ac time :=
  ⟨fun logins s _ _ => (enabled_redeemed hstatus hadmin logins s).mpr (.inl hlife),
    fun logins s _ _ => (enabled_redeemed hstatus hadmin logins s).mpr (.inl hlife)⟩

/-- Days that have not run out go on for the days of the code. -/
theorem buys_of_running (hlife : u.validDays ≠ -1) (hcode : 0 < ac.validDays)
    (hdays : (u.redeem t ac).validDays = u.validDays + ac.validDays)
    (hpos : 0 < u.validDays + ac.validDays) (hnew : u.firstLoginAt = none → 0 ≤ u.validDays)
    (hruns : ∀ first, u.firstLoginAt = some first → time ≤ addDays first u.validDays) :
    Buys u t ac time := by
  constructor
  · intro logins s hbetween hbought
    have hs : s ≤ addDays time ac.validDays := by omega
    rw [enabled_redeemed hstatus hadmin, hdays]
    refine .inr ⟨hpos, fun first hfirst => ?_⟩
    cases hold : u.firstLoginAt with
    | none =>
      -- the first login comes after the redemption
      rw [hold, Option.none_or] at hfirst
      have hlogin := (hbetween.2 first (List.mem_of_head? hfirst)).1
      have hzero := hnew hold
      simp only [addDays, day] at hs ⊢
      omega
    | some first' =>
      obtain rfl : first' = first := by simpa [hold] using hfirst
      have hrun := hruns first' hold
      simp only [addDays, day] at hs hrun ⊢
      omega
  · intro logins s _ henabled
    rw [enabled_afterLogins hstatus hadmin] at henabled
    rw [enabled_redeemed hstatus hadmin, hdays]
    obtain ⟨-, hunexpired⟩ := henabled.resolve_left hlife
    refine .inr ⟨hpos, fun first hfirst => ?_⟩
    have hs := hunexpired first hfirst
    simp only [addDays, day] at hs ⊢
    omega

end

/-- A redeemed code buys its days just if one of the two is for a lifetime, or the days of the account
have not run out when it is redeemed. -/
theorem buys_iff_stillRuns (t : RedeemTables) (u : Member) (ac : CodeRow) (time : ℤ)
    (hstatus : u.status = statusEnable) (hadmin : u.isAdmin ≠ some true)
    (hint : -9223372036854775808 ≤ u.validDays ∧ u.validDays < 9223372036854775808)
    (hcode : ac.validDays = -1 ∨ 0 < ac.validDays ∧ ac.validDays < 9223372036854775808) :
    Buys u t ac time ↔ StillRuns u ac time := by
  by_cases hlife : u.validDays = -1
  · have hnew : (u.redeem t ac).validDays = -1 := by rw [redeem_validDays, if_pos hlife]
    exact iff_of_true (buys_of_lifetime hstatus hadmin hnew) (.inl hlife)
  rcases hcode with hcode | hcode
  · have hnew : (u.redeem t ac).validDays = -1 := by
      rw [redeem_validDays, if_neg hlife, if_pos hcode]
    exact iff_of_true (buys_of_lifetime hstatus hadmin hnew) (.inr (.inl hcode))
  have hnotlife : ac.validDays ≠ -1 := by omega
  have hdays := @redeem_validDays u t ac
  rw [if_neg hlife, if_neg hnotlife, goInt_sum hint hcode] at hdays
  constructor
  · intro hbuys
    have hnow := hbuys.1 [] time ⟨le_rfl, by simp⟩
      (.inr (.inr (by simp only [addDays, day]; omega)))
    have hend : ∀ logins, (∀ l ∈ logins, l = time) →
        ((u.redeem t ac).afterLogins logins).checkUserEnable (addDays time ac.validDays) = true := by
      intro logins hlogins
      refine hbuys.1 logins _ ⟨by simp only [addDays, day]; omega, fun l hl => ?_⟩ (.inr (.inr le_rfl))
      rw [hlogins l hl]
      exact ⟨le_rfl, by simp only [addDays, day]; omega⟩
    rw [enabled_redeemed hstatus hadmin] at hnow
    split at hdays
    · next hfits =>
      rw [hdays] at hnow
      rcases hnow with hminus | ⟨hpos, -⟩
      · exact .inr (.inr (.inl hminus))
      · refine .inr (.inr (.inr ⟨hpos, hfits, fun hnone => ?_, fun first hfirst => ?_⟩))
        · -- a login right after the redemption
          have hlogin := hend [time] (by simp)
          rw [enabled_redeemed hstatus hadmin, hdays, hnone] at hlogin
          rcases hlogin with hminus | ⟨-, hlogin⟩
          · omega
          · have hle := hlogin time rfl
            simp only [addDays, day] at hle
            omega
        · have hlast := hend [] (by simp)
          rw [enabled_redeemed hstatus hadmin, hdays, hfirst] at hlast
          rcases hlast with hminus | ⟨-, hlast⟩
          · omega
          · have hle := hlast first rfl
            simp only [addDays, day] at hle ⊢
            omega
    · next hover =>
      rw [hdays] at hnow
      omega
  · rintro (h | h | h | ⟨hpos, hfits, hnew, hruns⟩)
    · exact absurd h hlife
    · exact absurd h hnotlife
    · rw [if_pos (by omega), h] at hdays
      exact buys_of_lifetime hstatus hadmin hdays
    · rw [if_pos hfits] at hdays
      exact buys_of_running hstatus hadmin hlife hcode.1 hdays hpos hnew hruns

end Redeem

/-! ### An account of a year ago -/

/-- Thirty days from the first login on. -/
def thirtyDays : Member where
  username := "user"
  email := ""
  password := ""
  groupId := 1
  status := statusEnable
  validDays := 30
  deviceLimit := 1
  packageId := none
  primaryServerId := none
  backupServerId := none
  relayServerId := none
  isAdmin := some false
  firstLoginAt := some 0

/-- A code for thirty days. -/
def thirtyMore : CodeRow where
  code := "CODE"
  validDays := 30
  deviceLimit := 1
  usedBy := 0
  usedAt := none
  expiresAt := none
  packageId := none
  primaryServerId := none
  backupServerId := none

def noTables : RedeemTables := ⟨.empty, .empty, fun _ => [], none⟩

/-- Redeemed a year after the first login, thirty days end ten months ago. -/
theorem expired_buys_nothing :
    (thirtyDays.redeem noTables thirtyMore).checkUserEnable (365 * day) = false ∧
      ¬ Buys thirtyDays noTables thirtyMore (365 * day) := by
  have hrejected : (thirtyDays.redeem noTables thirtyMore).checkUserEnable (365 * day) = false := by
    decide
  refine ⟨hrejected, fun hbuys => ?_⟩
  have haccepted := hbuys.1 [] (365 * day) ⟨le_rfl, by simp⟩ (.inr (.inr (by decide)))
  exact absurd (hrejected.symm.trans haccepted) (by decide)

/-- Redeemed after ten days, they follow the first thirty. -/
theorem buys_iff_stillRuns_early : Buys thirtyDays noTables thirtyMore (10 * day) := by
  refine (buys_iff_stillRuns noTables thirtyDays thirtyMore (10 * day) rfl (by decide) (by decide)
    (by decide)).mpr (.inr (.inr (.inr ⟨by decide, by decide, by simp [thirtyDays], ?_⟩)))
  rintro first ⟨⟩
  decide

end Member

end RustDesk.Api
