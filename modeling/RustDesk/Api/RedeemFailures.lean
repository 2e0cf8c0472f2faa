import Mathlib.Algebra.Group.Nat.Defs
import Mathlib.Algebra.Group.Int.Defs
import Mathlib.Data.Int.Init
import RustDesk.Api.ActivationCodes
import RustDesk.Api.Servers
import RustDesk.Common.Table

/-!
# Redeeming a code when statements fail

References: `rustdesk-api/service/user.go` (`Create`, `Register`, `RegisterWithActivationCode`),
`service/activationCode.go` (`Validate`, `MarkUsed`, `ValidateAndUse`, `ResolveAssignedServers`, `ApplyToUser`),
`service/package.go` (`GetDefaultNewUserPackage`) and `http/controller/api/vip.go` (`Redeem`).

One call at a time, on a table of users and one of codes. Any statement may fail, and then it has written
nothing. Which ones do is a function from the statements of the call.
-/

namespace RustDesk.Api

/-- A row of the codes, with the columns that are applied to a user. -/
structure CodeRow extends ActivationCode where
  packageId : Option ℕ
  primaryServerId : Option ℕ
  backupServerId : Option ℕ
deriving DecidableEq

structure RedeemUser where
  username : String
  email : String
  password : String
  groupId : ℕ
  status : ℤ
  validDays : ℤ
  deviceLimit : ℤ
  packageId : Option ℕ
  primaryServerId : Option ℕ
  backupServerId : Option ℕ
  relayServerId : Option ℕ
deriving DecidableEq

/-- The package for new users. -/
structure DefaultPackage where
  id : ℕ
  validDays : ℤ
  deviceLimit : ℤ
  servers : List Server
deriving DecidableEq

structure RedeemTables where
  users : Table RedeemUser
  codes : Table CodeRow
  /-- The servers bound to a package. There are none for a package that is not there. -/
  packageServers : ℕ → List Server
  defaultNewUserPackage : Option DefaultPackage

/-- What is neither code nor table: the clock, the directory, the hash, and `strings.ToLower`. -/
structure RedeemEnv where
  now : ℤ
  ldapExists : String → Bool
  encryptPassword : String → Except String String
  toLower : String → String

/-- The statements of a call. -/
inductive RedeemStatement
  | findCode
  | checkUsername
  | insertUser
  | findDefaultPackage
  | applyToUser
  | markUsed
  | readBack
deriving DecidableEq

/-- The error of each statement that fails. -/
abbrev Faults := RedeemStatement → Option String

/-- An `int` of Go. -/
def goInt (n : ℤ) : ℤ := n.bmod (2 ^ 64)

/-! ## Codes -/

/-- `Validate`. -/
def RedeemTables.validate (t : RedeemTables) (env : RedeemEnv) (faults : Faults) (code : String) :
    Except String (ℕ × CodeRow) :=
  match faults .findCode with
  | some err => .error err
  | none =>
    match t.codes.first fun r => r.2.code = code with
    | none => .error "activation code not found"
    | some r =>
      match ActivationCode.validate (some r.2.toActivationCode) env.now with
      | .error err => .error err
      | .ok _ => .ok r

/-- `MarkUsed`. -/
def RedeemTables.markUsed (t : RedeemTables) (env : RedeemEnv) (faults : Faults) (codeId userId : ℕ) :
    Except String RedeemTables :=
  match faults .markUsed with
  | some err => .error err
  | none =>
    .ok { t with codes := t.codes.update (fun r => r.1 = codeId) fun ac =>
      { ac with usedBy := userId, usedAt := some env.now } }

/-- `ResolveAssignedServers`. -/
def RedeemTables.resolveAssignedServers (t : RedeemTables) (ac : CodeRow) : Option ℕ × Option ℕ :=
  if ac.primaryServerId ≠ none ∨ ac.backupServerId ≠ none then (ac.primaryServerId, ac.backupServerId)
  else
    match ac.packageId with
    | none => (none, none)
    | some packageId =>
      let servers := (t.packageServers packageId).insertionSort Server.Before
      ((servers[0]?).map (·.id), (servers[1]?).map (·.id))

/-- The columns that are to be written. -/
structure UserUpdates where
  validDays : Option ℤ
  deviceLimit : Option ℤ
  packageId : Option ℕ
  primaryServerId : Option (Option ℕ)
  backupServerId : Option (Option ℕ)
deriving DecidableEq

def UserUpdates.empty : UserUpdates := ⟨none, none, none, none, none⟩

/-- What is written. The relay server goes with the primary one. -/
def UserUpdates.write (updates : UserUpdates) (user : RedeemUser) : RedeemUser :=
  { user with
    validDays := updates.validDays.getD user.validDays
    deviceLimit := updates.deviceLimit.getD user.deviceLimit
    packageId := updates.packageId.or user.packageId
    primaryServerId := updates.primaryServerId.getD user.primaryServerId
    relayServerId := updates.primaryServerId.getD user.relayServerId
    backupServerId := updates.backupServerId.getD user.backupServerId }

/-- `ApplyToUser`. -/
def RedeemTables.applyToUser (t : RedeemTables) (user : RedeemUser) (ac : CodeRow) (accumulate : Bool) :
    UserUpdates :=
  let (primaryId, backupId) := t.resolveAssignedServers ac
  { validDays :=
      if accumulate then
        if user.validDays ≠ -1 then
          if ac.validDays = -1 then some (-1) else some (goInt (user.validDays + ac.validDays))
        else none
      else some ac.validDays
    deviceLimit :=
      if accumulate then
        if user.deviceLimit < ac.deviceLimit then some ac.deviceLimit else none
      else some ac.deviceLimit
    packageId := ac.packageId
    primaryServerId := if primaryId ≠ none ∨ ac.packageId ≠ none then some primaryId else none
    backupServerId := if backupId ≠ none ∨ ac.packageId ≠ none then some backupId else none }

/-- `DB.Model(u).Updates(updates)`, which is left out when there is nothing to write. -/
def RedeemTables.updateUser (t : RedeemTables) (faults : Faults) (userId : ℕ) (updates : UserUpdates) :
    Except String RedeemTables :=
  if updates = .empty then .ok t
  else
    match faults .applyToUser with
    | some err => .error err
    | none => .ok { t with users := t.users.update (fun r => r.1 = userId) updates.write }

/-! ## Users -/

/-- `IsUsernameExistsLocal`, which takes an error for no row. -/
def RedeemTables.isUsernameExistsLocal (t : RedeemTables) (faults : Faults) (username : String) : Bool :=
  match faults .checkUsername with
  | some _ => false
  | none => ((t.users.first fun r => r.2.username = username).map (·.1)).getD 0 != 0

def RedeemEnv.formatUsername (env : RedeemEnv) (username : String) : String :=
  env.toLower (String.ofList (username.toList.filter (· ≠ ' ')))

/-- `Create`. The username is unique, and a zero value of a column with a default gives the default. -/
def RedeemTables.create (t : RedeemTables) (env : RedeemEnv) (faults : Faults) (user : RedeemUser) :
    Except String (ℕ × RedeemTables) :=
  if t.isUsernameExistsLocal faults user.username || env.ldapExists user.username then .error "UsernameExists"
  else
    let username := env.formatUsername user.username
    match env.encryptPassword user.password with
    | .error err => .error err
    | .ok password =>
      match faults .insertUser with
      | some err => .error err
      | none =>
        if (t.users.first fun r => r.2.username = username).isSome then .error "UNIQUE constraint failed"
        else
          let row := { user with
            username, password
            status := if user.status = 0 then 1 else user.status
            deviceLimit := if user.deviceLimit = 0 then 10 else user.deviceLimit }
          .ok (t.users.next, { t with users := t.users.insert row })

/-- The user that is to be created. -/
def newUser (username email password : String) (status : ℤ) : RedeemUser :=
  ⟨username, email, password, 1, status, 0, 0, none, none, none, none⟩

/-- `applyDefaultNewUserPackage` and `applyUnprovisionedDefaults`, whose errors nobody looks at. -/
def RedeemTables.applyDefaults (t : RedeemTables) (faults : Faults) (userId : ℕ) : RedeemTables :=
  let pkg := match faults .findDefaultPackage with
    | some _ => none
    | none => t.defaultNewUserPackage
  let write : RedeemUser → RedeemUser := match pkg with
    | some pkg => fun user =>
      { user with
        validDays := pkg.validDays
        packageId := some pkg.id
        deviceLimit := pkg.deviceLimit
        primaryServerId := ((pkg.servers.find? (·.isOnline)).map (·.id)).or user.primaryServerId }
    | none => fun user =>
      { user with
        validDays := 0, packageId := none, primaryServerId := none, backupServerId := none
        relayServerId := none }
  match faults .applyToUser with
  | some _ => t
  | none => { t with users := t.users.update (fun r => r.1 = userId) write }

/-! ## The calls -/

/-- A call, and its arguments. `redeem` is for the current user. -/
inductive RedeemRequest
  | register (username email password : String) (status : ℤ) (activationCode : String)
  | redeem (user : Option UserId) (code : String)

/-- The id of the user a call has succeeded for, or its error, and the tables. What the call reads back at the
end is left out: an error there leaves an empty user in the answer. -/
abbrev Redeemed := Except String ℕ × RedeemTables

/-- `RegisterWithActivationCode`. -/
def RedeemTables.registerWithActivationCode (t : RedeemTables) (env : RedeemEnv) (faults : Faults)
    (username email password : String) (status : ℤ) (activationCode : String) : Redeemed :=
  if activationCode ≠ "" then
    match t.validate env faults activationCode with
    | .error err => (.error err, t)
    | .ok (codeId, ac) =>
      match t.create env faults (newUser username email password status) with
      | .error err => (.error err, t)
      | .ok (userId, created) =>
        let updates := t.applyToUser (newUser username email password status) ac false
        match created.updateUser faults userId updates with
        | .error err => (.error err, created)
        | .ok applied =>
          match applied.markUsed env faults codeId userId with
          | .error err => (.error err, applied)
          | .ok marked => (.ok userId, marked)
  else
    match t.create env faults (newUser username email password status) with
    | .error _ => (.error "register failed", t)
    | .ok (userId, created) => (.ok userId, created.applyDefaults faults userId)

/-- `Redeem`, with `ValidateAndUse`. -/
def RedeemTables.redeem (t : RedeemTables) (env : RedeemEnv) (faults : Faults) (user : Option UserId)
    (code : String) : Redeemed :=
  if code = "" then (.error "ParamsError", t)
  else
    match user.bind fun user => t.users.first fun r => r.1 = user.val with
    | none => (.error "UserNotFound", t)
    | some (userId, user) =>
      match t.validate env faults code with
      | .error err => (.error err, t)
      | .ok (codeId, ac) =>
        match t.markUsed env faults codeId userId with
        | .error err => (.error err, t)
        | .ok marked =>
          let updates := marked.applyToUser user ac true
          match marked.updateUser faults userId updates with
          | .error err => (.error ("OperationFailed" ++ err), marked)
          | .ok applied => (.ok userId, applied)

def RedeemRequest.run (request : RedeemRequest) (env : RedeemEnv) (faults : Faults) (t : RedeemTables) :
    Redeemed :=
  match request with
  | .register username email password status activationCode =>
    t.registerWithActivationCode env faults username email password status activationCode
  | .redeem user code => t.redeem env faults user code

/-! ## All or nothing -/

/-- What a code gives to a user: to a new one its own values, and to one that is there the sum of the days and the
higher limit. Days of -1 are without end. -/
structure Grants (accumulate : Bool) (old new : RedeemUser) (ac : CodeRow) : Prop where
  validDays : new.validDays =
    if accumulate then
      if old.validDays = -1 ∨ ac.validDays = -1 then -1 else old.validDays + ac.validDays
    else ac.validDays
  deviceLimit : new.deviceLimit = if accumulate then max old.deviceLimit ac.deviceLimit else ac.deviceLimit
  package : ∀ packageId ∈ ac.packageId, new.packageId = some packageId

/-- The code was free, the user has what it gives, and it is marked as used by the user. -/
def RedeemsCode (accumulate : Bool) (t t' : RedeemTables) (code : String) (userId : ℕ) (old : RedeemUser) :
    Prop :=
  ∃ codeId ac, t.codes.first (fun r => r.2.code = code) = some (codeId, ac) ∧ ac.usedBy = 0 ∧
    (∃ ac', (codeId, ac') ∈ t'.codes.rows ∧ ac'.usedBy = userId) ∧
    ∃ new, (userId, new) ∈ t'.users.rows ∧ Grants accumulate old new ac

/-- What the tables are when the call has succeeded for this user. -/
def RedeemRequest.Succeeded (request : RedeemRequest) (t t' : RedeemTables) (userId : ℕ) : Prop :=
  match request with
  | .register username email password status activationCode =>
    if activationCode ≠ "" then
      RedeemsCode false t t' activationCode userId (newUser username email password status)
    else (∃ new, (userId, new) ∈ t'.users.rows) ∧ t'.codes = t.codes
  | .redeem _ code => ∃ old, (userId, old) ∈ t.users.rows ∧ RedeemsCode true t t' code userId old

/-- The call has done all, or it has failed and both tables are as they were. -/
def RedeemRequest.AllOrNothing (request : RedeemRequest) (t : RedeemTables) (result : Redeemed) : Prop :=
  match result.1 with
  | .ok userId => request.Succeeded t result.2 userId
  | .error _ => result.2.users = t.users ∧ result.2.codes = t.codes

/-- Once the call has written, no statement of it fails, and the sum of the days is an `int`. -/
def RedeemRequest.Undisturbed (request : RedeemRequest) (env : RedeemEnv) (faults : Faults) (t : RedeemTables) :
    Prop :=
  match request with
  | .register username email password status activationCode =>
    activationCode ≠ "" → ∀ r, t.validate env faults activationCode = .ok r →
      ∀ created, t.create env faults (newUser username email password status) = .ok created →
        faults .applyToUser = none ∧ faults .markUsed = none
  | .redeem user code =>
    code ≠ "" → ∀ u, (user.bind fun user => t.users.first fun r => r.1 = user.val) = some u →
      ∀ r, t.validate env faults code = .ok r → faults .markUsed = none →
        (t.applyToUser u.2 r.2 true = .empty ∨ faults .applyToUser = none) ∧
        (u.2.validDays = -1 ∨ r.2.validDays = -1 ∨
          goInt (u.2.validDays + r.2.validDays) = u.2.validDays + r.2.validDays)

section Calls

variable {t : RedeemTables} {env : RedeemEnv} {faults : Faults} {user : RedeemUser} {userId codeId : ℕ}
  {ac : CodeRow} {t' : RedeemTables}

theorem validate_found {code : String} {r : ℕ × CodeRow} (h : t.validate env faults code = .ok r) :
    t.codes.first (fun r => r.2.code = code) = some r ∧ r.2.usedBy = 0 := by
  unfold RedeemTables.validate at h
  split at h
  · cases h
  split at h
  · cases h
  split at h
  · cases h
  · next hrow _ ac hok =>
    cases h
    obtain ⟨hac, hunused⟩ := ActivationCode.validate_ok hok
    cases hac
    exact ⟨hrow, hunused⟩

theorem create_ok {created : RedeemTables} (h : t.create env faults user = .ok (userId, created)) :
    ∃ row, created = { t with users := t.users.insert row } ∧ userId = t.users.next := by
  unfold RedeemTables.create at h
  split at h
  · cases h
  dsimp only at h
  split at h
  · cases h
  split at h
  · cases h
  split at h
  · cases h
  · cases h
    exact ⟨_, rfl, rfl⟩

theorem insert_ne (users : Table RedeemUser) (row : RedeemUser) : users.insert row ≠ users := by
  intro h
  have hrows : (users.insert row).rows.length = users.rows.length := by rw [h]
  have hlength : (users.insert row).rows.length = users.rows.length + 1 := List.length_append
  omega

/-- The mark, and that it is one. -/
theorem markUsed_eq (codeId userId : ℕ) : t.markUsed env faults codeId userId =
      match faults .markUsed with
      | some err => .error err
      | none =>
        .ok { t with codes := t.codes.update (fun r => r.1 = codeId) fun ac =>
          { ac with usedBy := userId, usedAt := some env.now } } := rfl

theorem mem_marked {codes : Table CodeRow} {now : ℤ} (h : (codeId, ac) ∈ codes.rows) :
    (codeId, { ac with usedBy := userId, usedAt := some now }) ∈ (codes.update (fun r => r.1 = codeId) fun ac =>
        { ac with usedBy := userId, usedAt := some now }).rows := by
  have hrow := Table.mem_update_of_mem (p := fun r => decide (r.1 = codeId)) (f := fun ac : CodeRow =>
    { ac with usedBy := userId, usedAt := some now }) h
  rwa [Table.updateRow, if_pos (by simp)] at hrow

theorem mem_written {users : Table RedeemUser} (write : RedeemUser → RedeemUser) (h : (userId, user) ∈ users.rows) :
    (userId, write user) ∈ (users.update (fun r => r.1 = userId) write).rows := by
  have hrow := Table.mem_update_of_mem (p := fun r => decide (r.1 = userId)) (f := write) h
  rwa [Table.updateRow, if_pos (by simp)] at hrow

/-- Writing users leaves their number. -/
theorem update_insert_ne (users : Table RedeemUser) (row : RedeemUser) (p : ℕ × RedeemUser → Bool)
    (write : RedeemUser → RedeemUser) : (users.insert row).update p write ≠ users := by
  intro h
  have hrows : ((users.insert row).update p write).rows.length = users.rows.length := by rw [h]
  have hlength : ((users.insert row).update p write).rows.length = users.rows.length + 1 := by
    rw [Table.update, List.length_map]
    exact List.length_append
  omega

/-- What a new user gets is what the code gives. -/
theorem grants_new (user row : RedeemUser) (ac : CodeRow) :
    Grants false user ((t.applyToUser user ac false).write row) ac where
  validDays := rfl
  deviceLimit := rfl
  package := by
    intro packageId hpackage
    rw [Option.mem_def] at hpackage
    simp [RedeemTables.applyToUser, UserUpdates.write, hpackage]

theorem applyToUser_new_ne_empty (user : RedeemUser) (ac : CodeRow) : t.applyToUser user ac false ≠ .empty := by
  intro h
  have hdays : (t.applyToUser user ac false).validDays = none := by rw [h]; rfl
  cases hdays

theorem allOrNothing_ok {request : RedeemRequest} :
    request.AllOrNothing t (.ok userId, t') ↔ request.Succeeded t t' userId := Iff.rfl

theorem allOrNothing_error {request : RedeemRequest} {err : String} :
    request.AllOrNothing t (.error err, t') ↔ t'.users = t.users ∧ t'.codes = t.codes := Iff.rfl

theorem register_allOrNothing_iff (username email password : String) (status : ℤ) (activationCode : String) :
    RedeemRequest.AllOrNothing (.register username email password status activationCode) t
        (t.registerWithActivationCode env faults username email password status activationCode) ↔
      RedeemRequest.Undisturbed (.register username email password status activationCode) env faults t := by
  unfold RedeemTables.registerWithActivationCode RedeemRequest.Undisturbed
  by_cases hcode : activationCode ≠ ""
  · rw [if_pos hcode]
    cases hvalidate : t.validate env faults activationCode with
    | error err =>
      refine ⟨fun _ _ r hr => ?_, fun _ => allOrNothing_error.mpr ⟨rfl, rfl⟩⟩
      rw [hvalidate] at hr
      cases hr
    | ok r =>
      obtain ⟨codeId, ac⟩ := r
      cases hcreate : t.create env faults (newUser username email password status) with
      | error err =>
        refine ⟨fun _ _ _ _ created h => ?_, fun _ => allOrNothing_error.mpr ⟨rfl, rfl⟩⟩
        rw [hcreate] at h
        cases h
      | ok c =>
        obtain ⟨userId, created⟩ := c
        obtain ⟨row, rfl, rfl⟩ := create_ok hcreate
        dsimp only
        rw [RedeemTables.updateUser, if_neg (applyToUser_new_ne_empty _ _)]
        -- the user is there from here on
        cases happly : faults .applyToUser with
        | some err =>
          rw [allOrNothing_error]
          constructor
          · intro h
            exact absurd h.1 (insert_ne _ _)
          · intro h
            cases (h hcode _ hvalidate _ hcreate).1
        | none =>
          dsimp only
          rw [markUsed_eq]
          cases hmark : faults .markUsed with
          | some err =>
            rw [allOrNothing_error]
            constructor
            · intro h
              exact absurd h.1 (update_insert_ne _ _ _ _)
            · intro h
              cases (h hcode _ hvalidate _ hcreate).2
          | none =>
            refine ⟨fun _ _ _ _ _ _ => ⟨rfl, rfl⟩, fun _ => ?_⟩
            obtain ⟨hfirst, hunused⟩ := validate_found hvalidate
            rw [allOrNothing_ok, RedeemRequest.Succeeded, if_pos hcode]
            refine ⟨codeId, ac, hfirst, hunused, ⟨_, mem_marked (Table.mem_of_first hfirst), rfl⟩, _,
              mem_written _ (Table.mem_insert.mpr (.inr rfl)), grants_new _ _ _⟩
  · rw [if_neg hcode]
    refine ⟨fun _ h => absurd h hcode, fun _ => ?_⟩
    cases hcreate : t.create env faults (newUser username email password status) with
    | error err => exact allOrNothing_error.mpr ⟨rfl, rfl⟩
    | ok c =>
      obtain ⟨userId, created⟩ := c
      obtain ⟨row, rfl, rfl⟩ := create_ok hcreate
      rw [allOrNothing_ok, RedeemRequest.Succeeded, if_neg hcode]
      have hrow : (t.users.next, row) ∈ (t.users.insert row).rows := Table.mem_insert.mpr (.inr rfl)
      unfold RedeemTables.applyDefaults
      cases faults .applyToUser with
      | some err => exact ⟨⟨row, hrow⟩, rfl⟩
      | none => exact ⟨⟨_, mem_written _ hrow⟩, rfl⟩

/-- To a user who is there the code gives what `ApplyToUser` writes, when the sum of the days is an `int`. -/
theorem grants_sum : Grants true user ((t.applyToUser user ac true).write user) ac ↔
      user.validDays = -1 ∨ ac.validDays = -1 ∨
        goInt (user.validDays + ac.validDays) = user.validDays + ac.validDays := by
  have hlimit : ((t.applyToUser user ac true).write user).deviceLimit = max user.deviceLimit ac.deviceLimit := by
    simp only [RedeemTables.applyToUser, UserUpdates.write, if_true]
    split
    · next h =>
      rw [max_eq_right (Int.le_of_lt h)]
      rfl
    · next h =>
      rw [max_eq_left (Int.not_lt.mp h)]
      rfl
  have hdays : ((t.applyToUser user ac true).write user).validDays =
      if user.validDays ≠ -1 then
        if ac.validDays = -1 then -1 else goInt (user.validDays + ac.validDays)
      else user.validDays := by
    simp only [RedeemTables.applyToUser, UserUpdates.write, if_true]
    split
    · split <;> rfl
    · rfl
  constructor
  · intro h
    have hsum := h.validDays
    rw [hdays, if_pos rfl] at hsum
    by_cases huser : user.validDays = -1
    · exact .inl huser
    by_cases hac : ac.validDays = -1
    · exact .inr (.inl hac)
    · rw [if_pos huser, if_neg hac, if_neg (by simp [huser, hac])] at hsum
      exact .inr (.inr hsum)
  · intro h
    refine ⟨?_, by rw [hlimit, if_pos rfl], ?_⟩
    · rw [hdays, if_pos rfl]
      by_cases huser : user.validDays = -1
      · rw [if_neg (by simp [huser]), if_pos (.inl huser), huser]
      by_cases hac : ac.validDays = -1
      · rw [if_pos huser, if_pos hac, if_pos (.inr hac)]
      · rw [if_pos huser, if_neg hac, if_neg (by simp [huser, hac])]
        rcases h with h | h | h
        · exact absurd h huser
        · exact absurd h hac
        · exact h
    · intro packageId hpackage
      rw [Option.mem_def] at hpackage
      simp [RedeemTables.applyToUser, UserUpdates.write, hpackage]

theorem write_empty (user : RedeemUser) : UserUpdates.empty.write user = user := rfl

/-- The row of the user after the call is the one that is written, and there is no other with its id. -/
theorem redeemsCode_iff {old new : RedeemUser} {code : String}
    (hfirst : t.codes.first (fun r => r.2.code = code) = some (codeId, ac)) (hunused : ac.usedBy = 0)
    (hmark : ∃ ac', (codeId, ac') ∈ t'.codes.rows ∧ ac'.usedBy = userId) (hnew : (userId, new) ∈ t'.users.rows) :
    RedeemsCode true t t' code userId old ↔ Grants true old new ac := by
  constructor
  · rintro ⟨codeId', ac', hfirst', -, -, new', hnew', hgrants⟩
    rw [hfirst] at hfirst'
    cases hfirst'
    cases t'.users.eq_of_id hnew hnew' rfl
    exact hgrants
  · exact fun h => ⟨codeId, ac, hfirst, hunused, hmark, new, hnew, h⟩

theorem marked_ne (hrow : (codeId, ac) ∈ t.codes.rows) (hunused : ac.usedBy = 0) (huser : 0 < userId) :
    (t.codes.update (fun r => r.1 = codeId) fun ac =>
      { ac with usedBy := userId, usedAt := some env.now }) ≠ t.codes := by
  intro h
  have hmarked : (codeId, { ac with usedBy := userId, usedAt := some env.now }) ∈
      (t.codes.update (fun r => r.1 = codeId) fun ac =>
        { ac with usedBy := userId, usedAt := some env.now }).rows := mem_marked hrow
  rw [h] at hmarked
  have hsame := (Prod.mk.inj (t.codes.eq_of_id hmarked hrow rfl)).2
  have hused : userId = ac.usedBy := congrArg (fun ac : CodeRow => ac.usedBy) hsame
  omega

theorem redeem_allOrNothing_iff (user : Option UserId) (code : String) :
    RedeemRequest.AllOrNothing (.redeem user code) t (t.redeem env faults user code) ↔
      RedeemRequest.Undisturbed (.redeem user code) env faults t := by
  unfold RedeemTables.redeem
  by_cases hcode : code = ""
  · rw [if_pos hcode]
    exact ⟨fun _ h => absurd hcode h, fun _ => allOrNothing_error.mpr ⟨rfl, rfl⟩⟩
  rw [if_neg hcode]
  cases huser : user.bind fun user => t.users.first fun r => r.1 = user.val with
  | none =>
    refine ⟨fun _ _ u hu => ?_, fun _ => allOrNothing_error.mpr ⟨rfl, rfl⟩⟩
    rw [huser] at hu
    cases hu
  | some u =>
    obtain ⟨userId, old⟩ := u
    obtain ⟨id, -, hid⟩ := Option.bind_eq_some_iff.mp huser
    have hpos : 0 < userId := by
      have hsame := Table.first_sat hid
      have hidpos := id.2
      simp only [decide_eq_true_eq] at hsame
      omega
    have hold := Table.mem_of_first hid
    cases hvalidate : t.validate env faults code with
    | error err =>
      refine ⟨fun _ _ _ _ r hr => ?_, fun _ => allOrNothing_error.mpr ⟨rfl, rfl⟩⟩
      rw [hvalidate] at hr
      cases hr
    | ok r =>
      obtain ⟨codeId, ac⟩ := r
      obtain ⟨hfirst, hunused⟩ := validate_found hvalidate
      have hrow := Table.mem_of_first hfirst
      dsimp only
      rw [markUsed_eq]
      cases hmark : faults .markUsed with
      | some err =>
        refine ⟨fun _ _ _ _ _ _ h => ?_, fun _ => allOrNothing_error.mpr ⟨rfl, rfl⟩⟩
        rw [hmark] at h
        cases h
      | none =>
        dsimp only
        set marked : RedeemTables := { t with codes := t.codes.update (fun r => r.1 = codeId) fun ac =>
          { ac with usedBy := userId, usedAt := some env.now } } with hmarked
        have hcondition : RedeemRequest.Undisturbed (.redeem user code) env faults t ↔
            (t.applyToUser old ac true = .empty ∨ faults .applyToUser = none) ∧
              (old.validDays = -1 ∨ ac.validDays = -1 ∨
                goInt (old.validDays + ac.validDays) = old.validDays + ac.validDays) := by
          constructor
          · exact fun h => h hcode _ huser _ hvalidate hmark
          · rintro h - u hu r hr -
            rw [huser] at hu
            rw [hvalidate] at hr
            cases hu
            cases hr
            exact h
        have hused : ∃ ac', (codeId, ac') ∈ marked.codes.rows ∧ ac'.usedBy = userId :=
          ⟨_, mem_marked hrow, rfl⟩
        refine Iff.trans ?_ hcondition.symm
        rw [← grants_sum (t := t), show marked.applyToUser old ac true = t.applyToUser old ac true from rfl,
          RedeemTables.updateUser]
        by_cases hempty : t.applyToUser old ac true = .empty
        · -- nothing is to be written
          rw [if_pos hempty, hempty, write_empty]
          rw [allOrNothing_ok]
          constructor
          · rintro ⟨old', hold', hredeems⟩
            cases t.users.eq_of_id hold hold' rfl
            exact ⟨.inl rfl, (redeemsCode_iff hfirst hunused hused hold).mp hredeems⟩
          · exact fun h => ⟨old, hold, (redeemsCode_iff hfirst hunused hused hold).mpr h.2⟩
        · rw [if_neg hempty]
          cases happly : faults .applyToUser with
          | some err =>
            rw [allOrNothing_error]
            refine ⟨fun h => absurd h.2 (marked_ne hrow hunused hpos), fun h => ?_⟩
            rcases h.1 with h | h
            · exact absurd h hempty
            · cases h
          | none =>
            rw [allOrNothing_ok]
            have hredeems : RedeemsCode true t
                { marked with
                  users := marked.users.update (fun r => r.1 = userId) (t.applyToUser old ac true).write }
                code userId old ↔ _ :=
              redeemsCode_iff hfirst hunused hused (mem_written (t.applyToUser old ac true).write hold)
            constructor
            · rintro ⟨old', hold', h⟩
              cases t.users.eq_of_id hold hold' rfl
              exact ⟨.inr rfl, hredeems.mp h⟩
            · exact fun h => ⟨old, hold, hredeems.mpr h.2⟩

end Calls

/-- **A call does all or nothing exactly when no statement of it fails behind its first write**, and the sum of the
days is an `int`. -/
theorem RedeemRequest.allOrNothing_iff (request : RedeemRequest) (env : RedeemEnv) (faults : Faults)
    (t : RedeemTables) : request.AllOrNothing t (request.run env faults t) ↔ request.Undisturbed env faults t := by
  cases request with
  | register username email password status activationCode =>
    exact register_allOrNothing_iff username email password status activationCode
  | redeem user code => exact redeem_allOrNothing_iff user code

/-! ### A mark that fails -/

/-- A code of thirty days. -/
def thirtyDays : CodeRow := ⟨⟨"VIP30", 30, 5, none, 0, none⟩, none, none, none⟩

/-- A mark that fails leaves an account with the days of a code that is still free, and the call fails. -/
theorem RedeemRequest.account_left_behind :
    let t : RedeemTables := ⟨.empty, Table.empty.insert thirtyDays, fun _ => [], none⟩
    let env : RedeemEnv := ⟨0, fun _ => false, .ok, id⟩
    let request : RedeemRequest := .register "ann" "" "secret" 1 "VIP30"
    let faults : Faults := fun statement => if statement = .markUsed then some "database is locked" else none
    ¬ request.AllOrNothing t (request.run env faults t) := by
  intro t env request faults h
  have hfailed : (request.run env faults t).1 = .error "database is locked" := by decide +kernel
  have hleft : (request.run env faults t).2.users.rows.length = 1 := by decide +kernel
  rw [AllOrNothing, hfailed] at h
  rw [h.1] at hleft
  cases hleft

end RustDesk.Api
