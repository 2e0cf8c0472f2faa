import RustDesk.Common.Table

/-!
# Users that are created in a batch

References: `rustdesk-api/http/controller/admin/user.go` (`QuickBatchCreate`), `http/request/admin/user.go`
(`QuickBatchUserCreateForm`), `service/user.go` (`BatchCreate`, `IsUsernameExists`, `formatUsername`,
`InfoByUsernamePassword`), `utils/tools.go` (`RandomNumericPassword`), `utils/password.go`.

The names and the passwords are written down before the users are created. `BatchCreate` then takes the blanks and
the capitals out of a name, and leaves out a user whose name is there or whose statements fail, but what was written
down is returned as it is. There is no directory.
-/

namespace RustDesk.Api

/-- `model.User`, as far as a batch fills it in. -/
structure BatchUser where
  username : List Char
  password : List Char
  groupId : ℕ
  status : ℤ
  validDays : ℤ
  deviceLimit : ℤ
  isAdmin : Bool
deriving DecidableEq

structure QuickBatchUserCreateForm where
  count : ℕ
  usernamePrefix : List Char
  passwordLength : ℕ
  groupId : ℕ
  status : ℤ
  validDays : ℤ
  deviceLimit : ℤ
deriving DecidableEq

inductive BcryptError
  | mismatch | invalidPrefix | hashTooShort | other
deriving DecidableEq

/-- `bcrypt`, where each call draws its own salt: what was hashed is told from everything else. -/
structure Bcrypt where
  generateFromPassword : ℕ → List Char → Except String (List Char)
  compareHashAndPassword : List Char → List Char → Except BcryptError Unit
  compare : ∀ {call password hash}, generateFromPassword call password = .ok hash →
    ∀ input, compareHashAndPassword hash input = if input = password then .ok () else .error .mismatch

/-- `unicode.ToLower`, which `strings.ToLower` does to every rune. -/
structure RuneCase where
  toLower : Char → Char
  toLower_toLower : ∀ c, toLower (toLower c) = toLower c
  eq_blank : ∀ c, toLower c = ' ' → c = ' '
  toLower_digit : ∀ c, c.isDigit = true → toLower c = c

/-- What is neither code nor table. The statements and the random bytes are those for the `i`-th user. -/
structure BatchEnv where
  bcrypt : Bcrypt
  runes : RuneCase
  md5 : List Char → List Char
  random : ℕ → ℕ → Option (List UInt8)
  insertError : ℕ → Option String
  commitError : Option String

/-! ## Passwords -/

namespace BatchEnv

variable (env : BatchEnv)

/-- `RandomNumericPassword` for the `i`-th user. -/
def randomNumericPassword (i n : ℕ) : List Char :=
  match env.random i n with
  | none => []
  | some randomBytes => randomBytes.map fun rb => Nat.digitChar (rb.toNat % 10)

def encryptPassword (i : ℕ) (password : List Char) : Except String (List Char) :=
  env.bcrypt.generateFromPassword i password

/-- Whether the password is that of the hash, and the hash that is to be kept instead. -/
def verifyPassword (call : ℕ) (hash input : List Char) : Except String (Bool × List Char) :=
  match env.bcrypt.compareHashAndPassword hash input with
  | .ok _ => .ok (true, [])
  | .error err =>
    if (err = .invalidPrefix ∨ err = .hashTooShort) ∧ hash = env.md5 (input ++ "rustdesk-api".toList) then
      (env.bcrypt.generateFromPassword call input).map (true, ·)
    else if err = .mismatch then .ok (false, [])
    else .error "bcrypt"

def infoByUsernamePassword (db : Table BatchUser) (call : ℕ) (username password : List Char) :
    Option (ℕ × BatchUser) × Table BatchUser :=
  match db.first fun r => r.2.username = username with
  | none => (none, db)
  | some u =>
    match env.verifyPassword call u.2.password password with
    | .ok (true, newHash) =>
      if newHash ≠ [] then
        (some (u.1, { u.2 with password := newHash }),
          db.update (fun r => r.1 = u.1) fun r => { r with password := newHash })
      else (some u, db)
    | _ => (none, db)

/-! ## Batches -/

def formatUsername (username : List Char) : List Char := (username.filter (· ≠ ' ')).map env.runes.toLower

end BatchEnv

/-- `IsUsernameExists`, which asks outside of the transaction. -/
def isUsernameExists (db : Table BatchUser) (username : List Char) : Bool :=
  (db.first fun r => r.2.username = username).isSome

structure BatchState where
  tx : Table BatchUser
  successCount : ℕ
  errors : List String

namespace BatchEnv

variable (env : BatchEnv) (db : Table BatchUser)

/-- `tx.Create`. The username is unique, and a zero value of a column with a default gives the default. -/
def create (tx : Table BatchUser) (i : ℕ) (user : BatchUser) : Except String (Table BatchUser) :=
  match env.insertError i with
  | some err => .error err
  | none =>
    if (tx.first fun r => r.2.username = user.username).isSome then .error "UNIQUE constraint failed"
    else
      .ok (tx.insert { user with
        status := if user.status = 0 then 1 else user.status
        deviceLimit := if user.deviceLimit = 0 then 10 else user.deviceLimit })

/-- A turn of the loop, for the `i`-th user. -/
def batchStep (st : BatchState) (u : ℕ × BatchUser) : BatchState :=
  let (i, user) := u
  if isUsernameExists db user.username then
    { st with errors := st.errors ++ ["username " ++ String.ofList user.username ++ " already exists"] }
  else
    let username := env.formatUsername user.username
    match env.encryptPassword i user.password with
    | .error err =>
      { st with
        errors := st.errors ++ ["failed to encrypt password for " ++ String.ofList username ++ ": " ++ err] }
    | .ok password =>
      match env.create st.tx i { user with username, password } with
      | .error err =>
        { st with errors := st.errors ++ ["failed to create user " ++ String.ofList username ++ ": " ++ err] }
      | .ok tx => { st with tx, successCount := st.successCount + 1 }

/-- What is in the table then, how many were created, and the errors. -/
def batchCreate (users : List (ℕ × BatchUser)) : Table BatchUser × ℕ × List String :=
  let st := users.foldl (env.batchStep db) ⟨db, 0, []⟩
  if 0 < st.successCount then
    match env.commitError with
    | some err => (db, 0, st.errors ++ ["failed to commit transaction: " ++ err])
    | none => (st.tx, st.successCount, st.errors)
  else (db, st.successCount, st.errors)

end BatchEnv

/-! ## The request -/

namespace QuickBatchUserCreateForm

variable (f : QuickBatchUserCreateForm)

/-- `ValidStruct`. -/
def valid : Bool :=
  1 ≤ f.count ∧ f.count ≤ 100 ∧ 2 ≤ f.usernamePrefix.length ∧ f.usernamePrefix.length ≤ 20 ∧
    6 ≤ f.passwordLength ∧ f.passwordLength ≤ 32 ∧ f.groupId ≠ 0 ∧ 0 < f.status ∧ -1 ≤ f.validDays ∧
    0 ≤ f.deviceLimit

/-- A number with zeros in front, as many digits as the count has. -/
def padded (i : ℕ) : List Char := (Nat.toDigits 10 i).leftpad (Nat.toDigits 10 f.count).length '0'

def username (i : ℕ) : List Char := f.usernamePrefix ++ f.padded i

/-- The `i`-th user, whose password is not yet hashed. -/
def user (i : ℕ) (password : List Char) : BatchUser :=
  ⟨f.username i, password, f.groupId, f.status, f.validDays, f.deviceLimit, false⟩

end QuickBatchUserCreateForm

/-- The users that are returned, and what is written of them. -/
structure BatchResponse where
  successCount : ℕ
  errors : List String
  users : List (List Char × List Char)
  exportText : List Char
  exportCsv : List Char
  message : String

/-- A line for each user, behind the heading. -/
def exportLines (heading : String) (separator : Char) (users : List (List Char × List Char)) : List Char :=
  heading.toList ++ users.flatMap fun up => up.1 ++ separator :: (up.2 ++ ['\n'])

/-- What is in the table then, and the response, if the form was taken. -/
def BatchEnv.quickBatchCreate (env : BatchEnv) (db : Table BatchUser) (f : QuickBatchUserCreateForm) :
    Table BatchUser × Option BatchResponse :=
  if ¬ f.valid then (db, none)
  else
    let indices := List.range' 1 f.count
    let password := fun i => env.randomNumericPassword i f.passwordLength
    let users := indices.map fun i => (i, f.user i (password i))
    let userPasswords := indices.map fun i => (f.username i, password i)
    let (db', successCount, errors) := env.batchCreate db users
    (db', some {
      successCount, errors
      users := userPasswords
      exportText := exportLines "账号\t密码\n--------------------\n" '\t' userPasswords
      exportCsv := exportLines "账号,密码\n" ',' userPasswords
      message := if 0 < errors.length then "部分用户创建失败" else "所有用户创建成功" })

/-! ## What the export promises -/

/-- Each pair that is written down works, the pairs are counted, and the users who were there are as they were. -/
structure CredentialsWork (env : BatchEnv) (db : Table BatchUser) (f : QuickBatchUserCreateForm) : Prop where
  accepted : ∀ r, (env.quickBatchCreate db f).2 = some r → ∀ up ∈ r.users, ∀ call,
    (env.infoByUsernamePassword (env.quickBatchCreate db f).1 call up.1 up.2).1.isSome
  counted : ∀ r, (env.quickBatchCreate db f).2 = some r → r.successCount = r.users.length
  untouched : ∀ row ∈ db.rows, row ∈ (env.quickBatchCreate db f).1.rows

/-- The prefix stays as it is, no name is there, and no call and no statement fails. -/
structure AllCreated (env : BatchEnv) (db : Table BatchUser) (f : QuickBatchUserCreateForm) : Prop where
  plain : env.formatUsername f.usernamePrefix = f.usernamePrefix
  fresh : ∀ i ∈ List.range' 1 f.count, isUsernameExists db (f.username i) = false
  hashed : ∀ i ∈ List.range' 1 f.count,
    (env.encryptPassword i (env.randomNumericPassword i f.passwordLength)).isOk
  inserted : ∀ i ∈ List.range' 1 f.count, env.insertError i = none
  committed : env.commitError = none

/-! ## Names -/

section Names

variable {f : QuickBatchUserCreateForm}

theorem isDigit_of_mem_padded {i : ℕ} {c : Char} (h : c ∈ f.padded i) : c.isDigit = true := by
  rcases List.mem_append.mp h with h | h
  · rw [List.eq_of_mem_replicate h]
    rfl
  · exact Nat.isDigit_of_mem_toDigits (by decide) (by decide) h

theorem username_injective : Function.Injective f.username := by
  intro i j h
  have hpadded : f.padded i = f.padded j := List.append_cancel_left h
  have hvalue : ∀ k, Nat.ofDigitChars 10 (f.padded k) 0 = k := by
    intro k
    rw [QuickBatchUserCreateForm.padded, List.leftpad, Nat.ofDigitChars_append, Nat.ofDigitChars_replicate_zero,
      Nat.mul_zero, Nat.ofDigitChars_ten_toDigits]
  rw [← hvalue i, hpadded, hvalue j]

theorem formatUsername_username (env : BatchEnv) (i : ℕ) :
    env.formatUsername (f.username i) = env.formatUsername f.usernamePrefix ++ f.padded i := by
  have hkept : (f.padded i).filter (· ≠ ' ') = f.padded i := by
    refine List.filter_eq_self.mpr fun c hc => decide_eq_true ?_
    rintro rfl
    cases isDigit_of_mem_padded hc
  have hsame : (f.padded i).map env.runes.toLower = f.padded i := by
    refine (List.map_congr_left fun c hc => ?_).trans (List.map_id _)
    exact env.runes.toLower_digit c (isDigit_of_mem_padded hc)
  unfold BatchEnv.formatUsername QuickBatchUserCreateForm.username
  rw [List.filter_append, List.map_append, hkept, hsame]

/-- A name that was formatted stays as it is. -/
theorem formatUsername_formatUsername (env : BatchEnv) (name : List Char) :
    env.formatUsername (env.formatUsername name) = env.formatUsername name := by
  have hkept : ((name.filter (· ≠ ' ')).map env.runes.toLower).filter (· ≠ ' ') =
      (name.filter (· ≠ ' ')).map env.runes.toLower := by
    refine List.filter_eq_self.mpr fun c hc => decide_eq_true ?_
    rintro rfl
    obtain ⟨d, hd, hlower⟩ := List.mem_map.mp hc
    rw [env.runes.eq_blank d hlower] at hd
    simp at hd
  unfold BatchEnv.formatUsername
  rw [hkept, List.map_map]
  exact List.map_congr_left fun c _ => env.runes.toLower_toLower c

theorem formatUsername_username_iff (env : BatchEnv) (i : ℕ) :
    env.formatUsername (f.username i) = f.username i ↔ env.formatUsername f.usernamePrefix = f.usernamePrefix := by
  rw [formatUsername_username, QuickBatchUserCreateForm.username]
  exact List.append_left_inj _

end Names

/-! ## The loop -/

theorem isUsernameExists_eq_false {db : Table BatchUser} {name : List Char} :
    isUsernameExists db name = false ↔ ∀ row ∈ db.rows, row.2.username ≠ name := by
  rw [← Bool.not_eq_true, isUsernameExists, Table.first_isSome]
  simp

namespace BatchEnv

variable {env : BatchEnv} {db : Table BatchUser} {st : BatchState} {row : ℕ × BatchUser}

/-- The user is created: its row, from the state before. -/
structure Creates (env : BatchEnv) (db : Table BatchUser) (st : BatchState) (i : ℕ) (user row : BatchUser) :
    Prop where
  fresh : isUsernameExists db user.username = false
  hashed : env.encryptPassword i user.password = .ok row.password
  inserted : env.insertError i = none
  username : row.username = env.formatUsername user.username
  unique : ∀ r ∈ st.tx.rows, r.2.username ≠ env.formatUsername user.username

/-- **One turn**: a user is created and counted, or nothing is. -/
theorem batchStep_cases (env : BatchEnv) (db : Table BatchUser) (st : BatchState) (i : ℕ) (user : BatchUser) :
    (∃ row, env.Creates db st i user row ∧ (env.batchStep db st (i, user)).tx = st.tx.insert row ∧
      (env.batchStep db st (i, user)).successCount = st.successCount + 1) ∨
    (∀ row, ¬ env.Creates db st i user row) ∧ (env.batchStep db st (i, user)).tx = st.tx ∧
      (env.batchStep db st (i, user)).successCount = st.successCount := by
  rw [batchStep]
  cases hexists : isUsernameExists db user.username with
  | true => exact .inr ⟨fun row h => by simpa [hexists] using h.fresh, rfl, rfl⟩
  | false =>
    rw [if_neg Bool.false_ne_true]
    cases hhash : env.encryptPassword i user.password with
    | error err => exact .inr ⟨fun row h => by simpa [hhash] using h.hashed, rfl, rfl⟩
    | ok hash =>
      dsimp only
      rw [create]
      cases hinsert : env.insertError i with
      | some err => exact .inr ⟨fun row h => by simpa [hinsert] using h.inserted, rfl, rfl⟩
      | none =>
        cases hunique : (st.tx.first fun r => r.2.username = env.formatUsername user.username).isSome with
        | true =>
          refine .inr ⟨fun row h => ?_, rfl, rfl⟩
          obtain ⟨r, hr, hname⟩ := Table.first_isSome.mp hunique
          exact h.unique r hr (by simpa using hname)
        | false =>
          rw [if_neg Bool.false_ne_true]
          exact .inl ⟨_, ⟨hexists, hhash, hinsert, rfl, isUsernameExists_eq_false.mp hunique⟩, rfl, rfl⟩

/-- A user is created if nothing stands against it. -/
theorem batchStep_creates {i : ℕ} {user : BatchUser} (hfresh : isUsernameExists db user.username = false)
    (hhashed : (env.encryptPassword i user.password).isOk) (hinserted : env.insertError i = none)
    (hunique : ∀ r ∈ st.tx.rows, r.2.username ≠ env.formatUsername user.username) :
    ∃ row, env.Creates db st i user row ∧ (env.batchStep db st (i, user)).tx = st.tx.insert row ∧
      (env.batchStep db st (i, user)).successCount = st.successCount + 1 := by
  rcases batchStep_cases env db st i user with h | ⟨hnot, -⟩
  · exact h
  · cases hhash : env.encryptPassword i user.password with
    | error err => simp [hhash, Except.isOk, Except.toBool] at hhashed
    | ok hash =>
      exact absurd ⟨hfresh, hhash, hinserted, rfl, hunique⟩
        (hnot { user with username := env.formatUsername user.username, password := hash })

/-! ## All turns -/

/-- The loop over some users. -/
def loop (env : BatchEnv) (db : Table BatchUser) (st : BatchState) (users : List (ℕ × BatchUser)) : BatchState :=
  users.foldl (env.batchStep db) st

theorem loop_cons (u : ℕ × BatchUser) (users : List (ℕ × BatchUser)) :
    env.loop db st (u :: users) = env.loop db (env.batchStep db st u) users := rfl

variable {users : List (ℕ × BatchUser)}

/-- The rows that were there stay, and each other row is that of a user. -/
theorem mem_loop (h : row ∈ (env.loop db st users).tx.rows) :
    row ∈ st.tx.rows ∨ ∃ u ∈ users, row.2.username = env.formatUsername u.2.username ∧
      env.encryptPassword u.1 u.2.password = .ok row.2.password := by
  induction users generalizing st with
  | nil => exact .inl h
  | cons u users ih =>
    rcases ih h with hmem | ⟨u', hu', hrow⟩
    · rcases batchStep_cases env db st u.1 u.2 with ⟨new, hnew, htx, -⟩ | ⟨-, htx, -⟩
      · rw [htx] at hmem
        rcases Table.mem_insert.mp hmem with hmem | rfl
        · exact .inl hmem
        · exact .inr ⟨u, List.mem_cons_self, hnew.username, hnew.hashed⟩
      · rw [htx] at hmem
        exact .inl hmem
    · exact .inr ⟨u', List.mem_cons_of_mem _ hu', hrow⟩

theorem mem_loop_of_mem (h : row ∈ st.tx.rows) : row ∈ (env.loop db st users).tx.rows := by
  induction users generalizing st with
  | nil => exact h
  | cons u users ih =>
    refine ih ?_
    rcases batchStep_cases env db st u.1 u.2 with ⟨new, -, htx, -⟩ | ⟨-, htx, -⟩
    · rw [htx]
      exact Table.mem_insert.mpr (.inl h)
    · rw [htx]
      exact h

/-- Not more users are counted than there are, and if as many, then nothing stood against any. -/
theorem successCount_loop : (env.loop db st users).successCount ≤ st.successCount + users.length ∧
      ((env.loop db st users).successCount = st.successCount + users.length →
        ∀ u ∈ users, isUsernameExists db u.2.username = false ∧ (env.encryptPassword u.1 u.2.password).isOk ∧
          env.insertError u.1 = none) := by
  induction users generalizing st with
  | nil => exact ⟨le_rfl, fun _ u hu => absurd hu List.not_mem_nil⟩
  | cons u users ih =>
    obtain ⟨hle, hall⟩ := @ih (env.batchStep db st u)
    rw [loop_cons, List.length_cons]
    rcases batchStep_cases env db st u.1 u.2 with ⟨new, hnew, -, hcount⟩ | ⟨-, -, hcount⟩
    · have hcount' : (env.batchStep db st u).successCount = st.successCount + 1 := hcount
      refine ⟨by omega, fun heq u' hu' => ?_⟩
      rcases List.mem_cons.mp hu' with rfl | hu'
      · refine ⟨hnew.fresh, ?_, hnew.inserted⟩
        rw [hnew.hashed]
        rfl
      · exact hall (by omega) u' hu'
    · have hcount' : (env.batchStep db st u).successCount = st.successCount := hcount
      exact ⟨by omega, fun heq => by omega⟩

/-- **Everyone is created** if nothing stands against it and no two names are the same. -/
theorem loop_creates (hnames : (users.map fun u => env.formatUsername u.2.username).Nodup)
    (hunique : ∀ u ∈ users, ∀ r ∈ st.tx.rows, r.2.username ≠ env.formatUsername u.2.username)
    (hall : ∀ u ∈ users, isUsernameExists db u.2.username = false ∧ (env.encryptPassword u.1 u.2.password).isOk ∧
      env.insertError u.1 = none) :
    (env.loop db st users).successCount = st.successCount + users.length ∧
      ∀ u ∈ users, ∃ r ∈ (env.loop db st users).tx.rows, r.2.username = env.formatUsername u.2.username := by
  induction users generalizing st with
  | nil => exact ⟨rfl, fun u hu => absurd hu List.not_mem_nil⟩
  | cons u users ih =>
    obtain ⟨hhead, hnames⟩ := List.nodup_cons.mp hnames
    obtain ⟨hfresh, hhashed, hinserted⟩ := hall u List.mem_cons_self
    obtain ⟨new, hnew, htx, hcount⟩ := batchStep_creates hfresh hhashed hinserted (hunique u List.mem_cons_self)
    have htx' : (env.batchStep db st u).tx = st.tx.insert new := htx
    have hcount' : (env.batchStep db st u).successCount = st.successCount + 1 := hcount
    have hrest : ∀ u' ∈ users, ∀ r ∈ (env.batchStep db st u).tx.rows,
        r.2.username ≠ env.formatUsername u'.2.username := by
      intro u' hu' r hr
      rw [htx'] at hr
      rcases Table.mem_insert.mp hr with hr | rfl
      · exact hunique u' (List.mem_cons_of_mem _ hu') r hr
      · rw [hnew.username]
        exact fun heq => hhead (List.mem_map.mpr ⟨u', hu', heq.symm⟩)
    obtain ⟨hsum, hrows⟩ := ih hnames hrest fun u' hu' => hall u' (List.mem_cons_of_mem _ hu')
    rw [loop_cons, List.length_cons]
    refine ⟨by omega, fun u' hu' => ?_⟩
    rcases List.mem_cons.mp hu' with rfl | hu'
    · refine ⟨(st.tx.next, new), mem_loop_of_mem ?_, hnew.username⟩
      rw [htx']
      exact Table.mem_insert.mpr (.inr rfl)
    · exact hrows u' hu'

/-! ## The request -/

/-- The users that are to be created. -/
def batchUsers (env : BatchEnv) (f : QuickBatchUserCreateForm) : List (ℕ × BatchUser) :=
  (List.range' 1 f.count).map fun i => (i, f.user i (env.randomNumericPassword i f.passwordLength))

/-- The pairs that are written down. -/
def userPasswords (env : BatchEnv) (f : QuickBatchUserCreateForm) : List (List Char × List Char) :=
  (List.range' 1 f.count).map fun i => (f.username i, env.randomNumericPassword i f.passwordLength)

theorem quickBatchCreate_eq (env : BatchEnv) (db : Table BatchUser) {f : QuickBatchUserCreateForm}
    (hf : f.valid = true) :
    ∃ r, env.quickBatchCreate db f = ((env.batchCreate db (env.batchUsers f)).1, some r) ∧
      r.successCount = (env.batchCreate db (env.batchUsers f)).2.1 ∧ r.users = env.userPasswords f := by
  rw [quickBatchCreate, if_neg (not_not.mpr hf)]
  exact ⟨_, rfl, rfl, rfl⟩

/-- Without an error of the commit. -/
theorem batchCreate_of_committed (db : Table BatchUser) (users : List (ℕ × BatchUser)) (h : env.commitError = none) :
    (env.batchCreate db users).2.1 = (env.loop db ⟨db, 0, []⟩ users).successCount ∧
      (0 < (env.loop db ⟨db, 0, []⟩ users).successCount →
        (env.batchCreate db users).1 = (env.loop db ⟨db, 0, []⟩ users).tx) := by
  rw [batchCreate, ← loop]
  by_cases hpos : 0 < (env.loop db ⟨db, 0, []⟩ users).successCount
  · rw [if_pos hpos, h]
    exact ⟨rfl, fun _ => rfl⟩
  · rw [if_neg hpos]
    exact ⟨rfl, fun h' => absurd h' hpos⟩

/-- What is counted is in the table. -/
theorem batchCreate_of_counted (h : 0 < (env.batchCreate db users).2.1) :
    env.commitError = none ∧ (env.batchCreate db users).1 = (env.loop db ⟨db, 0, []⟩ users).tx ∧
      (env.batchCreate db users).2.1 = (env.loop db ⟨db, 0, []⟩ users).successCount := by
  cases hcommit : env.commitError with
  | none =>
    obtain ⟨hcount, htx⟩ := batchCreate_of_committed db users hcommit
    rw [hcount] at h
    exact ⟨rfl, htx h, hcount⟩
  | some err =>
    rw [batchCreate, ← loop, hcommit] at h
    split at h
    · cases h
    · next hnot => exact absurd h hnot

/-- **The users who were there are as they were**, whatever fails. -/
theorem mem_quickBatchCreate (f : QuickBatchUserCreateForm) (h : row ∈ db.rows) :
    row ∈ (env.quickBatchCreate db f).1.rows := by
  by_cases hf : f.valid = true
  · obtain ⟨r, hr, -, -⟩ := quickBatchCreate_eq env db hf
    rw [hr]
    rw [batchCreate, ← loop]
    split
    · split
      · exact h
      · exact mem_loop_of_mem h
    · exact h
  · rw [quickBatchCreate, if_pos hf]
    exact h

/-- A password is accepted for the hash of its user. -/
theorem infoByUsernamePassword_isSome {db' : Table BatchUser} {name input : List Char} {i : ℕ}
    (hrow : db'.first (fun r => r.2.username = name) = some row)
    (hhash : env.encryptPassword i input = .ok row.2.password) (call : ℕ) :
    (env.infoByUsernamePassword db' call name input).1.isSome := by
  have hverify : env.verifyPassword call row.2.password input = .ok (true, []) := by
    rw [verifyPassword, env.bcrypt.compare hhash, if_pos rfl]
  rw [infoByUsernamePassword, hrow]
  dsimp only
  rw [hverify]
  rfl

theorem infoByUsernamePassword_none {db' : Table BatchUser} {name input : List Char} {call : ℕ}
    (h : (env.infoByUsernamePassword db' call name input).1.isSome) : ∃ row ∈ db'.rows, row.2.username = name := by
  rw [infoByUsernamePassword] at h
  cases hfirst : db'.first fun r => r.2.username = name with
  | none =>
    rw [hfirst] at h
    cases h
  | some row => exact ⟨row, Table.mem_of_first hfirst, by simpa using Table.first_sat hfirst⟩

theorem mem_batchUsers {f : QuickBatchUserCreateForm} {u : ℕ × BatchUser} : u ∈ env.batchUsers f ↔
      ∃ i ∈ List.range' 1 f.count, (i, f.user i (env.randomNumericPassword i f.passwordLength)) = u := List.mem_map

theorem length_batchUsers (f : QuickBatchUserCreateForm) : (env.batchUsers f).length = f.count := by
  rw [batchUsers, List.length_map, List.length_range']

end BatchEnv

open BatchEnv in
/-- What is written down works if nothing goes wrong. -/
theorem AllCreated.credentialsWork {env : BatchEnv} {db : Table BatchUser} {f : QuickBatchUserCreateForm}
    (hf : f.valid = true) (h : AllCreated env db f) : CredentialsWork env db f := by
  have hname : ∀ i, env.formatUsername (f.username i) = f.username i := fun i =>
    (formatUsername_username_iff env i).mpr h.plain
  have hnames : ((env.batchUsers f).map fun u => env.formatUsername u.2.username).Nodup := by
    rw [batchUsers, List.map_map]
    refine (List.nodup_range').map fun i j hij => @username_injective f i j ?_
    simpa [hname, QuickBatchUserCreateForm.user] using hij
  have hall : ∀ u ∈ env.batchUsers f, isUsernameExists db u.2.username = false ∧
      (env.encryptPassword u.1 u.2.password).isOk ∧ env.insertError u.1 = none := by
    intro u hu
    obtain ⟨i, hi, rfl⟩ := mem_batchUsers.mp hu
    exact ⟨h.fresh i hi, h.hashed i hi, h.inserted i hi⟩
  have hunique : ∀ u ∈ env.batchUsers f, ∀ r ∈ db.rows, r.2.username ≠ env.formatUsername u.2.username := by
    intro u hu
    obtain ⟨i, hi, rfl⟩ := mem_batchUsers.mp hu
    show ∀ r ∈ db.rows, r.2.username ≠ env.formatUsername (f.username i)
    rw [hname]
    exact isUsernameExists_eq_false.mp (h.fresh i hi)
  have hstart : ∀ u ∈ env.batchUsers f, ∀ r ∈ (⟨db, 0, []⟩ : BatchState).tx.rows,
      r.2.username ≠ env.formatUsername u.2.username := hunique
  obtain ⟨hcount, hrows⟩ := loop_creates hnames hstart hall
  obtain ⟨hcounted, htx⟩ := batchCreate_of_committed db (env.batchUsers f) h.committed
  have hpos : 0 < f.count := by
    simp only [QuickBatchUserCreateForm.valid, decide_eq_true_eq] at hf
    omega
  rw [length_batchUsers, Nat.zero_add] at hcount
  specialize htx (by omega)
  obtain ⟨r, hr, hsuccess, husers⟩ := quickBatchCreate_eq env db hf
  refine ⟨?_, ?_, fun row hrow => mem_quickBatchCreate f hrow⟩
  · intro r' hr' up hup call
    rw [hr] at hr' ⊢
    obtain rfl := Option.some_inj.mp hr'
    rw [husers] at hup
    obtain ⟨i, hi, rfl⟩ := List.mem_map.mp hup
    -- the row of the name is the one that was made for it
    obtain ⟨new, hnew, hnewname⟩ := hrows _ (mem_batchUsers.mpr ⟨i, hi, rfl⟩)
    have hsome : ((env.loop db ⟨db, 0, []⟩ (env.batchUsers f)).tx.first fun r =>
        r.2.username = f.username i).isSome :=
      Table.first_isSome.mpr ⟨new, hnew, decide_eq_true (hnewname.trans (hname i))⟩
    obtain ⟨row, hrow⟩ := Option.isSome_iff_exists.mp hsome
    have hrowname : row.2.username = f.username i := by simpa using Table.first_sat hrow
    rw [htx]
    refine infoByUsernamePassword_isSome hrow ?_ call (i := i)
    rcases mem_loop (Table.mem_of_first hrow) with hold | ⟨u, hu, hformat, hhash⟩
    · exact absurd hrowname (isUsernameExists_eq_false.mp (h.fresh i hi) row hold)
    · obtain ⟨j, hj, rfl⟩ := mem_batchUsers.mp hu
      have hsame : f.username j = f.username i := (hname j).symm.trans (hformat.symm.trans hrowname)
      rw [username_injective hsame] at hhash
      exact hhash
  · intro r' hr'
    rw [hr] at hr'
    obtain rfl := Option.some_inj.mp hr'
    rw [hsuccess, husers, hcounted, hcount, userPasswords, List.length_map, List.length_range']

open BatchEnv in
/-- **Exported credentials work** just if nothing goes wrong. -/
theorem credentialsWork_iff (env : BatchEnv) (db : Table BatchUser) (f : QuickBatchUserCreateForm) :
    CredentialsWork env db f ↔ (f.valid = true → AllCreated env db f) := by
  constructor
  · intro h hf
    have hpos : 0 < f.count := by
      simp only [QuickBatchUserCreateForm.valid, decide_eq_true_eq] at hf
      omega
    obtain ⟨r, hr, hsuccess, husers⟩ := quickBatchCreate_eq env db hf
    have hsome : (env.quickBatchCreate db f).2 = some r := by rw [hr]
    have hcount : (env.batchCreate db (env.batchUsers f)).2.1 = f.count := by
      rw [← hsuccess, h.counted r hsome, husers, userPasswords, List.length_map, List.length_range']
    have hcounted : 0 < (env.batchCreate db (env.batchUsers f)).2.1 := by omega
    obtain ⟨hcommitted, htx, hloop⟩ := batchCreate_of_counted hcounted
    have hfull : (env.loop db ⟨db, 0, []⟩ (env.batchUsers f)).successCount = 0 + (env.batchUsers f).length := by
      rw [← hloop, hcount, length_batchUsers, Nat.zero_add]
    have hall := successCount_loop.2 hfull
    have hfresh : ∀ i ∈ List.range' 1 f.count, isUsernameExists db (f.username i) = false := fun i hi =>
      (hall _ (mem_batchUsers.mpr ⟨i, hi, rfl⟩)).1
    refine ⟨?_, hfresh, fun i hi => (hall _ (mem_batchUsers.mpr ⟨i, hi, rfl⟩)).2.1,
      fun i hi => (hall _ (mem_batchUsers.mpr ⟨i, hi, rfl⟩)).2.2, hcommitted⟩
    -- the first name is that of a row, which is formatted
    have hone : 1 ∈ List.range' 1 f.count := List.mem_range'_1.mpr ⟨le_rfl, by omega⟩
    have hup : (f.username 1, env.randomNumericPassword 1 f.passwordLength) ∈ r.users := by
      rw [husers]
      exact List.mem_map.mpr ⟨1, hone, rfl⟩
    have haccepted := h.accepted r hsome _ hup 0
    obtain ⟨row, hrow, hname⟩ := infoByUsernamePassword_none haccepted
    rw [hr] at hrow
    rw [htx] at hrow
    rcases mem_loop hrow with hold | ⟨u, -, hformat, -⟩
    · exact absurd hname (isUsernameExists_eq_false.mp (hfresh 1 hone) row hold)
    · have hformat' : env.formatUsername u.2.username = f.username 1 := hformat.symm.trans hname
      rw [← formatUsername_username_iff env 1, ← hformat', formatUsername_formatUsername]
  · intro h
    by_cases hf : f.valid = true
    · exact (h hf).credentialsWork hf
    · have hnone : env.quickBatchCreate db f = (db, none) := by rw [quickBatchCreate, if_pos hf]
      rw [Bool.not_eq_true] at hf
      refine ⟨fun r hr => ?_, fun r hr => ?_, fun row hrow => mem_quickBatchCreate f hrow⟩
      · rw [hnone] at hr
        cases hr
      · rw [hnone] at hr
        cases hr

/-- A hash is the password behind a dollar sign. -/
def sampleBcrypt : Bcrypt where
  generateFromPassword _ password := .ok ('$' :: password)
  compareHashAndPassword hash input := if hash = '$' :: input then .ok () else .error .mismatch
  compare := by
    intro call password hash h input
    cases h
    by_cases hsame : input = password
    · rw [if_pos hsame, hsame, if_pos rfl]
    · rw [if_neg hsame, if_neg fun heq => hsame (List.cons.inj heq).2.symm]

/-- Of the capitals there is only one. -/
def sampleRunes : RuneCase where
  toLower c := if c = 'S' then 's' else c
  toLower_toLower c := by
    by_cases h : c = 'S'
    · rw [if_pos h, if_neg (by decide)]
    · rw [if_neg h, if_neg h]
  eq_blank c h := by
    split at h
    · cases h
    · exact h
  toLower_digit c h := by
    refine if_neg ?_
    rintro rfl
    cases h

def sampleBatchEnv : BatchEnv where
  bcrypt := sampleBcrypt
  runes := sampleRunes
  md5 := id
  random _ n := some (List.replicate n 0)
  insertError _ := none
  commitError := none

def staffForm : QuickBatchUserCreateForm := ⟨1, "Staff".toList, 6, 1, 1, 30, 10⟩

/-- The user `staff1` is created, and `Staff1` is written down. -/
theorem not_credentialsWork_capital : ¬ CredentialsWork sampleBatchEnv Table.empty staffForm := by
  intro h
  have hcreated : (sampleBatchEnv.quickBatchCreate Table.empty staffForm).2.map (·.users) =
      some [("Staff1".toList, "000000".toList)] := rfl
  obtain ⟨r, hr, husers⟩ := Option.map_eq_some_iff.mp hcreated
  have haccepted := h.accepted r hr ("Staff1".toList, "000000".toList) (husers ▸ List.mem_singleton_self _) 0
  have hrefused : (sampleBatchEnv.infoByUsernamePassword (sampleBatchEnv.quickBatchCreate Table.empty staffForm).1 0
      "Staff1".toList "000000".toList).1.isSome = false := by decide
  rw [hrefused] at haccepted
  cases haccepted

end RustDesk.Api
