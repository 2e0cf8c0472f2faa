import RustDesk.Api.MemoryCache
import RustDesk.Api.Oauth

/-!
# Revoked tokens

References: `rustdesk-api/http/middleware/rustauth.go`, `http/middleware/admin.go`, `service/user.go`
(`InfoByAccessToken` to `Login`, `Logout`, `Delete`, `FlushToken` to `UpdatePassword`,
`UserTokenExpireTimestamp` to `VerifyJWT`), `http/controller/admin/userToken.go`.

A token is good because of its row or, where a key for signatures is set, because of its signature. To revoke
a token is to delete its row, and `RustAuth` looks at the signature first. Two logins of a user in one second
give one signed token twice, so that the deletion of one row may leave another. `refuses_agrees_iff` says when
a revoked token is refused and the two middlewares agree.
-/

namespace RustDesk.Api

/-- `model.UserToken`, without the id of the device. `expiredAt` is in seconds. -/
structure UserToken where
  userId : ℕ
  deviceUuid : String
  token : GoString
  expiredAt : ℤ
deriving DecidableEq

/-- `Jwt`, `Config.App.TokenExpire` and what they are used with. Times are in nanoseconds. `sign` and
`verifyJWT` are `GenerateToken` and `ParseToken` with the key, 0 for an error. -/
structure TokenConfig where
  jwtKey : GoString
  tokenExpire : ℤ
  sign : GoString → ℕ → ℤ → GoString
  verifyJWT : GoString → ℤ → GoString → ℕ
  md5 : GoString → GoString
  timeString : ℤ → GoString
  addDays : ℤ → ℤ → ℤ

/-- `Unix`. -/
def unix (t : ℤ) : ℤ := t / 1_000_000_000

/-- The headers of a request. -/
structure AuthHeaders where
  authorization : GoString
  apiToken : GoString
deriving DecidableEq

/-- The token that `RustAuth` takes, behind `Bearer ` or from the web portal. -/
def AuthHeaders.rustToken (c : AuthHeaders) : GoString :=
  if c.authorization ≠ [] ∧ 7 < c.authorization.length then c.authorization.drop 7 else c.apiToken

namespace TokenConfig

variable (cfg : TokenConfig)

def generateToken (userId : ℕ) (username : GoString) (now : ℤ) : GoString :=
  if 0 < cfg.jwtKey.length then cfg.sign cfg.jwtKey userId now
  else cfg.md5 (username ++ cfg.timeString now)

def userTokenExpireTimestamp (now : ℤ) : ℤ :=
  -- the seven days of the comment are as many nanoseconds as they have seconds
  let exp := if cfg.tokenExpire = 0 then 604800 else cfg.tokenExpire
  unix (now + exp)

/-- How near its end a row is refreshed. `Milliseconds` and the division round towards 0. -/
def refreshWindow : ℤ := (cfg.tokenExpire.tdiv 1_000_000).tdiv 3000

end TokenConfig

/-- The tables, the time, and which tokens were revoked and not issued again. -/
structure Tokens where
  users : Table Account
  tokens : Table UserToken
  now : ℤ
  revoked : GoString → Bool

/-- A request, or what changes the tables. `login` has the user as it was read, and whether its row is
written. `DeleteToken` is `BatchDeleteUserToken` of one id. -/
inductive TokenEvent
  | login (userId : ℕ) (username : GoString) (deviceUuid : String) (ok : Bool)
  | rustAuth (c : AuthHeaders)
  | backendUserAuth (c : AuthHeaders)
  | logout (userId : ℕ) (token : GoString)
  | updatePassword (userId : ℕ)
  | flushToken (userId : ℕ)
  | flushTokenByUuid (uuid : String)
  | flushTokenByUuids (uuids : List String)
  | batchDeleteUserToken (ids : List ℕ)
  | deleteUser (userId : ℕ)
  | createUser (account : Account)
  | setUser (userId : ℕ) (account : Account)
  | tick (now : ℤ)
deriving DecidableEq

namespace Tokens

/-! ## Requests -/

section Requests

variable (cfg : TokenConfig) (s : Tokens)

/-- Before the first login. -/
def new : Tokens := ⟨.empty, .empty, 0, fun _ => false⟩

def infoById (userId : ℕ) : Option (ℕ × Account) := s.users.first fun r => r.1 = userId

def infoByAccessToken (token : GoString) : Option (ℕ × Account) × Option (ℕ × UserToken) :=
  match s.tokens.first fun r => r.2.token = token with
  | none => (none, none)
  | some ut => if ut.2.expiredAt < unix s.now then (none, some ut) else (s.infoById ut.2.userId, some ut)

def refreshAccessToken (ut : ℕ × UserToken) : Tokens :=
  { s with
    tokens := s.tokens.update (fun r => r.1 = ut.1) fun r =>
      { r with expiredAt := cfg.userTokenExpireTimestamp s.now } }

def autoRefreshAccessToken (ut : ℕ × UserToken) : Tokens :=
  if ut.2.expiredAt - unix s.now < cfg.refreshWindow then s.refreshAccessToken cfg ut else s

/-- What both middlewares do with a token that its row has to speak for. -/
def accessByRow (token : GoString) : Option (ℕ × Account) × Tokens :=
  match s.infoByAccessToken token with
  | (some u, some ut) =>
    if checkUserEnable cfg.addDays s.now u.2 then (some u, s.autoRefreshAccessToken cfg ut) else (none, s)
  | _ => (none, s)

/-- The user whom the signature of a token names, if he is enabled. -/
def signedUser (token : GoString) : Option (ℕ × Account) :=
  if 0 < cfg.jwtKey.length then
    let uid := cfg.verifyJWT cfg.jwtKey s.now token
    if uid ≠ 0 then (s.infoById uid).filter fun u => checkUserEnable cfg.addDays s.now u.2 else none
  else none

/-- `RustAuth`: the user who goes on, if any. -/
def rustAuth (c : AuthHeaders) : Option (ℕ × Account) × Tokens :=
  let token := c.rustToken
  if token = [] then (none, s)
  else
    match s.signedUser cfg token with
    | some u => (some u, s)
    | none => s.accessByRow cfg token

/-- `BackendUserAuth`: the user who goes on, if any. -/
def backendUserAuth (c : AuthHeaders) : Option (ℕ × Account) × Tokens :=
  let token := c.apiToken
  if token = [] then (none, s) else s.accessByRow cfg token

end Requests

/-! ## Steps -/

/-- The tokens of these rows are revoked. -/
def revoke (s : Tokens) (p : ℕ × UserToken → Bool) : Tokens :=
  { s with revoked := fun token => s.revoked token || s.tokens.rows.any fun r => p r && r.2.token = token }

/-- `Delete(&model.UserToken{})` where `p`. -/
def deleteTokens (s : Tokens) (p : ℕ × UserToken → Bool) : Tokens :=
  { s.revoke p with tokens := s.tokens.delete p }

def login (cfg : TokenConfig) (s : Tokens) (userId : ℕ) (username : GoString) (deviceUuid : String)
    (ok : Bool) : Tokens :=
  let token := cfg.generateToken userId username s.now
  let row := ⟨userId, deviceUuid, token, cfg.userTokenExpireTimestamp s.now⟩
  { s with
    tokens := if ok then s.tokens.insert row else s.tokens
    revoked := Function.update s.revoked token false }

def logout (s : Tokens) (userId : ℕ) (token : GoString) : Tokens :=
  s.deleteTokens fun r => r.2.userId = userId && r.2.token = token

def flushToken (s : Tokens) (userId : ℕ) : Tokens := s.deleteTokens fun r => r.2.userId = userId

/-- `UpdatePassword`, without the password. -/
def updatePassword (s : Tokens) (userId : ℕ) : Tokens := s.flushToken userId

def flushTokenByUuid (s : Tokens) (uuid : String) : Tokens :=
  s.deleteTokens fun r => r.2.deviceUuid = uuid

def flushTokenByUuids (s : Tokens) (uuids : List String) : Tokens :=
  s.deleteTokens fun r => uuids.contains r.2.deviceUuid

def batchDeleteUserToken (s : Tokens) (ids : List ℕ) : Tokens :=
  s.deleteTokens fun r => ids.contains r.1

/-- `Delete`. The rows of the user's tokens stay. -/
def deleteUser (s : Tokens) (userId : ℕ) : Tokens :=
  { s.revoke fun r => (s.infoById userId).isSome && r.2.userId = userId with
    users := s.users.delete fun r => r.1 = userId }

def step (cfg : TokenConfig) (s : Tokens) : TokenEvent → Option Tokens
  | .login userId username deviceUuid ok => some (s.login cfg userId username deviceUuid ok)
  | .rustAuth c => some (s.rustAuth cfg c).2
  | .backendUserAuth c => some (s.backendUserAuth cfg c).2
  | .logout userId token => some (s.logout userId token)
  | .updatePassword userId => some (s.updatePassword userId)
  | .flushToken userId => some (s.flushToken userId)
  | .flushTokenByUuid uuid => some (s.flushTokenByUuid uuid)
  | .flushTokenByUuids uuids => some (s.flushTokenByUuids uuids)
  | .batchDeleteUserToken ids => some (s.batchDeleteUserToken ids)
  | .deleteUser userId => some (s.deleteUser userId)
  | .createUser account => some { s with users := s.users.insert account }
  | .setUser userId account =>
    some { s with users := s.users.update (fun r => r.1 = userId) fun _ => account }
  | .tick now => some { s with now := now }

/-! ## What is asked of a token -/

/-- Neither middleware lets a request with the token through. -/
def Refuses (cfg : TokenConfig) (s : Tokens) (token : GoString) : Prop :=
  ∀ c : AuthHeaders, (c.rustToken = token → (s.rustAuth cfg c).1 = none) ∧
    (c.apiToken = token → (s.backendUserAuth cfg c).1 = none)

/-- The middlewares let the same requests with the token through. -/
def Agrees (cfg : TokenConfig) (s : Tokens) (token : GoString) : Prop :=
  ∀ c c' : AuthHeaders, c.rustToken = token → c'.apiToken = token →
    ((s.rustAuth cfg c).1.isSome ↔ (s.backendUserAuth cfg c').1.isSome)

/-- The first row of the token has not run out, and its user is there and enabled. -/
def RowSpeaks (cfg : TokenConfig) (s : Tokens) (token : GoString) : Prop :=
  ∃ ut u, s.tokens.first (fun r => r.2.token = token) = some ut ∧ unix s.now ≤ ut.2.expiredAt ∧
    s.infoById ut.2.userId = some u ∧ checkUserEnable cfg.addDays s.now u.2 = true

/-- A key is set, and the signature of the token names a user who is there and enabled. -/
def SignatureSpeaks (cfg : TokenConfig) (s : Tokens) (token : GoString) : Prop :=
  token ≠ [] ∧ cfg.jwtKey ≠ [] ∧ cfg.verifyJWT cfg.jwtKey s.now token ≠ 0 ∧
    ∃ u, s.infoById (cfg.verifyJWT cfg.jwtKey s.now token) = some u ∧
      checkUserEnable cfg.addDays s.now u.2 = true

/-- The rows whose tokens a step revokes. -/
def revokes (s : Tokens) : TokenEvent → ℕ × UserToken → Bool
  | .logout userId token, r => r.2.userId = userId && r.2.token = token
  | .updatePassword userId, r | .flushToken userId, r => r.2.userId = userId
  | .flushTokenByUuid uuid, r => r.2.deviceUuid = uuid
  | .flushTokenByUuids uuids, r => uuids.contains r.2.deviceUuid
  | .batchDeleteUserToken ids, r => ids.contains r.1
  | .deleteUser userId, r => (s.infoById userId).isSome && r.2.userId = userId
  | _, _ => false

/-- Where a step revokes the token of one row, it does so for every row with that token. -/
def Whole (s : Tokens) (e : TokenEvent) : Prop :=
  ∀ r ∈ s.tokens.rows, s.revokes e r → ∀ r' ∈ s.tokens.rows, r'.2.token = r.2.token → s.revokes e r'

/-- The rows that a revoked token still has belong to users who are gone. -/
def Sound (s : Tokens) : Prop :=
  ∀ token, s.revoked token → ∀ r ∈ s.tokens.rows, r.2.token = token →
    r.2.userId < s.users.next ∧ ∀ u ∈ s.users.rows, u.1 ≠ r.2.userId

/-! ## The two ways in -/

section Access

variable {cfg : TokenConfig} {s : Tokens} {token : GoString}

theorem accessByRow_isSome : (s.accessByRow cfg token).1.isSome ↔ s.RowSpeaks cfg token := by
  unfold accessByRow infoByAccessToken RowSpeaks
  cases hut : s.tokens.first fun r => r.2.token = token with
  | none => simp
  | some ut =>
    by_cases hlate : ut.2.expiredAt < unix s.now
    · simp [hlate]
    · cases hu : s.infoById ut.2.userId with
      | none => simp [hlate, hu]
      | some u =>
        obtain ⟨userId, account⟩ := u
        have hintime : unix s.now ≤ ut.2.expiredAt := by omega
        by_cases henabled : checkUserEnable cfg.addDays s.now account = true
        · simp [hlate, hu, henabled, hintime]
        · simp [hlate, hu, henabled]

theorem signedUser_isSome (hne : token ≠ []) : (s.signedUser cfg token).isSome ↔ s.SignatureSpeaks cfg token := by
  unfold signedUser SignatureSpeaks
  by_cases hkey : cfg.jwtKey = []
  · simp [hkey]
  · have hpos : 0 < cfg.jwtKey.length := List.length_pos_of_ne_nil hkey
    by_cases huid : cfg.verifyJWT cfg.jwtKey s.now token = 0
    · simp [hpos, huid]
    · cases hu : s.infoById (cfg.verifyJWT cfg.jwtKey s.now token) with
      | none => simp [hpos, huid, hu]
      | some u =>
        obtain ⟨userId, account⟩ := u
        simp [hpos, huid, hne, hkey, hu]

theorem rustAuth_isSome (c : AuthHeaders) (hc : c.rustToken = token) : (s.rustAuth cfg c).1.isSome ↔
      s.SignatureSpeaks cfg token ∨ token ≠ [] ∧ s.RowSpeaks cfg token := by
  unfold rustAuth
  rw [hc]
  by_cases hne : token = []
  · simp [hne, SignatureSpeaks]
  · rw [if_neg hne, ← signedUser_isSome hne]
    cases s.signedUser cfg token with
    | none => simp [hne, accessByRow_isSome]
    | some u => simp

theorem backendUserAuth_isSome (c : AuthHeaders) (hc : c.apiToken = token) :
    (s.backendUserAuth cfg c).1.isSome ↔ token ≠ [] ∧ s.RowSpeaks cfg token := by
  unfold backendUserAuth
  rw [hc]
  by_cases hne : token = []
  · simp [hne]
  · rw [if_neg hne, accessByRow_isSome]
    simp [hne]

/-- The middlewares agree unless the signature alone speaks for the token. -/
theorem agrees_iff : s.Agrees cfg token ↔ ¬ (s.SignatureSpeaks cfg token ∧ ¬ s.RowSpeaks cfg token) := by
  constructor
  · rintro h ⟨hsigned, hrow⟩
    -- the token behind no `Authorization`
    have hrust : (s.rustAuth cfg ⟨[], token⟩).1.isSome := (rustAuth_isSome ⟨[], token⟩ rfl).mpr (.inl hsigned)
    have hbackend := (h ⟨[], token⟩ ⟨[], token⟩ rfl rfl).mp hrust
    exact hrow ((backendUserAuth_isSome _ rfl).mp hbackend).2
  · intro h c c' hc hc'
    rw [rustAuth_isSome c hc, backendUserAuth_isSome c' hc']
    constructor
    · rintro (hsigned | hrow)
      · exact ⟨hsigned.1, not_not.mp fun hrow => h ⟨hsigned, hrow⟩⟩
      · exact hrow
    · exact .inr

theorem refuses_of_not (hsigned : ¬ s.SignatureSpeaks cfg token) (hrow : ¬ s.RowSpeaks cfg token) :
    s.Refuses cfg token := by
  refine fun c => ⟨fun hc => ?_, fun hc => ?_⟩
  · rw [← Option.not_isSome_iff_eq_none, rustAuth_isSome c hc]
    rintro (h | h)
    · exact hsigned h
    · exact hrow h.2
  · rw [← Option.not_isSome_iff_eq_none, backendUserAuth_isSome c hc]
    exact fun h => hrow h.2

/-- No row speaks for a revoked token. -/
theorem Sound.not_rowSpeaks (hs : s.Sound) (hrevoked : s.revoked token) : ¬ s.RowSpeaks cfg token := by
  rintro ⟨ut, u, hut, -, hu, -⟩
  have htoken : ut.2.token = token := by simpa using Table.first_sat hut
  refine (hs token hrevoked ut (Table.mem_of_first hut) htoken).2 u (Table.mem_of_first hu) ?_
  simpa [infoById] using Table.first_sat hu

end Access

/-! ## Every step -/

section Steps

variable {cfg : TokenConfig} {s t : Tokens}

theorem new_sound : Sound new := nofun

section

variable (hs : s.Sound)
include hs

/-- A step after which the rows have the tokens and users that they had, and the users are as they were. -/
theorem Sound.of_rows (husers : t.users = s.users) (hrevoked : t.revoked = s.revoked)
    (hrows : ∀ r ∈ t.tokens.rows, ∃ r' ∈ s.tokens.rows, r'.2.token = r.2.token ∧ r'.2.userId = r.2.userId) :
    t.Sound := by
  intro token htoken r hr hrtoken
  obtain ⟨r', hr', htoken', huser'⟩ := hrows r hr
  rw [hrevoked] at htoken
  rw [husers, ← huser']
  exact hs token htoken r' hr' (htoken'.trans hrtoken)

theorem Sound.accessByRow (token : GoString) : (s.accessByRow cfg token).2.Sound := by
  have hrefresh : ∀ ut, (s.autoRefreshAccessToken cfg ut).Sound := by
    intro ut
    unfold autoRefreshAccessToken
    split
    · refine hs.of_rows rfl rfl fun r hr => ?_
      obtain ⟨r', hr', rfl⟩ := Table.mem_update.mp hr
      refine ⟨r', hr', ?_⟩
      unfold Table.updateRow
      split <;> exact ⟨rfl, rfl⟩
    · exact hs
  unfold Tokens.accessByRow
  split
  · split
    · exact hrefresh _
    · exact hs
  · exact hs

theorem Sound.login (userId : ℕ) (username : GoString) (deviceUuid : String) (ok : Bool) :
    (s.login cfg userId username deviceUuid ok).Sound := by
  intro token hrevoked r hr htoken
  replace hrevoked :
    Function.update s.revoked (cfg.generateToken userId username s.now) false token = true := hrevoked
  have hother : token ≠ cfg.generateToken userId username s.now := by
    rintro rfl
    rw [Function.update_self] at hrevoked
    cases hrevoked
  rw [Function.update_of_ne hother] at hrevoked
  have hmem : r ∈ s.tokens.rows := by
    cases ok with
    | false => exact hr
    | true =>
      rcases Table.mem_insert.mp hr with hr | rfl
      · exact hr
      · exact absurd htoken.symm hother
  exact hs token hrevoked r hmem htoken

/-- Rows that are deleted, with every row of their tokens. -/
theorem Sound.deleteTokens {p : ℕ × UserToken → Bool}
    (hwhole : ∀ r ∈ s.tokens.rows, p r → ∀ r' ∈ s.tokens.rows, r'.2.token = r.2.token → p r') :
    (s.deleteTokens p).Sound := by
  intro token hrevoked r hr htoken
  obtain ⟨hmem, hkept⟩ := List.mem_filter.mp hr
  rcases (Bool.or_eq_true _ _).mp hrevoked with hrevoked | hnow
  · exact hs token hrevoked r hmem htoken
  · obtain ⟨r', hr', hp⟩ := List.any_eq_true.mp hnow
    rw [Bool.and_eq_true, decide_eq_true_iff] at hp
    have := hwhole r' hr' hp.1 r hmem (htoken.trans hp.2.symm)
    simp [this] at hkept

theorem Sound.deleteUser {userId : ℕ} (hwhole : s.Whole (.deleteUser userId)) : (s.deleteUser userId).Sound := by
  intro token hrevoked r hr htoken
  rcases (Bool.or_eq_true _ _).mp hrevoked with hrevoked | hnow
  · obtain ⟨hnext, hgone⟩ := hs token hrevoked r hr htoken
    exact ⟨hnext, fun u hu => hgone u (List.mem_filter.mp hu).1⟩
  · obtain ⟨r', hr', hp⟩ := List.any_eq_true.mp hnow
    rw [Bool.and_eq_true, decide_eq_true_iff] at hp
    have hr := hwhole r' hr' hp.1 r hr (htoken.trans hp.2.symm)
    simp only [revokes, Bool.and_eq_true, decide_eq_true_iff] at hr
    obtain ⟨hthere, rfl⟩ := hr
    obtain ⟨u, hu⟩ := Option.isSome_iff_exists.mp hthere
    have hid : u.1 = r.2.userId := by simpa using Table.first_sat hu
    refine ⟨hid ▸ s.users.given u (Table.mem_of_first hu), fun u' hu' => ?_⟩
    simpa using (List.mem_filter.mp hu').2

theorem Sound.step {e : TokenEvent} (hwhole : s.Whole e) (h : s.step cfg e = some t) : t.Sound := by
  cases e with
  | login userId username deviceUuid ok =>
    cases h
    exact hs.login userId username deviceUuid ok
  | rustAuth c =>
    cases h
    unfold Tokens.rustAuth
    dsimp only
    split
    · exact hs
    · split
      · exact hs
      · exact hs.accessByRow _
  | backendUserAuth c =>
    cases h
    unfold Tokens.backendUserAuth
    dsimp only
    split
    · exact hs
    · exact hs.accessByRow _
  | deleteUser userId =>
    cases h
    exact hs.deleteUser hwhole
  | createUser account =>
    cases h
    intro token hrevoked r hr htoken
    obtain ⟨hnext, hgone⟩ := hs token hrevoked r hr htoken
    refine ⟨Nat.lt_succ_of_lt hnext, fun u hu => ?_⟩
    rcases Table.mem_insert.mp hu with hu | rfl
    · exact hgone u hu
    · exact (Nat.ne_of_lt hnext).symm
  | setUser userId account =>
    cases h
    intro token hrevoked r hr htoken
    obtain ⟨hnext, hgone⟩ := hs token hrevoked r hr htoken
    refine ⟨hnext, fun u hu => ?_⟩
    obtain ⟨u', hu', rfl⟩ := Table.mem_update.mp hu
    rw [Table.updateRow_fst]
    exact hgone u' hu'
  | tick now =>
    cases h
    exact hs
  | _ =>
    cases h
    exact hs.deleteTokens hwhole

end

/-- **Revocation**: where every deletion takes all rows of a token, a revoked token is refused, and the
middlewares agree on every token, unless a signature alone speaks for it. -/
theorem refuses_agrees_iff {events : List TokenEvent}
    (hrun : Run (Only Whole (Steps (step cfg))) new events s) (token : GoString) :
    (s.revoked token → s.Refuses cfg token) ∧ s.Agrees cfg token ↔
      ¬ (s.SignatureSpeaks cfg token ∧ ¬ s.RowSpeaks cfg token) := by
  have hsound : s.Sound := Run.invariant (fun _ _ _ hs h => hs.step h.1 h.2) hrun new_sound
  rw [← agrees_iff]
  refine ⟨And.right, fun hagrees => ⟨fun hrevoked => ?_, hagrees⟩⟩
  have hrow : ¬ s.RowSpeaks cfg token := hsound.not_rowSpeaks hrevoked
  exact refuses_of_not (fun hsigned => agrees_iff.mp hagrees ⟨hsigned, hrow⟩) hrow

end Steps

/-! ## A logout, with a key and without -/

/-- Tokens that name their user, and end. -/
def exampleConfig (jwtKey : GoString) : TokenConfig where
  jwtKey := jwtKey
  tokenExpire := 100_000_000_000
  sign _ userId now := [UInt8.ofNat userId, UInt8.ofNat (unix now + 100).toNat]
  verifyJWT _ now token :=
    match token with
    | [userId, exp] => if unix now ≤ exp.toNat then userId.toNat else 0
    | _ => 0
  md5 text := text
  timeString now := [UInt8.ofNat (unix now).toNat]
  addDays t days := t + days

/-- User 1 logs in at second 5 and out again. -/
def loginLogout (token : GoString) : List TokenEvent :=
  [.createUser ⟨"a@example.org", statusEnable, false, -1, none⟩, .tick 5_000_000_000,
    .login 1 [97] "uuid" true, .rustAuth ⟨[], token⟩, .logout 1 token]

/-- User 1 logs in on two devices in one second, and the first login is deleted. -/
def twoLogins : List TokenEvent :=
  [.createUser ⟨"a@example.org", statusEnable, false, -1, none⟩, .tick 5_000_000_000,
    .login 1 [97] "uuid" true, .login 1 [97] "uuid2" true, .batchDeleteUserToken [1]]

theorem refuses_agrees_iff_logout : ∃ s, Run (Only Whole (Steps (step (exampleConfig [])))) new
      (loginLogout [97, 5]) s ∧ s.revoked [97, 5] = true ∧
    ((s.revoked [97, 5] → s.Refuses (exampleConfig []) [97, 5]) ∧ s.Agrees (exampleConfig []) [97, 5]) := by
  refine exists_and_and
    (fun _ hrun _ => (refuses_agrees_iff hrun [97, 5]).mpr fun h => h.1.2.1 rfl) ?_
  refine ⟨_, .cons ⟨?_, rfl⟩ <| .cons ⟨?_, rfl⟩ <| .cons ⟨?_, rfl⟩ <| .cons ⟨?_, rfl⟩ <|
    .cons ⟨?_, rfl⟩ <| .nil _, by decide⟩
  all_goals unfold Whole; decide

theorem logout_leaves_signature :
    (∃ s, Run (Steps (step (exampleConfig [1]))) new (loginLogout [1, 105]) s ∧
      s.revoked [1, 105] = true ∧ ¬ s.Refuses (exampleConfig [1]) [1, 105] ∧
      ¬ s.Agrees (exampleConfig [1]) [1, 105]) ∧
    ∃ s, Run (Steps (step (exampleConfig [1]))) new twoLogins s ∧ s.revoked [1, 105] = true ∧
      s.RowSpeaks (exampleConfig [1]) [1, 105] := by
  refine ⟨⟨_, .cons rfl <| .cons rfl <| .cons rfl <| .cons rfl <| .cons rfl <| .nil _, by decide, ?_, ?_⟩,
    ⟨_, .cons rfl <| .cons rfl <| .cons rfl <| .cons rfl <| .cons rfl <| .nil _, by decide, ?_⟩⟩
  · intro hrefuses
    have hnone := (hrefuses ⟨[], [1, 105]⟩).1 rfl
    revert hnone
    decide
  · intro hagrees
    have hsome := (hagrees ⟨[], [1, 105]⟩ ⟨[], [1, 105]⟩ rfl rfl).mp (by decide)
    revert hsome
    decide
  · exact ⟨_, _, rfl, by decide, rfl, by decide⟩

end Tokens

end RustDesk.Api
