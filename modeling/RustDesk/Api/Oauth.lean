import RustDesk.Api.Admins
import RustDesk.Common.Table

/-!
# Logging in through a provider

References: `rustdesk-api/http/controller/api/ouath.go` (`OidcAuth`, `OidcAuthQueryPre`, `OauthCallback`),
`http/controller/admin/oauth.go` (`ToBind`, `Confirm`, `BindConfirm`, `Unbind`), `service/oauth.go`
(`OauthCacheItem`, `GetOauthCache` to `BeginAuth`, `UserThirdInfo`, `BindOauthUser`) and `service/user.go`
(`CheckUserEnable`, `SetFirstLoginIfNeeded`, `Delete`, `InfoByOauthId`, `RegisterByOauth`).

A request is a phase. It goes on by one statement, one access to the cache or one to the item behind a
pointer at a time, and other requests come in between. All requests with a code share the item that the code
was begun with, also after its entry in the cache is gone. A read of the database that fails finds nothing.
The history of what happened is kept beside the state.
-/

namespace RustDesk.Api

/-- `model.OauthUser`, without the picture. -/
structure OauthUser where
  openId : String
  username : String
  name : String
  email : String
  verifiedEmail : Bool
deriving DecidableEq

/-- `OauthActionTypeLogin` and `OauthActionTypeBind`. -/
inductive OauthActionType
  | login
  | bind
deriving DecidableEq

/-- `OauthCacheItem`, without the device and what is only passed on to the provider. -/
structure OauthCacheItem where
  action : OauthActionType
  op : String
  userId : ℕ
  openId : String
  username : String
  name : String
  email : String
deriving DecidableEq

namespace OauthCacheItem

def toOauthUser (oci : OauthCacheItem) : OauthUser :=
  ⟨oci.openId, oci.username, oci.name, oci.email, false⟩

def updateFromOauthUser (oauthUser : OauthUser) (oci : OauthCacheItem) : OauthCacheItem :=
  { oci with
    openId := oauthUser.openId
    username := oauthUser.username
    name := oauthUser.name
    email := oauthUser.email }

end OauthCacheItem

/-- A row of the user table. -/
structure Account where
  email : String
  status : ℤ
  isAdmin : Bool
  validDays : ℤ
  firstLoginAt : Option ℤ
deriving DecidableEq

/-- `CheckUserEnable`. `addDays` is `AddDate(0, 0, days)`. -/
def checkUserEnable (addDays : ℤ → ℤ → ℤ) (now : ℤ) (u : Account) : Bool :=
  if u.status ≠ statusEnable then false
  else if u.isAdmin then true
  else if u.validDays = -1 then true
  else if u.validDays ≤ 0 then false
  else
    match u.firstLoginAt with
    | none => true
    | some firstLoginAt => now ≤ addDays firstLoginAt u.validDays

/-- A row of the table of bindings. Beside it stand the code through which it was made and, if the login
action bound it to an account that was there before, whether the provider had verified the e-mail address
and no other account had it. -/
structure UserThird where
  userId : ℕ
  op : String
  openId : String
  code : String
  linked : Option Bool
deriving DecidableEq

/-- What the LDAP directory says of an e-mail address. -/
inductive LdapAnswer
  | notFound
  | error
  | found (u : ℕ × Account)
  | created (account : Account)
deriving DecidableEq

/-- How the transaction of `RegisterByOauth` ends: no user, nothing committed, a user without the binding
(its error is ignored), or both rows. -/
inductive RegisterOutcome
  | failed
  | uncommitted
  | unbound
  | bound
deriving DecidableEq

/-- What happened: a code was begun, the provider returned an identity for it, the identity was bound to a
user or the user registered, a user confirmed the code, a query took it out of the cache, a token was issued
(beside it the row of its user then). -/
inductive OauthFact
  | begun (code : String) (action : OauthActionType)
  | returned (code : String) (oauthUser : OauthUser)
  | identified (code : String) (openId : String) (userId : ℕ)
  | confirmed (code : String) (userId : ℕ)
  | taken (code : String)
  | issued (code : String) (userId : ℕ) (row : Option Account) (now : ℤ)
deriving DecidableEq

/-- The id of a user that was looked for, 0 if there is none. -/
def userIdOf (u : Option (ℕ × Account)) : ℕ := (u.map (·.1)).getD 0

/-- Where a request stands. -/
inductive OauthPhase
  | idle
  | done
  | queryLoaded (code : String)
  | queryAuthed (code : String)
  | queryRead (code : String) (userId : ℕ)
  | queryFound (code : String) (u : Option (ℕ × Account))
  | queryMarked (code : String) (u : Option (ℕ × Account))
  | queryTaken (code : String) (u : Option (ℕ × Account))
  | toBindChecked (userId : ℕ) (op : String)
  | confirmLoaded (code : String) (userId : ℕ)
  | confirmWritten (code : String)
  | bindConfirmLoaded (code : String) (userId : ℕ)
  | bindConfirmRead (code : String) (userId : ℕ) (oauthUser : OauthUser) (op : String)
  | bindConfirmBound (code : String) (userId : ℕ)
  | bindConfirmWritten (code : String)
  | callbackLoaded (code : String) (action : OauthActionType) (op : String)
  | bindReturned (code : String) (op : String) (userId : ℕ) (oauthUser : OauthUser)
  | bindChecked (code : String) (op : String) (userId : ℕ) (oauthUser : OauthUser)
  | loginReturned (code : String) (op : String) (oauthUser : OauthUser)
  | loginBound (code : String) (op : String) (oauthUser : OauthUser) (userId : ℕ)
  | loginUnknown (code : String) (op : String) (oauthUser : OauthUser)
  | registerWaiting (code : String) (op : String) (oauthUser : OauthUser)
  | registerLocked (code : String) (op : String) (oauthUser : OauthUser)
  | registerBound (code : String) (oauthUser : OauthUser) (userId : ℕ)
  | registerUnbound (code : String) (op : String) (oauthUser : OauthUser)
  | registerLink (code : String) (op : String) (oauthUser : OauthUser) (u : ℕ × Account) (new : Bool)
  | registerNew (code : String) (op : String) (oauthUser : OauthUser)
  | registerCreated (code : String) (userId : ℕ)
  | loginUser (code : String) (u : Option (ℕ × Account))
  | loginWritten (code : String) (u : Option (ℕ × Account))
  | loginStored (u : Option (ℕ × Account))
deriving DecidableEq

/-- What the requests share: the tables, the items by their code, the keys of the cache, the lock of
`RegisterByOauth`, the time and the history, the latest first. -/
structure OauthShared where
  users : Table Account
  thirds : Table UserThird
  items : String → Option OauthCacheItem
  cached : String → Bool
  locked : Bool
  now : ℤ
  log : List OauthFact

/-! ## Steps

The answers come from the provider, the configuration, the directory and the database; `ok` says whether a
statement succeeds. -/

/-- The steps of `OidcAuthQueryPre`. -/
inductive QueryMove
  | load (code : String)
  | check
  | readUserId
  | infoById (ok : Bool)
  | setFirstLogin (now : ℤ)
  | delete
  | login
deriving DecidableEq

/-- The steps of `ToBind`. -/
inductive ToBindMove
  | check (userId : ℕ) (op : String) (ok : Bool)
  | store (code : String)
deriving DecidableEq

/-- The steps of `Confirm`. -/
inductive ConfirmMove
  | load (code : String) (userId : ℕ)
  | write
  | store
deriving DecidableEq

/-- The steps of `BindConfirm`. -/
inductive BindConfirmMove
  | load (code : String) (userId : ℕ)
  | read
  | create (ok : Bool)
  | write
  | store
deriving DecidableEq

/-- The steps of `OauthCallback`. -/
inductive CallbackMove
  | load (code : String)
  | callback (answer : Option OauthUser)
  | bindCheck (ok : Bool)
  | bindCreate (ok : Bool)
  | thirdInfo (ok : Bool)
  | infoById (ok : Bool)
  | autoRegister (answer : Option Bool)
  | write
  | store
  | setFirstLogin (now : ℤ)
deriving DecidableEq

/-- The steps of `RegisterByOauth`. -/
inductive RegisterMove
  | lock
  | thirdInfo (ok : Bool)
  | infoById (ok : Bool)
  | find (typed : Bool) (ldap : LdapAnswer) (ok : Bool)
  | link (ok : Bool)
  | create (account : Account) (outcome : RegisterOutcome)
  | reread (ok : Bool)
deriving DecidableEq

/-- One step of a request. -/
inductive OauthMove
  | oidcAuth (code : String) (op : String)
  | query (m : QueryMove)
  | toBind (m : ToBindMove)
  | confirm (m : ConfirmMove)
  | bindConfirm (m : BindConfirmMove)
  | callback (m : CallbackMove)
  | register (m : RegisterMove)
deriving DecidableEq

namespace OauthShared

variable (s : OauthShared)

/-- `UserThirdInfo` of the provider's identity. -/
def thirdByOpenId (op openId : String) (ok : Bool) : Option (ℕ × UserThird) :=
  if ok then s.thirds.first fun r => r.2.openId = openId && r.2.op = op else none

/-- `UserThirdInfo` of the user. -/
def thirdByUserId (userId : ℕ) (op : String) (ok : Bool) : Option (ℕ × UserThird) :=
  if ok then s.thirds.first fun r => r.2.userId = userId && r.2.op = op else none

/-- `InfoById`. -/
def infoById (userId : ℕ) (ok : Bool) : Option (ℕ × Account) :=
  if ok then s.users.first fun r => r.1 = userId else none

/-- `InfoByEmail`. -/
def infoByEmail (email : String) (ok : Bool) : Option (ℕ × Account) :=
  if ok then s.users.first fun r => r.2.email = email else none

/-- The row of a user. -/
def account (userId : ℕ) : Option Account := (s.users.first fun r => r.1 = userId).map (·.2)

/-- `SetFirstLoginIfNeeded` of a user as it was read. -/
def setFirstLoginIfNeeded (u : Option (ℕ × Account)) (now : ℤ) : OauthShared :=
  match u with
  | some (userId, account) =>
    if account.firstLoginAt = none then
      { s with
        users := s.users.update (fun r => r.1 = userId) fun r => { r with firstLoginAt := some now } }
    else s
  | none => s

/-- A write through the pointer to the item of a code. -/
def writeItem (code : String) (f : OauthCacheItem → OauthCacheItem) : OauthShared :=
  { s with items := Function.update s.items code ((s.items code).map f) }

def writeUserId (code : String) (userId : ℕ) : OauthShared :=
  s.writeItem code fun v => { v with userId := userId }

/-- `OauthCache.Store` and `OauthCache.Delete`. -/
def setCached (code : String) (present : Bool) : OauthShared :=
  { s with cached := Function.update s.cached code present }

/-- `BeginAuth` and `SetOauthCache`, with a code that was not given before. -/
def begin (code : String) (item : OauthCacheItem) : OauthShared :=
  { s with
    items := Function.update s.items code (some item)
    cached := Function.update s.cached code true
    log := .begun code item.action :: s.log }

def note (fact : OauthFact) : OauthShared := { s with log := fact :: s.log }

def insertThird (row : UserThird) : OauthShared := { s with thirds := s.thirds.insert row }

def insertUser (account : Account) : OauthShared := { s with users := s.users.insert account }

def unlock : OauthShared := { s with locked := false }

/-- The e-mail address is that of the account, and of no other. -/
def ownsAlone (userId : ℕ) (email : String) : Bool :=
  (s.users.rows.all fun r => r.1 = userId || r.2.email ≠ email) &&
    s.users.rows.any fun r => r.1 = userId && r.2.email = email

end OauthShared

namespace OauthPhase

variable (phase : OauthPhase) (s : OauthShared)

def oidcAuth (code op : String) : Option (OauthPhase × OauthShared) :=
  if phase = .idle ∧ s.items code = none then
    some (.done, s.begin code ⟨.login, op, 0, "", "", "", ""⟩)
  else none

def oidcAuthQueryPre : QueryMove → Option (OauthPhase × OauthShared)
  | .load code =>
    if phase = .idle then some (if s.cached code then .queryLoaded code else .done, s) else none
  | .check =>
    match phase with
    | .queryLoaded code =>
      (s.items code).map fun v => (if v.userId = 0 then .done else .queryAuthed code, s)
    | _ => none
  | .readUserId =>
    match phase with
    | .queryAuthed code => (s.items code).map fun v => (.queryRead code v.userId, s)
    | _ => none
  | .infoById ok =>
    match phase with
    | .queryRead code userId => some (.queryFound code (s.infoById userId ok), s)
    | _ => none
  | .setFirstLogin now =>
    match phase with
    | .queryFound code u => some (.queryMarked code u, s.setFirstLoginIfNeeded u now)
    | _ => none
  | .delete =>
    match phase with
    | .queryMarked code u => some (.queryTaken code u, (s.setCached code false).note (.taken code))
    | _ => none
  | .login =>
    match phase with
    | .queryTaken code u =>
      let userId := userIdOf u
      some (.done, s.note (.issued code userId (s.account userId) s.now))
    | _ => none

def toBind : ToBindMove → Option (OauthPhase × OauthShared)
  | .check userId op ok =>
    if phase = .idle then
      match s.thirdByUserId userId op ok with
      | some _ => some (.done, s)
      | none => some (.toBindChecked userId op, s)
    else none
  | .store code =>
    match phase with
    | .toBindChecked userId op =>
      if s.items code = none then some (.done, s.begin code ⟨.bind, op, userId, "", "", "", ""⟩)
      else none
    | _ => none

def confirm : ConfirmMove → Option (OauthPhase × OauthShared)
  | .load code userId =>
    if phase = .idle then some (if s.cached code then .confirmLoaded code userId else .done, s)
    else none
  | .write =>
    match phase with
    | .confirmLoaded code userId =>
      some (.confirmWritten code, (s.writeUserId code userId).note (.confirmed code userId))
    | _ => none
  | .store =>
    match phase with
    | .confirmWritten code => some (.done, s.setCached code true)
    | _ => none

def bindConfirm : BindConfirmMove → Option (OauthPhase × OauthShared)
  | .load code userId =>
    if phase = .idle then some (if s.cached code then .bindConfirmLoaded code userId else .done, s)
    else none
  | .read =>
    match phase with
    | .bindConfirmLoaded code userId =>
      (s.items code).map fun v => (.bindConfirmRead code userId v.toOauthUser v.op, s)
    | _ => none
  | .create ok =>
    match phase with
    | .bindConfirmRead code userId oauthUser op =>
      if ok then
        some (.bindConfirmBound code userId, s.insertThird ⟨userId, op, oauthUser.openId, code, none⟩)
      else some (.done, s)
    | _ => none
  | .write =>
    match phase with
    | .bindConfirmBound code userId =>
      some (.bindConfirmWritten code, (s.writeUserId code userId).note (.confirmed code userId))
    | _ => none
  | .store =>
    match phase with
    | .bindConfirmWritten code => some (.done, s.setCached code true)
    | _ => none

def oauthCallback : CallbackMove → Option (OauthPhase × OauthShared)
  | .load code =>
    if phase = .idle then
      if s.cached code then (s.items code).map fun v => (.callbackLoaded code v.action v.op, s)
      else some (.done, s)
    else none
  | .callback answer =>
    match phase with
    | .callbackLoaded code action op =>
      match answer with
      | none => some (.done, s)
      | some oauthUser =>
        (s.items code).map fun v =>
          (match action with
            | .bind => .bindReturned code op v.userId oauthUser
            | .login => if v.userId ≠ 0 then .done else .loginReturned code op oauthUser,
          s.note (.returned code oauthUser))
    | _ => none
  -- the bind action
  | .bindCheck ok =>
    match phase with
    | .bindReturned code op userId oauthUser =>
      match s.thirdByOpenId op oauthUser.openId ok with
      | some r => some (if 0 < r.2.userId then .done else .bindChecked code op userId oauthUser, s)
      | none => some (.bindChecked code op userId oauthUser, s)
    | _ => none
  | .bindCreate ok =>
    match phase with
    | .bindChecked code op userId oauthUser =>
      -- `InfoById` gives a user without an id where there is none, never `nil`
      some (.done, if ok then s.insertThird ⟨userId, op, oauthUser.openId, code, none⟩ else s)
    | _ => none
  -- the login action, with `InfoByOauthId`
  | .thirdInfo ok =>
    match phase with
    | .loginReturned code op oauthUser =>
      match s.thirdByOpenId op oauthUser.openId ok with
      | some r => some (.loginBound code op oauthUser r.2.userId, s)
      | none => some (.loginUnknown code op oauthUser, s)
    | _ => none
  | .infoById ok =>
    match phase with
    | .loginBound code op oauthUser userId =>
      match s.infoById userId ok with
      | some u => some (.loginUser code (some u), s.note (.identified code oauthUser.openId u.1))
      | none => some (.loginUnknown code op oauthUser, s)
    | _ => none
  | .autoRegister answer =>
    match phase with
    | .loginUnknown code op oauthUser =>
      match answer with
      | none => some (.done, s)
      | some false => some (.done, s.writeItem code (·.updateFromOauthUser oauthUser))
      | some true => some (.registerWaiting code op oauthUser, s)
    | _ => none
  | .write =>
    match phase with
    | .loginUser code u => some (.loginWritten code u, s.writeUserId code (userIdOf u))
    | _ => none
  | .store =>
    match phase with
    | .loginWritten code u => some (.loginStored u, s.setCached code true)
    | _ => none
  | .setFirstLogin now =>
    match phase with
    | .loginStored u => some (.done, s.setFirstLoginIfNeeded u now)
    | _ => none

/-- `lower` is `strings.ToLower`. -/
def registerByOauth (lower : String → String) : RegisterMove → Option (OauthPhase × OauthShared)
  | .lock =>
    match phase with
    | .registerWaiting code op oauthUser =>
      if s.locked then none else some (.registerLocked code op oauthUser, { s with locked := true })
    | _ => none
  | .thirdInfo ok =>
    match phase with
    | .registerLocked code op oauthUser =>
      match s.thirdByOpenId op oauthUser.openId ok with
      | some r => some (.registerBound code oauthUser r.2.userId, s)
      | none => some (.registerUnbound code op oauthUser, s)
    | _ => none
  | .infoById ok =>
    match phase with
    | .registerBound code oauthUser userId =>
      match s.infoById userId ok with
      | some u =>
        some (.loginUser code (some u), s.unlock.note (.identified code oauthUser.openId u.1))
      | none => some (.loginUser code none, s.unlock)
    | _ => none
  | .find typed ldap ok =>
    match phase with
    | .registerUnbound code op oauthUser =>
      if !typed then some (.done, s.unlock)
      else if oauthUser.email = "" then some (.registerNew code op oauthUser, s)
      else
        let oauthUser := { oauthUser with email := lower oauthUser.email }
        match ldap with
        | .error => some (.done, s.unlock)
        | .found u => some (.registerLink code op oauthUser u false, s)
        | .created account =>
          some (.registerLink code op oauthUser (s.users.next, account) true, s.insertUser account)
        | .notFound =>
          match s.infoByEmail oauthUser.email ok with
          | some u => some (.registerLink code op oauthUser u false, s)
          | none => some (.registerNew code op oauthUser, s)
    | _ => none
  | .link ok =>
    match phase with
    | .registerLink code op oauthUser u new =>
      let trusted := oauthUser.verifiedEmail && s.ownsAlone u.1 oauthUser.email
      let row := ⟨u.1, op, oauthUser.openId, code, if new then none else some trusted⟩
      some (.loginUser code (some u),
        if ok then (s.unlock.insertThird row).note (.identified code oauthUser.openId u.1)
        else s.unlock)
    | _ => none
  | .create account outcome =>
    match phase with
    | .registerNew code op oauthUser =>
      let userId := s.users.next
      let registered := s.unlock.insertUser { account with email := oauthUser.email }
      match outcome with
      | .failed => some (.done, s.unlock)
      | .uncommitted => some (.registerCreated code userId, s.unlock)
      | .unbound =>
        some (.registerCreated code userId, registered.note (.identified code oauthUser.openId userId))
      | .bound =>
        some (.registerCreated code userId,
          (registered.insertThird ⟨userId, op, oauthUser.openId, code, none⟩).note
            (.identified code oauthUser.openId userId))
    | _ => none
  | .reread ok =>
    match phase with
    | .registerCreated code userId => some (.loginUser code (s.infoById userId ok), s)
    | _ => none

/-- One step of a request. -/
def advance (lower : String → String) : OauthMove → Option (OauthPhase × OauthShared)
  | .oidcAuth code op => phase.oidcAuth s code op
  | .query m => phase.oidcAuthQueryPre s m
  | .toBind m => phase.toBind s m
  | .confirm m => phase.confirm s m
  | .bindConfirm m => phase.bindConfirm s m
  | .callback m => phase.oauthCallback s m
  | .register m => phase.registerByOauth s lower m

end OauthPhase

/-! ## All requests -/

/-- The requests and what they share. -/
structure Oauth (H : Type*) where
  phase : H → OauthPhase
  shared : OauthShared

/-- A request goes on, or something else happens: the timer of a code, `Unbind`, the deletion of a user,
any other write of the user table, or time passes. -/
inductive OauthEvent (H : Type*)
  | move (h : H) (m : OauthMove)
  | expire (code : String)
  | unbind (userId : ℕ) (op : String)
  | deleteUser (userId : ℕ)
  | createUser (account : Account)
  | setUser (userId : ℕ) (account : Account)
  | tick (now : ℤ)
deriving DecidableEq

namespace Oauth

variable {H : Type*}

/-- Before the first request. -/
def new : Oauth H where
  phase _ := .idle
  shared := ⟨.empty, .empty, fun _ => none, fun _ => false, false, 0, []⟩

/-- What else happens. -/
def happen (s : OauthShared) : OauthEvent H → OauthShared
  | .move _ _ => s
  | .expire code => s.setCached code false
  | .unbind userId op => { s with thirds := s.thirds.delete fun r => r.2.userId = userId && r.2.op = op }
  | .deleteUser userId =>
    { s with
      users := s.users.delete fun r => r.1 = userId
      thirds := s.thirds.delete fun r => r.2.userId = userId }
  | .createUser account => s.insertUser account
  | .setUser userId account => { s with users := s.users.update (fun r => r.1 = userId) fun _ => account }
  | .tick now => { s with now := now }

def step [DecidableEq H] (lower : String → String) (s : Oauth H) : OauthEvent H → Option (Oauth H)
  | .move h m =>
    ((s.phase h).advance s.shared lower m).map fun next =>
      ⟨Function.update s.phase h next.1, next.2⟩
  | e => some { s with shared := happen s.shared e }

end Oauth

end RustDesk.Api
