import RustDesk.Common.Run
import RustDesk.Common.Table

/-!
# Resetting a password by a code

References: `rustdesk-api/service/password_reset.go` (`SendCode`, `ResetWithCode`), `service/user.go`
(`UpdatePassword`), `lib/cache/file.go` and `lib/cache/redis.go` (`Get`, `Set`).

A call is a phase and goes on by one statement, one access to the cache or one mail at a time, with other calls
in between. A code is a number beside its digits, which may come again. The clock counts seconds. The history
is kept beside the state, the latest first. E-mail addresses stay as they are.
-/

namespace RustDesk.Api

def passwordResetCodeExpireSeconds : ℕ := 10 * 60

def passwordResetCooldownSeconds : ℕ := 60

/-- `strings.ToLower`, `strings.TrimSpace`, `lower` of the database, and whether `mail.ParseAddress` gives no
error. -/
structure EmailText where
  toLower : String → String
  trimSpace : String → String
  lower : String → String
  parses : String → Bool

def normalizeEmail (text : EmailText) (email : String) : String := text.toLower (text.trimSpace email)

structure PasswordResetState where
  userId : ℕ
  email : String
  code : String
  used : Bool
deriving DecidableEq

/-- What stands in the cache for an address, with the number of the code and when it expires. -/
structure CachedReset where
  state : PasswordResetState
  number : ℕ
  expires : ℕ
deriving DecidableEq

/-- A row of the user table. -/
structure ResetUser where
  email : String
  password : String
deriving DecidableEq

/-- How `Cache.Set` ends: written, or with an error, after which the old value is still there, is lost, or is
replaced all the same. -/
inductive SetOutcome
  | ok
  | kept
  | lost
  | written
deriving DecidableEq

/-- What is there after a `Cache.Set`. -/
def SetOutcome.value {A : Type*} (outcome : SetOutcome) (old : Option A) (new : A) : Option A :=
  match outcome with
  | .ok | .written => some new
  | .kept => old
  | .lost => none

/-- What happened: a code was mailed to the address of a user, the password of a user was changed by a code, a
call with a code succeeded. -/
inductive ResetFact
  | sent (number : ℕ) (email : String) (userId : ℕ) (sentAt : ℕ)
  | changed (number : ℕ) (email : String) (userId : ℕ) (now : ℕ)
  | succeeded (number : ℕ)
deriving DecidableEq

/-- Where a call stands. -/
inductive ResetPhase
  | idle
  | done
  | sendStarted (email : String)
  | sendFound (email : String) (user : ℕ × ResetUser)
  | sendCooled (email : String) (user : ℕ × ResetUser)
  | sendMailed (email : String) (state : PasswordResetState) (number sentAt : ℕ)
  | sendStored (email : String)
  | resetStarted (email code newPassword : String)
  | resetFound (email code newPassword : String) (user : ℕ × ResetUser)
  | resetRead (email newPassword : String) (user : ℕ × ResetUser) (state : PasswordResetState) (number : ℕ)
  | resetChanged (email : String) (user : ℕ × ResetUser) (state : PasswordResetState) (number : ℕ)
  | resetFlushed (email : String) (state : PasswordResetState) (number : ℕ)
deriving DecidableEq

/-- What the calls share. `tokens` are the users' tokens, and `numbers` is the number of the next code. -/
structure ResetShared where
  users : Table ResetUser
  tokens : Table ℕ
  codes : String → Option CachedReset
  cooldowns : String → Option ℕ
  now : ℕ
  numbers : ℕ
  log : List ResetFact

/-- A move of a call. `ok` says whether a statement, a `Get` or a mail succeeds; `update` has the password as it
is encrypted, unless that or the statement fails. -/
inductive ResetMove
  | sendCode (email : String) (configured : Bool)
  | resetWithCode (email code newPassword : String)
  | find (ok : Bool)
  | cooldown (ok : Bool)
  | mail (code : String) (ok : Bool)
  | store (outcome : SetOutcome)
  | storeCooldown (outcome : SetOutcome)
  | get (ok : Bool)
  | update (encrypted : Option String)
  | flush (ok : Bool)
  | mark (outcome : SetOutcome)
deriving DecidableEq

namespace ResetShared

variable (text : EmailText) (s : ResetShared)

def findSingleUserByEmail (email : String) (ok : Bool) : Option (ℕ × ResetUser) :=
  if ok then
    match s.users.select fun r => text.lower r.2.email = email with
    | [user] => some user
    | _ => none
  else none

/-- `Get` of the state of an address. -/
def getCode (email : String) (ok : Bool) : Option CachedReset :=
  if ok then (s.codes email).filter fun v => s.now < v.expires else none

def setCode (email : String) (v : CachedReset) (outcome : SetOutcome) : ResetShared :=
  { s with codes := Function.update s.codes email (outcome.value (s.codes email) v) }

def note (fact : ResetFact) : ResetShared := { s with log := fact :: s.log }

/-! ### `SendCode` -/

/-- What comes before the first statement. -/
def sendCode (email : String) (configured : Bool) : ResetPhase :=
  let email := normalizeEmail text email
  if email = "" then .done
  else if !text.parses email then .done
  else if !configured then .done
  else .sendStarted email

def cooldown (email : String) (user : ℕ × ResetUser) (ok : Bool) : ResetPhase :=
  if ok && (s.cooldowns email).any fun expires => s.now < expires then .done else .sendCooled email user

def mail (email : String) (user : ℕ × ResetUser) (code : String) (ok : Bool) : ResetPhase × ResetShared :=
  if ok then
    (.sendMailed email ⟨user.1, normalizeEmail text user.2.email, code, false⟩ s.numbers s.now,
      { s with
        numbers := s.numbers + 1
        log := .sent s.numbers email user.1 s.now :: s.log })
  else (.done, s)

def store (email : String) (state : PasswordResetState) (number : ℕ) (outcome : SetOutcome) :
    ResetPhase × ResetShared :=
  (if outcome = .ok then .sendStored email else .done,
    s.setCode email ⟨state, number, s.now + passwordResetCodeExpireSeconds⟩ outcome)

def storeCooldown (email : String) (outcome : SetOutcome) : ResetPhase × ResetShared :=
  (.done,
    { s with
      cooldowns := Function.update s.cooldowns email
        (outcome.value (s.cooldowns email) (s.now + passwordResetCooldownSeconds)) })

/-! ### `ResetWithCode` -/

/-- What comes before the first statement. -/
def resetWithCode (email code newPassword : String) : ResetPhase :=
  let email := normalizeEmail text email
  let code := text.trimSpace code
  let newPassword := text.trimSpace newPassword
  if email = "" ∨ code = "" ∨ newPassword = "" then .done
  else if newPassword.utf8ByteSize < 6 ∨ 18 < newPassword.utf8ByteSize then .done
  else .resetStarted email code newPassword

def get (email code newPassword : String) (user : ℕ × ResetUser) (ok : Bool) : ResetPhase :=
  match s.getCode email ok with
  | none => .done
  | some v =>
    if v.state.used then .done
    else if v.state.email ≠ email ∨ v.state.userId ≠ user.1 then .done
    else if v.state.code ≠ code then .done
    else .resetRead email newPassword user v.state v.number

/-- `UpdatePassword`, the statement that writes the password. -/
def update (email : String) (user : ℕ × ResetUser) (state : PasswordResetState) (number : ℕ)
    (encrypted : Option String) : ResetPhase × ResetShared :=
  match encrypted with
  | none => (.done, s)
  | some password =>
    (.resetChanged email user state number,
      { s with
        users := s.users.update (fun r => r.1 = user.1) fun u => { u with password := password }
        log := .changed number email user.1 s.now :: s.log })

/-- `UpdatePassword`, `FlushToken`. -/
def flush (email : String) (user : ℕ × ResetUser) (state : PasswordResetState) (number : ℕ) (ok : Bool) :
    ResetPhase × ResetShared :=
  if ok then
    (.resetFlushed email state number,
      { s with
        tokens := s.tokens.delete fun r => r.2 = user.1
        log := .succeeded number :: s.log })
  else (.done, s)

def mark (email : String) (state : PasswordResetState) (number : ℕ) (outcome : SetOutcome) :
    ResetPhase × ResetShared :=
  (.done, s.setCode email ⟨{ state with used := true, code := "" }, number, s.now + 300⟩ outcome)

end ResetShared

/-- A move of a call in a phase. -/
def ResetPhase.move (text : EmailText) (s : ResetShared) :
    ResetPhase → ResetMove → Option (ResetPhase × ResetShared)
  | .idle, .sendCode email configured => some (ResetShared.sendCode text email configured, s)
  | .idle, .resetWithCode email code newPassword =>
    some (ResetShared.resetWithCode text email code newPassword, s)
  | .sendStarted email, .find ok =>
    some (((s.findSingleUserByEmail text email ok).map (.sendFound email)).getD .done, s)
  | .resetStarted email code newPassword, .find ok =>
    some (((s.findSingleUserByEmail text email ok).map (.resetFound email code newPassword)).getD .done, s)
  | .sendFound email user, .cooldown ok => some (s.cooldown email user ok, s)
  | .sendCooled email user, .mail code ok => some (s.mail text email user code ok)
  | .sendMailed email state number _, .store outcome => some (s.store email state number outcome)
  | .sendStored email, .storeCooldown outcome => some (s.storeCooldown email outcome)
  | .resetFound email code newPassword user, .get ok => some (s.get email code newPassword user ok, s)
  | .resetRead email _ user state number, .update encrypted =>
    some (s.update email user state number encrypted)
  | .resetChanged email user state number, .flush ok => some (s.flush email user state number ok)
  | .resetFlushed email state number, .mark outcome => some (s.mark email state number outcome)
  | _, _ => none

/-- A move of a call, or time passes. -/
inductive ResetEvent (C : Type*)
  | move (c : C) (m : ResetMove)
  | pass (seconds : ℕ)
deriving DecidableEq

/-- The calls and what they share. -/
structure ResetSystem (C : Type*) where
  shared : ResetShared
  phase : C → ResetPhase

/-! ## What is asked of a code -/

def ResetFact.number : ResetFact → ℕ
  | .sent number _ _ _ => number
  | .changed number _ _ _ => number
  | .succeeded number => number

/-- The latest code for an address. -/
def lastSent (email : String) : List ResetFact → Option ℕ
  | [] => none
  | .sent number email' _ _ :: log => if email' = email then some number else lastSent email log
  | _ :: log => lastSent email log

/-- What may happen after a history: a new code; a change of the password of the user whom the code was sent to,
within 600 seconds, while it is the latest code for the address; and one success of a code, by which the
password was changed. -/
def ResetFact.Follows (log : List ResetFact) : ResetFact → Prop
  | .sent number _ _ _ => ∀ fact ∈ log, fact.number < number
  | .changed number email userId now =>
    ∃ sentAt, .sent number email userId sentAt ∈ log ∧ now ≤ sentAt + passwordResetCodeExpireSeconds ∧
      lastSent email log = some number
  | .succeeded number =>
    (∃ email userId now, .changed number email userId now ∈ log) ∧ .succeeded number ∉ log

/-- A history in which codes are used as they should be. -/
def CodesUsedOnce : List ResetFact → Prop
  | [] => True
  | fact :: log => fact.Follows log ∧ CodesUsedOnce log

/-- A code that is there is good for a call. -/
def CachedReset.Usable (now : ℕ) (v : CachedReset) : Prop := v.state.used = false ∧ now ≤ v.expires

namespace ResetPhase

/-- A call that mailed a code and has not stored it. -/
def Mailed (email : String) (number : ℕ) : ResetPhase → Prop
  | .sendMailed email' _ number' _ => email' = email ∧ number' = number
  | _ => False

/-- A call that changed the password with a code. -/
def Changed (email : String) (number : ℕ) : ResetPhase → Prop
  | .resetChanged email' _ _ number' => email' = email ∧ number' = number
  | _ => False

/-- A call that has succeeded and has not marked the code. -/
def Flushed (email : String) (number : ℕ) : ResetPhase → Prop
  | .resetFlushed email' _ number' => email' = email ∧ number' = number
  | _ => False

end ResetPhase

namespace ResetSystem

variable {C : Type*} [DecidableEq C] (text : EmailText) (s : ResetSystem C)

/-- Before any call. -/
def start (users : Table ResetUser) (tokens : Table ℕ) : ResetSystem C :=
  ⟨⟨users, tokens, fun _ => none, fun _ => none, 0, 0, []⟩, fun _ => .idle⟩

def step : ResetEvent C → Option (ResetSystem C)
  | .move c m => ((s.phase c).move text s.shared m).map fun next => ⟨next.2, Function.update s.phase c next.1⟩
  | .pass seconds => some { s with shared := { s.shared with now := s.shared.now + seconds } }

/-- The latest code for an address was mailed and is not stored. -/
def Pending (email : String) : Prop :=
  ∃ number, lastSent email s.shared.log = some number ∧ ∃ c, (s.phase c).Mailed email number

/-- A code is stored in the second in which it was mailed, and no older code replaces the latest one or
stays. -/
def StoresLatest (email : String) (number sentAt : ℕ) : SetOutcome → Prop
  | .ok | .written =>
    s.shared.now = sentAt ∧ (lastSent email s.shared.log = some number ∨ s.Pending email)
  | .kept =>
    lastSent email s.shared.log = some number →
      ∀ v, s.shared.codes email = some v → ¬ v.Usable s.shared.now
  | .lost => True

/-- Nothing came between reading the code and changing the password: the code that was read is still there, no
later one was mailed, and no other call has changed the password with it and not marked it. -/
def StillReads (email : String) (state : PasswordResetState) (number : ℕ) : Prop :=
  (∃ expires, s.shared.codes email = some ⟨state, number, expires⟩ ∧ s.shared.now ≤ expires) ∧
    ¬ s.Pending email ∧ ∀ c, ¬ (s.phase c).Changed email number ∧ ¬ (s.phase c).Flushed email number

/-- A code that was used does not stay. -/
def Marks (email : String) (number : ℕ) (outcome : SetOutcome) : Prop :=
  outcome = .kept → ∀ v, s.shared.codes email = some v → v.Usable s.shared.now → v.number ≠ number

/-- The steps of one call on a code are not disturbed. -/
def Undisturbed : ResetEvent C → Prop
  | .move c m =>
    match s.phase c, m with
    | .sendMailed email _ number sentAt, .store outcome => s.StoresLatest email number sentAt outcome
    | .resetRead email _ _ state number, .update (some _) => s.StillReads email state number
    | .resetFlushed email _ number, .mark outcome => s.Marks email number outcome
    | _, _ => True
  | .pass _ => True

end ResetSystem

end RustDesk.Api
