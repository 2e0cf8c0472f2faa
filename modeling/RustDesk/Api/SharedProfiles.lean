import RustDesk.Api.AddressBookAccess
import RustDesk.Common.Run

/-!
# Shared collections

References: `rustdesk-api/http/controller/api/ab.go` (`SharedProfiles`), `service/addressBook.go`
(`ListCollectionByIds`, `ListCollectionByUserId`, `CreateCollection` to `DeleteRule`),
`http/controller/admin/addressBookCollectionRule.go`, `http/controller/admin/my/addressBookCollectionRule.go`,
`http/controller/admin/addressBookCollection.go`, `http/controller/admin/my/addressBookCollection.go`,
`service/user.go` (`Create`, `Delete`, `Update`).

`SharedProfiles` lists the collections of the caller and those of the rules that share with the caller, while
the endpoints look at one collection and one rule for each kind. A rule is checked and then written, and other
requests come in between. The two views agree as long as there is one rule for a collection and whom it is
shared with, and it names the owner of the collection.
-/

namespace RustDesk.Api

structure SharedProfilesPayload where
  guid : List Char
  name : String
  owner : String
  rule : ℤ
deriving DecidableEq

/-! ## The list -/

/-- A turn of the loop over the rules, with `allAbIds` and the keys of `allUserIds`. -/
def addRule (acc : (ℕ → Option ℤ) × (ℕ → Bool)) (rule : ℕ × AddressBookCollectionRule) :
    (ℕ → Option ℤ) × (ℕ → Bool) :=
  match acc.1 rule.2.collectionId with
  | some r =>
    if r < rule.2.rule then (Function.update acc.1 rule.2.collectionId (some rule.2.rule), acc.2) else acc
  | none =>
    (Function.update acc.1 rule.2.collectionId (some rule.2.rule),
      Function.update acc.2 rule.2.userId true)

namespace AbTables

variable (s : AbTables)

/-- The collections of a user. -/
def collectionsOf (userId : ℕ) : List (ℕ × AddressBookCollection) :=
  s.collections.select fun r => r.2.userId = userId

/-- `ListCollectionByUserId`, the first page of 100. -/
def listCollectionByUserId (userId : ℕ) : List (ℕ × AddressBookCollection) :=
  (s.collectionsOf userId).take 100

/-- `allAbIds` and the keys of `allUserIds`. -/
def readRules (user : ℕ × AbUser) : (ℕ → Option ℤ) × (ℕ → Bool) :=
  (s.collectionReadRules user).foldl addRule (fun _ => none, fun _ => false)

/-- The loop over the collections. `none` is a user that is not there. -/
def sharedPayloads (allAbIds : ℕ → Option ℤ) (allUserIds : ℕ → Bool) :
    List (ℕ × AddressBookCollection) → Option (List SharedProfilesPayload)
  | [] => some []
  | collection :: collections =>
    if allUserIds collection.2.userId then
      match s.userInfoById collection.2.userId with
      | none => none
      | some u =>
        (sharedPayloads allAbIds allUserIds collections).map fun res =>
          ⟨composeGuid u.2.groupId u.1 collection.1, collection.2.name, u.2.username,
            (allAbIds collection.1).getD 0⟩ :: res
    else sharedPayloads allAbIds allUserIds collections

/-- `SharedProfiles`. `none` is a panic. -/
def sharedProfiles (user : ℕ × AbUser) : Option (List SharedProfilesPayload) :=
  let mine := (s.listCollectionByUserId user.1).map fun ab =>
    (⟨composeGuid user.2.groupId user.1 ab.1, ab.2.name, user.2.username,
      shareAddressBookRuleRuleFullControl⟩ : SharedProfilesPayload)
  let (allAbIds, allUserIds) := s.readRules user
  (s.sharedPayloads allAbIds allUserIds (s.collections.select fun c => (allAbIds c.1).isSome)).map fun res =>
    mine ++ res

/-! ## Rules -/

/-- What `ValidStruct` asks of a rule. -/
def validRule (t : AddressBookCollectionRule) : Bool :=
  t.collectionId ≠ 0 && 1 ≤ t.rule && t.rule ≤ 3 && 1 ≤ t.ruleType && t.ruleType ≤ 2 && 0 < t.toId

def checkToId (t : AddressBookCollectionRule) : Option String :=
  if t.ruleType = shareAddressBookRuleTypePersonal then
    if t.toId = t.userId then some "CannotShareToSelf"
    else if (s.userInfoById t.toId).isNone then some "ItemNotFound"
    else none
  else if t.ruleType = shareAddressBookRuleTypeGroup then
    if (s.groupInfoById t.toId).isNone then some "ItemNotFound" else none
  else some "ParamsError"

/-- What both `CheckForm` do after they have looked at the user. -/
def checkRule (id : ℕ) (t : AddressBookCollectionRule) : Option String :=
  if 0 < t.collectionId ∧ ¬ s.checkCollectionOwner t.userId t.collectionId then some "ParamsError"
  else
    match s.checkToId t with
    | some e => some e
    | none =>
      match s.ruleInfoByToIdAndCid t.ruleType t.toId t.collectionId with
      | none => none
      | some ex => if id = 0 ∨ id ≠ ex.1 then some "ItemExists" else none

/-- `CheckForm` of the admin. -/
def checkForm (id : ℕ) (t : AddressBookCollectionRule) : Option String :=
  if t.userId = 0 then some "ParamsError" else s.checkRule id t

/-- `CheckForm` of a user. -/
def myCheckForm (u id : ℕ) (t : AddressBookCollectionRule) : Option String :=
  if t.userId ≠ u then some "NoAccess" else s.checkRule id t

end AbTables

/-- A rule that has been checked: to create, or to update. -/
inductive RuleWrite
  | create (id : ℕ) (t : AddressBookCollectionRule)
  | update (id : ℕ) (t : AddressBookCollectionRule)
deriving DecidableEq

def RuleWrite.id : RuleWrite → ℕ
  | .create id _ | .update id _ => id

def RuleWrite.rule : RuleWrite → AddressBookCollectionRule
  | .create _ t | .update _ t => t

/-- A request to create or update a rule, by the admin or a user. -/
inductive RuleRequest
  | create (id : ℕ) (t : AddressBookCollectionRule)
  | update (id : ℕ) (t : AddressBookCollectionRule)
  | myCreate (u id : ℕ) (t : AddressBookCollectionRule)
  | myUpdate (u id : ℕ) (t : AddressBookCollectionRule)
deriving DecidableEq

namespace AbTables

variable (s : AbTables)

/-- What a request to create or update a rule checks. -/
def allow : RuleRequest → Except String RuleWrite
  | .create id t =>
    if validRule t then
      match s.checkForm id t with
      | some e => .error e
      | none => .ok (.create id t)
    else .error "ParamsError"
  | .myCreate u id t =>
    if validRule t then
      let t := { t with userId := u }
      match s.myCheckForm u id t with
      | some e => .error e
      | none => .ok (.create id t)
    else .error "ParamsError"
  | .update id t =>
    if validRule t && id ≠ 0 then
      match s.checkForm id t with
      | some e => .error e
      | none => .ok (.update id t)
    else .error "ParamsError"
  | .myUpdate u id t =>
    if validRule t && id ≠ 0 then
      match s.ruleInfoById id with
      | none => .error "ItemNotFound"
      | some ex =>
        if ex.2.userId ≠ u then .error "NoAccess"
        else
          match s.myCheckForm u id t with
          | some e => .error e
          | none => .ok (.update id t)
    else .error "ParamsError"

/-- `Updates` of a rule. -/
def updatesRule (t r : AddressBookCollectionRule) : AddressBookCollectionRule where
  userId := updatesField 0 t.userId r.userId
  collectionId := updatesField 0 t.collectionId r.collectionId
  rule := updatesField 0 t.rule r.rule
  ruleType := updatesField 0 t.ruleType r.ruleType
  toId := updatesField 0 t.toId r.toId

/-- `CreateRule` and `UpdateRule`. -/
def writeRule : RuleWrite → AbTables
  | .create id t => { s with rules := (createRow s.rules id t).getD s.rules }
  | .update id t => { s with rules := s.rules.update (fun r => r.1 = id) (updatesRule t) }

def deleteRule (id : ℕ) : AbTables := { s with rules := s.rules.delete fun r => r.1 = id }

/-! ## Users, groups and collections -/

/-- `Create` of a user, whatever its id and group. -/
def createUser (id : ℕ) (user : AbUser) : AbTables :=
  if user.groupId ≤ maxId then { s with users := (createRow s.users id user).getD s.users } else s

/-- `Update` of a user. The form asks for a group. -/
def updateUser (id : ℕ) (user : AbUser) : AbTables :=
  if user.groupId ≠ 0 ∧ user.groupId ≤ maxId then
    { s with
      users := s.users.update (fun r => r.1 = id) fun r =>
        ⟨updatesField "" user.username r.username, updatesField 0 user.groupId r.groupId⟩ }
  else s

/-- `Delete` of a user. -/
def deleteUser (id : ℕ) : AbTables :=
  { s with
    users := s.users.delete fun r => r.1 = id
    addressBooks := s.addressBooks.delete fun r => r.2.userId = id
    collections := s.collections.delete fun r => r.2.userId = id
    rules := s.rules.delete fun r => r.2.userId = id }

def createGroup (id : ℕ) (name : String) : AbTables :=
  { s with groups := (createRow s.groups id name).getD s.groups }

def deleteGroup (id : ℕ) : AbTables := { s with groups := s.groups.delete fun r => r.1 = id }

/-- `CreateCollection` by the admin, or by a user with that user as the owner. -/
def createCollection (id : ℕ) (t : AddressBookCollection) : AbTables :=
  if t.name ≠ "" ∧ t.userId ≠ 0 then
    { s with collections := (createRow s.collections id t).getD s.collections }
  else s

/-- `UpdateCollection` by the admin, or by the user `cur`. The owner is a field like the others. -/
def updateCollection (cur : Option ℕ) (id : ℕ) (t : AddressBookCollection) : AbTables :=
  if t.name ≠ "" ∧ id ≠ 0 ∧ ∀ u ∈ cur, ∃ ex ∈ s.collectionInfoById id, ex.2.userId = u then
    { s with
      collections := s.collections.update (fun r => r.1 = id) fun r =>
        ⟨updatesField 0 t.userId r.userId, updatesField "" t.name r.name⟩ }
  else s

/-- `DeleteCollection` by the admin, or by the user `cur`. -/
def deleteCollection (cur : Option ℕ) (id : ℕ) : AbTables :=
  if ∃ ex ∈ s.collectionInfoById id, ∀ u ∈ cur, ex.2.userId = u then
    { s with
      rules := s.rules.delete fun r => r.2.collectionId = id
      addressBooks := s.addressBooks.delete fun r => r.2.collectionId = id
      collections := s.collections.delete fun r => r.1 = id }
  else s

end AbTables

/-! ## Runs -/

/-- The tables, and the rules that requests have checked. -/
structure AbSystem (H : Type*) where
  tables : AbTables
  pending : H → Option RuleWrite

/-- What changes the tables. -/
inductive AbEvent (H : Type*)
  | createUser (id : ℕ) (user : AbUser)
  | updateUser (id : ℕ) (user : AbUser)
  | deleteUser (id : ℕ)
  | createGroup (id : ℕ) (name : String)
  | deleteGroup (id : ℕ)
  | createCollection (id : ℕ) (t : AddressBookCollection)
  | updateCollection (cur : Option ℕ) (id : ℕ) (t : AddressBookCollection)
  | deleteCollection (cur : Option ℕ) (id : ℕ)
  | checkRule (h : H) (req : RuleRequest)
  | writeRule (h : H)
  | deleteRule (id : ℕ)
  | call (userId : ℕ) (guid : List Char) (call : AbCall)

namespace AbSystem

variable {H : Type*}

/-- Before the first user, with the peers that there are. -/
def new (peers : Table AbPeer) : AbSystem H :=
  ⟨⟨.empty, .empty, .empty, .empty, .empty, .empty, peers⟩, fun _ => none⟩

def step [DecidableEq H] (s : AbSystem H) : AbEvent H → Option (AbSystem H)
  | .createUser id user => some { s with tables := s.tables.createUser id user }
  | .updateUser id user => some { s with tables := s.tables.updateUser id user }
  | .deleteUser id => some { s with tables := s.tables.deleteUser id }
  | .createGroup id name => some { s with tables := s.tables.createGroup id name }
  | .deleteGroup id => some { s with tables := s.tables.deleteGroup id }
  | .createCollection id t => some { s with tables := s.tables.createCollection id t }
  | .updateCollection cur id t => some { s with tables := s.tables.updateCollection cur id t }
  | .deleteCollection cur id => some { s with tables := s.tables.deleteCollection cur id }
  | .checkRule h req =>
    match s.tables.allow req with
    | .error _ => some s
    | .ok w => some { s with pending := Function.update s.pending h (some w) }
  | .writeRule h =>
    (s.pending h).map fun w => ⟨s.tables.writeRule w, Function.update s.pending h none⟩
  | .deleteRule id => some { s with tables := s.tables.deleteRule id }
  | .call userId guid call =>
    (s.tables.userInfoById userId).map fun cu => { s with tables := (s.tables.handle cu guid call).2 }

end AbSystem

end RustDesk.Api
