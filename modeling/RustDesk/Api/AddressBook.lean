import Mathlib.Data.Int.Order.Basic
import Mathlib.Data.List.Infix
import RustDesk.Common.Table

/-!
# The address book

References: `rustdesk-api/http/controller/api/ab.go` (`PTags` to `TagDel`, `SharedProfiles` to `PeerUpdate`),
`service/addressBook.go` (`InfoByUserIdAndIdAndCid`, `AddAddressBook`, `PlatformFromOs` to
`CheckUserFullControlPrivilege`, `RuleInfoByToIdAndCid`, `CheckCollectionOwner`), `service/tag.go`,
`http/request/api/peer.go`, `model/addressBook.go`, `model/tag.go`.

An endpoint takes a guid, `group-user-collection`, whose parts `CheckGuid` compares with the tables, and looks
up what the caller may do. Collection 0 is what a user has without a collection. An id is positive and below
2^63, and 0 in a row to create asks for the next one. `Create` of a row with a collection creates the
collection first, unless its id is there, and takes its id. A character of a guid is a byte.
-/

namespace RustDesk.Api

/-- `model.User`, as far as the address book reads it. -/
structure AbUser where
  username : String
  groupId : ℕ
deriving DecidableEq

structure AddressBookCollection where
  userId : ℕ
  name : String
deriving DecidableEq

structure AddressBookCollectionRule where
  userId : ℕ
  collectionId : ℕ
  rule : ℤ
  ruleType : ℤ
  toId : ℕ
deriving DecidableEq

/-- `model.AddressBook`, without the times. `tags` is JSON, empty for `nil`. -/
structure AddressBook where
  id : String
  username : String
  password : String
  hostname : String
  peerAlias : String
  platform : String
  tags : String
  hash : String
  userId : ℕ
  forceAlwaysRelay : Bool
  rdpPort : String
  rdpUsername : String
  online : Bool
  loginName : String
  sameServer : Bool
  collectionId : ℕ
deriving DecidableEq

structure Tag where
  name : String
  userId : ℕ
  color : ℕ
  collectionId : ℕ
deriving DecidableEq

/-- `model.Peer`, as far as the address book reads it. -/
structure AbPeer where
  id : String
  os : String
  username : String
  hostname : String
deriving DecidableEq

def shareAddressBookRuleTypePersonal : ℤ := 1

def shareAddressBookRuleTypeGroup : ℤ := 2

def shareAddressBookRuleRuleRead : ℤ := 1

def shareAddressBookRuleRuleReadWrite : ℤ := 2

def shareAddressBookRuleRuleFullControl : ℤ := 3

/-- A row as it is stored: an empty id as its default, and `nil` as `null`. -/
def AddressBook.stored (ab : AddressBook) : AddressBook :=
  { ab with
    id := if ab.id = "" then "0" else ab.id
    tags := if ab.tags = "" then "null" else ab.tags }

/-- A field of `Updates` with a struct, which skips what is zero. -/
def updatesField {A : Type*} [DecidableEq A] (zero new old : A) : A := if new = zero then old else new

theorem updatesField_of_ne {A : Type*} [DecidableEq A] {zero new : A} (h : new ≠ zero) (old : A) :
    updatesField zero new old = new := if_neg h

/-- The greatest id. -/
def maxId : ℕ := 9_223_372_036_854_775_807

/-- `DB.Create` of a row with the id that it asks for. -/
def createRow {R : Type*} (t : Table R) (id : ℕ) (x : R) : Option (Table R) :=
  if t.idFor id ≤ maxId then t.insertAs id x else none

/-- The tables of the address book and those that it reads. Of a group there is only its name. -/
structure AbTables where
  users : Table AbUser
  groups : Table String
  collections : Table AddressBookCollection
  rules : Table AddressBookCollectionRule
  addressBooks : Table AddressBook
  tags : Table Tag
  peers : Table AbPeer

/-! ## Guids -/

/-- `strings.Split` at one character. -/
def split (sep : Char) : List Char → List (List Char)
  | [] => [[]]
  | c :: cs =>
    if c = sep then [] :: split sep cs
    else
      match split sep cs with
      | [] => [[c]]
      | part :: parts => (c :: part) :: parts

/-- `strconv.Atoi`, with a sign or without, of a number that fits. -/
def atoi (text : List Char) : Option ℤ :=
  let parse (digits : List Char) : Option ℕ :=
    if digits ≠ [] ∧ digits.all Char.isDigit then some (Nat.ofDigitChars 10 digits 0) else none
  match text with
  | '-' :: digits => (parse digits).bind fun n => if n ≤ maxId + 1 then some (-n) else none
  | '+' :: digits => (parse digits).bind fun n => if n ≤ maxId then some n else none
  | digits => (parse digits).bind fun n => if n ≤ maxId then some n else none

/-- The conversion of an `int` to a `uint`. -/
def toUint (n : ℤ) : ℕ := (n % 18_446_744_073_709_551_616).toNat

/-- The conversion of a `uint` to an `int`. -/
def toInt (n : ℕ) : ℤ := if n ≤ maxId then n else n - 18_446_744_073_709_551_616

/-- `strconv.Itoa`. -/
def itoa (n : ℤ) : List Char :=
  if n < 0 then '-' :: Nat.toDigits 10 n.natAbs else Nat.toDigits 10 n.natAbs

def parseGuid (guid : List Char) : ℕ × ℕ × ℕ :=
  match split '-' guid with
  | [g, u, c] =>
    match atoi c, atoi g, atoi u with
    | some c, some g, some u => (toUint g, toUint u, toUint c)
    | _, _, _ => (0, 0, 0)
  | g :: u :: _ =>
    match atoi g, atoi u with
    | some g, some u => (toUint g, toUint u, 0)
    | _, _ => (0, 0, 0)
  | _ => (0, 0, 0)

def composeGuid (gid uid cid : ℕ) : List Char :=
  itoa (toInt gid) ++ '-' :: (itoa (toInt uid) ++ '-' :: itoa (toInt cid))

theorem split_of_not_mem {sep : Char} {part : List Char} (h : sep ∉ part) : split sep part = [part] := by
  induction part with
  | nil => rfl
  | cons c cs ih =>
    rw [List.mem_cons, not_or] at h
    rw [split, if_neg (Ne.symm h.1), ih h.2]

theorem split_append {sep : Char} {part : List Char} (h : sep ∉ part) (rest : List Char) :
    split sep (part ++ sep :: rest) = part :: split sep rest := by
  induction part with
  | nil => simp [split]
  | cons c cs ih =>
    rw [List.mem_cons, not_or] at h
    rw [List.cons_append, split, if_neg (Ne.symm h.1), ih h.2]

theorem itoa_of_le {n : ℕ} (h : n ≤ maxId) : itoa (toInt n) = Nat.toDigits 10 n := by
  rw [toInt, if_pos h, itoa, if_neg (by omega), Int.natAbs_natCast]

theorem not_mem_toDigits {c : Char} (hc : c.isDigit = false) (n : ℕ) : c ∉ Nat.toDigits 10 n := by
  intro h
  have hdigit := Nat.isDigit_of_mem_toDigits (by decide) (by decide) h
  rw [hc] at hdigit
  cases hdigit

theorem atoi_toDigits {n : ℕ} (h : n ≤ maxId) : atoi (Nat.toDigits 10 n) = some (n : ℤ) := by
  have hdigits : (Nat.toDigits 10 n).all Char.isDigit = true :=
    List.all_eq_true.mpr fun c hc => Nat.isDigit_of_mem_toDigits (by decide) (by decide) hc
  have hminus : '-' ∉ Nat.toDigits 10 n := not_mem_toDigits (by decide) n
  have hplus : '+' ∉ Nat.toDigits 10 n := not_mem_toDigits (by decide) n
  have hvalue : Nat.ofDigitChars 10 (Nat.toDigits 10 n) 0 = n := Nat.ofDigitChars_ten_toDigits
  have hne : Nat.toDigits 10 n ≠ [] := Nat.toDigits_ne_nil
  revert hdigits hminus hplus hvalue hne
  generalize Nat.toDigits 10 n = text
  intro hdigits hminus hplus hvalue hne
  unfold atoi
  split
  · exact (hminus List.mem_cons_self).elim
  · exact (hplus List.mem_cons_self).elim
  · simp only [hdigits, hne, hvalue, ne_eq, not_false_eq_true, and_self, if_true, Option.bind_some, if_pos h]

theorem toUint_natCast {n : ℕ} (h : n ≤ maxId) : toUint (n : ℤ) = n := by
  unfold maxId at h
  unfold toUint
  omega

/-- `ParseGuid` reads back what `ComposeGuid` wrote. -/
theorem parseGuid_composeGuid {gid uid cid : ℕ} (hg : gid ≤ maxId) (hu : uid ≤ maxId) (hc : cid ≤ maxId) :
    parseGuid (composeGuid gid uid cid) = (gid, uid, cid) := by
  have hdash (n : ℕ) : '-' ∉ Nat.toDigits 10 n := not_mem_toDigits (by decide) n
  rw [parseGuid, composeGuid, itoa_of_le hg, itoa_of_le hu, itoa_of_le hc, split_append (hdash gid),
    split_append (hdash uid), split_of_not_mem (hdash cid)]
  simp only [atoi_toDigits hg, atoi_toDigits hu, atoi_toDigits hc, toUint_natCast hg, toUint_natCast hu,
    toUint_natCast hc]

/-! ## Services -/

namespace AbTables

variable (s : AbTables)

/-- `UserService.InfoById`. -/
def userInfoById (id : ℕ) : Option (ℕ × AbUser) := s.users.first fun r => r.1 = id

/-- `GroupService.InfoById`. -/
def groupInfoById (id : ℕ) : Option (ℕ × String) := s.groups.first fun r => r.1 = id

def collectionInfoById (id : ℕ) : Option (ℕ × AddressBookCollection) :=
  s.collections.first fun r => r.1 = id

def ruleInfoById (id : ℕ) : Option (ℕ × AddressBookCollectionRule) := s.rules.first fun r => r.1 = id

def ruleInfoByToIdAndCid (ruleType : ℤ) (toId cid : ℕ) : Option (ℕ × AddressBookCollectionRule) :=
  s.rules.first fun r => r.2.ruleType = ruleType && r.2.toId = toId && r.2.collectionId = cid

/-- `CheckCollectionOwner`, also of a collection that is not there, whose owner is 0. -/
def checkCollectionOwner (uid cid : ℕ) : Bool :=
  ((s.collectionInfoById cid).map (·.2.userId)).getD 0 = uid

def userMaxRule (user : ℕ × AbUser) (uid cid : ℕ) : ℤ :=
  if user.1 = uid then shareAddressBookRuleRuleFullControl
  else
    let personalRules := s.ruleInfoByToIdAndCid shareAddressBookRuleTypePersonal user.1 cid
    let max := (personalRules.map (·.2.rule)).getD 0
    if max = shareAddressBookRuleRuleFullControl then max
    else
      match s.ruleInfoByToIdAndCid shareAddressBookRuleTypeGroup user.2.groupId cid with
      | none => max
      | some groupRules => if max < groupRules.2.rule then groupRules.2.rule else max

def checkUserReadPrivilege (user : ℕ × AbUser) (uid cid : ℕ) : Bool :=
  shareAddressBookRuleRuleRead ≤ s.userMaxRule user uid cid

def checkUserWritePrivilege (user : ℕ × AbUser) (uid cid : ℕ) : Bool :=
  shareAddressBookRuleRuleReadWrite ≤ s.userMaxRule user uid cid

def checkUserFullControlPrivilege (user : ℕ × AbUser) (uid cid : ℕ) : Bool :=
  shareAddressBookRuleRuleFullControl ≤ s.userMaxRule user uid cid

def collectionReadRules (user : ℕ × AbUser) : List (ℕ × AddressBookCollectionRule) :=
  (s.rules.select fun r =>
      r.2.ruleType = shareAddressBookRuleTypePersonal && r.2.toId = user.1 && 0 < r.2.rule) ++
    s.rules.select fun r =>
      r.2.ruleType = shareAddressBookRuleTypeGroup && r.2.toId = user.2.groupId && 0 < r.2.rule

/-- The peers of a user in a collection. -/
def booksOf (uid cid : ℕ) : List (ℕ × AddressBook) :=
  s.addressBooks.select fun r => r.2.userId = uid && r.2.collectionId = cid

/-- The tags of a user in a collection. -/
def tagsOf (uid cid : ℕ) : List (ℕ × Tag) :=
  s.tags.select fun r => r.2.userId = uid && r.2.collectionId = cid

/-- `AddressBookService.ListByUserIdAndCollectionId`, the first page of 1000. -/
def listBooks (uid cid : ℕ) : List (ℕ × AddressBook) := (s.booksOf uid cid).take 1000

/-- `TagService.ListByUserIdAndCollectionId`. -/
def listTags (uid cid : ℕ) : List (ℕ × Tag) :=
  ((s.tagsOf uid cid).mergeSort fun a b => a.2.name ≤ b.2.name).take 1000

def infoByUserIdAndIdAndCid (uid : ℕ) (id : String) (cid : ℕ) : Option (ℕ × AddressBook) :=
  s.addressBooks.first fun r => r.2.userId = uid && r.2.id = id && r.2.collectionId = cid

def infoByUserIdAndNameAndCollectionId (uid : ℕ) (name : String) (cid : ℕ) : Option (ℕ × Tag) :=
  s.tags.first fun r => r.2.userId = uid && r.2.name = name && r.2.collectionId = cid

/-- `PeerService.FindById`. -/
def findById (id : String) : Option (ℕ × AbPeer) := s.peers.first fun r => r.2.id = id

/-- `AddAddressBook`. -/
def addAddressBook (rowId : ℕ) (ab : AddressBook) : Option AbTables :=
  (createRow s.addressBooks rowId ab.stored).map fun addressBooks => { s with addressBooks }

end AbTables

/-- `strings.Contains`. -/
def contains (text part : String) : Bool := part.toList <:+: text.toList

def platformFromOs (os : String) : String :=
  if contains os "Android" || contains os "android" then "Android"
  else if contains os "Windows" || contains os "windows" then "Windows"
  else if contains os "Linux" || contains os "linux" then "Linux"
  else if contains os "mac" || contains os "Mac" then "Mac OS"
  else ""

/-- What `PeerAdd` and `UpdateAddressBook` fill in from the peer with the id, if something is missing. -/
def AbTables.fillFromPeer (s : AbTables) (ab : AddressBook) : AddressBook :=
  if ab.platform = "" ∨ ab.username = "" ∨ ab.hostname = "" then
    match s.findById ab.id with
    | some peer =>
      { ab with
        platform := platformFromOs peer.2.os
        username := peer.2.username
        hostname := peer.2.hostname }
    | none => ab
  else ab

theorem AbTables.fillFromPeer_owner (s : AbTables) (ab : AddressBook) :
    (s.fillFromPeer ab).userId = ab.userId ∧ (s.fillFromPeer ab).collectionId = ab.collectionId := by
  unfold fillFromPeer
  split
  · split <;> exact ⟨rfl, rfl⟩
  · exact ⟨rfl, rfl⟩

end RustDesk.Api
