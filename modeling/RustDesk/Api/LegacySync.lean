import RustDesk.Api.AddressBookAccess

/-!
# The address book in one piece

References: `rustdesk-api/http/controller/api/ab.go` (`Ab`, `UpAb`), `service/addressBook.go`
(`UpdateAddressBook`), `service/tag.go` (`UpdateTags`), `http/request/api/peer.go`.

A client gets all its peers and tags and posts them back. `UpAb` compares what is posted with the rows of the
user in all collections and matches them by the id of the peer alone, while `Ab` reads collection 0. JSON is
without blanks, the loop over a map goes through it in the order of the body, times are left out, and ids of
rows do not run out.
-/

namespace RustDesk.Api

/-- A peer in a body, with the row id that it brings, if not 0, and its collection, if any. -/
structure PostedPeer where
  rowId : ℕ
  book : AddressBook
  collection : Option (ℕ × AddressBookCollection)
deriving DecidableEq

/-- The body of `UpAb`, with the entries of `tag_colors`. -/
structure AddressBookFormData where
  peers : List PostedPeer
  tagColors : List (String × ℕ)
deriving DecidableEq

/-- What `Ab` answers. -/
structure AbList where
  peers : List (ℕ × AddressBook)
  tags : List String
  tagColors : List (String × ℕ)
deriving DecidableEq

/-- The answer of `Ab` as a body. -/
def AbList.body (res : AbList) : AddressBookFormData where
  peers := res.peers.map fun r => ⟨r.1, r.2, none⟩
  tagColors := res.tagColors

/-- `Updates` with a peer. -/
def updatesBook (new old : AddressBook) : AddressBook where
  id := updatesField "" new.id old.id
  username := updatesField "" new.username old.username
  password := updatesField "" new.password old.password
  hostname := updatesField "" new.hostname old.hostname
  peerAlias := updatesField "" new.peerAlias old.peerAlias
  platform := updatesField "" new.platform old.platform
  tags := updatesField "" new.tags old.tags
  hash := updatesField "" new.hash old.hash
  userId := updatesField 0 new.userId old.userId
  forceAlwaysRelay := updatesField false new.forceAlwaysRelay old.forceAlwaysRelay
  rdpPort := updatesField "" new.rdpPort old.rdpPort
  rdpUsername := updatesField "" new.rdpUsername old.rdpUsername
  online := updatesField false new.online old.online
  loginName := updatesField "" new.loginName old.loginName
  sameServer := updatesField false new.sameServer old.sameServer
  collectionId := updatesField 0 new.collectionId old.collectionId

/-- `Updates` of the row with an id. A row id in the peer is a field like the others, and where another row
has it, the statement fails. -/
def updatesRow (t : Table AddressBook) (rowId : ℕ) (p : PostedPeer) : Table AddressBook :=
  if p.rowId = 0 ∨ p.rowId = rowId then t.update (fun r => r.1 = rowId) (updatesBook p.book)
  else if t.rows.any fun r => r.1 = p.rowId then t
  else
    match t.first fun r => r.1 = rowId with
    | none => t
    | some r => (t.delete fun r => r.1 = rowId).place p.rowId (updatesBook p.book r.2)

/-- `aBIds`: of the peers with one id the last. -/
def aBIds : List PostedPeer → List PostedPeer
  | [] => []
  | p :: ps => if ps.any fun p' => p'.book.id = p.book.id then aBIds ps else p :: aBIds ps

/-- `dbABIds`: of the rows with one id the last. -/
def dbABIds (dbABs : List (ℕ × AddressBook)) : String → Option (ℕ × AddressBook) :=
  dbABs.foldl (fun m dbAb => Function.update m dbAb.2.id (some dbAb)) fun _ => none

/-- An entry of `tagColors`. -/
def setColor (tagColors : List (String × ℕ)) (tag : ℕ × Tag) : List (String × ℕ) :=
  if tagColors.any fun e => e.1 = tag.2.name then
    tagColors.map fun e => if e.1 = tag.2.name then (e.1, tag.2.color) else e
  else tagColors ++ [(tag.2.name, tag.2.color)]

/-- A turn of the loop of `UpdateTags` over the tags that there are, with the posted ones that are left. -/
def visitTag (acc : Table Tag × List (String × ℕ)) (t : ℕ × Tag) : Table Tag × List (String × ℕ) :=
  match acc.2.lookup t.2.name with
  | none => (acc.1.delete fun r => r.1 = t.1, acc.2)
  | some color =>
    (if color ≠ t.2.color then acc.1.update (fun r => r.1 = t.1) fun _ => { t.2 with color := color }
      else acc.1,
      acc.2.filter fun e => e.1 ≠ t.2.name)

namespace AbTables

variable (s : AbTables)

/-- `Ab`. -/
def ab (userId : ℕ) : AbList :=
  let tags := s.listTags userId 0
  ⟨s.listBooks userId 0, tags.map fun tag => tag.2.name, tags.foldl setColor []⟩

/-- `Create` of a posted peer, whose error is ignored. -/
def createBook (p : PostedPeer) : AbTables :=
  let ab := s.fillFromPeer p.book
  let created :=
    match p.collection with
    | none => some (s, ab.collectionId)
    | some c => s.createCollectionOf c.1 c.2
  match created with
  | none => s
  | some (s, cid) =>
    { s with
      addressBooks :=
        (s.addressBooks.insertAs p.rowId { ab with collectionId := cid }.stored).getD s.addressBooks }

/-- A turn of the loop over the posted peers. -/
def putPeer (userId : ℕ) (dbABIds : String → Option (ℕ × AddressBook)) (s : AbTables) (p : PostedPeer) :
    AbTables :=
  let p := { p with book := { p.book with userId := userId } }
  match dbABIds p.book.id with
  | none => s.createBook p
  | some dbAB => { s with addressBooks := updatesRow s.addressBooks dbAB.1 p }

/-- The rows of a user. -/
def dbABs (userId : ℕ) : List (ℕ × AddressBook) := s.addressBooks.select fun r => r.2.userId = userId

/-- The rows that `UpdateAddressBook` deletes: of those with an id that was not posted the last. -/
def gone (userId : ℕ) (abs : List PostedPeer) : List (ℕ × AddressBook) :=
  (s.dbABs userId).filter fun r =>
    dbABIds (s.dbABs userId) r.2.id = some r && !(abs.any fun p => p.book.id = r.2.id)

def updateAddressBook (abs : List PostedPeer) (userId : ℕ) : AbTables :=
  let put := (aBIds abs).foldl (putPeer userId (dbABIds (s.dbABs userId))) s
  { put with
    addressBooks := put.addressBooks.delete fun row => (s.gone userId abs).any fun r => r.1 = row.1 }

def updateTags (userId : ℕ) (tags : List (String × ℕ)) : AbTables :=
  let allTags := s.tags.select fun r => r.2.userId = userId
  let left := allTags.foldl visitTag (s.tags, tags)
  { s with tags := left.2.foldl (fun t e => t.insert ⟨e.1, userId, e.2, 0⟩) left.1 }

/-- `UpAb`. -/
def upAb (userId : ℕ) (abd : AddressBookFormData) : AbTables :=
  (s.updateAddressBook abd.peers userId).updateTags userId abd.tagColors

end AbTables

/-! ## What is asked of a sync -/

/-- What a client sees of a peer: all but the user, the collection and the row, and `nil` as `null`. -/
def AddressBook.content (ab : AddressBook) : AddressBook :=
  { ab with
    userId := 0
    collectionId := 0
    tags := if ab.tags = "" then "null" else ab.tags }

/-- A body as it is taken for granted: peers with different ids, each with its platform, user name and host
name, different tags, and at most 1000 of both. -/
structure AddressBookFormData.Valid (abd : AddressBookFormData) : Prop where
  ids : (abd.peers.map (·.book.id)).Nodup
  given : ∀ p ∈ abd.peers, p.book.platform ≠ "" ∧ p.book.username ≠ "" ∧ p.book.hostname ≠ ""
  peers : abd.peers.length ≤ 1000
  names : (abd.tagColors.map (·.1)).Nodup
  tags : abd.tagColors.length ≤ 1000

/-- Afterwards `Ab` answers what was posted, other collections and users have what they had, and posting the
answer changes nothing. -/
structure AbTables.SyncsExactly (s : AbTables) (userId : ℕ) (abd : AddressBookFormData) : Prop where
  peers : (((s.upAb userId abd).ab userId).peers.map (·.2.content)).Perm (abd.peers.map (·.book.content))
  tagColors : ((s.upAb userId abd).ab userId).tagColors.Perm abd.tagColors
  books : ∀ uid cid, (uid, cid) ≠ (userId, 0) → (s.upAb userId abd).booksOf uid cid = s.booksOf uid cid
  tags : ∀ uid cid, (uid, cid) ≠ (userId, 0) → (s.upAb userId abd).tagsOf uid cid = s.tagsOf uid cid
  againBooks : ((s.upAb userId abd).upAb userId ((s.upAb userId abd).ab userId).body).addressBooks.rows =
    (s.upAb userId abd).addressBooks.rows
  againTags : ((s.upAb userId abd).upAb userId ((s.upAb userId abd).ab userId).body).tags.rows =
    (s.upAb userId abd).tags.rows

/-- What a peer leaves empty is empty in the row. -/
structure AddressBook.ClearsNothing (p r : AddressBook) : Prop where
  password : p.password = "" → r.password = ""
  peerAlias : p.peerAlias = "" → r.peerAlias = ""
  tags : p.tags = "" → r.tags = "" ∨ r.tags = "null"
  hash : p.hash = "" → r.hash = ""
  forceAlwaysRelay : p.forceAlwaysRelay = false → r.forceAlwaysRelay = false
  rdpPort : p.rdpPort = "" → r.rdpPort = ""
  rdpUsername : p.rdpUsername = "" → r.rdpUsername = ""
  online : p.online = false → r.online = false
  loginName : p.loginName = "" → r.loginName = ""
  sameServer : p.sameServer = false → r.sameServer = false

/-- What a peer does not leave empty the row has. -/
structure AddressBook.AgreesWith (p r : AddressBook) : Prop where
  username : p.username ≠ "" → r.username = p.username
  password : p.password ≠ "" → r.password = p.password
  hostname : p.hostname ≠ "" → r.hostname = p.hostname
  peerAlias : p.peerAlias ≠ "" → r.peerAlias = p.peerAlias
  platform : p.platform ≠ "" → r.platform = p.platform
  tags : p.tags ≠ "" → r.tags = p.tags
  hash : p.hash ≠ "" → r.hash = p.hash
  forceAlwaysRelay : p.forceAlwaysRelay = true → r.forceAlwaysRelay = true
  rdpPort : p.rdpPort ≠ "" → r.rdpPort = p.rdpPort
  rdpUsername : p.rdpUsername ≠ "" → r.rdpUsername = p.rdpUsername
  online : p.online = true → r.online = true
  loginName : p.loginName ≠ "" → r.loginName = p.loginName
  sameServer : p.sameServer = true → r.sameServer = true
  collectionId : p.collectionId ≠ 0 → r.collectionId = p.collectionId

namespace AbTables

/-- The last of a user's rows with the id of a peer. -/
def lastOf (s : AbTables) (userId : ℕ) (id : String) : Option (ℕ × AddressBook) := dbABIds (s.dbABs userId) id

/-- A row is the only one of its id among some rows. -/
def OnlyIn (rows : List (ℕ × AddressBook)) (r : ℕ × AddressBook) : Prop :=
  r ∈ rows ∧ ∀ r' ∈ rows, r'.2.id = r.2.id → r' = r

/-- A row id in the body is that of the row that the peer goes to. -/
def KeepsRowIds (s : AbTables) (userId : ℕ) (abd : AddressBookFormData) : Prop :=
  ∀ p ∈ abd.peers, p.rowId = 0 ∨ ∃ r, s.lastOf userId p.book.id = some r ∧ p.rowId = r.1

/-- The rows of collection 0 with a posted id that `Ab` has room for. -/
def listed (s : AbTables) (userId : ℕ) (abd : AddressBookFormData) : List (ℕ × AddressBook) :=
  ((s.booksOf userId 0).filter fun r => abd.peers.any fun p => p.book.id = r.2.id).take 1000

/-- What the rows have to be for a body to be synced. -/
structure Syncable (s : AbTables) (userId : ℕ) (abd : AddressBookFormData) : Prop where
  rowIds : s.KeepsRowIds userId abd
  created : ∀ p ∈ abd.peers, s.lastOf userId p.book.id = none →
    p.book.id ≠ "" ∧ p.book.collectionId = 0 ∧ p.collection = none
  kept : ∀ p ∈ abd.peers, ∀ r, s.lastOf userId p.book.id = some r →
    if r.2.collectionId = 0 then p.book.collectionId = 0 else p.book.AgreesWith r.2
  shown : ∀ p ∈ abd.peers, ∀ r, s.lastOf userId p.book.id = some r →
    ∃ r', OnlyIn (s.listed userId abd) r' ∧
      if r' = r then p.book.ClearsNothing r.2 else r'.2.content = p.book.content
  deleted : ∀ r ∈ s.dbABs userId, (∀ p ∈ abd.peers, p.book.id ≠ r.2.id) →
    r.2.collectionId = 0 ∧ OnlyIn (s.dbABs userId) r
  tags : ∀ t ∈ s.tags.rows, t.2.userId = userId → t.2.collectionId = 0

/-- Ids are given from 1 on. -/
structure Numbered (s : AbTables) : Prop where
  addressBooks : ∀ r ∈ s.addressBooks.rows, r.1 ≠ 0
  nextBook : s.addressBooks.next ≠ 0
  collections : ∀ c ∈ s.collections.rows, c.1 ≠ 0
  nextCollection : s.collections.next ≠ 0

end AbTables

end RustDesk.Api
