import RustDesk.Api.AddressBook

/-!
# Who reads and writes an address book

Reference: `rustdesk-api/http/controller/api/ab.go` (`PTags` to `TagDel`, `CheckGuid` to `PeerUpdate`).

An endpoint checks the guid and the level of the caller, and then reads and writes the rows of one user and
collection. `confined_of_plain` says that these are rows that the caller may read or write. There is a way around:
`TagAdd` binds the whole tag, and with a collection in it the tag goes there.
-/

namespace RustDesk.Api

/-- What an endpoint answers: an error, if any, and the rows that its statements selected. -/
structure AbReply where
  error : Option String
  peers : List (ℕ × AddressBook)
  tags : List (ℕ × Tag)
deriving DecidableEq

/-- A request to an endpoint, with its body. An id in a body is 0 if it is not given. Of the fields of a
`PeerUpdate` these are the ones that are strings, and `tags`, whose value is its JSON. -/
inductive AbCall
  | peers
  | peerAdd (rowId : ℕ) (f : AddressBook) (forceAlwaysRelay : String)
  | peerDel (ids : List String)
  | peerUpdate (id : Option String) (f : List (String × String))
  | pTags
  | tagAdd (id : ℕ) (t : Tag) (collection : Option (ℕ × AddressBookCollection))
  | tagRename (old new : String)
  | tagUpdate (name : String) (color : ℕ)
  | tagDel (names : List String)
deriving DecidableEq

def AbReply.fail (error : String) : AbReply := ⟨some error, [], []⟩

namespace AbTables

variable (s : AbTables)

/-- `CheckGuid`. `none` is `ParamsError`. -/
def checkGuid (cu : ℕ × AbUser) (guid : List Char) : Option (ℕ × ℕ × ℕ) :=
  let (gid, uid, cid) := parseGuid guid
  if gid = 0 ∨ uid = 0 then none
  else
    match if cu.1 = uid then some cu else s.userInfoById uid with
    | none => none
    | some u =>
      if u.2.groupId ≠ gid then none
      else if cid = 0 ∧ cu.1 ≠ uid then none
      else if 0 < cid then
        match s.collectionInfoById cid with
        | none => none
        | some c => if c.2.userId ≠ uid then none else some (gid, uid, cid)
      else some (gid, uid, cid)

/-- An endpoint that goes on after `CheckGuid` and the check of the privilege. -/
def guarded (cu : ℕ × AbUser) (guid : List Char) (check : ℕ → ℕ → Bool)
    (body : ℕ → ℕ → AbReply × AbTables) : AbReply × AbTables :=
  match s.checkGuid cu guid with
  | none => (.fail "ParamsError", s)
  | some (_, uid, cid) => if check uid cid then body uid cid else (.fail "NoAccess", s)

/-! ## Peers -/

def peersOf (cu : ℕ × AbUser) (guid : List Char) : AbReply × AbTables :=
  s.guarded cu guid (s.checkUserReadPrivilege cu) fun uid cid =>
    (⟨none, s.listBooks uid cid, []⟩, s)

def peerAdd (cu : ℕ × AbUser) (guid : List Char) (rowId : ℕ) (f : AddressBook) (forceAlwaysRelay : String) :
    AbReply × AbTables :=
  s.guarded cu guid (s.checkUserWritePrivilege cu) fun uid cid =>
    let ab := { f with
      userId := uid
      forceAlwaysRelay := forceAlwaysRelay = "true"
      collectionId := cid }
    match s.addAddressBook rowId (s.fillFromPeer ab) with
    | none => (.fail "OperationFailed", s)
    | some s => (⟨none, [], []⟩, s)

/-- The loop of `PeerDel`, with the rows that it has found. -/
def deletePeers (s : AbTables) (uid cid : ℕ) (found : List (ℕ × AddressBook)) :
    List String → AbReply × AbTables
  | [] => (⟨none, found, []⟩, s)
  | id :: ids =>
    match s.infoByUserIdAndIdAndCid uid id cid with
    | none => (⟨some "ItemNotFound", found, []⟩, s)
    | some ab =>
      deletePeers { s with addressBooks := s.addressBooks.delete fun r => r.1 = ab.1 } uid cid (ab :: found)
        ids

def peerDel (cu : ℕ × AbUser) (guid : List Char) (ids : List String) : AbReply × AbTables :=
  s.guarded cu guid (s.checkUserFullControlPrivilege cu) fun uid cid =>
    s.deletePeers uid cid [] ids

/-- One of the fields that `PeerUpdate` allows. Other fields are dropped. -/
def setField (ab : AddressBook) : String × String → AddressBook
  | ("password", value) => { ab with password := value }
  | ("hash", value) => { ab with hash := value }
  | ("tags", value) => { ab with tags := value }
  | ("alias", value) => { ab with peerAlias := value }
  | _ => ab

def peerUpdate (cu : ℕ × AbUser) (guid : List Char) (id : Option String) (f : List (String × String)) :
    AbReply × AbTables :=
  s.guarded cu guid (s.checkUserWritePrivilege cu) fun uid cid =>
    match id with
    | none => (.fail "ParamsError", s)
    | some id =>
      match s.infoByUserIdAndIdAndCid uid id cid with
      | none => (.fail "ItemNotFound", s)
      | some ab =>
        (⟨none, [ab], []⟩,
          { s with addressBooks := s.addressBooks.update (fun r => r.1 = ab.1) fun r => f.foldl setField r })

/-! ## Tags -/

def pTags (cu : ℕ × AbUser) (guid : List Char) : AbReply × AbTables :=
  s.guarded cu guid (s.checkUserReadPrivilege cu) fun uid cid =>
    (⟨none, [], s.listTags uid cid⟩, s)

/-- `TagService.Create`. -/
def createTag (id : ℕ) (t : Tag) : Option AbTables :=
  (createRow s.tags id t).map fun tags => { s with tags }

/-- What `Create` does with the collection of a row: the tables with it, and its id. -/
def createCollectionOf (id : ℕ) (collection : AddressBookCollection) : Option (AbTables × ℕ) :=
  if (s.collectionInfoById id).isSome then some (s, id)
  else
    (createRow s.collections id collection).map fun collections =>
      ({ s with collections }, s.collections.idFor id)

def tagAdd (cu : ℕ × AbUser) (guid : List Char) (id : ℕ) (t : Tag)
    (collection : Option (ℕ × AddressBookCollection)) : AbReply × AbTables :=
  s.guarded cu guid (s.checkUserWritePrivilege cu) fun uid cid =>
    match s.infoByUserIdAndNameAndCollectionId uid t.name cid with
    | some tag => (⟨some "ItemExists", [], [tag]⟩, s)
    | none =>
      let t := { t with userId := uid, collectionId := cid }
      let created :=
        match collection with
        | none => s.createTag id t
        | some c =>
          (s.createCollectionOf c.1 c.2).bind fun (s, cid) => s.createTag id { t with collectionId := cid }
      match created with
      | none => (.fail "OperationFailed", s)
      | some s => (⟨none, [], []⟩, s)

/-- `TagService.Update`. -/
def updateTag (tag : ℕ × Tag) : AbTables :=
  { s with tags := s.tags.update (fun r => r.1 = tag.1) fun _ => tag.2 }

def tagRename (cu : ℕ × AbUser) (guid : List Char) (old new : String) : AbReply × AbTables :=
  s.guarded cu guid (s.checkUserWritePrivilege cu) fun uid cid =>
    match s.infoByUserIdAndNameAndCollectionId uid old cid with
    | none => (.fail "ItemNotFound", s)
    | some tag =>
      match s.infoByUserIdAndNameAndCollectionId uid new cid with
      | some ntag => (⟨some "ItemExists", [], [tag, ntag]⟩, s)
      | none => (⟨none, [], [tag]⟩, s.updateTag (tag.1, { tag.2 with name := new }))

def tagUpdate (cu : ℕ × AbUser) (guid : List Char) (name : String) (color : ℕ) : AbReply × AbTables :=
  s.guarded cu guid (s.checkUserWritePrivilege cu) fun uid cid =>
    match s.infoByUserIdAndNameAndCollectionId uid name cid with
    | none => (.fail "ItemNotFound", s)
    | some tag => (⟨none, [], [tag]⟩, s.updateTag (tag.1, { tag.2 with color := color }))

/-- The loop of `TagDel`, with the rows that it has found. -/
def deleteTags (s : AbTables) (uid cid : ℕ) (found : List (ℕ × Tag)) : List String → AbReply × AbTables
  | [] => (⟨none, [], found⟩, s)
  | name :: names =>
    match s.infoByUserIdAndNameAndCollectionId uid name cid with
    | none => (⟨some "ItemNotFound", [], found⟩, s)
    | some tag =>
      deleteTags { s with tags := s.tags.delete fun r => r.1 = tag.1 } uid cid (tag :: found) names

def tagDel (cu : ℕ × AbUser) (guid : List Char) (names : List String) : AbReply × AbTables :=
  s.guarded cu guid (s.checkUserFullControlPrivilege cu) fun uid cid =>
    s.deleteTags uid cid [] names

/-- What a request does. -/
def handle (cu : ℕ × AbUser) (guid : List Char) : AbCall → AbReply × AbTables
  | .peers => s.peersOf cu guid
  | .peerAdd rowId f forceAlwaysRelay => s.peerAdd cu guid rowId f forceAlwaysRelay
  | .peerDel ids => s.peerDel cu guid ids
  | .peerUpdate id f => s.peerUpdate cu guid id f
  | .pTags => s.pTags cu guid
  | .tagAdd id t collection => s.tagAdd cu guid id t collection
  | .tagRename old new => s.tagRename cu guid old new
  | .tagUpdate name color => s.tagUpdate cu guid name color
  | .tagDel names => s.tagDel cu guid names

end AbTables

/-! ## What is asked of an endpoint -/

/-- The level that an endpoint needs. -/
def AbCall.level : AbCall → ℤ
  | .peers | .pTags => shareAddressBookRuleRuleRead
  | .peerAdd .. | .peerUpdate .. | .tagAdd .. | .tagRename .. | .tagUpdate .. =>
    shareAddressBookRuleRuleReadWrite
  | .peerDel _ | .tagDel _ => shareAddressBookRuleRuleFullControl

/-- The body has no collection. -/
def AbCall.Plain : AbCall → Prop
  | .tagAdd _ _ (some _) => False
  | _ => True

/-- A rule shares with a user, or with the group of the user. -/
def AddressBookCollectionRule.SharedWith (r : AddressBookCollectionRule) (cu : ℕ × AbUser) : Prop :=
  r.ruleType = shareAddressBookRuleTypePersonal ∧ r.toId = cu.1 ∨
    r.ruleType = shareAddressBookRuleTypeGroup ∧ r.toId = cu.2.groupId

namespace AbTables

/-- The rows of `(uid, cid)` are the caller's, or `cid` is a collection of `uid` for which a rule shared with
the caller reaches the level. -/
def Granted (s : AbTables) (cu : ℕ × AbUser) (uid cid : ℕ) (level : ℤ) : Prop :=
  cu.1 = uid ∨ 0 < cid ∧ (∃ c ∈ s.collections.rows, c.1 = cid ∧ c.2.userId = uid) ∧
    ∃ r ∈ s.rules.rows, r.2.collectionId = cid ∧ r.2.SharedWith cu ∧ level ≤ r.2.rule

/-- A row of `(uid, cid)` was read, or the rows of `(uid, cid)` changed. -/
def Touches (s : AbTables) (out : AbReply × AbTables) (uid cid : ℕ) : Prop :=
  (∃ r ∈ out.1.peers, r.2.userId = uid ∧ r.2.collectionId = cid) ∨
    (∃ r ∈ out.1.tags, r.2.userId = uid ∧ r.2.collectionId = cid) ∨
    out.2.booksOf uid cid ≠ s.booksOf uid cid ∨ out.2.tagsOf uid cid ≠ s.tagsOf uid cid

/-- A request reads and changes what the caller may read and change. -/
def Confined (s : AbTables) (cu : ℕ × AbUser) (guid : List Char) (call : AbCall) : Prop :=
  ∀ uid cid, s.Touches (s.handle cu guid call) uid cid → s.Granted cu uid cid call.level

/-- Only rows of `(uid, cid)` are read and changed, and no other table. -/
structure Within (s : AbTables) (uid cid : ℕ) (out : AbReply × AbTables) : Prop where
  peers : ∀ r ∈ out.1.peers, r.2.userId = uid ∧ r.2.collectionId = cid
  tags : ∀ r ∈ out.1.tags, r.2.userId = uid ∧ r.2.collectionId = cid
  books : ∀ uid' cid', (uid', cid') ≠ (uid, cid) → out.2.booksOf uid' cid' = s.booksOf uid' cid'
  tagRows : ∀ uid' cid', (uid', cid') ≠ (uid, cid) → out.2.tagsOf uid' cid' = s.tagsOf uid' cid'
  same : out.2 = { s with addressBooks := out.2.addressBooks, tags := out.2.tags }

section

variable {s : AbTables} {cu : ℕ × AbUser} {guid : List Char} {uid cid : ℕ} {level : ℤ} {t : AbTables}
  {call : AbCall}

/-! ## Guids and rules -/

/-- What a guid that is accepted names. -/
theorem checkGuid_some {gid : ℕ} (h : s.checkGuid cu guid = some (gid, uid, cid)) :
    parseGuid guid = (gid, uid, cid) ∧ (cid = 0 → cu.1 = uid) ∧
      (0 < cid → ∃ c ∈ s.collections.rows, c.1 = cid ∧ c.2.userId = uid) := by
  unfold checkGuid at h
  generalize parseGuid guid = parts at h ⊢
  obtain ⟨gid', uid', cid'⟩ := parts
  simp only at h
  split at h
  · cases h
  · split at h
    · cases h
    · split at h
      · cases h
      · split at h
        · cases h
        · next hown =>
          split at h
          · next hpos =>
            split at h
            · cases h
            · next c hc =>
              split at h
              · cases h
              · next howner =>
                cases h
                have hid := Table.first_sat hc
                rw [decide_eq_true_iff] at hid
                exact ⟨rfl, fun hzero => absurd hzero (Nat.ne_of_gt hpos),
                  fun _ => ⟨c, Table.mem_of_first hc, hid, not_not.mp howner⟩⟩
          · next hpos =>
            cases h
            exact ⟨rfl, fun hzero => not_not.mp fun hne => hown ⟨hzero, hne⟩, fun h => absurd h hpos⟩

/-- A rule of a kind that is looked up. -/
theorem ruleInfoByToIdAndCid_some {ruleType : ℤ} {toId : ℕ} {r : ℕ × AddressBookCollectionRule}
    (h : s.ruleInfoByToIdAndCid ruleType toId cid = some r) :
    r ∈ s.rules.rows ∧ r.2.ruleType = ruleType ∧ r.2.toId = toId ∧ r.2.collectionId = cid := by
  refine ⟨Table.mem_of_first h, ?_⟩
  have hsat := Table.first_sat h
  simpa [and_assoc] using hsat

/-- A level above none that a user has for the collection of another is that of a rule. -/
theorem rule_of_userMaxRule (hne : cu.1 ≠ uid) (hpos : 0 < s.userMaxRule cu uid cid) :
    ∃ r ∈ s.rules.rows, r.2.collectionId = cid ∧ r.2.SharedWith cu ∧ r.2.rule = s.userMaxRule cu uid cid := by
  unfold userMaxRule at hpos ⊢
  rw [if_neg hne] at hpos ⊢
  cases hpersonal : s.ruleInfoByToIdAndCid shareAddressBookRuleTypePersonal cu.1 cid with
  | none =>
    rw [hpersonal] at hpos
    cases hgroup : s.ruleInfoByToIdAndCid shareAddressBookRuleTypeGroup cu.2.groupId cid with
    | none => simp [hgroup, shareAddressBookRuleRuleFullControl] at hpos
    | some r' =>
      obtain ⟨hmem, htype, hto, hcid⟩ := ruleInfoByToIdAndCid_some hgroup
      have hr' : 0 < r'.2.rule := by
        by_contra hle
        simp [hgroup, shareAddressBookRuleRuleFullControl, hle] at hpos
      exact ⟨r', hmem, hcid, .inr ⟨htype, hto⟩, by simp [shareAddressBookRuleRuleFullControl, hr']⟩
  | some r =>
    obtain ⟨hmem, htype, hto, hcid⟩ := ruleInfoByToIdAndCid_some hpersonal
    by_cases hfull : r.2.rule = shareAddressBookRuleRuleFullControl
    · exact ⟨r, hmem, hcid, .inl ⟨htype, hto⟩, by simp [hfull]⟩
    · cases hgroup : s.ruleInfoByToIdAndCid shareAddressBookRuleTypeGroup cu.2.groupId cid with
      | none => exact ⟨r, hmem, hcid, .inl ⟨htype, hto⟩, by simp [hfull]⟩
      | some r' =>
        by_cases hless : r.2.rule < r'.2.rule
        · obtain ⟨hmem', htype', hto', hcid'⟩ := ruleInfoByToIdAndCid_some hgroup
          exact ⟨r', hmem', hcid', .inr ⟨htype', hto'⟩, by simp [hfull, hless]⟩
        · exact ⟨r, hmem, hcid, .inl ⟨htype, hto⟩, by simp [hfull, hless]⟩

/-- An endpoint that stays within what it was guarded for is confined. -/
theorem granted_of_guarded {check : ℕ → ℕ → Bool} {body : ℕ → ℕ → AbReply × AbTables}
    (hlevel : 0 < level) (hcheck : ∀ uid cid, check uid cid → level ≤ s.userMaxRule cu uid cid)
    (hbody : ∀ uid cid, s.Within uid cid (body uid cid)) (uid cid : ℕ)
    (htouches : s.Touches (s.guarded cu guid check body) uid cid) : s.Granted cu uid cid level := by
  have hfail : ∀ e, ¬ s.Touches (.fail e, s) uid cid := by
    rintro e (⟨r, hr, -⟩ | ⟨r, hr, -⟩ | hbooks | htags)
    · cases hr
    · cases hr
    · exact hbooks rfl
    · exact htags rfl
  unfold guarded at htouches
  split at htouches
  · exact (hfail _ htouches).elim
  · next gid uid' cid' hguid =>
    split at htouches
    · next hchecked =>
      have hwithin := hbody uid' cid'
      have hsame : (uid, cid) = (uid', cid') := by
        by_contra hne
        rcases htouches with ⟨r, hr, rfl, rfl⟩ | ⟨r, hr, rfl, rfl⟩ | hbooks | htags
        · exact hne (Prod.ext_iff.mpr (hwithin.peers r hr))
        · exact hne (Prod.ext_iff.mpr (hwithin.tags r hr))
        · exact hbooks (hwithin.books uid cid hne)
        · exact htags (hwithin.tagRows uid cid hne)
      cases hsame
      by_cases hown : cu.1 = uid
      · exact .inl hown
      · obtain ⟨-, hzero, hcollection⟩ := checkGuid_some hguid
        have hpos : 0 < cid := Nat.pos_of_ne_zero fun h => hown (hzero h)
        have hmax := hcheck uid cid hchecked
        obtain ⟨r, hr, hcid, hshared, hrule⟩ := rule_of_userMaxRule hown (Int.lt_of_lt_of_le hlevel hmax)
        exact .inr ⟨hpos, hcollection hpos, r, hr, hcid, hshared, hrule ▸ hmax⟩
    · exact (hfail _ htouches).elim

/-! ## Endpoints -/

theorem infoByUserIdAndIdAndCid_some {id : String} {r : ℕ × AddressBook}
    (h : s.infoByUserIdAndIdAndCid uid id cid = some r) :
    r ∈ s.addressBooks.rows ∧ r.2.userId = uid ∧ r.2.collectionId = cid := by
  have hsat := Table.first_sat h
  simp only [Bool.and_eq_true, decide_eq_true_eq] at hsat
  exact ⟨Table.mem_of_first h, hsat.1.1, hsat.2⟩

theorem infoByUserIdAndNameAndCollectionId_some {name : String} {r : ℕ × Tag}
    (h : s.infoByUserIdAndNameAndCollectionId uid name cid = some r) :
    r ∈ s.tags.rows ∧ r.2.userId = uid ∧ r.2.collectionId = cid := by
  have hsat := Table.first_sat h
  simp only [Bool.and_eq_true, decide_eq_true_eq] at hsat
  exact ⟨Table.mem_of_first h, hsat.1.1, hsat.2⟩

theorem mem_listBooks {r : ℕ × AddressBook} (h : r ∈ s.listBooks uid cid) :
    r.2.userId = uid ∧ r.2.collectionId = cid := by
  have hsat := (Table.mem_select.mp (List.mem_of_mem_take h)).2
  simpa using hsat

theorem mem_listTags {r : ℕ × Tag} (h : r ∈ s.listTags uid cid) : r.2.userId = uid ∧ r.2.collectionId = cid := by
  have hsat := (Table.mem_select.mp ((List.mem_mergeSort).mp (List.mem_of_mem_take h))).2
  simpa using hsat

/-- An answer that leaves the tables as they are. -/
theorem Within.reply {reply : AbReply} (hpeers : ∀ r ∈ reply.peers, r.2.userId = uid ∧ r.2.collectionId = cid)
    (htags : ∀ r ∈ reply.tags, r.2.userId = uid ∧ r.2.collectionId = cid) :
    s.Within uid cid (reply, s) :=
  ⟨hpeers, htags, fun _ _ _ => rfl, fun _ _ _ => rfl, rfl⟩

theorem Within.fail (e : String) : s.Within uid cid (.fail e, s) := .reply (List.forall_mem_nil _) (List.forall_mem_nil _)

/-- An answer with the tables as a statement left the peers. -/
theorem Within.setBooks {reply : AbReply} {t : Table AddressBook}
    (hpeers : ∀ r ∈ reply.peers, r.2.userId = uid ∧ r.2.collectionId = cid)
    (htags : ∀ r ∈ reply.tags, r.2.userId = uid ∧ r.2.collectionId = cid)
    (ht : ∀ q : ℕ × AddressBook → Bool, (∀ r, r.2.userId = uid → r.2.collectionId = cid → ¬ q r = true) →
      t.select q = s.addressBooks.select q) :
    s.Within uid cid (reply, { s with addressBooks := t }) := by
  refine ⟨hpeers, htags, fun uid' cid' hne => ht _ fun r huid hcid hr => hne ?_, fun _ _ _ => rfl, rfl⟩
  simp only [Bool.and_eq_true, decide_eq_true_eq] at hr
  rw [← hr.1, ← hr.2, huid, hcid]

/-- An answer with the tables as a statement left the tags. -/
theorem Within.setTags {reply : AbReply} {t : Table Tag}
    (hpeers : ∀ r ∈ reply.peers, r.2.userId = uid ∧ r.2.collectionId = cid)
    (htags : ∀ r ∈ reply.tags, r.2.userId = uid ∧ r.2.collectionId = cid)
    (ht : ∀ q : ℕ × Tag → Bool, (∀ r, r.2.userId = uid → r.2.collectionId = cid → ¬ q r = true) →
      t.select q = s.tags.select q) :
    s.Within uid cid (reply, { s with tags := t }) := by
  refine ⟨hpeers, htags, fun _ _ _ => rfl, fun uid' cid' hne => ht _ fun r huid hcid hr => hne ?_, rfl⟩
  simp only [Bool.and_eq_true, decide_eq_true_eq] at hr
  rw [← hr.1, ← hr.2, huid, hcid]

/-- What stays within the tables that are left stays within those before. -/
theorem Within.trans {out : AbReply × AbTables} {reply : AbReply}
    (h : s.Within uid cid (reply, t)) (h' : t.Within uid cid out) : s.Within uid cid out where
  peers := h'.peers
  tags := h'.tags
  books uid' cid' hne := (h'.books uid' cid' hne).trans (h.books uid' cid' hne)
  tagRows uid' cid' hne := (h'.tagRows uid' cid' hne).trans (h.tagRows uid' cid' hne)
  same := by rw [h'.same, show t = _ from h.same]

/-- The row that a statement names by its id. -/
theorem eq_of_row_id {R : Type*} {t : Table R} {r r' : ℕ × R} (hr : r ∈ t.rows) (hr' : r' ∈ t.rows)
    (hid : decide (r'.1 = r.1) = true) : r' = r :=
  Table.eq_of_id hr' hr (decide_eq_true_iff.mp hid)

theorem within_deletePeers (ids : List String) (found : List (ℕ × AddressBook))
    (hfound : ∀ r ∈ found, r.2.userId = uid ∧ r.2.collectionId = cid) :
    s.Within uid cid (s.deletePeers uid cid found ids) := by
  induction ids generalizing s found with
  | nil => exact .reply hfound (List.forall_mem_nil _)
  | cons id ids ih =>
    rw [deletePeers]
    split
    · exact .reply hfound (List.forall_mem_nil _)
    · next ab hab =>
      obtain ⟨hmem, hrow⟩ := infoByUserIdAndIdAndCid_some hab
      have hdelete : s.Within uid cid
          (⟨none, [], []⟩, { s with addressBooks := s.addressBooks.delete fun r => r.1 = ab.1 }) := by
        refine .setBooks (List.forall_mem_nil _) (List.forall_mem_nil _) fun q hq => Table.select_delete fun r hr hid => ?_
        rw [eq_of_row_id hmem hr hid]
        exact hq ab hrow.1 hrow.2
      refine hdelete.trans (ih _ fun r hr => ?_)
      rcases List.mem_cons.mp hr with rfl | hr
      · exact hrow
      · exact hfound r hr

theorem within_deleteTags (names : List String) (found : List (ℕ × Tag))
    (hfound : ∀ r ∈ found, r.2.userId = uid ∧ r.2.collectionId = cid) :
    s.Within uid cid (s.deleteTags uid cid found names) := by
  induction names generalizing s found with
  | nil => exact .reply (List.forall_mem_nil _) hfound
  | cons name names ih =>
    rw [deleteTags]
    split
    · exact .reply (List.forall_mem_nil _) hfound
    · next tag htag =>
      obtain ⟨hmem, hrow⟩ := infoByUserIdAndNameAndCollectionId_some htag
      have hdelete : s.Within uid cid (⟨none, [], []⟩, { s with tags := s.tags.delete fun r => r.1 = tag.1 }) := by
        refine .setTags (List.forall_mem_nil _) (List.forall_mem_nil _) fun q hq => Table.select_delete fun r hr hid => ?_
        rw [eq_of_row_id hmem hr hid]
        exact hq tag hrow.1 hrow.2
      refine hdelete.trans (ih _ fun r hr => ?_)
      rcases List.mem_cons.mp hr with rfl | hr
      · exact hrow
      · exact hfound r hr

theorem setField_owner (ab : AddressBook) (field : String × String) :
    (setField ab field).userId = ab.userId ∧ (setField ab field).collectionId = ab.collectionId := by
  unfold setField
  split <;> exact ⟨rfl, rfl⟩

theorem foldl_setField_owner (f : List (String × String)) (ab : AddressBook) :
    (f.foldl setField ab).userId = ab.userId ∧ (f.foldl setField ab).collectionId = ab.collectionId := by
  induction f generalizing ab with
  | nil => exact ⟨rfl, rfl⟩
  | cons field f ih =>
    obtain ⟨huser, hcollection⟩ := setField_owner ab field
    exact ⟨(ih _).1.trans huser, (ih _).2.trans hcollection⟩

/-- A tag that is written back with the owner that it was read with. -/
theorem within_updateTag {tag : ℕ × Tag} {t : Tag} {reply : AbReply} (hmem : tag ∈ s.tags.rows)
    (hrow : tag.2.userId = uid ∧ tag.2.collectionId = cid) (ht : t.userId = uid ∧ t.collectionId = cid)
    (hreply : reply.peers = [] ∧ ∀ r ∈ reply.tags, r.2.userId = uid ∧ r.2.collectionId = cid) :
    s.Within uid cid (reply, s.updateTag (tag.1, t)) := by
  refine .setTags (by simp [hreply.1]) hreply.2 fun q hq => Table.select_update fun r hr hid => ?_
  rw [eq_of_row_id hmem hr hid]
  exact ⟨hq tag hrow.1 hrow.2, hq (tag.1, t) ht.1 ht.2⟩

theorem createRow_some {R : Type*} {t t' : Table R} {id : ℕ} {x : R} (h : createRow t id x = some t') :
    t.idFor id ≤ maxId ∧ t.insertAs id x = some t' := by
  unfold createRow at h
  split at h
  · next hid => exact ⟨hid, h⟩
  · cases h

theorem within_addAddressBook {rowId : ℕ} {ab : AddressBook}
    (h : s.addAddressBook rowId ab = some t) (hab : ab.userId = uid ∧ ab.collectionId = cid) :
    s.Within uid cid (⟨none, [], []⟩, t) := by
  obtain ⟨addressBooks, hcreate, rfl⟩ := Option.map_eq_some_iff.mp h
  exact .setBooks (List.forall_mem_nil _) (List.forall_mem_nil _) fun q hq =>
    Table.select_insertAs (createRow_some hcreate).2 (hq _ hab.1 hab.2)

theorem within_createTag {id : ℕ} {tag : Tag} (h : s.createTag id tag = some t)
    (htag : tag.userId = uid ∧ tag.collectionId = cid) : s.Within uid cid (⟨none, [], []⟩, t) := by
  obtain ⟨tags, hcreate, rfl⟩ := Option.map_eq_some_iff.mp h
  exact .setTags (List.forall_mem_nil _) (List.forall_mem_nil _) fun q hq =>
    Table.select_insertAs (createRow_some hcreate).2 (hq _ htag.1 htag.2)

/-- Every endpoint is guarded with its level, and without a collection stays within what it was guarded
for. -/
theorem handle_eq_guarded (s : AbTables) (cu : ℕ × AbUser) (guid : List Char)
    (hplain : call.Plain) : ∃ check body, s.handle cu guid call = s.guarded cu guid check body ∧
      0 < call.level ∧ (∀ uid cid, check uid cid = true → call.level ≤ s.userMaxRule cu uid cid) ∧
      ∀ uid cid, s.Within uid cid (body uid cid) := by
  have hread : 0 < shareAddressBookRuleRuleRead := by decide
  have hwrite : 0 < shareAddressBookRuleRuleReadWrite := by decide
  have hfull : 0 < shareAddressBookRuleRuleFullControl := by decide
  cases call with
  | peers =>
    refine ⟨_, _, rfl, hread, fun _ _ => of_decide_eq_true, fun uid cid => ?_⟩
    exact .reply (fun _ => mem_listBooks) (List.forall_mem_nil _)
  | pTags =>
    refine ⟨_, _, rfl, hread, fun _ _ => of_decide_eq_true, fun uid cid => ?_⟩
    exact .reply (List.forall_mem_nil _) fun _ => mem_listTags
  | peerAdd rowId f forceAlwaysRelay =>
    refine ⟨_, _, rfl, hwrite, fun _ _ => of_decide_eq_true, fun uid cid => ?_⟩
    dsimp only
    split
    · exact .fail _
    · next t ht => exact within_addAddressBook ht (s.fillFromPeer_owner _)
  | peerDel ids =>
    exact ⟨_, _, rfl, hfull, fun _ _ => of_decide_eq_true, fun uid cid => within_deletePeers ids [] (List.forall_mem_nil _)⟩
  | tagDel names =>
    exact ⟨_, _, rfl, hfull, fun _ _ => of_decide_eq_true, fun uid cid => within_deleteTags names [] (List.forall_mem_nil _)⟩
  | peerUpdate id f =>
    refine ⟨_, _, rfl, hwrite, fun _ _ => of_decide_eq_true, fun uid cid => ?_⟩
    split
    · exact .fail _
    · split
      · exact .fail _
      · next ab hab =>
        obtain ⟨hmem, hrow⟩ := infoByUserIdAndIdAndCid_some hab
        refine .setBooks (by simpa using hrow) (List.forall_mem_nil _) fun q hq => Table.select_update fun r hr hid => ?_
        rw [eq_of_row_id hmem hr hid]
        obtain ⟨huser, hcollection⟩ := foldl_setField_owner f ab.2
        exact ⟨hq ab hrow.1 hrow.2, hq _ (huser.trans hrow.1) (hcollection.trans hrow.2)⟩
  | tagAdd id t collection =>
    refine ⟨_, _, rfl, hwrite, fun _ _ => of_decide_eq_true, fun uid cid => ?_⟩
    cases collection with
    | some c => exact hplain.elim
    | none =>
      split
      · next tag htag =>
        have hrow := (infoByUserIdAndNameAndCollectionId_some htag).2
        exact .reply (List.forall_mem_nil _) (by simpa using hrow)
      · dsimp only
        split
        · exact .fail _
        · next t' ht' => exact within_createTag ht' ⟨rfl, rfl⟩
  | tagRename old new =>
    refine ⟨_, _, rfl, hwrite, fun _ _ => of_decide_eq_true, fun uid cid => ?_⟩
    split
    · exact .fail _
    · next tag htag =>
      obtain ⟨hmem, hrow⟩ := infoByUserIdAndNameAndCollectionId_some htag
      split
      · next ntag hntag =>
        have hrow' := (infoByUserIdAndNameAndCollectionId_some hntag).2
        refine .reply (List.forall_mem_nil _) fun r hr => ?_
        rcases List.mem_pair.mp hr with rfl | rfl
        · exact hrow
        · exact hrow'
      · exact within_updateTag hmem hrow hrow ⟨rfl, by simpa using hrow⟩
  | tagUpdate name color =>
    refine ⟨_, _, rfl, hwrite, fun _ _ => of_decide_eq_true, fun uid cid => ?_⟩
    split
    · exact .fail _
    · next tag htag =>
      obtain ⟨hmem, hrow⟩ := infoByUserIdAndNameAndCollectionId_some htag
      exact within_updateTag hmem hrow hrow ⟨rfl, by simpa using hrow⟩

/-- What a request without a collection reads and changes, the caller may read and change. -/
theorem confined_of_plain (hplain : call.Plain) : s.Confined cu guid call := by
  obtain ⟨check, body, heq, hlevel, hcheck, hbody⟩ := handle_eq_guarded s cu guid hplain
  unfold Confined
  rw [heq]
  exact granted_of_guarded hlevel hcheck hbody

/-- A request without a collection writes peers and tags alone. -/
theorem handle_of_plain (hplain : call.Plain) :
    ∃ addressBooks tags, (s.handle cu guid call).2 = { s with addressBooks, tags } := by
  obtain ⟨check, body, heq, -, -, hbody⟩ := handle_eq_guarded s cu guid hplain
  rw [heq, guarded]
  split
  · exact ⟨_, _, rfl⟩
  · split
    · exact ⟨_, _, (hbody _ _).same⟩
    · exact ⟨_, _, rfl⟩

end

end AbTables

end RustDesk.Api
