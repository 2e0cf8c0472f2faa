import RustDesk.Api.LegacySyncLoops
import RustDesk.Api.LegacySyncTags

/-!
# When a sync is exact

References: `rustdesk-api/http/controller/api/ab.go` (`Ab`, `UpAb`), `service/addressBook.go`
(`UpdateAddressBook`), `service/tag.go` (`UpdateTags`).

A body is synced exactly if the rows that it goes to are those that `Ab` lists, no field of them is to be
cleared, and nothing of what is not posted is in another collection.
-/

namespace RustDesk.Api

variable {p r : AddressBook}

theorem agreesWith_ofUser {userId : ℕ} : (AbTables.ofUser userId p).AgreesWith r ↔ p.AgreesWith r :=
  ⟨fun h => ⟨h.1, h.2, h.3, h.4, h.5, h.6, h.7, h.8, h.9, h.10, h.11, h.12, h.13, h.14⟩,
    fun h => ⟨h.1, h.2, h.3, h.4, h.5, h.6, h.7, h.8, h.9, h.10, h.11, h.12, h.13, h.14⟩⟩

theorem clearsNothing_ofUser {userId : ℕ} : (AbTables.ofUser userId p).ClearsNothing r ↔ p.ClearsNothing r :=
  ⟨fun h => ⟨h.1, h.2, h.3, h.4, h.5, h.6, h.7, h.8, h.9, h.10⟩,
    fun h => ⟨h.1, h.2, h.3, h.4, h.5, h.6, h.7, h.8, h.9, h.10⟩⟩

theorem updatesBook_ofUser_eq_self {userId : ℕ} (huser : r.userId = userId)
    (hid : r.id = p.id) : updatesBook (AbTables.ofUser userId p) r = r ↔ p.AgreesWith r :=
  (updatesBook_eq_self (p := AbTables.ofUser userId p) huser.symm hid).trans agreesWith_ofUser

theorem content_updatesBook_ofUser {userId : ℕ}
    (hgiven : p.platform ≠ "" ∧ p.username ≠ "" ∧ p.hostname ≠ "") (hid : r.id = p.id) :
    (updatesBook (AbTables.ofUser userId p) r).content = p.content ↔ p.ClearsNothing r :=
  (content_updatesBook (p := AbTables.ofUser userId p) hgiven hid).trans clearsNothing_ofUser

/-- A row looks like the peer that it was created for, unless the peer has no id. -/
theorem content_stored {userId cid : ℕ} (hid : p.id ≠ "") :
    ({ AbTables.ofUser userId p with collectionId := cid } : AddressBook).stored.content = p.content := by
  by_cases htags : p.tags = "" <;> simp [AddressBook.content, AddressBook.stored, AbTables.ofUser, hid, htags]

theorem id_of_content (h : r.content = p.content) : r.id = p.id :=
  show r.content.id = p.content.id from congrArg AddressBook.id h

theorem updatesField_self {A : Type*} [DecidableEq A] (zero x : A) : updatesField zero x x = x := by
  unfold updatesField
  split <;> rfl

theorem updatesBook_self (r : AddressBook) : updatesBook r r = r := by
  simp only [updatesBook, updatesField_self]

namespace AbTables

variable {s : AbTables} {userId : ℕ} {abd : AddressBookFormData}

section

variable (hvalid : abd.Valid) {row : ℕ × AddressBook} (hrow : row ∈ s.addressBooks.rows)
include hvalid hrow

/-- What is put of a row. -/
theorem put_cases :
    s.put userId abd.peers row = row ∨ ∃ p ∈ abd.peers, s.lastOf userId p.book.id = some row ∧
        s.put userId abd.peers row = (row.1, updatesBook (ofUser userId p.book) row.2) := by
  by_cases h : ∃ p ∈ abd.peers, s.lastOf userId p.book.id = some row
  · obtain ⟨p, hp, hlast⟩ := h
    exact .inr ⟨p, hp, hlast, put_of_mem hvalid.ids hp hlast⟩
  · refine .inl (put_of_find_none fun p hp r hr hid => h ⟨p, hp, ?_⟩)
    have hmem := (mem_dbABs.mp (lastOf_some.mp hr).1).1
    rw [hr, Table.eq_of_id hmem hrow hid]

/-- A row keeps its id and its user. -/
theorem put_owner :
    (s.put userId abd.peers row).2.id = row.2.id ∧ (s.put userId abd.peers row).2.userId = row.2.userId := by
  rcases put_cases hvalid hrow with hsame | ⟨p, -, hlast, hput⟩
  · rw [hsame]
    exact ⟨rfl, rfl⟩
  · obtain ⟨hmem, hid, -⟩ := lastOf_some.mp hlast
    have huser := (mem_dbABs.mp hmem).2
    rw [hput]
    refine ⟨?_, ?_⟩
    · show updatesField "" p.book.id row.2.id = row.2.id
      rw [hid, updatesField_self]
    · show updatesField 0 userId row.2.userId = row.2.userId
      rw [huser, updatesField_self]

end

section Synced

variable {origin : List PostedPeer} {news : List (ℕ × AddressBook)} (hvalid : abd.Valid)
  (hrows : SyncedRows s userId abd origin news) {x : ℕ × AddressBook}

include hrows in
theorem mem_synced : x ∈ (s.upAb userId abd).addressBooks.rows ↔
      (∃ row ∈ s.addressBooks.rows, (∀ g ∈ s.gone userId abd.peers, g.1 ≠ row.1) ∧
        s.put userId abd.peers row = x) ∨ x ∈ news := by
  rw [hrows.rows, List.mem_append, List.mem_map]
  refine or_congr ?_ Iff.rfl
  constructor
  · rintro ⟨row, hrow, hput⟩
    obtain ⟨hrow, hkeep⟩ := List.mem_filter.mp hrow
    refine ⟨row, hrow, fun g hg hid => ?_, hput⟩
    rw [Bool.not_eq_true', List.any_eq_false] at hkeep
    exact hkeep g hg (decide_eq_true hid)
  · rintro ⟨row, hrow, hkeep, hput⟩
    refine ⟨row, List.mem_filter.mpr ⟨hrow, ?_⟩, hput⟩
    rw [Bool.not_eq_true', List.any_eq_false]
    exact fun g hg hid => hkeep g hg (of_decide_eq_true hid)

include hrows in
/-- New rows are the user's, and each is of a posted peer. -/
theorem news_made (hx : x ∈ news) :
    ∃ p ∈ abd.peers, s.lastOf userId p.book.id = none ∧ s.Made userId p x ∧ x.2.userId = userId := by
  obtain ⟨p, hp, hmade⟩ := exists_made hrows.made hx
  obtain ⟨hp, hnone⟩ := List.mem_filter.mp (hrows.sub.subset hp)
  refine ⟨p, hp, of_decide_eq_true hnone, hmade, ?_⟩
  obtain ⟨cid, hbook, -⟩ := hmade.book
  rw [hbook]
  rfl

/-! ### What an exact sync says of the rows -/

/-- What `Ab` lists afterwards. -/
theorem mem_peers (hx : x ∈ (s.upAb userId abd).listBooks userId 0) :
    x ∈ (s.upAb userId abd).addressBooks.rows ∧ x.2.userId = userId ∧ x.2.collectionId = 0 := by
  obtain ⟨hmem, hsat⟩ := Table.mem_select.mp (List.mem_of_mem_take hx)
  rw [Bool.and_eq_true, decide_eq_true_iff, decide_eq_true_iff] at hsat
  exact ⟨hmem, hsat⟩

include hvalid hrows in
theorem created_of_peers
    (hpeers : (((s.upAb userId abd).ab userId).peers.map (·.2.content)).Perm (abd.peers.map (·.book.content)))
    {p : PostedPeer} (hp : p ∈ abd.peers) (hnone : s.lastOf userId p.book.id = none) :
    p.book.id ≠ "" ∧ p.book.collectionId = 0 ∧ p.collection = none := by
  -- the row that is listed for a peer without one is new
  have hlisted : ∀ p ∈ abd.peers, s.lastOf userId p.book.id = none →
      ∃ x ∈ news, x.2.id = p.book.id ∧ x.2.collectionId = 0 := by
    intro p hp hnone
    obtain ⟨x, hx, hcontent⟩ := List.mem_map.mp
      (hpeers.symm.subset (List.mem_map_of_mem (f := fun p : PostedPeer => p.book.content) hp))
    obtain ⟨hmem, huser, hcid⟩ := mem_peers hx
    have hid := id_of_content hcontent
    rcases (mem_synced hrows).mp hmem with ⟨row, hrow, -, rfl⟩ | hnew
    · obtain ⟨hidrow, huserrow⟩ := put_owner hvalid hrow
      rw [hidrow] at hid
      rw [huserrow] at huser
      exact absurd hid (lastOf_none.mp hnone row (mem_dbABs.mpr ⟨hrow, huser⟩))
    · exact ⟨x, hnew, hid, hcid⟩
  have hid : ∀ p ∈ abd.peers, s.lastOf userId p.book.id = none → p.book.id ≠ "" := by
    intro p hp hnone hempty
    obtain ⟨x, hx, hxid, -⟩ := hlisted p hp hnone
    obtain ⟨p', -, -, hmade, -⟩ := news_made hrows hx
    obtain ⟨cid, hbook, -⟩ := hmade.book
    rw [hbook, hempty] at hxid
    unfold AddressBook.stored at hxid
    dsimp only at hxid
    split at hxid
    · exact absurd hxid (by decide)
    · contradiction
  obtain ⟨x, hx, hxid, hcid⟩ := hlisted p hp hnone
  obtain ⟨p', hp', hnone', hmade, -⟩ := news_made hrows hx
  obtain ⟨cid, hbook, hsame, hcollection⟩ := hmade.book
  have hidx : x.2.id = p'.book.id := by
    rw [hbook]
    exact if_neg (hid p' hp' hnone')
  obtain rfl : p' = p := List.inj_on_of_nodup_map hvalid.ids hp' hp (hidx.symm.trans hxid)
  have hzero : cid = 0 := by
    rw [hbook] at hcid
    exact hcid
  have hnocollection : p'.collection = none := by
    by_contra hsome
    exact hcollection hsome hzero
  exact ⟨hid p' hp' hnone', (hsame hnocollection).symm.trans hzero, hnocollection⟩

/-- A row of a collection that is as it was is there. -/
theorem mem_of_booksOf_eq {t : AbTables} {cid : ℕ} (h : t.booksOf userId cid = s.booksOf userId cid)
    {r : ℕ × AddressBook} (hr : r ∈ s.dbABs userId) (hcid : r.2.collectionId = cid) :
    r ∈ t.addressBooks.rows := by
  have hmem : r ∈ t.booksOf userId cid := by
    rw [h]
    obtain ⟨hrow, huser⟩ := mem_dbABs.mp hr
    exact Table.mem_select.mpr ⟨hrow, by simp [huser, hcid]⟩
  exact (Table.mem_select.mp hmem).1

include hvalid hrows in
theorem kept_of_books (hbooks : ∀ cid, cid ≠ 0 → (s.upAb userId abd).booksOf userId cid = s.booksOf userId cid)
    {p : PostedPeer} (hp : p ∈ abd.peers) {r : ℕ × AddressBook} (hr : s.lastOf userId p.book.id = some r) :
    if r.2.collectionId = 0 then p.book.collectionId = 0 else p.book.AgreesWith r.2 := by
  obtain ⟨hmem, hid, -⟩ := lastOf_some.mp hr
  obtain ⟨hrow, huser⟩ := mem_dbABs.mp hmem
  have hput : (r.1, updatesBook (ofUser userId p.book) r.2) ∈ (s.upAb userId abd).addressBooks.rows := by
    refine (mem_synced hrows).mpr (.inl ⟨r, hrow, fun g hg hgid => ?_, put_of_mem hvalid.ids hp hr⟩)
    obtain ⟨hlast, hposted⟩ := mem_gone.mp hg
    have hgrow := (mem_dbABs.mp (lastOf_some.mp hlast).1).1
    exact hposted p hp (Table.eq_of_id hgrow hrow hgid ▸ hid.symm)
  split
  · next hzero =>
    -- otherwise the row is in a collection in which it was not
    by_contra hne
    have hcid : (updatesBook (ofUser userId p.book) r.2).collectionId = p.book.collectionId := if_neg hne
    have hbefore : (r.1, updatesBook (ofUser userId p.book) r.2) ∈ s.addressBooks.rows := by
      have hlist : (r.1, updatesBook (ofUser userId p.book) r.2) ∈
          (s.upAb userId abd).booksOf userId p.book.collectionId := by
        refine Table.mem_select.mpr ⟨hput, ?_⟩
        have huser' : (updatesBook (ofUser userId p.book) r.2).userId = userId := by
          show updatesField 0 userId r.2.userId = userId
          rw [huser, updatesField_self]
        simp [huser', hcid]
      rw [hbooks _ hne] at hlist
      exact (Table.mem_select.mp hlist).1
    have hsame := Table.eq_of_id hbefore hrow rfl
    rw [← hsame] at hzero
    exact hne (hcid.symm.trans hzero)
  · next hne =>
    have hsame := Table.eq_of_id hput (mem_of_booksOf_eq (hbooks _ hne) hmem rfl) rfl
    exact (updatesBook_ofUser_eq_self huser hid).mp (congrArg Prod.snd hsame)

/-- What is listed has the ids that were posted. -/
theorem posted_iff_listed
    (hpeers : (((s.upAb userId abd).ab userId).peers.map (·.2.content)).Perm (abd.peers.map (·.book.content)))
    {id : String} :
    (∃ x ∈ (s.upAb userId abd).listBooks userId 0, x.2.id = id) ↔ ∃ p ∈ abd.peers, p.book.id = id := by
  constructor
  · rintro ⟨x, hx, rfl⟩
    obtain ⟨p, hp, hcontent⟩ := List.mem_map.mp
      (hpeers.subset (List.mem_map_of_mem (f := fun x : ℕ × AddressBook => x.2.content) hx))
    exact ⟨p, hp, id_of_content hcontent⟩
  · rintro ⟨p, hp, rfl⟩
    obtain ⟨x, hx, hcontent⟩ := List.mem_map.mp
      (hpeers.symm.subset (List.mem_map_of_mem (f := fun p : PostedPeer => p.book.content) hp))
    exact ⟨x, hx, id_of_content hcontent⟩

include hvalid hrows in
theorem deleted_of_again
    (hpeers : (((s.upAb userId abd).ab userId).peers.map (·.2.content)).Perm (abd.peers.map (·.book.content)))
    (hbooks : ∀ cid, cid ≠ 0 → (s.upAb userId abd).booksOf userId cid = s.booksOf userId cid)
    (hagain : ((s.upAb userId abd).upAb userId ((s.upAb userId abd).ab userId).body).addressBooks.rows =
      (s.upAb userId abd).addressBooks.rows)
    {r : ℕ × AddressBook} (hr : r ∈ s.dbABs userId) (hposted : ∀ p ∈ abd.peers, p.book.id ≠ r.2.id) :
    r.2.collectionId = 0 ∧ OnlyIn (s.dbABs userId) r := by
  obtain ⟨l, hl⟩ := Option.ne_none_iff_exists'.mp fun hnone : s.lastOf userId r.2.id = none =>
    lastOf_none.mp hnone r hr rfl
  obtain ⟨hlmem, hlid, -⟩ := lastOf_some.mp hl
  have hgone : l ∈ s.gone userId abd.peers := mem_gone.mpr ⟨hlid ▸ hl, hlid ▸ hposted⟩
  have hzero : l.2.collectionId = 0 := by
    by_contra hne
    exact not_gone (mem_of_booksOf_eq (hbooks _ hne) hlmem rfl) hgone rfl
  -- another row of the id would be there until the next sync
  have honly : ∀ r' ∈ s.dbABs userId, r'.2.id = r.2.id → r' = l := by
    intro r' hr' hid
    by_contra hne
    obtain ⟨hrow, huser⟩ := mem_dbABs.mp hr'
    have hmem : r' ∈ (s.upAb userId abd).dbABs userId := by
      refine mem_dbABs.mpr ⟨(mem_synced hrows).mpr (.inl ⟨r', hrow, fun g hg hgid => ?_, ?_⟩), huser⟩
      · have hlast := (mem_gone.mp hg).1
        have hsame := Table.eq_of_id (mem_dbABs.mp (lastOf_some.mp hlast).1).1 hrow hgid
        rw [hsame, hid, hl, Option.some.injEq] at hlast
        exact hne hlast.symm
      · rcases put_cases hvalid hrow with hsame | ⟨p, hp, hlast, -⟩
        · exact hsame
        · exact absurd ((lastOf_some.mp hlast).2.1.symm.trans hid) (hposted p hp)
    obtain ⟨l', hl'⟩ := Option.ne_none_iff_exists'.mp
      fun hnone : (s.upAb userId abd).lastOf userId r'.2.id = none => lastOf_none.mp hnone r' hmem rfl
    obtain ⟨hlmem', hlid', -⟩ := lastOf_some.mp hl'
    have hgone' : l' ∈ (s.upAb userId abd).gone userId ((s.upAb userId abd).ab userId).body.peers := by
      refine mem_gone.mpr ⟨hlid' ▸ hl', fun q hq hqid => ?_⟩
      obtain ⟨x, hx, rfl⟩ := List.mem_map.mp hq
      obtain ⟨p, hp, hpid⟩ := (posted_iff_listed hpeers).mp ⟨x, hx, rfl⟩
      exact hposted p hp (hpid.trans (hqid.trans (hlid'.trans hid)))
    refine not_gone ?_ hgone' rfl
    rw [hagain]
    exact (mem_dbABs.mp hlmem').1
  have hrl : r = l := honly r hr rfl
  exact ⟨hrl ▸ hzero, hr, fun r' hr' hid => (honly r' hr' hid).trans hrl.symm⟩

/-! ### What is listed afterwards -/

section Listed

variable (hcreated : ∀ p ∈ abd.peers, s.lastOf userId p.book.id = none →
    p.book.id ≠ "" ∧ p.book.collectionId = 0 ∧ p.collection = none)
  (hkept : ∀ p ∈ abd.peers, ∀ r, s.lastOf userId p.book.id = some r →
    if r.2.collectionId = 0 then p.book.collectionId = 0 else p.book.AgreesWith r.2)
  (hdeleted : ∀ r ∈ s.dbABs userId, (∀ p ∈ abd.peers, p.book.id ≠ r.2.id) →
    r.2.collectionId = 0 ∧ OnlyIn (s.dbABs userId) r)

include hvalid hkept in
/-- Only rows of collection 0 are changed, and stay there. -/
theorem put_kept {row : ℕ × AddressBook} (hrow : row ∈ s.addressBooks.rows) : s.put userId abd.peers row = row ∨
      row.2.userId = userId ∧ row.2.collectionId = 0 ∧ (s.put userId abd.peers row).2.collectionId = 0 := by
  rcases put_cases hvalid hrow with hsame | ⟨p, hp, hlast, hput⟩
  · exact .inl hsame
  · obtain ⟨hmem, hid, -⟩ := lastOf_some.mp hlast
    have huser := (mem_dbABs.mp hmem).2
    have hkeep := hkept p hp row hlast
    split at hkeep
    · next hzero =>
      refine .inr ⟨huser, hzero, ?_⟩
      rw [hput]
      exact (if_pos hkeep).trans hzero
    · have hsame : updatesBook (ofUser userId p.book) row.2 = row.2 :=
        (updatesBook_ofUser_eq_self huser hid).mpr hkeep
      rw [hput, hsame]
      exact .inl rfl

include hrows hcreated in
/-- New rows are listed, as what was posted. -/
theorem news_created {x : ℕ × AddressBook} (hx : x ∈ news) : x.2.userId = userId ∧ x.2.collectionId = 0 ∧
      ∃ p ∈ abd.peers, s.lastOf userId p.book.id = none ∧ x.2.content = p.book.content := by
  obtain ⟨p, hp, hnone, hmade, huser⟩ := news_made hrows hx
  obtain ⟨hid, hzero, hcollection⟩ := hcreated p hp hnone
  obtain ⟨cid, hbook, hsame, -⟩ := hmade.book
  refine ⟨huser, ?_, p, hp, hnone, ?_⟩
  · rw [hbook]
    exact (hsame hcollection).trans hzero
  · rw [hbook]
    exact content_stored hid

include hdeleted in
/-- A row of the user stays if its id was posted. -/
theorem not_gone_iff {row : ℕ × AddressBook} (hrow : row ∈ s.dbABs userId) :
    ((!(s.gone userId abd.peers).any fun g => g.1 = row.1) = true) ↔
      (abd.peers.any fun p => p.book.id = row.2.id) = true := by
  rw [Bool.not_eq_true', List.any_eq_false, List.any_eq_true]
  constructor
  · intro hkeep
    by_contra hposted
    have hposted : ∀ p ∈ abd.peers, p.book.id ≠ row.2.id := fun p hp hid =>
      hposted ⟨p, hp, decide_eq_true hid⟩
    obtain ⟨-, -, honly⟩ := hdeleted row hrow hposted
    have hlast : s.lastOf userId row.2.id = some row :=
      lastOf_some.mpr ⟨hrow, rfl, fun r' hr' hid => Nat.le_of_eq (congrArg Prod.fst (honly r' hr' hid))⟩
    exact hkeep row (mem_gone.mpr ⟨hlast, hposted⟩) (decide_eq_true rfl)
  · rintro ⟨p, hp, hid⟩ g hg hgid
    obtain ⟨hlast, hposted⟩ := mem_gone.mp hg
    have hsame := Table.eq_of_id (mem_dbABs.mp (lastOf_some.mp hlast).1).1 (mem_dbABs.mp hrow).1
      (of_decide_eq_true hgid)
    exact hposted p hp (hsame ▸ of_decide_eq_true hid)

include hvalid hrows hcreated hkept hdeleted in
theorem booksOf_zero : (s.upAb userId abd).booksOf userId 0 =
      ((s.booksOf userId 0).filter fun r => abd.peers.any fun p => p.book.id = r.2.id).map
        (s.put userId abd.peers) ++ news := by
  unfold booksOf Table.select
  rw [hrows.rows, List.filter_append, List.filter_map, List.filter_filter, List.filter_filter]
  congr 1
  · refine congrArg _ (List.filter_congr fun row hrow => ?_)
    have hsame : ((s.put userId abd.peers row).2.userId = userId ∧
        (s.put userId abd.peers row).2.collectionId = 0) ↔
        (row.2.userId = userId ∧ row.2.collectionId = 0) := by
      rw [(put_owner hvalid hrow).2]
      refine and_congr_right fun huser => ?_
      rcases put_kept hvalid hkept hrow with hsame | ⟨-, hzero, hzero'⟩
      · rw [hsame]
      · exact iff_of_true hzero' hzero
    rw [Bool.eq_iff_iff, Bool.and_eq_true, Bool.and_eq_true, Function.comp_apply, Bool.and_eq_true,
      Bool.and_eq_true, decide_eq_true_iff, decide_eq_true_iff, decide_eq_true_iff, decide_eq_true_iff, hsame,
      and_comm]
    exact and_congr_left fun hmine => not_gone_iff hdeleted (mem_dbABs.mpr ⟨hrow, hmine.1⟩)
  · refine List.filter_eq_self.mpr fun x hx => ?_
    obtain ⟨huser, hzero, -⟩ := news_created hrows hcreated hx
    simp [huser, hzero]

include hvalid in
/-- When a row that is listed under a posted id looks like the peer. -/
theorem content_put_iff {p : PostedPeer} (hp : p ∈ abd.peers) {r : ℕ × AddressBook}
    (hr : s.lastOf userId p.book.id = some r) {y : ℕ × AddressBook} (hy : y ∈ s.addressBooks.rows)
    (hid : y.2.id = p.book.id) :
    (s.put userId abd.peers y).2.content = p.book.content ↔
      if y = r then p.book.ClearsNothing r.2 else y.2.content = p.book.content := by
  split
  · next hsame =>
    rw [hsame, put_of_mem hvalid.ids hp hr]
    exact content_updatesBook_ofUser (hvalid.given p hp) (hsame ▸ hid)
  · next hne =>
    rcases put_cases hvalid hy with hput | ⟨p', -, hlast, -⟩
    · rw [hput]
    · have hsame : s.lastOf userId p.book.id = some y := by
        rw [← hid, (lastOf_some.mp hlast).2.1]
        exact hlast
      exact absurd (Option.some.inj (hsame.symm.trans hr)) hne

theorem mem_listed {y : ℕ × AddressBook} (hy : y ∈ s.listed userId abd) :
    y ∈ s.dbABs userId ∧ y.2.collectionId = 0 ∧ ∃ p ∈ abd.peers, p.book.id = y.2.id := by
  obtain ⟨hmem, hposted⟩ := List.mem_filter.mp (List.mem_of_mem_take hy)
  obtain ⟨hrow, hsat⟩ := Table.mem_select.mp hmem
  rw [Bool.and_eq_true, decide_eq_true_iff, decide_eq_true_iff] at hsat
  obtain ⟨p, hp, hid⟩ := List.any_eq_true.mp hposted
  exact ⟨mem_dbABs.mpr ⟨hrow, hsat.1⟩, hsat.2, p, hp, of_decide_eq_true hid⟩

include hvalid hrows hcreated hkept hdeleted in
/-- What is listed: what was listed of what was posted, and new rows, as long as there is room. -/
theorem listBooks_upAb : ∃ n, (s.upAb userId abd).listBooks userId 0 =
        (s.listed userId abd).map (s.put userId abd.peers) ++ news.take n ∧
      ((s.listed userId abd).length + news.length ≤ 1000 → news.take n = news) := by
  have hbooks := booksOf_zero hvalid hrows hcreated hkept hdeleted
  unfold listed
  revert hbooks
  generalize (s.booksOf userId 0).filter (fun r => abd.peers.any fun p => p.book.id = r.2.id) = rows
  intro hbooks
  refine ⟨1000 - rows.length, ?_, fun hroom => List.take_of_length_le ?_⟩
  · rw [listBooks, hbooks, List.take_append, List.length_map, List.map_take]
  · rw [List.length_take] at hroom
    omega

include hvalid hrows hcreated hkept hdeleted in
theorem shown_of_peers
    (hpeers : (((s.upAb userId abd).ab userId).peers.map (·.2.content)).Perm (abd.peers.map (·.book.content)))
    {p : PostedPeer} (hp : p ∈ abd.peers) {r : ℕ × AddressBook} (hr : s.lastOf userId p.book.id = some r) :
    ∃ r', OnlyIn (s.listed userId abd) r' ∧
      if r' = r then p.book.ClearsNothing r.2 else r'.2.content = p.book.content := by
  obtain ⟨n, hlist, -⟩ := listBooks_upAb hvalid hrows hcreated hkept hdeleted
  obtain ⟨x, hx, hcontent⟩ := List.mem_map.mp
    (hpeers.symm.subset (List.mem_map_of_mem (f := fun p : PostedPeer => p.book.content) hp))
  have hmemput : ∀ y ∈ s.listed userId abd, s.put userId abd.peers y ∈ (s.upAb userId abd).listBooks userId 0 := by
    intro y hy
    rw [hlist]
    exact List.mem_append_left _ (List.mem_map_of_mem hy)
  -- ids are listed once
  have hids : (((s.upAb userId abd).listBooks userId 0).map (·.2.id)).Nodup := by
    have hperm := hpeers.map AddressBook.id
    rw [List.map_map, List.map_map] at hperm
    exact hperm.nodup_iff.mpr hvalid.ids
  have hx' : x ∈ (s.listed userId abd).map (s.put userId abd.peers) ++ news.take n := hlist ▸ hx
  rcases List.mem_append.mp hx' with hold | hnew
  · obtain ⟨y, hy, rfl⟩ := List.mem_map.mp hold
    have hrow : ∀ y ∈ s.listed userId abd, y ∈ s.addressBooks.rows := fun y hy =>
      (mem_dbABs.mp (mem_listed hy).1).1
    have hyid : y.2.id = p.book.id := (put_owner hvalid (hrow y hy)).1.symm.trans (id_of_content hcontent)
    refine ⟨y, ⟨hy, fun y' hy' hid => ?_⟩, (content_put_iff hvalid hp hr (hrow y hy) hyid).mp hcontent⟩
    have hsame : s.put userId abd.peers y' = s.put userId abd.peers y := by
      refine List.inj_on_of_nodup_map hids (hmemput y' hy') (hmemput y hy) ?_
      rw [(put_owner hvalid (hrow y' hy')).1, (put_owner hvalid (hrow y hy)).1, hid]
    have hfst := congrArg Prod.fst hsame
    rw [put_fst, put_fst] at hfst
    exact Table.eq_of_id (hrow y' hy') (hrow y hy) hfst
  · obtain ⟨-, -, p', hp', hnone, hcontent'⟩ := news_created hrows hcreated (List.mem_of_mem_take hnew)
    have hid : p'.book.id = p.book.id := (id_of_content hcontent').symm.trans (id_of_content hcontent)
    rw [hid] at hnone
    exact absurd (hnone.symm.trans hr) nofun

include hrows hcreated in
/-- There is a new row for each peer without one. -/
theorem news_contents : news.map (·.2.content) = (s.unknown userId abd.peers).map (·.book.content) := by
  have hunknown : ∀ p ∈ s.unknown userId abd.peers, p ∈ abd.peers ∧ s.lastOf userId p.book.id = none :=
    fun p hp => (List.mem_filter.mp hp).imp_right of_decide_eq_true
  have horigin := hrows.all fun p hp => (hcreated p (hunknown p hp).1 (hunknown p hp).2).2.2
  have hmade : List.Forall₂ (fun p x => p ∈ s.unknown userId abd.peers ∧ s.Made userId p x)
      (s.unknown userId abd.peers) news :=
    (List.forall₂_and_left _ _).mpr ⟨fun p hp => hp, horigin ▸ hrows.made⟩
  have hcontent : List.Forall₂ (· = ·) ((s.unknown userId abd.peers).map (·.book.content))
      (news.map (·.2.content)) := by
    refine List.forall₂_map_left_iff.mpr (List.forall₂_map_right_iff.mpr (hmade.imp fun p x h => ?_))
    obtain ⟨hp, hnone⟩ := hunknown p h.1
    obtain ⟨cid, hbook, -⟩ := h.2.book
    rw [hbook]
    exact (content_stored (hcreated p hp hnone).1).symm
  rw [List.forall₂_eq_eq_eq] at hcontent
  exact hcontent.symm

include hvalid in
/-- The rows that are listed look like the peers that have rows. -/
theorem listed_contents (hshown : ∀ p ∈ abd.peers, ∀ r, s.lastOf userId p.book.id = some r →
      ∃ r', OnlyIn (s.listed userId abd) r' ∧
        if r' = r then p.book.ClearsNothing r.2 else r'.2.content = p.book.content) :
    (((s.listed userId abd).map (s.put userId abd.peers)).map (·.2.content)).Perm
      ((abd.peers.filter fun p => !decide (s.lastOf userId p.book.id = none)).map (·.book.content)) := by
  have hrow : ∀ y ∈ s.listed userId abd, y ∈ s.addressBooks.rows := fun y hy =>
    (mem_dbABs.mp (mem_listed hy).1).1
  have hcontent : ∀ p ∈ abd.peers, ∀ r, s.lastOf userId p.book.id = some r →
      ∃ y, OnlyIn (s.listed userId abd) y ∧ y.2.id = p.book.id ∧
        (s.put userId abd.peers y).2.content = p.book.content := by
    intro p hp r hr
    obtain ⟨y, honly, hshows⟩ := hshown p hp r hr
    have hid : y.2.id = p.book.id := by
      split at hshows
      · next hsame => exact hsame ▸ (lastOf_some.mp hr).2.1
      · exact id_of_content hshows
    exact ⟨y, honly, hid, (content_put_iff hvalid hp hr (hrow y honly.1) hid).mpr hshows⟩
  -- each row that is listed is the one of its peer
  have hpeer : ∀ y ∈ s.listed userId abd, ∃ p ∈ abd.peers, s.lastOf userId p.book.id ≠ none ∧
      (s.put userId abd.peers y).2.content = p.book.content ∧
      ∀ y' ∈ s.listed userId abd, y'.2.id = y.2.id → y' = y := by
    intro y hy
    obtain ⟨hmem, -, p, hp, hpid⟩ := mem_listed hy
    have hsome : s.lastOf userId p.book.id ≠ none := fun hnone => lastOf_none.mp hnone y hmem hpid.symm
    obtain ⟨r, hr⟩ := Option.ne_none_iff_exists'.mp hsome
    obtain ⟨y', honly, hid, hshows⟩ := hcontent p hp r hr
    have hsame : y = y' := honly.2 y hy (hpid.symm.trans hid.symm)
    exact ⟨p, hp, hsome, hsame ▸ hshows, hsame ▸ honly.2⟩
  rw [List.map_map]
  refine (List.perm_ext_iff_of_nodup ?_ ?_).mpr fun c => ?_
  · refine List.Nodup.map_on (fun y hy y' hy' heq => ?_) ?_
    · obtain ⟨-, -, -, -, honly⟩ := hpeer y' hy'
      refine honly y hy ?_
      have hid := id_of_content heq
      rwa [(put_owner hvalid (hrow y hy)).1, (put_owner hvalid (hrow y' hy')).1] at hid
    · have hnodup : s.addressBooks.rows.Nodup := List.Nodup.of_map _ s.addressBooks.nodup_ids
      exact ((hnodup.filter _).filter _).sublist (List.take_sublist ..)
  · have hnodup : ((abd.peers.map (·.book.content)).map AddressBook.id).Nodup := by
      rw [List.map_map]
      exact hvalid.ids
    exact (List.Nodup.of_map _ hnodup).sublist (List.filter_sublist.map _)
  · rw [List.mem_map, List.mem_map]
    constructor
    · rintro ⟨y, hy, rfl⟩
      obtain ⟨p, hp, hsome, hshows, -⟩ := hpeer y hy
      exact ⟨p, List.mem_filter.mpr ⟨hp, by simpa using hsome⟩, hshows.symm⟩
    · rintro ⟨p, hp, rfl⟩
      obtain ⟨hp, hsome⟩ := List.mem_filter.mp hp
      obtain ⟨r, hr⟩ := Option.ne_none_iff_exists'.mp (show s.lastOf userId p.book.id ≠ none by simpa using hsome)
      obtain ⟨y, honly, -, hshows⟩ := hcontent p hp r hr
      exact ⟨y, honly.1, hshows⟩

include hvalid hrows hcreated hkept hdeleted in
theorem peers_of_shown (hshown : ∀ p ∈ abd.peers, ∀ r, s.lastOf userId p.book.id = some r →
      ∃ r', OnlyIn (s.listed userId abd) r' ∧
        if r' = r then p.book.ClearsNothing r.2 else r'.2.content = p.book.content) :
    (((s.upAb userId abd).ab userId).peers.map (·.2.content)).Perm (abd.peers.map (·.book.content)) := by
  obtain ⟨n, hlist, hroom⟩ := listBooks_upAb hvalid hrows hcreated hkept hdeleted
  have hnews := news_contents hrows hcreated
  have hlisted := listed_contents hvalid hshown
  have hsplit := List.filter_append_perm (fun p : PostedPeer => decide (s.lastOf userId p.book.id = none)) abd.peers
  have hlength : (s.listed userId abd).length + news.length ≤ 1000 := by
    have h1 := hlisted.length_eq
    have h2 := congrArg List.length hnews
    have h3 := hsplit.length_eq
    have h4 := hvalid.peers
    rw [List.length_map, List.length_map, List.length_map] at h1
    rw [List.length_map, List.length_map, unknown] at h2
    rw [List.length_append] at h3
    omega
  show (((s.upAb userId abd).listBooks userId 0).map (·.2.content)).Perm _
  rw [hlist, hroom hlength, List.map_append, hnews]
  refine (List.perm_append_comm.trans (hlisted.append_left _)).trans ?_
  rw [unknown, ← List.map_append]
  exact hsplit.map _

include hvalid hrows hcreated hkept hdeleted in
/-- Other collections and users have what they had. -/
theorem booksOf_of_ne {uid cid : ℕ} (hne : (uid, cid) ≠ (userId, 0)) :
    (s.upAb userId abd).booksOf uid cid = s.booksOf uid cid := by
  have hother : ∀ row : ℕ × AddressBook, row.2.userId = uid ∧ row.2.collectionId = cid →
      ¬ (row.2.userId = userId ∧ row.2.collectionId = 0) := by
    rintro row ⟨rfl, rfl⟩ ⟨huser, hzero⟩
    exact hne (by rw [huser, hzero])
  have hnone : news.filter (fun r => r.2.userId = uid && r.2.collectionId = cid) = [] := by
    refine List.filter_eq_nil_iff.mpr fun x hx hsat => ?_
    obtain ⟨huser, hzero, -⟩ := news_created hrows hcreated hx
    rw [Bool.and_eq_true, decide_eq_true_iff, decide_eq_true_iff] at hsat
    exact hother x hsat ⟨huser, hzero⟩
  have hsame : ∀ row ∈ s.addressBooks.rows,
      (row.2.userId = uid ∧ row.2.collectionId = cid → s.put userId abd.peers row = row) ∧
      ((s.put userId abd.peers row).2.userId = uid ∧ (s.put userId abd.peers row).2.collectionId = cid ∧
        (!(s.gone userId abd.peers).any fun g => g.1 = row.1) = true ↔
        row.2.userId = uid ∧ row.2.collectionId = cid) := by
    intro row hrow
    rcases put_kept hvalid hkept hrow with hput | ⟨huser, hzero, hzero'⟩
    · rw [hput, ← and_assoc]
      refine ⟨fun _ => rfl, and_iff_left_of_imp fun hmine => ?_⟩
      rw [Bool.not_eq_true', List.any_eq_false]
      intro g hg hid
      obtain ⟨hlast, hposted⟩ := mem_gone.mp hg
      have hg := (lastOf_some.mp hlast).1
      have hgrow : g = row := Table.eq_of_id (mem_dbABs.mp hg).1 hrow (of_decide_eq_true hid)
      exact hother row hmine (hgrow ▸ ⟨(mem_dbABs.mp hg).2, (hdeleted g hg hposted).1⟩)
    · have huser' : (s.put userId abd.peers row).2.userId = userId := (put_owner hvalid hrow).2.trans huser
      exact ⟨fun hmine => absurd ⟨huser, hzero⟩ (hother row hmine),
        iff_of_false (fun h => hother _ ⟨h.1, h.2.1⟩ ⟨huser', hzero'⟩)
          fun h => hother row h ⟨huser, hzero⟩⟩
  unfold booksOf Table.select
  rw [hrows.rows, List.filter_append, hnone, List.append_nil, List.filter_map, List.filter_filter]
  have hfilter : s.addressBooks.rows.filter (fun row =>
      ((fun r : ℕ × AddressBook => r.2.userId = uid && r.2.collectionId = cid) ∘ s.put userId abd.peers) row &&
        !(s.gone userId abd.peers).any fun g => g.1 = row.1) =
      s.addressBooks.rows.filter fun row => row.2.userId = uid && row.2.collectionId = cid := by
    refine List.filter_congr fun row hrow => ?_
    have hiff := (hsame row hrow).2
    rw [Bool.eq_iff_iff, Bool.and_eq_true, Function.comp_apply, Bool.and_eq_true, Bool.and_eq_true,
      decide_eq_true_iff, decide_eq_true_iff, decide_eq_true_iff, decide_eq_true_iff, and_assoc]
    exact hiff
  rw [hfilter]
  refine (List.map_congr_left fun row hrow => ?_).trans (List.map_id _)
  obtain ⟨hrow, hsat⟩ := List.mem_filter.mp hrow
  rw [Bool.and_eq_true, decide_eq_true_iff, decide_eq_true_iff] at hsat
  exact (hsame row hrow).1 hsat

end Listed

end Synced

/-- Posting what is listed changes nothing if it has all ids of the user's rows. -/
theorem updateAddressBook_again (hnumbered : ∀ r ∈ s.addressBooks.rows, r.1 ≠ 0)
    (hids : ((s.listBooks userId 0).map (·.2.id)).Nodup)
    (hall : ∀ r ∈ s.dbABs userId, ∃ x ∈ s.listBooks userId 0, x.2.id = r.2.id) :
    s.updateAddressBook (s.ab userId).body.peers userId = s := by
  have hput : ∀ p ∈ (s.ab userId).body.peers, putPeer userId (dbABIds (s.dbABs userId)) s p = s := by
    intro p hp
    obtain ⟨x, hx, rfl⟩ := List.mem_map.mp hp
    obtain ⟨hmem, hsat⟩ := Table.mem_select.mp (List.mem_of_mem_take hx)
    rw [Bool.and_eq_true, decide_eq_true_iff] at hsat
    have huser : ({ x.2 with userId := userId } : AddressBook) = x.2 := by rw [← hsat.1]
    unfold putPeer
    dsimp only
    rw [huser]
    split
    · next hnone => exact absurd rfl (dbABIds_none.mp hnone x (mem_dbABs.mpr ⟨hmem, hsat.1⟩))
    · next r hr =>
      have hsame : updatesRow s.addressBooks r.1 ⟨x.1, x.2, none⟩ = s.addressBooks := by
        unfold updatesRow
        split
        · next hid =>
          refine Table.update_eq_self fun r' hr' hid' => ?_
          have hxr : r' = x := Table.eq_of_id hr' hmem
            ((of_decide_eq_true hid').trans (hid.resolve_left (hnumbered x hmem)).symm)
          rw [hxr, updatesBook_self]
        · -- the row has another id, and the update fails
          rw [if_pos (List.any_eq_true.mpr ⟨x, hmem, decide_eq_true rfl⟩)]
      rw [hsame]
  have hfold : ∀ ps : List PostedPeer, (∀ p ∈ ps, p ∈ (s.ab userId).body.peers) →
      ps.foldl (putPeer userId (dbABIds (s.dbABs userId))) s = s := by
    intro ps hps
    induction ps with
    | nil => rfl
    | cons p ps ih =>
      rw [List.forall_mem_cons] at hps
      rw [List.foldl_cons, hput p hps.1, ih hps.2]
  have hpeers : ((s.ab userId).body.peers.map (·.book.id)).Nodup := by
    unfold AbList.body ab
    rwa [List.map_map]
  unfold updateAddressBook
  dsimp only
  rw [aBIds_of_nodup hpeers, hfold _ fun _ hp => hp, Table.delete_eq_self]
  intro r hr hgone
  obtain ⟨g, hg, -⟩ := List.any_eq_true.mp hgone
  obtain ⟨hlast, hposted⟩ := mem_gone.mp hg
  obtain ⟨x, hx, hid⟩ := hall g (lastOf_some.mp hlast).1
  exact hposted ⟨x.1, x.2, none⟩ (List.mem_map.mpr ⟨x, hx, rfl⟩) hid

/-- What rows there are of a user after an exact sync. -/
theorem dbABs_upAb {origin : List PostedPeer} {news : List (ℕ × AddressBook)} (hvalid : abd.Valid)
    (hrows : SyncedRows s userId abd origin news)
    (hcreated : ∀ p ∈ abd.peers, s.lastOf userId p.book.id = none →
      p.book.id ≠ "" ∧ p.book.collectionId = 0 ∧ p.collection = none)
    (hdeleted : ∀ r ∈ s.dbABs userId, (∀ p ∈ abd.peers, p.book.id ≠ r.2.id) →
      r.2.collectionId = 0 ∧ OnlyIn (s.dbABs userId) r)
    {x : ℕ × AddressBook} (hx : x ∈ (s.upAb userId abd).dbABs userId) :
    ∃ p ∈ abd.peers, p.book.id = x.2.id := by
  obtain ⟨hmem, huser⟩ := mem_dbABs.mp hx
  rcases (mem_synced hrows).mp hmem with ⟨row, hrow, hkeep, rfl⟩ | hnew
  · rw [(put_owner hvalid hrow).2] at huser
    rw [(put_owner hvalid hrow).1]
    have hstays : (abd.peers.any fun p => p.book.id = row.2.id) = true := by
      refine (not_gone_iff hdeleted (mem_dbABs.mpr ⟨hrow, huser⟩)).mp ?_
      rw [Bool.not_eq_true', List.any_eq_false]
      exact fun g hg hid => hkeep g hg (of_decide_eq_true hid)
    obtain ⟨p, hp, hid⟩ := List.any_eq_true.mp hstays
    exact ⟨p, hp, of_decide_eq_true hid⟩
  · obtain ⟨-, -, p, hp, -, hcontent⟩ := news_created hrows hcreated hnew
    exact ⟨p, hp, (id_of_content hcontent).symm⟩

/-- Ids are given from 1 on also after a sync. -/
theorem upAb_numbered {origin : List PostedPeer} {news : List (ℕ × AddressBook)} (hs : s.Numbered)
    (hrows : SyncedRows s userId abd origin news) {x : ℕ × AddressBook}
    (hx : x ∈ (s.upAb userId abd).addressBooks.rows) : x.1 ≠ 0 := by
  rcases (mem_synced hrows).mp hx with ⟨row, hrow, -, rfl⟩ | hnew
  · rw [put_fst]
    exact hs.addressBooks row hrow
  · obtain ⟨p, -, -, hmade, -⟩ := news_made hrows hnew
    exact Nat.ne_of_gt (Nat.lt_of_lt_of_le (Nat.pos_of_ne_zero hs.nextBook) hmade.id)

/-! ### Exact syncs -/

/-- A body whose row ids are those of the rows that its peers go to is synced exactly if and only if new peers
bring neither an empty id nor a collection, what goes to a row of collection 0 leaves it there and what goes to
another one changes nothing, each peer is listed once, with nothing left to clear, rows with other ids are in
collection 0 and have no other row of their id, and there are no tags of other collections. -/
theorem syncsExactly_iff_syncable (hs : s.Numbered) (hvalid : abd.Valid) :
    s.SyncsExactly userId abd ∧ s.KeepsRowIds userId abd ↔ s.Syncable userId abd := by
  constructor
  · rintro ⟨hexact, hrowIds⟩
    obtain ⟨⟨origin, news, hrows⟩, htags⟩ := exists_syncedRows hs hvalid hrowIds
    have hbooks : ∀ cid, cid ≠ 0 → (s.upAb userId abd).booksOf userId cid = s.booksOf userId cid :=
      fun cid hne => hexact.books userId cid fun h => hne (congrArg Prod.snd h)
    have hcreated := fun p (hp : p ∈ abd.peers) => created_of_peers hvalid hrows hexact.peers hp
    have hkept := fun p (hp : p ∈ abd.peers) r hr => kept_of_books hvalid hrows hbooks hp (r := r) hr
    have hdeleted := fun r (hr : r ∈ s.dbABs userId) =>
      deleted_of_again hvalid hrows hexact.peers hbooks hexact.againBooks hr
    refine ⟨hrowIds, hcreated, hkept, fun p hp r hr => ?_, hdeleted, ?_⟩
    · exact shown_of_peers hvalid hrows hcreated hkept hdeleted hexact.peers hp hr
    · rw [← htags]
      refine (updateTags_exact hvalid.names hvalid.tags).mp ⟨hexact.tagColors, fun uid cid hne => ?_⟩
      rw [tagsOf, tagsOf, htags]
      exact hexact.tags uid cid hne
  · intro h
    obtain ⟨⟨origin, news, hrows⟩, htags⟩ := exists_syncedRows hs hvalid h.rowIds
    have hpeers := peers_of_shown hvalid hrows h.created h.kept h.deleted h.shown
    obtain ⟨hcolors, htagsOf⟩ :=
      (updateTags_exact (s := s.updateAddressBook abd.peers userId) hvalid.names hvalid.tags).mpr
        (htags ▸ h.tags)
    obtain ⟨-, -, -, hcolorsAll⟩ := updateTags_tagsOfUser (s.updateAddressBook abd.peers userId) userId hvalid.names
    -- the answer has all ids of the user's rows
    have hagain : (s.upAb userId abd).updateAddressBook ((s.upAb userId abd).ab userId).body.peers userId =
        s.upAb userId abd := by
      refine updateAddressBook_again (fun r hr => upAb_numbered hs hrows hr) ?_ fun r hr => ?_
      · have hperm := hpeers.map AddressBook.id
        rw [List.map_map, List.map_map] at hperm
        exact hperm.nodup_iff.mpr hvalid.ids
      · exact (posted_iff_listed hpeers).mpr (dbABs_upAb hvalid hrows h.created h.deleted hr)
    refine ⟨⟨hpeers, hcolors, fun uid cid hne => ?_, fun uid cid hne => ?_, ?_, ?_⟩, h.rowIds⟩
    · exact booksOf_of_ne hvalid hrows h.created h.kept h.deleted hne
    · refine (htagsOf uid cid hne).trans ?_
      rw [tagsOf, tagsOf, htags]
    · conv_lhs => rw [upAb, hagain]
      rfl
    · conv_lhs => rw [upAb, hagain]
      refine congrArg Table.rows (updateTags_again ?_ (hcolors.trans hcolorsAll.symm))
      exact (hcolorsAll.map (·.1)).nodup_iff.mpr hvalid.names

/-- The peer 100 of user 1, with a password, in a collection. -/
def peer100 (password : String) (cid : ℕ) : AddressBook where
  id := "100"
  username := "alice"
  password := password
  hostname := "host"
  peerAlias := ""
  platform := "Linux"
  tags := "[]"
  hash := ""
  userId := 1
  forceAlwaysRelay := false
  rdpPort := ""
  rdpUsername := ""
  online := false
  loginName := ""
  sameServer := false
  collectionId := cid

/-- A user with one peer. -/
def withPeer100 (password : String) (cid : ℕ) : AbTables :=
  ⟨.empty, .empty, .empty, .empty, Table.empty.insert (peer100 password cid), .empty, .empty⟩

theorem withPeer100_numbered (password : String) (cid : ℕ) : (withPeer100 password cid).Numbered where
  addressBooks := by
    intro r hr
    obtain rfl : r = (1, peer100 password cid) := List.mem_singleton.mp hr
    exact Nat.one_ne_zero
  nextBook := Nat.succ_ne_zero 1
  collections := fun _ hc => absurd hc List.not_mem_nil
  nextCollection := Nat.one_ne_zero

/-- A new password is synced. -/
theorem syncsExactly_iff_syncable_password :
    (withPeer100 "old" 0).SyncsExactly 1 ⟨[⟨0, peer100 "new" 0, none⟩], [("work", 7)]⟩ := by
  have hvalid : AddressBookFormData.Valid ⟨[⟨0, peer100 "new" 0, none⟩], [("work", 7)]⟩ :=
    ⟨by decide, by decide, by decide, by decide, by decide⟩
  refine ((syncsExactly_iff_syncable (withPeer100_numbered "old" 0) hvalid).mpr ?_).1
  have hlast : (withPeer100 "old" 0).lastOf 1 "100" = some (1, peer100 "old" 0) := by decide
  refine ⟨fun p hp => .inl ?_, fun p hp hnone => ?_, fun p hp r hr => ?_, fun p hp r hr => ?_,
    fun r hr hposted => ?_, fun t ht => absurd ht List.not_mem_nil⟩
  · obtain rfl := List.mem_singleton.mp hp
    rfl
  · obtain rfl := List.mem_singleton.mp hp
    exact absurd (hlast.symm.trans hnone) nofun
  · obtain rfl := List.mem_singleton.mp hp
    cases hlast.symm.trans hr
    rfl
  · obtain rfl := List.mem_singleton.mp hp
    cases hlast.symm.trans hr
    refine ⟨(1, peer100 "old" 0), ⟨by decide, fun r' hr' _ => ?_⟩, ?_⟩
    · exact List.mem_singleton.mp hr'
    · rw [if_pos rfl]
      exact ⟨nofun, fun _ => rfl, nofun, fun _ => rfl, fun _ => rfl, fun _ => rfl, fun _ => rfl, fun _ => rfl,
        fun _ => rfl, fun _ => rfl⟩
  · obtain rfl : r = (1, peer100 "old" 0) := List.mem_singleton.mp hr
    exact absurd rfl (hposted ⟨0, peer100 "new" 0, none⟩ (List.mem_singleton_self _))

/-- A password that is cleared stays, and a peer in another collection is deleted by a body without it. -/
theorem cleared_password_stays :
    ((withPeer100 "old" 0).Numbered ∧ AddressBookFormData.Valid ⟨[⟨0, peer100 "" 0, none⟩], []⟩ ∧
      ¬ (withPeer100 "old" 0).SyncsExactly 1 ⟨[⟨0, peer100 "" 0, none⟩], []⟩) ∧
    (withPeer100 "old" 5).Numbered ∧ AddressBookFormData.Valid ⟨[], []⟩ ∧
      ¬ (withPeer100 "old" 5).SyncsExactly 1 ⟨[], []⟩ := by
  refine ⟨⟨withPeer100_numbered _ _, ⟨by decide, by decide, by decide, by decide, by decide⟩, fun h => ?_⟩,
    withPeer100_numbered _ _, ⟨by decide, by decide, by decide, by decide, by decide⟩, fun h => ?_⟩
  · have hpeers := h.peers
    revert hpeers
    decide
  · have hbooks := h.books 1 5 (by decide)
    revert hbooks
    decide

end AbTables

end RustDesk.Api
