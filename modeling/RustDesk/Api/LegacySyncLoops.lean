import Mathlib.Data.List.Induction
import RustDesk.Api.LegacySync

/-!
# What a sync leaves of the rows

References: `rustdesk-api/service/addressBook.go` (`UpdateAddressBook`), `service/tag.go` (`UpdateTags`).

The loops in closed form: of the rows of a user the last one of a posted id is updated and the last one of
another id deleted, and new rows come behind. Of the tags the first one of a posted name stays.
-/

namespace RustDesk.Api

variable {A : Type*} [DecidableEq A] {zero new old : A}

theorem updatesField_eq_new : updatesField zero new old = new ↔ (new = zero → old = new) := by
  unfold updatesField
  split
  · next h => simp [h]
  · next h => simp [h]

theorem updatesField_eq_old : updatesField zero new old = old ↔ (new ≠ zero → old = new) := by
  unfold updatesField
  split
  · next h => simp [h]
  · next h =>
    rw [eq_comm]
    exact ⟨fun heq _ => heq, fun heq => heq h⟩

/-! ## One row -/

section Row

variable {p r : AddressBook}

theorem nullIfNil_updatesField (new old : String) :
    ((if updatesField "" new old = "" then "null" else updatesField "" new old) =
      if new = "" then "null" else new) ↔ (new = "" → old = "" ∨ old = "null") := by
  unfold updatesField
  by_cases hnew : new = ""
  · by_cases hold : old = "" <;> simp [hnew, hold]
  · simp [hnew]

/-- A row that is updated looks like the peer if nothing had to be cleared. -/
theorem content_updatesBook (hgiven : p.platform ≠ "" ∧ p.username ≠ "" ∧ p.hostname ≠ "") (hid : r.id = p.id) :
    (updatesBook p r).content = p.content ↔ p.ClearsNothing r := by
  obtain ⟨hplatform, husername, hhostname⟩ := hgiven
  simp only [AddressBook.content, updatesBook, AddressBook.mk.injEq, updatesField_eq_new,
    nullIfNil_updatesField, hid, hplatform, husername, hhostname, implies_true, false_implies, true_and,
    and_true]
  constructor
  · rintro ⟨hpassword, halias, htags, hhash, hrelay, hport, hrdpUsername, honline, hlogin, hserver⟩
    exact ⟨fun h => (hpassword h).trans h, fun h => (halias h).trans h, htags, fun h => (hhash h).trans h,
      fun h => (hrelay h).trans h, fun h => (hport h).trans h, fun h => (hrdpUsername h).trans h,
      fun h => (honline h).trans h, fun h => (hlogin h).trans h, fun h => (hserver h).trans h⟩
  · intro h
    exact ⟨fun hp => (h.password hp).trans hp.symm, fun hp => (h.peerAlias hp).trans hp.symm, h.tags,
      fun hp => (h.hash hp).trans hp.symm, fun hp => (h.forceAlwaysRelay hp).trans hp.symm,
      fun hp => (h.rdpPort hp).trans hp.symm, fun hp => (h.rdpUsername hp).trans hp.symm,
      fun hp => (h.online hp).trans hp.symm, fun hp => (h.loginName hp).trans hp.symm,
      fun hp => (h.sameServer hp).trans hp.symm⟩

/-- A row that is updated stays as it is if it agrees with the peer. -/
theorem updatesBook_eq_self (huser : p.userId = r.userId) (hid : r.id = p.id) :
    updatesBook p r = r ↔ p.AgreesWith r := by
  have hbool (b b' : Bool) : (b ≠ false → b' = b) ↔ (b = true → b' = true) := by
    cases b <;> cases b' <;> decide
  conv_lhs => rw [← show (⟨r.id, r.username, r.password, r.hostname, r.peerAlias, r.platform, r.tags, r.hash,
    r.userId, r.forceAlwaysRelay, r.rdpPort, r.rdpUsername, r.online, r.loginName, r.sameServer,
    r.collectionId⟩ : AddressBook) = r from rfl]
  simp only [updatesBook, AddressBook.mk.injEq, updatesField_eq_old, hid, huser, implies_true, true_and, hbool]
  constructor
  · rintro ⟨husername, hpassword, hhostname, halias, hplatform, htags, hhash, hrelay, hport, hrdpUsername,
      honline, hlogin, hserver, hcollection⟩
    exact ⟨husername, hpassword, hhostname, halias, hplatform, htags, hhash, hrelay, hport, hrdpUsername,
      honline, hlogin, hserver, hcollection⟩
  · intro h
    exact ⟨h.username, h.password, h.hostname, h.peerAlias, h.platform, h.tags, h.hash, h.forceAlwaysRelay,
      h.rdpPort, h.rdpUsername, h.online, h.loginName, h.sameServer, h.collectionId⟩

end Row

/-! ## The last row of each id -/

section Last

variable {rows : List (ℕ × AddressBook)} {id : String} {r : ℕ × AddressBook}

theorem dbABIds_append (rows : List (ℕ × AddressBook)) (r : ℕ × AddressBook) :
    dbABIds (rows ++ [r]) = Function.update (dbABIds rows) r.2.id (some r) := by
  rw [dbABIds, List.foldl_append]
  rfl

theorem dbABIds_none : dbABIds rows id = none ↔ ∀ r ∈ rows, r.2.id ≠ id := by
  induction rows using List.reverseRecOn with
  | nil => exact ⟨fun _ => List.forall_mem_nil _, fun _ => rfl⟩
  | append_singleton rows r ih =>
    rw [dbABIds_append, List.forall_mem_append, List.forall_mem_singleton]
    by_cases hid : id = r.2.id
    · subst hid
      rw [Function.update_self]
      exact ⟨fun h => absurd h (Option.some_ne_none _), fun h => absurd rfl h.2⟩
    · rw [Function.update_of_ne hid, ih]
      exact ⟨fun h => ⟨h, Ne.symm hid⟩, And.left⟩

theorem dbABIds_some (hsorted : rows.Pairwise (·.1 < ·.1)) :
    dbABIds rows id = some r ↔ r ∈ rows ∧ r.2.id = id ∧ ∀ r' ∈ rows, r'.2.id = id → r'.1 ≤ r.1 := by
  induction rows using List.reverseRecOn with
  | nil => exact ⟨nofun, fun h => absurd h.1 List.not_mem_nil⟩
  | append_singleton rows r' ih =>
    obtain ⟨hrows, -, hlast⟩ := List.pairwise_append.mp hsorted
    have hlast : ∀ r ∈ rows, r.1 < r'.1 := fun r hr => hlast r hr r' (List.mem_singleton_self _)
    rw [dbABIds_append, List.forall_mem_append, List.forall_mem_singleton, List.mem_append, List.mem_singleton]
    by_cases hid : id = r'.2.id
    · subst hid
      rw [Function.update_self, Option.some.injEq]
      constructor
      · rintro rfl
        exact ⟨.inr rfl, rfl, fun r hr _ => Nat.le_of_lt (hlast r hr), fun _ => Nat.le_refl _⟩
      · rintro ⟨hr | rfl, -, -, hle⟩
        · exact absurd (hle rfl) (Nat.not_le_of_lt (hlast r hr))
        · rfl
    · rw [Function.update_of_ne hid, ih hrows]
      constructor
      · rintro ⟨hr, hrid, hmax⟩
        exact ⟨.inl hr, hrid, hmax, fun h => absurd h.symm hid⟩
      · rintro ⟨hr | rfl, hrid, hmax, -⟩
        · exact ⟨hr, hrid, hmax⟩
        · exact absurd hrid.symm hid

end Last

/-! ## The loop over the posted peers -/

namespace AbTables

variable {s : AbTables} {userId : ℕ} {r : ℕ × AddressBook} {id : String} {ps : List PostedPeer} {p : PostedPeer}

theorem mem_dbABs : r ∈ s.dbABs userId ↔ r ∈ s.addressBooks.rows ∧ r.2.userId = userId := by
  rw [dbABs, Table.mem_select, decide_eq_true_iff]

theorem lastOf_some : s.lastOf userId id = some r ↔
      r ∈ s.dbABs userId ∧ r.2.id = id ∧ ∀ r' ∈ s.dbABs userId, r'.2.id = id → r'.1 ≤ r.1 :=
  dbABIds_some (s.addressBooks.sorted.filter _)

theorem lastOf_none : s.lastOf userId id = none ↔ ∀ r ∈ s.dbABs userId, r.2.id ≠ id := dbABIds_none

/-- A peer as it is put, with the user. -/
def ofUser (userId : ℕ) (ab : AddressBook) : AddressBook := { ab with userId := userId }

/-- A row after some peers: updated with the one that goes to it. -/
def put (s : AbTables) (userId : ℕ) (ps : List PostedPeer) (row : ℕ × AddressBook) : ℕ × AddressBook :=
  match ps.find? fun p => (s.lastOf userId p.book.id).map (·.1) = some row.1 with
  | some p => (row.1, updatesBook (ofUser userId p.book) row.2)
  | none => row

/-- A row that was created for a peer. -/
structure Made (s : AbTables) (userId : ℕ) (p : PostedPeer) (x : ℕ × AddressBook) : Prop where
  id : s.addressBooks.next ≤ x.1
  book : ∃ cid, x.2 = ({ ofUser userId p.book with collectionId := cid } : AddressBook).stored ∧
    (p.collection = none → cid = p.book.collectionId) ∧ (p.collection ≠ none → cid ≠ 0)

theorem exists_made {origin : List PostedPeer} {news : List (ℕ × AddressBook)}
    (h : List.Forall₂ (s.Made userId) origin news) {x : ℕ × AddressBook} (hx : x ∈ news) :
    ∃ p ∈ origin, s.Made userId p x := by
  induction h with
  | nil => exact absurd hx List.not_mem_nil
  | cons hmade _ ih =>
    rcases List.mem_cons.mp hx with rfl | hx
    · exact ⟨_, List.mem_cons_self, hmade⟩
    · obtain ⟨p, hp, hmade'⟩ := ih hx
      exact ⟨p, List.mem_cons_of_mem _ hp, hmade'⟩

/-- The peers that have no row. -/
def unknown (s : AbTables) (userId : ℕ) (ps : List PostedPeer) : List PostedPeer :=
  ps.filter fun p => s.lastOf userId p.book.id = none

/-- What the tables are after some peers: rows are updated in place, and behind them are the rows created for
the peers without one, for all of them if they bring no collections. -/
structure PutSoFar (s : AbTables) (userId : ℕ) (ps : List PostedPeer) (t : AbTables) : Prop where
  rows : ∃ origin news, t.addressBooks.rows = s.addressBooks.rows.map (s.put userId ps) ++ news ∧
    origin.Sublist (s.unknown userId ps) ∧ List.Forall₂ (s.Made userId) origin news ∧
    ((∀ p ∈ s.unknown userId ps, p.collection = none) → origin = s.unknown userId ps)
  next : s.addressBooks.next ≤ t.addressBooks.next
  tags : t.tags = s.tags
  collections : (∀ c ∈ t.collections.rows, c.1 ≠ 0) ∧ t.collections.next ≠ 0

@[simp]
theorem put_fst (s : AbTables) (userId : ℕ) (ps : List PostedPeer) (row : ℕ × AddressBook) :
    (s.put userId ps row).1 = row.1 := by
  unfold put
  split <;> rfl

theorem put_of_find_none {row : ℕ × AddressBook}
    (h : ∀ p ∈ ps, ∀ r, s.lastOf userId p.book.id = some r → r.1 ≠ row.1) : s.put userId ps row = row := by
  have hnone : (ps.find? fun p => (s.lastOf userId p.book.id).map (·.1) = some row.1) = none := by
    refine List.find?_eq_none.mpr fun p hp => ?_
    rw [decide_eq_true_iff, Option.map_eq_some_iff]
    rintro ⟨r, hr, hid⟩
    exact h p hp r hr hid
  rw [put, hnone]

/-- One row is the last of one id alone. -/
theorem lastOf_inj {id' : String} {r' : ℕ × AddressBook} (h : s.lastOf userId id = some r)
    (h' : s.lastOf userId id' = some r') (hid : r.1 = r'.1) : id = id' := by
  obtain ⟨hmem, hrid, -⟩ := lastOf_some.mp h
  obtain ⟨hmem', hrid', -⟩ := lastOf_some.mp h'
  have hrow : r = r' := Table.eq_of_id (mem_dbABs.mp hmem).1 (mem_dbABs.mp hmem').1 hid
  rw [← hrid, ← hrid', hrow]

/-- The last row of a posted id is updated. -/
theorem put_of_mem (hids : (ps.map (·.book.id)).Nodup) (hp : p ∈ ps) (hr : s.lastOf userId p.book.id = some r) :
    s.put userId ps r = (r.1, updatesBook (ofUser userId p.book) r.2) := by
  have hsome : (ps.find? fun p => (s.lastOf userId p.book.id).map (·.1) = some r.1).isSome := by
    refine List.find?_isSome.mpr ⟨p, hp, ?_⟩
    rw [hr]
    exact decide_eq_true rfl
  obtain ⟨p', hp'⟩ := Option.isSome_iff_exists.mp hsome
  have hsat := List.find?_some hp'
  rw [decide_eq_true_iff, Option.map_eq_some_iff] at hsat
  obtain ⟨r', hr', hid⟩ := hsat
  have hsame : p' = p :=
    List.inj_on_of_nodup_map hids (List.mem_of_find?_eq_some hp') hp (lastOf_inj hr' hr hid)
  rw [put, hp', hsame]

/-- A peer that goes to another row, or to none. -/
theorem put_append_of_ne {row : ℕ × AddressBook} (hp : ∀ r, s.lastOf userId p.book.id = some r → r.1 ≠ row.1) :
    s.put userId (ps ++ [p]) row = s.put userId ps row := by
  have hne : ¬ (s.lastOf userId p.book.id).map (·.1) = some row.1 := by
    rw [Option.map_eq_some_iff]
    rintro ⟨r, hr, hid⟩
    exact hp r hr hid
  rw [put, put, List.find?_append, List.find?_singleton, if_neg (by simpa using hne), Option.or_none]

theorem fillFromPeer_of_given {ab : AddressBook}
    (h : ab.platform ≠ "" ∧ ab.username ≠ "" ∧ ab.hostname ≠ "") : s.fillFromPeer ab = ab := by
  rw [fillFromPeer, if_neg]
  simp [h.1, h.2.1, h.2.2]

theorem unknown_append (s : AbTables) (userId : ℕ) (ps : List PostedPeer) (p : PostedPeer) :
    s.unknown userId (ps ++ [p]) = s.unknown userId ps ++ if s.lastOf userId p.book.id = none then [p] else [] := by
  rw [unknown, List.filter_append]
  by_cases hnone : s.lastOf userId p.book.id = none
  · simp [unknown, hnone]
  · simp [unknown, hnone]

/-- A peer without a row, which brings no row id, is created behind the others. -/
theorem PutSoFar.create {t : AbTables} (h : PutSoFar s userId ps t)
    (hgiven : p.book.platform ≠ "" ∧ p.book.username ≠ "" ∧ p.book.hostname ≠ "") (hrowId : p.rowId = 0)
    (hnone : s.lastOf userId p.book.id = none) :
    PutSoFar s userId (ps ++ [p]) (t.createBook { p with book := ofUser userId p.book }) := by
  obtain ⟨⟨origin, news, hrows, hsub, hmade, hall⟩, hnext, htags, hcollections⟩ := h
  have hunknown : s.unknown userId (ps ++ [p]) = s.unknown userId ps ++ [p] := by
    rw [unknown_append, if_pos hnone]
  have hput : s.put userId (ps ++ [p]) = s.put userId ps :=
    funext fun row => put_append_of_ne fun r hr => by simp [hnone] at hr
  -- the row, with the collection that it gets, is inserted
  have hinsert : ∀ (t' : AbTables) (cid : ℕ), t'.addressBooks = t.addressBooks → t'.tags = t.tags →
      (∀ c ∈ t'.collections.rows, c.1 ≠ 0) ∧ t'.collections.next ≠ 0 →
      (p.collection = none → cid = p.book.collectionId) → (p.collection ≠ none → cid ≠ 0) →
      PutSoFar s userId (ps ++ [p]) { t' with
        addressBooks := (t'.addressBooks.insertAs p.rowId
          ({ ofUser userId p.book with collectionId := cid } : AddressBook).stored).getD t'.addressBooks } := by
    intro t' cid hbooks htags' hcollections' hsame hne
    obtain ⟨t'', hsome, hrows'', hnext''⟩ := Table.insertAs_zero t'.addressBooks
      ({ ofUser userId p.book with collectionId := cid } : AddressBook).stored
    rw [hrowId, hsome]
    rw [hbooks] at hrows'' hnext''
    refine ⟨⟨origin ++ [p], news ++ [(t.addressBooks.next,
      ({ ofUser userId p.book with collectionId := cid } : AddressBook).stored)], ?_, ?_, ?_, ?_⟩,
      Nat.le_trans hnext hnext'', htags'.trans htags, hcollections'⟩
    · rw [Option.getD_some, hrows'', hrows, hput, List.append_assoc]
    · rw [hunknown]
      exact hsub.append (List.Sublist.refl [p])
    · exact List.rel_append hmade (.cons ⟨hnext, cid, rfl, hsame, hne⟩ .nil)
    · intro hplain
      rw [hunknown] at hplain ⊢
      rw [hall fun p' hp' => hplain p' (List.mem_append_left _ hp')]
  have hfill : t.fillFromPeer (ofUser userId p.book) = ofUser userId p.book := fillFromPeer_of_given hgiven
  unfold createBook
  rw [hfill]
  cases hcollection : p.collection with
  | none =>
    exact hinsert t p.book.collectionId rfl rfl hcollections (fun _ => rfl) fun h => absurd hcollection h
  | some c =>
    have hsome : p.collection ≠ none := by simp [hcollection]
    dsimp only
    unfold createCollectionOf
    split
    · next hskip =>
      refine ⟨⟨origin, news, ?_, ?_, hmade, ?_⟩, hnext, htags, hcollections⟩
      · rw [hrows, hput]
      · rw [hunknown]
        exact hsub.trans (List.sublist_append_left ..)
      · rw [hunknown]
        exact fun hplain => absurd (hplain p (by simp)) hsome
    · next t' cid hcreated =>
      split at hcreated
      · next hfound =>
        obtain ⟨c', hc'⟩ := Option.isSome_iff_exists.mp hfound
        cases hcreated
        have hid : c'.1 = c.1 := of_decide_eq_true (Table.first_sat hc')
        refine hinsert _ c.1 rfl rfl hcollections (fun h => absurd h hsome) fun _ => ?_
        rw [← hid]
        exact hcollections.1 c' (Table.mem_of_first hc')
      · obtain ⟨collections, hrow, heq⟩ := Option.map_eq_some_iff.mp hcreated
        cases heq
        obtain ⟨-, hrow⟩ := createRow_some hrow
        have hne : t.collections.idFor c.1 ≠ 0 := by
          unfold Table.idFor
          split
          · exact hcollections.2
          · assumption
        refine hinsert _ _ rfl rfl ⟨fun c' hc' => ?_, ?_⟩ (fun h => absurd h hsome) fun _ => hne
        · rcases (Table.mem_insertAs hrow).mp hc' with hc' | rfl
          · exact hcollections.1 c' hc'
          · exact hne
        · obtain ⟨-, heq⟩ := Table.insertAs_eq hrow
          rw [heq]
          exact Nat.ne_of_gt (Nat.lt_of_lt_of_le (Nat.pos_of_ne_zero hcollections.2) (Nat.le_max_left _ _))

/-- The last row of an id is updated, where the peer brings no other row id. -/
theorem PutSoFar.update {t : AbTables} (h : PutSoFar s userId ps t) (hids : ((ps ++ [p]).map (·.book.id)).Nodup)
    (hr : s.lastOf userId p.book.id = some r) (hrowId : p.rowId = 0 ∨ p.rowId = r.1) :
    PutSoFar s userId (ps ++ [p])
      { t with addressBooks := updatesRow t.addressBooks r.1 { p with book := ofUser userId p.book } } := by
  obtain ⟨⟨origin, news, hrows, hsub, hmade, hall⟩, hnext, htags, hcollections⟩ := h
  have hmem := (mem_dbABs.mp (lastOf_some.mp hr).1).1
  have hunknown : s.unknown userId (ps ++ [p]) = s.unknown userId ps := by
    rw [unknown_append, if_neg (by simp [hr]), List.append_nil]
  have hupdate : updatesRow t.addressBooks r.1 { p with book := ofUser userId p.book } =
      t.addressBooks.update (fun row => row.1 = r.1) (updatesBook (ofUser userId p.book)) := if_pos hrowId
  rw [hupdate]
  refine ⟨⟨origin, news, ?_, hunknown ▸ hsub, hmade, hunknown ▸ hall⟩, hnext, htags, hcollections⟩
  show t.addressBooks.rows.map (Table.updateRow _ _) = _
  rw [hrows, List.map_append, List.map_map]
  congr 1
  · -- the row itself, which no peer before went to, and the others
    refine List.map_congr_left fun row hrow => ?_
    rw [Function.comp_apply]
    by_cases hid : row.1 = r.1
    · have hsame : row = r := Table.eq_of_id hrow hmem hid
      subst hsame
      have huntouched : s.put userId ps row = row := by
        refine put_of_find_none fun p' hp' r' hr' hid' => ?_
        have hnodup := hids
        rw [List.map_append, List.nodup_append] at hnodup
        exact hnodup.2.2 _ (List.mem_map_of_mem hp') _ (List.mem_singleton_self _) (lastOf_inj hr' hr hid')
      rw [huntouched, put_of_mem hids (List.mem_append_right _ (List.mem_singleton_self _)) hr,
        Table.updateRow, if_pos (decide_eq_true rfl)]
    · rw [put_append_of_ne fun r' hr' => by
        rw [hr, Option.some.injEq] at hr'
        exact hr' ▸ Ne.symm hid]
      rw [Table.updateRow, if_neg]
      rwa [put_fst, decide_eq_true_iff]
  · refine (List.map_congr_left fun x hx => ?_).trans (List.map_id _)
    -- ids of new rows come after those of the old ones
    obtain ⟨p', -, hmade'⟩ := exists_made hmade hx
    rw [Table.updateRow, if_neg, id]
    rw [decide_eq_true_iff]
    exact Nat.ne_of_gt (Nat.lt_of_lt_of_le (s.addressBooks.given r hmem) hmade'.id)

theorem aBIds_of_nodup (h : (ps.map (·.book.id)).Nodup) : aBIds ps = ps := by
  induction ps with
  | nil => rfl
  | cons p ps ih =>
    obtain ⟨hp, hps⟩ := List.nodup_cons.mp h
    rw [aBIds, if_neg, ih hps]
    rw [List.any_eq_true]
    rintro ⟨p', hp', hid⟩
    exact hp (List.mem_map.mpr ⟨p', hp', of_decide_eq_true hid⟩)

/-- The whole loop. -/
theorem putSoFar_foldl (hs : s.Numbered) (hids : (ps.map (·.book.id)).Nodup)
    (hgiven : ∀ p ∈ ps, p.book.platform ≠ "" ∧ p.book.username ≠ "" ∧ p.book.hostname ≠ "")
    (hrowIds : ∀ p ∈ ps, p.rowId = 0 ∨ ∃ r, s.lastOf userId p.book.id = some r ∧ p.rowId = r.1) :
    PutSoFar s userId ps (ps.foldl (putPeer userId (dbABIds (s.dbABs userId))) s) := by
  induction ps using List.reverseRecOn with
  | nil =>
    refine ⟨⟨[], [], ?_, .slnil, .nil, fun _ => rfl⟩, Nat.le_refl _, rfl, hs.collections, hs.nextCollection⟩
    rw [List.append_nil]
    exact ((List.map_congr_left fun row _ =>
      put_of_find_none fun p hp => absurd hp List.not_mem_nil).trans (List.map_id _)).symm
  | append_singleton ps p ih =>
    have hp : p ∈ ps ++ [p] := List.mem_append_right _ (List.mem_singleton_self _)
    have hrest : ∀ p' ∈ ps, p' ∈ ps ++ [p] := fun p' hp' => List.mem_append_left _ hp'
    have hput := ih (List.Nodup.of_append_left (by simpa using hids)) (fun p' hp' => hgiven p' (hrest p' hp'))
      fun p' hp' => hrowIds p' (hrest p' hp')
    rw [List.foldl_append, List.foldl_cons, List.foldl_nil, putPeer]
    split
    · next hnone =>
      refine hput.create (hgiven p hp) ?_ hnone
      rcases hrowIds p hp with hzero | ⟨r, hr, -⟩
      · exact hzero
      · exact absurd (hnone.symm.trans hr) nofun
    · next r hr =>
      refine hput.update hids hr ?_
      rcases hrowIds p hp with hzero | ⟨r', hr', hid⟩
      · exact .inl hzero
      · rw [show s.lastOf userId p.book.id = some r from hr, Option.some.injEq] at hr'
        exact .inr (hr' ▸ hid)

/-! ## What is left in the end -/

theorem mem_gone {g : ℕ × AddressBook} :
    g ∈ s.gone userId ps ↔ s.lastOf userId g.2.id = some g ∧ ∀ p ∈ ps, p.book.id ≠ g.2.id := by
  rw [gone, List.mem_filter, Bool.and_eq_true, decide_eq_true_iff, Bool.not_eq_true', List.any_eq_false]
  constructor
  · rintro ⟨-, hlast, hposted⟩
    exact ⟨hlast, fun p hp => by simpa using hposted p hp⟩
  · rintro ⟨hlast, hposted⟩
    exact ⟨(lastOf_some.mp hlast).1, hlast, fun p hp => by simpa using hposted p hp⟩

/-- No row that was deleted is there. -/
theorem not_gone {abd : AddressBookFormData} {x g : ℕ × AddressBook}
    (hx : x ∈ (s.upAb userId abd).addressBooks.rows) (hg : g ∈ s.gone userId abd.peers) : g.1 ≠ x.1 := by
  intro hid
  refine (Table.mem_delete.mp hx).2 ?_
  exact List.any_eq_true.mpr ⟨g, hg, decide_eq_true hid⟩

/-- The rows after a sync: those that are not deleted, as they are put, and new ones. -/
structure SyncedRows (s : AbTables) (userId : ℕ) (abd : AddressBookFormData) (origin : List PostedPeer)
    (news : List (ℕ × AddressBook)) : Prop where
  rows : (s.upAb userId abd).addressBooks.rows =
    (s.addressBooks.rows.filter fun row => !(s.gone userId abd.peers).any fun g => g.1 = row.1).map
      (s.put userId abd.peers) ++ news
  sub : origin.Sublist (s.unknown userId abd.peers)
  made : List.Forall₂ (s.Made userId) origin news
  all : (∀ p ∈ s.unknown userId abd.peers, p.collection = none) → origin = s.unknown userId abd.peers

theorem exists_syncedRows (hs : s.Numbered) {abd : AddressBookFormData} (hvalid : abd.Valid)
    (hrowIds : s.KeepsRowIds userId abd) :
    (∃ origin news, SyncedRows s userId abd origin news) ∧
      (s.updateAddressBook abd.peers userId).tags = s.tags := by
  have hput := putSoFar_foldl hs hvalid.ids hvalid.given hrowIds
  have hfold : (aBIds abd.peers).foldl (putPeer userId (dbABIds (s.dbABs userId))) s =
      abd.peers.foldl (putPeer userId (dbABIds (s.dbABs userId))) s := by
    rw [aBIds_of_nodup hvalid.ids]
  obtain ⟨⟨origin, news, hrows, hsub, hmade, hall⟩, -, htags, -⟩ := hput
  refine ⟨⟨origin, news, ?_, hsub, hmade, hall⟩, (congrArg AbTables.tags hfold).trans htags⟩
  show List.filter _ ((aBIds abd.peers).foldl _ s).addressBooks.rows = _
  rw [hfold, hrows, List.filter_append, List.filter_map]
  congr 1
  · refine congrArg _ (List.filter_congr fun row _ => ?_)
    dsimp only [Function.comp_apply]
    rw [put_fst]
  · refine List.filter_eq_self.mpr fun x hx => ?_
    obtain ⟨p, -, hmade'⟩ := exists_made hmade hx
    rw [Bool.not_eq_true', List.any_eq_false]
    intro g hg
    rw [decide_eq_true_iff]
    have hmem := (mem_dbABs.mp (lastOf_some.mp (mem_gone.mp hg).1).1).1
    exact Nat.ne_of_lt (Nat.lt_of_lt_of_le (s.addressBooks.given g hmem) hmade'.id)

end AbTables

end RustDesk.Api
