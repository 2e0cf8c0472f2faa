import Mathlib.Data.List.Induction
import RustDesk.Api.SharedProfiles

/-!
# Shared collections are those that can be read

References: `rustdesk-api/http/controller/api/ab.go` (`SharedProfiles`), `service/addressBook.go`
(`CollectionReadRules`, `UserMaxRule`), `http/controller/admin/addressBookCollectionRule.go` (`CheckForm`).

Where a collection keeps its owner, every user has a group, and a rule is still right when it is written, the
list of `SharedProfiles` and the endpoints agree, but for the caller's own collections: of these there is one
page, and one that is shared with the caller's own group is listed once more with the rule of the group.
-/

namespace RustDesk.Api

namespace AbTables

/-! ## What is asked of the list -/

/-- A guid with which the caller reads the collection. -/
def Reads (s : AbTables) (cu : ℕ × AbUser) (guid : List Char) (uid cid : ℕ) : Prop :=
  0 < cid ∧ (∃ gid, s.checkGuid cu guid = some (gid, uid, cid)) ∧ s.checkUserReadPrivilege cu uid cid = true

/-- The list has the collections that the caller can read, with guids for them and the level that
`UserMaxRule` gives. -/
def ListsExactly (s : AbTables) (cu : ℕ × AbUser) : Prop :=
  ∃ res, s.sharedProfiles cu = some res ∧
    (∀ p ∈ res, ∃ gid uid cid, parseGuid p.guid = (gid, uid, cid) ∧ s.Reads cu p.guid uid cid ∧
      p.rule = s.userMaxRule cu uid cid) ∧
    ∀ guid uid cid, s.Reads cu guid uid cid → ∃ p ∈ res, ∃ gid, parseGuid p.guid = (gid, uid, cid)

/-- The collections of the caller beyond the first page are shared with the caller's group, and all that are
shared with the caller's group are so with full control. -/
def SharesOwnInFull (s : AbTables) (cu : ℕ × AbUser) : Prop :=
  (∀ c ∈ (s.collectionsOf cu.1).drop 100, ∃ r ∈ s.rules.rows, r.2.collectionId = c.1 ∧ r.2.SharedWith cu) ∧
    ∀ r ∈ s.rules.rows, r.2.SharedWith cu → (∃ c ∈ s.collectionsOf cu.1, c.1 = r.2.collectionId) →
      r.2.rule = shareAddressBookRuleRuleFullControl

/-! ## The invariant -/

/-- Ids and groups are there and fit, a collection has an owner, a rule names the owner of its collection and
shares with somebody else, and there is one for a collection and whom it is shared with. -/
structure Sound (s : AbTables) : Prop where
  users : ∀ u ∈ s.users.rows, (u.1 ≠ 0 ∧ u.1 ≤ maxId) ∧ u.2.groupId ≠ 0 ∧ u.2.groupId ≤ maxId
  nextUser : s.users.next ≠ 0
  collections : ∀ c ∈ s.collections.rows, (c.1 ≠ 0 ∧ c.1 ≤ maxId) ∧ ∃ u ∈ s.users.rows, u.1 = c.2.userId
  nextCollection : s.collections.next ≠ 0
  owner : ∀ r ∈ s.rules.rows, ∃ c ∈ s.collections.rows, c.1 = r.2.collectionId ∧ c.2.userId = r.2.userId
  level : ∀ r ∈ s.rules.rows, 0 < r.2.rule ∧ r.2.rule ≤ shareAddressBookRuleRuleFullControl
  other : ∀ r ∈ s.rules.rows, r.2.ruleType = shareAddressBookRuleTypePersonal → r.2.toId ≠ r.2.userId
  unique : ∀ r ∈ s.rules.rows, ∀ r' ∈ s.rules.rows, r.2.ruleType = r'.2.ruleType → r.2.toId = r'.2.toId →
    r.2.collectionId = r'.2.collectionId → r = r'

section List

variable {s : AbTables} {cu : ℕ × AbUser} {uid cid : ℕ} {r : ℕ × AddressBookCollectionRule}
  {c : ℕ × AddressBookCollection}

/-! ## The rules that are read -/

theorem mem_collectionReadRules :
    r ∈ s.collectionReadRules cu ↔ r ∈ s.rules.rows ∧ r.2.SharedWith cu ∧ 0 < r.2.rule := by
  unfold collectionReadRules AddressBookCollectionRule.SharedWith
  simp only [List.mem_append, Table.mem_select, Bool.and_eq_true, decide_eq_true_eq]
  tauto

/-- What the maps of `SharedProfiles` are after some rules: the greatest level for each collection, and of the
owners in the rules at least one for each collection. -/
structure ReadSoFar (rules : List (ℕ × AddressBookCollectionRule)) (acc : (ℕ → Option ℤ) × (ℕ → Bool)) :
    Prop where
  none : ∀ cid, acc.1 cid = none ↔ ∀ r ∈ rules, r.2.collectionId ≠ cid
  some : ∀ cid k, acc.1 cid = some k → (∃ r ∈ rules, r.2.collectionId = cid ∧ r.2.rule = k) ∧
    ∀ r ∈ rules, r.2.collectionId = cid → r.2.rule ≤ k
  owner : ∀ r ∈ rules, ∃ r' ∈ rules, r'.2.collectionId = r.2.collectionId ∧ acc.2 r'.2.userId = true

theorem ReadSoFar.addRule {rules : List (ℕ × AddressBookCollectionRule)}
    {acc : (ℕ → Option ℤ) × (ℕ → Bool)} (h : ReadSoFar rules acc) (rule : ℕ × AddressBookCollectionRule) :
    ReadSoFar (rules ++ [rule]) (addRule acc rule) := by
  -- the first map after a rule of a collection with this greatest level
  have hlevels : ∀ (k : ℤ), (acc.1 rule.2.collectionId = Option.none ∧ k = rule.2.rule ∨
      ∃ r, acc.1 rule.2.collectionId = Option.some r ∧ k = max r rule.2.rule) →
      (∀ cid, Function.update acc.1 rule.2.collectionId (Option.some k) cid = Option.none ↔
        ∀ r ∈ rules ++ [rule], r.2.collectionId ≠ cid) ∧
      ∀ cid k', Function.update acc.1 rule.2.collectionId (Option.some k) cid = Option.some k' →
        (∃ r ∈ rules ++ [rule], r.2.collectionId = cid ∧ r.2.rule = k') ∧
          ∀ r ∈ rules ++ [rule], r.2.collectionId = cid → r.2.rule ≤ k' := by
    intro k hk
    refine ⟨fun cid => ?_, fun cid k' hcid => ?_⟩
    · rw [List.forall_mem_append, List.forall_mem_singleton]
      by_cases hcid : cid = rule.2.collectionId
      · subst hcid
        rw [Function.update_self]
        exact ⟨nofun, fun hall => absurd rfl hall.2⟩
      · rw [Function.update_of_ne hcid, h.none]
        exact ⟨fun hall => ⟨hall, Ne.symm hcid⟩, And.left⟩
    · by_cases heq : cid = rule.2.collectionId
      · subst heq
        rw [Function.update_self] at hcid
        cases hcid
        rcases hk with ⟨hnone, rfl⟩ | ⟨r, hr, rfl⟩
        · refine ⟨⟨rule, by simp, rfl, rfl⟩, fun r hr hcid => ?_⟩
          rcases List.mem_append.mp hr with hr | hr
          · exact absurd hcid ((h.none _).mp hnone r hr)
          · rw [List.mem_singleton.mp hr]
        · obtain ⟨⟨r', hr', hcid', hrule'⟩, hmax⟩ := h.some _ _ hr
          constructor
          · rcases le_total r rule.2.rule with hle | hle
            · exact ⟨rule, by simp, rfl, (max_eq_right hle).symm⟩
            · exact ⟨r', by simp [hr'], hcid', hrule'.trans (max_eq_left hle).symm⟩
          · intro r'' hr'' hcid''
            rcases List.mem_append.mp hr'' with hr'' | hr''
            · exact le_trans (hmax r'' hr'' hcid'') (le_max_left _ _)
            · rw [List.mem_singleton.mp hr'']
              exact le_max_right _ _
      · rw [Function.update_of_ne heq] at hcid
        obtain ⟨⟨r, hr, hrcid, hrule⟩, hmax⟩ := h.some _ _ hcid
        refine ⟨⟨r, by simp [hr], hrcid, hrule⟩, fun r' hr' hcid' => ?_⟩
        rcases List.mem_append.mp hr' with hr' | hr'
        · exact hmax r' hr' hcid'
        · rw [List.mem_singleton.mp hr'] at hcid'
          exact absurd hcid'.symm heq
  unfold RustDesk.Api.addRule
  cases hrule : acc.1 rule.2.collectionId with
  | none =>
    obtain ⟨hnone, hsome⟩ := hlevels rule.2.rule (.inl ⟨hrule, rfl⟩)
    refine ⟨hnone, hsome, fun r hr => ?_⟩
    rcases List.mem_append.mp hr with hr | hr
    · obtain ⟨r', hr', hcid', howner⟩ := h.owner r hr
      refine ⟨r', by simp [hr'], hcid', ?_⟩
      by_cases hsame : r'.2.userId = rule.2.userId
      · simp [hsame]
      · simpa [hsame] using howner
    · rw [List.mem_singleton.mp hr]
      exact ⟨rule, by simp, rfl, by simp⟩
  | some k =>
    have howner : ∀ r ∈ rules ++ [rule], ∃ r' ∈ rules ++ [rule],
        r'.2.collectionId = r.2.collectionId ∧ acc.2 r'.2.userId = true := by
      intro r hr
      rcases List.mem_append.mp hr with hr | hr
      · obtain ⟨r', hr', hcid', howner⟩ := h.owner r hr
        exact ⟨r', by simp [hr'], hcid', howner⟩
      · rw [List.mem_singleton.mp hr]
        obtain ⟨⟨r', hr', hcid', -⟩, -⟩ := h.some _ _ hrule
        obtain ⟨r'', hr'', hcid'', howner⟩ := h.owner r' hr'
        exact ⟨r'', by simp [hr''], hcid''.trans hcid', howner⟩
    obtain ⟨hnone, hsome⟩ := hlevels (max k rule.2.rule) (.inr ⟨k, hrule, rfl⟩)
    dsimp only
    split
    · next hlt =>
      rw [max_eq_right (le_of_lt hlt)] at hnone hsome
      exact ⟨hnone, hsome, howner⟩
    · next hle =>
      have hupdate : Function.update acc.1 rule.2.collectionId (Option.some k) = acc.1 := by
        rw [← hrule, Function.update_eq_self]
      rw [max_eq_left (not_lt.mp hle), hupdate] at hnone hsome
      exact ⟨hnone, hsome, howner⟩

theorem readRules_spec (s : AbTables) (cu : ℕ × AbUser) :
    ReadSoFar (s.collectionReadRules cu) (s.readRules cu) := by
  unfold readRules
  generalize s.collectionReadRules cu = rules
  induction rules using List.reverseRecOn with
  | nil => exact ⟨fun _ => by simp, nofun, nofun⟩
  | append_singleton rules rule ih =>
    rw [List.foldl_append]
    exact ih.addRule rule

/-! ## The level of an endpoint -/

/-- The one rule for a collection and whom it is shared with is the one that is looked up. -/
theorem Sound.ruleInfoByToIdAndCid (hs : s.Sound) (hr : r ∈ s.rules.rows) :
    s.ruleInfoByToIdAndCid r.2.ruleType r.2.toId r.2.collectionId = some r := by
  have hsome : (s.ruleInfoByToIdAndCid r.2.ruleType r.2.toId r.2.collectionId).isSome :=
    Table.first_isSome.mpr ⟨r, hr, by simp⟩
  obtain ⟨r', hr'⟩ := Option.isSome_iff_exists.mp hsome
  obtain ⟨hmem, htype, hto, hcid⟩ := ruleInfoByToIdAndCid_some hr'
  rw [hr', hs.unique r' hmem r hr htype hto hcid]

theorem Sound.rule_le_userMaxRule (hs : s.Sound) (hne : cu.1 ≠ uid)
    (hr : r ∈ s.rules.rows) (hshared : r.2.SharedWith cu) :
    r.2.rule ≤ s.userMaxRule cu uid r.2.collectionId := by
  obtain ⟨hpos, hle⟩ := hs.level r hr
  have hfound := hs.ruleInfoByToIdAndCid hr
  unfold userMaxRule
  rw [if_neg hne]
  dsimp only
  rcases hshared with ⟨htype, hto⟩ | ⟨htype, hto⟩
  · rw [htype, hto] at hfound
    rw [hfound]
    simp only [Option.map_some, Option.getD_some]
    split
    · exact le_refl _
    · split
      · exact le_refl _
      · split
        · next hlt => exact le_of_lt hlt
        · exact le_refl _
  · rw [htype, hto] at hfound
    rw [hfound]
    split
    · next hfull =>
      rw [hfull]
      exact hle
    · dsimp only
      split
      · exact le_refl _
      · next hlt => exact not_lt.mp hlt

/-- The greatest level that `SharedProfiles` has for a collection of another is that of `UserMaxRule`. -/
theorem Sound.readRules_eq (hs : s.Sound) (hne : cu.1 ≠ uid) {k : ℤ} (hk : (s.readRules cu).1 cid = some k) :
    k = s.userMaxRule cu uid cid := by
  obtain ⟨⟨r, hr, rfl, rfl⟩, hmax⟩ := (readRules_spec s cu).some _ _ hk
  obtain ⟨hmem, hshared, hpos⟩ := mem_collectionReadRules.mp hr
  have hle := hs.rule_le_userMaxRule hne hmem hshared
  refine le_antisymm hle ?_
  obtain ⟨r', hr', hcid', hshared', hrule'⟩ := rule_of_userMaxRule hne (lt_of_lt_of_le hpos hle)
  rw [← hrule']
  exact hmax r' (mem_collectionReadRules.mpr ⟨hr', hshared', (hs.level r' hr').1⟩) hcid'

theorem userMaxRule_own (s : AbTables) (cu : ℕ × AbUser) (cid : ℕ) :
    s.userMaxRule cu cu.1 cid = shareAddressBookRuleRuleFullControl := by
  rw [userMaxRule, if_pos rfl]

/-! ## Collections and their guids -/

theorem mem_collectionsOf : c ∈ s.collectionsOf uid ↔ c ∈ s.collections.rows ∧ c.2.userId = uid := by
  rw [collectionsOf, Table.mem_select, decide_eq_true_iff]

theorem Sound.userInfoById (hs : s.Sound) (hc : c ∈ s.collections.rows) :
    ∃ u ∈ s.users.rows, u.1 = c.2.userId ∧ s.userInfoById c.2.userId = some u := by
  obtain ⟨u, hu, hid⟩ := (hs.collections c hc).2
  refine ⟨u, hu, hid, ?_⟩
  rw [AbTables.userInfoById, ← hid]
  exact Table.first_id hu

theorem collectionInfoById_of_mem (hc : c ∈ s.collections.rows) :
    s.collectionInfoById c.1 = some c := Table.first_id hc

theorem Sound.parseGuid_payload (hs : s.Sound) (hc : c ∈ s.collections.rows)
    {u : ℕ × AbUser} (hu : u ∈ s.users.rows) :
    parseGuid (composeGuid u.2.groupId u.1 c.1) = (u.2.groupId, u.1, c.1) :=
  parseGuid_composeGuid (hs.users u hu).2.2 (hs.users u hu).1.2 (hs.collections c hc).1.2

/-- The guid of a collection is accepted. -/
theorem Sound.checkGuid_payload (hs : s.Sound) (hcu : cu ∈ s.users.rows)
    (hc : c ∈ s.collections.rows) {u : ℕ × AbUser} (hu : u ∈ s.users.rows) (hid : u.1 = c.2.userId) :
    s.checkGuid cu (composeGuid u.2.groupId u.1 c.1) = some (u.2.groupId, u.1, c.1) := by
  obtain ⟨⟨hune, -⟩, hgne, -⟩ := hs.users u hu
  have hcne := (hs.collections c hc).1.1
  have huser : (if cu.1 = u.1 then some cu else s.userInfoById u.1) = some u := by
    split
    · next heq => rw [Table.eq_of_id hcu hu heq]
    · exact Table.first_id hu
  unfold AbTables.checkGuid
  rw [hs.parseGuid_payload hc hu]
  simp [hune, hgne, hcne, huser, collectionInfoById_of_mem hc, hid.symm, Nat.pos_of_ne_zero hcne]

/-- The collection that a guid reads. -/
theorem Reads.collection {guid : List Char} (h : s.Reads cu guid uid cid) :
    ∃ c ∈ s.collections.rows, c.1 = cid ∧ c.2.userId = uid := by
  obtain ⟨hpos, ⟨gid, hguid⟩, -⟩ := h
  exact (checkGuid_some hguid).2.2 hpos

/-! ## What is listed -/

/-- The entry of a collection. -/
def payload (u : ℕ × AbUser) (c : ℕ × AddressBookCollection) (rule : ℤ) : SharedProfilesPayload :=
  ⟨composeGuid u.2.groupId u.1 c.1, c.2.name, u.2.username, rule⟩

theorem sharedPayloads_eq (s : AbTables) (allAbIds : ℕ → Option ℤ) (allUserIds : ℕ → Bool)
    (collections : List (ℕ × AddressBookCollection))
    (h : ∀ c ∈ collections, allUserIds c.2.userId = true ∧ (s.userInfoById c.2.userId).isSome) :
    ∃ res, s.sharedPayloads allAbIds allUserIds collections = some res ∧ ∀ p, p ∈ res ↔
      ∃ c ∈ collections, ∃ u ∈ s.userInfoById c.2.userId, p = payload u c ((allAbIds c.1).getD 0) := by
  induction collections with
  | nil => exact ⟨[], rfl, by simp⟩
  | cons c collections ih =>
    rw [List.forall_mem_cons] at h
    obtain ⟨⟨hlisted, hsome⟩, hrest⟩ := h
    obtain ⟨u, hu⟩ := Option.isSome_iff_exists.mp hsome
    obtain ⟨res, hres, hmem⟩ := ih hrest
    refine ⟨payload u c ((allAbIds c.1).getD 0) :: res, by simp [sharedPayloads, hlisted, hu, hres, payload], ?_⟩
    intro p
    rw [List.mem_cons, hmem]
    constructor
    · rintro (rfl | ⟨c', hc', hp⟩)
      · exact ⟨c, List.mem_cons_self, u, hu, rfl⟩
      · exact ⟨c', List.mem_cons_of_mem _ hc', hp⟩
    · rintro ⟨c', hc', u', hu', rfl⟩
      rcases List.mem_cons.mp hc' with rfl | hc'
      · rw [hu, Option.mem_some_iff] at hu'
        exact .inl (by rw [hu'])
      · exact .inr ⟨c', hc', u', hu', rfl⟩

/-- The rules for a collection name its owner, so that `SharedProfiles` looks the owner up. -/
theorem Sound.readRules_owner (hs : s.Sound) (hc : c ∈ s.collections.rows)
    (hread : ((s.readRules cu).1 c.1).isSome) : (s.readRules cu).2 c.2.userId = true := by
  obtain ⟨k, hk⟩ := Option.isSome_iff_exists.mp hread
  obtain ⟨⟨r, hr, hcid, -⟩, -⟩ := (readRules_spec s cu).some _ _ hk
  obtain ⟨r', hr', hcid', howner⟩ := (readRules_spec s cu).owner r hr
  obtain ⟨c', hc', hid, huser⟩ := hs.owner r' (mem_collectionReadRules.mp hr').1
  have hsame : c' = c := Table.eq_of_id hc' hc (hid.trans (hcid'.trans hcid))
  rw [← hsame, huser]
  exact howner

/-- The list: a page of the caller's own collections, and those with a rule that is read. -/
theorem Sound.sharedProfiles_eq (hs : s.Sound) (cu : ℕ × AbUser) :
    ∃ res, s.sharedProfiles cu = some res ∧ ∀ p, p ∈ res ↔
      (∃ c ∈ s.listCollectionByUserId cu.1, p = payload cu c shareAddressBookRuleRuleFullControl) ∨
      ∃ c ∈ s.collections.rows, ∃ k, (s.readRules cu).1 c.1 = some k ∧
        ∃ u ∈ s.users.rows, u.1 = c.2.userId ∧ p = payload u c k := by
  obtain ⟨res, hres, hmem⟩ := sharedPayloads_eq s (s.readRules cu).1 (s.readRules cu).2
    (s.collections.select fun c => ((s.readRules cu).1 c.1).isSome) fun c hc => by
      obtain ⟨hc, hread⟩ := Table.mem_select.mp hc
      obtain ⟨u, -, -, hu⟩ := hs.userInfoById hc
      exact ⟨hs.readRules_owner hc hread, by rw [hu]; rfl⟩
  let mine := (s.listCollectionByUserId cu.1).map fun c => payload cu c shareAddressBookRuleRuleFullControl
  have hprofiles : s.sharedProfiles cu = some (mine ++ res) := congrArg (Option.map (mine ++ ·)) hres
  refine ⟨_, hprofiles, fun p => ?_⟩
  rw [List.mem_append, List.mem_map, hmem]
  refine or_congr ⟨?_, ?_⟩ ⟨?_, ?_⟩
  · rintro ⟨c, hc, rfl⟩
    exact ⟨c, hc, rfl⟩
  · rintro ⟨c, hc, rfl⟩
    exact ⟨c, hc, rfl⟩
  · rintro ⟨c, hc, u, hu, rfl⟩
    obtain ⟨hc, hread⟩ := Table.mem_select.mp hc
    obtain ⟨k, hk⟩ := Option.isSome_iff_exists.mp hread
    have hid : u.1 = c.2.userId := of_decide_eq_true (Table.first_sat hu)
    exact ⟨c, hc, k, hk, u, Table.mem_of_first hu, hid, by rw [hk]; rfl⟩
  · rintro ⟨c, hc, k, hk, u, hu, hid, rfl⟩
    refine ⟨c, Table.mem_select.mpr ⟨hc, by rw [hk]; rfl⟩, u, ?_, by rw [hk]; rfl⟩
    rw [AbTables.userInfoById, ← hid]
    exact Table.first_id hu

/-- A collection that a rule shares has a level. -/
theorem Sound.readRules_isSome (hs : s.Sound) (hr : r ∈ s.rules.rows)
    (hshared : r.2.SharedWith cu) : ∃ k, (s.readRules cu).1 r.2.collectionId = some k := by
  refine Option.ne_none_iff_exists'.mp fun hnone => ?_
  refine ((readRules_spec s cu).none _).mp hnone r ?_ rfl
  exact mem_collectionReadRules.mpr ⟨hr, hshared, (hs.level r hr).1⟩

/-- A rule that shares a collection with its owner does so with the group of the owner. -/
theorem Sound.group_of_own (hs : s.Sound) (hr : r ∈ s.rules.rows)
    (hshared : r.2.SharedWith cu) (hc : c ∈ s.collectionsOf cu.1)
    (hcid : c.1 = r.2.collectionId) :
    r.2.ruleType = shareAddressBookRuleTypeGroup ∧ r.2.toId = cu.2.groupId := by
  rcases hshared with ⟨htype, hto⟩ | hgroup
  · obtain ⟨hmem, howner⟩ := mem_collectionsOf.mp hc
    obtain ⟨c', hc', hid, huser⟩ := hs.owner r hr
    have hsame : c' = c := Table.eq_of_id hc' hmem (hid.trans hcid.symm)
    exact absurd (hto.trans (by rw [← huser, hsame, howner])) (hs.other r hr htype)
  · exact hgroup

/-- The collections of a user are each on the first page or beyond it. -/
theorem not_mem_drop_of_mem_take {c' : ℕ × AddressBookCollection} {n : ℕ}
    (hc : c ∈ (s.collectionsOf uid).take n) (hc' : c' ∈ (s.collectionsOf uid).drop n) : c.1 ≠ c'.1 := by
  have hsorted : (s.collectionsOf uid).Pairwise (·.1 < ·.1) := s.collections.sorted.filter _
  rw [← List.take_append_drop n (s.collectionsOf uid), List.pairwise_append] at hsorted
  exact Nat.ne_of_lt (hsorted.2.2 c hc c' hc')

theorem Sound.listsExactly_of (hs : s.Sound) (hcu : cu ∈ s.users.rows) (h : s.SharesOwnInFull cu) :
    s.ListsExactly cu := by
  obtain ⟨hbeyond, hfull⟩ := h
  obtain ⟨res, hres, hmem⟩ := hs.sharedProfiles_eq cu
  refine ⟨res, hres, fun p hp => ?_, fun guid uid cid hreads => ?_⟩
  · rcases (hmem p).mp hp with ⟨c, hc, rfl⟩ | ⟨c, hc, k, hk, u, hu, hid, rfl⟩
    · obtain ⟨hc, howner⟩ := mem_collectionsOf.mp (List.mem_of_mem_take hc)
      refine ⟨_, _, _, hs.parseGuid_payload hc hcu, ⟨?_, ⟨_, hs.checkGuid_payload hcu hc hcu howner.symm⟩, ?_⟩, ?_⟩
      · exact Nat.pos_of_ne_zero (hs.collections c hc).1.1
      · rw [checkUserReadPrivilege, userMaxRule_own]
        rfl
      · exact (userMaxRule_own s cu c.1).symm
    · have hlevel : k = s.userMaxRule cu u.1 c.1 := by
        by_cases hown : cu.1 = u.1
        · -- the caller's own collection, shared with the caller's own group
          obtain ⟨⟨r, hr, hcid, rfl⟩, -⟩ := (readRules_spec s cu).some _ _ hk
          obtain ⟨hmemr, hshared, -⟩ := mem_collectionReadRules.mp hr
          rw [← hown, userMaxRule_own]
          exact hfull r hmemr hshared ⟨c, mem_collectionsOf.mpr ⟨hc, hid.symm.trans hown.symm⟩, hcid.symm⟩
        · exact hs.readRules_eq hown hk
      obtain ⟨⟨r, hr, hcid, hrule⟩, -⟩ := (readRules_spec s cu).some _ _ hk
      have hpos : 0 < k := hrule ▸ (mem_collectionReadRules.mp hr).2.2
      refine ⟨_, _, _, hs.parseGuid_payload hc hu, ⟨?_, ⟨_, hs.checkGuid_payload hcu hc hu hid⟩, ?_⟩, hlevel⟩
      · exact Nat.pos_of_ne_zero (hs.collections c hc).1.1
      · rw [checkUserReadPrivilege, ← hlevel]
        exact decide_eq_true hpos
  · obtain ⟨c, hc, rfl, howner⟩ := hreads.collection
    -- a collection that a rule shares is in the second part
    have hshared : ∀ r ∈ s.rules.rows, r.2.collectionId = c.1 → r.2.SharedWith cu →
        ∃ p ∈ res, ∃ gid, parseGuid p.guid = (gid, uid, c.1) := by
      intro r hr hcid hshared
      obtain ⟨k, hk⟩ := hs.readRules_isSome hr hshared
      obtain ⟨u, hu, hid, -⟩ := hs.userInfoById hc
      rw [hcid] at hk
      refine ⟨_, (hmem _).mpr (.inr ⟨c, hc, k, hk, u, hu, hid, rfl⟩), u.2.groupId, ?_⟩
      rw [← howner, ← hid]
      exact hs.parseGuid_payload hc hu
    by_cases hown : cu.1 = uid
    · subst hown
      have hmine : c ∈ s.collectionsOf cu.1 := mem_collectionsOf.mpr ⟨hc, howner⟩
      rw [← List.take_append_drop 100 (s.collectionsOf cu.1), List.mem_append] at hmine
      rcases hmine with hpage | hrest
      · refine ⟨_, (hmem _).mpr (.inl ⟨c, hpage, rfl⟩), cu.2.groupId, hs.parseGuid_payload hc hcu⟩
      · obtain ⟨r, hr, hcid, hrshared⟩ := hbeyond c hrest
        exact hshared r hr hcid hrshared
    · have hlevel : 0 < s.userMaxRule cu uid c.1 := of_decide_eq_true hreads.2.2
      obtain ⟨r, hr, hcid, hrshared, -⟩ := rule_of_userMaxRule hown hlevel
      exact hshared r hr hcid hrshared

theorem Sound.sharesOwnInFull_of (hs : s.Sound) (hcu : cu ∈ s.users.rows) (h : s.ListsExactly cu) :
    s.SharesOwnInFull cu := by
  obtain ⟨res, hres, hright, hall⟩ := h
  obtain ⟨res', hres', hmem⟩ := hs.sharedProfiles_eq cu
  cases hres.symm.trans hres'
  constructor
  · -- beyond the page a collection is listed only because of a rule
    intro c hbeyond
    obtain ⟨hc, howner⟩ := mem_collectionsOf.mp (List.mem_of_mem_drop hbeyond)
    have hreads : s.Reads cu (composeGuid cu.2.groupId cu.1 c.1) cu.1 c.1 := by
      refine ⟨Nat.pos_of_ne_zero (hs.collections c hc).1.1, ⟨_, hs.checkGuid_payload hcu hc hcu howner.symm⟩, ?_⟩
      rw [checkUserReadPrivilege, userMaxRule_own]
      rfl
    obtain ⟨p, hp, gid, hguid⟩ := hall _ _ _ hreads
    rcases (hmem p).mp hp with ⟨c', hc', rfl⟩ | ⟨c', hc', k, hk, u, hu, hid, rfl⟩
    · have hparse := hs.parseGuid_payload (mem_collectionsOf.mp (List.mem_of_mem_take hc')).1 hcu
      rw [payload, hparse, Prod.mk.injEq, Prod.mk.injEq] at hguid
      exact absurd hguid.2.2 (not_mem_drop_of_mem_take hc' hbeyond)
    · have hparse := hs.parseGuid_payload hc' hu
      rw [payload, hparse, Prod.mk.injEq, Prod.mk.injEq] at hguid
      obtain ⟨⟨r, hr, hcid, -⟩, -⟩ := (readRules_spec s cu).some _ _ hk
      obtain ⟨hr, hshared, -⟩ := mem_collectionReadRules.mp hr
      exact ⟨r, hr, hcid.trans hguid.2.2, hshared⟩
  · -- the entry for the rule is listed with the level of the owner
    rintro r hr hshared ⟨c, hown, hcid⟩
    obtain ⟨hc, howner⟩ := mem_collectionsOf.mp hown
    obtain ⟨k, hk⟩ := hs.readRules_isSome hr hshared
    rw [← hcid] at hk
    obtain ⟨gid, uid, cid, hguid, -, hlevel⟩ :=
      hright _ ((hmem _).mpr (.inr ⟨c, hc, k, hk, cu, hcu, howner.symm, rfl⟩))
    rw [payload, hs.parseGuid_payload hc hcu, Prod.mk.injEq, Prod.mk.injEq] at hguid
    obtain ⟨-, rfl, rfl⟩ := hguid
    have hk3 : k = shareAddressBookRuleRuleFullControl := hlevel.trans (userMaxRule_own s cu c.1)
    -- and its level is that of the rule, which is the only one
    obtain ⟨⟨r', hr', hcid', hrule'⟩, -⟩ := (readRules_spec s cu).some _ _ hk
    obtain ⟨hr', hshared', -⟩ := mem_collectionReadRules.mp hr'
    obtain ⟨htype, hto⟩ := hs.group_of_own hr hshared hown hcid
    obtain ⟨htype', hto'⟩ := hs.group_of_own hr' hshared' hown hcid'.symm
    have hsame : r = r' := hs.unique r hr r' hr' (htype.trans htype'.symm) (hto.trans hto'.symm)
      (hcid.symm.trans hcid'.symm)
    rw [hsame, hrule', hk3]

end List

/-! ## Every step -/

section Steps

variable {s : AbTables}

/-- What a creation leaves, whether it succeeds or not. -/
theorem createRow_getD {R : Type*} {t : Table R} (id : ℕ) (x : R) (hnext : t.next ≠ 0) :
    (∀ r ∈ t.rows, r ∈ ((createRow t id x).getD t).rows) ∧ ((createRow t id x).getD t).next ≠ 0 ∧
      ∀ r ∈ ((createRow t id x).getD t).rows, r ∈ t.rows ∨ (r.1 ≠ 0 ∧ r.1 ≤ maxId) ∧ r.2 = x := by
  cases hcreate : createRow t id x with
  | none => exact ⟨fun _ hr => hr, hnext, fun _ hr => .inl hr⟩
  | some t' =>
    obtain ⟨hid, hinsert⟩ := createRow_some hcreate
    have hne : t.idFor id ≠ 0 := by
      unfold Table.idFor
      split
      · exact hnext
      · assumption
    refine ⟨fun r hr => (Table.mem_insertAs hinsert).mpr (.inl hr), ?_, fun r hr => ?_⟩
    · obtain ⟨-, heq⟩ := Table.insertAs_eq hinsert
      rw [Option.getD_some, heq]
      exact Nat.ne_of_gt (Nat.lt_of_lt_of_le (Nat.pos_of_ne_zero hnext) (Nat.le_max_left _ _))
    · rcases (Table.mem_insertAs hinsert).mp hr with hr | rfl
      · exact .inl hr
      · exact .inr ⟨⟨hne, hid⟩, rfl⟩

section

variable (hs : s.Sound)
include hs

theorem Sound.createUser (id : ℕ) {user : AbUser} (hgroup : user.groupId ≠ 0) : (s.createUser id user).Sound := by
  unfold AbTables.createUser
  split
  · next hfits =>
    obtain ⟨hold, hnext, hnew⟩ := createRow_getD id user hs.nextUser
    refine { hs with users := fun u hu => ?_, nextUser := hnext, collections := fun c hc => ?_ }
    · rcases hnew u hu with hu | ⟨hid, heq⟩
      · exact hs.users u hu
      · rw [heq]
        exact ⟨hid, hgroup, hfits⟩
    · obtain ⟨hid, u, hu, howner⟩ := hs.collections c hc
      exact ⟨hid, u, hold u hu, howner⟩
  · exact hs

theorem Sound.updateUser (id : ℕ) (user : AbUser) : (s.updateUser id user).Sound := by
  unfold AbTables.updateUser
  split
  · next hgroup =>
    refine { hs with users := fun u hu => ?_, collections := fun c hc => ?_ }
    · obtain ⟨u', hu', rfl⟩ := Table.mem_update.mp hu
      rw [Table.updateRow_fst]
      refine ⟨(hs.users u' hu').1, ?_⟩
      unfold Table.updateRow
      split
      · dsimp only
        rw [updatesField_of_ne hgroup.1]
        exact hgroup
      · exact (hs.users u' hu').2
    · obtain ⟨hid, u, hu, howner⟩ := hs.collections c hc
      exact ⟨hid, _, Table.mem_update_of_mem hu, (Table.updateRow_fst ..).trans howner⟩
  · exact hs

/-- Fewer rules, for collections that stay. -/
theorem Sound.of_subset {t : AbTables} (husers : ∀ u ∈ t.users.rows, u ∈ s.users.rows)
    (hnextUser : t.users.next = s.users.next) (hnextCollection : t.collections.next = s.collections.next)
    (hcollections : ∀ c ∈ t.collections.rows, c ∈ s.collections.rows ∧ ∃ u ∈ t.users.rows, u.1 = c.2.userId)
    (hrules : ∀ r ∈ t.rules.rows, r ∈ s.rules.rows ∧
      ∃ c ∈ t.collections.rows, c.1 = r.2.collectionId ∧ c.2.userId = r.2.userId) :
    t.Sound where
  users u hu := hs.users u (husers u hu)
  nextUser := hnextUser ▸ hs.nextUser
  collections c hc := ⟨(hs.collections c (hcollections c hc).1).1, (hcollections c hc).2⟩
  nextCollection := hnextCollection ▸ hs.nextCollection
  owner r hr := (hrules r hr).2
  level r hr := hs.level r (hrules r hr).1
  other r hr := hs.other r (hrules r hr).1
  unique r hr r' hr' := hs.unique r (hrules r hr).1 r' (hrules r' hr').1

theorem Sound.deleteUser (id : ℕ) : (s.deleteUser id).Sound := by
  refine hs.of_subset (fun u hu => (Table.mem_delete.mp hu).1) rfl rfl (fun c hc => ?_) fun r hr => ?_
  · obtain ⟨hc, hkept⟩ := Table.mem_delete.mp hc
    obtain ⟨-, u, hu, howner⟩ := hs.collections c hc
    refine ⟨hc, u, Table.mem_delete.mpr ⟨hu, ?_⟩, howner⟩
    rwa [howner]
  · obtain ⟨hr, hkept⟩ := Table.mem_delete.mp hr
    obtain ⟨c, hc, hcid, howner⟩ := hs.owner r hr
    refine ⟨hr, c, Table.mem_delete.mpr ⟨hc, ?_⟩, hcid, howner⟩
    rwa [howner]

theorem Sound.createCollection (id : ℕ) {t : AddressBookCollection}
    (howner : ∃ u ∈ s.users.rows, u.1 = t.userId) : (s.createCollection id t).Sound := by
  unfold AbTables.createCollection
  split
  · obtain ⟨hold, hnext, hnew⟩ := createRow_getD id t hs.nextCollection
    refine { hs with collections := fun c hc => ?_, nextCollection := hnext, owner := fun r hr => ?_ }
    · rcases hnew c hc with hc | ⟨hid, heq⟩
      · exact hs.collections c hc
      · rw [heq]
        exact ⟨hid, howner⟩
    · obtain ⟨c, hc, hcid⟩ := hs.owner r hr
      exact ⟨c, hold c hc, hcid⟩
  · exact hs

/-- An update that keeps the owner. -/
theorem Sound.updateCollection (cur : Option ℕ) {id : ℕ} {t : AddressBookCollection}
    (howner : t.userId = 0 ∨ ∀ c ∈ s.collections.rows, c.1 = id → c.2.userId = t.userId) :
    (s.updateCollection cur id t).Sound := by
  unfold AbTables.updateCollection
  split
  · have hsame : ∀ c ∈ s.collections.rows, (Table.updateRow (fun r => decide (r.1 = id))
          (fun r => ⟨updatesField 0 t.userId r.userId, updatesField "" t.name r.name⟩) c).2.userId =
          c.2.userId := by
      intro c hc
      unfold Table.updateRow
      split
      · next hid =>
        unfold updatesField
        split
        · rfl
        · next hne => exact ((howner.resolve_left hne) c hc (of_decide_eq_true hid)).symm
      · rfl
    refine { hs with collections := fun c hc => ?_, owner := fun r hr => ?_ }
    · obtain ⟨c', hc', rfl⟩ := Table.mem_update.mp hc
      rw [Table.updateRow_fst, hsame c' hc']
      exact hs.collections c' hc'
    · obtain ⟨c, hc, hcid, huser⟩ := hs.owner r hr
      exact ⟨_, Table.mem_update_of_mem hc, (Table.updateRow_fst ..).trans hcid, (hsame c hc).trans huser⟩
  · exact hs

theorem Sound.deleteCollection (cur : Option ℕ) (id : ℕ) : (s.deleteCollection cur id).Sound := by
  unfold AbTables.deleteCollection
  split
  · refine hs.of_subset (fun u hu => hu) rfl rfl (fun c hc => ?_) fun r hr => ?_
    · obtain ⟨hc, -⟩ := Table.mem_delete.mp hc
      exact ⟨hc, (hs.collections c hc).2⟩
    · obtain ⟨hr, hkept⟩ := Table.mem_delete.mp hr
      obtain ⟨c, hc, hcid, howner⟩ := hs.owner r hr
      refine ⟨hr, c, Table.mem_delete.mpr ⟨hc, ?_⟩, hcid, howner⟩
      rwa [hcid]
  · exact hs

theorem Sound.deleteRule (id : ℕ) : (s.deleteRule id).Sound := by
  refine hs.of_subset (fun u hu => hu) rfl rfl (fun c hc => ⟨hc, (hs.collections c hc).2⟩) fun r hr => ?_
  obtain ⟨hr, -⟩ := Table.mem_delete.mp hr
  exact ⟨hr, hs.owner r hr⟩

/-- What a rule that passes `CheckForm` says. -/
theorem Sound.checkForm_none {id : ℕ} {t : AddressBookCollectionRule}
    (h : s.checkForm id t = none) (hvalid : validRule t = true) :
    (∃ c ∈ s.collections.rows, c.1 = t.collectionId ∧ c.2.userId = t.userId) ∧
      (t.ruleType = shareAddressBookRuleTypePersonal → t.toId ≠ t.userId) ∧ t.userId ≠ 0 ∧
      ∀ r ∈ s.rules.rows, r.2.ruleType = t.ruleType → r.2.toId = t.toId →
        r.2.collectionId = t.collectionId → id ≠ 0 ∧ r.1 = id := by
  have hcid : 0 < t.collectionId := by
    simp only [validRule, Bool.and_eq_true, decide_eq_true_eq] at hvalid
    exact Nat.pos_of_ne_zero hvalid.1.1.1.1.1
  unfold AbTables.checkForm at h
  split at h
  · cases h
  · next huser =>
    unfold AbTables.checkRule at h
    split at h
    · cases h
    · next howner =>
      have hchecked : s.checkCollectionOwner t.userId t.collectionId = true :=
        not_not.mp fun hnot => howner ⟨hcid, hnot⟩
      have hcollection : ∃ c ∈ s.collections.rows, c.1 = t.collectionId ∧ c.2.userId = t.userId := by
        unfold AbTables.checkCollectionOwner at hchecked
        rw [decide_eq_true_iff] at hchecked
        cases hc : s.collectionInfoById t.collectionId with
        | none =>
          rw [hc] at hchecked
          exact absurd hchecked.symm huser
        | some c =>
          rw [hc] at hchecked
          exact ⟨c, Table.mem_of_first hc, of_decide_eq_true (Table.first_sat hc), hchecked⟩
      cases hto : s.checkToId t with
      | some e =>
        rw [hto] at h
        cases h
      | none =>
        rw [hto] at h
        refine ⟨hcollection, fun htype hself => ?_, huser, fun r hr htype hrto hrcid => ?_⟩
        · rw [AbTables.checkToId, if_pos htype, if_pos hself] at hto
          cases hto
        · have hfound := hs.ruleInfoByToIdAndCid hr
          rw [htype, hrto, hrcid] at hfound
          rw [hfound] at h
          dsimp only at h
          split at h
          · cases h
          · next hsame =>
            rw [not_or, not_not] at hsame
            exact ⟨hsame.1, hsame.2.symm⟩

end

theorem updatesRule_eq {t : AddressBookCollectionRule} (hvalid : validRule t = true) (huser : t.userId ≠ 0)
    (r : AddressBookCollectionRule) : updatesRule t r = t := by
  simp only [validRule, Bool.and_eq_true, decide_eq_true_eq] at hvalid
  obtain ⟨⟨⟨⟨⟨hcid, hrule⟩, -⟩, htype⟩, -⟩, hto⟩ := hvalid
  rw [updatesRule, updatesField_of_ne huser, updatesField_of_ne hcid, updatesField_of_ne (by omega),
    updatesField_of_ne (by omega), updatesField_of_ne (Nat.ne_of_gt hto)]

/-- A rule that passes `CheckForm` when it is written. -/
theorem Sound.writeRule (hs : s.Sound) {w : RuleWrite} (hvalid : validRule w.rule = true)
    (h : s.checkForm w.id w.rule = none) : (s.writeRule w).Sound := by
  obtain ⟨hcollection, hother, huser, honly⟩ := hs.checkForm_none h hvalid
  have hlevel : 0 < w.rule.rule ∧ w.rule.rule ≤ shareAddressBookRuleRuleFullControl := by
    simp only [validRule, Bool.and_eq_true, decide_eq_true_eq] at hvalid
    unfold shareAddressBookRuleRuleFullControl
    omega
  -- what is left is of other keys, or the one row that is written
  have hsound : ∀ (t : Table AddressBookCollectionRule) (nid : ℕ),
      (∀ r ∈ t.rows, (r ∈ s.rules.rows ∧ (r.2.ruleType = w.rule.ruleType → r.2.toId = w.rule.toId →
        r.2.collectionId ≠ w.rule.collectionId)) ∨ r = (nid, w.rule)) → Sound { s with rules := t } := by
    intro t nid hrows
    refine { hs with owner := fun r hr => ?_, level := fun r hr => ?_, other := fun r hr => ?_, unique := ?_ }
    · rcases hrows r hr with ⟨hr, -⟩ | rfl
      · exact hs.owner r hr
      · exact hcollection
    · rcases hrows r hr with ⟨hr, -⟩ | rfl
      · exact hs.level r hr
      · exact hlevel
    · rcases hrows r hr with ⟨hr, -⟩ | rfl
      · exact hs.other r hr
      · exact hother
    · intro r hr r' hr' htype hto hcid
      rcases hrows r hr with ⟨hr, hkey⟩ | rfl
      · rcases hrows r' hr' with ⟨hr', -⟩ | rfl
        · exact hs.unique r hr r' hr' htype hto hcid
        · exact absurd hcid (hkey htype hto)
      · rcases hrows r' hr' with ⟨hr', hkey⟩ | rfl
        · exact absurd hcid.symm (hkey htype.symm hto.symm)
        · rfl
  cases w with
  | create id t =>
    cases hcreate : createRow s.rules id t with
    | none =>
      rw [AbTables.writeRule, hcreate]
      exact hs
    | some rules =>
      obtain ⟨hfree, heq⟩ := Table.insertAs_eq (createRow_some hcreate).2
      rw [AbTables.writeRule, hcreate]
      refine hsound rules (s.rules.idFor id) fun r hr => ?_
      rcases (Table.mem_insertAs (createRow_some hcreate).2).mp hr with hr | rfl
      · refine .inl ⟨hr, fun htype hto hcid => hfree r hr ?_⟩
        obtain ⟨hid, hrid⟩ := honly r hr htype hto hcid
        exact hrid.trans (if_neg hid).symm
      · exact .inr rfl
  | update id t =>
    refine hsound _ id fun r hr => ?_
    obtain ⟨r', hr', rfl⟩ := Table.mem_update.mp hr
    by_cases hid : r'.1 = id
    · refine .inr ?_
      rw [Table.updateRow, if_pos (decide_eq_true hid), hid]
      exact congrArg (id, ·) (updatesRule_eq hvalid huser r'.2)
    · rw [Table.updateRow, if_neg (by simpa using hid)]
      exact .inl ⟨hr', fun htype hto hcid => hid (honly r' hr' htype hto hcid).2⟩

end Steps

end AbTables

namespace AbSystem

variable {H : Type*}

/-- What a step has to find so that the two views of a collection stay the same: a user has a group, a
collection has an owner and keeps it, a rule still passes `CheckForm` when it is written, and a tag has no
collection of its own. -/
def Proper (s : AbSystem H) : AbEvent H → Prop
  | .createUser _ user => user.groupId ≠ 0
  | .createCollection _ t => ∃ u ∈ s.tables.users.rows, u.1 = t.userId
  | .updateCollection _ id t =>
    t.userId = 0 ∨ ∀ c ∈ s.tables.collections.rows, c.1 = id → c.2.userId = t.userId
  | .writeRule h => ∀ w ∈ s.pending h, s.tables.checkForm w.id w.rule = none
  | .call _ _ call => call.Plain
  | _ => True

/-- The tables are sound, and the rules that wait to be written are valid. -/
def Sound (s : AbSystem H) : Prop := s.tables.Sound ∧ ∀ h, ∀ w ∈ s.pending h, AbTables.validRule w.rule = true

theorem new_sound (peers : Table AbPeer) : (new peers : AbSystem H).Sound :=
  ⟨⟨nofun, Nat.one_ne_zero, nofun, Nat.one_ne_zero, nofun, nofun, nofun, nofun⟩, nofun⟩

theorem validRule_of_allow {tables : AbTables} {req : RuleRequest} {w : RuleWrite}
    (h : tables.allow req = .ok w) : AbTables.validRule w.rule = true := by
  cases req with
  | create | myCreate =>
    simp only [AbTables.allow] at h
    split at h
    · next hvalid =>
      split at h
      · cases h
      · cases h
        exact hvalid
    · cases h
  | update id t =>
    simp only [AbTables.allow] at h
    split at h
    · next hvalid =>
      split at h
      · cases h
      · cases h
        exact ((Bool.and_eq_true _ _).mp hvalid).1
    · cases h
  | myUpdate u id t =>
    simp only [AbTables.allow] at h
    split at h
    · next hvalid =>
      split at h
      · cases h
      · split at h
        · cases h
        · split at h
          · cases h
          · cases h
            exact ((Bool.and_eq_true _ _).mp hvalid).1
    · cases h

theorem valid_update [DecidableEq H] {pending : H → Option RuleWrite} {h : H} {v : Option RuleWrite}
    (hpending : ∀ h, ∀ w ∈ pending h, AbTables.validRule w.rule = true)
    (hv : ∀ w ∈ v, AbTables.validRule w.rule = true) (h' : H) (w : RuleWrite)
    (hw : w ∈ Function.update pending h v h') : AbTables.validRule w.rule = true := by
  by_cases hh : h' = h
  · subst hh
    rw [Function.update_self] at hw
    exact hv w hw
  · rw [Function.update_of_ne hh] at hw
    exact hpending h' w hw

theorem Sound.step [DecidableEq H] {s t : AbSystem H} {e : AbEvent H} (hs : s.Sound) (hproper : s.Proper e)
    (h : s.step e = some t) : t.Sound := by
  obtain ⟨hsound, hpending⟩ := hs
  cases e with
  | createUser id user =>
    cases h
    exact ⟨hsound.createUser id hproper, hpending⟩
  | updateUser id user =>
    cases h
    exact ⟨hsound.updateUser id user, hpending⟩
  | deleteUser id =>
    cases h
    exact ⟨hsound.deleteUser id, hpending⟩
  | createGroup | deleteGroup =>
    cases h
    exact ⟨{ hsound with }, hpending⟩
  | createCollection id c =>
    cases h
    exact ⟨hsound.createCollection id hproper, hpending⟩
  | updateCollection cur id c =>
    cases h
    exact ⟨hsound.updateCollection cur hproper, hpending⟩
  | deleteCollection cur id =>
    cases h
    exact ⟨hsound.deleteCollection cur id, hpending⟩
  | checkRule h' req =>
    unfold AbSystem.step at h
    dsimp only at h
    split at h
    · cases h
      exact ⟨hsound, hpending⟩
    · next w hadmit =>
      cases h
      refine ⟨hsound, valid_update hpending fun w' hw' => ?_⟩
      rw [Option.mem_some_iff] at hw'
      exact hw' ▸ validRule_of_allow hadmit
  | writeRule h' =>
    obtain ⟨w, hw, rfl⟩ := Option.map_eq_some_iff.mp h
    exact ⟨hsound.writeRule (hpending h' w hw) (hproper w hw), valid_update hpending nofun⟩
  | deleteRule id =>
    cases h
    exact ⟨hsound.deleteRule id, hpending⟩
  | call userId guid call =>
    obtain ⟨cu, -, rfl⟩ := Option.map_eq_some_iff.mp h
    have hplain : ∃ addressBooks tags, (s.tables.handle cu guid call).2 = { s.tables with addressBooks, tags } :=
      AbTables.handle_of_plain hproper
    obtain ⟨addressBooks, tags, heq⟩ := hplain
    refine ⟨?_, hpending⟩
    show AbTables.Sound (s.tables.handle cu guid call).2
    rw [heq]
    exact { hsound with }

/-- **Address books**: in every run whose steps find what they must, what a request without a collection of its
own reads and changes is granted to the caller, and `SharedProfiles` lists exactly what the caller can read if
and only if the caller's own collections fit on the page, or are shared in full with the caller's own group. -/
theorem confined_lists_iff [DecidableEq H] {peers : Table AbPeer} {events : List (AbEvent H)} {s : AbSystem H}
    (hrun : Run (Only Proper (Steps step)) (new peers) events s) {cu : ℕ × AbUser}
    (hcu : cu ∈ s.tables.users.rows) :
    (∀ guid call, call.Plain → s.tables.Confined cu guid call) ∧
      (s.tables.ListsExactly cu ↔ s.tables.SharesOwnInFull cu) := by
  have hsound : s.Sound := Run.invariant (fun _ _ _ hs h => hs.step h.1 h.2) hrun (new_sound peers)
  exact ⟨fun guid call hplain => AbTables.confined_of_plain hplain,
    hsound.1.sharesOwnInFull_of hcu, hsound.1.listsExactly_of hcu⟩

/-! ## A collection that is shared -/

/-- User 1 shares a collection with user 2, to read and write. -/
def sharedWithUser : List (AbEvent ℕ) :=
  [.createGroup 0 "group", .createUser 0 ⟨"alice", 1⟩, .createUser 0 ⟨"bob", 1⟩,
    .createCollection 0 ⟨1, "hosts"⟩, .createCollection 0 ⟨1, "other"⟩,
    .checkRule 0 (.myCreate 1 0 ⟨0, 1, 2, 1, 2⟩), .writeRule 0]

/-- User 1 shares a collection with a group that user 1 is in, to read. -/
def sharedWithOwnGroup : List (AbEvent ℕ) :=
  [.createGroup 0 "group", .createUser 0 ⟨"alice", 1⟩, .createCollection 0 ⟨1, "hosts"⟩,
    .checkRule 0 (.myCreate 1 0 ⟨0, 1, 1, 2, 1⟩), .writeRule 0]

theorem confined_lists_iff_shared : ∃ s : AbSystem ℕ,
    Run (Only Proper (Steps step)) (new .empty) sharedWithUser s ∧
    (∀ guid call, call.Plain → s.tables.Confined (2, ⟨"bob", 1⟩) guid call) ∧
    (s.tables.ListsExactly (2, ⟨"bob", 1⟩) ↔ s.tables.SharesOwnInFull (2, ⟨"bob", 1⟩)) := by
  have hrun : ∃ s : AbSystem ℕ, Run (Only Proper (Steps step)) (new .empty) sharedWithUser s ∧
      (2, ⟨"bob", 1⟩) ∈ s.tables.users.rows := by
    refine ⟨_, .cons ⟨trivial, rfl⟩ <| .cons ⟨Nat.one_ne_zero, rfl⟩ <|
      .cons ⟨Nat.one_ne_zero, rfl⟩ <|
      .cons ⟨?_, rfl⟩ <| .cons ⟨?_, rfl⟩ <| .cons ⟨trivial, rfl⟩ <| .cons ⟨?_, rfl⟩ <| .nil _, ?_⟩
    · exact ⟨(1, ⟨"alice", 1⟩), by decide, rfl⟩
    · exact ⟨(1, ⟨"alice", 1⟩), by decide, rfl⟩
    · rintro w ⟨⟩
      decide
    · decide
  obtain ⟨s, hrun, hmem⟩ := hrun
  exact ⟨s, hrun, confined_lists_iff hrun hmem⟩

theorem own_group_listed_twice :
    (∃ s : AbSystem ℕ, Run (Steps step) (new .empty) sharedWithOwnGroup s ∧
      ¬ s.tables.ListsExactly (1, ⟨"alice", 1⟩)) ∧
    ∃ s : AbSystem ℕ, Run (Steps step) (new .empty) sharedWithUser s ∧
      ¬ s.tables.Confined (2, ⟨"bob", 1⟩) "1-1-1".toList
        (.tagAdd 0 ⟨"tag", 0, 0, 0⟩ (some (2, ⟨1, "other"⟩))) := by
  refine ⟨⟨_, .cons rfl <| .cons rfl <| .cons rfl <| .cons rfl <| .cons rfl <| .nil _, ?_⟩,
    ⟨_, .cons rfl <| .cons rfl <| .cons rfl <| .cons rfl <| .cons rfl <| .cons rfl <| .cons rfl <|
      .nil _, ?_⟩⟩
  · rintro ⟨res, hres, hright, -⟩
    have hlisted : some [⟨"1-1-1".toList, "hosts", "alice", 3⟩, ⟨"1-1-1".toList, "hosts", "alice", 1⟩] =
        some res := Eq.trans (by decide) hres
    cases hlisted
    obtain ⟨gid, uid, cid, hguid, -, hlevel⟩ := hright ⟨"1-1-1".toList, "hosts", "alice", 1⟩ (by decide)
    have hparse : (1, 1, 1) = (gid, uid, cid) := Eq.trans (by decide) hguid
    cases hparse
    revert hlevel
    decide
  · intro hconfined
    rcases hconfined 1 2 (.inr (.inr (.inr (by decide)))) with hself | ⟨-, -, r, hr, hcid, -⟩
    · revert hself
      decide
    · revert r
      decide

/-- **Shares** stay sound in every run whose steps find what they must. -/
theorem tables_sound [DecidableEq H] {peers : Table AbPeer} {events : List (AbEvent H)} {s : AbSystem H}
    (hrun : Run (Only Proper (Steps step)) (new peers) events s) : s.tables.Sound := by
  have hsound : s.Sound := Run.invariant (fun _ _ _ hs h => hs.step h.1 h.2) hrun (new_sound peers)
  exact hsound.1

theorem tables_sound_shared : ∃ s : AbSystem ℕ, s.tables.rules.rows ≠ [] ∧ s.tables.Sound := by
  have hrun : ∃ s : AbSystem ℕ, Run (Only Proper (Steps step)) (new .empty) sharedWithOwnGroup s ∧
      s.tables.rules.rows ≠ [] := by
    refine ⟨_, .cons ⟨trivial, rfl⟩ <| .cons ⟨Nat.one_ne_zero, rfl⟩ <| .cons ⟨?_, rfl⟩ <|
      .cons ⟨trivial, rfl⟩ <| .cons ⟨?_, rfl⟩ <| .nil _, by decide⟩
    · exact ⟨(1, ⟨"alice", 1⟩), by decide, rfl⟩
    · rintro w ⟨⟩
      decide
  obtain ⟨s, hrun, hne⟩ := hrun
  exact ⟨s, hne, tables_sound hrun⟩

end AbSystem

end RustDesk.Api
