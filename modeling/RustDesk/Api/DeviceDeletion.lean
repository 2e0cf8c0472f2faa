import RustDesk.Api.Tokens

/-!
# Deleted devices and their tokens

References: `rustdesk-api/service/peer.go` (`Delete`, `GetUuidListByIDs`, `BatchDelete`), `service/user.go`
(`FlushTokenByUuid`, `FlushTokenByUuids`), `http/controller/admin/peer.go` (`Delete`).

To delete a device is to delete its row and the tokens of its uuid. A device may have no uuid, several may have the
same, and the token of a session in the browser has none. `BatchDelete` leaves out the empty uuids and `Delete` does
not.
-/

namespace RustDesk.Api

/-- `model.Peer`, as far as the deletion reads it. -/
structure PeerRecord where
  uuid : String
deriving DecidableEq

/-- The devices and the tokens. Row ids are given from 1 on. -/
structure Devices where
  peers : Table PeerRecord
  tokens : Tokens
  positive : ∀ r ∈ peers.rows, 0 < r.1

/-- The statements of a deletion. -/
inductive PeerStatement
  | deletePeers | pluckUuids | deleteTokens
deriving DecidableEq

namespace Devices

section Functions

-- which statements the database refuses
variable (refused : PeerStatement → Bool) (s : Devices)

def infoByRowId (rowId : ℕ) : Option (ℕ × PeerRecord) := s.peers.first fun r => r.1 = rowId

/-- `DB.Delete` of devices. -/
def deletePeers (p : ℕ × PeerRecord → Bool) : Devices :=
  { s with peers := s.peers.delete p, positive := fun r hr => s.positive r (Table.mem_delete.mp hr).1 }

def flushTokenByUuid (uuid : String) : Devices × Option PeerStatement :=
  if refused .deleteTokens then (s, some .deleteTokens)
  else ({ s with tokens := s.tokens.flushTokenByUuid uuid }, none)

def flushTokenByUuids (uuids : List String) : Devices × Option PeerStatement :=
  if refused .deleteTokens then (s, some .deleteTokens)
  else ({ s with tokens := s.tokens.flushTokenByUuids uuids }, none)

/-- What is left, and the statement that failed, if any. A row id of 0 would be no condition, which is refused. -/
def delete (u : ℕ × PeerRecord) : Devices × Option PeerStatement :=
  let uuid := u.2.uuid
  if u.1 = 0 ∨ refused .deletePeers = true then (s, some .deletePeers)
  else (s.deletePeers fun r => r.1 = u.1).flushTokenByUuid refused uuid

def getUuidListByIDs (ids : List ℕ) : List String × Option PeerStatement :=
  if refused .pluckUuids then ([], some .pluckUuids)
  else (((s.peers.select fun r => ids.contains r.1).map (·.2.uuid)).filter (· ≠ ""), none)

def batchDelete (ids : List ℕ) : Devices × Option PeerStatement :=
  -- the error of the query is overwritten by that of the deletion
  let uuids := (s.getUuidListByIDs refused ids).1
  if refused .deletePeers then (s, some .deletePeers)
  else (s.deletePeers fun r => ids.contains r.1).flushTokenByUuids refused uuids

/-- `Delete` of the controller, which asks for the row first. -/
def deleteByRowId (rowId : ℕ) : Devices :=
  match s.infoByRowId rowId with
  | some u => (s.delete refused u).1
  | none => s

def deleteEach (ids : List ℕ) : Devices := ids.foldl (deleteByRowId refused) s

end Functions

/-- No statement is refused. -/
def accepted : PeerStatement → Bool := fun _ => false

/-- The rows of both tables. -/
def tables (s : Devices) : Table PeerRecord × Table UserToken := (s.peers, s.tokens.tokens)

/-- The tables without these devices and without the tokens of their uuids. -/
def without (s : Devices) (ids : List ℕ) : Table PeerRecord × Table UserToken :=
  (s.peers.delete fun r => ids.contains r.1,
    s.tokens.tokens.delete fun t => t.2.deviceUuid ≠ "" &&
      s.peers.rows.any fun r => ids.contains r.1 && r.2.uuid = t.2.deviceUuid)

/-- Deletions do what they are for: one by one, in any order, or at once. -/
structure DeletesExactly (s : Devices) (ids : List ℕ) : Prop where
  one : ∀ u ∈ s.peers.rows, u.1 ∈ ids → (s.delete accepted u).1.tables = s.without [u.1]
  batch : (s.batchDelete accepted ids).1.tables = s.without ids
  each : ∀ ids' : List ℕ, ids'.Perm ids →
    (s.deleteEach accepted ids').tables = (s.batchDelete accepted ids).1.tables

/-- Each of these devices has a uuid, or each token has one. -/
def HaveUuids (s : Devices) (ids : List ℕ) : Prop :=
  (∀ r ∈ s.peers.rows, r.1 ∈ ids → r.2.uuid ≠ "") ∨ ∀ t ∈ s.tokens.tokens.rows, t.2.deviceUuid ≠ ""

variable {s : Devices} {ids : List ℕ}

/-- A deletion that is refused leaves everything. -/
theorem delete_refused {refused : PeerStatement → Bool} (h : refused .deletePeers = true) (u : ℕ × PeerRecord) :
    s.delete refused u = (s, some .deletePeers) ∧ s.batchDelete refused ids = (s, some .deletePeers) := by
  rw [delete, if_pos (.inr h), batchDelete, if_pos h]
  exact ⟨rfl, rfl⟩

theorem tables_delete {u : ℕ × PeerRecord} (hu : u ∈ s.peers.rows) : (s.delete accepted u).1.tables =
      (s.peers.delete fun r => r.1 = u.1, s.tokens.tokens.delete fun t => t.2.deviceUuid = u.2.uuid) := by
  have hpos := s.positive u hu
  have hneg : ¬ (u.1 = 0 ∨ accepted .deletePeers = true) := by
    rintro (h | h)
    · omega
    · cases h
  rw [delete, if_neg hneg]
  rfl

theorem any_uuid_iff {rows : List (ℕ × PeerRecord)} {uuid : String} :
    (rows.any fun r => ids.contains r.1 && r.2.uuid = uuid) = true ↔ ∃ r ∈ rows, r.1 ∈ ids ∧ r.2.uuid = uuid := by
  simp [List.any_eq_true]

/-- **At once**: the empty uuids are left out. -/
theorem tables_batchDelete (s : Devices) (ids : List ℕ) : (s.batchDelete accepted ids).1.tables = s.without ids := by
  refine Prod.ext rfl (Table.delete_congr fun t ht => ?_)
  show (((s.peers.select fun r => ids.contains r.1).map (·.2.uuid)).filter (· ≠ "")).contains t.2.deviceUuid = _
  rw [Bool.eq_iff_iff, List.contains_iff_mem, List.mem_filter, List.mem_map, Bool.and_eq_true, any_uuid_iff, and_comm]
  refine and_congr_right fun _ => ?_
  constructor
  · rintro ⟨r, hr, huuid⟩
    obtain ⟨hmem, hid⟩ := Table.mem_select.mp hr
    exact ⟨r, hmem, List.contains_iff_mem.mp hid, huuid⟩
  · rintro ⟨r, hmem, hid, huuid⟩
    exact ⟨r, Table.mem_select.mpr ⟨hmem, List.contains_iff_mem.mpr hid⟩, huuid⟩

/-- **One by one**: the empty uuids are not. -/
theorem tables_deleteEach (s : Devices) (ids : List ℕ) : (s.deleteEach accepted ids).tables =
      (s.peers.delete fun r => ids.contains r.1,
        s.tokens.tokens.delete fun t => s.peers.rows.any fun r => ids.contains r.1 && r.2.uuid = t.2.deviceUuid) := by
  induction ids generalizing s with
  | nil =>
    refine Prod.ext (Table.delete_eq_self fun r _ => ?_).symm (Table.delete_eq_self fun t _ => ?_).symm
    · simp
    · simp
  | cons id ids ih =>
    rw [deleteEach, List.foldl_cons, ← deleteEach, ih]
    unfold deleteByRowId
    cases hinfo : s.infoByRowId id with
    | none =>
      -- there is no such row
      have hnone : ∀ r ∈ s.peers.rows, r.1 ≠ id := by
        intro r hr hid
        have hsome : (s.infoByRowId id).isSome := Table.first_isSome.mpr ⟨r, hr, decide_eq_true hid⟩
        rw [hinfo] at hsome
        cases hsome
      refine Prod.ext (Table.delete_congr fun r hr => ?_) (Table.delete_congr fun t _ => ?_)
      · rw [List.contains_cons, beq_eq_false_iff_ne.mpr (hnone r hr), Bool.false_or]
      · rw [Bool.eq_iff_iff, any_uuid_iff, any_uuid_iff]
        refine exists_congr fun r => and_congr_right fun hr => ?_
        rw [List.mem_cons, or_iff_right (hnone r hr)]
    | some u =>
      have hu : u ∈ s.peers.rows := Table.mem_of_first hinfo
      obtain rfl : u.1 = id := by simpa using Table.first_sat hinfo
      have hpeers : (s.delete accepted u).1.peers = s.peers.delete fun r => r.1 = u.1 :=
        congrArg Prod.fst (tables_delete hu)
      have htokens : (s.delete accepted u).1.tokens.tokens =
          s.tokens.tokens.delete fun t => t.2.deviceUuid = u.2.uuid := congrArg Prod.snd (tables_delete hu)
      rw [hpeers, htokens, Table.delete_delete, Table.delete_delete]
      refine Prod.ext (Table.delete_congr fun r _ => ?_) (Table.delete_congr fun t _ => ?_)
      · rw [List.contains_cons]
        rfl
      · rw [Bool.eq_iff_iff, Bool.or_eq_true, decide_eq_true_iff, any_uuid_iff, any_uuid_iff]
        constructor
        · rintro (huuid | ⟨r, hr, hid, huuid⟩)
          · exact ⟨u, hu, List.mem_cons_self, huuid.symm⟩
          · exact ⟨r, (Table.mem_delete.mp hr).1, List.mem_cons_of_mem _ hid, huuid⟩
        · rintro ⟨r, hr, hid, huuid⟩
          by_cases hsame : r.1 = u.1
          · exact .inl (by rw [← huuid, Table.eq_of_id hr hu hsame])
          · refine .inr ⟨r, Table.mem_delete.mpr ⟨hr, by simpa using hsame⟩, ?_, huuid⟩
            exact (List.mem_cons.mp hid).resolve_left hsame

/-- **Deletions do what they are for** just if no device without a uuid meets a token without one. -/
theorem deletesExactly_iff_haveUuids (s : Devices) (ids : List ℕ) : s.DeletesExactly ids ↔ s.HaveUuids ids := by
  -- what the two ways leave of the tokens differs in those without a uuid
  have hagree : s.HaveUuids ids → ∀ t ∈ s.tokens.tokens.rows, ∀ r ∈ s.peers.rows, r.1 ∈ ids →
      r.2.uuid = t.2.deviceUuid → t.2.deviceUuid ≠ "" := by
    rintro (hpeers | htokens) t ht r hr hid huuid
    · rw [← huuid]
      exact hpeers r hr hid
    · exact htokens t ht
  constructor
  · intro h
    by_contra hnot
    simp only [HaveUuids, not_or, not_forall, not_not] at hnot
    obtain ⟨⟨u, hu, hid, huuid⟩, t, ht, htuuid⟩ := hnot
    have hone := congrArg Prod.snd (h.one u hu hid)
    rw [tables_delete hu] at hone
    have hrow := Table.eq_of_delete_eq hone ht
    rw [huuid, htuuid] at hrow
    simp at hrow
  · intro h
    refine ⟨fun u hu hid => ?_, tables_batchDelete s ids, fun ids' hperm => ?_⟩
    · rw [tables_delete hu]
      refine Prod.ext (Table.delete_congr fun r _ => ?_) (Table.delete_congr fun t ht => ?_)
      · simp
      · rw [Bool.eq_iff_iff, Bool.and_eq_true, any_uuid_iff, decide_eq_true_iff, decide_eq_true_iff]
        constructor
        · exact fun huuid => ⟨hagree h t ht u hu hid huuid.symm, u, hu, List.mem_singleton_self _, huuid.symm⟩
        · rintro ⟨-, r, hr, hid', huuid⟩
          rw [← huuid, Table.eq_of_id hr hu (List.mem_singleton.mp hid')]
    · rw [tables_deleteEach, tables_batchDelete]
      refine Prod.ext (Table.delete_congr fun r _ => ?_) (Table.delete_congr fun t ht => ?_)
      · rw [Bool.eq_iff_iff, List.contains_iff_mem, List.contains_iff_mem, hperm.mem_iff]
      · rw [Bool.eq_iff_iff, Bool.and_eq_true, any_uuid_iff, any_uuid_iff, decide_eq_true_iff]
        constructor
        · rintro ⟨r, hr, hid, huuid⟩
          have hid' := hperm.mem_iff.mp hid
          exact ⟨hagree h t ht r hr hid' huuid, r, hr, hid', huuid⟩
        · rintro ⟨-, r, hr, hid, huuid⟩
          exact ⟨r, hr, hperm.mem_iff.mpr hid, huuid⟩

/-- A device without a uuid, and the session of an administrator in the browser. -/
def bareDevice : Devices where
  peers := Table.empty.insert ⟨""⟩
  tokens := { Tokens.new with tokens := Table.empty.insert ⟨1, "", [], 0⟩ }
  positive r hr := by
    rcases Table.mem_insert.mp hr with hr | rfl
    · cases hr
    · exact Nat.zero_lt_one

/-- To delete the device is to log the administrator out. -/
theorem not_deletesExactly_bareDevice :
    ¬ bareDevice.DeletesExactly [1] ∧ (bareDevice.delete accepted (1, ⟨""⟩)).1.tokens.tokens.rows = [] := by
  have hdelete : (bareDevice.delete accepted (1, ⟨""⟩)).1.tokens.tokens.rows = [] := by decide
  refine ⟨fun h => ?_, hdelete⟩
  have hone := congrArg (fun tables => tables.2.rows) (h.one (1, ⟨""⟩) (by decide) (by decide))
  have hkept : (bareDevice.without [1]).2.rows = [(1, ⟨1, "", [], 0⟩)] := by decide
  have hrows : (bareDevice.delete accepted (1, ⟨""⟩)).1.tables.2.rows = [] := hdelete
  rw [hkept, hrows] at hone
  cases hone

end Devices

end RustDesk.Api
