import RustDesk.Common.Run
import RustDesk.Server.Registry

/-!
# What an answered registration leaves in the database

References: `rustdesk-server/src/rendezvous_server.rs` (`handle_register_pk`) and `src/peer.rs`
(`update_pk`, `get_or`).

`update_pk` writes the peer in memory before it writes the row, and `handle_register_pk` answers OK
whatever the database said. The next registration of the same device compares with memory, finds
nothing changed and does not come back to the database. So an OK is durable as long as no call fails
that had something to read or to write: `ok_is_durable`.
-/

namespace RustDesk.Server

open Net

/-- What a peer in memory has in the table: nothing before it is registered, and then its row. -/
inductive Stored (db : PeerTable) (id : String) (peer : LivePeer) : Prop
  | unregistered (huuid : peer.uuid = []) (hguid : peer.guid = []) (hrow : db.getPeer id = none)
  | registered (row : PeerRow) (hrow : db.getPeer id = some row) (hguid : row.guid = peer.guid)
      (huuid : row.uuid = peer.uuid) (hpk : row.pk = peer.pk)

theorem Stored.ofRow {db : PeerTable} {id : String} {row : PeerRow} (h : db.getPeer id = some row) (now : ℕ) :
    Stored db id (.ofRow row now) :=
  .registered row h rfl rfl rfl

/-- Only the uuid, the key and the guid of a peer are stored. -/
theorem Stored.congr {db : PeerTable} {id : String} {peer peer' : LivePeer} (h : Stored db id peer)
    (hu : peer'.uuid = peer.uuid) (hp : peer'.pk = peer.pk) (hg : peer'.guid = peer.guid) :
    Stored db id peer' := by
  cases h with
  | unregistered hu' hg' hr => exact .unregistered (hu.trans hu') (hg.trans hg') hr
  | registered row hr hg' hu' hp' =>
    exact .registered row hr (hg'.trans hg.symm) (hu'.trans hu.symm) (hp'.trans hp.symm)

/-- A row that was registered has a uuid. -/
def PeerTable.Registered (db : PeerTable) : Prop := ∀ id row, db.getPeer id = some row → row.uuid ≠ []

/-- A handler that reads or writes peers, with what it takes from outside. -/
inductive RegistryEvent
  | registerPk (io : RegisterIo) (rk : RegisterPk) (addr : SocketAddr) (ip : String) (ws : Bool)
  | registerPeer (now : ℕ) (id : String) (addr : SocketAddr) (ip : String)
  | get (now : ℕ) (getPeerOk : Bool) (id : String)

namespace Registry

/-- A server that has just started. -/
def start (db : PeerTable) : Registry := ⟨fun _ => none, db⟩

def step (s : Registry) : RegistryEvent → Option Registry
  | .registerPk io rk addr ip ws => some (s.handleRegisterPk io rk addr ip ws).2
  | .registerPeer now id addr ip => some (s.updateAddr now id addr ip).2
  | .get now getPeerOk id => some (s.get now getPeerOk id).2

/-- The database calls of a registration that have something to read or to write succeed: a row that is
not in memory is read, and what is not in the table yet is written. A guid is never drawn twice. -/
structure CallsSucceed (s : Registry) (io : RegisterIo) (rk : RegisterPk) : Prop where
  read : io.getPeerOk = true ∨ s.map rk.id ≠ none ∨ s.db.getPeer rk.id = none
  write : io.writeOk = true ∨ ∃ row, s.db.getPeer rk.id = some row ∧ row.uuid = rk.uuid ∧ row.pk = rk.pk
  guid : io.guid.toList ∉ s.db.rows.map PeerRow.guid

/-- The condition on a run: it is one on its registrations. -/
def Durable (s : Registry) : RegistryEvent → Prop
  | .registerPk io rk _ _ _ => s.CallsSucceed io rk
  | _ => True

/-- Memory and table agree. -/
structure Backed (s : Registry) : Prop where
  rows : s.db.Registered
  peers : ∀ id peer, s.map id = some peer → Stored s.db id peer

variable {s t : Registry} {id : String} {peer : LivePeer}

@[simp] theorem set_db (s : Registry) (id : String) (peer : LivePeer) : (s.set id peer).db = s.db := rfl

@[simp] theorem set_map_self (s : Registry) (id : String) (peer : LivePeer) :
    (s.set id peer).map id = some peer := Function.update_self ..

theorem set_map_of_ne (s : Registry) {id id' : String} (h : id' ≠ id) (peer : LivePeer) :
    (s.set id peer).map id' = s.map id' := Function.update_of_ne h ..

theorem Backed.set (hs : s.Backed) (hpeer : Stored s.db id peer) : (s.set id peer).Backed where
  rows := hs.rows
  peers := by
    intro id' peer' h
    by_cases hid : id' = id
    · subst hid
      obtain rfl : peer = peer' := by simpa using h
      exact hpeer
    · rw [set_map_of_ne s hid] at h
      exact hs.peers id' peer' h

/-- `get` takes a peer from memory, or makes it of its row, or finds none. -/
theorem get_cases (s : Registry) (now : ℕ) (getPeerOk : Bool) (id : String) :
    (∃ peer, s.map id = some peer ∧ s.get now getPeerOk id = (some peer, s)) ∨
      (∃ row, s.map id = none ∧ s.db.getPeer id = some row ∧
        s.get now getPeerOk id = (some (.ofRow row now), s.set id (.ofRow row now))) ∨
      s.map id = none ∧ (getPeerOk = true → s.db.getPeer id = none) ∧ s.get now getPeerOk id = (none, s) := by
  cases hmem : s.map id with
  | some peer => exact .inl ⟨peer, rfl, by simp [get, hmem]⟩
  | none =>
    cases hread : readPeer s.db getPeerOk id with
    | some row =>
      have hrow : s.db.getPeer id = some row := by cases getPeerOk <;> simp_all [readPeer]
      exact .inr (.inl ⟨row, rfl, hrow, by simp [get, hmem, hread]⟩)
    | none =>
      refine .inr (.inr ⟨rfl, ?_, by simp [get, hmem, hread]⟩)
      rintro rfl
      simpa [readPeer] using hread

theorem Backed.get (hs : s.Backed) (now : ℕ) (getPeerOk : Bool) (id : String) :
    (s.get now getPeerOk id).2.Backed := by
  obtain ⟨peer, -, h⟩ | ⟨row, -, hrow, h⟩ | ⟨-, -, h⟩ := s.get_cases now getPeerOk id
  · rw [h]; exact hs
  · rw [h]; exact hs.set (.ofRow hrow now)
  · rw [h]; exact hs

/-- The peer of `get_or` is in the map afterwards, and the table is as before. -/
theorem getOr_spec (hs : s.Backed) (now : ℕ) {getPeerOk : Bool}
    (hread : getPeerOk = true ∨ s.map id ≠ none ∨ s.db.getPeer id = none) :
    (s.getOr now getPeerOk id).2.Backed ∧ (s.getOr now getPeerOk id).2.db = s.db ∧
      Stored s.db id (s.getOr now getPeerOk id).1 := by
  obtain ⟨peer, hmem, h⟩ | ⟨row, -, hrow, h⟩ | ⟨hmem, hnone, h⟩ := s.get_cases now getPeerOk id
  · simp only [getOr, h]
    exact ⟨hs, trivial, hs.peers id peer hmem⟩
  · simp only [getOr, h]
    exact ⟨hs.set (.ofRow hrow now), rfl, .ofRow hrow now⟩
  · simp only [getOr, h]
    have hstored : Stored s.db id (.default now) := by
      refine .unregistered rfl rfl ?_
      rcases hread with hok | hmem' | hrow
      · exact hnone hok
      · exact absurd hmem hmem'
      · exact hrow
    exact ⟨hs.set hstored, rfl, hstored⟩

/-- A registered row keeps its place while another id is written. -/
theorem Backed.of_write {db' : PeerTable} (hs : s.Backed)
    (hothers : ∀ id', id' ≠ id → db'.getPeer id' = s.db.getPeer id') {row : PeerRow}
    (hrow : db'.getPeer id = some row) (huuid : row.uuid ≠ []) (hguid : row.guid = peer.guid)
    (hpeer : row.uuid = peer.uuid) (hpk : row.pk = peer.pk) :
    ({ s with db := db' }.set id peer).Backed where
  rows := by
    intro id' row' h
    by_cases hid : id' = id
    · subst hid
      obtain rfl : row = row' := Option.some.inj (hrow.symm.trans h)
      exact huuid
    · exact hs.rows id' row' ((hothers id' hid).symm.trans h)
  peers := by
    intro id' peer' h
    by_cases hid : id' = id
    · subst hid
      obtain rfl : peer = peer' := by simpa using h
      exact .registered row hrow hguid hpeer hpk
    · rw [set_map_of_ne _ hid] at h
      cases hs.peers id' peer' h with
      | unregistered hu hg hr => exact .unregistered hu hg ((hothers id' hid).trans hr)
      | registered row' hr hg hu hp => exact .registered row' ((hothers id' hid).trans hr) hg hu hp

theorem set_set (s : Registry) (id : String) (peer peer' : LivePeer) :
    (s.set id peer).set id peer' = s.set id peer' := by
  simp only [set, Function.update_idem]

/-- **`update_pk` leaves the row**, if the table takes it or has it already. -/
theorem updatePk_spec (hs : s.Backed) (io : RegisterIo) (addr : SocketAddr) {uuid : List UInt8}
    (pk : List UInt8) (ip : String) (hstored : Stored s.db id peer) (huuid : peer.uuid = [] ∨ peer.uuid = uuid)
    (hne : uuid ≠ [])
    (hwrite : io.writeOk = true ∨ ∃ row, s.db.getPeer id = some row ∧ row.uuid = uuid ∧ row.pk = pk)
    (hfresh : io.guid.toList ∉ s.db.rows.map PeerRow.guid) :
    (s.updatePk io id peer addr uuid pk ip).2.Backed ∧
      ∃ row, (s.updatePk io id peer addr uuid pk ip).2.db.getPeer id = some row ∧
        row.uuid = uuid ∧ row.pk = pk := by
  cases hstored with
  | unregistered hnil hguid hrow =>
    -- a new peer: the row is inserted
    have hok : io.writeOk = true := by
      rcases hwrite with hok | ⟨row, hsome, -⟩
      · exact hok
      · simp [hrow] at hsome
    obtain ⟨db', hdb'⟩ : ∃ db', s.db.insertPeer io.guid id uuid pk ip = some db' :=
      ⟨_, dif_pos ⟨PeerTable.getPeer_eq_none_iff.mp hrow, hfresh⟩⟩
    have hget := (PeerTable.getPeer_insertPeer hdb').2
    have hupdate : (s.updatePk io id peer addr uuid pk ip).2 = { s with db := db' }.set id
        { peer.register io.now addr uuid pk ip with guid := io.guid.toList } := by
      simp only [updatePk, LivePeer.register, hguid, hok, set_db, hdb', if_true]
      rw [← set_set { s with db := db' }]
      rfl
    have hrow' := (hget id).trans (if_pos rfl)
    rw [hupdate]
    exact ⟨hs.of_write (fun id' hid => (hget id').trans (if_neg hid)) hrow' hne rfl rfl rfl, _, hrow', rfl, rfl⟩
  | registered row hrow hguid hu hpk =>
    have hguid' : peer.guid ≠ [] := by
      rw [← hguid]
      exact s.db.guid_ne row (PeerTable.getPeer_eq_some_iff.mp hrow).1
    have huuid' : row.uuid = uuid := by
      rcases huuid with hnil | hsame
      · exact absurd (hu.trans hnil) (hs.rows id row hrow)
      · exact hu.trans hsame
    by_cases hok : io.writeOk = true
    · -- the row takes the key
      obtain ⟨db', hdb'⟩ := PeerTable.exists_updatePk hrow hguid pk ip
      have hget := PeerTable.getPeer_updatePk hrow hguid hdb'
      have hupdate : (s.updatePk io id peer addr uuid pk ip).2 =
          { s with db := db' }.set id (peer.register io.now addr uuid pk ip) := by
        simp only [updatePk, LivePeer.register, hguid', hok, set_db, hdb', if_true, if_false]
        rfl
      have hrow' := (hget id).trans (if_pos rfl)
      rw [hupdate]
      exact ⟨hs.of_write (fun id' hid => (hget id').trans (if_neg hid)) hrow' (huuid' ▸ hne) hguid
        huuid' rfl, _, hrow', huuid', rfl⟩
    · -- the row has the key already
      obtain ⟨row', hrow', huuid'', hpk'⟩ := hwrite.resolve_left hok
      obtain rfl : row = row' := Option.some.inj (hrow.symm.trans hrow')
      have hupdate : (s.updatePk io id peer addr uuid pk ip).2 =
          s.set id (peer.register io.now addr uuid pk ip) := by
        simp [updatePk, LivePeer.register, hguid', hok]
      rw [hupdate]
      exact ⟨hs.set (.registered row hrow hguid huuid' hpk'), row, hrow, huuid', hpk'⟩

/-- What the check of a known peer lets through. -/
theorem checkPeer_ok {peer : Peer} {rk : RegisterPk} {ip : String} {changed : Bool}
    (h : PeerMap.checkPeer peer rk ip = .ok changed) :
    (peer.uuid = [] ∨ peer.uuid = rk.uuid) ∧ (changed = false → peer.uuid = rk.uuid ∧ peer.pk = rk.pk) := by
  unfold PeerMap.checkPeer at h
  by_cases hnil : peer.uuid = []
  · rw [if_pos hnil, Except.ok.injEq] at h
    exact ⟨.inl hnil, by simp [← h]⟩
  · rw [if_neg hnil] at h
    by_cases hsame : peer.uuid = rk.uuid
    · rw [if_pos hsame] at h
      split at h
      · cases h
      · rw [Except.ok.injEq] at h
        refine ⟨.inr hsame, ?_⟩
        rintro rfl
        have hnot : ¬ (peer.uuid ≠ rk.uuid ∨ peer.pk ≠ rk.pk ∨ peer.ip ≠ ip) := by simpa using h
        exact ⟨hsame, by tauto⟩
    · rw [if_neg hsame] at h
      cases h

/-- **A registration**: memory and table agree afterwards, and an OK has its row. -/
theorem handleRegisterPk_spec (hs : s.Backed) {io : RegisterIo} {rk : RegisterPk}
    (hcalls : s.CallsSucceed io rk) (addr : SocketAddr) (ip : String) (ws : Bool) :
    (s.handleRegisterPk io rk addr ip ws).2.Backed ∧ ((s.handleRegisterPk io rk addr ip ws).1 = .ok .ok →
        ∃ row, (s.handleRegisterPk io rk addr ip ws).2.db.getPeer rk.id = some row ∧
          row.uuid = rk.uuid ∧ row.pk = rk.pk) := by
  unfold handleRegisterPk
  by_cases hset : rk.uuid = [] ∨ rk.pk = []
  · rw [if_pos hset]
    exact ⟨hs, by simp⟩
  rw [if_neg hset]
  by_cases hid : rk.id.utf8ByteSize < 6
  · rw [if_pos hid]
    exact ⟨hs, by simp⟩
  rw [if_neg hid]
  by_cases hip : ¬ io.ipAllowed = true
  · rw [if_pos hip]
    exact ⟨hs, by simp⟩
  rw [if_neg hip]
  obtain ⟨hs', hdb, hstored⟩ := getOr_spec hs io.now hcalls.read
  generalize s.getOr io.now io.getPeerOk rk.id = r at hs' hdb hstored
  obtain ⟨peer, s'⟩ := r
  simp only at hs' hdb hstored ⊢
  cases hcheck : PeerMap.checkPeer peer.toPeer rk ip with
  | error e =>
    refine ⟨hs', fun h => ?_⟩
    cases h
  | ok changed =>
    obtain ⟨huuid, hsame⟩ := checkPeer_ok hcheck
    simp only
    cases hcount : peer.countRegPk io.now with
    | error e =>
      refine ⟨hs', fun h => ?_⟩
      cases h
    | ok regPk =>
      simp only
      rw [← hdb] at hstored
      have hstored' : Stored s'.db rk.id { peer with regPk } := hstored.congr rfl rfl rfl
      by_cases hupdate : changed = true ∨ ws = true
      · rw [if_pos hupdate]
        have hspec := updatePk_spec (hs'.set hstored') io addr rk.pk ip hstored' huuid
          (not_or.mp hset).1 (hdb ▸ hcalls.write) (hdb ▸ hcalls.guid)
        exact ⟨hspec.1, fun _ => hspec.2⟩
      · rw [if_neg hupdate]
        refine ⟨hs'.set hstored', fun _ => ?_⟩
        have hfalse : changed = false := by simpa using (not_or.mp hupdate).1
        obtain ⟨hu, hp⟩ := hsame hfalse
        cases hstored with
        | unregistered hnil hg hr => exact absurd (hu.symm.trans hnil) (not_or.mp hset).1
        | registered row hr hg hu' hp' => exact ⟨row, hr, hu'.trans hu, hp'.trans hp⟩

theorem Backed.updateAddr (hs : s.Backed) (now : ℕ) (id : String) (addr : SocketAddr) (ip : String) :
    (s.updateAddr now id addr ip).2.Backed := by
  cases hmem : s.map id with
  | none => simpa [Registry.updateAddr, hmem] using hs
  | some old =>
    have hstored : Stored s.db id (old.updateAddr now addr ip).2 :=
      (hs.peers id old hmem).congr (by simp) (by simp) (by simp)
    simpa [Registry.updateAddr, hmem] using hs.set hstored

theorem Backed.step (hs : s.Backed) {ev : RegistryEvent} (hev : Durable s ev)
    (h : Registry.step s ev = some t) : t.Backed := by
  cases ev with
  | registerPk io rk addr ip ws =>
    cases h
    exact (handleRegisterPk_spec hs hev addr ip ws).1
  | registerPeer now id addr ip =>
    cases h
    exact hs.updateAddr now id addr ip
  | get now getPeerOk id =>
    cases h
    exact hs.get now getPeerOk id

/-- **A registration answered OK is durable**: in every run whose registrations all have their database
calls succeed, the row of the one that is answered OK is in the table. -/
theorem ok_is_durable {db : PeerTable} {evs : List RegistryEvent} (hdb : db.Registered)
    (hrun : Run (Only Durable (Steps step)) (start db) evs s) {io : RegisterIo} {rk : RegisterPk}
    (hcalls : s.CallsSucceed io rk) (addr : SocketAddr) (ip : String) (ws : Bool)
    (hok : (s.handleRegisterPk io rk addr ip ws).1 = .ok .ok) :
    ∃ row, (s.handleRegisterPk io rk addr ip ws).2.db.getPeer rk.id = some row ∧
      row.uuid = rk.uuid ∧ row.pk = rk.pk := by
  have hstart : (start db).Backed := ⟨hdb, fun _ _ h => (by cases h)⟩
  have hs : s.Backed :=
    hrun.invariant (fun _ _ _ (h : Backed _) hstep => h.step hstep.1 hstep.2) hstart
  exact (handleRegisterPk_spec hs hcalls addr ip ws).2 hok

/-! ## A registration and its repetition -/

def exampleAddr : SocketAddr := ⟨.ofOctets 10 0 0 1, 40000⟩

def exampleRk : RegisterPk := ⟨"123456789", [1], [2]⟩

/-- A registration at an instant, with a database that works or not. -/
def exampleIo (now : ℕ) (writeOk : Bool) : RegisterIo := ⟨now, true, writeOk, .replicate 16 7, true⟩

/-- A database that works has the row. -/
theorem ok_is_durable_example :
    ∃ row, ((start .empty).handleRegisterPk (exampleIo 0 true) exampleRk exampleAddr "10.0.0.1" false).2.db.getPeer
        "123456789" = some row ∧ row.uuid = [1] ∧ row.pk = [2] :=
  ok_is_durable (s := start .empty) (by simp [PeerTable.Registered, PeerTable.getPeer, PeerTable.empty])
    (.nil _) ⟨.inl rfl, .inl rfl, by simp [start, PeerTable.empty]⟩ exampleAddr "10.0.0.1" false rfl

/-- The database refuses the first registration and takes anything afterwards. Both attempts are
answered OK, and there is no row. -/
theorem repeated_registration_lost :
    let first := (start .empty).handleRegisterPk (exampleIo 0 false) exampleRk exampleAddr "10.0.0.1" false
    let second := first.2.handleRegisterPk (exampleIo 8000 true) exampleRk exampleAddr "10.0.0.1" false
    first.1 = .ok .ok ∧ second.1 = .ok .ok ∧ second.2.db.getPeer "123456789" = none := by
  exact ⟨rfl, rfl, rfl⟩

end Registry

end RustDesk.Server
