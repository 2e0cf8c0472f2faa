import RustDesk.Net.AddrMangle
import RustDesk.Server.RendezvousProto
import Mathlib.Data.List.Nodup

/-!
# Peers in memory and in the database

References: `rustdesk-server/src/peer.rs` (`Peer`, `PeerMap`), `src/database.rs` (`get_peer`,
`insert_peer`, `update_pk`) and `src/rendezvous_server.rs` (`handle_register_pk`, `update_addr`).

Here every handler runs by itself; what several at once make of the map is the subject of
`PeerObjects`. Whether a database call succeeds, the clock and a fresh guid are inputs. Instants count
milliseconds.
-/

namespace RustDesk.Server

open Net

/-! ## The table -/

/-- A row of the table `peer`. Of `info` the only field is kept. -/
structure PeerRow where
  guid : List UInt8
  id : String
  uuid : List UInt8
  pk : List UInt8
  ip : String
deriving DecidableEq

/-- The table `peer`, with its primary key and its unique index. -/
structure PeerTable where
  rows : List PeerRow
  guids : (rows.map PeerRow.guid).Nodup
  ids : (rows.map PeerRow.id).Nodup
  guid_ne : ∀ row ∈ rows, row.guid ≠ []

namespace PeerTable

def empty : PeerTable := ⟨[], by simp, by simp, by simp⟩

/-- `get_peer`. -/
def getPeer (db : PeerTable) (id : String) : Option PeerRow := db.rows.find? fun row => row.id = id

/-- What `update_pk` writes to a row: all columns but the uuid. -/
def writePk (guid : List UInt8) (id : String) (pk : List UInt8) (ip : String) (row : PeerRow) :
    PeerRow :=
  if row.guid = guid then { row with id, pk, ip } else row

variable {row : PeerRow}

theorem eq_of_guid (db : PeerTable) {row' : PeerRow} (hrow : row ∈ db.rows)
    (hrow' : row' ∈ db.rows) (h : row.guid = row'.guid) : row = row' :=
  List.inj_on_of_nodup_map db.guids hrow hrow' h

theorem eq_of_id (db : PeerTable) {row' : PeerRow} (hrow : row ∈ db.rows)
    (hrow' : row' ∈ db.rows) (h : row.id = row'.id) : row = row' :=
  List.inj_on_of_nodup_map db.ids hrow hrow' h

/-- `insert_peer`, refused where the id or the guid is there already. The guid is a UUID of version
4. -/
def insertPeer (db : PeerTable) (guid : Vector UInt8 16) (id : String) (uuid pk : List UInt8)
    (ip : String) : Option PeerTable :=
  if h : id ∉ db.rows.map PeerRow.id ∧ guid.toList ∉ db.rows.map PeerRow.guid then
    some {
      rows := db.rows ++ [⟨guid.toList, id, uuid, pk, ip⟩]
      guids := by
        rw [List.map_append, List.map_singleton]
        exact List.nodup_append_comm.mp (List.nodup_cons.mpr ⟨h.2, db.guids⟩)
      ids := by
        rw [List.map_append, List.map_singleton]
        exact List.nodup_append_comm.mp (List.nodup_cons.mpr ⟨h.1, db.ids⟩)
      guid_ne := by
        intro row hrow hnil
        rcases List.mem_append.mp hrow with hrow | hrow
        · exact db.guid_ne row hrow hnil
        · obtain rfl := List.mem_singleton.mp hrow
          have hlen : guid.toList.length = 16 := guid.length_toList
          rw [show guid.toList = [] from hnil] at hlen
          cases hlen }
  else none

/-- `update_pk`, refused where another row has the id. -/
def updatePk (db : PeerTable) (guid : List UInt8) (id : String) (pk : List UInt8) (ip : String) :
    Option PeerTable :=
  if h : ∀ row ∈ db.rows, row.id = id → row.guid = guid then
    some {
      rows := db.rows.map (writePk guid id pk ip)
      guids := by
        have hguid : PeerRow.guid ∘ writePk guid id pk ip = PeerRow.guid := by
          funext row
          simp only [Function.comp_apply, writePk]
          split <;> rfl
        rw [List.map_map, hguid]
        exact db.guids
      ids := by
        rw [List.map_map]
        refine List.Nodup.map_on (fun row hrow row' hrow' heq => ?_) (.of_map _ db.guids)
        simp only [Function.comp_apply, writePk] at heq
        by_cases hg : row.guid = guid <;> by_cases hg' : row'.guid = guid
        · exact db.eq_of_guid hrow hrow' (hg.trans hg'.symm)
        · rw [if_pos hg, if_neg hg'] at heq
          exact absurd (h row' hrow' heq.symm) hg'
        · rw [if_neg hg, if_pos hg'] at heq
          exact absurd (h row hrow heq) hg
        · rw [if_neg hg, if_neg hg'] at heq
          exact db.eq_of_id hrow hrow' heq
      guid_ne := by
        intro row hrow
        obtain ⟨row', hrow', rfl⟩ := List.mem_map.mp hrow
        have hguid : (writePk guid id pk ip row').guid = row'.guid := by
          rw [writePk]
          split <;> rfl
        rw [hguid]
        exact db.guid_ne row' hrow' }
  else none

/-! ### Reading the table -/

variable {db db' : PeerTable} {id : String}

theorem getPeer_eq_some_iff : db.getPeer id = some row ↔ row ∈ db.rows ∧ row.id = id := by
  constructor
  · intro h
    exact ⟨List.mem_of_find?_eq_some h, by simpa using List.find?_some h⟩
  · rintro ⟨hrow, rfl⟩
    cases hfind : db.getPeer row.id with
    | none =>
      have hne := List.find?_eq_none.mp hfind row hrow
      simp at hne
    | some row' =>
      have hrow' := List.mem_of_find?_eq_some hfind
      have hid : row'.id = row.id := by simpa using List.find?_some hfind
      rw [db.eq_of_id hrow' hrow hid]

theorem getPeer_eq_none_iff : db.getPeer id = none ↔ id ∉ db.rows.map PeerRow.id := by
  simp [getPeer, List.find?_eq_none]

/-- What an insertion makes of the table. -/
theorem getPeer_insertPeer {guid : Vector UInt8 16} {id' : String} {uuid pk : List UInt8}
    {ip : String} (h : db.insertPeer guid id' uuid pk ip = some db') :
    db.getPeer id' = none ∧ ∀ id,
      db'.getPeer id = if id = id' then some ⟨guid.toList, id', uuid, pk, ip⟩ else db.getPeer id := by
  unfold insertPeer at h
  split at h
  next hfresh =>
    cases h
    refine ⟨getPeer_eq_none_iff.mpr hfresh.1, fun id => ?_⟩
    by_cases hid : id = id'
    · subst hid
      rw [if_pos rfl]
      exact getPeer_eq_some_iff.mpr ⟨by simp, rfl⟩
    · rw [if_neg hid]
      simp [getPeer, List.find?_append, Ne.symm hid]
  next => cases h

/-- An update of the row with the guid, where the row has the id already, goes through. -/
theorem exists_updatePk {guid : List UInt8} (hrow : db.getPeer id = some row)
    (hguid : row.guid = guid) (pk : List UInt8) (ip : String) :
    ∃ db', db.updatePk guid id pk ip = some db' := by
  obtain ⟨hmem, hid⟩ := getPeer_eq_some_iff.mp hrow
  have hunique : ∀ row' ∈ db.rows, row'.id = id → row'.guid = guid := by
    intro row' hrow' hid'
    rw [db.eq_of_id hrow' hmem (hid'.trans hid.symm)]
    exact hguid
  exact ⟨_, dif_pos hunique⟩

/-- What such an update makes of the table: the row keeps its uuid. -/
theorem getPeer_updatePk {guid pk : List UInt8} {id' ip : String}
    (hrow : db.getPeer id' = some row) (hguid : row.guid = guid)
    (h : db.updatePk guid id' pk ip = some db') (id : String) :
    db'.getPeer id = if id = id' then some { row with pk, ip } else db.getPeer id := by
  obtain ⟨hmem, rfl⟩ := getPeer_eq_some_iff.mp hrow
  unfold updatePk at h
  split at h
  next hunique =>
    cases h
    have hwrite : ∀ row' ∈ db.rows, (writePk guid row.id pk ip row').id = row'.id := by
      intro row' hrow'
      rw [writePk]
      split
      next hg => rw [db.eq_of_guid hrow' hmem (hg.trans hguid.symm)]
      next => rfl
    by_cases hid : id = row.id
    · rw [if_pos hid]
      refine getPeer_eq_some_iff.mpr ⟨List.mem_map.mpr ⟨row, hmem, ?_⟩, hid.symm⟩
      rw [writePk, if_pos hguid]
    · rw [if_neg hid]
      cases hget : db.getPeer id with
      | none =>
        rw [getPeer_eq_none_iff] at hget ⊢
        rintro hid'
        obtain ⟨row', hrow', rfl⟩ : ∃ row' ∈ db.rows, (writePk guid row.id pk ip row').id = id := by
          simpa using hid'
        exact hget (List.mem_map.mpr ⟨row', hrow', (hwrite row' hrow').symm⟩)
      | some row' =>
        obtain ⟨hrow', rfl⟩ := getPeer_eq_some_iff.mp hget
        refine getPeer_eq_some_iff.mpr ⟨List.mem_map.mpr ⟨row', hrow', ?_⟩, rfl⟩
        rw [writePk, if_neg]
        rintro hg
        exact hid (by rw [db.eq_of_guid hrow' hmem (hg.trans hguid.symm)])
  next => cases h

end PeerTable

/-! ## Peers in memory -/

/-- `get_expired_time`: an hour ago, or now where the clock does not reach back so far. -/
def getExpiredTime (now : ℕ) : ℕ := if 3_600_000 ≤ now then now - 3_600_000 else now

/-- A cast to `i32`. -/
def asI32 (n : ℤ) : ℤ := n.bmod (2 ^ 32)

/-- `Peer` as the map holds it. The instant in `regPk` counts milliseconds. -/
structure LivePeer extends Peer where
  socketAddr : SocketAddr
  lastRegTime : ℕ
  guid : List UInt8
deriving DecidableEq

namespace LivePeer

/-- `Peer::default`. -/
def default (now : ℕ) : LivePeer where
  uuid := []
  pk := []
  ip := ""
  regPk := (0, some (getExpiredTime now))
  socketAddr := ⟨.v4 #v[0, 0, 0, 0], 0⟩
  lastRegTime := getExpiredTime now
  guid := []

/-- The peer that `get` makes of a row. -/
def ofRow (row : PeerRow) (now : ℕ) : LivePeer :=
  { default now with guid := row.guid, uuid := row.uuid, pk := row.pk, ip := row.ip }

/-- `last_reg_time.elapsed().as_millis() as i32`. -/
def elapsed (peer : LivePeer) (now : ℕ) : ℤ := asI32 (now - peer.lastRegTime)

/-- The checks of `handle_register_pk` on the counter of registrations. -/
def countRegPk (peer : LivePeer) (now : ℕ) : Except RegisterPkResult (ℕ × Option ℕ) :=
  let expired : Bool := match peer.regPk.2 with
    | some last => (now - last) / 1000 > 6
    | none => true
  if expired then .ok (1, some now)
  else if peer.regPk.1 > 2 then .error .tooFrequent
  else .ok (peer.regPk.1 + 1, some now)

/-- The first write of `update_pk`. -/
def register (peer : LivePeer) (now : ℕ) (addr : SocketAddr) (uuid pk : List UInt8) (ip : String) :
    LivePeer :=
  { peer with socketAddr := addr, uuid, pk, lastRegTime := now, ip }

/-- `request_pk` of `update_addr`: a peer without a key, or with a new address, is to send its key.
`ip` is the text of the new address. -/
def requestPk (peer : LivePeer) (addr : SocketAddr) (ip : String) : Bool :=
  let ipChange : Bool :=
    (if peer.socketAddr.port ≠ 0 then addr.ip ≠ peer.socketAddr.ip else ip ≠ peer.ip) ∧
      ¬ addr.ip.isLoopback
  peer.pk = [] ∨ ipChange

/-- What `update_addr` makes of a known peer, and its answer. -/
def updateAddr (peer : LivePeer) (now : ℕ) (addr : SocketAddr) (ip : String) : Bool × LivePeer :=
  (peer.requestPk addr ip,
    if peer.requestPk addr ip then peer else { peer with socketAddr := addr, lastRegTime := now })

@[simp] theorem updateAddr_toPeer (peer : LivePeer) (now : ℕ) (addr : SocketAddr) (ip : String) :
    (peer.updateAddr now addr ip).2.toPeer = peer.toPeer := by
  simp only [updateAddr]
  split <;> rfl

@[simp] theorem updateAddr_guid (peer : LivePeer) (now : ℕ) (addr : SocketAddr) (ip : String) :
    (peer.updateAddr now addr ip).2.guid = peer.guid := by
  simp only [updateAddr]
  split <;> rfl

end LivePeer

/-- The map of the peers in memory, and the table behind it. -/
structure Registry where
  map : String → Option LivePeer
  db : PeerTable

/-- What a handler takes from outside: the clock, whether a database call to read or to write
succeeds, a fresh guid, and the answer of `check_ip_blocker`. -/
structure RegisterIo where
  now : ℕ
  getPeerOk : Bool
  writeOk : Bool
  guid : Vector UInt8 16
  ipAllowed : Bool

namespace Registry

def set (s : Registry) (id : String) (peer : LivePeer) : Registry :=
  { s with map := Function.update s.map id (some peer) }

/-- `get_in_memory`. -/
def getInMemory (s : Registry) (id : String) : Option LivePeer := s.map id

/-- `get_peer` as its callers in `PeerMap` take it: a call that fails reads as no row. -/
def readPeer (db : PeerTable) (ok : Bool) (id : String) : Option PeerRow :=
  if ok then db.getPeer id else none

/-- `get`. -/
def get (s : Registry) (now : ℕ) (getPeerOk : Bool) (id : String) : Option LivePeer × Registry :=
  match s.map id with
  | some peer => (some peer, s)
  | none =>
    match readPeer s.db getPeerOk id with
    | some row => (some (.ofRow row now), s.set id (.ofRow row now))
    | none => (none, s)

/-- `get_or`. -/
def getOr (s : Registry) (now : ℕ) (getPeerOk : Bool) (id : String) : LivePeer × Registry :=
  match s.get now getPeerOk id with
  | (some peer, s) => (peer, s)
  | (none, s) => (.default now, s.set id (.default now))

/-- `update_pk`, with whether the database took it. Memory is written first. -/
def updatePk (s : Registry) (io : RegisterIo) (id : String) (peer : LivePeer) (addr : SocketAddr)
    (uuid pk : List UInt8) (ip : String) : Bool × Registry :=
  let w := peer.register io.now addr uuid pk ip
  let s := s.set id w
  if w.guid = [] then
    match if io.writeOk then s.db.insertPeer io.guid id uuid pk ip else none with
    | some db => (true, { s with db }.set id { w with guid := io.guid.toList })
    | none => (false, s)
  else
    match if io.writeOk then s.db.updatePk w.guid id pk ip else none with
    | some db => (true, { s with db })
    | none => (false, s)

/-- `handle_register_pk`. What `update_pk` answers is not looked at. -/
def handleRegisterPk (s : Registry) (io : RegisterIo) (rk : RegisterPk) (addr : SocketAddr)
    (ip : String) (ws : Bool) : Except RegisterPkResult RegisterPkResult × Registry :=
  if rk.uuid = [] ∨ rk.pk = [] then (.error .invalidIdFormat, s)
  else if rk.id.utf8ByteSize < 6 then (.error .uuidMismatch, s)
  else if ¬ io.ipAllowed then (.error .tooFrequent, s)
  else
    let (peer, s) := s.getOr io.now io.getPeerOk rk.id
    match PeerMap.checkPeer peer.toPeer rk ip with
    | .error e => (.error e, s)
    | .ok changed =>
      match peer.countRegPk io.now with
      | .error e => (.error e, s)
      | .ok regPk =>
        let peer := { peer with regPk }
        let s := s.set rk.id peer
        if changed ∨ ws then (.ok .ok, (s.updatePk io rk.id peer addr rk.uuid rk.pk ip).2)
        else (.ok .ok, s)

/-- `update_addr`. -/
def updateAddr (s : Registry) (now : ℕ) (id : String) (addr : SocketAddr) (ip : String) :
    Bool × Registry :=
  match s.map id with
  | some old => ((old.updateAddr now addr ip).1, s.set id (old.updateAddr now addr ip).2)
  | none => (true, s)

end Registry

end RustDesk.Server
