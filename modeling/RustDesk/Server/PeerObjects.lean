import RustDesk.Common.Run
import RustDesk.Server.Registry

/-!
# Handlers that share the peers

References: `rustdesk-server/src/peer.rs` (`PeerMap::get`, `get_or`, `update_pk`) and
`src/rendezvous_server.rs` (`handle_register_pk`, `update_addr`).

The server is cloned for every connection, and the clones share the map of peers, the peers in it
(`LockPeer`, a lock of its own for each) and the database. A handler takes one of these locks for one
section at a time, or makes one database call, and between two of them others may have theirs: `act`
is one such section. A handler that took a peer out of the map keeps it, whatever becomes of the map.

The peers made for an id are numbered, so that a handler holds the id and a number.
-/

namespace RustDesk.Server

open Net

/-- What the handlers share: the map, the peers made for each id, how many these are, and the table. -/
structure Shared where
  map : String → Option ℕ
  object : String → ℕ → LivePeer
  made : String → ℕ
  db : PeerTable

namespace Shared

/-- A new peer is made and entered in the map. -/
def enter (s : Shared) (id : String) (peer : LivePeer) : Shared :=
  { s with
    map := Function.update s.map id (some (s.made id))
    object := Function.update s.object id (Function.update (s.object id) (s.made id) peer)
    made := Function.update s.made id (s.made id + 1) }

/-- A peer is written through a handler's own reference. -/
def write (s : Shared) (id : String) (r : ℕ) (peer : LivePeer) : Shared :=
  { s with object := Function.update s.object id (Function.update (s.object id) r peer) }

/-- `get_in_memory`. -/
def getInMemory (s : Shared) (id : String) : Option LivePeer := (s.map id).map (s.object id)

end Shared

/-- What a handler was started for: a registration, a heartbeat (`update_addr`), or a peer that it only
reads (`get`). -/
inductive PeerRequest
  | registerPk (rk : RegisterPk) (addr : SocketAddr) (ip : String) (ws : Bool)
  | registerPeer (id : String) (addr : SocketAddr) (ip : String)
  | get (id : String)

namespace PeerRequest

def id : PeerRequest → String
  | .registerPk rk _ _ _ => rk.id
  | .registerPeer id _ _ => id
  | .get id => id

/-- The uuid of a registration. -/
def uuid : PeerRequest → List UInt8
  | .registerPk rk _ _ _ => rk.uuid
  | _ => []

end PeerRequest

/-- The section that a handler comes to next. -/
inductive HandlerAt
  | start
  /-- The map is read, in `get` or in `update_addr`. -/
  | read
  | fromDb
  /-- `get` enters the peer that it made of a row. -/
  | insert (row : PeerRow)
  | getOr
  | check (peer : ℕ)
  | readRegPk (peer : ℕ) (changed : Bool)
  | writeRegPk (peer : ℕ) (changed : Bool) (regPk : ℕ × Option ℕ)
  | updatePk (peer : ℕ)
  | dbWrite (peer : ℕ) (guid : List UInt8)
  | setGuid (peer : ℕ) (guid : List UInt8)
  | updateAddr (peer : ℕ)
  /-- A peer is read that `get` has returned. -/
  | holding (peer : ℕ)
  | answered (res : Except RegisterPkResult RegisterPkResult)
  | done

namespace HandlerAt

/-- The peer that the handler holds. -/
def peer : HandlerAt → Option ℕ
  | .check r | .readRegPk r _ | .writeRegPk r _ _ | .updatePk r | .dbWrite r _ | .setGuid r _
  | .updateAddr r | .holding r => some r
  | _ => none

/-- The handler is between the check of the uuid and the write of its own. -/
def Between : HandlerAt → Prop
  | .readRegPk .. | .writeRegPk .. | .updatePk .. => True
  | _ => False

end HandlerAt

namespace PeerRequest

/-- Where a handler goes on with the peer that it was looking for. -/
def withPeer : PeerRequest → ℕ → HandlerAt
  | .registerPk .., r => .check r
  | .registerPeer .., r => .updateAddr r
  | .get _, r => .holding r

/-- One section of a handler. -/
def act (io : RegisterIo) (s : Shared) (req : PeerRequest) : HandlerAt → Option (Shared × HandlerAt)
  | .start =>
    match req with
    | .registerPk rk _ _ _ =>
      if rk.uuid = [] ∨ rk.pk = [] then some (s, .answered (.error .invalidIdFormat))
      else if rk.id.utf8ByteSize < 6 then some (s, .answered (.error .uuidMismatch))
      else if ¬ io.ipAllowed then some (s, .answered (.error .tooFrequent))
      else some (s, .read)
    | _ => some (s, .read)
  | .read =>
    match s.map req.id with
    | some r => some (s, req.withPeer r)
    | none =>
      match req with
      | .registerPeer .. => some (s, .done)
      | _ => some (s, .fromDb)
  | .fromDb =>
    match Registry.readPeer s.db io.getPeerOk req.id with
    | some row => some (s, .insert row)
    | none =>
      match req with
      | .registerPk .. => some (s, .getOr)
      | _ => some (s, .done)
  | .insert row =>
    -- the map is not looked at again
    some (s.enter req.id (.ofRow row io.now), req.withPeer (s.made req.id))
  | .getOr =>
    match s.map req.id with
    | some r => some (s, req.withPeer r)
    | none => some (s.enter req.id (.default io.now), req.withPeer (s.made req.id))
  | .check r =>
    match req with
    | .registerPk rk _ ip _ =>
      match PeerMap.checkPeer (s.object rk.id r).toPeer rk ip with
      | .error e => some (s, .answered (.error e))
      | .ok changed => some (s, .readRegPk r changed)
    | _ => none
  | .readRegPk r changed =>
    match (s.object req.id r).countRegPk io.now with
    | .error e => some (s, .answered (.error e))
    | .ok regPk => some (s, .writeRegPk r changed regPk)
  | .writeRegPk r changed regPk =>
    match req with
    | .registerPk rk _ _ ws =>
      let s := s.write rk.id r { s.object rk.id r with regPk }
      if changed ∨ ws then some (s, .updatePk r) else some (s, .answered (.ok .ok))
    | _ => none
  | .updatePk r =>
    match req with
    | .registerPk rk addr ip _ =>
      some (s.write rk.id r ((s.object rk.id r).register io.now addr rk.uuid rk.pk ip),
        .dbWrite r (s.object rk.id r).guid)
    | _ => none
  | .dbWrite r guid =>
    match req with
    | .registerPk rk _ ip _ =>
      if guid = [] then
        match if io.writeOk then s.db.insertPeer io.guid rk.id rk.uuid rk.pk ip else none with
        | some db => some ({ s with db }, .setGuid r io.guid.toList)
        | none => some (s, .answered (.ok .ok))
      else
        match if io.writeOk then s.db.updatePk guid rk.id rk.pk ip else none with
        | some db => some ({ s with db }, .answered (.ok .ok))
        | none => some (s, .answered (.ok .ok))
    | _ => none
  | .setGuid r guid =>
    some (s.write req.id r { s.object req.id r with guid }, .answered (.ok .ok))
  | .updateAddr r =>
    match req with
    | .registerPeer id addr ip =>
      some (s.write id r ((s.object id r).updateAddr io.now addr ip).2, .done)
    | _ => none
  | .holding _ => some (s, .done)
  | .answered _ | .done => none

end PeerRequest

/-! ## What a section does -/

/-- The sections, one by one. -/
inductive Acts (io : RegisterIo) (s : Shared) :
    PeerRequest → HandlerAt → Shared → HandlerAt → Prop
  | refuse (req : PeerRequest) (e : RegisterPkResult) : Acts io s req .start s (.answered (.error e))
  | begin (req : PeerRequest) (huuid : ∀ rk addr ip ws, req = .registerPk rk addr ip ws → rk.uuid ≠ []) :
      Acts io s req .start s .read
  | found (req : PeerRequest) (r : ℕ) (hmap : s.map req.id = some r) :
      Acts io s req .read s (req.withPeer r)
  | missing (req : PeerRequest) (pos : HandlerAt) (hpos : pos = .fromDb ∨ pos = .done) :
      Acts io s req .read s pos
  | row (req : PeerRequest) (row : PeerRow) (hrow : s.db.getPeer req.id = some row) :
      Acts io s req .fromDb s (.insert row)
  | noRow (req : PeerRequest) (pos : HandlerAt) (hpos : pos = .getOr ∨ pos = .done) :
      Acts io s req .fromDb s pos
  | insert (req : PeerRequest) (row : PeerRow) :
      Acts io s req (.insert row) (s.enter req.id (.ofRow row io.now)) (req.withPeer (s.made req.id))
  | getOrFound (req : PeerRequest) (r : ℕ) (hmap : s.map req.id = some r) :
      Acts io s req .getOr s (req.withPeer r)
  | getOrNew (req : PeerRequest) (hmap : s.map req.id = none) :
      Acts io s req .getOr (s.enter req.id (.default io.now)) (req.withPeer (s.made req.id))
  | checked (rk : RegisterPk) (addr : SocketAddr) (ip : String) (ws : Bool) (r : ℕ) (changed : Bool)
      (hcheck : PeerMap.checkPeer (s.object rk.id r).toPeer rk ip = .ok changed) :
      Acts io s (.registerPk rk addr ip ws) (.check r) s (.readRegPk r changed)
  | checkFailed (req : PeerRequest) (r : ℕ) (e : RegisterPkResult) :
      Acts io s req (.check r) s (.answered (.error e))
  | counted (req : PeerRequest) (r : ℕ) (changed : Bool) (regPk : ℕ × Option ℕ) :
      Acts io s req (.readRegPk r changed) s (.writeRegPk r changed regPk)
  | countFailed (req : PeerRequest) (r : ℕ) (changed : Bool) (e : RegisterPkResult) :
      Acts io s req (.readRegPk r changed) s (.answered (.error e))
  | toUpdate (req : PeerRequest) (r : ℕ) (changed : Bool) (regPk : ℕ × Option ℕ) :
      Acts io s req (.writeRegPk r changed regPk)
        (s.write req.id r { s.object req.id r with regPk }) (.updatePk r)
  | unchanged (req : PeerRequest) (r : ℕ) (regPk : ℕ × Option ℕ) :
      Acts io s req (.writeRegPk r false regPk)
        (s.write req.id r { s.object req.id r with regPk }) (.answered (.ok .ok))
  | update (rk : RegisterPk) (addr : SocketAddr) (ip : String) (ws : Bool) (r : ℕ) :
      Acts io s (.registerPk rk addr ip ws) (.updatePk r)
        (s.write rk.id r ((s.object rk.id r).register io.now addr rk.uuid rk.pk ip))
        (.dbWrite r (s.object rk.id r).guid)
  | dbInsert (rk : RegisterPk) (addr : SocketAddr) (ip : String) (ws : Bool) (r : ℕ) (db : PeerTable)
      (hdb : s.db.insertPeer io.guid rk.id rk.uuid rk.pk ip = some db) :
      Acts io s (.registerPk rk addr ip ws) (.dbWrite r []) { s with db } (.setGuid r io.guid.toList)
  | dbUpdate (rk : RegisterPk) (addr : SocketAddr) (ip : String) (ws : Bool) (r : ℕ) (guid : List UInt8)
      (hguid : guid ≠ []) (db : PeerTable) (hdb : s.db.updatePk guid rk.id rk.pk ip = some db) :
      Acts io s (.registerPk rk addr ip ws) (.dbWrite r guid) { s with db } (.answered (.ok .ok))
  | dbFailed (req : PeerRequest) (r : ℕ) (guid : List UInt8) :
      Acts io s req (.dbWrite r guid) s (.answered (.ok .ok))
  | setGuid (req : PeerRequest) (r : ℕ) (guid : List UInt8) :
      Acts io s req (.setGuid r guid) (s.write req.id r { s.object req.id r with guid })
        (.answered (.ok .ok))
  | updateAddr (id : String) (addr : SocketAddr) (ip : String) (r : ℕ) :
      Acts io s (.registerPeer id addr ip) (.updateAddr r)
        (s.write id r ((s.object id r).updateAddr io.now addr ip).2) .done
  | release (req : PeerRequest) (r : ℕ) : Acts io s req (.holding r) s .done

theorem PeerRequest.acts {io : RegisterIo} {s s' : Shared} {req : PeerRequest} {pos pos' : HandlerAt}
    (h : req.act io s pos = some (s', pos')) : Acts io s req pos s' pos' := by
  cases pos with
  | start =>
    cases req with
    | registerPk rk addr ip ws =>
      simp only [act] at h
      by_cases hset : rk.uuid = [] ∨ rk.pk = []
      · simp only [if_pos hset] at h
        cases h
        exact .refuse _ _
      by_cases hid : rk.id.utf8ByteSize < 6
      · simp only [if_neg hset, if_pos hid] at h
        cases h
        exact .refuse _ _
      by_cases hip : ¬ io.ipAllowed = true
      · simp only [if_neg hset, if_neg hid, if_pos hip] at h
        cases h
        exact .refuse _ _
      · simp only [if_neg hset, if_neg hid, if_neg hip] at h
        cases h
        refine .begin _ ?_
        rintro rk' addr' ip' ws' ⟨⟩
        exact (not_or.mp hset).1
    | registerPeer | get =>
      cases h
      exact .begin _ (by simp)
  | read =>
    cases hmap : s.map req.id with
    | some r =>
      simp only [act, hmap] at h
      cases h
      exact .found _ r hmap
    | none =>
      cases req <;>
      · simp only [act, hmap] at h
        cases h
        exact .missing _ _ (by simp)
  | fromDb =>
    cases hread : Registry.readPeer s.db io.getPeerOk req.id with
    | some row =>
      simp only [act, hread] at h
      cases h
      refine .row _ row ?_
      cases hok : io.getPeerOk <;> simp_all [Registry.readPeer]
    | none =>
      cases req <;>
      · simp only [act, hread] at h
        cases h
        exact .noRow _ _ (by simp)
  | insert row =>
    simp only [act] at h
    cases h
    exact .insert _ row
  | getOr =>
    cases hmap : s.map req.id with
    | some r =>
      simp only [act, hmap] at h
      cases h
      exact .getOrFound _ r hmap
    | none =>
      simp only [act, hmap] at h
      cases h
      exact .getOrNew _ hmap
  | check r =>
    cases req with
    | registerPk rk addr ip ws =>
      cases hcheck : PeerMap.checkPeer (s.object rk.id r).toPeer rk ip with
      | error e =>
        simp only [act, hcheck] at h
        cases h
        exact .checkFailed _ r e
      | ok changed =>
        simp only [act, hcheck] at h
        cases h
        exact .checked rk addr ip ws r changed hcheck
    | _ => simp [act] at h
  | readRegPk r changed =>
    cases hcount : (s.object req.id r).countRegPk io.now with
    | error e =>
      simp only [act, hcount] at h
      cases h
      exact .countFailed _ r changed e
    | ok regPk =>
      simp only [act, hcount] at h
      cases h
      exact .counted _ r changed regPk
  | writeRegPk r changed regPk =>
    cases req with
    | registerPk rk addr ip ws =>
      by_cases hupdate : changed = true ∨ ws = true
      · simp only [act, if_pos hupdate] at h
        cases h
        exact .toUpdate (.registerPk rk addr ip ws) r changed regPk
      · simp only [act, if_neg hupdate] at h
        cases h
        obtain rfl : changed = false := by simpa using (not_or.mp hupdate).1
        exact .unchanged (.registerPk rk addr ip ws) r regPk
    | _ => simp [act] at h
  | updatePk r =>
    cases req with
    | registerPk rk addr ip ws =>
      simp only [act] at h
      cases h
      exact .update rk addr ip ws r
    | _ => simp [act] at h
  | dbWrite r guid =>
    cases req with
    | registerPk rk addr ip ws =>
      by_cases hguid : guid = []
      · subst hguid
        cases hdb : if io.writeOk then s.db.insertPeer io.guid rk.id rk.uuid rk.pk ip else none with
        | some db =>
          simp only [act, if_true, hdb] at h
          cases h
          refine .dbInsert rk addr ip ws r db ?_
          cases hok : io.writeOk <;> simp_all
        | none =>
          simp only [act, if_true, hdb] at h
          cases h
          exact .dbFailed _ r []
      · cases hdb : if io.writeOk then s.db.updatePk guid rk.id rk.pk ip else none with
        | some db =>
          simp only [act, if_neg hguid, hdb] at h
          cases h
          refine .dbUpdate rk addr ip ws r guid hguid db ?_
          cases hok : io.writeOk <;> simp_all
        | none =>
          simp only [act, if_neg hguid, hdb] at h
          cases h
          exact .dbFailed _ r guid
    | _ => simp [act] at h
  | setGuid r guid =>
    simp only [act] at h
    cases h
    exact .setGuid _ r guid
  | updateAddr r =>
    cases req with
    | registerPeer id addr ip =>
      simp only [act] at h
      cases h
      exact .updateAddr id addr ip r
    | _ => simp [act] at h
  | holding r =>
    simp only [act] at h
    cases h
    exact .release _ r
  | answered | done => simp [act] at h

/-- A handler: what it was started for, and where it stands. -/
structure Handler where
  req : PeerRequest
  pos : HandlerAt

/-- The server with its handlers. -/
structure PeerServer (τ : Type*) where
  shared : Shared
  handler : τ → Option Handler

inductive PeerEvent (τ : Type*)
  | spawn (i : τ) (req : PeerRequest)
  | act (i : τ) (io : RegisterIo)

namespace PeerServer

variable {τ : Type*}

/-- A server that has just started. -/
def start (db : PeerTable) (now : ℕ) : PeerServer τ where
  shared := ⟨fun _ => none, fun _ _ => .default now, fun _ => 0, db⟩
  handler := fun _ => none

variable [DecidableEq τ]

def step (s : PeerServer τ) : PeerEvent τ → Option (PeerServer τ)
  | .spawn i req =>
    match s.handler i with
    | none => some { s with handler := Function.update s.handler i (some ⟨req, .start⟩) }
    | some _ => none
  | .act i io =>
    match s.handler i with
    | some h =>
      (h.req.act io s.shared h.pos).map fun (shared, pos) =>
        { shared, handler := Function.update s.handler i (some ⟨h.req, pos⟩) }
    | none => none

theorem spawn_cases {s t : PeerServer τ} {i : τ} {req : PeerRequest} (h : step s (.spawn i req) = some t) :
    s.handler i = none ∧ t = { s with handler := Function.update s.handler i (some ⟨req, .start⟩) } := by
  cases hi : s.handler i with
  | none =>
    simp only [step, hi, Option.some.injEq] at h
    exact ⟨rfl, h.symm⟩
  | some h' => simp [step, hi] at h

theorem act_cases {s t : PeerServer τ} {i : τ} {io : RegisterIo} (h : step s (.act i io) = some t) :
    ∃ req pos shared pos', s.handler i = some ⟨req, pos⟩ ∧ Acts io s.shared req pos shared pos' ∧
      t = { shared, handler := Function.update s.handler i (some ⟨req, pos'⟩) } := by
  cases hi : s.handler i with
  | none => simp [step, hi] at h
  | some h' =>
    obtain ⟨req, pos⟩ := h'
    simp only [step, hi, Option.map_eq_some_iff] at h
    obtain ⟨⟨shared, pos'⟩, hact, rfl⟩ := h
    exact ⟨req, pos, shared, pos', rfl, req.acts hact, rfl⟩

end PeerServer

end RustDesk.Server
