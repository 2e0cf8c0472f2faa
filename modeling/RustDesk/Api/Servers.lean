import Mathlib.Data.Int.Order.Basic
import Mathlib.Data.List.Nodup
import Mathlib.Data.List.Sort

/-!
# The servers of the API and their published topology

References: `rustdesk-api/model/server.go`, `rustdesk-api/service/server.go` and
`ServerTopologyEntry` of `rustdesk-server/src/rendezvous_server.rs`.

A `ServerTable` is the server table with its ids. `topologyDocument` is what
`PublishServerTopologyToRedis` makes of the servers that are switched on, online or not, and
`ServerTopologyEntry.ofJson` is how hbbs reads an entry of it.
-/

namespace RustDesk.Api

/-- A row of the server table, with the columns that are published or select what is. -/
structure Server where
  id : ℕ
  name : String
  region : String
  relayServer : String
  wsHost : String
  supportWSS : Bool
  costWeight : ℤ
  isActive : Bool
  priority : ℤ
  isOnline : Bool
deriving DecidableEq

namespace Server

/-- Switched on and online: what the scheduler's `getAvailableServers` selects. -/
def Available (s : Server) : Prop := s.isActive = true ∧ s.isOnline = true

instance : DecidablePred Available := fun _ => inferInstanceAs (Decidable (_ ∧ _))

/-- What is stored for a new row. A zero value of a column with a default gives the default. -/
def withDefaults (s : Server) : Server :=
  { s with
    costWeight := if s.costWeight = 0 then 1 else s.costWeight
    isActive := true
    isOnline := true }

/-- The columns that `Update` writes. -/
def overwrite (s new : Server) : Server :=
  { new with id := s.id, isOnline := s.isOnline }

/-- `ORDER BY priority DESC, id ASC`. -/
def Before (s t : Server) : Prop := t.priority < s.priority ∨ s.priority = t.priority ∧ s.id ≤ t.id

instance : DecidableRel Before := fun _ _ => inferInstanceAs (Decidable (_ ∨ _ ∧ _))

instance : Std.Total Before where
  total := by
    intro s t
    unfold Before
    omega

instance : IsTrans Server Before where
  trans := by
    unfold Before
    intro s t u hst htu
    omega

end Server

/-- The server table. An id is given once, from `next` on. -/
structure ServerTable where
  rows : List Server
  next : ℕ
  ids : (rows.map (·.id)).Nodup
  given : ∀ s ∈ rows, s.id < next

/-- A call of `ServerService` that writes the table. -/
inductive ServerCall
  | create (server : Server)
  | update (server : Server)
  | delete (id : ℕ)
  | updateOnlineStatus (id : ℕ) (isOnline : Bool)
deriving DecidableEq

namespace ServerTable

def empty : ServerTable := ⟨[], 0, List.nodup_nil, by simp⟩

variable (db : ServerTable)

/-- `INSERT`. -/
def insert (s : Server) : ServerTable where
  rows := db.rows ++ [{ s with id := db.next }]
  next := db.next + 1
  ids := by
    rw [List.map_append, List.map_singleton]
    refine db.ids.append (List.nodup_singleton _) (List.disjoint_singleton.mpr fun hmem => ?_)
    obtain ⟨s, hs, hid⟩ := List.mem_map.mp hmem
    exact absurd hid (Nat.ne_of_lt (db.given s hs))
  given := by
    intro s hs
    rcases List.mem_append.mp hs with hs | hs
    · exact Nat.lt_succ_of_lt (db.given s hs)
    · rw [List.mem_singleton.mp hs]
      exact Nat.lt_succ_self _

/-- `UPDATE ... WHERE id = ?`, which leaves the id. -/
def modify (id : ℕ) (f : Server → Server) : ServerTable where
  rows := db.rows.map fun s => if s.id = id then { f s with id := s.id } else s
  next := db.next
  ids := by
    have hids : (db.rows.map fun s => if s.id = id then { f s with id := s.id } else s).map (·.id) =
        db.rows.map (·.id) := by
      rw [List.map_map]
      refine List.map_congr_left fun s _ => ?_
      simp only [Function.comp]
      split <;> rfl
    rw [hids]
    exact db.ids
  given := by
    intro s hs
    obtain ⟨s', hs', rfl⟩ := List.mem_map.mp hs
    have hlt := db.given s' hs'
    split <;> exact hlt

/-- `DELETE ... WHERE id = ?`. -/
def remove (id : ℕ) : ServerTable where
  rows := db.rows.filter (·.id ≠ id)
  next := db.next
  ids := db.ids.sublist (List.filter_sublist.map _)
  given := fun s hs => db.given s (List.mem_of_mem_filter hs)

/-- The statement a call writes with. -/
def write : ServerCall → ServerTable
  | .create server => db.insert server.withDefaults
  | .update server => db.modify server.id fun s => s.overwrite server
  | .delete id => db.remove id
  | .updateOnlineStatus id isOnline => db.modify id fun s => { s with isOnline := isOnline }

/-- `GetActiveServers`. -/
def getActiveServers : List Server := (db.rows.filter (·.isActive)).insertionSort Server.Before

theorem eq_of_id {s t : Server} (hs : s ∈ db.rows) (ht : t ∈ db.rows) (hid : s.id = t.id) : s = t :=
  List.inj_on_of_nodup_map db.ids hs ht hid

theorem mem_getActiveServers {s : Server} : s ∈ db.getActiveServers ↔ s ∈ db.rows ∧ s.isActive = true := by
  unfold getActiveServers
  rw [List.mem_insertionSort, List.mem_filter]

theorem getActiveServers_ordered : db.getActiveServers.Pairwise Server.Before :=
  List.pairwise_insertionSort _ _

end ServerTable

/-! ## The published document -/

/-- A value of a member of a JSON object. -/
inductive JsonScalar
  | str (s : String)
  | num (n : ℤ)
  | bool (b : Bool)
deriving DecidableEq

abbrev JsonObject := List (String × JsonScalar)

/-- A `ServerTopologyEntry`, of Go and of Rust. -/
structure ServerTopologyEntry where
  name : String
  region : String
  relayServer : String
  priority : ℤ
  costWeight : ℤ
  supportWss : Bool
  wsHost : String
deriving DecidableEq

namespace ServerTopologyEntry

def ofServer (s : Server) : ServerTopologyEntry where
  name := s.name
  region := s.region
  relayServer := s.relayServer
  priority := s.priority
  costWeight := s.costWeight
  supportWss := s.supportWSS
  wsHost := s.wsHost

/-- `json.Marshal`, which omits an empty `ws_host`. -/
def toJson (e : ServerTopologyEntry) : JsonObject :=
  [("name", .str e.name), ("region", .str e.region), ("relay_server", .str e.relayServer),
    ("priority", .num e.priority), ("cost_weight", .num e.costWeight),
    ("support_wss", .bool e.supportWss)] ++
    if e.wsHost = "" then [] else [("ws_host", .str e.wsHost)]

/-- A number is an `i32`. -/
def IsI32 (n : ℤ) : Prop := -2147483648 ≤ n ∧ n ≤ 2147483647

instance : DecidablePred IsI32 := fun _ => inferInstanceAs (Decidable (_ ∧ _))

def strField (o : JsonObject) (field : String) : Option String :=
  match o.lookup field with
  | some (.str s) => some s
  | _ => none

def i32Field (o : JsonObject) (field : String) : Option ℤ :=
  match o.lookup field with
  | some (.num n) => if IsI32 n then some n else none
  | _ => none

/-- `serde_json`'s reading of an entry: `support_wss` and `ws_host` have defaults. -/
def ofJson (o : JsonObject) : Option ServerTopologyEntry := do
  let name ← strField o "name"
  let region ← strField o "region"
  let relayServer ← strField o "relay_server"
  let priority ← i32Field o "priority"
  let costWeight ← i32Field o "cost_weight"
  let supportWss ←
    match o.lookup "support_wss" with
    | none => some false
    | some (.bool b) => some b
    | some _ => none
  let wsHost ←
    match o.lookup "ws_host" with
    | none => some ""
    | some (.str s) => some s
    | some _ => none
  return ⟨name, region, relayServer, priority, costWeight, supportWss, wsHost⟩

/-- hbbs reads what the API writes, if its numbers are `i32`. -/
theorem ofJson_toJson (e : ServerTopologyEntry) :
    ofJson e.toJson = if IsI32 e.priority ∧ IsI32 e.costWeight then some e else none := by
  obtain ⟨name, region, relayServer, priority, costWeight, supportWss, wsHost⟩ := e
  by_cases hhost : wsHost = "" <;> by_cases hp : IsI32 priority <;> by_cases hc : IsI32 costWeight <;>
    simp [ofJson, toJson, strField, i32Field, List.lookup_cons, hhost, hp, hc]

end ServerTopologyEntry

/-- The document under `rustdesk:server_topology`. -/
def topologyDocument (servers : List Server) : List JsonObject :=
  servers.map fun s => (ServerTopologyEntry.ofServer s).toJson

end RustDesk.Api
