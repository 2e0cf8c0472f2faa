import RustDesk.Api.Servers
import RustDesk.Net.AddrMangle

/-!
# The relay hbbs chooses

References: `rustdesk-server/src/rendezvous_server.rs` (`ip_to_region`, `score_server`,
`fetch_server_topology`, `get_relay_server`, `legacy_relay_server`) and
`rustdesk-api/service/server.go`.

hbbs takes the published server with the best score, the first one of these if there are several. The API
publishes a server that is offline as long as it is switched on, and the document does not say which ones
are: `avoids_unavailable_iff` says when hbbs keeps away from them all the same.
-/

namespace RustDesk.Server

open RustDesk.Net RustDesk.Api

/-! ## Scores -/

/-- The networks of `build_cn_cidrs` are all `/8`: their first octets. -/
def cnCidrs : List ℕ :=
  [1, 14, 27, 36, 42, 49, 58, 59, 60, 61, 101, 106, 110, 111, 112, 113, 114, 115, 116, 117, 118, 119,
    120, 121, 122, 123, 124, 125, 175, 180, 182, 183, 202, 203, 210, 211, 218, 219, 220, 221, 222, 223]

/-- `Ipv4Addr::is_private`. -/
def isPrivateV4 (octets : List UInt8) : Bool :=
  match octets.map (·.toNat) with
  | a :: b :: _ => a = 10 || a = 172 && (16 ≤ b && b ≤ 31) || a = 192 && b = 168
  | _ => false

def ipToRegion (ip : IpAddr) (cnCidrs : List ℕ) : String :=
  match ip with
  | .v4 octets =>
    if ip.isLoopback || isPrivateV4 octets.toList then "INTERNAL"
    else if cnCidrs.any fun net => (octets.toList.map (·.toNat)).head? = some net then "CN"
    else "OTHER"
  | .v6 _ => if ip.isLoopback then "INTERNAL" else "OTHER"

/-- Arithmetic on `i32`. -/
def wrapI32 (n : ℤ) : ℤ := n.bmod 4294967296

def scoreServer (server : ServerTopologyEntry) (regionA regionB : String) : ℤ :=
  let score := 0
  let srvRegion := server.region
  let score := if srvRegion = regionA then score + 100 else score
  let score := if srvRegion = regionB then score + 100 else score
  let score := if regionA = regionB ∧ srvRegion = regionA then score + 200 else score
  let score := wrapI32 (score + wrapI32 (min server.priority 100 * 10))
  wrapI32 (score - wrapI32 (server.costWeight * 5))

/-! ## The choice -/

/-- `fetch_server_topology`. -/
def fetchServerTopology (document : Option (List JsonObject)) : Option (List ServerTopologyEntry) :=
  document.bind fun entries => entries.mapM ServerTopologyEntry.ofJson

/-- `legacy_relay_server`, with the rotation counter before the call. -/
def legacyRelayServer (relayServers : List String) (rotation : ℕ) : String :=
  match relayServers with
  | [] => ""
  | [relayServer] => relayServer
  | _ => relayServers.getD (rotation % relayServers.length) ""

/-- A stable sort by score, the best first. -/
def sortByScore (scored : List (ℤ × ServerTopologyEntry)) : List (ℤ × ServerTopologyEntry) :=
  scored.insertionSort fun a b => b.1 ≤ a.1

def getRelayServer (topology : List ServerTopologyEntry) (relayServers : List String) (rotation : ℕ)
    (pa pb : IpAddr) : String :=
  if topology.isEmpty then legacyRelayServer relayServers rotation
  else
    let regionA := ipToRegion pa cnCidrs
    let regionB := ipToRegion pb cnCidrs
    let scored := topology.map fun s => (scoreServer s regionA regionB, s)
    match (sortByScore scored).head? with
    | some (_, s) => s.relayServer
    | none => legacyRelayServer relayServers rotation

/-! ## The first of the best -/

section Best

variable {α : Type*} {f : α → ℤ} {R : α → α → Prop} {l : List α} {m : α}

/-- The head of a stable sort is the first of the best. -/
theorem head?_insertionSort (hl : l.Pairwise R) (hm : (l.insertionSort fun a b => f b ≤ f a).head? = some m) :
    m ∈ l ∧ ∀ t ∈ l, t = m ∨ f t < f m ∨ f t = f m ∧ R m t := by
  induction l generalizing m with
  | nil => simp at hm
  | cons a l ih =>
    obtain ⟨ha, hl'⟩ := List.pairwise_cons.mp hl
    rw [List.insertionSort_cons] at hm
    cases hsorted : l.insertionSort (fun a b => f b ≤ f a) with
    | nil =>
      have hnil : l = [] := List.perm_nil.mp (hsorted ▸ (List.perm_insertionSort _ l).symm)
      rw [hsorted, List.orderedInsert_nil, List.head?_cons] at hm
      cases hm
      subst hnil
      simp
    | cons b rest =>
      obtain ⟨hb, hbest⟩ := ih hl' (by rw [hsorted, List.head?_cons])
      rw [hsorted, List.orderedInsert_cons] at hm
      split at hm
      · next hab =>
        -- the new one goes first, also if it only draws level
        cases hm
        refine ⟨List.mem_cons_self .., fun t ht => ?_⟩
        rcases List.mem_cons.mp ht with rfl | ht
        · exact .inl rfl
        · have hRt := ha t ht
          rcases hbest t ht with rfl | hlt | ⟨heq, -⟩
          · rcases Int.lt_or_eq_of_le hab with hlt | heq
            · exact .inr (.inl hlt)
            · exact .inr (.inr ⟨heq, hRt⟩)
          · exact .inr (.inl (by omega))
          · rcases Int.lt_or_eq_of_le hab with hlt | heq'
            · exact .inr (.inl (by omega))
            · exact .inr (.inr ⟨by omega, hRt⟩)
      · next hab =>
        cases hm
        refine ⟨List.mem_cons_of_mem _ hb, fun t ht => ?_⟩
        rcases List.mem_cons.mp ht with rfl | ht
        · exact .inr (.inl (by omega))
        · exact hbest t ht

end Best

/-! ## Histories -/

/-- How far a call of the API gets: its statement fails, it is not published, or it is. -/
inductive CallOutcome
  | failed
  | unpublished
  | published
deriving DecidableEq

/-- The server table, and the document in Redis. -/
structure ApiStore where
  db : ServerTable
  document : Option (List JsonObject)

namespace ApiStore

def start : ApiStore := ⟨.empty, none⟩

/-- A call, which publishes what it finds after its statement. -/
def step (store : ApiStore) : ServerCall × CallOutcome → ApiStore
  | (_, .failed) => store
  | (call, .unpublished) => { store with db := store.db.write call }
  | (call, .published) =>
    let db := store.db.write call
    ⟨db, some (topologyDocument db.getActiveServers)⟩

/-- The store after a history of calls, the first one first. -/
def after (history : List (ServerCall × CallOutcome)) : ApiStore := history.foldl step start

theorem document_of_published (history : List (ServerCall × CallOutcome)) (last : ServerCall) :
    (after (history ++ [(last, .published)])).document =
      some (topologyDocument (after (history ++ [(last, .published)])).db.getActiveServers) := by
  unfold after
  rw [List.foldl_append]
  rfl

end ApiStore

/-- What hbbs fetches is what the API selected. -/
theorem fetchServerTopology_eq {servers : List Server} {topology : List ServerTopologyEntry}
    (hfetch : fetchServerTopology (some (topologyDocument servers)) = some topology) :
    topology = servers.map ServerTopologyEntry.ofServer := by
  change (topologyDocument servers).mapM ServerTopologyEntry.ofJson = some topology at hfetch
  unfold topologyDocument at hfetch
  induction servers generalizing topology with
  | nil => exact (Option.some.inj hfetch).symm
  | cons s servers ih =>
    rw [List.map_cons, List.mapM_cons, ServerTopologyEntry.ofJson_toJson] at hfetch
    split at hfetch
    · obtain ⟨rest, hrest, htopology⟩ := Option.bind_eq_some_iff.mp hfetch
      cases hrest
      obtain ⟨entries, hentries, htopology⟩ := Option.bind_eq_some_iff.mp htopology
      cases htopology
      rw [ih hentries, List.map_cons]
    · cases hfetch

/-- The score of a server for two clients. -/
def scoreFor (pa pb : IpAddr) (s : Api.Server) : ℤ :=
  scoreServer (.ofServer s) (ipToRegion pa cnCidrs) (ipToRegion pb cnCidrs)

/-- By score, then by priority, then by id. -/
def Ahead (pa pb : IpAddr) (s t : Api.Server) : Prop :=
  scoreFor pa pb t < scoreFor pa pb s ∨ scoreFor pa pb t = scoreFor pa pb s ∧ s.Before t

instance (pa pb : IpAddr) (s t : Api.Server) : Decidable (Ahead pa pb s t) :=
  inferInstanceAs (Decidable (_ ∨ _ ∧ _))

/-- A server is ahead of all others that are switched on. -/
def Foremost (db : ServerTable) (pa pb : IpAddr) (s : Api.Server) : Prop :=
  s ∈ db.rows ∧ s.isActive = true ∧ ∀ t ∈ db.rows, t.isActive = true → t = s ∨ Ahead pa pb s t

variable {db : ServerTable} {pa pb : IpAddr} {s t : Api.Server}

theorem Foremost.eq (hs : Foremost db pa pb s) (ht : Foremost db pa pb t) : s = t := by
  rcases hs.2.2 t ht.1 ht.2.1 with rfl | hst
  · rfl
  · rcases ht.2.2 s hs.1 hs.2.1 with heq | hts
    · exact heq
    · refine db.eq_of_id hs.1 ht.1 ?_
      unfold Ahead Api.Server.Before at hst hts
      omega

/-- **The choice.** hbbs takes the relay of the foremost server. -/
theorem getRelayServer_eq (hactive : ∃ s ∈ db.rows, s.isActive = true) (relayServers : List String)
    (rotation : ℕ) (pa pb : IpAddr) :
    ∃ s, Foremost db pa pb s ∧
      getRelayServer (db.getActiveServers.map .ofServer) relayServers rotation pa pb = s.relayServer := by
  obtain ⟨s₀, hs₀, hactive₀⟩ := hactive
  have hne : db.getActiveServers ≠ [] := List.ne_nil_of_mem (db.mem_getActiveServers.mpr ⟨hs₀, hactive₀⟩)
  have hsorted : sortByScore ((db.getActiveServers.map ServerTopologyEntry.ofServer).map fun e =>
        (scoreServer e (ipToRegion pa cnCidrs) (ipToRegion pb cnCidrs), e)) =
      (db.getActiveServers.insertionSort fun a b => scoreFor pa pb b ≤ scoreFor pa pb a).map fun s =>
        (scoreFor pa pb s, ServerTopologyEntry.ofServer s) := by
    unfold sortByScore
    rw [List.map_map]
    exact (List.map_insertionSort (r := fun a b => scoreFor pa pb b ≤ scoreFor pa pb a)
      (s := fun a b : ℤ × ServerTopologyEntry => b.1 ≤ a.1)
      (fun s => (scoreFor pa pb s, ServerTopologyEntry.ofServer s)) _ fun _ _ _ _ => Iff.rfl).symm
  obtain ⟨s, hs⟩ : ∃ s, (db.getActiveServers.insertionSort fun a b =>
      scoreFor pa pb b ≤ scoreFor pa pb a).head? = some s := by
    rw [← Option.isSome_iff_exists, List.isSome_head?]
    intro hnil
    exact hne (List.perm_nil.mp (hnil ▸ (List.perm_insertionSort _ _).symm))
  obtain ⟨hmem, hbest⟩ := head?_insertionSort db.getActiveServers_ordered hs
  obtain ⟨hrow, hon⟩ := db.mem_getActiveServers.mp hmem
  refine ⟨s, ⟨hrow, hon, fun t ht hton => hbest t (db.mem_getActiveServers.mpr ⟨ht, hton⟩)⟩, ?_⟩
  unfold getRelayServer
  rw [if_neg (by simpa using hne)]
  dsimp only
  rw [hsorted, List.head?_map, hs]
  rfl

/-- **Relays marked offline.** After any history of calls, once the topology that the last one published is
fetched, hbbs keeps away from the relays of all servers that are offline or switched off, although there
is another one, if and only if none of them has the relay of the foremost server. -/
theorem avoids_unavailable_iff (history : List (ServerCall × CallOutcome)) (last : ServerCall)
    {topology : List ServerTopologyEntry} (relayServers : List String) (rotation : ℕ)
    (hfetch : fetchServerTopology (ApiStore.after (history ++ [(last, .published)])).document =
      some topology) :
    let db := (ApiStore.after (history ++ [(last, .published)])).db
    (∀ s ∈ db.rows, ¬ s.Available → (∃ t ∈ db.rows, t.Available) →
        getRelayServer topology relayServers rotation pa pb ≠ s.relayServer) ↔
      ((∃ t ∈ db.rows, t.Available) → ∀ best, Foremost db pa pb best → ∀ s ∈ db.rows, ¬ s.Available →
        best.relayServer ≠ s.relayServer) := by
  rw [ApiStore.document_of_published] at hfetch
  rw [fetchServerTopology_eq hfetch]
  constructor
  · intro havoids hother best hbest s hs hunavailable
    obtain ⟨t, ht, hton, -⟩ := id hother
    obtain ⟨best', hbest', hchoice⟩ := getRelayServer_eq ⟨t, ht, hton⟩ relayServers
      rotation pa pb
    rw [hbest.eq hbest', ← hchoice]
    exact havoids s hs hunavailable hother
  · intro hdistinct s hs hunavailable hother
    obtain ⟨t, ht, hton, -⟩ := id hother
    obtain ⟨best, hbest, hchoice⟩ := getRelayServer_eq ⟨t, ht, hton⟩ relayServers
      rotation pa pb
    rw [hchoice]
    exact hdistinct hother best hbest s hs hunavailable

/-- A relay of the mainland. -/
def exampleServer : Api.Server where
  id := 0
  name := "one"
  region := "CN"
  relayServer := "one.example:21117"
  wsHost := ""
  supportWSS := false
  costWeight := 1
  isActive := true
  priority := 10
  isOnline := true

/-- Another one, of lower priority. -/
def exampleOther : Api.Server :=
  { exampleServer with name := "two", relayServer := "two.example:21117", priority := 1 }

/-- The one of lower priority goes offline, and hbbs keeps to the other. -/
theorem avoids_unavailable_other :
    let db := (ApiStore.after [(.create exampleServer, .published), (.create exampleOther, .published),
      (.updateOnlineStatus 1 false, .published)]).db
    ∀ s ∈ db.rows, ¬ s.Available → (∃ t ∈ db.rows, t.Available) →
      getRelayServer (db.getActiveServers.map .ofServer) [] 0 (.ofOctets 8 8 8 8) (.ofOctets 8 8 4 4) ≠
        s.relayServer := by
  refine (avoids_unavailable_iff [(.create exampleServer, .published), (.create exampleOther, .published)]
    (.updateOnlineStatus 1 false) [] 0 (by rfl)).mpr fun _ best hbest => ?_
  have hone : Foremost (ApiStore.after [(.create exampleServer, .published),
      (.create exampleOther, .published), (.updateOnlineStatus 1 false, .published)]).db
      (.ofOctets 8 8 8 8) (.ofOctets 8 8 4 4) exampleServer := by
    unfold Foremost
    decide
  rw [hbest.eq hone]
  decide

/-- The one of higher priority is marked offline, and still published and chosen. -/
theorem chooses_offline :
    let store := ApiStore.after [(.create exampleServer, .published), (.create exampleOther, .published),
      (.updateOnlineStatus 0 false, .published)]
    (∃ s ∈ store.db.rows, s.isOnline = false ∧ s.relayServer = "one.example:21117") ∧
      (∃ t ∈ store.db.rows, t.Available) ∧
      (fetchServerTopology store.document).map
          (getRelayServer · [] 0 (.ofOctets 8 8 8 8) (.ofOctets 8 8 4 4)) =
        some "one.example:21117" := by
  decide

end RustDesk.Server
