import RustDesk.Api.Servers
import Mathlib.Data.Prod.Lex

/-!
# The scheduler of the API server

Reference: `rustdesk-api/service/serverScheduler.go`.

The available servers are filtered by protocol and region together. Where nothing is left, all of them are
taken again, those that cannot speak the demanded protocol included, and the one that ranks first is
returned whatever it speaks. `schedule_good_iff` says when that goes well.

`sort.Slice` is not stable, so a result is any that some order of equal servers gives.
-/

namespace RustDesk.Api

/-- A server row with the columns that the scheduler reads. -/
structure ScheduledServer extends Server where
  idServer : String
  apiServer : String
  key : String
  supportTCP : Bool
deriving DecidableEq

structure ScheduleRequest where
  clientIP : String
  clientRegion : String
  preferProtocol : String
  isRestricted : Bool

structure ScheduleResult where
  primaryServer : ScheduledServer
  fallbackServers : List ScheduledServer
  protocol : String
deriving DecidableEq

/-- `len(region) >= 2 && region[:2] == code`. -/
def startsWithCode (region code : String) : Bool := region.toList.take 2 = code.toList

/-- `isRegionMatch`. -/
def isRegionMatch (serverRegion clientRegion : String) : Bool :=
  if clientRegion = "CN" then startsWithCode serverRegion "CN"
  else if clientRegion = "HK" then serverRegion = "HK"
  else if clientRegion = "TW" then serverRegion = "TW"
  else if clientRegion = "MO" then serverRegion = "MO"
  else if clientRegion = "US" then startsWithCode serverRegion "US"
  else if clientRegion = "EU" then startsWithCode serverRegion "EU"
  else true

/-- A server that can be reached through WSS. -/
def ScheduledServer.hasWss (s : ScheduledServer) : Bool := s.supportWSS && s.wsHost ≠ ""

/-- The check of the protocol in `filterServers`. -/
def protocolMatch (s : ScheduledServer) (req : ScheduleRequest) : Bool :=
  if req.isRestricted then s.hasWss
  else if req.preferProtocol = "tcp" then s.supportTCP
  else if req.preferProtocol = "wss" then s.hasWss
  else true

/-- `filterServers`. -/
def filterServers (servers : List ScheduledServer) (req : ScheduleRequest) : List ScheduledServer :=
  servers.filter fun s => protocolMatch s req && isRegionMatch s.region req.clientRegion

/-- The order of `sortServers`: a server goes before another one. -/
def Outranks (req : ScheduleRequest) (s t : ScheduledServer) : Prop :=
  if s.priority ≠ t.priority then t.priority < s.priority
  else if req.clientRegion = "CN" ∧ startsWithCode s.region "CN" ≠ startsWithCode t.region "CN" then
    startsWithCode s.region "CN" = true
  else s.costWeight < t.costWeight

/-- What `sortServers` can make of some servers. -/
def SortServers (req : ScheduleRequest) (servers sorted : List ScheduledServer) : Prop :=
  sorted.Perm servers ∧ sorted.Pairwise fun s t => ¬ Outranks req t s

/-- `determineProtocol`. -/
def determineProtocol (s : ScheduledServer) (req : ScheduleRequest) : String :=
  if req.isRestricted then "wss"
  else if req.preferProtocol = "tcp" ∧ s.supportTCP then "tcp"
  else if req.preferProtocol = "wss" ∧ s.supportWSS then "wss"
  else if s.supportTCP then "tcp"
  else if s.supportWSS then "wss"
  else "tcp"

/-- The servers that `Schedule` sorts. -/
def candidates (servers : List ScheduledServer) (req : ScheduleRequest) : List ScheduledServer :=
  let candidates := filterServers servers req
  if candidates.isEmpty then servers else candidates

/-- The result for sorted candidates. -/
def resultOf (sorted : List ScheduledServer) (req : ScheduleRequest) : Option ScheduleResult :=
  match sorted with
  | [] => none
  | s :: rest => some ⟨s, rest.take 3, determineProtocol s req⟩

/-- `Schedule`, on what `getAvailableServers` finds. -/
def Schedule (servers : List ScheduledServer) (req : ScheduleRequest)
    (result : Except String ScheduleResult) : Prop :=
  if servers.isEmpty then result = .error "no available servers"
  else ∃ sorted r, SortServers req (candidates servers req) sorted ∧ resultOf sorted req = some r ∧
    result = .ok r

/-- `GetServerConfig`. -/
def getServerConfig (s : ScheduledServer) (protocol : String) : List (String × String) :=
  let config := [("id_server", s.idServer), ("relay_server", s.relayServer), ("api_server", s.apiServer),
    ("key", s.key)]
  if protocol = "wss" ∧ s.wsHost ≠ "" then config ++ [("ws_host", s.wsHost)] else config

/-! ## What a result is to be -/

/-- The request demands a protocol. -/
def ScheduleRequest.Demands (req : ScheduleRequest) : Prop :=
  req.isRestricted = true ∨ req.preferProtocol = "tcp" ∨ req.preferProtocol = "wss"

/-- A server can serve a protocol. -/
def ScheduledServer.Serves (s : ScheduledServer) (protocol : String) : Prop :=
  protocol = "tcp" ∧ s.supportTCP = true ∨ protocol = "wss" ∧ s.hasWss = true

/-- A server can serve what a request demands, or anything if it demands nothing. -/
def Meets (req : ScheduleRequest) (s : ScheduledServer) : Prop :=
  protocolMatch s req = true ∧ (¬ req.Demands → s.Serves "tcp" ∨ s.Serves "wss")

/-- The primary server can serve the returned protocol, is told to the client with its WSS host if that is
the protocol, and can serve what the request demands. -/
structure ScheduleResult.Good (result : ScheduleResult) (req : ScheduleRequest) : Prop where
  serves : result.primaryServer.Serves result.protocol
  config : result.protocol = "wss" →
    ∃ host, host ≠ "" ∧ ("ws_host", host) ∈ getServerConfig result.primaryServer result.protocol
  demanded : Meets req result.primaryServer

section Schedule

variable {servers sorted : List ScheduledServer} {req : ScheduleRequest} {s t : ScheduledServer}

/-- A server that meets the demand is returned with a protocol that it serves. -/
theorem Meets.serves (h : Meets req s) : s.Serves (determineProtocol s req) := by
  obtain ⟨hmatch, hany⟩ := h
  unfold protocolMatch at hmatch
  unfold determineProtocol
  by_cases hrestricted : req.isRestricted = true
  · rw [if_pos hrestricted] at hmatch ⊢
    exact .inr ⟨rfl, hmatch⟩
  rw [if_neg hrestricted] at hmatch ⊢
  by_cases htcp : req.preferProtocol = "tcp"
  · rw [if_pos htcp] at hmatch
    rw [if_pos ⟨htcp, hmatch⟩]
    exact .inl ⟨rfl, hmatch⟩
  rw [if_neg htcp] at hmatch
  rw [if_neg fun h => htcp h.1]
  by_cases hwss : req.preferProtocol = "wss"
  · rw [if_pos hwss] at hmatch
    have hsupport : s.supportWSS = true := (Bool.and_eq_true_iff.mp hmatch).1
    rw [if_pos ⟨hwss, hsupport⟩]
    exact .inr ⟨rfl, hmatch⟩
  rw [if_neg fun h => hwss h.1]
  have hnone : ¬ req.Demands := by
    rintro (h | h | h)
    · exact hrestricted h
    · exact htcp h
    · exact hwss h
  by_cases hsupport : s.supportTCP = true
  · rw [if_pos hsupport]
    exact .inl ⟨rfl, hsupport⟩
  rw [if_neg hsupport]
  rcases hany hnone with (⟨-, h⟩ | ⟨h, -⟩) | (⟨h, -⟩ | ⟨-, h⟩)
  · exact absurd h hsupport
  · exact absurd h (by decide)
  · exact absurd h (by decide)
  · have hwss' : s.supportWSS = true := (Bool.and_eq_true_iff.mp h).1
    rw [if_pos hwss']
    exact .inr ⟨rfl, h⟩

theorem Serves.config (h : s.Serves "wss") : ∃ host, host ≠ "" ∧ ("ws_host", host) ∈ getServerConfig s "wss" := by
  rcases h with ⟨h, -⟩ | ⟨-, h⟩
  · exact absurd h (by decide)
  · have hhost : s.wsHost ≠ "" := of_decide_eq_true (Bool.and_eq_true_iff.mp h).2
    refine ⟨s.wsHost, hhost, ?_⟩
    simp [getServerConfig, hhost]

/-- A result is good just if its primary server meets the demand. -/
theorem good_iff {rest : List ScheduledServer} :
    (⟨s, rest, determineProtocol s req⟩ : ScheduleResult).Good req ↔ Meets req s := by
  refine ⟨fun h => h.demanded, fun h => ⟨h.serves, fun hwss => ?_, h⟩⟩
  have hserves := h.serves
  have hprotocol : determineProtocol s req = "wss" := hwss
  show ∃ host, host ≠ "" ∧ ("ws_host", host) ∈ getServerConfig s (determineProtocol s req)
  rw [hprotocol] at hserves ⊢
  exact Serves.config hserves

/-! ## The order -/

/-- The place of a server in the order, the first the lowest. -/
def rank (req : ScheduleRequest) (s : ScheduledServer) : ℤ ×ₗ (ℤ ×ₗ ℤ) :=
  toLex (-s.priority, toLex
    (if req.clientRegion = "CN" ∧ startsWithCode s.region "CN" = false then 1 else 0, s.costWeight))

theorem outranks_iff : Outranks req s t ↔ rank req s < rank req t := by
  unfold Outranks rank
  rw [Prod.Lex.lt_iff]
  simp only [ofLex_toLex, Prod.Lex.lt_iff]
  by_cases hpriority : s.priority = t.priority
  · rw [if_neg (not_not.mpr hpriority)]
    by_cases hcn : req.clientRegion = "CN"
    · cases hs : startsWithCode s.region "CN" <;> cases ht : startsWithCode t.region "CN" <;>
        simp [hcn, hpriority]
    · simp [hcn, hpriority]
  · rw [if_pos hpriority]
    omega

theorem sortServers_iff : SortServers req servers sorted ↔
      sorted.Perm servers ∧ sorted.Pairwise fun s t => rank req s ≤ rank req t := by
  simp only [SortServers, outranks_iff, not_lt]

theorem exists_sortServers (req : ScheduleRequest) (servers : List ScheduledServer) :
    ∃ sorted, SortServers req servers sorted := by
  have : Std.Total fun a b : ScheduledServer => rank req a ≤ rank req b := ⟨fun a b => le_total _ _⟩
  have : IsTrans ScheduledServer fun a b => rank req a ≤ rank req b := ⟨fun _ _ _ => le_trans⟩
  exact ⟨servers.insertionSort fun a b => rank req a ≤ rank req b,
    sortServers_iff.mpr ⟨List.perm_insertionSort _ _, List.pairwise_insertionSort _ _⟩⟩

/-- The first of a sorted list is one that no other outranks, and each of these can be it. -/
theorem exists_sorted_iff :
    (∃ rest, SortServers req servers (s :: rest)) ↔ s ∈ servers ∧ ∀ t ∈ servers, ¬ Outranks req t s := by
  simp only [sortServers_iff, outranks_iff, not_lt]
  constructor
  · rintro ⟨rest, hperm, hsorted⟩
    refine ⟨hperm.subset List.mem_cons_self, fun t ht => ?_⟩
    rcases List.mem_cons.mp (hperm.symm.subset ht) with rfl | hrest
    · exact le_rfl
    · exact (List.pairwise_cons.mp hsorted).1 t hrest
  · rintro ⟨hmem, hbest⟩
    obtain ⟨others, hothers⟩ := exists_sortServers req (servers.erase s)
    obtain ⟨hperm, hsorted⟩ := sortServers_iff.mp hothers
    refine ⟨others, (hperm.cons s).trans (List.perm_cons_erase hmem).symm, ?_⟩
    exact List.pairwise_cons.mpr ⟨fun t ht => hbest t (List.mem_of_mem_erase (hperm.subset ht)), hsorted⟩

/-! ## The choice -/

theorem candidates_ne_nil (hne : servers ≠ []) : candidates servers req ≠ [] := by
  unfold candidates
  dsimp only
  split
  · exact hne
  · next h => simpa using h

/-- The results are those whose primary server is outranked by no candidate. -/
theorem exists_schedule_iff (hne : servers ≠ []) :
    (∃ rest, Schedule servers req (.ok ⟨s, rest, determineProtocol s req⟩)) ↔
      s ∈ candidates servers req ∧ ∀ t ∈ candidates servers req, ¬ Outranks req t s := by
  have hempty : ¬ servers.isEmpty = true := by simpa using hne
  rw [← exists_sorted_iff]
  simp only [Schedule, if_neg hempty]
  constructor
  · rintro ⟨rest, sorted, r, hsorted, hresult, hr⟩
    cases hr
    cases sorted with
    | nil => cases hresult
    | cons s' others =>
      obtain rfl : s' = s := congrArg ScheduleResult.primaryServer (Option.some.inj hresult)
      exact ⟨others, hsorted⟩
  · rintro ⟨others, hsorted⟩
    exact ⟨others.take 3, s :: others, _, hsorted, rfl, rfl⟩

/-- There is a result, and its protocol is the one of its primary server. -/
theorem schedule_ok (hne : servers ≠ []) : (∃ r, Schedule servers req (.ok r)) ∧ ∀ r, Schedule servers req (.ok r) →
        r = ⟨r.primaryServer, r.fallbackServers, determineProtocol r.primaryServer req⟩ := by
  have hempty : ¬ servers.isEmpty = true := by simpa using hne
  simp only [Schedule, if_neg hempty]
  constructor
  · obtain ⟨sorted, hsorted⟩ := exists_sortServers req (candidates servers req)
    cases sorted with
    | nil => exact absurd hsorted.1.symm.eq_nil (candidates_ne_nil hne)
    | cons s others => exact ⟨_, s :: others, _, hsorted, rfl, rfl⟩
  · rintro r ⟨sorted, r', -, hresult, hr⟩
    cases hr
    cases sorted with
    | nil => cases hresult
    | cons s others =>
      cases hresult
      rfl

/-- A server of the region of the client that can serve the protocol. -/
def Suits (req : ScheduleRequest) (s : ScheduledServer) : Prop :=
  protocolMatch s req = true ∧ isRegionMatch s.region req.clientRegion = true

/-- A server that is taken into account: one that suits, or any if none does. -/
def Taken (servers : List ScheduledServer) (req : ScheduleRequest) (s : ScheduledServer) : Prop :=
  s ∈ servers ∧ (Suits req s ∨ ∀ t ∈ servers, ¬ Suits req t)

theorem mem_filterServers : s ∈ filterServers servers req ↔ s ∈ servers ∧ Suits req s := by
  simp [filterServers, Suits]

theorem mem_candidates : s ∈ candidates servers req ↔ Taken servers req s := by
  unfold candidates Taken
  dsimp only
  by_cases hnone : ∀ t ∈ servers, ¬ Suits req t
  · have hempty : filterServers servers req = [] :=
      List.eq_nil_iff_forall_not_mem.mpr fun t ht =>
        hnone t (mem_filterServers.mp ht).1 (mem_filterServers.mp ht).2
    rw [hempty, List.isEmpty_nil, if_pos rfl]
    exact ⟨fun hs => ⟨hs, .inr hnone⟩, fun hs => hs.1⟩
  · obtain ⟨t, ht, hsuits⟩ : ∃ t ∈ servers, Suits req t := by simpa using hnone
    have hnotempty : ¬ (filterServers servers req).isEmpty = true := by
      simpa using List.ne_nil_of_mem (mem_filterServers.mpr ⟨ht, hsuits⟩)
    rw [if_neg hnotempty, mem_filterServers]
    exact and_congr_right fun _ => (or_iff_left hnone).symm

/-- The choice goes well: a server suits a request that demands a protocol, or each server that ranks
first among those taken into account can serve what the request demands. -/
def Covered (servers : List ScheduledServer) (req : ScheduleRequest) : Prop :=
  (req.Demands ∧ ∃ s ∈ servers, Suits req s) ∨
    ∀ s, Taken servers req s → (∀ t, Taken servers req t → ¬ Outranks req t s) → Meets req s

theorem exists_first_iff (hne : servers ≠ []) :
    (∃ rest, Schedule servers req (.ok ⟨s, rest, determineProtocol s req⟩)) ↔
      Taken servers req s ∧ ∀ t, Taken servers req t → ¬ Outranks req t s := by
  simp only [exists_schedule_iff hne, mem_candidates]

/-- Where a server can serve what the request demands, every result is good just if one of the region
can, or all that rank first without the region can. -/
theorem schedule_good_iff (hsome : ∃ s ∈ servers, Meets req s) :
    ((∃ r, Schedule servers req (.ok r)) ∧ ∀ r, Schedule servers req (.ok r) → r.Good req) ↔
      Covered servers req := by
  have hne : servers ≠ [] := by
    obtain ⟨s, hs, -⟩ := hsome
    exact List.ne_nil_of_mem hs
  obtain ⟨hexists, hshape⟩ := @schedule_ok servers req hne
  constructor
  · rintro ⟨-, hgood⟩
    refine .inr fun s hs hfirst => ?_
    obtain ⟨rest, hresult⟩ := (exists_first_iff hne).mpr ⟨hs, hfirst⟩
    exact good_iff.mp (hgood _ hresult)
  · intro hcovered
    refine ⟨hexists, fun r hr => ?_⟩
    have hshaped := hshape r hr
    rw [hshaped] at hr ⊢
    obtain ⟨htaken, hfirst⟩ := (exists_first_iff hne).mp ⟨r.fallbackServers, hr⟩
    refine good_iff.mpr ?_
    rcases hcovered with ⟨hdemands, s, hs, hsuits⟩ | hall
    · -- a server suits, so the primary one does
      have hprimary : Suits req r.primaryServer :=
        htaken.2.resolve_right fun hnone => hnone s hs hsuits
      exact ⟨hprimary.1, fun h => absurd hdemands h⟩
    · exact hall _ htaken hfirst

end Schedule

/-! ### A client of the mainland that is restricted to port 443 -/

/-- A server in Hong Kong that can be reached through WSS. -/
def wssServer : ScheduledServer where
  id := 1
  name := "hk"
  region := "HK"
  relayServer := "hk.example:21117"
  wsHost := "wss://hk.example:21118"
  supportWSS := true
  costWeight := 1
  isActive := true
  priority := 1
  isOnline := true
  idServer := "hk.example:21116"
  apiServer := "https://hk.example"
  key := "key"
  supportTCP := true

/-- A server of higher priority that cannot. -/
def tcpServer : ScheduledServer :=
  { wssServer with id := 2, name := "us", region := "US", priority := 10, supportWSS := false, wsHost := "" }

def restrictedFrom (region : String) : ScheduleRequest := ⟨"203.0.113.7", region, "auto", true⟩

/-- No server is in the region of the client, and the one that is returned cannot be reached. -/
theorem restricted_unreachable :
    (∃ s ∈ [wssServer, tcpServer], Meets (restrictedFrom "CN") s) ∧
      Schedule [wssServer, tcpServer] (restrictedFrom "CN") (.ok ⟨tcpServer, [wssServer], "wss"⟩) ∧
      ¬ (⟨tcpServer, [wssServer], "wss"⟩ : ScheduleResult).Good (restrictedFrom "CN") ∧
      getServerConfig tcpServer "wss" = [("id_server", "hk.example:21116"),
        ("relay_server", "hk.example:21117"), ("api_server", "https://hk.example"), ("key", "key")] := by
  have hmeets : Meets (restrictedFrom "CN") wssServer := ⟨by decide, fun h => absurd (.inl rfl) h⟩
  refine ⟨⟨wssServer, by simp, hmeets⟩, ?_, fun hgood => ?_, by decide⟩
  · refine ⟨[tcpServer, wssServer], _, ⟨.swap _ _ _, ?_⟩, rfl, rfl⟩
    rw [List.pairwise_pair, outranks_iff]
    decide
  · have hmatch := hgood.demanded.1
    revert hmatch
    decide

/-- A client in Hong Kong gets the server there. -/
theorem schedule_good_region :
    (∃ r, Schedule [wssServer, tcpServer] (restrictedFrom "HK") (.ok r)) ∧
      ∀ r, Schedule [wssServer, tcpServer] (restrictedFrom "HK") (.ok r) →
        r.Good (restrictedFrom "HK") := by
  have hmeets : Meets (restrictedFrom "HK") wssServer := ⟨by decide, fun h => absurd (.inl rfl) h⟩
  exact (schedule_good_iff ⟨wssServer, by simp, hmeets⟩).mpr
    (.inl ⟨.inl rfl, wssServer, by simp, by decide, by decide⟩)

end RustDesk.Api
