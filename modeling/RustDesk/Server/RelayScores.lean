import RustDesk.Server.RelayChoice

/-!
# The arithmetic of the relay scores

References: `rustdesk-server/src/rendezvous_server.rs` (`score_server`, `get_relay_server`).

The priority is capped from above only, and both it and the cost weight come out of the document as they
are. Where a product or a difference leaves `i32`, a debug build stops and a release build goes on with
what is left of it, so that the worst server can come out first.
-/

namespace RustDesk.Server

open RustDesk.Net RustDesk.Api

/-- What the regions of the clients add to a score. -/
def regionScore (srvRegion regionA regionB : String) : ℤ :=
  (if srvRegion = regionA then 100 else 0) + (if srvRegion = regionB then 100 else 0) +
    if regionA = regionB ∧ srvRegion = regionA then 200 else 0

/-- The score without a limit of the integers. -/
def exactScore (server : ServerTopologyEntry) (regionA regionB : String) : ℤ :=
  regionScore server.region regionA regionB + min server.priority 100 * 10 - server.costWeight * 5

/-- The result of an operation on `i32`, unless it overflows. -/
def checkI32 (n : ℤ) : Option ℤ := if -2147483648 ≤ n ∧ n ≤ 2147483647 then some n else none

/-- `score_server` where an overflow stops the program. -/
def scoreServerChecked (server : ServerTopologyEntry) (regionA regionB : String) : Option ℤ := do
  let score := regionScore server.region regionA regionB
  let score ← checkI32 (score + (← checkI32 (min server.priority 100 * 10)))
  checkI32 (score - (← checkI32 (server.costWeight * 5)))

/-- The numbers of an entry fit: its products and its score stay in `i32`. -/
structure FitsI32 (s : ServerTopologyEntry) (regionA regionB : String) : Prop where
  priority : -214748364 ≤ s.priority
  costWeight : -429496729 ≤ s.costWeight ∧ s.costWeight ≤ 429496729
  total : -2147483648 ≤ regionScore s.region regionA regionB + min s.priority 100 * 10 - s.costWeight * 5 ∧
    regionScore s.region regionA regionB + min s.priority 100 * 10 - s.costWeight * 5 ≤ 2147483647

section Scores

variable {s : ServerTopologyEntry} {regionA regionB : String}

theorem regionScore_bounds (srvRegion regionA regionB : String) :
    0 ≤ regionScore srvRegion regionA regionB ∧ regionScore srvRegion regionA regionB ≤ 400 := by
  unfold regionScore
  split <;> split <;> split <;> omega

theorem wrapI32_of_fits {n : ℤ} (h : -2147483648 ≤ n ∧ n ≤ 2147483647) : wrapI32 n = n := by
  rw [wrapI32, Int.bmod_eq_iff (by omega)]
  omega

theorem scoreServer_eq : scoreServer s regionA regionB =
      wrapI32 (wrapI32 (regionScore s.region regionA regionB + wrapI32 (min s.priority 100 * 10)) -
        wrapI32 (s.costWeight * 5)) := by
  have hbonus : (if regionA = regionB ∧ s.region = regionA then
        (if s.region = regionB then (if s.region = regionA then 0 + 100 else 0) + 100
          else if s.region = regionA then 0 + 100 else 0) + 200
      else if s.region = regionB then (if s.region = regionA then 0 + 100 else 0) + 100
          else if s.region = regionA then 0 + 100 else 0) =
      regionScore s.region regionA regionB := by
    unfold regionScore
    split <;> split <;> split <;> omega
  simp only [scoreServer]
  rw [← hbonus]

theorem checkI32_eq_some_iff {n m : ℤ} : checkI32 n = some m ↔ (-2147483648 ≤ n ∧ n ≤ 2147483647) ∧ n = m := by
  unfold checkI32
  split <;> simp_all

/-- No step of a score overflows just if the numbers fit. -/
theorem scoreServerChecked_isSome_iff :
    (scoreServerChecked s regionA regionB).isSome ↔ FitsI32 s regionA regionB := by
  have hbounds := regionScore_bounds s.region regionA regionB
  rw [Option.isSome_iff_exists]
  simp only [scoreServerChecked, Option.bind_eq_bind, Option.bind_eq_some_iff, checkI32_eq_some_iff]
  constructor
  · rintro ⟨score, bonus, ⟨hbonus, rfl⟩, total, ⟨htotal, rfl⟩, cost, ⟨hcost, rfl⟩, hscore, -⟩
    exact ⟨by omega, by omega, hscore⟩
  · rintro ⟨hpriority, hcost, htotal⟩
    exact ⟨_, _, ⟨by omega, rfl⟩, _, ⟨by omega, rfl⟩, _, ⟨by omega, rfl⟩, htotal, rfl⟩

/-- A score that does not overflow is exact. -/
theorem FitsI32.scoreServer_eq_exactScore (h : FitsI32 s regionA regionB) :
    scoreServer s regionA regionB = exactScore s regionA regionB := by
  obtain ⟨hpriority, hcost, htotal⟩ := h
  have hbounds := regionScore_bounds s.region regionA regionB
  rw [scoreServer_eq, wrapI32_of_fits (n := min s.priority 100 * 10) (by omega),
    wrapI32_of_fits (n := s.costWeight * 5) (by omega),
    wrapI32_of_fits (n := regionScore s.region regionA regionB + min s.priority 100 * 10) (by omega),
    wrapI32_of_fits htotal, exactScore]

end Scores

/-! ## The first of the best -/

/-- An element between others is the first of the best. -/
def FirstBest {α : Type*} (f : α → ℤ) (before : List α) (m : α) (after : List α) : Prop :=
  (∀ b ∈ before, f b < f m) ∧ ∀ a ∈ after, f a ≤ f m

section FirstBest

variable {α : Type*} {f : α → ℤ}

/-- A stable sort by a score puts the first of the best in front. -/
theorem firstBest_head? {l : List α} (hl : l ≠ []) :
    ∃ before m after, l = before ++ m :: after ∧ FirstBest f before m after ∧
      (l.insertionSort fun a b => f b ≤ f a).head? = some m := by
  induction l with
  | nil => exact absurd rfl hl
  | cons x l ih =>
    rw [List.insertionSort_cons]
    by_cases hnil : l = []
    · subst hnil
      exact ⟨[], x, [], rfl, ⟨by simp, by simp⟩, rfl⟩
    · obtain ⟨before, m, after, rfl, ⟨hbefore, hafter⟩, hhead⟩ := ih hnil
      obtain ⟨rest, hsorted⟩ := List.head?_eq_some_iff.mp hhead
      rw [hsorted, List.orderedInsert_cons]
      by_cases hle : f m ≤ f x
      · -- the new one goes first, also if it only draws level
        refine ⟨[], x, before ++ m :: after, rfl, ⟨by simp, fun a ha => ?_⟩, by rw [if_pos hle]; rfl⟩
        rcases List.mem_append.mp ha with ha | ha
        · exact (hbefore a ha).le.trans hle
        · rcases List.mem_cons.mp ha with rfl | ha
          · exact hle
          · exact (hafter a ha).trans hle
      · refine ⟨x :: before, m, after, rfl, ⟨fun b hb => ?_, hafter⟩, by rw [if_neg hle]; rfl⟩
        rcases List.mem_cons.mp hb with rfl | hb
        · omega
        · exact hbefore b hb

/-- There is only one. -/
theorem FirstBest.unique {before before' after after' : List α} {m m' : α}
    (h : FirstBest f before m after) (h' : FirstBest f before' m' after')
    (heq : before ++ m :: after = before' ++ m' :: after') : m = m' := by
  rcases List.append_eq_append_iff.mp heq with ⟨c, rfl, hc⟩ | ⟨c, rfl, hc⟩
  · cases c with
    | nil =>
      obtain ⟨rfl, -⟩ := List.cons.inj hc
      rfl
    | cons d c =>
      -- `m` is before `m'`, and not lower
      cases hc
      have hlt := h'.1 m (by simp)
      have hle := h.2 m' (by simp)
      omega
  · cases c with
    | nil =>
      obtain ⟨rfl, -⟩ := List.cons.inj hc
      rfl
    | cons d c =>
      cases hc
      have hlt := h.1 m' (by simp)
      have hle := h'.2 m (by simp)
      omega

end FirstBest

/-! ## The choice -/

/-- The exact score of an entry for two clients. -/
def exactFor (pa pb : IpAddr) (s : ServerTopologyEntry) : ℤ :=
  exactScore s (ipToRegion pa cnCidrs) (ipToRegion pb cnCidrs)

/-- The numbers of an entry fit for two clients. -/
def FitsFor (pa pb : IpAddr) (s : ServerTopologyEntry) : Prop :=
  FitsI32 s (ipToRegion pa cnCidrs) (ipToRegion pb cnCidrs)

/-- No score of a topology overflows, and the relay is that of the first entry with the best score. -/
def SelectsBest (topology : List ServerTopologyEntry) (pa pb : IpAddr) : Prop :=
  (∀ s ∈ topology, (scoreServerChecked s (ipToRegion pa cnCidrs) (ipToRegion pb cnCidrs)).isSome) ∧
    ∃ before m after, topology = before ++ m :: after ∧ FirstBest (exactFor pa pb) before m after ∧
      ∀ relayServers rotation, getRelayServer topology relayServers rotation pa pb = m.relayServer

section Choice

variable {topology : List ServerTopologyEntry} {pa pb : IpAddr}

theorem selectsBest_iff (hne : topology ≠ []) : SelectsBest topology pa pb ↔ ∀ s ∈ topology, FitsFor pa pb s := by
  constructor
  · intro hselects s hs
    exact scoreServerChecked_isSome_iff.mp (hselects.1 s hs)
  · intro hfits
    refine ⟨fun s hs => scoreServerChecked_isSome_iff.mpr (hfits s hs), ?_⟩
    obtain ⟨before, m, after, hsplit, hbest, hhead⟩ := firstBest_head? (f := exactFor pa pb) hne
    refine ⟨before, m, after, hsplit, hbest, fun relayServers rotation => ?_⟩
    -- the pairs are sorted as their entries are by the exact score
    have hscored : topology.map (fun s =>
          (scoreServer s (ipToRegion pa cnCidrs) (ipToRegion pb cnCidrs), s)) =
        topology.map fun s => (exactFor pa pb s, s) := by
      refine List.map_congr_left fun s hs => ?_
      rw [(hfits s hs).scoreServer_eq_exactScore, exactFor]
    have hsorted : sortByScore (topology.map fun s => (exactFor pa pb s, s)) =
        (topology.insertionSort fun a b => exactFor pa pb b ≤ exactFor pa pb a).map fun s =>
          (exactFor pa pb s, s) :=
      (List.map_insertionSort (r := fun a b => exactFor pa pb b ≤ exactFor pa pb a)
        (s := fun a b : ℤ × ServerTopologyEntry => b.1 ≤ a.1)
        (fun s => (exactFor pa pb s, s)) _ fun _ _ _ _ => Iff.rfl).symm
    unfold getRelayServer
    rw [if_neg (by simpa using hne)]
    dsimp only
    rw [hscored, hsorted, List.head?_map, hhead]
    rfl

/-- An entry whose priority is raised or whose cost is lowered only gains. -/
theorem exactFor_mono {e : ServerTopologyEntry} {priority costWeight : ℤ}
    (hpriority : e.priority ≤ priority) (hcost : costWeight ≤ e.costWeight) :
    exactFor pa pb e ≤ exactFor pa pb { e with priority, costWeight } := by
  unfold exactFor exactScore
  dsimp only
  omega

/-- The choice is the first of the best without an overflow, and an entry that is chosen stays so with a
higher priority or a lower cost, just if the numbers of all entries, and those of the changed one, fit. -/
theorem selects_best_iff_fits (before after : List ServerTopologyEntry) (e : ServerTopologyEntry)
    (priority costWeight : ℤ) (hpriority : e.priority ≤ priority) (hcost : costWeight ≤ e.costWeight)
    (pa pb : IpAddr) :
    (SelectsBest (before ++ e :: after) pa pb ∧
      SelectsBest (before ++ { e with priority, costWeight } :: after) pa pb ∧
      (FirstBest (exactFor pa pb) before e after →
        FirstBest (exactFor pa pb) before { e with priority, costWeight } after ∧
        ∀ relayServers rotation,
          getRelayServer (before ++ { e with priority, costWeight } :: after) relayServers rotation pa pb =
            e.relayServer)) ↔
      (∀ s ∈ before ++ e :: after, FitsFor pa pb s) ∧ FitsFor pa pb { e with priority, costWeight } := by
  have hne : before ++ e :: after ≠ [] := by simp
  have hne' : before ++ { e with priority, costWeight } :: after ≠ [] := by simp
  constructor
  · rintro ⟨hold, hnew, -⟩
    exact ⟨(selectsBest_iff hne).mp hold, (selectsBest_iff hne').mp hnew _ (by simp)⟩
  · rintro ⟨hfits, hchanged⟩
    have hfits' : ∀ s ∈ before ++ { e with priority, costWeight } :: after, FitsFor pa pb s := by
      intro s hs
      rcases List.mem_append.mp hs with hs | hs
      · exact hfits s (List.mem_append_left _ hs)
      · rcases List.mem_cons.mp hs with rfl | hs
        · exact hchanged
        · exact hfits s (by simp [hs])
    have hnew := (selectsBest_iff hne').mpr hfits'
    refine ⟨(selectsBest_iff hne).mpr hfits, hnew, fun hbest => ?_⟩
    have hle : exactFor pa pb e ≤ exactFor pa pb { e with priority, costWeight } :=
      exactFor_mono hpriority hcost
    have hstays : FirstBest (exactFor pa pb) before { e with priority, costWeight } after :=
      ⟨fun b hb => (hbest.1 b hb).trans_le hle, fun a ha => (hbest.2 a ha).trans hle⟩
    refine ⟨hstays, fun relayServers rotation => ?_⟩
    obtain ⟨-, before', m, after', hsplit, hbest', hrelay⟩ := hnew
    rw [hrelay, ← hstays.unique hbest' hsplit]

end Choice

/-! ### The lowest priority there is -/

/-- A relay that is to be the last resort. -/
def lastResort : ServerTopologyEntry :=
  { ServerTopologyEntry.ofServer exampleServer with
    priority := -2147483648, costWeight := 0, relayServer := "last.example:21117" }

/-- Another one, of a low priority. -/
def lowPriority : ServerTopologyEntry :=
  { lastResort with priority := -1, relayServer := "low.example:21117" }

/-- Ten times the lowest priority is 0 in `i32`, so the last resort is chosen. -/
theorem last_resort_chosen :
    ¬ SelectsBest [lastResort, lowPriority] (.ofOctets 8 8 8 8) (.ofOctets 8 8 4 4) ∧
      exactFor (.ofOctets 8 8 8 8) (.ofOctets 8 8 4 4) lastResort <
        exactFor (.ofOctets 8 8 8 8) (.ofOctets 8 8 4 4) lowPriority ∧
      getRelayServer [lastResort, lowPriority] [] 0 (.ofOctets 8 8 8 8) (.ofOctets 8 8 4 4) =
        "last.example:21117" := by
  refine ⟨fun hselects => ?_, by decide, by decide⟩
  have hchecked := hselects.1 lastResort (by simp)
  revert hchecked
  decide

/-- The relay of the mainland stays chosen with a higher priority and for nothing. -/
theorem selects_best_raised :
    SelectsBest [.ofServer exampleServer, .ofServer exampleOther] (.ofOctets 1 2 3 4) (.ofOctets 8 8 4 4) ∧
      getRelayServer
        [{ ServerTopologyEntry.ofServer exampleServer with priority := 20, costWeight := 0 },
          .ofServer exampleOther] [] 0 (.ofOctets 1 2 3 4) (.ofOctets 8 8 4 4) = "one.example:21117" := by
  have hfits : ∀ s ∈ [] ++ ServerTopologyEntry.ofServer exampleServer :: [.ofServer exampleOther],
      FitsFor (.ofOctets 1 2 3 4) (.ofOctets 8 8 4 4) s := by
    intro s hs
    refine scoreServerChecked_isSome_iff.mp ?_
    rcases List.mem_pair.mp hs with rfl | rfl
    · decide
    · decide
  have hraised : FitsFor (.ofOctets 1 2 3 4) (.ofOctets 8 8 4 4)
      { ServerTopologyEntry.ofServer exampleServer with priority := 20, costWeight := 0 } :=
    scoreServerChecked_isSome_iff.mp (by decide)
  obtain ⟨hselects, -, hstays⟩ :=
    (selects_best_iff_fits [] [.ofServer exampleOther] (.ofServer exampleServer) 20 0 (by decide)
      (by decide) (.ofOctets 1 2 3 4) (.ofOctets 8 8 4 4)).mpr ⟨hfits, hraised⟩
  exact ⟨hselects, (hstays ⟨by simp, by decide⟩).2 [] 0⟩

end RustDesk.Server
