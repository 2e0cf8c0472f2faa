import RustDesk.Api.Servers
import RustDesk.Common.Run

/-!
# Publishing the topology from several calls

Reference: `rustdesk-api/service/server.go`.

`Create`, `Update`, `Delete` and `UpdateOnlineStatus` write the server table, select what is switched on and
set the document in Redis, in three steps of their own. Any number of calls (one for each element of
`C`) take these steps in any order. `describes_of_calm` is about the runs in which nobody changes the
selection between another call's `SELECT` and its `SET`. `stale_selection_wins` is one in which somebody
does: the older selection is set last, and nothing publishes again.
-/

namespace RustDesk.Api

/-- How far a call of `ServerService` is. -/
inductive CallPhase
  | waiting
  | wrote
  | selected (servers : List Server)
  | returned

/-- The table, the document and the calls. -/
structure Publication (C : Type*) where
  db : ServerTable
  document : Option (List JsonObject)
  phase : C → CallPhase

/-- A step of a call: its statement, the `SELECT` of `PublishServerTopologyToRedis` and its `SET`, and
whether they succeed. Without a Redis client there is no `SELECT`, as if it failed. -/
inductive PublicationStep (C : Type*)
  | write (c : C) (call : ServerCall) (ok : Bool)
  | select (c : C) (ok : Bool)
  | set (c : C) (ok : Bool)
deriving DecidableEq

namespace Publication

variable {C : Type*} {s t : Publication C} {c d : C}

/-- The document describes the table. -/
def Describes (s : Publication C) : Prop :=
  s.document = some (topologyDocument s.db.getActiveServers)

/-- A call has begun and not returned. -/
def InFlight (s : Publication C) (c : C) : Prop :=
  match s.phase c with
  | .waiting => False
  | .wrote => True
  | .selected _ => True
  | .returned => False

/-- All calls that have begun have returned. -/
def Quiet (s : Publication C) : Prop := ∀ c, ¬ s.InFlight c

theorem InFlight.of_wrote (h : s.phase c = .wrote) : s.InFlight c := by
  unfold InFlight
  rw [h]
  trivial

theorem InFlight.of_selected {servers : List Server} (h : s.phase c = .selected servers) : s.InFlight c := by
  unfold InFlight
  rw [h]
  trivial

theorem InFlight.ne_of_waiting (h : s.InFlight d) (hc : s.phase c = .waiting) : d ≠ c := by
  rintro rfl
  unfold InFlight at h
  rwa [hc] at h

theorem InFlight.congr (h : s.InFlight c) (hphase : t.phase c = s.phase c) : t.InFlight c := by
  unfold InFlight at *
  rwa [hphase]

/-! ## Steps -/

variable [DecidableEq C]

def setPhase (s : Publication C) (c : C) (phase : CallPhase) : Publication C :=
  { s with phase := Function.update s.phase c phase }

@[simp] theorem setPhase_phase_self (phase : CallPhase) : (s.setPhase c phase).phase c = phase := by
  simp [setPhase]

theorem setPhase_phase_ne (phase : CallPhase) (hdc : d ≠ c) : (s.setPhase c phase).phase d = s.phase d := by
  simp [setPhase, hdc]

def step (s : Publication C) : PublicationStep C → Option (Publication C)
  | .write c call ok =>
    match s.phase c with
    | .waiting =>
      some (if ok then { s with db := s.db.write call }.setPhase c .wrote else s.setPhase c .returned)
    | _ => none
  | .select c ok =>
    match s.phase c with
    | .wrote =>
      some (s.setPhase c (if ok then .selected s.db.getActiveServers else .returned))
    | _ => none
  | .set c ok =>
    match s.phase c with
    | .selected servers =>
      some (if ok then { s with document := some (topologyDocument servers) }.setPhase c .returned
        else s.setPhase c .returned)
    | _ => none

/-- What a step can be. -/
theorem step_cases {e : PublicationStep C} (h : s.step e = some t) :
    (∃ c call ok, e = .write c call ok ∧ s.phase c = .waiting ∧
      t = if ok then { s with db := s.db.write call }.setPhase c .wrote else s.setPhase c .returned) ∨
    (∃ c ok, e = .select c ok ∧ s.phase c = .wrote ∧
      t = s.setPhase c (if ok then .selected s.db.getActiveServers else .returned)) ∨
    ∃ c ok servers, e = .set c ok ∧ s.phase c = .selected servers ∧
      t = if ok then { s with document := some (topologyDocument servers) }.setPhase c .returned
        else s.setPhase c .returned := by
  cases e with
  | write c call ok =>
    simp only [step] at h
    split at h
    · next hphase => exact .inl ⟨c, call, ok, rfl, hphase, (Option.some.inj h).symm⟩
    · cases h
  | select c ok =>
    simp only [step] at h
    split at h
    · next hphase => exact .inr (.inl ⟨c, ok, rfl, hphase, (Option.some.inj h).symm⟩)
    · cases h
  | set c ok =>
    simp only [step] at h
    split at h
    · next servers hphase => exact .inr (.inr ⟨c, ok, servers, rfl, hphase, (Option.some.inj h).symm⟩)
    · cases h

/-! ## Calm runs -/

/-- Nothing but the statement of a call fails, and nobody changes what is selected while another call is
between its `SELECT` and its `SET`. -/
def Calm (s : Publication C) : PublicationStep C → Prop
  | .write _ call ok =>
    ok = true → (s.db.write call).getActiveServers = s.db.getActiveServers ∨
      ∀ d servers, s.phase d ≠ .selected servers
  | .select _ ok => ok = true
  | .set _ ok => ok = true

/-- The statement of a call succeeds. -/
def IsWrite : PublicationStep C → Prop
  | .write _ _ ok => ok = true
  | _ => False

/-- Whoever holds a selection holds what is selected now. The document describes the table, or a call
that will publish it is in flight, or nothing was written yet. -/
structure UpToDate (steps : List (PublicationStep C)) (s : Publication C) : Prop where
  held : ∀ c servers, s.phase c = .selected servers → servers = s.db.getActiveServers
  published : s.Describes ∨ (∃ c, s.InFlight c) ∨ ∀ e ∈ steps, ¬ IsWrite e

/-- A call moves on. -/
theorem UpToDate.held_setPhase {steps : List (PublicationStep C)} {phase : CallPhase}
    (h : UpToDate steps s) (hphase : ∀ servers, phase = .selected servers → servers = s.db.getActiveServers)
    (d : C) (servers : List Server) (hd : (s.setPhase c phase).phase d = .selected servers) :
    servers = s.db.getActiveServers := by
  by_cases hdc : d = c
  · rw [hdc, setPhase_phase_self] at hd
    exact hphase servers hd
  · rw [setPhase_phase_ne phase hdc] at hd
    exact h.held d servers hd

/-- **One step** of a calm run. -/
theorem UpToDate.step {steps : List (PublicationStep C)} {e : PublicationStep C} (h : UpToDate steps s)
    (hcalm : s.Calm e) (hstep : s.step e = some t) : UpToDate (steps ++ [e]) t := by
  rcases step_cases hstep with ⟨c, call, ok, rfl, hphase, rfl⟩ | ⟨c, ok, rfl, hphase, rfl⟩ |
    ⟨c, ok, servers, rfl, hphase, rfl⟩
  · cases ok with
    | true =>
      refine ⟨fun d servers hd => ?_, .inr (.inl ⟨c, .of_wrote (setPhase_phase_self _)⟩)⟩
      have hdc : d ≠ c := by
        rintro rfl
        rw [if_pos rfl, setPhase_phase_self] at hd
        cases hd
      rw [if_pos rfl, setPhase_phase_ne _ hdc] at hd
      rcases hcalm rfl with hsame | hnobody
      · exact (h.held d servers hd).trans hsame.symm
      · exact absurd hd (hnobody d servers)
    | false =>
      refine ⟨h.held_setPhase (fun _ hp => by cases hp), ?_⟩
      rcases h.published with hdesc | ⟨d, hd⟩ | hnone
      · exact .inl hdesc
      · have hdc := hd.ne_of_waiting hphase
        exact .inr (.inl ⟨d, hd.congr (setPhase_phase_ne _ hdc)⟩)
      · refine .inr (.inr fun e he => ?_)
        rcases List.mem_append.mp he with he | he
        · exact hnone e he
        · rw [List.mem_singleton.mp he]
          exact Bool.false_ne_true
  · obtain rfl : ok = true := hcalm
    refine ⟨h.held_setPhase fun servers hp => ?_, .inr (.inl ⟨c, .of_selected (setPhase_phase_self _)⟩)⟩
    exact (CallPhase.selected.inj hp).symm
  · obtain rfl : ok = true := hcalm
    refine ⟨h.held_setPhase (fun _ hp => by cases hp), .inl ?_⟩
    show some (topologyDocument servers) = some (topologyDocument s.db.getActiveServers)
    rw [h.held c servers hphase]

/-- **Calm runs converge.** Whatever calls there are and however their steps interleave, once one of them
has written and all have returned, the document describes the table. -/
theorem describes_of_calm {steps : List (PublicationStep C)} {db : ServerTable}
    {document : Option (List JsonObject)}
    (hrun : Run (Only Calm (Steps step)) ⟨db, document, fun _ => .waiting⟩ steps t)
    (hwrite : ∃ e ∈ steps, IsWrite e) (hquiet : t.Quiet) : t.Describes := by
  have hstart : UpToDate [] (⟨db, document, fun _ => .waiting⟩ : Publication C) :=
    ⟨fun _ _ hc => CallPhase.noConfusion hc, .inr (.inr fun _ he => absurd he List.not_mem_nil)⟩
  have hinv : UpToDate steps t := hrun.invariant_history
    (fun _ _ _ _ (h : UpToDate _ _) hstep => h.step hstep.1 hstep.2) hstart
  rcases hinv.published with hdesc | ⟨c, hc⟩ | hnone
  · exact hdesc
  · exact absurd hc (hquiet c)
  · obtain ⟨e, he, hew⟩ := hwrite
    exact absurd hew (hnone e he)

/-- A server of which only the name is known. -/
def exampleNamed (name : String) : Server := ⟨0, name, "", "", "", false, 1, true, 0, true⟩

/-- Two calls take turns in writing, and publish one after the other. -/
theorem describes_of_calm_two :
    let steps : List (PublicationStep Bool) := [.write false (.create (exampleNamed "one")) true,
      .write true (.create (exampleNamed "two")) true, .select true true, .set true true,
      .select false true, .set false true]
    ∃ t, exec step (⟨.empty, none, fun _ => .waiting⟩ : Publication Bool) steps = some t ∧
      t.db.rows.length = 2 ∧ t.Describes := by
  have hrun : Run (Only Calm (Steps step)) (⟨.empty, none, fun _ => .waiting⟩ : Publication Bool)
      [.write false (.create (exampleNamed "one")) true,
        .write true (.create (exampleNamed "two")) true, .select true true, .set true true,
        .select false true, .set false true] _ :=
    .cons ⟨fun _ => .inr fun d _ h => by cases d <;> exact CallPhase.noConfusion h, rfl⟩ <|
    .cons ⟨fun _ => .inr fun d _ h => by cases d <;> exact CallPhase.noConfusion h, rfl⟩ <|
    .cons ⟨rfl, rfl⟩ <| .cons ⟨rfl, rfl⟩ <| .cons ⟨rfl, rfl⟩ <| .cons ⟨rfl, rfl⟩ <| .nil _
  exact ⟨_, rfl, rfl, describes_of_calm hrun ⟨_, List.mem_cons_self .., rfl⟩
    (fun c hc => by cases c <;> exact hc)⟩

/-- The first call selects, the second one writes, selects and sets, and then the first one sets what it
selected: the second server is missing, and no call is left to publish it. -/
theorem stale_selection_wins :
    let steps : List (PublicationStep Bool) := [.write false (.create (exampleNamed "one")) true,
      .select false true, .write true (.create (exampleNamed "two")) true, .select true true,
      .set true true, .set false true]
    ∃ t, exec step (⟨.empty, none, fun _ => .waiting⟩ : Publication Bool) steps = some t ∧ t.Quiet ∧
      t.db.getActiveServers.map (·.name) = ["one", "two"] ∧
      t.document = some [(ServerTopologyEntry.ofServer (exampleNamed "one")).toJson] ∧
      ¬ t.Describes := by
  refine ⟨_, rfl, fun c hc => by cases c <;> exact hc, rfl, rfl, fun hdesc => ?_⟩
  have hlen := congrArg (Option.map List.length) hdesc
  cases hlen

end Publication

end RustDesk.Api
