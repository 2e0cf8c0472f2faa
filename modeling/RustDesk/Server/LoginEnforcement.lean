import RustDesk.Server.RefusedSessions
import RustDesk.Server.RendezvousSteps

/-!
# Requests without a login

References: `rustdesk-server/src/rendezvous_server.rs` (`handle_tcp`, `handle_udp`,
`handle_punch_hole_request`).

With `MUST_LOGIN`, `handle_punch_hole_request` asks for a licence, a token, an account in good standing
and the permission for the device before it gives a message for the peer. `RequestRelay` reaches the same
peer: it carries a licence key and a token, too, and nothing looks at them.
-/

namespace RustDesk.Server

open Net

/-- The request presents the right licence and a token of a user in good standing, who has a live
subscription and the permission for the device. -/
def Authorized (cfg : HbbsConfig) (env : PunchEnv) (d : String) (ph : PunchHoleRequest) : Prop :=
  ∃ claims sub, Admitted cfg env ph claims sub ∧ env.permission claims.userId d = some true

/-- Where a login is asked for, a request that gets a message for the peer is authorized. -/
theorem authorized_of_passed {cfg : HbbsConfig} {env : PunchEnv} {s : Registry} {sessions : Sessions}
    {addr : SocketAddr} {ph : PunchHoleRequest} {ws : Bool} (hlogin : cfg.mustLogin = true)
    (hsecret : cfg.secret ≠ "")
    (hpassed : (handlePunchHoleRequest cfg env s sessions addr ph ws).1.2 ≠ none) :
    Authorized cfg env ph.id ph := by
  cases hcheck : checkLogin cfg env ph with
  | error msg => simp [handlePunchHoleRequest, hcheck] at hpassed
  | ok admitted =>
    cases admitted with
    | none =>
      -- the one answer without claims is that of a server that asks for no login
      exfalso
      unfold checkLogin at hcheck
      simp only [hlogin, hsecret, if_true, ne_eq, not_false_eq_true] at hcheck
      repeat' split at hcheck
      all_goals cases hcheck
    | some admitted =>
      obtain ⟨claims, sub⟩ := admitted
      have hadmitted := checkLogin_eq_ok_some_iff.mp hcheck
      obtain ⟨hsession, -⟩ := (request_of_admitted hadmitted s sessions addr ws).2.mp hpassed
      exact ⟨claims, sub, hadmitted, (checkSession_fst_iff.mp hsession).2⟩

namespace Rendezvous

variable {C : Type*} {cfg : HbbsConfig} {d : String}

/-- The event is a request for the device that presents all that is asked for. -/
def Presents (cfg : HbbsConfig) (d : String) : HbbsEvent C → Prop
  | .tcp _ env (some (.punchHoleRequest ph)) | .udp _ env (some (.punchHoleRequest ph)) =>
    ph.id = d ∧ Authorized cfg env.toPunchEnv d ph
  | _ => False

/-- The event is a `RequestRelay` for the device, while the device is known. -/
def Relays (d : String) (s : Rendezvous C) : HbbsEvent C → Prop
  | .tcp _ _ (some (.requestRelay rf)) => rf.id = d ∧ s.registry.map d ≠ none
  | _ => False

/-- The client sends no `RequestRelay` for the device. -/
def NoRelay (mine : Source C → Prop) (d : String) (s : Rendezvous C) (ev : HbbsEvent C) : Prop :=
  mine ev.source → ¬ Relays d s ev

/-- Something is sent to the device. -/
def Forwards (d : String) (effs : List (Effect C)) : Prop :=
  ∃ dest msg, .forward d dest msg ∈ effs

variable [DecidableEq C] {s t : Rendezvous C}

/-- Only an authorized request and a `RequestRelay` send something to a device. -/
theorem presents_or_relays {ev : HbbsEvent C} (hlogin : cfg.mustLogin = true)
    (hsecret : cfg.secret ≠ "") (hstep : step cfg s ev = some t)
    (hforward : Forwards d (effects cfg s ev)) : Presents cfg d ev ∨ Relays d s ev := by
  obtain ⟨dest, msg, hmem⟩ := hforward
  cases sends_of_mem_effects hstep hmem with
  | reply h => exact h.elim
  | datagram h => exact h.elim
  | passed h | passedUdp h => exact .inl ⟨rfl, authorized_of_passed hlogin hsecret (by rw [h]; simp)⟩
  | relay h => exact .inr ⟨rfl, by rw [h]; simp⟩

/-- A `RequestRelay` for a known device is sent to it, whoever it is from. -/
theorem forwards_of_relays {ev : HbbsEvent C} (hstep : step cfg s ev = some t) (h : Relays d s ev) :
    Forwards d (effects cfg s ev) := by
  cases step_stepped hstep with
  | accept | close | udp => exact h.elim
  | @tcp c env msg conn u effs after hconn hopen hu hacts =>
    cases msg with
    | none => exact h.elim
    | some m =>
      cases m with
      | requestRelay rf =>
        obtain ⟨rfl, hknown⟩ := h
        obtain ⟨peer, hpeer⟩ := Option.ne_none_iff_exists'.mp hknown
        have hmap : (s.park c conn).registry.getInMemory rf.id = some peer := by
          rw [registry_park, Registry.getInMemory, hpeer]
        rw [effects, hconn]
        simp only [handleTcp, hmap]
        exact ⟨_, _, List.mem_singleton_self _⟩
      | _ => exact h.elim

/-- **Who never presents what a login asks for reaches a device** exactly if it sends a `RequestRelay`
for it while it is known. `mine` is any set of connections and addresses. -/
theorem never_forwards_iff (mine : Source C → Prop) {registry : Registry} {sessions : Sessions}
    {evs : List (HbbsEvent C)}
    (hrun : Run (Steps (step cfg)) (start registry sessions) evs t) (hlogin : cfg.mustLogin = true)
    (hsecret : cfg.secret ≠ "") (hnever : ∀ ev ∈ evs, mine ev.source → ¬ Presents cfg d ev) :
    (∀ src dest msg, mine src → (src, .forward d dest msg) ∉ t.log) ↔
      Run (Only (NoRelay mine d) (Steps (step cfg))) (start registry sessions) evs t := by
  constructor
  · intro hclean
    obtain honly | ⟨before, ev, after, m, m', -, -, hnot, hstep, hafter⟩ :=
      hrun.only_or_not (NoRelay mine d)
    · exact honly
    · obtain ⟨hmine, hrelays⟩ : mine ev.source ∧ Relays d m ev := by
        simpa only [NoRelay, Classical.not_imp, not_not] using hnot
      obtain ⟨dest, msg, hmem⟩ := forwards_of_relays hstep hrelays
      have hlogged : (ev.source, .forward d dest msg) ∈ m'.log := by
        rw [log_step hstep]
        exact List.mem_append_right _ (List.mem_map_of_mem hmem)
      exact absurd (log_run hafter hlogged) (hclean _ _ _ hmine)
  · intro honly
    have hall := honly.only hnever
    have hstep : ∀ (s : Rendezvous C) ev t,
        (∀ src dest msg, mine src → (src, .forward d dest msg) ∉ s.log) →
        Only (fun _ ev => mine ev.source → ¬ Presents cfg d ev)
          (Only (NoRelay mine d) (Steps (step cfg))) s ev t →
        ∀ src dest msg, mine src → (src, .forward d dest msg) ∉ t.log := by
      rintro s ev t hclean ⟨hpresents, hrelay, hstep⟩ src dest msg hmine hlog
      rw [log_step hstep, List.mem_append] at hlog
      rcases hlog with hold | hnew
      · exact hclean _ _ _ hmine hold
      · obtain ⟨e, he, heq⟩ := List.mem_map.mp hnew
        cases heq
        rcases presents_or_relays hlogin hsecret hstep ⟨dest, msg, he⟩ with h | h
        · exact hpresents hmine h
        · exact hrelay hmine h
    have hclean := Run.invariant hstep hall (by simp [start])
    exact hclean

/-! ## Two runs -/

/-- What a message takes from outside, with a database that works. -/
def exampleHbbsEnv : HbbsEnv :=
  { exampleEnv true with
    writeOk := true, guid := .replicate 16 7, ipAllowed := true, serial := 0
    rendezvousServers := [], relayEntries := [] }

def exampleDevice : RegisterPk := ⟨"123456789", [1], [2]⟩

/-- A device registers, and a client of number 0 connects. -/
def exampleStart : List (HbbsEvent ℕ) :=
  [.udp ⟨.ofOctets 10 0 0 1, 40000⟩ exampleHbbsEnv (some (.registerPk exampleDevice)),
    .accept 0 ⟨.ofOctets 10 0 0 2, 40000⟩ false]

/-- The server after some events. -/
def exampleAfter (evs : List (HbbsEvent ℕ)) : Rendezvous ℕ :=
  (exec (step exampleConfig) (start ⟨fun _ => none, .empty⟩ fun _ => .empty) evs).getD
    (start ⟨fun _ => none, .empty⟩ fun _ => .empty)

/-- A relay request without a licence and without a token. -/
def exampleRelay : RequestRelay := ⟨"123456789", "uuid", [], "", false, "", .known .defaultConn, ""⟩

def exampleRefused : List (HbbsEvent ℕ) :=
  exampleStart ++ [.tcp 0 exampleHbbsEnv (some (.punchHoleRequest { examplePunch with token := "" }))]

def exampleRelayed : List (HbbsEvent ℕ) :=
  exampleStart ++ [.tcp 0 exampleHbbsEnv (some (.requestRelay exampleRelay))]

/-- A request without a token is refused. -/
theorem never_forwards_refused :
    ∃ t, Run (Steps (step exampleConfig)) (start ⟨fun _ => none, .empty⟩ fun _ => .empty)
        exampleRefused t ∧
      ∀ src dest msg, src = .conn 0 → (src, .forward "123456789" dest msg) ∉ t.log := by
  obtain ⟨t, hexec⟩ : ∃ t, exec (step exampleConfig)
      (start ⟨fun _ => none, .empty⟩ fun _ => .empty) exampleRefused = some t := ⟨_, rfl⟩
  have hrun := exec_eq_some_iff.mp hexec
  have hnever : ∀ ev ∈ exampleRefused, ev.source = .conn 0 →
      ¬ Presents exampleConfig "123456789" ev := by
    simp only [exampleRefused, exampleStart, List.cons_append, List.nil_append, List.forall_mem_cons]
    refine ⟨fun h => ?_, fun _ h => h, fun _ h => ?_, by simp⟩
    · cases h
    · obtain ⟨-, claims, sub, hadmitted, -⟩ := h
      exact hadmitted.token rfl
  have hrelay : ∀ ev ∈ exampleRefused, ∀ s : Rendezvous ℕ, ¬ Relays "123456789" s ev := by
    simp [exampleRefused, exampleStart, Relays]
  refine ⟨t, hrun, (never_forwards_iff (· = .conn 0) hrun rfl (by decide) hnever).mpr ?_⟩
  exact (hrun.only hrelay).mono fun s ev t h => ⟨fun _ => h.1 s, h.2⟩

/-- A client that presents nothing at all sends a relay request to the device. -/
theorem relayed_without_token :
    ∃ t, Run (Steps (step exampleConfig)) (start ⟨fun _ => none, .empty⟩ fun _ => .empty)
        exampleRelayed t ∧
      exampleConfig.mustLogin = true ∧ exampleConfig.secret ≠ "" ∧ exampleConfig.key ≠ "" ∧
      (∀ ev ∈ exampleRelayed, ev.source = .conn 0 → ¬ Presents exampleConfig "123456789" ev) ∧
      ∃ msg, (.conn 0, .forward "123456789" (.inr ⟨.ofOctets 10 0 0 1, 40000⟩) msg) ∈ t.log := by
  obtain ⟨t, hexec, e, msg, hlog⟩ : ∃ t, exec (step exampleConfig)
      (start ⟨fun _ => none, .empty⟩ fun _ => .empty) exampleRelayed = some t ∧
      ∃ e msg, t.log = [e,
        (.conn 0, .forward "123456789" (.inr ⟨.ofOctets 10 0 0 1, 40000⟩) msg)] :=
    ⟨_, rfl, _, _, rfl⟩
  have hnever : ∀ ev ∈ exampleRelayed, ev.source = .conn 0 →
      ¬ Presents exampleConfig "123456789" ev := by
    simp [exampleRelayed, exampleStart, Presents]
  refine ⟨t, exec_eq_some_iff.mp hexec, rfl, by decide, by decide, hnever, msg, ?_⟩
  rw [hlog]
  simp

end Rendezvous

end RustDesk.Server
