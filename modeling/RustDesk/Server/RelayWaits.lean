import RustDesk.Server.RelayPairing

/-!
# How long a relay connection waits

References: `rustdesk-server/src/relay_server.rs` (`make_pair_`).

A stream that found no peer is to wait for one for 30 seconds. Its task removes the uuid from the map
after that time, whatever stream waits there by then, and it sleeps on when its own stream was taken long
before. `keepsWaiting_iff_alone` says when a uuid is used so that no stream loses its place.
-/

namespace RustDesk.Server.Hbbr

variable {C : Type*} {d : C} {uuid : String} {ev : HbbrEvent C}

/-- The task of `d` sleeps, and no other has taken its stream. -/
def Waits (s : Hbbr C) (uuid : String) (d : C) : Prop :=
  (∃ since, s.task d = .sleeping uuid since) ∧ ∀ c, s.task c ≠ .relaying d

/-- A stream in the map stays there, unless the step pairs it or ends its own 30 seconds. -/
def KeepsWaiting (s : Hbbr C) (ev : HbbrEvent C) (t : Hbbr C) : Prop :=
  ∀ uuid d, s.peers uuid = some d →
    t.peers uuid = some d ∨
      (∃ c rf, ev = .request c rf ∧ t.task c = .relaying d) ∨
      ev = .expire d ∧ ∃ since, s.task d = .sleeping uuid since ∧ since + 30_000 ≤ s.now

/-- Nothing else waits under the uuid of a task that enters its stream, or that wakes up. -/
def Alone (s : Hbbr C) : HbbrEvent C → Prop
  | .insert c => ∀ uuid, s.task c = .missed uuid → ∀ d, ¬ s.Waits uuid d
  | .expire c => ∀ uuid since, s.task c = .sleeping uuid since → ∀ d, d ≠ c → ¬ s.Waits uuid d
  | _ => True

/-- The map is about streams that wait. -/
structure WaitInv (s : Hbbr C) : Prop where
  inv : s.Inv
  untaken : ∀ uuid d, s.peers uuid = some d → ∀ c, s.task c ≠ .relaying d
  /-- The task of a stream that was taken has been through its second section. -/
  taken : ∀ c d, s.task c = .relaying d →
    (∃ uuid since, s.task d = .sleeping uuid since) ∨ s.task d = .closed

theorem waitInv_start : WaitInv (start : Hbbr C) where
  inv := inv_start
  untaken := fun _ _ h => (by cases h)
  taken := fun _ _ h => (by cases h)

variable {s t : Hbbr C}

theorem WaitInv.waits (h : s.WaitInv) (hpeer : s.peers uuid = some d) : s.Waits uuid d :=
  ⟨h.inv.entries uuid d hpeer, h.untaken uuid d hpeer⟩

/-- A connection that has not entered its stream yet is nobody's peer. -/
theorem WaitInv.not_taken (h : s.WaitInv) (hawake : ∀ uuid since, s.task d ≠ .sleeping uuid since)
    (hopen : s.task d ≠ .closed) (c : C) : s.task c ≠ .relaying d := by
  intro hc
  rcases h.taken c d hc with ⟨uuid, since, hsleep⟩ | hclosed
  · exact hawake uuid since hsleep
  · exact hopen hclosed

variable [DecidableEq C] {key : String} {c : C}

section

variable (h : s.WaitInv)
include h

theorem WaitInv.setTask_closed (hc : s.task c = .connected) : (s.setTask c .closed).WaitInv where
  inv := h.inv.setTask_closed hc
  untaken := by
    intro uuid d hpeer c'
    by_cases hsame : c' = c
    · simp [setTask, hsame]
    · simpa [setTask, hsame] using h.untaken uuid d hpeer c'
  taken := by
    intro c' d hc'
    have hne : c' ≠ c := by
      rintro rfl
      simp [setTask] at hc'
    have htaken := h.taken c' d (by simpa [setTask, hne] using hc')
    by_cases hd : d = c
    · exact .inr (by simp [setTask, hd])
    · simpa [setTask, hd] using htaken

theorem WaitInv.lookup (hc : s.task c = .connected) (uuid : String) : (s.lookup c uuid).WaitInv where
  inv := h.inv.lookup hc uuid
  untaken := by
    intro uuid' d hpeer c'
    have hne : uuid' ≠ uuid := by
      rintro rfl
      simp [Hbbr.lookup] at hpeer
    replace hpeer : s.peers uuid' = some d := by simpa [Hbbr.lookup, hne] using hpeer
    by_cases hsame : c' = c
    · subst hsame
      cases hfound : s.peers uuid with
      | none => simp [Hbbr.lookup, hfound]
      | some peer =>
        -- one stream does not wait under two uuids
        have hpd : peer ≠ d := by
          rintro rfl
          obtain ⟨since, hsleep⟩ := h.inv.entries uuid peer hfound
          obtain ⟨since', hsleep'⟩ := h.inv.entries uuid' peer hpeer
          rw [hsleep] at hsleep'
          cases hsleep'
          exact hne rfl
        simpa [Hbbr.lookup, hfound] using hpd
    · simpa [Hbbr.lookup, hsame] using h.untaken uuid' d hpeer c'
  taken := by
    intro c' d hc'
    have hasleep : (∃ uuid since, s.task d = .sleeping uuid since) ∨ s.task d = .closed := by
      by_cases hsame : c' = c
      · subst hsame
        cases hfound : s.peers uuid with
        | none => simp [Hbbr.lookup, hfound] at hc'
        | some peer =>
          obtain rfl : peer = d := by simpa [Hbbr.lookup, hfound] using hc'
          exact .inl ⟨uuid, h.inv.entries uuid peer hfound⟩
      · exact h.taken c' d (by simpa [Hbbr.lookup, hsame] using hc')
    have hd : d ≠ c := by
      rintro rfl
      simp [hc] at hasleep
    simpa [Hbbr.lookup, hd] using hasleep

theorem WaitInv.enter (hc : s.task c = .missed uuid) : (s.enter c uuid).WaitInv where
  inv := h.inv.enter hc
  untaken := by
    intro uuid' d hpeer c'
    by_cases hsame : c' = c
    · simp [Hbbr.enter, hsame]
    · have huntaken : s.task c' ≠ .relaying d := by
        by_cases huuid : uuid' = uuid
        · subst huuid
          obtain rfl : c = d := by simpa [Hbbr.enter] using hpeer
          exact h.not_taken (by simp [hc]) (by simp [hc]) c'
        · exact h.untaken uuid' d (by simpa [Hbbr.enter, huuid] using hpeer) c'
      simpa [Hbbr.enter, hsame] using huntaken
  taken := by
    intro c' d hc'
    have hne : c' ≠ c := by
      rintro rfl
      simp [Hbbr.enter] at hc'
    have htaken := h.taken c' d (by simpa [Hbbr.enter, hne] using hc')
    have hd : d ≠ c := by
      rintro rfl
      simp [hc] at htaken
    simpa [Hbbr.enter, hd] using htaken

theorem WaitInv.leave {since : ℕ} (hc : s.task c = .sleeping uuid since) : (s.leave c uuid).WaitInv where
  inv := h.inv.leave hc
  untaken := by
    intro uuid' d hpeer c'
    have hne : uuid' ≠ uuid := by
      rintro rfl
      simp [Hbbr.leave] at hpeer
    by_cases hsame : c' = c
    · simp [Hbbr.leave, hsame]
    · simpa [Hbbr.leave, hsame] using
        h.untaken uuid' d (by simpa [Hbbr.leave, hne] using hpeer) c'
  taken := by
    intro c' d hc'
    have hne : c' ≠ c := by
      rintro rfl
      simp [Hbbr.leave] at hc'
    have htaken := h.taken c' d (by simpa [Hbbr.leave, hne] using hc')
    by_cases hd : d = c
    · exact .inr (by simp [Hbbr.leave, hd])
    · simpa [Hbbr.leave, hd] using htaken

theorem WaitInv.step (hstep : Hbbr.step key s ev = some t) : t.WaitInv := by
  cases ev with
  | request c rf =>
    obtain ⟨hc, ⟨-, rfl⟩ | ⟨-, -, rfl⟩⟩ := request_cases hstep
    · exact h.setTask_closed hc
    · exact h.lookup hc rf.uuid
  | close c =>
    obtain ⟨hc, rfl⟩ := close_cases hstep
    exact h.setTask_closed hc
  | insert c =>
    obtain ⟨uuid, hc, rfl⟩ := insert_cases hstep
    exact h.enter hc
  | expire c =>
    obtain ⟨uuid, since, hc, -, rfl⟩ := expire_cases hstep
    exact h.leave hc
  | tick =>
    cases hstep
    exact ⟨⟨h.inv.entries, h.inv.unasked⟩, h.untaken, h.taken⟩

end

/-! ## What becomes of the tasks -/

/-- A step moves the task of `c`. -/
structure Moves (s : Hbbr C) (ev : HbbrEvent C) (t : Hbbr C) (c : C) (task : PairTask C) :
    Prop where
  conn : ev.conn = some c
  tasks : t.task = Function.update s.task c task
  unpaired : ∀ d, s.task c ≠ .relaying d
  left : task ≠ .connected
  missed : ∀ uuid, task = .missed uuid → ∃ rf, ev = .request c rf
  relaying : ∀ d, task = .relaying d → ∃ rf, ev = .request c rf ∧ s.peers rf.uuid = some d
  sleeping : ∀ uuid since, task = .sleeping uuid since → t.peers uuid = some c

theorem Moves.self {task : PairTask C} (h : Moves s ev t c task) : t.task c = task := by
  rw [h.tasks, Function.update_self]

theorem Moves.other {task : PairTask C} (h : Moves s ev t c task) (hd : d ≠ c) : t.task d = s.task d := by
  rw [h.tasks, Function.update_of_ne hd]

/-- A step moves one task, but for the clock. -/
theorem task_moves (hstep : step key s ev = some t) :
    ev = .tick ∧ t.task = s.task ∨ ∃ c task, Moves s ev t c task := by
  cases ev with
  | request c rf =>
    obtain ⟨hc, ⟨-, rfl⟩ | ⟨-, -, rfl⟩⟩ := request_cases hstep
    · exact .inr ⟨c, .closed, rfl, rfl, by simp [hc], by simp, by simp, by simp, by simp⟩
    · cases hfound : s.peers rf.uuid with
      | none =>
        refine .inr ⟨c, .missed rf.uuid, rfl, ?_, by simp [hc], by simp, fun _ _ => ⟨rf, rfl⟩, by simp, by simp⟩
        simp only [lookup, hfound]
      | some peer =>
        refine .inr ⟨c, .relaying peer, rfl, ?_, by simp [hc], by simp, by simp, ?_, by simp⟩
        · simp only [lookup, hfound]
        · rintro d ⟨⟩
          exact ⟨rf, rfl, hfound⟩
  | close c =>
    obtain ⟨hc, rfl⟩ := close_cases hstep
    exact .inr ⟨c, .closed, rfl, rfl, by simp [hc], by simp, by simp, by simp, by simp⟩
  | insert c =>
    obtain ⟨uuid, hc, rfl⟩ := insert_cases hstep
    refine .inr ⟨c, .sleeping uuid s.now, rfl, rfl, by simp [hc], by simp, by simp, by simp, ?_⟩
    rintro uuid' since ⟨⟩
    simp [enter]
  | expire c =>
    obtain ⟨uuid, since, hc, -, rfl⟩ := expire_cases hstep
    exact .inr ⟨c, .closed, rfl, rfl, by simp [hc], by simp, by simp, by simp, by simp⟩
  | tick =>
    cases hstep
    exact .inl ⟨rfl, rfl⟩

/-! ## A step that no other stream is in the way of -/

theorem WaitInv.keepsWaiting (h : s.WaitInv) (halone : s.Alone ev)
    (hstep : Hbbr.step key s ev = some t) : KeepsWaiting s ev t := by
  intro uuid d hpeer
  cases ev with
  | request c rf =>
    obtain ⟨-, ⟨-, rfl⟩ | ⟨-, -, rfl⟩⟩ := request_cases hstep
    · exact .inl hpeer
    · by_cases huuid : uuid = rf.uuid
      · subst huuid
        exact .inr (.inl ⟨c, rf, rfl, by simp [Hbbr.lookup, hpeer]⟩)
      · exact .inl (by simpa [Hbbr.lookup, huuid] using hpeer)
  | close c =>
    obtain ⟨-, rfl⟩ := close_cases hstep
    exact .inl hpeer
  | insert c =>
    obtain ⟨uuid', hc, rfl⟩ := insert_cases hstep
    have huuid : uuid ≠ uuid' := by
      rintro rfl
      exact halone uuid hc d (h.waits hpeer)
    exact .inl (by simpa [Hbbr.enter, huuid] using hpeer)
  | expire c =>
    obtain ⟨uuid', since, hc, hslept, rfl⟩ := expire_cases hstep
    by_cases huuid : uuid = uuid'
    · subst huuid
      have hd : d = c := by
        by_contra hne
        exact halone uuid since hc d hne (h.waits hpeer)
      subst hd
      exact .inr (.inr ⟨rfl, since, hc, hslept⟩)
    · exact .inl (by simpa [Hbbr.leave, huuid] using hpeer)
  | tick =>
    cases hstep
    exact .inl hpeer

/-! ## Steps that lose no stream -/

/-- No stream that waits was lost. -/
def Stored (s : Hbbr C) : Prop := ∀ uuid d, s.Waits uuid d → s.peers uuid = some d

/-- Who waits after a step waited before, or has just entered its stream. -/
theorem waits_before (hstep : step key s ev = some t)
    (hwaits : t.Waits uuid d) : s.Waits uuid d ∨ t.peers uuid = some d := by
  obtain ⟨⟨since, hsleep⟩, huntaken⟩ := hwaits
  rcases task_moves hstep with ⟨-, htask⟩ | ⟨c, task, hmove⟩
  · rw [htask] at hsleep huntaken
    exact .inl ⟨⟨since, hsleep⟩, huntaken⟩
  · by_cases hd : d = c
    · subst hd
      rw [hmove.self] at hsleep
      exact .inr (hmove.sleeping uuid since hsleep)
    · rw [hmove.other hd] at hsleep
      refine .inl ⟨⟨since, hsleep⟩, fun c' => ?_⟩
      by_cases hsame : c' = c
      · exact hsame ▸ hmove.unpaired d
      · rw [← hmove.other hsame]
        exact huntaken c'

theorem Stored.step (h : s.Stored) (hstep : Hbbr.step key s ev = some t)
    (hkeeps : KeepsWaiting s ev t) : t.Stored := by
  intro uuid d hwaits
  rcases waits_before hstep hwaits with hbefore | hentered
  · rcases hkeeps uuid d (h uuid d hbefore) with hkept | ⟨c, rf, -, hpaired⟩ | ⟨rfl, -⟩
    · exact hkept
    · exact absurd hpaired (hwaits.2 c)
    · -- a task that woke up sleeps no more
      obtain ⟨uuid', since, -, -, rfl⟩ := expire_cases hstep
      obtain ⟨⟨since', hsleep⟩, -⟩ := hwaits
      simp [leave] at hsleep
  · exact hentered

theorem Stored.alone (h : s.Stored) (hstep : Hbbr.step key s ev = some t)
    (hkeeps : KeepsWaiting s ev t) : s.Alone ev := by
  cases ev with
  | insert c =>
    intro uuid hc d hwaits
    obtain ⟨uuid', hc', rfl⟩ := insert_cases hstep
    obtain rfl : uuid = uuid' := by simpa [hc] using hc'
    have hne : d ≠ c := by
      rintro rfl
      obtain ⟨since, hsleep⟩ := hwaits.1
      simp [hc] at hsleep
    rcases hkeeps uuid d (h uuid d hwaits) with hkept | ⟨c', rf, hev, -⟩ | ⟨hev, -⟩
    · obtain rfl : c = d := by simpa [Hbbr.enter] using hkept
      exact hne rfl
    · cases hev
    · cases hev
  | expire c =>
    intro uuid since hc d hne hwaits
    obtain ⟨uuid', since', hc', -, rfl⟩ := expire_cases hstep
    obtain ⟨rfl, -⟩ : uuid = uuid' ∧ since = since' := by simpa [hc] using hc'
    rcases hkeeps uuid d (h uuid d hwaits) with hkept | ⟨c', rf, hev, -⟩ | ⟨hev, -⟩
    · simp [Hbbr.leave] at hkept
    · cases hev
    · cases hev
      exact hne rfl
  | _ => trivial

omit [DecidableEq C] in
theorem stored_start : Stored (start : Hbbr C) := by
  rintro uuid d ⟨⟨since, hsleep⟩, -⟩
  cases hsleep

/-- **Waiting for a peer.** In the steps of a run a waiting stream leaves the map only when it is paired or
when its own 30 seconds are over, exactly if no task enters its stream or wakes up while another
stream waits under the same uuid. -/
theorem keepsWaiting_iff_alone {as : List (HbbrEvent C)} :
    Run (fun s ev t => step key s ev = some t ∧ KeepsWaiting s ev t) start as t ↔
      Run (Only Alone (Steps (step key))) start as t := by
  constructor
  · intro hrun
    exact hrun.mono_of_invariant (fun _ _ _ (h : Stored _) hstep => h.step hstep.1 hstep.2)
      (fun _ _ _ h hstep => ⟨h.alone hstep.1 hstep.2, hstep.1⟩) stored_start
  · intro hrun
    exact hrun.mono_of_invariant (fun _ _ _ (h : WaitInv _) hstep => h.step hstep.2)
      (fun _ _ _ h hstep => ⟨hstep.2, h.keepsWaiting hstep.1 hstep.2⟩) waitInv_start

/-! ## One uuid, three connections -/

theorem step_expire {since : ℕ} (hc : s.task c = .sleeping uuid since)
    (hslept : since + 30_000 ≤ s.now) : step key s (.expire c) = some (s.leave c uuid) := by
  simp [step, hc, hslept]

theorem run_ticks (s : Hbbr C) (n : ℕ) :
    Run (Steps (step key)) s (.replicate n .tick) { s with now := s.now + n } := by
  induction n generalizing s with
  | zero => exact .nil s
  | succ n ih =>
    have hrest := ih { s with now := s.now + 1 }
    rw [Nat.add_right_comm] at hrest
    exact .cons rfl hrest

/-- The second connection is paired with the first at once, and ten seconds later a third one enters
its stream under their uuid: the first wakes up 20 seconds after that and drops it. -/
theorem dropped_by_earlier_timer :
    ∃ as s t, Run (Steps (step "key")) (start : Hbbr (Fin 3)) as s ∧
      step "key" s (.expire 0) = some t ∧
      s.peers "uuid" = some 2 ∧ s.task 2 = .sleeping "uuid" 10_000 ∧ s.now = 30_000 ∧
      t.peers "uuid" = none ∧ ¬ KeepsWaiting s (.expire 0) t := by
  have hpaired : Run (Steps (step "key")) (start : Hbbr (Fin 3))
      [.request 0 exampleRequest, .insert 0, .request 1 exampleRequest] _ :=
    exec_eq_some_iff.mp rfl
  have hreused := (hpaired.append (run_ticks _ 10_000)).append <| exec_eq_some_iff.mp <|
    show exec _ _ [.request 2 exampleRequest, .insert 2] = _ from rfl
  refine ⟨_, _, _, hreused.append (run_ticks _ 20_000), step_expire rfl (Nat.le_refl 30_000),
    rfl, rfl, rfl, rfl, ?_⟩
  intro hkeeps
  rcases hkeeps "uuid" 2 rfl with hkept | ⟨c, rf, hev, -⟩ | ⟨hev, -⟩
  · cases hkept
  · cases hev
  · cases hev

end RustDesk.Server.Hbbr
