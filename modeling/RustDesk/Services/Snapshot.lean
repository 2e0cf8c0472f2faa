import Mathlib.Data.Finset.Card
import RustDesk.Common.Run
import RustDesk.Services.ServiceInner

/-!
# The snapshot of a service

Reference: `src/server/service.rs` (`snapshot`, `send_shared`, `ServiceSwap`). The thread of a service shows what
there is to the new subscribers, through a `ServiceSwap`, and when this is dropped they become subscribers
like the others. `step` is one section under the lock of the service, so that connections come and go between
any two of them. `history` keeps what each connection did and was sent.
-/

namespace RustDesk.Services

variable {M : Type*}

/-- What happened to a connection: its calls, and the messages sent to it. -/
inductive SubEvent (M : Type*)
  | subscribed
  | unsubscribed
  | snapshot (msg : M)
  | update (msg : M)

/-- The service, whether its thread has a `ServiceSwap`, and what happened to each connection. -/
structure SnapshotWorld (M : Type*) where
  service : ServiceInner
  swap : Bool
  history : ConnId → List (SubEvent M)

inductive SnapshotLabel (M : Type*)
  | onSubscribe (sub : ConnId)
  | onUnsubscribe (id : ConnId)
  /-- `snapshot` finds new subscribers, and calls back. -/
  | snapshot
  /-- the callback sends through its `ServiceSwap` -/
  | sendNew (msg : M)
  /-- the callback ended, well or not, and dropped its `ServiceSwap` -/
  | drop
  | send (msg : M)

namespace SnapshotWorld

/-- A service that wants a snapshot. -/
def init (name : List Char) : SnapshotWorld M := ⟨.new name true, false, fun _ => []⟩

/-- The histories with one more event for some connections. -/
def note (history : ConnId → List (SubEvent M)) (ids : Finset ConnId) (event : SubEvent M) :
    ConnId → List (SubEvent M) :=
  fun id => if id ∈ ids then history id ++ [event] else history id

def step (world : SnapshotWorld M) : SnapshotLabel M → Option (SnapshotWorld M)
  | .onSubscribe sub =>
    let history := if world.service.isSubed sub then world.history else note world.history {sub} .subscribed
    some { world with service := world.service.onSubscribe sub, history := history }
  | .onUnsubscribe id =>
    some { world with
      service := world.service.onUnsubscribe id, history := note world.history {id} .unsubscribed }
  | .snapshot =>
    if world.swap = false ∧ 0 < world.service.newSubscribes.card then some { world with swap := true } else none
  | .sendNew msg =>
    if world.swap then
      some { world with history := note world.history world.service.newSubscribes (.snapshot msg) }
    else none
  | .drop =>
    if world.swap then some { world with service := world.service.swapNewSubscribes, swap := false } else none
  | .send msg => some { world with history := note world.history world.service.subscribes (.update msg) }

end SnapshotWorld

/-! ## What a connection is promised -/

/-- Where a connection is: not subscribed, waiting for a snapshot, or shown one. -/
inductive SubPhase
  | gone
  | waiting
  | shown
  deriving DecidableEq

/-- The phase after an event. -/
def SubPhase.after : SubPhase → SubEvent M → SubPhase
  | _, .subscribed => .waiting
  | _, .unsubscribed => .gone
  | .waiting, .snapshot _ => .shown
  | phase, _ => phase

def subPhase (history : List (SubEvent M)) : SubPhase := history.foldl SubPhase.after .gone

/-- Every event of a history is right where the connection is. -/
def Throughout (Right : SubPhase → SubEvent M → Prop) (history : List (SubEvent M)) : Prop :=
  ∀ before event after, history = before ++ event :: after → Right (subPhase before) event

/-- **Snapshot before updates**: an update comes only to a connection that was shown a snapshot. -/
def SnapshotFirst : List (SubEvent M) → Prop :=
  Throughout fun phase event =>
    match event with
    | .update _ => phase = .shown
    | _ => True

/-- Nothing is sent to a connection that is not subscribed. -/
def QuietWhenGone : List (SubEvent M) → Prop :=
  Throughout fun phase event =>
    match event with
    | .update _ => phase ≠ .gone
    | .snapshot _ => phase ≠ .gone
    | _ => True

@[simp]
theorem subPhase_concat (history : List (SubEvent M)) (event : SubEvent M) :
    subPhase (history ++ [event]) = (subPhase history).after event := List.foldl_append

theorem Throughout.nil (Right : SubPhase → SubEvent M → Prop) : Throughout Right [] := by
  intro before event after h
  exact absurd h.symm (List.append_ne_nil_of_right_ne_nil _ (List.cons_ne_nil _ _))

theorem throughout_concat {Right : SubPhase → SubEvent M → Prop} {history : List (SubEvent M)}
    {event : SubEvent M} :
    Throughout Right (history ++ [event]) ↔ Throughout Right history ∧ Right (subPhase history) event := by
  constructor
  · intro h
    refine ⟨fun before e after heq => h before e (after ++ [event]) ?_, h history event [] rfl⟩
    rw [heq, List.append_assoc, List.cons_append]
  · rintro ⟨h, hlast⟩ before e after heq
    rcases List.eq_nil_or_concat after with rfl | ⟨after, last, rfl⟩
    · obtain ⟨rfl, he⟩ := List.append_inj' heq rfl
      obtain rfl := List.singleton_inj.mp he
      exact hlast
    · rw [List.concat_eq_append, ← List.cons_append, ← List.append_assoc] at heq
      exact h before e after (List.append_inj' heq rfl).1

namespace SnapshotWorld

variable {world world' : SnapshotWorld M} {label : SnapshotLabel M} {event : SubEvent M}
  {history : ConnId → List (SubEvent M)} {ids : Finset ConnId}

theorem note_of_mem {id : ConnId} (h : id ∈ ids) : note history ids event id = history id ++ [event] := if_pos h

theorem note_of_notMem {id : ConnId} (h : id ∉ ids) : note history ids event id = history id := if_neg h

/-! ## What holds in every run -/

/-- The maps are apart, those in them are the subscribed ones, and no one else is sent anything. -/
structure Orderly (world : SnapshotWorld M) : Prop where
  separate : world.service.Separate
  phase : ∀ id, world.service.isSubed id = true ↔ subPhase (world.history id) ≠ .gone
  quiet : ∀ id, QuietWhenGone (world.history id)

theorem Orderly.init (name : List Char) : Orderly (init name : SnapshotWorld M) where
  separate := ServiceInner.separate_new name true
  phase := fun id => by simp [SnapshotWorld.init, ServiceInner.new, subPhase]
  quiet := fun id => .nil _

/-- Messages to subscribers leave the order. -/
theorem Orderly.sent (h : Orderly world) (hids : ∀ id ∈ ids, world.service.isSubed id = true)
    (hevent : (∃ msg, event = .update msg) ∨ ∃ msg, event = .snapshot msg) :
    Orderly { world with history := note world.history ids event } := by
  have hstill : ∀ phase : SubPhase, phase ≠ .gone → phase.after event ≠ .gone := by
    rcases hevent with ⟨msg, rfl⟩ | ⟨msg, rfl⟩ <;> rintro (_ | _ | _) hphase <;>
      first | exact absurd rfl hphase | exact fun heq => by cases heq
  refine ⟨h.separate, fun id => ?_, fun id => ?_⟩
  · dsimp only
    by_cases hid : id ∈ ids
    · rw [note_of_mem hid, subPhase_concat]
      exact iff_of_true (hids id hid) (hstill _ ((h.phase id).mp (hids id hid)))
    · rw [note_of_notMem hid]
      exact h.phase id
  · dsimp only
    by_cases hid : id ∈ ids
    · rw [note_of_mem hid]
      refine throughout_concat.mpr ⟨h.quiet id, ?_⟩
      have hphase := (h.phase id).mp (hids id hid)
      rcases hevent with ⟨msg, rfl⟩ | ⟨msg, rfl⟩ <;> exact hphase
    · rw [note_of_notMem hid]
      exact h.quiet id

theorem Orderly.step (h : Orderly world) (hstep : world.step label = some world') : Orderly world' := by
  cases label with
  | onSubscribe sub =>
    cases hstep
    refine ⟨h.separate.onSubscribe sub, fun id => ?_, fun id => ?_⟩
    · dsimp only
      rw [ServiceInner.isSubed_onSubscribe, h.phase id]
      split
      · next hsubed =>
        refine or_iff_left_of_imp ?_
        rintro rfl
        exact (h.phase id).mp hsubed
      · by_cases hid : id = sub
        · rw [note_of_mem (Finset.mem_singleton.mpr hid), subPhase_concat]
          exact iff_of_true (.inr hid) (by simp [SubPhase.after])
        · rw [note_of_notMem (fun hmem => hid (Finset.mem_singleton.mp hmem))]
          exact or_iff_left hid
    · dsimp only
      split
      · exact h.quiet id
      · by_cases hid : id ∈ ({sub} : Finset ConnId)
        · rw [note_of_mem hid]
          exact throughout_concat.mpr ⟨h.quiet id, trivial⟩
        · rw [note_of_notMem hid]
          exact h.quiet id
  | onUnsubscribe id' =>
    cases hstep
    refine ⟨h.separate.onUnsubscribe id', fun id => ?_, fun id => ?_⟩
    · dsimp only
      rw [h.separate.isSubed_onUnsubscribe, h.phase id]
      by_cases hid : id = id'
      · rw [note_of_mem (Finset.mem_singleton.mpr hid), subPhase_concat]
        exact iff_of_false (fun hne => hne.2 hid) (fun hne => hne (by simp [SubPhase.after]))
      · rw [note_of_notMem (fun hmem => hid (Finset.mem_singleton.mp hmem))]
        exact and_iff_left hid
    · dsimp only
      by_cases hid : id ∈ ({id'} : Finset ConnId)
      · rw [note_of_mem hid]
        exact throughout_concat.mpr ⟨h.quiet id, trivial⟩
      · rw [note_of_notMem hid]
        exact h.quiet id
  | snapshot =>
    rw [SnapshotWorld.step, Option.ite_none_right_eq_some] at hstep
    cases hstep.2
    exact ⟨h.separate, h.phase, h.quiet⟩
  | sendNew msg =>
    rw [SnapshotWorld.step, Option.ite_none_right_eq_some] at hstep
    cases hstep.2
    exact h.sent (fun id hid => ServiceInner.isSubed_iff.mpr (.inr hid)) (.inr ⟨msg, rfl⟩)
  | drop =>
    rw [SnapshotWorld.step, Option.ite_none_right_eq_some] at hstep
    cases hstep.2
    refine ⟨h.separate.swapNewSubscribes, fun id => ?_, h.quiet⟩
    rw [← h.phase id, ServiceInner.isSubed_iff, ServiceInner.isSubed_iff]
    simp [ServiceInner.swapNewSubscribes]
  | send msg =>
    cases hstep
    exact h.sent (fun id hid => ServiceInner.isSubed_iff.mpr (.inl hid)) (.inl ⟨msg, rfl⟩)

/-! ## When the snapshot comes first -/

/-- Whoever waits when a `ServiceSwap` is dropped was shown a snapshot while waiting. -/
def SwapShown (world : SnapshotWorld M) (label : SnapshotLabel M) : Prop :=
  label = .drop → ∀ id ∈ world.service.newSubscribes, subPhase (world.history id) = .shown

/-- Those in the map that `send` goes over were shown a snapshot, and no update came before one. -/
structure Shown (world : SnapshotWorld M) : Prop where
  need : world.service.needSnapshot = true
  shown : ∀ id ∈ world.service.subscribes, subPhase (world.history id) = .shown
  first : ∀ id, SnapshotFirst (world.history id)

theorem Shown.init (name : List Char) : Shown (init name : SnapshotWorld M) where
  need := rfl
  shown := fun id hid => absurd hid (Finset.notMem_empty id)
  first := fun _ => .nil _

/-- A call that is noted for one connection sends nothing. -/
theorem SnapshotFirst.note (h : ∀ id, SnapshotFirst (history id))
    (ids : Finset ConnId) (hevent : ∀ msg, event ≠ .update msg) (id : ConnId) :
    SnapshotFirst (note history ids event id) := by
  by_cases hid : id ∈ ids
  · rw [note_of_mem hid]
    refine throughout_concat.mpr ⟨h id, ?_⟩
    cases event with
    | update msg => exact absurd rfl (hevent msg)
    | _ => trivial
  · rw [note_of_notMem hid]
    exact h id

theorem Shown.step (h : Shown world) (hstep : world.step label = some world') (hswap : SwapShown world label) :
    Shown world' := by
  cases label with
  | onSubscribe sub =>
    cases hstep
    have hsubscribes : (world.service.onSubscribe sub).subscribes = world.service.subscribes ∧
        (world.service.onSubscribe sub).needSnapshot = true := by
      unfold ServiceInner.onSubscribe
      rw [if_pos h.need]
      split <;> exact ⟨rfl, h.need⟩
    refine ⟨hsubscribes.2, fun id hid => ?_, fun id => ?_⟩
    · rw [hsubscribes.1] at hid
      dsimp only
      split
      · exact h.shown id hid
      · next hsub =>
        rw [note_of_notMem, h.shown id hid]
        rw [Finset.mem_singleton]
        rintro rfl
        exact hsub (ServiceInner.isSubed_iff.mpr (.inl hid))
    · dsimp only
      split
      · exact h.first id
      · exact SnapshotFirst.note h.first _ (fun _ heq => by cases heq) id
  | onUnsubscribe id' =>
    cases hstep
    refine ⟨?_, fun id hid => ?_, fun id => SnapshotFirst.note h.first _ (fun _ heq => by cases heq) id⟩
    · unfold ServiceInner.onUnsubscribe
      split <;> exact h.need
    · have hkept : id ∈ world.service.subscribes ∧ id ≠ id' := by
        unfold ServiceInner.onUnsubscribe at hid
        split at hid
        · exact (Finset.mem_erase.mp hid).symm
        · next hnot => exact ⟨hid, fun heq => hnot (heq ▸ hid)⟩
      dsimp only
      rw [note_of_notMem, h.shown id hkept.1]
      exact fun hmem => hkept.2 (Finset.mem_singleton.mp hmem)
  | snapshot =>
    rw [SnapshotWorld.step, Option.ite_none_right_eq_some] at hstep
    cases hstep.2
    exact ⟨h.need, h.shown, h.first⟩
  | sendNew msg =>
    rw [SnapshotWorld.step, Option.ite_none_right_eq_some] at hstep
    cases hstep.2
    refine ⟨h.need, fun id hid => ?_, fun id => SnapshotFirst.note h.first _ (fun _ heq => by cases heq) id⟩
    have hshown := h.shown id hid
    dsimp only
    by_cases hnew : id ∈ world.service.newSubscribes
    · rw [note_of_mem hnew, subPhase_concat, hshown]
      rfl
    · rw [note_of_notMem hnew]
      exact hshown
  | drop =>
    rw [SnapshotWorld.step, Option.ite_none_right_eq_some] at hstep
    cases hstep.2
    refine ⟨h.need, fun id hid => ?_, h.first⟩
    rcases Finset.mem_union.mp hid with hid | hid
    · exact h.shown id hid
    · exact hswap rfl id hid
  | send msg =>
    cases hstep
    refine ⟨h.need, fun id hid => ?_, fun id => ?_⟩
    · dsimp only
      rw [note_of_mem hid, subPhase_concat, h.shown id hid]
      rfl
    · dsimp only
      by_cases hid : id ∈ world.service.subscribes
      · rw [note_of_mem hid]
        exact throughout_concat.mpr ⟨h.first id, h.shown id hid⟩
      · rw [note_of_notMem hid]
        exact h.first id

/-- A swap of one who was not shown anything, and then an update. -/
theorem not_snapshotFirst_of_drop (hdrop : world.step .drop = some world')
    (hnot : ¬ SwapShown world .drop) {msg : M} {world'' : SnapshotWorld M}
    (hsend : world'.step (.send msg) = some world'') : ∃ id, ¬ SnapshotFirst (world''.history id) := by
  rw [SnapshotWorld.step, Option.ite_none_right_eq_some] at hdrop
  cases hdrop.2
  cases hsend
  unfold SwapShown at hnot
  push Not at hnot
  obtain ⟨-, id, hid, hphase⟩ := hnot
  refine ⟨id, fun hfirst => ?_⟩
  have hmem : id ∈ world.service.swapNewSubscribes.subscribes := Finset.mem_union_right _ hid
  dsimp only at hfirst
  rw [note_of_mem hmem] at hfirst
  exact hphase (throughout_concat.mp hfirst).2

end SnapshotWorld

open SnapshotWorld

/-- **Snapshots and updates.** In every run the two maps are apart and a connection that has gone is sent
nothing. Updates come after a snapshot when every swap takes only connections that were shown one, and one
that takes another makes the next update come too early. -/
theorem snapshot_before_updates {name : List Char} {labels : List (SnapshotLabel M)} {world : SnapshotWorld M}
    (hrun : Run (Steps step) (init name) labels world) :
    ((∀ id ∈ world.service.subscribes, id ∉ world.service.newSubscribes) ∧
      ∀ id, QuietWhenGone (world.history id)) ∧
    (Run (Only SwapShown (Steps step)) (init name) labels world → ∀ id, SnapshotFirst (world.history id)) ∧
    ∀ world' world'' msg, world.step .drop = some world' → ¬ SwapShown world .drop →
      world'.step (.send msg) = some world'' → ∃ id, ¬ SnapshotFirst (world''.history id) := by
  have horderly : Orderly world := hrun.invariant (fun _ _ _ h hstep => h.step hstep) (.init name)
  refine ⟨⟨horderly.separate.apart, horderly.quiet⟩, fun honly id => ?_, ?_⟩
  · have hshown : Shown world := honly.invariant (fun _ _ _ h hstep => h.step hstep.2 hstep.1) (.init name)
    exact hshown.first id
  · intro world' world'' msg hdrop hnot hsend
    exact not_snapshotFirst_of_drop hdrop hnot hsend

/-- One connection comes, and is shown a snapshot before it is updated. -/
theorem snapshot_before_updates_one :
    ∃ world : SnapshotWorld ℕ, Run (Steps step) (init [])
        [.onSubscribe 1, .snapshot, .sendNew 5, .drop, .send 6] world ∧
      ∀ id ∈ world.service.subscribes, id ∉ world.service.newSubscribes := by
  obtain ⟨world, hworld⟩ : ∃ world : SnapshotWorld ℕ, exec step (init [])
      [.onSubscribe 1, .snapshot, .sendNew 5, .drop, .send 6] = some world := ⟨_, rfl⟩
  have hrun := exec_eq_some_iff.mp hworld
  exact ⟨world, hrun, (snapshot_before_updates hrun).1.1⟩

/-- A second connection comes between the snapshot and the swap: its first message is an update. -/
theorem not_snapshot_before_updates :
    ∃ world : SnapshotWorld ℕ, Run (Steps step) (init [])
        [.onSubscribe 1, .snapshot, .sendNew 5, .onSubscribe 2, .drop, .send 6] world ∧
      ¬ SnapshotFirst (world.history 2) := by
  obtain ⟨world, hworld⟩ : ∃ world : SnapshotWorld ℕ, exec step (init [])
      [.onSubscribe 1, .snapshot, .sendNew 5, .onSubscribe 2, .drop, .send 6] = some world := ⟨_, rfl⟩
  refine ⟨world, exec_eq_some_iff.mp hworld, fun hfirst => ?_⟩
  cases hworld
  exact absurd (hfirst [.subscribed] (.update 6) [] rfl) (by decide)

end RustDesk.Services
