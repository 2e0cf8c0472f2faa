import Mathlib.Data.Finset.Basic
import RustDesk.Common.Run
import RustDesk.Common.ThreadPool

/-!
# The keyboard grab of the sessions

References: `src/keyboard.rs` (`client::change_grab_status` on Linux, `apply_run_grab_if_owner`,
`disable_grab_if_released`, `input_source::change_input_source`, `take_remote_keys`,
`release_remote_keys_for_events`, `process_event` in map mode) and `session_enter_or_leave` of `src/flutter_ffi.rs`.

Every section under `GRAB_STATE`, `GRAB_OP_LOCK`, `TO_RELEASE` or `MODIFIERS_STATE`, every access to an atomic variable
and every message that is sent is one instruction of a thread. `GrabFollowsOwner` is about ownership and the grab
of the system; the keys that are held have a module of their own.

Sessions and keys are of any types. A thread that waits before a release may go on at any time, and a key event may come
at any time.
-/

namespace RustDesk.Client

/-- `GrabState`, of which `Ready` and `Exit` do nothing. -/
inductive GrabState
  | run
  | wait
deriving DecidableEq

/-- What the code reads of the display server and of the keys: whether it is X11, which keys are those of
`MODIFIERS_STATE`, and which are Alt and AltGr. -/
structure KeyboardPlatform (K : Type*) where
  isX11 : Bool
  modifier : K → Bool
  alt : K → Bool

/-- The static variables, the grab of rdev and the clock in nanoseconds. What has been sent to the sessions' peers and
the latest call of each session are there to speak about. -/
structure Keyboard (S K : Type*) where
  rdevEnabled : Bool
  hooked : Bool
  grabbed : Bool
  owner : Option S
  lastGrab : Option ℕ
  deferredPending : Bool
  inputSource : String
  curSession : Option S
  toRelease : Finset K
  modifiersState : K → Bool
  now : ℕ
  sent : List (S × K × Bool)
  latest : S → Option GrabState

inductive KeyboardInstr (S K : Type*)
  /- `change_grab_status`: the flag, the section of `GRAB_STATE`, and what comes after it. -/
  | load (state : GrabState) (session : S)
  | transition (state : GrabState) (session : S)
  | applyRunGrabIfOwner (session : S) (disableFirst : Bool)
  | disableGrabIfReleased (session : S)
  | deferredRelease (session : S) (snapshot : Option ℕ)
  /- `session_enter_or_leave` and `change_input_source` -/
  | setCurSession (session : S)
  | readInputSource (session : S) (source : String)
  | storeRdevEnabled (enabled : Bool)
  | setInputSource (source : String)
  /- `release_remote_keys_for_events` and `process_event` -/
  | releaseRemoteKeys (keys : Finset K)
  | processEvent (down : Bool) (key : K)
  | updateModifiersState (down : Bool) (key : K)
  | record (down : Bool) (key : K)
  | sendKeyEvent (down : Bool) (key : K)

def inputSource1 : String := "Input source 1"

def inputSource2 : String := "Input source 2"

/-- `GRAB_DEBOUNCE_MS` -/
def grabDebounceMs : ℕ := 300

section Execute

variable {S K : Type*} [DecidableEq S] [DecidableEq K] (p : KeyboardPlatform K) (s : Keyboard S K)

/-- The instructions of a session's window that is entered or left. -/
def sessionEnterOrLeave (session : S) (enter : Bool) : List (KeyboardInstr S K) :=
  if enter then [.setCurSession session, .load .run session] else [.load .wait session]

/-- `get_cur_session_input_source` -/
def getCurSessionInputSource : String :=
  if p.isX11 then if s.inputSource = "" then inputSource1 else s.inputSource else inputSource2

/-- The call is the session's latest. -/
def Keyboard.called (state : GrabState) (session : S) : Keyboard S K :=
  { s with latest := Function.update s.latest session (some state) }

/-- `GrabState::Run` under the lock. -/
def runSection (session : S) : Outcome (Keyboard S K) (KeyboardInstr S K) :=
  if s.owner = some session then ⟨{ s with lastGrab := some s.now, deferredPending := false }, [], []⟩
  else
    ⟨{ s with hooked := true, owner := some session, lastGrab := some s.now, deferredPending := false },
      [.applyRunGrabIfOwner session s.owner.isSome], []⟩

/-- The grab is released, with the keys that are held. -/
def releaseGrab (session : S) : Outcome (Keyboard S K) (KeyboardInstr S K) :=
  ⟨{ s with hooked := false, owner := none, lastGrab := none, deferredPending := false, toRelease := ∅ },
    [.disableGrabIfReleased session, .releaseRemoteKeys s.toRelease], []⟩

/-- `GrabState::Wait` under the lock. -/
def waitSection (session : S) : Outcome (Keyboard S K) (KeyboardInstr S K) :=
  if s.owner ≠ some session then ⟨s, [], []⟩
  else if s.lastGrab.any fun t => decide ((s.now - t) / 1000000 < grabDebounceMs) then
    if s.deferredPending then ⟨s, [], []⟩
    else ⟨{ s with deferredPending := true }, [], [[.deferredRelease session s.lastGrab]]⟩
  else releaseGrab s session

/-- The thread of a deferred release, under the lock. -/
def deferredSection (session : S) (snapshot : Option ℕ) : Outcome (Keyboard S K) (KeyboardInstr S K) :=
  if s.owner = some session ∧ s.lastGrab = snapshot then releaseGrab s session else ⟨s, [], []⟩

/-- One instruction. The choice is the key that is released next. -/
def execute : KeyboardInstr S K → Option K → Option (Outcome (Keyboard S K) (KeyboardInstr S K))
  | .load state session, _ =>
    if s.rdevEnabled then some ⟨s, [.transition state session], []⟩ else some ⟨s.called state session, [], []⟩
  | .transition .run session, _ => some (runSection (s.called .run session) session)
  | .transition .wait session, _ => some (waitSection (s.called .wait session) session)
  | .applyRunGrabIfOwner session _, _ =>
    some ⟨if s.owner = some session then { s with grabbed := true } else s, [], []⟩
  | .disableGrabIfReleased _, _ =>
    some ⟨if s.owner.isNone ∧ s.lastGrab.isNone then { s with grabbed := false } else s, [], []⟩
  | .deferredRelease session snapshot, _ => some (deferredSection s session snapshot)
  | .setCurSession session, _ => some ⟨{ s with curSession := some session }, [], []⟩
  | .readInputSource session source, _ =>
    if getCurSessionInputSource p s = source then some ⟨s, [], []⟩
    else if source = inputSource1 then
      some ⟨s, .storeRdevEnabled true :: (sessionEnterOrLeave session true ++ [.setInputSource source]), []⟩
    else if source = inputSource2 then
      some ⟨s, sessionEnterOrLeave session false ++ [.storeRdevEnabled false, .setInputSource source], []⟩
    else some ⟨s, [.setInputSource source], []⟩
  | .storeRdevEnabled enabled, _ => some ⟨{ s with rdevEnabled := enabled }, [], []⟩
  | .setInputSource source, _ => some ⟨{ s with inputSource := source }, [], []⟩
  | .releaseRemoteKeys keys, none => if keys = ∅ then some ⟨s, [], []⟩ else none
  | .releaseRemoteKeys keys, some key =>
    if key ∈ keys then
      some ⟨s, .processEvent false key ::
        ((if p.alt key then [.processEvent true key, .processEvent false key] else []) ++
          [.releaseRemoteKeys (keys.erase key)]), []⟩
    else none
  | .processEvent down key, _ =>
    -- a modifier that is down already is a long press
    if down ∧ p.modifier key ∧ s.modifiersState key then some ⟨s, [], []⟩
    else some ⟨s, [.updateModifiersState down key], []⟩
  | .updateModifiersState down key, _ =>
    some ⟨if p.modifier key then { s with modifiersState := Function.update s.modifiersState key down } else s,
      [.record down key], []⟩
  | .record down key, _ =>
    some ⟨{ s with toRelease := if down then insert key s.toRelease else s.toRelease.erase key },
      [.sendKeyEvent down key], []⟩
  | .sendKeyEvent down key, _ =>
    some ⟨{ s with sent := s.sent ++ (s.curSession.map fun session => (session, key, down)).toList }, [], []⟩

end Execute

inductive KeyboardEvent (S K : Type*)
  | sessionEnterOrLeave (session : S) (enter : Bool)
  | changeInputSource (session : S) (source : String)
  | key (down : Bool) (key : K)
  | run (thread : ℕ) (choice : Option K)
  | tick (nanos : ℕ)

abbrev KeyboardPool (S K : Type*) := ThreadPool (Keyboard S K) (KeyboardInstr S K)

namespace KeyboardPool

section Statements

variable {S K : Type*} [DecidableEq S] [DecidableEq K] (p : KeyboardPlatform K) (pool : KeyboardPool S K)

/-- Before the first session is entered. -/
def start (rdevEnabled : Bool) (inputSource : String) : KeyboardPool S K :=
  ⟨⟨rdevEnabled, false, false, none, none, false, inputSource, none, ∅, fun _ => false, 0, [], fun _ => none⟩, []⟩

def step : KeyboardEvent S K → Option (KeyboardPool S K)
  | .sessionEnterOrLeave session enter => some (ThreadPool.start pool (sessionEnterOrLeave session enter))
  | .changeInputSource session source => some (ThreadPool.start pool [.readInputSource session source])
  | .key down key => some (ThreadPool.start pool [.processEvent down key])
  | .run thread choice => ThreadPool.run (execute p) pool thread choice
  | .tick nanos => some { pool with shared := { pool.shared with now := pool.shared.now + nanos } }

/-- All calls have returned and all threads have fired. -/
def Quiet : Prop := ∀ thread ∈ pool.threads, thread = []

/-- The instruction is one of a `Wait` or of a deferred release of the session. -/
def LeavesFor (session : S) : KeyboardInstr S K → Prop
  | .transition .wait a | .deferredRelease a _ | .disableGrabIfReleased a => a = session
  | _ => False

structure GrabFollowsOwner : Prop where
  grab : pool.Quiet → (pool.shared.grabbed = true ↔ pool.shared.owner.isSome = true) ∧
    pool.shared.hooked = pool.shared.owner.isSome
  latest : pool.Quiet → ∀ a, pool.shared.latest a = some .wait → pool.shared.owner ≠ some a
  kept : ∀ i choice x rest pool' a b, pool.threads[i]? = some (x :: rest) → LeavesFor a x →
    step p pool (.run i choice) = some pool' → b ≠ a → pool.shared.owner = some b →
      pool'.shared.owner = some b ∧ pool'.shared.grabbed = pool.shared.grabbed ∧
        pool'.shared.hooked = pool.shared.hooked

/-- No `Wait` of the owner is sent back by the flag, unless a release is waiting for it already. -/
def Heeded : KeyboardEvent S K → Prop
  | .run i _ => ∀ a rest, pool.threads[i]? = some (.load .wait a :: rest) → pool.shared.rdevEnabled = false →
    pool.shared.owner = some a → ThreadPool.Pending (· = .deferredRelease a pool.shared.lastGrab) pool.threads
  | _ => True

end Statements

/-! ## What the instructions keep -/

open ThreadPool

section Invariant

variable {S K : Type*} {s s' : Keyboard S K} {before after spawned : List (List (KeyboardInstr S K))}
  {x : KeyboardInstr S K} {instructions : List (KeyboardInstr S K)} {a : S} {choice : Option K}
  {o : Outcome (Keyboard S K) (KeyboardInstr S K)} {pool : KeyboardPool S K}

/-- What is true between two instructions. -/
structure GrabInv (s : Keyboard S K) (threads : List (List (KeyboardInstr S K))) : Prop where
  hooked : s.hooked = s.owner.isSome
  lastGrab : s.lastGrab.isSome = s.owner.isSome
  released : s.owner = none → s.grabbed = false ∨ Pending (∃ a, · = .disableGrabIfReleased a) threads
  grabbed : ∀ a, s.owner = some a →
    s.grabbed = true ∨ Pending (∃ first, · = .applyRunGrabIfOwner a first) threads
  deferred : s.deferredPending = true →
    ∃ a, s.owner = some a ∧ Pending (· = .deferredRelease a s.lastGrab) threads
  latest : ∀ a, s.latest a = some .wait → s.owner = some a →
    Pending (· = .deferredRelease a s.lastGrab) threads

/-- The part of the state that the invariant is about. -/
def SameGrab (s s' : Keyboard S K) : Prop :=
  s'.hooked = s.hooked ∧ s'.grabbed = s.grabbed ∧ s'.owner = s.owner ∧ s'.lastGrab = s.lastGrab ∧
    s'.deferredPending = s.deferredPending ∧ s'.latest = s.latest

/-- Somebody may wait for the instruction. -/
def Awaited : KeyboardInstr S K → Prop
  | .applyRunGrabIfOwner _ _ | .disableGrabIfReleased _ | .deferredRelease _ _ => True
  | _ => False

/-- What leaves this part of the state as it is, and what somebody waits for to be done. -/
theorem GrabInv.keep (h : GrabInv s before) (hsame : SameGrab s s')
    (hkeep : ∀ q : KeyboardInstr S K → Prop, (∀ y, q y → Awaited y) →
      Pending q before → Pending q after) : GrabInv s' after := by
  obtain ⟨hhooked, hgrabbed, howner, hlast, hdeferred, hlatest⟩ := hsame
  have hdefer : ∀ a snapshot, Pending (· = .deferredRelease a snapshot) before →
      Pending (· = .deferredRelease a snapshot) after := by
    intro a snapshot
    exact hkeep _ (by rintro y rfl; trivial)
  refine ⟨?_, ?_, ?_, ?_, ?_, ?_⟩
  · rw [hhooked, howner]
    exact h.hooked
  · rw [hlast, howner]
    exact h.lastGrab
  · rw [howner, hgrabbed]
    exact fun hnone => (h.released hnone).imp_right (hkeep _ (by rintro y ⟨a, rfl⟩; trivial))
  · rw [howner, hgrabbed]
    exact fun a ha => (h.grabbed a ha).imp_right (hkeep _ (by rintro y ⟨first, rfl⟩; trivial))
  · rw [hdeferred, howner, hlast]
    intro htrue
    obtain ⟨a, ha, hp⟩ := h.deferred htrue
    exact ⟨a, ha, hdefer a _ hp⟩
  · rw [hlatest, howner, hlast]
    exact fun a ha howns => hdefer a _ (h.latest a ha howns)

/-- An instruction that nobody waits for keeps all that somebody waits for. -/
theorem keep_of_ran (hran : Ran before x instructions spawned after) (hx : ¬Awaited x)
    (q : KeyboardInstr S K → Prop) (hq : ∀ y, q y → Awaited y) (hp : Pending q before) :
    Pending q after :=
  pending_of_not hran (fun hqx => hx (hq x hqx)) hp

/-- A release. -/
theorem GrabInv.release (hran : Ran before x (releaseGrab s a).instructions spawned after) :
    GrabInv (releaseGrab s a).shared after where
  hooked := rfl
  lastGrab := rfl
  released _ := .inr (pending_of_instructions hran List.mem_cons_self ⟨a, rfl⟩)
  grabbed _ howner := nomatch howner
  deferred hpending := nomatch hpending
  latest _ _ howner := nomatch howner

variable [DecidableEq S]

section

variable (h : GrabInv s before)
include h

/-- A call that counts as the session's latest. -/
theorem GrabInv.called (state : GrabState) (hran : Ran before x instructions spawned after) (hx : ¬Awaited x)
    (hwait : state = .wait → s.owner = some a → Pending (· = .deferredRelease a s.lastGrab) after) :
    GrabInv (s.called state a) after := by
  have hkeep : GrabInv s after := h.keep ⟨rfl, rfl, rfl, rfl, rfl, rfl⟩ (keep_of_ran hran hx)
  refine { hkeep with latest := fun b hb howner => ?_ }
  by_cases hab : b = a
  · subst hab
    refine hwait ?_ howner
    simpa [Keyboard.called] using hb
  · refine hkeep.latest b ?_ howner
    simpa [Keyboard.called, hab] using hb

theorem GrabInv.runSection
    (hran : Ran before (.transition .run a) (Client.runSection (s.called .run a) a).instructions
      (Client.runSection (s.called .run a) a).spawned after) :
    GrabInv (Client.runSection (s.called .run a) a).shared after := by
  have hcalled := h.called .run hran (fun hx => hx) (a := a) nofun
  have hlatest : (s.called .run a).latest a = some .run := Function.update_self ..
  unfold Client.runSection at hran ⊢
  split
  · next howner =>
    refine { hcalled with lastGrab := ?_, deferred := nofun, latest := fun b hb hb' => ?_ }
    · rw [howner]
      rfl
    · cases howner.symm.trans hb'
      rw [hlatest] at hb
      cases hb
  · next howner =>
    rw [if_neg howner] at hran
    refine ⟨rfl, rfl, nofun, fun b hb => ?_, nofun, fun b hb hb' => ?_⟩
    · cases hb
      exact .inr (pending_of_instructions hran List.mem_cons_self ⟨_, rfl⟩)
    · cases hb'
      rw [hlatest] at hb
      cases hb

/-- A `Wait` is of no owner, or it is put off, or it releases. -/
theorem GrabInv.waitSection
    (hran : Ran before (.transition .wait a) (Client.waitSection (s.called .wait a) a).instructions
      (Client.waitSection (s.called .wait a) a).spawned after) :
    GrabInv (Client.waitSection (s.called .wait a) a).shared after := by
  have hnot : ¬Awaited (.transition .wait a : KeyboardInstr S K) := fun hx => hx
  unfold Client.waitSection at hran ⊢
  by_cases howner : (s.called .wait a).owner ≠ some a
  · rw [if_pos howner] at hran ⊢
    exact h.called .wait hran hnot fun _ howns => absurd howns howner
  · rw [if_neg howner] at hran ⊢
    rw [not_not] at howner
    split
    · next hsoon =>
      rw [if_pos hsoon] at hran
      by_cases hpending : (s.called .wait a).deferredPending = true
      · -- a release is waiting for the owner
        rw [if_pos hpending] at hran ⊢
        refine h.called .wait hran hnot fun _ _ => ?_
        obtain ⟨b, hb, hdeferred⟩ := h.deferred hpending
        cases howner.symm.trans hb
        exact pending_of_not hran (by rintro ⟨⟩) hdeferred
      · rw [if_neg hpending] at hran ⊢
        have hdeferred : Pending (· = .deferredRelease a s.lastGrab) after :=
          pending_of_spawned hran (List.mem_singleton_self _) (List.mem_singleton_self _) rfl
        have hcalled := h.called .wait hran hnot fun _ _ => hdeferred
        exact { hcalled with deferred := fun _ => ⟨a, howner, hdeferred⟩ }
    · next hlate =>
      rw [if_neg hlate] at hran
      exact .release hran

theorem GrabInv.deferredSection {snapshot : Option ℕ}
    (hran : Ran before (.deferredRelease a snapshot) (Client.deferredSection s a snapshot).instructions
      (Client.deferredSection s a snapshot).spawned after) :
    GrabInv (Client.deferredSection s a snapshot).shared after := by
  unfold Client.deferredSection at hran ⊢
  split
  · next howner =>
    rw [if_pos howner] at hran
    exact .release hran
  · next howner =>
    rw [if_neg howner] at hran
    -- the release that the owner may wait for is another one
    have hother : ∀ b, s.owner = some b → Pending (· = .deferredRelease b s.lastGrab) before →
        Pending (· = .deferredRelease b s.lastGrab) after := by
      intro b hb
      refine pending_of_not hran ?_
      rintro ⟨⟩
      exact howner ⟨hb, rfl⟩
    refine
      { h with released := fun hnone => ?_, grabbed := fun b hb => ?_, deferred := fun hpending => ?_, latest := ?_ }
    · exact (h.released hnone).imp_right (pending_of_not hran (by rintro ⟨b, ⟨⟩⟩))
    · exact (h.grabbed b hb).imp_right (pending_of_not hran (by rintro ⟨first, ⟨⟩⟩))
    · obtain ⟨b, hb, hdeferred⟩ := h.deferred hpending
      exact ⟨b, hb, hother b hb hdeferred⟩
    · exact fun b hb hb' => hother b hb' (h.latest b hb hb')

end

omit [DecidableEq S] in
/-- What is done to the grab of the system. -/
theorem GrabInv.setGrabbed (h : GrabInv s before) (hran : Ran before x [] [] after)
    (hx : ∀ b, x ≠ .deferredRelease b s.lastGrab) {grabbed : Bool}
    (hreleased : s.owner = none → grabbed = false ∨ Pending (∃ b, · = .disableGrabIfReleased b) after)
    (hgrabbed : ∀ b, s.owner = some b →
      grabbed = true ∨ Pending (∃ first, · = .applyRunGrabIfOwner b first) after) :
    GrabInv { s with grabbed } after := by
  refine { h with released := hreleased, grabbed := hgrabbed, deferred := fun hpending => ?_, latest := ?_ }
  · obtain ⟨b, hb, hdeferred⟩ := h.deferred hpending
    exact ⟨b, hb, pending_of_not hran (hx b) hdeferred⟩
  · exact fun b hb hb' => pending_of_not hran (hx b) (h.latest b hb hb')

/-- The grab is taken for the owner. -/
theorem GrabInv.applyRun (h : GrabInv s before) {first : Bool}
    (hran : Ran before (.applyRunGrabIfOwner a first) [] [] after) :
    GrabInv (if s.owner = some a then { s with grabbed := true } else s) after := by
  split
  · next howner =>
    refine h.setGrabbed hran nofun (fun hnone => ?_) fun b _ => .inl rfl
    exact nomatch howner.symm.trans hnone
  · next howner =>
    refine h.setGrabbed hran nofun (fun hnone => ?_) fun b hb => ?_
    · exact (h.released hnone).imp_right (pending_of_not hran (by rintro ⟨b, ⟨⟩⟩))
    · refine (h.grabbed b hb).imp_right (pending_of_not hran ?_)
      rintro ⟨first, ⟨⟩⟩
      exact howner hb

omit [DecidableEq S] in
/-- The grab is given back when nobody owns it. -/
theorem GrabInv.disable (h : GrabInv s before) (hran : Ran before (.disableGrabIfReleased a) [] [] after) :
    GrabInv (if s.owner.isNone ∧ s.lastGrab.isNone then { s with grabbed := false } else s) after := by
  have hgrabbed : ∀ b, s.owner = some b →
      s.grabbed = true ∨ Pending (∃ first, · = .applyRunGrabIfOwner b first) after := fun b hb =>
    (h.grabbed b hb).imp_right (pending_of_not hran (by rintro ⟨first, ⟨⟩⟩))
  split
  · next hnone =>
    refine h.setGrabbed hran nofun (fun _ => .inl rfl) fun b hb => ?_
    rw [Option.isNone_iff_eq_none, hb] at hnone
    exact nomatch hnone.1
  · next howned =>
    refine h.setGrabbed hran nofun (fun hnone => ?_) hgrabbed
    -- without an owner there is no time of a grab
    have hlast := h.lastGrab
    rw [hnone, Option.isSome_none, Option.isSome_eq_false_iff] at hlast
    exact absurd ⟨by rw [hnone]; rfl, hlast⟩ howned

variable [DecidableEq K] {p : KeyboardPlatform K}

/-- The instructions that are about neither the grab nor what has been sent. -/
def Idle : KeyboardInstr S K → Prop
  | .readInputSource _ _ | .storeRdevEnabled _ | .setInputSource _ | .releaseRemoteKeys _ | .processEvent _ _
  | .updateModifiersState _ _ => True
  | _ => False

theorem execute_idle
    (ho : Client.execute p s x choice = some o) (hx : Idle x) : o.spawned = [] ∧ ∃ rdevEnabled inputSource modifiersState,
      o.shared = { s with rdevEnabled, inputSource, modifiersState } := by
  cases x with
  | readInputSource session source =>
    rw [Client.execute] at ho
    split at ho
    · exact Option.some.inj ho ▸ ⟨rfl, _, _, _, rfl⟩
    · split at ho
      · exact Option.some.inj ho ▸ ⟨rfl, _, _, _, rfl⟩
      · split at ho <;> exact Option.some.inj ho ▸ ⟨rfl, _, _, _, rfl⟩
  | releaseRemoteKeys keys =>
    cases choice <;> obtain ⟨-, heq⟩ := Option.ite_none_right_eq_some.mp ho <;>
      exact Option.some.inj heq ▸ ⟨rfl, _, _, _, rfl⟩
  | processEvent down key =>
    rw [Client.execute] at ho
    split at ho <;> exact Option.some.inj ho ▸ ⟨rfl, _, _, _, rfl⟩
  | updateModifiersState down key =>
    cases ho
    split <;> exact ⟨rfl, _, _, _, rfl⟩
  | storeRdevEnabled _ | setInputSource _ => exact Option.some.inj ho ▸ ⟨rfl, _, _, _, rfl⟩
  | load _ _ | transition _ _ | applyRunGrabIfOwner _ _ | disableGrabIfReleased _ | deferredRelease _ _
  | setCurSession _ | record _ _ | sendKeyEvent _ _ => exact hx.elim

/-- **One instruction.** -/
theorem GrabInv.execute (h : GrabInv s before)
    (ho : Client.execute p s x choice = some o) (hran : Ran before x o.instructions o.spawned after)
    (hheeded : ∀ a, x = .load .wait a → s.rdevEnabled = false → s.owner = some a →
      Pending (· = .deferredRelease a s.lastGrab) before) :
    GrabInv o.shared after := by
  cases x with
  | load state session =>
    rw [Client.execute] at ho
    split at ho
    · cases ho
      exact h.keep ⟨rfl, rfl, rfl, rfl, rfl, rfl⟩ (keep_of_ran hran id)
    · next hflag =>
      cases ho
      refine h.called state hran id fun hwait howner => ?_
      subst hwait
      exact pending_of_not hran nofun (hheeded session rfl (Bool.eq_false_of_not_eq_true hflag) howner)
  | transition state session =>
    cases state with
    | run =>
      cases ho
      exact h.runSection hran
    | wait =>
      cases ho
      exact h.waitSection hran
  | applyRunGrabIfOwner session first =>
    cases ho
    exact h.applyRun hran
  | disableGrabIfReleased session =>
    cases ho
    exact h.disable hran
  | deferredRelease session snapshot =>
    cases ho
    exact h.deferredSection hran
  | readInputSource _ _ | storeRdevEnabled _ | setInputSource _ | releaseRemoteKeys _ | processEvent _ _
  | updateModifiersState _ _ =>
    obtain ⟨-, _, _, _, hshared⟩ := execute_idle ho trivial
    rw [hshared]
    exact h.keep ⟨rfl, rfl, rfl, rfl, rfl, rfl⟩ (keep_of_ran hran id)
  | setCurSession _ | record _ _ | sendKeyEvent _ _ =>
    cases ho
    exact h.keep ⟨rfl, rfl, rfl, rfl, rfl, rfl⟩ (keep_of_ran hran id)

/-- **One event.** -/
theorem GrabInv.step {pool' : KeyboardPool S K} {e : KeyboardEvent S K} (h : GrabInv pool.shared pool.threads)
    (hheeded : pool.Heeded e) (hstep : KeyboardPool.step p pool e = some pool') :
    GrabInv pool'.shared pool'.threads := by
  cases e with
  | run i choice =>
    obtain ⟨x, rest, o, hi, ho, hran, hshared⟩ := run_cases hstep
    rw [hshared]
    refine h.execute ho hran fun a hx => ?_
    subst hx
    exact hheeded a rest hi
  | tick nanos =>
    cases hstep
    exact h.keep ⟨rfl, rfl, rfl, rfl, rfl, rfl⟩ fun q _ hq => hq
  | sessionEnterOrLeave _ _ | changeInputSource _ _ | key _ _ =>
    cases hstep
    exact h.keep ⟨rfl, rfl, rfl, rfl, rfl, rfl⟩ fun q _ hq => pending_start hq _

/-- A `Wait` or a deferred release leaves the grab of another session alone. -/
theorem kept_of_leavesFor {b : S}
    (ho : Client.execute p s x choice = some o) (hx : LeavesFor a x) (hne : b ≠ a) (howner : s.owner = some b) :
    o.shared.owner = some b ∧ o.shared.grabbed = s.grabbed ∧ o.shared.hooked = s.hooked := by
  have hother : s.owner ≠ some a := fun h => hne (Option.some.inj (howner.symm.trans h))
  cases x with
  | transition state session =>
    cases state with
    | run => exact hx.elim
    | wait =>
      obtain rfl : session = a := hx
      cases ho
      have hcalled : (s.called .wait session).owner ≠ some session := hother
      rw [waitSection, if_pos hcalled]
      exact ⟨howner, rfl, rfl⟩
  | deferredRelease session snapshot =>
    obtain rfl : session = a := hx
    cases ho
    rw [deferredSection, if_neg fun h => hother h.1]
    exact ⟨howner, rfl, rfl⟩
  | disableGrabIfReleased session =>
    cases ho
    rw [if_neg]
    · exact ⟨howner, rfl, rfl⟩
    · rintro ⟨hnone, -⟩
      rw [howner] at hnone
      cases hnone
  | load _ _ | applyRunGrabIfOwner _ _ | readInputSource _ _ | releaseRemoteKeys _ | processEvent _ _
  | updateModifiersState _ _ | setCurSession _ | storeRdevEnabled _ | setInputSource _ | record _ _
  | sendKeyEvent _ _ => exact hx.elim

theorem GrabInv.followsOwner (h : GrabInv pool.shared pool.threads) : GrabFollowsOwner p pool := by
  have hnone : pool.Quiet → ∀ q : KeyboardInstr S K → Prop, ¬Pending q pool.threads := by
    rintro hquiet q ⟨thread, hthread, x, hx, -⟩
    rw [hquiet thread hthread] at hx
    cases hx
  refine ⟨fun hquiet => ⟨?_, h.hooked⟩, fun hquiet a hwait howner => ?_, ?_⟩
  · cases howner : pool.shared.owner with
    | none =>
      rw [(h.released howner).resolve_right (hnone hquiet _)]
      exact Iff.rfl
    | some a => exact iff_of_true ((h.grabbed a howner).resolve_right (hnone hquiet _)) rfl
  · exact hnone hquiet _ (h.latest a hwait howner)
  · intro i choice x rest pool' a b hi hx hstep hne howner
    obtain ⟨y, rest', o, hi', ho, -, hshared⟩ := run_cases hstep
    obtain ⟨rfl, -⟩ := List.cons.inj (Option.some.inj (hi.symm.trans hi'))
    rw [hshared]
    exact kept_of_leavesFor ho hx hne howner

/-- **The grab follows ownership** in every run in which no `Wait` of the owner is sent back by the flag. -/
theorem followsOwner_of_run {rdevEnabled : Bool} {inputSource : String} {es : List (KeyboardEvent S K)}
    {pool : KeyboardPool S K}
    (hrun : Run (Only Heeded (Steps (KeyboardPool.step p))) (start rdevEnabled inputSource) es pool) :
    GrabFollowsOwner p pool := by
  have hstep : ∀ (pool : KeyboardPool S K) e pool', GrabInv pool.shared pool.threads →
      Only Heeded (Steps (KeyboardPool.step p)) pool e pool' → GrabInv pool'.shared pool'.threads := by
    rintro pool e pool' hpool ⟨hheeded, hstep⟩
    exact hpool.step hheeded hstep
  exact (hrun.invariant hstep ⟨rfl, rfl, fun _ => .inl rfl, nofun, nofun, nofun⟩).followsOwner

omit [DecidableEq S] [DecidableEq K] in
theorem heeded_of_enabled (h : pool.shared.rdevEnabled = true) (e : KeyboardEvent S K) : pool.Heeded e := by
  cases e with
  | run i choice =>
    intro a rest _ hflag
    rw [h] at hflag
    cases hflag
  | _ => trivial

end Invariant

/-! ## Two runs -/

def linux : KeyboardPlatform ℕ := ⟨true, fun _ => false, fun _ => false⟩

/-- A session is entered and left at once, and the thread releases. -/
def enterAndLeave : List (KeyboardEvent ℕ ℕ) :=
  [.sessionEnterOrLeave 1 true, .run 0 none, .run 0 none, .run 0 none, .run 0 none,
    .sessionEnterOrLeave 1 false, .run 1 none, .run 1 none, .run 2 none, .run 2 none, .run 2 none]

theorem followsOwner_enterAndLeave :
    ∃ pool, Run (Only Heeded (Steps (step linux))) (start true "") enterAndLeave pool ∧
      pool.shared.owner = none ∧ pool.shared.grabbed = false ∧ GrabFollowsOwner linux pool := by
  have hrun : ∃ pool, Run (Only Heeded (Steps (step linux))) (start true "") enterAndLeave pool ∧
      pool.shared.owner = none ∧ pool.shared.grabbed = false := by
    refine ⟨_, .cons ⟨?_, rfl⟩ (.cons ⟨?_, rfl⟩ (.cons ⟨?_, rfl⟩ (.cons ⟨?_, rfl⟩ (.cons ⟨?_, rfl⟩ (.cons ⟨?_, rfl⟩
      (.cons ⟨?_, rfl⟩ (.cons ⟨?_, rfl⟩ (.cons ⟨?_, rfl⟩ (.cons ⟨?_, rfl⟩ (.cons ⟨?_, rfl⟩ (.nil _))))))))))), rfl, rfl⟩
    all_goals exact heeded_of_enabled rfl _
  obtain ⟨pool, hrun, howner, hgrabbed⟩ := hrun
  exact ⟨pool, hrun, howner, hgrabbed, followsOwner_of_run hrun⟩

/-- Session 2 owns the grab when session 1 turns the input source off: its own `Wait` is sent back. -/
def sourceSwitchedOff : List (KeyboardEvent ℕ ℕ) :=
  [.sessionEnterOrLeave 2 true, .run 0 none, .run 0 none, .run 0 none, .run 0 none,
    .changeInputSource 1 inputSource2, .run 1 none, .run 1 none, .run 1 none, .run 1 none, .run 1 none,
    .sessionEnterOrLeave 2 false, .run 2 none]

theorem not_followsOwner_sourceSwitchedOff :
    ∃ pool, Run (Steps (step linux)) (start true "") sourceSwitchedOff pool ∧ pool.shared.owner = some 2 ∧
      pool.shared.grabbed = true ∧ ¬GrabFollowsOwner linux pool := by
  have hrun : ∃ pool, Run (Steps (step linux)) (start true "") sourceSwitchedOff pool ∧
      (pool.shared.owner = some 2 ∧ pool.shared.grabbed = true) ∧
      pool.shared.latest 2 = some .wait ∧ pool.threads = [[], [], []] :=
    ⟨_, .cons rfl (.cons rfl (.cons rfl (.cons rfl (.cons rfl (.cons rfl (.cons rfl (.cons rfl (.cons rfl (.cons rfl
      (.cons rfl (.cons rfl (.cons rfl (.nil _))))))))))))), ⟨rfl, rfl⟩, rfl, rfl⟩
  obtain ⟨pool, hrun, ⟨howner, hgrabbed⟩, hlatest, hthreads⟩ := hrun
  refine ⟨pool, hrun, howner, hgrabbed, fun h => ?_⟩
  refine h.latest (fun thread hthread => ?_) 2 hlatest howner
  rw [hthreads] at hthread
  simpa using hthread

end KeyboardPool

end RustDesk.Client
