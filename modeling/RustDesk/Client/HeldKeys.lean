import RustDesk.Client.KeyboardGrab

/-!
# The keys that are held at the peers

References: `src/keyboard.rs` (`client::change_grab_status`, `take_remote_keys`,
`release_remote_keys_for_events`, `event_to_key_events`, `send_key_event`).

`TO_RELEASE` holds the keys that are to be released when the grab goes, of whichever session. The messages that were
sent say which keys are down at which peer, and where a key was pressed last.
-/

namespace RustDesk.Client

section Messages

variable {S K : Type*} [DecidableEq K]

/-- The session whose peer saw a key go down last. -/
def pressedAt (sent : List (S × K × Bool)) : K → Option S :=
  sent.foldl (fun last m => if m.2.2 then Function.update last m.2.1 (some m.1) else last) fun _ => none

/-- No key goes up at a peer when it was another that saw it go down. -/
def Orderly (sent : List (S × K × Bool)) : Prop :=
  ∀ i a k, sent[i]? = some (a, k, false) → ∀ b, pressedAt (sent.take i) k = some b → b = a

variable {sent : List (S × K × Bool)} {a : S} {k : K} {down : Bool}

theorem pressedAt_press : pressedAt (sent ++ [(a, k, true)]) = Function.update (pressedAt sent) k (some a) :=
  List.foldl_concat ..

theorem pressedAt_release : pressedAt (sent ++ [(a, k, false)]) = pressedAt sent := List.foldl_concat ..

theorem Orderly.concat (h : Orderly sent) (hup : down = false → ∀ b, pressedAt sent k = some b → b = a) :
    Orderly (sent ++ [(a, k, down)]) := by
  intro i c l hi b hb
  rcases Nat.lt_trichotomy i sent.length with hlt | rfl | hgt
  · rw [List.getElem?_append_left hlt] at hi
    rw [List.take_append_of_le_length hlt.le] at hb
    exact h i c l hi b hb
  · rw [List.getElem?_concat_length] at hi
    obtain ⟨rfl, rfl, rfl⟩ := Option.some.inj hi
    rw [List.take_left] at hb
    exact hup rfl b hb
  · rw [List.getElem?_eq_none (by rw [List.length_append, List.length_singleton]; exact hgt)] at hi
    cases hi

variable [DecidableEq S]

/-- The keys that are down at each peer. -/
def held (sent : List (S × K × Bool)) : S × K → Bool :=
  sent.foldl (fun down m => Function.update down (m.1, m.2.1) m.2.2) fun _ => false

theorem held_concat : held (sent ++ [(a, k, down)]) = Function.update (held sent) (a, k) down :=
  List.foldl_concat ..

end Messages

namespace KeyboardPool

open ThreadPool

section Statements

variable {S K : Type*}

/-- The instruction, or what it leads to, sends that the key goes up. -/
def Releasing (k : K) : KeyboardInstr S K → Prop
  | .processEvent false l | .updateModifiersState false l | .record false l | .sendKeyEvent false l => l = k
  | .releaseRemoteKeys keys => k ∈ keys
  | _ => False

/-- It has still to see to it that the key is not in `TO_RELEASE`. -/
def Removing (k : K) (x : KeyboardInstr S K) : Prop := Releasing k x ∧ x ≠ .sendKeyEvent false k

variable [DecidableEq S] [DecidableEq K] (s : Keyboard S K) (threads : List (List (KeyboardInstr S K)))
  (pool : KeyboardPool S K)

/-- All calls have returned: a thread may only wait before its release. -/
def Returned : Prop := ∀ thread ∈ pool.threads, thread = [] ∨ ∃ a snapshot, thread = [.deferredRelease a snapshot]

structure KeysSafe : Prop where
  released : pool.Returned → ∀ a k, held pool.shared.sent (a, k) = true → pool.shared.owner = some a
  orderly : Orderly pool.shared.sent
  empty : pool.shared.owner = none → (∀ k, ¬Pending (Removing k) pool.threads) →
    pool.shared.toRelease = ∅

/-- What an instruction finds when it does no harm. -/
def FindsReleased : KeyboardInstr S K → Prop
  | .setCurSession b => ∀ a k, pressedAt s.sent k = some a →
    (held s.sent (a, k) = true ∨ k ∈ s.toRelease ∨ Pending (Releasing k) threads) → a = b
  | .transition .run b => s.owner ≠ some b →
    ∀ a k, held s.sent (a, k) = true → a = b ∨ Pending (Releasing k) threads
  | .record true k => s.owner ≠ none ∨ Pending (Removing k) threads
  | .sendKeyEvent true k => s.curSession = none ∨ (k ∈ s.toRelease ∧ s.owner = s.curSession) ∨
    Pending (Releasing k) threads
  | .sendKeyEvent false k => ¬Pending (· = .sendKeyEvent true k) threads
  | _ => True

/-- A session is entered and takes the grab over when no key is left that was pressed at another. A key is recorded and
pressed only at the session that is entered and owns the grab, or it is being released as well, and it goes up after it
went down and at the session where it was pressed. -/
def Harmless : KeyboardEvent S K → Prop
  | .key false k => ∀ a, pressedAt pool.shared.sent k = some a → pool.shared.curSession = some a
  | .run i _ => ∀ x rest, pool.threads[i]? = some (x :: rest) → FindsReleased pool.shared pool.threads x
  | _ => True

end Statements

/-! ## What is still to be done -/

section Pending

variable {S K : Type*} [DecidableEq S] [DecidableEq K] {p : KeyboardPlatform K} {s : Keyboard S K}
  {before after : List (List (KeyboardInstr S K))} {x y : KeyboardInstr S K} {choice : Option K}
  {o : Outcome (Keyboard S K) (KeyboardInstr S K)} {k : K}

/-- The part of the state that is about the keys. -/
def SameKeys (s s' : Keyboard S K) : Prop :=
  s'.curSession = s.curSession ∧ s'.owner = s.owner ∧ s'.toRelease = s.toRelease ∧ s'.sent = s.sent

theorem exists_removing (ho : execute p s x choice = some o) (hx : Removing k x) :
    x = .record false k ∨ ∃ y ∈ o.instructions, Removing k y := by
  obtain ⟨hx, hsend⟩ := hx
  cases x with
  | processEvent down l =>
    cases down with
    | true => exact hx.elim
    | false =>
      obtain rfl : l = k := hx
      cases ho
      exact .inr ⟨.updateModifiersState false l, List.mem_singleton_self _, rfl, nofun⟩
  | updateModifiersState down l =>
    cases down with
    | true => exact hx.elim
    | false =>
      obtain rfl : l = k := hx
      cases ho
      exact .inr ⟨.record false l, List.mem_singleton_self _, rfl, nofun⟩
  | record down l =>
    cases down with
    | true => exact hx.elim
    | false =>
      obtain rfl : l = k := hx
      exact .inl rfl
  | sendKeyEvent down l =>
    cases down with
    | true => exact hx.elim
    | false =>
      obtain rfl : l = k := hx
      exact absurd rfl hsend
  | releaseRemoteKeys keys =>
    have hmem : k ∈ keys := hx
    cases choice with
    | none =>
      obtain ⟨rfl, -⟩ := Option.ite_none_right_eq_some.mp ho
      cases hmem
    | some l =>
      obtain ⟨-, heq⟩ := Option.ite_none_right_eq_some.mp ho
      cases heq
      by_cases hkl : k = l
      · subst hkl
        exact .inr ⟨.processEvent false k, List.mem_cons_self, rfl, nofun⟩
      · -- another key comes first
        refine .inr ⟨.releaseRemoteKeys (keys.erase l), ?_, Finset.mem_erase.mpr ⟨hkl, hmem⟩, nofun⟩
        exact List.mem_cons_of_mem _ (List.mem_append_right _ (List.mem_singleton_self _))
  | load _ _ | transition _ _ | applyRunGrabIfOwner _ _ | disableGrabIfReleased _ | deferredRelease _ _
  | setCurSession _ | readInputSource _ _ | storeRdevEnabled _ | setInputSource _ => exact hx.elim

omit [DecidableEq K] in
/-- A `Wait` puts the release off, or has nothing to do, or it releases. -/
theorem waitSection_cases (s : Keyboard S K) (a : S) :
    waitSection s a = releaseGrab s a ∨ SameKeys s (waitSection s a).shared ∧ (waitSection s a).instructions = [] ∧
      ∀ thread ∈ (waitSection s a).spawned, ∃ snapshot, thread = [.deferredRelease a snapshot] := by
  unfold waitSection
  split
  · exact .inr ⟨⟨rfl, rfl, rfl, rfl⟩, rfl, nofun⟩
  · split
    · split
      · exact .inr ⟨⟨rfl, rfl, rfl, rfl⟩, rfl, nofun⟩
      · exact .inr ⟨⟨rfl, rfl, rfl, rfl⟩, rfl, fun thread h => ⟨_, List.mem_singleton.mp h⟩⟩
    · exact .inl rfl

omit [DecidableEq K] in
theorem runSection_instructions (s : Keyboard S K) (a : S) :
    ∀ y ∈ (runSection s a).instructions, ∃ first, y = .applyRunGrabIfOwner a first := by
  unfold runSection
  split
  · exact nofun
  · exact fun y hy => ⟨_, List.mem_singleton.mp hy⟩

omit [DecidableEq S] [DecidableEq K] in
theorem of_releaseGrab {a : S} (hy : y ∈ (releaseGrab s a).instructions) (hrel : Releasing k y) : k ∈ s.toRelease := by
  rcases List.mem_cons.mp hy with rfl | hy
  · exact hrel.elim
  · obtain rfl := List.mem_singleton.mp hy
    exact hrel

omit [DecidableEq S] [DecidableEq K] in
theorem not_releasing_sessionEnterOrLeave (session : S) (enter : Bool) :
    ∀ y ∈ (sessionEnterOrLeave session enter : List (KeyboardInstr S K)), ¬Releasing k y := by
  cases enter <;> simp [sessionEnterOrLeave, Releasing]

theorem not_releasing_readInputSource {session : S} {source : String}
    (ho : execute p s (.readInputSource session source) choice = some o) : ∀ y ∈ o.instructions, ¬Releasing k y := by
  rw [Client.execute] at ho
  split at ho
  · cases ho
    exact List.forall_mem_nil _
  · split at ho
    · cases ho
      simp [sessionEnterOrLeave, Releasing]
    · split at ho
      · cases ho
        simp [sessionEnterOrLeave, Releasing]
      · cases ho
        simp [Releasing]

/-- A release comes from what is to be done, or from `TO_RELEASE`. -/
theorem of_releasing (ho : execute p s x choice = some o) (hy : y ∈ o.instructions) (hrel : Releasing k y) :
    Releasing k x ∨ k ∈ s.toRelease := by
  cases x with
  | load state session =>
    rw [Client.execute] at ho
    split at ho
    · cases ho
      obtain rfl := List.mem_singleton.mp hy
      cases state <;> exact hrel.elim
    · cases ho
      cases hy
  | transition state session =>
    cases state with
    | run =>
      cases ho
      obtain ⟨first, rfl⟩ := runSection_instructions _ _ y hy
      exact hrel.elim
    | wait =>
      cases ho
      rcases waitSection_cases (s.called .wait session) session with heq | ⟨-, hnil, -⟩
      · rw [heq] at hy
        exact .inr (of_releaseGrab hy hrel)
      · rw [hnil] at hy
        cases hy
  | deferredRelease session snapshot =>
    cases ho
    unfold deferredSection at hy
    split at hy
    · exact .inr (of_releaseGrab hy hrel)
    · cases hy
  | readInputSource session source => exact absurd hrel (not_releasing_readInputSource ho y hy)
  | releaseRemoteKeys keys =>
    cases choice with
    | none =>
      obtain ⟨-, heq⟩ := Option.ite_none_right_eq_some.mp ho
      cases heq
      cases hy
    | some l =>
      obtain ⟨hmem, heq⟩ := Option.ite_none_right_eq_some.mp ho
      cases heq
      left
      rcases List.mem_cons.mp hy with rfl | hy
      · obtain rfl : l = k := hrel
        exact hmem
      · rcases List.mem_append.mp hy with halt | hrest
        · -- the stroke of Alt is of the same key
          have hl : l = k := by
            split at halt
            · rcases List.mem_cons.mp halt with rfl | halt
              · exact hrel.elim
              · obtain rfl := List.mem_singleton.mp halt
                exact hrel
            · cases halt
          rw [← hl]
          exact hmem
        · obtain rfl := List.mem_singleton.mp hrest
          exact Finset.mem_of_mem_erase hrel
  | processEvent down l =>
    rw [Client.execute] at ho
    split at ho
    · cases ho
      cases hy
    · cases ho
      obtain rfl := List.mem_singleton.mp hy
      cases down with
      | true => exact hrel.elim
      | false => exact .inl hrel
  | updateModifiersState down l | record down l =>
    cases ho
    obtain rfl := List.mem_singleton.mp hy
    cases down with
    | true => exact hrel.elim
    | false => exact .inl hrel
  | applyRunGrabIfOwner _ _ | disableGrabIfReleased _ | setCurSession _ | storeRdevEnabled _ | setInputSource _
  | sendKeyEvent _ _ =>
    cases ho
    cases hy

/-- Only a `Wait` starts a thread. -/
theorem spawned_cases (ho : execute p s x choice = some o) :
    ∀ thread ∈ o.spawned, ∃ a snapshot, thread = [.deferredRelease a snapshot] := by
  cases x with
  | transition state session =>
    cases state with
    | run =>
      cases ho
      unfold runSection
      split <;> exact List.forall_mem_nil _
    | wait =>
      cases ho
      rcases waitSection_cases (s.called .wait session) session with heq | ⟨-, -, hspawned⟩
      · rw [heq]
        exact List.forall_mem_nil _
      · exact fun thread hthread => ⟨session, hspawned thread hthread⟩
  | deferredRelease session snapshot =>
    cases ho
    unfold deferredSection
    split <;> exact List.forall_mem_nil _
  | readInputSource _ _ | storeRdevEnabled _ | setInputSource _ | releaseRemoteKeys _ | processEvent _ _
  | updateModifiersState _ _ =>
    rw [(execute_idle ho trivial).1]
    exact List.forall_mem_nil _
  | load _ _ =>
    rw [Client.execute] at ho
    split at ho <;> cases ho <;> exact List.forall_mem_nil _
  | applyRunGrabIfOwner _ _ | disableGrabIfReleased _ | setCurSession _ | record _ _ | sendKeyEvent _ _ =>
    cases ho
    exact List.forall_mem_nil _

/-- What is to be done about the keys after an instruction. -/
structure PendingStep (s : Keyboard S K) (x : KeyboardInstr S K) (before after : List (List (KeyboardInstr S K))) :
    Prop where
  releasing : ∀ k, x ≠ .sendKeyEvent false k → Pending (Releasing k) before → Pending (Releasing k) after
  removing : ∀ k, x ≠ .record false k → Pending (Removing k) before → Pending (Removing k) after
  press : ∀ k, x ≠ .sendKeyEvent true k → Pending (· = .sendKeyEvent true k) before →
    Pending (· = .sendKeyEvent true k) after
  loose : ∀ k, k ∈ s.toRelease ∨ Pending (Releasing k) after → k ∈ s.toRelease ∨ Pending (Releasing k) before

theorem pendingStep (ho : execute p s x choice = some o) (hran : Ran before x o.instructions o.spawned after) :
    PendingStep s x before after := by
  refine ⟨fun k hne hp => ?_, fun k hne hp => ?_, fun k hne hp => pending_of_not hran hne hp, fun k hloose => ?_⟩
  · rcases pending_run hran hp with hx | hafter
    · rcases exists_removing ho ⟨hx, hne⟩ with rfl | ⟨y, hy, hrem⟩
      · -- the message is what follows
        cases ho
        exact pending_of_instructions hran (List.mem_singleton_self _) (rfl : k = k)
      · exact pending_of_instructions hran hy hrem.1
    · exact hafter
  · rcases pending_run hran hp with hx | hafter
    · obtain ⟨y, hy, hrem⟩ := (exists_removing ho hx).resolve_left hne
      exact pending_of_instructions hran hy hrem
    · exact hafter
  · rcases hloose with hmem | hafter
    · exact .inl hmem
    · rcases of_pending_ran hran hafter with hbefore | ⟨y, hy, hrel⟩ | ⟨thread, hthread, y, hy, hrel⟩
      · exact .inr hbefore
      · refine (of_releasing ho hy hrel).symm.imp_right fun hx => ?_
        obtain ⟨thread, hthread, hx'⟩ := hran.mem
        exact ⟨thread, hthread, x, hx', hx⟩
      · obtain ⟨a, snapshot, rfl⟩ := spawned_cases ho thread hthread
        obtain rfl := List.mem_singleton.mp hy
        exact hrel.elim

end Pending

/-! ## What an instruction does to the keys -/

section Invariant

variable {S K : Type*} [DecidableEq S] [DecidableEq K] {p : KeyboardPlatform K} {s s' : Keyboard S K}
  {before after : List (List (KeyboardInstr S K))} {x : KeyboardInstr S K} {choice : Option K}
  {o : Outcome (Keyboard S K) (KeyboardInstr S K)} {pool : KeyboardPool S K}

/-- The instruction records or sends a key. -/
def Handles : KeyboardInstr S K → Prop
  | .record _ _ | .sendKeyEvent _ _ => True
  | _ => False

omit [DecidableEq S] [DecidableEq K] in
theorem not_handles_ne {y : KeyboardInstr S K} (hx : ¬Handles x) (hy : Handles y) : x ≠ y :=
  fun h => hx (h ▸ hy)

/-- All that an instruction can do to the keys. -/
inductive KeysStep (s : Keyboard S K) (x : KeyboardInstr S K) (o : Outcome (Keyboard S K) (KeyboardInstr S K)) : Prop
  | same (hx : ¬Handles x) (hsame : SameKeys s o.shared)
  | enter (a : S) (hx : x = .setCurSession a) (ho : o = ⟨{ s with curSession := some a }, [], []⟩)
  | takeOver (a : S) (hx : x = .transition .run a) (hne : s.owner ≠ some a) (howner : o.shared.owner = some a)
    (hsame : SameKeys s { o.shared with owner := s.owner })
  | release (hx : ¬Handles x) (howner : o.shared.owner = none) (hkeys : o.shared.toRelease = ∅)
    (hsame : SameKeys s { o.shared with owner := s.owner, toRelease := s.toRelease })
    (hmem : .releaseRemoteKeys s.toRelease ∈ o.instructions)
  | record (down : Bool) (k : K) (hx : x = .record down k)
    (ho : o = ⟨{ s with toRelease := if down then insert k s.toRelease else s.toRelease.erase k },
      [.sendKeyEvent down k], []⟩)
  | send (down : Bool) (k : K) (hx : x = .sendKeyEvent down k)
    (ho : o = ⟨{ s with sent := s.sent ++ (s.curSession.map fun a => (a, k, down)).toList }, [], []⟩)

omit [DecidableEq S] in
theorem KeysStep.of_releaseGrab {a : S} {t : Keyboard S K} (hx : ¬Handles x) (hsame : SameKeys s t)
    (ho : o = releaseGrab t a) : KeysStep s x o := by
  subst ho
  obtain ⟨hcur, -, hkeys, hsent⟩ := hsame
  refine .release hx rfl rfl ⟨hcur, rfl, rfl, hsent⟩ ?_
  rw [← hkeys]
  exact List.mem_cons_of_mem _ (List.mem_singleton_self _)

theorem keysStep (ho : execute p s x choice = some o) : KeysStep s x o := by
  cases x with
  | load state session =>
    rw [Client.execute] at ho
    split at ho <;> exact .same (fun h => h) (Option.some.inj ho ▸ ⟨rfl, rfl, rfl, rfl⟩)
  | transition state session =>
    cases state with
    | run =>
      cases ho
      by_cases howner : (s.called .run session).owner = some session
      · refine .same (fun h => h) ?_
        rw [runSection, if_pos howner]
        exact ⟨rfl, rfl, rfl, rfl⟩
      · refine .takeOver session rfl howner ?_ ?_
        · rw [runSection, if_neg howner]
        · rw [runSection, if_neg howner]
          exact ⟨rfl, rfl, rfl, rfl⟩
    | wait =>
      cases ho
      have hcalled : SameKeys s (s.called .wait session) := ⟨rfl, rfl, rfl, rfl⟩
      rcases waitSection_cases (s.called .wait session) session with heq | ⟨hsame, -, -⟩
      · exact .of_releaseGrab (fun h => h) hcalled heq
      · exact .same (fun h => h) hsame
  | applyRunGrabIfOwner | disableGrabIfReleased =>
    cases ho
    refine .same (fun h => h) ?_
    split <;> exact ⟨rfl, rfl, rfl, rfl⟩
  | deferredRelease session snapshot =>
    cases ho
    by_cases howner : s.owner = some session ∧ s.lastGrab = snapshot
    · exact .of_releaseGrab (fun h => h) ⟨rfl, rfl, rfl, rfl⟩ (if_pos howner)
    · refine .same (fun h => h) ?_
      rw [deferredSection, if_neg howner]
      exact ⟨rfl, rfl, rfl, rfl⟩
  | setCurSession session => exact .enter session rfl (Option.some.inj ho).symm
  | readInputSource _ _ | storeRdevEnabled _ | setInputSource _ | releaseRemoteKeys _ | processEvent _ _
  | updateModifiersState _ _ =>
    obtain ⟨-, _, _, _, hshared⟩ := execute_idle ho trivial
    exact .same (fun h => h) (hshared ▸ ⟨rfl, rfl, rfl, rfl⟩)
  | record down key => exact .record down key rfl (Option.some.inj ho).symm
  | sendKeyEvent down key => exact .send down key rfl (Option.some.inj ho).symm

/-- What is true between two instructions. -/
structure KeysInv (s : Keyboard S K) (threads : List (List (KeyboardInstr S K))) : Prop where
  unsent : s.curSession = none → s.sent = []
  held : ∀ a k, held s.sent (a, k) = true → s.curSession = some a ∧ pressedAt s.sent k = some a ∧
    (k ∈ s.toRelease ∧ s.owner = some a ∨ Pending (Releasing k) threads)
  pressed : ∀ k a, k ∈ s.toRelease ∨ Pending (Releasing k) threads → pressedAt s.sent k = some a →
    s.curSession = some a ∨ Pending (· = .sendKeyEvent true k) threads
  recorded : s.owner = none → ∀ k ∈ s.toRelease, Pending (Removing k) threads
  orderly : Orderly s.sent

/-- What does nothing to the keys, and what it brings to do is no release of a key that was pressed elsewhere. -/
theorem KeysInv.keep (h : KeysInv s before) (hsame : SameKeys s s')
    (hreleasing : ∀ k, Pending (Releasing k) before → Pending (Releasing k) after)
    (hremoving : ∀ k, Pending (Removing k) before → Pending (Removing k) after)
    (hpress : ∀ k, Pending (· = .sendKeyEvent true k) before → Pending (· = .sendKeyEvent true k) after)
    (hnew : ∀ k, Pending (Releasing k) after → (k ∈ s.toRelease ∨ Pending (Releasing k) before) ∨
      ∀ a, pressedAt s.sent k = some a → s.curSession = some a) : KeysInv s' after := by
  obtain ⟨hcur, howner, hkeys, hsent⟩ := hsame
  refine ⟨?_, fun a k => ?_, fun k a => ?_, ?_, ?_⟩
  · rw [hcur, hsent]
    exact h.unsent
  · rw [hcur, howner, hkeys, hsent]
    intro hheld
    obtain ⟨hcur', hpressed, hreleased⟩ := h.held a k hheld
    exact ⟨hcur', hpressed, hreleased.imp_right (hreleasing k)⟩
  · rw [hcur, hkeys, hsent]
    intro hloose hpressed
    have hold : (k ∈ s.toRelease ∨ Pending (Releasing k) before) ∨
        ∀ a, pressedAt s.sent k = some a → s.curSession = some a := by
      rcases hloose with hmem | hpending
      · exact .inl (.inl hmem)
      · exact hnew k hpending
    rcases hold with hold | hhere
    · exact (h.pressed k a hold hpressed).imp_right (hpress k)
    · exact .inl (hhere a hpressed)
  · rw [howner, hkeys]
    exact fun hnone k hk => hremoving k (h.recorded hnone k hk)
  · rw [hsent]
    exact h.orderly

section Instruction

variable (h : KeysInv s before) (hp : PendingStep s x before after) {k : K}

include h hp in
theorem KeysInv.enter {a : S} (hx : x = .setCurSession a) (hfinds : FindsReleased s before x) :
    KeysInv { s with curSession := some a } after := by
  subst hx
  refine ⟨nofun, fun b k hheld => ?_, fun k b hb hpressed => .inl ?_, fun hnone k hk => ?_, h.orderly⟩
  · obtain ⟨-, hpressed, hreleased⟩ := h.held b k hheld
    obtain rfl := hfinds b k hpressed (.inl hheld)
    exact ⟨rfl, hpressed, hreleased.imp_right (hp.releasing k nofun)⟩
  · obtain rfl := hfinds b k hpressed (.inr (hp.loose k hb))
    rfl
  · exact hp.removing k nofun (h.recorded hnone k hk)

include h hp in
theorem KeysInv.takeOver {a : S} (hx : x = .transition .run a) (hne : s.owner ≠ some a)
    (howner : s'.owner = some a) (hsame : SameKeys s { s' with owner := s.owner })
    (hfinds : FindsReleased s before x) : KeysInv s' after := by
  subst hx
  obtain ⟨hcur, -, hkeys, hsent⟩ := hsame
  refine ⟨?_, fun b k => ?_, fun k b => ?_, fun hnone => ?_, ?_⟩
  · rw [hcur, hsent]
    exact h.unsent
  · rw [hcur, hsent]
    intro hheld
    obtain ⟨hcur', hpressed, hreleased⟩ := h.held b k hheld
    refine ⟨hcur', hpressed, .inr (hp.releasing k nofun ?_)⟩
    -- the owner is another before, so the key is being released
    rcases hfinds hne b k hheld with rfl | hpending
    · exact hreleased.resolve_left fun h => hne h.2
    · exact hpending
  · rw [hcur, hkeys, hsent]
    exact fun hloose hpressed => (h.pressed k b (hp.loose k hloose) hpressed).imp_right (hp.press k nofun)
  · rw [howner] at hnone
    cases hnone
  · rw [hsent]
    exact h.orderly

include h hp in
/-- What was in `TO_RELEASE` is being released. -/
theorem KeysInv.release (hx : ¬Handles x) (hempty : s'.toRelease = ∅)
    (hsame : SameKeys s { s' with owner := s.owner, toRelease := s.toRelease })
    (hreleased : ∀ k ∈ s.toRelease, Pending (Releasing k) after) : KeysInv s' after := by
  obtain ⟨hcur, -, -, hsent⟩ := hsame
  refine ⟨?_, fun b k => ?_, fun k b => ?_, fun _ k hk => ?_, ?_⟩
  · rw [hcur, hsent]
    exact h.unsent
  · rw [hcur, hsent]
    intro hheld
    obtain ⟨hcur', hpressed, hold⟩ := h.held b k hheld
    refine ⟨hcur', hpressed, .inr ?_⟩
    rcases hold with ⟨hk, -⟩ | hpending
    · exact hreleased k hk
    · exact hp.releasing k (not_handles_ne hx trivial) hpending
  · rw [hcur, hempty, hsent]
    intro hloose hpressed
    have hpending := hloose.resolve_left (Finset.notMem_empty k)
    exact (h.pressed k b (hp.loose k (.inr hpending)) hpressed).imp_right (hp.press k (not_handles_ne hx trivial))
  · rw [hempty] at hk
    cases hk
  · rw [hsent]
    exact h.orderly

include h hp in
theorem KeysInv.recordUp (hx : x = .record false k) (hup : Pending (Releasing k) after) :
    KeysInv { s with toRelease := s.toRelease.erase k } after := by
  subst hx
  refine ⟨h.unsent, fun b l hheld => ?_, fun l b hl hpressed => ?_, fun hnone l hl => ?_, h.orderly⟩
  · obtain ⟨hcur, hpressed, hreleased⟩ := h.held b l hheld
    refine ⟨hcur, hpressed, ?_⟩
    by_cases hlk : l = k
    · subst hlk
      exact .inr hup
    · rcases hreleased with ⟨hmem, howner⟩ | hpending
      · exact .inl ⟨Finset.mem_erase.mpr ⟨hlk, hmem⟩, howner⟩
      · exact .inr (hp.releasing l nofun hpending)
  · have hold := hp.loose l (hl.imp_left Finset.mem_of_mem_erase)
    exact (h.pressed l b hold hpressed).imp_right (hp.press l nofun)
  · obtain ⟨hne, hmem⟩ := Finset.mem_erase.mp hl
    exact hp.removing l (by rintro ⟨⟩; exact hne rfl) (h.recorded hnone l hmem)

include h hp in
theorem KeysInv.recordDown (hx : x = .record true k) (hdown : Pending (· = .sendKeyEvent true k) after)
    (hfinds : FindsReleased s before x) : KeysInv { s with toRelease := insert k s.toRelease } after := by
  subst hx
  refine ⟨h.unsent, fun b l hheld => ?_, fun l b hl hpressed => ?_, fun hnone l hl => ?_, h.orderly⟩
  · obtain ⟨hcur, hpressed, hreleased⟩ := h.held b l hheld
    exact ⟨hcur, hpressed, hreleased.imp (fun h => ⟨Finset.mem_insert_of_mem h.1, h.2⟩) (hp.releasing l nofun)⟩
  · by_cases hlk : l = k
    · -- the press itself is on its way
      subst hlk
      exact .inr hdown
    · have hold := hp.loose l (hl.imp_left fun hmem => Finset.mem_of_mem_insert_of_ne hmem hlk)
      exact (h.pressed l b hold hpressed).imp_right (hp.press l nofun)
  · rcases Finset.mem_insert.mp hl with rfl | hmem
    · exact hp.removing l nofun (hfinds.resolve_left (not_not_intro hnone))
    · exact hp.removing l nofun (h.recorded hnone l hmem)

include h hp in
/-- Nobody has been entered yet. -/
theorem KeysInv.sendNowhere {down : Bool} (hx : x = .sendKeyEvent down k) : KeysInv { s with sent := [] } after := by
  subst hx
  refine ⟨fun _ => rfl, fun b l hheld => ?_, fun l b _ hpressed => ?_, fun hnone l hl => ?_, nofun⟩
  · cases hheld
  · cases hpressed
  · exact hp.removing l nofun (h.recorded hnone l hl)

include h hp in
theorem KeysInv.sendUp {c : S} (hx : x = .sendKeyEvent false k) (hcur : s.curSession = some c)
    (hpending : Pending (Releasing k) before) (hfinds : FindsReleased s before x) :
    KeysInv { s with sent := s.sent ++ [(c, k, false)] } after := by
  subst hx
  refine ⟨fun hnone => ?_, fun b l => ?_, fun l b hl => ?_, fun hnone l hl => ?_, ?_⟩
  · rw [hcur] at hnone
    cases hnone
  · rw [held_concat, pressedAt_release]
    intro hheld
    by_cases hbl : (b, l) = (c, k)
    · rw [hbl, Function.update_self] at hheld
      cases hheld
    · rw [Function.update_of_ne hbl] at hheld
      obtain ⟨hcur', hpressed, hreleased⟩ := h.held b l hheld
      -- the key is down at the session that is entered, so it is another key that goes up
      cases hcur.symm.trans hcur'
      exact ⟨hcur, hpressed, hreleased.imp_right (hp.releasing l (by rintro ⟨⟩; exact hbl rfl))⟩
  · rw [pressedAt_release]
    exact fun hpressed => (h.pressed l b (hp.loose l hl) hpressed).imp_right (hp.press l nofun)
  · exact hp.removing l nofun (h.recorded hnone l hl)
  · refine h.orderly.concat fun _ b hpressed => ?_
    have hhere := (h.pressed k b (.inr hpending) hpressed).resolve_right hfinds
    exact Option.some.inj (hhere.symm.trans hcur)

include h hp in
theorem KeysInv.sendDown {c : S} (hx : x = .sendKeyEvent true k) (hcur : s.curSession = some c)
    (hfinds : FindsReleased s before x) : KeysInv { s with sent := s.sent ++ [(c, k, true)] } after := by
  subst hx
  have hfound : k ∈ s.toRelease ∧ s.owner = some c ∨ Pending (Releasing k) after := by
    rcases hfinds with hnone | ⟨hmem, howner⟩ | hpending
    · rw [hcur] at hnone
      cases hnone
    · exact .inl ⟨hmem, howner.trans hcur⟩
    · exact .inr (hp.releasing k nofun hpending)
  refine ⟨fun hnone => ?_, fun b l => ?_, fun l b hl => ?_, fun hnone l hl => ?_, h.orderly.concat nofun⟩
  · rw [hcur] at hnone
    cases hnone
  · rw [held_concat, pressedAt_press]
    intro hheld
    by_cases hbl : (b, l) = (c, k)
    · cases hbl
      exact ⟨hcur, Function.update_self .., hfound⟩
    · rw [Function.update_of_ne hbl] at hheld
      obtain ⟨hcur', hpressed, hreleased⟩ := h.held b l hheld
      cases hcur.symm.trans hcur'
      have hlk : l ≠ k := fun hlk => hbl (by rw [hlk])
      rw [Function.update_of_ne hlk]
      exact ⟨hcur, hpressed, hreleased.imp_right (hp.releasing l nofun)⟩
  · rw [pressedAt_press]
    intro hpressed
    by_cases hlk : l = k
    · subst hlk
      rw [Function.update_self] at hpressed
      exact .inl (hcur.trans hpressed)
    · rw [Function.update_of_ne hlk] at hpressed
      exact (h.pressed l b (hp.loose l hl) hpressed).imp_right (hp.press l (by rintro ⟨⟩; exact hlk rfl))
  · exact hp.removing l nofun (h.recorded hnone l hl)

end Instruction

/-- **One instruction.** -/
theorem KeysInv.execute (h : KeysInv s before) (hran : Ran before x o.instructions o.spawned after)
    (ho : execute p s x choice = some o) (hfinds : FindsReleased s before x) : KeysInv o.shared after := by
  have hp := pendingStep ho hran
  cases keysStep ho with
  | same hx hsame =>
    exact h.keep hsame (fun k => hp.releasing k (not_handles_ne hx trivial))
      (fun k => hp.removing k (not_handles_ne hx trivial)) (fun k => hp.press k (not_handles_ne hx trivial))
      fun k hrel => .inl (hp.loose k (.inr hrel))
  | enter a hx heq =>
    subst heq
    exact h.enter hp hx hfinds
  | takeOver a hx hne howner hsame => exact h.takeOver hp hx hne howner hsame hfinds
  | release hx howner hempty hsame hmem =>
    refine h.release hp hx hempty hsame fun k hk => ?_
    have hrel : Releasing k (.releaseRemoteKeys s.toRelease : KeyboardInstr S K) := hk
    exact pending_of_instructions hran hmem hrel
  | record down k hx heq =>
    subst heq
    cases down with
    | false => exact h.recordUp hp hx (pending_of_instructions hran (List.mem_singleton_self _) (rfl : k = k))
    | true => exact h.recordDown hp hx (pending_of_instructions hran (List.mem_singleton_self _) rfl) hfinds
  | send down k hx heq =>
    subst heq
    cases hcur : s.curSession with
    | none =>
      have hkeys := h.sendNowhere hp hx
      rw [← h.unsent hcur] at hkeys
      simpa [hcur] using hkeys
    | some c =>
      cases down with
      | false =>
        obtain ⟨thread, hthread, hmem⟩ := hran.mem
        have hpending : Pending (Releasing k) before := ⟨thread, hthread, x, hmem, by rw [hx]; exact rfl⟩
        simpa [hcur] using h.sendUp hp hx hcur hpending hfinds
      | true => simpa [hcur] using h.sendDown hp hx hcur hfinds

/-- **One event.** -/
theorem KeysInv.step {pool' : KeyboardPool S K} {e : KeyboardEvent S K} (h : KeysInv pool.shared pool.threads)
    (hharmless : pool.Harmless e) (hstep : KeyboardPool.step p pool e = some pool') :
    KeysInv pool'.shared pool'.threads := by
  cases e with
  | run i choice =>
    obtain ⟨x, rest, o, hi, ho, hran, hshared⟩ := run_cases hstep
    rw [hshared]
    exact h.execute hran ho (hharmless x rest hi)
  | tick nanos =>
    cases hstep
    exact h.keep ⟨rfl, rfl, rfl, rfl⟩ (fun _ hp => hp) (fun _ hp => hp) (fun _ hp => hp) fun _ hp => .inl (.inr hp)
  | sessionEnterOrLeave session enter =>
    cases hstep
    refine h.keep ⟨rfl, rfl, rfl, rfl⟩ (fun _ hp => pending_start hp _)
      (fun _ hp => pending_start hp _) (fun _ hp => pending_start hp _) fun k hp => .inl (.inr ?_)
    refine (of_pending_start hp).resolve_right ?_
    rintro ⟨y, hy, hrel⟩
    exact not_releasing_sessionEnterOrLeave session enter y hy hrel
  | changeInputSource session source =>
    cases hstep
    refine h.keep ⟨rfl, rfl, rfl, rfl⟩ (fun _ hp => pending_start hp _)
      (fun _ hp => pending_start hp _) (fun _ hp => pending_start hp _) fun k hp => .inl (.inr ?_)
    refine (of_pending_start hp).resolve_right ?_
    rintro ⟨y, hy, hrel⟩
    obtain rfl := List.mem_singleton.mp hy
    exact hrel
  | key down k =>
    cases hstep
    refine h.keep ⟨rfl, rfl, rfl, rfl⟩ (fun _ hp => pending_start hp _)
      (fun _ hp => pending_start hp _) (fun _ hp => pending_start hp _) fun l hp => ?_
    rcases of_pending_start hp with hp | ⟨y, hy, hrel⟩
    · exact .inl (.inr hp)
    · obtain rfl := List.mem_singleton.mp hy
      cases down with
      | true => exact hrel.elim
      | false =>
        obtain rfl : k = l := hrel
        exact .inr hharmless

theorem KeysInv.keysSafe (h : KeysInv pool.shared pool.threads) : KeysSafe pool := by
  refine ⟨fun hreturned a k hheld => ?_, h.orderly, fun hnone hnot => ?_⟩
  · obtain ⟨-, -, hreleased⟩ := h.held a k hheld
    rcases hreleased with ⟨-, howner⟩ | ⟨thread, hthread, x, hx, hrel⟩
    · exact howner
    · rcases hreturned thread hthread with rfl | ⟨b, snapshot, rfl⟩
      · cases hx
      · obtain rfl := List.mem_singleton.mp hx
        exact hrel.elim
  · rw [Finset.eq_empty_iff_forall_notMem]
    exact fun k hk => hnot k (h.recorded hnone k hk)

/-- **No key stays down at a peer** in a run of harmless steps. -/
theorem keysSafe_of_run {rdevEnabled : Bool} {inputSource : String} {es : List (KeyboardEvent S K)}
    {pool : KeyboardPool S K}
    (hrun : Run (Only Harmless (Steps (KeyboardPool.step p))) (start rdevEnabled inputSource) es pool) :
    KeysSafe pool := by
  have hstep : ∀ (pool : KeyboardPool S K) e pool', KeysInv pool.shared pool.threads →
      Only Harmless (Steps (KeyboardPool.step p)) pool e pool' → KeysInv pool'.shared pool'.threads := by
    rintro pool e pool' hpool ⟨hharmless, hstep⟩
    exact hpool.step hharmless hstep
  have hstart : KeysInv (start rdevEnabled inputSource : KeyboardPool S K).shared [] :=
    ⟨fun _ => rfl, nofun, fun _ _ _ hpressed => (nomatch hpressed), fun _ k hk => absurd hk (Finset.notMem_empty k),
      nofun⟩
  exact (hrun.invariant hstep hstart).keysSafe

theorem harmless_run {i : ℕ} {rest : List (KeyboardInstr S K)} (hi : pool.threads[i]? = some (x :: rest))
    (hfinds : FindsReleased pool.shared pool.threads x) : pool.Harmless (.run i choice) := by
  intro y rest' hi'
  obtain ⟨rfl, -⟩ := List.cons.inj (Option.some.inj (hi.symm.trans hi'))
  exact hfinds

end Invariant

/-! ## Two runs -/

/-- A key is pressed in a session that is entered, and the session is left. -/
def pressAndLeave : List (KeyboardEvent ℕ ℕ) :=
  [.sessionEnterOrLeave 1 true, .run 0 none, .run 0 none, .run 0 none, .run 0 none,
    .key true 7, .run 1 none, .run 1 none, .run 1 none, .run 1 none,
    .sessionEnterOrLeave 1 false, .run 2 none, .run 2 none, .run 3 none, .run 3 none, .run 3 (some 7),
    .run 3 none, .run 3 none, .run 3 none, .run 3 none, .run 3 none]

theorem keysSafe_pressAndLeave :
    ∃ pool, Run (Only Harmless (Steps (step linux))) (start true "") pressAndLeave pool ∧
      pool.shared.sent = [(1, 7, true), (1, 7, false)] ∧ pool.shared.owner = none ∧ KeysSafe pool := by
  have hrun : ∃ pool, Run (Only Harmless (Steps (step linux))) (start true "") pressAndLeave pool ∧
      pool.shared.sent = [(1, 7, true), (1, 7, false)] ∧ pool.shared.owner = none := by
    refine ⟨_, .cons ⟨trivial, rfl⟩ (.cons ⟨harmless_run rfl ?_, rfl⟩ (.cons ⟨harmless_run rfl trivial, rfl⟩ (
      .cons ⟨harmless_run rfl ?_, rfl⟩ (.cons ⟨harmless_run rfl trivial, rfl⟩ (.cons ⟨trivial, rfl⟩ (
      .cons ⟨harmless_run rfl trivial, rfl⟩ (.cons ⟨harmless_run rfl trivial, rfl⟩ (.cons ⟨harmless_run rfl ?_, rfl⟩ (
      .cons ⟨harmless_run rfl ?_, rfl⟩ (.cons ⟨trivial, rfl⟩ (.cons ⟨harmless_run rfl trivial, rfl⟩ (
      .cons ⟨harmless_run rfl trivial, rfl⟩ (.cons ⟨harmless_run rfl trivial, rfl⟩ (
      .cons ⟨harmless_run rfl trivial, rfl⟩ (.cons ⟨harmless_run rfl trivial, rfl⟩ (
      .cons ⟨harmless_run rfl trivial, rfl⟩ (.cons ⟨harmless_run rfl trivial, rfl⟩ (
      .cons ⟨harmless_run rfl trivial, rfl⟩ (.cons ⟨harmless_run rfl ?_, rfl⟩ (.cons ⟨harmless_run rfl trivial, rfl⟩ (
      .nil _))))))))))))))))))))), rfl, rfl⟩
    · exact fun a k hpressed => (nomatch hpressed)
    · exact fun _ a k hheld => (nomatch hheld)
    · exact .inl nofun
    · exact .inr (.inl ⟨Finset.mem_singleton_self 7, rfl⟩)
    · -- no press is on its way
      rintro ⟨thread, hthread, x, hx, rfl⟩
      have hthreads : thread ∈ [[], [], [], [.sendKeyEvent false 7, .releaseRemoteKeys ∅]] := hthread
      simp only [List.mem_cons, List.not_mem_nil, or_false] at hthreads
      rcases hthreads with rfl | rfl | rfl | rfl <;> simp at hx
  obtain ⟨pool, hrun, hsent, howner⟩ := hrun
  exact ⟨pool, hrun, hsent, howner, keysSafe_of_run hrun⟩

/-- A key is held in session 1 when session 2 is entered and takes the grab over. -/
def enterWhileHeld : List (KeyboardEvent ℕ ℕ) :=
  [.sessionEnterOrLeave 1 true, .run 0 none, .run 0 none, .run 0 none, .run 0 none,
    .key true 7, .run 1 none, .run 1 none, .run 1 none, .run 1 none,
    .sessionEnterOrLeave 2 true, .run 2 none, .run 2 none, .run 2 none, .run 2 none]

theorem not_keysSafe_enterWhileHeld :
    ∃ pool, Run (Steps (step linux)) (start true "") enterWhileHeld pool ∧ pool.Returned ∧
      pool.shared.owner = some 2 ∧ pool.shared.sent = [(1, 7, true)] ∧ ¬KeysSafe pool := by
  have hrun : ∃ pool, Run (Steps (step linux)) (start true "") enterWhileHeld pool ∧
      pool.threads = [[], [], []] ∧ pool.shared.owner = some 2 ∧ pool.shared.sent = [(1, 7, true)] :=
    ⟨_, .cons rfl (.cons rfl (.cons rfl (.cons rfl (.cons rfl (.cons rfl (.cons rfl (.cons rfl (.cons rfl (.cons rfl
      (.cons rfl (.cons rfl (.cons rfl (.cons rfl (.cons rfl (.nil _))))))))))))))), rfl, rfl, rfl⟩
  obtain ⟨pool, hrun, hthreads, howner, hsent⟩ := hrun
  have hreturned : pool.Returned := by
    intro thread hthread
    rw [hthreads] at hthread
    left
    simpa using hthread
  refine ⟨pool, hrun, hreturned, howner, hsent, fun h => ?_⟩
  have hheld : held pool.shared.sent (1, 7) = true := by
    rw [hsent]
    rfl
  have howns := h.released hreturned 1 7 hheld
  rw [howner] at howns
  cases howns

end KeyboardPool

end RustDesk.Client
