import RustDesk.Common.Dialogue
import RustDesk.Common.Side
import Mathlib.Logic.Function.Basic

/-!
# Two dialogues over a reliable connection

Each end runs its handshake; once it has returned it may send application frames. The frames to each
end form one queue, so a handshake that still waits can be handed an application frame of the other
end. Waits can also time out, or see the stream fail.

`Coherent` ties the state of each end to its dialogue and to the queue. From it `finished` reads off,
for a state in which both handshakes have returned, two complete runs whose frames match.
-/

variable {φ κ ε : Type} {ρ : Side → Type}

/-- A frame, and whether it is the application's. -/
structure Tagged (φ : Type) where
  app : Bool
  body : φ
deriving DecidableEq

/-- Both ends: what is left of each handshake, the events so far, the frames under way to each end,
and the frames each end's handshake took and each end sent. -/
structure Duplex (φ κ ε : Type) (ρ : Side → Type) where
  proc : ∀ d, Dialogue φ κ ε (ρ d)
  history : Side → List (Event φ κ)
  queue : Side → List (Tagged φ)
  taken : Side → List (Tagged φ)
  emitted : Side → List (Tagged φ)

inductive DuplexAction (φ κ : Type)
  | handshake (d : Side) (ev : Event φ κ)
  | app (d : Side) (f : φ)

namespace Duplex

/-- No frame was sent yet. -/
def start (proc : ∀ d, Dialogue φ κ ε (ρ d)) : Duplex φ κ ε ρ where
  proc := proc
  history _ := []
  queue _ := []
  taken _ := []
  emitted _ := []

/-- End `d` makes an event of its handshake and goes on with `p`. -/
def advance (c : Duplex φ κ ε ρ) (d : Side) (ev : Event φ κ) (p : Dialogue φ κ ε (ρ d)) :
    Duplex φ κ ε ρ :=
  { c with
    proc := Function.update c.proc d p
    history := Function.update c.history d (c.history d ++ [ev]) }

/-- A frame of end `d` joins the queue to the other end. -/
def emit (c : Duplex φ κ ε ρ) (d : Side) (t : Tagged φ) : Duplex φ κ ε ρ :=
  { c with
    queue := Function.update c.queue d.other (c.queue d.other ++ [t])
    emitted := Function.update c.emitted d (c.emitted d ++ [t]) }

/-- End `d` takes the first frame of its queue. -/
def take (c : Duplex φ κ ε ρ) (d : Side) (t : Tagged φ) (q : List (Tagged φ)) : Duplex φ κ ε ρ :=
  { c with
    queue := Function.update c.queue d q
    taken := Function.update c.taken d (c.taken d ++ [t]) }

inductive Step : Duplex φ κ ε ρ → DuplexAction φ κ → Duplex φ κ ε ρ → Prop
  | send {c : Duplex φ κ ε ρ} {d f p} : Dialogue.Step (c.proc d) (.sent f) p →
      Step c (.handshake d (.sent f)) ((c.advance d (.sent f) p).emit d ⟨false, f⟩)
  | recv {c : Duplex φ κ ε ρ} {d t q p} : c.queue d = t :: q →
      Dialogue.Step (c.proc d) (.got (.frame t.body)) p →
      Step c (.handshake d (.got (.frame t.body)))
        ((c.advance d (.got (.frame t.body)) p).take d t q)
  /-- Events without a frame: a failed or timed out wait, or a key that is installed. -/
  | silent {c : Duplex φ κ ε ρ} {d ev p} : received [ev] = [] → sentFrames [ev] = [] →
      Dialogue.Step (c.proc d) ev p → Step c (.handshake d ev) (c.advance d ev p)
  | app {c : Duplex φ κ ε ρ} {d f r} : c.proc d = .done (.ok r) →
      Step c (.app d f) (c.emit d ⟨true, f⟩)

/-- The state of end `d` is that of its handshake after its events; its queue holds what the other
end sent and it did not take; and application frames come after all handshake frames. -/
structure Coherent (proc : ∀ d, Dialogue φ κ ε (ρ d)) (c : Duplex φ κ ε ρ) (d : Side) : Prop where
  runs : Run Dialogue.Step (proc d) (c.history d) (c.proc d)
  fifo : c.taken d ++ c.queue d = c.emitted d.other
  takes : received (c.history d) = (c.taken d).map Tagged.body
  emits : ∃ apps : List (Tagged φ), (∀ t ∈ apps, t.app = true) ∧
    c.emitted d = (sentFrames (c.history d)).map (Tagged.mk false) ++ apps ∧
    (apps = [] ∨ ∃ r, c.proc d = .done (.ok r))

variable {proc : ∀ d, Dialogue φ κ ε (ρ d)} {c : Duplex φ κ ε ρ}

theorem not_done_of_step {α : Type} {p p' : Dialogue φ κ ε α} {ev : Event φ κ}
    (h : Dialogue.Step p ev p') : ¬ ∃ r, p = .done r := by
  rintro ⟨r, rfl⟩
  cases h

/-- A handshake event of the other end changes nothing at this one but, for a frame, its queue. -/
theorem Coherent.of_same {c' : Duplex φ κ ε ρ} {d : Side} (h : Coherent proc c d)
    (hproc : c'.proc d = c.proc d) (hhistory : c'.history d = c.history d)
    (hfifo : c'.taken d ++ c'.queue d = c'.emitted d.other) (htaken : c'.taken d = c.taken d)
    (hemitted : c'.emitted d = c.emitted d) : Coherent proc c' d where
  runs := by rw [hproc, hhistory]; exact h.runs
  fifo := hfifo
  takes := by rw [hhistory, htaken]; exact h.takes
  emits := by rw [hemitted, hhistory, hproc]; exact h.emits

/-- An end whose handshake still moves has sent handshake frames only. -/
theorem Coherent.emitted_of_step {d : Side} (h : Coherent proc c d) {ev : Event φ κ}
    {p : Dialogue φ κ ε (ρ d)} (hp : Dialogue.Step (c.proc d) ev p) :
    c.emitted d = (sentFrames (c.history d)).map (Tagged.mk false) := by
  obtain ⟨apps, -, hemitted, hnone | ⟨r, hr⟩⟩ := h.emits
  · rw [hemitted, hnone, List.append_nil]
  · exact absurd ⟨_, hr⟩ (not_done_of_step hp)

/-- Every step keeps both ends coherent. -/
theorem coherent_step (c : Duplex φ κ ε ρ) (a : DuplexAction φ κ) (c' : Duplex φ κ ε ρ)
    (h : ∀ d, Coherent proc c d) (hstep : Step c a c') : ∀ d, Coherent proc c' d := by
  intro d'
  cases hstep with
  | @send d f p hp =>
    rcases d.eq_or_eq_other d' with rfl | rfl
    · refine ⟨?_, ?_, ?_, [], by simp, ?_, Or.inl rfl⟩
      · simpa [advance, emit] using (h d').runs.append (.cons hp (.nil p))
      · simpa [advance, emit] using (h d').fifo
      · simpa [advance, emit] using (h d').takes
      · simp [advance, emit, (h d').emitted_of_step hp]
    · apply (h d.other).of_same <;> simp [advance, emit]
      rw [← List.append_assoc, (h d.other).fifo, Side.other_other]
  | @recv d t q p hq hp =>
    rcases d.eq_or_eq_other d' with rfl | rfl
    · have hfifo := (h d').fifo
      rw [hq] at hfifo
      refine ⟨?_, ?_, ?_, [], by simp, ?_, Or.inl rfl⟩
      · simpa [advance, take] using (h d').runs.append (.cons hp (.nil p))
      · simpa [advance, take] using hfifo
      · simp [advance, take, (h d').takes]
      · simpa [advance, take] using (h d').emitted_of_step hp
    · apply (h d.other).of_same <;> simp [advance, take]
      simpa using (h d.other).fifo
  | @silent d ev p hgot hsent hp =>
    rcases d.eq_or_eq_other d' with rfl | rfl
    · refine ⟨?_, ?_, ?_, [], by simp, ?_, Or.inl rfl⟩
      · simpa [advance] using (h d').runs.append (.cons hp (.nil p))
      · simpa [advance] using (h d').fifo
      · simpa [advance, hgot] using (h d').takes
      · simpa [advance, hsent] using (h d').emitted_of_step hp
    · apply (h d.other).of_same <;> simp [advance]
      simpa using (h d.other).fifo
  | @app d f r hr =>
    rcases d.eq_or_eq_other d' with rfl | rfl
    · obtain ⟨apps, happs, hemitted, -⟩ := (h d').emits
      refine ⟨(h d').runs, ?_, (h d').takes, apps ++ [⟨true, f⟩], ?_, ?_, Or.inr ⟨r, hr⟩⟩
      · simpa [emit] using (h d').fifo
      · intro t ht
        rcases List.mem_append.mp ht with ht | ht
        · exact happs t ht
        · rw [List.mem_singleton.mp ht]
      · simp [emit, hemitted]
    · apply (h d.other).of_same <;> simp [emit]
      rw [← List.append_assoc, (h d.other).fifo, Side.other_other]

/-- **Two complete runs whose frames match.** Once both handshakes have returned, each end has gone
through a complete run of its handshake, and the frames it took are the first ones the other end
sent: its handshake frames, then frames of its application. -/
theorem finished {acts : List (DuplexAction φ κ)} (hrun : Run Step (start proc) acts c)
    {r : ∀ d, ρ d} (hdone : ∀ d, c.proc d = .done (.ok (r d))) (d : Side) :
    Dialogue.Finishes (proc d) (c.history d) (.ok (r d)) ∧
    received (c.history d) = (c.taken d).map Tagged.body ∧
    ∃ apps : List (Tagged φ), (∀ t ∈ apps, t.app = true) ∧
      c.taken d <+: (sentFrames (c.history d.other)).map (Tagged.mk false) ++ apps := by
  have hstart : ∀ d, Coherent proc (start proc) d := fun d =>
    { runs := .nil _
      fifo := rfl
      takes := rfl
      emits := ⟨[], by simp, rfl, Or.inl rfl⟩ }
  have h := hrun.invariant coherent_step hstart
  obtain ⟨apps, happs, hemitted, -⟩ := (h d.other).emits
  refine ⟨?_, (h d).takes, apps, happs, (c.queue d), ?_⟩
  · rw [Dialogue.Finishes, ← hdone d]
    exact (h d).runs
  · rw [← hemitted, (h d).fifo]

end Duplex
