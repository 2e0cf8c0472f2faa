import RustDesk.Common.Run

/-!
# Dialogues: one party of a handshake

A `Dialogue` is what one party of a protocol does on its stream: connect, send, wait for a frame,
install a key, and in the end return or fail. What the other side answers is not part of it, so the
same dialogue can be put against an honest peer, an attacker, or a list of answers.

`Finishes` is the relation between a dialogue and the complete event lists it can produce; it
composes along `bind`. `Keeps` is the rule for what holds of every event of a dialogue as long as
its inputs are harmless.
-/

variable {φ κ ε α β : Type}

/-- What waiting for a frame can answer: a frame, a read error, the end of the stream, or nothing
in time. -/
inductive Received (φ : Type)
  | frame (f : φ)
  | failed (text : String)
  | closed
  | timeout
deriving DecidableEq

/-- What one party does next, over frames `φ`, keys `κ`, errors `ε` and a result `α`. -/
inductive Dialogue (φ κ ε α : Type)
  | done (r : Except ε α)
  | connect (next : Dialogue φ κ ε α)
  | send (f : φ) (next : Dialogue φ κ ε α)
  | recv (next : Received φ → Dialogue φ κ ε α)
  | setKey (k : κ) (next : Dialogue φ κ ε α)

/-- What can be seen of a dialogue. -/
inductive Event (φ κ : Type)
  | refused
  | connected
  | sent (f : φ)
  | got (r : Received φ)
  | keyed (k : κ)
deriving DecidableEq

/-- The frames received in a run, in order. -/
def received (evs : List (Event φ κ)) : List φ :=
  evs.filterMap fun ev => match ev with
    | .got (.frame f) => some f
    | _ => none

/-- The frames sent in a run, in order. -/
def sentFrames (evs : List (Event φ κ)) : List φ :=
  evs.filterMap fun ev => match ev with
    | .sent f => some f
    | _ => none

/-- The key a run leaves installed. -/
def installedKey (evs : List (Event φ κ)) : Option κ :=
  evs.foldl (fun key ev => match ev with
    | .keyed k => some k
    | _ => key) none

@[simp] theorem received_append (evs evs' : List (Event φ κ)) :
    received (evs ++ evs') = received evs ++ received evs' := List.filterMap_append

@[simp] theorem sentFrames_append (evs evs' : List (Event φ κ)) :
    sentFrames (evs ++ evs') = sentFrames evs ++ sentFrames evs' := List.filterMap_append

@[simp] theorem received_frame (f : φ) : received [(.got (.frame f) : Event φ κ)] = [f] := rfl

@[simp] theorem received_sent (f : φ) : received [(.sent f : Event φ κ)] = [] := rfl

@[simp] theorem sentFrames_sent (f : φ) : sentFrames [(.sent f : Event φ κ)] = [f] := rfl

@[simp] theorem sentFrames_got (r : Received φ) : sentFrames [(.got r : Event φ κ)] = [] := rfl

/-- Events that install no key leave the one that is there. -/
theorem installedKey_append {evs evs' : List (Event φ κ)} (h : ∀ ev ∈ evs', ∀ k, ev ≠ .keyed k) :
    installedKey (evs ++ evs') = installedKey evs := by
  rw [installedKey, List.foldl_append, ← installedKey]
  generalize installedKey evs = key
  induction evs' with
  | nil => rfl
  | cons ev evs' ih =>
    obtain ⟨hev, hevs⟩ := List.forall_mem_cons.mp h
    cases ev with
    | keyed k => exact absurd rfl (hev k)
    | _ => exact ih hevs

namespace Dialogue

/-! ## Composition -/

def bind : Dialogue φ κ ε α → (α → Dialogue φ κ ε β) → Dialogue φ κ ε β
  | .done (.ok a), g => g a
  | .done (.error e), _ => .done (.error e)
  | .connect p, g => .connect (p.bind g)
  | .send f p, g => .send f (p.bind g)
  | .recv next, g => .recv fun r => (next r).bind g
  | .setKey k p, g => .setKey k (p.bind g)

instance : Monad (Dialogue φ κ ε) where
  pure a := .done (.ok a)
  bind := bind

/-- `bail!`. -/
def bail (e : ε) : Dialogue φ κ ε α := .done (.error e)

/-- A result passed on with `?`. -/
def lift (r : Except ε α) : Dialogue φ κ ε α := .done r

/-- Open a fresh stream in place of the current one. -/
def connectStream : Dialogue φ κ ε Unit := .connect (.done (.ok ()))

def sendFrame (f : φ) : Dialogue φ κ ε Unit := .send f (.done (.ok ()))

def nextFrame : Dialogue φ κ ε (Received φ) := .recv fun r => .done (.ok r)

def installKey (k : κ) : Dialogue φ κ ε Unit := .setKey k (.done (.ok ()))

@[simp] theorem pure_eq (a : α) : (pure a : Dialogue φ κ ε α) = .done (.ok a) := rfl

@[simp] theorem bind_eq (p : Dialogue φ κ ε α) (g : α → Dialogue φ κ ε β) : p >>= g = p.bind g := rfl

@[simp] theorem bind_lift_ok (a : α) (g : α → Dialogue φ κ ε β) : (lift (.ok a)).bind g = g a := rfl

@[simp] theorem bind_lift_error (e : ε) (g : α → Dialogue φ κ ε β) :
    (lift (.error e)).bind g = .done (.error e) := rfl

@[simp] theorem bind_connectStream (g : Unit → Dialogue φ κ ε β) : connectStream.bind g = .connect (g ()) := rfl

@[simp] theorem bind_sendFrame (f : φ) (g : Unit → Dialogue φ κ ε β) : (sendFrame f).bind g = .send f (g ()) := rfl

@[simp] theorem bind_nextFrame (g : Received φ → Dialogue φ κ ε β) : nextFrame.bind g = .recv g := rfl

@[simp] theorem bind_installKey (k : κ) (g : Unit → Dialogue φ κ ε β) :
    (installKey k).bind g = .setKey k (g ()) := rfl

/-! ## Steps -/

/-- One step and the event it shows. A connection can be refused and a send can fail, and then the
dialogue ends with that error; the frame may be on its way all the same. -/
inductive Step : Dialogue φ κ ε α → Event φ κ → Dialogue φ κ ε α → Prop
  | connect (p) : Step (.connect p) .connected p
  | refuse (p) (e : ε) : Step (.connect p) .refused (.done (.error e))
  | send (f p) : Step (.send f p) (.sent f) p
  | sendFail (f p) (e : ε) : Step (.send f p) (.sent f) (.done (.error e))
  | recv (next) (r : Received φ) : Step (.recv next) (.got r) (next r)
  | setKey (k p) : Step (.setKey k p) (.keyed k) p

/-- The dialogue can produce exactly these events and end with this result. -/
def Finishes (p : Dialogue φ κ ε α) (evs : List (Event φ κ)) (r : Except ε α) : Prop :=
  Run Step p evs (.done r)

variable {p : Dialogue φ κ ε α} {evs : List (Event φ κ)} {r : Except ε α}

@[simp] theorem finishes_done {r' : Except ε α} : Finishes (κ := κ) (.done r') evs r ↔ evs = [] ∧ r = r' := by
  constructor
  · rintro (_ | ⟨hstep, -⟩)
    · exact ⟨rfl, rfl⟩
    · cases hstep
  · rintro ⟨rfl, rfl⟩
    exact .nil _

theorem finishes_connect : Finishes (.connect p) evs r ↔ (∃ evs', evs = .connected :: evs' ∧ Finishes p evs' r) ∨
      (evs = [.refused] ∧ ∃ e, r = .error e) := by
  constructor
  · rintro (_ | ⟨hstep, hrun⟩)
    cases hstep with
    | connect => exact Or.inl ⟨_, rfl, hrun⟩
    | refuse _ e =>
      obtain ⟨rfl, rfl⟩ := finishes_done.mp hrun
      exact Or.inr ⟨rfl, e, rfl⟩
  · rintro (⟨evs', rfl, h⟩ | ⟨rfl, e, rfl⟩)
    · exact .cons (.connect _) h
    · exact .cons (.refuse _ e) (.nil _)

theorem finishes_send {f : φ} : Finishes (.send f p) evs r ↔
      ∃ evs', evs = .sent f :: evs' ∧ (Finishes p evs' r ∨ evs' = [] ∧ ∃ e, r = .error e) := by
  constructor
  · rintro (_ | ⟨hstep, hrun⟩)
    cases hstep with
    | send => exact ⟨_, rfl, Or.inl hrun⟩
    | sendFail _ _ e =>
      obtain ⟨rfl, rfl⟩ := finishes_done.mp hrun
      exact ⟨[], rfl, Or.inr ⟨rfl, e, rfl⟩⟩
  · rintro ⟨evs', rfl, h | ⟨rfl, e, rfl⟩⟩
    · exact .cons (.send f p) h
    · exact .cons (.sendFail f p e) (.nil _)

theorem finishes_recv {next : Received φ → Dialogue φ κ ε α} :
    Finishes (.recv next) evs r ↔ ∃ x evs', evs = .got x :: evs' ∧ Finishes (next x) evs' r := by
  constructor
  · rintro (_ | ⟨hstep, hrun⟩)
    cases hstep
    exact ⟨_, _, rfl, hrun⟩
  · rintro ⟨x, evs', rfl, h⟩
    exact .cons (.recv next x) h

theorem finishes_setKey {k : κ} :
    Finishes (.setKey k p) evs r ↔ ∃ evs', evs = .keyed k :: evs' ∧ Finishes p evs' r := by
  constructor
  · rintro (_ | ⟨hstep, hrun⟩)
    cases hstep
    exact ⟨_, rfl, hrun⟩
  · rintro ⟨evs', rfl, h⟩
    exact .cons (.setKey k p) h

/-- **Composition.** A complete run of `p.bind g` is a complete run of `p`, then of `g` on the
result of `p`. -/
theorem finishes_bind {g : α → Dialogue φ κ ε β} {r : Except ε β} (h : Finishes (p.bind g) evs r) :
    (∃ e, Finishes p evs (.error e) ∧ r = .error e) ∨
      ∃ a evs₁ evs₂, evs = evs₁ ++ evs₂ ∧ Finishes p evs₁ (.ok a) ∧ Finishes (g a) evs₂ r := by
  induction p generalizing evs with
  | done res =>
    cases res with
    | error e =>
      obtain ⟨rfl, rfl⟩ := finishes_done.mp h
      exact Or.inl ⟨e, .nil _, rfl⟩
    | ok a => exact Or.inr ⟨a, [], evs, rfl, .nil _, h⟩
  | connect p ih =>
    rcases finishes_connect.mp h with ⟨evs', rfl, hp⟩ | ⟨rfl, e, rfl⟩
    · rcases ih hp with ⟨e, hq, rfl⟩ | ⟨a, evs₁, evs₂, rfl, hq, hg⟩
      · exact Or.inl ⟨e, finishes_connect.mpr (Or.inl ⟨_, rfl, hq⟩), rfl⟩
      · exact Or.inr ⟨a, _, _, rfl, finishes_connect.mpr (Or.inl ⟨_, rfl, hq⟩), hg⟩
    · exact Or.inl ⟨e, finishes_connect.mpr (Or.inr ⟨rfl, e, rfl⟩), rfl⟩
  | send f p ih =>
    obtain ⟨evs', rfl, hp | ⟨rfl, e, rfl⟩⟩ := finishes_send.mp h
    · rcases ih hp with ⟨e, hq, rfl⟩ | ⟨a, evs₁, evs₂, rfl, hq, hg⟩
      · exact Or.inl ⟨e, finishes_send.mpr ⟨_, rfl, Or.inl hq⟩, rfl⟩
      · exact Or.inr ⟨a, _, _, rfl, finishes_send.mpr ⟨_, rfl, Or.inl hq⟩, hg⟩
    · exact Or.inl ⟨e, finishes_send.mpr ⟨[], rfl, Or.inr ⟨rfl, e, rfl⟩⟩, rfl⟩
  | recv next ih =>
    obtain ⟨x, evs', rfl, hp⟩ := finishes_recv.mp h
    rcases ih x hp with ⟨e, hq, rfl⟩ | ⟨a, evs₁, evs₂, rfl, hq, hg⟩
    · exact Or.inl ⟨e, finishes_recv.mpr ⟨x, _, rfl, hq⟩, rfl⟩
    · exact Or.inr ⟨a, _, _, rfl, finishes_recv.mpr ⟨x, _, rfl, hq⟩, hg⟩
  | setKey k p ih =>
    obtain ⟨evs', rfl, hp⟩ := finishes_setKey.mp h
    rcases ih hp with ⟨e, hq, rfl⟩ | ⟨a, evs₁, evs₂, rfl, hq, hg⟩
    · exact Or.inl ⟨e, finishes_setKey.mpr ⟨_, rfl, hq⟩, rfl⟩
    · exact Or.inr ⟨a, _, _, rfl, finishes_setKey.mpr ⟨_, rfl, hq⟩, hg⟩

/-- An error passed on with another text. -/
def mapError (g : ε → ε) : Dialogue φ κ ε α → Dialogue φ κ ε α
  | .done (.ok a) => .done (.ok a)
  | .done (.error e) => .done (.error (g e))
  | .connect p => .connect (p.mapError g)
  | .send f p => .send f (p.mapError g)
  | .recv next => .recv fun r => (next r).mapError g
  | .setKey k p => .setKey k (p.mapError g)

/-- Passing errors on changes neither the events nor a successful result. -/
theorem finishes_mapError {g : ε → ε} (h : Finishes (p.mapError g) evs r) :
    Finishes p evs r ∨ ∃ e e', r = .error e ∧ Finishes p evs (.error e') := by
  induction p generalizing evs with
  | done res =>
    cases res with
    | ok a => exact Or.inl h
    | error e =>
      obtain ⟨rfl, rfl⟩ := finishes_done.mp h
      exact Or.inr ⟨_, e, rfl, .nil _⟩
  | connect p ih =>
    rcases finishes_connect.mp h with ⟨evs', rfl, hp⟩ | ⟨rfl, e, rfl⟩
    · rcases ih hp with hq | ⟨e, e', rfl, hq⟩
      · exact Or.inl (finishes_connect.mpr (Or.inl ⟨_, rfl, hq⟩))
      · exact Or.inr ⟨e, e', rfl, finishes_connect.mpr (Or.inl ⟨_, rfl, hq⟩)⟩
    · exact Or.inl (finishes_connect.mpr (Or.inr ⟨rfl, e, rfl⟩))
  | send f p ih =>
    obtain ⟨evs', rfl, hp | ⟨rfl, e, rfl⟩⟩ := finishes_send.mp h
    · rcases ih hp with hq | ⟨e, e', rfl, hq⟩
      · exact Or.inl (finishes_send.mpr ⟨_, rfl, Or.inl hq⟩)
      · exact Or.inr ⟨e, e', rfl, finishes_send.mpr ⟨_, rfl, Or.inl hq⟩⟩
    · exact Or.inl (finishes_send.mpr ⟨[], rfl, Or.inr ⟨rfl, e, rfl⟩⟩)
  | recv next ih =>
    obtain ⟨x, evs', rfl, hp⟩ := finishes_recv.mp h
    rcases ih x hp with hq | ⟨e, e', rfl, hq⟩
    · exact Or.inl (finishes_recv.mpr ⟨x, _, rfl, hq⟩)
    · exact Or.inr ⟨e, e', rfl, finishes_recv.mpr ⟨x, _, rfl, hq⟩⟩
  | setKey k p ih =>
    obtain ⟨evs', rfl, hp⟩ := finishes_setKey.mp h
    rcases ih hp with hq | ⟨e, e', rfl, hq⟩
    · exact Or.inl (finishes_setKey.mpr ⟨_, rfl, hq⟩)
    · exact Or.inr ⟨e, e', rfl, finishes_setKey.mpr ⟨_, rfl, hq⟩⟩

/-! ## Invariants of a dialogue -/

/-- Every frame the dialogue sends is in `Ok` and every key it installs in `Key`, as long as every
frame it receives is in `Ok`. -/
def Keeps (Ok : φ → Prop) (Key : κ → Prop) : Dialogue φ κ ε α → Prop
  | .done _ => True
  | .connect p => p.Keeps Ok Key
  | .send f p => Ok f ∧ p.Keeps Ok Key
  | .recv next => ∀ r, (∀ f, r = .frame f → Ok f) → (next r).Keeps Ok Key
  | .setKey k p => Key k ∧ p.Keeps Ok Key

section

variable {Ok : φ → Prop} {Key : κ → Prop}

@[simp] theorem keeps_bail (e : ε) : (bail e : Dialogue φ κ ε α).Keeps Ok Key := trivial

@[simp] theorem keeps_send (f : φ) (p : Dialogue φ κ ε α) :
    (send f p).Keeps Ok Key ↔ Ok f ∧ p.Keeps Ok Key := Iff.rfl

@[simp] theorem keeps_recv (next : Received φ → Dialogue φ κ ε α) :
    (recv next).Keeps Ok Key ↔ ∀ r, (∀ f, r = .frame f → Ok f) → (next r).Keeps Ok Key := Iff.rfl

@[simp] theorem keeps_setKey (k : κ) (p : Dialogue φ κ ε α) :
    (setKey k p).Keeps Ok Key ↔ Key k ∧ p.Keeps Ok Key := Iff.rfl

end

/-- What `Keeps` says of one event. -/
def Kept (Ok : φ → Prop) (Key : κ → Prop) : Event φ κ → Prop
  | .sent f => Ok f
  | .keyed k => Key k
  | .refused | .connected | .got _ => True

/-- **The step rule of `Keeps`.** -/
theorem Keeps.step {Ok : φ → Prop} {Key : κ → Prop} {p' : Dialogue φ κ ε α} {ev : Event φ κ}
    (h : p.Keeps Ok Key) (hstep : Step p ev p') (hin : ∀ f, ev = .got (.frame f) → Ok f) :
    Kept Ok Key ev ∧ p'.Keeps Ok Key := by
  cases hstep with
  | connect => exact ⟨trivial, h⟩
  | refuse => exact ⟨trivial, trivial⟩
  | send => exact h
  | sendFail => exact ⟨h.1, trivial⟩
  | recv next r => exact ⟨trivial, h r fun f hf => hin f (by rw [hf])⟩
  | setKey => exact h

end Dialogue
