import RustDesk.Common.Run
import RustDesk.Net.AddrMangle

/-!
# Duplicate requests of the rendezvous server

References: `src/rendezvous_mediator.rs` (`handle_punch_hole`, `handle_intranet`, `handle_request_relay`, `LAST_MSG`,
`LAST_RELAY_MSG`).

Each handler runs as a task. It reads the slot of its kind of request in one lock section and overwrites it in a
second one, with a time taken in between, whether it goes on to act on the request or not. Times are nanoseconds.
-/

namespace RustDesk.Net

/-- A request, with its `socket_addr`. -/
inductive MediatorRequest
  | punchHole (socketAddr : List UInt8)
  | fetchLocalAddr (socketAddr : List UInt8)
  | requestRelay (socketAddr : List UInt8)
deriving DecidableEq

inductive LastSlot
  | lastMsg
  | lastRelayMsg
deriving DecidableEq

namespace MediatorRequest

def slot : MediatorRequest → LastSlot
  | .punchHole _ | .fetchLocalAddr _ => .lastMsg
  | .requestRelay _ => .lastRelayMsg

def addr : MediatorRequest → SocketAddr
  | .punchHole socketAddr | .fetchLocalAddr socketAddr | .requestRelay socketAddr => AddrMangle.decode socketAddr

/-- What makes requests duplicates of each other. -/
def key (request : MediatorRequest) : LastSlot × SocketAddr := (request.slot, request.addr)

end MediatorRequest

/-- An address and the time at which it was put into its slot. -/
structure LastMsg where
  addr : SocketAddr
  time : ℕ
deriving DecidableEq

def unspecifiedV4 : SocketAddr := ⟨.ofOctets 0 0 0 0, 0⟩

/-- A tenth of a second. -/
def duplicateWindow : ℕ := 100_000_000

/-- The test for a duplicate, `elapsed` being in whole milliseconds. -/
def LastMsg.skips (last : LastMsg) (addr : SocketAddr) (now : ℕ) : Bool :=
  last.addr = addr && decide ((now - last.time) / 1_000_000 < 100)

/-- How far a handler has got. -/
inductive Handling
  | arrived
  | loaded (last : LastMsg)
  | stamped (last : LastMsg) (stamp : ℕ)
  | stored (last : LastMsg) (stamp : ℕ)
  | decided (last : LastMsg) (stamp time : ℕ) (acted : Bool)
deriving DecidableEq

structure MediatorTask where
  request : MediatorRequest
  handling : Handling
deriving DecidableEq

structure Mediator where
  now : ℕ
  /-- `none` before the first access. -/
  last : LastSlot → Option LastMsg
  tasks : ℕ → Option MediatorTask

inductive MediatorStep
  | tick (time : ℕ)
  | arrive (k : ℕ) (request : MediatorRequest)
  | next (k : ℕ)
deriving DecidableEq

namespace Mediator

def start (now : ℕ) : Mediator := ⟨now, fun _ => none, fun _ => none⟩

def setTask (w : Mediator) (k : ℕ) (t : MediatorTask) : Mediator :=
  { w with tasks := Function.update w.tasks k (some t) }

def setLast (w : Mediator) (slot : LastSlot) (last : LastMsg) : Mediator :=
  { w with last := Function.update w.last slot (some last) }

theorem tasks_setTask {w : Mediator} {k i : ℕ} {t u : MediatorTask} :
    (w.setTask k t).tasks i = some u ↔ i = k ∧ u = t ∨ i ≠ k ∧ w.tasks i = some u := by
  unfold setTask
  by_cases hi : i = k
  · subst hi
    simp [eq_comm]
  · simp [hi]

/-- The next step of a handler. -/
def next (w : Mediator) (k : ℕ) (t : MediatorTask) : Option Mediator :=
  match t.handling with
  | .arrived =>
    let last := (w.last t.request.slot).getD ⟨unspecifiedV4, w.now⟩
    some ((w.setLast t.request.slot last).setTask k { t with handling := .loaded last })
  | .loaded last => some (w.setTask k { t with handling := .stamped last w.now })
  | .stamped last stamp =>
    some ((w.setLast t.request.slot ⟨t.request.addr, stamp⟩).setTask k { t with handling := .stored last stamp })
  | .stored last stamp =>
    some (w.setTask k { t with
      handling := .decided last stamp w.now (!last.skips t.request.addr w.now) })
  | .decided .. => none

def step (w : Mediator) : MediatorStep → Option Mediator
  | .tick time => if w.now ≤ time then some { w with now := time } else none
  | .arrive k request =>
    match w.tasks k with
    | none => some (w.setTask k ⟨request, .arrived⟩)
    | some _ => none
  | .next k => (w.tasks k).bind fun t => w.next k t

end Mediator

namespace Handling

/-- Between its two lock sections. -/
def underWay : Handling → Bool
  | .loaded _ | .stamped .. => true
  | .arrived | .stored .. | .decided .. => false

/-- The time that the handler has put into its slot. -/
def written : Handling → Option ℕ
  | .arrived | .loaded _ | .stamped .. => none
  | .stored _ stamp | .decided _ stamp _ _ => some stamp

/-- The same of a handler that has not dropped its request. -/
def counts : Handling → Option ℕ
  | .arrived | .loaded _ | .stamped .. => none
  | .stored _ stamp => some stamp
  | .decided _ stamp _ acted => if acted then some stamp else none

/-- It has read its slot and not decided yet. -/
def pending : Handling → Bool
  | .loaded _ | .stamped .. | .stored .. => true
  | .arrived | .decided .. => false

/-- What the handler has read. -/
def read : Handling → Option LastMsg
  | .arrived => none
  | .loaded last | .stamped last _ | .stored last _ | .decided last _ _ _ => some last

/-- The time that the handler will put into its slot, at the earliest. -/
def since (now : ℕ) : Handling → ℕ
  | .arrived | .loaded _ => now
  | .stamped _ stamp | .stored _ stamp | .decided _ stamp _ _ => stamp

theorem written_of_counts {handling : Handling} {stamp : ℕ} (h : handling.counts = some stamp) :
    handling.written = some stamp := by
  unfold counts at h
  unfold written
  grind

theorem written_of_underWay {handling : Handling} (h : handling.underWay = true) : handling.written = none := by
  unfold underWay at h
  unfold written
  grind

end Handling

namespace Mediator

/-- What is meant by acting on duplicates once, a request being handled from the time it puts into its slot to its
decision. -/
structure ActsOnce (w : Mediator) : Prop where
  /-- Two duplicates are not both acted on within the window. -/
  once : ∀ i j t u, i ≠ j → w.tasks i = some t → w.tasks j = some u → t.request.key = u.request.key →
    ∀ last stamp time last' stamp' time', t.handling = .decided last stamp time true →
      u.handling = .decided last' stamp' time' true →
        stamp + duplicateWindow ≤ time' ∨ stamp' + duplicateWindow ≤ time
  /-- A request is dropped only for one before it that is acted on, or not yet decided on. -/
  dropped : ∀ i t, w.tasks i = some t → ∀ last stamp time, t.handling = .decided last stamp time false →
    ∃ j u stamp', w.tasks j = some u ∧ u.request.key = t.request.key ∧ u.handling.counts = some stamp' ∧
      stamp' ≤ stamp ∧ time < stamp' + duplicateWindow

section Spacing

variable (w : Mediator) (k : ℕ) (t : MediatorTask)

/-- No duplicate is between its two lock sections. -/
def LoadsAlone : Prop :=
  ∀ j u, w.tasks j = some u → u.request.key = t.request.key → u.handling.underWay = false

/-- The slot holds the address of the request, or its last duplicate is out of the window. -/
def SlotKept : Prop :=
  ∀ last, w.last t.request.slot = some last → last.addr ≠ t.request.addr →
    ∀ j u stamp, w.tasks j = some u → u.request.key = t.request.key → u.handling.counts = some stamp →
      stamp + duplicateWindow ≤ w.now

/-- A request whose address is what the slot starts with is not the first of its kind. -/
def SlotUsed : Prop :=
  t.request.addr = unspecifiedV4 →
    ∃ j u, w.tasks j = some u ∧ u.request.slot = t.request.slot ∧ u.handling.written.isSome = true

/-- Within the window of a dropped duplicate, the request is within that of one before it that is not dropped. -/
def DropsCovered : Prop :=
  ∀ m u last stamp time, w.tasks m = some u → u.request.key = t.request.key →
    u.handling = .decided last stamp time false → w.now < stamp + duplicateWindow →
      ∃ j v stamp', j ≠ k ∧ w.tasks j = some v ∧ v.request.key = t.request.key ∧
        v.handling.counts = some stamp' ∧ stamp' ≤ stamp ∧ w.now < stamp' + duplicateWindow

end Spacing

/-- What keeps duplicates apart from each other and from the requests of other peers. -/
def Spaced (w : Mediator) : MediatorStep → Prop
  | .next k => ∀ t, w.tasks k = some t →
    (t.handling = .arrived → w.LoadsAlone t ∧ w.SlotKept t ∧ w.SlotUsed t) ∧
      (∀ last stamp, t.handling = .stored last stamp → w.DropsCovered k t)
  | _ => True

/-- What has been read covers another request: by being no older, or since that one is out of the window. -/
def Covers (addr : SocketAddr) (last : LastMsg) (since stamp : ℕ) : Prop :=
  last.addr = addr ∧ stamp ≤ last.time ∨ stamp + duplicateWindow ≤ since

/-- The times of a handler are in order. -/
def Timely (now : ℕ) (addr : SocketAddr) : Handling → Prop
  | .arrived => True
  | .loaded last => last.time ≤ now
  | .stamped last stamp | .stored last stamp => last.time ≤ stamp ∧ stamp ≤ now
  | .decided last stamp time acted =>
    last.time ≤ stamp ∧ stamp ≤ time ∧ time ≤ now ∧ acted = !last.skips addr time

structure Inv (w : Mediator) : Prop where
  timely : ∀ i t, w.tasks i = some t → Timely w.now t.request.addr t.handling
  slot_time : ∀ slot last, w.last slot = some last → last.time ≤ w.now
  slot_none : ∀ slot, w.last slot = none → ∀ i t, w.tasks i = some t → t.request.slot = slot → t.handling = .arrived
  slot_some : ∀ slot last, w.last slot = some last →
    (∃ m u, w.tasks m = some u ∧ u.request.key = (slot, last.addr) ∧ u.handling.written = some last.time) ∨
      last.addr = unspecifiedV4 ∧ ∀ i t, w.tasks i = some t → t.request.slot = slot → t.handling.written = none
  slot_latest : ∀ slot last, w.last slot = some last → ∀ i t stamp, w.tasks i = some t →
    t.request.key = (slot, last.addr) → t.handling.written = some stamp → stamp ≤ last.time
  alone : ∀ i j t u, i ≠ j → w.tasks i = some t → w.tasks j = some u → t.request.key = u.request.key →
    t.handling.underWay = true → u.handling.underWay = false
  later : ∀ i j t u stamp, w.tasks i = some t → w.tasks j = some u → t.request.key = u.request.key →
    t.handling.underWay = true → u.handling.written = some stamp → stamp ≤ t.handling.since w.now
  source : ∀ i t last, w.tasks i = some t → t.handling.pending = true → t.handling.read = some last →
    last.addr = t.request.addr →
      ∃ m u, m ≠ i ∧ w.tasks m = some u ∧ u.request.key = t.request.key ∧ u.handling.written = some last.time
  covers : ∀ i j t u last stamp, w.tasks i = some t → w.tasks j = some u → t.request.key = u.request.key →
    t.handling.underWay = true → t.handling.read = some last → u.handling.counts = some stamp →
      Covers t.request.addr last (t.handling.since w.now) stamp
  ordered : ∀ i j t u last last' stamp stamp', i ≠ j → w.tasks i = some t → w.tasks j = some u →
    t.request.key = u.request.key → t.handling.read = some last → u.handling.read = some last' →
      t.handling.counts = some stamp → u.handling.counts = some stamp' →
        Covers t.request.addr last stamp stamp' ∨ Covers t.request.addr last' stamp' stamp
  dropped : ∀ i t, w.tasks i = some t → ∀ last stamp time, t.handling = .decided last stamp time false →
    ∃ j u stamp', w.tasks j = some u ∧ u.request.key = t.request.key ∧ u.handling.counts = some stamp' ∧
      stamp' ≤ stamp ∧ time < stamp' + duplicateWindow

theorem start_inv (now : ℕ) : (start now).Inv := by constructor <;> grind [start]

variable {now : ℕ}

theorem Timely.later {later : ℕ} {addr : SocketAddr} {handling : Handling} (h : Timely now addr handling)
    (hlater : now ≤ later) : Timely later addr handling := by
  cases handling with
  | arrived => trivial
  | loaded last => exact h.trans hlater
  | stamped | stored => exact ⟨h.1, h.2.trans hlater⟩
  | decided last stamp time acted => exact ⟨h.1, h.2.1, h.2.2.1.trans hlater, h.2.2.2⟩

theorem written_le {stamp : ℕ} {addr : SocketAddr} {handling : Handling} (h : Timely now addr handling)
    (hwritten : handling.written = some stamp) : stamp ≤ now := by
  cases handling with
  | stored last stamp' =>
    cases hwritten
    exact h.2
  | decided last stamp' time acted =>
    cases hwritten
    exact h.2.1.trans h.2.2.1
  | _ => cases hwritten

theorem since_mono {later : ℕ} (hlater : now ≤ later) (handling : Handling) :
    handling.since now ≤ handling.since later := by
  cases handling with
  | arrived => exact hlater
  | loaded last => exact hlater
  | _ => exact le_refl _

theorem Covers.later {addr : SocketAddr} {last : LastMsg} {since later stamp : ℕ} (h : Covers addr last since stamp)
    (hlater : since ≤ later) : Covers addr last later stamp :=
  h.imp_right fun hout => hout.trans hlater

theorem Inv.tick {w : Mediator} (h : w.Inv) {time : ℕ} (htime : w.now ≤ time) : Inv { w with now := time } :=
  { h with
    timely := fun i t hi => (h.timely i t hi).later htime
    slot_time := fun slot last hlast => (h.slot_time slot last hlast).trans htime
    later := fun i j t u stamp hi hj hkey hway hwritten =>
      (h.later i j t u stamp hi hj hkey hway hwritten).trans (since_mono htime _)
    covers := fun i j t u last stamp hi hj hkey hway hread hcounts =>
      (h.covers i j t u last stamp hi hj hkey hway hread hcounts).later (since_mono htime _) }

/-- What the tasks know of what a slot holds. -/
structure Holds (w : Mediator) (slot : LastSlot) (last : LastMsg) : Prop where
  time : last.time ≤ w.now
  written : (∃ m u, w.tasks m = some u ∧ u.request.key = (slot, last.addr) ∧ u.handling.written = some last.time) ∨
    last.addr = unspecifiedV4 ∧ ∀ i t, w.tasks i = some t → t.request.slot = slot → t.handling.written = none
  latest : ∀ i t stamp, w.tasks i = some t → t.request.key = (slot, last.addr) → t.handling.written = some stamp →
    stamp ≤ last.time

section Replace

variable {w : Mediator} {k : ℕ} {t' : MediatorTask} {last' : LastSlot → Option LastMsg}

theorem Inv.holds (h : w.Inv) {slot : LastSlot} {last : LastMsg} (hlast : w.last slot = some last) :
    w.Holds slot last :=
  ⟨h.slot_time slot last hlast, h.slot_some slot last hlast, h.slot_latest slot last hlast⟩

/-- A task that has written is not the one that is replaced. -/
theorem tasks_of_written (hold : ∀ u, w.tasks k = some u → u.handling.written = none) {i stamp : ℕ}
    {u : MediatorTask} (hi : w.tasks i = some u) (hwritten : u.handling.written = some stamp) :
    (setTask { w with last := last' } k t').tasks i = some u := by
  refine tasks_setTask.mpr (.inr ⟨?_, hi⟩)
  rintro rfl
  rw [hold u hi] at hwritten
  cases hwritten

theorem Holds.setTask {slot : LastSlot} {last : LastMsg} (h : w.Holds slot last)
    (hold : ∀ u, w.tasks k = some u → u.handling.written = none)
    (hnone : t'.request.slot = slot → t'.handling.written = none) :
    (setTask { w with last := last' } k t').Holds slot last := by
  refine ⟨h.time, ?_, fun i u stamp hi hkey hwritten => ?_⟩
  · rcases h.written with ⟨m, u, hm, hkey, hwritten⟩ | ⟨haddr, hothers⟩
    · exact .inl ⟨m, u, tasks_of_written hold hm hwritten, hkey, hwritten⟩
    · refine .inr ⟨haddr, fun i u hi hslot => ?_⟩
      rcases tasks_setTask.mp hi with ⟨-, rfl⟩ | ⟨-, hi⟩
      · exact hnone hslot
      · exact hothers i u hi hslot
  · rcases tasks_setTask.mp hi with ⟨-, rfl⟩ | ⟨-, hi⟩
    · rw [hnone (congrArg Prod.fst hkey)] at hwritten
      cases hwritten
    · exact h.latest i u stamp hi hkey hwritten

/-- A task in the place of one that has written nothing, and what the slot of its request holds then. -/
theorem Inv.replace (h : w.Inv) (hold : ∀ u, w.tasks k = some u → u.handling.written = none)
    (hother : ∀ slot ≠ t'.request.slot, last' slot = w.last slot)
    (hfirst : last' t'.request.slot = none → w.last t'.request.slot = none ∧ t'.handling = .arrived)
    (hnew : ∀ last, last' t'.request.slot = some last →
      (setTask { w with last := last' } k t').Holds t'.request.slot last)
    (htimely : Timely w.now t'.request.addr t'.handling)
    (hway : t'.handling.underWay = true → ∀ j u, j ≠ k → w.tasks j = some u → t'.request.key = u.request.key →
      u.handling.underWay = false ∧ ∀ stamp, u.handling.written = some stamp → stamp ≤ t'.handling.since w.now ∧
        ∀ last, t'.handling.read = some last → u.handling.counts = some stamp →
          Covers t'.request.addr last (t'.handling.since w.now) stamp)
    (hwritten : ∀ stamp, t'.handling.written = some stamp → ∀ j u, j ≠ k → w.tasks j = some u →
      t'.request.key = u.request.key → u.handling.underWay = false ∧
        ∀ last, t'.handling.read = some last → ∀ last' stamp', u.handling.counts = some stamp' →
          Covers t'.request.addr last stamp stamp' ∨ Covers t'.request.addr last' stamp' stamp)
    (hsource : ∀ last, t'.handling.pending = true → t'.handling.read = some last → last.addr = t'.request.addr →
      ∃ m u, w.tasks m = some u ∧ u.request.key = t'.request.key ∧ u.handling.written = some last.time)
    (hdecided : ∀ last stamp time, t'.handling ≠ .decided last stamp time false) :
    (setTask { w with last := last' } k t').Inv := by
  have hholds : ∀ slot last, last' slot = some last → (setTask { w with last := last' } k t').Holds slot last := by
    intro slot last hlast
    by_cases hslot : slot = t'.request.slot
    · subst hslot
      exact hnew last hlast
    · rw [hother slot hslot] at hlast
      exact (h.holds hlast).setTask hold fun heq => absurd heq.symm hslot
  exact {
    timely := by
      intro i u hi
      rcases tasks_setTask.mp hi with ⟨-, rfl⟩ | ⟨-, hi⟩
      · exact htimely
      · exact h.timely i u hi
    slot_time := fun slot last hlast => (hholds slot last hlast).time
    slot_some := fun slot last hlast => (hholds slot last hlast).written
    slot_latest := fun slot last hlast => (hholds slot last hlast).latest
    slot_none := by
      intro slot hnone i u hi hslot
      by_cases hnewSlot : slot = t'.request.slot
      · subst hnewSlot
        obtain ⟨hnone, harrived⟩ := hfirst hnone
        rcases tasks_setTask.mp hi with ⟨-, rfl⟩ | ⟨-, hi⟩
        · exact harrived
        · exact h.slot_none _ hnone i u hi hslot
      · rcases tasks_setTask.mp hi with ⟨-, rfl⟩ | ⟨-, hi⟩
        · exact absurd hslot.symm hnewSlot
        · exact h.slot_none slot ((hother slot hnewSlot).symm.trans hnone) i u hi hslot
    alone := by
      intro i j u v hij hi hj hkey hu
      rcases tasks_setTask.mp hi with ⟨rfl, rfl⟩ | ⟨hik, hi'⟩
      · rcases tasks_setTask.mp hj with ⟨rfl, -⟩ | ⟨hjk, hj⟩
        · exact absurd rfl hij
        · exact (hway hu j v hjk hj hkey).1
      · rcases tasks_setTask.mp hj with ⟨rfl, rfl⟩ | ⟨-, hj⟩
        · by_contra hv
          rw [Bool.not_eq_false] at hv
          rw [(hway hv i u hik hi' hkey.symm).1] at hu
          cases hu
        · exact h.alone i j u v hij hi' hj hkey hu
    later := by
      intro i j u v stamp hi hj hkey hu hv
      rcases tasks_setTask.mp hi with ⟨rfl, rfl⟩ | ⟨hik, hi'⟩
      · rcases tasks_setTask.mp hj with ⟨-, rfl⟩ | ⟨hjk, hj⟩
        · rw [Handling.written_of_underWay hu] at hv
          cases hv
        · exact ((hway hu j v hjk hj hkey).2 stamp hv).1
      · rcases tasks_setTask.mp hj with ⟨rfl, rfl⟩ | ⟨-, hj⟩
        · rw [(hwritten stamp hv i u hik hi' hkey.symm).1] at hu
          cases hu
        · exact h.later i j u v stamp hi' hj hkey hu hv
    source := by
      intro i u last hi hpending hread haddr
      rcases tasks_setTask.mp hi with ⟨rfl, rfl⟩ | ⟨-, hi⟩
      · obtain ⟨m, v, hm, hkey, hv⟩ := hsource last hpending hread haddr
        refine ⟨m, v, ?_, tasks_of_written hold hm hv, hkey, hv⟩
        rintro rfl
        rw [hold v hm] at hv
        cases hv
      · obtain ⟨m, v, hmi, hm, hkey, hv⟩ := h.source i u last hi hpending hread haddr
        exact ⟨m, v, hmi, tasks_of_written hold hm hv, hkey, hv⟩
    covers := by
      intro i j u v last stamp hi hj hkey hu hread hcounts
      have hv := Handling.written_of_counts hcounts
      rcases tasks_setTask.mp hi with ⟨rfl, rfl⟩ | ⟨hik, hi'⟩
      · rcases tasks_setTask.mp hj with ⟨-, rfl⟩ | ⟨hjk, hj⟩
        · rw [Handling.written_of_underWay hu] at hv
          cases hv
        · exact ((hway hu j v hjk hj hkey).2 stamp hv).2 last hread hcounts
      · rcases tasks_setTask.mp hj with ⟨rfl, rfl⟩ | ⟨-, hj⟩
        · rw [(hwritten stamp hv i u hik hi' hkey.symm).1] at hu
          cases hu
        · exact h.covers i j u v last stamp hi' hj hkey hu hread hcounts
    ordered := by
      intro i j u v last₁ last₂ stamp₁ stamp₂ hij hi hj hkey hread₁ hread₂ hcounts₁ hcounts₂
      have haddr : u.request.addr = v.request.addr := congrArg Prod.snd hkey
      rcases tasks_setTask.mp hi with ⟨rfl, rfl⟩ | ⟨hik, hi'⟩
      · rcases tasks_setTask.mp hj with ⟨rfl, -⟩ | ⟨hjk, hj⟩
        · exact absurd rfl hij
        · have hu := Handling.written_of_counts hcounts₁
          exact (hwritten stamp₁ hu j v hjk hj hkey).2 last₁ hread₁ last₂ stamp₂ hcounts₂
      · rcases tasks_setTask.mp hj with ⟨rfl, rfl⟩ | ⟨-, hj⟩
        · have hv := Handling.written_of_counts hcounts₂
          rw [haddr]
          exact ((hwritten stamp₂ hv i u hik hi' hkey.symm).2 last₂ hread₂ last₁ stamp₁ hcounts₁).symm
        · exact h.ordered i j u v last₁ last₂ stamp₁ stamp₂ hij hi' hj hkey hread₁ hread₂ hcounts₁ hcounts₂
    dropped := by
      intro i u hi last stamp time hdropped
      rcases tasks_setTask.mp hi with ⟨-, rfl⟩ | ⟨-, hi⟩
      · exact absurd hdropped (hdecided last stamp time)
      · obtain ⟨j, v, stamp', hj, hkey, hcounts, hle⟩ := h.dropped i u hi last stamp time hdropped
        exact ⟨j, v, stamp', tasks_of_written hold hj (Handling.written_of_counts hcounts), hkey, hcounts, hle⟩ }

/-- A request that has only arrived says nothing yet. -/
theorem Inv.arrive (h : w.Inv) {request : MediatorRequest} (hk : w.tasks k = none) :
    (w.setTask k ⟨request, .arrived⟩).Inv := by
  have hold : ∀ u, w.tasks k = some u → u.handling.written = none := by
    intro u hu
    rw [hk] at hu
    cases hu
  exact h.replace hold (fun _ _ => rfl) (fun hnone => ⟨hnone, rfl⟩)
    (fun last hlast => (h.holds hlast).setTask hold fun _ => rfl) trivial nofun nofun nofun nofun

end Replace

/-- A task after a step that neither reads nor writes a slot. -/
structure Keeps (now : ℕ) (t t' : MediatorTask) : Prop where
  request : t'.request = t.request
  underWay : t'.handling.underWay = t.handling.underWay
  pending : t'.handling.pending = true → t.handling.pending = true
  written : t'.handling.written = t.handling.written
  read : t'.handling.read = t.handling.read
  since : t'.handling.since now = t.handling.since now
  counts : ∀ stamp, t'.handling.counts = some stamp → t.handling.counts = some stamp

theorem Keeps.refl (now : ℕ) (t : MediatorTask) : Keeps now t t := ⟨rfl, rfl, id, rfl, rfl, rfl, fun _ => id⟩

section Next

variable {w : Mediator} {k : ℕ} {t t' : MediatorTask} {last : LastMsg}

section

variable (h : w.Inv) (hk : w.tasks k = some t)
include h hk

theorem Inv.keep (hkeeps : Keeps w.now t t')
    (htimely : Timely w.now t'.request.addr t'.handling) (harrived : t.handling ≠ .arrived)
    (hdropped : ∀ i u, (w.setTask k t').tasks i = some u → ∀ last stamp time,
      u.handling = .decided last stamp time false →
        ∃ j v stamp', (w.setTask k t').tasks j = some v ∧ v.request.key = u.request.key ∧
          v.handling.counts = some stamp' ∧ stamp' ≤ stamp ∧ time < stamp' + duplicateWindow) :
    (w.setTask k t').Inv := by
  have hback : ∀ {i u'}, (w.setTask k t').tasks i = some u' → ∃ u, w.tasks i = some u ∧ Keeps w.now u u' := by
    intro i u' hi
    rcases tasks_setTask.mp hi with ⟨rfl, rfl⟩ | ⟨-, hi⟩
    · exact ⟨t, hk, hkeeps⟩
    · exact ⟨u', hi, .refl _ _⟩
  have hforth : ∀ {i u}, w.tasks i = some u → ∃ u', (w.setTask k t').tasks i = some u' ∧ Keeps w.now u u' := by
    intro i u hi
    by_cases hik : i = k
    · subst hik
      cases hk.symm.trans hi
      exact ⟨t', tasks_setTask.mpr (.inl ⟨rfl, rfl⟩), hkeeps⟩
    · exact ⟨u, tasks_setTask.mpr (.inr ⟨hik, hi⟩), .refl _ _⟩
  have hkey : ∀ {u u'}, Keeps w.now u u' → u'.request.key = u.request.key := fun hu => by rw [hu.request]
  exact {
    timely := by
      intro i u hi
      rcases tasks_setTask.mp hi with ⟨rfl, rfl⟩ | ⟨-, hi⟩
      · exact htimely
      · exact h.timely i u hi
    slot_time := h.slot_time
    slot_none := by
      intro slot hnone i u' hi hslot
      rcases tasks_setTask.mp hi with ⟨rfl, rfl⟩ | ⟨-, hi⟩
      · exact absurd (h.slot_none slot hnone i t hk (hkeeps.request ▸ hslot)) harrived
      · exact h.slot_none slot hnone i u' hi hslot
    slot_some := by
      intro slot last hlast
      rcases h.slot_some slot last hlast with ⟨m, u, hm, hkey', hwritten⟩ | ⟨haddr, hnone⟩
      · obtain ⟨u', hm', hu⟩ := hforth hm
        exact .inl ⟨m, u', hm', (hkey hu).trans hkey', hu.written.trans hwritten⟩
      · refine .inr ⟨haddr, fun i u' hi hslot => ?_⟩
        obtain ⟨u, hi, hu⟩ := hback hi
        rw [hu.written]
        exact hnone i u hi (hu.request ▸ hslot)
    slot_latest := by
      intro slot last hlast i u' stamp hi hkey' hwritten
      obtain ⟨u, hi, hu⟩ := hback hi
      exact h.slot_latest slot last hlast i u stamp hi ((hkey hu).symm.trans hkey') (hu.written ▸ hwritten)
    alone := by
      intro i j u' v' hij hi hj hkey' hway
      obtain ⟨u, hi, hu⟩ := hback hi
      obtain ⟨v, hj, hv⟩ := hback hj
      rw [hkey hu, hkey hv] at hkey'
      rw [hv.underWay]
      exact h.alone i j u v hij hi hj hkey' (hu.underWay ▸ hway)
    later := by
      intro i j u' v' stamp hi hj hkey' hway hwritten
      obtain ⟨u, hi, hu⟩ := hback hi
      obtain ⟨v, hj, hv⟩ := hback hj
      rw [hkey hu, hkey hv] at hkey'
      show stamp ≤ u'.handling.since w.now
      rw [hu.since]
      exact h.later i j u v stamp hi hj hkey' (hu.underWay ▸ hway) (hv.written ▸ hwritten)
    source := by
      intro i u' last hi hpending hread haddr
      obtain ⟨u, hi, hu⟩ := hback hi
      obtain ⟨m, v, hmi, hm, hkey', hwritten⟩ :=
        h.source i u last hi (hu.pending hpending) (hu.read ▸ hread) (hu.request ▸ haddr)
      obtain ⟨v', hm', hv⟩ := hforth hm
      exact ⟨m, v', hmi, hm', (hkey hv).trans (hkey'.trans (hkey hu).symm), hv.written.trans hwritten⟩
    covers := by
      intro i j u' v' last stamp hi hj hkey' hway hread hcounts
      obtain ⟨u, hi, hu⟩ := hback hi
      obtain ⟨v, hj, hv⟩ := hback hj
      rw [hkey hu, hkey hv] at hkey'
      show Covers _ last (u'.handling.since w.now) stamp
      rw [hu.since, hu.request]
      exact h.covers i j u v last stamp hi hj hkey' (hu.underWay ▸ hway) (hu.read ▸ hread) (hv.counts _ hcounts)
    ordered := by
      intro i j u' v' last last' stamp stamp' hij hi hj hkey' hread hread' hcounts hcounts'
      obtain ⟨u, hi, hu⟩ := hback hi
      obtain ⟨v, hj, hv⟩ := hback hj
      rw [hkey hu, hkey hv] at hkey'
      rw [hu.request]
      exact h.ordered i j u v last last' stamp stamp' hij hi hj hkey' (hu.read ▸ hread) (hv.read ▸ hread')
        (hu.counts _ hcounts) (hv.counts _ hcounts')
    dropped := hdropped }

/-- The first lock section. -/
theorem Inv.load (hhandling : t.handling = .arrived) (halone : w.LoadsAlone t)
    (hkept : w.SlotKept t) (hused : w.SlotUsed t)
    (hlast : last = (w.last t.request.slot).getD ⟨unspecifiedV4, w.now⟩) :
    ((w.setLast t.request.slot last).setTask k { t with handling := .loaded last }).Inv := by
  -- what was in the slot, or the first access
  have hslot : w.last t.request.slot = some last ∨
      w.last t.request.slot = none ∧ last = ⟨unspecifiedV4, w.now⟩ := by
    cases hold : w.last t.request.slot with
    | none => exact .inr ⟨rfl, by rw [hlast, hold]; rfl⟩
    | some old => exact .inl (by rw [hlast, hold]; rfl)
  have hnotWritten : w.last t.request.slot = none → ∀ i u, w.tasks i = some u → u.request.slot = t.request.slot →
      u.handling.written = none := by
    intro hnone i u hi hslot
    rw [h.slot_none _ hnone i u hi hslot]
    rfl
  have hold : ∀ u, w.tasks k = some u → u.handling.written = none := by
    intro u hu
    cases hk.symm.trans hu
    rw [hhandling]
    rfl
  have hholds : w.Holds t.request.slot last := by
    rcases hslot with hsome | ⟨hnone, rfl⟩
    · exact h.holds hsome
    · refine ⟨le_refl _, .inr ⟨rfl, hnotWritten hnone⟩, fun i u stamp hi hkey hwritten => ?_⟩
      rw [hnotWritten hnone i u hi (congrArg Prod.fst hkey)] at hwritten
      cases hwritten
  have hset : Function.update w.last t.request.slot (some last) t.request.slot = some last := Function.update_self ..
  refine h.replace hold (fun slot hne => Function.update_of_ne hne ..) (fun hnone => ?_) (fun last' hlast' => ?_)
    hholds.time ?_ nofun ?_ nofun
  · cases hset.symm.trans hnone
  · cases hset.symm.trans hlast'
    exact hholds.setTask hold fun _ => rfl
  · rintro - j v - hj hkey
    refine ⟨halone j v hj hkey.symm, fun stamp hwritten => ⟨written_le (h.timely j v hj) hwritten, ?_⟩⟩
    rintro last' hread hcounts
    obtain rfl : last = last' := Option.some.inj hread
    rcases hslot with hsome | ⟨hnone, -⟩
    · by_cases haddr : last.addr = t.request.addr
      · exact .inl ⟨haddr, hholds.latest j v stamp hj (hkey.symm.trans (by rw [haddr]; rfl)) hwritten⟩
      · exact .inr (hkept last hsome haddr j v stamp hj hkey.symm hcounts)
    · rw [hnotWritten hnone j v hj (congrArg Prod.fst hkey).symm] at hwritten
      cases hwritten
  · -- what was read is that of a duplicate, the slot being used
    rintro last' - hread haddr
    obtain rfl : last = last' := Option.some.inj hread
    rcases hholds.written with ⟨m, v, hm, hkey, hwritten⟩ | ⟨hunspecified, hnone⟩
    · exact ⟨m, v, hm, hkey.trans (by rw [haddr]; rfl), hwritten⟩
    · obtain ⟨j, v, hj, hslot', hwritten⟩ := hused (haddr.symm.trans hunspecified)
      rw [hnone j v hj hslot'] at hwritten
      cases hwritten

/-- The second lock section. -/
theorem Inv.store {stamp : ℕ} (hhandling : t.handling = .stamped last stamp) :
    ((w.setLast t.request.slot ⟨t.request.addr, stamp⟩).setTask k { t with handling := .stored last stamp }).Inv := by
  have hway : t.handling.underWay = true := by rw [hhandling]; rfl
  have hread : t.handling.read = some last := by rw [hhandling]; rfl
  have hsince : t.handling.since w.now = stamp := by rw [hhandling]; rfl
  have htimely : last.time ≤ stamp ∧ stamp ≤ w.now := by
    have htimely := h.timely k t hk
    rwa [hhandling] at htimely
  have hold : ∀ u, w.tasks k = some u → u.handling.written = none := by
    intro u hu
    cases hk.symm.trans hu
    rw [hhandling]
    rfl
  have hset : Function.update w.last t.request.slot (some ⟨t.request.addr, stamp⟩) t.request.slot =
    some ⟨t.request.addr, stamp⟩ := Function.update_self ..
  refine h.replace hold (fun slot hne => Function.update_of_ne hne ..) (fun hnone => ?_) (fun last' hlast' => ?_)
    htimely nofun ?_ ?_ nofun
  · cases hset.symm.trans hnone
  · cases hset.symm.trans hlast'
    refine ⟨htimely.2, .inl ⟨k, _, tasks_setTask.mpr (.inl ⟨rfl, rfl⟩), rfl, rfl⟩, fun i u stamp' hi hkey hu => ?_⟩
    rcases tasks_setTask.mp hi with ⟨-, rfl⟩ | ⟨-, hi⟩
    · cases hu
      exact le_refl _
    · have hlater := h.later k i t u stamp' hk hi hkey.symm hway hu
      rwa [hsince] at hlater
  · rintro stamp' hwritten j v hjk hj hkey
    obtain rfl : stamp = stamp' := Option.some.inj hwritten
    -- no duplicate is under way next to this one
    refine ⟨h.alone k j t v (Ne.symm hjk) hk hj hkey hway, fun last₁ hread₁ last₂ stamp₂ hcounts => ?_⟩
    cases hread₁
    rw [← hsince]
    exact .inl (h.covers k j t v last stamp₂ hk hj hkey hway hread hcounts)
  · rintro last' - hread' haddr
    obtain rfl : last = last' := Option.some.inj hread'
    obtain ⟨m, v, -, hm, hkey, hwritten⟩ := h.source k t last hk (by rw [hhandling]; rfl) hread haddr
    exact ⟨m, v, hm, hkey, hwritten⟩

/-- The time taken in between. -/
theorem Inv.stamp (hhandling : t.handling = .loaded last) :
    (w.setTask k { t with handling := .stamped last w.now }).Inv := by
  have hkeeps : Keeps w.now t { t with handling := .stamped last w.now } :=
    ⟨rfl, by rw [hhandling]; rfl, fun _ => by rw [hhandling]; rfl, by rw [hhandling]; rfl, by rw [hhandling]; rfl,
      by rw [hhandling]; rfl, nofun⟩
  have htimely := h.timely k t hk
  rw [hhandling] at htimely
  refine h.keep hk hkeeps ⟨htimely, le_refl _⟩ (by rw [hhandling]; exact nofun) ?_
  intro i u hi last' stamp time hdecided
  rcases tasks_setTask.mp hi with ⟨-, rfl⟩ | ⟨-, hi⟩
  · cases hdecided
  · obtain ⟨j, v, stamp', hj, hkey, hcounts, hle⟩ := h.dropped i u hi last' stamp time hdecided
    refine ⟨j, v, stamp', tasks_setTask.mpr (.inr ⟨?_, hj⟩), hkey, hcounts, hle⟩
    rintro rfl
    cases hk.symm.trans hj
    rw [hhandling] at hcounts
    cases hcounts

end

/-- `elapsed` in whole milliseconds. -/
theorem skips_iff {addr : SocketAddr} {now : ℕ} :
    last.skips addr now = true ↔ last.addr = addr ∧ now < last.time + duplicateWindow := by
  unfold LastMsg.skips duplicateWindow
  rw [Bool.and_eq_true, decide_eq_true_eq, decide_eq_true_eq]
  refine and_congr_right fun _ => ?_
  omega

theorem counts_or_dropped {handling : Handling} {stamp : ℕ} (h : handling.written = some stamp) :
    handling.counts = some stamp ∨ ∃ last time, handling = .decided last stamp time false := by
  cases handling with
  | stored last stamp' => exact .inl h
  | decided last stamp' time acted =>
    cases h
    cases acted with
    | true => exact .inl rfl
    | false => exact .inr ⟨last, time, rfl⟩
  | _ => cases h

/-- The decision. -/
theorem Inv.settle (h : w.Inv) (hk : w.tasks k = some t) {stamp : ℕ}
    (hhandling : t.handling = .stored last stamp) (hcovered : w.DropsCovered k t) :
    (w.setTask k { t with handling := .decided last stamp w.now (!last.skips t.request.addr w.now) }).Inv := by
  have htimely : last.time ≤ stamp ∧ stamp ≤ w.now := by
    have htimely := h.timely k t hk
    rwa [hhandling] at htimely
  have hkeeps : Keeps w.now t
      { t with handling := .decided last stamp w.now (!last.skips t.request.addr w.now) } := by
    refine ⟨rfl, by rw [hhandling]; rfl, nofun, by rw [hhandling]; rfl, by rw [hhandling]; rfl, by rw [hhandling]; rfl,
      fun stamp' hcounts => ?_⟩
    rw [hhandling]
    exact Handling.written_of_counts hcounts
  -- what a dropped request is a duplicate of
  have hfound : last.skips t.request.addr w.now = true → ∃ j v stamp', j ≠ k ∧ w.tasks j = some v ∧
      v.request.key = t.request.key ∧ v.handling.counts = some stamp' ∧ stamp' ≤ stamp ∧
        w.now < stamp' + duplicateWindow := by
    intro hskips
    obtain ⟨haddr, hrecent⟩ := skips_iff.mp hskips
    obtain ⟨m, v, hmk, hm, hkey, hwritten⟩ :=
      h.source k t last hk (by rw [hhandling]; rfl) (by rw [hhandling]; rfl) haddr
    rcases counts_or_dropped hwritten with hcounts | ⟨last', time, hdropped⟩
    · exact ⟨m, v, last.time, hmk, hm, hkey, hcounts, htimely.1, hrecent⟩
    · obtain ⟨j, u, stamp', hjk, hj, hkey', hcounts, hle, hrecent'⟩ :=
        hcovered m v last' last.time time hm hkey hdropped hrecent
      exact ⟨j, u, stamp', hjk, hj, hkey', hcounts, hle.trans htimely.1, hrecent'⟩
  refine h.keep hk hkeeps ⟨htimely.1, htimely.2, le_refl _, rfl⟩ (by rw [hhandling]; exact nofun) ?_
  intro i u hi last' stamp' time hdecided
  rcases tasks_setTask.mp hi with ⟨rfl, rfl⟩ | ⟨-, hold⟩
  · injection hdecided with hlast hstamp htime hacted
    rw [Bool.not_eq_false'] at hacted
    subst hstamp htime
    obtain ⟨j, v, stamp', hjk, hj, hkey, hcounts, hle, hrecent⟩ := hfound hacted
    exact ⟨j, v, stamp', tasks_setTask.mpr (.inr ⟨hjk, hj⟩), hkey, hcounts, hle, hrecent⟩
  · obtain ⟨j, v, stamp'', hj, hkey, hcounts, hle, hrecent⟩ := h.dropped i u hold last' stamp' time hdecided
    by_cases hjk : j = k
    · subst hjk
      cases hk.symm.trans hj
      rw [hhandling] at hcounts
      obtain rfl : stamp = stamp'' := Option.some.inj hcounts
      cases hskips : last.skips t.request.addr w.now with
      | false => exact ⟨j, _, stamp, tasks_setTask.mpr (.inl ⟨rfl, rfl⟩), hkey, rfl, hle, hrecent⟩
      | true =>
        -- it is dropped for an earlier one, which stands in for it
        obtain ⟨m, v, stamp'', hmj, hm, hkey', hcounts', hle', hrecent'⟩ := hfound hskips
        have htime : time ≤ w.now := by
          have htimely' := h.timely i u hold
          rw [hdecided] at htimely'
          exact htimely'.2.2.1
        exact ⟨m, v, stamp'', tasks_setTask.mpr (.inr ⟨hmj, hm⟩), hkey'.trans hkey, hcounts', hle'.trans hle,
          lt_of_le_of_lt htime hrecent'⟩
    · exact ⟨j, v, stamp'', tasks_setTask.mpr (.inr ⟨hjk, hj⟩), hkey, hcounts, hle, hrecent⟩

end Next

/-- **One step** of a run that keeps duplicates apart. -/
theorem Inv.step {w w' : Mediator} {a : MediatorStep} (h : w.Inv) (hspaced : w.Spaced a) (hstep : w.step a = some w') :
    w'.Inv := by
  cases a with
  | tick time =>
    obtain ⟨htime, hw⟩ := Option.ite_none_right_eq_some.mp hstep
    cases hw
    exact h.tick htime
  | arrive k request =>
    cases hk : w.tasks k with
    | none =>
      rw [Mediator.step, hk] at hstep
      cases hstep
      exact h.arrive hk
    | some t =>
      rw [Mediator.step, hk] at hstep
      cases hstep
  | next k =>
    obtain ⟨t, hk, hnext⟩ := Option.bind_eq_some_iff.mp hstep
    obtain ⟨hload, hsettle⟩ := hspaced t hk
    unfold Mediator.next at hnext
    split at hnext
    · next hhandling =>
      cases hnext
      obtain ⟨halone, hkept, hused⟩ := hload hhandling
      exact h.load hk hhandling halone hkept hused rfl
    · next last hhandling =>
      cases hnext
      exact h.stamp hk hhandling
    · next last stamp hhandling =>
      cases hnext
      exact h.store hk hhandling
    · next last stamp hhandling =>
      cases hnext
      exact h.settle hk hhandling (hsettle last stamp hhandling)
    · cases hnext

/-- A request that is acted on comes behind what its handler has read covers. -/
theorem Covers.of_acted {addr : SocketAddr} {last : LastMsg} {stamp time stamp' : ℕ} (h : Covers addr last stamp stamp')
    (hle : stamp ≤ time) (hacted : last.skips addr time = false) : stamp' + duplicateWindow ≤ time := by
  rcases h with ⟨haddr, hstamp⟩ | hout
  · by_contra hrecent
    have hskips : last.skips addr time = true := skips_iff.mpr ⟨haddr, by omega⟩
    rw [hacted] at hskips
    cases hskips
  · exact hout.trans hle

theorem Inv.actsOnce {w : Mediator} (h : w.Inv) : w.ActsOnce where
  once i j t u hij hi hj hkey last stamp time last' stamp' time' ht hu := by
    have htimely := h.timely i t hi
    have htimely' := h.timely j u hj
    rw [ht] at htimely
    rw [hu] at htimely'
    obtain ⟨-, hle, -, hacted⟩ := htimely
    obtain ⟨-, hle', -, hacted'⟩ := htimely'
    have haddr : t.request.addr = u.request.addr := congrArg Prod.snd hkey
    have hordered := h.ordered i j t u last last' stamp stamp' hij hi hj hkey (by rw [ht]; rfl) (by rw [hu]; rfl)
      (by rw [ht]; rfl) (by rw [hu]; rfl)
    rcases hordered with hcovers | hcovers
    · exact .inr (hcovers.of_acted hle (by simpa using hacted.symm))
    · rw [haddr] at hcovers
      exact .inl (hcovers.of_acted hle' (by simpa using hacted'.symm))
  dropped := h.dropped

/-- **Duplicates are acted on once, and only duplicates are dropped,** in every run that keeps them apart. -/
theorem actsOnce_of_run {now : ℕ} {as : List MediatorStep} {w : Mediator}
    (hrun : Run (Only Spaced (Steps Mediator.step)) (start now) as w) : w.ActsOnce := by
  have hinv : w.Inv := by
    apply hrun.invariant
    · exact fun w a w' h hstep => h.step hstep.1 hstep.2
    · exact start_inv now
  exact hinv.actsOnce

/-- A punch hole request and, half the window later, the request for the local address that comes with it. -/
def twoRequests : List MediatorStep :=
  [.arrive 0 (.punchHole (List.replicate 18 1)), .next 0, .next 0, .next 0, .next 0, .tick 50_000_000,
    .arrive 1 (.fetchLocalAddr (List.replicate 18 1)), .next 1, .next 1, .next 1, .next 1]

/-- The second one is dropped. -/
theorem actsOnce_twoRequests :
    ∃ w, Run (Only Spaced (Steps Mediator.step)) (start 0) twoRequests w ∧
      (w.tasks 1).map (·.handling) =
        some (.decided ⟨AddrMangle.decode (List.replicate 18 1), 0⟩ 50_000_000 50_000_000 false) ∧
      w.ActsOnce := by
  refine exists_and_and (fun _ hrun _ => actsOnce_of_run hrun) ?_
  refine ⟨_, .cons ⟨trivial, rfl⟩ (.cons ⟨?_, rfl⟩ (.cons ⟨?_, rfl⟩ (.cons ⟨?_, rfl⟩ (.cons ⟨?_, rfl⟩
    (.cons ⟨trivial, rfl⟩ (.cons ⟨trivial, rfl⟩ (.cons ⟨?_, rfl⟩ (.cons ⟨?_, rfl⟩ (.cons ⟨?_, rfl⟩ (.cons ⟨?_, rfl⟩
      (.nil _))))))))))), rfl⟩
  all_goals
    intro t ht
    cases ht
  · refine ⟨fun _ => ⟨?_, nofun, fun h => absurd h (by decide)⟩, nofun⟩
    rintro (_ | j) u hj -
    · cases hj
      rfl
    · exact nomatch (show none = some u from hj)
  · exact ⟨nofun, nofun⟩
  · exact ⟨nofun, nofun⟩
  · refine ⟨nofun, fun _ _ _ => ?_⟩
    rintro (_ | j) u last stamp time hj - hdropped
    · cases hj
      cases hdropped
    · exact nomatch (show none = some u from hj)
  · refine ⟨fun _ => ⟨?_, ?_, fun h => absurd h (by decide)⟩, nofun⟩
    · rintro (_ | _ | j) u hj -
      · cases hj
        rfl
      · cases hj
        rfl
      · exact nomatch (show none = some u from hj)
    · intro last hlast hne
      cases hlast
      exact absurd rfl hne
  · exact ⟨nofun, nofun⟩
  · exact ⟨nofun, nofun⟩
  · refine ⟨nofun, fun _ _ _ => ?_⟩
    rintro (_ | _ | j) u last stamp time hj - hdropped
    · cases hj
      cases hdropped
    · cases hj
      cases hdropped
    · exact nomatch (show none = some u from hj)

/-- A request, one of another peer, and the first one again, all at the same time. -/
def threeRequests : List MediatorStep :=
  [.arrive 0 (.punchHole (List.replicate 18 1)), .next 0, .next 0, .next 0, .next 0,
    .arrive 1 (.punchHole (List.replicate 18 2)), .next 1, .next 1, .next 1, .next 1,
    .arrive 2 (.punchHole (List.replicate 18 1)), .next 2, .next 2, .next 2, .next 2]

/-- The duplicate is acted on again. -/
theorem not_actsOnce_threeRequests :
    ∃ w, Run (Steps Mediator.step) (start 0) threeRequests w ∧ ¬ w.ActsOnce := by
  have hrun : ∃ w, exec Mediator.step (start 0) threeRequests = some w ∧
      (w.tasks 0).map (·.handling) = some (.decided ⟨unspecifiedV4, 0⟩ 0 0 true) ∧
      (w.tasks 2).map (·.handling) =
        some (.decided ⟨AddrMangle.decode (List.replicate 18 2), 0⟩ 0 0 true) ∧
      (w.tasks 0).map (·.request) = (w.tasks 2).map (·.request) := ⟨_, rfl, rfl, rfl, rfl⟩
  obtain ⟨w, hw, hfirst, hthird, hsame⟩ := hrun
  refine ⟨w, exec_eq_some_iff.mp hw, fun h => ?_⟩
  obtain ⟨t, ht, hdecided⟩ := Option.map_eq_some_iff.mp hfirst
  obtain ⟨u, hu, hdecided'⟩ := Option.map_eq_some_iff.mp hthird
  rw [ht, hu] at hsame
  have hkey : t.request.key = u.request.key := congrArg MediatorRequest.key (Option.some.inj hsame)
  rcases h.once 0 2 t u (by decide) ht hu hkey _ _ _ _ _ _ hdecided hdecided' with hlate | hlate
  · exact absurd hlate (by decide)
  · exact absurd hlate (by decide)

end Mediator

end RustDesk.Net
