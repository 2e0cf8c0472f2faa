import Mathlib.Tactic.Common

/-!
# Threads that share a state

A thread is the list of what it has still to do, and one instruction at a time is carried out on the shared state: a
section under a lock, or an access to an atomic variable. It may give the thread more to do first, and start other
threads. `pending_run` is the rule for what somebody has still to do: it stays until it is carried out.
-/

variable {σ ι κ : Type*}

/-- What an instruction makes of the shared state, what its thread does next, and the threads it starts. -/
structure Outcome (σ ι : Type*) where
  shared : σ
  instructions : List ι
  spawned : List (List ι)

structure ThreadPool (σ ι : Type*) where
  shared : σ
  threads : List (List ι)

namespace ThreadPool

/-- Somebody has still to do it. -/
def Pending (p : ι → Prop) (threads : List (List ι)) : Prop := ∃ thread ∈ threads, ∃ x ∈ thread, p x

/-- A new thread. -/
def start (pool : ThreadPool σ ι) (thread : List ι) : ThreadPool σ ι :=
  { pool with threads := pool.threads ++ [thread] }

/-- The next instruction of one thread, with what is not determined about it. -/
def run (execute : σ → ι → κ → Option (Outcome σ ι)) (pool : ThreadPool σ ι) (i : ℕ) (choice : κ) :
    Option (ThreadPool σ ι) :=
  match pool.threads[i]? with
  | some (x :: rest) =>
    (execute pool.shared x choice).map fun o => ⟨o.shared, pool.threads.set i (o.instructions ++ rest) ++ o.spawned⟩
  | _ => none

/-- The threads after an instruction `x`. -/
structure Ran (before : List (List ι)) (x : ι) (instructions : List ι) (spawned after : List (List ι)) : Prop where
  exists_thread : ∃ i rest, before[i]? = some (x :: rest) ∧ after = before.set i (instructions ++ rest) ++ spawned

variable {execute : σ → ι → κ → Option (Outcome σ ι)} {pool pool' : ThreadPool σ ι} {i : ℕ} {choice : κ}

theorem run_cases (h : pool.run execute i choice = some pool') :
    ∃ x rest o, pool.threads[i]? = some (x :: rest) ∧ execute pool.shared x choice = some o ∧
      Ran pool.threads x o.instructions o.spawned pool'.threads ∧ pool'.shared = o.shared := by
  unfold run at h
  split at h
  · next x rest hi =>
    obtain ⟨o, ho, rfl⟩ := Option.map_eq_some_iff.mp h
    exact ⟨x, rest, o, hi, ho, ⟨i, rest, hi, rfl⟩, rfl⟩
  · cases h

section Pending

variable {p : ι → Prop} {before after spawned : List (List ι)} {instructions thread : List ι} {x y : ι}

section

variable (h : Ran before x instructions spawned after)
include h

theorem Ran.mem : ∃ thread ∈ before, x ∈ thread := by
  obtain ⟨i, rest, hi, -⟩ := h.exists_thread
  exact ⟨_, List.mem_of_getElem? hi, List.mem_cons_self⟩

/-- **What is to do stays to do**, but for the instruction itself. -/
theorem pending_run (hp : Pending p before) : p x ∨ Pending p after := by
  obtain ⟨i, rest, hi, rfl⟩ := h.exists_thread
  obtain ⟨thread, hthread, y, hy, hpy⟩ := hp
  obtain ⟨j, hj, rfl⟩ := List.getElem_of_mem hthread
  by_cases hij : i = j
  · subst hij
    rw [List.getElem?_eq_getElem hj, Option.some.injEq] at hi
    rw [hi] at hy
    rcases List.mem_cons.mp hy with rfl | hy
    · exact .inl hpy
    · refine .inr ⟨instructions ++ rest, List.mem_append_left _ ?_, y, List.mem_append_right _ hy, hpy⟩
      exact List.mem_of_getElem? (List.getElem?_set_self hj)
  · refine .inr ⟨before[j], List.mem_append_left _ ?_, y, hy, hpy⟩
    refine List.mem_of_getElem? (i := j) ?_
    rw [List.getElem?_set_ne hij, List.getElem?_eq_getElem hj]

theorem pending_of_not (hx : ¬p x) (hp : Pending p before) : Pending p after :=
  (pending_run h hp).resolve_left hx

/-- What the instruction gives its thread to do. -/
theorem pending_of_instructions (hy : y ∈ instructions) (hp : p y) : Pending p after := by
  obtain ⟨i, rest, hi, rfl⟩ := h.exists_thread
  obtain ⟨hlt, -⟩ := List.getElem?_eq_some_iff.mp hi
  refine ⟨instructions ++ rest, List.mem_append_left _ ?_, y, List.mem_append_left _ hy, hp⟩
  exact List.mem_of_getElem? (List.getElem?_set_self hlt)

theorem pending_of_spawned (hthread : thread ∈ spawned) (hy : y ∈ thread) (hp : p y) : Pending p after := by
  obtain ⟨i, rest, -, rfl⟩ := h.exists_thread
  exact ⟨thread, List.mem_append_right _ hthread, y, hy, hp⟩

/-- What is to do was to do already, or the instruction brought it. -/
theorem of_pending_ran (hp : Pending p after) :
    Pending p before ∨ (∃ y ∈ instructions, p y) ∨ ∃ thread ∈ spawned, ∃ y ∈ thread, p y := by
  obtain ⟨i, rest, hi, rfl⟩ := h.exists_thread
  obtain ⟨thread, hthread, y, hy, hpy⟩ := hp
  rcases List.mem_append.mp hthread with hset | hspawned
  · rcases List.mem_or_eq_of_mem_set hset with hold | rfl
    · exact .inl ⟨thread, hold, y, hy, hpy⟩
    · rcases List.mem_append.mp hy with hnew | hrest
      · exact .inr (.inl ⟨y, hnew, hpy⟩)
      · exact .inl ⟨x :: rest, List.mem_of_getElem? hi, y, List.mem_cons_of_mem _ hrest, hpy⟩
  · exact .inr (.inr ⟨thread, hspawned, y, hy, hpy⟩)

end

theorem pending_start (hp : Pending p pool.threads) (thread : List ι) : Pending p (pool.start thread).threads := by
  obtain ⟨t, ht, hy⟩ := hp
  exact ⟨t, List.mem_append_left _ ht, hy⟩

theorem of_pending_start (hp : Pending p (pool.start thread).threads) :
    Pending p pool.threads ∨ ∃ y ∈ thread, p y := by
  obtain ⟨t, ht, y, hy, hpy⟩ := hp
  rcases List.mem_append.mp ht with hold | hnew
  · exact .inl ⟨t, hold, y, hy, hpy⟩
  · obtain rfl := List.mem_singleton.mp hnew
    exact .inr ⟨y, hy, hpy⟩

end Pending

end ThreadPool
