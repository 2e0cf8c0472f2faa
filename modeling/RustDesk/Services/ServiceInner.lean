import Mathlib.Data.Finset.Basic

/-!
# The subscribers of a service

Reference: `src/server/service.rs` (`ServiceInner`, `Service for ServiceTmpl`). A subscriber stands for its
connection. One who comes to a service with a snapshot waits among the new ones until the next swap. The
thread of the service and its options are left out.
-/

namespace RustDesk.Services

/-- A connection id, an `i32`. -/
abbrev ConnId := ℤ

structure ServiceInner where
  name : List Char
  subscribes : Finset ConnId
  newSubscribes : Finset ConnId
  needSnapshot : Bool

namespace ServiceInner

/-- `ServiceTmpl::new`. -/
def new (name : List Char) (needSnapshot : Bool) : ServiceInner := ⟨name, ∅, ∅, needSnapshot⟩

def isSubed (service : ServiceInner) (id : ConnId) : Bool :=
  id ∈ service.subscribes || id ∈ service.newSubscribes

def onSubscribe (service : ServiceInner) (sub : ConnId) : ServiceInner :=
  if sub ∈ service.subscribes then service
  else if service.needSnapshot then { service with newSubscribes := insert sub service.newSubscribes }
  else { service with subscribes := insert sub service.subscribes }

def onUnsubscribe (service : ServiceInner) (id : ConnId) : ServiceInner :=
  if id ∈ service.subscribes then { service with subscribes := service.subscribes.erase id }
  else { service with newSubscribes := service.newSubscribes.erase id }

def swapNewSubscribes (service : ServiceInner) : ServiceInner :=
  { service with subscribes := service.subscribes ∪ service.newSubscribes, newSubscribes := ∅ }

/-- No subscriber is in both maps, and none waits at a service without a snapshot. -/
structure Separate (service : ServiceInner) : Prop where
  apart : ∀ id ∈ service.subscribes, id ∉ service.newSubscribes
  none : service.needSnapshot = false → service.newSubscribes = ∅

variable {service : ServiceInner}

@[simp]
theorem isSubed_iff {id : ConnId} :
    service.isSubed id = true ↔ id ∈ service.subscribes ∨ id ∈ service.newSubscribes := by
  simp [isSubed]

theorem separate_new (name : List Char) (needSnapshot : Bool) : Separate (new name needSnapshot) :=
  ⟨fun _ hid => absurd hid (Finset.notMem_empty _), fun _ => rfl⟩

theorem Separate.onSubscribe (h : Separate service) (sub : ConnId) : Separate (service.onSubscribe sub) := by
  unfold ServiceInner.onSubscribe
  split
  · exact h
  · next hsub =>
    split
    · next hneed =>
      refine ⟨fun id hid => ?_, fun hnot => absurd hneed (by rw [hnot]; exact Bool.false_ne_true)⟩
      rw [Finset.mem_insert, not_or]
      exact ⟨fun heq => hsub (heq ▸ hid), h.apart id hid⟩
    · next hneed =>
      have hnone := h.none (Bool.eq_false_iff.mpr hneed)
      exact ⟨fun id _ => by rw [hnone]; exact Finset.notMem_empty id, fun _ => hnone⟩

theorem Separate.onUnsubscribe (h : Separate service) (id : ConnId) : Separate (service.onUnsubscribe id) := by
  unfold ServiceInner.onUnsubscribe
  split
  · exact ⟨fun i hi => h.apart i (Finset.mem_of_mem_erase hi), h.none⟩
  · refine ⟨fun i hi hnew => h.apart i hi (Finset.mem_of_mem_erase hnew), fun hneed => ?_⟩
    rw [h.none hneed]
    rfl

theorem Separate.swapNewSubscribes (_ : Separate service) : Separate service.swapNewSubscribes :=
  ⟨fun _ _ => Finset.notMem_empty _, fun _ => rfl⟩

theorem isSubed_onSubscribe (sub id : ConnId) :
    (service.onSubscribe sub).isSubed id = true ↔ service.isSubed id = true ∨ id = sub := by
  unfold onSubscribe
  rw [isSubed_iff, isSubed_iff]
  split
  · next hsub =>
    refine ⟨.inl, ?_⟩
    rintro (h | rfl)
    · exact h
    · exact .inl hsub
  · split
    · rw [Finset.mem_insert]
      tauto
    · rw [Finset.mem_insert]
      tauto

theorem Separate.isSubed_onUnsubscribe (h : Separate service) (id i : ConnId) :
    (service.onUnsubscribe id).isSubed i = true ↔ service.isSubed i = true ∧ i ≠ id := by
  have hapart := h.apart i
  unfold ServiceInner.onUnsubscribe
  rw [isSubed_iff, isSubed_iff]
  split
  · next hid =>
    rw [Finset.mem_erase]
    constructor
    · rintro (⟨hne, hi⟩ | hi)
      · exact ⟨.inl hi, hne⟩
      · exact ⟨.inr hi, fun heq => h.apart id hid (heq ▸ hi)⟩
    · rintro ⟨hi, hne⟩
      exact hi.imp_left fun hi => ⟨hne, hi⟩
  · next hid =>
    rw [Finset.mem_erase]
    constructor
    · rintro (hi | ⟨hne, hi⟩)
      · exact ⟨.inl hi, fun heq => hid (heq ▸ hi)⟩
      · exact ⟨.inr hi, hne⟩
    · rintro ⟨hi, hne⟩
      exact hi.imp_right fun hi => ⟨hne, hi⟩

end ServiceInner

/-- A service, with its subscribers in one map each. -/
def Service : Type := { service : ServiceInner // service.Separate }

end RustDesk.Services
