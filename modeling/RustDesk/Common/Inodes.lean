import Mathlib.Data.Nat.Notation
import Mathlib.Logic.Function.Basic
import Mathlib.Tactic.Common

/-!
# Names for cells

A store of cells that are reached by names. A name can be taken from its cell, or given to another
one, while somebody still writes to the cell itself: a file that was opened, a node of a file system.
No two names stand for one cell.
-/

/-- A store of cells with values in `V`, under names in `L`. -/
structure Inodes (L V : Type*) where
  node : L → Option ℕ
  val : ℕ → V
  /-- the next cell -/
  fresh : ℕ
  inj : ∀ l l' i, node l = some i → node l' = some i → l = l'
  bound : ∀ l i, node l = some i → i < fresh

namespace Inodes

variable {L V : Type*} (s : Inodes L V) {l l' : L} {i : ℕ} {v : V}

/-- The value under a name. -/
def get (l : L) : Option V := (s.node l).map s.val

/-- Write to a cell. -/
def set (i : ℕ) (v : V) : Inodes L V where
  node := s.node
  val := Function.update s.val i v
  fresh := s.fresh
  inj := s.inj
  bound := s.bound

/-- The cell of a name, or the one that it would get. -/
def nodeOrFresh (l : L) : ℕ := (s.node l).getD s.fresh

theorem get_of_node (h : s.node l = some i) : s.get l = some (s.val i) := by rw [get, h]; rfl

@[simp]
theorem get_eq_none : s.get l = none ↔ s.node l = none := Option.map_eq_none_iff

@[simp]
theorem node_set : (s.set i v).node = s.node := rfl

@[simp]
theorem val_set_self : (s.set i v).val i = v := Function.update_self ..

theorem get_set_of_node (h : s.node l = some i) : (s.set i v).get l = some v := by
  rw [get, node_set, h, Option.map_some, val_set_self]

/-- A write to a cell changes no value under a name of another one. -/
theorem get_set_of_ne (h : s.node l ≠ some i) : (s.set i v).get l = s.get l := by
  cases hl : s.node l with
  | none =>
    rw [get, get, node_set, hl]
    rfl
  | some j =>
    have hj : j ≠ i := fun hji => h (by rw [hl, hji])
    rw [get_of_node s hl, get_of_node (s.set i v) hl]
    exact congrArg some (Function.update_of_ne hj ..)

/-- A write to the cell of a name changes the value under this name alone. -/
theorem get_set_of_ne_name (h : s.node l = some i) (hne : l' ≠ l) : (s.set i v).get l' = s.get l' :=
  get_set_of_ne s fun hi => hne (s.inj _ _ _ hi h)

variable [DecidableEq L]

/-! ## Names -/

/-- Take a name away. -/
def unlink (l : L) : Inodes L V where
  node := Function.update s.node l none
  val := s.val
  fresh := s.fresh
  inj l₁ l₂ i h₁ h₂ := by
    by_cases hl₁ : l₁ = l
    · simp [hl₁] at h₁
    · by_cases hl₂ : l₂ = l
      · simp [hl₂] at h₂
      · rw [Function.update_of_ne hl₁] at h₁
        rw [Function.update_of_ne hl₂] at h₂
        exact s.inj _ _ _ h₁ h₂
  bound l₁ i h := by
    by_cases hl₁ : l₁ = l
    · simp [hl₁] at h
    · rw [Function.update_of_ne hl₁] at h
      exact s.bound _ _ h

/-- Move a name over another one. -/
def move (l l' : L) : Inodes L V where
  node x := if x = l' then s.node l else if x = l then none else s.node x
  val := s.val
  fresh := s.fresh
  inj l₁ l₂ i h₁ h₂ := by
    have hback : ∀ x, (if x = l' then s.node l else if x = l then none else s.node x) = some i →
        (x = l' ∧ s.node l = some i) ∨ (x ≠ l' ∧ x ≠ l ∧ s.node x = some i) := by
      intro x hx
      split at hx
      · exact .inl ⟨‹_›, hx⟩
      · split at hx
        · cases hx
        · exact .inr ⟨‹_›, ‹_›, hx⟩
    obtain ⟨rfl, e₁⟩ | ⟨-, hne₁, e₁⟩ := hback l₁ h₁
    · obtain ⟨rfl, -⟩ | ⟨-, hne₂, e₂⟩ := hback l₂ h₂
      · rfl
      · exact absurd (s.inj _ _ _ e₂ e₁) hne₂
    · obtain ⟨rfl, e₂⟩ | ⟨-, -, e₂⟩ := hback l₂ h₂
      · exact absurd (s.inj _ _ _ e₁ e₂) hne₁
      · exact s.inj _ _ _ e₁ e₂
  bound x i h := by
    split at h
    · exact s.bound _ _ h
    · split at h
      · cases h
      · exact s.bound _ _ h

/-- Give a name a cell of its own, where it has none. -/
def link (l : L) (v : V) : Inodes L V where
  node := Function.update s.node l (some (s.nodeOrFresh l))
  val := Function.update s.val s.fresh v
  fresh := s.fresh + 1
  inj := by
    have hback : ∀ x i, Function.update s.node l (some (s.nodeOrFresh l)) x = some i →
        s.node x = some i ∨ (x = l ∧ i = s.fresh) := by
      intro x i hx
      by_cases hxl : x = l
      · rw [hxl, Function.update_self, Option.some.injEq, nodeOrFresh] at hx
        cases hl : s.node l with
        | none => exact .inr ⟨hxl, by rw [← hx, hl]; rfl⟩
        | some j => exact .inl (by rw [hxl, hl, ← hx, hl]; rfl)
      · exact .inl (by rwa [Function.update_of_ne hxl] at hx)
    intro l₁ l₂ i h₁ h₂
    obtain e₁ | ⟨rfl, e₁⟩ := hback l₁ i h₁
    · obtain e₂ | ⟨rfl, e₂⟩ := hback l₂ i h₂
      · exact s.inj _ _ _ e₁ e₂
      · exact absurd (s.bound _ _ e₁) (by omega)
    · obtain e₂ | ⟨rfl, e₂⟩ := hback l₂ i h₂
      · exact absurd (s.bound _ _ e₂) (by omega)
      · rfl
  bound x i hx := by
    by_cases hxl : x = l
    · rw [hxl, Function.update_self, Option.some.injEq, nodeOrFresh] at hx
      cases hl : s.node l with
      | none =>
        rw [hl, Option.getD_none] at hx
        omega
      | some j =>
        rw [hl, Option.getD_some] at hx
        have := s.bound _ _ hl
        omega
    · rw [Function.update_of_ne hxl] at hx
      have := s.bound _ _ hx
      omega

@[simp]
theorem node_unlink_self : (s.unlink l).node l = none := Function.update_self ..

theorem node_unlink_of_ne (h : l' ≠ l) : (s.unlink l).node l' = s.node l' := Function.update_of_ne h ..

@[simp]
theorem node_move_target : (s.move l l').node l' = s.node l := if_pos rfl

theorem node_move_source (h : l ≠ l') : (s.move l l').node l = none := by
  show (if l = l' then _ else _) = _
  rw [if_neg h, if_pos rfl]

theorem node_move_of_ne {x : L} (h : x ≠ l) (h' : x ≠ l') : (s.move l l').node x = s.node x := by
  show (if x = l' then _ else _) = _
  rw [if_neg h', if_neg h]

@[simp]
theorem node_link_self : (s.link l v).node l = some (s.nodeOrFresh l) := Function.update_self ..

theorem node_link_of_ne (h : l' ≠ l) : (s.link l v).node l' = s.node l' := Function.update_of_ne h ..

/-! ## Values under names -/

theorem get_unlink_of_ne (h : l' ≠ l) : (s.unlink l).get l' = s.get l' := by
  rw [get, node_unlink_of_ne s h]
  rfl

@[simp]
theorem get_unlink_self : (s.unlink l).get l = none := by rw [get, node_unlink_self]; rfl

@[simp]
theorem get_move_target : (s.move l l').get l' = s.get l := by rw [get, node_move_target]; rfl

theorem get_move_source (h : l ≠ l') : (s.move l l').get l = none := by
  rw [get, node_move_source s h]
  rfl

theorem get_move_of_ne {x : L} (h : x ≠ l) (h' : x ≠ l') : (s.move l l').get x = s.get x := by
  rw [get, node_move_of_ne s h h']
  rfl

theorem get_link (h : s.node l' = some i) : (s.link l v).get l' = s.get l' := by
  have hnode : (s.link l v).node l' = some i := by
    by_cases hl : l' = l
    · rw [← hl, node_link_self, nodeOrFresh, h, Option.getD_some]
    · rw [node_link_of_ne s hl, h]
  have hi := s.bound _ _ h
  rw [get_of_node _ hnode, get_of_node s h]
  exact congrArg some (Function.update_of_ne (by omega) ..)

theorem get_link_of_ne (h : l' ≠ l) : (s.link l v).get l' = s.get l' := by
  cases hl : s.node l' with
  | some i => exact get_link s hl
  | none => rw [get, get, node_link_of_ne s h, hl, Option.map_none, Option.map_none]

end Inodes
