import Mathlib.Algebra.Group.Int.Defs
import Mathlib.Algebra.GroupWithZero.Nat
import Mathlib.Order.Lattice
import Mathlib.Tactic.Common

/-!
# Checked operations

What a program panics at: an index behind the end of a list, a list of another length than asked for, an `unwrap` of
nothing, and, in a build with overflow checks, a result that does not fit in its type. What `MayPanic` stops at the
first such operation; `Fine` says that there is none.
-/

/-- Why a checked operation panics. -/
inductive PanicReason
  | indexOutOfRange
  | overflow
  | lengthMismatch
  | unwrapNone
  | panicked
deriving DecidableEq

/-- A computation that may panic. -/
abbrev MayPanic (α : Type*) := Except PanicReason α

namespace MayPanic

variable {α β : Type*}

/-- No fault. -/
def Fine (x : MayPanic α) : Prop := ∃ a, x = .ok a

@[simp] theorem fine_ok (a : α) : Fine (.ok a) := ⟨a, rfl⟩

@[simp] theorem not_fine_error (f : PanicReason) : ¬ Fine (.error f : MayPanic α) := by
  rintro ⟨a, h⟩
  cases h

theorem fine_bind {x : MayPanic α} {f : α → MayPanic β} : Fine (x.bind f) ↔ ∃ a, x = .ok a ∧ Fine (f a) := by
  cases x with
  | ok a =>
    constructor
    · exact fun h => ⟨a, rfl, h⟩
    · rintro ⟨b, hb, h⟩
      cases hb
      exact h
  | error e =>
    constructor
    · exact fun h => absurd h (not_fine_error e)
    · rintro ⟨b, hb, -⟩
      cases hb

/-- What is done with a result does not add a fault. -/
theorem fine_map {x : MayPanic α} {f : α → β} : Fine (x.bind fun a => .ok (f a)) ↔ Fine x := by
  rw [fine_bind]
  exact ⟨fun ⟨a, ha, _⟩ => ⟨a, ha⟩, fun ⟨a, ha⟩ => ⟨a, ha, fine_ok _⟩⟩

/-- An entry of a list by its index. -/
def index (xs : List α) (i : ℕ) : MayPanic α :=
  match xs[i]? with
  | some x => .ok x
  | none => .error .indexOutOfRange

theorem index_eq_ok {xs : List α} {i : ℕ} {x : α} : index xs i = .ok x ↔ xs[i]? = some x := by
  unfold index
  cases xs[i]? <;> simp

/-- `xs[..n]`. -/
def sliceTo (xs : List α) (n : ℕ) : MayPanic (List α) :=
  if n ≤ xs.length then .ok (xs.take n) else .error .indexOutOfRange

/-- `xs[n..]`. -/
def sliceFrom (xs : List α) (n : ℕ) : MayPanic (List α) :=
  if n ≤ xs.length then .ok (xs.drop n) else .error .indexOutOfRange

/-- `xs[i] = f(xs[i])`. -/
def modifyAt (xs : List α) (i : ℕ) (f : α → α) : MayPanic (List α) :=
  if i < xs.length then .ok (xs.modify i f) else .error .indexOutOfRange

/-- `try_into().unwrap()` to an array of `n`, and `copy_from_slice` into one. -/
def toArray (n : ℕ) (xs : List α) : MayPanic (List α) :=
  if xs.length = n then .ok xs else .error .lengthMismatch

theorem toArray_eq_ok {n : ℕ} {xs ys : List α} : toArray n xs = .ok ys ↔ xs.length = n ∧ xs = ys := by
  unfold toArray
  split
  next h => exact ⟨fun heq => ⟨h, Except.ok.inj heq⟩, fun heq => congrArg _ heq.2⟩
  next h => exact ⟨nofun, fun heq => absurd heq.1 h⟩

/-- `unwrap`. -/
def unwrap : Option α → MayPanic α
  | some a => .ok a
  | none => .error .unwrapNone

/-- `+=` of a `u64`. -/
def addU64 (a : UInt64) (n : ℕ) : MayPanic UInt64 :=
  if a.toNat + n < 2 ^ 64 then .ok (a + .ofNat n) else .error .overflow

theorem fine_addU64 {a : UInt64} {n : ℕ} : Fine (addU64 a n) ↔ a.toNat + n < 2 ^ 64 := by
  unfold addU64
  split
  next h => exact iff_of_true (fine_ok _) h
  next h => exact iff_of_false (not_fine_error _) h

theorem toNat_addU64 {a b : UInt64} {n : ℕ} (h : addU64 a n = .ok b) : b.toNat = a.toNat + n := by
  unfold addU64 at h
  split at h
  next hlt =>
    cases h
    rw [UInt64.toNat_add, UInt64.toNat_ofNat', Nat.add_mod_mod, Nat.mod_eq_of_lt hlt]
  · cases h

/-- `+= 1` of an `i32`. -/
def incI32 (n : ℤ) : MayPanic ℤ :=
  if n + 1 < 2 ^ 31 then .ok (n + 1) else .error .overflow

theorem fine_incI32 {n : ℤ} : Fine (incI32 n) ↔ n + 1 < 2 ^ 31 := by
  unfold incI32
  split
  next h => exact iff_of_true (fine_ok _) h
  next h => exact iff_of_false (not_fine_error _) h

/-- `Iterator::sum` of `u64`s, on top of a sum. -/
def sumU64 : UInt64 → List UInt64 → MayPanic UInt64
  | acc, [] => .ok acc
  | acc, x :: xs => (addU64 acc x.toNat).bind fun acc => sumU64 acc xs

/-- A sum has no fault just if the exact sum fits: no part of it can overflow on its own. -/
theorem fine_sumU64 {acc : UInt64} {xs : List UInt64} :
    Fine (sumU64 acc xs) ↔ acc.toNat + (xs.map UInt64.toNat).sum < 2 ^ 64 := by
  induction xs generalizing acc with
  | nil => simpa [sumU64] using acc.toNat_lt
  | cons x xs ih =>
    rw [sumU64, fine_bind, List.map_cons, List.sum_cons, ← Nat.add_assoc]
    constructor
    · rintro ⟨b, hb, h⟩
      rwa [ih, toNat_addU64 hb] at h
    · intro h
      obtain ⟨b, hb⟩ := fine_addU64.mpr (Nat.lt_of_le_of_lt (Nat.le_add_right _ _) h)
      exact ⟨b, hb, by rwa [ih, toNat_addU64 hb]⟩

/-! ## What stays in range -/

/-- `+` of `u32`s. -/
def addU32 (a b : ℕ) : MayPanic ℕ := if a + b < 2 ^ 32 then .ok (a + b) else .error .overflow

/-- `-` of `u32`s. -/
def subU32 (a b : ℕ) : MayPanic ℕ := if b ≤ a then .ok (a - b) else .error .overflow

/-- `Iterator::sum` of `u32`s, on top of a sum. -/
def sumU32 : ℕ → List ℕ → MayPanic ℕ
  | acc, [] => .ok acc
  | acc, x :: xs => (addU32 acc x).bind fun acc => sumU32 acc xs

/-- A division, of integers or of numbers. -/
def div {K : Type*} [Div K] [Zero K] [DecidableEq K] (a b : K) : MayPanic K :=
  if b = 0 then .error .panicked else .ok (a / b)

/-- `clamp`, which asserts its bounds. -/
def clamp {K : Type*} [LinearOrder K] (x lo hi : K) : MayPanic K :=
  if lo ≤ hi then .ok (max lo (min x hi)) else .error .panicked

theorem addU32_ok {a b : ℕ} (h : a + b < 2 ^ 32) : addU32 a b = .ok (a + b) := if_pos h

theorem subU32_ok {a b : ℕ} (h : b ≤ a) : subU32 a b = .ok (a - b) := if_pos h

theorem div_ok {K : Type*} [Div K] [Zero K] [DecidableEq K] {a b : K} (h : b ≠ 0) : div a b = .ok (a / b) :=
  if_neg h

theorem clamp_ok {K : Type*} [LinearOrder K] {x lo hi : K} (h : lo ≤ hi) :
    clamp x lo hi = .ok (max lo (min x hi)) := if_pos h

theorem sumU32_ok {acc : ℕ} {xs : List ℕ} (h : acc + xs.sum < 2 ^ 32) : sumU32 acc xs = .ok (acc + xs.sum) := by
  induction xs generalizing acc with
  | nil => rfl
  | cons x xs ih =>
    rw [List.sum_cons, ← Nat.add_assoc] at h ⊢
    rw [sumU32, addU32_ok (Nat.lt_of_le_of_lt (Nat.le_add_right _ _) h)]
    exact ih h

/-- A map that meets no fault on the way. -/
theorem mapM_ok {α β : Type*} {xs : List α} {f : α → MayPanic β} {g : α → β} (h : ∀ x ∈ xs, f x = .ok (g x)) :
    xs.mapM f = .ok (xs.map g) := by
  induction xs with
  | nil => rfl
  | cons x xs ih =>
    rw [List.forall_mem_cons] at h
    rw [List.mapM_cons, h.1, ih h.2]
    rfl

end MayPanic
