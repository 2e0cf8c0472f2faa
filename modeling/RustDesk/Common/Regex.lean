import Mathlib.Computability.RegularExpressions

/-!
# Regular expressions as programs write them

Mathlib has the expressions and their languages. Here are the shorthands of a pattern: a class of characters,
`P+`, and `P{lo,hi}`, with what each matches.
-/

namespace Regex

open RegularExpression

variable {α : Type*} {cs x : List α}

/-- A class: one of these characters. -/
def oneOf (cs : List α) : RegularExpression α := cs.foldr (fun c P => char c + P) 0

/-- `P+` -/
def oneOrMore (P : RegularExpression α) : RegularExpression α := P * P.star

/-- `P{0,n}` -/
def atMost (P : RegularExpression α) : ℕ → RegularExpression α
  | 0 => 1
  | n + 1 => 1 + P * atMost P n

/-- `P{lo,hi}` -/
def between (P : RegularExpression α) : ℕ → ℕ → RegularExpression α
  | 0, hi => atMost P hi
  | lo + 1, hi => P * between P lo (hi - 1)

theorem mem_oneOf : x ∈ (oneOf cs).matches' ↔ ∃ c ∈ cs, x = [c] := by
  induction cs with
  | nil =>
    refine ⟨fun h => (Set.notMem_empty x h).elim, ?_⟩
    rintro ⟨c, hc, -⟩
    cases hc
  | cons c cs ih =>
    have hadd : x ∈ (oneOf (c :: cs)).matches' ↔ x = [c] ∨ x ∈ (oneOf cs).matches' := Iff.rfl
    rw [hadd, ih]
    simp

theorem mem_oneOrMore {P : RegularExpression α} :
    x ∈ (oneOrMore P).matches' ↔ ∃ y ∈ P.matches', ∃ ys : List (List α), (∀ z ∈ ys, z ∈ P.matches') ∧ x = y ++ ys.flatten := by
  rw [oneOrMore, matches'_mul, matches'_star, Language.mem_mul]
  constructor
  · rintro ⟨y, hy, rest, hrest, rfl⟩
    obtain ⟨ys, rfl, hys⟩ := Language.mem_kstar.mp hrest
    exact ⟨y, hy, ys, hys, rfl⟩
  · rintro ⟨y, hy, ys, hys, rfl⟩
    exact ⟨y, hy, ys.flatten, Language.join_mem_kstar hys, rfl⟩

/-- One match, or one match and then more. -/
@[elab_as_elim]
theorem oneOrMore_induction {P : RegularExpression α} {motive : List α → Prop}
    (h : x ∈ (oneOrMore P).matches') (hone : ∀ y ∈ P.matches', motive y)
    (hmore : ∀ y ∈ P.matches', ∀ x, motive x → motive (y ++ x)) : motive x := by
  obtain ⟨y, hy, ys, hys, rfl⟩ := mem_oneOrMore.mp h
  induction ys generalizing y with
  | nil =>
    rw [List.flatten_nil, List.append_nil]
    exact hone y hy
  | cons z ys ih =>
    obtain ⟨hz, hys⟩ := List.forall_mem_cons.mp hys
    exact hmore y hy _ (ih z hz hys (mem_oneOrMore.mpr ⟨z, hz, ys, hys, rfl⟩))

/-- A class in braces matches by its length. -/
theorem mem_atMost_oneOf {n : ℕ} : x ∈ (atMost (oneOf cs) n).matches' ↔ x.length ≤ n ∧ ∀ c ∈ x, c ∈ cs := by
  induction n generalizing x with
  | zero =>
    have hone : x ∈ (atMost (oneOf cs) 0).matches' ↔ x = [] := Iff.rfl
    rw [hone]
    constructor
    · rintro rfl
      exact ⟨Nat.le_refl 0, List.forall_mem_nil _⟩
    · exact fun h => List.length_eq_zero_iff.mp (Nat.le_zero.mp h.1)
  | succ n ih =>
    have hadd : x ∈ (atMost (oneOf cs) (n + 1)).matches' ↔
        x = [] ∨ ∃ a ∈ (oneOf cs).matches', ∃ b ∈ (atMost (oneOf cs) n).matches', a ++ b = x := Iff.rfl
    rw [hadd]
    constructor
    · rintro (rfl | ⟨a, ha, b, hb, rfl⟩)
      · exact ⟨Nat.zero_le _, List.forall_mem_nil _⟩
      · obtain ⟨c, hc, rfl⟩ := mem_oneOf.mp ha
        obtain ⟨hlength, hmem⟩ := ih.mp hb
        exact ⟨Nat.succ_le_succ hlength, List.forall_mem_cons.mpr ⟨hc, hmem⟩⟩
    · rintro ⟨hlength, hmem⟩
      cases x with
      | nil => exact .inl rfl
      | cons c x =>
        obtain ⟨hc, hmem⟩ := List.forall_mem_cons.mp hmem
        exact .inr ⟨[c], mem_oneOf.mpr ⟨c, hc, rfl⟩, x, ih.mpr ⟨Nat.le_of_succ_le_succ hlength, hmem⟩, rfl⟩

theorem mem_between_oneOf {lo hi : ℕ} (h : lo ≤ hi) :
    x ∈ (between (oneOf cs) lo hi).matches' ↔ lo ≤ x.length ∧ x.length ≤ hi ∧ ∀ c ∈ x, c ∈ cs := by
  induction lo generalizing hi x with
  | zero =>
    rw [between, mem_atMost_oneOf]
    exact (and_iff_right (Nat.zero_le _)).symm
  | succ lo ih =>
    have hmul : x ∈ (between (oneOf cs) (lo + 1) hi).matches' ↔
        ∃ a ∈ (oneOf cs).matches', ∃ b ∈ (between (oneOf cs) lo (hi - 1)).matches', a ++ b = x := Iff.rfl
    rw [hmul]
    have hle : lo ≤ hi - 1 := by omega
    constructor
    · rintro ⟨a, ha, b, hb, rfl⟩
      obtain ⟨c, hc, rfl⟩ := mem_oneOf.mp ha
      obtain ⟨hlo, hhi, hmem⟩ := (ih hle).mp hb
      refine ⟨Nat.succ_le_succ hlo, ?_, List.forall_mem_cons.mpr ⟨hc, hmem⟩⟩
      rw [List.singleton_append, List.length_cons]
      omega
    · rintro ⟨hlo, hhi, hmem⟩
      cases x with
      | nil => cases hlo
      | cons c x =>
        obtain ⟨hc, hmem⟩ := List.forall_mem_cons.mp hmem
        rw [List.length_cons] at hlo hhi
        exact ⟨[c], mem_oneOf.mpr ⟨c, hc, rfl⟩, x, (ih hle).mpr ⟨by omega, by omega, hmem⟩, rfl⟩

theorem mem_oneOrMore_oneOf : x ∈ (oneOrMore (oneOf cs)).matches' ↔ x ≠ [] ∧ ∀ c ∈ x, c ∈ cs := by
  constructor
  · intro h
    refine oneOrMore_induction h (fun y hy => ?_) fun y hy x hx => ?_
    · obtain ⟨c, hc, rfl⟩ := mem_oneOf.mp hy
      exact ⟨List.cons_ne_nil _ _, List.forall_mem_singleton.mpr hc⟩
    · obtain ⟨c, hc, rfl⟩ := mem_oneOf.mp hy
      exact ⟨List.cons_ne_nil _ _, List.forall_mem_cons.mpr ⟨hc, hx.2⟩⟩
  · rintro ⟨hne, hmem⟩
    obtain ⟨c, x, rfl⟩ := List.exists_cons_of_ne_nil hne
    obtain ⟨hc, hmem⟩ := List.forall_mem_cons.mp hmem
    refine mem_oneOrMore.mpr ⟨[c], mem_oneOf.mpr ⟨c, hc, rfl⟩, x.map fun d => [d], ?_, ?_⟩
    · intro z hz
      obtain ⟨d, hd, rfl⟩ := List.mem_map.mp hz
      exact mem_oneOf.mpr ⟨d, hmem d hd, rfl⟩
    · simp [← List.flatMap_def]

end Regex
