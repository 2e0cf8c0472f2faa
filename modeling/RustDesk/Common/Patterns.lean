import Mathlib.Data.Bool.AllAny
import Mathlib.Data.List.Infix
import Mathlib.Data.Nat.Find
import Mathlib.Tactic.Common

/-!
# Patterns in a text

`find`, `split` and `replace` at the occurrences of a pattern that is not empty, from the left on, where an
occurrence that overlaps an earlier one does not count.
-/

namespace Patterns

variable {α : Type*} [DecidableEq α] {c : α} {front s part back : List α}

/-- Where the first occurrence begins. -/
def find (pat : List α) : List α → Option ℕ
  | [] => if pat = [] then some 0 else none
  | c :: s => if pat.isPrefixOf (c :: s) then some 0 else (find pat s).map (· + 1)

/-- What is before the first occurrence, and what is between one and the next. So many characters are still
those of an occurrence. -/
def splitFrom (pat : List α) : ℕ → List α → List (List α)
  | _, [] => [[]]
  | skip + 1, _ :: s => splitFrom pat skip s
  | 0, c :: s =>
    if pat.isPrefixOf (c :: s) then [] :: splitFrom pat (pat.length - 1) s
    else
      match splitFrom pat 0 s with
      | [] => [[c]]
      | part :: parts => (c :: part) :: parts

def split (pat s : List α) : List (List α) := splitFrom pat 0 s

/-- Every occurrence replaced. -/
def replace (pat by' s : List α) : List α := List.intercalate by' (split pat s)

variable {pat : List α}

/-- Nothing is found before the first character of the pattern. -/
theorem find_append_of_notMem (h : c ∉ front) (s : List α) :
    find (c :: pat) (front ++ s) = (find (c :: pat) s).map (· + front.length) := by
  induction front with
  | nil => exact Option.map_id'.symm
  | cons d front ih =>
    obtain ⟨hne, hnot⟩ := not_or.mp (fun h' => h (List.mem_cons.mpr h'))
    have hprefix : ¬ (c :: pat).isPrefixOf (d :: (front ++ s)) = true := by simp [hne]
    rw [List.cons_append, find, if_neg hprefix, ih hnot, Option.map_map]
    rfl

/-- **Where a pattern is found**: it begins there and nowhere before. -/
theorem find_eq_some {n : ℕ} :
    find pat s = some n ↔ n ≤ s.length ∧ pat <+: s.drop n ∧ ∀ k < n, ¬ pat <+: s.drop k := by
  induction s generalizing n with
  | nil =>
    rw [find]
    split
    · next hnil =>
      subst hnil
      constructor
      · intro h
        cases h
        exact ⟨Nat.le_refl 0, List.nil_prefix, fun k hk => absurd hk (Nat.not_lt_zero k)⟩
      · rintro ⟨hle, -, -⟩
        rw [Nat.le_zero.mp hle]
    · next hne =>
      refine iff_of_false (by simp) ?_
      rintro ⟨-, hprefix, -⟩
      rw [List.drop_nil, List.prefix_nil] at hprefix
      exact hne hprefix
  | cons c s ih =>
    rw [find]
    split
    · next hprefix =>
      have hprefix' := List.isPrefixOf_iff_prefix.mp hprefix
      constructor
      · intro h
        cases h
        exact ⟨Nat.zero_le _, hprefix', fun k hk => absurd hk (Nat.not_lt_zero k)⟩
      · rintro ⟨-, -, hfirst⟩
        by_contra hne
        exact hfirst 0 (Nat.pos_of_ne_zero fun h => hne (by rw [h])) hprefix'
    · next hprefix =>
      have hprefix' : ¬ pat <+: c :: s := fun h => hprefix (List.isPrefixOf_iff_prefix.mpr h)
      rw [Option.map_eq_some_iff]
      constructor
      · rintro ⟨m, hm, rfl⟩
        obtain ⟨hle, hat, hfirst⟩ := ih.mp hm
        refine ⟨Nat.succ_le_succ hle, hat, fun k hk => ?_⟩
        cases k with
        | zero => exact hprefix'
        | succ k => exact hfirst k (Nat.lt_of_succ_lt_succ hk)
      · rintro ⟨hle, hat, hfirst⟩
        cases n with
        | zero => exact absurd hat hprefix'
        | succ n =>
          exact ⟨n, ih.mpr ⟨Nat.le_of_succ_le_succ hle, hat, fun k hk => hfirst (k + 1) (Nat.succ_lt_succ hk)⟩, rfl⟩

theorem find_eq_none : find pat s = none ↔ ∀ n ≤ s.length, ¬ pat <+: s.drop n := by
  constructor
  · intro h n hle hprefix
    -- the first position at which it begins
    have hex : ∃ n, n ≤ s.length ∧ pat <+: s.drop n := ⟨n, hle, hprefix⟩
    have hsome := find_eq_some.mpr ⟨(Nat.find_spec hex).1, (Nat.find_spec hex).2, fun k hk hk' =>
      Nat.find_min hex hk ⟨Nat.le_trans (Nat.le_of_lt hk) (Nat.find_spec hex).1, hk'⟩⟩
    rw [h] at hsome
    cases hsome
  · intro h
    cases hfind : find pat s with
    | none => rfl
    | some n =>
      obtain ⟨hle, hprefix, -⟩ := find_eq_some.mp hfind
      exact absurd hprefix (h n hle)

theorem splitFrom_append (skipped s : List α) : splitFrom pat skipped.length (skipped ++ s) = splitFrom pat 0 s := by
  induction skipped with
  | nil => rfl
  | cons c skipped ih => exact ih

/-- Nothing is split before the first character of the pattern. -/
theorem split_of_notMem (h : c ∉ part) : split (c :: pat) part = [part] := by
  induction part with
  | nil => rfl
  | cons d part ih =>
    obtain ⟨hne, hnot⟩ := not_or.mp (fun h' => h (List.mem_cons.mpr h'))
    have hprefix : ¬ (c :: pat).isPrefixOf (d :: part) = true := by simp [hne]
    rw [split, splitFrom, if_neg hprefix, ← split, ih hnot]

theorem split_append (h : c ∉ part) (rest : List α) :
    split (c :: pat) (part ++ (c :: pat ++ rest)) = part :: split (c :: pat) rest := by
  induction part with
  | nil =>
    have hprefix : (c :: pat).isPrefixOf (c :: (pat ++ rest)) = true :=
      List.isPrefixOf_iff_prefix.mpr (List.prefix_append (c :: pat) rest)
    rw [List.nil_append, List.cons_append, split, splitFrom, if_pos hprefix, List.length_cons,
      Nat.add_sub_cancel, splitFrom_append, ← split]
  | cons d part ih =>
    obtain ⟨hne, hnot⟩ := not_or.mp (fun h' => h (List.mem_cons.mpr h'))
    have hprefix : ¬ (c :: pat).isPrefixOf (d :: (part ++ (c :: pat ++ rest))) = true := by simp [hne]
    rw [List.cons_append, split, splitFrom, if_neg hprefix, ← split, ih hnot]

omit [DecidableEq α] in
/-- A word without the first character of what is behind a text begins the text if it begins both. -/
theorem prefix_of_prefix_append {w : List α} (h : w <+: front ++ c :: back) (hc : c ∉ w) : w <+: front := by
  rcases Nat.lt_or_ge front.length w.length with hlt | hle
  · have hlonger : front ++ [c] <+: front ++ c :: back := ⟨back, by simp⟩
    have hprefix := List.prefix_of_prefix_length_le hlonger h (by rw [List.length_append, List.length_singleton]; omega)
    exact absurd ( hprefix.subset (List.mem_append_right _ (List.mem_singleton_self c))) hc
  · exact List.prefix_of_prefix_length_le h (List.prefix_append _ _) hle

omit [DecidableEq α] in
theorem suffix_of_suffix_append {w : List α} (h : w <:+ front ++ c :: back) (hc : c ∉ w) : w <:+ back := by
  rw [← List.reverse_prefix] at h ⊢
  rw [List.reverse_append, List.reverse_cons, List.append_assoc, List.singleton_append] at h
  exact prefix_of_prefix_append h fun hmem => hc (List.mem_reverse.mp hmem)

omit [DecidableEq α] in
/-- Two texts that are cut at the first occurrence of a character. -/
theorem append_cons_inj {p q p' q' : List α} (hp : c ∉ p) (hp' : c ∉ p') :
    p ++ c :: q = p' ++ c :: q' ↔ p = p' ∧ q = q' := by
  constructor
  · intro h
    have hprefix : p <+: p' := prefix_of_prefix_append ⟨c :: q, h⟩ hp
    have hprefix' : p' <+: p := prefix_of_prefix_append ⟨c :: q', h.symm⟩ hp'
    obtain rfl : p = p' := hprefix.eq_of_length_le hprefix'.length_le
    exact ⟨rfl, List.tail_eq_of_cons_eq (List.append_cancel_left h)⟩
  · rintro ⟨rfl, rfl⟩
    rfl

omit [DecidableEq α] in
/-- A character is not found in a text that does not have it, so it is found behind. -/
theorem exists_of_append_eq {p q r : List α} (hp : c ∉ p) (h : p ++ q = r ++ c :: s) :
    ∃ r', r = p ++ r' ∧ q = r' ++ c :: s := by
  rcases List.append_eq_append_iff.mp h with ⟨m, hr, hq⟩ | ⟨m, rfl, hm⟩
  · exact ⟨m, hr, hq⟩
  · cases m with
    | nil => exact ⟨[], by simp, by simpa using hm.symm⟩
    | cons d m =>
      obtain ⟨rfl, -⟩ := List.cons.inj hm
      exact absurd (by simp) hp

/-- A pattern that does not overlap itself is found where it is put, if it is not in the text before. -/
theorem find_append (hc : c ∉ pat) (h : find (c :: pat) front = none) (rest : List α) :
    find (c :: pat) (front ++ (c :: pat ++ rest)) = some front.length := by
  induction front with
  | nil =>
    have hprefix : (c :: pat).isPrefixOf (c :: (pat ++ rest)) = true :=
      List.isPrefixOf_iff_prefix.mpr (List.prefix_append (c :: pat) rest)
    rw [List.nil_append, List.cons_append, find, if_pos hprefix]
    rfl
  | cons d front ih =>
    rw [find] at h
    split at h
    · cases h
    · next hprefix =>
      have hprefix' : ¬ (c :: pat).isPrefixOf (d :: (front ++ (c :: pat ++ rest))) = true := by
        intro h'
        obtain ⟨rfl, hpat⟩ := List.cons_prefix_cons.mp (List.isPrefixOf_iff_prefix.mp h')
        have hfront := prefix_of_prefix_append hpat hc
        exact hprefix (List.isPrefixOf_iff_prefix.mpr (List.cons_prefix_cons.mpr ⟨rfl, hfront⟩))
      rw [List.cons_append, find, if_neg hprefix', ih (Option.map_eq_none_iff.mp h)]
      rfl

/-- What begins at no position of a text begins none of its infixes. -/
theorem not_prefix_of_find_eq_none {mid : List α} (h : find pat s = none) (hs : s = front ++ (mid ++ back)) :
    ¬ pat <+: mid := by
  intro hprefix
  refine find_eq_none.mp h front.length ?_ ?_
  · rw [hs, List.length_append]
    exact Nat.le_add_right _ _
  · rw [hs, List.drop_left]
    exact hprefix.trans (List.prefix_append _ _)

omit [DecidableEq α] in
/-- Where a part stands that separators join: at the beginning or behind one of them. -/
theorem mem_intercalate {sep : α} {parts : List (List α)} (h : part ∈ parts) :
    ∃ front back, List.intercalate [sep] parts = front ++ (part ++ back) ∧
      (front = [] ∨ front.getLast? = some sep) := by
  induction parts with
  | nil => cases h
  | cons first parts ih =>
    rcases List.mem_cons.mp h with rfl | h
    · cases parts with
      | nil => exact ⟨[], [], by simp, .inl rfl⟩
      | cons next parts => exact ⟨[], [sep] ++ List.intercalate [sep] (next :: parts), by simp, .inl rfl⟩
    · obtain ⟨front, back, hjoin, hfront⟩ := ih h
      refine ⟨first ++ sep :: front, back, ?_, .inr ?_⟩
      · rw [List.intercalate_cons_of_ne_nil (List.ne_nil_of_mem h), hjoin]
        simp
      · rcases hfront with rfl | hlast
        · simp
        · rw [List.getLast?_append, List.getLast?_cons, hlast]
          rfl

end Patterns
