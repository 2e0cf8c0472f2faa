import Mathlib.Data.List.Induction
import Mathlib.Tactic.Common

/-!
# Counting votes

The votes are counted in the order in which they come, and the first that no other has more of is taken.
`mostFrequent_spec` says what is taken of the votes, `mostFrequent_cons` that the first voter decides a tie.
-/

variable {α : Type*} [DecidableEq α]

namespace Tally

/-- One more vote. -/
def add : List (α × ℕ) → α → List (α × ℕ)
  | [], x => [(x, 1)]
  | (y, n) :: counts, x => if y = x then (y, n + 1) :: counts else (y, n) :: add counts x

def count (votes : List α) : List (α × ℕ) := votes.foldl add []

def maxCount (counts : List (α × ℕ)) : ℕ := (counts.map (·.2)).foldl max 0

def mostFrequent (votes : List α) : Option α :=
  ((count votes).find? fun c => c.2 == maxCount (count votes)).map (·.1)

/-- The counts are those of the votes. -/
structure Counts (votes : List α) (counts : List (α × ℕ)) : Prop where
  nodup : (counts.map (·.1)).Nodup
  mem_iff : ∀ x n, (x, n) ∈ counts ↔ x ∈ votes ∧ n = votes.count x

variable {votes : List α} {counts : List (α × ℕ)} {x y : α} {n : ℕ}

theorem mem_keys_add : y ∈ (add counts x).map (·.1) ↔ y ∈ counts.map (·.1) ∨ y = x := by
  induction counts with
  | nil => simp [add]
  | cons c counts ih =>
    rw [add]
    split
    · next heq =>
      simp only [List.map_cons, List.mem_cons]
      constructor
      · exact .inl
      · rintro (h | rfl)
        · exact h
        · exact .inl heq.symm
    · simp only [List.map_cons, List.mem_cons]
      rw [ih, or_assoc]

theorem nodup_add (h : (counts.map (·.1)).Nodup) : ((add counts x).map (·.1)).Nodup := by
  induction counts with
  | nil => exact List.nodup_cons.mpr ⟨List.not_mem_nil, List.nodup_nil⟩
  | cons c counts ih =>
    rw [List.map_cons, List.nodup_cons] at h
    rw [add]
    split
    · exact List.nodup_cons.mpr h
    · next hne =>
      refine List.nodup_cons.mpr ⟨fun hmem => ?_, ih h.2⟩
      rcases mem_keys_add.mp hmem with hmem | heq
      · exact h.1 hmem
      · exact hne heq

/-- What one more vote for `x` makes of the counts. -/
theorem mem_add (h : (counts.map (·.1)).Nodup) : (y, n) ∈ add counts x ↔
      y ≠ x ∧ (y, n) ∈ counts ∨ y = x ∧ ((∃ m, (x, m) ∈ counts ∧ n = m + 1) ∨ x ∉ counts.map (·.1) ∧ n = 1) := by
  induction counts with
  | nil => simp [add]
  | cons c counts ih =>
    obtain ⟨z, m⟩ := c
    rw [List.map_cons, List.nodup_cons] at h
    have hnot : ∀ k, (z, k) ∉ counts := fun k hmem => h.1 (List.mem_map.mpr ⟨(z, k), hmem, rfl⟩)
    rw [add]
    split
    · next heq =>
      subst heq
      by_cases hy : y = z
      · subst hy
        simp [hnot]
      · simp [hy]
    · next hne =>
      rw [List.mem_cons, ih h.2]
      by_cases hy : y = x
      · subst hy
        simp [Ne.symm hne]
      · simp [hy]

theorem Counts.add (h : Counts votes counts) (x : α) : Counts (votes ++ [x]) (add counts x) where
  nodup := nodup_add h.nodup
  mem_iff y n := by
    have hkeys : x ∈ counts.map (·.1) ↔ x ∈ votes := by
      constructor
      · intro hmem
        obtain ⟨⟨z, m⟩, hc, rfl⟩ := List.mem_map.mp hmem
        exact ((h.mem_iff z m).mp hc).1
      · exact fun hmem => List.mem_map.mpr ⟨_, (h.mem_iff x _).mpr ⟨hmem, rfl⟩, rfl⟩
    rw [mem_add h.nodup, List.count_append, List.mem_append, List.mem_singleton, hkeys]
    by_cases hy : y = x
    · subst hy
      simp only [ne_eq, not_true, false_and, false_or, true_and, or_true, List.count_singleton_self, h.mem_iff]
      constructor
      · rintro (⟨m, ⟨-, rfl⟩, rfl⟩ | ⟨hmem, rfl⟩)
        · rfl
        · rw [List.count_eq_zero_of_not_mem hmem]
      · rintro rfl
        by_cases hmem : y ∈ votes
        · exact .inl ⟨_, ⟨hmem, rfl⟩, rfl⟩
        · exact .inr ⟨hmem, by rw [List.count_eq_zero_of_not_mem hmem]⟩
    · have hzero : [x].count y = 0 := List.count_eq_zero_of_not_mem (by simpa using hy)
      simp only [ne_eq, hy, not_false_iff, true_and, false_and, or_false, h.mem_iff, hzero, Nat.add_zero]

theorem counts_count (votes : List α) : Counts votes (count votes) := by
  induction votes using List.reverseRecOn with
  | nil => exact ⟨List.nodup_nil, fun x n => by simp [count]⟩
  | append_singleton votes x ih =>
    rw [count, List.foldl_append]
    exact ih.add x

omit [DecidableEq α] in
theorem le_maxCount (h : (x, n) ∈ counts) : n ≤ maxCount counts := by
  have hall : ∀ (l : List ℕ) (m : ℕ), m ≤ l.foldl max m ∧ ∀ k ∈ l, k ≤ l.foldl max m := by
    intro l
    induction l with
    | nil => exact fun m => ⟨Nat.le_refl m, List.forall_mem_nil _⟩
    | cons k l ih =>
      intro m
      obtain ⟨hmax, hl⟩ := ih (max m k)
      rw [List.foldl_cons, List.forall_mem_cons]
      exact ⟨Nat.le_trans (Nat.le_max_left m k) hmax, Nat.le_trans (Nat.le_max_right m k) hmax, hl⟩
  exact (hall (counts.map (·.2)) 0).2 n (List.mem_map_of_mem h)

omit [DecidableEq α] in
theorem exists_maxCount (h : counts ≠ []) : ∃ c ∈ counts, c.2 = maxCount counts := by
  have hall : ∀ (l : List ℕ) (m : ℕ), l.foldl max m = m ∨ l.foldl max m ∈ l := by
    intro l
    induction l with
    | nil => exact fun m => .inl rfl
    | cons k l ih =>
      intro m
      rw [List.foldl_cons, List.mem_cons]
      rcases ih (max m k) with heq | hmem
      · rw [heq]
        rcases Nat.le_total m k with hle | hle
        · exact .inr (.inl (Nat.max_eq_right hle))
        · exact .inl (Nat.max_eq_left hle)
      · exact .inr (.inr hmem)
  rcases hall (counts.map (·.2)) 0 with hzero | hmem
  · cases counts with
    | nil => exact absurd rfl h
    | cons c counts =>
      have hle : c.2 ≤ maxCount (c :: counts) := le_maxCount (x := c.1) List.mem_cons_self
      have hmax : maxCount (c :: counts) = 0 := hzero
      exact ⟨c, List.mem_cons_self, by omega⟩
  · obtain ⟨c, hc, heq⟩ := List.mem_map.mp hmem
    exact ⟨c, hc, heq⟩

/-- **What is taken has the most votes**, if there are any. -/
theorem mostFrequent_spec (votes : List α) : (mostFrequent votes = none ∧ votes = []) ∨
      ∃ x ∈ votes, mostFrequent votes = some x ∧ ∀ y, votes.count y ≤ votes.count x := by
  have hcounts := counts_count votes
  by_cases hnil : votes = []
  · subst hnil
    exact .inl ⟨rfl, rfl⟩
  · have hne : count votes ≠ [] := by
      intro hempty
      obtain ⟨x, hx⟩ := List.exists_mem_of_ne_nil votes hnil
      have hmem := (hcounts.mem_iff x _).mpr ⟨hx, rfl⟩
      rw [hempty] at hmem
      cases hmem
    obtain ⟨c, hc, hmax⟩ := exists_maxCount hne
    cases hfind : (count votes).find? fun c => c.2 == maxCount (count votes) with
    | none => exact absurd (beq_iff_eq.mpr hmax) (List.find?_eq_none.mp hfind c hc)
    | some d =>
      obtain ⟨hd, hcount⟩ := (hcounts.mem_iff d.1 d.2).mp (List.mem_of_find?_eq_some hfind)
      have hdmax : d.2 = maxCount (count votes) := by
        have htrue := List.find?_some hfind
        exact beq_iff_eq.mp htrue
      refine .inr ⟨d.1, hd, by rw [mostFrequent, hfind]; rfl, fun y => ?_⟩
      by_cases hy : y ∈ votes
      · rw [← hcount, hdmax]
        exact le_maxCount ((hcounts.mem_iff y _).mpr ⟨hy, rfl⟩)
      · rw [List.count_eq_zero_of_not_mem hy]
        exact Nat.zero_le _

/-- The first key stays the first. -/
theorem head_foldl_add (votes : List α) (n : ℕ) (counts : List (α × ℕ)) :
    ∃ m rest, votes.foldl add ((x, n) :: counts) = (x, m) :: rest := by
  induction votes generalizing n counts with
  | nil => exact ⟨n, counts, rfl⟩
  | cons y votes ih =>
    rw [List.foldl_cons, add]
    split <;> exact ih _ _

/-- **The first voter decides a tie.** -/
theorem mostFrequent_cons (hmost : ∀ y, (x :: votes).count y ≤ (x :: votes).count x) :
    mostFrequent (x :: votes) = some x := by
  have hcounts := counts_count (x :: votes)
  obtain ⟨m, rest, hhead⟩ : ∃ m rest, count (x :: votes) = (x, m) :: rest := head_foldl_add votes 1 []
  obtain ⟨c, hc, hmax⟩ := exists_maxCount (show count (x :: votes) ≠ [] by rw [hhead]; exact List.cons_ne_nil _ _)
  have hmem : (x, m) ∈ count (x :: votes) := by
    rw [hhead]
    exact List.mem_cons_self
  have hle := le_maxCount hmem
  have hm := ((hcounts.mem_iff x m).mp hmem).2
  have hcount := ((hcounts.mem_iff c.1 c.2).mp hc).2
  have hge := hmost c.1
  have heq : m = maxCount (count (x :: votes)) := by omega
  rw [mostFrequent, hhead, List.find?_cons_of_pos]
  · rfl
  · rw [← hhead, ← heq]
    exact beq_self_eq_true m

end Tally
