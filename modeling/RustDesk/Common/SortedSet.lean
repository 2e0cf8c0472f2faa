import Mathlib.Data.List.Sort
import Mathlib.Data.Prod.Lex
import Mathlib.Data.Int.Order.Basic

/-!
# Sorted sets

A set of members with a score each, in the order of the scores and, for equal scores, of the members,
as key-value stores keep them. A member is inserted or moved by `zadd`, and the lowest are taken by
`zpopmin`.
-/

/-- A sorted set: its entries in order, no member twice. -/
structure SortedSet (α : Type*) [LinearOrder α] where
  entries : List (ℤ ×ₗ α)
  sorted : entries.Pairwise (· ≤ ·)
  nodup : (entries.map fun e => (ofLex e).2).Nodup

namespace SortedSet

variable {α : Type*} [LinearOrder α] {n : ℕ} {e : ℤ ×ₗ α}

/-- The member of an entry. -/
def member (e : ℤ ×ₗ α) : α := (ofLex e).2

@[ext] theorem ext {s t : SortedSet α} (h : s.entries = t.entries) : s = t := by
  cases s
  cases t
  cases h
  rfl

instance : DecidableEq (SortedSet α) := fun _ _ => decidable_of_iff _ SortedSet.ext_iff.symm

def empty : SortedSet α := ⟨[], .nil, .nil⟩

def members (s : SortedSet α) : List α := s.entries.map member

/-- The number of members. -/
def zcard (s : SortedSet α) : ℕ := s.entries.length

/-- The entries of the other members. -/
def others (s : SortedSet α) (m : α) : List (ℤ ×ₗ α) := s.entries.filter fun e => member e ≠ m

theorem member_notMem_others (s : SortedSet α) (m : α) : m ∉ (s.others m).map member := by simp [others]

theorem sorted_others (s : SortedSet α) (m : α) : (s.others m).Pairwise (· ≤ ·) := s.sorted.filter _

theorem nodup_others (s : SortedSet α) (m : α) : ((s.others m).map member).Nodup :=
  s.nodup.sublist (List.filter_sublist.map _)

/-- Insert a member, or give it a new score. -/
def zadd (s : SortedSet α) (m : α) (score : ℤ) : SortedSet α where
  entries := (s.others m).orderedInsert (· ≤ ·) (toLex (score, m))
  sorted := (s.sorted_others m).orderedInsert _ _
  nodup := by
    have hperm := (List.perm_orderedInsert (· ≤ ·) (toLex (score, m)) (s.others m)).map member
    refine hperm.nodup_iff.mpr ?_
    rw [List.map_cons]
    exact List.nodup_cons.mpr ⟨s.member_notMem_others m, s.nodup_others m⟩

/-- Take the `n` lowest. -/
def zpopmin (s : SortedSet α) (n : ℕ) : List α × SortedSet α :=
  ((s.entries.take n).map member, {
    entries := s.entries.drop n
    sorted := s.sorted.sublist (List.drop_sublist _ _)
    nodup := s.nodup.sublist ((List.drop_sublist _ _).map _) })

theorem zpopmin_fst (s : SortedSet α) (n : ℕ) : (s.zpopmin n).1 = (s.entries.take n).map member := rfl

/-! ## Where a member goes -/

/-- How many of the other members are lower than a member with a score. -/
def rank (s : SortedSet α) (m : α) (score : ℤ) : ℕ := (s.others m).countP (· < toLex (score, m))

theorem length_takeWhile_eq_countP {β : Type*} [LinearOrder β] {l : List β}
    (hl : l.Pairwise (· ≤ ·)) (x : β) : (l.takeWhile fun b => ¬ x ≤ b).length = l.countP (· < x) := by
  induction l with
  | nil => rfl
  | cons b l ih =>
    rw [List.pairwise_cons] at hl
    by_cases hb : x ≤ b
    · have hall : ∀ c ∈ l, ¬ c < x := fun c hc => not_lt.mpr (hb.trans (hl.1 c hc))
      have hzero : l.countP (· < x) = 0 := List.countP_eq_zero.mpr (by simpa using hall)
      simp [hzero, not_lt.mpr hb]
    · have hlt : b < x := not_le.mp hb
      simpa [hlt] using ih hl.2

/-- A member is inserted behind those that are lower. -/
theorem zadd_entries (s : SortedSet α) (m : α) (score : ℤ) :
    ∃ lower higher, s.others m = lower ++ higher ∧ lower.length = s.rank m score ∧
      (s.zadd m score).entries = lower ++ toLex (score, m) :: higher := by
  refine ⟨_, _, (@List.takeWhile_append_dropWhile _ (fun b => ¬ toLex (score, m) ≤ b) _).symm,
    length_takeWhile_eq_countP (s.sorted_others m) _, ?_⟩
  exact List.orderedInsert_eq_take_drop _ _ _

variable {s : SortedSet α} {m : α} {score : ℤ}

theorem others_of_notMem (h : m ∉ s.members) : s.others m = s.entries := by
  refine List.filter_eq_self.mpr fun e he => ?_
  have hne : member e ≠ m := by
    rintro rfl
    exact h (List.mem_map.mpr ⟨e, he, rfl⟩)
  simpa using hne

theorem zcard_zadd (s : SortedSet α) (m : α) (score : ℤ) : (s.zadd m score).zcard = (s.others m).length + 1 :=
  List.orderedInsert_length _ _ _

/-- The set is its other members with the member's own entry. -/
theorem entries_perm (h : toLex (score, m) ∈ s.entries) : s.entries.Perm (toLex (score, m) :: s.others m) := by
  have hmember : ∀ e ∈ s.entries, member e = m → e = toLex (score, m) := fun e he hm =>
    List.inj_on_of_nodup_map s.nodup he h hm
  obtain ⟨before, after, hsplit⟩ := List.append_of_mem h
  have hnodup : ((before ++ toLex (score, m) :: after).map member).Nodup := hsplit ▸ s.nodup
  have hnot : ∀ e ∈ before ++ after, member e ≠ m := by
    intro e he hm
    have hperm : (before ++ toLex (score, m) :: after).Perm (toLex (score, m) :: (before ++ after)) :=
      List.perm_middle
    have hcons := (hperm.map member).nodup_iff.mp hnodup
    rw [List.map_cons, List.nodup_cons] at hcons
    exact hcons.1 (List.mem_map.mpr ⟨e, he, hm⟩)
  have hothers : s.others m = before ++ after := by
    have hself : (before ++ after).filter (fun e => member e ≠ m) = before ++ after :=
      List.filter_eq_self.mpr fun e he => by simpa using hnot e he
    have hhead : member (toLex (score, m)) = m := rfl
    rw [others, hsplit, List.filter_append, List.filter_cons_of_neg (by simp [hhead]), ← List.filter_append, hself]
  rw [hothers, hsplit]
  exact List.perm_middle

theorem length_others_of_mem (h : m ∈ s.members) : (s.others m).length + 1 = s.zcard := by
  obtain ⟨e, he, rfl⟩ := List.mem_map.mp h
  have hperm : s.entries.Perm (toLex ((ofLex e).1, member e) :: s.others (member e)) := entries_perm he
  simpa [zcard] using hperm.length_eq.symm

theorem zadd_eq_self_iff : s.zadd m score = s ↔ toLex (score, m) ∈ s.entries := by
  constructor
  · intro h
    rw [← h]
    exact (List.mem_orderedInsert _).mpr (.inl rfl)
  · intro h
    apply SortedSet.ext
    have hperm : (s.zadd m score).entries.Perm s.entries :=
      (List.perm_orderedInsert _ _ _).trans (entries_perm h).symm
    exact hperm.eq_of_pairwise' (s.zadd m score).sorted s.sorted

/-- The member is among the `n` lowest if fewer than `n` others are lower. -/
theorem mem_zpopmin_zadd : m ∈ ((s.zadd m score).zpopmin n).1 ↔ s.rank m score < n := by
  obtain ⟨lower, higher, hothers, hlength, hentries⟩ := s.zadd_entries m score
  have hnot : m ∉ lower.map member := fun h =>
    s.member_notMem_others m (by rw [hothers, List.map_append]; exact List.mem_append_left _ h)
  rw [← hlength]
  constructor
  · intro hmem
    by_contra hle
    rw [zpopmin_fst, hentries, List.take_append_of_le_length (not_lt.mp hle)] at hmem
    exact hnot (List.map_subset _ (List.take_subset _ _) hmem)
  · intro hlt
    obtain ⟨k, rfl⟩ : ∃ k, n = lower.length + (k + 1) := ⟨n - lower.length - 1, by omega⟩
    rw [zpopmin_fst, hentries, List.take_length_add_append, List.take_succ_cons, List.map_append]
    exact List.mem_append_right _ List.mem_cons_self

/-- Inserting a member and taking the `n` lowest leaves the set as it was only if the entry was there
and none is taken, or a new lowest member is the only one taken. -/
theorem zpopmin_zadd_eq_iff : ((s.zadd m score).zpopmin n).2 = s ↔ n = 0 ∧ toLex (score, m) ∈ s.entries ∨
        m ∉ s.members ∧ (n = 1 ∧ s.rank m score = 0 ∨ s.zcard = 0 ∧ 1 ≤ n) := by
  have hlen : ((s.zadd m score).zpopmin n).2.zcard = (s.zadd m score).zcard - n := by simp [zpopmin, zcard]
  rw [zcard_zadd] at hlen
  by_cases hn : n = 0
  · subst hn
    have hzero : ((s.zadd m score).zpopmin 0).2 = s.zadd m score := SortedSet.ext (by simp [zpopmin])
    rw [hzero, zadd_eq_self_iff]
    constructor
    · exact fun h => .inl ⟨rfl, h⟩
    · rintro (⟨-, h⟩ | ⟨-, ⟨h, -⟩ | ⟨-, h⟩⟩)
      · exact h
      · cases h
      · cases h
  by_cases hm : m ∈ s.members
  · -- the set is smaller than before
    have hothers := length_others_of_mem hm
    constructor
    · intro h
      rw [h] at hlen
      omega
    · rintro (⟨h, -⟩ | ⟨h, -⟩)
      · exact absurd h hn
      · exact absurd hm h
  · have hothers := others_of_notMem hm
    obtain ⟨lower, higher, hsplit, hlength, hentries⟩ := s.zadd_entries m score
    have hdrop : ((s.zadd m score).zpopmin n).2.entries =
        (lower ++ toLex (score, m) :: higher).drop n := congrArg _ hentries
    constructor
    · intro h
      refine .inr ⟨hm, ?_⟩
      rw [h, hothers] at hlen
      by_cases hzero : s.zcard = 0
      · exact .inr ⟨hzero, Nat.pos_of_ne_zero hn⟩
      · have hone : n = 1 := by
          have hcard : s.entries.length = s.zcard := rfl
          omega
        refine .inl ⟨hone, ?_⟩
        rw [← hlength]
        cases lower with
        | nil => rfl
        | cons e lower =>
          -- the member would be left
          rw [h, hone] at hdrop
          have hmem : toLex (score, m) ∈ s.entries := by simp [hdrop]
          exact absurd (List.mem_map.mpr ⟨_, hmem, rfl⟩) hm
    · rintro (⟨h, -⟩ | ⟨-, ⟨rfl, hrank⟩ | ⟨hzero, hpos⟩⟩)
      · exact absurd h hn
      · obtain rfl := List.eq_nil_of_length_eq_zero (hlength.trans hrank)
        apply SortedSet.ext
        rw [hdrop, ← hothers, hsplit]
        rfl
      · have hnil : s.entries = [] := List.eq_nil_of_length_eq_zero hzero
        obtain ⟨rfl, rfl⟩ : lower = [] ∧ higher = [] := by
          rw [hothers, hnil] at hsplit
          exact List.append_eq_nil_iff.mp hsplit.symm
        apply SortedSet.ext
        rw [hdrop, hnil]
        exact List.drop_eq_nil_of_le hpos

/-! ## What is taken and what is left -/

theorem mem_entries_zadd : e ∈ (s.zadd m score).entries ↔ e = toLex (score, m) ∨ e ∈ s.entries ∧ member e ≠ m := by
  have hmem : e ∈ s.others m ↔ e ∈ s.entries ∧ member e ≠ m := by simp [others]
  rw [← hmem]
  exact List.mem_orderedInsert _

theorem mem_members_zadd {x : α} : x ∈ (s.zadd m score).members ↔ x = m ∨ x ∈ s.members := by
  constructor
  · intro hx
    obtain ⟨e, he, rfl⟩ := List.mem_map.mp hx
    rcases mem_entries_zadd.mp he with rfl | ⟨he, -⟩
    · exact .inl rfl
    · exact .inr (List.mem_map.mpr ⟨e, he, rfl⟩)
  · intro hx
    by_cases hxm : x = m
    · subst hxm
      exact List.mem_map.mpr ⟨_, mem_entries_zadd.mpr (.inl rfl), rfl⟩
    · obtain ⟨e, he, rfl⟩ := List.mem_map.mp (hx.resolve_left hxm)
      exact List.mem_map.mpr ⟨e, mem_entries_zadd.mpr (.inr ⟨he, hxm⟩), rfl⟩

theorem zcard_zpopmin (s : SortedSet α) (n : ℕ) : (s.zpopmin n).2.zcard = s.zcard - n := List.length_drop

theorem mem_entries_of_zpopmin (he : e ∈ (s.zpopmin n).2.entries) : e ∈ s.entries := List.mem_of_mem_drop he

/-- A member is left just if it is not taken. -/
theorem mem_members_zpopmin {x : α} (hx : x ∈ s.members) : x ∈ (s.zpopmin n).2.members ↔ x ∉ (s.zpopmin n).1 := by
  have hsplit : (s.zpopmin n).1 ++ (s.zpopmin n).2.members = s.members := by
    rw [zpopmin_fst, members, ← List.map_append]
    exact congrArg _ (List.take_append_drop n s.entries)
  have hnodup : ((s.zpopmin n).1 ++ (s.zpopmin n).2.members).Nodup := hsplit ▸ s.nodup
  constructor
  · intro hleft htaken
    exact (List.nodup_append.mp hnodup).2.2 x htaken x hleft rfl
  · intro hnot
    rw [← hsplit, List.mem_append] at hx
    exact hx.resolve_left hnot

/-- What is taken is lower than what is left. -/
theorem lt_of_zpopmin {k : ℤ ×ₗ α} (he : e ∈ s.entries)
    (hgone : member e ∉ (s.zpopmin n).2.members) (hk : k ∈ (s.zpopmin n).2.entries) : e < k := by
  have hsplit : s.entries.take n ++ (s.zpopmin n).2.entries = s.entries := List.take_append_drop n s.entries
  have htaken : e ∈ s.entries.take n := by
    rw [← hsplit, List.mem_append] at he
    refine he.resolve_right fun hleft => hgone ?_
    exact List.mem_map.mpr ⟨e, hleft, rfl⟩
  have hsorted : (s.entries.take n ++ (s.zpopmin n).2.entries).Pairwise (· ≤ ·) := by
    rw [hsplit]
    exact s.sorted
  have hle : e ≤ k := (List.pairwise_append.mp hsorted).2.2 e htaken k hk
  refine lt_of_le_of_ne hle ?_
  rintro rfl
  exact hgone (List.mem_map.mpr ⟨e, hk, rfl⟩)

end SortedSet
