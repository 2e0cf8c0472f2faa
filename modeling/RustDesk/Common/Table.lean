import Mathlib.Data.List.Find
import Mathlib.Data.List.Nodup
import Mathlib.Tactic.Common

/-!
# Tables

A table of rows with their ids, as a database keeps it. The rows stand in the order of the ids, so that the
first of them is the one that `ORDER BY id LIMIT 1` selects, and an id is given once. `insert`, `update` and
`delete` are the statements that write, `first`, `count` and `select` those that read.
-/

/-- A table. `next` is the id of the next row. -/
structure Table (R : Type*) where
  rows : List (ℕ × R)
  next : ℕ
  sorted : rows.Pairwise (·.1 < ·.1)
  given : ∀ r ∈ rows, r.1 < next

namespace Table

variable {R : Type*} {id : ℕ} {t' : Table R}

/-- A table without rows. Ids are given from 1 on. -/
def empty : Table R := ⟨[], 1, .nil, by simp⟩

variable (t : Table R)

def insert (x : R) : Table R where
  rows := t.rows ++ [(t.next, x)]
  next := t.next + 1
  sorted := by
    refine List.pairwise_append.mpr ⟨t.sorted, List.pairwise_singleton _ _, fun r hr r' hr' => ?_⟩
    rw [List.mem_singleton.mp hr']
    exact t.given r hr
  given := by
    intro r hr
    rcases List.mem_append.mp hr with hr | hr
    · exact Nat.lt_succ_of_lt (t.given r hr)
    · rw [List.mem_singleton.mp hr]
      exact Nat.lt_succ_self _

/-- What an update leaves of a row. -/
def updateRow (p : ℕ × R → Bool) (f : R → R) (r : ℕ × R) : ℕ × R := if p r then (r.1, f r.2) else r

@[simp]
theorem updateRow_fst (p : ℕ × R → Bool) (f : R → R) (r : ℕ × R) : (updateRow p f r).1 = r.1 := by
  unfold updateRow
  split <;> rfl

def update (p : ℕ × R → Bool) (f : R → R) : Table R where
  rows := t.rows.map (updateRow p f)
  next := t.next
  sorted := by
    rw [List.pairwise_map]
    simpa using t.sorted
  given := by
    intro r hr
    obtain ⟨r', hr', rfl⟩ := List.mem_map.mp hr
    rw [updateRow_fst]
    exact t.given r' hr'

def delete (p : ℕ × R → Bool) : Table R where
  rows := t.rows.filter fun r => !p r
  next := t.next
  sorted := t.sorted.filter _
  given := fun r hr => t.given r (List.mem_filter.mp hr).1

/-- The id that an insertion with an id of one's own uses. 0 asks for the next. -/
def idFor (id : ℕ) : ℕ := if id = 0 then t.next else id

/-- The table with this row and no other of its id. -/
def place (id : ℕ) (x : R) : Table R where
  rows := t.rows.filter (fun r => r.1 < id) ++ (id, x) :: t.rows.filter fun r => id < r.1
  next := max t.next (id + 1)
  sorted := by
    refine List.pairwise_append.mpr ⟨t.sorted.filter _, ?_, fun r hr r' hr' => ?_⟩
    · refine List.pairwise_cons.mpr ⟨fun r hr => ?_, t.sorted.filter _⟩
      simpa using (List.mem_filter.mp hr).2
    · have hlt : r.1 < id := by simpa using (List.mem_filter.mp hr).2
      rcases List.mem_cons.mp hr' with rfl | hr'
      · exact hlt
      · exact Nat.lt_trans hlt (by simpa using (List.mem_filter.mp hr').2)
  given := by
    intro r hr
    rcases List.mem_append.mp hr with hr | hr
    · exact Nat.lt_of_lt_of_le (t.given r (List.mem_filter.mp hr).1) (Nat.le_max_left _ _)
    · rcases List.mem_cons.mp hr with rfl | hr
      · exact Nat.lt_of_lt_of_le (Nat.lt_succ_self _) (Nat.le_max_right _ _)
      · exact Nat.lt_of_lt_of_le (t.given r (List.mem_filter.mp hr).1) (Nat.le_max_left _ _)

/-- Insert with an id of one's own, which has to be free. -/
def insertAs (id : ℕ) (x : R) : Option (Table R) :=
  if t.rows.any fun r => r.1 = t.idFor id then none else some (t.place (t.idFor id) x)

def first (p : ℕ × R → Bool) : Option (ℕ × R) := t.rows.find? p

def count (p : ℕ × R → Bool) : ℕ := t.rows.countP p

def select (p : ℕ × R → Bool) : List (ℕ × R) := t.rows.filter p

variable {t} {p q : ℕ × R → Bool} {f : R → R} {x : R} {r r' : ℕ × R}

/-! ## Rows -/

theorem nodup_ids (t : Table R) : (t.rows.map (·.1)).Nodup :=
  List.pairwise_map.mpr (t.sorted.imp Nat.ne_of_lt)

theorem eq_of_id (hr : r ∈ t.rows) (hr' : r' ∈ t.rows) (hid : r.1 = r'.1) : r = r' :=
  List.inj_on_of_nodup_map t.nodup_ids hr hr' hid

theorem mem_insert : r ∈ (t.insert x).rows ↔ r ∈ t.rows ∨ r = (t.next, x) := by
  rw [insert, List.mem_append, List.mem_singleton]

theorem mem_update : r ∈ (t.update p f).rows ↔ ∃ r' ∈ t.rows, updateRow p f r' = r := List.mem_map

theorem mem_update_of_mem (hr : r ∈ t.rows) : updateRow p f r ∈ (t.update p f).rows :=
  mem_update.mpr ⟨r, hr, rfl⟩

theorem mem_of_first (h : t.first p = some r) : r ∈ t.rows := List.mem_of_find?_eq_some h

theorem first_sat (h : t.first p = some r) : p r = true := List.find?_some h

theorem first_isSome : (t.first p).isSome ↔ ∃ r ∈ t.rows, p r := List.find?_isSome

/-- The row with an id is the first one with it. -/
theorem first_id (hr : r ∈ t.rows) : (t.first fun r' => r'.1 = r.1) = some r := by
  have hsome : (t.first fun r' => r'.1 = r.1).isSome := first_isSome.mpr ⟨r, hr, decide_eq_true rfl⟩
  obtain ⟨r', hr'⟩ := Option.isSome_iff_exists.mp hsome
  have hid : r'.1 = r.1 := by simpa using first_sat hr'
  rw [hr', eq_of_id (mem_of_first hr') hr hid]

/-- An update that does not change what is asked for. -/
theorem first_update (h : ∀ r ∈ t.rows, p r → q (r.1, f r.2) = q r) :
    (t.update p f).first q = (t.first q).map (updateRow p f) := by
  have hsame : t.rows.find? (q ∘ updateRow p f) = t.rows.find? q := by
    refine List.find?_congr fun r hr => ?_
    rw [Function.comp_apply, updateRow]
    split
    · next hp => exact h r hr hp
    · rfl
  rw [first, first, update, List.find?_map, hsame]

theorem mem_select : r ∈ t.select p ↔ r ∈ t.rows ∧ p r = true := List.mem_filter

theorem mem_delete : r ∈ (t.delete p).rows ↔ r ∈ t.rows ∧ ¬ p r = true := by
  rw [delete, List.mem_filter, Bool.not_eq_true', Bool.not_eq_true]

theorem mem_place : r ∈ (t.place id x).rows ↔ (r ∈ t.rows ∧ r.1 ≠ id) ∨ r = (id, x) := by
  simp only [place, List.mem_append, List.mem_cons, List.mem_filter, decide_eq_true_eq]
  constructor
  · rintro (⟨hr, hlt⟩ | rfl | ⟨hr, hlt⟩)
    · exact .inl ⟨hr, Nat.ne_of_lt hlt⟩
    · exact .inr rfl
    · exact .inl ⟨hr, Nat.ne_of_gt hlt⟩
  · rintro (⟨hr, hne⟩ | rfl)
    · rcases Nat.lt_or_gt_of_ne hne with hlt | hlt
      · exact .inl ⟨hr, hlt⟩
      · exact .inr (.inr ⟨hr, hlt⟩)
    · exact .inr (.inl rfl)

/-- What an insertion with an id of one's own adds. -/
theorem insertAs_eq (h : t.insertAs id x = some t') :
    (∀ r ∈ t.rows, r.1 ≠ t.idFor id) ∧ t' = t.place (t.idFor id) x := by
  unfold insertAs at h
  split at h
  · cases h
  · next hfree =>
    refine ⟨fun r hr hid => hfree ?_, (Option.some.inj h).symm⟩
    exact List.any_eq_true.mpr ⟨r, hr, by simpa using hid⟩

theorem mem_insertAs (h : t.insertAs id x = some t') : r ∈ t'.rows ↔ r ∈ t.rows ∨ r = (t.idFor id, x) := by
  obtain ⟨hfree, rfl⟩ := insertAs_eq h
  rw [mem_place]
  constructor
  · exact Or.imp_left And.left
  · exact Or.imp_left fun hr => ⟨hr, hfree r hr⟩

/-- An insertion that asks for the next id. -/
theorem insertAs_zero (t : Table R) (x : R) :
    ∃ t', t.insertAs 0 x = some t' ∧ t'.rows = t.rows ++ [(t.next, x)] ∧ t.next ≤ t'.next := by
  have hfree : ¬ (t.rows.any fun r => r.1 = t.next) = true := by
    rw [List.any_eq_true]
    rintro ⟨r, hr, hid⟩
    exact Nat.ne_of_lt (t.given r hr) (of_decide_eq_true hid)
  refine ⟨t.place t.next x, if_neg hfree, ?_, Nat.le_max_left _ _⟩
  have hlt : t.rows.filter (fun r => r.1 < t.next) = t.rows :=
    List.filter_eq_self.mpr fun r hr => decide_eq_true (t.given r hr)
  have hgt : t.rows.filter (fun r => t.next < r.1) = [] :=
    List.filter_eq_nil_iff.mpr fun r hr => by simpa using Nat.le_of_lt (t.given r hr)
  show t.rows.filter (fun r => r.1 < t.next) ++ (t.next, x) :: t.rows.filter (fun r => t.next < r.1) = _
  rw [hlt, hgt]

/-- An update that writes what is there. -/
theorem update_eq_self (h : ∀ r ∈ t.rows, p r → f r.2 = r.2) : t.update p f = t := by
  have hrows : t.rows.map (updateRow p f) = t.rows := by
    refine (List.map_congr_left fun r hr => ?_).trans (List.map_id _)
    rw [updateRow]
    split
    · next hp => rw [h r hr hp, id]
    · rfl
  obtain ⟨rows, next, sorted, given⟩ := t
  exact (mk.injEq ..).mpr ⟨hrows, rfl⟩

theorem delete_eq_self (h : ∀ r ∈ t.rows, ¬ p r = true) : t.delete p = t := by
  have hrows : t.rows.filter (fun r => !p r) = t.rows :=
    List.filter_eq_self.mpr fun r hr => by simpa using h r hr
  obtain ⟨rows, next, sorted, given⟩ := t
  exact (mk.injEq ..).mpr ⟨hrows, rfl⟩

theorem delete_congr (h : ∀ r ∈ t.rows, p r = q r) : t.delete p = t.delete q := by
  have hrows : t.rows.filter (fun r => !p r) = t.rows.filter fun r => !q r :=
    List.filter_congr fun r hr => by rw [h r hr]
  exact (mk.injEq ..).mpr ⟨hrows, rfl⟩

/-- Two deletions leave the same only if they concern the same rows. -/
theorem eq_of_delete_eq (h : t.delete p = t.delete q) (hr : r ∈ t.rows) : p r = q r := by
  have hiff : r ∈ (t.delete p).rows ↔ r ∈ (t.delete q).rows := by rw [h]
  rw [mem_delete, mem_delete, and_iff_right hr, and_iff_right hr, not_iff_not] at hiff
  exact Bool.eq_iff_iff.mpr hiff

theorem delete_delete : (t.delete p).delete q = t.delete fun r => p r || q r := by
  have hrows : (t.rows.filter fun r => !p r).filter (fun r => !q r) = t.rows.filter fun r => !(p r || q r) := by
    rw [List.filter_filter]
    exact List.filter_congr fun r _ => by rw [Bool.not_or, Bool.and_comm]
  exact (mk.injEq ..).mpr ⟨hrows, rfl⟩

/-! ## What a statement leaves of a selection -/

theorem select_insertAs (h : t.insertAs id x = some t')
    (hq : ¬ q (t.idFor id, x) = true) : t'.select q = t.select q := by
  obtain ⟨hfree, rfl⟩ := insertAs_eq h
  have hrows : ∀ l : List (ℕ × R), l.Pairwise (·.1 < ·.1) → (∀ r ∈ l, r.1 ≠ t.idFor id) →
      l.filter (fun r => r.1 < t.idFor id) ++ l.filter (fun r => t.idFor id < r.1) = l := by
    intro l hl hne
    induction l with
    | nil => rfl
    | cons r l ih =>
      obtain ⟨hhead, htail⟩ := List.pairwise_cons.mp hl
      rw [List.forall_mem_cons] at hne
      rcases Nat.lt_or_gt_of_ne hne.1 with hlt | hgt
      · simp [hlt, Nat.not_lt_of_gt hlt, ih htail hne.2]
      · have hnone : l.filter (fun r => r.1 < t.idFor id) = [] := by
          refine List.filter_eq_nil_iff.mpr fun r' hr' => ?_
          simpa using Nat.le_of_lt (Nat.lt_trans hgt (hhead r' hr'))
        have hall : l.filter (fun r => t.idFor id < r.1) = l := by
          refine List.filter_eq_self.mpr fun r' hr' => ?_
          simpa using Nat.lt_trans hgt (hhead r' hr')
        simp [hgt, Nat.not_lt_of_gt hgt, hnone, hall]
  show (List.filter q (_ ++ _ :: _) : List (ℕ × R)) = List.filter q t.rows
  conv_rhs => rw [← hrows t.rows t.sorted hfree]
  rw [List.filter_append, List.filter_append, List.filter_cons_of_neg hq]

theorem select_update (h : ∀ r ∈ t.rows, p r → ¬ q r = true ∧ ¬ q (r.1, f r.2) = true) :
    (t.update p f).select q = t.select q := by
  show (t.rows.map (updateRow p f)).filter q = t.rows.filter q
  revert h
  generalize t.rows = rows
  intro h
  induction rows with
  | nil => rfl
  | cons r rows ih =>
    rw [List.forall_mem_cons] at h
    rw [List.map_cons, List.filter_cons, List.filter_cons, ih h.2]
    by_cases hp : p r = true
    · obtain ⟨hbefore, hafter⟩ := h.1 hp
      simp [updateRow, hp, hbefore, hafter]
    · simp [updateRow, hp]

theorem select_delete (h : ∀ r ∈ t.rows, p r → ¬ q r = true) : (t.delete p).select q = t.select q := by
  unfold select delete
  rw [List.filter_filter]
  refine List.filter_congr fun r hr => ?_
  by_cases hp : p r = true
  · simp [hp, h r hr hp]
  · simp [hp]

/-- An update that does not change what is selected. -/
theorem select_update_map (h : ∀ r ∈ t.rows, p r → q (r.1, f r.2) = q r) :
    (t.update p f).select q = (t.select q).map (updateRow p f) := by
  have hrow : ∀ r ∈ t.rows, q (updateRow p f r) = q r := by
    intro r hr
    unfold updateRow
    split
    · next hp => exact h r hr hp
    · rfl
  show (t.rows.map (updateRow p f)).filter q = (t.rows.filter q).map (updateRow p f)
  rw [List.filter_map]
  exact congrArg _ (List.filter_congr hrow)

theorem select_delete_filter : (t.delete p).select q = (t.select q).filter fun r => !p r := by
  unfold select delete
  rw [List.filter_filter, List.filter_filter]
  exact List.filter_congr fun r _ => Bool.and_comm ..

/-! ## Counts -/

theorem count_update : (t.update p f).count q = t.count (q ∘ updateRow p f) := List.countP_map

theorem count_mono (h : ∀ r ∈ t.rows, p r → q r) : t.count p ≤ t.count q := List.countP_mono_left h

end Table
