import Mathlib.Data.Int.Order.Basic
import Mathlib.Data.List.Nodup
import RustDesk.Common.HeapOrder

/-!
# The expiry queue of the memory cache

Reference: `rustdesk-api/lib/cache/memory.go` (`PriorityQueue`).

`PriorityQueue` is the `heap.Interface` of the cache: pointers to cache items, ordered by expiration,
each item knowing its own place. `heapPush`, `heapFix` and `heapRemove` are those of
`container/heap` on it. An item's `Index` is kept with the queue, which is all that writes it. The
expirations are the cache's.
-/

namespace RustDesk.Api

/-- The address of an item or of a list element. -/
abbrev Ptr := ℕ

/-- The queue, and the `Index` of the items. -/
structure PriorityQueue where
  items : List Ptr
  index : Ptr → ℤ

namespace PriorityQueue

variable (expiration : Ptr → ℤ) (q : PriorityQueue) {i j : ℕ}

/-- `Swap`. -/
def swap (i j : ℕ) : PriorityQueue :=
  match q.items[i]?, q.items[j]? with
  | some p, some p' =>
    { items := (q.items.set i p').set j p
      index := Function.update (Function.update q.index p' i) p j }
  | _, _ => q

/-- `Push`. -/
def push (p : Ptr) : PriorityQueue where
  items := q.items ++ [p]
  index := Function.update q.index p q.items.length

/-- `Pop`, which forgets the place of the item. -/
def pop : PriorityQueue :=
  match q.items.getLast? with
  | some p => { items := q.items.dropLast, index := Function.update q.index p (-1) }
  | none => q

/-- The expiration of the item in a slot. -/
def key (i : ℕ) : ℤ := (q.items[i]?.map expiration).getD 0

@[simp] theorem swap_length (i j : ℕ) : (q.swap i j).items.length = q.items.length := by
  unfold swap
  split <;> simp

theorem swap_getElem? (hi : i < q.items.length) (hj : j < q.items.length) (l : ℕ) :
    (q.swap i j).items[l]? = q.items[Equiv.swap i j l]? := by
  unfold swap
  rw [List.getElem?_eq_getElem hi, List.getElem?_eq_getElem hj]
  show ((q.items.set i q.items[j]).set j q.items[i])[l]? = _
  rw [List.getElem?_set, List.getElem?_set, List.length_set]
  by_cases hlj : j = l
  · rw [if_pos hlj, if_pos (hlj ▸ hj), ← hlj, Equiv.swap_apply_right, List.getElem?_eq_getElem hi]
  · rw [if_neg hlj]
    by_cases hli : i = l
    · rw [if_pos hli, if_pos (hli ▸ hi), ← hli, Equiv.swap_apply_left, List.getElem?_eq_getElem hj]
    · rw [if_neg hli, Equiv.swap_apply_of_ne_of_ne (Ne.symm hli) (Ne.symm hlj)]

/-- The queue as a heap: `Len`, `Less` and `Swap`. -/
def slots : Slots PriorityQueue ℤ where
  len := fun q => q.items.length
  key := fun q => q.key expiration
  swap := swap
  len_swap := swap_length
  key_swap := by
    intro q i j hi hj l
    unfold key
    rw [q.swap_getElem? hi hj]

/-- `heap.Push`. -/
def heapPush (p : Ptr) : PriorityQueue :=
  (slots expiration).up (q.push p) q.items.length

/-- `heap.Fix`. At `-1` it does nothing, at any other place outside the queue it panics. -/
def heapFix (i : ℤ) : Option PriorityQueue :=
  if i = -1 then some q
  else if 0 ≤ i ∧ i < q.items.length then
    some ((slots expiration).fixAt q i.toNat q.items.length)
  else none

/-- `heap.Remove`, which panics outside the queue. -/
def heapRemove (i : ℤ) : Option PriorityQueue :=
  if 0 ≤ i ∧ i < q.items.length then
    let n := q.items.length - 1
    let i := i.toNat
    some <| if n ≠ i then ((slots expiration).fixAt (q.swap i n) i n).pop else q.pop
  else none

/-! ## Places -/

/-- Every item's `Index` is its place. -/
def Indexed : Prop := ∀ (i : ℕ) (p : Ptr), q.items[i]? = some p → q.index p = i

/-- Every item knows its place, and the queue is a min-heap on the expirations. -/
structure Valid : Prop where
  indexed : q.Indexed
  ordered : Slots.Ordered (q.key expiration) q.items.length

variable {expiration q} {p : Ptr}

theorem Indexed.nodup (h : q.Indexed) : q.items.Nodup := by
  rw [List.nodup_iff_getElem?_ne_getElem?]
  intro i j hij hj heq
  have hget := List.getElem?_eq_getElem hj
  have hi := h i _ (heq.trans hget)
  have hj' := h j _ hget
  omega

theorem Indexed.getElem? (h : q.Indexed) (hp : p ∈ q.items) :
    ∃ i : ℕ, q.index p = i ∧ i < q.items.length ∧ q.items[i]? = some p := by
  obtain ⟨i, hi, rfl⟩ := List.getElem_of_mem hp
  have hget := List.getElem?_eq_getElem hi
  exact ⟨i, h i _ hget, hi, hget⟩

theorem swap_eq (hi : i < q.items.length) (hj : j < q.items.length) : q.swap i j =
      { items := (q.items.set i q.items[j]).set j q.items[i]
        index := Function.update (Function.update q.index q.items[j] i) q.items[i] j } := by
  unfold swap
  rw [List.getElem?_eq_getElem hi, List.getElem?_eq_getElem hj]

theorem swap_perm (hi : i < q.items.length) (hj : j < q.items.length) : (q.swap i j).items.Perm q.items := by
  rw [swap_eq hi hj]
  exact List.set_set_perm hi hj

theorem Indexed.swap (h : q.Indexed) (hi : i < q.items.length) (hj : j < q.items.length) : (q.swap i j).Indexed := by
  intro l p hl
  rw [swap_getElem? q hi hj] at hl
  have hindex := h _ p hl
  have hpi := h i _ (List.getElem?_eq_getElem hi)
  have hpj := h j _ (List.getElem?_eq_getElem hj)
  rw [swap_eq hi hj]
  show Function.update (Function.update q.index q.items[j] i) q.items[i] j p = l
  by_cases hp : p = q.items[i]
  · -- the item from `i`, now at `j`
    rw [hp, Function.update_self]
    have : Equiv.swap i j l = i := by
      rw [hp, hpi] at hindex
      omega
    rw [← Equiv.swap_apply_self i j l, this, Equiv.swap_apply_left]
  · rw [Function.update_of_ne hp]
    by_cases hp' : p = q.items[j]
    · rw [hp', Function.update_self]
      have : Equiv.swap i j l = j := by
        rw [hp', hpj] at hindex
        omega
      rw [← Equiv.swap_apply_self i j l, this, Equiv.swap_apply_right]
    · rw [Function.update_of_ne hp', hindex]
      have hli : Equiv.swap i j l ≠ i := fun heq => hp (by
        rw [heq, List.getElem?_eq_getElem hi] at hl
        exact (Option.some.inj hl).symm)
      have hlj : Equiv.swap i j l ≠ j := fun heq => hp' (by
        rw [heq, List.getElem?_eq_getElem hj] at hl
        exact (Option.some.inj hl).symm)
      rw [Equiv.swap_apply_of_ne_of_ne (a := i) (b := j) (fun h' => hlj (by rw [h', Equiv.swap_apply_left]))
        (fun h' => hli (by rw [h', Equiv.swap_apply_right]))]

/-- The same items, each at its place. -/
def Rearranged (q q' : PriorityQueue) : Prop := q'.Indexed ∧ q'.items.Perm q.items

theorem Rearranged.swap {q' : PriorityQueue} {n : ℕ} (hn : n ≤ q.items.length) (hi : i < n)
    (hj : j < n) (h : q.Rearranged q') : q.Rearranged (q'.swap i j) := by
  have hlen := h.2.length_eq
  exact ⟨h.1.swap (by omega) (by omega), (swap_perm (by omega) (by omega)).trans h.2⟩

/-! ## The heap operations -/

theorem Valid.congr {expiration' : Ptr → ℤ} (h : Valid expiration q)
    (hsame : ∀ p ∈ q.items, expiration' p = expiration p) : Valid expiration' q := by
  refine ⟨h.indexed, h.ordered.mono (Nat.le_refl _) fun l _ => ?_⟩
  unfold key
  cases hl : q.items[l]? with
  | none => rfl
  | some p => simp only [Option.map_some, hsame p (List.mem_of_getElem? hl)]

theorem Indexed.push (h : q.Indexed) (hp : p ∉ q.items) : (q.push p).Indexed := by
  intro i r hr
  show Function.update q.index p q.items.length r = i
  change (q.items ++ [p])[i]? = some r at hr
  by_cases hi : i < q.items.length
  · rw [List.getElem?_append_left hi] at hr
    have hrp : r ≠ p := fun heq => hp (by rw [← heq]; exact List.mem_of_getElem? hr)
    rw [Function.update_of_ne hrp]
    exact h i r hr
  · rw [List.getElem?_append_right (by omega)] at hr
    obtain ⟨hi', rfl⟩ : i - q.items.length = 0 ∧ p = r := by simpa [List.getElem?_singleton] using hr
    rw [Function.update_self]
    omega

/-- **Pushing.** -/
theorem Valid.heapPush (h : Valid expiration q) (hp : p ∉ q.items) :
    Valid expiration (q.heapPush expiration p) ∧ (q.heapPush expiration p).items.Perm (p :: q.items) := by
  have hlen : (q.push p).items.length = q.items.length + 1 := by simp [push]
  have hsame : ∀ l, l < q.items.length → (q.push p).key expiration l = q.key expiration l := by
    intro l hl
    unfold key push
    rw [List.getElem?_append_left hl]
  obtain ⟨hbut, hbelow⟩ := h.ordered.orderedBut_last hsame
  have hord := (slots expiration).up_ordered (s := q.push p) (Nat.le_of_eq hlen.symm) (Nat.lt_succ_self _) hbut hbelow
  obtain ⟨hindexed, hperm⟩ : (q.push p).Rearranged (q.heapPush expiration p) :=
    Slots.up_keeps (H := slots expiration) (n := (q.push p).items.length)
      (fun s i j hi hj hs => hs.swap (Nat.le_refl _) hi hj) (by omega)
      ⟨h.indexed.push hp, .refl _⟩
  have hlen' : (q.heapPush expiration p).items.length = q.items.length + 1 := hperm.length_eq.trans hlen
  exact ⟨⟨hindexed, hlen' ▸ hord⟩, hperm.trans (List.perm_append_singleton p q.items)⟩

/-- **Fixing** a queue after the expiration of one item changed. -/
theorem Valid.heapFix {expiration' : Ptr → ℤ} (h : Valid expiration q) (hp : p ∈ q.items)
    (hsame : ∀ p', p' ≠ p → expiration' p' = expiration p') :
    ∃ q', q.heapFix expiration' (q.index p) = some q' ∧ Valid expiration' q' ∧ q'.items.Perm q.items := by
  obtain ⟨i, hindex, hi, hget⟩ := h.indexed.getElem? hp
  have hkey : ∀ l, l ≠ i → q.key expiration' l = q.key expiration l := by
    intro l hl
    unfold key
    cases hl' : q.items[l]? with
    | none => rfl
    | some p' =>
      have hne : p' ≠ p := by
        rintro rfl
        have := h.indexed l p' hl'
        omega
      simp only [Option.map_some, Option.getD_some, hsame p' hne]
  have hord := (slots expiration').fixAt_ordered (s := q) (Nat.le_refl _) hi
    (h.ordered.orderedBut hi fun l _ => hkey l)
  obtain ⟨hindexed, hperm⟩ : q.Rearranged ((slots expiration').fixAt q i q.items.length) :=
    Slots.fixAt_keeps (fun s i j hi hj hs => hs.swap (Nat.le_refl _) hi hj) hi ⟨h.indexed, .refl _⟩
  refine ⟨_, ?_, ⟨hindexed, by rw [hperm.length_eq]; exact hord⟩, hperm⟩
  unfold PriorityQueue.heapFix
  rw [hindex, if_neg (by omega), if_pos (by omega), Int.toNat_natCast]

/-- Popping the last item. -/
theorem Indexed.pop (h : q.Indexed) (hlast : q.items.getLast? = some p)
    (hord : Slots.Ordered (q.key expiration) (q.items.length - 1)) :
    Valid expiration q.pop ∧ q.items.Perm (p :: q.pop.items) := by
  have hpop : q.pop = { items := q.items.dropLast, index := Function.update q.index p (-1) } := by
    unfold PriorityQueue.pop
    rw [hlast]
  have hsplit : q.items.dropLast ++ [p] = q.items := List.dropLast_append_getLast? p hlast
  have hget : ∀ l, l < q.items.length - 1 → q.pop.items[l]? = q.items[l]? := by
    intro l hl
    rw [hpop, List.getElem?_dropLast, if_pos hl]
  refine ⟨⟨fun i r hr => ?_, ?_⟩, ?_⟩
  · have hi : i < q.items.length - 1 := by
      have := (List.getElem?_eq_some_iff.mp hr).1
      rw [hpop, List.length_dropLast] at this
      exact this
    rw [hget i hi] at hr
    have hne : r ≠ p := by
      rintro rfl
      have hindex := h i r hr
      rw [List.getLast?_eq_getElem?] at hlast
      have := h _ r hlast
      omega
    rw [hpop]
    show Function.update q.index p (-1) r = i
    rw [Function.update_of_ne hne]
    exact h i r hr
  · have hlen : q.pop.items.length = q.items.length - 1 := by rw [hpop, List.length_dropLast]
    rw [hlen]
    refine hord.mono (Nat.le_refl _) fun l hl => ?_
    unfold key
    rw [hget l hl]
  · rw [hpop]
    exact (hsplit ▸ List.perm_append_singleton p _ :)

/-- **Removing** an item. -/
theorem Valid.heapRemove (h : Valid expiration q) (hp : p ∈ q.items) :
    ∃ q', q.heapRemove expiration (q.index p) = some q' ∧ Valid expiration q' ∧ q.items.Perm (p :: q'.items) := by
  obtain ⟨i, hindex, hi, hget⟩ := h.indexed.getElem? hp
  unfold PriorityQueue.heapRemove
  rw [hindex, if_pos (by omega), Int.toNat_natCast]
  have hn : q.items.length - 1 < q.items.length := by omega
  refine ⟨_, rfl, ?_⟩
  split
  · next hne =>
    have hin : i < q.items.length - 1 := by omega
    have hkey : ∀ l, l < q.items.length - 1 → l ≠ i →
        (q.swap i (q.items.length - 1)).key expiration l = q.key expiration l := by
      intro l hl hli
      unfold key
      rw [swap_getElem? q hi hn, Equiv.swap_apply_of_ne_of_ne hli (by omega)]
    have hbut := (h.ordered.mono (Nat.sub_le _ 1) fun _ _ => rfl).orderedBut hin hkey
    have hswapped : (q.swap i (q.items.length - 1)).items[q.items.length - 1]? = some p := by
      rw [swap_getElem? q hi hn, Equiv.swap_apply_right, hget]
    have hord := (slots expiration).fixAt_ordered (s := q.swap i (q.items.length - 1))
      (show _ ≤ (q.swap i _).items.length by rw [swap_length]; omega) hin hbut
    -- sifting stays below the last slot, where the item is
    obtain ⟨⟨hindexed, hperm⟩, hkept⟩ : q.Rearranged ((slots expiration).fixAt
          (q.swap i (q.items.length - 1)) i (q.items.length - 1)) ∧
        ((slots expiration).fixAt (q.swap i (q.items.length - 1)) i
          (q.items.length - 1)).items[q.items.length - 1]? = some p := by
      refine Slots.fixAt_keeps (P := fun q' => q.Rearranged q' ∧ q'.items[q.items.length - 1]? = some p)
        (fun q' i j hi hj h => ⟨h.1.swap (Nat.sub_le _ 1) hi hj, ?_⟩) hin
        ⟨⟨h.indexed.swap hi hn, swap_perm hi hn⟩, hswapped⟩
      have hlen := h.1.2.length_eq
      show (q'.swap i j).items[_]? = _
      rw [swap_getElem? q' (by omega) (by omega), Equiv.swap_apply_of_ne_of_ne (by omega) (by omega)]
      exact h.2
    have hlast : ((slots expiration).fixAt (q.swap i (q.items.length - 1)) i
        (q.items.length - 1)).items.getLast? = some p := by
      rw [List.getLast?_eq_getElem?, hperm.length_eq, hkept]
    obtain ⟨hvalid, hpop⟩ := hindexed.pop hlast (show Slots.Ordered (key expiration _) _ by
      rwa [hperm.length_eq])
    exact ⟨hvalid, hperm.symm.trans hpop⟩
  · next heq =>
    have hlast : q.items.getLast? = some p := by
      rw [List.getLast?_eq_getElem?, show q.items.length - 1 = i by omega, hget]
    exact h.indexed.pop hlast (h.ordered.mono (by omega) fun _ _ => rfl)

end PriorityQueue

end RustDesk.Api
