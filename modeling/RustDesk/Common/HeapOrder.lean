import Mathlib.Logic.Equiv.Basic
import Mathlib.Order.Lattice
import Mathlib.Tactic.Common

/-!
# Binary heaps over a swap

A heap is anything with slots that have keys and can be swapped. `up` and `down` move one slot to where
it belongs, and whatever a swap keeps, they keep (`fixAt_keeps`). `fixAt` is both: it repairs a heap with
one slot that is out of order in either direction.
-/

/-- Slots with keys, and what a swap does to them. -/
structure Slots (σ κ : Type*) where
  len : σ → ℕ
  key : σ → ℕ → κ
  swap : σ → ℕ → ℕ → σ
  len_swap : ∀ s i j, len (swap s i j) = len s
  key_swap : ∀ s i j, i < len s → j < len s → ∀ l, key (swap s i j) l = key s (Equiv.swap i j l)

namespace Slots

variable {σ κ : Type*} [LinearOrder κ] {P : σ → Prop}

def parent (i : ℕ) : ℕ := (i - 1) / 2

/-- The first `n` slots are in heap order. -/
def Ordered (k : ℕ → κ) (n : ℕ) : Prop := ∀ c, 0 < c → c < n → k (parent c) ≤ k c

/-- In heap order but for the slot `i`, which may be replaced by anything between its neighbours. -/
structure OrderedBut (k : ℕ → κ) (n i : ℕ) : Prop where
  others : ∀ c, 0 < c → c < n → c ≠ i → parent c ≠ i → k (parent c) ≤ k c
  between : 0 < i → ∀ c, 0 < c → c < n → parent c = i → k (parent i) ≤ k c

/-- The slot `i` is not above its children. -/
def Below (k : ℕ → κ) (n i : ℕ) : Prop := ∀ c, 0 < c → c < n → parent c = i → k i ≤ k c

variable (H : Slots σ κ)

/-- Move a slot up while its key is smaller than its parent's. -/
def upLoop : ℕ → σ → ℕ → σ
  | 0, s, _ => s
  | fuel + 1, s, j =>
    let i := parent j
    if i = j ∨ ¬ H.key s j < H.key s i then s
    else upLoop fuel (H.swap s i j) i

def up (s : σ) (j : ℕ) : σ := H.upLoop j s j

/-- The child with the smaller key, the left one if they are equal. -/
def minChild (s : σ) (i n : ℕ) : ℕ :=
  let j₁ := 2 * i + 1
  if j₁ + 1 < n ∧ H.key s (j₁ + 1) < H.key s j₁ then j₁ + 1 else j₁

/-- Move a slot down while a child has a smaller key: the result, and where the slot went. -/
def downLoop : ℕ → σ → ℕ → ℕ → σ × ℕ
  | 0, s, i, _ => (s, i)
  | fuel + 1, s, i, n =>
    if n ≤ 2 * i + 1 then (s, i)
    else
      let j := H.minChild s i n
      if H.key s j < H.key s i then downLoop fuel (H.swap s i j) j n else (s, i)

/-- `down`, and whether anything moved. -/
def down (s : σ) (i n : ℕ) : σ × Bool :=
  let (s', i') := H.downLoop n s i n
  (s', decide (i < i'))

/-- Down, or else up. -/
def fixAt (s : σ) (i n : ℕ) : σ :=
  let (s', moved) := H.down s i n
  if moved then s' else H.up s' i

/-! ## What a swap keeps -/

theorem parent_lt {i : ℕ} (h : 0 < i) : parent i < i := by
  unfold parent
  omega

theorem minChild_cases (s : σ) (i n : ℕ) :
    H.minChild s i n = 2 * i + 1 ∨ H.minChild s i n = 2 * i + 2 ∧ 2 * i + 2 < n := by
  unfold minChild
  dsimp only
  split
  · next h => exact .inr ⟨rfl, h.1⟩
  · exact .inl rfl

theorem minChild_bounds {s : σ} {i n : ℕ} (h : 2 * i + 1 < n) :
    i < H.minChild s i n ∧ H.minChild s i n < n ∧ parent (H.minChild s i n) = i := by
  unfold parent
  rcases H.minChild_cases s i n with hj | ⟨hj, hlt⟩ <;> rw [hj] <;> omega

variable {H}

section

variable {n : ℕ} (hswap : ∀ s i j, i < n → j < n → P s → P (H.swap s i j))
include hswap

theorem upLoop_keeps {fuel : ℕ} {s : σ} {j : ℕ} (hj : j < n) (hs : P s) : P (H.upLoop fuel s j) := by
  induction fuel generalizing s j with
  | zero => exact hs
  | succ fuel ih =>
    rw [upLoop]
    split
    · exact hs
    · have hpar : parent j < n := Nat.lt_of_le_of_lt (by unfold parent; omega) hj
      exact ih hpar (hswap s _ j hpar hj hs)

theorem downLoop_keeps {fuel : ℕ} {s : σ} {i : ℕ} (hs : P s) : P (H.downLoop fuel s i n).1 := by
  induction fuel generalizing s i with
  | zero => exact hs
  | succ fuel ih =>
    rw [downLoop]
    split
    · exact hs
    · dsimp only
      split
      · obtain ⟨hlt, hjn, -⟩ := H.minChild_bounds (s := s) (i := i) (n := n) (by omega)
        exact ih (hswap s i _ (by omega) hjn hs)
      · exact hs

/-- **What a swap below `n` keeps, `fixAt` keeps.** -/
theorem fixAt_keeps {s : σ} {i : ℕ} (hi : i < n) (hs : P s) : P (H.fixAt s i n) := by
  unfold fixAt down
  dsimp only
  split
  · exact downLoop_keeps hswap hs
  · exact upLoop_keeps hswap hi (downLoop_keeps hswap hs)

/-- What a swap below `n` keeps, `up` keeps. -/
theorem up_keeps {s : σ} {j : ℕ} (hj : j < n) (hs : P s) : P (H.up s j) :=
  upLoop_keeps hswap hj hs

end

/-! ## Order -/

section Order

variable {k k' : ℕ → κ} {n i j : ℕ}

theorem OrderedBut.ordered (h : OrderedBut k n i) (hbelow : Below k n i)
    (habove : 0 < i → k (parent i) ≤ k i) : Ordered k n := by
  intro c hc hcn
  by_cases hci : c = i
  · subst hci
    exact habove hc
  · by_cases hpar : parent c = i
    · rw [hpar]
      exact hbelow c hc hcn hpar
    · exact h.others c hc hcn hci hpar

theorem Ordered.orderedBut (h : Ordered k n) (hi : i < n) (hsame : ∀ l, l < n → l ≠ i → k' l = k l) :
    OrderedBut k' n i where
  others := by
    intro c hc hcn hci hpar
    have hlt := parent_lt hc
    rw [hsame c hcn hci, hsame _ (by omega) hpar]
    exact h c hc hcn
  between := by
    intro hi0 c hc hcn hpar
    have hlt := parent_lt hc
    have hlti := parent_lt hi0
    rw [hsame c hcn (by omega), hsame _ (by omega) (by omega)]
    exact (h i hi0 hi).trans (hpar ▸ h c hc hcn)

theorem Ordered.mono {m : ℕ} (h : Ordered k n) (hm : m ≤ n) (hsame : ∀ l, l < m → k' l = k l) : Ordered k' m := by
  intro c hc hcm
  have hpar := parent_lt hc
  rw [hsame c hcm, hsame _ (by omega)]
  exact h c hc (by omega)

/-- Anything may stand in a new last slot. -/
theorem Ordered.orderedBut_last (h : Ordered k n) (hsame : ∀ l, l < n → k' l = k l) :
    OrderedBut k' (n + 1) n ∧ Below k' (n + 1) n := by
  refine ⟨⟨fun c hc hcn hne _ => h.mono (Nat.le_refl n) hsame c hc (by omega), ?_⟩, ?_⟩
  · intro _ c hc hcn hpar
    have := parent_lt hc
    omega
  · intro c hc hcn hpar
    have := parent_lt hc
    omega

/-- One step up. -/
theorem OrderedBut.step_up (h : OrderedBut k n j) (hj0 : 0 < j) (hj : j < n)
    (hlt : k j < k (parent j)) (hk' : ∀ l, k' l = k (Equiv.swap (parent j) j l)) :
    OrderedBut k' n (parent j) ∧ Below k' n (parent j) := by
  have hpar := parent_lt hj0
  have hk'j : k' j = k (parent j) := by rw [hk', Equiv.swap_apply_right]
  have hk'p : k' (parent j) = k j := by rw [hk', Equiv.swap_apply_left]
  have hsame : ∀ l, l ≠ j → l ≠ parent j → k' l = k l := by
    intro l hlj hlp
    rw [hk', Equiv.swap_apply_of_ne_of_ne hlp hlj]
  refine ⟨⟨fun c hc hcn hcp hparc => ?_, fun hp0 c hc hcn hparc => ?_⟩, fun c hc hcn hparc => ?_⟩
  · by_cases hcj : c = j
    · exact absurd (hcj ▸ rfl) hparc
    · rw [hsame c hcj hcp]
      by_cases hpj : parent c = j
      · rw [hpj, hk'j]
        exact h.between hj0 c hc hcn hpj
      · rw [hsame _ hpj hparc]
        exact h.others c hc hcn hcj hpj
  · have hpp := parent_lt hp0
    have hgrand : k (parent (parent j)) ≤ k (parent j) :=
      h.others (parent j) hp0 (by omega) (by omega) (by omega)
    rw [hsame _ (by omega) (by omega)]
    by_cases hcj : c = j
    · rw [hcj, hk'j]
      exact hgrand
    · have hcp : c ≠ parent j := by
        have := parent_lt hc
        omega
      rw [hsame c hcj hcp]
      exact hgrand.trans (hparc ▸ h.others c hc hcn hcj (by omega))
  · rw [hk'p]
    by_cases hcj : c = j
    · rw [hcj, hk'j]
      exact hlt.le
    · have hcp : c ≠ parent j := by
        have := parent_lt hc
        omega
      rw [hsame c hcj hcp]
      exact hlt.le.trans (hparc ▸ h.others c hc hcn hcj (by omega))

/-- One step down, to a child with the smallest key. -/
theorem OrderedBut.step_down (h : OrderedBut k n i) (hj0 : 0 < j) (hj : j < n) (hpar : parent j = i)
    (hmin : ∀ c, 0 < c → c < n → parent c = i → k j ≤ k c) (hlt : k j < k i)
    (hk' : ∀ l, k' l = k (Equiv.swap i j l)) :
    OrderedBut k' n j ∧ k' (parent j) ≤ k' j := by
  have hij : i < j := hpar ▸ parent_lt hj0
  have hk'j : k' j = k i := by rw [hk', Equiv.swap_apply_right]
  have hk'i : k' i = k j := by rw [hk', Equiv.swap_apply_left]
  have hsame : ∀ l, l ≠ i → l ≠ j → k' l = k l := by
    intro l hli hlj
    rw [hk', Equiv.swap_apply_of_ne_of_ne hli hlj]
  refine ⟨⟨fun c hc hcn hcj hparc => ?_, fun _ c hc hcn hparc => ?_⟩, ?_⟩
  · by_cases hci : c = i
    · have hpi : parent c ≠ i := by
        have := parent_lt hc
        omega
      rw [hsame _ hpi hparc, hci, hk'i]
      exact h.between (hci ▸ hc) j hj0 hj hpar
    · rw [hsame c hci hcj]
      by_cases hpi : parent c = i
      · rw [hpi, hk'i]
        exact hmin c hc hcn hpi
      · rw [hsame _ hpi hparc]
        exact h.others c hc hcn hci hpi
  · have hcj : c ≠ j := by
      have := parent_lt hc
      omega
    have hci : c ≠ i := by
      have := parent_lt hc
      omega
    rw [hpar, hk'i, hsame c hci hcj]
    exact hparc ▸ h.others c hc hcn hci (by omega)
  · rw [hpar, hk'i, hk'j]
    exact hlt.le

end Order

variable {s : σ} {n i j fuel : ℕ}

theorem key_minChild_le {c : ℕ} (hc : 0 < c) (hcn : c < n) (hpar : parent c = i) :
    H.key s (H.minChild s i n) ≤ H.key s c := by
  have hcases : c = 2 * i + 1 ∨ c = 2 * i + 2 := by
    unfold parent at hpar
    omega
  unfold minChild
  dsimp only
  split
  · next h =>
    rcases hcases with rfl | rfl
    · exact h.2.le
    · exact le_rfl
  · next h =>
    rcases hcases with rfl | rfl
    · exact le_rfl
    · exact not_lt.mp fun hlt => h ⟨hcn, hlt⟩

section

variable (hn : n ≤ H.len s)
include hn

theorem upLoop_ordered (hj : j < n) (hfuel : j ≤ fuel)
    (h : OrderedBut (H.key s) n j) (hbelow : Below (H.key s) n j) :
    Ordered (H.key (H.upLoop fuel s j)) n := by
  induction fuel generalizing s j with
  | zero =>
    obtain rfl : j = 0 := by omega
    exact h.ordered hbelow fun h0 => absurd h0 (Nat.lt_irrefl 0)
  | succ fuel ih =>
    rw [upLoop]
    split
    · next hstop =>
      refine h.ordered hbelow fun hj0 => ?_
      exact not_lt.mp (hstop.resolve_left (Nat.ne_of_lt (parent_lt hj0)))
    · next hgo =>
      obtain ⟨hne, hlt⟩ : parent j ≠ j ∧ H.key s j < H.key s (parent j) := by
        simpa only [not_or, not_not] using hgo
      have hj0 : 0 < j := Nat.pos_of_ne_zero fun h0 => hne (by rw [h0]; rfl)
      have hpar := parent_lt hj0
      obtain ⟨hbut, hbelow'⟩ := h.step_up hj0 hj hlt (H.key_swap s (parent j) j (by omega) (by omega))
      exact ih (by rwa [H.len_swap]) (by omega) (by omega) hbut hbelow'

/-- **Sifting up** ends in heap order. -/
theorem up_ordered (hj : j < n) (h : OrderedBut (H.key s) n j)
    (hbelow : Below (H.key s) n j) : Ordered (H.key (H.up s j)) n :=
  upLoop_ordered hn hj (Nat.le_refl j) h hbelow

/-- Sifting down ends where the slot is not above its children. If it went anywhere, it is not below its
parent either. -/
theorem downLoop_spec (hi : i < n) (hfuel : n ≤ fuel + i) (h : OrderedBut (H.key s) n i) :
    ∃ s' i', H.downLoop fuel s i n = (s', i') ∧ OrderedBut (H.key s') n i' ∧ Below (H.key s') n i' ∧
      (s' = s ∧ i' = i ∨ i < i' ∧ H.key s' (parent i') ≤ H.key s' i') := by
  induction fuel generalizing s i with
  | zero => omega
  | succ fuel ih =>
    rw [downLoop]
    split
    · next hleaf =>
      refine ⟨s, i, rfl, h, fun c hc hcn hpar => ?_, .inl ⟨rfl, rfl⟩⟩
      unfold parent at hpar
      omega
    · next hinner =>
      have hmin : ∀ c, 0 < c → c < n → parent c = i → H.key s (H.minChild s i n) ≤ H.key s c :=
        fun c hc hcn hpar => key_minChild_le hc hcn hpar
      obtain ⟨hij, hjn, hpar⟩ := H.minChild_bounds (s := s) (by omega : 2 * i + 1 < n)
      dsimp only
      split
      · next hlt =>
        obtain ⟨hbut, habove⟩ := h.step_down (Nat.zero_lt_of_lt hij) hjn hpar hmin hlt
          (H.key_swap s i (H.minChild s i n) (by omega) (by omega))
        obtain ⟨s', i', heq, hbut', hbelow', hwent⟩ := ih (by rwa [H.len_swap]) hjn (by omega) hbut
        refine ⟨s', i', heq, hbut', hbelow', .inr ?_⟩
        rcases hwent with ⟨rfl, rfl⟩ | ⟨hmore, habove'⟩
        · exact ⟨hij, habove⟩
        · exact ⟨Nat.lt_trans hij hmore, habove'⟩
      · next hnot =>
        refine ⟨s, i, rfl, h, fun c hc hcn hpar' => ?_, .inl ⟨rfl, rfl⟩⟩
        exact (not_lt.mp hnot).trans (hmin c hc hcn hpar')

/-- **`fixAt` repairs a heap** with one slot out of order. -/
theorem fixAt_ordered (hi : i < n) (h : OrderedBut (H.key s) n i) : Ordered (H.key (H.fixAt s i n)) n := by
  obtain ⟨s', i', heq, hbut, hbelow, hwent⟩ := downLoop_spec hn hi (Nat.le_add_right n i) h
  unfold fixAt down
  rw [heq]
  dsimp only
  rcases hwent with ⟨rfl, rfl⟩ | ⟨hlt, habove⟩
  · rw [if_neg (by simp)]
    exact up_ordered hn hi hbut hbelow
  · rw [if_pos (by simpa using hlt)]
    exact hbut.ordered hbelow fun _ => habove

end

end Slots
