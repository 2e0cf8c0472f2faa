import Mathlib.Data.Nat.Bitwise
import Mathlib.Tactic.Common

/-!
# Bitmaps

A bitmap is a list of bytes whose bits are numbered from the highest one of the first byte on. `bit` reads one
and `setBit` sets one, and a loop over flags sets the bits of those that are up.
-/

namespace Bitmap

/-- The mask of a bit in its byte. -/
def mask (i : ℕ) : UInt8 := 1 <<< UInt8.ofNat (7 - i % 8)

/-- Whether a bit is set. A byte that is not there has none. -/
def bit (states : List UInt8) (i : ℕ) : Bool := states.getD (i / 8) 0 &&& mask i == mask i

def setBit (states : List UInt8) (i : ℕ) : List UInt8 := states.modify (i / 8) (· ||| mask i)

def zeroed (n : ℕ) : List UInt8 := List.replicate n 0

/-- The bits of the flags that are up are set one after the other, from the number `start` on. -/
def setAll (states : List UInt8) (start : ℕ) : List Bool → List UInt8
  | [] => states
  | flag :: flags => setAll (if flag then setBit states start else states) (start + 1) flags

@[simp] theorem length_setBit (states : List UInt8) (i : ℕ) : (setBit states i).length = states.length :=
  List.length_modify _ _ _

theorem length_setAll (states : List UInt8) (start : ℕ) (flags : List Bool) :
    (setAll states start flags).length = states.length := by
  induction flags generalizing states start with
  | nil => rfl
  | cons flag flags ih =>
    rw [setAll, ih]
    split
    · exact length_setBit _ _
    · rfl

theorem mask_mod (i : ℕ) : mask (i % 8) = mask i := by rw [mask, mask, Nat.mod_mod]

theorem mask_ne_zero (i : ℕ) : mask i ≠ 0 := by
  have hall : ∀ k : Fin 8, mask k ≠ 0 := by decide
  rw [← mask_mod]
  exact hall ⟨i % 8, Nat.mod_lt _ (by decide)⟩

/-- Two masks share a bit only if they are the same. -/
theorem mask_and_mask {i j : ℕ} (h : i % 8 ≠ j % 8) : mask i &&& mask j = 0 := by
  have hall : ∀ k l : Fin 8, k.val ≠ l.val → mask k &&& mask l = 0 := by decide
  rw [← mask_mod i, ← mask_mod j]
  exact hall ⟨i % 8, Nat.mod_lt _ (by decide)⟩ ⟨j % 8, Nat.mod_lt _ (by decide)⟩ h

/-- A bit of a byte after a mask has been put on it. -/
theorem and_mask_or (b : UInt8) (i j : ℕ) :
    ((b ||| mask i) &&& mask j == mask j) = ((b &&& mask j == mask j) || i % 8 == j % 8) := by
  have hdistrib : (b ||| mask i) &&& mask j = (b &&& mask j) ||| (mask i &&& mask j) :=
    UInt8.toBitVec_inj.mp BitVec.and_or_distrib_right
  by_cases h : i % 8 = j % 8
  · have hmask : mask i = mask j := by rw [← mask_mod i, h, mask_mod]
    have habsorb : (b &&& mask j) ||| mask j = mask j := by
      refine UInt8.toBitVec_inj.mp (BitVec.eq_of_getElem_eq fun k hk => ?_)
      simp
    rw [hdistrib, hmask, UInt8.and_self, habsorb, h, beq_self_eq_true, beq_self_eq_true, Bool.or_true]
  · rw [hdistrib, mask_and_mask h, UInt8.or_zero, beq_eq_false_iff_ne.mpr h, Bool.or_false]

/-- **A bit that is set is up, and the others are as they were.** -/
theorem bit_setBit {states : List UInt8} {i : ℕ} (hi : i / 8 < states.length) (j : ℕ) :
    bit (setBit states i) j = (bit states j || i == j) := by
  unfold bit setBit
  rw [List.getD_eq_getElem?_getD, List.getElem?_modify, List.getD_eq_getElem?_getD]
  by_cases hbyte : i / 8 = j / 8
  · rw [hbyte] at hi
    simp only [hbyte, if_true, List.getElem?_eq_getElem hi]
    have hsame : (i % 8 == j % 8) = (i == j) := by
      by_cases hij : i = j
      · simp [hij]
      · have hmod : i % 8 ≠ j % 8 := by omega
        simp [hij, hmod]
    rw [← hsame]
    exact and_mask_or _ _ _
  · have hij : i ≠ j := by
      rintro rfl
      exact hbyte rfl
    simp [hbyte, hij]

@[simp] theorem bit_zeroed (n i : ℕ) : bit (zeroed n) i = false := by
  have hbyte : (zeroed n).getD (i / 8) 0 = 0 := by
    rw [zeroed, List.getD_eq_getElem?_getD, List.getElem?_replicate]
    split <;> rfl
  rw [bit, hbyte, UInt8.zero_and, beq_eq_false_iff_ne]
  exact (mask_ne_zero i).symm

/-- **The bits after the loop** are those before and those of the flags that are up. -/
theorem bit_setAll {states : List UInt8} {start : ℕ} {flags : List Bool}
    (hlength : start + flags.length ≤ 8 * states.length) (j : ℕ) :
    bit (setAll states start flags) j = (bit states j || (decide (start ≤ j) && flags.getD (j - start) false)) := by
  induction flags generalizing states start with
  | nil => simp [setAll]
  | cons flag flags ih =>
    rw [List.length_cons] at hlength
    have hstates : (if flag then setBit states start else states).length = states.length := by
      split
      · exact length_setBit _ _
      · rfl
    have hbit : bit (if flag then setBit states start else states) j = (bit states j || (flag && start == j)) := by
      cases flag with
      | true => simpa using bit_setBit (by omega) j
      | false => simp
    rw [setAll, ih (by rw [hstates]; omega), hbit, Bool.or_assoc]
    congr 1
    rcases Nat.lt_trichotomy j start with hj | rfl | hj
    · have hne : start ≠ j := by omega
      simp [hne, Nat.not_le.mpr hj, Nat.not_le.mpr (Nat.lt_succ_of_lt hj)]
    · simp
    · obtain ⟨k, rfl⟩ := Nat.exists_eq_add_of_lt hj
      have hsub : start + k + 1 - start = k + 1 := by omega
      have hsub' : start + k + 1 - (start + 1) = k := by omega
      rw [hsub, hsub', List.getD_cons_succ, decide_eq_true (show start + 1 ≤ start + k + 1 by omega),
        decide_eq_true (show start ≤ start + k + 1 by omega),
        beq_eq_false_iff_ne.mpr (show start ≠ start + k + 1 by omega), Bool.and_false, Bool.false_or]

/-- A byte is made of its bits. -/
theorem byte_of_bits (b : UInt8) :
    (List.range 8).foldl (fun byte j => if b &&& mask j == mask j then byte ||| mask j else byte) 0 = b := by
  have hall : ∀ x : Fin 256, (List.range 8).foldl (fun byte j =>
      if UInt8.ofNat x &&& mask j == mask j then byte ||| mask j else byte) 0 = UInt8.ofNat x := by decide +kernel
  have hb := hall ⟨b.toNat, b.toNat_lt⟩
  rwa [UInt8.ofNat_toNat] at hb

end Bitmap
