import RustDesk.Common.LittleEndian
import Mathlib.Data.Int.ModEq

/-!
# Unsigned numbers in signed halves

A number of 64 bits may travel as two numbers of 32 bits with a sign. Putting them together again by casts extends the
sign: `join` is exact where bit 31 of the low half is down, and all ones at the top where it is up.
-/

namespace SignedHalves

/-- A cast to `i32`. -/
def toI32 (n : ℤ) : ℤ := n.bmod (2 ^ 32)

/-- A cast to `u64`, or to `usize`. -/
def toU64 (n : ℤ) : ℕ := (n % 2 ^ 64).toNat

/-- `(high as u64) << 32 | low as u64`. -/
def join (high low : ℤ) : ℕ := (toU64 high <<< 32) % 2 ^ 64 ||| toU64 low

variable {n : ℕ}

theorem toI32_of_lt (h : n < 2 ^ 31) : toI32 n = n := by
  unfold toI32
  rw [Int.bmod_def]
  split <;> omega

theorem toI32_of_ge (h : 2 ^ 31 ≤ n) (h' : n < 2 ^ 32) : toI32 n = n - 2 ^ 32 := by
  unfold toI32
  rw [Int.bmod_def]
  split <;> omega

/-- Below 2 ^ 31 both casts keep the number. -/
theorem toU64_toI32_of_lt (h : n < 2 ^ 31) : toU64 (toI32 n) = n := by
  rw [toI32_of_lt h, toU64]
  omega

/-- From 2 ^ 31 on, the sign fills the upper half. -/
theorem toU64_toI32_of_ge (h : 2 ^ 31 ≤ n) (h' : n < 2 ^ 32) : toU64 (toI32 n) = 2 ^ 64 - 2 ^ 32 + n := by
  rw [toI32_of_ge h h', toU64]
  omega

variable {offset : ℕ}

/-- The halves of a number whose bit 31 is down are put together to the number. -/
theorem join_of_lt (hoffset : offset < 2 ^ 63) (hlow : offset % 2 ^ 32 < 2 ^ 31) :
    join (toI32 (offset / 2 ^ 32 : ℕ)) (toI32 (offset % 2 ^ 32 : ℕ)) = offset := by
  have hhigh : offset / 2 ^ 32 < 2 ^ 31 := by omega
  have hshift : (offset / 2 ^ 32) <<< 32 = 2 ^ 32 * (offset / 2 ^ 32) := by
    rw [Nat.shiftLeft_eq, Nat.mul_comm]
  have hmod : 2 ^ 32 * (offset / 2 ^ 32) % 2 ^ 64 = 2 ^ 32 * (offset / 2 ^ 32) := Nat.mod_eq_of_lt (by omega)
  rw [join, toU64_toI32_of_lt hhigh, toU64_toI32_of_lt hlow, hshift, hmod, ← hshift,
    LittleEndian.shiftLeft_or (Nat.mod_lt _ (by decide))]
  exact Nat.div_add_mod _ _

/-- With bit 31 up they are put together to a number beyond every file. -/
theorem le_join_of_ge (hlow : 2 ^ 31 ≤ offset % 2 ^ 32) :
    2 ^ 63 ≤ join (toI32 (offset / 2 ^ 32 : ℕ)) (toI32 (offset % 2 ^ 32 : ℕ)) := by
  have hlt : offset % 2 ^ 32 < 2 ^ 32 := Nat.mod_lt _ (by decide)
  calc 2 ^ 63 ≤ 2 ^ 64 - 2 ^ 32 + offset % 2 ^ 32 := by omega
    _ = toU64 (toI32 (offset % 2 ^ 32 : ℕ)) := (toU64_toI32_of_ge hlow hlt).symm
    _ ≤ _ := Nat.right_le_or

end SignedHalves
