import Mathlib.Data.Nat.Bitwise
import Mathlib.Tactic.Common

/-!
# Little-endian byte strings

`leBytes k n` writes the low `k` bytes of `n`, least significant first; `ofLeBytes` reads a byte
string back as a number. The round trip is modulo `256 ^ k`, so a fixed-width field loses nothing
exactly when the number fits.
-/

namespace LittleEndian

/-- The low `k` bytes of `n`, least significant byte first. -/
def leBytes : ℕ → ℕ → List UInt8
  | 0, _ => []
  | k + 1, n => UInt8.ofNat n :: leBytes k (n / 256)

/-- The number a byte string denotes, least significant byte first. -/
def ofLeBytes : List UInt8 → ℕ
  | [] => 0
  | b :: bs => b.toNat + 256 * ofLeBytes bs

@[simp] theorem leBytes_length (k n : ℕ) : (leBytes k n).length = k := by
  induction k generalizing n with
  | zero => rfl
  | succ k ih => simp [leBytes, ih]

/-- Reading back `k` written bytes gives the number modulo `256 ^ k`. -/
theorem ofLeBytes_leBytes (k n : ℕ) : ofLeBytes (leBytes k n) = n % 256 ^ k := by
  induction k generalizing n with
  | zero => simp [leBytes, ofLeBytes, Nat.mod_one]
  | succ k ih =>
    have hlow : (UInt8.ofNat n).toNat = n % 256 := UInt8.toNat_ofNat'
    rw [leBytes, ofLeBytes, ih, hlow, Nat.pow_succ', Nat.mod_mul]

/-- Numbers that fit into `k` bytes are told apart by them. -/
theorem leBytes_inj {k m n : ℕ} (hm : m < 256 ^ k) (hn : n < 256 ^ k) (h : leBytes k m = leBytes k n) : m = n := by
  have hread := congrArg ofLeBytes h
  rwa [ofLeBytes_leBytes, ofLeBytes_leBytes, Nat.mod_eq_of_lt hm, Nat.mod_eq_of_lt hn] at hread

/-- Or-ing a number in above `i` occupied bits adds it there. -/
theorem or_shiftLeft {x i : ℕ} (hx : x < 2 ^ i) (y : ℕ) : x ||| y <<< i = x + 2 ^ i * y := by
  rw [Nat.shiftLeft_eq, Nat.mul_comm y, Nat.or_comm, ← Nat.two_pow_add_eq_or_of_lt hx, Nat.add_comm]

/-- Or-ing a tag into the cleared low bits of a shifted number adds it. -/
theorem shiftLeft_or {x i : ℕ} (hx : x < 2 ^ i) (y : ℕ) : y <<< i ||| x = 2 ^ i * y + x := by
  rw [Nat.or_comm, or_shiftLeft hx, Nat.add_comm]

end LittleEndian
