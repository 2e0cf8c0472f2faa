import RustDesk.Common.LittleEndian

/-!
# UTF-16, little-endian

A character below 0x10000 is one unit of two bytes, any other one a pair of surrogates. `decode` refuses an odd number
of bytes and a surrogate that is not in a pair.
-/

namespace Utf16

open LittleEndian

/-- The units of a character. -/
def units (c : Char) : List ℕ :=
  if c.toNat < 0x10000 then [c.toNat]
  else [0xD800 + (c.toNat - 0x10000) / 0x400, 0xDC00 + (c.toNat - 0x10000) % 0x400]

/-- The bytes of a text. -/
def encode (text : List Char) : List UInt8 := (text.flatMap units).flatMap (leBytes 2)

/-- The units in some bytes. -/
def pairs : List UInt8 → Option (List ℕ)
  | [] => some []
  | [_] => none
  | low :: high :: bytes => (pairs bytes).map (ofLeBytes [low, high] :: ·)

/-- The text in some units. -/
def decodeUnits : List ℕ → Option (List Char)
  | [] => some []
  | u :: us =>
    if u < 0xD800 ∨ 0xDFFF < u then (decodeUnits us).map (Char.ofNat u :: ·)
    else if u < 0xDC00 then
      match us with
      | [] => none
      | v :: us =>
        if 0xDC00 ≤ v ∧ v ≤ 0xDFFF then
          (decodeUnits us).map (Char.ofNat (0x10000 + (u - 0xD800) * 0x400 + (v - 0xDC00)) :: ·)
        else none
    else none

def decode (bytes : List UInt8) : Option (List Char) := (pairs bytes).bind decodeUnits

/-- A character is no surrogate. -/
theorem toNat_valid (c : Char) : c.toNat < 0xD800 ∨ 0xDFFF < c.toNat ∧ c.toNat < 0x110000 := c.valid

theorem units_lt (c : Char) : ∀ u ∈ units c, u < 0x10000 := by
  have hvalid := toNat_valid c
  unfold units
  split
  · simpa
  · simp only [List.mem_cons, List.not_mem_nil, or_false, forall_eq_or_imp, forall_eq]
    omega

/-- **The units of a character are read back**, whatever follows. -/
theorem decodeUnits_units (c : Char) (us : List ℕ) :
    decodeUnits (units c ++ us) = (decodeUnits us).map (c :: ·) := by
  have hvalid := toNat_valid c
  unfold units
  split
  · rw [List.singleton_append, decodeUnits.eq_def]
    dsimp only
    rw [if_pos (by omega), Char.ofNat_toNat]
  · have hrejoin : 0x10000 + (0xD800 + (c.toNat - 0x10000) / 0x400 - 0xD800) * 0x400 +
        (0xDC00 + (c.toNat - 0x10000) % 0x400 - 0xDC00) = c.toNat := by omega
    rw [List.cons_append, List.singleton_append, decodeUnits, if_neg (by omega), if_pos (by omega),
      if_pos (by omega), hrejoin, Char.ofNat_toNat]

theorem decodeUnits_flatMap (text : List Char) : decodeUnits (text.flatMap units) = some text := by
  induction text with
  | nil => rfl
  | cons c text ih => rw [List.flatMap_cons, decodeUnits_units, ih, Option.map_some]

theorem pairs_flatMap {us : List ℕ} (h : ∀ u ∈ us, u < 0x10000) : pairs (us.flatMap (leBytes 2)) = some us := by
  induction us with
  | nil => rfl
  | cons u us ih =>
    rw [List.forall_mem_cons] at h
    have hbytes : leBytes 2 u = [UInt8.ofNat u, UInt8.ofNat (u / 256)] := rfl
    have hread : ofLeBytes (leBytes 2 u) = u := by
      rw [ofLeBytes_leBytes]
      exact Nat.mod_eq_of_lt h.1
    rw [hbytes] at hread
    rw [List.flatMap_cons, hbytes, List.cons_append, List.singleton_append, pairs, ih h.2, Option.map_some, hread]

/-- **What is encoded is decoded.** -/
theorem decode_encoded (text : List Char) : decode (encode text) = some text := by
  have hlt : ∀ u ∈ text.flatMap units, u < 0x10000 := by
    intro u hu
    obtain ⟨c, -, hc⟩ := List.mem_flatMap.mp hu
    exact units_lt c u hc
  rw [decode, encode, pairs_flatMap hlt, Option.bind_some, decodeUnits_flatMap]

theorem encode_append (text text' : List Char) : encode (text ++ text') = encode text ++ encode text' := by
  simp only [encode, List.flatMap_append]

/-- Zero bytes are null characters. -/
theorem encode_nulls (k : ℕ) : encode (List.replicate k '\x00') = List.replicate (2 * k) 0 := by
  induction k with
  | zero => rfl
  | succ k ih =>
    rw [List.replicate_succ, ← List.singleton_append, encode_append, ih]
    show List.replicate 2 0 ++ List.replicate (2 * k) 0 = _
    rw [List.replicate_append_replicate]
    exact congrArg (List.replicate · 0) (by omega)

theorem even_length_encode (text : List Char) : (encode text).length % 2 = 0 := by
  have hsum : ∀ us : List ℕ, (us.flatMap (leBytes 2)).length = 2 * us.length := by
    intro us
    induction us with
    | nil => rfl
    | cons u us ih =>
      rw [List.flatMap_cons, List.length_append, ih, leBytes_length, List.length_cons]
      omega
  rw [encode, hsum]
  exact Nat.mul_mod_right _ _

end Utf16
