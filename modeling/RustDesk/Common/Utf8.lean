import Mathlib.Tactic.Common

/-!
# UTF-8, and the lossy way back

`lossy` decodes any bytes: what is no UTF-8 becomes the replacement character, one for each longest piece
that could have begun a character.
-/

namespace Utf8

/-- The bytes of a string. -/
def bytes (s : String) : List UInt8 := s.toList.flatMap String.utf8EncodeChar

def replacement : Char := Char.ofNat 0xFFFD

/-- A continuation byte. -/
def isCont (b : UInt8) : Bool := b &&& 192 == 128

/-- Whether `second` may follow the first byte of a character of three or four bytes. -/
def mayFollow (first second : UInt8) : Bool :=
  if first = 0xE0 then 0xA0 ≤ second && second ≤ 0xBF
  else if first = 0xED then 0x80 ≤ second && second ≤ 0x9F
  else if first = 0xF0 then 0x90 ≤ second && second ≤ 0xBF
  else if first = 0xF4 then 0x80 ≤ second && second ≤ 0x8F
  else if 0xE1 ≤ first && first ≤ 0xF3 then 0x80 ≤ second && second ≤ 0xBF
  else false

/-- How many of the bytes behind `first` are replaced with it, when they are no character. -/
def skipped (first : UInt8) (rest : List UInt8) : ℕ :=
  if mayFollow first (rest.getD 0 0) then
    if 0xF0 ≤ first && isCont (rest.getD 1 0) then 2 else 1
  else 0

/-- `String::from_utf8_lossy`. -/
def lossyChars : List UInt8 → List Char
  | [] => []
  | b :: rest =>
    match (b :: rest).toByteArray.utf8DecodeChar? 0 with
    | some c => c :: lossyChars (rest.drop (c.utf8Size - 1))
    | none => replacement :: lossyChars (rest.drop (skipped b rest))
termination_by bs => bs.length

def lossy (bs : List UInt8) : String := String.ofList (lossyChars bs)

theorem lossyChars_encode (c : Char) (rest : List UInt8) :
    lossyChars (String.utf8EncodeChar c ++ rest) = c :: lossyChars rest := by
  have hdecode : (String.utf8EncodeChar c ++ rest).toByteArray.utf8DecodeChar? 0 = some c := by
    rw [List.toByteArray_append]
    exact ByteArray.utf8DecodeChar?_utf8EncodeChar_append
  have hlen : (String.utf8EncodeChar c).length = c.utf8Size := String.length_utf8EncodeChar c
  cases hbytes : String.utf8EncodeChar c with
  | nil =>
    rw [hbytes] at hlen
    have hpos := c.utf8Size_pos
    simp at hlen
    omega
  | cons b bs =>
    rw [hbytes] at hdecode hlen
    rw [List.cons_append] at hdecode ⊢
    rw [lossyChars, hdecode]
    dsimp only
    rw [← hlen, List.length_cons, Nat.add_sub_cancel, List.drop_left]

/-- A string comes back. -/
theorem lossy_bytes (s : String) : lossy (bytes s) = s := by
  have hchars (cs : List Char) : lossyChars (cs.flatMap String.utf8EncodeChar) = cs := by
    induction cs with
    | nil => rw [List.flatMap_nil, lossyChars]
    | cons c cs ih => rw [List.flatMap_cons, lossyChars_encode, ih]
  rw [lossy, bytes, hchars, String.ofList_toList]

/-- Where nothing is replaced, the bytes are those of the text. -/
theorem bytes_lossy {bs : List UInt8} (h : replacement ∉ lossyChars bs) : bytes (lossy bs) = bs := by
  rw [bytes, lossy, String.toList_ofList]
  induction bs using lossyChars.induct with
  | case1 => rw [lossyChars, List.flatMap_nil]
  | case2 b rest c hdecode ih =>
    obtain ⟨l, hl⟩ := ByteArray.exists_of_utf8DecodeChar?_eq_some hdecode
    have hbytes : b :: rest = String.utf8EncodeChar c ++ l.data.toList := by
      simpa using congrArg (·.data.toList) hl
    have hrest : rest.drop (c.utf8Size - 1) = l.data.toList := by
      rw [← List.drop_succ_cons, hbytes, Nat.sub_add_cancel c.utf8Size_pos]
      exact List.drop_left' (String.length_utf8EncodeChar c)
    rw [hrest] at ih
    rw [hbytes, lossyChars_encode] at h ⊢
    rw [List.flatMap_cons, ih fun hmem => h (List.mem_cons_of_mem _ hmem)]
  | case3 b rest hdecode ih =>
    rw [lossyChars, hdecode] at h
    exact absurd (List.mem_cons_self ..) h

theorem bytes_append (s t : String) : bytes (s ++ t) = bytes s ++ bytes t := by
  rw [bytes, String.toList_append, List.flatMap_append]
  rfl

theorem bytes_eq_nil {s : String} : bytes s = [] ↔ s = "" := by
  constructor
  · intro h
    rw [← lossy_bytes s, h, lossy, lossyChars]
  · rintro rfl
    rfl

theorem length_le_bytes (s : String) : s.length ≤ (bytes s).length := by
  rw [bytes, ← String.length_toList]
  induction s.toList with
  | nil => exact Nat.le_refl _
  | cons c cs ih =>
    have hpos : 0 < (String.utf8EncodeChar c).length := by
      rw [String.length_utf8EncodeChar]
      exact c.utf8Size_pos
    rw [List.flatMap_cons, List.length_append, List.length_cons]
    omega

/-- There are no more characters than bytes. -/
theorem length_lossyChars (bs : List UInt8) : (lossyChars bs).length ≤ bs.length := by
  induction bs using lossyChars.induct with
  | case1 =>
    rw [lossyChars]
    exact Nat.le_refl _
  | case2 b rest c hc ih =>
    rw [lossyChars, hc]
    rw [List.length_cons, List.length_cons]
    rw [List.length_drop] at ih
    omega
  | case3 b rest hnone ih =>
    rw [lossyChars, hnone]
    rw [List.length_cons, List.length_cons]
    rw [List.length_drop] at ih
    omega

theorem length_lossy (bs : List UInt8) : (lossy bs).length ≤ bs.length := by
  rw [lossy, String.length_ofList]
  exact length_lossyChars bs

/-- Bytes below 128 are the characters of their values. -/
theorem bytes_ascii {bs : List UInt8} (h : ∀ b ∈ bs, b.toNat < 128) :
    bytes (String.ofList (bs.map fun b => Char.ofNat b.toNat)) = bs := by
  have hone : ∀ i : Fin 128, String.utf8EncodeChar (Char.ofNat i) = [UInt8.ofNat i] := by decide
  rw [bytes, String.toList_ofList]
  induction bs with
  | nil => rfl
  | cons b bs ih =>
    rw [List.forall_mem_cons] at h
    rw [List.map_cons, List.flatMap_cons, hone ⟨b.toNat, h.1⟩, ih h.2, UInt8.ofNat_toNat]
    rfl

end Utf8
