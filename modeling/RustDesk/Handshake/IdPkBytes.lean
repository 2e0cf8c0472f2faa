import RustDesk.Common.Protobuf
import RustDesk.Handshake.Primitives

/-!
# `IdPk` as bytes

The generated codec of `message IdPk { string id = 1; bytes pk = 2; }`: set fields in order, empty
ones left out. Reading takes the last value of each field and skips unknown fields.
-/

namespace RustDesk.Handshake

open Protobuf

/-- The UTF-8 bytes of a string. -/
def utf8Bytes (s : String) : List UInt8 := s.toUTF8.data.toList

def ofUtf8 (bytes : List UInt8) : Option String := String.fromUTF8? ⟨bytes.toArray⟩

@[simp] theorem utf8Bytes_length (s : String) : (utf8Bytes s).length = s.utf8ByteSize := by simp [utf8Bytes]

theorem ofUtf8_utf8Bytes (s : String) : ofUtf8 (utf8Bytes s) = some s := by
  simp only [ofUtf8, utf8Bytes, Array.toArray_toList, String.fromUTF8?]
  exact dif_pos s.isValidUTF8

namespace IdPk

/-- `IdPk::write_to_bytes`. -/
def writeToBytes (m : IdPk (List UInt8)) : List UInt8 :=
  writeBytesField 1 (utf8Bytes m.id) ++ writeBytesField 2 m.pk

/-- One field of `IdPk::merge_from`. -/
def mergeField (m : IdPk (List UInt8)) : ℕ × FieldValue → Except String (IdPk (List UInt8))
  | (1, .bytes bytes) =>
    match ofUtf8 bytes with
    | some id => .ok { m with id }
    | none => .error "invalid UTF-8"
  | (2, .bytes bytes) => .ok { m with pk := bytes }
  | _ => .ok m

def mergeFields (m : IdPk (List UInt8)) : List (ℕ × FieldValue) → Except String (IdPk (List UInt8))
  | [] => .ok m
  | field :: fields =>
    match mergeField m field with
    | .ok m => mergeFields m fields
    | .error text => .error text

/-- `IdPk::parse_from_bytes`. -/
def parseFromBytes (bytes : List UInt8) : Except String (IdPk (List UInt8)) :=
  match readFields bytes with
  | some fields => mergeFields ⟨"", []⟩ fields
  | none => .error "invalid wire format"

variable {m : IdPk (List UInt8)}

/-- The key read is empty or the content of a field. -/
theorem mergeFields_pk {m' : IdPk (List UInt8)} {fields : List (ℕ × FieldValue)}
    (h : mergeFields m fields = .ok m') :
    m'.pk = m.pk ∨ ∃ number, (number, .bytes m'.pk) ∈ fields := by
  induction fields generalizing m with
  | nil =>
    cases h
    exact Or.inl rfl
  | cons field fields ih =>
    rw [mergeFields] at h
    split at h
    next m₁ hfield =>
      rcases ih h with hpk | ⟨number, hmem⟩
      · unfold mergeField at hfield
        split at hfield
        · split at hfield <;> cases hfield
          exact Or.inl hpk
        · cases hfield
          exact Or.inr ⟨2, by simp [hpk]⟩
        · cases hfield
          exact Or.inl hpk
      · exact Or.inr ⟨number, by simp [hmem]⟩
    · cases h

/-- A key read from a message is at least two bytes shorter than the message. -/
theorem pk_length {bytes : List UInt8} (h : parseFromBytes bytes = .ok m)
    (hpk : m.pk ≠ []) : m.pk.length + 2 ≤ bytes.length := by
  unfold parseFromBytes at h
  split at h
  next fields hfields =>
    rcases mergeFields_pk h with hempty | ⟨number, hmem⟩
    · exact absurd hempty hpk
    · exact bytes_length_of_mem hfields hmem
  · cases h

/-- The length of an encoded identity with both fields short: two bytes of tag and length each. -/
theorem writeToBytes_length (hid : 0 < m.id.utf8ByteSize) (hpk : m.pk ≠ []) : m.writeToBytes.length =
      1 + (writeVarint m.id.utf8ByteSize).length + m.id.utf8ByteSize +
        (1 + (writeVarint m.pk.length).length + m.pk.length) := by
  have hbytes : utf8Bytes m.id ≠ [] := by
    intro hempty
    have := congrArg List.length hempty
    rw [utf8Bytes_length, List.length_nil] at this
    omega
  simp only [writeToBytes, writeBytesField, if_neg hbytes, if_neg hpk, List.length_append, utf8Bytes_length]
  rfl

/-- An encoded identity has 32 bytes exactly when id and key have 28 between them. -/
theorem writeToBytes_length_eq_iff (hid : 0 < m.id.utf8ByteSize)
    (hpk : m.pk ≠ []) : m.writeToBytes.length = 32 ↔ m.id.utf8ByteSize + m.pk.length = 28 := by
  rw [writeToBytes_length hid hpk]
  have hid' := writeVarint_length_pos m.id.utf8ByteSize
  have hpk' := writeVarint_length_pos m.pk.length
  by_cases hshort : m.id.utf8ByteSize < 128 ∧ m.pk.length < 128
  · rw [writeVarint_of_lt hshort.1, writeVarint_of_lt hshort.2]
    simp only [List.length_singleton]
    omega
  · constructor <;> intro h <;> omega

/-- The fields of an encoded identity: those that are set. -/
theorem readFields_writeToBytes (hid : m.id.utf8ByteSize < 2 ^ 64) (hpk : m.pk.length < 2 ^ 64) :
    readFields m.writeToBytes = some ((if utf8Bytes m.id = [] then [] else [(1, .bytes (utf8Bytes m.id))]) ++
        if m.pk = [] then [] else [(2, .bytes m.pk)]) := by
  have hid' : (utf8Bytes m.id).length < 2 ^ 64 := by rwa [utf8Bytes_length]
  have hlen : ∀ number (bytes : List UInt8), bytes ≠ [] → 0 < (writeBytesField number bytes).length := by
    intro number bytes hbytes
    rw [writeBytesField, if_neg hbytes, List.length_append]
    have := List.length_pos_iff.mpr hbytes
    omega
  -- the second field, whatever fuel the first one leaves
  have hsecond : ∀ fuel, (m.pk ≠ [] → 0 < fuel) → readFieldsUpTo fuel (writeBytesField 2 m.pk)
      = some (if m.pk = [] then [] else [(2, .bytes m.pk)]) := by
    intro fuel hfuel
    by_cases hempty : m.pk = []
    · rw [if_pos hempty, hempty]
      cases fuel <;> rfl
    · obtain ⟨fuel, rfl⟩ : ∃ k, fuel = k + 1 := ⟨fuel - 1, by have := hfuel hempty; omega⟩
      have hread := readFieldsUpTo_writeBytesField (by decide : 0 < 2) (by decide) hempty hpk fuel []
      rw [List.append_nil] at hread
      rw [hread, if_neg hempty]
      cases fuel <;> rfl
  rw [readFields, writeToBytes]
  by_cases hfirst : utf8Bytes m.id = []
  · rw [hfirst]
    exact hsecond _ fun hne => hlen 2 _ hne
  · have hpos := hlen 1 _ hfirst
    obtain ⟨fuel, hfuel⟩ : ∃ fuel,
        (writeBytesField 1 (utf8Bytes m.id) ++ writeBytesField 2 m.pk).length = fuel + 1 :=
      ⟨_, (Nat.succ_pred_eq_of_pos (by rw [List.length_append]; omega)).symm⟩
    rw [hfuel, readFieldsUpTo_writeBytesField (by decide) (by decide) hfirst hid', hsecond, if_neg hfirst]
    · rfl
    · intro hne
      have := hlen 2 _ hne
      rw [List.length_append] at hfuel
      omega

/-- **Round trip**: an encoded identity is read back. -/
theorem parse_writeToBytes (hid : m.id.utf8ByteSize < 2 ^ 64)
    (hpk : m.pk.length < 2 ^ 64) : parseFromBytes m.writeToBytes = .ok m := by
  obtain ⟨id, pk⟩ := m
  rw [parseFromBytes, readFields_writeToBytes hid hpk]
  have hback := ofUtf8_utf8Bytes id
  by_cases hfirst : utf8Bytes id = []
  · have hempty : "" = id := by
      rw [hfirst] at hback
      exact Option.some.inj hback
    by_cases hsecond : pk = [] <;> simp [hfirst, hsecond, mergeFields, mergeField, hempty]
  · by_cases hsecond : pk = [] <;> simp [hfirst, hsecond, mergeFields, mergeField, hback]

end IdPk

end RustDesk.Handshake
