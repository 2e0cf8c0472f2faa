import RustDesk.Common.Texts

/-!
# The server in a file name

Reference: `src/custom_server.rs` (`get_custom_server_from_string`).

The name of the executable may bring the server: `host=`, `key=`, `api=` and `relay=` with their values, or else a
text in Base64 between dashes. The position of `host=` is found in the lower case of the name and then used in the
name itself.

The outer `none` of a result is a panic.
-/

namespace RustDesk.Config

open Patterns Texts

structure CustomServer where
  key : List Char := []
  host : List Char := []
  api : List Char := []
  relay : List Char := []
deriving DecidableEq

/-- `URL_SAFE_NO_PAD.decode`, `serde_json::from_slice` and `sign::verify`. -/
structure ConfigIo where
  decode : List Char → Option (List UInt8)
  fromSlice : List UInt8 → Option CustomServer
  verify : List UInt8 → List UInt8 → Option (List UInt8)

/-- `PK` -/
def configPk : List UInt8 :=
  [88, 168, 68, 104, 60, 5, 163, 198, 165, 38, 12, 85, 114, 203, 96, 163, 70, 48, 0, 131, 57, 12, 46, 129, 83, 17, 84,
    193, 119, 197, 130, 103]

def hostWord : List Char := ['h', 'o', 's', 't', '=']

def keyWord : List Char := ['k', 'e', 'y', '=']

def apiWord : List Char := ['a', 'p', 'i', '=']

def relayWord : List Char := ['r', 'e', 'l', 'a', 'y', '=']

def exeWord : List Char := ['.', 'e', 'x', 'e']

section Functions

variable (u : Unicode) (io : ConfigIo)

def getCustomServerFromConfigString (s : List Char) : Option CustomServer :=
  match io.decode s.reverse with
  | none => none
  | some data =>
    match io.fromSlice data with
    | some lic => some lic
    | none =>
      match io.verify data configPk with
      | some data => io.fromSlice data
      | none => none

/-- `&s[0..s.len() - n]` -/
def cutEnd (s : List Char) (n : ℕ) : Option (List Char) :=
  if byteLen s < n then none else (splitAtByte s (byteLen s - n)).map (·.1)

/-- The name without `.exe`. -/
def stripExe (s : List Char) : Option (List Char) :=
  if (exeWord ++ exeWord).isSuffixOf (toLowercase u s) then cutEnd s 8
  else if exeWord.isSuffixOf (toLowercase u s) then cutEnd s 4
  else some s

/-- A turn of the loop over the elements between commas. -/
def readElement (server : CustomServer) (el : List Char) : CustomServer :=
  let elLower := toLowercase u el
  let server := if hostWord.isPrefixOf elLower then { server with host := el.drop 5 } else server
  let server := if keyWord.isPrefixOf elLower then { server with key := el.drop 4 } else server
  let server := if apiWord.isPrefixOf elLower then { server with api := el.drop 4 } else server
  if relayWord.isPrefixOf elLower then { server with relay := el.drop 6 } else server

def readElements (server : CustomServer) (els : List (List Char)) : CustomServer := els.foldl (readElement u) server

/-- The name without `host=`. -/
def readConfigs (s : List Char) : Option CustomServer :=
  let s := replace "-licensed---".toList "--".toList s
  let s := replace "-licensed--".toList "--".toList s
  let s := replace "-licensed-".toList "--".toList s
  (split "--".toList s).findSome? fun s =>
    match getCustomServerFromConfigString io (trim u s) with
    | some lic => some lic
    | none =>
      if s.contains '(' then (s.splitOn '(').findSome? fun s => getCustomServerFromConfigString io (trim u s)
      else none

/-- What comes after the `.exe` has been taken off. -/
def readName (s : List Char) : Option (Option CustomServer) :=
  if (find hostWord (toLowercase u s)).isSome then
    match splitAtByte s ((findByte hostWord (toLowercase u s)).getD 0) with
    | none => none
    | some (_, stripped) => some (some (readElements u {} (stripped.splitOn ',')))
  else some (readConfigs u io s)

def getCustomServerFromString (s : List Char) : Option (Option CustomServer) :=
  match stripExe u s with
  | none => none
  | some s => readName u io s

end Functions

variable {u : Unicode} {io : ConfigIo}

/-! ## Without the `.exe` -/

/-- `stripExe`, which never panics. -/
def stripped (s : List Char) : List Char :=
  if exeWord ++ exeWord <:+ asciiLower s then s.take (s.length - 8)
  else if exeWord <:+ asciiLower s then s.take (s.length - 4)
  else s

theorem cutEnd_of_suffix {s w : List Char} (h : w <:+ asciiLower s) (hw : ∀ d ∈ w, d.toNat < 128) :
    cutEnd s w.length = some (s.take (s.length - w.length)) := by
  obtain ⟨t, ht, rfl⟩ := List.suffix_map_iff.mp h
  obtain ⟨front, rfl⟩ := ht
  have hlen : byteLen t = (t.map Char.toLower).length := byteLen_of_asciiLower rfl hw
  have hlong : ¬ byteLen (front ++ t) < (t.map Char.toLower).length := by
    rw [byteLen_append, hlen]
    omega
  have hsub : byteLen (front ++ t) - (t.map Char.toLower).length = byteLen front := by
    rw [byteLen_append, hlen, Nat.add_sub_cancel]
  rw [cutEnd, if_neg hlong, hsub, splitAtByte_append, List.length_map, List.length_append, Nat.add_sub_cancel,
    List.take_left]
  rfl

theorem stripExe_eq (u : Unicode) (s : List Char) : stripExe u s = some (stripped s) := by
  have hplain : PlainWord (exeWord ++ exeWord) := by decide
  have hplain' : PlainWord exeWord := by decide
  rw [stripExe, stripped]
  simp only [List.isSuffixOf_iff_suffix, suffix_toLowercase_iff hplain, suffix_toLowercase_iff hplain']
  split
  · next h => exact cutEnd_of_suffix h (List.all_iff_forall_prop.mp (by decide))
  · split
    · next h => exact cutEnd_of_suffix h (List.all_iff_forall_prop.mp (by decide))
    · rfl

theorem getCustomServerFromString_eq (u : Unicode) (io : ConfigIo) (s : List Char) :
    getCustomServerFromString u io s = readName u io (stripped s) := by
  rw [getCustomServerFromString, stripExe_eq]

/-! ## The position of `host=` -/

theorem plainWord_hostWord : PlainWord hostWord := by decide

theorem findByte_hostWord (u : Unicode) (s : List Char) : findByte hostWord (toLowercase u s) =
      (find hostWord (asciiLower s)).map fun n => byteLen (toLowercase u (s.take n)) :=
  findByte_toLowercase plainWord_hostWord (by decide) s

theorem isSome_find_toLowercase (u : Unicode) (s : List Char) :
    (find hostWord (toLowercase u s)).isSome = (find hostWord (asciiLower s)).isSome := by
  have h := congrArg Option.isSome (findByte_hostWord u s)
  rwa [findByte, Option.isSome_map, Option.isSome_map] at h

theorem readName_of_none {s : List Char} (h : find hostWord (asciiLower s) = none) :
    readName u io s = some (readConfigs u io s) := by
  rw [readName, isSome_find_toLowercase, h]
  rfl

theorem readName_of_some {s : List Char} {n : ℕ} (h : find hostWord (asciiLower s) = some n) :
    readName u io s = (splitAtByte s (byteLen (toLowercase u (s.take n)))).map fun parts =>
      some (readElements u {} (parts.2.splitOn ',')) := by
  rw [readName, isSome_find_toLowercase, findByte_hostWord, h]
  simp only [Option.isSome_some, if_true, Option.map_some, Option.getD_some]
  cases splitAtByte s (byteLen (toLowercase u (s.take n))) <;> rfl

/-- The bytes of the lower case of what is before the first `host=` end where a character of the name does. -/
def OnBoundary (u : Unicode) (s : List Char) : Prop :=
  ∀ n, find hostWord (asciiLower s) = some n →
    ∃ front back, s = front ++ back ∧ byteLen front = byteLen (toLowercase u (s.take n))

theorem isSome_readName_iff (u : Unicode) (io : ConfigIo) (s : List Char) :
    (readName u io s).isSome = true ↔ OnBoundary u s := by
  cases h : find hostWord (asciiLower s) with
  | none =>
    rw [readName_of_none h]
    refine iff_of_true rfl fun n hn => ?_
    rw [h] at hn
    cases hn
  | some n =>
    rw [readName_of_some h, Option.isSome_map, Option.isSome_iff_exists]
    constructor
    · rintro ⟨⟨front, back⟩, hparts⟩ m hm
      rw [h] at hm
      cases hm
      exact ⟨front, back, splitAtByte_eq_some.mp hparts⟩
    · intro hboundary
      obtain ⟨front, back, hs, hlen⟩ := hboundary n h
      exact ⟨(front, back), splitAtByte_eq_some.mpr ⟨hs, hlen⟩⟩

end RustDesk.Config
