import RustDesk.Common.Checked
import RustDesk.Common.LittleEndian
import RustDesk.Common.Utf8

/-!
# The package of the portable build

References: `libs/portable/generate.py` (`write_package_metadata`) and `libs/portable/src/bin_reader.rs`
(`BinaryReader::read`). The files stand between two marks, and the name of the executable behind them. The reader
panics where the bytes do not go on.
-/

namespace RustDesk.Portable

open LittleEndian MayPanic

/-- An entry of `md5_table`, of lengths that `to_bytes` does not raise at, with the 32 digits of an MD5. -/
structure PackedFile where
  path : String
  compressedData : List UInt8
  md5Code : List UInt8
  path_lt : (Utf8.bytes path).length < 256 ^ 4
  data_lt : compressedData.length < 256 ^ 4
  md5_length : md5Code.length = 32

structure BinaryData where
  md5Code : List UInt8
  raw : List UInt8
  path : String

/-- `to_bytes` of four bytes, big-endian. -/
def toBytes (n : ℕ) : List UInt8 := (leBytes 4 n).reverse

def identifier : List UInt8 := Utf8.bytes "rustdesk"

/-- What is written for a file. -/
def writeFile (f : PackedFile) : List UInt8 :=
  toBytes (Utf8.bytes f.path).length ++ (Utf8.bytes f.path ++
    (toBytes f.compressedData.length ++ (f.compressedData ++ f.md5Code)))

/-- `write_package_metadata`, and the bytes of `data.bin`. -/
def writePackageMetadata (md5Table : List PackedFile) (exe : String) : List UInt8 :=
  identifier ++ (md5Table.flatMap writeFile ++ (identifier ++ Utf8.bytes exe))

/-- `BIN_DATA[base..base + n]`, and what is behind it. -/
def splitOff (n : ℕ) (data : List UInt8) : MayPanic (List UInt8 × List UInt8) :=
  (sliceTo data n).bind fun bytes => .ok (bytes, data.drop n)

/-- `u32::from_be_bytes` of the next four bytes. -/
def readLength (data : List UInt8) : MayPanic (ℕ × List UInt8) :=
  (splitOff 4 data).bind fun (bytes, data) => .ok (ofLeBytes bytes.reverse, data)

def readFile (data : List UInt8) : MayPanic (BinaryData × List UInt8) :=
  (readLength data).bind fun (pathLength, data) =>
    (splitOff pathLength data).bind fun (path, data) =>
      (readLength data).bind fun (fileLength, data) =>
        (splitOff fileLength data).bind fun (raw, data) =>
          (splitOff 32 data).bind fun (md5, data) => .ok (⟨md5, raw, Utf8.lossy path⟩, data)

/-- The loop of `read`. Every turn reads something, so the length of the data is enough fuel. -/
def readFiles : ℕ → List UInt8 → MayPanic (List BinaryData × List UInt8)
  | 0, _ => .error .indexOutOfRange
  | fuel + 1, data =>
    (splitOff 8 data).bind fun (iden, rest) =>
      if Utf8.lossy iden = "rustdesk" then .ok ([], rest)
      else
        (readFile data).bind fun (file, data) =>
          (readFiles fuel data).bind fun (parsed, rest) => .ok (file :: parsed, rest)

/-- `BinaryReader::read`. -/
def read (binData : List UInt8) : MayPanic (List BinaryData × String) :=
  if binData.length > 8 then
    (splitOff 8 binData).bind fun (iden, data) =>
      if Utf8.lossy iden ≠ "rustdesk" then .error .panicked
      else (readFiles data.length data).bind fun (parsed, executable) => .ok (parsed, Utf8.lossy executable)
  else .error .panicked

/-- What is read of a file. -/
def PackedFile.data (f : PackedFile) : BinaryData := ⟨f.md5Code, f.compressedData, f.path⟩

/-- The bytes of the length of the path are `rust`, and the path begins with `desk`. -/
def PackedFile.EndMark (f : PackedFile) : Prop :=
  (Utf8.bytes f.path).length = 0x72757374 ∧ (Utf8.bytes f.path).take 4 = Utf8.bytes "desk"

variable {xs ys : List UInt8} {n : ℕ} (f : PackedFile) (table : List PackedFile)

theorem splitOff_append (h : xs.length = n) : splitOff n (xs ++ ys) = .ok (xs, ys) := by
  rw [splitOff, sliceTo, if_pos (by rw [List.length_append]; omega), List.take_left' h, List.drop_left' h]
  rfl

/-- Nothing but the identifier is read as `rustdesk`. -/
theorem lossy_eq_iff : Utf8.lossy xs = "rustdesk" ↔ xs = identifier := by
  constructor
  · intro h
    have hchars : Utf8.lossyChars xs = "rustdesk".toList := by rw [← h, Utf8.lossy, String.toList_ofList]
    rw [identifier, ← h, Utf8.bytes_lossy]
    rw [hchars]
    decide
  · rintro rfl
    exact Utf8.lossy_bytes _

theorem readLength_append (h : n < 256 ^ 4) : readLength (toBytes n ++ ys) = .ok (n, ys) := by
  rw [readLength, toBytes, splitOff_append (by simp)]
  dsimp only [Except.bind]
  rw [List.reverse_reverse, ofLeBytes_leBytes, Nat.mod_eq_of_lt h]

/-- **A file is read back**, whatever is behind it. -/
theorem readFile_append : readFile (writeFile f ++ ys) = .ok (f.data, ys) := by
  simp only [readFile, writeFile, List.append_assoc, readLength_append f.path_lt, readLength_append f.data_lt,
    splitOff_append rfl, splitOff_append f.md5_length, Except.bind, Utf8.lossy_bytes]
  rfl

/-- Where a file is taken for the end mark. -/
theorem take_eq_identifier_iff :
    4 + 4 ≤ (writeFile f).length ∧ ((writeFile f).take (4 + 4) = identifier ↔ f.EndMark) := by
  have hmark : identifier = toBytes 0x72757374 ++ Utf8.bytes "desk" := by decide
  have hfour : ∀ n, (toBytes n).length = 4 := by simp [toBytes]
  have hmd5 := f.md5_length
  refine ⟨by simp only [writeFile, List.length_append, hfour]; omega, ?_⟩
  rw [writeFile, List.take_append, List.take_of_length_le (by simp [hfour]), hfour, hmark]
  constructor
  · intro heq
    obtain ⟨hlength, htake⟩ := List.append_inj heq (by rw [hfour, hfour])
    have hn := leBytes_inj f.path_lt (by decide) (List.reverse_inj.mp hlength)
    rw [Nat.add_sub_cancel, List.take_append_of_le_length (by omega)] at htake
    exact ⟨hn, htake⟩
  · rintro ⟨hn, htake⟩
    rw [hn, Nat.add_sub_cancel, List.take_append_of_le_length (by omega), htake]

/-- The loop reads back all files, or stops at one that it takes for the end mark. -/
theorem readFiles_cases {fuel : ℕ} (hfuel : table.length < fuel) : ∃ parsed rest,
    readFiles fuel (table.flatMap writeFile ++ (identifier ++ ys)) = .ok (parsed, rest) ∧
      ((∀ f ∈ table, ¬ f.EndMark) ∧ parsed = table.map PackedFile.data ∧ rest = ys ∨
        ¬ (∀ f ∈ table, ¬ f.EndMark) ∧ parsed ≠ table.map PackedFile.data) := by
  induction table generalizing fuel with
  | nil =>
    obtain ⟨fuel, rfl⟩ : ∃ k, fuel = k + 1 := ⟨fuel - 1, by omega⟩
    rw [List.flatMap_nil, List.nil_append, readFiles, splitOff_append (by decide)]
    simp [Except.bind, lossy_eq_iff]
  | cons f table ih =>
    obtain ⟨fuel, rfl⟩ : ∃ k, fuel = k + 1 := ⟨fuel - 1, by omega⟩
    obtain ⟨hlong, hmark⟩ := take_eq_identifier_iff f
    rw [List.flatMap_cons, List.append_assoc, List.forall_mem_cons, ← hmark, ← lossy_eq_iff]
    generalize hmore : table.flatMap writeFile ++ (identifier ++ ys) = more at ih ⊢
    have hhead : splitOff 8 (writeFile f ++ more) = .ok ((writeFile f).take 8, (writeFile f).drop 8 ++ more) := by
      nth_rewrite 1 [← List.take_append_drop 8 (writeFile f)]
      rw [List.append_assoc]
      exact splitOff_append (List.length_take_of_le hlong)
    rw [readFiles, hhead]
    dsimp only [Except.bind]
    split
    · next hend => exact ⟨[], _, rfl, .inr ⟨fun h => h.1 hend, by simp⟩⟩
    · next hgoes =>
      obtain ⟨parsed, rest, hread, hcases⟩ := ih (Nat.lt_of_succ_lt_succ hfuel)
      rw [readFile_append]
      dsimp only
      rw [hread]
      refine ⟨f.data :: parsed, rest, rfl, hcases.imp (fun h => ⟨⟨hgoes, h.1⟩, ?_, h.2.2⟩) fun h => ?_⟩
      · rw [h.2.1, List.map_cons]
      · exact ⟨fun hall => h.1 hall.2, fun heq => h.2 (List.cons.inj heq).2⟩

/-- **Round trip**: the reader finds the files and the executable of a package exactly if it takes none of the files
for the end mark. -/
theorem read_writePackageMetadata_iff (exe : String) :
    read (writePackageMetadata table exe) = .ok (table.map PackedFile.data, exe) ↔ ∀ f ∈ table, ¬ f.EndMark := by
  have hmark : identifier.length = 8 := by decide
  have hfuel : table.length < (table.flatMap writeFile ++ (identifier ++ Utf8.bytes exe)).length := by
    have hle : table.length ≤ (table.flatMap writeFile).length := by
      induction table with
      | nil => exact Nat.zero_le _
      | cons f table ih =>
        have hlong := (take_eq_identifier_iff f).1
        rw [List.flatMap_cons, List.length_append, List.length_cons]
        omega
    simp only [List.length_append, hmark]
    omega
  obtain ⟨parsed, rest, hread, hcases⟩ := @readFiles_cases (Utf8.bytes exe) table _ hfuel
  rw [read, writePackageMetadata, if_pos (by simp only [List.length_append, hmark]; omega), splitOff_append hmark]
  dsimp only [Except.bind]
  rw [if_neg (not_not_intro (lossy_eq_iff.mpr rfl)), hread]
  dsimp only
  rcases hcases with ⟨hall, rfl, rfl⟩ | ⟨hnot, hne⟩
  · exact iff_of_true (by rw [Utf8.lossy_bytes]) hall
  · exact iff_of_false (fun heq => hne (congrArg Prod.fst (Except.ok.inj heq))) hnot

end RustDesk.Portable
