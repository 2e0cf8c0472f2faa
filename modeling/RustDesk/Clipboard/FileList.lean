import RustDesk.Clipboard.LocalFile
import RustDesk.Common.Checked
import RustDesk.Common.UnixPath
import RustDesk.Common.Utf16
import Mathlib.Data.UInt

/-!
# The list of files on its way

References: `libs/clipboard/src/platform/unix/local_file.rs` (`as_bin`), `serv_files.rs` (`build_file_list_pdu`) and
`filetype.rs` (`parse_file_descriptor`, `parse_file_descriptors`).

A file is a record of 592 bytes, 520 of which are for its name. The name is written as it is, and read with `/` for
every `\`.
-/

namespace RustDesk.Clipboard

open MayPanic LittleEndian UnixPath

/-! ## Names -/

/-- What `utf16string` does: `as_bytes` of a `WString<LE>`, and `to_utf8` of `WStr::from_utf16le`. -/
structure WideString where
  encode : List Char → List UInt8
  decode : List UInt8 → Option (List Char)
  even : ∀ text, (encode text).length % 2 = 0
  decode_padded : ∀ text k,
    decode (encode text ++ List.replicate (2 * k) 0) = some (text ++ List.replicate k '\x00')

/-- UTF-16. -/
def utf16 : WideString where
  encode := Utf16.encode
  decode := Utf16.decode
  even := Utf16.even_length_encode
  decode_padded := fun text k => by
    rw [← Utf16.encode_nulls, ← Utf16.encode_append, Utf16.decode_encoded]

/-- The path that is sent: behind the root of the list, or the whole one. -/
def LocalFile.relativePath (f : LocalFile) : Path := (stripPrefix f.path f.relativeRoot).getD f.path

/-! ## Writing -/

/-- `LDAP_EPOCH_DELTA`. -/
def ldapEpochDelta : ℕ := 116444772610000000

def flagsFdAttributes : ℕ := 0x04
def flagsFdUnixMode : ℕ := 0x08
def flagsFdLastWrite : ℕ := 0x20
def flagsFdSize : ℕ := 0x40
def flagsFdProgressui : ℕ := 0x4000

namespace LocalFile

variable (wide : WideString) (f : LocalFile)

def fileAttributes : ℕ :=
  let readOnlyFlag := if f.readOnly then 0x1 else 0
  let hiddenFlag := if f.hidden then 0x2 else 0
  let systemFlag := if f.system then 0x4 else 0
  let directoryFlag := if f.isDir then 0x10 else 0
  let archiveFlag := if f.archive then 0x20 else 0
  let normalFlag := if f.normal then 0x80 else 0
  readOnlyFlag ||| hiddenFlag ||| systemFlag ||| directoryFlag ||| archiveFlag ||| normalFlag

/-- The time before 1970 is 1970, and nanoseconds are cut to 64 bits. -/
def win32Time : ℕ := f.lastWriteTime.toNat % 2 ^ 64 / 100 + ldapEpochDelta

/-- The record before the name. -/
def header : List UInt8 :=
  leBytes 4 (flagsFdSize ||| flagsFdLastWrite ||| flagsFdAttributes ||| flagsFdProgressui ||| flagsFdUnixMode) ++
    (List.replicate 32 0 ++ (leBytes 4 f.fileAttributes ++ (List.replicate 12 0 ++ (leBytes 4 f.perm.toNat ++
      (leBytes 8 f.win32Time ++ (leBytes 4 (f.size.toNat / 2 ^ 32) ++ leBytes 4 (f.size.toNat % 2 ^ 32)))))))

/-- `as_bin`. A name of more than 520 bytes leaves less than nothing for the padding. -/
def asBin : MayPanic (List UInt8) :=
  let name := wide.encode f.relativePath
  if name.length ≤ 520 then .ok (f.header ++ (name ++ List.replicate (520 - name.length) 0))
  else .error .overflow

end LocalFile

/-- The records of some files. -/
def putFiles (wide : WideString) : List LocalFile → MayPanic (List UInt8)
  | [] => .ok []
  | f :: fs => (f.asBin wide).bind fun record => (putFiles wide fs).bind fun data => .ok (record ++ data)

/-- `build_file_list_pdu`. -/
def buildFileListPdu (wide : WideString) (fileList : List LocalFile) : MayPanic (List UInt8) :=
  (putFiles wide fileList).bind fun data => .ok (leBytes 4 fileList.length ++ data)

/-! ## Reading -/

/-- `FileType`. -/
inductive FileType
  | file
  | directory
  | symlink
deriving DecidableEq

/-- `FileDescription`. The times count nanoseconds from 1970 on. -/
structure FileDescription where
  connId : ℤ
  name : Path
  kind : FileType
  atime : ℤ
  lastModified : ℤ
  lastMetadataChanged : ℤ
  creationTime : ℤ
  size : UInt64
  perm : UInt16
deriving DecidableEq

def permRead : UInt16 := 0o444
def permRw : UInt16 := 0o644
def permSelfRo : UInt16 := 0o400
def permRwx : UInt16 := 0o755

/-- `get_u32_le` and its like: a number, and the bytes behind it. -/
def getLe (k : ℕ) (bytes : List UInt8) : ℕ × List UInt8 := (ofLeBytes (bytes.take k), bytes.drop k)

/-- `wstr.to_utf8().replace('\\', "/")` without the null characters at its end. -/
def readName (text : List Char) : Path :=
  (text.map fun c => if c = '\\' then '/' else c).rdropWhile (· = '\x00')

/-- `parse_file_descriptor`, on bytes that hold a record. -/
def parseFileDescriptor (wide : WideString) (bytes : List UInt8) (connId : ℤ) :
    Except CliprdrError FileDescription × List UInt8 :=
  let (flags, bytes) := getLe 4 bytes
  let bytes := bytes.drop 32
  let (attributes, bytes) := getLe 4 bytes
  let bytes := bytes.drop 12
  let (perm, bytes) := getLe 4 bytes
  let (lastWriteTime, bytes) := getLe 8 bytes
  let (fileSizeHigh, bytes) := getLe 4 bytes
  let (fileSizeLow, bytes) := getLe 4 bytes
  let block := bytes.take 520
  let bytes := bytes.drop 520
  match wide.decode block with
  | none => (.error .conversionFailure, bytes)
  | some wstr =>
    let fromUnix : Bool := flags &&& flagsFdUnixMode ≠ 0
    let validAttributes : Bool := flags &&& flagsFdAttributes ≠ 0
    if ! validAttributes then
      (.error (.invalidRequest "file description must have valid attributes"), bytes)
    else
      let directory : Bool := attributes &&& 0x10 ≠ 0
      let normal : Bool := attributes = 0x80
      let hidden : Bool := attributes &&& 0x02 ≠ 0
      let readonly : Bool := attributes &&& 0x01 ≠ 0
      let perm :=
        if fromUnix then .ofNat perm
        else if normal then permRwx
        else if readonly then permRead
        else if hidden then permSelfRo
        else if directory then permRwx
        else permRw
      let kind := if directory then FileType.directory else .file
      let size := .ofNat (fileSizeHigh <<< 32 + fileSizeLow)
      let validWriteTime : Bool := flags &&& flagsFdLastWrite ≠ 0
      let lastModified : ℤ :=
        if validWriteTime ∧ ldapEpochDelta ≤ lastWriteTime then
          ((lastWriteTime - ldapEpochDelta) * 100 % 2 ^ 64 : ℕ)
        else 0
      (.ok {
        connId
        name := readName wstr
        kind
        atime := lastModified
        lastModified
        lastMetadataChanged := lastModified
        creationTime := lastModified
        size
        perm }, bytes)

/-- The loop of `parse_file_descriptors`. -/
def parseRecords (wide : WideString) (connId : ℤ) : ℕ → List UInt8 → Except CliprdrError (List FileDescription)
  | 0, _ => .ok []
  | count + 1, data =>
    match parseFileDescriptor wide data connId with
    | (.error e, _) => .error e
    | (.ok desc, data) => (parseRecords wide connId count data).map (desc :: ·)

/-- `parse_file_descriptors`. -/
def parseFileDescriptors (wide : WideString) (pdu : List UInt8) (connId : ℤ) :
    Except CliprdrError (List FileDescription) :=
  if pdu.length < 4 then .error (.invalidRequest "file descriptor request with infficient length")
  else
    let (count, data) := getLe 4 pdu
    if data.length = 0 ∧ count = 0 then .ok []
    else if data.length ≠ 592 * count then .error (.invalidRequest "file descriptor request with invalid length")
    else parseRecords wide connId count data

/-! ## What is read back -/

namespace LocalFile

variable {wide : WideString} {f : LocalFile}

/-- The time that is sent. -/
def sentTime (f : LocalFile) : ℕ := f.lastWriteTime.toNat % 2 ^ 64 / 100 * 100

/-- What a file is read back as. -/
def description (f : LocalFile) (connId : ℤ) : FileDescription where
  connId
  name := f.relativePath.map fun c => if c = '\\' then '/' else c
  kind := if f.isDir then .directory else .file
  atime := f.sentTime
  lastModified := f.sentTime
  lastMetadataChanged := f.sentTime
  creationTime := f.sentTime
  size := f.size
  perm := f.perm.toUInt16

end LocalFile

@[simp] theorem getLe_leBytes (k n : ℕ) (rest : List UInt8) :
    getLe k (leBytes k n ++ rest) = (n % 256 ^ k, rest) := by
  rw [getLe, List.take_left' (leBytes_length k n), List.drop_left' (leBytes_length k n), ofLeBytes_leBytes]

@[simp] theorem drop_zeros (k : ℕ) (rest : List UInt8) : (List.replicate k 0 ++ rest).drop k = rest :=
  List.drop_left' List.length_replicate

/-- The null characters behind a text without any are taken away. -/
theorem readName_append_nulls {text : List Char} (h : '\x00' ∉ text) (k : ℕ) :
    readName (text ++ List.replicate k '\x00') = text.map fun c => if c = '\\' then '/' else c := by
  have hread : '\x00' ∉ text.map fun c => if c = '\\' then '/' else c := by
    intro hmem
    obtain ⟨c, hc, heq⟩ := List.mem_map.mp hmem
    split at heq
    · cases heq
    · exact h (heq ▸ hc)
  rw [readName, List.map_append, List.map_replicate, if_neg (by decide)]
  induction k with
  | zero =>
    rw [List.replicate_zero, List.append_nil, List.rdropWhile_eq_self_iff]
    intro hne hlast
    exact hread (of_decide_eq_true hlast ▸ List.getLast_mem hne)
  | succ k ih =>
    rw [List.replicate_succ', ← List.append_assoc, List.rdropWhile_concat_pos _ _ _ (by decide)]
    exact ih

namespace LocalFile

variable {wide : WideString} {f : LocalFile}

/-- The bit of a directory among the attributes. -/
theorem fileAttributes_and_directory (f : LocalFile) :
    decide (f.fileAttributes % 256 ^ 4 &&& 0x10 ≠ 0) = f.isDir := by
  unfold fileAttributes
  generalize f.readOnly = a
  generalize f.hidden = b
  generalize f.system = c
  generalize f.isDir = d
  generalize f.archive = e
  generalize f.normal = g
  revert a b c d e g
  decide

/-- **A record is read back**, up to the name and the time. -/
theorem parseFileDescriptor_record (hlen : (wide.encode f.relativePath).length ≤ 520) (hnul : '\x00' ∉ f.relativePath)
    (rest : List UInt8) (connId : ℤ) :
    parseFileDescriptor wide (f.header ++ (wide.encode f.relativePath ++
      List.replicate (520 - (wide.encode f.relativePath).length) 0) ++ rest) connId =
        (.ok (f.description connId), rest) := by
  obtain ⟨k, hk⟩ : ∃ k, 520 - (wide.encode f.relativePath).length = 2 * k :=
    ⟨(520 - (wide.encode f.relativePath).length) / 2, by have heven := wide.even f.relativePath; omega⟩
  have hblock : (wide.encode f.relativePath ++ List.replicate (2 * k) 0).length = 520 := by
    rw [List.length_append, List.length_replicate]
    omega
  have hflags : (flagsFdSize ||| flagsFdLastWrite ||| flagsFdAttributes ||| flagsFdProgressui ||| flagsFdUnixMode) %
    256 ^ 4 = 0x406c := by decide
  have htime : f.win32Time % 256 ^ 8 = f.win32Time := by
    refine Nat.mod_eq_of_lt ?_
    unfold win32Time ldapEpochDelta
    omega
  have hsent : (f.win32Time - ldapEpochDelta) * 100 % 2 ^ 64 = f.sentTime := by
    unfold win32Time sentTime
    omega
  have hdelta : ldapEpochDelta ≤ f.win32Time := Nat.le_add_left _ _
  have hsize : UInt64.ofNat ((f.size.toNat / 2 ^ 32 % 256 ^ 4) <<< 32 + f.size.toNat % 2 ^ 32 % 256 ^ 4) = f.size := by
    have hlt := f.size.toNat_lt
    rw [Nat.shiftLeft_eq]
    have hrejoin : f.size.toNat / 2 ^ 32 % 256 ^ 4 * 2 ^ 32 + f.size.toNat % 2 ^ 32 % 256 ^ 4 = f.size.toNat := by
      omega
    rw [hrejoin, UInt64.ofNat_toNat]
  have hperm : UInt16.ofNat (f.perm.toNat % 256 ^ 4) = f.perm.toUInt16 := by
    have hmod : f.perm.toNat % 256 ^ 4 = f.perm.toNat := Nat.mod_eq_of_lt f.perm.toNat_lt
    rw [hmod]
    rfl
  rw [hk]
  simp only [parseFileDescriptor, header, List.append_assoc, getLe_leBytes, drop_zeros]
  rw [← List.append_assoc, List.take_left' hblock, List.drop_left' hblock, wide.decode_padded, hflags, htime, hsize,
    hperm]
  have hattributes : decide (0x406c &&& flagsFdAttributes ≠ 0) = true := rfl
  have hunix : decide (0x406c &&& flagsFdUnixMode ≠ 0) = true := rfl
  have hwrite : decide (0x406c &&& flagsFdLastWrite ≠ 0) = true := rfl
  dsimp only
  rw [readName_append_nulls hnul, fileAttributes_and_directory, hattributes, hunix, hwrite,
    if_neg (show ¬ (!true) = true by decide), if_pos (show true = true ∧ _ from ⟨rfl, hdelta⟩), hsent]
  rfl

/-- The record of a file. -/
def record (wide : WideString) (f : LocalFile) : List UInt8 :=
  f.header ++ (wide.encode f.relativePath ++ List.replicate (520 - (wide.encode f.relativePath).length) 0)

theorem length_header (f : LocalFile) : f.header.length = 72 := by simp [header]

theorem length_record (hlen : (wide.encode f.relativePath).length ≤ 520) : (f.record wide).length = 592 := by
  rw [record, List.length_append, length_header, List.length_append, List.length_replicate]
  omega

theorem no_nul_relativePath (hpath : '\x00' ∉ f.path) : '\x00' ∉ f.relativePath := by
  unfold relativePath
  cases hstrip : stripPrefix f.path f.relativeRoot with
  | none => exact hpath
  | some rest => exact fun h => hpath (mem_of_mem_stripPrefix (by decide) hstrip h)

end LocalFile

/-! ## The list -/

section List

variable {wide : WideString} {fs : List LocalFile}

/-- Every name has its room. -/
theorem putFiles_eq_ok_iff {data : List UInt8} : putFiles wide fs = .ok data ↔
      (∀ f ∈ fs, (wide.encode f.relativePath).length ≤ 520) ∧ data = fs.flatMap (LocalFile.record wide) := by
  induction fs generalizing data with
  | nil => simp [putFiles, eq_comm]
  | cons f fs ih =>
    rw [putFiles, LocalFile.asBin, List.forall_mem_cons, List.flatMap_cons]
    by_cases hlen : (wide.encode f.relativePath).length ≤ 520
    · rw [if_pos hlen]
      cases hput : putFiles wide fs with
      | error e =>
        refine iff_of_false nofun fun h => ?_
        have hrest : putFiles wide fs = .ok (fs.flatMap (LocalFile.record wide)) := ih.mpr ⟨h.1.2, rfl⟩
        rw [hrest] at hput
        cases hput
      | ok rest =>
        obtain ⟨hall, rfl⟩ := ih.mp hput
        exact ⟨fun h => ⟨⟨hlen, hall⟩, (Except.ok.inj h).symm⟩, fun h => congrArg _ h.2.symm⟩
    · rw [if_neg hlen]
      exact iff_of_false nofun fun h => hlen h.1.1

section

variable (h : ∀ f ∈ fs, (wide.encode f.relativePath).length ≤ 520)
include h

theorem length_records : (fs.flatMap (LocalFile.record wide)).length = 592 * fs.length := by
  induction fs with
  | nil => rfl
  | cons f fs ih =>
    rw [List.forall_mem_cons] at h
    rw [List.flatMap_cons, List.length_append, LocalFile.length_record h.1, ih h.2, List.length_cons]
    omega

theorem parseRecords_records (hnul : ∀ f ∈ fs, '\x00' ∉ f.path) (connId : ℤ) :
    parseRecords wide connId fs.length (fs.flatMap (LocalFile.record wide)) =
      .ok (fs.map fun f => f.description connId) := by
  induction fs with
  | nil => rfl
  | cons f fs ih =>
    rw [List.forall_mem_cons] at h hnul
    rw [List.length_cons, List.flatMap_cons, parseRecords, LocalFile.record,
      LocalFile.parseFileDescriptor_record h.1 (LocalFile.no_nul_relativePath hnul.1)]
    dsimp only
    rw [ih h.2 hnul.2]
    rfl

/-- **The list is read back**, unless its length does not fit in the count. -/
theorem parseFileDescriptors_pdu (hnul : ∀ f ∈ fs, '\x00' ∉ f.path) (connId : ℤ) :
    parseFileDescriptors wide (leBytes 4 fs.length ++ fs.flatMap (LocalFile.record wide)) connId =
      if fs.length < 2 ^ 32 then .ok (fs.map fun f => f.description connId)
      else .error (.invalidRequest "file descriptor request with invalid length") := by
  have hdata := length_records h
  have hlength : ¬ (leBytes 4 fs.length ++ fs.flatMap (LocalFile.record wide)).length < 4 := by
    rw [List.length_append, leBytes_length]
    omega
  rw [parseFileDescriptors, if_neg hlength, getLe_leBytes]
  dsimp only
  rw [hdata]
  by_cases hfits : fs.length < 2 ^ 32
  · have hcount : fs.length % 256 ^ 4 = fs.length := Nat.mod_eq_of_lt hfits
    rw [hcount, if_pos hfits]
    by_cases hnil : fs.length = 0
    · obtain rfl := List.length_eq_zero_iff.mp hnil
      rfl
    · rw [if_neg (by omega), if_neg (by omega), parseRecords_records h hnul]
  · rw [if_neg hfits, if_neg (by omega), if_pos (by omega)]

end

end List

end RustDesk.Clipboard
