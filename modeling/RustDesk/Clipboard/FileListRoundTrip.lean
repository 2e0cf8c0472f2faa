import RustDesk.Clipboard.FileTree
import Mathlib.Data.List.Forall2

/-!
# The list of files on its whole way

References: `libs/clipboard/src/platform/unix/local_file.rs` (`as_bin`), `serv_files.rs` (`build_file_list_pdu`),
`filetype.rs` (`parse_file_descriptors`) and `fuse/cs.rs` (`build_tree`).

A list is written on one side, read on the other and made a tree. What a name or a time loses on the way is lost in its
record; the indices of the tree are those of the list.
-/

namespace RustDesk.Clipboard

open LittleEndian UnixPath

/-- An entry that is read back is that of a file. -/
structure SameEntry (f : LocalFile) (desc : FileDescription) : Prop where
  name : components desc.name = components f.relativePath
  kind : desc.kind = if f.isDir then .directory else .file
  size : desc.size = f.size
  perm : desc.perm = f.perm.toUInt16
  lastModified : desc.lastModified = f.lastWriteTime / 100 * 100

/-- The list is written, and read back as it is; the nodes of its tree have the indices of the files. -/
def Survives (wide : WideString) (connId now : ℤ) (files : List LocalFile) : Prop :=
  ∃ pdu descs, buildFileListPdu wide files = .ok pdu ∧ parseFileDescriptors wide pdu connId = .ok descs ∧
    List.Forall₂ SameEntry files descs ∧
    ∀ tree, buildTree now descs = .ok tree → ∀ i desc, descs[i]? = some desc →
      ∃ node, tree[i + 1]? = some node ∧ NodeOf i desc node

/-- A file that fits in a record. -/
structure Fits (wide : WideString) (f : LocalFile) : Prop where
  name_le : (wide.encode f.relativePath).length ≤ 520
  no_backslash : '\\' ∉ f.relativePath
  time_nonneg : 0 ≤ f.lastWriteTime
  time_lt : f.lastWriteTime < 2 ^ 64

theorem components_replace_iff (text : Path) :
    components (text.map fun c => if c = '\\' then '/' else c) = components text ↔ '\\' ∉ text := by
  have hmap : '\\' ∉ text.map fun c => if c = '\\' then '/' else c := by
    intro h
    obtain ⟨c, -, heq⟩ := List.mem_map.mp h
    split at heq
    · cases heq
    · next hne => exact hne heq
  constructor
  · intro h hmem
    have hname := (mem_components_iff (by decide) (by decide)).mpr hmem
    rw [← h] at hname
    exact hmap ((mem_components_iff (by decide) (by decide)).mp hname)
  · intro h
    congr 1
    refine (List.map_congr_left fun c hc => ?_).trans (List.map_id text)
    exact if_neg fun (heq : c = '\\') => h (heq ▸ hc)

theorem sameEntry_description_iff {f : LocalFile} {connId : ℤ} : SameEntry f (f.description connId) ↔
      '\\' ∉ f.relativePath ∧ 0 ≤ f.lastWriteTime ∧ f.lastWriteTime < 2 ^ 64 := by
  have htime : (f.sentTime : ℤ) = f.lastWriteTime / 100 * 100 ↔ 0 ≤ f.lastWriteTime ∧ f.lastWriteTime < 2 ^ 64 := by
    unfold LocalFile.sentTime
    omega
  rw [← htime, ← components_replace_iff]
  exact ⟨fun h => ⟨h.name, h.lastModified⟩, fun h => ⟨h.1, rfl, rfl, rfl, h.2⟩⟩

section Survives

variable {wide : WideString} {connId now : ℤ} {files : List LocalFile}

theorem buildFileListPdu_eq_ok_iff {pdu : List UInt8} : buildFileListPdu wide files = .ok pdu ↔
      (∀ f ∈ files, (wide.encode f.relativePath).length ≤ 520) ∧
        pdu = leBytes 4 files.length ++ files.flatMap (LocalFile.record wide) := by
  unfold buildFileListPdu
  cases hput : putFiles wide files with
  | error e =>
    refine iff_of_false nofun fun h => ?_
    rw [putFiles_eq_ok_iff.mpr ⟨h.1, rfl⟩] at hput
    cases hput
  | ok data =>
    obtain ⟨hall, rfl⟩ := putFiles_eq_ok_iff.mp hput
    exact ⟨fun h => ⟨hall, (Except.ok.inj h).symm⟩, fun h => congrArg _ h.2.symm⟩

theorem forall₂_sameEntry_iff : List.Forall₂ SameEntry files (files.map fun f => f.description connId) ↔
      ∀ f ∈ files, SameEntry f (f.description connId) := by
  rw [List.forall₂_map_right_iff, List.forall₂_same]

theorem Survives.fits (h : Survives wide connId now files) (hnul : ∀ f ∈ files, '\x00' ∉ f.path) :
    files.length < 2 ^ 32 ∧ ∀ f ∈ files, Fits wide f := by
  obtain ⟨pdu, descs, hbuild, hparse, hsame, -⟩ := h
  obtain ⟨hall, rfl⟩ := buildFileListPdu_eq_ok_iff.mp hbuild
  rw [parseFileDescriptors_pdu hall hnul] at hparse
  split at hparse
  next hlength =>
    cases hparse
    refine ⟨hlength, fun f hf => ?_⟩
    obtain ⟨hname, hpos, hlt⟩ := sameEntry_description_iff.mp (forall₂_sameEntry_iff.mp hsame f hf)
    exact ⟨hall f hf, hname, hpos, hlt⟩
  next => cases hparse

theorem survives_of_fits (hnul : ∀ f ∈ files, '\x00' ∉ f.path) (hlength : files.length < 2 ^ 32)
    (hfits : ∀ f ∈ files, Fits wide f) : Survives wide connId now files := by
  have hall : ∀ f ∈ files, (wide.encode f.relativePath).length ≤ 520 := fun f hf => (hfits f hf).name_le
  refine ⟨_, files.map fun f => f.description connId, buildFileListPdu_eq_ok_iff.mpr ⟨hall, rfl⟩, ?_, ?_, ?_⟩
  · rw [parseFileDescriptors_pdu hall hnul, if_pos hlength]
  · exact forall₂_sameEntry_iff.mpr fun f hf => sameEntry_description_iff.mpr
      ⟨(hfits f hf).no_backslash, (hfits f hf).time_nonneg, (hfits f hf).time_lt⟩
  · exact fun tree htree i desc hdesc => node_of_buildTree htree hdesc

end Survives

/-- **The list survives exactly where every file fits in its record**, and their number in the count. -/
theorem survives_iff_fits (wide : WideString) (connId now : ℤ) (files : List LocalFile)
    (hnul : ∀ f ∈ files, '\x00' ∉ f.path) :
    Survives wide connId now files ↔ files.length < 2 ^ 32 ∧ ∀ f ∈ files, Fits wide f :=
  ⟨fun h => h.fits hnul, fun h => survives_of_fits hnul h.1 h.2⟩

/-! ## Four files -/

/-- A file in `/home/user` with this name and time. -/
def homeFile (name : String) (lastWriteTime : ℤ) : LocalFile where
  relativeRoot := "/home/user".toList
  path := "/home/user/".toList ++ name.toList
  handle := none
  offset := 0
  size := 2 ^ 33
  lastWriteTime
  isDir := false
  perm := 0o100644
  readOnly := false
  hidden := false
  system := false
  archive := false
  normal := true

/-- A name with a blank and a character of two units, and a time in 2023. -/
theorem survives_film :
    Survives utf16 7 0 [homeFile "a film 🎞.mkv" 1700000000123456789] := by
  refine (survives_iff_fits utf16 7 0 _ ?_).mpr ⟨by decide, ?_⟩
  · intro f hf
    obtain rfl := List.mem_singleton.mp hf
    decide +kernel
  · intro f hf
    obtain rfl := List.mem_singleton.mp hf
    exact ⟨by decide +kernel, by decide +kernel, by decide, by decide⟩

/-- A name with a backslash, one of 261 letters and a time before 1970. -/
theorem not_survives :
    ¬ Survives utf16 7 0 [homeFile "a\\b" 0] ∧
      buildFileListPdu utf16 [homeFile (String.ofList (List.replicate 261 'a')) 0] = .error .overflow ∧
      ¬ Survives utf16 7 0 [homeFile "a" (-1)] := by
  refine ⟨fun h => ?_, ?_, fun h => ?_⟩
  · have hfits := (h.fits (by decide +kernel)).2 _ (List.mem_singleton_self _)
    exact hfits.no_backslash (by decide +kernel)
  · have hlong : homeFile (String.ofList (List.replicate 261 'a')) 0 =
        { homeFile "" 0 with path := "/home/user/".toList ++ List.replicate 261 'a' } :=
      congrArg (fun name => { homeFile "" 0 with path := "/home/user/".toList ++ name }) String.toList_ofList
    rw [hlong]
    decide +kernel
  · have hfits := (h.fits (by decide +kernel)).2 _ (List.mem_singleton_self _)
    exact absurd hfits.time_nonneg (by decide)

end RustDesk.Clipboard
