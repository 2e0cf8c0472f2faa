import Mathlib.Algebra.Group.Nat.Defs
import Mathlib.Tactic.Common

/-!
# Paths and file systems

What a file transfer uses of `std::path`, `std::fs` and `tokio::fs`, in a build for Unix. A path is the
list of its characters. A `FileSystem` is a record of the operations over its states and its open
files; nothing is said here of what they do.
-/

namespace RustDesk.FileTransfer

/-- `String` and `Path`, by their characters. -/
abbrev Path := List Char

/-- `Vec<u8>`. -/
abbrev Bytes := List UInt8

/-! ## Paths -/

/-- `std::path::Component`, without the prefixes of Windows. -/
inductive Component
  | rootDir
  | curDir
  | parentDir
  | normal (seg : Path)
deriving DecidableEq

def Component.text : Component → Path
  | .rootDir => ['/']
  | .curDir => ['.']
  | .parentDir => ['.', '.']
  | .normal seg => seg

/-- What is between the separators. -/
def segments (p : Path) : List Path := (p.splitOn '/').filter (· ≠ [])

/-- The component of a segment; a `.` behind the front is none. -/
def innerComponent (seg : Path) : Option Component :=
  if seg = ['.'] then none
  else if seg = ['.', '.'] then some .parentDir
  else some (.normal seg)

/-- `Path::components`. -/
def components (p : Path) : List Component :=
  let inner := (segments p).filterMap innerComponent
  if p.head? = some '/' then .rootDir :: inner
  else if (segments p).head? = some ['.'] then .curDir :: inner
  else inner

/-- `PathBuf::push`. An absolute path replaces the other one. -/
def push (p : Path) (seg : Path) : Path :=
  if seg.head? = some '/' then seg
  else if p = [] ∨ p.getLast? = some '/' then p ++ seg
  else p ++ '/' :: seg

/-- `Path::parent`. -/
def parent (p : Path) : Option Path :=
  match (components p).getLast? with
  | none | some .rootDir => none
  | some _ => some ((components p).dropLast.foldl (fun q c => push q c.text) [])

/-- `Path::file_name`, the empty string where there is none. -/
def fileName (p : Path) : Path :=
  match (components p).getLast? with
  | some (.normal seg) => seg
  | _ => []

def downloadSuffix : Path := ['.', 'd', 'o', 'w', 'n', 'l', 'o', 'a', 'd']

def digestSuffix : Path := ['.', 'd', 'i', 'g', 'e', 's', 't']

/-! ## File systems -/

/-- The kind of an `io::Error`, as far as a transfer tells them apart. -/
inductive FsErrorKind
  | notFound
  | other
deriving DecidableEq

/-- An error, by its kind and its text. -/
structure FsError where
  kind : FsErrorKind
  text : String
deriving DecidableEq

/-- `Metadata`: the size, and the modification time in nanoseconds since the epoch. An earlier time is
an error of `duration_since`. -/
structure Metadata where
  len : ℕ
  modified : ℕ
deriving DecidableEq

def Metadata.modifiedSecs (m : Metadata) : ℕ := m.modified / 10 ^ 9

/-- `FileDigest`. -/
structure FileDigest where
  size : ℕ
  modified : ℕ
deriving DecidableEq

/-- What a file system may fail at. -/
inductive FsOp
  | stat
  | mkdir
  | unlink
  | rename
  | openWrite
  | openRead
  | sync
  | write
deriving DecidableEq

/-- The operations of a file system with states `σ` and open files `H`. Results that no transfer looks
at are left out. -/
structure FileSystem (σ H : Type*) where
  /-- `Path::exists` -/
  pathExists : σ → Path → Bool
  /-- `Path::is_file` -/
  isFile : σ → Path → Bool
  /-- `std::fs::symlink_metadata`: whether it is a symbolic link -/
  symlinkMetadata : σ → Path → Except FsError Bool
  /-- `std::fs::metadata` with `modified` and `duration_since` -/
  metadata : σ → Path → Except FsError Metadata
  /-- `std::fs::read_to_string` -/
  readToString : σ → Path → Option Bytes
  /-- `std::fs::create_dir_all` -/
  createDirAll : σ → Path → σ
  /-- `std::fs::remove_file` -/
  removeFile : σ → Path → Except FsError Unit × σ
  /-- `std::fs::rename` -/
  rename : σ → Path → Path → σ
  /-- `filetime::set_file_mtime` -/
  setFileMtime : σ → Path → ℕ → σ
  /-- `std::fs::write` -/
  write : σ → Path → Bytes → σ
  /-- `File::create` -/
  create : σ → Path → Except FsError H × σ
  /-- `OpenOptions::new().create(true).write(true).open` -/
  openWrite : σ → Path → Except FsError H × σ
  /-- `File::open` -/
  openRead : σ → Path → Except FsError H
  /-- `File::metadata` with `modified` and `duration_since` -/
  fileMetadata : σ → H → Except FsError Metadata
  /-- `File::seek` from the start -/
  seek : σ → H → ℕ → Option H
  /-- `File::sync_all` -/
  syncAll : σ → H → Except FsError Unit
  /-- `File::write_all` -/
  writeAll : σ → H → Bytes → Except FsError Unit × H × σ
  /-- `File::read`, of so many bytes at most -/
  read : σ → H → ℕ → Except FsError Bytes × H

end RustDesk.FileTransfer
