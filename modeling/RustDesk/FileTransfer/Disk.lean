import RustDesk.Common.Inodes
import RustDesk.FileTransfer.Job

/-!
# File systems that hold files

`diskFs` is a file system whose state is the files of a disk, with what they hold. Where a path leads
does not change: the directories and the links are there before the run. Any operation may fail, and
a write that fails may have written a part.
-/

namespace RustDesk.FileTransfer

/-- A file: what it holds, and the time of its last modification in nanoseconds. -/
structure FileData where
  bytes : Bytes
  modified : ℕ
deriving DecidableEq

/-- The files, by their locations. -/
abbrev Disk (L : Type*) := Inodes L FileData

/-- An open file, with the position in it. What is open for writing cannot be read. -/
structure Handle where
  node : ℕ
  pos : ℕ
  writable : Bool
deriving DecidableEq

/-- How a disk behaves for a while. -/
structure DiskEnv where
  /-- what fails at a path; what is done to an open file is asked for the empty path -/
  fails : FsOp → Path → Bool
  seekFails : Bool
  readFails : Bool
  utimeFails : Bool
  /-- how much a write that fails has written -/
  written : ℕ
  /-- a read returns no more than one byte above this -/
  chunk : ℕ
  now : ℕ

/-- A disk on which nothing fails. -/
def DiskEnv.faultless (chunk now : ℕ) : DiskEnv where
  fails _ _ := false
  seekFails := false
  readFails := false
  utimeFails := false
  written := 0
  chunk := chunk
  now := now

def ioError : FsError := ⟨.other, "Input/output error"⟩

def noSuchFile : FsError := ⟨.notFound, "No such file or directory"⟩

def badFileDescriptor : FsError := ⟨.other, "Bad file descriptor"⟩

namespace Disk

variable {L : Type*} (loc : Path → L) (env : DiskEnv) (s : Disk L)

/-- What a location holds. -/
def content (l : L) : Option Bytes := (s.get l).map FileData.bytes

/-- Give a file other bytes. -/
def put (i : ℕ) (data : Bytes) : Disk L := s.set i ⟨data, env.now⟩

def metadata (p : Path) : Except FsError Metadata :=
  if env.fails .stat p then .error ioError
  else
    match s.get (loc p) with
    | none => .error noSuchFile
    | some f => .ok ⟨f.bytes.length, f.modified⟩

def openRead (p : Path) : Except FsError Handle :=
  if env.fails .openRead p then .error ioError
  else
    match s.node (loc p) with
    | none => .error noSuchFile
    | some i => .ok ⟨i, 0, false⟩

def writeAll (h : Handle) (data : Bytes) : Except FsError Unit × Handle × Disk L :=
  if data = [] then (.ok (), h, s)
  else if h.writable = false then (.error badFileDescriptor, h, s)
  else if env.fails .write [] then
    let part := data.take env.written
    (.error ioError, { h with pos := h.pos + part.length },
      s.put env h.node (TransferJob.overwrite (s.val h.node).bytes h.pos part))
  else
    (.ok (), { h with pos := h.pos + data.length },
      s.put env h.node (TransferJob.overwrite (s.val h.node).bytes h.pos data))

def read (h : Handle) (room : ℕ) : Except FsError Bytes × Handle :=
  if env.readFails then (.error ioError, h)
  else if h.writable then (.error badFileDescriptor, h)
  else
    let data := ((s.val h.node).bytes.drop h.pos).take (min room (env.chunk + 1))
    (.ok data, { h with pos := h.pos + data.length })

variable [DecidableEq L]

def removeFile (p : Path) : Except FsError Unit × Disk L :=
  if env.fails .unlink p then (.error ioError, s)
  else
    match s.node (loc p) with
    | none => (.error noSuchFile, s)
    | some _ => (.ok (), s.unlink (loc p))

def rename (p q : Path) : Disk L :=
  if env.fails .rename p ∨ s.node (loc p) = none then s else s.move (loc p) (loc q)

/-- Open a file for writing, or create it. -/
def openWrite (p : Path) : Except FsError Handle × Disk L :=
  if env.fails .openWrite p then (.error ioError, s)
  else (.ok ⟨s.nodeOrFresh (loc p), 0, true⟩, s.link (loc p) ⟨[], env.now⟩)

/-- Open a file for writing, or create it, and truncate it. -/
def create (p : Path) : Except FsError Handle × Disk L :=
  if env.fails .openWrite p then (.error ioError, s)
  else
    let i := s.nodeOrFresh (loc p)
    (.ok ⟨i, 0, true⟩, put env (s.link (loc p) ⟨[], env.now⟩) i [])

def write (p : Path) (data : Bytes) : Disk L :=
  match s.create loc env p with
  | (.error _, s) => s
  | (.ok h, s) => s.put env h.node (if env.fails .write p then data.take env.written else data)

def setFileMtime (p : Path) (t : ℕ) : Disk L :=
  if env.utimeFails then s
  else
    match s.node (loc p) with
    | none => s
    | some i => s.set i { s.val i with modified := t * 10 ^ 9 }

end Disk

/-- The file system over a disk. -/
def diskFs {L : Type*} [DecidableEq L] (loc : Path → L) (env : DiskEnv) :
    FileSystem (Disk L) Handle where
  pathExists s p := (s.metadata loc env p).isOk
  isFile s p := (s.metadata loc env p).isOk
  symlinkMetadata s p := (s.metadata loc env p).map fun _ => false
  metadata s p := s.metadata loc env p
  readToString s p :=
    (s.openRead loc env p).toOption.map fun h => (s.val h.node).bytes
  createDirAll s _ := s
  removeFile s p := s.removeFile loc env p
  rename s p q := s.rename loc env p q
  setFileMtime s p t := s.setFileMtime loc env p t
  write s p data := s.write loc env p data
  create s p := s.create loc env p
  openWrite s p := s.openWrite loc env p
  openRead s p := s.openRead loc env p
  fileMetadata s h :=
    if env.fails .stat [] then .error ioError
    else .ok ⟨(s.val h.node).bytes.length, (s.val h.node).modified⟩
  seek _ h n := if env.seekFails then none else some { h with pos := n }
  syncAll _ _ := if env.fails .sync [] then .error ioError else .ok ()
  writeAll s h data := s.writeAll env h data
  read s h room := s.read env h room

namespace Disk

variable {L : Type*} {loc : Path → L} {env : DiskEnv} {s : Disk L} {l : L} {p q : Path} {data : Bytes} {i : ℕ}

/-! ## What operations leave of the content -/

theorem content_of_node (h : s.node l = some i) : s.content l = some (s.val i).bytes := by
  rw [content, s.get_of_node h]
  rfl

theorem content_eq_none : s.content l = none ↔ s.node l = none := by
  rw [content, Option.map_eq_none_iff, Inodes.get_eq_none]

theorem content_put (h : s.node l = some i) : (s.put env i data).content l = some data := by
  rw [content, put, s.get_set_of_node h]
  rfl

theorem content_put_of_ne {l' : L} (h : s.node l' = some i) (hne : l ≠ l') :
    (s.put env i data).content l = s.content l := by
  rw [content, put, s.get_set_of_ne_name h hne]
  rfl

variable [DecidableEq L]

theorem content_removeFile (hne : l ≠ loc p) : (s.removeFile loc env p).2.content l = s.content l := by
  unfold removeFile
  split
  · rfl
  · split
    · rfl
    · rw [content, Inodes.get_unlink_of_ne s hne]
      rfl

theorem removeFile_content (l : L) : (s.removeFile loc env p).2.content l = s.content l ∨
    (s.removeFile loc env p).2.content l = none := by
  by_cases hl : l = loc p
  · subst hl
    unfold removeFile
    split
    · exact .inl rfl
    · split
      · exact .inl rfl
      · right
        rw [content, Inodes.get_unlink_self]
        rfl
  · exact .inl (content_removeFile hl)

/-- A file is moved, or nothing happens. -/
theorem content_rename (env : DiskEnv) (s : Disk L) (hne : loc p ≠ loc q) :
    (∀ l, (s.rename loc env p q).content l = s.content l) ∨
      ∃ x, s.content (loc p) = some x ∧ ∀ l, (s.rename loc env p q).content l =
        if l = loc q then some x else if l = loc p then none else s.content l := by
  unfold rename
  split
  · exact .inl fun _ => rfl
  next h =>
    right
    rw [not_or] at h
    obtain ⟨i, hi⟩ := Option.ne_none_iff_exists'.mp h.2
    refine ⟨_, content_of_node hi, fun l => ?_⟩
    split
    next hl =>
      rw [hl, content, Inodes.get_move_target, ← content_of_node hi]
      rfl
    next hq =>
      split
      next hl =>
        rw [hl, content, Inodes.get_move_source s hne]
        rfl
      next hp =>
        rw [content, Inodes.get_move_of_ne s hp hq]
        rfl

omit [DecidableEq L] in
@[simp]
theorem content_setFileMtime {t : ℕ} (l : L) : (s.setFileMtime loc env p t).content l = s.content l := by
  unfold setFileMtime
  split
  · rfl
  · split
    · rfl
    next i hi =>
      by_cases hl : s.node l = some i
      · rw [content, s.get_set_of_node hl, content_of_node hl]
        rfl
      · rw [content, s.get_set_of_ne hl]
        rfl

/-- Opening a file for writing leaves what there is. -/
theorem content_openWrite (h : s.node l ≠ none ∨ l ≠ loc p) :
    (s.openWrite loc env p).2.content l = s.content l := by
  unfold openWrite
  split
  · rfl
  · obtain h | h := h
    · obtain ⟨i, hi⟩ := Option.ne_none_iff_exists'.mp h
      rw [content, s.get_link hi]
      rfl
    · rw [content, s.get_link_of_ne h]
      rfl

/-- What creating a file leaves of the others. -/
theorem create_frame (env : DiskEnv) (s : Disk L) (hne : l ≠ loc p) : (s.create loc env p).2.content l = s.content l ∧
    (s.create loc env p).2.node l = s.node l := by
  unfold create
  split
  · exact ⟨rfl, rfl⟩
  · constructor
    · rw [content_put_of_ne s.node_link_self hne, content, s.get_link_of_ne hne]
      rfl
    · exact s.node_link_of_ne (v := ⟨[], env.now⟩) hne

/-- A file that is created is open at its start, and empty. -/
theorem create_spec {h : Handle} (hcreate : (s.create loc env p).1 = .ok h) :
    h.pos = 0 ∧ h.writable = true ∧ (s.create loc env p).2.node (loc p) = some h.node ∧
      (s.create loc env p).2.content (loc p) = some [] := by
  unfold create at hcreate ⊢
  split at hcreate
  · cases hcreate
  next hfails =>
    rw [if_neg hfails]
    cases hcreate
    exact ⟨rfl, rfl, s.node_link_self (v := ⟨[], env.now⟩), content_put s.node_link_self⟩

theorem write_frame (env : DiskEnv) (s : Disk L) (data : Bytes) (hne : l ≠ loc p) : (s.write loc env p data).content l = s.content l ∧
    (s.write loc env p data).node l = s.node l := by
  have hframe := create_frame env s hne
  unfold write
  split
  next e s' heq =>
    rw [heq] at hframe
    exact hframe
  next h s' heq =>
    rw [heq] at hframe
    obtain ⟨-, -, hnode, -⟩ := create_spec (congrArg Prod.fst heq)
    rw [heq] at hnode
    exact ⟨(content_put_of_ne hnode hne).trans hframe.1, hframe.2⟩

omit [DecidableEq L] in
/-- What a write to an open file leaves. -/
theorem writeAll_spec (env : DiskEnv) (data : Bytes) {h : Handle} {l' : L} (hnode : h.writable = true → s.node l' = some h.node) :
    (∀ l ≠ l', (s.writeAll env h data).2.2.content l = s.content l) ∧
      ∀ u, (s.writeAll env h data).1 = .ok u → data = [] ∧ (s.writeAll env h data).2.2 = s ∨
        h.writable = true ∧ (s.writeAll env h data).2.2.content l' =
          some (TransferJob.overwrite (s.val h.node).bytes h.pos data) := by
  unfold writeAll
  split
  next hdata => exact ⟨fun _ _ => rfl, fun _ _ => .inl ⟨hdata, rfl⟩⟩
  · split
    · exact ⟨fun _ _ => rfl, fun _ h => by cases h⟩
    next hwritable =>
      have hnode := hnode (by simpa using hwritable)
      split
      · exact ⟨fun l hne => content_put_of_ne hnode hne, fun _ h => by cases h⟩
      · exact ⟨fun l hne => content_put_of_ne hnode hne,
          fun _ _ => .inr ⟨by simpa using hwritable, content_put hnode⟩⟩

end Disk

end RustDesk.FileTransfer
