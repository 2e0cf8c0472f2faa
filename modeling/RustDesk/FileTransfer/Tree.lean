import RustDesk.Common.DirTree
import RustDesk.FileTransfer.FileSystem

/-!
# File systems over a directory tree

`treeFs` is a file system whose state is a directory tree with symbolic links. It says which locations
its operations create, open, rename or delete; what the files hold is left out. Any operation may be
denied.
-/

namespace RustDesk.FileTransfer

open DirTree (Loc Step Node Fault)

/-! ## Paths as steps -/

/-- The step of a segment. -/
def segmentStep (seg : Path) : Step Path :=
  if seg = ['.'] then .here else if seg = ['.', '.'] then .up else .into seg

def steps (p : Path) : List (Step Path) := (segments p).map segmentStep

/-- Where a path starts, in a process with a current directory. -/
def origin (cwd : Loc Path) (p : Path) : Loc Path := if p.head? = some '/' then [] else cwd

/-- `MAXSYMLINKS`. -/
def maxLinks : ℕ := 40

/-- Where a path leads to. -/
def resolve (cwd : Loc Path) (T : DirTree Path) (p : Path) (follow : Bool) : Except Fault (Loc Path) :=
  (T.walk maxLinks (origin cwd p) (steps p) follow).map Prod.fst

theorem segments_slash (p q : Path) : segments (p ++ '/' :: q) = segments p ++ segments q := by
  rw [segments, segments, segments, List.splitOn_append_cons_self, List.filter_append]

theorem segments_of_not_mem {seg : Path} (h : '/' ∉ seg) (hne : seg ≠ []) : segments seg = [seg] := by
  rw [segments, List.splitOn_eq_singleton h]
  simpa using hne

@[simp]
theorem segments_nil : segments [] = [] := rfl

/-- The segments of a path that is pushed onto another. -/
theorem segments_push {p q : Path} (hq : q.head? ≠ some '/') : segments (push p q) = segments p ++ segments q := by
  rw [push, if_neg hq]
  split
  next hp =>
    obtain rfl | hlast := hp
    · rfl
    · obtain ⟨p', rfl⟩ : ∃ p', p = p' ++ ['/'] := List.getLast?_eq_some_iff.mp hlast
      rw [List.append_assoc, List.singleton_append, segments_slash, segments_slash, segments_nil, List.append_nil]
  · exact segments_slash p q

theorem origin_push {cwd : Loc Path} {p q : Path} (hq : q.head? ≠ some '/') :
    origin cwd (push p q) = origin cwd p := by
  rw [push, if_neg hq]
  split
  next hp =>
    cases p with
    | nil => simp [origin, hq]
    | cons c p => rfl
  next hp =>
    cases p with
    | nil => exact absurd (.inl rfl) hp
    | cons c p => rfl

theorem push_append {p q r : Path} (hq : q.head? ≠ some '/') (hne : q ≠ []) : push p q ++ r = push p (q ++ r) := by
  have hqr : (q ++ r).head? ≠ some '/' := by
    obtain ⟨c, q, rfl⟩ := List.exists_cons_of_ne_nil hne
    exact hq
  rw [push, push, if_neg hq, if_neg hqr]
  split <;> simp

/-- A suffix goes to the last segment, or is one of its own behind a slash. -/
theorem segments_suffix (p : Path) : ∃ front last, front <+: segments p ∧
    ∀ suffix, '/' ∉ suffix → suffix ≠ [] → segments (p ++ suffix) = front ++ [last ++ suffix] := by
  by_cases hslash : '/' ∈ p
  · -- behind the last slash
    obtain ⟨back, front, hrev, hback⟩ := List.eq_append_cons_of_mem (List.mem_reverse.mpr hslash)
    have hp : p = front.reverse ++ '/' :: back.reverse := by
      rw [← List.reverse_reverse p, hrev]
      simp
    refine ⟨segments front.reverse, back.reverse, ?_, fun suffix hsuffix hne => ?_⟩
    · rw [hp, segments_slash]
      exact List.prefix_append _ _
    · rw [hp, List.append_assoc, List.cons_append, segments_slash,
        segments_of_not_mem (show '/' ∉ back.reverse ++ suffix by simp [hback, hsuffix])]
      simp [hne]
  · refine ⟨[], p, List.nil_prefix, fun suffix hsuffix hne => ?_⟩
    rw [segments_of_not_mem, List.nil_append]
    · simp [hslash, hsuffix]
    · simp [hne]

theorem segmentStep_of_length {seg : Path} (h : 2 < seg.length) : segmentStep seg = .into seg := by
  rw [segmentStep, if_neg, if_neg]
  · rintro rfl
    simp at h
  · rintro rfl
    simp at h

/-! ## The file system -/

/-- A tree, and the locations that were created, opened, renamed or deleted, each with the tree as it
was then. -/
structure TreeState where
  tree : DirTree Path
  accessed : List (DirTree Path × Loc Path)
deriving DecidableEq

section Operations

variable (cwd : Loc Path) (denied : FsOp → TreeState → Path → Bool) (s : TreeState)

namespace TreeState

/-- An access, and the tree that it leaves. -/
def access (ls : List (Loc Path)) (T : DirTree Path) : TreeState where
  tree := T
  accessed := s.accessed ++ ls.map fun l => (s.tree, l)

/-- The node that a path leads to. -/
def nodeAt (p : Path) (follow : Bool) : Except FsError (Loc Path × Node Path) :=
  match resolve cwd s.tree p follow with
  | .ok l =>
    match s.tree.node l with
    | some node => .ok (l, node)
    | none => .error ⟨.notFound, "No such file or directory"⟩
  | .error .missing => .error ⟨.notFound, "No such file or directory"⟩
  | .error .notDir => .error ⟨.other, "Not a directory"⟩
  | .error .tooManyLinks => .error ⟨.other, "Too many levels of symbolic links"⟩

def permissionDenied : FsError := ⟨.other, "Permission denied"⟩

def stat (p : Path) (follow : Bool) : Except FsError (Node Path) :=
  if denied .stat s p then .error permissionDenied else (nodeAt cwd s p follow).map Prod.snd

/-- `mkdir`, of the directory that the first steps of a path lead to. -/
def mkdirStep (p : Path) (s : TreeState) (front : List (Step Path)) : TreeState :=
  match s.tree.walk maxLinks (origin cwd p) front false with
  | .ok (l, _) =>
    if s.tree.node l = none ∧ denied .mkdir s p = false then { s with tree := s.tree.mkdir l } else s
  | .error _ => s

def createDirAll (p : Path) : TreeState := (steps p).inits.foldl (mkdirStep cwd denied p) s

def removeFile (p : Path) : Except FsError Unit × TreeState :=
  if denied .unlink s p then (.error permissionDenied, s)
  else
    match nodeAt cwd s p false with
    | .error e => (.error e, s)
    | .ok (_, .dir) => (.error ⟨.other, "Is a directory"⟩, s)
    | .ok (l, _) => (.ok (), s.access [l] (s.tree.remove l))

/-- Whether a node may be moved over what is at a location. -/
def mayMove (l l' : Loc Path) : Node Path → Option (Node Path) → Bool
  | .dir, none => ¬ l <+: l'
  | .dir, some .dir => ¬ l <+: l' ∧ s.tree.isEmpty l'
  | .dir, some _ => false
  | _, some .dir => false
  | _, _ => true

def rename (p q : Path) : TreeState :=
  match nodeAt cwd s p false, resolve cwd s.tree q false with
  | .ok (l, node), .ok l' =>
    if denied .rename s p = false ∧ s.mayMove l l' node (s.tree.node l') then
      s.access [l, l'] (if l = l' then s.tree else s.tree.move l l')
    else s
  | _, _ => s

/-- Open a file for writing, or create it. -/
def openWrite (p : Path) : Except FsError (DirTree Path × Loc Path) × TreeState :=
  if denied .openWrite s p then (.error permissionDenied, s)
  else
    match resolve cwd s.tree p true with
    | .error _ => (.error ⟨.notFound, "No such file or directory"⟩, s)
    | .ok l =>
      match s.tree.node l with
      | none | some .file => (.ok (s.tree, l), s.access [l] (s.tree.putFile l))
      | some _ => (.error ⟨.other, "Is a directory"⟩, s)

def openRead (p : Path) : Except FsError (DirTree Path × Loc Path) :=
  if denied .openRead s p then .error permissionDenied
  else (nodeAt cwd s p true).map fun res => (s.tree, res.1)

/-- With the `.download` of a path in its place. -/
def putInPlace (p : Path) : TreeState :=
  ((s.removeFile cwd denied (p ++ digestSuffix)).2).rename cwd denied (p ++ downloadSuffix) p

/-- With the directories that a path needs. -/
def withParent (p : Path) : TreeState :=
  match parent p with
  | some pp => s.createDirAll cwd denied pp
  | none => s

/-- Without the `.digest` of a path, where there is one. -/
def withoutDigest (p : Path) : TreeState :=
  if (s.stat cwd denied (p ++ digestSuffix) true).isOk then
    (s.removeFile cwd denied (p ++ digestSuffix)).2
  else s

end TreeState

/-- The file system over a tree. An open file is its location, with the tree as it was when it was
opened. -/
def treeFs : FileSystem TreeState (DirTree Path × Loc Path) where
  pathExists s p := (s.stat cwd denied p true).isOk
  isFile s p := (s.stat cwd denied p true).toOption = some .file
  symlinkMetadata s p := (s.stat cwd denied p false).map Node.isLink
  metadata s p := (s.stat cwd denied p true).map fun _ => ⟨0, 0⟩
  readToString s p := (s.openRead cwd denied p).toOption.map fun _ => []
  createDirAll s p := s.createDirAll cwd denied p
  removeFile s p := s.removeFile cwd denied p
  rename s p q := s.rename cwd denied p q
  setFileMtime s _ _ := s
  write s p _ := (s.openWrite cwd denied p).2
  create s p := s.openWrite cwd denied p
  openWrite s p := s.openWrite cwd denied p
  openRead s p := s.openRead cwd denied p
  fileMetadata _ _ := .ok ⟨0, 0⟩
  seek _ h _ := some h
  syncAll s _ := if denied .sync s [] then .error TreeState.permissionDenied else .ok ()
  writeAll s h _ :=
    (if denied .write s [] then .error TreeState.permissionDenied else .ok (), h, s)
  read _ h _ := (.ok [], h)

end Operations

end RustDesk.FileTransfer
