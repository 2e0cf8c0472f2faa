import RustDesk.Clipboard.LocalFile
import RustDesk.Common.DepthFirst
import RustDesk.Common.DirTree
import RustDesk.Common.UnixPath

/-!
# The list of the files that are copied

References: `libs/clipboard/src/platform/unix/local_file.rs` (`construct_file_list`, `constr_file_lst`).

The selected paths are followed downwards, links included. What was visited is known by its path and not by what the
path leads to, so that a directory that is reached through a link is visited again, and a loop of links is gone around
until the system refuses to follow so many links.

Two paths of the same components lead to the same here; that a separator at the end asks for a directory is left out.
-/

namespace RustDesk.Clipboard

open UnixPath DepthFirst

/-- A location in the tree of the host. -/
abbrev Loc := DirTree.Loc (List Char)

/-- The step of a component, behind the start. -/
def toStep : Component → Option (DirTree.Step (List Char))
  | .rootDir => none
  | .curDir => some .here
  | .parentDir => some .up
  | .normal name => some (.into name)

/-- The file system of the host. It follows at most `maxLinks` links on a path, and takes the paths that are not too
long for it. `entries` is the order of `read_dir`. -/
structure HostFiles where
  tree : DirTree (List Char)
  cwd : Loc
  info : Loc → Metadata
  entries : Loc → List (List Char)
  isName : ∀ d, ∀ name ∈ entries d, IsName name
  nodup : ∀ d, (entries d).Nodup
  mem_entries : ∀ d name, name ∈ entries d ↔ tree.node (d ++ [name]) ≠ none
  maxLinks : ℕ
  admits : List Component → Bool

namespace HostFiles

section Paths

variable (fs : HostFiles)

/-- Follow steps to a directory or a file, with the links that are left to follow. -/
def follow (n : ℕ) (cur : Loc) (steps : List (DirTree.Step (List Char))) : Option (Loc × ℕ) :=
  match fs.tree.walk n cur steps true with
  | .ok (loc, m) => if fs.tree.node loc = some .dir ∨ fs.tree.node loc = some .file then some (loc, m) else none
  | .error _ => none

/-- Where the components of a path lead. -/
def resolve (cs : List Component) : Option (Loc × ℕ) :=
  if cs ≠ [] ∧ fs.admits cs then
    fs.follow fs.maxLinks (if cs.head? = some .rootDir then [] else fs.cwd) (cs.filterMap toStep)
  else none

/-- What a path leads to. -/
def locate (path : Path) : Option Loc := (fs.resolve (components path)).map Prod.fst

/-- `std::fs::metadata`. -/
def metadata (path : Path) : Option Metadata :=
  (fs.locate path).map fun loc => { fs.info loc with isDir := fs.tree.node loc = some .dir }

/-- `std::fs::read_dir`, by the names. -/
def readDir (path : Path) : Option (List (List Char)) :=
  (fs.locate path).bind fun loc => if fs.tree.node loc = some .dir then some (fs.entries loc) else none

end Paths

end HostFiles

/-- The list, and the paths that were visited. -/
structure Listing where
  fileList : List LocalFile
  visited : List (List Component)

/-- `constr_file_lst`. -/
def constrFileLst (fs : HostFiles) (relativeRoot : Path) :
    ℕ → Listing → Path → Except (Stopped CliprdrError) Listing
  | 0, _, _ => .error .outOfFuel
  | fuel + 1, s, path =>
    -- prevent fs loop
    if components path ∈ s.visited then .ok s
    else
      let visited := s.visited ++ [components path]
      match LocalFile.tryOpen relativeRoot path (fs.metadata path) with
      | .error e => .error (.failed e)
      | .ok localFile =>
        let s : Listing := ⟨s.fileList ++ [localFile], visited⟩
        match fs.metadata path with
        | none => .error (.failed (.fileError path))
        | some mt =>
          if mt.isDir then
            match fs.readDir path with
            | none => .error (.failed (.fileError path))
            | some dir => dir.foldlM (fun s entry => constrFileLst fs relativeRoot fuel s (pushName path entry)) s
          else .ok s

/-- The names of the longest location. -/
def HostFiles.depth (fs : HostFiles) : ℕ := (fs.tree.nodes.map fun e => e.1.length).foldr max 0

/-- As deep as a recursion can get: every link can start a way through the whole tree. -/
def HostFiles.fuel (fs : HostFiles) : ℕ := (fs.maxLinks + 1) * (fs.depth + 2)

/-- `construct_file_list`. -/
def constructFileList (fs : HostFiles) (paths : List Path) : Except (Stopped CliprdrError) (List LocalFile) :=
  match paths.head? with
  | none => .error (.failed (.invalidRequest "empty file list"))
  | some first =>
    match parentPath first with
    | none => .error (.failed (.invalidRequest "empty parent"))
    | some relativeRoot =>
      (paths.foldlM (constrFileLst fs relativeRoot fs.fuel) ⟨[], []⟩).map Listing.fileList

/-! ## What should be copied -/

namespace HostFiles

variable (fs : HostFiles) (paths : List Path)

/-- What an entry of a directory leads to. -/
def leadsTo (d : Loc) (name : List Char) : Option Loc := (fs.follow fs.maxLinks d [.into name]).map Prod.fst

/-- Below the selection there is this location, behind some directories. No location is passed twice on the way, so
that the way goes around no loop. -/
inductive Reaches : List Loc → Loc → Prop
  | selected {path : Path} {loc : Loc} (hpath : path ∈ paths) (h : fs.locate path = some loc) : Reaches [] loc
  | entry {passed : List Loc} {d loc : Loc} {name : List Char} (hd : Reaches passed d)
      (hdir : fs.tree.node d = some .dir) (hname : name ∈ fs.entries d) (h : fs.leadsTo d name = some loc)
      (hnew : loc ∉ d :: passed) : Reaches (d :: passed) loc

/-- The files of a list that a location is listed as. -/
def listed (list : List LocalFile) (loc : Loc) : ℕ := list.countP fun f => fs.locate f.path = some loc

/-- The list is made: no directory is in it twice, and every file below the selection is in it once. -/
def Copied : Prop :=
  ∃ list, constructFileList fs paths = .ok list ∧
    (∀ loc, fs.tree.node loc = some .dir → fs.listed list loc ≤ 1) ∧
    ∀ passed loc, fs.Reaches paths passed loc → fs.tree.node loc = some .file → fs.listed list loc = 1

/-- A path below the selection: one of it, or one of an entry in a directory below it. -/
inductive Below : Path → Prop
  | selected {path : Path} (h : path ∈ paths) : Below path
  | entry {path : Path} {dir : List (List Char)} {name : List Char} (hpath : Below path)
      (hdir : fs.readDir path = some dir) (hname : name ∈ dir) : Below (pushName path name)

/-- No two paths below the selection lead to one place, and all of them lead somewhere: none has more links on it
than the system follows, and none is too long. -/
structure Clear : Prop where
  resolves : ∀ path, fs.Below paths path → ∃ loc, fs.locate path = some loc
  unique : ∀ path path' loc, fs.Below paths path → fs.Below paths path' → fs.locate path = some loc →
    fs.locate path' = some loc → components path = components path'

end HostFiles

/-! ## Where paths lead -/

namespace HostFiles

variable {fs : HostFiles} {paths : List Path} {path path' : Path} {cs : List Component} {n m : ℕ} {cur loc d : Loc}
  {steps : List (DirTree.Step (List Char))} {name : List Char}

theorem walk_of_follow (h : fs.follow n cur steps = some (loc, m)) : fs.tree.walk n cur steps true = .ok (loc, m) ∧
      (fs.tree.node loc = some .dir ∨ fs.tree.node loc = some .file) := by
  unfold follow at h
  split at h
  next loc' m' hwalk =>
    split at h
    next hnode =>
      cases h
      exact ⟨hwalk, hnode⟩
    next => cases h
  next => cases h

theorem follow_of_walk (h : fs.tree.walk n cur steps true = .ok (loc, m))
    (hnode : fs.tree.node loc = some .dir ∨ fs.tree.node loc = some .file) :
    fs.follow n cur steps = some (loc, m) := by
  unfold follow
  rw [h]
  exact if_pos hnode

/-- The steps behind a place go on from it. -/
theorem follow_append {more : List (DirTree.Step (List Char))} (hmore : more ≠ [])
    (h : fs.follow n cur steps = some (d, m)) : fs.follow n cur (steps ++ more) = fs.follow m d more := by
  unfold follow
  rw [DirTree.walk_append steps hmore, (walk_of_follow h).1]
  rfl

/-- More links lead to the same place. -/
theorem follow_le (h : fs.follow m cur steps = some (loc, n)) {k : ℕ} (hk : m ≤ k) :
    ∃ left, fs.follow k cur steps = some (loc, left) := by
  obtain ⟨hwalk, hnode⟩ := walk_of_follow h
  obtain ⟨more, rfl⟩ := Nat.exists_eq_add_of_le hk
  exact ⟨_, follow_of_walk (DirTree.walk_add more hwalk) hnode⟩

theorem follow_of_resolve (h : fs.resolve cs = some (loc, m)) :
    cs ≠ [] ∧ fs.follow fs.maxLinks (if cs.head? = some .rootDir then [] else fs.cwd) (cs.filterMap toStep) =
      some (loc, m) := by
  unfold resolve at h
  split at h
  next hcs => exact ⟨hcs.1, h⟩
  next => cases h

theorem remaining_le_of_resolve (h : fs.resolve cs = some (loc, m)) : m ≤ fs.maxLinks :=
  DirTree.remaining_le_of_walk (walk_of_follow (follow_of_resolve h).2).1

/-- An entry of a place that a path leads to. -/
theorem resolve_push (h : fs.resolve cs = some (d, m)) (name : List Char) : fs.resolve (cs ++ [.normal name]) =
      if fs.admits (cs ++ [.normal name]) then fs.follow m d [.into name] else none := by
  obtain ⟨hne, hfollow⟩ := follow_of_resolve h
  have hhead : (cs ++ [Component.normal name]).head? = cs.head? := by
    cases cs with
    | nil => exact absurd rfl hne
    | cons c cs => rfl
  have hsteps : (cs ++ [Component.normal name]).filterMap toStep = cs.filterMap toStep ++ [.into name] := by
    rw [List.filterMap_append]
    rfl
  unfold resolve
  rw [hhead, hsteps, follow_append (List.cons_ne_nil _ _) hfollow]
  by_cases hadmits : fs.admits (cs ++ [.normal name]) = true
  · rw [if_pos ⟨by simp, hadmits⟩, if_pos hadmits]
  · rw [if_neg (fun h => hadmits h.2), if_neg hadmits]

theorem locate_eq_some : fs.locate path = some loc ↔ ∃ m, fs.resolve (components path) = some (loc, m) := by
  simp [locate]

theorem locate_congr (h : components path = components path') : fs.locate path = fs.locate path' := by
  rw [locate, locate, h]

theorem node_of_locate (h : fs.locate path = some loc) :
    fs.tree.node loc = some .dir ∨ fs.tree.node loc = some .file := by
  obtain ⟨m, hm⟩ := locate_eq_some.mp h
  exact (walk_of_follow (follow_of_resolve hm).2).2

theorem readDir_eq_some {dir : List (List Char)} (h : fs.readDir path = some dir) :
    ∃ d, fs.locate path = some d ∧ fs.tree.node d = some .dir ∧ dir = fs.entries d := by
  unfold readDir at h
  obtain ⟨d, hd, hdir⟩ := Option.bind_eq_some_iff.mp h
  split at hdir
  next hnode => exact ⟨d, hd, hnode, (Option.some.inj hdir).symm⟩
  next => cases hdir

theorem readDir_of_dir (h : fs.locate path = some d) (hdir : fs.tree.node d = some .dir) :
    fs.readDir path = some (fs.entries d) := by
  rw [readDir, h, Option.bind_some, if_pos hdir]

/-- An entry of a directory below is where it leads by itself, if the path to it leads anywhere. -/
theorem locate_pushName (hpath : fs.locate path = some d) (hname : IsName name)
    (h : fs.locate (pushName path name) = some loc) : fs.leadsTo d name = some loc := by
  obtain ⟨m, hm⟩ := locate_eq_some.mp hpath
  obtain ⟨k, hk⟩ := locate_eq_some.mp h
  rw [components_pushName hname, resolve_push hm] at hk
  split at hk
  · obtain ⟨left, hleft⟩ := follow_le hk (remaining_le_of_resolve hm)
    rw [leadsTo, hleft]
    rfl
  · cases hk

/-! ## How deep a path can get -/

theorem le_foldr_max {k : ℕ} {ks : List ℕ} (h : k ∈ ks) : k ≤ ks.foldr max 0 := by
  induction ks with
  | nil => cases h
  | cons j ks ih =>
    rw [List.foldr_cons]
    rcases List.mem_cons.mp h with rfl | h
    · exact Nat.le_max_left _ _
    · exact (ih h).trans (Nat.le_max_right _ _)

theorem length_le_depth {node : DirTree.Node (List Char)} (h : fs.tree.node loc = some node) :
    loc.length ≤ fs.depth := by
  by_cases hroot : loc = []
  · subst hroot
    exact Nat.zero_le _
  · exact le_foldr_max (List.mem_map_of_mem (DirTree.mem_nodes_of_node hroot h))

/-- The links that are left on a path, and the names that its place can have behind it. -/
def rank (fs : HostFiles) (path : Path) : ℕ :=
  match fs.resolve (components path) with
  | none => 0
  | some (loc, m) => m * (fs.depth + 2) + (fs.depth + 1 - loc.length)

theorem rank_lt_fuel (fs : HostFiles) (path : Path) : fs.rank path < fs.fuel := by
  have hfuel : fs.fuel = fs.maxLinks * (fs.depth + 2) + (fs.depth + 2) := Nat.succ_mul _ _
  unfold rank
  cases hresolve : fs.resolve (components path) with
  | none =>
    dsimp only
    omega
  | some res =>
    obtain ⟨loc, m⟩ := res
    dsimp only
    have hm := Nat.mul_le_mul_right (fs.depth + 2) (remaining_le_of_resolve hresolve)
    omega

/-- An entry has less before it than its directory. -/
theorem rank_pushName_lt (hpath : fs.locate path = some d) (hname : IsName name) :
    fs.rank (pushName path name) < fs.rank path := by
  obtain ⟨m, hm⟩ := locate_eq_some.mp hpath
  have hdepth : d.length ≤ fs.depth := by
    rcases node_of_locate hpath with hnode | hnode <;> exact length_le_depth hnode
  have hrank : fs.rank path = m * (fs.depth + 2) + (fs.depth + 1 - d.length) := by rw [rank, hm]
  rw [hrank]
  unfold rank
  rw [components_pushName hname, resolve_push hm]
  cases hentry : (if fs.admits (components path ++ [.normal name]) then fs.follow m d [.into name] else none) with
  | none =>
    dsimp only
    omega
  | some res =>
    obtain ⟨loc, k⟩ := res
    split at hentry
    · obtain ⟨hwalk, -⟩ := walk_of_follow hentry
      dsimp only
      rcases DirTree.walk_name hwalk with ⟨rfl, rfl⟩ | hlt
      · rw [List.length_append, List.length_singleton]
        omega
      · have hlinks := Nat.mul_le_mul_right (fs.depth + 2) (Nat.succ_le_of_lt hlt)
        rw [Nat.succ_mul] at hlinks
        omega
    · cases hentry

/-! ## The search -/

/-- What a path gives, and the paths behind it. -/
def expand (fs : HostFiles) (relativeRoot path : Path) : Except CliprdrError (LocalFile × List Path) :=
  match LocalFile.tryOpen relativeRoot path (fs.metadata path) with
  | .error e => .error e
  | .ok localFile => .ok (localFile, ((fs.readDir path).getD []).map (pushName path))

variable {relativeRoot : Path}

theorem expand_of_none (h : fs.locate path = none) : fs.expand relativeRoot path = .error (.fileError path) := by
  rw [expand, metadata, h]
  rfl

theorem expand_of_some (h : fs.locate path = some loc) :
    ∃ f, LocalFile.tryOpen relativeRoot path (fs.metadata path) = .ok f ∧ f.path = path ∧
      f.isDir = decide (fs.tree.node loc = some .dir) ∧
      fs.expand relativeRoot path = .ok (f, ((fs.readDir path).getD []).map (pushName path)) := by
  rw [expand, metadata, h]
  exact ⟨_, rfl, rfl, rfl, rfl⟩

/-- A path gives something just if it leads somewhere. -/
theorem expand_ok_iff : (∃ res, fs.expand relativeRoot path = .ok res) ↔ ∃ loc, fs.locate path = some loc := by
  cases hlocate : fs.locate path with
  | none =>
    rw [expand_of_none hlocate]
    exact iff_of_false (fun ⟨_, h⟩ => nomatch h) fun ⟨_, h⟩ => nomatch h
  | some loc =>
    obtain ⟨f, -, -, -, hexpand⟩ := @expand_of_some fs path loc relativeRoot hlocate
    rw [hexpand]
    exact iff_of_true ⟨_, rfl⟩ ⟨loc, rfl⟩

theorem uniform_expand (fs : HostFiles) (relativeRoot : Path) : Uniform components (fs.expand relativeRoot) := by
  intro path path' f next hsame hexpand
  obtain ⟨loc, hloc⟩ := expand_ok_iff.mp ⟨_, hexpand⟩
  have hloc' : fs.locate path' = some loc := (locate_congr hsame).symm.trans hloc
  obtain ⟨g, -, -, -, hexpand'⟩ := @expand_of_some fs path' loc relativeRoot hloc'
  obtain ⟨f', -, -, -, hf⟩ := @expand_of_some fs path loc relativeRoot hloc
  cases hexpand.symm.trans hf
  refine ⟨g, _, hexpand', ?_⟩
  have hdir : fs.readDir path' = fs.readDir path := by rw [readDir, readDir, hloc, hloc']
  rw [hdir, List.map_map, List.map_map]
  cases hread : fs.readDir path with
  | none => rfl
  | some dir =>
    obtain ⟨d, -, -, rfl⟩ := readDir_eq_some hread
    refine List.map_congr_left fun name hname => ?_
    have hisName := fs.isName d name hname
    dsimp only [Function.comp_apply]
    rw [components_pushName hisName, components_pushName hisName, hsame]

theorem ranked_expand (fs : HostFiles) (relativeRoot : Path) : Ranked (fs.expand relativeRoot) fs.rank := by
  intro path f next hexpand c hc
  obtain ⟨loc, hloc⟩ := expand_ok_iff.mp ⟨_, hexpand⟩
  obtain ⟨f', -, -, -, hf⟩ := @expand_of_some fs path loc relativeRoot hloc
  cases hexpand.symm.trans hf
  obtain ⟨name, hname, rfl⟩ := List.mem_map.mp hc
  cases hread : fs.readDir path with
  | none =>
    rw [hread] at hname
    cases hname
  | some dir =>
    obtain ⟨d, hd, -, rfl⟩ := readDir_eq_some hread
    rw [hread] at hname
    exact rank_pushName_lt hd (fs.isName d name hname)

/-- The paths below a selection are those that the search can reach. -/
theorem below_iff_reached : fs.Below paths path ↔ Reached (fs.expand relativeRoot) paths path := by
  constructor
  · intro h
    induction h with
    | selected hpath => exact .start hpath
    | @entry path dir name hpath hdir hname ih =>
      obtain ⟨d, hd, -, -⟩ := readDir_eq_some hdir
      obtain ⟨f, -, -, -, hexpand⟩ := @expand_of_some fs path d relativeRoot hd
      refine .next ih hexpand ?_
      rw [hdir]
      exact List.mem_map_of_mem hname
  · intro h
    induction h with
    | start hpath => exact .selected hpath
    | @next path c f next hpath hexpand hc ih =>
      obtain ⟨loc, hloc⟩ := expand_ok_iff.mp ⟨_, hexpand⟩
      obtain ⟨f', -, -, -, hf⟩ := @expand_of_some fs path loc relativeRoot hloc
      cases hexpand.symm.trans hf
      obtain ⟨name, hname, rfl⟩ := List.mem_map.mp hc
      cases hread : fs.readDir path with
      | none =>
        rw [hread] at hname
        cases hname
      | some dir =>
        rw [hread] at hname
        exact .entry ih hread hname

end HostFiles

/-! ## The list is what the search visits -/

/-- The state of the code after a search. -/
def toListing (out : List (Path × LocalFile)) : Listing := ⟨out.map Prod.snd, keys components out⟩

theorem foldlM_map_state {S S' K E : Type} {φ : S → S'} {f : S → K → Except E S} {g : S' → K → Except E S'}
    (h : ∀ s k, g (φ s) k = (f s k).map φ) (ks : List K) (s : S) :
    ks.foldlM g (φ s) = (ks.foldlM f s).map φ := by
  induction ks generalizing s with
  | nil => rfl
  | cons k ks ih =>
    rw [List.foldlM_cons, List.foldlM_cons, h]
    cases f s k with
    | error e => rfl
    | ok s' => exact ih s'

/-- **The code searches in depth.** -/
theorem constrFileLst_eq_visit (fs : HostFiles) (relativeRoot : Path) (fuel : ℕ) :
    ∀ out path, constrFileLst fs relativeRoot fuel (toListing out) path =
      (visit components (fs.expand relativeRoot) fuel out path).map toListing := by
  induction fuel with
  | zero => exact fun _ _ => rfl
  | succ fuel ih =>
    intro out path
    rw [constrFileLst, visit]
    by_cases hvisited : components path ∈ keys components out
    · rw [if_pos hvisited, if_pos (show components path ∈ (toListing out).visited from hvisited)]
      rfl
    · rw [if_neg hvisited, if_neg (show ¬ components path ∈ (toListing out).visited from hvisited)]
      cases hlocate : fs.locate path with
      | none =>
        rw [HostFiles.expand_of_none hlocate, HostFiles.metadata, hlocate]
        rfl
      | some loc =>
        obtain ⟨f, hopen, -, -, hexpand⟩ := @HostFiles.expand_of_some fs path loc relativeRoot hlocate
        have hmetadata : fs.metadata path =
            some { fs.info loc with isDir := decide (fs.tree.node loc = some .dir) } := by
          rw [HostFiles.metadata, hlocate]
          rfl
        have hstate : Listing.mk ((toListing out).fileList ++ [f]) ((toListing out).visited ++ [components path]) =
            toListing (out ++ [(path, f)]) := by
          simp [toListing, keys]
        rw [hexpand, hopen]
        dsimp only
        rw [hmetadata, hstate]
        dsimp only
        by_cases hdir : fs.tree.node loc = some .dir
        · rw [if_pos (decide_eq_true hdir), HostFiles.readDir_of_dir hlocate hdir, Option.getD_some]
          rw [List.foldlM_map]
          exact foldlM_map_state (fun o name => ih o (pushName path name)) _ _
        · have hnone : fs.readDir path = none := by
            rw [HostFiles.readDir, hlocate, Option.bind_some, if_neg hdir]
          rw [if_neg (by simpa using hdir), hnone]
          rfl

/-- The list is that of a search from the selection. -/
theorem constructFileList_eq_search (fs : HostFiles) {paths : List Path} {first relativeRoot : Path}
    (hfirst : paths.head? = some first) (hroot : parentPath first = some relativeRoot) :
    constructFileList fs paths =
      (search components (fs.expand relativeRoot) fs.fuel paths).map fun out => out.map Prod.snd := by
  have hrun := @foldlM_map_state _ _ _ _ toListing _ _ (constrFileLst_eq_visit fs relativeRoot fs.fuel) paths []
  rw [constructFileList, hfirst]
  dsimp only
  rw [hroot]
  dsimp only
  rw [show (⟨[], []⟩ : Listing) = toListing [] from rfl, hrun, search]
  cases paths.foldlM (visit components (fs.expand relativeRoot) fs.fuel) [] <;> rfl

/-- **The recursion ends on every file system**, with a list or an error. -/
theorem constructFileList_ne_outOfFuel (fs : HostFiles) (paths : List Path) :
    constructFileList fs paths ≠ .error .outOfFuel := by
  intro h
  cases hfirst : paths.head? with
  | none =>
    rw [constructFileList, hfirst] at h
    cases h
  | some first =>
    cases hroot : parentPath first with
    | none =>
      rw [constructFileList, hfirst] at h
      dsimp only at h
      rw [hroot] at h
      cases h
    | some relativeRoot =>
      rw [constructFileList_eq_search fs hfirst hroot] at h
      cases hrun : search components (fs.expand relativeRoot) fs.fuel paths with
      | ok out =>
        rw [hrun] at h
        cases h
      | error s =>
        rw [hrun] at h
        obtain ⟨e, path, rfl, -⟩ := stopped_of_search (fs.ranked_expand relativeRoot)
          (fun path _ => fs.rank_lt_fuel path) hrun
        cases h

/-! ## What is listed -/

section Listed

variable {fs : HostFiles} {paths : List Path} {path path' : Path} {loc : Loc} {out : List (Path × LocalFile)}

/-- Entries that are all of one key are one at most. -/
theorem countP_le_one {P : LocalFile → Bool} (hnodup : (keys components out).Nodup)
    (hsame : ∀ e ∈ out, ∀ e' ∈ out, P e.2 = true → P e'.2 = true → components e.1 = components e'.1) :
    (out.map Prod.snd).countP P ≤ 1 := by
  rw [List.countP_map, List.countP_eq_length_filter]
  have hfilter : (keys components (out.filter (P ∘ Prod.snd))).Nodup :=
    (List.filter_sublist.map _).nodup hnodup
  cases hout : out.filter (P ∘ Prod.snd) with
  | nil => exact Nat.zero_le _
  | cons e rest =>
    cases rest with
    | nil => exact Nat.le_refl _
    | cons e' rest =>
      have hmem : ∀ x ∈ e :: e' :: rest, x ∈ out ∧ P x.2 = true := by
        intro x hx
        rw [← hout] at hx
        exact List.mem_filter.mp hx
      obtain ⟨he, hPe⟩ := hmem e List.mem_cons_self
      obtain ⟨he', hPe'⟩ := hmem e' (List.mem_cons_of_mem _ List.mem_cons_self)
      rw [hout] at hfilter
      have hkey := hsame e he e' he' hPe hPe'
      exact absurd (List.mem_map.mpr ⟨e', List.mem_cons_self, hkey.symm⟩) (List.nodup_cons.mp hfilter).1

/-- Two entries that are counted, and counted once at most, are the same. -/
theorem eq_of_countP_le_one {P : LocalFile → Bool} (h : (out.map Prod.snd).countP P ≤ 1)
    {e e' : Path × LocalFile} (he : e ∈ out) (he' : e' ∈ out) (hP : P e.2 = true) (hP' : P e'.2 = true) : e = e' := by
  rw [List.countP_map, List.countP_eq_length_filter] at h
  have hmem : e ∈ out.filter (P ∘ Prod.snd) := List.mem_filter.mpr ⟨he, hP⟩
  have hmem' : e' ∈ out.filter (P ∘ Prod.snd) := List.mem_filter.mpr ⟨he', hP'⟩
  generalize out.filter (P ∘ Prod.snd) = found at h hmem hmem'
  cases found with
  | nil => cases hmem
  | cons x rest =>
    obtain rfl : rest = [] := by
      rw [List.length_cons] at h
      exact List.eq_nil_of_length_eq_zero (by omega)
    rw [List.mem_singleton.mp hmem, List.mem_singleton.mp hmem']

/-- What a search that did not fail tells of the paths below its selection. -/
structure Searched (fs : HostFiles) (paths : List Path) (out : List (Path × LocalFile)) : Prop where
  nodup : (keys components out).Nodup
  own : ∀ e ∈ out, fs.Below paths e.1 ∧ e.2.path = e.1
  all : ∀ path, fs.Below paths path → (∃ loc, fs.locate path = some loc) ∧ components path ∈ keys components out

theorem searched_of_search {relativeRoot : Path} {fuel : ℕ}
    (h : search components (fs.expand relativeRoot) fuel paths = .ok out) : Searched fs paths out := by
  obtain ⟨hnodup, hown, hall⟩ := visited_of_search (fs.uniform_expand relativeRoot) h
  refine ⟨hnodup, fun e he => ?_, fun path hpath => ?_⟩
  · obtain ⟨hreached, next, hexpand⟩ := hown e he
    refine ⟨HostFiles.below_iff_reached.mpr hreached, ?_⟩
    obtain ⟨loc, hloc⟩ := HostFiles.expand_ok_iff.mp ⟨_, hexpand⟩
    obtain ⟨f, -, hpath, -, hf⟩ := @HostFiles.expand_of_some fs e.1 loc relativeRoot hloc
    obtain ⟨rfl, -⟩ := Prod.mk.inj (Except.ok.inj (hf.symm.trans hexpand))
    exact hpath
  · obtain ⟨hexpand, hkey⟩ := hall path (HostFiles.below_iff_reached.mp hpath)
    exact ⟨HostFiles.expand_ok_iff.mp hexpand, hkey⟩

/-- A path below the selection is in the list, as a path of the same components. -/
theorem Searched.entry (h : Searched fs paths out) (hpath : fs.Below paths path) (hloc : fs.locate path = some loc) :
    ∃ e ∈ out, components e.1 = components path ∧ fs.locate e.2.path = some loc := by
  obtain ⟨e, he, hkey⟩ := List.mem_map.mp (h.all path hpath).2
  refine ⟨e, he, hkey, ?_⟩
  rw [(h.own e he).2, HostFiles.locate_congr hkey, hloc]

/-- Paths to a place that is listed once at most are the same. -/
theorem Searched.unique (h : Searched fs paths out) (hlisted : fs.listed (out.map Prod.snd) loc ≤ 1)
    (hpath : fs.Below paths path) (hpath' : fs.Below paths path') (hloc : fs.locate path = some loc)
    (hloc' : fs.locate path' = some loc) : components path = components path' := by
  obtain ⟨e, he, hkey, hat⟩ := h.entry hpath hloc
  obtain ⟨e', he', hkey', hat'⟩ := h.entry hpath' hloc'
  obtain rfl := eq_of_countP_le_one hlisted he he' (decide_eq_true hat) (decide_eq_true hat')
  exact hkey.symm.trans hkey'

/-- Where no directory has two paths, no path goes around a loop. -/
theorem reaches_of_below
    (hunique : ∀ path path' loc, fs.tree.node loc = some .dir → fs.Below paths path → fs.Below paths path' →
      fs.locate path = some loc → fs.locate path' = some loc → components path = components path')
    (hpath : fs.Below paths path) :
    ∀ loc, fs.locate path = some loc → ∃ passed, fs.Reaches paths passed loc ∧
      ∀ d ∈ passed, fs.tree.node d = some .dir ∧ ∃ before, fs.Below paths before ∧ fs.locate before = some d ∧
        (components before).length < (components path).length := by
  induction hpath with
  | selected hmem => exact fun loc hloc => ⟨[], .selected hmem hloc, nofun⟩
  | @entry path dir name hpath hdir hname ih =>
    intro loc hloc
    obtain ⟨d, hd, hnode, rfl⟩ := HostFiles.readDir_eq_some hdir
    have hisName := fs.isName d name hname
    have hlength : (components (pushName path name)).length = (components path).length + 1 := by
      rw [components_pushName hisName, List.length_append, List.length_singleton]
    obtain ⟨passed, hreaches, hpassed⟩ := ih d hd
    -- the directory itself, and those before it, have shorter paths
    have hbefore : ∀ d' ∈ d :: passed, fs.tree.node d' = some .dir ∧ ∃ before, fs.Below paths before ∧
        fs.locate before = some d' ∧ (components before).length < (components (pushName path name)).length := by
      intro d' hd'
      rcases List.mem_cons.mp hd' with rfl | hd'
      · exact ⟨hnode, path, hpath, hd, by omega⟩
      · obtain ⟨hnode', before, hbelow, hlocate, hlt⟩ := hpassed d' hd'
        exact ⟨hnode', before, hbelow, hlocate, by omega⟩
    refine ⟨d :: passed, .entry hreaches hnode hname (HostFiles.locate_pushName hd hisName hloc) fun hmem => ?_,
      hbefore⟩
    obtain ⟨hnode', before, hbelow, hlocate, hlt⟩ := hbefore loc hmem
    have hsame := hunique before _ loc hnode' hbelow (.entry hpath hdir hname) hlocate hloc
    rw [hsame] at hlt
    exact Nat.lt_irrefl _ hlt

/-- Where all paths lead somewhere, a way below the selection has a path. -/
theorem below_of_reaches (hresolves : ∀ path, fs.Below paths path → ∃ loc, fs.locate path = some loc)
    {passed : List Loc} (h : fs.Reaches paths passed loc) :
    ∃ path, fs.Below paths path ∧ fs.locate path = some loc := by
  induction h with
  | selected hpath hloc => exact ⟨_, .selected hpath, hloc⟩
  | @entry passed d loc name hd hdir hname hleads hnew ih =>
    obtain ⟨path, hpath, hat⟩ := ih
    have hbelow : fs.Below paths (pushName path name) := .entry hpath (HostFiles.readDir_of_dir hat hdir) hname
    obtain ⟨loc', hloc'⟩ := hresolves _ hbelow
    have hsame := HostFiles.locate_pushName hat (fs.isName d name hname) hloc'
    exact ⟨_, hbelow, hloc'.trans (hsame.symm.trans hleads)⟩

section

variable (hne : paths ≠ []) (hparent : ∀ path ∈ paths, (parentPath path).isSome)
include hne hparent

theorem exists_root :
    ∃ first relativeRoot, paths.head? = some first ∧ parentPath first = some relativeRoot := by
  obtain ⟨first, rest, rfl⟩ := List.exists_cons_of_ne_nil hne
  obtain ⟨relativeRoot, hroot⟩ := Option.isSome_iff_exists.mp (hparent first List.mem_cons_self)
  exact ⟨first, relativeRoot, rfl, hroot⟩

theorem clear_of_copied (h : fs.Copied paths) : fs.Clear paths := by
  obtain ⟨list, hlist, hdirs, hfiles⟩ := h
  obtain ⟨first, relativeRoot, hfirst, hroot⟩ := exists_root hne hparent
  have hsearch := constructFileList_eq_search fs hfirst hroot
  rw [hsearch] at hlist
  cases hrun : search components (fs.expand relativeRoot) fs.fuel paths with
  | error s =>
    rw [hrun] at hlist
    cases hlist
  | ok out =>
    rw [hrun] at hlist
    cases hlist
    have hsearched := searched_of_search hrun
    have hresolves : ∀ path, fs.Below paths path → ∃ loc, fs.locate path = some loc := fun path hpath =>
      (hsearched.all path hpath).1
    have hunique := fun path path' loc hnode hpath hpath' => @Searched.unique fs paths path path' loc out hsearched
      (hdirs loc hnode) hpath hpath'
    refine ⟨hresolves, fun path path' loc hpath hpath' hloc hloc' => ?_⟩
    rcases HostFiles.node_of_locate hloc with hnode | hnode
    · exact hunique path path' loc hnode hpath hpath' hloc hloc'
    · obtain ⟨passed, hreaches, -⟩ := reaches_of_below hunique hpath loc hloc
      exact hsearched.unique (Nat.le_of_eq (hfiles passed loc hreaches hnode)) hpath hpath' hloc hloc'

theorem copied_of_clear (h : fs.Clear paths) : fs.Copied paths := by
  obtain ⟨first, relativeRoot, hfirst, hroot⟩ := exists_root hne hparent
  have hsearch := constructFileList_eq_search fs hfirst hroot
  obtain ⟨out, hrun⟩ := (search_ok_iff (fs.uniform_expand relativeRoot) (fs.ranked_expand relativeRoot)
    fun path _ => fs.rank_lt_fuel path).mpr fun path hpath =>
      HostFiles.expand_ok_iff.mpr (h.resolves path (HostFiles.below_iff_reached.mpr hpath))
  have hsearched := searched_of_search hrun
  have honce (loc : Loc) : fs.listed (out.map Prod.snd) loc ≤ 1 := by
    refine countP_le_one hsearched.nodup fun e he e' he' hat hat' => ?_
    obtain ⟨hbelow, hpath⟩ := hsearched.own e he
    obtain ⟨hbelow', hpath'⟩ := hsearched.own e' he'
    refine h.unique e.1 e'.1 loc hbelow hbelow' ?_ ?_
    · exact hpath ▸ of_decide_eq_true hat
    · exact hpath' ▸ of_decide_eq_true hat'
  refine ⟨out.map Prod.snd, by rw [hsearch, hrun]; rfl, fun loc _ => honce loc, fun passed loc hreaches _ => ?_⟩
  obtain ⟨path, hpath, hloc⟩ := below_of_reaches h.resolves hreaches
  obtain ⟨e, he, -, hat⟩ := hsearched.entry hpath hloc
  refine Nat.le_antisymm (honce loc) (List.countP_pos_iff.mpr ⟨e.2, List.mem_map_of_mem he, decide_eq_true hat⟩)

end

end Listed

/-- **A selection is copied as it should just where no two paths below it lead to one place**, and every path leads
somewhere. -/
theorem copied_iff_clear (fs : HostFiles) (paths : List Path) (hne : paths ≠ [])
    (hparent : ∀ path ∈ paths, (parentPath path).isSome) : fs.Copied paths ↔ fs.Clear paths :=
  ⟨clear_of_copied hne hparent, copied_of_clear hne hparent⟩

/-! ## Loops -/

namespace HostFiles

/-- A directory has an entry for another place. -/
def Leads (fs : HostFiles) (d loc : Loc) : Prop :=
  fs.tree.node d = some .dir ∧ ∃ name ∈ fs.entries d, fs.leadsTo d name = some loc

variable {fs : HostFiles} {paths : List Path} {path : Path} {d loc : Loc}

section

variable (hresolves : ∀ path, fs.Below paths path → ∃ loc, fs.locate path = some loc)
include hresolves

/-- Where all paths lead somewhere, they go on along the entries, and have less before them each time. -/
theorem below_of_leads
    (h : Relation.TransGen fs.Leads d loc) (hpath : fs.Below paths path) (hd : fs.locate path = some d) :
    ∃ further, fs.Below paths further ∧ fs.locate further = some loc ∧ fs.rank further < fs.rank path := by
  have hstep (path : Path) (d loc : Loc) (hleads : fs.Leads d loc) (hpath : fs.Below paths path)
      (hd : fs.locate path = some d) :
      ∃ further, fs.Below paths further ∧ fs.locate further = some loc ∧ fs.rank further < fs.rank path := by
    obtain ⟨hdir, name, hname, hleads⟩ := hleads
    have hisName := fs.isName d name hname
    have hfurther : fs.Below paths (pushName path name) := .entry hpath (readDir_of_dir hd hdir) hname
    obtain ⟨loc', hloc'⟩ := hresolves _ hfurther
    have hsame := locate_pushName hd hisName hloc'
    exact ⟨_, hfurther, hloc'.trans (hsame.symm.trans hleads), rank_pushName_lt hd hisName⟩
  induction h with
  | single hleads => exact hstep path d _ hleads hpath hd
  | tail _ hleads ih =>
    obtain ⟨between, hbetween, hat, hlt⟩ := ih
    obtain ⟨further, hfurther, hloc, hlt'⟩ := hstep between _ _ hleads hbetween hat
    exact ⟨further, hfurther, hloc, hlt'.trans hlt⟩

/-- Where all paths lead somewhere, there is no loop. -/
theorem no_loop (hloop : Relation.TransGen fs.Leads d d) (n : ℕ) :
    ∀ path, fs.rank path < n → fs.Below paths path → fs.locate path ≠ some d := by
  induction n with
  | zero => exact fun _ hlt => absurd hlt (Nat.not_lt_zero _)
  | succ n ih =>
    intro path hlt hpath hd
    obtain ⟨further, hfurther, hloc, hless⟩ := below_of_leads hresolves hloop hpath hd
    exact ih further (by omega) hfurther hloc

end

/-- Every entry of a directory leads somewhere by itself. -/
def Readable (fs : HostFiles) : Prop :=
  ∀ d name, fs.tree.node d = some .dir → name ∈ fs.entries d → ∃ loc, fs.leadsTo d name = some loc

end HostFiles

/-- **A selection with a loop below it is an error**, as readable as its entries may be. -/
theorem error_of_loop {fs : HostFiles} {paths : List Path} {path : Path} {d : Loc} (hpath : fs.Below paths path)
    (hd : fs.locate path = some d) (hloop : Relation.TransGen fs.Leads d d) :
    ∃ e, constructFileList fs paths = .error (.failed e) := by
  cases h : constructFileList fs paths with
  | error s =>
    cases s with
    | failed e => exact ⟨e, rfl⟩
    | outOfFuel => exact absurd h (constructFileList_ne_outOfFuel fs paths)
  | ok list =>
    cases hfirst : paths.head? with
    | none =>
      rw [constructFileList, hfirst] at h
      cases h
    | some first =>
      cases hroot : parentPath first with
      | none =>
        rw [constructFileList, hfirst] at h
        dsimp only at h
        rw [hroot] at h
        cases h
      | some relativeRoot =>
        rw [constructFileList_eq_search fs hfirst hroot] at h
        cases hrun : search components (fs.expand relativeRoot) fs.fuel paths with
        | error s =>
          rw [hrun] at h
          cases h
        | ok out =>
          have hresolves := fun path hpath => ((searched_of_search hrun).all path hpath).1
          exact absurd hd (HostFiles.no_loop hresolves hloop _ path (Nat.lt_succ_self _) hpath)

/-! ## A directory with a link to itself -/

instance (name : List Char) : Decidable (IsName name) :=
  decidable_of_iff (name ≠ [] ∧ '/' ∉ name ∧ name ≠ ['.'] ∧ name ≠ ['.', '.'])
    ⟨fun ⟨h, h', h'', h'''⟩ => ⟨h, h', h'', h'''⟩, fun ⟨h, h', h'', h'''⟩ => ⟨h, h', h'', h'''⟩⟩

/-- The length of a component, with its separator. -/
def componentLength : Component → ℕ
  | .normal name => name.length + 1
  | .parentDir => 3
  | _ => 2

/-- A tree with the limits of Linux. -/
def HostFiles.ofTree (tree : DirTree (List Char)) (hnames : ∀ e ∈ tree.nodes, ∀ name ∈ e.1, IsName name) :
    HostFiles where
  tree
  cwd := []
  info _ := ⟨0, false, false, some 0, 0o644⟩
  entries := tree.children
  isName d name hname := by
    obtain ⟨x, hx⟩ := Option.ne_none_iff_exists'.mp (DirTree.mem_children.mp hname)
    refine hnames _ (DirTree.mem_nodes_of_node ?_ hx) name (List.mem_append_right _ (List.mem_singleton_self _))
    exact List.append_ne_nil_of_right_ne_nil _ (List.cons_ne_nil _ _)
  nodup _ := List.nodup_dedup _
  mem_entries _ _ := DirTree.mem_children
  maxLinks := 40
  admits cs := (cs.map componentLength).foldr (· + ·) 0 < 4096

/-- `/d` with a file and a link to `/d`. -/
def loopFiles : HostFiles :=
  .ofTree ⟨[([['d']], .dir), ([['d'], ['f']], .file), ([['d'], ['l']], .link true [.into ['d']])]⟩ (by decide)

/-- The file alone is copied. -/
theorem copied_iff_clear_file : loopFiles.Copied ["/d/f".toList] := by
  have hbelow : ∀ path, loopFiles.Below ["/d/f".toList] path → path = "/d/f".toList := by
    intro path hpath
    induction hpath with
    | selected h => exact List.mem_singleton.mp h
    | entry hpath hdir hname ih =>
      subst ih
      have hnone : loopFiles.readDir "/d/f".toList = none := by decide +kernel
      rw [hnone] at hdir
      cases hdir
  refine (copied_iff_clear loopFiles _ (by decide) (by decide +kernel)).mpr
    ⟨fun path hpath => ?_, fun path path' loc hpath hpath' _ _ => ?_⟩
  · rw [hbelow path hpath]
    exact ⟨[['d'], ['f']], by decide +kernel⟩
  · rw [hbelow path hpath, hbelow path' hpath']

/-- All entries can be read, and the directory is not copied: its link is followed until that is one too many. -/
theorem loop_not_copied :
    loopFiles.Readable ∧ ¬ loopFiles.Copied ["/d".toList] ∧
      (constructFileList loopFiles ["/d".toList]).isOk = false := by
  have hleads : loopFiles.Leads [['d']] [['d']] := ⟨by decide +kernel, ['l'], by decide +kernel, by decide +kernel⟩
  have herror : (constructFileList loopFiles ["/d".toList]).isOk = false := by
    have hd : loopFiles.locate "/d".toList = some [['d']] := by decide +kernel
    obtain ⟨e, he⟩ := error_of_loop (.selected (List.mem_singleton_self _)) hd (.single hleads)
    rw [he]
    rfl
  refine ⟨fun d name _ hname => ?_, ?_, herror⟩
  · obtain ⟨x, hx⟩ := Option.ne_none_iff_exists'.mp ((loopFiles.mem_entries d name).mp hname)
    have hmem := DirTree.mem_nodes_of_node (List.append_ne_nil_of_right_ne_nil d (List.cons_ne_nil name [])) hx
    have hleads : ∀ e ∈ loopFiles.tree.nodes, (loopFiles.leadsTo e.1.dropLast (e.1.getLast?.getD [])).isSome := by
      decide +kernel
    have hentry := hleads _ hmem
    rw [List.dropLast_concat, List.getLast?_concat] at hentry
    exact Option.isSome_iff_exists.mp hentry
  · rintro ⟨list, hlist, -⟩
    rw [hlist] at herror
    cases herror

end RustDesk.Clipboard
