import RustDesk.Clipboard.FileList
import Mathlib.Data.List.Infix

/-!
# The tree of a list of files

References: `libs/clipboard/src/platform/unix/fuse/cs.rs` (`build_tree`, `from_description`, and their tests).

A file hangs below the last directory before it that is called like the parent of its path, or below the root. So
parents come before their children, and following them ends at the root.
-/

namespace RustDesk.Clipboard

open UnixPath

/-! ## The tree -/

/-- `InodeAttributes`, without the time of the last access. -/
structure InodeAttributes where
  inode : ℕ
  size : UInt64
  lastModified : ℤ
  lastMetadataChanged : ℤ
  creationTime : ℤ
  kind : FileType
  perm : UInt16
deriving DecidableEq

/-- `FuseNode`. -/
structure FuseNode where
  connId : ℤ
  index : ℕ
  parent : Option ℕ
  name : List Char
  attributes : InodeAttributes
  children : List ℕ
deriving DecidableEq

/-- `FUSE_ROOT_ID`. -/
def fuseRootId : ℕ := 1

namespace FuseNode

/-- `new_root`, at the time `now`. -/
def newRoot (now : ℤ) : FuseNode where
  connId := 0
  index := 0
  parent := none
  name := ['/']
  attributes := ⟨fuseRootId, 0, now, now, now, .directory, permRwx⟩
  children := []

/-- `from_description`. -/
def fromDescription (inode : ℕ) (desc : FileDescription) : FuseNode where
  connId := desc.connId
  index := inode - 2
  parent := none
  name := desc.name
  attributes := ⟨inode, desc.size, desc.lastModified, desc.lastMetadataChanged, desc.creationTime, desc.kind, desc.perm⟩
  children := []

end FuseNode

/-- The tree while it is built, with the directories by their paths. -/
structure TreeBuilder where
  treeList : List FuseNode
  subRootMap : List Component → Option ℕ

/-- The directory a file is in, or the root. -/
def TreeBuilder.parentInode (b : TreeBuilder) (name : Path) : ℕ :=
  match UnixPath.parent name with
  | some parent => (b.subRootMap parent).getD fuseRootId
  | none => fuseRootId

/-- What the loop of `build_tree` does for a file. -/
def TreeBuilder.add (b : TreeBuilder) (file : FileDescription) : Except CliprdrError TreeBuilder :=
  let inode := b.treeList.length + fuseRootId
  let parentInode := b.parentInode file.name
  let treeList := b.treeList.modify (parentInode - 1) fun node => { node with children := node.children ++ [inode] }
  match fileName file.name with
  | none => .error (.fileError file.name)
  | some baseName =>
    let subRootMap :=
      if file.kind = .directory then Function.update b.subRootMap (components file.name) (some inode)
      else b.subRootMap
    let node := FuseNode.fromDescription inode { file with name := baseName }
    .ok ⟨treeList ++ [{ node with parent := some parentInode }], subRootMap⟩

/-- `build_tree`. -/
def buildTree (now : ℤ) (files : List FileDescription) : Except CliprdrError (List FuseNode) :=
  let subRootMap := Function.update (Function.update (fun _ => none) [.rootDir] (some fuseRootId)) [] (some fuseRootId)
  (files.foldlM TreeBuilder.add ⟨[.newRoot now], subRootMap⟩).map TreeBuilder.treeList

/-- A node is that of an entry of the list. -/
structure NodeOf (i : ℕ) (desc : FileDescription) (node : FuseNode) : Prop where
  index : node.index = i
  inode : node.attributes.inode = i + 2
  name : fileName desc.name = some node.name
  size : node.attributes.size = desc.size
  kind : node.attributes.kind = desc.kind
  perm : node.attributes.perm = desc.perm
  lastModified : node.attributes.lastModified = desc.lastModified

/-! ## Parents by the list -/

/-- The inode of the last directory with this path. The first file has the inode 2. -/
def lastDirectory (files : List FileDescription) (path : List Component) : Option ℕ :=
  (files.findIdxs (fun file => file.kind = .directory ∧ components file.name = path) 2).getLast?

/-- The inode of a directory, with the two names of the root. -/
def directoryIn (files : List FileDescription) (path : List Component) : Option ℕ :=
  if path = [] ∨ path = [.rootDir] then some fuseRootId else lastDirectory files path

/-- The parent of a file behind some others: the root, where its directory is not known. -/
def parentIn (files : List FileDescription) (name : Path) : ℕ :=
  match UnixPath.parent name with
  | some path => (directoryIn files path).getD fuseRootId
  | none => fuseRootId

/-! ## What a tree is -/

/-- The root. -/
structure RootNode (node : FuseNode) : Prop where
  parent : node.parent = none
  name : node.name = ['/']
  inode : node.attributes.inode = fuseRootId
  kind : node.attributes.kind = .directory

/-- The names from the root down to a node, following at most so many parents. -/
def namesFromRoot (tree : List FuseNode) : ℕ → ℕ → Option (List (List Char))
  | 0, _ => none
  | steps + 1, inode =>
    if inode = fuseRootId then some []
    else
      match tree[inode - 1]? with
      | none => none
      | some node =>
        match node.parent with
        | none => none
        | some parent => (namesFromRoot tree steps parent).map (· ++ [node.name])

/-- A root, and a node for each file in order; every node but the root is a child of one node, which is its parent
and a directory before it; the parents lead to the root. -/
structure ProperTree (files : List FileDescription) (tree : List FuseNode) : Prop where
  length : tree.length = files.length + 1
  root : ∃ node, tree[0]? = some node ∧ RootNode node
  nodes : ∀ i desc, files[i]? = some desc → ∃ node, tree[i + 1]? = some node ∧ NodeOf i desc node
  parent : ∀ i node, tree[i + 1]? = some node → ∃ p parent, node.parent = some p ∧ p < node.attributes.inode ∧
    tree[p - 1]? = some parent ∧ parent.attributes.inode = p ∧ parent.attributes.kind = .directory
  children : ∀ node ∈ tree,
    node.children = tree.findIdxs (fun child => child.parent = some node.attributes.inode) 1
  onlyParent : ∀ i child, tree[i + 1]? = some child → ∀ node ∈ tree,
    node.children.count child.attributes.inode = if child.parent = some node.attributes.inode then 1 else 0
  reachesRoot : ∀ node ∈ tree, ∃ names, namesFromRoot tree node.attributes.inode node.attributes.inode = some names

/-- Every directory that a file is below is in the list before the file. -/
def AncestorsFirst (files : List FileDescription) : Prop :=
  ∀ (i : ℕ) desc, files[i]? = some desc → ∀ path, path <+: components desc.name → path ≠ components desc.name →
    path ≠ [] → path ≠ [.rootDir] →
      ∃ j < i, ∃ dir, files[j]? = some dir ∧ dir.kind = .directory ∧ components dir.name = path

/-- A path without the separator at its start. -/
def belowRoot : List Component → List Component
  | .rootDir :: path => path
  | path => path

/-! ## The last directory -/

section Directories

variable {files : List FileDescription} {file : FileDescription} {path : List Component} {name : Path} {inode : ℕ}

theorem lastDirectory_append (files : List FileDescription) (file : FileDescription) (path : List Component) :
    lastDirectory (files ++ [file]) path =
      if file.kind = .directory ∧ components file.name = path then some (files.length + 2)
      else lastDirectory files path := by
  rw [lastDirectory, List.findIdxs_append, List.findIdxs_singleton]
  split
  next h => rw [if_pos (of_decide_eq_true h), List.getLast?_concat, Nat.add_comm]
  next h => rw [if_neg (fun hdir => h (decide_eq_true hdir)), List.append_nil, lastDirectory]

theorem lastDirectory_eq_some (h : lastDirectory files path = some inode) :
    ∃ j dir, inode = j + 2 ∧ files[j]? = some dir ∧ dir.kind = .directory ∧ components dir.name = path := by
  obtain ⟨hge, hlt, hdir⟩ := List.mem_findIdxs_iff_getElem_sub_pos.mp (List.mem_of_getLast? h)
  obtain ⟨hkind, hname⟩ := of_decide_eq_true hdir
  exact ⟨inode - 2, _, by omega, List.getElem?_eq_getElem hlt, hkind, hname⟩

theorem lastDirectory_isSome {j : ℕ} {dir : FileDescription} (hdir : files[j]? = some dir)
    (hkind : dir.kind = .directory) (hname : components dir.name = path) :
    ∃ inode, lastDirectory files path = some inode := by
  obtain ⟨hlt, rfl⟩ := List.getElem?_eq_some_iff.mp hdir
  rw [← Option.isSome_iff_exists, lastDirectory, List.getLast?_isSome]
  intro hnil
  rw [List.findIdxs_eq_nil_iff] at hnil
  exact absurd (hnil _ (List.getElem_mem hlt)) (by simp [hkind, hname])

/-- A directory of the list is before the next node. -/
theorem directoryIn_bounds (h : directoryIn files path = some inode) : 1 ≤ inode ∧ inode ≤ files.length + 1 := by
  unfold directoryIn at h
  split at h
  · cases h
    exact ⟨Nat.le_refl _, Nat.le_add_left _ _⟩
  · obtain ⟨j, dir, rfl, hdir, -⟩ := lastDirectory_eq_some h
    have hlt := (List.getElem?_eq_some_iff.mp hdir).1
    omega

theorem parentIn_bounds (files : List FileDescription) (name : Path) :
    1 ≤ parentIn files name ∧ parentIn files name ≤ files.length + 1 := by
  have hroot : 1 ≤ fuseRootId ∧ fuseRootId ≤ files.length + 1 := ⟨Nat.le_refl _, Nat.le_add_left _ _⟩
  unfold parentIn
  cases UnixPath.parent name with
  | none => exact hroot
  | some path =>
    dsimp only
    cases hpath : directoryIn files path with
    | none => exact hroot
    | some inode => exact directoryIn_bounds hpath

/-- A path with a name at its end is none of the root. -/
theorem components_of_fileName {base : List Char} (h : fileName name = some base) :
    components name = (components name).dropLast ++ [.normal base] ∧
      UnixPath.parent name = some (components name).dropLast := by
  unfold fileName at h
  split at h
  next other hlast =>
    cases h
    refine ⟨(List.dropLast_append_getLast? _ hlast).symm, ?_⟩
    rw [UnixPath.parent, hlast]
  next => cases h

/-- A directory more is found at its own path only, which is not that of the root. -/
theorem directoryIn_append {base : List Char} (hname : fileName file.name = some base) :
    directoryIn (files ++ [file]) path =
      if file.kind = .directory ∧ components file.name = path then some (files.length + 2)
      else directoryIn files path := by
  have hroot : components file.name ≠ [] ∧ components file.name ≠ [.rootDir] := by
    rw [(components_of_fileName hname).1]
    refine ⟨by simp, fun heq => ?_⟩
    have hends := congrArg List.getLast? heq
    rw [List.getLast?_concat] at hends
    cases hends
  rw [directoryIn, directoryIn, lastDirectory_append]
  by_cases hdir : file.kind = .directory ∧ components file.name = path
  · rw [if_neg (hdir.2 ▸ not_or.mpr hroot), if_pos hdir, if_pos hdir]
  · rw [if_neg hdir, if_neg hdir]

end Directories

/-! ## Growing -/

/-- The tree of the files so far, its map and the directories of the list. -/
structure Grown (files : List FileDescription) (b : TreeBuilder) : Prop where
  length : b.treeList.length = files.length + 1
  root : ∃ node, b.treeList[0]? = some node ∧ RootNode node
  nodes : ∀ i desc, files[i]? = some desc → ∃ node, b.treeList[i + 1]? = some node ∧ NodeOf i desc node ∧
    node.parent = some (parentIn (files.take i) desc.name)
  children : ∀ k node, b.treeList[k]? = some node →
    node.children = b.treeList.findIdxs (fun child => child.parent = some (k + 1)) 1
  map : ∀ path, b.subRootMap path = directoryIn files path

/-- A node that gets a child. -/
def FuseNode.addChild (inode : ℕ) (node : FuseNode) : FuseNode := { node with children := node.children ++ [inode] }

section Growing

variable {files : List FileDescription} {file desc : FileDescription} {b b' : TreeBuilder} {tree : List FuseNode}
  {inode k i : ℕ} {node : FuseNode}

/-- A child more is no other parent. -/
theorem findIdxs_modify (tree : List FuseNode) (k inode p : ℕ) :
    (tree.modify k (.addChild inode)).findIdxs (fun child => child.parent = some p) 1 =
      tree.findIdxs (fun child => child.parent = some p) 1 := by
  have hparents : (tree.modify k (.addChild inode)).map FuseNode.parent = tree.map FuseNode.parent := by
    apply List.ext_getElem?
    intro j
    rw [List.getElem?_map, List.getElem?_map, List.getElem?_modify]
    cases tree[j]? with
    | none => rfl
    | some node =>
      dsimp only [Option.map_eq_map, Option.map_some]
      split <;> rfl
  have hfind (nodes : List FuseNode) : nodes.findIdxs (fun child => child.parent = some p) 1 =
      (nodes.map FuseNode.parent).findIdxs (fun parent => parent = some p) 1 := by
    rw [List.findIdxs_map]
    rfl
  rw [hfind, hfind, hparents]

/-- A node more is one of the children of its parent. -/
theorem findIdxs_grow (tree : List FuseNode) (k inode p : ℕ) (new : FuseNode) :
    (tree.modify k (.addChild inode) ++ [new]).findIdxs (fun child => child.parent = some p) 1 =
      tree.findIdxs (fun child => child.parent = some p) 1 ++
        if new.parent = some p then [tree.length + 1] else [] := by
  rw [List.findIdxs_append, findIdxs_modify, List.findIdxs_singleton, List.length_modify, Nat.add_comm 1]
  simp

section

variable (hb : Grown files b)
include hb

/-- What `add` does to the tree. -/
theorem add_eq_ok (h : b.add file = .ok b') : ∃ base, fileName file.name = some base ∧
      b'.treeList = b.treeList.modify (parentIn files file.name - 1) (.addChild (files.length + 2)) ++
        [{ FuseNode.fromDescription (files.length + 2) { file with name := base } with
          parent := some (parentIn files file.name) }] ∧
      b'.subRootMap = if file.kind = .directory then
          Function.update b.subRootMap (components file.name) (some (files.length + 2))
        else b.subRootMap := by
  have hinode : b.treeList.length + fuseRootId = files.length + 2 := by rw [hb.length, fuseRootId]
  have hparent : b.parentInode file.name = parentIn files file.name := by
    unfold TreeBuilder.parentInode parentIn
    cases UnixPath.parent file.name with
    | none => rfl
    | some path => exact congrArg (Option.getD · fuseRootId) (hb.map path)
  unfold TreeBuilder.add at h
  rw [hinode, hparent] at h
  cases hname : fileName file.name with
  | none =>
    rw [hname] at h
    cases h
  | some base =>
    rw [hname] at h
    cases h
    exact ⟨base, rfl, rfl, rfl⟩

/-- The parent of a node in the tree is before it. -/
theorem Grown.parent_le {p : ℕ} (hnode : b.treeList[k]? = some node) (hp : node.parent = some p) : p ≤ k := by
  cases k with
  | zero =>
    obtain ⟨root, hroot, hnone⟩ := hb.root
    cases hroot.symm.trans hnode
    rw [hnone.parent] at hp
    cases hp
  | succ i =>
    have hlt := (List.getElem?_eq_some_iff.mp hnode).1
    rw [hb.length] at hlt
    have hi : i < files.length := by omega
    obtain ⟨node', hnode', -, hparent⟩ := hb.nodes i _ (List.getElem?_eq_getElem hi)
    cases hnode'.symm.trans hnode
    cases hparent.symm.trans hp
    have hle := (parentIn_bounds (files.take i) (files[i]).name).2
    rw [List.length_take] at hle
    omega

/-- Nothing has a parent that is not there yet. -/
theorem Grown.no_children : b.treeList.findIdxs (fun child => child.parent = some (files.length + 2)) 1 = [] := by
  refine List.findIdxs_eq_nil_iff.mpr fun child hchild => decide_eq_false fun hparent => ?_
  obtain ⟨j, hj⟩ := List.mem_iff_getElem?.mp hchild
  have hlt := (List.getElem?_eq_some_iff.mp hj).1
  rw [hb.length] at hlt
  have hle := hb.parent_le hj hparent
  omega

theorem Grown.add (h : b.add file = .ok b') : Grown (files ++ [file]) b' := by
  obtain ⟨base, hbase, htree, hmap⟩ := add_eq_ok hb h
  obtain ⟨hpos, hle⟩ := parentIn_bounds files file.name
  generalize hp : parentIn files file.name = p at htree hpos hle
  generalize hnew : ({ FuseNode.fromDescription (files.length + 2) { file with name := base } with
    parent := some p } : FuseNode) = new at htree
  have hlength : (b.treeList.modify (p - 1) (.addChild (files.length + 2))).length = files.length + 1 := by
    rw [List.length_modify, hb.length]
  -- a node that was there has got a child at most
  have hold (k : ℕ) (hk : k < files.length + 1) : b'.treeList[k]? =
      (b.treeList[k]?).map fun node => if p - 1 = k then node.addChild (files.length + 2) else node := by
    rw [htree, List.getElem?_append_left (by omega), List.getElem?_modify]
    cases b.treeList[k]? <;> rfl
  have hlast : b'.treeList[files.length + 1]? = some new := by
    rw [htree, List.getElem?_append_right (by omega), hlength, Nat.sub_self]
    rfl
  refine ⟨?_, ?_, fun i desc hdesc => ?_, fun k node hnode => ?_, fun path => ?_⟩
  · rw [htree, List.length_append, hlength, List.length_append]
    rfl
  · obtain ⟨root, hroot, hnode⟩ := hb.root
    rw [hold 0 (Nat.succ_pos _), hroot]
    refine ⟨_, rfl, ?_⟩
    split
    · exact ⟨hnode.parent, hnode.name, hnode.inode, hnode.kind⟩
    · exact hnode
  · rcases Nat.lt_or_ge i files.length with hi | hi
    · rw [List.getElem?_append_left hi] at hdesc
      obtain ⟨node, hnode, hof, hparent⟩ := hb.nodes i desc hdesc
      rw [hold (i + 1) (by omega), hnode, List.take_append_of_le_length (Nat.le_of_lt hi)]
      refine ⟨_, rfl, ?_⟩
      split
      · exact ⟨⟨hof.index, hof.inode, hof.name, hof.size, hof.kind, hof.perm, hof.lastModified⟩, hparent⟩
      · exact ⟨hof, hparent⟩
    · obtain rfl : i = files.length := by
        have hlt := (List.getElem?_eq_some_iff.mp hdesc).1
        rw [List.length_append, List.length_singleton] at hlt
        omega
      rw [List.getElem?_append_right (Nat.le_refl _), Nat.sub_self] at hdesc
      cases hdesc
      rw [hlast, List.take_left' rfl, hp, ← hnew]
      exact ⟨_, rfl, ⟨rfl, rfl, hbase, rfl, rfl, rfl, rfl⟩, rfl⟩
  · have hparent : new.parent = some p := by rw [← hnew]
    rw [htree, findIdxs_grow, hparent, hb.length]
    simp only [Option.some.injEq]
    rcases Nat.lt_or_ge k (files.length + 1) with hk | hk
    · rw [hold k hk] at hnode
      obtain ⟨node', hnode', rfl⟩ := Option.map_eq_some_iff.mp hnode
      rw [← hb.children k node' hnode']
      by_cases hpk : p = k + 1
      · rw [if_pos hpk, if_pos (by omega)]
        rfl
      · rw [if_neg hpk, if_neg (by omega), List.append_nil]
    · -- the new node is nobody's parent
      have hlt := (List.getElem?_eq_some_iff.mp hnode).1
      rw [htree, List.length_append, hlength, List.length_singleton] at hlt
      obtain rfl : k = files.length + 1 := by omega
      cases hlast.symm.trans hnode
      rw [if_neg (by omega), List.append_nil, hb.no_children, ← hnew]
      rfl
  · rw [hmap, directoryIn_append hbase]
    by_cases hkind : file.kind = .directory
    · rw [if_pos hkind, Function.update_apply, hb.map]
      simp only [hkind, true_and, eq_comm]
    · rw [if_neg hkind, if_neg fun hdir => hkind hdir.1, hb.map]

end

theorem Grown.foldlM {before : List FileDescription} (hb : Grown before b)
    (h : files.foldlM TreeBuilder.add b = .ok b') : Grown (before ++ files) b' := by
  induction files generalizing before b with
  | nil =>
    cases h
    rwa [List.append_nil]
  | cons file files ih =>
    rw [List.foldlM_cons] at h
    cases hadd : b.add file with
    | error e =>
      rw [hadd] at h
      cases h
    | ok c =>
      rw [hadd] at h
      rw [List.append_cons]
      exact ih (hb.add hadd) h

/-- The tree of no files. -/
theorem grown_nil (now : ℤ) : Grown [] ⟨[.newRoot now],
    Function.update (Function.update (fun _ => none) [.rootDir] (some fuseRootId)) [] (some fuseRootId)⟩ := by
  refine ⟨rfl, ⟨_, rfl, rfl, rfl, rfl, rfl⟩, fun i desc hdesc => ?_, fun k node hnode => ?_, fun path => ?_⟩
  · cases hdesc
  · cases k with
    | zero =>
      cases hnode
      rfl
    | succ k => cases hnode
  · unfold directoryIn
    by_cases hnil : path = []
    · subst hnil
      rfl
    · dsimp only
      rw [Function.update_of_ne hnil]
      by_cases hslash : path = [.rootDir]
      · subst hslash
        rfl
      · rw [Function.update_of_ne hslash, if_neg (not_or.mpr ⟨hnil, hslash⟩)]
        rfl

theorem grown_of_buildTree {now : ℤ} (h : buildTree now files = .ok tree) :
    ∃ b, b.treeList = tree ∧ Grown files b := by
  unfold buildTree at h
  dsimp only at h
  cases hfold : files.foldlM TreeBuilder.add ⟨[.newRoot now],
      Function.update (Function.update (fun _ => none) [.rootDir] (some fuseRootId)) [] (some fuseRootId)⟩ with
  | error e =>
    rw [hfold] at h
    cases h
  | ok b =>
    rw [hfold] at h
    exact ⟨b, Except.ok.inj h, (grown_nil now).foldlM hfold⟩

end Growing

/-! ## The whole tree -/

section Whole

variable {files : List FileDescription} {desc : FileDescription} {b : TreeBuilder} {i k : ℕ} {node : FuseNode}

/-- A node is found by its inode. -/
theorem Grown.inode (hb : Grown files b) (hnode : b.treeList[k]? = some node) : node.attributes.inode = k + 1 := by
  cases k with
  | zero =>
    obtain ⟨root, hroot, hof⟩ := hb.root
    cases hroot.symm.trans hnode
    exact hof.inode
  | succ i =>
    have hlt := (List.getElem?_eq_some_iff.mp hnode).1
    rw [hb.length] at hlt
    have hi : i < files.length := by omega
    obtain ⟨node', hnode', hof, -⟩ := hb.nodes i _ (List.getElem?_eq_getElem hi)
    cases hnode'.symm.trans hnode
    exact hof.inode

/-- The parent of a file is the root, or the last directory of that path before it. -/
theorem parentIn_cases (files : List FileDescription) (name : Path) :
    parentIn files name = fuseRootId ∨ ∃ j dir, parentIn files name = j + 2 ∧ files[j]? = some dir ∧
      dir.kind = .directory ∧ UnixPath.parent name = some (components dir.name) := by
  unfold parentIn
  cases hparent : UnixPath.parent name with
  | none => exact .inl rfl
  | some path =>
    dsimp only
    unfold directoryIn
    split
    · exact .inl rfl
    · cases hlast : lastDirectory files path with
      | none => exact .inl rfl
      | some inode =>
        obtain ⟨j, dir, rfl, hdir, hkind, rfl⟩ := lastDirectory_eq_some hlast
        exact .inr ⟨j, dir, rfl, hdir, hkind, rfl⟩

/-- The node of a file, with its parent. -/
theorem Grown.parent_of_node (hb : Grown files b) (hnode : b.treeList[i + 1]? = some node) :
    ∃ p parent, node.parent = some p ∧ 1 ≤ p ∧ p < i + 2 ∧ b.treeList[p - 1]? = some parent ∧
      parent.attributes.inode = p ∧ parent.attributes.kind = .directory := by
  have hlt := (List.getElem?_eq_some_iff.mp hnode).1
  rw [hb.length] at hlt
  have hi : i < files.length := by omega
  obtain ⟨node', hnode', -, hparent⟩ := hb.nodes i _ (List.getElem?_eq_getElem hi)
  cases hnode'.symm.trans hnode
  rcases parentIn_cases (files.take i) (files[i]).name with hroot | ⟨j, dir, hj, hdir, hkind, -⟩
  · obtain ⟨root, htree, hof⟩ := hb.root
    refine ⟨1, root, hparent.trans (congrArg some hroot), ?_, ?_, htree, hof.inode, hof.kind⟩ <;> omega
  · have hjlt := (List.getElem?_eq_some_iff.mp hdir).1
    rw [List.length_take] at hjlt
    rw [List.getElem?_take_of_lt (by omega)] at hdir
    obtain ⟨parent, htree, hof, -⟩ := hb.nodes j dir hdir
    refine ⟨j + 2, parent, hparent.trans (congrArg some hj), ?_, ?_, htree, hof.inode, hof.kind.trans hkind⟩ <;> omega

/-- The names of a node are those of its parent, and its own. -/
theorem namesFromRoot_succ {tree : List FuseNode} {steps p : ℕ} {names : List (List Char)}
    (hnode : tree[i + 1]? = some node) (hparent : node.parent = some p)
    (hnames : namesFromRoot tree steps p = some names) :
    namesFromRoot tree (steps + 1) (i + 2) = some (names ++ [node.name]) := by
  have hindex : tree[i + 2 - 1]? = some node := hnode
  rw [namesFromRoot, if_neg (by rw [fuseRootId]; omega), hindex]
  dsimp only
  rw [hparent]
  dsimp only
  rw [hnames, Option.map_some]

/-- The parents of a node end at the root after as many steps as there are nodes before it. -/
theorem Grown.reachesRoot (hb : Grown files b) (steps : ℕ) :
    ∀ inode, 1 ≤ inode → inode ≤ b.treeList.length → inode ≤ steps →
      ∃ names, namesFromRoot b.treeList steps inode = some names := by
  induction steps with
  | zero =>
    intro inode hpos _ hsteps
    omega
  | succ steps ih =>
    intro inode hpos hle hsteps
    by_cases hroot : inode = fuseRootId
    · exact ⟨[], if_pos hroot⟩
    · obtain ⟨i, rfl⟩ : ∃ i, inode = i + 2 := by
        rw [fuseRootId] at hroot
        exact ⟨inode - 2, by omega⟩
      have hnode : b.treeList[i + 1]? = some b.treeList[i + 1] := List.getElem?_eq_getElem (by omega)
      obtain ⟨p, parent, hparent, hp, hlt, -⟩ := hb.parent_of_node hnode
      obtain ⟨names, hnames⟩ := ih p hp (by omega) (by omega)
      exact ⟨_, namesFromRoot_succ hnode hparent hnames⟩

/-- A tree that has grown is a proper one. -/
theorem Grown.proper (hb : Grown files b) : ProperTree files b.treeList := by
  have hchildren : ∀ node ∈ b.treeList, node.children =
      b.treeList.findIdxs (fun child => child.parent = some node.attributes.inode) 1 := by
    intro node hnode
    obtain ⟨k, hk⟩ := List.mem_iff_getElem?.mp hnode
    rw [hb.inode hk]
    exact hb.children k node hk
  refine ⟨hb.length, hb.root, fun i desc hdesc => ?_, fun i node hnode => ?_, hchildren,
    fun i child hchild node hnode => ?_, fun node hnode => ?_⟩
  · obtain ⟨node, hnode, hof, -⟩ := hb.nodes i desc hdesc
    exact ⟨node, hnode, hof⟩
  · obtain ⟨p, parent, hparent, -, hlt, hrest⟩ := hb.parent_of_node hnode
    refine ⟨p, parent, hparent, ?_, hrest⟩
    rw [hb.inode hnode]
    omega
  · have hlt := (List.getElem?_eq_some_iff.mp hchild).1
    have hmem : child.attributes.inode ∈ node.children ↔ child.parent = some node.attributes.inode := by
      rw [hchildren node hnode, List.mem_findIdxs_iff_getElem_sub_pos, hb.inode hchild]
      obtain ⟨-, rfl⟩ := List.getElem?_eq_some_iff.mp hchild
      constructor
      · rintro ⟨_, _, hparent⟩
        exact of_decide_eq_true hparent
      · intro hparent
        exact ⟨by omega, by omega, decide_eq_true hparent⟩
    have hnodup : node.children.Nodup := by
      rw [hchildren node hnode]
      exact List.nodup_findIdxs
    split
    next hparent => exact List.count_eq_one_of_mem hnodup (hmem.mpr hparent)
    next hparent => exact List.count_eq_zero_of_not_mem fun h => hparent (hmem.mp h)
  · obtain ⟨k, hk⟩ := List.mem_iff_getElem?.mp hnode
    have hlt := (List.getElem?_eq_some_iff.mp hk).1
    rw [hb.inode hk]
    exact hb.reachesRoot (k + 1) (k + 1) (Nat.succ_pos k) hlt (Nat.le_refl _)

theorem belowRoot_append {path : List Component} (hne : path ≠ []) (c : Component) :
    belowRoot (path ++ [c]) = belowRoot path ++ [c] := by
  cases path with
  | nil => exact absurd rfl hne
  | cons first path => cases first <;> rfl

/-- With the directories before their files, the names from the root are those of the path. -/
theorem Grown.names (hb : Grown files b) (hancestors : AncestorsFirst files) (steps : ℕ) :
    ∀ i desc, files[i]? = some desc → i + 2 ≤ steps → ∃ names, namesFromRoot b.treeList steps (i + 2) = some names ∧
        names.map .normal = belowRoot (components desc.name) := by
  induction steps with
  | zero =>
    intro i desc _ hsteps
    omega
  | succ steps ih =>
    intro i desc hdesc hsteps
    obtain ⟨node, hnode, hof, hparent⟩ := hb.nodes i desc hdesc
    obtain ⟨hcomponents, hpath⟩ := components_of_fileName hof.name
    have hroot : namesFromRoot b.treeList steps fuseRootId = some [] := by
      cases steps with
      | zero => omega
      | succ steps => exact if_pos rfl
    generalize (components desc.name).dropLast = path at hcomponents hpath
    by_cases htop : path = [] ∨ path = [.rootDir]
    · have hp : parentIn (files.take i) desc.name = fuseRootId := by
        rw [parentIn, hpath]
        dsimp only
        rw [directoryIn, if_pos htop, Option.getD_some]
      refine ⟨_, namesFromRoot_succ hnode (hparent.trans (congrArg some hp)) hroot, ?_⟩
      rw [hcomponents]
      rcases htop with rfl | rfl <;> rfl
    · obtain ⟨hnil, hslash⟩ := not_or.mp htop
      -- the directory is in the list, and the last one called so is the parent
      obtain ⟨j, hj, dir, hdir, hkind, hname⟩ := hancestors i desc hdesc path
        (by rw [hcomponents]; exact List.prefix_append _ _) (by rw [hcomponents]; simp) hnil hslash
      obtain ⟨inode, hlast⟩ := lastDirectory_isSome ((List.getElem?_take_of_lt hj).trans hdir) hkind hname
      obtain ⟨j', dir', rfl, hdir', -, hname'⟩ := lastDirectory_eq_some hlast
      have hj' := (List.getElem?_eq_some_iff.mp hdir').1
      rw [List.length_take] at hj'
      rw [List.getElem?_take_of_lt (by omega)] at hdir'
      have hp : parentIn (files.take i) desc.name = j' + 2 := by
        rw [parentIn, hpath]
        dsimp only
        rw [directoryIn, if_neg htop, hlast, Option.getD_some]
      obtain ⟨names, hnames, hmap⟩ := ih j' dir' hdir' (by omega)
      refine ⟨_, namesFromRoot_succ hnode (hparent.trans (congrArg some hp)) hnames, ?_⟩
      rw [List.map_append, hmap, hname', hcomponents, belowRoot_append hnil]
      rfl

end Whole

theorem foldlM_add_ok_iff {files : List FileDescription} {b : TreeBuilder} :
    (∃ b', files.foldlM TreeBuilder.add b = .ok b') ↔ ∀ file ∈ files, (fileName file.name).isSome := by
  induction files generalizing b with
  | nil => exact iff_of_true ⟨b, rfl⟩ (List.forall_mem_nil _)
  | cons file files ih =>
    rw [List.foldlM_cons, List.forall_mem_cons, TreeBuilder.add]
    cases hname : fileName file.name with
    | none => exact iff_of_false (fun ⟨_, h⟩ => nomatch h) fun h => nomatch h.1
    | some base => exact ih.trans (iff_and_self.mpr fun _ => rfl)

/-- A tree is built just where every path ends with a name. -/
theorem buildTree_ok_iff (now : ℤ) (files : List FileDescription) :
    (∃ tree, buildTree now files = .ok tree) ↔ ∀ file ∈ files, (fileName file.name).isSome := by
  have hfold := @foldlM_add_ok_iff files ⟨[.newRoot now],
    Function.update (Function.update (fun _ => none) [.rootDir] (some fuseRootId)) [] (some fuseRootId)⟩
  rw [← hfold, buildTree]
  generalize List.foldlM TreeBuilder.add _ files = built
  cases built with
  | error e => exact iff_of_false (fun ⟨_, h⟩ => nomatch h) fun ⟨_, h⟩ => nomatch h
  | ok b => exact iff_of_true ⟨_, rfl⟩ ⟨b, rfl⟩

/-- **Every node has the index of its file in the list.** -/
theorem node_of_buildTree {now : ℤ} {files : List FileDescription} {tree : List FuseNode}
    (h : buildTree now files = .ok tree) {i : ℕ} {desc : FileDescription} (hdesc : files[i]? = some desc) :
    ∃ node, tree[i + 1]? = some node ∧ NodeOf i desc node := by
  obtain ⟨b, rfl, hb⟩ := grown_of_buildTree h
  obtain ⟨node, hnode, hof, -⟩ := hb.nodes i desc hdesc
  exact ⟨node, hnode, hof⟩

/-- **A tree that is built is a proper one, and has the paths of the list** where their directories come first. -/
theorem properTree_of_buildTree {now : ℤ} {files : List FileDescription} {tree : List FuseNode}
    (h : buildTree now files = .ok tree) :
    ProperTree files tree ∧
      (AncestorsFirst files → ∀ i desc, files[i]? = some desc →
        ∃ names, namesFromRoot tree tree.length (i + 2) = some names ∧
          names.map .normal = belowRoot (components desc.name)) := by
  obtain ⟨b, rfl, hb⟩ := grown_of_buildTree h
  refine ⟨hb.proper, fun hancestors i desc hdesc => hb.names hancestors _ i desc hdesc ?_⟩
  have hlt := (List.getElem?_eq_some_iff.mp hdesc).1
  rw [hb.length]
  omega

/-! ## A list with two directories -/

/-- An entry of a list in the tests of the program. -/
def testDescription (name : String) (kind : FileType) : FileDescription where
  connId := 0
  name := name.toList
  kind
  atime := 0
  lastModified := 0
  lastMetadataChanged := 0
  creationTime := 0
  size := 0
  perm := 0

def testFiles : List FileDescription :=
  [testDescription "folder0" .directory, testDescription "folder0/file0" .file,
    testDescription "folder0/file1" .file, testDescription "folder1" .directory,
    testDescription "folder1/file2" .file, testDescription "folder1/📄3" .file]

example : (buildTree 0 testFiles).toOption.map (·.map FuseNode.children) =
    some [[2, 5], [3, 4], [], [], [6, 7], [], []] := by decide +kernel

/-- The tree of the list is a proper one, and the last of its nodes has its path. -/
theorem properTree_of_testFiles :
    ∃ tree, buildTree 0 testFiles = .ok tree ∧ ProperTree testFiles tree ∧
      ∃ names, namesFromRoot tree tree.length 7 = some names ∧
        names.map .normal = belowRoot (components "folder1/📄3".toList) := by
  obtain ⟨tree, htree⟩ := (buildTree_ok_iff 0 testFiles).mpr (by decide +kernel)
  have hancestors : ∀ i ∈ List.range testFiles.length, ∀ desc ∈ testFiles[i]?.toList,
      ∀ path ∈ (components desc.name).inits,
      path ≠ components desc.name → path ≠ [] → path ≠ [.rootDir] →
        ∃ dir ∈ testFiles.take i, dir.kind = .directory ∧ components dir.name = path := by
    decide +kernel
  obtain ⟨hproper, hnames⟩ := properTree_of_buildTree htree
  refine ⟨tree, htree, hproper, hnames (fun i desc hdesc path hpath hne hnil hslash => ?_) 5 _ rfl⟩
  have hlt := (List.getElem?_eq_some_iff.mp hdesc).1
  obtain ⟨dir, hmem, hkind, hname⟩ := hancestors i (List.mem_range.mpr hlt) desc (Option.mem_toList.mpr hdesc) path
    ((List.mem_inits _ _).mpr hpath) hne hnil hslash
  obtain ⟨j, hj⟩ := List.mem_iff_getElem?.mp hmem
  rw [List.getElem?_take] at hj
  split at hj
  next hlt => exact ⟨j, hlt, dir, hj, hkind, hname⟩
  next => cases hj

end RustDesk.Clipboard
