import RustDesk.Common.Run
import RustDesk.FileTransfer.Job
import RustDesk.FileTransfer.Tree

/-!
# Write jobs in their directory

What a job creates, opens, renames or deletes is the target of an entry, or one of its companions, the
`.download` and the `.digest` beside it. The checks look at the components of the entry's name, and
keep the target inside the directory of the job. A companion they never look at: it is inside where it
is no link, and a link is followed.
-/

namespace RustDesk.FileTransfer

open DirTree (Loc Step Node Fault)

variable {cwd : Loc Path} {denied : FsOp → TreeState → Path → Bool} {seg path : Path} {follow : Bool}

/-! ## Inside the directory -/

/-- A location lies in the directory that a path leads to. -/
def Inside (cwd : Loc Path) (T : DirTree Path) (base : Path) (l : Loc Path) : Prop :=
  ∃ B, resolve cwd T base true = .ok B ∧ B <+: l

/-- A location lies in the directory of the job, or, where the list is a single entry with an empty
name, is that of the base or of its companions. -/
def Allowed (cwd : Loc Path) (T : DirTree Path) (base : Path) (files : List FileEntry)
    (l : Loc Path) : Prop :=
  Inside cwd T base l ∨
    (∃ entry, files = [entry] ∧ entry.name = []) ∧
      ∃ suffix ∈ [[], downloadSuffix, digestSuffix], resolve cwd T (base ++ suffix) false = .ok l

/-- A path ends at a link, and the link leads out. -/
def LeadsOut (cwd : Loc Path) (T : DirTree Path) (base : Path) (files : List FileEntry)
    (p : Path) : Prop :=
  ∃ l absolute target l', resolve cwd T p false = .ok l ∧
    T.node l = some (.link absolute target) ∧ resolve cwd T p true = .ok l' ∧
    ¬ Allowed cwd T base files l'

/-! ## Names -/

theorem not_mem_of_mem_splitOn {p : Path} (h : seg ∈ p.splitOn '/') : '/' ∉ seg := by
  induction p generalizing seg with
  | nil =>
    obtain rfl : seg = [] := by simpa using h
    simp
  | cons c p ih =>
    rw [List.splitOn_cons_eq_if_modifyHead] at h
    split at h
    · obtain rfl | h := List.mem_cons.mp h
      · simp
      · exact ih h
    next hc =>
      obtain ⟨first, rest, hsplit⟩ := List.exists_cons_of_ne_nil (List.splitOn_ne_nil '/' p)
      rw [hsplit, List.modifyHead_cons] at h
      obtain rfl | h := List.mem_cons.mp h
      · have hfirst : '/' ∉ first := ih (by rw [hsplit]; exact List.mem_cons_self)
        rintro hmem
        obtain rfl | hmem := List.mem_cons.mp hmem
        · exact hc (by simp)
        · exact hfirst hmem
      · exact ih (by rw [hsplit]; exact List.mem_cons_of_mem _ h)

theorem mem_segments {p : Path} (h : seg ∈ segments p) : '/' ∉ seg ∧ seg ≠ [] := by
  rw [segments, List.mem_filter] at h
  exact ⟨not_mem_of_mem_splitOn h.1, by simpa using h.2⟩

/-- A name that passes the textual check. -/
structure PlainName (name : Path) : Prop where
  relative : name.head? ≠ some '/'
  no_parent : ['.', '.'] ∉ segments name

theorem PlainName.of_validate {name : Path} (h : validateFileNameNoTraversal name = .ok ()) : PlainName name := by
  unfold validateFileNameNoTraversal at h
  split at h
  · cases h
  · split at h
    · cases h
    next hparent =>
      split at h
      · cases h
      next hhead => exact ⟨hhead, fun hmem => hparent (List.any_eq_true.mpr ⟨_, hmem, by simp⟩)⟩

theorem PlainName.up_notMem {name : Path} (h : PlainName name) : .up ∉ steps name := by
  intro hup
  obtain ⟨seg, hseg, hstep⟩ := List.mem_map.mp hup
  unfold segmentStep at hstep
  split at hstep
  · cases hstep
  · split at hstep
    next hparent => exact h.no_parent (hparent ▸ hseg)
    · cases hstep

/-- A name that is not empty has a segment. -/
theorem PlainName.steps_ne_nil {name : Path} (h : PlainName name) (hne : name ≠ []) : steps name ≠ [] := by
  intro hnil
  have hsegments : segments name = [] := List.map_eq_nil_iff.mp hnil
  obtain ⟨c, rest, rfl⟩ := List.exists_cons_of_ne_nil hne
  have hc : c ≠ '/' := fun hc => h.relative (by simp [hc])
  have hc' : (c == '/') = false := by simpa using hc
  rw [segments, List.splitOn_cons_eq_if_modifyHead, hc'] at hsegments
  obtain ⟨first, more, hsplit⟩ := List.exists_cons_of_ne_nil (List.splitOn_ne_nil '/' rest)
  rw [hsplit] at hsegments
  simp at hsegments

/-- The names among components. -/
def normals (cs : List Component) : List Path :=
  cs.filterMap fun
    | .normal seg => some seg
    | _ => none

theorem names_steps {name : Path} (h : PlainName name) :
    DirTree.names (steps name) = normals (components name) := by
  have hinner : ∀ segs : List Path, ['.', '.'] ∉ segs →
      DirTree.names (segs.map segmentStep) = normals (segs.filterMap innerComponent) := by
    intro segs hsegs
    induction segs with
    | nil => rfl
    | cons seg segs ih =>
      rw [List.mem_cons, not_or] at hsegs
      have hseg : seg ≠ ['.', '.'] := Ne.symm hsegs.1
      have hrest := ih hsegs.2
      unfold DirTree.names normals at hrest ⊢
      by_cases hdot : seg = ['.']
      · simpa [segmentStep, innerComponent, hdot] using hrest
      · simpa [segmentStep, innerComponent, hdot, hseg] using hrest
  rw [steps, hinner _ h.no_parent, components, if_neg h.relative]
  split <;> rfl

/-! ## What the checks say of a tree -/

/-- As far as the name of an entry leads into the directory, none of its components is a link. -/
def PlainEntry (cwd : Loc Path) (T : DirTree Path) (base name : Path) : Prop :=
  ∀ B m, T.walk maxLinks (origin cwd base) (steps base) true = .ok (B, m) →
    T.Plain B (DirTree.names (steps name))

theorem steps_push {p q : Path} (hq : q.head? ≠ some '/') : steps (push p q) = steps p ++ steps q := by
  rw [steps, segments_push hq, List.map_append]
  rfl

theorem head_ne_of_not_mem (h : '/' ∉ seg) : seg.head? ≠ some '/' := by
  cases seg with
  | nil => simp
  | cons c seg =>
    intro hc
    exact h (by simp_all)

theorem resolve_of_walk {T : DirTree Path} {p : Path} {res : Loc Path × ℕ}
    (h : T.walk maxLinks (origin cwd p) (steps p) follow = .ok res) :
    resolve cwd T p follow = .ok res.1 := by
  rw [resolve, h]
  rfl

/-- `symlink_metadata` does not take a link for something else. -/
theorem symlinkMetadata_of_link (denied : FsOp → TreeState → Path → Bool) {s : TreeState} {p : Path} {l : Loc Path} {absolute : Bool}
    {target : List (Step Path)} (hl : resolve cwd s.tree p false = .ok l)
    (hlink : s.tree.node l = some (.link absolute target)) :
    (treeFs cwd denied).symlinkMetadata s p = .ok true ∨
      (treeFs cwd denied).symlinkMetadata s p = .error TreeState.permissionDenied := by
  show (s.stat cwd denied p false).map Node.isLink = _ ∨ (s.stat cwd denied p false).map _ = _
  rw [TreeState.stat, TreeState.nodeAt, hl]
  dsimp only
  rw [hlink]
  split
  · exact .inr rfl
  · exact .inl rfl

/-- The loop over the components. -/
theorem plain_of_validateComponents {s : TreeState} {base : Path} {cs : List Component}
    (hcs : ∀ seg, .normal seg ∈ cs → '/' ∉ seg ∧ seg ≠ [] ∧ seg ≠ ['.'] ∧ seg ≠ ['.', '.'])
    (h : validateComponents (treeFs cwd denied) s base cs = .ok ()) {B : Loc Path} {m : ℕ}
    (hbase : s.tree.walk maxLinks (origin cwd base) (steps base) true = .ok (B, m)) :
    s.tree.Plain B (normals cs) := by
  induction cs generalizing base B m with
  | nil => trivial
  | cons c cs ih =>
    have hrest := fun seg hmem => hcs seg (List.mem_cons_of_mem c hmem)
    cases c with
    | rootDir => cases h
    | parentDir => cases h
    | curDir => exact ih hrest h hbase
    | normal seg =>
      obtain ⟨hslash, hne, hdot, hup⟩ := hcs seg List.mem_cons_self
      have hhead := head_ne_of_not_mem hslash
      have hsteps : steps (push base seg) = steps base ++ [.into seg] := by
        have hseg : steps seg = [.into seg] := by
          rw [steps, segments_of_not_mem hslash hne]
          simp [segmentStep, hdot, hup]
        rw [steps_push hhead, hseg]
      intro hdir
      -- what `symlink_metadata` finds at the component
      have hwalk : s.tree.walk maxLinks (origin cwd (push base seg)) (steps (push base seg)) false =
          .ok (B ++ [seg], m) := by
        rw [origin_push hhead, hsteps, DirTree.walk_append _ (List.cons_ne_nil _ _), hbase]
        exact DirTree.walk_last hdir seg
      have hnode : ∀ absolute target, s.tree.node (B ++ [seg]) ≠ some (.link absolute target) := by
        intro absolute target hlink
        rw [validateComponents] at h
        obtain hstat | hstat := symlinkMetadata_of_link denied (resolve_of_walk hwalk) hlink
        · rw [hstat] at h
          cases h
        · rw [hstat] at h
          cases h
      have hnext : validateComponents (treeFs cwd denied) s (push base seg) cs = .ok () := by
        rw [validateComponents] at h
        split at h
        · cases h
        · exact h
        · exact h
        · cases h
      refine ⟨hnode, ih hrest hnext ?_ (m := m)⟩
      rw [origin_push hhead, hsteps, DirTree.walk_append _ (List.cons_ne_nil _ _), hbase]
      show s.tree.walk m B [.into seg] true = _
      rw [DirTree.walk_follow_last hnode, DirTree.walk_last hdir]

theorem normal_mem_components {name : Path} (h : Component.normal seg ∈ components name) :
    '/' ∉ seg ∧ seg ≠ [] ∧ seg ≠ ['.'] ∧ seg ≠ ['.', '.'] := by
  have hinner : Component.normal seg ∈ (segments name).filterMap innerComponent := by
    unfold components at h
    split at h
    · simpa using h
    · split at h
      · simpa using h
      · exact h
  obtain ⟨seg', hmem, hseg⟩ := List.mem_filterMap.mp hinner
  unfold innerComponent at hseg
  split at hseg
  · cases hseg
  · split at hseg
    · cases hseg
    next hdot hup =>
      obtain rfl : seg' = seg := by simpa using hseg
      obtain ⟨hslash, hne⟩ := mem_segments hmem
      exact ⟨hslash, hne, hdot, hup⟩

/-- What `join_validated_path` checks. -/
theorem joinValidatedPath_spec {s : TreeState} {base name : Path}
    (h : joinValidatedPath (treeFs cwd denied) s base name = .ok path) :
    path = join base name ∧ PlainName name ∧ (name ≠ [] → PlainEntry cwd s.tree base name) := by
  unfold joinValidatedPath at h
  split at h
  · cases h
  next hname =>
    split at h
    · cases h
    next hlinks =>
      have hplain := PlainName.of_validate hname
      refine ⟨(Except.ok.inj h).symm, hplain, fun hne B m hbase => ?_⟩
      rw [validateNoSymlinkComponents, if_neg hne] at hlinks
      rw [names_steps hplain]
      exact plain_of_validateComponents (fun seg => normal_mem_components) hlinks hbase

theorem PlainEntry.shrinks {T T' : DirTree Path} {d : Loc Path} {base name : Path}
    (h : PlainEntry cwd T base name) (hshrinks : T.Shrinks T' d) : PlainEntry cwd T' base name := by
  intro B m hbase
  obtain hbase | ⟨rfl, -⟩ := hshrinks.walk hbase
  · exact hshrinks.plain (h B m hbase)
  · -- there is no directory at the location, so that nothing is below it
    unfold DirTree.Plain
    split
    · trivial
    · exact fun hdir => absurd hdir hshrinks.node

/-! ## Where targets and companions are -/

/-- What a companion adds to its path. -/
structure IsSuffix (suffix : Path) : Prop where
  slash : '/' ∉ suffix
  length : 2 < suffix.length

theorem downloadSuffix_isSuffix : IsSuffix downloadSuffix := ⟨by decide, by decide⟩

theorem digestSuffix_isSuffix : IsSuffix digestSuffix := ⟨by decide, by decide⟩

theorem IsSuffix.steps {suffix : Path} (h : IsSuffix suffix) (p : Path) :
    ∃ front seg, front <+: FileTransfer.steps p ∧ FileTransfer.steps (p ++ suffix) = front ++ [.into seg] := by
  obtain ⟨front, last, hfront, hsegments⟩ := segments_suffix p
  have hne : suffix ≠ [] := by
    rintro rfl
    exact absurd h.length (by simp)
  have hlast : segmentStep (last ++ suffix) = .into (last ++ suffix) := by
    have hlength := h.length
    exact segmentStep_of_length (by rw [List.length_append]; omega)
  refine ⟨front.map segmentStep, last ++ suffix, hfront.map segmentStep, ?_⟩
  rw [FileTransfer.steps, hsegments suffix h.slash hne, List.map_append, List.map_singleton, hlast]

theorem resolve_eq_ok {T : DirTree Path} {p : Path} {l : Loc Path} (h : resolve cwd T p follow = .ok l) :
    ∃ m, T.walk maxLinks (origin cwd p) (steps p) follow = .ok (l, m) := by
  unfold resolve at h
  cases hwalk : T.walk maxLinks (origin cwd p) (steps p) follow with
  | error e =>
    rw [hwalk] at h
    cases h
  | ok res =>
    rw [hwalk] at h
    obtain rfl : res.1 = l := Except.ok.inj h
    exact ⟨res.2, rfl⟩

/-- A companion is where its name says, or is a link. -/
theorem IsSuffix.resolve_follow {suffix : Path} (h : IsSuffix suffix) {T : DirTree Path} {p : Path}
    {l : Loc Path} (hl : resolve cwd T (p ++ suffix) true = .ok l) :
    resolve cwd T (p ++ suffix) false = .ok l ∨ ∃ l₀ absolute target, resolve cwd T (p ++ suffix) false = .ok l₀ ∧
        T.node l₀ = some (.link absolute target) := by
  obtain ⟨front, seg, -, hsteps⟩ := h.steps p
  obtain ⟨m, hwalk⟩ := resolve_eq_ok hl
  rw [hsteps] at hwalk
  obtain ⟨B, k, hfront, hB, hlast⟩ := DirTree.walk_append_ok (List.cons_ne_nil _ _) hwalk
  have hnofollow : resolve cwd T (p ++ suffix) false = .ok (B ++ [seg]) := by
    have hlast : T.walk maxLinks (origin cwd (p ++ suffix)) (FileTransfer.steps (p ++ suffix)) false =
        .ok (B ++ [seg], k) := by
      rw [hsteps, DirTree.walk_append _ (List.cons_ne_nil _ _), hfront]
      exact DirTree.walk_last hB seg
    exact resolve_of_walk hlast
  by_cases hlink : ∃ absolute target, T.node (B ++ [seg]) = some (.link absolute target)
  · obtain ⟨absolute, target, hlink⟩ := hlink
    exact .inr ⟨_, absolute, target, hnofollow, hlink⟩
  · rw [DirTree.walk_follow_last (fun absolute target h => hlink ⟨absolute, target, h⟩),
      DirTree.walk_last hB] at hlast
    obtain rfl : B ++ [seg] = l := congrArg Prod.fst (Except.ok.inj hlast)
    exact .inl hnofollow

theorem inside_of_walk {T : DirTree Path} {base : Path} {B l : Loc Path} {m : ℕ}
    (hbase : T.walk maxLinks (origin cwd base) (steps base) true = .ok (B, m)) (hl : B <+: l) :
    Inside cwd T base l := ⟨B, resolve_of_walk hbase, hl⟩

/-- The target of an entry is inside. -/
theorem PlainEntry.target_inside {T : DirTree Path} {base name : Path} {l : Loc Path}
    (h : PlainEntry cwd T base name) (hname : PlainName name) (hne : name ≠ [])
    (hl : resolve cwd T (push base name) follow = .ok l) : Inside cwd T base l := by
  obtain ⟨m, hwalk⟩ := resolve_eq_ok hl
  rw [origin_push hname.relative, steps_push hname.relative] at hwalk
  obtain ⟨B, k, hbase, -, hrest⟩ := DirTree.walk_append_ok (hname.steps_ne_nil hne) hwalk
  have hres := DirTree.walk_plain (h B k hbase) hname.up_notMem hrest
  obtain rfl : l = _ := congrArg Prod.fst hres
  exact inside_of_walk hbase (List.prefix_append _ _)

theorem plain_of_prefix {T : DirTree Path} {cur : Loc Path} {ms ns : List Path} (h : ms <+: ns)
    (hplain : T.Plain cur ns) : T.Plain cur ms := by
  induction ms generalizing cur ns with
  | nil => trivial
  | cons name ms ih =>
    obtain ⟨rest, rfl⟩ := h
    intro hcur
    obtain ⟨hnode, hrest⟩ := hplain hcur
    exact ⟨hnode, ih (List.prefix_append ms rest) hrest⟩

/-- A companion that is not followed is inside. -/
theorem PlainEntry.companion_inside {T : DirTree Path} {base name suffix : Path} {l : Loc Path}
    (h : PlainEntry cwd T base name) (hname : PlainName name) (hne : name ≠ [])
    (hsuffix : IsSuffix suffix) (hl : resolve cwd T (push base name ++ suffix) false = .ok l) :
    Inside cwd T base l := by
  have hhead : (name ++ suffix).head? ≠ some '/' := by
    obtain ⟨c, name, rfl⟩ := List.exists_cons_of_ne_nil hne
    exact hname.relative
  obtain ⟨front, seg, hfront, hsteps⟩ := hsuffix.steps name
  obtain ⟨m, hwalk⟩ := resolve_eq_ok hl
  rw [push_append hname.relative hne, origin_push hhead, steps_push hhead, hsteps] at hwalk
  obtain ⟨B, k, hbase, -, hrest⟩ := DirTree.walk_append_ok (by simp) hwalk
  have hup : .up ∉ front := fun hmem => hname.up_notMem (hfront.subset hmem)
  have hplain : T.Plain B (DirTree.names front) := plain_of_prefix (hfront.filterMap _) (h B k hbase)
  have hres := DirTree.walk_plain_last hplain hup hrest
  obtain rfl : l = _ := congrArg Prod.fst hres
  refine inside_of_walk hbase ?_
  rw [List.append_assoc]
  exact List.prefix_append _ _

/-! ### Of an entry of the list -/

/-- What the checks of a name say, in a tree. -/
structure Checked (cwd : Loc Path) (T : DirTree Path) (base : Path) (files : List FileEntry)
    (name : Path) : Prop where
  single : name = [] → ∃ entry, files = [entry] ∧ entry.name = []
  plainName : PlainName name
  plainEntry : name ≠ [] → PlainEntry cwd T base name

variable {T T' : DirTree Path} {base name suffix : Path} {files : List FileEntry} {l d : Loc Path}

section

variable (h : Checked cwd T base files name)
include h

theorem Checked.shrinks (hshrinks : T.Shrinks T' d) : Checked cwd T' base files name :=
  ⟨h.single, h.plainName, fun hne => (h.plainEntry hne).shrinks hshrinks⟩

theorem Checked.companion (hsuffix : suffix = downloadSuffix ∨ suffix = digestSuffix)
    (hl : resolve cwd T (join base name ++ suffix) false = .ok l) : Allowed cwd T base files l := by
  have hisSuffix : IsSuffix suffix := by
    obtain rfl | rfl := hsuffix
    · exact downloadSuffix_isSuffix
    · exact digestSuffix_isSuffix
  by_cases hne : name = []
  · rw [join, if_pos hne] at hl
    exact .inr ⟨h.single hne, suffix, by simpa using .inr hsuffix, hl⟩
  · rw [join, if_neg hne] at hl
    exact .inl ((h.plainEntry hne).companion_inside h.plainName hne hisSuffix hl)

theorem Checked.target (hl : resolve cwd T (join base name) false = .ok l) : Allowed cwd T base files l := by
  by_cases hne : name = []
  · rw [join, if_pos hne] at hl
    exact .inr ⟨h.single hne, [], by simp, by simpa using hl⟩
  · rw [join, if_neg hne] at hl
    exact .inl ((h.plainEntry hne).target_inside h.plainName hne hl)

/-- The target, opened. -/
theorem Checked.target_opened (hl : resolve cwd T (join base name) true = .ok l) : Allowed cwd T base files l := by
  by_cases hne : name = []
  · rw [join, if_pos hne] at hl
    exact .inl ⟨l, hl, List.prefix_refl l⟩
  · rw [join, if_neg hne] at hl
    exact .inl ((h.plainEntry hne).target_inside h.plainName hne hl)

/-- A companion, opened. -/
theorem Checked.companion_opened (hsuffix : suffix = downloadSuffix ∨ suffix = digestSuffix)
    (hleads : ¬ LeadsOut cwd T base files (join base name ++ suffix))
    (hl : resolve cwd T (join base name ++ suffix) true = .ok l) : Allowed cwd T base files l := by
  have hisSuffix : IsSuffix suffix := by
    obtain rfl | rfl := hsuffix
    · exact downloadSuffix_isSuffix
    · exact digestSuffix_isSuffix
  obtain hplain | ⟨l₀, absolute, target, hl₀, hlink⟩ := hisSuffix.resolve_follow hl
  · exact h.companion hsuffix hplain
  · by_contra hout
    exact hleads ⟨l₀, absolute, target, l, hl₀, hlink, hl, hout⟩

end

/-! ## The operations of the file system -/

namespace TreeState

variable {s : TreeState} {p q : Path}

theorem nodeAt_eq_ok {follow : Bool} {node : Node Path} (h : s.nodeAt cwd p follow = .ok (l, node)) :
    resolve cwd s.tree p follow = .ok l ∧ s.tree.node l = some node := by
  unfold nodeAt at h
  split at h
  next l' hl' =>
    split at h
    next node' hnode' =>
      cases h
      exact ⟨hl', hnode'⟩
    · cases h
  · cases h
  · cases h
  · cases h

theorem ne_root_of_node {T : DirTree Path} (h : T.node l ≠ some .dir) : l ≠ [] := by
  rintro rfl
  exact h rfl

/-- `remove_file` deletes what its path leads to, or fails. -/
theorem removeFile_spec (cwd : Loc Path) (denied : FsOp → TreeState → Path → Bool)
    (s : TreeState) (p : Path) : (∃ e, s.removeFile cwd denied p = (.error e, s)) ∨
    ∃ l, l ≠ [] ∧ resolve cwd s.tree p false = .ok l ∧
      s.removeFile cwd denied p = (.ok (), s.access [l] (s.tree.remove l)) := by
  unfold removeFile
  split
  · exact .inl ⟨_, rfl⟩
  · split
    next e _ => exact .inl ⟨e, rfl⟩
    · exact .inl ⟨_, rfl⟩
    next l node hdir hnode =>
      obtain ⟨hl, hnode⟩ := nodeAt_eq_ok hnode
      have hne : s.tree.node l ≠ some .dir := by
        rw [hnode]
        exact fun h => hdir (Option.some.inj h)
      exact .inr ⟨l, ne_root_of_node hne, hl, rfl⟩

/-- `rename` moves what its path leads to, or does nothing. -/
theorem rename_spec (cwd : Loc Path) (denied : FsOp → TreeState → Path → Bool)
    (s : TreeState) (p q : Path) : s.rename cwd denied p q = s ∨
    ∃ l l' T', resolve cwd s.tree p false = .ok l ∧ resolve cwd s.tree q false = .ok l' ∧
      s.rename cwd denied p q = s.access [l, l'] T' := by
  unfold rename
  split
  next l node l' hl hl' =>
    split
    · exact .inr ⟨l, l', _, (nodeAt_eq_ok hl).1, hl', rfl⟩
    · exact .inl rfl
  · exact .inl rfl

/-- A file is opened for writing where its path leads to, links included. -/
theorem openWrite_spec (cwd : Loc Path) (denied : FsOp → TreeState → Path → Bool)
    (s : TreeState) (p : Path) : (∃ e, s.openWrite cwd denied p = (.error e, s)) ∨
    ∃ l, l ≠ [] ∧ (s.tree.node l = none ∨ s.tree.node l = some .file) ∧ resolve cwd s.tree p true = .ok l ∧
      s.openWrite cwd denied p = (.ok (s.tree, l), s.access [l] (s.tree.putFile l)) := by
  unfold openWrite
  split
  · exact .inl ⟨_, rfl⟩
  · split
    · exact .inl ⟨_, rfl⟩
    next l hl =>
      split
      next hnode =>
        have hne : s.tree.node l ≠ some .dir := by simp [hnode]
        exact .inr ⟨l, ne_root_of_node hne, .inl hnode, hl, rfl⟩
      next hnode =>
        have hne : s.tree.node l ≠ some .dir := by simp [hnode]
        exact .inr ⟨l, ne_root_of_node hne, .inr hnode, hl, rfl⟩
      · exact .inl ⟨_, rfl⟩

theorem openRead_eq_ok {h : DirTree Path × Loc Path} (hopen : s.openRead cwd denied p = .ok h) :
    h.1 = s.tree ∧ resolve cwd s.tree p true = .ok h.2 := by
  unfold openRead at hopen
  split at hopen
  · cases hopen
  · cases hnode : s.nodeAt cwd p true with
    | error e =>
      rw [hnode] at hopen
      cases hopen
    | ok res =>
      rw [hnode] at hopen
      cases hopen
      exact ⟨rfl, (nodeAt_eq_ok hnode).1⟩

theorem createDirAll_accessed : (s.createDirAll cwd denied p).accessed = s.accessed := by
  unfold createDirAll
  induction (FileTransfer.steps p).inits generalizing s with
  | nil => rfl
  | cons front fronts ih =>
    rw [List.foldl_cons, ih, mkdirStep]
    split
    · split
      · rfl
      · rfl
    · rfl

/-- Everything that was created, opened, renamed or deleted is where it may be. -/
def Confined (cwd : Loc Path) (base : Path) (files : List FileEntry) (s : TreeState) : Prop :=
  ∀ a ∈ s.accessed, Allowed cwd a.1 base files a.2

theorem Confined.access {ls : List (Loc Path)} (h : s.Confined cwd base files)
    (hls : ∀ l ∈ ls, Allowed cwd s.tree base files l) : (s.access ls T').Confined cwd base files := by
  intro a ha
  obtain ha | ha := List.mem_append.mp ha
  · exact h a ha
  · obtain ⟨l, hl, rfl⟩ := List.mem_map.mp ha
    exact hls l hl

/-- A companion is removed. -/
theorem Confined.removeFile (denied : FsOp → TreeState → Path → Bool) (h : s.Confined cwd base files)
    (hname : Checked cwd s.tree base files name)
    (hsuffix : suffix = downloadSuffix ∨ suffix = digestSuffix) :
    (s.removeFile cwd denied (join base name ++ suffix)).2.Confined cwd base files ∧
      Checked cwd (s.removeFile cwd denied (join base name ++ suffix)).2.tree base files name := by
  obtain ⟨e, hremove⟩ | ⟨l, hroot, hl, hremove⟩ := removeFile_spec cwd denied s (join base name ++ suffix)
  · rw [hremove]
    exact ⟨h, hname⟩
  · rw [hremove]
    exact ⟨h.access (by simpa using hname.companion hsuffix hl), hname.shrinks (.remove hroot)⟩

/-- A download is put in place. -/
theorem Confined.putInPlace (denied : FsOp → TreeState → Path → Bool) (h : s.Confined cwd base files)
    (hname : Checked cwd s.tree base files name) :
    (s.putInPlace cwd denied (join base name)).Confined cwd base files := by
  obtain ⟨h', hname'⟩ := h.removeFile denied hname (.inr rfl)
  unfold TreeState.putInPlace
  obtain hrename | ⟨l, l', T, hl, hl', hrename⟩ := rename_spec cwd denied
    (s.removeFile cwd denied (join base name ++ digestSuffix)).2 (join base name ++ downloadSuffix)
    (join base name)
  · rw [hrename]
    exact h'
  · rw [hrename]
    refine h'.access ?_
    simpa using ⟨hname'.companion (.inl rfl) hl, hname'.target hl'⟩

theorem Confined.withParent (h : s.Confined cwd base files) :
    (s.withParent cwd denied p).Confined cwd base files := by
  unfold TreeState.withParent
  split
  · rw [Confined, createDirAll_accessed]
    exact h
  · exact h

theorem Confined.withoutDigest (denied : FsOp → TreeState → Path → Bool) (h : s.Confined cwd base files)
    (hname : Checked cwd s.tree base files name) :
    (s.withoutDigest cwd denied (join base name)).Confined cwd base files ∧
      Checked cwd (s.withoutDigest cwd denied (join base name)).tree base files name := by
  unfold TreeState.withoutDigest
  split
  · exact h.removeFile denied hname (.inr rfl)
  · exact ⟨h, hname⟩

/-- A companion is opened for writing. -/
theorem Confined.openWrite (denied : FsOp → TreeState → Path → Bool) (h : s.Confined cwd base files)
    (hname : Checked cwd s.tree base files name)
    (hsuffix : suffix = downloadSuffix ∨ suffix = digestSuffix)
    (hleads : ¬ LeadsOut cwd s.tree base files (join base name ++ suffix)) :
    (s.openWrite cwd denied (join base name ++ suffix)).2.Confined cwd base files ∧
      ∀ h, (s.openWrite cwd denied (join base name ++ suffix)).1 = .ok h → Allowed cwd h.1 base files h.2 := by
  obtain ⟨e, hopen⟩ | ⟨l, -, -, hl, hopen⟩ := openWrite_spec cwd denied s (join base name ++ suffix)
  · rw [hopen]
    exact ⟨h, fun _ heq => by cases heq⟩
  · rw [hopen]
    have hallowed := hname.companion_opened hsuffix hleads hl
    refine ⟨h.access (by simpa using hallowed), fun h heq => ?_⟩
    cases heq
    exact hallowed

/-- What it comes to for the next companion that a file is opened for writing. -/
theorem openWrite_keeps (denied : FsOp → TreeState → Path → Bool) (p : Path)
    (hname : Checked cwd s.tree base files name)
    (hleads : ¬ LeadsOut cwd s.tree base files q) :
    Checked cwd (s.openWrite cwd denied p).2.tree base files name ∧
      ¬ LeadsOut cwd (s.openWrite cwd denied p).2.tree base files q := by
  obtain ⟨e, hopen⟩ | ⟨d, hroot, hnode, -, hopen⟩ := openWrite_spec cwd denied s p
  · rw [hopen]
    exact ⟨hname, hleads⟩
  rw [hopen]
  refine ⟨hname.shrinks (.putFile hroot), ?_⟩
  -- a file where there was none, or a file, changes no walk
  have hdir : s.tree.node d ≠ some .dir := by obtain hnode | hnode := hnode <;> simp [hnode]
  have hlink : ∀ absolute target, s.tree.node d ≠ some (.link absolute target) := by
    obtain hnode | hnode := hnode <;> simp [hnode]
  have hsame : ∀ (p : Path) follow l,
      resolve cwd (s.tree.putFile d) p follow = .ok l ↔ resolve cwd s.tree p follow = .ok l := by
    intro p follow l
    constructor
    · intro h
      obtain ⟨m, hm⟩ := resolve_eq_ok h
      exact resolve_of_walk ((DirTree.walk_putFile hroot hdir hlink).mp hm)
    · intro h
      obtain ⟨m, hm⟩ := resolve_eq_ok h
      exact resolve_of_walk ((DirTree.walk_putFile hroot hdir hlink).mpr hm)
  rintro ⟨l, absolute, target, l', hl, hat, hl', hout⟩
  refine hleads ⟨l, absolute, target, l', (hsame _ _ _).mp hl, ?_, (hsame _ _ _).mp hl', ?_⟩
  · have hat : (s.tree.putFile d).node l = some (.link absolute target) := hat
    rw [DirTree.node_putFile hroot] at hat
    split at hat
    · cases hat
    · exact hat
  · intro hin
    refine hout ?_
    obtain ⟨B, hB, hprefix⟩ | ⟨hsingle, suffix, hsuffix, hres⟩ := hin
    · exact .inl ⟨B, (hsame _ _ _).mpr hB, hprefix⟩
    · exact .inr ⟨hsingle, suffix, hsuffix, (hsame _ _ _).mpr hres⟩

end TreeState

/-! ## A write job and its tree -/

abbrev TreeJob := TransferJob (DirTree Path × Loc Path)

/-- A write job, and the tree it writes to. -/
structure WriteSide where
  job : TreeJob
  s : TreeState

inductive WriteAction
  | write (block : FileTransferBlock)
  | modifyTime
  | removeDownloadFile
  | confirm (r : FileTransferSendConfirmRequest)
  | setDigest (size modified : ℕ)
  /-- somebody else changes the tree -/
  | others (T : DirTree Path)

namespace WriteSide

/-- A step, `none` where the code panics. -/
def step (cwd : Loc Path) (denied : FsOp → TreeState → Path → Bool) (codec : Codec)
    (st : WriteSide) : WriteAction → Option WriteSide
  | .write block =>
    let res := st.job.write (treeFs cwd denied) codec st.s block
    some ⟨res.2.1, res.2.2⟩
  | .modifyTime => some { st with s := st.job.modifyTime (treeFs cwd denied) st.s }
  | .removeDownloadFile => some { st with s := st.job.removeDownloadFile (treeFs cwd denied) st.s }
  | .confirm r => (st.job.confirm (treeFs cwd denied) st.s r).map fun res => ⟨res.1, res.2⟩
  | .setDigest size modified => some { st with job := st.job.setDigest size modified }
  | .others T => some { st with s := { st.s with tree := T } }

/-- The tree in which `write` looks at the next entry. -/
def leave (cwd : Loc Path) (denied : FsOp → TreeState → Path → Bool) (st : WriteSide) : TreeState :=
  match st.job.currentEntryPath (treeFs cwd denied) st.s with
  | some (_, path) => st.s.putInPlace cwd denied path
  | none => st.s

/-- What holds a step to the directory. A block that opens a file: with the directories that its path
needs the name still passes the checks, and without the old digest neither companion is a link that
leads out. A confirmation that opens a `.download`: it is no link that leads out. -/
def QuietStep (cwd : Loc Path) (denied : FsOp → TreeState → Path → Bool) (base : Path)
    (st : WriteSide) : WriteAction → Prop
  | .write block =>
    block.id = st.job.id →
      asUsize block.fileNum ≠ asUsize st.job.fileNum ∨ st.job.dataStream.isNone →
      ∀ entry path, st.job.files[asUsize block.fileNum]? = some entry →
        joinValidatedPath (treeFs cwd denied) (st.leave cwd denied) base entry.name = .ok path →
          let s := (st.leave cwd denied).withParent cwd denied path
          joinValidatedPath (treeFs cwd denied) s base entry.name = .ok path ∧
            let s := s.withoutDigest cwd denied path
            ∀ suffix ∈ [downloadSuffix, digestSuffix],
              ¬ LeadsOut cwd s.tree base st.job.files (path ++ suffix)
  | .confirm r =>
    r.fileNum = st.job.fileNum → ∀ offset, r.union = some (.offsetBlk offset) → 0 < offset →
      ∀ entry path, st.job.files[asUsize r.fileNum]? = some entry →
        joinValidatedPath (treeFs cwd denied) st.s base entry.name = .ok path →
          (treeFs cwd denied).pathExists st.s (path ++ downloadSuffix) ∧
            (treeFs cwd denied).pathExists st.s (path ++ digestSuffix) →
            ¬ LeadsOut cwd st.s.tree base st.job.files (path ++ downloadSuffix)
  | _ => True

/-- Everything that was created, opened, renamed or deleted is in the directory, and so is the file
that is open. -/
def InDirectory (cwd : Loc Path) (base : Path) (st : WriteSide) : Prop :=
  st.s.Confined cwd base st.job.files ∧
    ∀ h, st.job.dataStream = some (.fileStream h) → Allowed cwd h.1 base st.job.files h.2

end WriteSide

/-! ### What the list says -/

/-- An entry with an empty name is the only one. -/
def SingleIfEmpty (files : List FileEntry) : Prop :=
  ∀ entry ∈ files, entry.name = [] → files = [entry]

theorem SingleIfEmpty.of_validate (h : validateTransferFileNames files = .ok ()) : SingleIfEmpty files := by
  have heach : ∀ files, validateEachFileName files = .ok () → ∀ entry ∈ files, entry.name ≠ [] := by
    intro files h
    induction files with
    | nil => simp
    | cons file files ih =>
      rw [validateEachFileName] at h
      split at h
      · cases h
      next hfile =>
        split at h
        · cases h
        · exact List.forall_mem_cons.mpr ⟨hfile, ih h⟩
  unfold validateTransferFileNames at h
  split at h
  next hsingle =>
    obtain ⟨entry, rfl⟩ := List.length_eq_one_iff.mp hsingle.1
    intro e he _
    rw [List.mem_singleton.mp he]
  · exact fun entry hentry hname => absurd hname (heach files h entry hentry)

/-- The job writes the files of the list into the directory. -/
structure WritesTo (base : Path) (files : List FileEntry) (job : TreeJob) : Prop where
  type : job.type = .generic
  dataSource : job.dataSource = .filePath base
  files : job.files = files

/-- What is checked of an entry of the list. -/
theorem checked_of_join {s : TreeState} {entry : FileEntry} (hfiles : SingleIfEmpty files) (hmem : entry ∈ files)
    (h : joinValidatedPath (treeFs cwd denied) s base entry.name = .ok path) :
    path = join base entry.name ∧ Checked cwd s.tree base files entry.name := by
  obtain ⟨rfl, hplain, hentry⟩ := joinValidatedPath_spec h
  exact ⟨rfl, fun hne => ⟨entry, hfiles entry hmem hne, hne⟩, hplain, hentry⟩

theorem currentEntryPath_checked {s : TreeState} {job : TreeJob} {entry : FileEntry}
    (hjob : WritesTo base files job) (hfiles : SingleIfEmpty files)
    (h : job.currentEntryPath (treeFs cwd denied) s = some (entry, path)) :
    path = join base entry.name ∧ Checked cwd s.tree base files entry.name := by
  unfold TransferJob.currentEntryPath at h
  rw [hjob.type, hjob.dataSource, hjob.files] at h
  obtain ⟨entry', hentry', hres⟩ := Option.bind_eq_some_iff.mp h
  obtain ⟨path', hpath', heq⟩ := Option.map_eq_some_iff.mp hres
  obtain ⟨rfl, rfl⟩ := Prod.mk.inj heq
  unfold TransferJob.resolveEntryPath at hpath'
  rw [hjob.type] at hpath'
  cases hjoin : joinValidatedPath (treeFs cwd denied) s base entry'.name with
  | error e =>
    rw [hjoin] at hpath'
    cases hpath'
  | ok p =>
    rw [hjoin] at hpath'
    obtain rfl : p = path' := Option.some.inj hpath'
    exact checked_of_join hfiles (List.mem_of_getElem? hentry') hjoin

namespace WriteSide

/-! ### The steps -/

variable {st : WriteSide} {codec : Codec} {job : TreeJob} {s : TreeState}

theorem modifyTime_eq (st : WriteSide) : st.job.modifyTime (treeFs cwd denied) st.s = st.leave cwd denied := by
  unfold TransferJob.modifyTime leave
  split
  next h => rw [h]
  next entry path h =>
    rw [h]
    rfl

theorem leave_confined (denied : FsOp → TreeState → Path → Bool)
    (hjob : WritesTo base files st.job) (hfiles : SingleIfEmpty files)
    (h : st.s.Confined cwd base files) : (st.leave cwd denied).Confined cwd base files := by
  unfold leave
  split
  next entry path hcurrent =>
    obtain ⟨rfl, hchecked⟩ := currentEntryPath_checked hjob hfiles hcurrent
    exact h.putInPlace denied hchecked
  · exact h

theorem removeDownloadFile_confined (hjob : WritesTo base files st.job)
    (hfiles : SingleIfEmpty files) (h : st.s.Confined cwd base files) :
    (st.job.removeDownloadFile (treeFs cwd denied) st.s).Confined cwd base files := by
  unfold TransferJob.removeDownloadFile
  split
  · exact h
  next entry path hcurrent =>
    obtain ⟨rfl, hchecked⟩ := currentEntryPath_checked hjob hfiles hcurrent
    obtain ⟨h', hchecked'⟩ := h.removeFile denied hchecked (.inl rfl)
    exact (h'.removeFile denied hchecked' (.inr rfl)).1

/-- The open file of a job is where it may be. -/
def StreamAllowed (cwd : Loc Path) (base : Path) (files : List FileEntry) (job : TreeJob) : Prop :=
  ∀ h, job.dataStream = some (.fileStream h) → Allowed cwd h.1 base files h.2

/-- What a job and its tree come to. -/
structure Safe (cwd : Loc Path) (base : Path) (files : List FileEntry) (job : TreeJob)
    (s : TreeState) : Prop where
  writes : WritesTo base files job
  confined : s.Confined cwd base files
  stream : StreamAllowed cwd base files job

theorem writePaths_generic (htype : job.type = .generic) : job.writePaths (treeFs cwd denied) s base name =
      match joinValidatedPath (treeFs cwd denied) s base name with
      | .error e => (.error e, s)
      | .ok path => (.ok (path ++ downloadSuffix, some (path ++ digestSuffix)),
          s.withParent cwd denied path) := by
  unfold TransferJob.writePaths
  rw [htype]
  cases joinValidatedPath (treeFs cwd denied) s base name <;> rfl

theorem removeOldDigest_snd (cwd : Loc Path) (denied : FsOp → TreeState → Path → Bool)
    (s : TreeState) (path : Path) :
    (TransferJob.removeOldDigest (treeFs cwd denied) s (some (path ++ digestSuffix))).2 =
      s.withoutDigest cwd denied path := by
  unfold TransferJob.removeOldDigest TreeState.withoutDigest
  dsimp only
  by_cases hexists : (treeFs cwd denied).pathExists s (path ++ digestSuffix) = true
  · have hstat : (s.stat cwd denied (path ++ digestSuffix) true).isOk = true := hexists
    rw [if_pos hexists, if_pos hstat]
    split
    next h => exact (congrArg Prod.snd h).symm
    next h => exact (congrArg Prod.snd h).symm
  · have hstat : ¬ (s.stat cwd denied (path ++ digestSuffix) true).isOk = true := hexists
    rw [if_neg hexists, if_neg hstat]

/-- The part of `write` that opens a file. -/
theorem openForWrite_safe {entry : FileEntry} {fileNum : ℤ} (hfiles : SingleIfEmpty files)
    (h : Safe cwd base files st.job st.s) (hmem : entry ∈ files)
    (hquiet : ∀ path, joinValidatedPath (treeFs cwd denied) (st.leave cwd denied) base entry.name = .ok path →
        joinValidatedPath (treeFs cwd denied) ((st.leave cwd denied).withParent cwd denied path)
            base entry.name = .ok path ∧
          ∀ suffix ∈ [downloadSuffix, digestSuffix], ¬ LeadsOut cwd
            (((st.leave cwd denied).withParent cwd denied path).withoutDigest cwd denied path).tree
            base files (path ++ suffix)) :
    Safe cwd base files (st.job.openForWrite (treeFs cwd denied) codec st.s base entry fileNum).2.1
      (st.job.openForWrite (treeFs cwd denied) codec st.s base entry fileNum).2.2 := by
  have hleave := leave_confined denied h.writes hfiles h.confined
  unfold TransferJob.openForWrite
  rw [modifyTime_eq]
  generalize st.leave cwd denied = s₁ at hleave hquiet
  dsimp only
  split
  · exact ⟨h.writes, hleave, h.stream⟩
  have hjob : WritesTo base files { st.job with fileNum := fileNum } :=
    ⟨h.writes.type, h.writes.dataSource, h.writes.files⟩
  have hstream : StreamAllowed cwd base files { st.job with fileNum := fileNum } := h.stream
  rw [writePaths_generic hjob.type]
  cases hjoin : joinValidatedPath (treeFs cwd denied) s₁ base entry.name with
  | error e => exact ⟨hjob, hleave, hstream⟩
  | ok path =>
    dsimp only
    obtain ⟨hjoin', hleads⟩ := hquiet path hjoin
    obtain ⟨rfl, hchecked⟩ := checked_of_join hfiles hmem hjoin'
    -- without the old digest
    obtain ⟨hconfined, hchecked⟩ := hleave.withParent.withoutDigest denied hchecked
    have hdigest := removeOldDigest_snd cwd denied
      (s₁.withParent cwd denied (join base entry.name)) (join base entry.name)
    generalize TransferJob.removeOldDigest _ _ _ = res at hdigest
    obtain ⟨res, s₃⟩ := res
    rw [← hdigest] at hconfined hchecked hleads
    cases res with
    | error e => exact ⟨hjob, hconfined, hstream⟩
    | ok =>
      dsimp only
      -- the download, and then the digest
      have hleadsDownload := hleads downloadSuffix (by simp)
      have hleadsDigest := hleads digestSuffix (by simp)
      obtain ⟨hconfined', hallowed⟩ := hconfined.openWrite denied hchecked (.inl rfl) hleadsDownload
      obtain ⟨hchecked', hleadsDigest'⟩ := TreeState.openWrite_keeps denied
        (join base entry.name ++ downloadSuffix) hchecked hleadsDigest
      have hcreate : (treeFs cwd denied).create s₃ (join base entry.name ++ downloadSuffix) =
          s₃.openWrite cwd denied (join base entry.name ++ downloadSuffix) := rfl
      rw [hcreate]
      generalize s₃.openWrite cwd denied (join base entry.name ++ downloadSuffix) = res at *
      obtain ⟨e | file, s₄⟩ := res
      · exact ⟨hjob, hconfined', hstream⟩
      · refine ⟨⟨hjob.type, hjob.dataSource, hjob.files⟩, ?_, fun file' hfile' => ?_⟩
        · exact (hconfined'.openWrite denied hchecked' (.inr rfl) hleadsDigest').1
        · obtain rfl : file = file' := by simpa using hfile'
          exact hallowed file rfl

theorem writeData_safe {data : Bytes} (h : Safe cwd base files job s) :
    Safe cwd base files (job.writeData (treeFs cwd denied) s data).2.1
      (job.writeData (treeFs cwd denied) s data).2.2 := by
  unfold TransferJob.writeData
  split
  · exact h
  next file hstream =>
    refine ⟨⟨h.writes.type, h.writes.dataSource, h.writes.files⟩, h.confined, fun file' hfile' => ?_⟩
    obtain rfl : file = file' := by simpa [treeFs] using hfile'
    exact h.stream file hstream
  · exact ⟨⟨h.writes.type, h.writes.dataSource, h.writes.files⟩, h.confined,
      fun file' hfile' => by simp at hfile'⟩

theorem write_safe {block : FileTransferBlock} (hfiles : SingleIfEmpty files) (h : Safe cwd base files st.job st.s)
    (hquiet : st.QuietStep cwd denied base (.write block)) :
    Safe cwd base files (st.job.write (treeFs cwd denied) codec st.s block).2.1
      (st.job.write (treeFs cwd denied) codec st.s block).2.2 := by
  unfold TransferJob.write
  split
  · exact h
  next hid =>
  have hselect : Safe cwd base files (st.job.selectStream (treeFs cwd denied) codec st.s block).2.1
      (st.job.selectStream (treeFs cwd denied) codec st.s block).2.2 := by
    unfold TransferJob.selectStream
    rw [h.writes.dataSource]
    dsimp only
    split
    · exact h
    next entry hentry =>
      split
      next hswitch =>
        have hmem : entry ∈ files := h.writes.files ▸ List.mem_of_getElem? hentry
        refine openForWrite_safe hfiles h hmem fun path hjoin => ?_
        have hq := hquiet (by simpa using hid) hswitch entry path hentry hjoin
        rw [h.writes.files] at hq
        exact hq
      · exact h
  generalize st.job.selectStream (treeFs cwd denied) codec st.s block = res at hselect
  obtain ⟨e | ⟨⟩, job, s⟩ := res
  · exact hselect
  · exact writeData_safe hselect

/-- The file that `set_stream_offset` opens. -/
theorem openAtOffset_safe (denied : FsOp → TreeState → Path → Bool) (h : Safe cwd base files job s)
    (hname : Checked cwd s.tree base files name)
    (hleads : (treeFs cwd denied).pathExists s (join base name ++ downloadSuffix) ∧
        (treeFs cwd denied).pathExists s (join base name ++ digestSuffix) →
      ¬ LeadsOut cwd s.tree base files (join base name ++ downloadSuffix)) :
    Safe cwd base files job (TransferJob.openAtOffset (treeFs cwd denied) s (join base name)).2 ∧
      ∀ file, (TransferJob.openAtOffset (treeFs cwd denied) s (join base name)).1 = some file →
        Allowed cwd file.1 base files file.2 := by
  unfold TransferJob.openAtOffset
  split
  next hexist =>
    obtain ⟨hconfined, hallowed⟩ := h.confined.openWrite denied hname (.inl rfl) (hleads hexist)
    have hopen : (treeFs cwd denied).openWrite s (join base name ++ downloadSuffix) =
        s.openWrite cwd denied (join base name ++ downloadSuffix) := rfl
    rw [hopen]
    generalize s.openWrite cwd denied (join base name ++ downloadSuffix) = res at *
    obtain ⟨e | file, s'⟩ := res
    · exact ⟨⟨h.writes, hconfined, h.stream⟩, fun file hfile => by cases hfile⟩
    · refine ⟨⟨h.writes, hconfined, h.stream⟩, fun file' hfile => ?_⟩
      cases hfile
      exact hallowed file rfl
  next =>
    split
    · refine ⟨h, fun file hfile => ?_⟩
      cases hopen : s.openRead cwd denied (join base name) with
      | error e =>
        have hnone : (s.openRead cwd denied (join base name)).toOption = some file := hfile
        rw [hopen] at hnone
        cases hnone
      | ok file' =>
        have hsome : (s.openRead cwd denied (join base name)).toOption = some file := hfile
        rw [hopen] at hsome
        obtain rfl : file' = file := Option.some.inj hsome
        obtain ⟨htree, hl⟩ := TreeState.openRead_eq_ok hopen
        rw [htree]
        exact hname.target_opened hl
    · exact ⟨h, fun file hfile => by cases hfile⟩

theorem confirm_safe {r : FileTransferSendConfirmRequest} {res : TreeJob × TreeState}
    (hfiles : SingleIfEmpty files) (h : Safe cwd base files st.job st.s)
    (hquiet : st.QuietStep cwd denied base (.confirm r))
    (hconfirm : st.job.confirm (treeFs cwd denied) st.s r = some res) :
    Safe cwd base files res.1 res.2 := by
  have hconfirmed : Safe cwd base files (st.job.setFileConfirmed true) st.s :=
    ⟨⟨h.writes.type, h.writes.dataSource, h.writes.files⟩, h.confined, h.stream⟩
  unfold TransferJob.confirm at hconfirm
  split at hconfirm
  · cases hconfirm
    exact h
  next hnum =>
    split at hconfirm
    · cases hconfirm
      exact ⟨⟨h.writes.type, h.writes.dataSource, h.writes.files⟩, h.confined,
        fun file hfile => by cases hfile⟩
    · cases hconfirm
      exact hconfirmed
    next offset hunion =>
      split at hconfirm
      next hpos =>
        rw [h.writes.dataSource] at hconfirm
        obtain ⟨entry, hentry, rfl⟩ := Option.map_eq_some_iff.mp hconfirm
        have hmem : entry ∈ files := h.writes.files ▸ List.mem_of_getElem? hentry
        unfold TransferJob.setStreamOffset
        rw [hconfirmed.writes.dataSource]
        unfold TransferJob.resolveEntryPath
        rw [hconfirmed.writes.type]
        dsimp only
        cases hjoin : joinValidatedPath (treeFs cwd denied) st.s base entry.name with
        | error e => exact hconfirmed
        | ok path =>
          have hleads := hquiet (by simpa [eq_comm] using hnum) offset hunion hpos entry path hentry hjoin
          rw [h.writes.files] at hleads
          obtain ⟨rfl, hchecked⟩ := checked_of_join hfiles hmem hjoin
          obtain ⟨hsafe, hallowed⟩ := openAtOffset_safe denied hconfirmed hchecked hleads
          dsimp only [Except.toOption]
          generalize TransferJob.openAtOffset (treeFs cwd denied) st.s (join base entry.name) = res
            at hsafe hallowed
          obtain ⟨_ | file, s⟩ := res
          · exact hsafe
          · -- a seek does not fail
            dsimp only [treeFs]
            refine ⟨⟨rfl, rfl, h.writes.files⟩, hsafe.confined, fun file' hfile' => ?_⟩
            obtain rfl : file = file' := by simpa using hfile'
            exact hallowed file rfl
      · cases hconfirm
        exact hconfirmed
    · cases hconfirm
      exact h

def IsSafe (cwd : Loc Path) (base : Path) (files : List FileEntry) (st : WriteSide) : Prop :=
  Safe cwd base files st.job st.s

/-- **The step lemma.** -/
theorem IsSafe.step {st' : WriteSide} {a : WriteAction} (hfiles : SingleIfEmpty files)
    (h : st.IsSafe cwd base files) (hquiet : st.QuietStep cwd denied base a)
    (hstep : st.step cwd denied codec a = some st') : st'.IsSafe cwd base files := by
  cases a with
  | write block =>
    cases hstep
    exact write_safe hfiles h hquiet
  | modifyTime =>
    cases hstep
    refine ⟨h.writes, ?_, h.stream⟩
    show (st.job.modifyTime (treeFs cwd denied) st.s).Confined cwd base files
    rw [modifyTime_eq]
    exact leave_confined denied h.writes hfiles h.confined
  | removeDownloadFile =>
    cases hstep
    exact ⟨h.writes, removeDownloadFile_confined h.writes hfiles h.confined, h.stream⟩
  | confirm r =>
    obtain ⟨res, hres, rfl⟩ := Option.map_eq_some_iff.mp hstep
    exact confirm_safe hfiles h hquiet hres
  | setDigest size modified =>
    cases hstep
    exact ⟨⟨h.writes.type, h.writes.dataSource, h.writes.files⟩, h.confined, h.stream⟩
  | others T =>
    cases hstep
    exact ⟨h.writes, h.confined, h.stream⟩

/-- **Write jobs stay in their directory**, in every run whose steps are quiet. The job is one whose
list `set_files` accepted, in any tree. -/
theorem stays_in_directory (cwd : Loc Path) (denied : FsOp → TreeState → Path → Bool) (codec : Codec)
    {id fileNum : ℤ} {base : Path} {od : Bool} {files : List FileEntry} {s₀ : TreeState}
    {T : DirTree Path} {job : TreeJob} {acts : List WriteAction} {st : WriteSide}
    (hset : TransferJob.setFiles (treeFs cwd denied) s₀
      (.newWrite id .generic (.filePath base) fileNum od) files = .ok job)
    (hrun : Run (Only (QuietStep cwd denied base) (Steps (step cwd denied codec)))
      ⟨job, ⟨T, []⟩⟩ acts st) :
    st.InDirectory cwd base := by
  obtain ⟨hvalid, rfl⟩ : validateTransferFileNames files = .ok () ∧
      job = { TransferJob.newWrite id .generic (.filePath base) fileNum od with files := files } := by
    unfold TransferJob.setFiles at hset
    split at hset
    · cases hset
    next hvalid =>
      dsimp only [TransferJob.newWrite] at hset
      split at hset
      · cases hset
      · exact ⟨hvalid, (Except.ok.inj hset).symm⟩
  have hfiles := SingleIfEmpty.of_validate hvalid
  have hsafe : st.IsSafe cwd base files :=
    hrun.invariant (fun _ _ _ (h : IsSafe cwd base files _) hstep => h.step hfiles hstep.1 hstep.2)
      ⟨⟨rfl, rfl, rfl⟩, by simp [TreeState.Confined], fun _ h => by cases h⟩
  refine ⟨?_, ?_⟩
  · rw [hsafe.writes.files]
    exact hsafe.confined
  · rw [hsafe.writes.files]
    exact hsafe.stream

/-! ### A companion that is a link -/

def permitted : FsOp → TreeState → Path → Bool := fun _ _ _ => false

/-- A directory with an interrupted download of `a`, and a file outside. -/
def interrupted (download : Node Path) : TreeState where
  tree.nodes := [([['d']], .dir), ([['d'], 'a' :: digestSuffix], .file),
    ([['d'], 'a' :: downloadSuffix], download), ([['o']], .file)]
  accessed := []

/-- The job that writes `a` into the directory. -/
def writesA : TreeJob :=
  { TransferJob.newWrite 1 .generic (.filePath ['/', 'd']) 0 true with files := [⟨['a'], 0⟩] }

/-- The download is gone on with. -/
def resumes : List WriteAction := [.confirm ⟨1, 0, some (.offsetBlk 1)⟩]

/-- The download is a link to the file outside. The list is accepted, and a confirmation has the file
outside opened for writing. -/
theorem companion_link_followed : ∃ st,
    TransferJob.setFiles (treeFs [] permitted) (interrupted (.link true [.into ['o']]))
      (.newWrite 1 .generic (.filePath ['/', 'd']) 0 true) [⟨['a'], 0⟩] = .ok writesA ∧
      Run (Steps (step [] permitted .plain)) ⟨writesA, interrupted (.link true [.into ['o']])⟩
        resumes st ∧ ¬ st.InDirectory [] ['/', 'd'] := by
  refine ⟨_, rfl, exec_eq_some_iff.mp rfl, fun h => ?_⟩
  obtain ⟨B, hB, hprefix⟩ | ⟨⟨entry, hfiles, hname⟩, -⟩ := h.1 _ List.mem_cons_self
  · obtain rfl : [['d']] = B := Except.ok.inj hB
    revert hprefix
    decide
  · obtain rfl : (⟨['a'], 0⟩ : FileEntry) = entry := (List.cons.inj hfiles).1
    cases hname

/-- The download is a file. -/
theorem stays_in_directory_resumed : ∃ st,
    Run (Only (QuietStep [] permitted ['/', 'd']) (Steps (step [] permitted .plain)))
      ⟨writesA, interrupted .file⟩ resumes st ∧ st.s.accessed ≠ [] ∧
        st.InDirectory [] ['/', 'd'] := by
  have hset : TransferJob.setFiles (treeFs [] permitted) (interrupted .file)
      (.newWrite 1 .generic (.filePath ['/', 'd']) 0 true) [⟨['a'], 0⟩] = .ok writesA := rfl
  refine exists_and_and (fun _ hrun _ => stays_in_directory [] permitted .plain hset hrun) ?_
  refine ⟨_, .cons ⟨?_, rfl⟩ (.nil _), by decide⟩
  rintro - offset - - entry path hentry hjoin - ⟨l, absolute, target, l', hl, hlink, -⟩
  obtain rfl : (⟨['a'], 0⟩ : FileEntry) = entry := Option.some.inj hentry
  obtain rfl : ['/', 'd', '/', 'a'] = path := Except.ok.inj hjoin
  obtain rfl : [['d'], 'a' :: downloadSuffix] = l := Except.ok.inj hl
  cases hlink

end WriteSide

end RustDesk.FileTransfer
