import Mathlib.Data.List.Dedup
import Mathlib.Tactic.Common

/-!
# Directory trees with symbolic links

A tree is a list of nodes with their locations, and a location the list of the names that lead to it
from the root. `walk` follows a path from a directory, as a kernel does: a link is replaced by its
target, one at the end only where it is asked for, and no more than so many of them.

What is proved of `walk` is how it goes along a path in parts, that along names that are no links it
arrives where the names say, and what becomes of it when a node is removed or a file put in.
-/

variable {N : Type*}

namespace DirTree

abbrev Loc (N : Type*) := List N

/-- A step of a path. -/
inductive Step (N : Type*)
  | here
  | up
  | into (name : N)
deriving DecidableEq

inductive Node (N : Type*)
  | dir
  | file
  | link (absolute : Bool) (target : List (Step N))
deriving DecidableEq

def Node.isLink : Node N → Bool
  | .link .. => true
  | _ => false

end DirTree

open DirTree in
/-- The nodes of a tree; the first of a location counts. -/
structure DirTree (N : Type*) where
  nodes : List (Loc N × Node N)
deriving DecidableEq

namespace DirTree

/-- Why a path leads nowhere. -/
inductive Fault
  | missing
  | notDir
  | tooManyLinks
deriving DecidableEq

variable [DecidableEq N] {name : N} {rest : List (Step N)} {res : Loc N × ℕ}

/-- The node at a location. The root is a directory. -/
def node (T : DirTree N) (l : Loc N) : Option (Node N) :=
  if l = [] then some .dir else T.nodes.lookup l

/-- Follow a path from a directory to its end, or as far as a link. -/
def walkTo (T : DirTree N) (n : ℕ) (onLink : Loc N → List (Step N) → Except Fault (Loc N × ℕ))
    (follow : Bool) (cur : Loc N) : List (Step N) → Except Fault (Loc N × ℕ)
  | [] => .ok (cur, n)
  | step :: rest =>
    match T.node cur with
    | some .dir =>
      match step with
      | .here => walkTo T n onLink follow cur rest
      | .up => walkTo T n onLink follow cur.dropLast rest
      | .into name =>
        match T.node (cur ++ [name]) with
        | some (.link absolute target) =>
          if rest = [] ∧ follow = false then .ok (cur ++ [name], n)
          else onLink (if absolute then [] else cur) (target ++ rest)
        | _ => walkTo T n onLink follow (cur ++ [name]) rest
    | none => .error .missing
    | _ => .error .notDir

/-- Where a path leads to from a directory, with the number of links that may still be followed. The
last name may be one that is not there. -/
def walk (T : DirTree N) (n : ℕ) (cur : Loc N) (steps : List (Step N)) (follow : Bool) :
    Except Fault (Loc N × ℕ) :=
  match n with
  | 0 => T.walkTo 0 (fun _ _ => .error .tooManyLinks) follow cur steps
  | n + 1 => T.walkTo (n + 1) (fun cur steps => walk T n cur steps follow) follow cur steps

theorem walk_nil {T : DirTree N} {n : ℕ} {cur : Loc N} {follow : Bool} : T.walk n cur [] follow = .ok (cur, n) := by
  cases n <;> rfl

theorem walk_here {T : DirTree N} {n : ℕ} {cur : Loc N} {follow : Bool} (hcur : T.node cur = some .dir)
    (rest : List (Step N)) : T.walk n cur (.here :: rest) follow = T.walk n cur rest follow := by
  cases n <;> rw [walk, walk, walkTo, hcur]

/-! ## Nodes -/

/-- Without the node at a location. -/
def remove (T : DirTree N) (l : Loc N) : DirTree N := ⟨T.nodes.filter (·.1 ≠ l)⟩

def putFile (T : DirTree N) (l : Loc N) : DirTree N := ⟨(l, .file) :: T.nodes⟩

/-- A directory that is made is empty. -/
def mkdir (T : DirTree N) (l : Loc N) : DirTree N := ⟨(l, .dir) :: T.nodes.filter fun e => ¬ l <+: e.1⟩

/-- What is at a location and below it, moved to another. -/
def move (T : DirTree N) (l l' : Loc N) : DirTree N :=
  ⟨(T.nodes.filter fun e => l <+: e.1).map (fun e => (l' ++ e.1.drop l.length, e.2)) ++
    T.nodes.filter fun e => ¬ l <+: e.1 ∧ ¬ l' <+: e.1⟩

/-- Nothing is below a location. -/
def isEmpty (T : DirTree N) (l : Loc N) : Bool := T.nodes.all fun e => ¬ (l <+: e.1 ∧ e.1 ≠ l)

variable {T T' : DirTree N} {l d cur : Loc N} {n m : ℕ} {steps : List (Step N)} {follow : Bool}

theorem node_putFile (hl : l ≠ []) (loc : Loc N) :
    (T.putFile l).node loc = if loc = l then some .file else T.node loc := by
  rw [node, node, putFile, List.lookup_cons]
  by_cases hloc : loc = l
  · subst hloc
    simp [hl]
  · have hne : (loc == l) = false := by simpa using hloc
    rw [hne, if_neg hloc]

theorem node_remove (hd : d ≠ []) (loc : Loc N) : (T.remove d).node loc = if loc = d then none else T.node loc := by
  have hlookup : ∀ es : List (Loc N × Node N),
      (es.filter (·.1 ≠ d)).lookup loc = if loc = d then none else es.lookup loc := by
    intro es
    induction es with
    | nil => simp
    | cons e es ih =>
      by_cases he : e.1 = d
      · rw [List.filter_cons_of_neg (by simpa using he), ih, List.lookup_cons, he]
        by_cases hloc : loc = d
        · rw [if_pos hloc, if_pos hloc]
        · have hne : (loc == d) = false := by simpa using hloc
          rw [hne]
      · rw [List.filter_cons_of_pos (by simpa using he), List.lookup_cons, List.lookup_cons, ih]
        by_cases hloc : loc = d
        · have hne : (loc == e.1) = false := by simpa [hloc] using Ne.symm he
          rw [hne, if_pos hloc]
        · simp [hloc]
  rw [node, node, remove, hlookup]
  by_cases hloc : loc = d
  · simp [hloc, hd]
  · simp [hloc]

/-- A node is in the list. -/
theorem mem_nodes_of_node {x : Node N} (hl : l ≠ []) (h : T.node l = some x) : (l, x) ∈ T.nodes := by
  rw [node, if_neg hl] at h
  obtain ⟨before, behind, hnodes, -⟩ := List.lookup_eq_some_iff.mp h
  rw [hnodes]
  exact List.mem_append_right _ List.mem_cons_self

/-- The names in a directory. -/
def children (T : DirTree N) (d : Loc N) : List N :=
  (T.nodes.filterMap fun e => if e.1.dropLast = d then e.1.getLast? else none).dedup

theorem mem_children : name ∈ T.children d ↔ T.node (d ++ [name]) ≠ none := by
  have hne : d ++ [name] ≠ [] := List.append_ne_nil_of_right_ne_nil _ (List.cons_ne_nil _ _)
  rw [children, List.mem_dedup, List.mem_filterMap, node, if_neg hne]
  constructor
  · rintro ⟨e, he, hname⟩ hnone
    split at hname
    next hdir =>
      have hloc : e.1 = d ++ [name] := hdir ▸ (List.dropLast_append_getLast? name hname).symm
      have hdiffers := List.lookup_eq_none_iff.mp hnone e he
      rw [hloc] at hdiffers
      simp at hdiffers
    next => cases hname
  · intro hsome
    obtain ⟨x, hx⟩ := Option.ne_none_iff_exists'.mp hsome
    obtain ⟨before, behind, hnodes, -⟩ := List.lookup_eq_some_iff.mp hx
    refine ⟨(d ++ [name], x), ?_, ?_⟩
    · rw [hnodes]
      exact List.mem_append_right _ List.mem_cons_self
    · rw [if_pos List.dropLast_concat, List.getLast?_concat]

/-! ## Walks -/

section

variable (hcur : T.node cur = some .dir)
include hcur

theorem walk_up (rest : List (Step N)) : T.walk n cur (.up :: rest) follow = T.walk n cur.dropLast rest follow := by
  cases n <;> rw [walk, walk, walkTo, hcur]

/-- Into what is no link. -/
theorem walk_into (rest : List (Step N))
    (hnode : ∀ absolute target, T.node (cur ++ [name]) ≠ some (.link absolute target)) :
    T.walk n cur (.into name :: rest) follow = T.walk n (cur ++ [name]) rest follow := by
  cases n <;>
  · rw [walk, walk, walkTo, hcur]
    dsimp only
    split
    next absolute target hlink => exact absurd hlink (hnode absolute target)
    · rfl

section

variable {absolute : Bool} {target : List (Step N)}
  (hlink : T.node (cur ++ [name]) = some (.link absolute target)) (hrest : ¬ (rest = [] ∧ follow = false))
include hlink hrest

/-- Along a link. -/
theorem walk_link :
    T.walk (n + 1) cur (.into name :: rest) follow =
      T.walk n (if absolute then [] else cur) (target ++ rest) follow := by
  rw [walk, walkTo, hcur]
  rw [hlink]
  dsimp only
  rw [if_neg hrest]

theorem walk_link_zero :
    T.walk 0 cur (.into name :: rest) follow = .error .tooManyLinks := by
  rw [walk, walkTo, hcur]
  rw [hlink]
  rw [if_neg hrest]

end

/-- A last name is not followed. -/
theorem walk_last (name : N) : T.walk n cur [.into name] false = .ok (cur ++ [name], n) := by
  cases n <;>
  · rw [walk, walkTo, hcur]
    dsimp only
    split
    · rw [if_pos ⟨rfl, rfl⟩]
    · rfl

end

theorem walk_missing (hcur : T.node cur = none) (step : Step N) (rest : List (Step N)) :
    T.walk n cur (step :: rest) follow = .error .missing := by
  cases n <;> rw [walk, walkTo.eq_def] <;> dsimp only <;> rw [hcur]

theorem walk_notDir (hdir : T.node cur ≠ some .dir) (hnone : T.node cur ≠ none) (step : Step N)
    (rest : List (Step N)) : T.walk n cur (step :: rest) follow = .error .notDir := by
  cases n <;>
  · rw [walk, walkTo.eq_def]
    dsimp only
    split
    next h => exact absurd h hdir
    next h => exact absurd h hnone
    · rfl

/-- A walk goes on through directories. -/
theorem node_of_walk {step : Step N} (h : T.walk n cur (step :: rest) follow = .ok res) : T.node cur = some .dir := by
  by_contra hdir
  by_cases hnone : T.node cur = none
  · rw [walk_missing hnone] at h
    cases h
  · rw [walk_notDir hdir hnone] at h
    cases h

/-- The induction that a walk is: on the links that may still be followed, and on the steps. -/
theorem walk_induction (T : DirTree N) (follow : Bool) {motive : ℕ → Loc N → List (Step N) → Prop}
    (nil : ∀ n cur, motive n cur [])
    (here : ∀ n cur rest, T.node cur = some .dir → motive n cur rest → motive n cur (.here :: rest))
    (up : ∀ n cur rest, T.node cur = some .dir → motive n cur.dropLast rest → motive n cur (.up :: rest))
    (last : ∀ n cur name, T.node cur = some .dir → follow = false → motive n cur [.into name])
    (into : ∀ n cur name rest, T.node cur = some .dir →
      (∀ absolute target, T.node (cur ++ [name]) ≠ some (.link absolute target)) →
      motive n (cur ++ [name]) rest → motive n cur (.into name :: rest))
    (link_zero : ∀ cur name rest absolute target, T.node cur = some .dir →
      T.node (cur ++ [name]) = some (.link absolute target) → ¬ (rest = [] ∧ follow = false) →
      motive 0 cur (.into name :: rest))
    (link : ∀ n cur name rest absolute target, T.node cur = some .dir →
      T.node (cur ++ [name]) = some (.link absolute target) → ¬ (rest = [] ∧ follow = false) →
      motive n (if absolute then [] else cur) (target ++ rest) →
      motive (n + 1) cur (.into name :: rest))
    (missing : ∀ n cur step rest, T.node cur = none → motive n cur (step :: rest))
    (notDir : ∀ n cur step rest, T.node cur ≠ some .dir → T.node cur ≠ none → motive n cur (step :: rest))
    (n : ℕ) (cur : Loc N) (steps : List (Step N)) : motive n cur steps := by
  induction n using Nat.strongRecOn generalizing cur steps with
  | ind n ihn =>
    induction steps generalizing cur with
    | nil => exact nil n cur
    | cons step rest ih =>
      by_cases hdir : T.node cur = some .dir
      · cases step with
        | here => exact here n cur rest hdir (ih cur)
        | up => exact up n cur rest hdir (ih _)
        | into name =>
          by_cases hlast : rest = [] ∧ follow = false
          · obtain ⟨rfl, hfollow⟩ := hlast
            exact last n cur name hdir hfollow
          by_cases hlink : ∃ absolute target, T.node (cur ++ [name]) = some (.link absolute target)
          · obtain ⟨absolute, target, hlink⟩ := hlink
            cases n with
            | zero => exact link_zero cur name rest absolute target hdir hlink hlast
            | succ n =>
              exact link n cur name rest absolute target hdir hlink hlast (ihn n (Nat.lt_succ_self n) _ _)
          · exact into n cur name rest hdir (fun absolute target h => hlink ⟨absolute, target, h⟩) (ih _)
      · by_cases hnone : T.node cur = none
        · exact missing n cur step rest hnone
        · exact notDir n cur step rest hdir hnone

/-- **A walk in two parts.** -/
theorem walk_append (xs : List (Step N)) {ys : List (Step N)} (hys : ys ≠ []) : T.walk n cur (xs ++ ys) follow =
      (T.walk n cur xs true).bind fun res => T.walk res.2 res.1 ys follow := by
  have hmore : ∀ zs : List (Step N), ¬ (zs ++ ys = [] ∧ follow = false) := by
    intro zs h
    exact hys (List.append_eq_nil_iff.mp h.1).2
  induction n, cur, xs using walk_induction T true with
  | nil n cur =>
    rw [walk_nil]
    rfl
  | here n cur rest hcur ih => rw [List.cons_append, walk_here hcur, walk_here hcur, ih]
  | up n cur rest hcur ih => rw [List.cons_append, walk_up hcur, walk_up hcur, ih]
  | last _ _ _ _ h => cases h
  | into n cur name rest hcur hnode ih =>
    rw [List.cons_append, walk_into hcur _ hnode, walk_into hcur _ hnode, ih]
  | link_zero cur name rest absolute target hcur hlink hrest =>
    rw [List.cons_append, walk_link_zero hcur hlink (hmore rest), walk_link_zero hcur hlink hrest]
    rfl
  | link n cur name rest absolute target hcur hlink hrest ih =>
    rw [List.cons_append, walk_link hcur hlink (hmore rest), walk_link hcur hlink hrest, ← List.append_assoc, ih]
  | missing n cur step rest hcur =>
    rw [List.cons_append, walk_missing hcur, walk_missing hcur]
    rfl
  | notDir n cur step rest hdir hnone =>
    rw [List.cons_append, walk_notDir hdir hnone, walk_notDir hdir hnone]
    rfl

/-- A walk that arrives has arrived at a directory before its last part. -/
theorem walk_append_ok {xs ys : List (Step N)} (hys : ys ≠ []) (h : T.walk n cur (xs ++ ys) follow = .ok res) :
    ∃ B m, T.walk n cur xs true = .ok (B, m) ∧ T.node B = some .dir ∧ T.walk m B ys follow = .ok res := by
  rw [walk_append xs hys] at h
  cases hxs : T.walk n cur xs true with
  | error e =>
    rw [hxs] at h
    cases h
  | ok mid =>
    rw [hxs] at h
    obtain ⟨step, rest, rfl⟩ := List.exists_cons_of_ne_nil hys
    exact ⟨mid.1, mid.2, rfl, node_of_walk h, h⟩

/-! ### Links that are left -/

/-- No link is got back. -/
theorem remaining_le_of_walk (h : T.walk n cur steps follow = .ok res) : res.2 ≤ n := by
  induction n, cur, steps using walk_induction T follow with
  | nil n cur =>
    rw [walk_nil] at h
    cases h
    exact Nat.le_refl _
  | here n cur rest hcur ih =>
    rw [walk_here hcur] at h
    exact ih h
  | up n cur rest hcur ih =>
    rw [walk_up hcur] at h
    exact ih h
  | last n cur name hcur hfollow =>
    subst hfollow
    rw [walk_last hcur] at h
    cases h
    exact Nat.le_refl _
  | into n cur name rest hcur hnode ih =>
    rw [walk_into hcur rest hnode] at h
    exact ih h
  | link_zero cur name rest absolute target hcur hlink hrest =>
    rw [walk_link_zero hcur hlink hrest] at h
    cases h
  | link n cur name rest absolute target hcur hlink hrest ih =>
    rw [walk_link hcur hlink hrest] at h
    exact Nat.le_succ_of_le (ih h)
  | missing n cur step rest hcur =>
    rw [walk_missing hcur] at h
    cases h
  | notDir n cur step rest hdir hnone =>
    rw [walk_notDir hdir hnone] at h
    cases h

/-- With more links to follow, a walk arrives where it did. -/
theorem walk_add {l : Loc N} {m : ℕ} (k : ℕ) (h : T.walk n cur steps follow = .ok (l, m)) :
    T.walk (n + k) cur steps follow = .ok (l, m + k) := by
  induction n, cur, steps using walk_induction T follow with
  | nil n cur =>
    rw [walk_nil] at h
    cases h
    exact walk_nil
  | here n cur rest hcur ih =>
    rw [walk_here hcur] at h
    rw [walk_here hcur, ih h]
  | up n cur rest hcur ih =>
    rw [walk_up hcur] at h
    rw [walk_up hcur, ih h]
  | last n cur name hcur hfollow =>
    subst hfollow
    rw [walk_last hcur] at h
    cases h
    exact walk_last hcur name
  | into n cur name rest hcur hnode ih =>
    rw [walk_into hcur rest hnode] at h
    rw [walk_into hcur rest hnode, ih h]
  | link_zero cur name rest absolute target hcur hlink hrest =>
    rw [walk_link_zero hcur hlink hrest] at h
    cases h
  | link n cur name rest absolute target hcur hlink hrest ih =>
    rw [walk_link hcur hlink hrest] at h
    rw [Nat.add_right_comm, walk_link hcur hlink hrest, ih h]
  | missing n cur step rest hcur =>
    rw [walk_missing hcur] at h
    cases h
  | notDir n cur step rest hdir hnone =>
    rw [walk_notDir hdir hnone] at h
    cases h

/-- A name leads to its own location, or costs a link. -/
theorem walk_name {l : Loc N} {m : ℕ} (h : T.walk n cur [.into name] true = .ok (l, m)) :
    l = cur ++ [name] ∧ m = n ∨ m < n := by
  have hcur := node_of_walk h
  by_cases hlink : ∃ absolute target, T.node (cur ++ [name]) = some (.link absolute target)
  · obtain ⟨absolute, target, hlink⟩ := hlink
    cases n with
    | zero =>
      rw [walk_link_zero hcur hlink (fun h => Bool.noConfusion h.2)] at h
      cases h
    | succ n =>
      rw [walk_link hcur hlink (fun h => Bool.noConfusion h.2)] at h
      exact .inr (Nat.lt_succ_of_le (remaining_le_of_walk h))
  · rw [walk_into hcur [] (fun absolute target h => hlink ⟨absolute, target, h⟩), walk_nil] at h
    cases h
    exact .inl ⟨rfl, rfl⟩

/-! ### Names that are no links -/

/-- The names among the steps. -/
def names (steps : List (Step N)) : List N :=
  steps.filterMap fun
    | .into name => some name
    | _ => none

/-- As far as the names lead from a location, none is a link. -/
def Plain (T : DirTree N) (cur : Loc N) : List N → Prop
  | [] => True
  | name :: rest => T.node cur = some .dir →
      (∀ absolute target, T.node (cur ++ [name]) ≠ some (.link absolute target)) ∧
        Plain T (cur ++ [name]) rest

/-- Along names that are no links, a walk arrives where they say. -/
theorem walk_plain (hplain : T.Plain cur (names steps)) (hup : .up ∉ steps)
    (h : T.walk n cur steps follow = .ok res) : res = (cur ++ names steps, n) := by
  induction steps generalizing cur with
  | nil =>
    rw [walk_nil] at h
    simpa [names] using (Except.ok.inj h).symm
  | cons step rest ih =>
    have hcur := node_of_walk h
    rw [List.mem_cons, not_or] at hup
    cases step with
    | here =>
      rw [walk_here hcur] at h
      exact ih hplain hup.2 h
    | up => exact absurd rfl hup.1
    | into name =>
      obtain ⟨hnode, hrest⟩ := hplain hcur
      rw [walk_into hcur rest hnode] at h
      have hres := ih hrest hup.2 h
      rw [List.append_assoc] at hres
      exact hres

/-- A walk to a last name behind such names, which is not followed. -/
theorem walk_plain_last (hplain : T.Plain cur (names steps))
    (hup : .up ∉ steps) (h : T.walk n cur (steps ++ [.into name]) false = .ok res) :
    res = (cur ++ names steps ++ [name], n) := by
  obtain ⟨B, m, hsteps, hB, hlast⟩ := walk_append_ok (List.cons_ne_nil _ _) h
  cases walk_plain hplain hup hsteps
  rw [walk_last hB] at hlast
  exact (Except.ok.inj hlast).symm

/-- What is no link leads to itself. -/
theorem walk_follow_last (hnode : ∀ absolute target, T.node (cur ++ [name]) ≠ some (.link absolute target)) :
    T.walk n cur [.into name] true = T.walk n cur [.into name] false := by
  by_cases hcur : T.node cur = some .dir
  · rw [walk_into hcur _ hnode, walk_into hcur _ hnode, walk_nil, walk_nil]
  · by_cases hnone : T.node cur = none
    · rw [walk_missing hnone, walk_missing hnone]
    · rw [walk_notDir hcur hnone, walk_notDir hcur hnone]

/-! ### Fewer directories and links -/

/-- Another tree has the directories and links of this one, but for what it has at one location. -/
structure Shrinks (T T' : DirTree N) (d : Loc N) : Prop where
  dir : ∀ loc, T'.node loc = some .dir → T.node loc = some .dir
  link : ∀ loc absolute target, T'.node loc = some (.link absolute target) →
    T.node loc = some (.link absolute target)
  kept : ∀ loc absolute target, loc ≠ d → T.node loc = some (.link absolute target) →
    T'.node loc = some (.link absolute target)
  node : T'.node d ≠ some .dir

theorem Shrinks.remove (hd : d ≠ []) : T.Shrinks (T.remove d) d where
  dir loc h := by
    rw [node_remove hd] at h
    split at h
    · cases h
    · exact h
  link loc absolute target h := by
    rw [node_remove hd] at h
    split at h
    · cases h
    · exact h
  kept loc absolute target hloc h := by
    rw [node_remove hd, if_neg hloc]
    exact h
  node h := by
    rw [node_remove hd, if_pos rfl] at h
    cases h

theorem Shrinks.putFile (hd : d ≠ []) : T.Shrinks (T.putFile d) d where
  dir loc h := by
    rw [node_putFile hd] at h
    split at h
    · cases h
    · exact h
  link loc absolute target h := by
    rw [node_putFile hd] at h
    split at h
    · cases h
    · exact h
  kept loc absolute target hloc h := by
    rw [node_putFile hd, if_neg hloc]
    exact h
  node h := by
    rw [node_putFile hd, if_pos rfl] at h
    cases h

/-- A walk arrives where it arrived before, or at the one location, where it went along a link. -/
theorem Shrinks.walk (h : T.Shrinks T' d) (hwalk : T'.walk n cur steps follow = .ok res) :
    T.walk n cur steps follow = .ok res ∨
      res.1 = d ∧ ∃ absolute target, T.node d = some (.link absolute target) := by
  induction n, cur, steps using walk_induction T' follow with
  | nil n cur =>
    rw [walk_nil] at hwalk ⊢
    exact .inl hwalk
  | here n cur rest hcur ih =>
    rw [walk_here hcur] at hwalk
    rw [walk_here (h.dir _ hcur)]
    exact ih hwalk
  | up n cur rest hcur ih =>
    rw [walk_up hcur] at hwalk
    rw [walk_up (h.dir _ hcur)]
    exact ih hwalk
  | last n cur name hcur hfollow =>
    subst hfollow
    rw [walk_last hcur] at hwalk
    rw [walk_last (h.dir _ hcur)]
    exact .inl hwalk
  | into n cur name rest hcur hnode ih =>
    rw [walk_into hcur rest hnode] at hwalk
    by_cases hbefore : ∃ absolute target, T.node (cur ++ [name]) = some (.link absolute target)
    · obtain ⟨absolute, target, hlink⟩ := hbefore
      have hd : cur ++ [name] = d := by
        by_contra hne
        exact hnode absolute target (h.kept _ _ _ hne hlink)
      -- where there is no directory, the path is at its end
      cases rest with
      | nil =>
        rw [walk_nil] at hwalk
        cases hwalk
        exact .inr ⟨hd, absolute, target, hd ▸ hlink⟩
      | cons step rest => exact absurd (hd ▸ node_of_walk hwalk) h.node
    · rw [walk_into (h.dir _ hcur) rest fun absolute target hlink => hbefore ⟨absolute, target, hlink⟩]
      exact ih hwalk
  | link_zero cur name rest absolute target hcur hlink hrest =>
    rw [walk_link_zero hcur hlink hrest] at hwalk
    cases hwalk
  | link n cur name rest absolute target hcur hlink hrest ih =>
    rw [walk_link hcur hlink hrest] at hwalk
    rw [walk_link (h.dir _ hcur) (h.link _ _ _ hlink) hrest]
    exact ih hwalk
  | missing n cur step rest hcur =>
    rw [walk_missing hcur] at hwalk
    cases hwalk
  | notDir n cur step rest hdir hnone =>
    rw [walk_notDir hdir hnone] at hwalk
    cases hwalk

/-- Where there was no directory and no link, a file changes no walk. -/
theorem walk_putFile (hd : d ≠ []) (hdir : T.node d ≠ some .dir)
    (hlink : ∀ absolute target, T.node d ≠ some (.link absolute target)) :
    (T.putFile d).walk n cur steps follow = .ok res ↔ T.walk n cur steps follow = .ok res := by
  constructor
  · intro h
    obtain h | ⟨-, absolute, target, h⟩ := (Shrinks.putFile hd).walk h
    · exact h
    · exact absurd h (hlink absolute target)
  · intro h
    have hback : (T.putFile d).Shrinks T d := by
      refine ⟨fun loc hloc => ?_, fun loc absolute target hloc => ?_,
        fun loc absolute target hne hloc => ?_, hdir⟩
      · have hne : loc ≠ d := by
          rintro rfl
          exact hdir hloc
        rw [node_putFile hd, if_neg hne]
        exact hloc
      · have hne : loc ≠ d := by
          rintro rfl
          exact hlink absolute target hloc
        rw [node_putFile hd, if_neg hne]
        exact hloc
      · rw [node_putFile hd, if_neg hne] at hloc
        exact hloc
    obtain h | ⟨-, absolute, target, h⟩ := hback.walk h
    · exact h
    · rw [node_putFile hd, if_pos rfl] at h
      cases h

theorem Shrinks.plain (h : T.Shrinks T' d) {ns : List N} (hplain : T.Plain cur ns) : T'.Plain cur ns := by
  induction ns generalizing cur with
  | nil => trivial
  | cons name rest ih =>
    intro hcur
    obtain ⟨hnode, hrest⟩ := hplain (h.dir _ hcur)
    exact ⟨fun absolute target hlink => hnode absolute target (h.link _ _ _ hlink), ih hrest⟩

end DirTree
