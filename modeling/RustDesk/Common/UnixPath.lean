import Mathlib.Data.List.DropRight
import Mathlib.Tactic.Common

/-!
# Paths of Unix, by their texts

What the methods of `std::path::Path` make of a text. Paths are equal if their components are: separators in a row and
`.` between two of them do not count.
-/

namespace UnixPath

/-- `std::path::Component`. -/
inductive Component
  | rootDir
  | curDir
  | parentDir
  | normal (name : List Char)
deriving DecidableEq

/-- The texts between the separators. -/
def pieces (p : List Char) : List (List Char) := p.splitOn '/'

/-- What a piece stands for, behind the start of a path. -/
def component (piece : List Char) : Option Component :=
  if piece = [] ∨ piece = ['.'] then none
  else if piece = ['.', '.'] then some .parentDir
  else some (.normal piece)

/-- A separator or a `.` at the start is a component. -/
def start (p : List Char) : List Component :=
  if p.head? = some '/' then [.rootDir]
  else if (pieces p).head? = some ['.'] then [.curDir]
  else []

/-- `components`. -/
def components (p : List Char) : List Component := start p ++ (pieces p).filterMap component

def join (ps : List (List Char)) : List Char := ['/'].intercalate ps

/-- A piece that is no component. -/
def skipped (piece : List Char) : Bool := (component piece).isNone

/-- The pieces behind those of some components. -/
def behind : List Component → List (List Char) → Option (List (List Char))
  | [], ps => some ps
  | b :: bs, ps =>
    match ps.dropWhile skipped with
    | [] => none
    | q :: qs => if component q = some b then behind bs qs else none

/-- A path that nothing was taken from, without what is no component at its end. -/
def whole (p : List Char) : List Char :=
  match pieces p with
  | [] => []
  | head :: rest =>
    if p.head? = some '/' then '/' :: join (rest.rdropWhile skipped) else join (head :: rest.rdropWhile skipped)

/-- `strip_prefix`. -/
def stripPrefix (p base : List Char) : Option (List Char) :=
  if components base = [] then some (whole p)
  else if start base = start p then
    (behind ((components base).drop (start base).length) (pieces p)).map fun ps =>
      join ((ps.dropWhile skipped).rdropWhile skipped)
  else none

/-- `parent`, by its components. -/
def parent (p : List Char) : Option (List Component) :=
  match (components p).getLast? with
  | some .rootDir | none => none
  | some _ => some (components p).dropLast

/-- `parent`, by its text: what is before the last component. -/
def parentPath (p : List Char) : Option (List Char) :=
  match (components p).getLast?, pieces p with
  | none, _ | some .rootDir, _ | _, [] => none
  | some _, head :: rest =>
    let rest := rest.rdropWhile skipped
    if p.head? = some '/' then some ('/' :: join (rest.dropLast.rdropWhile skipped))
    else if rest = [] then some []
    else some (join (head :: rest.dropLast.rdropWhile skipped))

/-- `file_name`. -/
def fileName (p : List Char) : Option (List Char) :=
  match (components p).getLast? with
  | some (.normal name) => some name
  | _ => none

/-- `push`, of the name of an entry of a directory. -/
def pushName (p name : List Char) : List Char :=
  if p = [] ∨ p.getLast? = some '/' then p ++ name else p ++ '/' :: name

/-- A name that an entry of a directory may have. -/
structure IsName (name : List Char) : Prop where
  ne_nil : name ≠ []
  no_separator : '/' ∉ name
  ne_here : name ≠ ['.']
  ne_up : name ≠ ['.', '.']

/-! ## Characters -/

variable {c : Char} {p base : List Char}

theorem mem_join_iff {ps : List (List Char)} (hc : c ≠ '/') : c ∈ join ps ↔ ∃ q ∈ ps, c ∈ q := by
  unfold join
  induction ps with
  | nil => simp [List.intercalate_nil]
  | cons q ps ih =>
    cases ps with
    | nil => simp [List.intercalate_singleton]
    | cons q' ps =>
      rw [List.intercalate_cons_cons, List.mem_append, List.mem_append, ih]
      simp [hc]

/-- A character that is no separator is in a piece. -/
theorem mem_pieces_iff (hc : c ≠ '/') : (∃ q ∈ pieces p, c ∈ q) ↔ c ∈ p := by
  have hjoin : join (pieces p) = p := List.intercalate_splitOn '/'
  rw [← mem_join_iff hc, hjoin]

theorem component_of_mem {q : List Char} (hdot : c ≠ '.') (h : c ∈ q) : component q = some (.normal q) := by
  have hne (l : List Char) (hl : c ∉ l) : q ≠ l := by
    rintro rfl
    exact hl h
  unfold component
  rw [if_neg, if_neg]
  · exact hne _ (by simp [hdot])
  · rintro (hq | hq)
    · exact hne _ (by simp) hq
    · exact hne _ (by simp [hdot]) hq

theorem component_eq_normal {q name : List Char} (h : component q = some (.normal name)) : q = name := by
  unfold component at h
  split at h
  · cases h
  · split at h
    · cases h
    · simpa using h

theorem not_normal_mem_start {name : List Char} : .normal name ∉ start p := by
  unfold start
  split
  · simp
  · split <;> simp

/-- **The characters of the names are those of the path**, apart from separators and dots. -/
theorem mem_components_iff (hc : c ≠ '/') (hdot : c ≠ '.') :
    (∃ name, .normal name ∈ components p ∧ c ∈ name) ↔ c ∈ p := by
  rw [← mem_pieces_iff hc]
  constructor
  · rintro ⟨name, hname, hmem⟩
    rcases List.mem_append.mp hname with hstart | hbody
    · exact absurd hstart not_normal_mem_start
    · obtain ⟨q, hq, hcomponent⟩ := List.mem_filterMap.mp hbody
      exact ⟨q, hq, component_eq_normal hcomponent ▸ hmem⟩
  · rintro ⟨q, hq, hmem⟩
    exact ⟨q, List.mem_append_right _ (List.mem_filterMap.mpr ⟨q, hq, component_of_mem hdot hmem⟩), hmem⟩

theorem behind_suffix {bs : List Component} {ps rest : List (List Char)} (h : behind bs ps = some rest) :
    rest <:+ ps := by
  induction bs generalizing ps with
  | nil =>
    cases h
    exact List.suffix_rfl
  | cons b bs ih =>
    unfold behind at h
    split at h
    · cases h
    next q qs hdrop =>
      split at h
      · have hqs : qs <:+ ps.dropWhile skipped := by
          rw [hdrop]
          exact List.suffix_cons _ _
        exact (ih h).trans (hqs.trans (List.dropWhile_suffix _))
      · cases h

/-- Nothing but separators comes into a path whose start is taken away. -/
theorem mem_of_mem_stripPrefix {rest : List Char} (hc : c ≠ '/') (h : stripPrefix p base = some rest)
    (hrest : c ∈ rest) : c ∈ p := by
  rw [← mem_pieces_iff hc]
  unfold stripPrefix at h
  split at h
  · cases h
    unfold whole at hrest
    split at hrest
    · cases hrest
    next head tail hpieces =>
      rw [hpieces]
      split at hrest
      · rw [List.mem_cons, mem_join_iff hc] at hrest
        obtain ⟨q, hq, hmem⟩ := hrest.resolve_left hc
        exact ⟨q, List.mem_cons_of_mem _ ((List.rdropWhile_prefix _ _).subset hq), hmem⟩
      · obtain ⟨q, hq, hmem⟩ := (mem_join_iff hc).mp hrest
        refine ⟨q, ?_, hmem⟩
        rcases List.mem_cons.mp hq with rfl | hq
        · exact List.mem_cons_self
        · exact List.mem_cons_of_mem _ ((List.rdropWhile_prefix _ _).subset hq)
  · split at h
    · obtain ⟨ps, hps, rfl⟩ := Option.map_eq_some_iff.mp h
      obtain ⟨q, hq, hmem⟩ := (mem_join_iff hc).mp hrest
      have hq' := (List.dropWhile_suffix _).subset ((List.rdropWhile_prefix _ _).subset hq)
      exact ⟨q, (behind_suffix hps).subset hq', hmem⟩
    · cases h

/-! ## The names of entries -/

section Names

variable {name : List Char}

theorem IsName.component (h : IsName name) : component name = some (.normal name) := by
  unfold UnixPath.component
  rw [if_neg (not_or.mpr ⟨h.ne_nil, h.ne_here⟩), if_neg h.ne_up]

theorem IsName.pieces (h : IsName name) : pieces name = [name] := List.splitOn_eq_singleton h.no_separator

/-- A name behind a separator is a piece of its own. -/
theorem pieces_append (h : IsName name) (p : List Char) : pieces (p ++ '/' :: name) = pieces p ++ [name] := by
  rw [UnixPath.pieces, List.splitOn_append_cons_self]
  exact congrArg _ h.pieces

/-- What is behind a separator does not change the start. -/
theorem start_append (p q r : List Char) : start (p ++ '/' :: q) = start (p ++ '/' :: r) := by
  have hhead : (p ++ '/' :: q).head? = (p ++ '/' :: r).head? := by cases p <;> rfl
  have hpiece : (UnixPath.pieces (p ++ '/' :: q)).head? = (UnixPath.pieces (p ++ '/' :: r)).head? := by
    rw [UnixPath.pieces, UnixPath.pieces, List.splitOn_append_cons_self, List.splitOn_append_cons_self]
    obtain ⟨first, rest, hp⟩ := List.exists_cons_of_ne_nil (List.splitOn_ne_nil '/' p)
    rw [hp]
    rfl
  rw [start, start, hhead, hpiece]

/-- A separator and a name make the start no other, unless the path is empty. -/
theorem start_append_self (hne : p ≠ []) (q : List Char) : start (p ++ '/' :: q) = start p := by
  have hhead : (p ++ '/' :: q).head? = p.head? := by
    cases p with
    | nil => exact absurd rfl hne
    | cons c p => rfl
  have hpiece : (UnixPath.pieces (p ++ '/' :: q)).head? = (UnixPath.pieces p).head? := by
    rw [UnixPath.pieces, UnixPath.pieces, List.splitOn_append_cons_self]
    obtain ⟨first, rest, hp⟩ := List.exists_cons_of_ne_nil (List.splitOn_ne_nil '/' p)
    rw [hp]
    rfl
  rw [start, start, hhead, hpiece]

/-- **A name that is pushed is one component more.** -/
theorem components_pushName (h : IsName name) (p : List Char) :
    components (pushName p name) = components p ++ [.normal name] := by
  have hlast : [name].filterMap UnixPath.component = [.normal name] := by
    rw [List.filterMap_cons_some h.component, List.filterMap_nil]
  unfold pushName
  by_cases hnil : p = []
  · subst hnil
    have hhead : name.head? ≠ some '/' := by
      intro hhead
      exact h.no_separator (List.mem_of_head? hhead)
    have hstart : start name = [] := by
      rw [start, if_neg hhead, h.pieces, if_neg]
      simpa using h.ne_here
    rw [if_pos (.inl rfl), List.nil_append, components, hstart, h.pieces, hlast]
    rfl
  · by_cases hslash : p.getLast? = some '/'
    · rw [if_pos (.inr hslash)]
      obtain ⟨q, rfl⟩ := List.getLast?_eq_some_iff.mp hslash
      have hempty : UnixPath.pieces (q ++ ['/']) = UnixPath.pieces q ++ [[]] := by
        rw [UnixPath.pieces, List.splitOn_append_cons_self]
        rfl
      rw [List.append_assoc, List.singleton_append, components, components, start_append q name [], pieces_append h,
        hempty, List.filterMap_append, List.filterMap_append, hlast]
      simp [UnixPath.component]
    · rw [if_neg (not_or.mpr ⟨hnil, hslash⟩), components, components, start_append_self hnil, pieces_append h,
        List.filterMap_append, hlast, List.append_assoc]

end Names

end UnixPath
