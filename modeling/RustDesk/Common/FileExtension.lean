import RustDesk.Common.UnixPath

/-!
# Extensions of file names

The extension of a name is what is behind its last dot, unless that begins the name. `with_extension` puts another
in its place, or one behind a name that has none.
-/

namespace UnixPath

/-- `rsplit_file_at_dot`: the stem and the extension. -/
def splitAtDot (file : List Char) : List Char × Option (List Char) :=
  let stem := (file.rdropWhile (· ≠ '.')).dropLast
  if file = ['.', '.'] ∨ stem = [] then (file, none) else (stem, some (file.rtakeWhile (· ≠ '.')))

/-- `extension`. -/
def extension (path : List Component) : Option (List Char) :=
  match path.getLast? with
  | some (.normal file) => (splitAtDot file).2
  | _ => none

/-- `file_stem`. -/
def fileStem (path : List Component) : Option (List Char) :=
  match path.getLast? with
  | some (.normal file) => some (splitAtDot file).1
  | _ => none

/-- `with_extension`, for one that is not empty. -/
def withExtension (path : List Component) (ext : List Char) : List Component :=
  match path.getLast? with
  | some (.normal file) => path.dropLast ++ [.normal ((splitAtDot file).1 ++ '.' :: ext)]
  | _ => path

variable {file stem ext : List Char}

theorem rdropWhile_dot (file : List Char) :
    file.rdropWhile (· ≠ '.') = [] ∨ (file.rdropWhile (· ≠ '.')).getLast? = some '.' := by
  rcases List.eq_nil_or_concat (file.rdropWhile (· ≠ '.')) with hnil | ⟨front, c, hc⟩
  · exact .inl hnil
  · right
    have hne : file.rdropWhile (· ≠ '.') ≠ [] := by
      rw [hc, List.concat_eq_append]
      simp
    have hlast := List.rdropWhile_last_not (· ≠ '.') file hne
    rw [List.getLast?_eq_getLast_of_ne_nil hne]
    simpa using hlast

/-- A name with an extension is its stem, a dot and the extension. -/
theorem eq_of_splitAtDot (h : splitAtDot file = (stem, some ext)) : file = stem ++ '.' :: ext := by
  unfold splitAtDot at h
  dsimp only at h
  split at h
  · cases h
  · next hstem =>
    obtain ⟨rfl, hext⟩ := Prod.mk.inj h
    cases hext
    have hlast : (file.rdropWhile (· ≠ '.')).getLast? = some '.' := by
      refine (rdropWhile_dot file).resolve_left fun hnil => hstem (.inr ?_)
      rw [hnil, List.dropLast_nil]
    have hdot := List.dropLast_append_getLast? '.' hlast
    rw [← List.singleton_append, ← List.append_assoc, hdot, List.rdropWhile_append_rtakeWhile]

/-- An extension without a dot is split off again. -/
theorem splitAtDot_append (hstem : stem ≠ []) (hext : ext ≠ []) (hdot : '.' ∉ ext) :
    splitAtDot (stem ++ '.' :: ext) = (stem, some ext) := by
  have hall : ∀ c ∈ ext, decide (c ≠ '.') = true := by
    intro c hc
    rw [decide_eq_true_eq]
    rintro rfl
    exact hdot hc
  have hsplit : stem ++ '.' :: ext = (stem ++ ['.']) ++ ext := by simp
  have htake : (stem ++ '.' :: ext).rtakeWhile (· ≠ '.') = ext := by
    rw [hsplit, List.rtakeWhile, List.reverse_append, List.takeWhile_append_of_pos]
    · simp
    · simpa using hall
  have hdrop : (stem ++ '.' :: ext).rdropWhile (· ≠ '.') = stem ++ ['.'] := by
    have hwhole : (stem ++ '.' :: ext).rdropWhile (· ≠ '.') ++ (stem ++ '.' :: ext).rtakeWhile (· ≠ '.') =
        stem ++ '.' :: ext := List.rdropWhile_append_rtakeWhile
    rw [htake] at hwhole
    exact List.append_cancel_right (hwhole.trans hsplit)
  unfold splitAtDot
  rw [hdrop, htake, List.dropLast_concat, if_neg]
  rintro (hup | hnil)
  · -- the name is no pair of dots
    have hmem : ∀ c ∈ ext, c = '.' := by
      intro c hc
      have hin : c ∈ stem ++ '.' :: ext := by simp [hc]
      rw [hup] at hin
      simpa using hin
    obtain ⟨c, rest, rfl⟩ := List.exists_cons_of_ne_nil hext
    exact hdot (hmem c List.mem_cons_self ▸ List.mem_cons_self)
  · exact hstem hnil

theorem splitAtDot_fst (h : (splitAtDot file).2 = none) : (splitAtDot file).1 = file := by
  unfold splitAtDot at h ⊢
  dsimp only at h ⊢
  split at h
  · next hnone => rw [if_pos hnone]
  · cases h

section Concat

variable (path : List Component)

theorem extension_concat (file : List Char) : extension (path ++ [.normal file]) = (splitAtDot file).2 := by
  rw [extension, List.getLast?_concat]

theorem fileStem_concat (file : List Char) : fileStem (path ++ [.normal file]) = some (splitAtDot file).1 := by
  rw [fileStem, List.getLast?_concat]

theorem withExtension_concat (file ext : List Char) :
    withExtension (path ++ [.normal file]) ext = path ++ [.normal ((splitAtDot file).1 ++ '.' :: ext)] := by
  rw [withExtension, List.getLast?_concat, List.dropLast_concat]

theorem length_withExtension (ext : List Char) : (withExtension path ext).length = path.length := by
  unfold withExtension
  split
  · next hlast =>
    have hpos : 0 < path.length := List.length_pos_of_ne_nil fun hnil => by simp [hnil] at hlast
    rw [List.length_append, List.length_dropLast, List.length_singleton]
    omega
  · rfl

end Concat

end UnixPath
