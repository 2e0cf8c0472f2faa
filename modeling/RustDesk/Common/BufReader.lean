import Mathlib.Tactic.Common

/-!
# Reading up to a delimiter through a buffer

A stream comes in reads of any lengths. What a read brought and nobody has taken yet is in the buffer, and one reads
again when the buffer has no delimiter. `readUntil_line` says that what is taken does not depend on the reads, and
`IsLine.of_delimited` that nothing can end inside of a line.
-/

variable {α : Type*}

/-- What one read brings, until the end of the stream. -/
abbrev Reads (α : Type*) := List {xs : List α // xs ≠ []}

def Reads.flatten (reads : Reads α) : List α := (reads.map Subtype.val).flatten

structure BufReader (α : Type*) where
  buffer : List α
  reads : Reads α

/-- `line` is the first line of `whole`, with its delimiter, or all of it when there is none. -/
structure IsLine (d : α) (line rest whole : List α) : Prop where
  append : line ++ rest = whole
  shape : (∃ front, d ∉ front ∧ line = front ++ [d]) ∨ d ∉ line ∧ rest = []

namespace BufReader

variable [DecidableEq α] (d : α)

/-- All that is to come. -/
def rest (r : BufReader α) : List α := r.buffer ++ r.reads.flatten

/-- Up to the delimiter, or to the end of the stream. -/
def readUntil : List α → Reads α → List α × BufReader α
  | buffer, [] =>
    if d ∈ buffer then (buffer.take (buffer.idxOf d + 1), ⟨buffer.drop (buffer.idxOf d + 1), []⟩)
    else (buffer, ⟨[], []⟩)
  | buffer, r :: reads =>
    if d ∈ buffer then (buffer.take (buffer.idxOf d + 1), ⟨buffer.drop (buffer.idxOf d + 1), r :: reads⟩)
    else (buffer ++ (readUntil r.val reads).1, (readUntil r.val reads).2)

end BufReader

namespace IsLine

variable {d : α} {line rest whole before front t : List α}

/-- The delimiter is found in what is there already. -/
theorem of_mem [DecidableEq α] {buffer : List α} (h : d ∈ buffer) (more : List α) :
    IsLine d (buffer.take (buffer.idxOf d + 1)) (buffer.drop (buffer.idxOf d + 1) ++ more) (buffer ++ more) where
  append := by rw [← List.append_assoc, List.take_append_drop]
  shape := by
    refine .inl ⟨buffer.take (buffer.idxOf d), ?_, ?_⟩
    · intro hmem
      obtain ⟨i, hi, heq⟩ := List.getElem_of_mem hmem
      rw [List.getElem_take] at heq
      rw [List.length_take] at hi
      have hlt : i < buffer.findIdx (· == d) := by
        unfold List.idxOf at hi
        omega
      have hne := List.not_of_lt_findIdx hlt
      rw [heq] at hne
      simp at hne
    · have hlt := List.idxOf_lt_length_of_mem h
      rw [List.take_succ_eq_append_getElem hlt, List.getElem_idxOf hlt]

/-- More in front of the first delimiter. -/
theorem append_left (h : IsLine d line rest whole) (hfront : d ∉ front) :
    IsLine d (front ++ line) rest (front ++ whole) where
  append := by rw [List.append_assoc, h.append]
  shape := by
    rcases h.shape with ⟨front', hfront', rfl⟩ | ⟨hline, hrest⟩
    · refine .inl ⟨front ++ front', ?_, (List.append_assoc ..).symm⟩
      rw [List.mem_append]
      exact not_or_intro hfront hfront'
    · refine .inr ⟨?_, hrest⟩
      rw [List.mem_append]
      exact not_or_intro hfront hline

theorem rest_eq_nil (h : IsLine d [] rest whole) : rest = [] := by
  rcases h.shape with ⟨front, -, hnil⟩ | ⟨-, hrest⟩
  · exact absurd hnil.symm (List.append_ne_nil_of_right_ne_nil _ (List.cons_ne_nil d []))
  · exact hrest

/-- **Nothing that ends with the delimiter ends inside of a line.** -/
theorem of_delimited (h : IsLine d line rest whole) (ht : t <+: before ++ whole) (hend : [d] <:+ t)
    (hbefore : ¬t <+: before) : before ++ line <+: t := by
  have hor := List.prefix_or_prefix_of_prefix ht (List.prefix_append before whole)
  obtain ⟨u, rfl⟩ := hor.resolve_left hbefore
  rw [List.prefix_append_right_inj] at ht ⊢
  have hu : u ≠ [] := by
    rintro rfl
    rw [List.append_nil] at hbefore
    exact hbefore (List.prefix_refl _)
  -- it ends behind what was there before
  have hlast : [d] <:+ u := by
    rcases List.suffix_or_suffix_of_suffix hend (List.suffix_append before u) with hlast | ⟨v, hv⟩
    · exact hlast
    · have hlen := congrArg List.length hv
      have hpos := List.length_pos_iff.mpr hu
      rw [List.length_append, List.length_singleton] at hlen
      obtain rfl := List.eq_nil_of_length_eq_zero (show v.length = 0 by omega)
      exact hv ▸ List.suffix_refl _
  obtain ⟨u, rfl⟩ := hlast
  rw [← h.append] at ht
  rcases List.prefix_or_prefix_of_prefix (List.prefix_append line rest) ht with hline | ⟨v, hv⟩
  · exact hline
  · rcases h.shape with ⟨front, hfront, rfl⟩ | ⟨hline, -⟩
    · rcases List.eq_nil_or_concat v with rfl | ⟨v, x, rfl⟩
      · rw [List.append_nil] at hv
        exact ⟨[], by rw [List.append_nil, hv]⟩
      · -- the delimiter would come twice
        rw [List.concat_eq_append, ← List.append_assoc] at hv
        obtain ⟨rfl, -⟩ := List.append_inj' hv rfl
        exact absurd (by simp) hfront
    · refine absurd ?_ hline
      rw [← hv]
      simp

end IsLine

namespace BufReader

variable [DecidableEq α] {d : α}

/-- **What is taken is the first line** of all that is to come, however it is cut into reads. -/
theorem readUntil_line (buffer : List α) (reads : Reads α) :
    IsLine d (readUntil d buffer reads).1 (readUntil d buffer reads).2.rest (buffer ++ reads.flatten) := by
  induction reads generalizing buffer with
  | nil =>
    rw [readUntil]
    by_cases hmem : d ∈ buffer
    · rw [if_pos hmem]
      exact .of_mem hmem _
    · rw [if_neg hmem]
      exact ⟨rfl, .inr ⟨hmem, rfl⟩⟩
  | cons r reads ih =>
    rw [readUntil]
    by_cases hmem : d ∈ buffer
    · rw [if_pos hmem]
      exact .of_mem hmem _
    · rw [if_neg hmem]
      exact (ih r.val).append_left hmem

theorem rest_eq_append (d : α) (r : BufReader α) :
    r.rest = (readUntil d r.buffer r.reads).1 ++ (readUntil d r.buffer r.reads).2.rest :=
  (readUntil_line r.buffer r.reads).append.symm

theorem readUntil_isLine (d : α) (r : BufReader α) :
    IsLine d (readUntil d r.buffer r.reads).1 (readUntil d r.buffer r.reads).2.rest
      ((readUntil d r.buffer r.reads).1 ++ (readUntil d r.buffer r.reads).2.rest) :=
  ⟨rfl, (readUntil_line r.buffer r.reads).shape⟩

/-- Where something is taken, less is to come. -/
theorem rest_lt {buffer : List α} {reads : Reads α} (h : (readUntil d buffer reads).1 ≠ []) :
    (readUntil d buffer reads).2.rest.length < (buffer ++ reads.flatten).length := by
  have hpos := List.length_pos_iff.mpr h
  rw [← (readUntil_line (d := d) buffer reads).append, List.length_append]
  omega

end BufReader
