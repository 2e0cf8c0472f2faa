import Mathlib.Data.List.Induction
import RustDesk.Terminal.OutputBuffer

/-!
# The bounds of the output buffer

Reference: `src/server/terminal_service.rs` (`OutputBuffer::append`). The size that the buffer keeps is that
of its lines, and its lines are lines. What goes on with an unfinished line and does not end it is stored
without trimming, so that output without a newline has no bound.
-/

namespace RustDesk.Terminal.OutputBuffer

/-! ## Where an append goes on -/

/-- What `append` stores by lines and then trims: the buffer with its last line completed, and the rest of
the data. There is nothing to store where it returns early. -/
def toStore (buffer : OutputBuffer) (data : Bytes) : Option (OutputBuffer × Bytes) :=
  if data.isEmpty then none
  else
    match buffer.lastLineIncomplete, buffer.lines.getLast? with
    | true, some lastLine =>
      match data.findIdx? (· == newline) with
      | some newlinePos =>
        some (⟨buffer.lines.dropLast ++ [lastLine ++ data.take (newlinePos + 1)],
          buffer.totalSize + (newlinePos + 1), false⟩, data.drop (newlinePos + 1))
      | none => none
    | _, _ => some (buffer, data)

/-- The buffer with the lines of the data, before it is trimmed. -/
def stored (buffer : OutputBuffer) (remaining : Bytes) : OutputBuffer :=
  storeLines (remaining.getLast? == some newline) buffer (remaining.splitOn newline)

/-- What the trimming loop compares in each round: the size that is left, and the length of the line that
goes. The first must not be less, or the size is counted anew. -/
def trimSubtractions (totalSize : ℕ) : List Bytes → List (ℕ × ℕ)
  | [] => []
  | removed :: lines =>
    if MAX_OUTPUT_BUFFER_SIZE < totalSize ∨ MAX_BUFFER_LINES < (removed :: lines).length then
      let left := if totalSize < removed.length then (lines.map List.length).sum
        else totalSize - removed.length
      (totalSize, removed.length) :: trimSubtractions left lines
    else []

/-- The subtractions of an append: that of `lines.len() - 1`, and those of the trimming loop. -/
def subtractions (buffer : OutputBuffer) (data : Bytes) : List (ℕ × ℕ) :=
  match buffer.toStore data with
  | none => []
  | some (completed, remaining) =>
    ((remaining.splitOn newline).length, 1) ::
      trimSubtractions (stored completed remaining).totalSize (stored completed remaining).lines

/-! ## Lines -/

/-- A line with its newline, and no other. -/
def Terminated (line : Bytes) : Prop := ∃ text, newline ∉ text ∧ line = text ++ [newline]

/-- A line that is not finished. -/
def Unfinished (line : Bytes) : Prop := newline ∉ line ∧ line ≠ []

/-- The lines of a buffer: finished ones, and perhaps one that is not. -/
def Lines (incomplete : Bool) (lines : List Bytes) : Prop :=
  ∃ finished, (∀ line ∈ finished, Terminated line) ∧
    match incomplete with
    | false => lines = finished
    | true => ∃ last, Unfinished last ∧ lines = finished ++ [last]

variable {line : Bytes} {buffer : OutputBuffer} {lines : List Bytes}

theorem Terminated.getLast? (h : Terminated line) : line.getLast? = some newline := by
  obtain ⟨text, -, rfl⟩ := h
  exact List.getLast?_concat

theorem Unfinished.getLast? (h : Unfinished line) : line.getLast? ≠ some newline := by
  intro hlast
  exact h.1 (List.mem_of_getLast? hlast)

theorem Lines.nil : Lines false [] := ⟨[], by simp, rfl⟩

/-- The pieces between the newlines have none. -/
theorem newline_notMem_splitOn (data : Bytes) : ∀ piece ∈ data.splitOn newline, newline ∉ piece := by
  induction data with
  | nil => simp
  | cons b bs ih =>
    rw [List.splitOn_cons_eq_if_modifyHead]
    split
    · simpa using ih
    · next hb =>
      have hb : newline ≠ b := fun h => hb (beq_iff_eq.mpr h.symm)
      cases hpieces : bs.splitOn newline with
      | nil => exact absurd hpieces (List.splitOn_ne_nil _ _)
      | cons piece pieces =>
        rw [hpieces] at ih
        rw [List.forall_mem_cons] at ih
        rw [List.modifyHead_cons, List.forall_mem_cons]
        exact ⟨by simp [hb, ih.1], ih.2⟩

/-! ## What storing and trimming keep -/

/-- The size is that of the lines, and the lines are lines. -/
structure Sound (buffer : OutputBuffer) : Prop where
  total : buffer.totalSize = (buffer.lines.map List.length).sum
  lines : Lines buffer.lastLineIncomplete buffer.lines

theorem Sound.new : Sound new := ⟨rfl, .nil⟩

theorem storeLine_sound {ends last : Bool} (h : Sound buffer)
    (hcomplete : buffer.lastLineIncomplete = false) (hline : newline ∉ line)
    (hends : last = true → ends = true → line = []) :
    Sound (storeLine ends last buffer line) ∧
      (last = false → (storeLine ends last buffer line).lastLineIncomplete = false) := by
  obtain ⟨htotal, finished, hfinished, hlines⟩ := h
  rw [hcomplete] at hlines
  cases last with
  | false =>
    have hstored : storeLine ends false buffer line =
        ⟨buffer.lines ++ [line ++ [newline]], buffer.totalSize + (line ++ [newline]).length, false⟩ := by
      simp [storeLine, hcomplete]
    rw [hstored]
    refine ⟨⟨?_, finished ++ [line ++ [newline]], ?_, ?_⟩, fun _ => rfl⟩
    · simp [htotal]
    · intro l hl
      rcases List.mem_append.mp hl with hl | hl
      · exact hfinished l hl
      · exact ⟨line, hline, List.mem_singleton.mp hl⟩
    · exact congrArg (· ++ _) hlines
  | true =>
    refine ⟨?_, fun h => absurd h (by decide)⟩
    by_cases hempty : line = []
    · -- nothing stands behind the last newline
      have hstored : storeLine ends true buffer line = buffer := by
        subst hempty
        simp [storeLine]
      rw [hstored]
      exact ⟨htotal, finished, hfinished, by rw [hcomplete]; exact hlines⟩
    · have hends : ends = false := by
        cases ends with
        | false => rfl
        | true => exact absurd (hends rfl rfl) hempty
      have hstored : storeLine ends true buffer line =
          ⟨buffer.lines ++ [line], buffer.totalSize + line.length, true⟩ := by
        simp [storeLine, hends, hempty]
      rw [hstored]
      refine ⟨by simp [htotal], finished, hfinished, line, ⟨hline, hempty⟩, ?_⟩
      exact congrArg (· ++ _) hlines

theorem storeLines_sound {ends : Bool} (hne : lines ≠ [])
    (hlines : ∀ line ∈ lines, newline ∉ line) (hends : ends = true → lines.getLast? = some [])
    (h : Sound buffer) (hcomplete : buffer.lastLineIncomplete = false) :
    Sound (storeLines ends buffer lines) := by
  induction lines generalizing buffer with
  | nil => exact absurd rfl hne
  | cons line rest ih =>
    rw [List.forall_mem_cons] at hlines
    rw [storeLines]
    cases rest with
    | nil =>
      have hline : ends = true → line = [] := fun h => by simpa using hends h
      exact (storeLine_sound h hcomplete hlines.1 fun _ => hline).1
    | cons next rest =>
      obtain ⟨hstep, hopen⟩ := @storeLine_sound _ _ ends false h hcomplete hlines.1 (by simp)
      refine ih (by simp) hlines.2 (fun h => ?_) hstep (hopen rfl)
      simpa [List.getLast?_cons_cons] using hends h

theorem stored_sound (remaining : Bytes) (h : Sound buffer)
    (hcomplete : buffer.lastLineIncomplete = false) : Sound (stored buffer remaining) := by
  refine storeLines_sound (List.splitOn_ne_nil _ _) (newline_notMem_splitOn remaining) ?_ h hcomplete
  intro hends
  exact getLast?_splitOn remaining (eq_of_beq hends)

/-- The line that goes is one of the lines counted. -/
theorem Lines.tail {incomplete : Bool} {removed : Bytes}
    (h : Lines incomplete (removed :: lines)) : Lines (if lines.isEmpty then false else incomplete) lines := by
  obtain ⟨finished, hfinished, hlines⟩ := h
  cases lines with
  | nil => exact .nil
  | cons line lines =>
    rw [List.isEmpty_cons, if_neg Bool.false_ne_true]
    cases incomplete with
    | false =>
      subst hlines
      exact ⟨line :: lines, fun l hl => hfinished l (List.mem_cons_of_mem _ hl), rfl⟩
    | true =>
      obtain ⟨last, hlast, hlines⟩ := hlines
      cases finished with
      | nil => cases hlines
      | cons first finished =>
        obtain ⟨-, hlines⟩ := List.cons.inj hlines
        exact ⟨finished, fun l hl => hfinished l (List.mem_cons_of_mem _ hl), last, hlast, hlines⟩

/-- **Trimming.** What is left is within both bounds, and no line that goes is longer than what is counted. -/
theorem trimLines_sound {totalSize : ℕ} {incomplete : Bool}
    (htotal : totalSize = (lines.map List.length).sum) (hlines : Lines incomplete lines) :
    Sound (trimLines totalSize incomplete lines) ∧
      (trimLines totalSize incomplete lines).totalSize ≤ MAX_OUTPUT_BUFFER_SIZE ∧
      (trimLines totalSize incomplete lines).lines.length ≤ MAX_BUFFER_LINES ∧
      ∀ s ∈ trimSubtractions totalSize lines, s.2 ≤ s.1 := by
  induction lines generalizing totalSize incomplete with
  | nil =>
    subst htotal
    rw [trimLines, if_neg (by simp)]
    exact ⟨⟨rfl, hlines⟩, Nat.zero_le _, Nat.zero_le _, by simp [trimSubtractions]⟩
  | cons removed lines ih =>
    rw [List.map_cons, List.sum_cons] at htotal
    have hleft : (if totalSize < removed.length then (lines.map List.length).sum
        else totalSize - removed.length) = (lines.map List.length).sum := by
      split <;> omega
    rw [trimLines, trimSubtractions]
    split
    · dsimp only
      rw [hleft]
      obtain ⟨hsound, hsize, hlength, hsub⟩ := ih rfl hlines.tail
      refine ⟨hsound, hsize, hlength, ?_⟩
      rw [List.forall_mem_cons]
      exact ⟨by omega, hsub⟩
    · next hfits =>
      rw [not_or, Nat.not_lt, Nat.not_lt] at hfits
      exact ⟨⟨by rw [htotal]; rfl, hlines⟩, hfits.1, hfits.2, by simp⟩

/-! ## One append -/

/-- The ways of `append`: nothing to do, the early return, and the lines stored and trimmed. -/
inductive Appends (buffer : OutputBuffer) (data : Bytes) : Prop
  | nothing (hdata : data = []) (happend : buffer.append data = buffer)
    (hsub : buffer.subtractions data = [])
  | unfinished (hopen : buffer.lastLineIncomplete = true) (hdata : newline ∉ data)
    (front : List Bytes) (last : Bytes) (hlines : buffer.lines = front ++ [last])
    (happend : buffer.append data = ⟨front ++ [last ++ data], buffer.totalSize + data.length, true⟩)
    (hsub : buffer.subtractions data = [])
  | stores (completed : OutputBuffer) (remaining : Bytes) (hsound : Sound completed)
    (hcomplete : completed.lastLineIncomplete = false)
    (hdata : buffer.lastLineIncomplete = true → newline ∈ data)
    (happend : buffer.append data = completed.appendLines remaining)
    (hsub : buffer.subtractions data = ((remaining.splitOn newline).length, 1) ::
      trimSubtractions (stored completed remaining).totalSize (stored completed remaining).lines)

/-- Data up to their first newline end a line. -/
theorem Unfinished.complete {last data : Bytes} (h : Unfinished last) {newlinePos : ℕ}
    (hpos : data.findIdx? (· == newline) = some newlinePos) :
    Terminated (last ++ data.take (newlinePos + 1)) ∧ newlinePos < data.length := by
  obtain ⟨hlt, hat, hbefore⟩ := List.findIdx?_eq_some_iff_getElem.mp hpos
  refine ⟨⟨last ++ data.take newlinePos, ?_, ?_⟩, hlt⟩
  · rw [List.mem_append, not_or]
    refine ⟨h.1, fun hmem => ?_⟩
    obtain ⟨i, hi, heq⟩ := List.mem_take_iff_getElem.mp hmem
    have hlt := (Nat.lt_min.mp hi).1
    exact hbefore i hlt (beq_iff_eq.mpr heq)
  · rw [List.take_add_one, List.getElem?_eq_getElem hlt, eq_of_beq hat, List.append_assoc]
    rfl

theorem appends (h : Sound buffer) (data : Bytes) : Appends buffer data := by
  by_cases hdata : data = []
  · subst hdata
    exact .nothing rfl rfl rfl
  have hempty : data.isEmpty = false := by simpa using hdata
  obtain ⟨finished, hfinished, hlines⟩ := h.lines
  cases hopen : buffer.lastLineIncomplete with
  | false =>
    have hstore : buffer.toStore data = some (buffer, data) := by
      rw [toStore, hempty, hopen]
      rfl
    refine .stores buffer data h hopen (by simp [hopen]) ?_ ?_
    · rw [append, hempty, hopen]
      rfl
    · rw [subtractions, hstore]
  | true =>
    rw [hopen] at hlines
    obtain ⟨last, hlast, hlines⟩ := hlines
    have hback : buffer.lines.getLast? = some last := by rw [hlines, List.getLast?_concat]
    have hfront : buffer.lines.dropLast = finished := by rw [hlines, List.dropLast_concat]
    cases hpos : data.findIdx? (· == newline) with
    | none =>
      have hno : newline ∉ data := fun hmem => by simpa using List.findIdx?_eq_none_iff.mp hpos newline hmem
      refine .unfinished hopen hno finished last hlines ?_ ?_
      · simp [append, hdata, hopen, hback, hpos, hfront]
      · simp [subtractions, toStore, hdata, hopen, hback, hpos]
    | some newlinePos =>
      obtain ⟨hterminated, hlt⟩ := hlast.complete hpos
      have hmem : newline ∈ data := by
        obtain ⟨hlt, hat, -⟩ := List.findIdx?_eq_some_iff_getElem.mp hpos
        exact eq_of_beq hat ▸ List.getElem_mem hlt
      refine .stores ⟨finished ++ [last ++ data.take (newlinePos + 1)],
        buffer.totalSize + (newlinePos + 1), false⟩ (data.drop (newlinePos + 1)) ?_ rfl (fun _ => hmem) ?_ ?_
      · refine ⟨?_, finished ++ [last ++ data.take (newlinePos + 1)], ?_, rfl⟩
        · have htotal := h.total
          rw [hlines] at htotal
          simp only [List.map_append, List.sum_append, List.map_singleton, List.sum_singleton,
            List.length_append, List.length_take] at htotal ⊢
          omega
        · intro line hline
          rcases List.mem_append.mp hline with hline | hline
          · exact hfinished line hline
          · exact List.mem_singleton.mp hline ▸ hterminated
      · simp [append, hdata, hopen, hback, hpos, hfront]
      · simp [subtractions, toStore, hdata, hopen, hback, hpos, hfront]

/-- What an append keeps whatever it appends: all but the size, and that of data that are stored by lines. -/
theorem append_sound (h : Sound buffer) (data : Bytes) :
    Sound (buffer.append data) ∧ ∀ s ∈ buffer.subtractions data, s.2 ≤ s.1 := by
  obtain ⟨-, happend, hsub⟩ | ⟨hopen, hdata, front, last, hlines, happend, hsub⟩ |
    ⟨completed, remaining, hsound, hcomplete, -, happend, hsub⟩ := appends h data
  · rw [happend, hsub]
    exact ⟨h, by simp⟩
  · rw [happend, hsub]
    obtain ⟨finished, hfinished, hlines'⟩ := h.lines
    rw [hopen] at hlines'
    obtain ⟨last', hlast, hlines'⟩ := hlines'
    obtain ⟨rfl, hlast'⟩ := List.append_inj' (hlines.symm.trans hlines') rfl
    obtain rfl : last = last' := by simpa using hlast'
    refine ⟨⟨?_, front, hfinished, last ++ data, ⟨?_, ?_⟩, rfl⟩, by simp⟩
    · have htotal := h.total
      rw [hlines] at htotal
      simp only [List.map_append, List.sum_append, List.map_singleton, List.sum_singleton,
        List.length_append] at htotal ⊢
      omega
    · rw [List.mem_append, not_or]
      exact ⟨hlast.1, hdata⟩
    · exact List.append_ne_nil_of_left_ne_nil hlast.2 data
  · have hstored := stored_sound remaining hsound hcomplete
    obtain ⟨htrim, -, -, htrimSub⟩ := trimLines_sound hstored.total hstored.lines
    rw [happend, hsub, List.forall_mem_cons]
    exact ⟨htrim, List.length_pos_of_ne_nil (List.splitOn_ne_nil _ _), htrimSub⟩

/-! ## Runs -/

/-- The bounds of a buffer to which these bytes were appended. -/
structure Bounded (buffer : OutputBuffer) (appended : Bytes) : Prop where
  total : buffer.totalSize = (buffer.lines.map List.length).sum
  size : buffer.totalSize ≤ MAX_OUTPUT_BUFFER_SIZE
  count : buffer.lines.length ≤ MAX_BUFFER_LINES
  finished : ∀ line ∈ buffer.lines.dropLast, Terminated line
  last : ∀ line ∈ buffer.lines.getLast?, newline ∉ line.dropLast
  incomplete : buffer.lastLineIncomplete = true ↔
    ∃ line, buffer.lines.getLast? = some line ∧ line.getLast? ≠ some newline
  suffix : buffer.contents <:+ appended

/-- Every append of these chunks leaves a buffer within its bounds, and subtracts no more than there is. -/
def KeepsBounds (chunks : List Bytes) : Prop :=
  (∀ before, before <+: chunks → Bounded (new.appendAll before) before.flatten) ∧
    ∀ before data, before ++ [data] <+: chunks →
      ∀ s ∈ (new.appendAll before).subtractions data, s.2 ≤ s.1

/-- What goes on with an unfinished line and does not end it fits into the buffer as it is. -/
def Fits (buffer : OutputBuffer) (data : Bytes) : Prop :=
  buffer.lastLineIncomplete = true → newline ∉ data →
    buffer.totalSize + data.length ≤ MAX_OUTPUT_BUFFER_SIZE

/-- The lines as the bounds describe them. -/
theorem Sound.bounded {appended : Bytes} (h : Sound buffer)
    (hsize : buffer.totalSize ≤ MAX_OUTPUT_BUFFER_SIZE) (hcount : buffer.lines.length ≤ MAX_BUFFER_LINES)
    (hsuffix : buffer.contents <:+ appended) : Bounded buffer appended := by
  obtain ⟨htotal, finished, hfinished, hlines⟩ := h
  cases hopen : buffer.lastLineIncomplete with
  | false =>
    rw [hopen] at hlines
    subst hlines
    have hlast : ∀ line ∈ buffer.lines.getLast?, Terminated line := fun line hline =>
      hfinished line (List.mem_of_getLast? hline)
    refine ⟨htotal, hsize, hcount, fun line hline => hfinished line (List.dropLast_subset _ hline), ?_, ?_, hsuffix⟩
    · intro line hline
      obtain ⟨text, htext, rfl⟩ := hlast line hline
      rwa [List.dropLast_concat]
    · rw [hopen]
      refine ⟨fun h => absurd h (by decide), ?_⟩
      rintro ⟨line, hline, hne⟩
      exact absurd (hlast line hline).getLast? hne
  | true =>
    rw [hopen] at hlines
    obtain ⟨last, hlast, hlines⟩ := hlines
    have hback : buffer.lines.getLast? = some last := by rw [hlines, List.getLast?_concat]
    refine ⟨htotal, hsize, hcount, ?_, ?_, ?_, hsuffix⟩
    · rw [hlines, List.dropLast_concat]
      exact hfinished
    · rw [hback]
      rintro line ⟨⟩
      exact fun hmem => hlast.1 (List.dropLast_subset _ hmem)
    · exact iff_of_true hopen ⟨last, hback, hlast.getLast?⟩

/-- **The size after an append** is within its bound just if the data fit, when it was before. -/
theorem append_size_iff (h : Sound buffer)
    (hsize : buffer.totalSize ≤ MAX_OUTPUT_BUFFER_SIZE) (hcount : buffer.lines.length ≤ MAX_BUFFER_LINES)
    (data : Bytes) :
    ((buffer.append data).totalSize ≤ MAX_OUTPUT_BUFFER_SIZE ↔ Fits buffer data) ∧
      (buffer.append data).lines.length ≤ MAX_BUFFER_LINES := by
  obtain ⟨rfl, happend, -⟩ | ⟨hopen, hdata, front, last, hlines, happend, -⟩ |
    ⟨completed, remaining, hsound, hcomplete, hdata, happend, -⟩ := appends h data
  · rw [happend]
    exact ⟨iff_of_true hsize fun _ _ => hsize, hcount⟩
  · -- the early return: nothing is trimmed
    rw [happend]
    refine ⟨⟨fun h _ _ => h, fun h => h hopen hdata⟩, ?_⟩
    rw [hlines] at hcount
    simpa using hcount
  · have hstored := stored_sound remaining hsound hcomplete
    obtain ⟨-, htrimSize, htrimCount, -⟩ := trimLines_sound hstored.total hstored.lines
    rw [happend]
    exact ⟨iff_of_true htrimSize fun hopen hno => absurd (hdata hopen) hno, htrimCount⟩

theorem appendAll_sound (chunks : List Bytes) : Sound (new.appendAll chunks) := by
  induction chunks using List.reverseRecOn with
  | nil => exact .new
  | append_singleton chunks data ih =>
    rw [appendAll_append]
    exact (append_sound ih data).1

/-- Bounds that hold all along leave room for each append. -/
theorem KeepsBounds.fits {chunks before : List Bytes} {data : Bytes} (h : KeepsBounds chunks)
    (hstart : before ++ [data] <+: chunks) : Fits (new.appendAll before) data := by
  have hbefore := h.1 before ((List.prefix_append before [data]).trans hstart)
  have hafter := h.1 _ hstart
  rw [appendAll_append] at hafter
  exact (append_size_iff (appendAll_sound before) hbefore.size hbefore.count data).1.mp hafter.size

/-- **The bounds of the buffer.** They hold all along just if no unfinished line outgrows the buffer. -/
theorem keepsBounds_iff (chunks : List Bytes) :
    KeepsBounds chunks ↔
      ∀ before data, before ++ [data] <+: chunks → Fits (new.appendAll before) data := by
  constructor
  · intro h before data hstart
    exact h.fits hstart
  · intro hfits
    refine ⟨fun before hstart => ?_, fun before data _ => (append_sound (appendAll_sound before) data).2⟩
    -- the bounds of one buffer carry over to the next
    induction before using List.reverseRecOn with
    | nil => exact Sound.new.bounded (Nat.zero_le _) (Nat.zero_le _) List.suffix_rfl
    | append_singleton before data ih =>
      have hbefore := ih ((List.prefix_append before [data]).trans hstart)
      obtain ⟨hsize, hcount⟩ := append_size_iff (appendAll_sound before) hbefore.size hbefore.count data
      refine (appendAll_sound _).bounded ?_ ?_ (contents_appendAll new _)
      · rw [appendAll_append]
        exact hsize.mpr (hfits before data hstart)
      · rw [appendAll_append]
        exact hcount

/-- A byte, and then as many as the buffer holds, with no newline among them. -/
theorem not_keepsBounds : ¬ KeepsBounds [[97], List.replicate MAX_OUTPUT_BUFFER_SIZE 97] := by
  intro h
  have hfirst : new.appendAll [[97]] = ⟨[[97]], 1, true⟩ := by decide
  have hfits := @KeepsBounds.fits _ [[97]] _ h List.prefix_rfl
  rw [hfirst] at hfits
  have hno : newline ∉ List.replicate MAX_OUTPUT_BUFFER_SIZE 97 := fun hmem =>
    absurd (List.eq_of_mem_replicate hmem) (by decide)
  have hsize := hfits rfl hno
  rw [List.length_replicate] at hsize
  exact absurd hsize (by decide)

end RustDesk.Terminal.OutputBuffer
