import Mathlib.Algebra.GroupWithZero.Nat
import Mathlib.Data.List.Basic
import Mathlib.Tactic.Common

/-!
# The output buffer of a terminal session

Reference: `src/server/terminal_service.rs` (`OutputBuffer`). What a terminal printed is kept line by
line, the oldest lines go once there is too much of it, and `get_recent` is what a client that comes back
is shown. Whatever is in the buffer is the end of what was appended to it.
-/

namespace RustDesk.Terminal

abbrev Bytes := List UInt8

def MAX_OUTPUT_BUFFER_SIZE : ℕ := 1024 * 1024

def MAX_BUFFER_LINES : ℕ := 10000

/-- The byte `b'\n'`. -/
def newline : UInt8 := 10

structure OutputBuffer where
  lines : List Bytes
  totalSize : ℕ
  lastLineIncomplete : Bool
  deriving DecidableEq

namespace OutputBuffer

def new : OutputBuffer := ⟨[], 0, false⟩

/-! ## Appending -/

/-- One round of the loop over the lines of the new data. -/
def storeLine (endsWithNewline last : Bool) (buffer : OutputBuffer) (line : Bytes) : OutputBuffer :=
  let incomplete := buffer.lastLineIncomplete || (last && !endsWithNewline && !line.isEmpty)
  if !line.isEmpty || !last then
    let lineData := if !last || endsWithNewline then line ++ [newline] else line
    ⟨buffer.lines ++ [lineData], buffer.totalSize + lineData.length, incomplete⟩
  else { buffer with lastLineIncomplete := incomplete }

def storeLines (endsWithNewline : Bool) : OutputBuffer → List Bytes → OutputBuffer
  | buffer, [] => buffer
  | buffer, line :: rest =>
    storeLines endsWithNewline (storeLine endsWithNewline rest.isEmpty buffer line) rest

/-- The loop that trims old data, over the lines from the oldest on. -/
def trimLines (totalSize : ℕ) (incomplete : Bool) : List Bytes → OutputBuffer
  | [] => if MAX_OUTPUT_BUFFER_SIZE < totalSize then ⟨[], 0, false⟩ else ⟨[], totalSize, incomplete⟩
  | removed :: lines =>
    if MAX_OUTPUT_BUFFER_SIZE < totalSize ∨ MAX_BUFFER_LINES < (removed :: lines).length then
      let left := if totalSize < removed.length then (lines.map List.length).sum
        else totalSize - removed.length
      trimLines left (if lines.isEmpty then false else incomplete) lines
    else ⟨removed :: lines, totalSize, incomplete⟩

/-- What `append` does with the data behind a line that it completes. -/
def appendLines (buffer : OutputBuffer) (remaining : Bytes) : OutputBuffer :=
  let endsWithNewline := remaining.getLast? == some newline
  let stored := storeLines endsWithNewline buffer (remaining.splitOn newline)
  trimLines stored.totalSize stored.lastLineIncomplete stored.lines

def append (buffer : OutputBuffer) (data : Bytes) : OutputBuffer :=
  if data.isEmpty then buffer
  else
    match buffer.lastLineIncomplete, buffer.lines.getLast? with
    | true, some lastLine =>
      match data.findIdx? (· == newline) with
      | some newlinePos =>
        appendLines
          ⟨buffer.lines.dropLast ++ [lastLine ++ data.take (newlinePos + 1)],
            buffer.totalSize + (newlinePos + 1), false⟩
          (data.drop (newlinePos + 1))
      | none =>
        { buffer with
          lines := buffer.lines.dropLast ++ [lastLine ++ data]
          totalSize := buffer.totalSize + data.length }
    | _, _ => appendLines buffer data

/-- The chunks of output, one after another. -/
def appendAll (buffer : OutputBuffer) (chunks : List Bytes) : OutputBuffer :=
  chunks.foldl append buffer

/-! ## What is shown again -/

/-- The first offset from `offset` on that is no continuation byte, at most `fuel` bytes on. -/
def alignOffset (line : Bytes) : ℕ → ℕ → ℕ
  | 0, offset => offset
  | fuel + 1, offset =>
    if decide (offset < line.length) && (line.getD offset 0 &&& 0b11000000 == 0b10000000) then
      alignOffset line fuel (offset + 1)
    else offset

/-- The loop over the lines from the newest on. `size` is what is collected already. -/
def collect (maxBytes size : ℕ) : List Bytes → List Bytes
  | [] => []
  | line :: older =>
    if maxBytes < size + line.length then
      if size = 0 ∧ maxBytes < line.length then
        -- one line is too much already: its end is kept
        let offset := alignOffset line 3 (line.length - maxBytes)
        if offset < line.length then [line.drop offset] else []
      else []
    else line :: collect maxBytes (size + line.length) older

def getRecent (buffer : OutputBuffer) (maxBytes : ℕ) : Bytes :=
  if maxBytes = 0 then [] else (collect maxBytes 0 buffer.lines.reverse).reverse.flatten

/-! ## The buffer holds the end of what was appended -/

/-- All that the buffer holds. -/
def contents (buffer : OutputBuffer) : Bytes := buffer.lines.flatten

@[simp]
theorem contents_new : new.contents = [] := rfl

theorem contents_storeLine (ends last : Bool) (buffer : OutputBuffer) (line : Bytes)
    (hline : last = true → ends = true → line = []) :
    (storeLine ends last buffer line).contents = buffer.contents ++ if last then line else line ++ [newline] := by
  unfold storeLine contents
  cases last with
  | false => simp
  | true =>
    cases line with
    | nil => simp
    | cons b bs =>
      cases ends with
      | false => simp
      | true => cases hline rfl rfl

/-- The lines go in as they stand between the newlines. -/
theorem contents_storeLines (ends : Bool) (lines : List Bytes) (hlines : lines ≠ [])
    (hends : ends = true → lines.getLast? = some []) (buffer : OutputBuffer) :
    (storeLines ends buffer lines).contents = buffer.contents ++ [newline].intercalate lines := by
  induction lines generalizing buffer with
  | nil => exact absurd rfl hlines
  | cons line rest ih =>
    cases rest with
    | nil =>
      have hline : ends = true → line = [] := fun h => by simpa using hends h
      have hstored := contents_storeLine ends true buffer line fun _ => hline
      simpa [storeLines] using hstored
    | cons next rest =>
      have hrest : ends = true → (next :: rest).getLast? = some [] := fun h => by
        simpa [List.getLast?_cons_cons] using hends h
      have hstored := contents_storeLine ends false buffer line (by simp)
      rw [storeLines, ih (by simp) hrest, List.isEmpty_cons, hstored, List.intercalate_cons_cons]
      simp

/-- Data that end in a newline have nothing behind the last one. -/
theorem getLast?_splitOn (data : Bytes) (h : data.getLast? = some newline) :
    (data.splitOn newline).getLast? = some [] := by
  obtain ⟨front, rfl⟩ := List.getLast?_eq_some_iff.mp h
  rw [List.splitOn_append_cons_self, List.splitOn_nil]
  simp

/-- Trimming only takes from the front. -/
theorem contents_trimLines (totalSize : ℕ) (incomplete : Bool) (lines : List Bytes) :
    (trimLines totalSize incomplete lines).contents <:+ lines.flatten := by
  induction lines generalizing totalSize incomplete with
  | nil =>
    unfold trimLines
    split <;> exact List.suffix_rfl
  | cons removed lines ih =>
    unfold trimLines
    split
    · exact (ih _ _).trans (List.suffix_append removed lines.flatten)
    · exact List.suffix_rfl

section

variable (buffer : OutputBuffer)
include buffer

theorem contents_appendLines (remaining : Bytes) :
    (buffer.appendLines remaining).contents <:+ buffer.contents ++ remaining := by
  have hstored : (storeLines (remaining.getLast? == some newline) buffer
      (remaining.splitOn newline)).contents = buffer.contents ++ remaining := by
    rw [contents_storeLines, List.intercalate_splitOn]
    · exact List.splitOn_ne_nil newline remaining
    · intro hends
      exact getLast?_splitOn remaining (eq_of_beq hends)
  rw [← hstored]
  exact contents_trimLines _ _ _

/-- **The buffer keeps the end of the output.** -/
theorem contents_append (data : Bytes) : (buffer.append data).contents <:+ buffer.contents ++ data := by
  unfold append
  split
  · next hdata => exact ⟨[], by rw [List.nil_append, List.isEmpty_iff.mp hdata, List.append_nil]⟩
  · split
    · next lastLine _ hlast =>
      obtain ⟨front, hlines⟩ := List.getLast?_eq_some_iff.mp hlast
      have hcontents : buffer.contents = front.flatten ++ lastLine := by
        rw [contents, hlines, List.flatten_append, List.flatten_singleton]
      split
      · -- the data complete the last line
        next pos _ =>
        refine (contents_appendLines _ _).trans ⟨[], ?_⟩
        rw [List.nil_append, hcontents, contents, hlines, List.dropLast_concat, List.flatten_append,
          List.flatten_singleton, List.append_assoc, List.append_assoc, List.append_assoc,
          List.take_append_drop]
      · refine ⟨[], ?_⟩
        rw [List.nil_append, hcontents, contents, hlines, List.dropLast_concat, List.flatten_append,
          List.flatten_singleton, List.append_assoc]
    · exact contents_appendLines buffer data

theorem contents_appendAll (chunks : List Bytes) :
    (buffer.appendAll chunks).contents <:+ buffer.contents ++ chunks.flatten := by
  induction chunks generalizing buffer with
  | nil => exact ⟨[], by rw [List.nil_append, List.flatten_nil, List.append_nil]; rfl⟩
  | cons chunk chunks ih =>
    obtain ⟨lost, hlost⟩ := contents_append buffer chunk
    refine (ih (buffer.append chunk)).trans ⟨lost, ?_⟩
    rw [← List.append_assoc, hlost, List.flatten_cons, List.append_assoc]

theorem appendAll_append (chunks chunks' : List Bytes) :
    buffer.appendAll (chunks ++ chunks') = (buffer.appendAll chunks).appendAll chunks' :=
  List.foldl_append

end

theorem le_alignOffset (line : Bytes) (fuel offset : ℕ) : offset ≤ alignOffset line fuel offset := by
  induction fuel generalizing offset with
  | zero => exact Nat.le_refl _
  | succ fuel ih =>
    unfold alignOffset
    split
    · exact Nat.le_of_succ_le (ih (offset + 1))
    · exact Nat.le_refl _

/-- What is collected is the end of the lines, and fits. -/
theorem collect_spec (maxBytes size : ℕ) (newest : List Bytes) :
    let collected := (collect maxBytes size newest).reverse.flatten
    collected <:+ newest.reverse.flatten ∧ collected.length ≤ maxBytes - size := by
  induction newest generalizing size with
  | nil => exact ⟨List.suffix_rfl, Nat.zero_le _⟩
  | cons line older ih =>
    have hlines : (line :: older).reverse.flatten = older.reverse.flatten ++ line := by simp
    rw [hlines]
    unfold collect
    split
    · split
      · next hlong =>
        dsimp only
        split
        · have haligned := le_alignOffset line 3 (line.length - maxBytes)
          rw [List.reverse_singleton, List.flatten_singleton, List.length_drop]
          refine ⟨(List.drop_suffix _ line).trans (List.suffix_append _ line), ?_⟩
          omega
        · exact ⟨List.nil_suffix, Nat.zero_le _⟩
      · exact ⟨List.nil_suffix, Nat.zero_le _⟩
    · next hfits =>
      obtain ⟨⟨rest, hrest⟩, hlength⟩ := ih (size + line.length)
      rw [List.reverse_cons, List.flatten_append, List.flatten_singleton]
      refine ⟨⟨rest, by rw [← List.append_assoc, hrest]⟩, ?_⟩
      rw [List.length_append]
      omega

theorem getRecent_suffix (buffer : OutputBuffer) (maxBytes : ℕ) :
    buffer.getRecent maxBytes <:+ buffer.contents := by
  unfold getRecent
  split
  · exact List.nil_suffix
  · have hcollected := (collect_spec maxBytes 0 buffer.lines.reverse).1
    rwa [List.reverse_reverse] at hcollected

theorem length_getRecent (buffer : OutputBuffer) (maxBytes : ℕ) :
    (buffer.getRecent maxBytes).length ≤ maxBytes := by
  unfold getRecent
  split
  · exact Nat.zero_le _
  · exact (collect_spec maxBytes 0 buffer.lines.reverse).2

end OutputBuffer

end RustDesk.Terminal
