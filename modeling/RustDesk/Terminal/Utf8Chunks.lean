import RustDesk.Terminal.OutputBuffer

/-!
# Output in whole characters

Reference: `src/server/terminal_service.rs` (`find_utf8_split_point`, `Utf8ChunkAccumulator`). A read from
the terminal may end in the middle of a character. The bytes of it that are there are held back until the
rest comes. Nothing is lost, and never more than three bytes wait.
-/

namespace RustDesk.Terminal

/-- How long the character is that begins with this byte, as `find_utf8_split_point` sees it. -/
def seqLen (b : UInt8) : Option ℕ :=
  if b &&& 0xE0 == 0xC0 then some 2
  else if b &&& 0xF0 == 0xE0 then some 3
  else if b &&& 0xF8 == 0xF0 then some 4
  else none

/-- The loop of `find_utf8_split_point`, over at most `fuel` bytes from behind, the next of them the one
in front of `i`. -/
def splitPointFrom (buf : Bytes) : ℕ → ℕ → ℕ
  | 0, _ | _, 0 => buf.length
  | fuel + 1, i + 1 =>
    let b := buf.getD i 0
    if b &&& 0x80 == 0 then buf.length
    else if b &&& 0xC0 == 0x80 then splitPointFrom buf fuel i
    else
      match seqLen b with
      | none => buf.length
      | some seqLen => if seqLen ≤ buf.length - i then buf.length else i

/-- Where the whole characters of the buffer end. -/
def findUtf8SplitPoint (buf : Bytes) : ℕ := splitPointFrom buf 3 buf.length

/-- `std::str::from_utf8(..).is_ok()`. -/
def isUtf8 (bytes : Bytes) : Bool := bytes.toByteArray.validateUTF8

structure Utf8ChunkAccumulator where
  remainder : Bytes
  deriving DecidableEq

namespace Utf8ChunkAccumulator

def pushChunk (acc : Utf8ChunkAccumulator) (data : Bytes) : Option Bytes × Utf8ChunkAccumulator :=
  if data.isEmpty then (none, acc)
  else
    let hadRemainder := !acc.remainder.isEmpty
    let data := if hadRemainder then acc.remainder ++ data else data
    let split := findUtf8SplitPoint data
    if split = data.length then (some data, ⟨[]⟩)
    -- what stands in front of the bytes that could be held back is no text
    else if !hadRemainder && decide (0 < split) && !isUtf8 (data.take split) then (some data, ⟨[]⟩)
    else if (data.take split).isEmpty then (none, ⟨data.drop split⟩)
    else (some (data.take split), ⟨data.drop split⟩)

def finish (acc : Utf8ChunkAccumulator) : Option Bytes × Utf8ChunkAccumulator :=
  if acc.remainder.isEmpty then (none, acc) else (some acc.remainder, ⟨[]⟩)

end Utf8ChunkAccumulator

theorem splitPointFrom_le (buf : Bytes) (fuel i : ℕ) (hi : i ≤ buf.length) :
    splitPointFrom buf fuel i ≤ buf.length ∧ (splitPointFrom buf fuel i = buf.length ∨
      i < splitPointFrom buf fuel i + fuel + 1) := by
  induction fuel generalizing i with
  | zero => exact ⟨Nat.le_refl _, .inl rfl⟩
  | succ fuel ih =>
    cases i with
    | zero => exact ⟨Nat.le_refl _, .inl rfl⟩
    | succ i =>
      unfold splitPointFrom
      dsimp only
      split
      · exact ⟨Nat.le_refl _, .inl rfl⟩
      · split
        · obtain ⟨hle, hat⟩ := ih i (by omega)
          exact ⟨hle, hat.imp_right fun h => by omega⟩
        · split
          · exact ⟨Nat.le_refl _, .inl rfl⟩
          · split
            · exact ⟨Nat.le_refl _, .inl rfl⟩
            · exact ⟨by omega, .inr (by omega)⟩

/-- The split point is in the buffer, and at most three bytes stand behind it. -/
theorem findUtf8SplitPoint_le (buf : Bytes) :
    findUtf8SplitPoint buf ≤ buf.length ∧ buf.length ≤ findUtf8SplitPoint buf + 3 := by
  obtain ⟨hle, hat⟩ := splitPointFrom_le buf 3 buf.length (Nat.le_refl _)
  refine ⟨hle, ?_⟩
  unfold findUtf8SplitPoint at *
  omega

namespace Utf8ChunkAccumulator

section

variable (acc : Utf8ChunkAccumulator)
include acc

/-- What a read gives, with what is held back after it, is what was held back and read. -/
theorem pushChunk_conserves (data : Bytes) :
    (acc.pushChunk data).1.getD [] ++ (acc.pushChunk data).2.remainder = acc.remainder ++ data := by
  unfold pushChunk
  split
  · next hempty => rw [List.isEmpty_iff.mp hempty, List.append_nil]; rfl
  · have hdata : (if !acc.remainder.isEmpty then acc.remainder ++ data else data) = acc.remainder ++ data := by
      cases hremainder : acc.remainder with
      | nil => rfl
      | cons b bs => rfl
    simp only [hdata]
    generalize acc.remainder ++ data = whole
    split
    · exact List.append_nil whole
    · split
      · exact List.append_nil whole
      · split
        · next htake =>
          have hwhole := List.take_append_drop (findUtf8SplitPoint whole) whole
          rwa [List.isEmpty_iff.mp htake] at hwhole
        · exact List.take_append_drop (findUtf8SplitPoint whole) whole

/-- At most three bytes are held back. -/
theorem length_remainder_pushChunk (data : Bytes)
    (hacc : acc.remainder.length ≤ 3) : (acc.pushChunk data).2.remainder.length ≤ 3 := by
  unfold pushChunk
  split
  · exact hacc
  · have hdrop (whole : Bytes) : (whole.drop (findUtf8SplitPoint whole)).length ≤ 3 := by
      have hsplit := (findUtf8SplitPoint_le whole).2
      rw [List.length_drop]
      omega
    dsimp only
    generalize (if !acc.remainder.isEmpty then acc.remainder ++ data else data) = whole
    split
    · exact Nat.zero_le _
    · split
      · exact Nat.zero_le _
      · split <;> exact hdrop whole

theorem finish_conserves : acc.finish.1.getD [] ++ acc.finish.2.remainder = acc.remainder := by
  unfold finish
  split
  · rfl
  · exact List.append_nil _

end

end Utf8ChunkAccumulator

end RustDesk.Terminal
