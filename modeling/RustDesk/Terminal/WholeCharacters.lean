import RustDesk.Common.Utf8Boundaries
import RustDesk.Terminal.BufferBounds
import RustDesk.Terminal.Utf8Chunks

/-!
# Output stays text

Reference: `src/server/terminal_service.rs` (`find_utf8_split_point`, `Utf8ChunkAccumulator`,
`OutputBuffer::get_recent`). A text that is read in pieces goes on in pieces that are texts, the lines of a
buffer of texts are texts, and what is shown again is one.
-/

namespace RustDesk.Terminal

open Utf8

theorem isUtf8_iff (bytes : Bytes) : isUtf8 bytes = true ↔ IsText bytes := validateUTF8_iff bytes

/-! ## The bytes that the split point looks at -/

/-- What `find_utf8_split_point` and `get_recent` see of each byte. -/
theorem byte_tests (b : UInt8) :
    ((b &&& 0x80 == 0) = true ↔ b.toNat < 128) ∧ ((b &&& 0xC0 == 0x80) = true ↔ Continues b) ∧
      seqLen b = if b.toNat < 192 then none else if b.toNat < 224 then some 2
        else if b.toNat < 240 then some 3 else if b.toNat < 248 then some 4 else none := by
  have hall : ∀ i : Fin 256, let b := UInt8.ofNat i
      ((b &&& 0x80 == 0) = true ↔ b.toNat < 128) ∧ ((b &&& 0xC0 == 0x80) = true ↔ Continues b) ∧
        seqLen b = if b.toNat < 192 then none else if b.toNat < 224 then some 2
          else if b.toNat < 240 then some 3 else if b.toNat < 248 then some 4 else none := by
    decide +kernel
  have hb := hall ⟨b.toNat, b.toNat_lt⟩
  rwa [UInt8.ofNat_toNat] at hb

variable {b : UInt8} {c : Char}

/-- The first byte of a character tells its length. -/
theorem seqLen_first {bs : Bytes} (h : Written c (b :: bs)) (hb : 128 ≤ b.toNat) :
    seqLen b = some (bs.length + 1) := by
  rw [(byte_tests b).2.2]
  cases h with
  | one hc =>
    rw [toNat_ofNat (by omega)] at hb
    omega
  | two _ hx => rw [if_neg (by omega), if_pos (by omega)]; rfl
  | three _ hx => rw [if_neg (by omega), if_neg (by omega), if_pos (by omega)]; rfl
  | four _ hx => rw [if_neg (by omega), if_neg (by omega), if_neg (by omega), if_pos (by omega)]; rfl

theorem eq_nil_of_ascii {bs : Bytes} (h : Written c (b :: bs)) (hb : b.toNat < 128) : bs = [] := by
  cases h with
  | one => rfl
  | two | three | four => omega

/-- The loop walks back over the bytes that go on with a character, as far as it looks. -/
theorem splitPointFrom_continues {before conts : Bytes} (hconts : ∀ x ∈ conts, Continues x)
    (fuel k : ℕ) (hk : k ≤ conts.length) :
    splitPointFrom (before ++ b :: conts) fuel (before.length + 1 + k) =
      if fuel ≤ k then (before ++ b :: conts).length
      else splitPointFrom (before ++ b :: conts) (fuel - k) (before.length + 1) := by
  induction k generalizing fuel with
  | zero =>
    cases fuel with
    | zero => rw [if_pos (Nat.le_refl 0), splitPointFrom]
    | succ fuel => rw [if_neg (by omega), Nat.add_zero, Nat.sub_zero]
  | succ k ih =>
    cases fuel with
    | zero => rw [if_pos (Nat.zero_le _), splitPointFrom]
    | succ fuel =>
      have hat : (before ++ b :: conts).getD (before.length + 1 + k) 0 = conts[k] := by
        rw [List.getD_eq_getElem?_getD, List.getElem?_append_right (by omega),
          show before.length + 1 + k - before.length = k + 1 by omega, List.getElem?_cons_succ,
          List.getElem?_eq_getElem hk]
        rfl
      have hcont := hconts conts[k] (List.getElem_mem hk)
      have hascii : ¬ (conts[k] &&& 0x80 == 0) = true := fun h =>
        absurd ((byte_tests _).1.mp h) (Nat.not_lt.mpr hcont.1)
      rw [← Nat.add_assoc, splitPointFrom]
      simp only [hat]
      rw [if_neg hascii, if_pos ((byte_tests _).2.1.mpr hcont), ih fuel (by omega)]
      simp only [Nat.add_le_add_iff_right, Nat.add_sub_add_right]

/-- **The split point** of characters and the first bytes of one more stands behind the characters, or
behind all when the last character is complete. -/
theorem findUtf8SplitPoint_part {before part rest : Bytes} (hpart : part ≠ [])
    (hc : part ++ rest = String.utf8EncodeChar c) :
    findUtf8SplitPoint (before ++ part) = if rest = [] then (before ++ part).length else before.length := by
  have hwritten : Written c (part ++ rest) := hc ▸ written c
  have hsize : part.length + rest.length ≤ 4 := by
    rw [← List.length_append, hc, String.length_utf8EncodeChar]
    exact c.utf8Size_le_four
  cases part with
  | nil => exact absurd rfl hpart
  | cons b conts =>
    have hconts : ∀ x ∈ conts, Continues x := by
      intro x hx
      obtain ⟨front, back, rfl⟩ := List.append_of_mem hx
      refine @Written.rest c (back ++ rest) (b :: front) x ?_ (List.cons_ne_nil _ _)
      simpa using hwritten
    have hat : (before ++ b :: conts).getD before.length 0 = b := by
      rw [List.getD_eq_getElem?_getD, List.getElem?_append_right (Nat.le_refl _), Nat.sub_self]
      rfl
    have hlen : (before ++ b :: conts).length = before.length + 1 + conts.length := by
      rw [List.length_append, List.length_cons]
      omega
    have hloop := @splitPointFrom_continues b before conts hconts 3 conts.length (Nat.le_refl _)
    rw [← hlen] at hloop
    rw [findUtf8SplitPoint, hloop]
    rw [List.length_cons] at hsize
    split
    · -- all four bytes are there
      rw [if_pos (List.length_eq_zero_iff.mp (by omega))]
    · obtain ⟨fuel, hfuel⟩ : ∃ fuel, 3 - conts.length = fuel + 1 := ⟨2 - conts.length, by omega⟩
      have hwritten : Written c (b :: (conts ++ rest)) := hwritten
      have hfirst := hwritten.first
      rw [hfuel, splitPointFrom]
      simp only [hat]
      by_cases hascii : b.toNat < 128
      · rw [if_pos ((byte_tests b).1.mpr hascii)]
        have hnil := eq_nil_of_ascii hwritten hascii
        rw [if_pos (List.append_eq_nil_iff.mp hnil).2]
      · have hlead := seqLen_first hwritten (Nat.not_lt.mp hascii)
        rw [if_neg fun h => hascii ((byte_tests b).1.mp h), if_neg fun h => hfirst.1 ((byte_tests b).2.1.mp h),
          hlead, hlen]
        dsimp only
        rw [List.length_append]
        by_cases hrest : rest = []
        · subst hrest
          rw [if_pos (by rw [List.length_nil]; omega), if_pos rfl]
        · have hpos := List.length_pos_of_ne_nil hrest
          rw [if_neg (by omega), if_neg hrest]

/-! ## Chunks -/

/-- The first bytes of a text are cut behind a text. -/
theorem isText_take {data more : Bytes} (h : IsText (data ++ more)) (hdata : data ≠ []) :
    IsText (data.take (findUtf8SplitPoint data)) := by
  obtain ⟨cs, c, part, rest, rfl, hpart, hc⟩ := h.beginning hdata
  rw [findUtf8SplitPoint_part hpart hc]
  split
  · next hrest =>
    subst hrest
    rw [List.append_nil] at hc
    rw [List.take_length, hc]
    exact ⟨cs ++ [c], by rw [encoded_append, encoded_cons, encoded_nil, List.append_nil]⟩
  · rw [List.take_left]
    exact ⟨cs, rfl⟩

namespace Utf8ChunkAccumulator

/-- The chunks that come of the reads, and what is held back after them. -/
def pushAll (acc : Utf8ChunkAccumulator) : List Bytes → List Bytes × Utf8ChunkAccumulator
  | [] => ([], acc)
  | data :: reads =>
    let pushed := acc.pushChunk data
    let later := pushed.2.pushAll reads
    (pushed.1.toList ++ later.1, later.2)

/-- What held bytes and reads come to: the chunks, and one more at the end of the output. -/
def outputs (reads : List Bytes) : List Bytes :=
  let pushed := pushAll ⟨[]⟩ reads
  pushed.1 ++ pushed.2.finish.1.toList

theorem pushAll_conserves (acc : Utf8ChunkAccumulator) (reads : List Bytes) :
    (acc.pushAll reads).1.flatten ++ (acc.pushAll reads).2.remainder = acc.remainder ++ reads.flatten := by
  induction reads generalizing acc with
  | nil => simp [pushAll]
  | cons data reads ih =>
    have hpush := acc.pushChunk_conserves data
    have hlater := ih (acc.pushChunk data).2
    have hchunk : (acc.pushChunk data).1.toList.flatten = (acc.pushChunk data).1.getD [] := by
      cases (acc.pushChunk data).1 with
      | none => rfl
      | some chunk => exact List.append_nil chunk
    rw [pushAll]
    rw [List.flatten_append, List.append_assoc, hlater, hchunk, ← List.append_assoc, hpush,
      List.flatten_cons, List.append_assoc]

/-- **Nothing is lost**: the chunks are the reads. -/
theorem flatten_outputs (reads : List Bytes) : (outputs reads).flatten = reads.flatten := by
  have hpushed := pushAll_conserves ⟨[]⟩ reads
  have hfinish : (pushAll ⟨[]⟩ reads).2.finish.1.toList.flatten = (pushAll ⟨[]⟩ reads).2.remainder := by
    unfold finish
    split
    · next hempty => rw [List.isEmpty_iff.mp hempty]; rfl
    · exact List.append_nil _
  rw [outputs, List.flatten_append, hfinish, hpushed]
  rfl

theorem length_remainder_pushAll (acc : Utf8ChunkAccumulator) (reads : List Bytes)
    (hacc : acc.remainder.length ≤ 3) : (acc.pushAll reads).2.remainder.length ≤ 3 := by
  induction reads generalizing acc with
  | nil => exact hacc
  | cons data reads ih => exact ih _ (length_remainder_pushChunk acc data hacc)

/-- A read of a text gives a text, and what is held back begins the rest. -/
theorem pushChunk_isText {acc : Utf8ChunkAccumulator} {data more : Bytes}
    (h : IsText (acc.remainder ++ data ++ more)) :
    (∀ chunk ∈ (acc.pushChunk data).1, IsText chunk) ∧ IsText ((acc.pushChunk data).2.remainder ++ more) := by
  unfold pushChunk
  split
  · next hempty =>
    rw [List.isEmpty_iff.mp hempty, List.append_nil] at h
    exact ⟨by simp, h⟩
  · next hempty =>
    have hdata : (if !acc.remainder.isEmpty then acc.remainder ++ data else data) = acc.remainder ++ data := by
      cases hremainder : acc.remainder with
      | nil => rfl
      | cons b bs => rfl
    have hwhole : acc.remainder ++ data ≠ [] := by
      intro hnil
      exact hempty (List.isEmpty_iff.mpr (List.append_eq_nil_iff.mp hnil).2)
    have htake := isText_take h hwhole
    simp only [hdata]
    generalize acc.remainder ++ data = whole at h htake
    have hdrop : IsText (whole.drop (findUtf8SplitPoint whole) ++ more) := by
      refine IsText.of_append htake ?_
      rwa [← List.append_assoc, List.take_append_drop]
    split
    · next hsplit =>
      rw [hsplit, List.take_length] at htake
      exact ⟨by simpa using htake, htake.of_append h⟩
    · rw [(isUtf8_iff _).mpr htake, Bool.not_true, Bool.and_false, if_neg Bool.false_ne_true]
      split
      · exact ⟨by simp, hdrop⟩
      · exact ⟨by simpa using htake, hdrop⟩

theorem pushAll_isText {acc : Utf8ChunkAccumulator} {reads : List Bytes}
    (h : IsText (acc.remainder ++ reads.flatten)) :
    (∀ chunk ∈ (acc.pushAll reads).1, IsText chunk) ∧ IsText (acc.pushAll reads).2.remainder := by
  induction reads generalizing acc with
  | nil => exact ⟨by simp [pushAll], by simpa [pushAll] using h⟩
  | cons data reads ih =>
    rw [List.flatten_cons, ← List.append_assoc] at h
    obtain ⟨hchunk, hmore⟩ := pushChunk_isText h
    obtain ⟨hlater, hlast⟩ := ih hmore
    refine ⟨fun chunk hmem => ?_, hlast⟩
    rcases List.mem_append.mp hmem with hmem | hmem
    · exact hchunk chunk (Option.mem_toList.mp hmem)
    · exact hlater chunk hmem

/-- **Every chunk of a text is a text.** -/
theorem outputs_isText {reads : List Bytes} (h : IsText reads.flatten) : ∀ chunk ∈ outputs reads, IsText chunk := by
  obtain ⟨hpushed, hlast⟩ := @pushAll_isText ⟨[]⟩ reads h
  intro chunk hmem
  rcases List.mem_append.mp hmem with hmem | hmem
  · exact hpushed chunk hmem
  · unfold finish at hmem
    split at hmem
    · simp at hmem
    · obtain rfl : chunk = (pushAll ⟨[]⟩ reads).2.remainder := by simpa using hmem
      exact hlast

end Utf8ChunkAccumulator

namespace OutputBuffer

/-! ## Lines -/

theorem isText_newline : IsText [newline] := ⟨['\n'], by decide⟩

theorem not_continues_newline : ¬ Continues newline := by decide

/-- The only character with a newline among its bytes is the newline. -/
theorem newline_notMem_encode {c : Char} (hc : c ≠ '\n') : newline ∉ String.utf8EncodeChar c := by
  have hsmall : ∀ b : UInt8, 128 ≤ b.toNat → newline ≠ b := by
    rintro b hb rfl
    exact absurd hb (by decide)
  have hwritten := written c
  generalize String.utf8EncodeChar c = bytes at hwritten
  cases hwritten with
  | one hone =>
    rw [List.mem_singleton]
    intro heq
    have hval := congrArg UInt8.toNat heq
    rw [toNat_ofNat (by omega)] at hval
    exact hc (Char.toNat_inj.mp hval.symm)
  | two _ hx hy =>
    simp only [List.mem_cons, List.not_mem_nil, or_false, not_or]
    exact ⟨hsmall _ (by omega), hsmall _ hy.1⟩
  | three _ hx hy hz =>
    simp only [List.mem_cons, List.not_mem_nil, or_false, not_or]
    exact ⟨hsmall _ (by omega), hsmall _ hy.1, hsmall _ hz.1⟩
  | four _ hx hy hz hw =>
    simp only [List.mem_cons, List.not_mem_nil, or_false, not_or]
    exact ⟨hsmall _ (by omega), hsmall _ hy.1, hsmall _ hz.1, hsmall _ hw.1⟩

theorem splitOn_append_of_notMem {front back : Bytes} (h : newline ∉ front) :
    (front ++ back).splitOn newline = (back.splitOn newline).modifyHead (front ++ ·) := by
  induction front with
  | nil =>
    rw [List.nil_append]
    cases back.splitOn newline <;> rfl
  | cons b front ih =>
    rw [List.mem_cons, not_or] at h
    rw [List.cons_append, List.splitOn_cons_eq_if_modifyHead, if_neg fun hb => h.1 (eq_of_beq hb).symm, ih h.2]
    cases back.splitOn newline <;> rfl

/-- The pieces of a text between its newlines are texts. -/
theorem splitOn_isText {data : Bytes} (h : IsText data) : ∀ piece ∈ data.splitOn newline, IsText piece := by
  obtain ⟨cs, rfl⟩ := h
  induction cs with
  | nil => simpa using IsText.nil
  | cons c cs ih =>
    rw [encoded_cons]
    by_cases hc : c = '\n'
    · have henc : String.utf8EncodeChar c = [newline] := by subst hc; decide
      rw [henc, List.singleton_append, List.splitOn_cons_eq_if_modifyHead, if_pos BEq.rfl, List.forall_mem_cons]
      exact ⟨.nil, ih⟩
    · rw [splitOn_append_of_notMem (newline_notMem_encode hc)]
      cases hpieces : (encoded cs).splitOn newline with
      | nil => exact absurd hpieces (List.splitOn_ne_nil _ _)
      | cons piece pieces =>
        rw [hpieces, List.forall_mem_cons] at ih
        rw [List.modifyHead_cons, List.forall_mem_cons]
        refine ⟨IsText.append ⟨[c], ?_⟩ ih.1, ih.2⟩
        rw [encoded_cons, encoded_nil, List.append_nil]

/-- Every line of the buffer is a text. -/
def TextLines (lines : List Bytes) : Prop := ∀ line ∈ lines, IsText line

variable {lines : List Bytes} {buffer : OutputBuffer}

theorem TextLines.concat {line : Bytes} (h : TextLines lines) (hline : IsText line) :
    TextLines (lines ++ [line]) := by
  intro l hl
  rcases List.mem_append.mp hl with hl | hl
  · exact h l hl
  · exact List.mem_singleton.mp hl ▸ hline

theorem storeLines_textLines {ends : Bool} (hlines : ∀ line ∈ lines, IsText line)
    (h : TextLines buffer.lines) : TextLines (storeLines ends buffer lines).lines := by
  induction lines generalizing buffer with
  | nil => exact h
  | cons line rest ih =>
    rw [List.forall_mem_cons] at hlines
    refine ih hlines.2 ?_
    unfold storeLine
    split
    · refine h.concat ?_
      split
      · exact hlines.1.append isText_newline
      · exact hlines.1
    · exact h

theorem trimLines_textLines (h : TextLines lines) (totalSize : ℕ) (incomplete : Bool) :
    TextLines (trimLines totalSize incomplete lines).lines := by
  induction lines generalizing totalSize incomplete with
  | nil =>
    rw [trimLines]
    split <;> exact h
  | cons removed lines ih =>
    rw [trimLines]
    split
    · exact ih (fun line hline => h line (List.mem_cons_of_mem _ hline)) _ _
    · exact h

section

variable (h : TextLines buffer.lines)
include h

theorem appendLines_textLines {remaining : Bytes}
    (hremaining : IsText remaining) : TextLines (buffer.appendLines remaining).lines :=
  trimLines_textLines (storeLines_textLines (splitOn_isText hremaining) h) _ _

/-- **A text appended to lines of text leaves lines of text.** -/
theorem append_textLines {data : Bytes} (hdata : IsText data) : TextLines (buffer.append data).lines := by
  unfold append
  split
  · exact h
  · split
    · next lastLine _ hlast =>
      obtain ⟨front, hlines⟩ := List.getLast?_eq_some_iff.mp hlast
      rw [hlines, List.dropLast_concat]
      rw [hlines] at h
      have hfront : TextLines front := fun line hline => h line (List.mem_append_left _ hline)
      have hlast : IsText lastLine := h lastLine (List.mem_append_right _ List.mem_cons_self)
      split
      · -- the data are cut behind their first newline
        next pos hpos =>
        obtain ⟨hlt, hat, -⟩ := List.findIdx?_eq_some_iff_getElem.mp hpos
        have hcut : data = data.take pos ++ newline :: data.drop (pos + 1) := by
          rw [← eq_of_beq hat, ← List.drop_eq_getElem_cons hlt, List.take_append_drop]
        have htake : data.take (pos + 1) = data.take pos ++ [newline] := by
          rw [List.take_add_one, List.getElem?_eq_getElem hlt, eq_of_beq hat]
          rfl
        rw [hcut] at hdata
        obtain ⟨hbefore, hrest⟩ := hdata.cut not_continues_newline
        refine appendLines_textLines ?_ (isText_newline.of_append hrest)
        rw [htake]
        exact hfront.concat (hlast.append (hbefore.append isText_newline))
      · exact hfront.concat (hlast.append hdata)
    · exact appendLines_textLines h hdata

theorem appendAll_textLines {texts : List Bytes}
    (htexts : ∀ text ∈ texts, IsText text) : TextLines (buffer.appendAll texts).lines := by
  induction texts generalizing buffer with
  | nil => exact h
  | cons text texts ih =>
    rw [List.forall_mem_cons] at htexts
    exact ih (append_textLines h htexts.1) htexts.2

end

/-! ## What is shown again -/

/-- Where the offset is aligned to: behind bytes that go on with a character, at most `fuel` of them. -/
theorem alignOffset_spec (line : Bytes) (fuel offset : ℕ) : alignOffset line fuel offset ≤ offset + fuel ∧
      (∀ i, offset ≤ i → i < alignOffset line fuel offset → i < line.length ∧ Continues (line.getD i 0)) ∧
      (alignOffset line fuel offset = offset + fuel ∨ line.length ≤ alignOffset line fuel offset ∨
        ¬ Continues (line.getD (alignOffset line fuel offset) 0)) := by
  induction fuel generalizing offset with
  | zero => exact ⟨Nat.le_refl _, fun i h h' => absurd h' (Nat.not_lt.mpr h), .inl rfl⟩
  | succ fuel ih =>
    unfold alignOffset
    split
    · next hskip =>
      rw [Bool.and_eq_true, decide_eq_true_iff] at hskip
      obtain ⟨hle, hbetween, hend⟩ := ih (offset + 1)
      refine ⟨by omega, fun i hi hlt => ?_, hend.imp_left fun h => by omega⟩
      rcases Nat.eq_or_lt_of_le hi with rfl | hi
      · exact ⟨hskip.1, (byte_tests _).2.1.mp hskip.2⟩
      · exact hbetween i hi hlt
    · next hstop =>
      refine ⟨by omega, fun i h h' => absurd h' (Nat.not_lt.mpr h), .inr ?_⟩
      by_cases hlt : offset < line.length
      · refine .inr fun hcont => hstop ?_
        rw [Bool.and_eq_true, decide_eq_true_iff]
        exact ⟨hlt, (byte_tests _).2.1.mpr hcont⟩
      · exact .inl (Nat.not_lt.mp hlt)

/-- No four bytes in a row go on with a character. -/
theorem not_four_continue {line : Bytes} (h : IsText line) {offset : ℕ} (hlt : offset + 3 < line.length)
    (hcont : ∀ i, offset ≤ i → i ≤ offset + 3 → Continues (line.getD i 0)) : False := by
  have hwhole : line.take (offset + 4) ++ line.drop (offset + 4) = line := List.take_append_drop _ _
  have hlen : (line.take (offset + 4)).length = offset + 4 := by
    rw [List.length_take]
    omega
  obtain ⟨cs, c, part, rest, hcut, hpart, hc⟩ := IsText.beginning (hwhole.symm ▸ h)
    (List.ne_nil_of_length_pos (by omega))
  have hsize : part.length ≤ 4 := by
    have hfull := congrArg List.length hc
    rw [List.length_append, String.length_utf8EncodeChar] at hfull
    have hfour := c.utf8Size_le_four
    omega
  have hwritten : Written c (part ++ rest) := hc ▸ written c
  cases part with
  | nil => exact hpart rfl
  | cons b conts =>
    -- the last character that begins, begins among the four
    rw [hcut, List.length_append] at hlen
    have hat : line.getD (encoded cs).length 0 = b := by
      rw [← hwhole, hcut, List.append_assoc, List.getD_eq_getElem?_getD,
        List.getElem?_append_right (Nat.le_refl _), Nat.sub_self]
      rfl
    rw [List.length_cons] at hsize hlen
    have hbyte := hcont (encoded cs).length (by omega) (by omega)
    rw [hat] at hbyte
    exact hwritten.first.1 hbyte

/-- What is left of a text behind an aligned offset is a text. -/
theorem drop_alignOffset_isText {text : Bytes} (h : IsText text) (offset : ℕ) :
    IsText (text.drop (alignOffset text 3 offset)) := by
  obtain ⟨-, hbetween, hend⟩ := alignOffset_spec text 3 offset
  by_cases hlt : alignOffset text 3 offset < text.length
  · have hbyte : ¬ Continues (text.getD (alignOffset text 3 offset) 0) := by
      intro hcont
      rcases hend with hend | hend | hend
      · rw [hend] at hlt hcont hbetween
        refine not_four_continue h hlt fun i hi hle => ?_
        rcases Nat.eq_or_lt_of_le hle with rfl | hlt'
        · exact hcont
        · exact (hbetween i hi hlt').2
      · omega
      · exact hend hcont
    generalize alignOffset text 3 offset = o at hlt hbyte
    have hcut : text = text.take o ++ text[o] :: text.drop (o + 1) := by
      rw [← List.drop_eq_getElem_cons hlt, List.take_append_drop]
    rw [List.getD_eq_getElem?_getD, List.getElem?_eq_getElem hlt] at hbyte
    rw [hcut] at h
    rw [List.drop_eq_getElem_cons hlt]
    exact (h.cut hbyte).2
  · rw [List.drop_eq_nil_of_le (Nat.not_lt.mp hlt)]
    exact .nil

theorem collect_isText {newest : List Bytes} (h : TextLines newest) (maxBytes size : ℕ) :
    TextLines (collect maxBytes size newest) := by
  have hnil : TextLines [] := fun line hline => absurd hline List.not_mem_nil
  induction newest generalizing size with
  | nil => exact hnil
  | cons line older ih =>
    have hline : IsText line := h line List.mem_cons_self
    unfold collect
    split
    · split
      · dsimp only
        split
        · exact hnil.concat (drop_alignOffset_isText hline _)
        · exact hnil
      · exact hnil
    · intro l hl
      rcases List.mem_cons.mp hl with rfl | hl
      · exact hline
      · exact ih (fun l hl => h l (List.mem_cons_of_mem _ hl)) _ l hl

theorem getRecent_isText (h : TextLines buffer.lines) (maxBytes : ℕ) : IsText (buffer.getRecent maxBytes) := by
  unfold getRecent
  split
  · exact .nil
  · refine IsText.flatten fun text htext => ?_
    refine collect_isText (fun line hline => h line (List.mem_reverse.mp hline)) maxBytes 0 text ?_
    exact List.mem_reverse.mp htext

/-- What is collected: all lines, or those behind the one that is too much, and the end of this one when it
is the newest. -/
theorem collect_loses (maxBytes size : ℕ) (newest : List Bytes) :
    collect maxBytes size newest = newest ∨ ∃ newer cut older kept, newest = newer ++ cut :: older ∧
      maxBytes < size + newer.flatten.length + cut.length ∧
      (collect maxBytes size newest).reverse.flatten = kept ++ newer.reverse.flatten ∧ kept <:+ cut ∧
      (size = 0 → newer = [] → maxBytes ≤ kept.length + 3) := by
  induction newest generalizing size with
  | nil => exact .inl rfl
  | cons line older ih =>
    unfold collect
    split
    · next htooMuch =>
      refine .inr ⟨[], line, older, ?_⟩
      split
      · next hlong =>
        have haligned := (alignOffset_spec line 3 (line.length - maxBytes)).1
        dsimp only
        split
        · refine ⟨line.drop (alignOffset line 3 (line.length - maxBytes)), rfl, htooMuch, by simp,
            List.drop_suffix _ _, fun _ _ => ?_⟩
          rw [List.length_drop]
          omega
        · refine ⟨[], rfl, htooMuch, rfl, List.nil_suffix, fun _ _ => ?_⟩
          rw [List.length_nil]
          omega
      · next hshort =>
        refine ⟨[], rfl, htooMuch, rfl, List.nil_suffix, fun hsize _ => ?_⟩
        exact absurd ⟨hsize, by omega⟩ hshort
    · rcases ih (size + line.length) with hall | ⟨newer, cut, oldest, kept, hlines, hlimit, hflatten, hkept, -⟩
      · exact .inl (congrArg (line :: ·) hall)
      · refine .inr ⟨line :: newer, cut, oldest, kept, by rw [hlines]; rfl, ?_, ?_, hkept,
          fun _ h => absurd h (List.cons_ne_nil _ _)⟩
        · rw [List.flatten_cons, List.length_append]
          omega
        · rw [List.reverse_cons, List.flatten_append, hflatten, List.reverse_cons, List.flatten_append,
            List.append_assoc]

theorem Lines.ne_nil {incomplete : Bool} (h : Lines incomplete lines) : ∀ line ∈ lines, line ≠ [] := by
  obtain ⟨finished, hfinished, hlines⟩ := h
  have hterminated : ∀ line ∈ finished, line ≠ [] := by
    rintro line hline rfl
    exact absurd (hfinished [] hline).getLast? (by decide)
  cases incomplete with
  | false => exact hlines ▸ hterminated
  | true =>
    obtain ⟨last, hlast, rfl⟩ := hlines
    intro line hline
    rcases List.mem_append.mp hline with hline | hline
    · exact hterminated line hline
    · exact List.mem_singleton.mp hline ▸ hlast.2

/-- What `get_recent(n)` returns of a buffer of texts. Of the lines behind the one that the limit cuts
nothing is lost, and of the newest line no more than three bytes that would fit. -/
structure Recent (buffer : OutputBuffer) (n : ℕ) (recent : Bytes) : Prop where
  text : isUtf8 recent = true
  length : recent.length ≤ n
  suffix : recent <:+ buffer.contents
  loses : recent = buffer.contents ∨ ∃ older cut newer kept, buffer.lines = older ++ cut :: newer ∧
    n < cut.length + newer.flatten.length ∧ recent = kept ++ newer.flatten ∧ kept <:+ cut ∧
    (newer = [] → n ≤ kept.length + 3)

theorem getRecent_recent (h : Sound buffer) (htexts : TextLines buffer.lines)
    (n : ℕ) : Recent buffer n (buffer.getRecent n) := by
  refine ⟨(isUtf8_iff _).mpr (getRecent_isText htexts n), length_getRecent buffer n, getRecent_suffix buffer n, ?_⟩
  by_cases hn : n = 0
  · subst hn
    rw [getRecent, if_pos rfl]
    rcases List.eq_nil_or_concat buffer.lines with hlines | ⟨older, cut, hlines⟩
    · rw [contents, hlines]
      exact .inl rfl
    · rw [List.concat_eq_append] at hlines
      have hcut : cut ≠ [] := h.lines.ne_nil cut (by rw [hlines]; simp)
      exact .inr ⟨older, cut, [], [], hlines, Nat.lt_add_right _ (List.length_pos_of_ne_nil hcut), rfl,
        List.nil_suffix, fun _ => Nat.zero_le _⟩
  · rw [getRecent, if_neg hn]
    rcases collect_loses n 0 buffer.lines.reverse with
      hall | ⟨newer, cut, older, kept, hlines, hlimit, hflatten, hkept, hfew⟩
    · rw [hall, List.reverse_reverse]
      exact .inl rfl
    · refine .inr ⟨older.reverse, cut, newer.reverse, kept, ?_, ?_, hflatten, hkept, fun hnil => ?_⟩
      · rw [← List.reverse_reverse buffer.lines, hlines]
        simp
      · rw [(List.reverse_perm newer).flatten.length_eq]
        omega
      · exact hfew rfl (List.reverse_eq_nil_iff.mp hnil)

/-- **Terminal text is not torn.** The chunks of any reads come to the reads, with three bytes at most held
back at any time. Those of a text are texts, and of a buffer of texts what is shown again is one. -/
theorem text_not_torn (reads : List Bytes) :
    (Utf8ChunkAccumulator.outputs reads).flatten = reads.flatten ∧
    (∀ before, before <+: reads → (Utf8ChunkAccumulator.pushAll ⟨[]⟩ before).2.remainder.length ≤ 3) ∧
    (isUtf8 reads.flatten = true →
      ∀ chunk ∈ Utf8ChunkAccumulator.outputs reads, isUtf8 chunk = true) ∧
    ∀ texts : List Bytes, (∀ text ∈ texts, isUtf8 text = true) →
      ∀ n, Recent (new.appendAll texts) n ((new.appendAll texts).getRecent n) := by
  refine ⟨Utf8ChunkAccumulator.flatten_outputs reads, fun before _ =>
    Utf8ChunkAccumulator.length_remainder_pushAll _ before (Nat.zero_le _), fun htext chunk hchunk => ?_,
    fun texts htexts n => ?_⟩
  · exact (isUtf8_iff _).mpr (Utf8ChunkAccumulator.outputs_isText ((isUtf8_iff _).mp htext) chunk hchunk)
  · refine getRecent_recent (appendAll_sound texts) ?_ n
    refine appendAll_textLines (fun line hline => absurd hline List.not_mem_nil) fun text htext => ?_
    exact (isUtf8_iff _).mp (htexts text htext)

end OutputBuffer

end RustDesk.Terminal
