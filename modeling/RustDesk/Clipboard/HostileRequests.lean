import RustDesk.Clipboard.FileContents
import RustDesk.Clipboard.FileList

/-!
# Requests and lists of a hostile peer

References: `libs/clipboard/src/platform/unix/serv_files.rs` (`read_file_contents`, `serve_file_contents`) and
`filetype.rs` (`parse_file_descriptor`, `parse_file_descriptors`).

A request is served as before, with its sums and its buffers noted; a list is parsed as before, with every access
and every product checked. The length of a request is a signed number cast to `u64`, so that the sum with the offset
wraps for a negative one; a time of 1601 is scaled by 100 without a check.
-/

namespace RustDesk.Clipboard

open MayPanic SignedHalves LittleEndian

/-! ## What a request takes -/

/-- A sum of two `u64`, or a buffer for the contents of a file. -/
inductive Effect
  | sum (a b : ℕ)
  | buffer (size : ℕ)
deriving DecidableEq

namespace ClipFiles

section Noted

variable (disk : Path → List UInt8) (io : FileIo) (connId : ℤ)

/-- `serve_file_contents`, with what it does until it returns. -/
def serveFileContentsNoted (s : ClipFiles) :
    FileContentsRequest → List Effect × MayPanic (Except CliprdrError ClipboardFile × ClipFiles)
  | .size streamId fileIdx =>
    match s.fileList[fileIdx]? with
    | none => ([], .ok (.error (.invalidRequest s!"invalid file index {fileIdx} requested from conn: {connId}"), s))
    | some file =>
      ([], .ok (s.hotReload io fileIdx (.fileContentsResponse ⟨1, streamId, leBytes 8 file.size.toNat⟩)))
  | .range streamId fileIdx offset length =>
    match s.fileList[fileIdx]? with
    | none => ([], .ok (.error (.invalidRequest s!"invalid file index {fileIdx} requested from conn: {connId}"), s))
    | some file =>
      if offset > file.size.toNat then
        ([], .ok (.error (.invalidRequest s!"invalid reading offset requested from conn: {connId}"), s))
      else
        let readSize :=
          if (offset + length) % 2 ^ 64 > file.size.toNat then file.size.toNat - offset else length
        let taken := [.sum offset length, .buffer readSize]
        match allocate readSize with
        | .error e => (taken, .error e)
        | .ok () =>
          match file.readExactAt disk io readSize offset with
          | (.error e, file) => (taken, .ok (.error e, s.setFile fileIdx file))
          | (.ok buf, file) =>
            -- `read_exact_at` has put its offset behind the bytes
            (taken ++ [.sum offset readSize],
              .ok ((s.setFile fileIdx file).hotReload io fileIdx (.fileContentsResponse ⟨1, streamId, buf⟩)))

/-- `read_file_contents`, with what it does until it returns. -/
def readFileContentsNoted (s : ClipFiles) (request : CliprdrFileContentsRequest) :
    List Effect × MayPanic (List (Except CliprdrError ClipboardFile) × ClipFiles) :=
  match request.decode with
  | none =>
    let dwFlags := request.dwFlags
    ([], .ok ([.error (.invalidRequest s!"got invalid FileContentsRequest, dw_flats: {dwFlags}")], s))
  | some fcr =>
    let (effects, served) := s.serveFileContentsNoted disk io connId fcr
    (effects, served.bind fun (res, t) => .ok ((s.getFilesForAudit io fcr).toList.map .ok ++ [res], t))

variable {disk io connId}

/-- The notes change nothing. -/
theorem serveFileContentsNoted_snd (s : ClipFiles) (fcr : FileContentsRequest) :
    (s.serveFileContentsNoted disk io connId fcr).2 = s.serveFileContents disk io connId fcr := by
  cases fcr with
  | size streamId fileIdx =>
    cases hfile : s.fileList[fileIdx]? <;> simp only [serveFileContentsNoted, serveFileContents, hfile]
  | range streamId fileIdx offset length =>
    cases hfile : s.fileList[fileIdx]? with
    | none => simp only [serveFileContentsNoted, serveFileContents, hfile]
    | some file =>
      simp only [serveFileContentsNoted, serveFileContents, hfile]
      by_cases hoffset : offset > file.size.toNat
      · rw [if_pos hoffset, if_pos hoffset]
      · rw [if_neg hoffset, if_neg hoffset]
        generalize (if (offset + length) % 2 ^ 64 > file.size.toNat then file.size.toNat - offset else length) =
          readSize
        cases allocate readSize with
        | error e => rfl
        | ok u =>
          dsimp only [Except.bind]
          generalize file.readExactAt disk io readSize offset = read
          obtain ⟨res, file'⟩ := read
          cases res <;> rfl

theorem readFileContentsNoted_snd (s : ClipFiles) (request : CliprdrFileContentsRequest) :
    (s.readFileContentsNoted disk io connId request).2 = s.readFileContents disk io connId request := by
  unfold readFileContentsNoted readFileContents
  cases request.decode with
  | none => rfl
  | some fcr =>
    dsimp only
    rw [serveFileContentsNoted_snd]

end Noted

/-- The last answer is an error, or tells of the file that the request names: some of its bytes, or its size. Before
it there is what is kept for the audit. -/
def AnsweredFrom (disk : Path → List UInt8) (s : ClipFiles) (request : CliprdrFileContentsRequest)
    (answers : List (Except CliprdrError ClipboardFile)) : Prop :=
  ∃ audit answer, answers = audit ++ [answer] ∧ (∀ a ∈ audit, ∃ files, a = .ok (.files files)) ∧
    ((∃ e, answer = .error e) ∨
      ∃ file data, s.fileList[toU64 request.listIndex]? = some file ∧
        answer = .ok (.fileContentsResponse ⟨1, request.streamId, data⟩) ∧
        (request.dwFlags = 1 ∧ data = leBytes 8 file.size.toNat ∨ request.dwFlags = 2 ∧ data <:+: disk file.path))

/-- A request does no harm: no sum overflows, no buffer is larger than the file that it names, and it is answered
from that file or with an error. -/
structure Harmless (disk : Path → List UInt8) (io : FileIo) (connId : ℤ) (s : ClipFiles)
    (request : CliprdrFileContentsRequest) : Prop where
  sums : ∀ a b, .sum a b ∈ (s.readFileContentsNoted disk io connId request).1 → a + b < 2 ^ 64
  buffers : ∀ n, .buffer n ∈ (s.readFileContentsNoted disk io connId request).1 →
    ∃ file, s.fileList[toU64 request.listIndex]? = some file ∧ n ≤ file.size.toNat
  answered : ∃ answers t, s.readFileContents disk io connId request = .ok (answers, t) ∧
    s.AnsweredFrom disk request answers

/-- The range of a request, if it starts in the file: it ends below 2 ^ 64, and what is read of it fits in a
buffer. -/
def RangeFits (s : ClipFiles) (request : CliprdrFileContentsRequest) : Prop :=
  request.dwFlags = 2 → ∀ file, s.fileList[toU64 request.listIndex]? = some file →
    join request.nPositionHigh request.nPositionLow ≤ file.size.toNat →
      join request.nPositionHigh request.nPositionLow + toU64 request.cbRequested < 2 ^ 64 ∧
        min (toU64 request.cbRequested) (file.size.toNat - join request.nPositionHigh request.nPositionLow) < 2 ^ 63

variable {disk : Path → List UInt8} {io : FileIo} {connId : ℤ} {s : ClipFiles} {streamId : ℤ}
  {fileIdx offset length readSize : ℕ} {file : LocalFile}

/-! ### A range -/

/-- Without a wrap, the part of the range that is in the file is read. -/
theorem readSize_eq_min (hoffset : offset ≤ file.size.toNat) (hsum : offset + length < 2 ^ 64) :
    (if (offset + length) % 2 ^ 64 > file.size.toNat then file.size.toNat - offset else length) =
      min length (file.size.toNat - offset) := by
  rw [Nat.mod_eq_of_lt hsum]
  split <;> omega

/-- A range that starts in the file takes its sum and its buffer, then at most the sum for the new offset. -/
theorem effects_range (hfile : s.fileList[fileIdx]? = some file) (hoffset : offset ≤ file.size.toNat)
    (hsize : (if (offset + length) % 2 ^ 64 > file.size.toNat then file.size.toNat - offset else length) = readSize) :
    (s.serveFileContentsNoted disk io connId (.range streamId fileIdx offset length)).1 =
        [.sum offset length, .buffer readSize] ∨
      (s.serveFileContentsNoted disk io connId (.range streamId fileIdx offset length)).1 =
        [.sum offset length, .buffer readSize, .sum offset readSize] := by
  simp only [serveFileContentsNoted, hfile]
  rw [if_neg (Nat.not_lt.mpr hoffset), hsize]
  cases allocate readSize with
  | error e => exact .inl rfl
  | ok u =>
    generalize file.readExactAt disk io readSize offset = read
    match read with
    | (.error e, file') => exact .inl rfl
    | (.ok buf, file') => exact .inr rfl

/-- Behind the end of the file, and without a file, a range takes nothing. -/
theorem effects_range_of_lt (h : ∀ file, s.fileList[fileIdx]? = some file → file.size.toNat < offset) :
    (s.serveFileContentsNoted disk io connId (.range streamId fileIdx offset length)).1 = [] ∧
      ∃ e, s.serveFileContents disk io connId (.range streamId fileIdx offset length) = .ok (.error e, s) := by
  cases hfile : s.fileList[fileIdx]? with
  | none => exact ⟨by simp only [serveFileContentsNoted, hfile], serveFileContents_range_of_none _ _ _ hfile⟩
  | some file =>
    have hlt := h file hfile
    refine ⟨?_, serveFileContents_range_of_lt _ _ hfile hlt⟩
    simp only [serveFileContentsNoted, hfile]
    rw [if_pos hlt]

/-- The answer that is made ready is given, or the next file cannot be opened. -/
theorem hotReload_fst (s : ClipFiles) (io : FileIo) (fileIdx : ℕ) (resp : ClipboardFile) :
    (∃ e, (s.hotReload io fileIdx resp).1 = .error e) ∨ (s.hotReload io fileIdx resp).1 = .ok resp := by
  unfold hotReload
  generalize loadNext io (s.fileList.drop (fileIdx + 1)) = res
  match res with
  | (.error e, rest) => exact .inl ⟨e, rfl⟩
  | (.ok (), rest) => exact .inr rfl

section

variable (hfile : s.fileList[fileIdx]? = some file) (hoffset : offset ≤ file.size.toNat)
  (hsize : (if (offset + length) % 2 ^ 64 > file.size.toNat then file.size.toNat - offset else length) = readSize)
include hfile hoffset hsize

/-- A range with a buffer is answered with bytes of its file, or with an error. -/
theorem served_range (hbuffer : readSize < 2 ^ 63) :
    ∃ res t, s.serveFileContents disk io connId (.range streamId fileIdx offset length) = .ok (res, t) ∧
      ((∃ e, res = .error e) ∨
        ∃ data, res = .ok (.fileContentsResponse ⟨1, streamId, data⟩) ∧ data <:+: disk file.path) := by
  have hallocate : allocate readSize = .ok () := if_pos hbuffer
  have hinfix (buf : List UInt8) :
      (file.readExactAt disk io readSize offset).1 = .ok buf → buf <:+: disk file.path := LocalFile.infix_of_readExactAt
  rw [serveFileContents_range hfile hoffset]
  dsimp only
  rw [hsize, hallocate]
  dsimp only [Except.bind]
  generalize file.readExactAt disk io readSize offset = read at hinfix
  match read with
  | (.error e, file') => exact ⟨_, _, rfl, .inl ⟨e, rfl⟩⟩
  | (.ok buf, file') =>
    rcases hotReload_fst (s.setFile fileIdx file') io fileIdx (.fileContentsResponse ⟨1, streamId, buf⟩) with
      ⟨e, he⟩ | hresp
    · exact ⟨_, _, rfl, .inl ⟨e, he⟩⟩
    · exact ⟨_, _, rfl, .inr ⟨buf, hresp, hinfix buf rfl⟩⟩

/-- A range without a buffer is not answered. -/
theorem not_served_range (hbuffer : 2 ^ 63 ≤ readSize) :
    s.serveFileContents disk io connId (.range streamId fileIdx offset length) = .error .panicked := by
  have hallocate : allocate readSize = .error .panicked := if_neg (Nat.not_lt.mpr hbuffer)
  rw [serveFileContents_range hfile hoffset]
  dsimp only
  rw [hsize, hallocate]
  rfl

end

/-! ### Any request -/

variable {request : CliprdrFileContentsRequest}

/-- What `serve_file_contents` answers is the last answer. -/
theorem readFileContents_of_served {fcr : FileContentsRequest} {res : Except CliprdrError ClipboardFile}
    {t : ClipFiles} (hdecode : request.decode = some fcr) (h : s.serveFileContents disk io connId fcr = .ok (res, t)) :
    ∃ audit, s.readFileContents disk io connId request = .ok (audit ++ [res], t) ∧
      ∀ a ∈ audit, ∃ files, a = .ok (.files files) := by
  unfold readFileContents
  rw [hdecode]
  dsimp only
  rw [h]
  refine ⟨_, rfl, fun a ha => ?_⟩
  obtain ⟨audit, haudit, rfl⟩ := List.mem_map.mp ha
  cases fcr with
  | size streamId fileIdx => cases haudit
  | range streamId fileIdx offset length =>
    rw [Option.mem_toList, getFilesForAudit] at haudit
    split at haudit
    · dsimp only at haudit
      split at haudit
      · cases haudit
      · exact ⟨_, congrArg _ (Option.some.inj haudit).symm⟩
    · cases haudit

theorem effects_of_decode {fcr : FileContentsRequest} (hdecode : request.decode = some fcr) :
    (s.readFileContentsNoted disk io connId request).1 = (s.serveFileContentsNoted disk io connId fcr).1 := by
  unfold readFileContentsNoted
  rw [hdecode]

/-- A request that takes nothing does no harm, once it is answered. -/
theorem harmless_of_effects_nil (heffects : (s.readFileContentsNoted disk io connId request).1 = [])
    (hanswered : ∃ answers t, s.readFileContents disk io connId request = .ok (answers, t) ∧
      s.AnsweredFrom disk request answers) : Harmless disk io connId s request := by
  refine ⟨fun a b hmem => ?_, fun n hmem => ?_, hanswered⟩
  · rw [heffects] at hmem
    cases hmem
  · rw [heffects] at hmem
    cases hmem

/-- The size of a file takes nothing. -/
theorem served_size (s : ClipFiles) (streamId : ℤ) (fileIdx : ℕ) :
    (s.serveFileContentsNoted disk io connId (.size streamId fileIdx)).1 = [] ∧
      ∃ res t, s.serveFileContents disk io connId (.size streamId fileIdx) = .ok (res, t) ∧
        ((∃ e, res = .error e) ∨ ∃ file, s.fileList[fileIdx]? = some file ∧
          res = .ok (.fileContentsResponse ⟨1, streamId, leBytes 8 file.size.toNat⟩)) := by
  cases hfile : s.fileList[fileIdx]? with
  | none =>
    simp only [serveFileContentsNoted, serveFileContents, hfile]
    exact ⟨trivial, _, _, rfl, .inl ⟨_, rfl⟩⟩
  | some file =>
    simp only [serveFileContentsNoted, serveFileContents, hfile]
    refine ⟨trivial, _, _, rfl, ?_⟩
    rcases hotReload_fst s io fileIdx (.fileContentsResponse ⟨1, streamId, leBytes 8 file.size.toNat⟩) with he | hresp
    · exact .inl he
    · exact .inr ⟨file, rfl, hresp⟩

/-- A request that is no range does no harm. -/
theorem harmless_of_not_range (h : request.dwFlags ≠ 2) : Harmless disk io connId s request := by
  by_cases hone : request.dwFlags = 1
  · have hdecode : request.decode = some (.size request.streamId (toU64 request.listIndex)) := by
      rw [CliprdrFileContentsRequest.decode, if_pos hone]
    obtain ⟨heffects, res, t, hserve, hres⟩ := @served_size disk io connId s request.streamId (toU64 request.listIndex)
    obtain ⟨audit, hread, haudit⟩ := readFileContents_of_served hdecode hserve
    refine harmless_of_effects_nil ((effects_of_decode hdecode).trans heffects) ⟨_, _, hread, audit, _, rfl, haudit, ?_⟩
    refine hres.imp id ?_
    rintro ⟨file, hfile, hresp⟩
    exact ⟨file, _, hfile, hresp, .inl ⟨hone, rfl⟩⟩
  · have hdecode : request.decode = none := by rw [CliprdrFileContentsRequest.decode, if_neg hone, if_neg h]
    refine harmless_of_effects_nil (by rw [readFileContentsNoted, hdecode]) ?_
    refine ⟨[_], s, by rw [readFileContents, hdecode], [], _, rfl, fun a ha => ?_, .inl ⟨_, rfl⟩⟩
    exact absurd ha List.not_mem_nil

/-- A range that starts behind its file takes nothing. -/
theorem harmless_of_behind
    (hdecode : request.decode = some (.range request.streamId (toU64 request.listIndex) offset length))
    (hbehind : ∀ file, s.fileList[toU64 request.listIndex]? = some file → file.size.toNat < offset) :
    Harmless disk io connId s request := by
  obtain ⟨hnone, e, hserve⟩ := @effects_range_of_lt disk io connId s request.streamId _ offset length hbehind
  rw [← effects_of_decode hdecode] at hnone
  obtain ⟨audit, hread, haudit⟩ := readFileContents_of_served hdecode hserve
  exact harmless_of_effects_nil hnone ⟨_, _, hread, audit, _, rfl, haudit, .inl ⟨e, rfl⟩⟩

/-- The sum of a range that starts in its file is taken whatever happens, and a buffer that is too large leaves the
request without an answer. -/
theorem Harmless.fits (h : Harmless disk io connId s request)
    (hdecode : request.decode = some (.range request.streamId (toU64 request.listIndex) offset length))
    (hfile : s.fileList[toU64 request.listIndex]? = some file) (hoffset : offset ≤ file.size.toNat) :
    offset + length < 2 ^ 64 ∧ min length (file.size.toNat - offset) < 2 ^ 63 := by
  have heffects := @effects_range disk io connId s request.streamId _ _ length _ _ hfile hoffset rfl
  rw [← effects_of_decode hdecode] at heffects
  have hsum : offset + length < 2 ^ 64 := h.sums _ _ (by rcases heffects with h | h <;> simp [h])
  refine ⟨hsum, ?_⟩
  by_contra hlarge
  have hpanic := @not_served_range disk io connId s request.streamId _ _ _ _ _ hfile hoffset
    (readSize_eq_min hoffset hsum) (Nat.not_lt.mp hlarge)
  obtain ⟨answers, t, hread, -⟩ := h.answered
  rw [readFileContents, hdecode] at hread
  dsimp only at hread
  rw [hpanic] at hread
  cases hread

/-- Where both fit, the buffer is no larger than the rest of the file, and its bytes are the answer. -/
theorem harmless_of_fits (htwo : request.dwFlags = 2)
    (hdecode : request.decode = some (.range request.streamId (toU64 request.listIndex) offset length))
    (hfile : s.fileList[toU64 request.listIndex]? = some file) (hoffset : offset ≤ file.size.toNat)
    (hsum : offset + length < 2 ^ 64) (hbuffer : min length (file.size.toNat - offset) < 2 ^ 63) :
    Harmless disk io connId s request := by
  have hsize := readSize_eq_min hoffset hsum
  have heffects := @effects_range disk io connId s request.streamId _ _ _ _ _ hfile hoffset hsize
  rw [← effects_of_decode hdecode] at heffects
  have hlt := file.size.toNat_lt
  refine ⟨fun a b hmem => ?_, fun n hmem => ?_, ?_⟩
  · rcases heffects with h | h <;> simp only [h, List.mem_cons, List.not_mem_nil, or_false] at hmem
    · rcases hmem with hmem | hmem
      · cases hmem
        exact hsum
      · cases hmem
    -- the sum for the new offset is the end of what was read
    · rcases hmem with hmem | hmem | hmem
      · cases hmem
        exact hsum
      · cases hmem
      · cases hmem
        omega
  · have hn : n = min length (file.size.toNat - offset) := by
      rcases heffects with h | h <;> simpa [h] using hmem
    exact ⟨file, hfile, by omega⟩
  · obtain ⟨res, t, hserve, hres⟩ := @served_range disk io connId s request.streamId _ _ _ _ _ hfile hoffset
      hsize hbuffer
    obtain ⟨audit, hread, haudit⟩ := readFileContents_of_served hdecode hserve
    refine ⟨_, _, hread, audit, _, rfl, haudit, hres.imp id ?_⟩
    rintro ⟨data, hdata, hinfix⟩
    exact ⟨file, data, hfile, hdata, .inr ⟨htwo, hinfix⟩⟩

/-- **A request does no harm just if its range fits.** -/
theorem harmless_iff_rangeFits : Harmless disk io connId s request ↔ RangeFits s request := by
  by_cases htwo : request.dwFlags = 2
  swap
  · exact iff_of_true (harmless_of_not_range htwo) fun h => absurd h htwo
  have hdecode : request.decode = some (.range request.streamId (toU64 request.listIndex)
      (join request.nPositionHigh request.nPositionLow) (toU64 request.cbRequested)) := by
    rw [CliprdrFileContentsRequest.decode, if_neg (by omega), if_pos htwo]
  constructor
  · exact fun h _ file hfile hle => h.fits hdecode hfile hle
  · intro hfits
    by_cases hbehind : ∀ file, s.fileList[toU64 request.listIndex]? = some file →
        file.size.toNat < join request.nPositionHigh request.nPositionLow
    · exact harmless_of_behind hdecode hbehind
    · push Not at hbehind
      obtain ⟨file, hfile, hoffset⟩ := hbehind
      obtain ⟨hsum, hbuffer⟩ := hfits htwo file hfile hoffset
      exact harmless_of_fits htwo hdecode hfile hoffset hsum hbuffer

end ClipFiles

/-! ## A list with every operation checked -/

/-- `get_u32_le` and its like, which panic behind the end. -/
def getLeChecked (k : ℕ) (bytes : List UInt8) : MayPanic (ℕ × List UInt8) :=
  if k ≤ bytes.length then .ok (getLe k bytes) else .error .indexOutOfRange

/-- A product of two `u64`. -/
def mulChecked (a b : ℕ) : MayPanic ℕ := if a * b < 2 ^ 64 then .ok (a * b) else .error .overflow

/-- A sum of two `u64`. -/
def addChecked (a b : ℕ) : MayPanic ℕ := if a + b < 2 ^ 64 then .ok (a + b) else .error .overflow

/-- `parse_file_descriptor`. -/
def parseFileDescriptorChecked (wide : WideString) (bytes : List UInt8) (connId : ℤ) :
    MayPanic (Except CliprdrError FileDescription × List UInt8) := do
  let (flags, bytes) ← getLeChecked 4 bytes
  let bytes ← sliceFrom bytes 32
  let (attributes, bytes) ← getLeChecked 4 bytes
  let bytes ← sliceFrom bytes 12
  let (perm, bytes) ← getLeChecked 4 bytes
  let (lastWriteTime, bytes) ← getLeChecked 8 bytes
  let (fileSizeHigh, bytes) ← getLeChecked 4 bytes
  let (fileSizeLow, bytes) ← getLeChecked 4 bytes
  let behind ← sliceFrom bytes 520
  let block ← sliceTo bytes 520
  match wide.decode block with
  | none => .ok (.error .conversionFailure, behind)
  | some wstr =>
    let fromUnix : Bool := flags &&& flagsFdUnixMode ≠ 0
    let validAttributes : Bool := flags &&& flagsFdAttributes ≠ 0
    if ! validAttributes then
      .ok (.error (.invalidRequest "file description must have valid attributes"), behind)
    else
      let directory : Bool := attributes &&& 0x10 ≠ 0
      let normal : Bool := attributes = 0x80
      let hidden : Bool := attributes &&& 0x02 ≠ 0
      let readonly : Bool := attributes &&& 0x01 ≠ 0
      let perm :=
        if fromUnix then .ofNat perm
        else if normal then permRwx
        else if readonly then permRead
        else if hidden then permSelfRo
        else if directory then permRwx
        else permRw
      let kind := if directory then FileType.directory else .file
      let size ← addChecked (fileSizeHigh <<< 32) fileSizeLow
      let validWriteTime : Bool := flags &&& flagsFdLastWrite ≠ 0
      let lastModified ←
        if validWriteTime ∧ ldapEpochDelta ≤ lastWriteTime then mulChecked (lastWriteTime - ldapEpochDelta) 100
        else .ok 0
      .ok (.ok {
        connId
        name := readName wstr
        kind
        atime := lastModified
        lastModified
        lastMetadataChanged := lastModified
        creationTime := lastModified
        size := .ofNat size
        perm }, behind)

/-- The loop of `parse_file_descriptors`. -/
def parseRecordsChecked (wide : WideString) (connId : ℤ) :
    ℕ → List UInt8 → MayPanic (Except CliprdrError (List FileDescription))
  | 0, _ => .ok (.ok [])
  | count + 1, data => do
    match ← parseFileDescriptorChecked wide data connId with
    | (.error e, _) => .ok (.error e)
    | (.ok desc, data) =>
      let descs ← parseRecordsChecked wide connId count data
      .ok (descs.map (desc :: ·))

/-- `parse_file_descriptors`. -/
def parseFileDescriptorsChecked (wide : WideString) (pdu : List UInt8) (connId : ℤ) :
    MayPanic (Except CliprdrError (List FileDescription)) :=
  if pdu.length < 4 then .ok (.error (.invalidRequest "file descriptor request with infficient length"))
  else do
    let (count, data) ← getLeChecked 4 pdu
    if data.length = 0 ∧ count = 0 then .ok (.ok [])
    else
      let length ← mulChecked 592 count
      if data.length ≠ length then
        .ok (.error (.invalidRequest "file descriptor request with invalid length"))
      else parseRecordsChecked wide connId count data

/-! ## Times that overflow -/

/-- The fields of a record that decide how it is taken, by their places. -/
def recordFlags (record : List UInt8) : ℕ := ofLeBytes (record.take 4)
def recordTime (record : List UInt8) : ℕ := ofLeBytes ((record.drop 56).take 8)
def recordName (record : List UInt8) : List UInt8 := (record.drop 72).take 520

/-- A record is not refused: its name can be read, and its attributes are valid. -/
def Accepted (wide : WideString) (record : List UInt8) : Prop :=
  (wide.decode (recordName record)).isSome ∧ recordFlags record &&& flagsFdAttributes ≠ 0

/-- The time of a record counts nanoseconds below 2 ^ 64. -/
def TimeFits (record : List UInt8) : Prop :=
  recordFlags record &&& flagsFdLastWrite ≠ 0 → ldapEpochDelta ≤ recordTime record →
    (recordTime record - ldapEpochDelta) * 100 < 2 ^ 64

/-- A record of some. -/
def recordAt (data : List UInt8) (i : ℕ) : List UInt8 := data.drop (592 * i)

/-- Every record up to the first that is refused has a time that fits. -/
def TimesFit (wide : WideString) (count : ℕ) (data : List UInt8) : Prop :=
  ∀ i < count, (∀ j ≤ i, Accepted wide (recordAt data j)) → TimeFits (recordAt data i)

/-- The records of a list whose length is that of its records. -/
def ListFits (wide : WideString) (pdu : List UInt8) : Prop :=
  4 ≤ pdu.length → pdu.length - 4 = 592 * ofLeBytes (pdu.take 4) →
    TimesFit wide (ofLeBytes (pdu.take 4)) (pdu.drop 4)

section Times

variable {wide : WideString} {bytes data : List UInt8} {connId : ℤ} {count : ℕ} {α : Type}

theorem getLeChecked_bind {k : ℕ} (h : k ≤ bytes.length) (f : ℕ × List UInt8 → MayPanic α) :
    (getLeChecked k bytes >>= f) = f (ofLeBytes (bytes.take k), bytes.drop k) := by
  rw [getLeChecked, if_pos h]
  rfl

theorem sliceFrom_bind {n : ℕ} (h : n ≤ bytes.length) (f : List UInt8 → MayPanic α) :
    (sliceFrom bytes n >>= f) = f (bytes.drop n) := by
  rw [sliceFrom, if_pos h]
  rfl

theorem sliceTo_bind {n : ℕ} (h : n ≤ bytes.length) (f : List UInt8 → MayPanic α) :
    (sliceTo bytes n >>= f) = f (bytes.take n) := by
  rw [sliceTo, if_pos h]
  rfl

theorem addChecked_bind {a b : ℕ} (h : a + b < 2 ^ 64) (f : ℕ → MayPanic α) : (addChecked a b >>= f) = f (a + b) := by
  rw [addChecked, if_pos h]
  rfl

/-- A number of so many bytes. -/
theorem ofLeBytes_lt (bytes : List UInt8) : ofLeBytes bytes < 256 ^ bytes.length := by
  induction bytes with
  | nil => exact Nat.one_pos
  | cons b bytes ih =>
    have hb := b.toNat_lt
    rw [ofLeBytes, List.length_cons, Nat.pow_succ]
    omega

theorem ofLeBytes_take_lt (k : ℕ) (bytes : List UInt8) : ofLeBytes (bytes.take k) < 256 ^ k :=
  (ofLeBytes_lt _).trans_le (Nat.pow_le_pow_right (by decide) (List.length_take_le _ _))

/-- The two halves of a size make a `u64`. -/
theorem size_lt (high low : List UInt8) : ofLeBytes (high.take 4) <<< 32 + ofLeBytes (low.take 4) < 2 ^ 64 := by
  have hhigh := ofLeBytes_take_lt 4 high
  have hlow := ofLeBytes_take_lt 4 low
  rw [Nat.shiftLeft_eq]
  omega

/-- **A record in range is parsed, unless its time overflows.** -/
theorem parseFileDescriptorChecked_cases (hlen : 592 ≤ bytes.length) :
    parseFileDescriptorChecked wide bytes connId = .ok (parseFileDescriptor wide bytes connId) ∧
        (Accepted wide bytes → TimeFits bytes) ∨
      parseFileDescriptorChecked wide bytes connId = .error .overflow ∧ Accepted wide bytes ∧ ¬ TimeFits bytes := by
  have hdrop (n k : ℕ) (h : n + k ≤ 592) : k ≤ (bytes.drop n).length := by
    rw [List.length_drop]
    omega
  unfold parseFileDescriptorChecked
  -- no access is out of range
  rw [getLeChecked_bind (by omega)]
  dsimp only
  rw [sliceFrom_bind (hdrop _ _ (by decide)), List.drop_drop, getLeChecked_bind (hdrop _ _ (by decide))]
  rw [List.drop_drop, sliceFrom_bind (hdrop _ _ (by decide)), List.drop_drop,
    getLeChecked_bind (hdrop _ _ (by decide))]
  rw [List.drop_drop, getLeChecked_bind (hdrop _ _ (by decide))]
  rw [List.drop_drop, getLeChecked_bind (hdrop _ _ (by decide))]
  rw [List.drop_drop, getLeChecked_bind (hdrop _ _ (by decide))]
  rw [List.drop_drop, sliceFrom_bind (hdrop _ _ (by decide)), List.drop_drop, sliceTo_bind (hdrop _ _ (by decide))]
  unfold parseFileDescriptor getLe Accepted TimeFits recordFlags recordTime recordName
  dsimp only
  simp only [List.drop_drop, Nat.reduceAdd]
  cases hdecode : wide.decode ((bytes.drop 72).take 520) with
  | none => exact .inl ⟨rfl, fun h => absurd h.1 Bool.false_ne_true⟩
  | some wstr =>
    dsimp only
    by_cases hvalid : ofLeBytes (bytes.take 4) &&& flagsFdAttributes = 0
    · have hrefused : (!decide (ofLeBytes (bytes.take 4) &&& flagsFdAttributes ≠ 0)) = true := by simp [hvalid]
      rw [if_pos hrefused, if_pos hrefused]
      exact .inl ⟨rfl, fun h => absurd hvalid h.2⟩
    · have haccepted : ¬ (!decide (ofLeBytes (bytes.take 4) &&& flagsFdAttributes ≠ 0)) = true := by simp [hvalid]
      rw [if_neg haccepted, if_neg haccepted, addChecked_bind (size_lt _ _)]
      by_cases htimed : decide (ofLeBytes (bytes.take 4) &&& flagsFdLastWrite ≠ 0) = true ∧
          ldapEpochDelta ≤ ofLeBytes ((bytes.drop 56).take 8)
      · rw [if_pos htimed, if_pos htimed, mulChecked]
        by_cases hfits : (ofLeBytes ((bytes.drop 56).take 8) - ldapEpochDelta) * 100 < 2 ^ 64
        · rw [if_pos hfits, Nat.mod_eq_of_lt hfits]
          exact .inl ⟨rfl, fun _ _ _ => hfits⟩
        · rw [if_neg hfits]
          exact .inr ⟨rfl, ⟨rfl, hvalid⟩, fun h => hfits (h (of_decide_eq_true htimed.1) htimed.2)⟩
      · rw [if_neg htimed, if_neg htimed]
        exact .inl ⟨rfl, fun _ hwrite hdelta => absurd ⟨decide_eq_true hwrite, hdelta⟩ htimed⟩

/-- A record is parsed just if it is not refused, and the next one is behind it. -/
theorem parseFileDescriptor_cases (wide : WideString) (bytes : List UInt8) (connId : ℤ) :
    (∃ desc, parseFileDescriptor wide bytes connId = (.ok desc, bytes.drop 592) ∧ Accepted wide bytes) ∨
      ∃ e, parseFileDescriptor wide bytes connId = (.error e, bytes.drop 592) ∧ ¬ Accepted wide bytes := by
  unfold parseFileDescriptor getLe Accepted recordFlags recordName
  simp only [List.drop_drop, Nat.reduceAdd]
  cases hdecode : wide.decode ((bytes.drop 72).take 520) with
  | none => exact .inr ⟨_, rfl, nofun⟩
  | some wstr =>
    dsimp only
    by_cases hvalid : ofLeBytes (bytes.take 4) &&& flagsFdAttributes = 0
    · have hrefused : (!decide (ofLeBytes (bytes.take 4) &&& flagsFdAttributes ≠ 0)) = true := by simp [hvalid]
      rw [if_pos hrefused]
      exact .inr ⟨_, rfl, fun h => h.2 hvalid⟩
    · have haccepted : ¬ (!decide (ofLeBytes (bytes.take 4) &&& flagsFdAttributes ≠ 0)) = true := by simp [hvalid]
      rw [if_neg haccepted]
      exact .inl ⟨_, rfl, rfl, hvalid⟩

theorem timesFit_succ : TimesFit wide (count + 1) data ↔
      (Accepted wide data → TimeFits data ∧ TimesFit wide count (data.drop 592)) := by
  have hfirst : recordAt data 0 = data := rfl
  have hnext (i : ℕ) : recordAt data (i + 1) = recordAt (data.drop 592) i := by
    rw [recordAt, recordAt, List.drop_drop]
    congr 1
    omega
  constructor
  · intro h haccepted
    refine ⟨h 0 (Nat.succ_pos _) fun j hj => ?_, fun i hi hall => ?_⟩
    · obtain rfl := Nat.le_zero.mp hj
      exact haccepted
    · rw [← hnext]
      refine h (i + 1) (Nat.succ_lt_succ hi) fun j hj => ?_
      cases j with
      | zero => exact haccepted
      | succ j =>
        rw [hnext]
        exact hall j (Nat.le_of_succ_le_succ hj)
  · intro h i hi hall
    obtain ⟨hfits, hrest⟩ := h (hall 0 (Nat.zero_le _))
    cases i with
    | zero => exact hfits
    | succ i =>
      rw [hnext]
      refine hrest i (Nat.lt_of_succ_lt_succ hi) fun j hj => ?_
      rw [← hnext]
      exact hall (j + 1) (Nat.succ_le_succ hj)

/-- The records are parsed, unless a time overflows before one is refused. -/
theorem parseRecordsChecked_cases (hlen : 592 * count ≤ data.length) :
    parseRecordsChecked wide connId count data = .ok (parseRecords wide connId count data) ∧
        TimesFit wide count data ∨
      parseRecordsChecked wide connId count data = .error .overflow ∧ ¬ TimesFit wide count data := by
  induction count generalizing data with
  | zero => exact .inl ⟨rfl, nofun⟩
  | succ count ih =>
    rw [parseRecordsChecked, parseRecords, timesFit_succ]
    rcases @parseFileDescriptorChecked_cases wide data connId (by omega) with
      ⟨hchecked, hfits⟩ | ⟨hchecked, haccepted, hfits⟩
    · rw [hchecked]
      rcases parseFileDescriptor_cases wide data connId with ⟨desc, hparse, haccepted⟩ | ⟨e, hparse, hrefused⟩
      · rw [hparse]
        dsimp only [bind, Except.bind]
        have hbehind : 592 * count ≤ (data.drop 592).length := by
          rw [List.length_drop]
          omega
        rcases ih hbehind with ⟨hrest, htimes⟩ | ⟨hrest, htimes⟩
        · rw [hrest]
          exact .inl ⟨rfl, fun _ => ⟨hfits haccepted, htimes⟩⟩
        · rw [hrest]
          exact .inr ⟨rfl, fun h => htimes (h haccepted).2⟩
      · rw [hparse]
        exact .inl ⟨rfl, fun h => absurd h hrefused⟩
    · rw [hchecked]
      exact .inr ⟨rfl, fun h => hfits (h haccepted).1⟩

/-- **A list is parsed without a fault just if its times fit**, and as in the release build. -/
theorem parseFileDescriptorsChecked_eq_iff (wide : WideString) (pdu : List UInt8) (connId : ℤ) :
    parseFileDescriptorsChecked wide pdu connId = .ok (parseFileDescriptors wide pdu connId) ↔ ListFits wide pdu := by
  unfold parseFileDescriptorsChecked parseFileDescriptors ListFits
  by_cases hshort : pdu.length < 4
  · rw [if_pos hshort, if_pos hshort]
    exact iff_of_true rfl fun h => absurd h (Nat.not_le.mpr hshort)
  · have hlong : 4 ≤ pdu.length := Nat.not_lt.mp hshort
    have hcount := ofLeBytes_take_lt 4 pdu
    rw [if_neg hshort, if_neg hshort, getLeChecked_bind hlong, getLe]
    dsimp only
    generalize hn : ofLeBytes (pdu.take 4) = count at hcount
    by_cases hempty : (pdu.drop 4).length = 0 ∧ count = 0
    · rw [if_pos hempty, if_pos hempty, hempty.2]
      exact iff_of_true rfl fun _ _ i hi => absurd hi (Nat.not_lt_zero i)
    · have hmul : 592 * count < 2 ^ 64 := by omega
      rw [if_neg hempty, if_neg hempty, mulChecked, if_pos hmul]
      dsimp only [bind, Except.bind]
      by_cases hlength : (pdu.drop 4).length = 592 * count
      · rw [if_neg (not_not.mpr hlength), if_neg (not_not.mpr hlength)]
        rw [List.length_drop] at hlength
        rcases @parseRecordsChecked_cases wide (pdu.drop 4) connId count (by rw [List.length_drop, hlength]) with
          ⟨hchecked, htimes⟩ | ⟨hchecked, htimes⟩
        · exact iff_of_true hchecked fun _ _ => htimes
        · refine iff_of_false (fun h => ?_) fun h => htimes (h hlong hlength)
          rw [hchecked] at h
          cases h
      · rw [if_pos hlength, if_pos hlength]
        rw [List.length_drop] at hlength
        exact iff_of_true rfl fun _ h => absurd h hlength

end Times

/-- **What a peer sends does no harm exactly where its ranges and its times fit in 64 bits.** -/
theorem hostile_requests_harmless_iff (disk : Path → List UInt8) (wide : WideString) (connId : ℤ) :
    (∀ io (s : ClipFiles) request, s.Harmless disk io connId request ↔ s.RangeFits request) ∧
      ∀ pdu, parseFileDescriptorsChecked wide pdu connId = .ok (parseFileDescriptors wide pdu connId) ↔
        ListFits wide pdu :=
  ⟨fun _ _ _ => ClipFiles.harmless_iff_rangeFits, fun pdu => parseFileDescriptorsChecked_eq_iff wide pdu connId⟩

/-- A list of one file, with the last of all times. -/
def lateList : List UInt8 :=
  leBytes 4 1 ++ (leBytes 4 (flagsFdAttributes ||| flagsFdLastWrite) ++ (List.replicate 52 0 ++
    (leBytes 8 18446744073709551615 ++ List.replicate 528 0)))

/-- A length of -1 behind the first byte of a file of five, and the last of all times. -/
theorem length_wraps_and_time_overflows :
    ¬ (ClipFiles.oneFile 5).Harmless (fun _ => [1, 2, 3, 4, 5]) ClipFiles.allOk 7 (readRequest 11 0 1 0xffffffff) ∧
      parseFileDescriptorsChecked utf16 lateList 7 = .error .overflow := by
  refine ⟨fun h => ?_, by decide +kernel⟩
  obtain ⟨answers, t, hanswers, -⟩ := h.answered
  have hpanic : (ClipFiles.oneFile 5).readFileContents (fun _ => [1, 2, 3, 4, 5]) ClipFiles.allOk 7
      (readRequest 11 0 1 0xffffffff) =
      .error .panicked := rfl
  rw [hpanic] at hanswers
  cases hanswers

end RustDesk.Clipboard
