import Mathlib.Data.UInt
import RustDesk.Clipboard.LocalFile
import RustDesk.Common.Checked
import RustDesk.Common.Run
import RustDesk.Common.SignedHalves

/-!
# Reading the files of a remote clipboard

References: `libs/clipboard/src/platform/unix/fuse/cs.rs` (`read_node`), `src/clipboard_file.rs` (`clip_2_msg`,
`msg_2_clip`) and `libs/clipboard/src/platform/unix/serv_files.rs` (`read_file_contents`, `serve_file_contents`,
`get_files_for_audit`).

The FUSE side asks for a range of a file, with an offset of 64 bits in two signed halves and a signed size. The
other side keeps a reader for each file. The arithmetic is that of the release build, which wraps.
-/

namespace RustDesk.Clipboard

open MayPanic SignedHalves

/-! ## Messages -/

/-- `CliprdrFileContentsRequest`, whose numbers are `int32`. The variant of `ClipboardFile` has the same fields. -/
structure CliprdrFileContentsRequest where
  streamId : ℤ
  listIndex : ℤ
  dwFlags : ℤ
  nPositionLow : ℤ
  nPositionHigh : ℤ
  cbRequested : ℤ
  haveClipDataId : Bool
  clipDataId : ℤ
deriving DecidableEq

/-- `CliprdrFileContentsResponse`. -/
structure CliprdrFileContentsResponse where
  msgFlags : ℤ
  streamId : ℤ
  requestedData : List UInt8
deriving DecidableEq

/-- `ClipboardFile`, the variants for file contents. -/
inductive ClipboardFile
  | fileContentsRequest (request : CliprdrFileContentsRequest)
  | fileContentsResponse (response : CliprdrFileContentsResponse)
  | files (files : List (Path × UInt64))
deriving DecidableEq

/-- `Cliprdr`, by its union. -/
inductive Cliprdr
  | fileContentsRequest (request : CliprdrFileContentsRequest)
  | fileContentsResponse (response : CliprdrFileContentsResponse)
  | files (files : List (Path × UInt64))
deriving DecidableEq

/-- `clip_2_msg`. The size of a file that says 0 is looked up. -/
def clip2Msg (size : Path → Option UInt64) : ClipboardFile → Cliprdr
  | .fileContentsRequest request => .fileContentsRequest request
  | .fileContentsResponse response => .fileContentsResponse response
  | .files files => .files <| files.filterMap fun (f, s) => if s = 0 then (size f).map (f, ·) else some (f, s)

/-- `msg_2_clip`. -/
def msg2Clip : Cliprdr → Option ClipboardFile
  | .fileContentsRequest request => some (.fileContentsRequest request)
  | .fileContentsResponse response => some (.fileContentsResponse response)
  | .files _ => none

/-! ## The side that reads -/

/-- The request of `read_node`, for the node with this index. -/
def readRequest (streamId : ℤ) (index : ℕ) (offset : ℤ) (size : UInt32) : CliprdrFileContentsRequest where
  streamId
  listIndex := toI32 index
  dwFlags := 2
  nPositionLow := toI32 (offset % 2 ^ 32)
  nPositionHigh := toI32 (offset / 2 ^ 32)
  cbRequested := toI32 size.toNat
  haveClipDataId := false
  clipDataId := 0

/-- `READ_RETRY`. -/
def readRetry : ℕ := 3

/-- The loop of `read_node` over the replies that come, after so many retries. -/
def awaitReply (streamId : ℤ) (retryTimes : ℕ) : List ClipboardFile → Except String (List UInt8)
  | [] => .error "timed out"
  | .fileContentsResponse response :: replies =>
    if response.streamId ≠ streamId then awaitReply streamId retryTimes replies
    else if response.msgFlags % 2 = 0 then
      if retryTimes + 1 > readRetry then .error "failure request"
      else awaitReply streamId (retryTimes + 1) replies
    else .ok response.requestedData
  | _ :: _ => .error "invalid reply"

/-! ## The side that serves -/

/-- `FileContentsRequest`. -/
inductive FileContentsRequest
  | size (streamId : ℤ) (fileIdx : ℕ)
  | range (streamId : ℤ) (fileIdx offset length : ℕ)
deriving DecidableEq

/-- What `read_file_contents` takes a request for. -/
def CliprdrFileContentsRequest.decode (request : CliprdrFileContentsRequest) : Option FileContentsRequest :=
  if request.dwFlags = 1 then some (.size request.streamId (toU64 request.listIndex))
  else if request.dwFlags = 2 then
    some (.range request.streamId (toU64 request.listIndex)
      (join request.nPositionHigh request.nPositionLow) (toU64 request.cbRequested))
  else none

/-- `ClipFiles`, what is read for a request. -/
structure ClipFiles where
  fileList : List LocalFile
  firstFileIndex : ℕ
deriving DecidableEq

/-- `vec![0u8; n]`, which cannot have more than `isize::MAX` bytes. -/
def allocate (n : ℕ) : MayPanic Unit := if n < 2 ^ 63 then .ok () else .error .panicked

/-- The next file is opened, if it is not. -/
def loadNext (io : FileIo) : List LocalFile → Except CliprdrError Unit × List LocalFile
  | [] => (.ok (), [])
  | f :: fs =>
    if f.isDir then
      let (res, fs) := loadNext io fs
      (res, f :: fs)
    else
      let (res, f) := f.loadHandle io
      (res, f :: fs)

namespace ClipFiles

variable (disk : Path → List UInt8) (io : FileIo) (connId : ℤ)

/-- `get_files_for_audit`. -/
def getFilesForAudit (s : ClipFiles) : FileContentsRequest → Option ClipboardFile
  | .range _ fileIdx offset _ =>
    if fileIdx = s.firstFileIndex ∧ offset = 0 then
      let files := s.fileList.filterMap fun f => if io.isFile f.path then some (f.path, f.size) else none
      if files.isEmpty then none else some (.files files)
    else none
  | .size _ _ => none

/-- The file after the one with the index is made ready, then the answer is given. -/
def hotReload (s : ClipFiles) (fileIdx : ℕ) (resp : ClipboardFile) : Except CliprdrError ClipboardFile × ClipFiles :=
  let (res, rest) := loadNext io (s.fileList.drop (fileIdx + 1))
  let s := { s with fileList := s.fileList.take (fileIdx + 1) ++ rest }
  match res with
  | .error e => (.error e, s)
  | .ok () => (.ok resp, s)

def setFile (s : ClipFiles) (fileIdx : ℕ) (f : LocalFile) : ClipFiles :=
  { s with fileList := s.fileList.set fileIdx f }

/-- `serve_file_contents`. -/
def serveFileContents (s : ClipFiles) :
    FileContentsRequest → MayPanic (Except CliprdrError ClipboardFile × ClipFiles)
  | .size streamId fileIdx =>
    match s.fileList[fileIdx]? with
    | none => .ok (.error (.invalidRequest s!"invalid file index {fileIdx} requested from conn: {connId}"), s)
    | some file =>
      .ok (s.hotReload io fileIdx (.fileContentsResponse ⟨1, streamId, LittleEndian.leBytes 8 file.size.toNat⟩))
  | .range streamId fileIdx offset length =>
    match s.fileList[fileIdx]? with
    | none => .ok (.error (.invalidRequest s!"invalid file index {fileIdx} requested from conn: {connId}"), s)
    | some file =>
      if offset > file.size.toNat then
        .ok (.error (.invalidRequest s!"invalid reading offset requested from conn: {connId}"), s)
      else
        let readSize :=
          if (offset + length) % 2 ^ 64 > file.size.toNat then file.size.toNat - offset else length
        (allocate readSize).bind fun _ =>
          match file.readExactAt disk io readSize offset with
          | (.error e, file) => .ok (.error e, s.setFile fileIdx file)
          | (.ok buf, file) =>
            .ok ((s.setFile fileIdx file).hotReload io fileIdx (.fileContentsResponse ⟨1, streamId, buf⟩))

/-- `read_file_contents`. -/
def readFileContents (s : ClipFiles) (request : CliprdrFileContentsRequest) :
    MayPanic (List (Except CliprdrError ClipboardFile) × ClipFiles) :=
  match request.decode with
  | none =>
    let dwFlags := request.dwFlags
    .ok ([.error (.invalidRequest s!"got invalid FileContentsRequest, dw_flats: {dwFlags}")], s)
  | some fcr =>
    (s.serveFileContents disk io connId fcr).bind fun (res, t) =>
      .ok ((s.getFilesForAudit io fcr).toList.map .ok ++ [res], t)

end ClipFiles

/-- A request that arrives. -/
structure ClipRequest where
  connId : ℤ
  io : FileIo
  request : CliprdrFileContentsRequest

/-- A request that crashes the server has no state after it. -/
def ClipFiles.step (disk : Path → List UInt8) (s : ClipFiles) (r : ClipRequest) : Option ClipFiles :=
  match s.readFileContents disk r.io r.connId r.request with
  | .ok (_, t) => some t
  | .error _ => none

/-! ## What a request leaves of the files -/

/-- A file with its reader still where its offset says. -/
structure Kept (f g : LocalFile) : Prop where
  sameFile : f.SameFile g
  positioned : f.Positioned → g.Positioned

theorem Kept.refl (f : LocalFile) : Kept f f := ⟨.refl f, id⟩

variable {f g : LocalFile} {fs gs : List LocalFile}

theorem Kept.trans {h : LocalFile} (hfg : Kept f g) (hgh : Kept g h) : Kept f h :=
  ⟨hfg.sameFile.trans hgh.sameFile, hgh.positioned ∘ hfg.positioned⟩

/-- The files of a list, one by one. -/
structure KeptList (fs gs : List LocalFile) : Prop where
  length : gs.length = fs.length
  files : ∀ (i : ℕ) f, fs[i]? = some f → ∃ g, gs[i]? = some g ∧ Kept f g

theorem KeptList.refl (fs : List LocalFile) : KeptList fs fs := ⟨rfl, fun _ f hf => ⟨f, hf, .refl f⟩⟩

theorem KeptList.trans {hs : List LocalFile} (hfg : KeptList fs gs) (hgh : KeptList gs hs) : KeptList fs hs := by
  refine ⟨hgh.length.trans hfg.length, fun i f hf => ?_⟩
  obtain ⟨g, hg, hkept⟩ := hfg.files i f hf
  obtain ⟨h, hh, hkept'⟩ := hgh.files i g hg
  exact ⟨h, hh, hkept.trans hkept'⟩

theorem KeptList.cons (hfg : Kept f g) (h : KeptList fs gs) : KeptList (f :: fs) (g :: gs) := by
  refine ⟨congrArg (· + 1) h.length, fun i f' hf' => ?_⟩
  cases i with
  | zero =>
    cases hf'
    exact ⟨g, rfl, hfg⟩
  | succ i => exact h.files i f' hf'

theorem KeptList.append (before : List LocalFile) (h : KeptList fs gs) : KeptList (before ++ fs) (before ++ gs) := by
  induction before with
  | nil => exact h
  | cons f before ih => exact .cons (.refl f) ih

theorem KeptList.set {i : ℕ} (hf : fs[i]? = some f) (hfg : Kept f g) : KeptList fs (fs.set i g) := by
  refine ⟨List.length_set, fun j f' hf' => ?_⟩
  by_cases hij : i = j
  · subst hij
    cases hf.symm.trans hf'
    obtain ⟨hi, -⟩ := List.getElem?_eq_some_iff.mp hf
    exact ⟨g, List.getElem?_set_self hi, hfg⟩
  · exact ⟨f', (List.getElem?_set_ne hij).trans hf', .refl f'⟩

/-- A file that is opened, or could not be. -/
theorem kept_loadHandle (f : LocalFile) (io : FileIo) : Kept f (f.loadHandle io).2 :=
  ⟨LocalFile.sameFile_loadHandle f io, LocalFile.positioned_loadHandle⟩

theorem kept_readExactAt (disk : Path → List UInt8) (io : FileIo) (f : LocalFile) (len offset : ℕ) :
    Kept f (f.readExactAt disk io len offset).2 :=
  ⟨LocalFile.sameFile_readExactAt, LocalFile.positioned_readExactAt⟩

theorem keptList_loadNext (io : FileIo) (fs : List LocalFile) : KeptList fs (loadNext io fs).2 := by
  induction fs with
  | nil => exact .refl []
  | cons f fs ih =>
    unfold loadNext
    split
    · exact .cons (.refl f) ih
    · exact .cons (kept_loadHandle f io) (.refl fs)

namespace ClipFiles

variable {disk : Path → List UInt8} {io : FileIo} {connId : ℤ} {s t u : ClipFiles} {fileIdx : ℕ}

theorem keptList_hotReload (s : ClipFiles) (io : FileIo) (fileIdx : ℕ) (resp : ClipboardFile) :
    KeptList s.fileList (s.hotReload io fileIdx resp).2.fileList := by
  have hnext := (keptList_loadNext io (s.fileList.drop (fileIdx + 1))).append (s.fileList.take (fileIdx + 1))
  rw [List.take_append_drop] at hnext
  unfold hotReload
  generalize loadNext io (s.fileList.drop (fileIdx + 1)) = res at hnext
  match res with
  | (.error e, rest) => exact hnext
  | (.ok (), rest) => exact hnext

/-- An index that is not in the list. -/
theorem serveFileContents_range_of_none (streamId : ℤ) (offset length : ℕ) (h : s.fileList[fileIdx]? = none) :
    ∃ e, s.serveFileContents disk io connId (.range streamId fileIdx offset length) = .ok (.error e, s) := by
  simp only [serveFileContents, h]
  exact ⟨_, rfl⟩

/-- An offset behind the end. -/
theorem serveFileContents_range_of_lt (streamId : ℤ) {offset : ℕ} (length : ℕ) {file : LocalFile}
    (h : s.fileList[fileIdx]? = some file) (hoffset : file.size.toNat < offset) :
    ∃ e, s.serveFileContents disk io connId (.range streamId fileIdx offset length) = .ok (.error e, s) := by
  simp only [serveFileContents, h]
  rw [if_pos hoffset]
  exact ⟨_, rfl⟩

/-- An offset in the file. -/
theorem serveFileContents_range {streamId : ℤ} {offset length : ℕ} {file : LocalFile}
    (h : s.fileList[fileIdx]? = some file) (hoffset : offset ≤ file.size.toNat) :
    s.serveFileContents disk io connId (.range streamId fileIdx offset length) =
      let readSize := if (offset + length) % 2 ^ 64 > file.size.toNat then file.size.toNat - offset else length
      (allocate readSize).bind fun _ =>
        match file.readExactAt disk io readSize offset with
        | (.error e, file) => .ok (.error e, s.setFile fileIdx file)
        | (.ok buf, file) =>
          .ok ((s.setFile fileIdx file).hotReload io fileIdx (.fileContentsResponse ⟨1, streamId, buf⟩)) := by
  simp only [serveFileContents, h]
  rw [if_neg (Nat.not_lt.mpr hoffset)]

theorem keptList_serveFileContents {fcr : FileContentsRequest} {res : Except CliprdrError ClipboardFile}
    (h : s.serveFileContents disk io connId fcr = .ok (res, t)) : KeptList s.fileList t.fileList := by
  cases fcr with
  | size streamId fileIdx =>
    cases hfile : s.fileList[fileIdx]? with
    | none =>
      simp only [serveFileContents, hfile] at h
      cases h
      exact .refl _
    | some file =>
      simp only [serveFileContents, hfile] at h
      have ht : (s.hotReload io fileIdx _).2 = t := congrArg Prod.snd (Except.ok.inj h)
      rw [← ht]
      exact keptList_hotReload s io fileIdx _
  | range streamId fileIdx offset length =>
    cases hfile : s.fileList[fileIdx]? with
    | none =>
      obtain ⟨e, he⟩ := serveFileContents_range_of_none streamId offset length hfile
      rw [he] at h
      cases h
      exact .refl _
    | some file =>
      rcases Nat.lt_or_ge file.size.toNat offset with hlt | hge
      · obtain ⟨e, he⟩ := serveFileContents_range_of_lt streamId length hfile hlt
        rw [he] at h
        cases h
        exact .refl _
      · rw [serveFileContents_range hfile hge] at h
        dsimp only at h
        generalize (if (offset + length) % 2 ^ 64 > file.size.toNat then file.size.toNat - offset else length) =
          readSize at h
        unfold allocate at h
        split at h
        · have hkept := kept_readExactAt disk io file readSize offset
          dsimp only [Except.bind] at h
          generalize file.readExactAt disk io readSize offset = read at h hkept
          match read with
          | (.error e, file') =>
            cases h
            exact .set hfile hkept
          | (.ok buf, file') =>
            have ht : ((s.setFile fileIdx file').hotReload io fileIdx _).2 = t :=
              congrArg Prod.snd (Except.ok.inj h)
            have hset : KeptList s.fileList (s.setFile fileIdx file').fileList := .set hfile hkept
            rw [← ht]
            exact hset.trans (keptList_hotReload _ io fileIdx _)
        · cases h

/-- **Every request leaves the files with their readers where their offsets say.** -/
theorem keptList_step {r : ClipRequest} (h : s.step disk r = some t) : KeptList s.fileList t.fileList := by
  unfold step readFileContents at h
  cases hdecode : r.request.decode with
  | none =>
    rw [hdecode] at h
    cases h
    exact .refl _
  | some fcr =>
    rw [hdecode] at h
    dsimp only at h
    cases hserve : s.serveFileContents disk r.io r.connId fcr with
    | error e =>
      rw [hserve] at h
      cases h
    | ok res =>
      rw [hserve] at h
      cases h
      exact keptList_serveFileContents hserve

/-- Over a whole run too. -/
theorem keptList_run {requests : List ClipRequest} (hrun : Run (Steps (step disk)) s requests t) :
    KeptList s.fileList t.fileList := by
  let Inv (u : ClipFiles) : Prop := KeptList s.fileList u.fileList
  have hstep : ∀ u r v, Inv u → Steps (step disk) u r v → Inv v := fun _ _ _ h hstep => h.trans (keptList_step hstep)
  have hs : Inv s := .refl _
  have ht := Run.invariant hstep hrun hs
  exact ht

end ClipFiles

/-! ## The answer to a range -/

/-- The next file that is no directory is open, or can be opened. -/
def NextOpens (io : FileIo) (fs : List LocalFile) : Prop :=
  ∀ f, fs.find? (fun f => ! f.isDir) = some f → f.handle = none → io.opens f.path = true

theorem loadNext_eq_ok_iff {io : FileIo} : (loadNext io fs).1 = .ok () ↔ NextOpens io fs := by
  unfold NextOpens
  induction fs with
  | nil => simp [loadNext]
  | cons f fs ih =>
    unfold loadNext
    cases hdir : f.isDir with
    | true => simpa [hdir] using ih
    | false =>
      rw [if_neg Bool.false_ne_true, LocalFile.loadHandle_of_file hdir]
      have hfind : (f :: fs).find? (fun f => ! f.isDir) = some f := by simp [hdir]
      rw [hfind]
      by_cases hfails : f.handle = none ∧ io.opens f.path = false
      · rw [if_pos hfails]
        refine iff_of_false nofun fun h => ?_
        rw [h f rfl hfails.1] at hfails
        exact Bool.noConfusion hfails.2
      · rw [if_neg hfails]
        refine iff_of_true rfl fun g hg hnone => ?_
        cases hg
        by_contra hopens
        exact hfails ⟨hnone, by simpa using hopens⟩

namespace ClipFiles

variable {disk : Path → List UInt8} {io : FileIo} {connId : ℤ} {s : ClipFiles} {file : LocalFile} {offset : ℕ}
  {streamId : ℤ} {sizes : Path → Option UInt64} {size : UInt32}

theorem hotReload_eq_ok_iff (s : ClipFiles) (io : FileIo) (fileIdx : ℕ) (resp resp' : ClipboardFile) :
    (s.hotReload io fileIdx resp).1 = .ok resp' ↔ NextOpens io (s.fileList.drop (fileIdx + 1)) ∧ resp = resp' := by
  rw [← loadNext_eq_ok_iff]
  unfold hotReload
  generalize loadNext io (s.fileList.drop (fileIdx + 1)) = res
  match res with
  | (.error e, rest) => exact ⟨nofun, fun h => nomatch h.1⟩
  | (.ok (), rest) => exact ⟨fun h => ⟨rfl, Except.ok.inj h⟩, fun h => congrArg _ h.2⟩

/-- What is answered to a range of a file, of which `readSize` bytes are read. -/
theorem serve_range_iff {fileIdx length readSize : ℕ} {bytes : List UInt8}
    (hfile : s.fileList[fileIdx]? = some file) (hdir : file.isDir = false) (hposition : file.Positioned)
    (hcontent : (disk file.path).length = file.size.toNat) (hbound : file.size.toNat < 2 ^ 63)
    (hoffset : offset + readSize ≤ file.size.toNat)
    (hsize : (if (offset + length) % 2 ^ 64 > file.size.toNat then file.size.toNat - offset else length) = readSize) :
    (∃ t, s.serveFileContents disk io connId (.range streamId fileIdx offset length) =
        .ok (.ok (.fileContentsResponse ⟨1, streamId, bytes⟩), t)) ↔
      (file.Readable io readSize offset ∧ NextOpens io (s.fileList.drop (fileIdx + 1))) ∧
        bytes = ((disk file.path).drop offset).take readSize := by
  have hallocate : allocate readSize = .ok () := if_pos (by omega)
  have hread (buf : List UInt8) : (file.readExactAt disk io readSize offset).1 = .ok buf ↔
      file.Readable io readSize offset ∧ buf = ((disk file.path).drop offset).take readSize :=
    LocalFile.readExactAt_eq_ok_iff hdir hposition (by rwa [hcontent])
  rw [serveFileContents_range hfile (by omega)]
  dsimp only
  rw [hsize, hallocate]
  dsimp only [Except.bind]
  generalize file.readExactAt disk io readSize offset = res at hread
  match res with
  | (.error e, file') =>
    refine iff_of_false ?_ fun h => ?_
    · rintro ⟨t, ht⟩
      cases ht
    · cases (hread _).mpr ⟨h.1.1, rfl⟩
  | (.ok buf, file') =>
    obtain ⟨hreadable, hbuf⟩ := (hread buf).mp rfl
    have hdrop : (s.setFile fileIdx file').fileList.drop (fileIdx + 1) = s.fileList.drop (fileIdx + 1) :=
      List.drop_set_of_lt (Nat.lt_succ_self _)
    have hreload := hotReload_eq_ok_iff (s.setFile fileIdx file') io fileIdx
      (.fileContentsResponse ⟨1, streamId, buf⟩) (.fileContentsResponse ⟨1, streamId, bytes⟩)
    rw [hdrop] at hreload
    constructor
    · rintro ⟨t, ht⟩
      obtain ⟨hnext, hresp⟩ := hreload.mp (congrArg Prod.fst (Except.ok.inj ht))
      refine ⟨⟨hreadable, hnext⟩, ?_⟩
      rw [← hbuf]
      simpa using hresp.symm
    · rintro ⟨⟨-, hnext⟩, rfl⟩
      exact ⟨_, congrArg Except.ok (Prod.ext (hreload.mpr ⟨hnext, by rw [hbuf]⟩) rfl)⟩

/-- The list as it was built: no file has been opened. -/
def Fresh (s : ClipFiles) : Prop := ∀ f ∈ s.fileList, f.handle = none ∧ f.offset = 0

/-- A request is carried to the other side, and the last of its answers has these bytes. -/
def Answers (sizes : Path → Option UInt64) (disk : Path → List UInt8) (io : FileIo) (connId : ℤ) (s : ClipFiles)
    (request : CliprdrFileContentsRequest) (bytes : List UInt8) : Prop :=
  ∃ pdu answers t, msg2Clip (clip2Msg sizes (.fileContentsRequest request)) = some (.fileContentsRequest pdu) ∧
    s.readFileContents disk io connId pdu = .ok (answers, t) ∧
    answers.getLast? = some (.ok (.fileContentsResponse ⟨1, request.streamId, bytes⟩))

/-- The numbers of a range that are the same after the casts, or make no difference. -/
structure Carried (index offset : ℕ) (size : UInt32) (fileSize : ℕ) : Prop where
  index_lt : index < 2 ^ 31
  low_lt : offset % 2 ^ 32 < 2 ^ 31
  size_lt : size.toNat < 2 ^ 31 ∨ offset + size.toNat < 2 ^ 32 ∧ fileSize ≤ offset + size.toNat

/-- The file system does what the request needs: for the file, and for the next one. -/
def Works (io : FileIo) (s : ClipFiles) (index offset : ℕ) (size : UInt32) : Prop :=
  ∀ f, s.fileList[index]? = some f →
    f.Readable io (min size.toNat (f.size.toNat - offset)) offset ∧ NextOpens io (s.fileList.drop (index + 1))

theorem decode_readRequest (streamId : ℤ) (index offset : ℕ) (size : UInt32) :
    (readRequest streamId index offset size).decode = some (.range streamId (toU64 (toI32 index))
        (join (toI32 (offset / 2 ^ 32 : ℕ)) (toI32 (offset % 2 ^ 32 : ℕ))) (toU64 (toI32 size.toNat))) := by
  rw [CliprdrFileContentsRequest.decode, readRequest]
  simp

/-- What is answered last is the answer of `serve_file_contents`. -/
theorem answers_iff {request : CliprdrFileContentsRequest} {fcr : FileContentsRequest}
    {bytes : List UInt8} (hdecode : request.decode = some fcr) :
    Answers sizes disk io connId s request bytes ↔ ∃ t, s.serveFileContents disk io connId fcr =
        .ok (.ok (.fileContentsResponse ⟨1, request.streamId, bytes⟩), t) := by
  have hread : s.readFileContents disk io connId request =
      (s.serveFileContents disk io connId fcr).bind fun (res, t) =>
        .ok ((s.getFilesForAudit io fcr).toList.map .ok ++ [res], t) := by
    rw [readFileContents, hdecode]
  constructor
  · rintro ⟨pdu, answers, t, hpdu, hanswers, hlast⟩
    obtain rfl : request = pdu := by simpa [clip2Msg, msg2Clip] using hpdu
    rw [hread] at hanswers
    generalize s.serveFileContents disk io connId fcr = served at hanswers
    match served with
    | .error e => cases hanswers
    | .ok (res, u) =>
      cases hanswers
      rw [List.getLast?_concat] at hlast
      cases hlast
      exact ⟨_, rfl⟩
  · rintro ⟨t, ht⟩
    rw [ht] at hread
    exact ⟨request, _, t, rfl, hread, List.getLast?_concat ..⟩

/-- The size that is read for a size that came with its sign. -/
theorem readSize_of_carried {fileSize : ℕ} (hoffset : offset ≤ fileSize) (hbound : fileSize < 2 ^ 63)
    (hsize : size.toNat < 2 ^ 31 ∨ offset + size.toNat < 2 ^ 32 ∧ fileSize ≤ offset + size.toNat) :
    (if (offset + toU64 (toI32 size.toNat)) % 2 ^ 64 > fileSize then fileSize - offset
      else toU64 (toI32 size.toNat)) = min size.toNat (fileSize - offset) := by
  rcases Nat.lt_or_ge size.toNat (2 ^ 31) with hlt | hge
  · rw [toU64_toI32_of_lt hlt]
    split <;> omega
  · rw [toU64_toI32_of_ge hge size.toNat_lt]
    split <;> omega

/-- **A range that is carried is answered exactly where the file system does its work.** -/
theorem answers_of_carried {index : ℕ} (hfile : s.fileList[index]? = some file) (hdir : file.isDir = false)
    (hposition : file.Positioned) (hcontent : (disk file.path).length = file.size.toNat)
    (hbound : file.size.toNat < 2 ^ 63) (hoffset : offset ≤ file.size.toNat)
    (hcarried : Carried index offset size file.size.toNat) :
    Answers sizes disk io connId s (readRequest streamId index offset size)
        (((disk file.path).drop offset).take size.toNat) ↔ Works io s index offset size := by
  rw [answers_iff (decode_readRequest ..), toU64_toI32_of_lt hcarried.index_lt,
    join_of_lt (by omega) hcarried.low_lt]
  have htake : ((disk file.path).drop offset).take (min size.toNat (file.size.toNat - offset)) =
      ((disk file.path).drop offset).take size.toNat := by
    rw [← hcontent, ← List.length_drop, List.take_eq_take_iff]
    omega
  rw [show (readRequest streamId index offset size).streamId = streamId from rfl,
    serve_range_iff hfile hdir hposition hcontent hbound (by omega) (readSize_of_carried hoffset hbound hcarried.size_lt),
    htake]
  constructor
  · rintro ⟨hworks, -⟩ f hf
    cases hfile.symm.trans hf
    exact hworks
  · exact fun hworks => ⟨hworks file hfile, rfl⟩

/-- **A range that is not carried is not answered with its bytes.** -/
theorem not_answers_of_not_carried {index : ℕ}
    (hlength : s.fileList.length < 2 ^ 32) (hfile : s.fileList[index]? = some file)
    (hdir : file.isDir = false)
    (hposition : file.Positioned) (hcontent : (disk file.path).length = file.size.toNat)
    (hbound : file.size.toNat < 2 ^ 63) (hoffset : offset ≤ file.size.toNat)
    (hcarried : ¬ Carried index offset size file.size.toNat) :
    ¬ Answers sizes disk io connId s (readRequest streamId index offset size)
        (((disk file.path).drop offset).take size.toNat) := by
  obtain ⟨hindex, -⟩ := List.getElem?_eq_some_iff.mp hfile
  rw [answers_iff (decode_readRequest ..)]
  rintro ⟨t, ht⟩
  rcases Nat.lt_or_ge index (2 ^ 31) with hindex' | hindex'
  · rw [toU64_toI32_of_lt hindex'] at ht
    rcases Nat.lt_or_ge (offset % 2 ^ 32) (2 ^ 31) with hlow | hlow
    · rw [join_of_lt (by omega) hlow] at ht
      have hge : 2 ^ 31 ≤ size.toNat := by
        by_contra hlt
        exact hcarried ⟨hindex', hlow, .inl (by omega)⟩
      have hsize := toU64_toI32_of_ge hge size.toNat_lt
      rcases Nat.lt_or_ge (offset + size.toNat) (2 ^ 32) with hsum | hsum
      · -- the whole rest is read, which is longer
        have hlonger : offset + size.toNat < file.size.toNat := by
          by_contra hle
          exact hcarried ⟨hindex', hlow, .inr ⟨hsum, by omega⟩⟩
        have hread : (if (offset + toU64 (toI32 size.toNat)) % 2 ^ 64 > file.size.toNat then file.size.toNat - offset
            else toU64 (toI32 size.toNat)) = file.size.toNat - offset := by
          rw [hsize]
          split <;> omega
        obtain ⟨-, hbytes⟩ := (serve_range_iff hfile hdir hposition hcontent hbound (by omega) hread).mp ⟨t, ht⟩
        have hlengths := congrArg List.length hbytes
        rw [List.length_take, List.length_take, List.length_drop, hcontent] at hlengths
        omega
      · -- the sum wraps, and the buffer would be too large
        have hread : (if (offset + toU64 (toI32 size.toNat)) % 2 ^ 64 > file.size.toNat then file.size.toNat - offset
            else toU64 (toI32 size.toNat)) = 2 ^ 64 - 2 ^ 32 + size.toNat := by
          rw [hsize]
          have hlt := size.toNat_lt
          split <;> omega
        have hallocate : allocate (2 ^ 64 - 2 ^ 32 + size.toNat) = .error .panicked := if_neg (by omega)
        rw [serveFileContents_range hfile hoffset] at ht
        dsimp only at ht
        rw [hread, hallocate] at ht
        cases ht
    · -- the offset has become one behind the end
      have hbehind := le_join_of_ge hlow
      obtain ⟨e, he⟩ := serveFileContents_range_of_lt streamId (toU64 (toI32 size.toNat)) hfile
        (Nat.lt_of_lt_of_le hbound hbehind)
      rw [he] at ht
      cases ht
  · -- the index has become one that is not in the list
    have hnone : s.fileList[toU64 (toI32 index)]? = none := by
      rw [toU64_toI32_of_ge hindex' (by omega), List.getElem?_eq_none]
      omega
    obtain ⟨e, he⟩ := serveFileContents_range_of_none streamId
      (join (toI32 (offset / 2 ^ 32 : ℕ)) (toI32 (offset % 2 ^ 32 : ℕ))) (toU64 (toI32 size.toNat)) hnone
    rw [he] at ht
    cases ht

/-- **After any requests, a range of a file is answered with its bytes exactly where it is carried and the file
system does its work.** -/
theorem answers_iff_carried (sizes : Path → Option UInt64) (disk : Path → List UInt8) {start s : ClipFiles}
    {earlier : List ClipRequest} (hfresh : start.Fresh) (hlength : start.fileList.length < 2 ^ 32)
    (hrun : Run (Steps (step disk)) start earlier s) (index : ℕ) {file : LocalFile}
    (hfile : start.fileList[index]? = some file) (hdir : file.isDir = false)
    (hcontent : (disk file.path).length = file.size.toNat) (hbound : file.size.toNat < 2 ^ 63) (offset : ℕ)
    (hoffset : offset ≤ file.size.toNat) (size : UInt32) (io : FileIo) (connId streamId : ℤ) :
    Answers sizes disk io connId s (readRequest streamId index offset size)
        (((disk file.path).drop offset).take size.toNat) ↔
      Carried index offset size file.size.toNat ∧ Works io s index offset size := by
  have hkept := keptList_run hrun
  obtain ⟨now, hnow, hsame⟩ := hkept.files index file hfile
  obtain ⟨hnone, hzero⟩ := hfresh file (List.mem_of_getElem? hfile)
  have hposition : now.Positioned := hsame.positioned (by rw [LocalFile.Positioned, hnone, hzero]; rfl)
  have hpath : now.path = file.path := by rw [hsame.sameFile]
  have hsize : now.size = file.size := by rw [hsame.sameFile]
  have hdir' : now.isDir = false := by rw [hsame.sameFile, hdir]
  have hlength' : s.fileList.length < 2 ^ 32 := by rwa [hkept.length]
  rw [← hpath, ← hsize] at hcontent
  rw [← hsize] at hbound hoffset ⊢
  rw [← hpath]
  by_cases hcarried : Carried index offset size now.size.toNat
  · rw [answers_of_carried hnow hdir' hposition hcontent hbound hoffset hcarried]
    exact ⟨fun h => ⟨hcarried, h⟩, fun h => h.2⟩
  · exact iff_of_false
      (not_answers_of_not_carried hlength' hnow hdir' hposition hcontent hbound hoffset hcarried)
      fun h => hcarried h.1

end ClipFiles

/-- `read_node` gives the bytes of such an answer, and passes over what was meant for another request. -/
theorem awaitReply_answer {streamId : ℤ} {stale : List CliprdrFileContentsResponse}
    (hstale : ∀ response ∈ stale, response.streamId ≠ streamId) (bytes : List UInt8) (later : List ClipboardFile) :
    awaitReply streamId 0
      (stale.map .fileContentsResponse ++ .fileContentsResponse ⟨1, streamId, bytes⟩ :: later) = .ok bytes := by
  induction stale with
  | nil => simp [awaitReply]
  | cons response stale ih =>
    rw [List.forall_mem_cons] at hstale
    rw [List.map_cons, List.cons_append, awaitReply, if_pos hstale.1]
    exact ih hstale.2

/-! ## Two files -/

namespace ClipFiles

def examplePath : Path := "/home/user/film.mkv".toList

/-- A list of one file of this size, as it is built. -/
def oneFile (size : UInt64) : ClipFiles where
  fileList := [⟨"/home/user".toList, examplePath, none, 0, size, 0, false, 0o100644, false, false, false, false, true⟩]
  firstFileIndex := 0

/-- Every operation succeeds. -/
def allOk : FileIo := ⟨fun _ => true, true, true, fun _ => true⟩

/-- Five bytes, of which two have been read. -/
def twoRead : ClipFiles :=
  { oneFile 5 with fileList := (oneFile 5).fileList.map fun f => { f with handle := some 2, offset := 2 } }

theorem oneFile_fresh (size : UInt64) : (oneFile size).Fresh := by
  intro f hf
  obtain rfl := List.mem_singleton.mp hf
  exact ⟨rfl, rfl⟩

/-- The other three bytes. -/
theorem answers_second_part :
    Answers (fun _ => none) (fun _ => [1, 2, 3, 4, 5]) allOk 7 twoRead (readRequest 12 0 2 9) [3, 4, 5] := by
  have hrun : Run (Steps (step fun _ => [1, 2, 3, 4, 5])) (oneFile 5) [⟨7, allOk, readRequest 11 0 0 2⟩] twoRead :=
    .cons (by rfl) (.nil _)
  refine (answers_iff_carried _ _ (oneFile_fresh 5) (by decide) hrun 0 rfl rfl rfl (by decide) 2 (by decide)
    9 allOk 7 12).mpr ⟨⟨by decide, by decide, .inl (by decide)⟩, fun f _ => ⟨⟨?_, ?_, ?_⟩, fun _ _ _ => rfl⟩⟩
  · exact fun _ => rfl
  · exact fun _ => rfl
  · exact fun _ => rfl

/-- The last byte of a film of 2 GiB and a byte cannot be read, and a read of 2 ^ 32 - 1 bytes from the second byte
on crashes the server. -/
theorem last_byte_not_answered :
    (oneFile (2 ^ 31 + 1)).Fresh ∧ (List.replicate (2 ^ 31 + 1) (0 : UInt8)).length = (2 ^ 31 + 1 : UInt64).toNat ∧
      ¬ Answers (fun _ => none) (fun _ => List.replicate (2 ^ 31 + 1) 0) allOk 7 (oneFile (2 ^ 31 + 1))
        (readRequest 11 0 (2 ^ 31) 1) (((List.replicate (2 ^ 31 + 1) 0).drop (2 ^ 31)).take 1) ∧
      (oneFile 5).readFileContents (fun _ => [1, 2, 3, 4, 5]) allOk 7 (readRequest 11 0 1 0xffffffff) =
        .error .panicked := by
  refine ⟨oneFile_fresh _, List.length_replicate, ?_, rfl⟩
  rintro ⟨pdu, answers, t, hpdu, hanswers, hlast⟩
  obtain rfl : readRequest 11 0 (2 ^ 31) 1 = pdu := by simpa [clip2Msg, msg2Clip] using hpdu
  obtain ⟨e, he⟩ : ∃ e, (oneFile (2 ^ 31 + 1)).readFileContents (fun _ => List.replicate (2 ^ 31 + 1) 0) allOk 7
    (readRequest 11 0 (2 ^ 31) 1) = .ok ([.error e], oneFile (2 ^ 31 + 1)) := ⟨_, rfl⟩
  rw [he] at hanswers
  cases hanswers
  cases hlast

end ClipFiles

end RustDesk.Clipboard
