import Mathlib.Algebra.Group.Int.Defs
import RustDesk.FileTransfer.FileSystem

/-!
# Transfer jobs

Reference: `libs/hbb_common/src/fs.rs` (`TransferJob`, the validation of file names,
`is_write_need_confirmation`). A job reads the files of a list one after the other, or writes them.
The counters that the display of the progress goes by (`total_size`, `finished_size`, `transferred`)
are left out.
-/

namespace RustDesk.FileTransfer

/-! ## Numbers -/

/-- `as usize` of an `i32`. -/
def asUsize (n : ℤ) : ℕ := (n % 2 ^ 64).toNat

/-- `+ 1` of an `i32`, as a release build does it. -/
def succI32 (n : ℤ) : ℤ := (n + 1 + 2 ^ 31) % 2 ^ 32 - 2 ^ 31

theorem asUsize_of_nonneg {n : ℤ} (h : 0 ≤ n) (hlt : n < 2 ^ 31) : asUsize n = n.toNat := by
  rw [asUsize, Int.emod_eq_of_lt h (by omega)]

theorem succI32_of_lt {n : ℤ} (h : 0 ≤ n) (hlt : n + 1 < 2 ^ 31) : succI32 n = n + 1 := by
  rw [succI32, Int.emod_eq_of_lt (by omega) (by omega)]
  omega

/-! ## Messages -/

/-- `FileTransferBlock`. -/
structure FileTransferBlock where
  id : ℤ
  fileNum : ℤ
  data : Bytes
  compressed : Bool
deriving DecidableEq

/-- `FileTransferDigest`. -/
structure FileTransferDigest where
  id : ℤ
  fileNum : ℤ
  lastModified : ℕ
  fileSize : ℕ
  isUpload : Bool
  isIdentical : Bool
  transferredSize : ℕ
  isResume : Bool
deriving DecidableEq

/-- `file_transfer_send_confirm_request::Union`. The offset is a `u32`. -/
inductive ConfirmUnion
  | skip (s : Bool)
  | offsetBlk (offset : UInt32)
deriving DecidableEq

/-- `FileTransferSendConfirmRequest`. -/
structure FileTransferSendConfirmRequest where
  id : ℤ
  fileNum : ℤ
  union : Option ConfirmUnion
deriving DecidableEq

/-- `file_response::Union`, as far as it is about jobs that run. -/
inductive FileResponse
  | block (block : FileTransferBlock)
  | error (id : ℤ) (error : String) (fileNum : ℤ)
  | done (id : ℤ) (fileNum : ℤ)
  | digest (digest : FileTransferDigest)
deriving DecidableEq

/-! ## Jobs -/

inductive JobType
  | generic
  | printer
deriving DecidableEq

inductive DataSource
  | filePath (p : Path)
  | memoryCursor (data : Bytes)
deriving DecidableEq

/-- `DataStream`. A buffer comes with the position in it. -/
inductive DataStream (H : Type*)
  | fileStream (h : H)
  | bufStream (data : Bytes) (pos : ℕ)
deriving DecidableEq

/-- `FileEntry`. -/
structure FileEntry where
  name : Path
  modifiedTime : ℕ
deriving DecidableEq

/-- `TransferJob`. -/
structure TransferJob (H : Type*) where
  id : ℤ
  type : JobType
  dataSource : DataSource
  isLastJob : Bool
  isResume : Bool
  fileNum : ℤ
  files : List FileEntry
  dataStream : Option (DataStream H)
  enableOverwriteDetection : Bool
  fileConfirmed : Bool
  fileSkipped : Bool
  fileIsWaiting : Bool
  defaultOverwriteStrategy : Option Bool
  digest : FileDigest
deriving DecidableEq

/-- What is compressed and serialized outside: `zstd`, and `serde_json` of a `FileDigest`. -/
structure Codec where
  compress : Bytes → Bytes
  decompress : Bytes → Bytes
  digestToJson : FileDigest → Bytes
  digestFromJson : Bytes → Option FileDigest

/-- Nothing compressed, and no digest kept. -/
def Codec.plain : Codec where
  compress data := data
  decompress data := data
  digestToJson _ := []
  digestFromJson _ := none

/-! ## File names -/

/-- `validate_file_name_no_traversal`. -/
def validateFileNameNoTraversal (name : Path) : Except String Unit :=
  if name.any (· = Char.ofNat 0) then .error "file name contains null bytes"
  else if (segments name).any (· = ['.', '.']) then .error "path traversal detected in file name"
  else if name.head? = some '/' then .error "absolute path detected in file name"
  else .ok ()

/-- The loop of `validate_transfer_file_names`. -/
def validateEachFileName : List FileEntry → Except String Unit
  | [] => .ok ()
  | file :: files =>
    if file.name = [] then .error "empty file name in multi-file transfer"
    else
      match validateFileNameNoTraversal file.name with
      | .error e => .error e
      | .ok () => validateEachFileName files

/-- `validate_transfer_file_names`. -/
def validateTransferFileNames (files : List FileEntry) : Except String Unit :=
  if files.length = 1 ∧ files.head?.any (·.name = []) then .ok ()
  else validateEachFileName files

/-- `TransferJob::join`. -/
def join (p name : Path) : Path := if name = [] then p else push p name

section FileSystem

variable {σ H : Type*} (fs : FileSystem σ H) (codec : Codec)

/-- The loop of `validate_no_symlink_components`. -/
def validateComponents (s : σ) : Path → List Component → Except String Unit
  | _, [] => .ok ()
  | current, .normal seg :: cs =>
    match fs.symlinkMetadata s (push current seg) with
    | .ok true => .error "symlink path component is not allowed"
    | .ok false => validateComponents s (push current seg) cs
    | .error ⟨.notFound, _⟩ => validateComponents s (push current seg) cs
    | .error ⟨.other, text⟩ =>
      .error ("failed to validate path component '" ++ String.ofList (push current seg) ++ "': " ++
        text)
  | current, .curDir :: cs => validateComponents s current cs
  | _, .parentDir :: _ | _, .rootDir :: _ => .error "invalid file name component"

/-- `validate_no_symlink_components`. -/
def validateNoSymlinkComponents (s : σ) (base name : Path) : Except String Unit :=
  if name = [] then .ok () else validateComponents fs s base (components name)

/-- `join_validated_path`. -/
def joinValidatedPath (s : σ) (base name : Path) : Except String Path :=
  match validateFileNameNoTraversal name with
  | .error e => .error e
  | .ok () =>
    match validateNoSymlinkComponents fs s base name with
    | .error e => .error e
    | .ok () => .ok (join base name)

namespace TransferJob

/-- `new_write`. -/
def newWrite (id : ℤ) (type : JobType) (dataSource : DataSource) (fileNum : ℤ)
    (enableOverwriteDetection : Bool) : TransferJob H where
  id := id
  type := type
  dataSource := dataSource
  isLastJob := false
  isResume := false
  fileNum := fileNum
  files := []
  dataStream := none
  enableOverwriteDetection := enableOverwriteDetection
  fileConfirmed := false
  fileSkipped := false
  fileIsWaiting := false
  defaultOverwriteStrategy := none
  digest := ⟨0, 0⟩

/-- `new_read`. `files` is what `get_recursive_files` lists at the path. -/
def newRead (id : ℤ) (type : JobType) (dataSource : DataSource) (files : List FileEntry)
    (fileNum : ℤ) (enableOverwriteDetection : Bool) : TransferJob H :=
  { newWrite id type dataSource fileNum enableOverwriteDetection with
    files := match dataSource with
      | .filePath _ => files
      | .memoryCursor _ => [] }

/-- The loop of `set_files` over the entries. -/
def validateEachNoSymlink (s : σ) (base : Path) : List FileEntry → Except String Unit
  | [] => .ok ()
  | file :: files =>
    match validateNoSymlinkComponents fs s base file.name with
    | .error e => .error e
    | .ok () => validateEachNoSymlink s base files

/-- `set_files`. -/
def setFiles (s : σ) (job : TransferJob H) (files : List FileEntry) :
    Except String (TransferJob H) :=
  match validateTransferFileNames files with
  | .error e => .error e
  | .ok () =>
    match job.dataSource with
    | .filePath base =>
      match validateEachNoSymlink fs s base files with
      | .error e => .error e
      | .ok () => .ok { job with files := files }
    | .memoryCursor _ => .ok { job with files := files }

/-- `set_digest`. -/
def setDigest (job : TransferJob H) (size modified : ℕ) : TransferJob H :=
  { job with digest := ⟨size, modified⟩ }

/-- `resolve_entry_path`. -/
def resolveEntryPath (s : σ) (job : TransferJob H) (base name : Path) : Option Path :=
  match job.type with
  | .generic => (joinValidatedPath fs s base name).toOption
  | .printer => some (join base name)

/-- The entry that `file_num` is at, with the path it resolves to. -/
def currentEntryPath (s : σ) (job : TransferJob H) : Option (FileEntry × Path) :=
  match job.type, job.dataSource with
  | .generic, .filePath p =>
    job.files[asUsize job.fileNum]?.bind fun entry =>
      (job.resolveEntryPath fs s p entry.name).map fun path => (entry, path)
  | _, _ => none

/-- `modify_time`: put the `.download` of the current file in place. -/
def modifyTime (s : σ) (job : TransferJob H) : σ :=
  match job.currentEntryPath fs s with
  | none => s
  | some (entry, path) =>
    let s := (fs.removeFile s (path ++ digestSuffix)).2
    let s := fs.rename s (path ++ downloadSuffix) path
    fs.setFileMtime s path entry.modifiedTime

/-- `remove_download_file`. -/
def removeDownloadFile (s : σ) (job : TransferJob H) : σ :=
  match job.currentEntryPath fs s with
  | none => s
  | some (_, path) =>
    let s := (fs.removeFile s (path ++ downloadSuffix)).2
    (fs.removeFile s (path ++ digestSuffix)).2

/-! ### Writing -/

/-- The path that `write` opens for an entry, and that of its digest. -/
def writePaths (s : σ) (job : TransferJob H) (p name : Path) :
    Except String (Path × Option Path) × σ :=
  match job.type with
  | .printer => (.ok (p, none), s)
  | .generic =>
    match joinValidatedPath fs s p name with
    | .error e => (.error e, s)
    | .ok path =>
      let s := match parent path with
        | some pp => fs.createDirAll s pp
        | none => s
      (.ok (path ++ downloadSuffix, some (path ++ digestSuffix)), s)

/-- `write` removes an old digest. -/
def removeOldDigest (s : σ) (digestPath : Option Path) : Except String Unit × σ :=
  match digestPath with
  | none => (.ok (), s)
  | some dp =>
    if fs.pathExists s dp then
      match fs.removeFile s dp with
      | (.error e, s) => (.error e.text, s)
      | (.ok (), s) => (.ok (), s)
    else (.ok (), s)

/-- `sync_all` of the stream that `write` leaves. -/
def syncStream (s : σ) (job : TransferJob H) : Except String Unit :=
  match job.dataStream with
  | some (.fileStream h) => (fs.syncAll s h).mapError (·.text)
  | _ => .ok ()

/-- The part of `write` that goes over to another file, or opens the first. -/
def openForWrite (s : σ) (job : TransferJob H) (p : Path) (entry : FileEntry) (fileNum : ℤ) :
    Except String Unit × TransferJob H × σ :=
  let s := job.modifyTime fs s
  match job.syncStream fs s with
  | .error e => (.error e, job, s)
  | .ok () =>
    let job := { job with fileNum := fileNum }
    match job.writePaths fs s p entry.name with
    | (.error e, s) => (.error e, job, s)
    | (.ok (path, digestPath), s) =>
      match removeOldDigest fs s digestPath with
      | (.error e, s) => (.error e, job, s)
      | (.ok (), s) =>
        match fs.create s path with
        | (.error e, s) => (.error e.text, job, s)
        | (.ok h, s) =>
          let job := { job with dataStream := some (.fileStream h) }
          let s := match digestPath with
            | some dp => fs.write s dp (codec.digestToJson job.digest)
            | none => s
          (.ok (), job, s)

/-- The part of `write` that makes the stream the one of the block's file. -/
def selectStream (s : σ) (job : TransferJob H) (block : FileTransferBlock) :
    Except String Unit × TransferJob H × σ :=
  match job.dataSource with
  | .filePath p =>
    match job.files[asUsize block.fileNum]? with
    | none => (.error "Wrong file number", job, s)
    | some entry =>
      if asUsize block.fileNum ≠ asUsize job.fileNum ∨ job.dataStream.isNone then
        job.openForWrite fs codec s p entry block.fileNum
      else (.ok (), job, s)
  | .memoryCursor c =>
    match job.dataStream with
    | none => (.ok (), { job with dataStream := some (.bufStream c 0) }, s)
    | some _ => (.ok (), job, s)

/-- Bytes written over others, from a position on. -/
def overwrite (old : Bytes) (pos : ℕ) (data : Bytes) : Bytes :=
  old.take pos ++ List.replicate (pos - old.length) 0 ++ data ++ old.drop (pos + data.length)

/-- `write_all` of a block's data. -/
def writeData (s : σ) (job : TransferJob H) (data : Bytes) :
    Except String Unit × TransferJob H × σ :=
  match job.dataStream with
  | none => (.error "data stream is None", job, s)
  | some (.fileStream h) =>
    match fs.writeAll s h data with
    | (res, h, s) =>
      (res.mapError (·.text), { job with dataStream := some (.fileStream h) }, s)
  | some (.bufStream old pos) =>
    (.ok (), { job with dataStream := some (.bufStream (overwrite old pos data)
      (pos + data.length)) }, s)

/-- `write`. -/
def write (s : σ) (job : TransferJob H) (block : FileTransferBlock) :
    Except String Unit × TransferJob H × σ :=
  if block.id ≠ job.id then (.error "Wrong id", job, s)
  else
    match job.selectStream fs codec s block with
    | (.error e, job, s) => (.error e, job, s)
    | (.ok (), job, s) =>
      job.writeData fs s (if block.compressed then codec.decompress block.data else block.data)

/-! ### Reading -/

/-- What becomes of a job whose current file fails, or is read to its end. -/
def leaveFile (job : TransferJob H) : TransferJob H :=
  { job with fileNum := succI32 job.fileNum, fileConfirmed := false, fileIsWaiting := false }

/-- `open_data_stream`: whether the job is done. -/
def openDataStream (s : σ) (job : TransferJob H) : Except String Bool × TransferJob H :=
  match job.dataSource with
  | .filePath p =>
    match job.files[asUsize job.fileNum]? with
    | none => (.ok true, { job with dataStream := none })
    | some entry =>
      if job.dataStream.isNone then
        match fs.openRead s (join p entry.name) with
        | .ok file =>
          (.ok false, { job with
            dataStream := some (.fileStream file), fileConfirmed := false, fileIsWaiting := false })
        | .error e => (.error e.text, job.leaveFile)
      else (.ok false, job)
  | .memoryCursor c =>
    if job.dataStream.isNone then
      (.ok false, { job with dataSource := .memoryCursor [], dataStream := some (.bufStream c 0) })
    else (.ok false, job)

/-- `get_current_digest`. -/
def getCurrentDigest (s : σ) (job : TransferJob H) : Except String Metadata :=
  match job.dataStream with
  | none => .error "file is None"
  | some (.fileStream h) => (fs.fileMetadata s h).mapError (·.text)
  | some (.bufStream ..) => .error "No digest for buf stream"

/-- The digest that `send_current_digest` sends. -/
def currentDigest (job : TransferJob H) (m : Metadata) : FileTransferDigest where
  id := job.id
  fileNum := job.fileNum
  lastModified := m.modifiedSecs
  fileSize := m.len
  isUpload := false
  isIdentical := false
  transferredSize := 0
  isResume := job.isResume

/-- Whether `init_data_stream` is to offer the current file. -/
def offers (job : TransferJob H) : Bool :=
  job.type = .generic && job.enableOverwriteDetection && !job.fileConfirmed && !job.fileIsWaiting

/-- `init_data_stream`, with the digest it sends. -/
def initDataStream (s : σ) (job : TransferJob H) :
    Except String (Option FileTransferDigest) × TransferJob H :=
  match job.openDataStream fs s with
  | (.error e, job) => (.error e, job)
  | (.ok true, job) => (.ok none, job)
  | (.ok false, job) =>
    if job.offers then
      match job.getCurrentDigest fs s with
      | .error e => (.error e, job)
      | .ok m => (.ok (some (job.currentDigest m)), { job with fileIsWaiting := true })
    else (.ok none, job)

/-- `BUF_SIZE`. -/
def bufSize : ℕ := 128 * 1024

/-- `DataStream::read`, of so many bytes at most. -/
def readStream (s : σ) (stream : DataStream H) (room : ℕ) : Except String Bytes × DataStream H :=
  match stream with
  | .fileStream h =>
    match fs.read s h room with
    | (res, h) => (res.mapError (·.text), .fileStream h)
  | .bufStream data pos =>
    (.ok ((data.drop pos).take room), .bufStream data (pos + ((data.drop pos).take room).length))

/-- The loop of `read`: until the stream is at its end or the buffer full. Every round but the last
reads a byte, so that there are no more rounds than `fuel`. -/
def readLoop (s : σ) : ℕ → DataStream H → ℕ → Bytes → Except String Bytes × DataStream H
  | 0, stream, _, buf => (.ok buf, stream)
  | fuel + 1, stream, room, buf =>
    match readStream fs s stream room with
    | (.error e, stream) => (.error e, stream)
    | (.ok data, stream) =>
      if data = [] ∨ room - data.length = 0 then (.ok (buf ++ data), stream)
      else readLoop s fuel stream (room - data.length) (buf ++ data)

/-- `get_ext`. -/
def getExt (name : Path) : Path :=
  if '.' ∈ name then (name.reverse.takeWhile (· ≠ '.')).reverse else []

/-- `is_compressed_file`. -/
def isCompressedFile (name : Path) : Bool :=
  ["xz", "gz", "zip", "7z", "rar", "bz2", "tgz", "png", "jpg"].any (·.toList = getExt name)

/-- The name that `read` knows the current file by, `none` behind the last. -/
def currentName (job : TransferJob H) : Option Path :=
  match job.dataSource with
  | .filePath p =>
    job.files[asUsize job.fileNum]?.map fun entry =>
      if job.files.length = 1 ∧ entry.name = [] then fileName p else entry.name
  | .memoryCursor _ => some []

/-- The data of a block, compressed where that makes it shorter. -/
def packBlock (job : TransferJob H) (name : Path) (buf : Bytes) : Bytes × Bool :=
  match job.dataSource with
  | .filePath _ =>
    if isCompressedFile name then (buf, false)
    else if (codec.compress buf).length < buf.length then (codec.compress buf, true)
    else (buf, false)
  | .memoryCursor _ => (buf, false)

/-- `read`. -/
def read (s : σ) (job : TransferJob H) :
    Except String (Option FileTransferBlock) × TransferJob H :=
  if job.type = .generic ∧ job.enableOverwriteDetection ∧ ¬ job.fileConfirmed then (.ok none, job)
  else
    match job.currentName with
    | none => (.ok none, { job with dataStream := none })
    | some name =>
      match job.dataStream with
      | none => (.error "data stream is None", job)
      | some stream =>
        match readLoop fs s (bufSize + 1) stream bufSize [] with
        | (.error e, _) => (.error e, { job with dataStream := none }.leaveFile)
        | (.ok [], _) =>
          match job.dataSource with
          | .memoryCursor _ => (.ok none, { job with dataStream := none })
          | .filePath _ =>
            (.ok (some ⟨job.id, job.fileNum, [], false⟩), { job with dataStream := none }.leaveFile)
        | (.ok buf, stream) =>
          let (data, compressed) := job.packBlock codec name buf
          (.ok (some ⟨job.id, job.fileNum, data, compressed⟩),
            { job with dataStream := some stream })

/-! ### Confirmations -/

/-- `set_file_confirmed`. -/
def setFileConfirmed (job : TransferJob H) (fileConfirmed : Bool) : TransferJob H :=
  { job with fileConfirmed := fileConfirmed, fileSkipped := false }

/-- `set_file_skipped`. -/
def setFileSkipped (job : TransferJob H) : TransferJob H :=
  { job with
    dataStream := none
    fileConfirmed := false
    fileIsWaiting := false
    fileNum := succI32 job.fileNum
    fileSkipped := true }

/-- `job_skipped`. -/
def jobSkipped (job : TransferJob H) : Bool := job.fileSkipped && job.files.length = 1

/-- `job_completed`. -/
def jobCompleted (job : TransferJob H) : Bool :=
  !job.enableOverwriteDetection || (!job.fileConfirmed && !job.fileIsWaiting)

/-- `job_error`. -/
def jobError (job : TransferJob H) : Option String :=
  if job.jobSkipped then some "skipped" else none

/-- The file that `set_stream_offset` opens. -/
def openAtOffset (s : σ) (path : Path) : Option H × σ :=
  if fs.pathExists s (path ++ downloadSuffix) ∧ fs.pathExists s (path ++ digestSuffix) then
    match fs.openWrite s (path ++ downloadSuffix) with
    | (.ok f, s) => (some f, s)
    | (.error _, s) => (none, s)
  else if fs.pathExists s path then ((fs.openRead s path).toOption, s)
  else (none, s)

/-- `set_stream_offset` of an entry that there is. -/
def setStreamOffset (s : σ) (job : TransferJob H) (entry : FileEntry) (offset : ℕ) :
    TransferJob H × σ :=
  match job.dataSource with
  | .memoryCursor _ => (job, s)
  | .filePath p =>
    match job.resolveEntryPath fs s p entry.name with
    | none => (job, s)
    | some path =>
      match openAtOffset fs s path with
      | (none, s) => (job, s)
      | (some f, s) =>
        match fs.seek s f offset with
        | none => (job, s)
        | some f => ({ job with dataStream := some (.fileStream f) }, s)

/-- `confirm`. An offset into a file behind the last panics, which is `none`. -/
def confirm (s : σ) (job : TransferJob H) (r : FileTransferSendConfirmRequest) :
    Option (TransferJob H × σ) :=
  if job.fileNum ≠ r.fileNum then some (job, s)
  else
    match r.union with
    | some (.skip true) => some (job.setFileSkipped, s)
    | some (.skip false) => some (job.setFileConfirmed true, s)
    | some (.offsetBlk offset) =>
      if 0 < offset then
        match job.dataSource with
        | .memoryCursor _ => some (job.setFileConfirmed true, s)
        | .filePath _ =>
          job.files[asUsize r.fileNum]?.map fun entry =>
            (job.setFileConfirmed true).setStreamOffset fs s entry offset.toNat
      else some (job.setFileConfirmed true, s)
    | none => some (job, s)

end TransferJob

/-! ## Digests -/

inductive DigestCheckResult
  | isSame
  | needConfirm (digest : FileTransferDigest)
  | noSuchFile
deriving DecidableEq

/-- The size of a `.download` that may be gone on with: its digest is the one offered, and it is not
empty. -/
def resumableSize (s : σ) (isResume : Bool) (filePath : Path) (digest : FileTransferDigest) :
    Option ℕ :=
  if isResume ∧ fs.pathExists s (filePath ++ digestSuffix) ∧
      fs.pathExists s (filePath ++ downloadSuffix) then
    ((fs.readToString s (filePath ++ digestSuffix)).bind codec.digestFromJson).bind fun localDigest =>
      if localDigest.modified = digest.lastModified ∧ localDigest.size = digest.fileSize then
        match fs.metadata s (filePath ++ downloadSuffix) with
        | .ok m => if 0 < m.len then some m.len else none
        | .error _ => none
      else none
  else none

/-- `is_write_need_confirmation`. -/
def isWriteNeedConfirmation (s : σ) (isResume : Bool) (filePath : Path)
    (digest : FileTransferDigest) : Except String DigestCheckResult :=
  match resumableSize fs codec s isResume filePath digest with
  | some transferredSize => .ok (.needConfirm
      { digest with
        isUpload := false, isIdentical := true, transferredSize := transferredSize
        isResume := false })
  | none =>
    if fs.pathExists s filePath ∧ fs.isFile s filePath then
      match fs.metadata s filePath with
      | .error e => .error e.text
      | .ok m => .ok (.needConfirm
          { id := digest.id
            fileNum := digest.fileNum
            lastModified := m.modifiedSecs
            fileSize := m.len
            isUpload := false
            isIdentical := digest.lastModified * 10 ^ 9 = m.modified && digest.fileSize = m.len
            transferredSize := 0
            isResume := false })
    else .ok .noSuchFile

end FileSystem

end RustDesk.FileTransfer
