import RustDesk.FileTransfer.Job

/-!
# The jobs that write

Reference: `src/client/io_loop.rs` (`Digest`, `Block`, `Done` and `Error` of a `FileResponse`,
`SetConfirmOverrideFile`, `cancel_transfer_job`) and `src/ui_cm_interface.rs` (`handle_fs`). A client
that downloads has its write jobs in the loop, a host that is uploaded to in its connection manager.
What the user sees of the progress is left out.
-/

namespace RustDesk.FileTransfer

/-- Who runs a write job. -/
inductive Writer
  | client
  | connectionManager
deriving DecidableEq

/-- What comes to the side that writes. -/
inductive WriteEvent
  /-- `Digest` at the client, from a peer that may support resuming -/
  | digest (isSupportResume : Bool) (digest : FileTransferDigest)
  /-- `SetConfirmOverrideFile`: the answer of the client's user -/
  | setConfirmOverrideFile (id fileNum : ℤ) (needOverride remember : Bool)
  /-- `CheckDigest` at the connection manager -/
  | checkDigest (id fileNum : ℤ) (fileSize lastModified : ℕ) (isUpload isResume : Bool)
  /-- `SendConfirm` at the connection manager -/
  | sendConfirm (r : FileTransferSendConfirmRequest)
  /-- `Block`, `WriteBlock` -/
  | block (writer : Writer) (block : FileTransferBlock)
  /-- `Done`, `WriteDone` -/
  | done (writer : Writer) (id fileNum : ℤ)
  /-- `Error`, `WriteError` -/
  | error (writer : Writer) (id : ℤ) (err : String) (fileNum : ℤ)
  /-- `CancelJob`, `CancelWrite` -/
  | cancel (writer : Writer) (id : ℤ)
deriving DecidableEq

/-- What the side that writes does about an event, besides its job and its files. -/
inductive WriteOutput
  | response (r : FileResponse)
  | sendConfirm (r : FileTransferSendConfirmRequest)
  | cancel (id : ℤ)
  /-- ask the user -/
  | overrideFileConfirm (id fileNum : ℤ) (path : Path) (isIdentical : Bool)
  /-- tell the user -/
  | jobStatus (id fileNum : ℤ) (err : Option String)
deriving DecidableEq

section FileSystem

variable {σ H : Type*} (fs : FileSystem σ H) (codec : Codec)

/-- What an event leaves. -/
structure Written (σ H : Type*) where
  job : Option (TransferJob H)
  fileSystem : σ
  sent : List WriteOutput
deriving DecidableEq

namespace TransferJob

/-- `set_overwrite_strategy`. -/
def setOverwriteStrategy (job : TransferJob H) (overwriteStrategy : Option Bool) : TransferJob H :=
  { job with defaultOverwriteStrategy := overwriteStrategy }

/-- The client confirms, to its own job and to the peer. -/
def confirmBoth (s : σ) (job : TransferJob H) (r : FileTransferSendConfirmRequest) :
    Option (Written σ H) :=
  (job.confirm fs s r).map fun (job, s) => ⟨some job, s, [.sendConfirm r]⟩

/-- Whether to overwrite and from where on, as far as the client knows without its user. -/
def overwriteStrategy (job : TransferJob H) (digest : FileTransferDigest) :
    Option Bool × UInt32 :=
  if digest.isIdentical ∧ job.isResume ∧ 0 < digest.transferredSize then
    (some true, UInt32.ofNat digest.transferredSize)
  else (job.defaultOverwriteStrategy, 0)

/-- A digest at the client. -/
def receiveDigest (s : σ) (job : TransferJob H) (isSupportResume : Bool)
    (digest : FileTransferDigest) : Option (Written σ H) :=
  match job.files[asUsize digest.fileNum]?, job.dataSource with
  | some file, .filePath p =>
    let writePath := join p file.name
    let job := job.setDigest digest.fileSize digest.lastModified
    match isWriteNeedConfirmation fs codec s (isSupportResume && job.isResume) writePath digest with
    | .ok .isSame => job.confirmBoth fs s ⟨digest.id, digest.fileNum, some (.skip true)⟩
    | .ok (.needConfirm digest) =>
      match job.overwriteStrategy digest with
      | (some true, offset) =>
        job.confirmBoth fs s ⟨digest.id, digest.fileNum, some (.offsetBlk offset)⟩
      | (some false, _) => job.confirmBoth fs s ⟨digest.id, digest.fileNum, some (.skip true)⟩
      | (none, _) => some ⟨some job, s,
          [.overrideFileConfirm digest.id digest.fileNum writePath digest.isIdentical]⟩
    | .ok .noSuchFile => job.confirmBoth fs s ⟨digest.id, digest.fileNum, some (.offsetBlk 0)⟩
    | .error _ => some ⟨some job, s, []⟩
  | _, _ => some ⟨some job, s, []⟩

/-- The answer of the client's user. -/
def receiveAnswer (s : σ) (job : TransferJob H) (id fileNum : ℤ) (needOverride remember : Bool) :
    Option (Written σ H) :=
  let job := if remember then job.setOverwriteStrategy (some needOverride) else job
  job.confirmBoth fs s
    ⟨id, fileNum, some (if needOverride then .offsetBlk 0 else .skip true)⟩

/-- A digest at the connection manager. -/
def checkDigest (s : σ) (job : TransferJob H) (id fileNum : ℤ) (fileSize lastModified : ℕ)
    (isUpload isResume : Bool) : Written σ H :=
  let digest : FileTransferDigest := ⟨id, fileNum, lastModified, fileSize, false, false, 0, false⟩
  match job.files[asUsize fileNum]?, job.dataSource with
  | some file, .filePath p =>
    match isWriteNeedConfirmation fs codec s isResume (join p file.name) digest with
    | .ok res =>
      ⟨some (job.setDigest fileSize lastModified), s, match res with
        | .isSame => [.sendConfirm ⟨id, fileNum, some (.skip true)⟩]
        | .needConfirm digest => [.response (.digest { digest with isUpload := isUpload })]
        | .noSuchFile => [.sendConfirm ⟨id, fileNum, some (.offsetBlk 0)⟩]⟩
    | .error err => ⟨some job, s, [.response (.error id err fileNum)]⟩
  | _, _ => ⟨some job, s, []⟩

/-- A block. The client drops the error of `write`. -/
def receiveBlock (s : σ) (job : TransferJob H) (writer : Writer) (block : FileTransferBlock) :
    Written σ H :=
  match job.write fs codec s block with
  | (res, job, s) =>
    ⟨some job, s, match writer, res with
      | .connectionManager, .error err => [.response (.error block.id err block.fileNum)]
      | _, _ => []⟩

/-- The sender has sent everything. -/
def receiveDone (s : σ) (job : TransferJob H) (writer : Writer) (id fileNum : ℤ) : Written σ H :=
  ⟨none, job.modifyTime fs s, match writer with
    | .client => [.jobStatus id fileNum job.jobError]
    | .connectionManager => [.response (.done id fileNum)]⟩

/-- An event for a job. A panic is `none`. -/
def receive (s : σ) (job : TransferJob H) : WriteEvent → Option (Written σ H)
  | .digest isSupportResume digest => job.receiveDigest fs codec s isSupportResume digest
  | .setConfirmOverrideFile id fileNum needOverride remember =>
    job.receiveAnswer fs s id fileNum needOverride remember
  | .checkDigest id fileNum fileSize lastModified isUpload isResume =>
    some (job.checkDigest fs codec s id fileNum fileSize lastModified isUpload isResume)
  | .sendConfirm r => (job.confirm fs s r).map fun (job, s) => ⟨some job, s, []⟩
  | .block writer block => some (job.receiveBlock fs codec s writer block)
  | .done writer id fileNum => some (job.receiveDone fs s writer id fileNum)
  | .error .client id err fileNum => some ⟨none, s, [.jobStatus id fileNum (some err)]⟩
  | .error .connectionManager _ err fileNum =>
    some ⟨none, s, [.response (.error job.id err fileNum)]⟩
  | .cancel .client id => some ⟨none, job.removeDownloadFile fs s, [.cancel id]⟩
  | .cancel .connectionManager _ => some ⟨none, job.removeDownloadFile fs s, []⟩

end TransferJob

/-- The job that an event is for. -/
def WriteEvent.id : WriteEvent → ℤ
  | .digest _ d => d.id
  | .setConfirmOverrideFile id .. => id
  | .checkDigest id .. => id
  | .sendConfirm r => r.id
  | .block _ b => b.id
  | .done _ id _ => id
  | .error _ id .. => id
  | .cancel _ id => id

/-- An event for which there is no job. -/
def WriteEvent.unclaimed : WriteEvent → List WriteOutput
  | .done .client id fileNum => [.jobStatus id fileNum none]
  | .error .client id err fileNum => [.jobStatus id fileNum (some err)]
  | .cancel .client id => [.cancel id]
  | _ => []

/-- An event, at a side with one write job at most. -/
def receiveWrite (s : σ) (job : Option (TransferJob H)) (ev : WriteEvent) :
    Option (Written σ H) :=
  match job with
  | none => some ⟨none, s, ev.unclaimed⟩
  | some job =>
    if job.id = ev.id then job.receive fs codec s ev else some ⟨some job, s, ev.unclaimed⟩

end FileSystem

end RustDesk.FileTransfer
