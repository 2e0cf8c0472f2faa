import RustDesk.Common.Run
import RustDesk.FileTransfer.Job

/-!
# The jobs that read

Reference: `libs/hbb_common/src/fs.rs` (`init_jobs`, `handle_read_jobs`, `get_job`, `remove_job`), with
what the callers of `handle_read_jobs` do to the list between two ticks (`src/server/connection.rs`,
`src/client/io_loop.rs`). The logs of the jobs are left out.

A `ReadSide` keeps beside each job a log of what was sent for it and of the confirmations it was
given, with the number of the file that the job was at.
-/

namespace RustDesk.FileTransfer

section FileSystem

variable {σ H : Type*} (fs : FileSystem σ H) (codec : Codec)

/-- `new_error`, of a job. -/
def newError (job : TransferJob H) (e : String) : FileResponse := .error job.id e job.fileNum

/-- What `init_jobs` does to a job, with what it sends. -/
def TransferJob.initJob (s : σ) (job : TransferJob H) : List FileResponse × TransferJob H :=
  match job.initDataStream fs s with
  | (.error e, job) => ([newError job e], job)
  | (.ok (some digest), job) => ([.digest digest], job)
  | (.ok none, job) => ([], job)

/-- `init_jobs`. -/
def initJobs (s : σ) : List (TransferJob H) → List FileResponse × List (TransferJob H)
  | [] => ([], [])
  | job :: jobs =>
    let (sent, job) := if job.isLastJob then ([], job) else job.initJob fs s
    let (out, jobs) := initJobs s jobs
    (sent ++ out, job :: jobs)

/-- What `handle_read_jobs` sends for a job once `read` returns `None`. -/
def TransferJob.finish (job : TransferJob H) : FileResponse :=
  match job.jobError with
  | some e => newError job e
  | none => .done job.id job.fileNum

/-- What the loop of `handle_read_jobs` does to a job, with what it sends and whether the job is
finished. -/
def TransferJob.readJob (s : σ) (job : TransferJob H) :
    List FileResponse × Bool × TransferJob H :=
  match job.read fs codec s with
  | (.error e, job) => ([newError job e], false, job)
  | (.ok (some block), job) => ([.block block], false, job)
  | (.ok none, job) => if job.jobCompleted then ([job.finish], true, job) else ([], false, job)

/-- The loop of `handle_read_jobs`: it breaks behind the first job that it reads. With the id of the
job that is finished. -/
def readFirst (s : σ) :
    List (TransferJob H) → List FileResponse × Option ℤ × List (TransferJob H)
  | [] => ([], none, [])
  | job :: jobs =>
    if job.isLastJob then
      let (out, finished, jobs) := readFirst s jobs
      (out, finished, job :: jobs)
    else
      let (out, finished, job) := job.readJob fs codec s
      (out, if finished then some job.id else none, job :: jobs)

/-- `remove_job`. -/
def removeJob (id : ℤ) (jobs : List (TransferJob H)) : List (TransferJob H) :=
  jobs.eraseP (·.id = id)

/-- `handle_read_jobs`. The file system may have changed between the two loops. -/
def handleReadJobs (s s' : σ) (jobs : List (TransferJob H)) :
    List FileResponse × List (TransferJob H) :=
  let (out, jobs) := initJobs fs s jobs
  let (out', finished, jobs) := readFirst fs codec s' jobs
  (out ++ out', match finished with
    | some id => removeJob id jobs
    | none => jobs)

/-! ## Jobs with their logs -/

/-- What happens to a job. -/
inductive JobEvent
  | sent (msg : FileResponse)
  | confirmed (r : FileTransferSendConfirmRequest)
deriving DecidableEq

/-- Whether a file is dealt with by an event at it: its end is sent, an error is reported, or a
confirmation that names it says to skip it. -/
def JobEvent.Settles (i : ℤ) : JobEvent → Prop
  | .sent (.block block) => block.fileNum = i ∧ block.data = [] ∧ block.compressed = false
  | .sent (.error ..) => True
  | .confirmed r => r.fileNum = i ∧ r.union = some (.skip true)
  | _ => False

instance (i : ℤ) (ev : JobEvent) : Decidable (ev.Settles i) := by
  unfold JobEvent.Settles
  split <;> infer_instance

/-- A job, the number of the file it started at, and its log. An event comes with the number of the
file that the job was at. -/
structure Tracked (H : Type*) where
  job : TransferJob H
  start : ℤ
  log : List (ℤ × JobEvent)
deriving DecidableEq

namespace Tracked

/-- The file of this number was dealt with. -/
def Dealt (t : Tracked H) (i : ℤ) : Prop := ∃ e ∈ t.log, e.1 = i ∧ e.2.Settles i

/-- Every file from the start on was dealt with. -/
def AllDealt (t : Tracked H) : Prop :=
  ∀ i : ℕ, t.start ≤ i → i < t.job.files.length → t.Dealt i

def SentDone (t : Tracked H) : Prop := ∃ e ∈ t.log, ∃ id n, e.2 = .sent (.done id n)

/-- What a job comes to, with messages. -/
def send (t : Tracked H) (out : List FileResponse) (job : TransferJob H) : Tracked H :=
  { t with job := job, log := t.log ++ out.map fun msg => (t.job.fileNum, .sent msg) }

def initJob (s : σ) (t : Tracked H) : Tracked H :=
  if t.job.isLastJob then t else t.send (t.job.initJob fs s).1 (t.job.initJob fs s).2

def readJob (s : σ) (t : Tracked H) : Tracked H :=
  t.send (t.job.readJob fs codec s).1 (t.job.readJob fs codec s).2.2

/-- The loop of `handle_read_jobs`, with the logs. -/
def readFirst (s : σ) : List (Tracked H) → Option ℤ × List (Tracked H)
  | [] => (none, [])
  | t :: ts =>
    if t.job.isLastJob then
      let (finished, ts) := readFirst s ts
      (finished, t :: ts)
    else
      (if (t.job.readJob fs codec s).2.1 then some (t.readJob fs codec s).job.id else none,
        t.readJob fs codec s :: ts)

/-- A confirmation, `none` where the code panics. -/
def confirm (s : σ) (r : FileTransferSendConfirmRequest) (t : Tracked H) : Option (Tracked H) :=
  (t.job.confirm fs s r).map fun res =>
    { t with job := res.1, log := t.log ++ [(t.job.fileNum, .confirmed r)] }

end Tracked

/-- The jobs that read, and those that were removed because they had finished. -/
structure ReadSide (H : Type*) where
  jobs : List (Tracked H)
  removed : List (Tracked H)
deriving DecidableEq

inductive ReadAction (σ : Type*)
  /-- a tick of `handle_read_jobs`; the file system at its two loops is any -/
  | tick (s s' : σ)
  | confirm (s : σ) (r : FileTransferSendConfirmRequest)
  /-- a request to send; a job of an earlier session waits for `resume` -/
  | start (id : ℤ) (type : JobType) (dataSource : DataSource) (files : List FileEntry)
    (fileNum : ℤ) (enableOverwriteDetection isLastJob : Bool)
  | resume (id : ℤ)
  | cancel (id : ℤ)

/-- `get_job`, and what is done to the job. -/
def updateFirst {J : Type*} (p : J → Bool) (f : J → Option J) : List J → Option (List J)
  | [] => some []
  | x :: xs => if p x then (f x).map (· :: xs) else (updateFirst p f xs).map (x :: ·)

namespace ReadSide

/-- No job. -/
def empty : ReadSide H := ⟨[], []⟩

/-- `handle_read_jobs`, with the logs. -/
def tick (s s' : σ) (st : ReadSide H) : ReadSide H :=
  match Tracked.readFirst fs codec s' (st.jobs.map (Tracked.initJob fs s)) with
  | (none, ts) => { st with jobs := ts }
  | (some id, ts) =>
    { jobs := ts.eraseP (·.job.id = id)
      removed := st.removed ++ (ts.find? (·.job.id = id)).toList }

/-- `Data::ResumeJob`, for a job that reads. -/
def resumed (t : Tracked H) : Tracked H :=
  match t.job.dataSource with
  | .filePath _ => { t with job := { t.job with isLastJob := false, isResume := true } }
  | .memoryCursor _ => t

def step (st : ReadSide H) : ReadAction σ → Option (ReadSide H)
  | .tick s s' => some (st.tick fs codec s s')
  | .confirm s r =>
    (updateFirst (·.job.id = r.id) (Tracked.confirm fs s r) st.jobs).map ({ st with jobs := · })
  | .start id type dataSource files fileNum od isLastJob =>
    let job := { TransferJob.newRead id type dataSource files fileNum od with
      isLastJob := isLastJob }
    some { st with jobs := st.jobs ++ [⟨job, fileNum, []⟩] }
  | .resume id =>
    (updateFirst (·.job.id = id) (some ∘ resumed) st.jobs).map ({ st with jobs := · })
  | .cancel id => some { st with jobs := st.jobs.eraseP (·.job.id = id) }

/-- `FileTransferDone` is sent, and a job removed, only once every file was dealt with. -/
def DoneMeansDealt (st : ReadSide H) : Prop :=
  (∀ t ∈ st.jobs ++ st.removed, t.SentDone → t.AllDealt) ∧ ∀ t ∈ st.removed, t.AllDealt

end ReadSide

end FileSystem

end RustDesk.FileTransfer
