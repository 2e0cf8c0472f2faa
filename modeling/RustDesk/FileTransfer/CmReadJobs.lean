import RustDesk.FileTransfer.DoneDealt

/-!
# Read jobs in the connection manager

Reference: `src/ui_cm_interface.rs` (`handle_read_jobs_tick`, `init_read_job_for_cm`,
`SendConfirmForRead`), `libs/hbb_common/src/fs.rs` (`init_data_stream_for_cm`) and what
`src/server/connection.rs` does between the peer and the connection manager. On Windows the files are
read there, by a copy of `handle_read_jobs`. It differs where a file fails, since the job is then over,
and where a confirmation is for another file, since its number is not looked at.

A `ReadPair` has the same job in the two places. It runs them side by side, and keeps what the peer
receives of either.
-/

namespace RustDesk.FileTransfer

/-! ## The connection manager -/

/-- `ipc::Data`, as far as it is about jobs that read. -/
inductive CmData
  | fileReadError (id fileNum : ℤ) (err : String)
  | fileBlockFromCM (id fileNum : ℤ) (data : Bytes) (compressed : Bool)
  | fileReadDone (id fileNum : ℤ)
  | fileDigestFromCM (id fileNum : ℤ) (lastModified fileSize : ℕ) (isResume : Bool)
deriving DecidableEq

section FileSystem

variable {σ H : Type*} (fs : FileSystem σ H) (codec : Codec)

namespace TransferJob

/-- `init_data_stream_for_cm`. -/
def initDataStreamForCm (s : σ) (job : TransferJob H) :
    Except String (Option (ℕ × ℕ)) × TransferJob H :=
  match job.openDataStream fs s with
  | (.error e, job) => (.error e, job)
  | (.ok true, job) => (.ok none, job)
  | (.ok false, job) =>
    if job.offers then
      match job.getCurrentDigest fs s with
      | .error e => (.error e, job)
      | .ok m => (.ok (some (m.modifiedSecs, m.len)), { job with fileIsWaiting := true })
    else (.ok none, job)

/-- `init_read_job_for_cm`. -/
def initReadJobForCm (s : σ) (job : TransferJob H) : Except String (List CmData) × TransferJob H :=
  match job.initDataStreamForCm fs s with
  | (.error e, job) => (.error e, job)
  | (.ok none, job) => (.ok [], job)
  | (.ok (some (lastModified, fileSize)), job) =>
    (.ok [.fileDigestFromCM job.id job.fileNum lastModified fileSize job.isResume], job)

/-- What `handle_read_jobs_tick` sends for a job once `read` returns `None`. -/
def finishForCm (job : TransferJob H) : CmData :=
  match job.jobError with
  | some e => .fileReadError job.id job.fileNum e
  | none => .fileReadDone job.id job.fileNum

/-- What `handle_read_jobs_tick` does to the job that it reads from: what it sends and whether the job
is finished. -/
def readJobForCm (s : σ) (job : TransferJob H) : List CmData × Bool × TransferJob H :=
  match job.read fs codec s with
  | (.error e, job) => ([.fileReadError job.id job.fileNum e], true, job)
  | (.ok (some block), job) =>
    ([.fileBlockFromCM block.id block.fileNum block.data block.compressed], false, job)
  | (.ok none, job) => if job.jobCompleted then ([job.finishForCm], true, job) else ([], false, job)

end TransferJob

/-- The loop of `handle_read_jobs_tick`, with the ids of the jobs that are finished. -/
def tickJobs (s s' : σ) : List (TransferJob H) → List CmData × List ℤ × List (TransferJob H)
  | [] => ([], [], [])
  | job :: jobs =>
    if job.isLastJob then
      let (out, finished, jobs) := tickJobs s s' jobs
      (out, finished, job :: jobs)
    else
      match job.initReadJobForCm fs s with
      | (.error e, job) =>
        let (out, finished, jobs) := tickJobs s s' jobs
        (.fileReadError job.id job.fileNum e :: out, job.id :: finished, job :: jobs)
      | (.ok out, job) =>
        let (out', finished, job) := job.readJobForCm fs codec s'
        (out ++ out', if finished then [job.id] else [], job :: jobs)

/-- `handle_read_jobs_tick`. -/
def handleReadJobsTick (s s' : σ) (jobs : List (TransferJob H)) :
    List CmData × List (TransferJob H) :=
  let (out, finished, jobs) := tickJobs fs codec s s' jobs
  (out, finished.foldl (fun jobs id => removeJob id jobs) jobs)

/-- `get_job`, and `confirm`. -/
def confirmJob (s : σ) (id : ℤ) (request : TransferJob H → FileTransferSendConfirmRequest)
    (jobs : List (TransferJob H)) : Option (List (TransferJob H)) :=
  updateFirst (·.id = id) (fun job => (job.confirm fs s (request job)).map Prod.fst) jobs

/-- `SendConfirmForRead`. -/
def sendConfirmForRead (s : σ) (id : ℤ) (skip : Bool) (offsetBlk : UInt32)
    (jobs : List (TransferJob H)) : Option (List (TransferJob H)) :=
  confirmJob fs s id (fun job =>
    ⟨id, job.fileNum, some (if skip then .skip true else .offsetBlk offsetBlk)⟩) jobs

/-! ## The connection between the peer and the connection manager -/

/-- The getter `skip`. -/
def FileTransferSendConfirmRequest.skip (r : FileTransferSendConfirmRequest) : Bool :=
  match r.union with
  | some (.skip s) => s
  | _ => false

/-- The getter `offset_blk`. -/
def FileTransferSendConfirmRequest.offsetBlk (r : FileTransferSendConfirmRequest) : UInt32 :=
  match r.union with
  | some (.offsetBlk offset) => offset
  | _ => 0

/-- What the connection sends to the peer for a message of the connection manager, and the
`cm_read_job_ids` that it leaves. A message of a job that it does not know is dropped. -/
def forwardFromCm (ids : List ℤ) : CmData → List FileResponse × List ℤ
  | .fileReadError id fileNum err =>
    if id ∈ ids then ([.error id err fileNum], ids.filter (· ≠ id)) else ([], ids)
  | .fileBlockFromCM id fileNum data compressed =>
    (if id ∈ ids then [.block ⟨id, fileNum, data, compressed⟩] else [], ids)
  | .fileReadDone id fileNum =>
    if id ∈ ids then ([.done id fileNum], ids.filter (· ≠ id)) else ([], ids)
  | .fileDigestFromCM id fileNum lastModified fileSize isResume =>
    (if id ∈ ids then
      [.digest ⟨id, fileNum, lastModified, fileSize, false, false, 0, isResume⟩] else [], ids)

def forwardAll (ids : List ℤ) : List CmData → List FileResponse × List ℤ
  | [] => ([], ids)
  | d :: ds =>
    let (out, ids) := forwardFromCm ids d
    let (out', ids) := forwardAll ids ds
    (out ++ out', ids)

/-- The connection manager's jobs, the jobs that the connection knows there, and what the peer has
received. -/
structure CmReadSide (H : Type*) where
  jobs : List (TransferJob H)
  cmReadJobIds : List ℤ
  received : List FileResponse
deriving DecidableEq

/-- The connection's own jobs, and what the peer has received. -/
structure OwnReadSide (H : Type*) where
  jobs : List (TransferJob H)
  received : List FileResponse
deriving DecidableEq

/-- What happens while a job is read: the timer, with the file system as it is at either moment, or a
confirmation of the peer. -/
inductive PairAction (σ : Type*)
  | tick (s s' : σ)
  | confirm (s : σ) (r : FileTransferSendConfirmRequest)

def CmReadSide.step (side : CmReadSide H) : PairAction σ → Option (CmReadSide H)
  | .tick s s' =>
    let (out, jobs) := handleReadJobsTick fs codec s s' side.jobs
    let (sent, ids) := forwardAll side.cmReadJobIds out
    some ⟨jobs, ids, side.received ++ sent⟩
  | .confirm s r =>
    if r.id ∈ side.cmReadJobIds then
      (sendConfirmForRead fs s r.id r.skip r.offsetBlk side.jobs).map ({ side with jobs := · })
    else some side

def OwnReadSide.step (side : OwnReadSide H) : PairAction σ → Option (OwnReadSide H)
  | .tick s s' =>
    let (out, jobs) := handleReadJobs fs codec s s' side.jobs
    some ⟨jobs, side.received ++ out⟩
  | .confirm s r =>
    (confirmJob fs s r.id (fun _ => r) side.jobs).map ({ side with jobs := · })

/-- The two sides. -/
structure ReadPair (H : Type*) where
  own : OwnReadSide H
  cm : CmReadSide H
deriving DecidableEq

namespace ReadPair

/-- One job, on both sides. -/
def start (job : TransferJob H) : ReadPair H := ⟨⟨[job], []⟩, ⟨[job], [job.id], []⟩⟩

def step (st : ReadPair H) (a : PairAction σ) : Option (ReadPair H) :=
  (st.own.step fs codec a).bind fun own => (st.cm.step fs codec a).map fun cm => ⟨own, cm⟩

end ReadPair

/-! ## What keeps the two together -/

namespace TransferJob

/-- The stream that a tick reads from: the one that is open, or the one that it opens. -/
def tickStream (s : σ) (job : TransferJob H) : Option (DataStream H) :=
  match job.dataSource with
  | .filePath p =>
    job.files[asUsize job.fileNum]?.bind fun entry =>
      match job.dataStream with
      | some stream => some stream
      | none => (fs.openRead s (join p entry.name)).toOption.map .fileStream
  | .memoryCursor c => some (job.dataStream.getD (.bufStream c 0))

/-- A tick opens the current file, and forgets an earlier confirmation. -/
def Opening (job : TransferJob H) : Prop :=
  job.dataStream = none ∧ ∃ p, job.dataSource = .filePath p

/-- The current file is there to be read: it can be opened, and offered where it is to be, and a read
of it does not fail. -/
structure Readable (s s' : σ) (job : TransferJob H) : Prop where
  opens : ∀ p entry, job.dataSource = .filePath p → job.files[asUsize job.fileNum]? = some entry →
    job.dataStream = none → ∃ h, fs.openRead s (join p entry.name) = .ok h
  offered : ∀ stream, job.tickStream fs s = some stream → job.type = .generic →
    job.enableOverwriteDetection = true →
      job.Opening ∨ job.fileConfirmed = false ∧ job.fileIsWaiting = false →
        ∃ h m, stream = .fileStream h ∧ fs.fileMetadata s h = .ok m
  reads : ∀ stream, job.tickStream fs s = some stream →
    (job.type = .generic → job.enableOverwriteDetection = true →
      job.fileConfirmed = true ∧ ¬ job.Opening) →
        ∃ data, (readLoop fs s' (bufSize + 1) stream bufSize []).1 = .ok data

/-- A confirmation is for the current file and says something, or there is nothing left to confirm and
it says no more than that. -/
def Names (job : TransferJob H) (r : FileTransferSendConfirmRequest) : Prop :=
  r.fileNum = job.fileNum ∧ r.union ≠ none ∨
    job.fileConfirmed = true ∧ job.fileSkipped = false ∧ r.skip = false ∧ r.offsetBlk = 0

end TransferJob

/-- What holds an action to the claim: while the job is there, its current file is readable, and a
confirmation names it. -/
def ReadPair.Fits (st : ReadPair H) : PairAction σ → Prop
  | .tick s s' => ∀ job ∈ st.own.jobs, job.Readable fs s s'
  | .confirm _ r => ∀ job ∈ st.own.jobs, r.id = job.id → job.Names r

variable {fs : FileSystem σ H} {codec : Codec} {s s' : σ} {job job' : TransferJob H}

namespace TransferJob

/-! ## One tick -/

/-- The two ways to prepare a job differ in who sends the digest. -/
theorem initDataStreamForCm_eq (fs : FileSystem σ H) (s : σ) (job : TransferJob H) : job.initDataStreamForCm fs s =
      ((job.initDataStream fs s).1.map fun d => d.map fun d => (d.lastModified, d.fileSize),
        (job.initDataStream fs s).2) := by
  unfold initDataStreamForCm initDataStream
  generalize job.openDataStream fs s = res
  obtain ⟨e | done, job₁⟩ := res
  · rfl
  · cases done with
    | true => rfl
    | false =>
      dsimp only
      by_cases hoffers : job₁.offers = true
      · rw [if_pos hoffers, if_pos hoffers]
        cases job₁.getCurrentDigest fs s <;> rfl
      · rw [if_neg hoffers, if_neg hoffers]
        rfl

/-- The digest is that of the job as it goes on. -/
theorem initDataStream_digest {d : FileTransferDigest} (h : job.initDataStream fs s = (.ok (some d), job')) :
    d = ⟨job'.id, job'.fileNum, d.lastModified, d.fileSize, false, false, 0, job'.isResume⟩ := by
  unfold initDataStream at h
  split at h
  · cases h
  · cases h
  · split at h
    · split at h
      · cases h
      · cases h
        rfl
    · cases h

/-- What the connection sends for the digest of a job is what `init_data_stream` sends. -/
theorem forward_digest {ids : List ℤ} {d : Option FileTransferDigest}
    (h : job.initDataStream fs s = (.ok d, job')) (hid : job'.id ∈ ids) :
    ∃ out, job.initReadJobForCm fs s = (.ok out, job') ∧
      forwardAll ids out = ((job.initJob fs s).1, ids) ∧ (job.initJob fs s).2 = job' := by
  unfold initReadJobForCm initJob
  rw [initDataStreamForCm_eq, h]
  cases d with
  | none => exact ⟨[], rfl, rfl, rfl⟩
  | some d =>
    refine ⟨_, rfl, ?_, rfl⟩
    show ((if job'.id ∈ ids then _ else _) ++ [], ids) = ([_], ids)
    rw [if_pos hid, List.append_nil, ← initDataStream_digest h]

/-- `read` waits, is behind the last file, or reads its stream. -/
theorem read_ok (fs : FileSystem σ H) (codec : Codec) (s' : σ) (job : TransferJob H)
    (h : ¬ (job.type = .generic ∧ job.enableOverwriteDetection = true ∧ ¬ job.fileConfirmed = true) →
      job.currentName = none ∨ ∃ stream data, job.dataStream = some stream ∧
        (readLoop fs s' (bufSize + 1) stream bufSize []).1 = .ok data) :
    ∃ res, (job.read fs codec s').1 = .ok res := by
  unfold read
  split
  · exact ⟨_, rfl⟩
  next hwait =>
    obtain hname | ⟨stream, data, hstream, hdata⟩ := h hwait
    · rw [hname]
      exact ⟨_, rfl⟩
    · rw [hstream]
      split
      · exact ⟨_, rfl⟩
      · dsimp only
        generalize readLoop fs s' (bufSize + 1) stream bufSize [] = res at hdata
        obtain ⟨r, stream'⟩ := res
        cases hdata
        cases data with
        | nil =>
          dsimp only
          split <;> exact ⟨_, rfl⟩
        | cons c data => exact ⟨_, rfl⟩

/-- What `open_data_stream` leaves of a job with a stream to read from. -/
structure Opened (fs : FileSystem σ H) (s : σ) (job job₁ : TransferJob H)
    (stream : DataStream H) : Prop where
  tickStream : job.tickStream fs s = some stream
  dataStream : job₁.dataStream = some stream
  type : job₁.type = job.type
  detection : job₁.enableOverwriteDetection = job.enableOverwriteDetection
  flags : job.Opening ∧ job₁.fileConfirmed = false ∧ job₁.fileIsWaiting = false ∨
    ¬ job.Opening ∧ job₁.fileConfirmed = job.fileConfirmed ∧ job₁.fileIsWaiting = job.fileIsWaiting

theorem Readable.open (h : job.Readable fs s s') :
    (∃ job₁, job.openDataStream fs s = (.ok true, job₁) ∧ job₁.currentName = none) ∨
      ∃ job₁ stream, job.openDataStream fs s = (.ok false, job₁) ∧ Opened fs s job job₁ stream := by
  unfold openDataStream
  cases hsource : job.dataSource with
  | filePath p =>
    cases hentry : job.files[asUsize job.fileNum]? with
    | none =>
      refine .inl ⟨_, rfl, ?_⟩
      simp [currentName, hentry]
    | some entry =>
      right
      dsimp only
      cases hstream : job.dataStream with
      | none =>
        obtain ⟨handle, hopen⟩ := h.opens p entry hsource hentry hstream
        rw [if_pos (show (none : Option (DataStream H)).isNone = true from rfl), hopen]
        refine ⟨_, .fileStream handle, rfl, ?_, rfl, rfl, rfl, .inl ⟨⟨hstream, p, hsource⟩, rfl, rfl⟩⟩
        simp [TransferJob.tickStream, hsource, hentry, hstream, hopen, Except.toOption]
      | some stream =>
        rw [if_neg (by simp)]
        refine ⟨job, stream, rfl, ?_, hstream, rfl, rfl, .inr ⟨?_, rfl, rfl⟩⟩
        · simp [TransferJob.tickStream, hsource, hentry, hstream]
        · rintro ⟨hnone, -⟩
          rw [hstream] at hnone
          cases hnone
  | memoryCursor c =>
    right
    have hopening : ¬ job.Opening := by
      rintro ⟨-, p, hp⟩
      rw [hsource] at hp
      cases hp
    dsimp only
    cases hstream : job.dataStream with
    | none =>
      rw [if_pos (show (none : Option (DataStream H)).isNone = true from rfl)]
      refine ⟨_, .bufStream c 0, rfl, ?_, rfl, rfl, rfl, .inr ⟨hopening, rfl, rfl⟩⟩
      simp [TransferJob.tickStream, hsource, hstream]
    | some stream =>
      rw [if_neg (by simp)]
      refine ⟨job, stream, rfl, ?_, hstream, rfl, rfl, .inr ⟨hopening, rfl, rfl⟩⟩
      simp [TransferJob.tickStream, hsource, hstream]

/-- A job whose current file is readable is prepared and read without an error. -/
theorem Readable.tick (h : job.Readable fs s s') (codec : Codec) :
    ∃ d job₁ res, job.initDataStream fs s = (.ok d, job₁) ∧ (job₁.read fs codec s').1 = .ok res := by
  unfold initDataStream
  obtain ⟨job₁, hopen, hname⟩ | ⟨job₁, stream, hopen, hopened⟩ := h.open
  · -- behind the last file
    rw [hopen]
    obtain ⟨res, hres⟩ := read_ok fs codec s' job₁ fun _ => .inl hname
    exact ⟨_, _, res, rfl, hres⟩
  · rw [hopen]
    dsimp only
    by_cases hoffers : job₁.offers = true
    · -- the file is offered, and the job waits
      obtain ⟨⟨⟨htype, hdetection⟩, hconfirmed⟩, hwaiting⟩ : ((job₁.type = .generic ∧
          job₁.enableOverwriteDetection = true) ∧ job₁.fileConfirmed = false) ∧ job₁.fileIsWaiting = false := by
        simpa [offers] using hoffers
      obtain ⟨handle, m, rfl, hm⟩ := h.offered stream hopened.tickStream (hopened.type ▸ htype)
        (hopened.detection ▸ hdetection) (by
          obtain ⟨hopening, -⟩ | ⟨-, hc, hw⟩ := hopened.flags
          · exact .inl hopening
          · exact .inr ⟨hc ▸ hconfirmed, hw ▸ hwaiting⟩)
      have hdigest : job₁.getCurrentDigest fs s = .ok m := by
        rw [getCurrentDigest, hopened.dataStream]
        dsimp only
        rw [hm]
        rfl
      rw [if_pos hoffers, hdigest]
      obtain ⟨res, hres⟩ := read_ok fs codec s' { job₁ with fileIsWaiting := true }
        fun hwait => absurd ⟨htype, hdetection, by simp [hconfirmed]⟩ hwait
      exact ⟨_, _, res, rfl, hres⟩
    · rw [if_neg hoffers]
      obtain ⟨res, hres⟩ := read_ok fs codec s' job₁ fun hwait => by
        obtain ⟨data, hdata⟩ := h.reads stream hopened.tickStream fun htype hdetection => by
          have hconfirmed : job₁.fileConfirmed = true := by
            by_contra hc
            exact hwait ⟨hopened.type ▸ htype, hopened.detection ▸ hdetection, hc⟩
          obtain ⟨-, hc, -⟩ | ⟨hopening, hc, -⟩ := hopened.flags
          · rw [hconfirmed] at hc
            cases hc
          · exact ⟨hc ▸ hconfirmed, hopening⟩
        exact .inr ⟨stream, data, hopened.dataStream, hdata⟩
      exact ⟨_, _, res, rfl, hres⟩

theorem read_block_id {block : FileTransferBlock}
    (h : (job.read fs codec s).1 = .ok (some block)) : block.id = job.id := by
  unfold read at h
  split at h
  · cases h
  · split at h
    · cases h
    · split at h
      · cases h
      · split at h
        · cases h
        · split at h
          · cases h
          · cases h
            rfl
        · cases h
          rfl

end TransferJob

theorem forwardAll_append (ids : List ℤ) (ds ds' : List CmData) : forwardAll ids (ds ++ ds') =
      ((forwardAll ids ds).1 ++ (forwardAll (forwardAll ids ds).2 ds').1,
        (forwardAll (forwardAll ids ds).2 ds').2) := by
  induction ds generalizing ids with
  | nil => rfl
  | cons d ds ih =>
    rw [List.cons_append, forwardAll, forwardAll]
    simp [ih]

theorem readJob_job (fs : FileSystem σ H) (codec : Codec) (s : σ) (job : TransferJob H) :
    (job.readJob fs codec s).2.2 = (job.read fs codec s).2 := by
  unfold TransferJob.readJob
  generalize job.read fs codec s = r
  obtain ⟨e | _ | block, job₁⟩ := r
  · rfl
  · dsimp only
    split <;> rfl
  · rfl

/-- What the connection sends for what is read of a job. -/
theorem forward_read {res : Option FileTransferBlock} (h : (job.read fs codec s).1 = .ok res) :
    (job.readJobForCm fs codec s).2 = (job.readJob fs codec s).2 ∧
      (forwardAll [job.id] (job.readJobForCm fs codec s).1).1 = (job.readJob fs codec s).1 ∧
      ((job.readJob fs codec s).2.1 = false →
        (forwardAll [job.id] (job.readJobForCm fs codec s).1).2 = [job.id]) := by
  have hkeeps := (TransferJob.read_spec fs codec s job).1
  have hblock := fun block (hb : res = some block) =>
    TransferJob.read_block_id (h.trans (congrArg Except.ok hb))
  unfold TransferJob.readJobForCm TransferJob.readJob
  generalize job.read fs codec s = r at h hkeeps
  obtain ⟨r, job₁⟩ := r
  cases h
  cases res with
  | some block =>
    obtain ⟨id, fileNum, data, compressed⟩ := block
    obtain rfl : id = job.id := hblock _ rfl
    refine ⟨rfl, ?_, fun _ => rfl⟩
    simp [forwardAll, forwardFromCm]
  | none =>
    dsimp only
    by_cases hcompleted : job₁.jobCompleted = true
    · rw [if_pos hcompleted, if_pos hcompleted]
      refine ⟨rfl, ?_, fun h => by cases h⟩
      have hid : job₁.id = job.id := hkeeps.id
      unfold TransferJob.finishForCm TransferJob.finish newError
      cases job₁.jobError with
      | some | none => simp [forwardAll, forwardFromCm, hid]
    · rw [if_neg hcompleted, if_neg hcompleted]
      exact ⟨rfl, rfl, fun _ => rfl⟩

/-- A tick of a job whose current file is readable is the same on both sides. -/
theorem tick_same (h : job.Readable fs s s') (codec : Codec) :
    ∃ out outCm jobs, handleReadJobs fs codec s s' [job] = (out, jobs) ∧
      handleReadJobsTick fs codec s s' [job] = (outCm, jobs) ∧
      (forwardAll [job.id] outCm).1 = out ∧
      (jobs = [] ∨ ∃ job', jobs = [job'] ∧ job'.id = job.id ∧ (forwardAll [job.id] outCm).2 = [job.id]) := by
  unfold handleReadJobs handleReadJobsTick
  cases hlast : job.isLastJob with
  | true =>
    refine ⟨[], [], [job], ?_, ?_, rfl, .inr ⟨job, rfl, rfl, rfl⟩⟩
    · simp [initJobs, readFirst, hlast]
    · simp [tickJobs, hlast]
  | false =>
    obtain ⟨d, job₁, res, hinit, hread⟩ := h.tick codec
    have hkeeps := (TransferJob.initDataStream_spec fs s job).1
    rw [hinit] at hkeeps
    obtain ⟨out₁, hinitCm, hforward₁, hjob₁⟩ :=
      TransferJob.forward_digest hinit (show job₁.id ∈ [job.id] by rw [hkeeps.id]; simp)
    obtain ⟨hsame, hforward₂, hids⟩ := forward_read hread
    have hlast₁ : job₁.isLastJob = false := hkeeps.isLastJob.trans hlast
    have hkeeps₂ := (TransferJob.read_spec fs codec s' job₁).1
    have hid₂ : (job₁.readJob fs codec s').2.2.id = job.id := by rw [readJob_job, hkeeps₂.id, hkeeps.id]
    rw [hkeeps.id] at hforward₂ hids
    generalize hj : job₁.readJob fs codec s' = r at hsame hforward₂ hids hid₂
    generalize hjCm : job₁.readJobForCm fs codec s' = rCm at hsame hforward₂ hids
    obtain ⟨out₂, finished, job₂⟩ := r
    obtain ⟨outCm₂, finishedCm, jobCm₂⟩ := rCm
    cases hsame
    have hown : initJobs fs s [job] = ((job.initJob fs s).1, [job₁]) := by simp [initJobs, hlast, hjob₁]
    have hforward : forwardAll [job.id] (out₁ ++ outCm₂) =
        ((job.initJob fs s).1 ++ out₂, (forwardAll [job.id] outCm₂).2) := by
      rw [forwardAll_append, hforward₁, hforward₂]
    rw [hown]
    simp only [readFirst, hlast₁, tickJobs, hlast, hinitCm, hj, hjCm, Bool.false_eq_true, if_false]
    cases finished with
    | true =>
      have hremove : removeJob job₂.id [job₂] = [] := by simp [removeJob]
      refine ⟨_, _, [], ?_, ?_, congrArg Prod.fst hforward, .inl rfl⟩
      · rw [if_pos rfl]
        exact congrArg (Prod.mk _) hremove
      · rw [if_pos rfl]
        exact congrArg (Prod.mk _) hremove
    | false =>
      refine ⟨_, _, [job₂], rfl, rfl, by rw [hforward], .inr ⟨job₂, rfl, hid₂, ?_⟩⟩
      rw [hforward]
      exact hids rfl

/-! ## Confirmations -/

/-- A confirmation that names the current file does the same without its number. -/
theorem confirm_named (fs : FileSystem σ H) {r : FileTransferSendConfirmRequest} (h : job.Names r) (s : σ) (id : ℤ) :
    (job.confirm fs s ⟨id, job.fileNum,
        some (if r.skip then .skip true else .offsetBlk r.offsetBlk)⟩).map Prod.fst =
      (job.confirm fs s r).map Prod.fst := by
  obtain ⟨rid, fileNum, union⟩ := r
  obtain ⟨hnum, hunion⟩ | ⟨hconfirmed, hskipped, hskip, hoffset⟩ := h
  · obtain rfl : fileNum = job.fileNum := hnum
    cases union with
    | none => exact absurd rfl hunion
    | some u =>
      cases u with
      | offsetBlk offset => rfl
      | skip b =>
        cases b with
        | true => rfl
        | false => simp [TransferJob.confirm, FileTransferSendConfirmRequest.skip,
            FileTransferSendConfirmRequest.offsetBlk]
  · -- the file is confirmed already
    have hsame : job.setFileConfirmed true = job := by
      rw [TransferJob.setFileConfirmed, ← hconfirmed, ← hskipped]
    rw [hskip, hoffset]
    have hleft : job.confirm fs s ⟨id, job.fileNum, some (.offsetBlk 0)⟩ = some (job, s) := by
      simp [TransferJob.confirm, hsame]
    have hright : job.confirm fs s ⟨rid, fileNum, union⟩ = some (job, s) := by
      unfold TransferJob.confirm
      split
      · rfl
      · cases union with
        | none => rfl
        | some u =>
          cases u with
          | skip b =>
            obtain rfl : b = false := hskip
            exact congrArg (fun j => some (j, s)) hsame
          | offsetBlk offset =>
            obtain rfl : offset = 0 := hoffset
            dsimp only
            rw [if_neg (by simp), hsame]
    simp [hleft, hright]

/-- A confirmation keeps the id of a job. -/
theorem confirm_id {r : FileTransferSendConfirmRequest} {job' : TransferJob H}
    (h : (job.confirm fs s r).map Prod.fst = some job') : job'.id = job.id := by
  obtain ⟨res, hres, rfl⟩ := Option.map_eq_some_iff.mp h
  exact (Tracked.confirm_spec hres).1.id

/-! ## Runs -/

namespace ReadPair

/-- The two sides have the same job, which the connection knows, or have none left, and the peer has
received the same. -/
structure Together (st : ReadPair H) : Prop where
  received : st.cm.received = st.own.received
  jobs : st.own.jobs = [] ∧ st.cm.jobs = [] ∨
    ∃ job, st.own.jobs = [job] ∧ st.cm.jobs = [job] ∧ st.cm.cmReadJobIds = [job.id]

theorem Together.step {st st' : ReadPair H} (h : st.Together) {a : PairAction σ}
    (hfits : st.Fits fs a) (hstep : st.step fs codec a = some st') : st'.Together := by
  obtain ⟨⟨own, received⟩, ⟨cm, ids, receivedCm⟩⟩ := st
  obtain ⟨rfl : receivedCm = received, hjobs⟩ := h
  obtain ⟨own', hown, hrest⟩ := Option.bind_eq_some_iff.mp hstep
  obtain ⟨cm', hcm, rfl⟩ := Option.map_eq_some_iff.mp hrest
  obtain ⟨rfl : own = [], rfl : cm = []⟩ | ⟨job, rfl : own = [job], rfl : cm = [job],
    rfl : ids = [job.id]⟩ := hjobs
  · -- no job is left
    cases a with
    | tick s s' =>
      cases hown
      cases hcm
      exact ⟨rfl, .inl ⟨rfl, rfl⟩⟩
    | confirm s r =>
      cases hown
      unfold CmReadSide.step at hcm
      dsimp only at hcm
      split at hcm
      · cases hcm
        exact ⟨rfl, .inl ⟨rfl, rfl⟩⟩
      · cases hcm
        exact ⟨rfl, .inl ⟨rfl, rfl⟩⟩
  · cases a with
    | tick s s' =>
      obtain ⟨out, outCm, jobs, htick, htickCm, hforward, hjobs⟩ :=
        tick_same (hfits job (List.mem_singleton_self job)) codec
      unfold OwnReadSide.step at hown
      unfold CmReadSide.step at hcm
      dsimp only at hown hcm
      rw [htick] at hown
      rw [htickCm] at hcm
      cases hown
      cases hcm
      refine ⟨congrArg (receivedCm ++ ·) hforward, ?_⟩
      obtain rfl | ⟨job', rfl, hid, hids⟩ := hjobs
      · exact .inl ⟨rfl, rfl⟩
      · exact .inr ⟨job', rfl, rfl, by rw [hid]; exact hids⟩
    | confirm s r =>
      unfold OwnReadSide.step confirmJob at hown
      unfold CmReadSide.step sendConfirmForRead confirmJob at hcm
      dsimp only at hown hcm
      rw [updateFirst] at hown hcm
      by_cases hid : r.id = job.id
      · have hnamed := confirm_named fs (hfits job (List.mem_singleton_self job) hid) s r.id
        rw [if_pos (by simp [hid]), if_pos (by simp [hid]), hnamed] at hcm
        rw [if_pos (by simp [hid])] at hown
        obtain ⟨jobs, hjobs, rfl⟩ := Option.map_eq_some_iff.mp hown
        rw [hjobs] at hcm
        cases hcm
        obtain ⟨job', hjob', rfl⟩ := Option.map_eq_some_iff.mp hjobs
        exact ⟨rfl, .inr ⟨job', rfl, rfl, by rw [confirm_id hjob']⟩⟩
      · rw [if_neg (by simp [hid])] at hcm
        rw [if_neg (by simp [Ne.symm hid])] at hown
        cases hcm
        cases hown
        exact ⟨rfl, .inr ⟨job, rfl, rfl, rfl⟩⟩

/-- **The two read paths agree.** In every run whose actions fit, the peer receives the same of the
connection manager as of the connection. -/
theorem received_same (fs : FileSystem σ H) (codec : Codec) (job : TransferJob H)
    (as : List (PairAction σ)) (st : ReadPair H)
    (hrun : Run (Only (Fits fs) (Steps (step fs codec))) (start job) as st) :
    st.cm.received = st.own.received :=
  have hinv : st.Together :=
    hrun.invariant (fun _ _ _ (h : Together _) hstep => h.step hstep.1 hstep.2)
      ⟨rfl, .inr ⟨job, rfl, rfl, rfl⟩⟩
  hinv.received

end ReadPair

end FileSystem

/-! ## Two files -/

namespace ReadPair

open DoneDealt (withoutFile)

/-- Two files, sent with overwrite detection. -/
def twoFiles : TransferJob Unit :=
  TransferJob.newRead 1 .generic (.filePath ['d']) [⟨['a'], 0⟩, ⟨['b'], 0⟩] 0 true

/-- The first file is skipped, and the second offered. -/
theorem received_same_skipped : ∃ st,
    Run (Only (Fits (withoutFile [])) (Steps (step (withoutFile []) .plain))) (start twoFiles)
      [.tick () (), .confirm () ⟨1, 0, some (.skip true)⟩, .tick () ()] st ∧
      st.own.received.length = 2 ∧ st.cm.received = st.own.received := by
  refine exists_and_and (fun _ hrun _ => received_same _ _ _ _ _ hrun) ?_
  refine ⟨_, .cons ⟨?_, rfl⟩ (.cons ⟨?_, rfl⟩ (.cons ⟨?_, rfl⟩ (.nil _))), by decide⟩
  · rintro job hjob
    obtain rfl := List.mem_singleton.mp hjob
    refine ⟨fun p entry hp hentry _ => ?_, fun stream hs _ _ _ => ?_, fun stream _ hr => ?_⟩
    · cases hp
      cases hentry
      exact ⟨(), rfl⟩
    · cases hs
      exact ⟨(), _, rfl, rfl⟩
    · exact absurd (hr rfl rfl).1 (by decide)
  · rintro job hjob -
    obtain rfl := List.mem_singleton.mp hjob
    exact .inl ⟨rfl, by decide⟩
  · rintro job hjob
    obtain rfl := List.mem_singleton.mp hjob
    refine ⟨fun p entry hp hentry _ => ?_, fun stream hs _ _ _ => ?_, fun stream _ hr => ?_⟩
    · cases hp
      cases hentry
      exact ⟨(), rfl⟩
    · cases hs
      exact ⟨(), _, rfl, rfl⟩
    · exact absurd (hr rfl rfl).1 (by decide)

/-- A confirmation for another file has the connection manager skip the current one. A file that cannot
be opened ends the job there, and not in the connection. -/
theorem read_paths_differ :
    (∃ st, Run (Steps (step (withoutFile []) .plain)) (start twoFiles)
      [.tick () (), .confirm () ⟨1, 5, some (.skip true)⟩, .tick () ()] st ∧
        st.cm.received ≠ st.own.received) ∧
      ∃ st, Run (Steps (step (withoutFile ['d', '/', 'a']) .plain))
        (start { twoFiles with enableOverwriteDetection := false }) [.tick () (), .tick () ()] st ∧
          st.cm.jobs = [] ∧ st.own.jobs ≠ [] ∧ st.cm.received ≠ st.own.received :=
  ⟨⟨_, exec_eq_some_iff.mp rfl, by decide⟩, ⟨_, exec_eq_some_iff.mp rfl, by decide⟩⟩

end ReadPair

end RustDesk.FileTransfer
