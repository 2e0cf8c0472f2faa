import RustDesk.FileTransfer.CmReadJobs

/-!
# The file that an error names

References: `libs/hbb_common/src/fs.rs` (`open_data_stream`, `get_current_digest`, `read`, `init_jobs`,
`handle_read_jobs`), `src/ui_cm_interface.rs` (`handle_read_jobs_tick`). An error is reported with the
`file_num` that the job has after the call. Where the file cannot be opened or read, the call has gone
on to the next file by then; where its metadata cannot be read, it has not.

A `Watched` job remembers the file that its stream was opened for, and a `ReadWatch` keeps what was
attempted: the call of the file system that failed, and what the reports name.
-/

namespace RustDesk.FileTransfer

/-! ## Attempts -/

/-- The calls of the file system that a job which reads makes. -/
inductive FileCall
  | openFile
  | metadata
  | read
deriving DecidableEq

/-- A call that failed, with the index of the file it was for. -/
structure FileFailure where
  call : FileCall
  index : ℕ
deriving DecidableEq

/-- What one call of `init_data_stream` or `read` came to: the call of the file system that failed in it,
and the `file_num` of every error that was reported for it. -/
structure Attempt where
  failure : Option FileFailure
  named : List ℤ
deriving DecidableEq

namespace Attempt

/-- The errors that are reported for a failing file name that file. -/
def NamesFile (a : Attempt) : Prop := ∀ f, a.failure = some f → ∀ n ∈ a.named, n = f.index

/-- No file could not be opened, and none could not be read. -/
def OpensAndReads (a : Attempt) : Prop := ∀ f, a.failure = some f → f.call = .metadata

end Attempt

/-- The `file_num` of an error. -/
def FileResponse.errorNum : FileResponse → Option ℤ
  | .error _ _ fileNum => some fileNum
  | _ => none

def CmData.errorNum : CmData → Option ℤ
  | .fileReadError _ fileNum _ => some fileNum
  | _ => none

/-! ## A job with the file of its stream -/

/-- A job, and the index of the file that its stream was opened for. -/
structure Watched (H : Type*) where
  job : TransferJob H
  streamFile : ℕ
deriving DecidableEq

section FileSystem

variable {σ H : Type*} (fs : FileSystem σ H) (codec : Codec)

namespace Watched

/-- The file of the stream once `open_data_stream` has opened one. -/
def opened (w : Watched H) : ℕ :=
  if w.job.dataStream.isNone then asUsize w.job.fileNum else w.streamFile

/-- What fails when an open file is to be offered. -/
def metadataFailure (s : σ) (h : H) (index : ℕ) : Option FileFailure :=
  match fs.fileMetadata s h with
  | .error _ => some ⟨.metadata, index⟩
  | .ok _ => none

/-- The call of the file system that fails in `init_data_stream`. -/
def initFailure (s : σ) (w : Watched H) : Option FileFailure :=
  match w.job.dataSource with
  | .memoryCursor _ => none
  | .filePath p =>
    match w.job.files[asUsize w.job.fileNum]? with
    | none => none
    | some entry =>
      match w.job.dataStream with
      | none =>
        match fs.openRead s (join p entry.name) with
        | .error _ => some ⟨.openFile, asUsize w.job.fileNum⟩
        | .ok h =>
          -- the file that was just opened is neither confirmed nor waits
          if w.job.type = .generic ∧ w.job.enableOverwriteDetection = true then
            metadataFailure fs s h (asUsize w.job.fileNum)
          else none
      | some (.fileStream h) =>
        if w.job.offers then metadataFailure fs s h w.streamFile else none
      | some (.bufStream ..) => none

/-- The call of the file system that fails in `read`. -/
def readFailure (s : σ) (w : Watched H) : Option FileFailure :=
  if w.job.type = .generic ∧ w.job.enableOverwriteDetection ∧ ¬ w.job.fileConfirmed then none
  else
    match w.job.dataSource, w.job.currentName, w.job.dataStream with
    | .filePath _, some _, some stream =>
      match (TransferJob.readLoop fs s (TransferJob.bufSize + 1) stream TransferJob.bufSize []).1 with
      | .error _ => some ⟨.read, w.streamFile⟩
      | .ok _ => none
    | _, _, _ => none

/-- What `init_jobs` does to a job. -/
def initJob (s : σ) (w : Watched H) : Attempt × Watched H :=
  (⟨w.initFailure fs s, (w.job.initJob fs s).1.filterMap FileResponse.errorNum⟩,
    ⟨(w.job.initJob fs s).2, w.opened⟩)

/-- What the loop of `handle_read_jobs` does to a job. -/
def readJob (s : σ) (w : Watched H) : Attempt × Bool × Watched H :=
  (⟨w.readFailure fs s, (w.job.readJob fs codec s).1.filterMap FileResponse.errorNum⟩,
    (w.job.readJob fs codec s).2.1, ⟨(w.job.readJob fs codec s).2.2, w.streamFile⟩)

/-- What `handle_read_jobs_tick` does to a job first, and whether it goes on with the job. -/
def initReadJobForCm (s : σ) (w : Watched H) : Attempt × Bool × Watched H :=
  match w.job.initReadJobForCm fs s with
  | (.error _, job) => (⟨w.initFailure fs s, [job.fileNum]⟩, false, ⟨job, w.opened⟩)
  | (.ok out, job) =>
    (⟨w.initFailure fs s, out.filterMap CmData.errorNum⟩, true, ⟨job, w.opened⟩)

/-- What `handle_read_jobs_tick` does to a job then. -/
def readJobForCm (s : σ) (w : Watched H) : Attempt × Bool × Watched H :=
  (⟨w.readFailure fs s, (w.job.readJobForCm fs codec s).1.filterMap CmData.errorNum⟩,
    (w.job.readJobForCm fs codec s).2.1, ⟨(w.job.readJobForCm fs codec s).2.2, w.streamFile⟩)

/-- Whether a confirmation opens the file that it names. -/
def reopens (s : σ) (job : TransferJob H) (r : FileTransferSendConfirmRequest) : Bool :=
  match job.dataSource, r.union with
  | .filePath p, some (.offsetBlk offset) =>
    job.fileNum = r.fileNum && 0 < offset &&
      match (job.files[asUsize r.fileNum]?).bind (job.resolveEntryPath fs s p ·.name) with
      | none => false
      | some path =>
        match TransferJob.openAtOffset fs s path with
        | (none, _) => false
        | (some f, s) => (fs.seek s f offset.toNat).isSome
  | _, _ => false

/-- A confirmation, `none` where the code panics. -/
def confirm (s : σ) (r : FileTransferSendConfirmRequest) (w : Watched H) : Option (Watched H) :=
  (w.job.confirm fs s r).map fun res =>
    ⟨res.1, if reopens fs s w.job r then asUsize r.fileNum else w.streamFile⟩

end Watched

/-! ## The lists of jobs -/

/-- The loop of `init_jobs`. -/
def watchInit (s : σ) : List (Watched H) → List Attempt × List (Watched H)
  | [] => ([], [])
  | w :: ws =>
    let (tried, ws) := watchInit s ws
    if w.job.isLastJob then (tried, w :: ws)
    else ((w.initJob fs s).1 :: tried, (w.initJob fs s).2 :: ws)

/-- The loop of `handle_read_jobs`. -/
def watchRead (s : σ) : List (Watched H) → List Attempt × Option ℤ × List (Watched H)
  | [] => ([], none, [])
  | w :: ws =>
    if w.job.isLastJob then
      let (tried, finished, ws) := watchRead s ws
      (tried, finished, w :: ws)
    else
      let (a, finished, w) := w.readJob fs codec s
      ([a], if finished then some w.job.id else none, w :: ws)

/-- The loop of `handle_read_jobs_tick`. -/
def watchTick (s s' : σ) : List (Watched H) → List Attempt × List ℤ × List (Watched H)
  | [] => ([], [], [])
  | w :: ws =>
    if w.job.isLastJob then
      let (tried, finished, ws) := watchTick s s' ws
      (tried, finished, w :: ws)
    else
      match w.initReadJobForCm fs s with
      | (a, false, w) =>
        let (tried, finished, ws) := watchTick s s' ws
        (a :: tried, w.job.id :: finished, w :: ws)
      | (a, true, w) =>
        let (a', finished, w) := w.readJobForCm fs codec s'
        ([a, a'], if finished then [w.job.id] else [], w :: ws)

/-- Who reads the files and reports the errors: the connection, by `handle_read_jobs`, or the connection
manager, by `handle_read_jobs_tick`. -/
inductive Reporter
  | connection
  | cm
deriving DecidableEq

/-- The removal of the job that is finished. -/
def dropWatched (id : ℤ) (ws : List (Watched H)) : List (Watched H) := ws.eraseP (·.job.id = id)

/-- A tick of either, with what it attempted. -/
def Reporter.tick (s s' : σ) (ws : List (Watched H)) : Reporter → List Attempt × List (Watched H)
  | .connection =>
    let (tried, ws) := watchInit fs s ws
    let (tried', finished, ws) := watchRead fs codec s' ws
    (tried ++ tried', match finished with
      | some id => dropWatched id ws
      | none => ws)
  | .cm =>
    let (tried, finished, ws) := watchTick fs codec s s' ws
    (tried, finished.foldl (fun ws id => dropWatched id ws) ws)

/-! ## Runs -/

/-- `Vec<FileEntry>`, which takes `isize::MAX` bytes at most. -/
structure FileList where
  entries : List FileEntry
  fits : entries.length < 2 ^ 63

/-- What happens to the jobs that read: what `ReadAction` has, and the confirmation of the connection
manager, which is for the file that the job is at. -/
inductive WatchAction (σ : Type*)
  | tick (s s' : σ)
  | confirm (s : σ) (r : FileTransferSendConfirmRequest)
  | confirmForRead (s : σ) (id : ℤ) (skip : Bool) (offsetBlk : UInt32)
  | start (id : ℤ) (type : JobType) (dataSource : DataSource) (files : FileList)
    (fileNum : Int32) (enableOverwriteDetection isLastJob : Bool)
  | resume (id : ℤ)
  | cancel (id : ℤ)

/-- The jobs that read, and all that was attempted. -/
structure ReadWatch (H : Type*) where
  jobs : List (Watched H)
  tried : List Attempt
deriving DecidableEq

namespace ReadWatch

/-- No job. -/
def empty : ReadWatch H := ⟨[], []⟩

/-- `Data::ResumeJob`, for a job that reads. -/
def resumed (w : Watched H) : Watched H :=
  match w.job.dataSource with
  | .filePath _ => { w with job := { w.job with isLastJob := false, isResume := true } }
  | .memoryCursor _ => w

/-- The request of `SendConfirmForRead`. -/
def requestForRead (id : ℤ) (skip : Bool) (offsetBlk : UInt32) (job : TransferJob H) :
    FileTransferSendConfirmRequest :=
  ⟨id, job.fileNum, some (if skip then .skip true else .offsetBlk offsetBlk)⟩

/-- The attempts of a step, and the jobs it leaves. -/
def attempt (reporter : Reporter) (st : ReadWatch H) :
    WatchAction σ → Option (List Attempt × List (Watched H))
  | .tick s s' => some (reporter.tick fs codec s s' st.jobs)
  | .confirm s r =>
    (updateFirst (·.job.id = r.id) (Watched.confirm fs s r) st.jobs).map ([], ·)
  | .confirmForRead s id skip offsetBlk =>
    (updateFirst (·.job.id = id)
      (fun w => w.confirm fs s (requestForRead id skip offsetBlk w.job)) st.jobs).map ([], ·)
  | .start id type dataSource files fileNum od isLastJob =>
    let job := { TransferJob.newRead id type dataSource files.entries fileNum.toInt od with
      isLastJob := isLastJob }
    some ([], st.jobs ++ [⟨job, 0⟩])
  | .resume id => (updateFirst (·.job.id = id) (some ∘ resumed) st.jobs).map ([], ·)
  | .cancel id => some ([], dropWatched id st.jobs)

def step (reporter : Reporter) (st : ReadWatch H) (a : WatchAction σ) : Option (ReadWatch H) :=
  (st.attempt fs codec reporter a).map fun res => ⟨res.2, st.tried ++ res.1⟩

/-- No open and no read of the step fails. -/
def OnlyMetadataFails (reporter : Reporter) (st : ReadWatch H) (a : WatchAction σ) : Prop :=
  ∀ res, st.attempt fs codec reporter a = some res → ∀ t ∈ res.1, t.OpensAndReads

end ReadWatch

end FileSystem

/-! ## One attempt -/

section FileSystem

variable {σ H : Type*} {fs : FileSystem σ H} {codec : Codec} {s s' : σ} {ws : List (Watched H)}

theorem succI32_range (n : ℤ) : -2 ^ 31 ≤ succI32 n ∧ succI32 n < 2 ^ 31 := by
  rw [succI32]
  omega

theorem succI32_ne {n : ℤ} : succI32 n ≠ n := by
  rw [succI32]
  omega

/-- The index of an entry that there is. -/
theorem asUsize_of_entry {n : ℤ} {files : List FileEntry} {entry : FileEntry}
    (hrange : -2 ^ 31 ≤ n ∧ n < 2 ^ 31) (hfits : files.length < 2 ^ 63)
    (hentry : files[asUsize n]? = some entry) : (asUsize n : ℤ) = n := by
  have hlt : asUsize n < files.length := (List.getElem?_eq_some_iff.mp hentry).1
  rw [asUsize] at hlt ⊢
  omega

namespace Attempt

theorem namesFile_of_none {a : Attempt} (h : a.failure = none) : a.NamesFile ↔ a.OpensAndReads := by
  constructor
  · rintro - f hf
    rw [h] at hf
    cases hf
  · rintro - f hf
    rw [h] at hf
    cases hf

/-- An attempt that reports one error names its file just if that is the file it is at. -/
theorem namesFile_iff {a : Attempt} {f : FileFailure} {n : ℤ} (hf : a.failure = some f)
    (hnamed : a.named = [n]) (h : n = f.index ↔ f.call = .metadata) :
    a.NamesFile ↔ a.OpensAndReads := by
  constructor
  · intro hnames g hg
    obtain rfl : f = g := Option.some.inj (hf.symm.trans hg)
    refine h.mp (hnames f hf n ?_)
    rw [hnamed]
    exact List.mem_singleton_self n
  · intro hreads g hg m hm
    obtain rfl : f = g := Option.some.inj (hf.symm.trans hg)
    rw [hnamed, List.mem_singleton] at hm
    rw [hm]
    exact h.mpr (hreads f hf)

end Attempt

namespace Watched

variable {w : Watched H} {f : FileFailure} {job : TransferJob H} {r : FileTransferSendConfirmRequest}

/-- The stream is that of the file which the job is at. -/
structure Sound (w : Watched H) : Prop where
  range : -2 ^ 31 ≤ w.job.fileNum ∧ w.job.fileNum < 2 ^ 31
  fits : w.job.files.length < 2 ^ 63
  stream : w.job.dataStream ≠ none → w.streamFile = asUsize w.job.fileNum

/-- A call that fails is reported, at the file it was for if it was for the metadata, and else at
another. -/
def Reported (f : FileFailure) (n : ℤ) : Prop := n = f.index ↔ f.call = .metadata

theorem metadataFailure_eq_some {h : H} {i : ℕ} (hf : metadataFailure fs s h i = some f) :
    f = ⟨.metadata, i⟩ ∧ ∃ e, fs.fileMetadata s h = .error e := by
  unfold metadataFailure at hf
  split at hf
  next e he => exact ⟨(Option.some.inj hf).symm, e, he⟩
  · cases hf

/-- What fails in `init_data_stream` is an error of it. -/
theorem Sound.initDataStream (hw : w.Sound) (hf : w.initFailure fs s = some f) :
    ∃ e job, w.job.initDataStream fs s = (.error e, job) ∧ Reported f job.fileNum := by
  unfold initFailure at hf
  split at hf
  · cases hf
  next p hp =>
    split at hf
    · cases hf
    next entry hentry =>
      have hindex := asUsize_of_entry hw.range hw.fits hentry
      split at hf
      next hstream =>
        split at hf
        next e hopen =>
          cases hf
          refine ⟨e.text, w.job.leaveFile, ?_, ?_⟩
          · simp [TransferJob.initDataStream, TransferJob.openDataStream, hp, hentry, hstream, hopen]
          · simp [Reported, hindex, TransferJob.leaveFile, succI32_ne]
        next h hopen =>
          split at hf
          next hoffers =>
            obtain ⟨rfl, e, he⟩ := metadataFailure_eq_some hf
            refine ⟨e.text, { w.job with
              dataStream := some (.fileStream h), fileConfirmed := false, fileIsWaiting := false },
              ?_, ?_⟩
            · simp [TransferJob.initDataStream, TransferJob.openDataStream, hp, hentry, hstream, hopen,
                TransferJob.offers, hoffers, TransferJob.getCurrentDigest, he, Except.mapError]
            · simp [Reported, hindex]
          · cases hf
      next h hstream =>
        split at hf
        next hoffers =>
          obtain ⟨rfl, e, he⟩ := metadataFailure_eq_some hf
          refine ⟨e.text, w.job, ?_, ?_⟩
          · simp [TransferJob.initDataStream, TransferJob.openDataStream, hp, hentry, hstream,
              hoffers, TransferJob.getCurrentDigest, he, Except.mapError]
          · have hfile := hw.stream (by rw [hstream]; simp)
            simp [Reported, hfile, hindex]
        · cases hf
      · cases hf

/-- What fails in `read` is an error of it. -/
theorem Sound.read (codec : Codec) (hw : w.Sound) (hf : w.readFailure fs s = some f) :
    ∃ e job, w.job.read fs codec s = (.error e, job) ∧ Reported f job.fileNum := by
  unfold readFailure at hf
  split at hf
  · cases hf
  next hwait =>
    split at hf
    next p name stream hp hname hstream =>
      split at hf
      next e he =>
        cases hf
        have hentry : ∃ entry, w.job.files[asUsize w.job.fileNum]? = some entry := by
          rw [TransferJob.currentName, hp] at hname
          obtain ⟨entry, hentry, -⟩ := Option.map_eq_some_iff.mp hname
          exact ⟨entry, hentry⟩
        obtain ⟨entry, hentry⟩ := hentry
        have hindex := asUsize_of_entry hw.range hw.fits hentry
        have hfile := hw.stream (by rw [hstream]; simp)
        refine ⟨e, { w.job with dataStream := none }.leaveFile, ?_, ?_⟩
        · rw [TransferJob.read, if_neg hwait, hname, hstream]
          dsimp only
          generalize TransferJob.readLoop fs s (TransferJob.bufSize + 1) stream TransferJob.bufSize []
            = res at he
          obtain ⟨res, stream'⟩ := res
          cases he
          rfl
        · simp [Reported, hfile, hindex, TransferJob.leaveFile, succI32_ne]
      · cases hf
    · cases hf

/-- `init_data_stream` keeps its stream with the file that the job was at. -/
theorem initDataStream_stream (fs : FileSystem σ H) (s : σ) (job : TransferJob H)
    (h : (job.initDataStream fs s).2.dataStream ≠ none) :
    (job.initDataStream fs s).2.fileNum = job.fileNum := by
  have hopen : (job.openDataStream fs s).2.dataStream ≠ none →
      (job.openDataStream fs s).2.fileNum = job.fileNum := by
    unfold TransferJob.openDataStream
    split
    · split
      · exact fun _ => rfl
      · split
        next hnone =>
          split
          · exact fun _ => rfl
          · exact fun h => absurd (Option.isNone_iff_eq_none.mp hnone) h
        · exact fun _ => rfl
    · split <;> exact fun _ => rfl
  unfold TransferJob.initDataStream at h ⊢
  generalize job.openDataStream fs s = res at h hopen ⊢
  obtain ⟨e | done, job₁⟩ := res
  · exact hopen h
  · cases done with
    | true => exact hopen h
    | false =>
      dsimp only at h ⊢
      by_cases hoffers : job₁.offers = true
      · rw [if_pos hoffers] at h ⊢
        generalize job₁.getCurrentDigest fs s = digest at h ⊢
        cases digest <;> exact hopen h
      · rw [if_neg hoffers] at h ⊢
        exact hopen h

/-- `read` keeps its stream with the file that the job was at. -/
theorem read_stream (fs : FileSystem σ H) (codec : Codec) (s : σ) (job : TransferJob H)
    (h : (job.read fs codec s).2.dataStream ≠ none) :
    job.dataStream ≠ none ∧ (job.read fs codec s).2.fileNum = job.fileNum := by
  revert h
  unfold TransferJob.read
  split
  · exact fun h => ⟨h, rfl⟩
  · split
    · exact fun h => absurd rfl h
    · split
      · exact fun h => ⟨h, rfl⟩
      next stream hstream =>
        have hsome : job.dataStream ≠ none := by
          rw [hstream]
          exact Option.some_ne_none stream
        split
        · exact fun h => absurd rfl h
        · split <;> exact fun h => absurd rfl h
        · exact fun _ => ⟨hsome, rfl⟩

section

variable {p : Path} {offset : UInt32} {entry : FileEntry} (hp : job.dataSource = .filePath p)
  (hunion : r.union = some (.offsetBlk offset)) (hpos : 0 < offset) (hnum : job.fileNum = r.fileNum)
  (hentry : job.files[asUsize r.fileNum]? = some entry)
include hp hunion hpos hnum hentry

/-- What a confirmation with an offset into a file of the list opens. -/
theorem reopens_eq :
    reopens fs s job r =
      match job.resolveEntryPath fs s p entry.name with
      | none => false
      | some path =>
        match TransferJob.openAtOffset fs s path with
        | (none, _) => false
        | (some f, s) => (fs.seek s f offset.toNat).isSome := by
  simp [reopens, hp, hunion, hpos, hnum, hentry]

theorem setStreamOffset_stream (h : ((job.setFileConfirmed true).setStreamOffset fs s entry offset.toNat).1.dataStream ≠ none) :
    ((job.setFileConfirmed true).setStreamOffset fs s entry offset.toNat).1.fileNum = job.fileNum ∧
      (reopens fs s job r = true ∧ job.fileNum = r.fileNum ∨
        reopens fs s job r = false ∧ job.dataStream ≠ none) := by
  have hsource : (job.setFileConfirmed true).dataSource = .filePath p := hp
  have hpath : (job.setFileConfirmed true).resolveEntryPath fs s p entry.name =
      job.resolveEntryPath fs s p entry.name := rfl
  rw [reopens_eq hp hunion hpos hnum hentry]
  revert h
  rw [TransferJob.setStreamOffset, hsource]
  dsimp only
  rw [hpath]
  cases job.resolveEntryPath fs s p entry.name with
  | none => exact fun h => ⟨rfl, .inr ⟨rfl, h⟩⟩
  | some path =>
    dsimp only
    generalize TransferJob.openAtOffset fs s path = res
    obtain ⟨_ | f, s₁⟩ := res
    · exact fun h => ⟨rfl, .inr ⟨rfl, h⟩⟩
    · dsimp only
      cases fs.seek s₁ f offset.toNat with
      | none => exact fun h => ⟨rfl, .inr ⟨rfl, h⟩⟩
      | some f' => exact fun _ => ⟨rfl, .inl ⟨rfl, hnum⟩⟩

end

/-- What a confirmation leaves as the stream: one that it opened, for the file that it names, or the
one that there was. -/
theorem confirm_stream
    {res : TransferJob H × σ} (hres : job.confirm fs s r = some res) (h : res.1.dataStream ≠ none) :
    res.1.fileNum = job.fileNum ∧ (reopens fs s job r = true ∧ job.fileNum = r.fileNum ∨
        reopens fs s job r = false ∧ job.dataStream ≠ none) := by
  unfold TransferJob.confirm at hres
  split at hres
  next hnum =>
    cases hres
    refine ⟨rfl, .inr ⟨?_, h⟩⟩
    unfold reopens
    split
    · simp [hnum]
    · rfl
  next hnum =>
    have hnum : job.fileNum = r.fileNum := by simpa using hnum
    split at hres
    · cases hres
      exact absurd rfl h
    next hunion =>
      cases hres
      exact ⟨rfl, .inr ⟨by simp [reopens, hunion], h⟩⟩
    next offset hunion =>
      split at hres
      next hpos =>
        split at hres
        next c hc =>
          cases hres
          exact ⟨rfl, .inr ⟨by simp [reopens, hc], h⟩⟩
        next p hp =>
          obtain ⟨entry, hentry, rfl⟩ := Option.map_eq_some_iff.mp hres
          exact setStreamOffset_stream hp hunion hpos hnum hentry h
      next hpos =>
        cases hres
        refine ⟨rfl, .inr ⟨?_, h⟩⟩
        unfold reopens
        split <;> simp_all
    next hunion =>
      cases hres
      exact ⟨rfl, .inr ⟨by simp [reopens, hunion], h⟩⟩

/-- A job goes on with the list that it has, at the file it is at or the next. -/
theorem Sound.goOn (hw : w.Sound) {streamFile : ℕ} (hfiles : job.files = w.job.files)
    (hnum : job.fileNum = w.job.fileNum ∨ job.fileNum = succI32 w.job.fileNum)
    (hstream : job.dataStream ≠ none → job.fileNum = w.job.fileNum ∧ streamFile = asUsize w.job.fileNum) :
    (⟨job, streamFile⟩ : Watched H).Sound where
  range := by
    obtain hnum | hnum := hnum
    · exact hnum ▸ hw.range
    · exact hnum ▸ succI32_range _
  fits := hfiles ▸ hw.fits
  stream h := by
    obtain ⟨hsame, hfile⟩ := hstream h
    exact hsame ▸ hfile

theorem Sound.opened (hw : w.Sound) : w.opened = asUsize w.job.fileNum := by
  rw [Watched.opened]
  split
  · rfl
  next hsome => exact hw.stream fun hnone => hsome (hnone ▸ rfl)

theorem initJob_job (fs : FileSystem σ H) (s : σ) (job : TransferJob H) :
    (job.initJob fs s).2 = (job.initDataStream fs s).2 := by
  unfold TransferJob.initJob
  generalize job.initDataStream fs s = res
  obtain ⟨e | _ | d, job₁⟩ := res <;> rfl

theorem Sound.initJob (fs : FileSystem σ H) (s : σ) (hw : w.Sound) : (w.initJob fs s).2.Sound := by
  obtain ⟨hkeeps, hnum⟩ := TransferJob.initDataStream_spec fs s w.job
  have hjob := initJob_job fs s w.job
  refine hw.goOn ?_ ?_ fun h => ⟨?_, hw.opened⟩
  · exact hjob ▸ hkeeps.files
  · rw [hjob]
    exact hnum.imp_right And.left
  · rw [hjob] at h ⊢
    exact initDataStream_stream fs s w.job h

theorem Sound.readJob (fs : FileSystem σ H) (codec : Codec) (s : σ) (hw : w.Sound) :
    (w.readJob fs codec s).2.2.Sound := by
  obtain ⟨hkeeps, hnum⟩ := TransferJob.read_spec fs codec s w.job
  have hjob := readJob_job fs codec s w.job
  refine hw.goOn ?_ ?_ fun h => ?_
  · exact hjob ▸ hkeeps.files
  · rw [hjob]
    exact hnum.imp_right And.left
  · rw [hjob] at h ⊢
    obtain ⟨hstream, hsame⟩ := read_stream fs codec s w.job h
    exact ⟨hsame, hw.stream hstream⟩

theorem Sound.confirm {w' : Watched H} (hw : w.Sound) (h : w.confirm fs s r = some w') : w'.Sound := by
  obtain ⟨res, hres, rfl⟩ := Option.map_eq_some_iff.mp h
  obtain ⟨hkeeps, hnum⟩ := Tracked.confirm_spec hres
  refine hw.goOn hkeeps.files (hnum.imp_right And.left) fun hstream => ?_
  obtain ⟨hsame, ⟨hreopens, hr⟩ | ⟨hreopens, hsome⟩⟩ := confirm_stream hres hstream
  · exact ⟨hsame, by rw [if_pos hreopens, hr]⟩
  · exact ⟨hsame, by rw [if_neg (by rw [hreopens]; exact Bool.false_ne_true), hw.stream hsome]⟩

/-- The report of `init_jobs` names its file just if no open failed. -/
theorem Sound.initJob_names (fs : FileSystem σ H) (s : σ) (hw : w.Sound) :
    (w.initJob fs s).1.NamesFile ↔ (w.initJob fs s).1.OpensAndReads := by
  cases hf : w.initFailure fs s with
  | none => exact Attempt.namesFile_of_none hf
  | some f =>
    obtain ⟨e, job, hinit, hreported⟩ := hw.initDataStream hf
    refine Attempt.namesFile_iff hf ?_ hreported
    simp [Watched.initJob, TransferJob.initJob, hinit, newError, FileResponse.errorNum]

/-- The report of the loop of `handle_read_jobs` names its file just if no read failed. -/
theorem Sound.readJob_names (fs : FileSystem σ H) (codec : Codec) (s : σ) (hw : w.Sound) :
    (w.readJob fs codec s).1.NamesFile ↔ (w.readJob fs codec s).1.OpensAndReads := by
  cases hf : w.readFailure fs s with
  | none => exact Attempt.namesFile_of_none hf
  | some f =>
    obtain ⟨e, job, hread, hreported⟩ := hw.read codec hf
    refine Attempt.namesFile_iff hf ?_ hreported
    simp [Watched.readJob, TransferJob.readJob, hread, newError, FileResponse.errorNum]

/-- The connection manager does to a job what `init_jobs` does. -/
theorem initReadJobForCm_eq (fs : FileSystem σ H) (s : σ) (w : Watched H) :
    (w.initReadJobForCm fs s).1 = (w.initJob fs s).1 ∧ (w.initReadJobForCm fs s).2.2 = (w.initJob fs s).2 := by
  unfold initReadJobForCm initJob TransferJob.initReadJobForCm TransferJob.initJob
  rw [TransferJob.initDataStreamForCm_eq]
  generalize w.job.initDataStream fs s = res
  obtain ⟨e | _ | d, job⟩ := res <;> exact ⟨rfl, rfl⟩

/-- The connection manager reads a job as `handle_read_jobs` does, and reports the same. -/
theorem readJobForCm_eq (fs : FileSystem σ H) (codec : Codec) (s : σ) (w : Watched H) :
    (w.readJobForCm fs codec s).1 = (w.readJob fs codec s).1 ∧
      (w.readJobForCm fs codec s).2.2 = (w.readJob fs codec s).2.2 := by
  unfold readJobForCm readJob TransferJob.readJobForCm TransferJob.readJob
  generalize w.job.read fs codec s = res
  obtain ⟨e | _ | block, job⟩ := res
  · exact ⟨rfl, rfl⟩
  · dsimp only
    by_cases hcompleted : job.jobCompleted = true
    · rw [if_pos hcompleted, if_pos hcompleted]
      unfold TransferJob.finishForCm TransferJob.finish
      cases job.jobError <;> exact ⟨rfl, rfl⟩
    · rw [if_neg hcompleted, if_neg hcompleted]
      exact ⟨rfl, rfl⟩
  · exact ⟨rfl, rfl⟩

end Watched

/-! ## A tick -/

theorem watchInit_sound (fs : FileSystem σ H) (s : σ) (h : ∀ w ∈ ws, w.Sound) :
    (∀ a ∈ (watchInit fs s ws).1, a.NamesFile ↔ a.OpensAndReads) ∧ ∀ w ∈ (watchInit fs s ws).2, w.Sound := by
  induction ws with
  | nil => simp [watchInit]
  | cons w ws ih =>
    rw [List.forall_mem_cons] at h
    obtain ⟨htried, hsound⟩ := ih h.2
    rw [watchInit]
    dsimp only
    split
    · exact ⟨htried, List.forall_mem_cons.mpr ⟨h.1, hsound⟩⟩
    · exact ⟨List.forall_mem_cons.mpr ⟨h.1.initJob_names fs s, htried⟩,
        List.forall_mem_cons.mpr ⟨h.1.initJob fs s, hsound⟩⟩

theorem watchRead_sound (fs : FileSystem σ H) (codec : Codec) (s : σ) (h : ∀ w ∈ ws, w.Sound) :
    (∀ a ∈ (watchRead fs codec s ws).1, a.NamesFile ↔ a.OpensAndReads) ∧
      ∀ w ∈ (watchRead fs codec s ws).2.2, w.Sound := by
  induction ws with
  | nil => simp [watchRead]
  | cons w ws ih =>
    rw [List.forall_mem_cons] at h
    obtain ⟨htried, hsound⟩ := ih h.2
    rw [watchRead]
    split
    · exact ⟨htried, List.forall_mem_cons.mpr ⟨h.1, hsound⟩⟩
    · exact ⟨List.forall_mem_singleton.mpr (h.1.readJob_names fs codec s),
        List.forall_mem_cons.mpr ⟨h.1.readJob fs codec s, h.2⟩⟩

theorem watchTick_sound (fs : FileSystem σ H) (codec : Codec) (s s' : σ) (h : ∀ w ∈ ws, w.Sound) :
    (∀ a ∈ (watchTick fs codec s s' ws).1, a.NamesFile ↔ a.OpensAndReads) ∧
      ∀ w ∈ (watchTick fs codec s s' ws).2.2, w.Sound := by
  induction ws with
  | nil => simp [watchTick]
  | cons w ws ih =>
    rw [List.forall_mem_cons] at h
    obtain ⟨htried, hsound⟩ := ih h.2
    rw [watchTick]
    split
    · exact ⟨htried, List.forall_mem_cons.mpr ⟨h.1, hsound⟩⟩
    · -- the connection manager's attempts are those of `handle_read_jobs`
      obtain ⟨hattempt, hjob⟩ := Watched.initReadJobForCm_eq fs s w
      have hnames := h.1.initJob_names fs s
      have hw : (w.initJob fs s).2.Sound := h.1.initJob fs s
      rw [← hattempt] at hnames
      rw [← hjob] at hw
      generalize w.initReadJobForCm fs s = res at hnames hw
      obtain ⟨a, _ | _, w₁⟩ := res
      · exact ⟨List.forall_mem_cons.mpr ⟨hnames, htried⟩, List.forall_mem_cons.mpr ⟨hw, hsound⟩⟩
      · obtain ⟨hattempt', hjob'⟩ := Watched.readJobForCm_eq fs codec s' w₁
        have hnames' := hw.readJob_names fs codec s'
        have hw' : (w₁.readJob fs codec s').2.2.Sound := hw.readJob fs codec s'
        rw [← hattempt'] at hnames'
        rw [← hjob'] at hw'
        exact ⟨List.forall_mem_cons.mpr ⟨hnames, List.forall_mem_singleton.mpr hnames'⟩,
          List.forall_mem_cons.mpr ⟨hw', h.2⟩⟩

theorem dropWatched_sound {id : ℤ} (h : ∀ w ∈ ws, w.Sound) : ∀ w ∈ dropWatched id ws, w.Sound :=
  fun w hw => h w (List.mem_of_mem_eraseP hw)

theorem Reporter.tick_sound (fs : FileSystem σ H) (codec : Codec) (s s' : σ) (reporter : Reporter)
    (h : ∀ w ∈ ws, w.Sound) :
    (∀ a ∈ (reporter.tick fs codec s s' ws).1, a.NamesFile ↔ a.OpensAndReads) ∧
      ∀ w ∈ (reporter.tick fs codec s s' ws).2, w.Sound := by
  cases reporter with
  | connection =>
    obtain ⟨htried, hsound⟩ := watchInit_sound fs s h
    obtain ⟨htried', hsound'⟩ := watchRead_sound fs codec s' hsound
    refine ⟨List.forall_mem_append.mpr ⟨htried, htried'⟩, ?_⟩
    rw [Reporter.tick]
    dsimp only
    split
    · exact dropWatched_sound hsound'
    · exact hsound'
  | cm =>
    obtain ⟨htried, hsound⟩ := watchTick_sound fs codec s s' h
    refine ⟨htried, ?_⟩
    rw [Reporter.tick]
    dsimp only
    generalize (watchTick fs codec s s' ws).2.2 = left at hsound
    generalize (watchTick fs codec s s' ws).2.1 = finished
    induction finished generalizing left with
    | nil => exact hsound
    | cons id finished ih => exact ih _ (dropWatched_sound hsound)

/-! ## The ticks are those of the code -/

/-- What a tick reports, and the jobs it leaves. -/
def Reporter.handle (fs : FileSystem σ H) (codec : Codec) (s s' : σ) (jobs : List (TransferJob H)) :
    Reporter → List ℤ × List (TransferJob H)
  | .connection =>
    let (out, jobs) := handleReadJobs fs codec s s' jobs
    (out.filterMap FileResponse.errorNum, jobs)
  | .cm =>
    let (out, jobs) := handleReadJobsTick fs codec s s' jobs
    (out.filterMap CmData.errorNum, jobs)

theorem watchInit_job (fs : FileSystem σ H) (s : σ) (ws : List (Watched H)) :
    ((initJobs fs s (ws.map Watched.job)).1.filterMap FileResponse.errorNum,
      (initJobs fs s (ws.map Watched.job)).2) =
    ((watchInit fs s ws).1.flatMap Attempt.named, (watchInit fs s ws).2.map Watched.job) := by
  induction ws with
  | nil => rfl
  | cons w ws ih =>
    obtain ⟨hnamed, hjobs⟩ := Prod.mk.inj ih
    rw [List.map_cons, initJobs, watchInit]
    dsimp only
    by_cases hlast : w.job.isLastJob = true
    · rw [if_pos hlast, if_pos hlast, List.nil_append, hnamed, hjobs, List.map_cons]
    · rw [if_neg hlast, if_neg hlast, List.filterMap_append, hnamed, hjobs, List.flatMap_cons, List.map_cons]
      rfl

theorem watchRead_job (fs : FileSystem σ H) (codec : Codec) (s : σ) (ws : List (Watched H)) :
    ((readFirst fs codec s (ws.map Watched.job)).1.filterMap FileResponse.errorNum,
      (readFirst fs codec s (ws.map Watched.job)).2) =
    ((watchRead fs codec s ws).1.flatMap Attempt.named, (watchRead fs codec s ws).2.1,
      (watchRead fs codec s ws).2.2.map Watched.job) := by
  induction ws with
  | nil => rfl
  | cons w ws ih =>
    rw [List.map_cons, readFirst, watchRead]
    by_cases hlast : w.job.isLastJob = true
    · rw [if_pos hlast, if_pos hlast]
      obtain ⟨hnamed, hrest⟩ := Prod.mk.inj ih
      obtain ⟨hfinished, hjobs⟩ := Prod.mk.inj hrest
      dsimp only
      rw [hnamed, hfinished, hjobs, List.map_cons]
    · rw [if_neg hlast, if_neg hlast]
      dsimp only [Watched.readJob]
      rw [List.flatMap_cons, List.flatMap_nil, List.append_nil, List.map_cons]

theorem watchTick_job (fs : FileSystem σ H) (codec : Codec) (s s' : σ) (ws : List (Watched H)) :
    ((tickJobs fs codec s s' (ws.map Watched.job)).1.filterMap CmData.errorNum,
      (tickJobs fs codec s s' (ws.map Watched.job)).2) =
    ((watchTick fs codec s s' ws).1.flatMap Attempt.named, (watchTick fs codec s s' ws).2.1,
      (watchTick fs codec s s' ws).2.2.map Watched.job) := by
  induction ws with
  | nil => rfl
  | cons w ws ih =>
    obtain ⟨hnamed, hrest⟩ := Prod.mk.inj ih
    obtain ⟨hfinished, hjobs⟩ := Prod.mk.inj hrest
    rw [List.map_cons, tickJobs, watchTick]
    by_cases hlast : w.job.isLastJob = true
    · rw [if_pos hlast, if_pos hlast]
      dsimp only
      rw [hnamed, hfinished, hjobs, List.map_cons]
    · rw [if_neg hlast, if_neg hlast, Watched.initReadJobForCm]
      generalize w.job.initReadJobForCm fs s = res
      obtain ⟨e | out, job⟩ := res
      · dsimp only
        rw [List.filterMap_cons_some (f := CmData.errorNum) rfl, hnamed, hfinished, hjobs,
          List.map_cons, List.flatMap_cons]
        rfl
      · dsimp only [Watched.readJobForCm]
        rw [List.filterMap_append, List.flatMap_cons, List.flatMap_cons, List.flatMap_nil,
          List.append_nil, List.map_cons]

/-- **A tick with what it attempted is a tick of the code.** -/
theorem Reporter.tick_job (fs : FileSystem σ H) (codec : Codec) (s s' : σ) (reporter : Reporter)
    (ws : List (Watched H)) :
    reporter.handle fs codec s s' (ws.map Watched.job) = ((reporter.tick fs codec s s' ws).1.flatMap Attempt.named,
        (reporter.tick fs codec s s' ws).2.map Watched.job) := by
  have hdrop : ∀ (id : ℤ) (ws : List (Watched H)),
      removeJob id (ws.map Watched.job) = (dropWatched id ws).map Watched.job := by
    intro id ws
    rw [removeJob, dropWatched, List.eraseP_map]
    rfl
  cases reporter with
  | connection =>
    obtain ⟨hnamed, hjobs⟩ := Prod.mk.inj (watchInit_job fs s ws)
    rw [Reporter.handle, handleReadJobs, Reporter.tick]
    dsimp only
    rw [hjobs]
    obtain ⟨hnamed', hrest⟩ := Prod.mk.inj (watchRead_job fs codec s' (watchInit fs s ws).2)
    obtain ⟨hfinished, hjobs'⟩ := Prod.mk.inj hrest
    rw [List.filterMap_append, hnamed, hnamed', hfinished, hjobs', List.flatMap_append]
    cases (watchRead fs codec s' (watchInit fs s ws).2).2.1 with
    | none => rfl
    | some id => rw [← hdrop]
  | cm =>
    obtain ⟨hnamed, hrest⟩ := Prod.mk.inj (watchTick_job fs codec s s' ws)
    obtain ⟨hfinished, hjobs⟩ := Prod.mk.inj hrest
    rw [Reporter.handle, handleReadJobsTick, Reporter.tick]
    dsimp only
    rw [hnamed, hfinished, hjobs]
    congr 1
    generalize (watchTick fs codec s s' ws).2.2 = left
    generalize (watchTick fs codec s s' ws).2.1 = finished
    induction finished generalizing left with
    | nil => rfl
    | cons id finished ih =>
      rw [List.foldl_cons, List.foldl_cons, hdrop]
      exact ih _

/-! ## Runs -/

namespace ReadWatch

variable {reporter : Reporter}

/-- Every job is at the file of its stream. -/
def Sound (st : ReadWatch H) : Prop := ∀ w ∈ st.jobs, w.Sound

theorem empty_sound : (empty : ReadWatch H).Sound := by simp [Sound, empty]

theorem updated_sound {p : Watched H → Bool} {f : Watched H → Option (Watched H)}
    {ws ws' : List (Watched H)} (h : ∀ w ∈ ws, w.Sound) (hupdate : updateFirst p f ws = some ws')
    (hf : ∀ w w', w.Sound → f w = some w' → w'.Sound) : ∀ w ∈ ws', w.Sound := by
  obtain rfl | ⟨before, w, w', after, rfl, rfl, hw⟩ := ReadSide.updateFirst_spec hupdate
  · exact h
  · rw [List.forall_mem_append, List.forall_mem_cons] at h ⊢
    exact ⟨h.1, hf w w' h.2.1 hw, h.2.2⟩

theorem resumed_sound {w : Watched H} (h : w.Sound) : (resumed w).Sound := by
  unfold resumed
  split
  · exact ⟨h.range, h.fits, h.stream⟩
  · exact h

theorem newRead_files_le (id : ℤ) (type : JobType) (dataSource : DataSource)
    (files : List FileEntry) (fileNum : ℤ) (od : Bool) :
    (TransferJob.newRead id type dataSource files fileNum od : TransferJob H).files.length ≤ files.length := by
  cases dataSource with
  | filePath p => exact Nat.le_refl _
  | memoryCursor c => exact Nat.zero_le _

/-- What a step attempts, and what it leaves. -/
theorem attempt_sound {st : ReadWatch H} {a : WatchAction σ} {res : List Attempt × List (Watched H)}
    (h : st.Sound) (hres : st.attempt fs codec reporter a = some res) :
    (∀ t ∈ res.1, t.NamesFile ↔ t.OpensAndReads) ∧ ∀ w ∈ res.2, w.Sound := by
  cases a with
  | tick s s' =>
    cases hres
    exact reporter.tick_sound fs codec s s' h
  | confirm | confirmForRead =>
    obtain ⟨ws, hws, rfl⟩ := Option.map_eq_some_iff.mp hres
    exact ⟨by simp, updated_sound h hws fun w w' hw h => hw.confirm h⟩
  | start id type dataSource files fileNum od isLastJob =>
    cases hres
    refine ⟨by simp, List.forall_mem_append.mpr ⟨h, List.forall_mem_singleton.mpr ?_⟩⟩
    have hfew := newRead_files_le (H := H) id type dataSource files.entries fileNum.toInt od
    exact ⟨⟨Int32.le_toInt _, Int32.toInt_lt _⟩, Nat.lt_of_le_of_lt hfew files.fits,
      fun hstream => absurd rfl hstream⟩
  | resume id =>
    obtain ⟨ws, hws, rfl⟩ := Option.map_eq_some_iff.mp hres
    refine ⟨by simp, updated_sound h hws fun w w' hw h => ?_⟩
    cases h
    exact resumed_sound hw
  | cancel id =>
    cases hres
    exact ⟨by simp, dropWatched_sound h⟩

/-- **Errors name the right file just if no open and no read fails**: in every run, the errors that are
reported for a failing file carry its index if and only if every step is one in which nothing but a
call for the metadata fails. -/
theorem names_file_iff (fs : FileSystem σ H) (codec : Codec) (reporter : Reporter)
    {acts : List (WatchAction σ)} {st : ReadWatch H}
    (hrun : Run (Steps (step fs codec reporter)) empty acts st) :
    (∀ t ∈ st.tried, t.NamesFile) ↔
      Run (Only (OnlyMetadataFails fs codec reporter) (Steps (step fs codec reporter))) empty acts
        st := by
  have hstep : ∀ (st : ReadWatch H) (a : WatchAction σ) (st' : ReadWatch H), st.Sound →
      step fs codec reporter st a = some st' → st'.Sound ∧
        ((∀ t ∈ st'.tried, t.NamesFile) ↔
          (∀ t ∈ st.tried, t.NamesFile) ∧ st.OnlyMetadataFails fs codec reporter a) := by
    intro st a st' hst hstep
    obtain ⟨res, hres, rfl⟩ := Option.map_eq_some_iff.mp hstep
    obtain ⟨hnames, hleft⟩ := attempt_sound hst hres
    refine ⟨hleft, ?_⟩
    rw [List.forall_mem_append]
    refine and_congr_right fun _ => ?_
    -- the reports of the step name their files just if it meets the condition
    constructor
    · intro h res' hres' t ht
      obtain rfl : res = res' := Option.some.inj (hres.symm.trans hres')
      exact (hnames t ht).mp (h t ht)
    · exact fun h t ht => (hnames t ht).mpr (h res hres t ht)
  rw [hrun.holds_iff_only (fun st a st' hst h => (hstep st a st' hst h).1)
    (fun st a st' hst h => (hstep st a st' hst h).2) empty_sound]
  exact and_iff_right (by simp [empty])

/-- Files without metadata. -/
def withoutMetadata : FileSystem Unit Unit :=
  { DoneDealt.withoutFile ['x'] with fileMetadata _ _ := .error ⟨.other, "Input/output error"⟩ }

/-- Two files, sent with overwrite detection, and a tick. -/
def twoFiles : List (WatchAction Unit) :=
  [.start 1 .generic (.filePath ['d']) ⟨[⟨['a'], 0⟩, ⟨['b'], 0⟩], by decide⟩ 0 true false, .tick () ()]

/-- The metadata of the first file cannot be read, and the error names that file. -/
theorem names_file_after_metadata : ∃ st,
    Run (Only (OnlyMetadataFails withoutMetadata .plain .connection)
      (Steps (step withoutMetadata .plain .connection))) empty twoFiles st ∧
      st.tried = [⟨some ⟨.metadata, 0⟩, [0]⟩, ⟨none, []⟩] := by
  obtain ⟨st, hrun, htried⟩ : ∃ st,
      Run (Steps (step withoutMetadata .plain .connection)) empty twoFiles st ∧
        st.tried = [⟨some ⟨.metadata, 0⟩, [0]⟩, ⟨none, []⟩] :=
    ⟨_, exec_eq_some_iff.mp rfl, by decide +kernel⟩
  refine ⟨st, (names_file_iff _ _ _ hrun).mp ?_, htried⟩
  rw [htried, List.forall_mem_cons, List.forall_mem_singleton]
  constructor
  · rintro f ⟨⟩ n hn
    exact List.mem_singleton.mp hn
  · rintro f ⟨⟩

/-- The first of two files cannot be opened, and the error names the second. -/
theorem names_next_file : ∃ st,
    Run (Steps (step (DoneDealt.withoutFile ['d', '/', 'a']) .plain .connection)) empty
      twoFiles st ∧ st.tried = [⟨some ⟨.openFile, 0⟩, [1]⟩, ⟨none, []⟩] ∧
      ¬ ∀ t ∈ st.tried, t.NamesFile := by
  refine exists_and_and (fun st _ htried h => ?_) ⟨_, exec_eq_some_iff.mp rfl, by decide +kernel⟩
  rw [htried] at h
  have hname := h _ List.mem_cons_self ⟨.openFile, 0⟩ rfl 1 List.mem_cons_self
  exact absurd hname (by decide)

end ReadWatch

end FileSystem

end RustDesk.FileTransfer
