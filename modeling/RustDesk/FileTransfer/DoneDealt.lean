import RustDesk.FileTransfer.ReadJobs

/-!
# What `FileTransferDone` promises

A job goes from file to file, and leaves each with an event that deals with it. That the job is
complete `handle_read_jobs` infers from two flags, which an error of the same tick has reset: then the
job is removed with the files behind the one that failed.
-/

namespace RustDesk.FileTransfer

section FileSystem

variable {σ H : Type*} {fs : FileSystem σ H} {codec : Codec} {s s' : σ}

/-! ## What a job keeps -/

/-- What no operation of a job that reads changes. -/
structure TransferJob.Keeps (job job' : TransferJob H) : Prop where
  id : job'.id = job.id
  isLastJob : job'.isLastJob = job.isLastJob
  type : job'.type = job.type
  detection : job'.enableOverwriteDetection = job.enableOverwriteDetection
  files : job'.files = job.files
  filePath : ∀ p, job.dataSource = .filePath p → job'.dataSource = .filePath p

namespace TransferJob

theorem Keeps.refl (job : TransferJob H) : job.Keeps job := ⟨rfl, rfl, rfl, rfl, rfl, fun _ h => h⟩

/-- The current file could not be offered: it cannot be opened, or its metadata cannot be read. -/
def CannotOffer (fs : FileSystem σ H) (s : σ) (job : TransferJob H) : Prop :=
  match job.dataSource with
  | .memoryCursor _ => False
  | .filePath p =>
    ∃ entry, job.files[asUsize job.fileNum]? = some entry ∧
      match job.dataStream with
      | none =>
        match fs.openRead s (join p entry.name) with
        | .error _ => True
        | .ok h => ∃ e, fs.fileMetadata s h = .error e
      | some (.fileStream h) =>
        job.fileConfirmed = false ∧ job.fileIsWaiting = false ∧ ∃ e, fs.fileMetadata s h = .error e
      | some (.bufStream ..) => job.fileConfirmed = false ∧ job.fileIsWaiting = false

/-- `open_data_stream` keeps the file, or leaves it with an error. -/
theorem openDataStream_spec (fs : FileSystem σ H) (s : σ) (job : TransferJob H) :
    job.Keeps (job.openDataStream fs s).2 ∧ ((job.openDataStream fs s).2.fileNum = job.fileNum ∨
        (job.openDataStream fs s).2.fileNum = succI32 job.fileNum ∧
          ∃ e, (job.openDataStream fs s).1 = .error e) := by
  unfold openDataStream
  split
  next p hp =>
    split
    · exact ⟨⟨rfl, rfl, rfl, rfl, rfl, fun _ h => h⟩, .inl rfl⟩
    · split
      · split
        · exact ⟨⟨rfl, rfl, rfl, rfl, rfl, fun _ h => h⟩, .inl rfl⟩
        · exact ⟨⟨rfl, rfl, rfl, rfl, rfl, fun _ h => h⟩, .inr ⟨rfl, _, rfl⟩⟩
      · exact ⟨.refl job, .inl rfl⟩
  next c hc =>
    split
    · exact ⟨⟨rfl, rfl, rfl, rfl, rfl, fun p h => by rw [hc] at h; cases h⟩, .inl rfl⟩
    · exact ⟨.refl job, .inl rfl⟩

/-- `init_data_stream` keeps the file, or leaves it with an error. -/
theorem initDataStream_spec (fs : FileSystem σ H) (s : σ) (job : TransferJob H) :
    job.Keeps (job.initDataStream fs s).2 ∧ ((job.initDataStream fs s).2.fileNum = job.fileNum ∨
        (job.initDataStream fs s).2.fileNum = succI32 job.fileNum ∧
          ∃ e, (job.initDataStream fs s).1 = .error e) := by
  have hopen := openDataStream_spec fs s job
  unfold initDataStream
  generalize job.openDataStream fs s = res at hopen
  obtain ⟨e | b, job'⟩ := res
  · obtain ⟨hkeeps, hnum | ⟨hnum, -⟩⟩ := hopen
    · exact ⟨hkeeps, .inl hnum⟩
    · exact ⟨hkeeps, .inr ⟨hnum, e, rfl⟩⟩
  · obtain ⟨hkeeps, hnum | ⟨-, e, he⟩⟩ := hopen
    · cases b
      · dsimp only
        split
        · split
          · exact ⟨hkeeps, .inl hnum⟩
          · exact ⟨{ hkeeps with }, .inl hnum⟩
        · exact ⟨hkeeps, .inl hnum⟩
      · exact ⟨hkeeps, .inl hnum⟩
    · cases he

/-- `init_jobs` keeps the file of a job, or leaves it with an error. -/
theorem initJob_spec (fs : FileSystem σ H) (s : σ) (job : TransferJob H) :
    job.Keeps (job.initJob fs s).2 ∧ ((job.initJob fs s).2.fileNum = job.fileNum ∨
        (job.initJob fs s).2.fileNum = succI32 job.fileNum ∧ ∃ id e n, .error id e n ∈ (job.initJob fs s).1) := by
  have hinit := initDataStream_spec fs s job
  unfold initJob
  generalize job.initDataStream fs s = res at hinit
  obtain ⟨e | d, job'⟩ := res
  · obtain ⟨hkeeps, hnum | ⟨hnum, -⟩⟩ := hinit
    · exact ⟨hkeeps, .inl hnum⟩
    · exact ⟨hkeeps, .inr ⟨hnum, _, _, _, List.mem_singleton_self _⟩⟩
  · obtain ⟨hkeeps, hnum | ⟨-, e, he⟩⟩ := hinit
    · cases d <;> exact ⟨hkeeps, .inl hnum⟩
    · cases he

/-- `init_jobs` sends digests and errors only. -/
theorem initJob_no_done (job : TransferJob H) {id n : ℤ} : .done id n ∉ (job.initJob fs s).1 := by
  unfold initJob newError
  split <;> simp

/-- A job that waits for nobody after `init_data_stream`, and has a file to offer, could not offer
it. -/
theorem initDataStream_stalled {job : TransferJob H} {p : Path} {entry : FileEntry}
    (hp : job.dataSource = .filePath p) (hentry : job.files[asUsize job.fileNum]? = some entry)
    (htype : job.type = .generic) (hdetection : job.enableOverwriteDetection = true)
    (hconfirmed : (job.initDataStream fs s).2.fileConfirmed = false)
    (hwaiting : (job.initDataStream fs s).2.fileIsWaiting = false) :
    job.CannotOffer fs s ∧ ∃ e, (job.initDataStream fs s).1 = .error e := by
  rw [CannotOffer, hp]
  cases hstream : job.dataStream with
  | none =>
    cases hopen : fs.openRead s (join p entry.name) with
    | error e =>
      refine ⟨⟨entry, hentry, ?_⟩, e.text, ?_⟩
      · simp only [hopen]
      · simp [initDataStream, openDataStream, hp, hentry, hstream, hopen]
    | ok h =>
      cases hmeta : fs.fileMetadata s h with
      | error e =>
        refine ⟨⟨entry, hentry, ?_⟩, e.text, ?_⟩
        · simp only [hopen]
          exact ⟨e, hmeta⟩
        · simp [initDataStream, openDataStream, hp, hentry, hstream, hopen, offers, htype,
            hdetection, getCurrentDigest, hmeta, Except.mapError]
      | ok m =>
        simp [initDataStream, openDataStream, hp, hentry, hstream, hopen, offers, htype,
          hdetection, getCurrentDigest, hmeta, Except.mapError] at hwaiting
  | some stream =>
    by_cases hoffers : job.offers = true
    · obtain ⟨hc, hw⟩ : job.fileConfirmed = false ∧ job.fileIsWaiting = false := by
        simpa [offers, htype, hdetection] using hoffers
      cases stream with
      | fileStream h =>
        cases hmeta : fs.fileMetadata s h with
        | error e =>
          refine ⟨⟨entry, hentry, hc, hw, e, hmeta⟩, e.text, ?_⟩
          simp [initDataStream, openDataStream, hp, hentry, hstream, hoffers, getCurrentDigest,
            hmeta, Except.mapError]
        | ok m =>
          simp [initDataStream, openDataStream, hp, hentry, hstream, hoffers, getCurrentDigest,
            hmeta, Except.mapError] at hwaiting
      | bufStream data pos =>
        refine ⟨⟨entry, hentry, hc, hw⟩, "No digest for buf stream", ?_⟩
        simp [initDataStream, openDataStream, hp, hentry, hstream, hoffers, getCurrentDigest]
    · have hjob : (job.initDataStream fs s).2 = job := by
        simp [initDataStream, openDataStream, hp, hentry, hstream, hoffers]
      rw [hjob] at hconfirmed hwaiting
      refine absurd ?_ hoffers
      simp [offers, htype, hdetection, hconfirmed, hwaiting]

/-- What `read` comes to: it keeps the file, leaves it with an error, or leaves it at its end, with
the empty block that says so. -/
theorem read_spec (fs : FileSystem σ H) (codec : Codec) (s : σ) (job : TransferJob H) :
    job.Keeps (job.read fs codec s).2 ∧ ((job.read fs codec s).2.fileNum = job.fileNum ∨
        (job.read fs codec s).2.fileNum = succI32 job.fileNum ∧ ((∃ e, (job.read fs codec s).1 = .error e) ∨
            (job.read fs codec s).1 = .ok (some ⟨job.id, job.fileNum, [], false⟩))) := by
  unfold read
  split
  · exact ⟨.refl job, .inl rfl⟩
  · split
    · exact ⟨⟨rfl, rfl, rfl, rfl, rfl, fun _ h => h⟩, .inl rfl⟩
    · split
      · exact ⟨.refl job, .inl rfl⟩
      · split
        · exact ⟨⟨rfl, rfl, rfl, rfl, rfl, fun _ h => h⟩, .inr ⟨rfl, .inl ⟨_, rfl⟩⟩⟩
        · split
          · exact ⟨⟨rfl, rfl, rfl, rfl, rfl, fun _ h => h⟩, .inl rfl⟩
          · exact ⟨⟨rfl, rfl, rfl, rfl, rfl, fun _ h => h⟩, .inr ⟨rfl, .inr rfl⟩⟩
        · exact ⟨⟨rfl, rfl, rfl, rfl, rfl, fun _ h => h⟩, .inl rfl⟩

/-- `read` returns `None` at a file of the list only to wait for a confirmation. -/
theorem read_none {job : TransferJob H} {p : Path} {entry : FileEntry}
    (hp : job.dataSource = .filePath p) (hentry : job.files[asUsize job.fileNum]? = some entry)
    (hread : (job.read fs codec s).1 = .ok none) :
    job.type = .generic ∧ job.enableOverwriteDetection = true ∧ job.fileConfirmed = false ∧
      (job.read fs codec s).2 = job := by
  unfold read at hread ⊢
  split at hread
  next hwait =>
    rw [if_pos hwait]
    exact ⟨hwait.1, hwait.2.1, by simpa using hwait.2.2, rfl⟩
  · obtain ⟨name, hname⟩ : ∃ name, job.currentName = some name := by
      rw [currentName, hp, hentry]
      exact ⟨_, rfl⟩
    rw [hname] at hread
    dsimp only at hread
    split at hread
    · cases hread
    · split at hread
      · cases hread
      · rw [hp] at hread
        cases hread
      · cases hread

end TransferJob

/-! ## One job with its log -/

namespace Tracked

/-- What an operation on a job does: it keeps the file that the job is at, or goes on to the next, and
then the one it leaves was dealt with. -/
structure Moves (t t' : Tracked H) : Prop where
  start : t'.start = t.start
  id : t'.job.id = t.job.id
  isLastJob : t.job.isLastJob = false → t'.job.isLastJob = false
  files : t'.job.files = t.job.files
  filePath : ∀ p, t.job.dataSource = .filePath p → t'.job.dataSource = .filePath p
  log : ∀ e ∈ t.log, e ∈ t'.log
  fileNum : t'.job.fileNum = t.job.fileNum ∨
    t'.job.fileNum = succI32 t.job.fileNum ∧ t'.Dealt t.job.fileNum

/-- The files before the current one were dealt with, and the current one is in the list. -/
structure Underway (t : Tracked H) : Prop where
  filePath : ∃ p, t.job.dataSource = .filePath p
  few : t.job.files.length ≤ 2 ^ 31
  start_nonneg : 0 ≤ t.start
  start_le : t.start ≤ t.job.fileNum
  lt : t.job.fileNum < t.job.files.length
  dealt : ∀ i : ℤ, t.start ≤ i → i < t.job.fileNum → t.Dealt i

/-- **The invariant of a job.** -/
structure Inv (t : Tracked H) : Prop where
  progress : t.AllDealt ∨ t.Underway
  done : t.SentDone → t.AllDealt

variable {t t' : Tracked H} {job : TransferJob H} {out : List FileResponse} {r : FileTransferSendConfirmRequest}

theorem Moves.dealt (h : t.Moves t') {i : ℤ} (hi : t.Dealt i) : t'.Dealt i := by
  obtain ⟨e, he, hsettles⟩ := hi
  exact ⟨e, h.log e he, hsettles⟩

theorem Moves.allDealt (h : t.Moves t') (hall : t.AllDealt) : t'.AllDealt := by
  intro i hstart hlt
  rw [h.start] at hstart
  rw [h.files] at hlt
  exact h.dealt (hall i hstart hlt)

/-- The entry that an underway job is at. -/
theorem Underway.entry (h : t.Underway) : ∃ entry, t.job.files[asUsize t.job.fileNum]? = some entry := by
  have hnonneg : 0 ≤ t.job.fileNum := Int.le_trans h.start_nonneg h.start_le
  have hlt := h.lt
  have hfew := h.few
  rw [asUsize_of_nonneg hnonneg (by omega)]
  exact ⟨_, List.getElem?_eq_getElem (by omega)⟩

/-- The step lemma of a job: it stays in its list, or has dealt with the last file of it. -/
theorem Underway.moves (hunder : t.Underway) (h : t.Moves t') : t'.AllDealt ∨ t'.Underway := by
  have hnonneg : 0 ≤ t.job.fileNum := Int.le_trans hunder.start_nonneg hunder.start_le
  have hlt := hunder.lt
  have hfew := hunder.few
  obtain hsame | ⟨hsucc, hdealt⟩ := h.fileNum
  · refine .inr ⟨?_, ?_, ?_, ?_, ?_, ?_⟩
    · exact hunder.filePath.imp h.filePath
    · rw [h.files]
      exact hunder.few
    · rw [h.start]
      exact hunder.start_nonneg
    · rw [h.start, hsame]
      exact hunder.start_le
    · rw [hsame, h.files]
      exact hunder.lt
    · rw [h.start, hsame]
      exact fun i hi hlt => h.dealt (hunder.dealt i hi hlt)
  -- the files up to the one that is left
  have hupTo : ∀ i : ℤ, t.start ≤ i → i < t.job.fileNum + 1 → t'.Dealt i := by
    intro i hi hlt
    obtain hlt | rfl : i < t.job.fileNum ∨ i = t.job.fileNum := by omega
    · exact h.dealt (hunder.dealt i hi hlt)
    · exact hdealt
  by_cases hlast : t.job.fileNum + 1 < t.job.files.length
  · have hnext : t'.job.fileNum = t.job.fileNum + 1 := by rw [hsucc, succI32_of_lt hnonneg (by omega)]
    have hstart := hunder.start_le
    refine .inr ⟨?_, ?_, ?_, ?_, ?_, ?_⟩
    · exact hunder.filePath.imp h.filePath
    · rw [h.files]
      exact hunder.few
    · rw [h.start]
      exact hunder.start_nonneg
    · rw [h.start, hnext]
      omega
    · rw [hnext, h.files]
      exact hlast
    · rw [h.start, hnext]
      exact hupTo
  · refine .inl fun i hi hlt => hupTo i ?_ ?_
    · rwa [← h.start]
    · rw [h.files] at hlt
      omega

theorem Inv.moves (hinv : t.Inv) (h : t.Moves t') (hdone : t'.SentDone → t.SentDone ∨ t'.AllDealt) : t'.Inv where
  progress := by
    obtain hall | hunder := hinv.progress
    · exact .inl (h.allDealt hall)
    · exact hunder.moves h
  done hsent := by
    obtain hsent | hall := hdone hsent
    · exact h.allDealt (hinv.done hsent)
    · exact hall

/-! ### The operations -/

theorem mem_log_send {t : Tracked H} {e : ℤ × JobEvent} :
    e ∈ (t.send out job).log ↔ e ∈ t.log ∨ ∃ msg ∈ out, e = (t.job.fileNum, .sent msg) := by
  rw [send, List.mem_append, List.mem_map]
  simp only [eq_comm]

theorem dealt_send {t : Tracked H}
    {msg : FileResponse} (hmem : msg ∈ out) (hsettles : (JobEvent.sent msg).Settles t.job.fileNum) :
    (t.send out job).Dealt t.job.fileNum :=
  ⟨(t.job.fileNum, .sent msg), mem_log_send.mpr (.inr ⟨msg, hmem, rfl⟩), rfl, hsettles⟩

theorem sentDone_send {t : Tracked H} (h : (t.send out job).SentDone) : t.SentDone ∨ ∃ id n, .done id n ∈ out := by
  obtain ⟨e, he, id, n, hdone⟩ := h
  obtain he | ⟨msg, hmsg, rfl⟩ := mem_log_send.mp he
  · exact .inl ⟨e, he, id, n, hdone⟩
  · obtain rfl : msg = .done id n := by simpa using hdone
    exact .inr ⟨id, n, hmsg⟩

theorem moves_send {t : Tracked H} (hkeeps : t.job.Keeps job)
    (hnum : job.fileNum = t.job.fileNum ∨ job.fileNum = succI32 t.job.fileNum ∧
      ∃ msg ∈ out, (JobEvent.sent msg).Settles t.job.fileNum) :
    t.Moves (t.send out job) where
  start := rfl
  id := hkeeps.id
  isLastJob h := hkeeps.isLastJob.trans h
  files := hkeeps.files
  filePath := hkeeps.filePath
  log _ he := mem_log_send.mpr (.inl he)
  fileNum := by
    obtain hsame | ⟨hsucc, msg, hmem, hsettles⟩ := hnum
    · exact .inl hsame
    · exact .inr ⟨hsucc, dealt_send hmem hsettles⟩

theorem initJob_moves (fs : FileSystem σ H) (s : σ) (t : Tracked H) : t.Moves (t.initJob fs s) := by
  unfold initJob
  split
  · exact ⟨rfl, rfl, id, rfl, fun _ h => h, fun _ h => h, .inl rfl⟩
  · obtain ⟨hkeeps, hnum | ⟨hnum, id, e, n, herror⟩⟩ := t.job.initJob_spec fs s
    · exact moves_send hkeeps (.inl hnum)
    · exact moves_send hkeeps (.inr ⟨hnum, _, herror, trivial⟩)

theorem Inv.initJob (h : t.Inv) : (t.initJob fs s).Inv := by
  refine h.moves (t.initJob_moves fs s) fun hdone => .inl ?_
  unfold Tracked.initJob at hdone
  split at hdone
  · exact hdone
  · obtain hdone | ⟨id, n, hdone⟩ := sentDone_send hdone
    · exact hdone
    · exact absurd hdone t.job.initJob_no_done

theorem readJob_moves (t : Tracked H) : t.Moves (t.readJob fs codec s) := by
  have hread := t.job.read_spec fs codec s
  unfold readJob TransferJob.readJob
  generalize t.job.read fs codec s = res at hread
  obtain ⟨e | block, job'⟩ := res
  · obtain ⟨hkeeps, hnum | ⟨hnum, -⟩⟩ := hread
    · exact moves_send hkeeps (.inl hnum)
    · exact moves_send hkeeps (.inr ⟨hnum, _, List.mem_singleton_self _, trivial⟩)
  · obtain ⟨hkeeps, hnum | ⟨hnum, ⟨e, he⟩ | hend⟩⟩ := hread
    · cases block with
      | none =>
        dsimp only
        split <;> exact moves_send hkeeps (.inl hnum)
      | some block => exact moves_send hkeeps (.inl hnum)
    · cases he
    · obtain rfl : block = _ := Except.ok.inj hend
      exact moves_send hkeeps (.inr ⟨hnum, _, List.mem_singleton_self _, rfl, rfl, rfl⟩)

/-- `FileTransferDone` is sent for a job that is finished. -/
theorem sentDone_readJob (h : (t.readJob fs codec s).SentDone) :
    t.SentDone ∨ (t.job.readJob fs codec s).2.1 = true := by
  obtain h | ⟨id, n, hdone⟩ := sentDone_send h
  · exact .inl h
  · refine .inr ?_
    unfold TransferJob.readJob newError at hdone ⊢
    split at hdone
    · simp at hdone
    · simp at hdone
    · split at hdone
      next hcompleted => rw [if_pos hcompleted]
      · simp at hdone

/-- A job that could not offer its current file, where this is not the last of the list, would be
finished in the same tick. -/
def Quiet (fs : FileSystem σ H) (s : σ) (t : Tracked H) : Prop :=
  t.job.type = .generic → t.job.enableOverwriteDetection = true → t.job.CannotOffer fs s →
    (t.job.files.length : ℤ) ≤ t.job.fileNum + 1

/-- In a tick that is quiet, a job that is finished has dealt with every file. -/
theorem Inv.finished (hinv : t.Inv) (hlast : t.job.isLastJob = false) (hquiet : t.Quiet fs s)
    (hfin : ((t.initJob fs s).job.readJob fs codec s').2.1 = true) : (t.initJob fs s).AllDealt := by
  obtain hall | hunder := hinv.progress
  · exact (t.initJob_moves fs s).allDealt hall
  obtain hall | hunder' := hunder.moves (t.initJob_moves fs s)
  · exact hall
  obtain ⟨p, hp⟩ := hunder'.filePath
  obtain ⟨entry, hentry⟩ := hunder'.entry
  have hinit : t.initJob fs s = t.send (t.job.initJob fs s).1 (t.job.initJob fs s).2 := by
    simp [Tracked.initJob, hlast]
  have hjob : (t.initJob fs s).job = (t.job.initDataStream fs s).2 := by
    rw [hinit]
    unfold send TransferJob.initJob
    split <;> rename_i heq <;> rw [heq]
  -- nothing was read, and nobody is waited for
  obtain ⟨job', hread, hcompleted⟩ : ∃ job',
      (t.initJob fs s).job.read fs codec s' = (.ok none, job') ∧ job'.jobCompleted = true := by
    unfold TransferJob.readJob at hfin
    split at hfin
    · cases hfin
    · cases hfin
    next job' hread =>
      refine ⟨job', hread, ?_⟩
      split at hfin
      · assumption
      · cases hfin
  obtain ⟨htype, hdetection, hconfirmed, hsame⟩ := TransferJob.read_none hp hentry (by rw [hread])
  obtain rfl : job' = (t.initJob fs s).job := by rw [← hsame, hread]
  have hwaiting : (t.initJob fs s).job.fileIsWaiting = false := by
    simpa [TransferJob.jobCompleted, hdetection, hconfirmed] using hcompleted
  rw [hjob] at htype hdetection hconfirmed hwaiting
  -- so the file of the job could not be offered
  have hkeeps := (t.job.initDataStream_spec fs s).1
  obtain ⟨q, hq⟩ := hunder.filePath
  obtain ⟨first, hfirst⟩ := hunder.entry
  obtain ⟨hcannot, e, herror⟩ := TransferJob.initDataStream_stalled hq hfirst
    (hkeeps.type ▸ htype) (hkeeps.detection ▸ hdetection) hconfirmed hwaiting
  have hlen := hquiet (hkeeps.type ▸ htype) (hkeeps.detection ▸ hdetection) hcannot
  have hdealt : (t.initJob fs s).Dealt t.job.fileNum := by
    rw [hinit]
    suffices hmem : newError (t.job.initDataStream fs s).2 e ∈ (t.job.initJob fs s).1 from
      dealt_send hmem trivial
    unfold TransferJob.initJob
    generalize t.job.initDataStream fs s = res at herror
    obtain ⟨res, job'⟩ := res
    obtain rfl : res = .error e := herror
    exact List.mem_singleton_self _
  intro i hi hlt
  rw [(t.initJob_moves fs s).start] at hi
  rw [(t.initJob_moves fs s).files] at hlt
  obtain hbefore | hcurrent : (i : ℤ) < t.job.fileNum ∨ (i : ℤ) = t.job.fileNum := by omega
  · exact (t.initJob_moves fs s).dealt (hunder.dealt i hi hbefore)
  · rwa [hcurrent]

/-- The job that a quiet tick reads keeps its invariant. -/
theorem Inv.readJob (hinv : t.Inv) (hlast : t.job.isLastJob = false) (hquiet : t.Quiet fs s) :
    ((t.initJob fs s).readJob fs codec s').Inv := by
  refine hinv.initJob.moves (readJob_moves _) fun hdone => ?_
  obtain hdone | hfin := sentDone_readJob hdone
  · exact .inl hdone
  · exact .inr ((readJob_moves _).allDealt (hinv.finished hlast hquiet hfin))

/-- What a confirmation does to a job. -/
theorem confirm_spec {res : TransferJob H × σ} (h : job.confirm fs s r = some res) :
    job.Keeps res.1 ∧ (res.1.fileNum = job.fileNum ∨
      res.1.fileNum = succI32 job.fileNum ∧ r.fileNum = job.fileNum ∧ r.union = some (.skip true)) := by
  unfold TransferJob.confirm at h
  split at h
  · obtain rfl : (job, s) = res := by simpa using h
    exact ⟨.refl job, .inl rfl⟩
  next hnum =>
    have hconfirmed : job.Keeps (job.setFileConfirmed true) := ⟨rfl, rfl, rfl, rfl, rfl, fun _ h => h⟩
    split at h
    next hunion =>
      cases h
      exact ⟨⟨rfl, rfl, rfl, rfl, rfl, fun _ h => h⟩, .inr ⟨rfl, by simpa [eq_comm] using hnum, hunion⟩⟩
    · cases h
      exact ⟨hconfirmed, .inl rfl⟩
    · split at h
      · split at h
        · cases h
          exact ⟨hconfirmed, .inl rfl⟩
        · obtain ⟨entry, -, rfl⟩ := Option.map_eq_some_iff.mp h
          unfold TransferJob.setStreamOffset
          split
          · exact ⟨hconfirmed, .inl rfl⟩
          · split
            · exact ⟨hconfirmed, .inl rfl⟩
            · split
              · exact ⟨hconfirmed, .inl rfl⟩
              · split
                · exact ⟨hconfirmed, .inl rfl⟩
                · exact ⟨⟨rfl, rfl, rfl, rfl, rfl, fun _ h => h⟩, .inl rfl⟩
      · cases h
        exact ⟨hconfirmed, .inl rfl⟩
    · cases h
      exact ⟨.refl job, .inl rfl⟩

theorem confirm_moves (h : t.confirm fs s r = some t') : t.Moves t' := by
  obtain ⟨res, hres, rfl⟩ := Option.map_eq_some_iff.mp h
  obtain ⟨hkeeps, hnum⟩ := confirm_spec hres
  refine ⟨rfl, hkeeps.id, fun h => hkeeps.isLastJob.trans h, hkeeps.files, hkeeps.filePath,
    fun e he => List.mem_append_left _ he, ?_⟩
  obtain hsame | ⟨hsucc, hnum, hunion⟩ := hnum
  · exact .inl hsame
  · exact .inr ⟨hsucc, (t.job.fileNum, .confirmed r), List.mem_append_right _ (by simp), rfl, hnum, hunion⟩

theorem Inv.confirm (hinv : t.Inv) (h : t.confirm fs s r = some t') : t'.Inv := by
  refine hinv.moves (confirm_moves h) fun hdone => .inl ?_
  obtain ⟨res, -, rfl⟩ := Option.map_eq_some_iff.mp h
  obtain ⟨e, he, id, n, hmsg⟩ := hdone
  obtain he | he := List.mem_append.mp he
  · exact ⟨e, he, id, n, hmsg⟩
  · obtain rfl : e = (t.job.fileNum, .confirmed r) := by simpa using he
    cases hmsg

end Tracked

namespace ReadSide

open Tracked

theorem resumed_moves (t : Tracked H) : t.Moves (resumed t) := by
  unfold resumed
  split
  · exact ⟨rfl, rfl, fun _ => rfl, rfl, fun _ h => h, fun _ h => h, .inl rfl⟩
  · exact ⟨rfl, rfl, id, rfl, fun _ h => h, fun _ h => h, .inl rfl⟩

theorem resumed_inv {t : Tracked H} (hinv : t.Inv) : (resumed t).Inv := by
  refine hinv.moves (resumed_moves t) fun hdone => .inl ?_
  unfold resumed at hdone
  split at hdone <;> exact hdone

/-! ## The list -/

/-- The jobs with their logs are the jobs that `handle_read_jobs` has. -/
theorem readFirst_job (ts : List (Tracked H)) : FileTransfer.readFirst fs codec s (ts.map Tracked.job) =
      ((FileTransfer.readFirst fs codec s (ts.map Tracked.job)).1,
        (Tracked.readFirst fs codec s ts).1, (Tracked.readFirst fs codec s ts).2.map Tracked.job) := by
  induction ts with
  | nil => rfl
  | cons t ts ih =>
    rw [List.map_cons, FileTransfer.readFirst, Tracked.readFirst]
    split
    · rw [ih]
      rfl
    · rfl

theorem initJobs_job (ts : List (Tracked H)) :
    (initJobs fs s (ts.map Tracked.job)).2 = (ts.map (Tracked.initJob fs s)).map Tracked.job := by
  induction ts with
  | nil => rfl
  | cons t ts ih =>
    rw [List.map_cons, List.map_cons, List.map_cons, ← ih, Tracked.initJob]
    by_cases hlast : t.job.isLastJob = true
    · simp [initJobs, hlast]
    · simp [initJobs, hlast, send]

/-- A tick does to the jobs what `handle_read_jobs` does. -/
theorem tick_jobs (st : ReadSide H) : (st.tick fs codec s s').jobs.map Tracked.job =
      (handleReadJobs fs codec s s' (st.jobs.map Tracked.job)).2 := by
  rw [handleReadJobs, ← Prod.eta (initJobs fs s (st.jobs.map Tracked.job)), initJobs_job]
  dsimp only
  rw [readFirst_job, tick]
  generalize Tracked.readFirst fs codec s' (st.jobs.map (Tracked.initJob fs s)) = res
  obtain ⟨_ | id, ts⟩ := res
  · rfl
  · show (ts.eraseP (·.job.id = id)).map Tracked.job = (ts.map Tracked.job).eraseP (·.id = id)
    rw [List.eraseP_map]
    rfl

/-- The loop reads the first job that does not wait to be resumed. -/
theorem readFirst_spec (fs : FileSystem σ H) (codec : Codec) (s : σ) (ts : List (Tracked H)) :
    Tracked.readFirst fs codec s ts = (none, ts) ∨
      ∃ before t after, ts = before ++ t :: after ∧ (∀ u ∈ before, u.job.isLastJob = true) ∧
        t.job.isLastJob = false ∧
        Tracked.readFirst fs codec s ts =
          (if (t.job.readJob fs codec s).2.1 then some (t.readJob fs codec s).job.id else none,
            before ++ t.readJob fs codec s :: after) := by
  induction ts with
  | nil => exact .inl rfl
  | cons t ts ih =>
    rw [Tracked.readFirst]
    split
    next hlast =>
      obtain hnone | ⟨before, u, after, rfl, hbefore, hu, hread⟩ := ih
      · rw [hnone]
        exact .inl rfl
      · rw [hread]
        exact .inr ⟨t :: before, u, after, rfl, List.forall_mem_cons.mpr ⟨hlast, hbefore⟩, hu, rfl⟩
    next hlast => exact .inr ⟨[], t, ts, rfl, by simp, by simpa using hlast, rfl⟩

/-- No job that waits to be resumed stands before another of its id. -/
def WaitingFirst (ts : List (Tracked H)) : Prop :=
  ts.Pairwise fun t u => t.job.id = u.job.id → t.job.isLastJob = false

/-- **The invariant of the list.** -/
structure Inv (st : ReadSide H) : Prop where
  jobs : ∀ t ∈ st.jobs, t.Inv
  removed : ∀ t ∈ st.removed, t.SentDone → t.AllDealt
  removed_dealt : ∀ t ∈ st.removed, t.AllDealt
  waiting : WaitingFirst st.jobs

/-- What holds a step to the claim. A job starts at a file of its list, or behind it, and its numbers
do not run over; no job that waits to be resumed has its id. In a tick, a job that is to be read fails
to offer its file only where it is the last. -/
def QuietStep (fs : FileSystem σ H) (st : ReadSide H) : ReadAction σ → Prop
  | .tick s _ => ∀ t ∈ st.jobs.find? (!·.job.isLastJob), t.Quiet fs s
  | .start id _ dataSource files fileNum _ _ =>
    (∀ p, dataSource = .filePath p → files ≠ [] → 0 ≤ fileNum ∧ files.length ≤ 2 ^ 31) ∧
      ∀ t ∈ st.jobs, t.job.id = id → t.job.isLastJob = false
  | _ => True

theorem WaitingFirst.map {ts : List (Tracked H)} {f : Tracked H → Tracked H}
    (hf : ∀ t : Tracked H, t.Moves (f t)) (h : WaitingFirst ts) : WaitingFirst (ts.map f) := by
  refine List.Pairwise.map f (fun t u htu hid => ?_) h
  rw [(hf t).id, (hf u).id] at hid
  exact (hf t).isLastJob (htu hid)

theorem WaitingFirst.replace {before after : List (Tracked H)} {t t' : Tracked H}
    (h : WaitingFirst (before ++ t :: after)) (hmoves : t.Moves t') :
    WaitingFirst (before ++ t' :: after) := by
  rw [WaitingFirst, List.pairwise_append, List.pairwise_cons] at h ⊢
  obtain ⟨hbefore, ⟨hafter, hrest⟩, hacross⟩ := h
  refine ⟨hbefore, ⟨fun u hu hid => ?_, hrest⟩, fun u hu v hv hid => ?_⟩
  · rw [hmoves.id] at hid
    exact hmoves.isLastJob (hafter u hu hid)
  · obtain rfl | hv := List.mem_cons.mp hv
    · rw [hmoves.id] at hid
      exact hacross u hu t List.mem_cons_self hid
    · exact hacross u hu v (List.mem_cons_of_mem t hv) hid

variable {st : ReadSide H}

/-- The step lemma of a tick. -/
theorem Inv.tick (hinv : st.Inv) (hquiet : st.QuietStep fs (.tick s s')) : (st.tick fs codec s s').Inv := by
  have hjobs : ∀ t ∈ st.jobs.map (Tracked.initJob fs s), t.Inv := by
    simp only [List.forall_mem_map]
    exact fun t ht => (hinv.jobs t ht).initJob
  have hwaiting := hinv.waiting.map (Tracked.initJob_moves fs s)
  unfold ReadSide.tick
  obtain hnone | ⟨before, t₁, after, hts, hbefore, hlast, hread⟩ :=
    readFirst_spec fs codec s' (st.jobs.map (Tracked.initJob fs s))
  · rw [hnone]
    exact ⟨hjobs, hinv.removed, hinv.removed_dealt, hwaiting⟩
  -- the job that is read, as it was before the tick
  obtain ⟨before', rest, hst, rfl, hrest⟩ := List.map_eq_append_iff.mp hts
  obtain ⟨t, after', rfl, rfl, rfl⟩ := List.map_eq_cons_iff.mp hrest
  have hkeepLast : ∀ u : Tracked H, (u.initJob fs s).job.isLastJob = u.job.isLastJob := by
    intro u
    unfold Tracked.initJob
    split
    · rfl
    · exact (u.job.initJob_spec fs s).1.isLastJob
  rw [hkeepLast] at hlast
  have hfind : st.jobs.find? (!·.job.isLastJob) = some t := by
    rw [hst, List.find?_append, List.find?_eq_none.mpr, Option.none_or, List.find?_cons_of_pos]
    · simp [hlast]
    · intro u hu
      have hu' := hbefore _ (List.mem_map_of_mem hu)
      rw [hkeepLast] at hu'
      simp [hu']
  have ht : t.Inv := hinv.jobs t (hst ▸ by simp)
  have ht' : ((t.initJob fs s).readJob fs codec s').Inv := ht.readJob hlast (hquiet t (by rw [hfind]; rfl))
  have hmoves : (t.initJob fs s).Moves ((t.initJob fs s).readJob fs codec s') := readJob_moves _
  rw [hts] at hjobs hwaiting
  rw [List.forall_mem_append, List.forall_mem_cons] at hjobs
  have hwaiting' := hwaiting.replace hmoves
  rw [hread]
  by_cases hfin : ((t.initJob fs s).job.readJob fs codec s').2.1 = true
  · -- the job that is removed is the one that is finished
    rw [if_pos hfin]
    have hother : ∀ u ∈ before'.map (Tracked.initJob fs s),
        u.job.id ≠ ((t.initJob fs s).readJob fs codec s').job.id := by
      intro u hu hid
      have hnot := (List.pairwise_append.mp hwaiting').2.2 u hu _ List.mem_cons_self hid
      rw [hbefore u hu] at hnot
      cases hnot
    have hall : ((t.initJob fs s).readJob fs codec s').AllDealt :=
      hmoves.allDealt (ht.finished hlast (hquiet t (by rw [hfind]; rfl)) hfin)
    dsimp only
    rw [List.find?_append, List.find?_eq_none.mpr (by simpa using hother), Option.none_or,
      List.find?_cons_of_pos (by simp), List.eraseP_append_right _ (by simpa using hother),
      List.eraseP_cons_of_pos (by simp)]
    refine ⟨List.forall_mem_append.mpr ⟨hjobs.1, hjobs.2.2⟩, ?_, ?_, ?_⟩
    · rw [List.forall_mem_append]
      exact ⟨hinv.removed, by simpa using fun _ => hall⟩
    · rw [List.forall_mem_append]
      exact ⟨hinv.removed_dealt, by simpa using hall⟩
    · exact hwaiting'.sublist (List.Sublist.append_left (List.sublist_cons_self _ _) _)
  · rw [if_neg hfin]
    exact ⟨List.forall_mem_append.mpr ⟨hjobs.1, List.forall_mem_cons.mpr ⟨ht', hjobs.2.2⟩⟩,
      hinv.removed, hinv.removed_dealt, hwaiting'⟩

/-- What is done to the first job that meets a condition. -/
theorem updateFirst_spec {J : Type*} {p : J → Bool} {f : J → Option J} {xs ys : List J}
    (h : updateFirst p f xs = some ys) :
    ys = xs ∨ ∃ before x y after, xs = before ++ x :: after ∧ ys = before ++ y :: after ∧ f x = some y := by
  induction xs generalizing ys with
  | nil => exact .inl (Option.some.inj h).symm
  | cons x xs ih =>
    rw [updateFirst] at h
    split at h
    · obtain ⟨y, hy, rfl⟩ := Option.map_eq_some_iff.mp h
      exact .inr ⟨[], x, y, xs, rfl, rfl, hy⟩
    · obtain ⟨zs, hzs, rfl⟩ := Option.map_eq_some_iff.mp h
      obtain rfl | ⟨before, u, v, after, rfl, rfl, huv⟩ := ih hzs
      · exact .inl rfl
      · exact .inr ⟨x :: before, u, v, after, rfl, rfl, huv⟩

theorem Inv.update (hinv : st.Inv) {p : Tracked H → Bool}
    {f : Tracked H → Option (Tracked H)} {ts : List (Tracked H)}
    (hupdate : updateFirst p f st.jobs = some ts)
    (hf : ∀ t t', f t = some t' → t.Moves t' ∧ (t.Inv → t'.Inv)) :
    ({ st with jobs := ts } : ReadSide H).Inv := by
  obtain rfl | ⟨before, t, t', after, hst, rfl, htt'⟩ := updateFirst_spec hupdate
  · exact hinv
  · obtain ⟨hmoves, hkeep⟩ := hf t t' htt'
    have hjobs := hinv.jobs
    have hwaiting := hinv.waiting
    rw [hst] at hjobs hwaiting
    rw [List.forall_mem_append, List.forall_mem_cons] at hjobs
    refine ⟨?_, hinv.removed, hinv.removed_dealt, hwaiting.replace hmoves⟩
    exact List.forall_mem_append.mpr ⟨hjobs.1, List.forall_mem_cons.mpr ⟨hkeep hjobs.2.1, hjobs.2.2⟩⟩

/-- A job that starts. -/
theorem start_inv {id : ℤ} {type : JobType} {dataSource : DataSource} {files : List FileEntry}
    {fileNum : ℤ} {od isLastJob : Bool}
    (h : ∀ p, dataSource = .filePath p → files ≠ [] → 0 ≤ fileNum ∧ files.length ≤ 2 ^ 31) :
    (⟨{ TransferJob.newRead id type dataSource files fileNum od with isLastJob := isLastJob },
      fileNum, []⟩ : Tracked H).Inv where
  progress := by
    cases dataSource with
    | memoryCursor c => exact .inl fun i _ hlt => absurd hlt (Nat.not_lt_zero i)
    | filePath p =>
      by_cases hlt : fileNum < files.length
      · by_cases hfiles : files = []
        · subst hfiles
          exact .inl fun i _ hlt => absurd hlt (Nat.not_lt_zero i)
        · obtain ⟨hnonneg, hfew⟩ := h p rfl hfiles
          exact .inr ⟨⟨p, rfl⟩, hfew, hnonneg, Int.le_refl _, hlt,
            fun i hi hlt => absurd hlt (Int.not_lt.mpr hi)⟩
      · refine .inl fun i hi hlt' => absurd hlt' ?_
        change ¬ i < files.length
        change fileNum ≤ i at hi
        omega
  done := by
    rintro ⟨e, he, -⟩
    cases he

/-- **The step lemma.** -/
theorem Inv.step {st' : ReadSide H} {a : ReadAction σ} (hinv : st.Inv) (hquiet : st.QuietStep fs a)
    (hstep : st.step fs codec a = some st') : st'.Inv := by
  cases a with
  | tick s s' =>
    cases hstep
    exact hinv.tick hquiet
  | confirm s r =>
    obtain ⟨ts, hts, rfl⟩ := Option.map_eq_some_iff.mp hstep
    exact hinv.update hts fun t t' h => ⟨confirm_moves h, fun ht => ht.confirm h⟩
  | start id type dataSource files fileNum od isLastJob =>
    cases hstep
    refine ⟨?_, hinv.removed, hinv.removed_dealt, ?_⟩
    · rw [List.forall_mem_append, List.forall_mem_singleton]
      exact ⟨hinv.jobs, start_inv hquiet.1⟩
    · rw [WaitingFirst, List.pairwise_append]
      refine ⟨hinv.waiting, List.pairwise_singleton _ _, fun t ht u hu hid => ?_⟩
      obtain rfl := List.mem_singleton.mp hu
      exact hquiet.2 t ht hid
  | resume id =>
    obtain ⟨ts, hts, rfl⟩ := Option.map_eq_some_iff.mp hstep
    refine hinv.update hts fun t t' h => ?_
    cases h
    exact ⟨resumed_moves t, resumed_inv⟩
  | cancel id =>
    cases hstep
    exact ⟨fun t ht => hinv.jobs t (List.mem_of_mem_eraseP ht), hinv.removed, hinv.removed_dealt,
      hinv.waiting.sublist List.eraseP_sublist⟩

theorem Inv.doneMeansDealt (hinv : st.Inv) : st.DoneMeansDealt := by
  refine ⟨fun t ht => ?_, hinv.removed_dealt⟩
  obtain ht | ht := List.mem_append.mp ht
  · exact (hinv.jobs t ht).done
  · exact hinv.removed t ht

theorem empty_inv : (empty : ReadSide H).Inv where
  jobs := by simp [empty]
  removed := by simp [empty]
  removed_dealt := by simp [empty]
  waiting := List.Pairwise.nil

/-- **Done means that every file was dealt with**, in every run whose steps are quiet. -/
theorem done_means_dealt (fs : FileSystem σ H) (codec : Codec) {acts : List (ReadAction σ)}
    {st : ReadSide H}
    (hrun : Run (Only (QuietStep fs) (Steps (step fs codec))) empty acts st) :
    st.DoneMeansDealt := by
  have hinv : st.Inv := hrun.invariant
    (fun _ _ _ (hinv : ReadSide.Inv _) hstep => hinv.step hstep.1 hstep.2) empty_inv
  exact hinv.doneMeansDealt

end ReadSide

end FileSystem

/-! ## A file that cannot be opened -/

namespace DoneDealt

/-- Files that read as nothing; the one of this name cannot be opened. -/
def withoutFile (missing : Path) : FileSystem Unit Unit where
  pathExists _ p := p ≠ missing
  isFile _ p := p ≠ missing
  symlinkMetadata _ _ := .ok false
  metadata _ _ := .ok ⟨0, 0⟩
  readToString _ _ := some []
  createDirAll s _ := s
  removeFile s _ := (.ok (), s)
  rename s _ _ := s
  setFileMtime s _ _ := s
  write s _ _ := s
  create s _ := (.ok (), s)
  openWrite s _ := (.ok (), s)
  openRead _ p := if p = missing then .error ⟨.other, "Permission denied"⟩ else .ok ()
  fileMetadata _ _ := .ok ⟨0, 0⟩
  seek _ h _ := some h
  syncAll _ _ := .ok ()
  writeAll s h _ := (.ok (), h, s)
  read _ h _ := (.ok [], h)

/-- Two files, sent with overwrite detection. -/
def twoFiles : List (ReadAction Unit) :=
  [.start 1 .generic (.filePath ['d']) [⟨['a'], 0⟩, ⟨['b'], 0⟩] 0 true false, .tick () ()]

end DoneDealt

namespace ReadSide

open DoneDealt

/-- The first file cannot be opened. The tick that reports it finishes the job, and the second file is
dropped. -/
theorem second_file_dropped :
    ∃ st, Run (Steps (step (withoutFile ['d', '/', 'a']) .plain)) empty
      twoFiles st ∧ ¬ st.DoneMeansDealt := by
  refine ⟨_, exec_eq_some_iff.mp rfl, fun h => ?_⟩
  obtain ⟨e, he, hsettles⟩ := h.2 _ List.mem_cons_self 1 (by decide) (by decide)
  revert e
  decide

/-- The second file cannot be opened, and is the last: the first is skipped, the second reported. -/
theorem done_means_dealt_last : ∃ st,
    Run (Only (QuietStep (withoutFile ['d', '/', 'b']))
      (Steps (step (withoutFile ['d', '/', 'b']) .plain))) empty
      (twoFiles ++ [.confirm () ⟨1, 0, some (.skip true)⟩, .tick () ()]) st ∧
      st.removed ≠ [] ∧ st.DoneMeansDealt := by
  refine exists_and_and (fun _ hrun _ => done_means_dealt _ _ hrun) ?_
  refine ⟨_, .cons ⟨⟨?_, ?_⟩, rfl⟩ (.cons ⟨?_, rfl⟩ (.cons ⟨trivial, rfl⟩ (.cons ⟨?_, rfl⟩
    (.nil _)))), by decide⟩
  · exact fun _ _ _ => ⟨by decide, by decide⟩
  · simp [empty]
  · -- the first file is opened
    rintro t ht - - hcannot
    cases ht
    obtain ⟨entry, hentry, h⟩ := hcannot
    cases hentry
    obtain ⟨e, he⟩ := h
    cases he
  · rintro t ht - - -
    cases ht
    decide

end ReadSide

end RustDesk.FileTransfer
