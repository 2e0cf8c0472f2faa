import RustDesk.Common.Checked
import RustDesk.FileTransfer.FailedFiles
import RustDesk.FileTransfer.InPlace

/-!
# What a job may crash at

References: `libs/hbb_common/src/fs.rs` (`TransferJob`: `new_read`, `new_write`, `set_files`,
`modify_time`, `set_finished_size_on_resume`, `write`, `read`, `set_file_skipped`, `set_stream_offset`,
`confirm`). The operations here are those of `TransferJob` with the counters `finished_size` and
`transferred`, with every index and every addition checked. `set_stream_offset` is the one that does not
look whether its file is in the list.
-/

namespace RustDesk.FileTransfer

/-- A job with the sizes of its files and what it counts. -/
structure CountedJob (H : Type*) where
  job : TransferJob H
  sizes : List UInt64
  finishedSize : UInt64
  transferred : UInt64
deriving DecidableEq

open MayPanic

section FileSystem

variable {σ H : Type*} (fs : FileSystem σ H) (codec : Codec)

namespace CountedJob

/-- `new_read`. -/
def newRead (id : ℤ) (type : JobType) (dataSource : DataSource) (files : List (FileEntry × UInt64))
    (fileNum : Int32) (enableOverwriteDetection : Bool) : CountedJob H where
  job := .newRead id type dataSource (files.map Prod.fst) fileNum.toInt enableOverwriteDetection
  sizes := match dataSource with
    | .filePath _ => files.map Prod.snd
    | .memoryCursor _ => []
  finishedSize := 0
  transferred := 0

/-- `new_write`. -/
def newWrite (id : ℤ) (type : JobType) (dataSource : DataSource) (fileNum : Int32)
    (enableOverwriteDetection : Bool) : CountedJob H where
  job := .newWrite id type dataSource fileNum.toInt enableOverwriteDetection
  sizes := []
  finishedSize := 0
  transferred := 0

/-! ### The operations that are checked -/

/-- `modify_time`. -/
def modifyTime (s : σ) (c : CountedJob H) : MayPanic σ :=
  match c.job.type, c.job.dataSource with
  | .generic, .filePath p =>
    if asUsize c.job.fileNum < c.job.files.length then
      (index c.job.files (asUsize c.job.fileNum)).bind fun entry =>
        match c.job.resolveEntryPath fs s p entry.name with
        | none => .ok s
        | some path =>
          let s := (fs.removeFile s (path ++ digestSuffix)).2
          let s := fs.rename s (path ++ downloadSuffix) path
          .ok (fs.setFileMtime s path entry.modifiedTime)
    else .ok s
  | _, _ => .ok s

/-- `set_finished_size_on_resume`. -/
def setFinishedSizeOnResume (c : CountedJob H) : MayPanic (CountedJob H) :=
  if c.job.isResume ∧ 0 < c.job.fileNum then
    (sumU64 0 (c.sizes.take (asUsize c.job.fileNum))).bind fun finishedSize =>
      .ok { c with finishedSize := finishedSize }
  else .ok c

/-- The part of `write` that makes the stream the one of the block's file. -/
def selectStream (s : σ) (c : CountedJob H) (block : FileTransferBlock) :
    MayPanic (Except String Unit × TransferJob H × σ) :=
  match c.job.dataSource with
  | .filePath p =>
    if c.job.files.length ≤ asUsize block.fileNum then .ok (.error "Wrong file number", c.job, s)
    else if asUsize block.fileNum ≠ asUsize c.job.fileNum ∨ c.job.dataStream.isNone then
      (c.modifyTime fs s).bind fun _ =>
        (index c.job.files (asUsize block.fileNum)).bind fun entry =>
          .ok (c.job.openForWrite fs codec s p entry block.fileNum)
    else .ok (.ok (), c.job, s)
  | .memoryCursor _ => .ok (c.job.selectStream fs codec s block)

/-- `write`. -/
def write (s : σ) (c : CountedJob H) (block : FileTransferBlock) :
    MayPanic (Except String Unit × CountedJob H × σ) :=
  if block.id ≠ c.job.id then .ok (.error "Wrong id", c, s)
  else
    (c.selectStream fs codec s block).bind fun
      | (.error e, job, s) => .ok (.error e, { c with job := job }, s)
      | (.ok (), job, s) =>
        match job.writeData fs s (payload codec block) with
        | (.error e, job, s) => .ok (.error e, { c with job := job }, s)
        | (.ok (), job, s) =>
          (addU64 c.finishedSize (payload codec block).length).bind fun finishedSize =>
            (addU64 c.transferred block.data.length).bind fun transferred =>
              .ok (.ok (), ⟨job, c.sizes, finishedSize, transferred⟩, s)

/-- `set_file_skipped`. -/
def setFileSkipped (c : CountedJob H) : MayPanic (CountedJob H) :=
  (incI32 c.job.fileNum).bind fun fileNum =>
    .ok { c with job :=
      { c.job with
        dataStream := none
        fileConfirmed := false
        fileIsWaiting := false
        fileNum := fileNum
        fileSkipped := true } }

/-- `set_stream_offset`. -/
def setStreamOffset (s : σ) (c : CountedJob H) (fileNum offset : ℕ) : MayPanic (CountedJob H × σ) :=
  match c.job.dataSource with
  | .memoryCursor _ => .ok (c, s)
  | .filePath p =>
    (index c.job.files fileNum).bind fun entry =>
      match c.job.resolveEntryPath fs s p entry.name with
      | none => .ok (c, s)
      | some path =>
        match TransferJob.openAtOffset fs s path with
        | (none, s) => .ok (c, s)
        | (some f, s) =>
          match fs.seek s f offset with
          | none => .ok (c, s)
          | some f =>
            (addU64 c.transferred offset).bind fun transferred =>
              (addU64 c.finishedSize offset).bind fun finishedSize =>
                .ok (⟨{ c.job with dataStream := some (.fileStream f) }, c.sizes, finishedSize,
                  transferred⟩, s)

/-- `set_file_confirmed`. -/
def setFileConfirmed (c : CountedJob H) (fileConfirmed : Bool) : CountedJob H :=
  { c with job := c.job.setFileConfirmed fileConfirmed }

/-- `confirm`. -/
def confirm (s : σ) (c : CountedJob H) (r : FileTransferSendConfirmRequest) :
    MayPanic (CountedJob H × σ) :=
  if c.job.fileNum ≠ r.fileNum then .ok (c, s)
  else
    match r.union with
    | some (.skip true) => c.setFileSkipped.bind fun c => .ok (c, s)
    | some (.skip false) => .ok (c.setFileConfirmed true, s)
    | some (.offsetBlk offset) =>
      if 0 < offset then (c.setFileConfirmed true).setStreamOffset fs s (asUsize r.fileNum) offset.toNat
      else .ok (c.setFileConfirmed true, s)
    | none => .ok (c, s)

/-! ### The operations beside them -/

/-- `set_files`. -/
def setFiles (s : σ) (c : CountedJob H) (files : List (FileEntry × UInt64)) : CountedJob H :=
  match c.job.setFiles fs s (files.map Prod.fst) with
  | .ok job => { c with job := job, sizes := files.map Prod.snd }
  | .error _ => c

/-- How many bytes `read` takes out of the file. -/
def readLength (s : σ) (job : TransferJob H) : ℕ :=
  if job.type = .generic ∧ job.enableOverwriteDetection ∧ ¬ job.fileConfirmed then 0
  else
    match job.currentName, job.dataStream with
    | some _, some stream =>
      match (TransferJob.readLoop fs s (TransferJob.bufSize + 1) stream TransferJob.bufSize []).1 with
      | .ok data => data.length
      | .error _ => 0
    | _, _ => 0

/-- `read`, with the counters as a release build has them. -/
def read (s : σ) (c : CountedJob H) : CountedJob H :=
  match c.job.read fs codec s with
  | (.ok (some block), job) =>
    { c with
      job := job
      finishedSize := c.finishedSize + .ofNat (readLength fs s c.job)
      transferred := c.transferred + .ofNat block.data.length }
  | (_, job) => { c with job := job }

end CountedJob

/-! ## Runs -/

/-- An operation on a job, with the file system as it is then. -/
inductive JobAction (σ : Type*)
  | confirm (s : σ) (r : FileTransferSendConfirmRequest)
  | write (s : σ) (block : FileTransferBlock)
  | modifyTime (s : σ)
  | setFinishedSizeOnResume
  | setFiles (s : σ) (files : List (FileEntry × UInt64))
  | initDataStream (s : σ)
  | read (s : σ)
  | setDigest (size modified : ℕ)
  | setOverwriteStrategy (overwriteStrategy : Option Bool)
  | setFileConfirmed (fileConfirmed : Bool)
  | setFileIsWaiting (fileIsWaiting : Bool)
  | setIsLastJob (isLastJob : Bool)
  | setIsResume (isResume : Bool)

/-- A job and the fault that it has crashed at. -/
structure JobRun (H : Type*) where
  counted : CountedJob H
  fault : Option PanicReason
deriving DecidableEq

namespace JobRun

/-- An operation. -/
def perform (c : CountedJob H) : JobAction σ → MayPanic (CountedJob H)
  | .confirm s r => (c.confirm fs s r).bind fun res => .ok res.1
  | .write s block => (c.write fs codec s block).bind fun res => .ok res.2.1
  | .modifyTime s => (c.modifyTime fs s).bind fun _ => .ok c
  | .setFinishedSizeOnResume => c.setFinishedSizeOnResume
  | .setFiles s files => .ok (c.setFiles fs s files)
  | .initDataStream s => .ok { c with job := (c.job.initDataStream fs s).2 }
  | .read s => .ok (c.read fs codec s)
  | .setDigest size modified => .ok { c with job := c.job.setDigest size modified }
  | .setOverwriteStrategy strategy =>
    .ok { c with job := { c.job with defaultOverwriteStrategy := strategy } }
  | .setFileConfirmed fileConfirmed => .ok (c.setFileConfirmed fileConfirmed)
  | .setFileIsWaiting fileIsWaiting => .ok { c with job := { c.job with fileIsWaiting := fileIsWaiting } }
  | .setIsLastJob isLastJob => .ok { c with job := { c.job with isLastJob := isLastJob } }
  | .setIsResume isResume => .ok { c with job := { c.job with isResume := isResume } }

/-- A job that has crashed takes no step. -/
def step (st : JobRun H) (a : JobAction σ) : Option (JobRun H) :=
  match st.fault, perform fs codec st.counted a with
  | some _, _ => none
  | none, .ok c => some ⟨c, none⟩
  | none, .error f => some ⟨st.counted, some f⟩

/-! ## What is in range -/

/-- The file system takes a block: its file is open or can be opened, and the data can be written. -/
def Takes (s : σ) (job : TransferJob H) (block : FileTransferBlock) : Prop :=
  block.id = job.id ∧ ∃ job' s', job.selectStream fs codec s block = (.ok (), job', s') ∧
    (job'.writeData fs s' (payload codec block)).1 = .ok ()

/-- A confirmation is in range: it does not skip the file with the last number there is; an offset is
into a file of the list; and where that file can be opened, the counters have room for it. -/
def ConfirmInRange (s : σ) (c : CountedJob H) (r : FileTransferSendConfirmRequest) : Prop :=
  c.job.fileNum = r.fileNum →
    (r.union = some (.skip true) → c.job.fileNum + 1 < 2 ^ 31) ∧
      ∀ offset p, r.union = some (.offsetBlk offset) → 0 < offset → c.job.dataSource = .filePath p →
        asUsize c.job.fileNum < c.job.files.length ∧
          (Watched.reopens fs s c.job r = true →
            c.transferred.toNat + offset.toNat < 2 ^ 64 ∧
              c.finishedSize.toNat + offset.toNat < 2 ^ 64)

/-- What an operation needs of the job and of the file system. -/
def InRange (st : JobRun H) : JobAction σ → Prop
  | .confirm s r => ConfirmInRange fs s st.counted r
  | .write s block =>
    Takes fs codec s st.counted.job block →
      st.counted.finishedSize.toNat + (payload codec block).length < 2 ^ 64 ∧
        st.counted.transferred.toNat + block.data.length < 2 ^ 64
  | .setFinishedSizeOnResume =>
    st.counted.job.isResume = true → 0 < st.counted.job.fileNum →
      ((st.counted.sizes.take (asUsize st.counted.job.fileNum)).map UInt64.toNat).sum < 2 ^ 64
  | _ => True

end JobRun

end FileSystem

/-! ## Where each operation faults -/

section FileSystem

variable {σ H : Type*} {fs : FileSystem σ H} {codec : Codec} {s : σ}

namespace CountedJob

/-- `modify_time` looks before it indexes. -/
theorem modifyTime_eq (fs : FileSystem σ H) (s : σ) (c : CountedJob H) :
    c.modifyTime fs s = .ok (c.job.modifyTime fs s) := by
  unfold modifyTime TransferJob.modifyTime TransferJob.currentEntryPath
  cases c.job.type with
  | printer => rfl
  | generic =>
    cases c.job.dataSource with
    | memoryCursor data => rfl
    | filePath p =>
      dsimp only
      split
      next hlt =>
        have hentry := List.getElem?_eq_getElem hlt
        rw [index_eq_ok.mpr hentry, hentry, Option.bind_some]
        dsimp only [Except.bind]
        cases c.job.resolveEntryPath fs s p (c.job.files[asUsize c.job.fileNum]).name <;> rfl
      next hlt =>
        rw [List.getElem?_eq_none (Nat.le_of_not_lt hlt)]
        rfl

/-- `write` looks before it indexes. -/
theorem selectStream_eq (fs : FileSystem σ H) (codec : Codec) (s : σ) (c : CountedJob H)
    (block : FileTransferBlock) :
    c.selectStream fs codec s block = .ok (c.job.selectStream fs codec s block) := by
  unfold selectStream
  split
  next p hp =>
    rw [TransferJob.selectStream, hp]
    split
    next hle => rw [List.getElem?_eq_none hle]
    next hlt =>
      have hentry := List.getElem?_eq_getElem (Nat.lt_of_not_le hlt)
      rw [hentry]
      split
      · rw [modifyTime_eq, index_eq_ok.mpr hentry]
        rfl
      · rfl
  · rfl

/-- `write` faults just if a counter has no room for the block that is written. -/
theorem fine_write (fs : FileSystem σ H) (codec : Codec) (s : σ) (c : CountedJob H) (block : FileTransferBlock) :
    Fine (c.write fs codec s block) ↔ (JobRun.Takes fs codec s c.job block →
      c.finishedSize.toNat + (payload codec block).length < 2 ^ 64 ∧
        c.transferred.toNat + block.data.length < 2 ^ 64) := by
  unfold write JobRun.Takes
  by_cases hid : block.id = c.job.id
  · rw [if_neg (not_not.mpr hid), selectStream_eq]
    generalize c.job.selectStream fs codec s block = res
    obtain ⟨e | _, job, s₁⟩ := res
    · refine iff_of_true (fine_ok _) ?_
      rintro ⟨-, job', s', hres, -⟩
      cases hres
    · dsimp only [Except.bind]
      cases hdata : job.writeData fs s₁ (payload codec block) with
      | mk res left =>
        cases res with
        | error e =>
          refine iff_of_true (fine_ok _) ?_
          rintro ⟨-, job', s', hres, hok⟩
          cases hres
          rw [hdata] at hok
          cases hok
        | ok u =>
          have htakes : block.id = c.job.id ∧ ∃ job' s',
              ((.ok (), job, s₁) : Except String Unit × TransferJob H × σ) = (.ok (), job', s') ∧
                (job'.writeData fs s' (payload codec block)).1 = .ok () :=
            ⟨hid, job, s₁, rfl, by rw [hdata]⟩
          rw [imp_iff_right htakes]
          obtain ⟨job₂, s₂⟩ := left
          show Fine ((addU64 c.finishedSize _).bind fun finishedSize =>
            (addU64 c.transferred _).bind fun transferred => _) ↔ _
          rw [fine_bind]
          constructor
          · rintro ⟨a, ha, h⟩
            rw [fine_bind] at h
            obtain ⟨b, hb, -⟩ := h
            exact ⟨fine_addU64.mp ⟨a, ha⟩, fine_addU64.mp ⟨b, hb⟩⟩
          · rintro ⟨hfinished, htransferred⟩
            obtain ⟨a, ha⟩ := fine_addU64.mpr hfinished
            obtain ⟨b, hb⟩ := fine_addU64.mpr htransferred
            exact ⟨a, ha, fine_bind.mpr ⟨b, hb, fine_ok _⟩⟩
  · rw [if_pos hid]
    exact iff_of_true (fine_ok _) fun h => absurd h.1 hid

variable {c c' : CountedJob H} {s' : σ}

/-- `set_stream_offset` faults at a file behind the list, or where a counter has no room for the
offset. -/
theorem fine_setStreamOffset {r : FileTransferSendConfirmRequest} {offset : UInt32}
    (hnum : c.job.fileNum = r.fileNum) (hunion : r.union = some (.offsetBlk offset))
    (hpos : 0 < offset) :
    Fine ((c.setFileConfirmed true).setStreamOffset fs s (asUsize r.fileNum) offset.toNat) ↔
      ∀ p, c.job.dataSource = .filePath p → asUsize c.job.fileNum < c.job.files.length ∧
          (Watched.reopens fs s c.job r = true → c.transferred.toNat + offset.toNat < 2 ^ 64 ∧
              c.finishedSize.toNat + offset.toNat < 2 ^ 64) := by
  unfold setStreamOffset
  have hsource : (c.setFileConfirmed true).job.dataSource = c.job.dataSource := rfl
  have hfiles : (c.setFileConfirmed true).job.files = c.job.files := rfl
  rw [hsource, hfiles, ← hnum]
  cases hp : c.job.dataSource with
  | memoryCursor data => exact iff_of_true (fine_ok _) fun p h => by cases h
  | filePath p =>
    have hall (P : Prop) : (∀ q, DataSource.filePath p = .filePath q → P) ↔ P :=
      ⟨fun h => h p rfl, fun h _ _ => h⟩
    rw [hall]
    rw [fine_bind]
    by_cases hlt : asUsize c.job.fileNum < c.job.files.length
    · obtain ⟨entry, hentry⟩ : ∃ entry, c.job.files[asUsize c.job.fileNum]? = some entry :=
        ⟨_, List.getElem?_eq_getElem hlt⟩
      have hpath : (c.setFileConfirmed true).job.resolveEntryPath fs s p entry.name =
          c.job.resolveEntryPath fs s p entry.name := rfl
      rw [and_iff_right hlt, Watched.reopens_eq hp hunion hpos hnum (hnum ▸ hentry)]
      have hindex : ∀ f : FileEntry → MayPanic (CountedJob H × σ),
          (∃ a, index c.job.files (asUsize c.job.fileNum) = .ok a ∧ Fine (f a)) ↔ Fine (f entry) := by
        intro f
        rw [index_eq_ok.mpr hentry]
        exact ⟨fun ⟨a, ha, h⟩ => Except.ok.inj ha ▸ h, fun h => ⟨entry, rfl, h⟩⟩
      rw [hindex, hpath]
      cases c.job.resolveEntryPath fs s p entry.name with
      | none => exact iff_of_true (fine_ok _) fun h => by cases h
      | some path =>
        dsimp only
        generalize TransferJob.openAtOffset fs s path = res
        obtain ⟨_ | f, s₁⟩ := res
        · exact iff_of_true (fine_ok _) fun h => by cases h
        · dsimp only
          cases fs.seek s₁ f offset.toNat with
          | none => exact iff_of_true (fine_ok _) fun h => by cases h
          | some f' =>
            rw [imp_iff_right (show (some f').isSome = true from rfl)]
            rw [fine_bind]
            constructor
            · rintro ⟨a, ha, h⟩
              rw [fine_bind] at h
              obtain ⟨b, hb, -⟩ := h
              exact ⟨fine_addU64.mp ⟨a, ha⟩, fine_addU64.mp ⟨b, hb⟩⟩
            · rintro ⟨htransferred, hfinished⟩
              obtain ⟨a, ha⟩ := fine_addU64.mpr htransferred
              obtain ⟨b, hb⟩ := fine_addU64.mpr hfinished
              exact ⟨a, ha, fine_bind.mpr ⟨b, hb, fine_ok _⟩⟩
    · refine iff_of_false ?_ fun h => hlt h.1
      rintro ⟨entry, hentry, -⟩
      exact hlt (List.getElem?_eq_some_iff.mp (index_eq_ok.mp hentry)).1

/-- `confirm` faults just where the confirmation is out of range. -/
theorem fine_confirm (fs : FileSystem σ H) (s : σ) (c : CountedJob H) (r : FileTransferSendConfirmRequest) :
    Fine (c.confirm fs s r) ↔ JobRun.ConfirmInRange fs s c r := by
  unfold confirm JobRun.ConfirmInRange
  by_cases hnum : c.job.fileNum = r.fileNum
  · rw [if_neg (not_not.mpr hnum), imp_iff_right hnum]
    cases hunion : r.union with
    | none =>
      refine iff_of_true (fine_ok _) ⟨fun h => ?_, fun offset p h => ?_⟩
      · cases h
      · cases h
    | some u =>
      cases u with
      | skip skip =>
        cases skip with
        | true =>
          have hno : ∀ (P : UInt32 → Path → Prop) (offset : UInt32) (p : Path),
              some (ConfirmUnion.skip true) = some (.offsetBlk offset) → P offset p := by
            rintro P offset p ⟨⟩
          rw [and_iff_left (hno _), imp_iff_right rfl]
          unfold setFileSkipped
          rw [fine_bind]
          constructor
          · rintro ⟨a, ha, -⟩
            obtain ⟨n, hn, -⟩ := fine_bind.mp ⟨a, ha⟩
            exact fine_incI32.mp ⟨n, hn⟩
          · intro h
            obtain ⟨n, hn⟩ := fine_incI32.mpr h
            rw [hn]
            exact ⟨_, rfl, fine_ok _⟩
        | false =>
          refine iff_of_true (fine_ok _) ⟨fun h => ?_, fun offset p h => ?_⟩
          · cases h
          · cases h
      | offsetBlk offset =>
        have hskip : (some (ConfirmUnion.offsetBlk offset) = some (.skip true) → c.job.fileNum + 1 < 2 ^ 31) := by
          rintro ⟨⟩
        rw [and_iff_right hskip]
        dsimp only
        split
        next hpos =>
          rw [fine_setStreamOffset hnum hunion hpos]
          constructor
          · rintro h offset' p ⟨⟩ -
            exact h p
          · exact fun h p => h offset p rfl hpos
        next hpos =>
          refine iff_of_true (fine_ok _) ?_
          rintro offset' p ⟨⟩ h
          exact absurd h hpos
  · rw [if_pos hnum]
    exact iff_of_true (fine_ok _) fun h => absurd h hnum

/-- `set_finished_size_on_resume` faults just if the sizes do not add up to a `u64`. -/
theorem fine_setFinishedSizeOnResume (c : CountedJob H) :
    Fine c.setFinishedSizeOnResume ↔ (c.job.isResume = true → 0 < c.job.fileNum →
      ((c.sizes.take (asUsize c.job.fileNum)).map UInt64.toNat).sum < 2 ^ 64) := by
  unfold setFinishedSizeOnResume
  split
  next h =>
    rw [imp_iff_right h.1, imp_iff_right h.2, fine_bind]
    have hsum : Fine (sumU64 0 (c.sizes.take (asUsize c.job.fileNum))) ↔ (0 : UInt64).toNat +
        ((c.sizes.take (asUsize c.job.fileNum)).map UInt64.toNat).sum < 2 ^ 64 := fine_sumU64
    rw [UInt64.toNat_zero, Nat.zero_add] at hsum
    rw [← hsum]
    exact ⟨fun ⟨a, ha, _⟩ => ⟨a, ha⟩, fun ⟨a, ha⟩ => ⟨a, ha, fine_ok _⟩⟩
  next h => exact iff_of_true (fine_ok _) fun hresume hpos => absurd ⟨hresume, hpos⟩ h

/-! ### The job is that of the unchecked operations -/

theorem write_eq_ok {block : FileTransferBlock} {res : Except String Unit}
    (h : c.write fs codec s block = .ok (res, c', s')) :
    c.job.write fs codec s block = (res, c'.job, s') := by
  unfold write at h
  unfold TransferJob.write
  split at h
  next hid =>
    rw [if_pos hid]
    cases h
    rfl
  next hid =>
    rw [if_neg hid]
    rw [selectStream_eq] at h
    generalize c.job.selectStream fs codec s block = selected at h ⊢
    obtain ⟨e | _, job, s₁⟩ := selected
    · cases h
      rfl
    · dsimp only [Except.bind] at h ⊢
      have hpayload : (if block.compressed then codec.decompress block.data else block.data) =
          payload codec block := rfl
      rw [hpayload]
      generalize job.writeData fs s₁ (payload codec block) = written at h ⊢
      obtain ⟨e | _, job₂, s₂⟩ := written
      · cases h
        rfl
      · dsimp only at h
        generalize addU64 c.finishedSize (payload codec block).length = a at h
        generalize addU64 c.transferred block.data.length = b at h
        cases a with
        | error f => cases h
        | ok a =>
          cases b with
          | error f => cases h
          | ok b =>
            cases h
            rfl

theorem setStreamOffset_eq_ok {fileNum offset : ℕ} (h : c.setStreamOffset fs s fileNum offset = .ok (c', s')) :
    (∃ data, c.job.dataSource = .memoryCursor data) ∧ c' = c ∧ s' = s ∨
      ∃ entry, c.job.files[fileNum]? = some entry ∧ c.job.setStreamOffset fs s entry offset = (c'.job, s') := by
  unfold setStreamOffset at h
  cases hp : c.job.dataSource with
  | memoryCursor data =>
    rw [hp] at h
    cases h
    exact .inl ⟨⟨data, rfl⟩, rfl, rfl⟩
  | filePath p =>
    rw [hp] at h
    cases hentry : index c.job.files fileNum with
    | error f =>
      rw [hentry] at h
      cases h
    | ok entry =>
      refine .inr ⟨entry, index_eq_ok.mp hentry, ?_⟩
      rw [hentry] at h
      dsimp only [Except.bind] at h
      rw [TransferJob.setStreamOffset, hp]
      dsimp only
      generalize c.job.resolveEntryPath fs s p entry.name = resolved at h ⊢
      cases resolved with
      | none =>
        cases h
        rfl
      | some path =>
        dsimp only at h ⊢
        generalize TransferJob.openAtOffset fs s path = res at h ⊢
        obtain ⟨_ | f, s₁⟩ := res
        · cases h
          rfl
        · dsimp only at h ⊢
          generalize fs.seek s₁ f offset = sought at h ⊢
          cases sought with
          | none =>
            cases h
            rfl
          | some f' =>
            generalize addU64 c.transferred offset = a at h
            generalize addU64 c.finishedSize offset = b at h
            cases a with
            | error f => cases h
            | ok a =>
              cases b with
              | error f => cases h
              | ok b =>
                cases h
                rw [hp]

/-- A confirmation that does not fault does to the job what it does without the checks. -/
theorem confirm_eq_ok {r : FileTransferSendConfirmRequest}
    (hrange : -2 ^ 31 ≤ c.job.fileNum) (h : c.confirm fs s r = .ok (c', s')) :
    c.job.confirm fs s r = some (c'.job, s') := by
  unfold confirm at h
  unfold TransferJob.confirm
  split at h
  next hnum =>
    cases h
    rw [if_pos hnum]
  next hnum =>
    rw [if_neg hnum]
    have hnum : c.job.fileNum = r.fileNum := by simpa using hnum
    cases hunion : r.union with
    | none =>
      rw [hunion] at h
      cases h
      rfl
    | some u =>
      rw [hunion] at h
      cases u with
      | skip skip =>
        cases skip with
        | true =>
          dsimp only at h ⊢
          unfold setFileSkipped at h
          cases hinc : incI32 c.job.fileNum with
          | error f =>
            rw [hinc] at h
            cases h
          | ok n =>
            rw [hinc] at h
            cases h
            have hsucc : n = succI32 c.job.fileNum := by
              have hlt := fine_incI32.mp ⟨n, hinc⟩
              rw [incI32, if_pos hlt] at hinc
              rw [succI32, ← Except.ok.inj hinc]
              omega
            rw [TransferJob.setFileSkipped, hsucc]
        | false =>
          cases h
          rfl
      | offsetBlk offset =>
        dsimp only at h ⊢
        by_cases hpos : 0 < offset
        · rw [if_pos hpos] at h ⊢
          obtain ⟨⟨data, hp⟩, rfl, rfl⟩ | ⟨entry, hentry, hset⟩ := setStreamOffset_eq_ok h
          · have hp : c.job.dataSource = .memoryCursor data := hp
            rw [hp]
            rfl
          · have hentry : c.job.files[asUsize r.fileNum]? = some entry := hentry
            have hset : (c.job.setFileConfirmed true).setStreamOffset fs s entry offset.toNat = (c'.job, s') := hset
            rw [hentry, Option.map_some, hset]
            cases hp : c.job.dataSource with
            | filePath p => rfl
            | memoryCursor data =>
              have hp' : (c.job.setFileConfirmed true).dataSource = .memoryCursor data := hp
              rw [TransferJob.setStreamOffset, hp'] at hset
              exact congrArg some hset
        · rw [if_neg hpos] at h ⊢
          cases h
          rfl

end CountedJob

namespace JobRun

/-- An operation faults just where it is out of range. -/
theorem fine_perform (fs : FileSystem σ H) (codec : Codec) (c : CountedJob H) (a : JobAction σ) :
    Fine (perform fs codec c a) ↔ InRange fs codec ⟨c, none⟩ a := by
  cases a with
  | confirm s r => exact fine_map.trans (CountedJob.fine_confirm fs s c r)
  | write s block => exact fine_map.trans (CountedJob.fine_write fs codec s c block)
  | modifyTime s =>
    refine iff_of_true ?_ trivial
    rw [perform, fine_map, CountedJob.modifyTime_eq]
    exact fine_ok _
  | setFinishedSizeOnResume => exact CountedJob.fine_setFinishedSizeOnResume c
  | setFiles | initDataStream | read | setDigest | setOverwriteStrategy | setFileConfirmed | setFileIsWaiting
  | setIsLastJob | setIsResume => exact iff_of_true (fine_ok _) trivial

/-- **A job crashes just where an operation is out of range**: whatever the operations on a job, none of
them faults if and only if all of them are in range. -/
theorem no_fault_iff (fs : FileSystem σ H) (codec : Codec) {c : CountedJob H}
    {acts : List (JobAction σ)} {st : JobRun H}
    (hrun : Run (Steps (step fs codec)) ⟨c, none⟩ acts st) :
    st.fault = none ↔ Run (Only (InRange fs codec) (Steps (step fs codec))) ⟨c, none⟩ acts st := by
  have hstep : ∀ (st : JobRun H) (a : JobAction σ) (st' : JobRun H), True →
      step fs codec st a = some st' →
        (st'.fault = none ↔ st.fault = none ∧ st.InRange fs codec a) := by
    rintro ⟨c, fault⟩ a st' - hstep
    cases fault with
    | some f => cases hstep
    | none =>
      rw [and_iff_right rfl, ← fine_perform]
      unfold step at hstep
      generalize perform fs codec c a = res at hstep ⊢
      cases res with
      | ok c' =>
        cases hstep
        exact iff_of_true rfl (fine_ok c')
      | error f =>
        cases hstep
        exact iff_of_false (Option.some_ne_none f) (not_fine_error f)
  rw [hrun.holds_iff_only (fun _ _ _ _ _ => trivial) hstep trivial]
  exact and_iff_right rfl

end JobRun

end FileSystem

namespace JobRun

/-- A job that reads one file, from the number that the peer asks for. -/
def readsOne (fileNum : Int32) : JobRun Unit :=
  ⟨.newRead 1 .generic (.filePath ['d']) [(⟨['a'], 0⟩, 5)] fileNum true, none⟩

/-- A confirmation with an offset, at the file that the job is at. -/
theorem no_fault_at_first_file : ∃ st,
    Run (Only (InRange (DoneDealt.withoutFile ['x']) .plain)
      (Steps (step (DoneDealt.withoutFile ['x']) .plain))) (readsOne 0)
      [.confirm () ⟨1, 0, some (.offsetBlk 1)⟩] st ∧ st.counted.transferred = 1 := by
  obtain ⟨st, hrun, hfault, hcount⟩ : ∃ st,
      Run (Steps (step (DoneDealt.withoutFile ['x']) .plain)) (readsOne 0)
        [.confirm () ⟨1, 0, some (.offsetBlk 1)⟩] st ∧ st.fault = none ∧
          st.counted.transferred = 1 :=
    ⟨_, exec_eq_some_iff.mp rfl, by decide +kernel, by decide +kernel⟩
  exact ⟨st, (no_fault_iff _ _ hrun).mp hfault, hcount⟩

/-- A job that starts in front of its list crashes at the first confirmation with an offset. -/
theorem negative_start_crashes : ∃ st,
    Run (Steps (step (DoneDealt.withoutFile ['x']) .plain)) (readsOne (-1))
      [.confirm () ⟨1, -1, some (.offsetBlk 1)⟩] st ∧ st.fault = some .indexOutOfRange :=
  ⟨_, exec_eq_some_iff.mp rfl, by decide +kernel⟩

end JobRun

end RustDesk.FileTransfer
