import RustDesk.Common.Run
import RustDesk.FileTransfer.Disk
import RustDesk.FileTransfer.WriteJobs

/-!
# What a write job puts in place

A job renames the `.download` of its current file to the final path as soon as a block names another
file, or opens the first, and on `Done`. It does so whatever the `.download` holds: what is left of an
earlier run, what a failed write has left, what was there when the sender gave up. The final paths
hold whole files in the runs where, each time, the `.download` is whole.

A `Receiver` keeps beside the job what was sent of each file, as far as every block of it was written,
and every content that was sent completely.
-/

namespace RustDesk.FileTransfer

section Locations

variable {L : Type*} (loc : Path → L) (base : Path)

/-- The final path of an entry. -/
def target (e : FileEntry) : L := loc (join base e.name)

def downloadOf (e : FileEntry) : L := loc (join base e.name ++ downloadSuffix)

def digestOf (e : FileEntry) : L := loc (join base e.name ++ digestSuffix)

/-- No companion of an entry is a file of the list, or a companion of the other kind. Entries with one
final path have one `.download`. -/
structure Apart (files : List FileEntry) : Prop where
  download_target : ∀ e ∈ files, ∀ e' ∈ files, downloadOf loc base e ≠ target loc base e'
  digest_target : ∀ e ∈ files, ∀ e' ∈ files, digestOf loc base e ≠ target loc base e'
  digest_download : ∀ e ∈ files, ∀ e' ∈ files, digestOf loc base e ≠ downloadOf loc base e'
  same : ∀ e ∈ files, ∀ e' ∈ files,
    target loc base e = target loc base e' ↔ downloadOf loc base e = downloadOf loc base e'

/-- A write job for files under a path. -/
structure WritesUnder (files : List FileEntry) (job : TransferJob Handle) : Prop where
  type : job.type = .generic
  dataSource : job.dataSource = .filePath base
  files : job.files = files
  stream : ∀ data pos, job.dataStream ≠ some (.bufStream data pos)

end Locations

/-! ## What was sent -/

/-- The data of a block. -/
def payload (codec : Codec) (block : FileTransferBlock) : Bytes :=
  if block.compressed then codec.decompress block.data else block.data

/-- Whether `write` goes over to another file for a block, or opens the first. -/
def Opens (job : TransferJob Handle) (block : FileTransferBlock) : Prop :=
  asUsize block.fileNum ≠ asUsize job.fileNum ∨ job.dataStream.isNone

instance (job : TransferJob Handle) (block : FileTransferBlock) : Decidable (Opens job block) :=
  inferInstanceAs (Decidable (_ ∨ _))

/-- What was sent of a file: what of its `.download` the sender was told to go on from, and the blocks
since. -/
structure Incoming where
  bytes : Bytes
  /-- the end of the file was sent -/
  ended : Bool
  /-- every block of it was written -/
  ok : Bool
deriving DecidableEq

namespace Incoming

def fresh : Incoming := ⟨[], false, true⟩

/-- The sender goes on from an offset into a `.download`. -/
def ofDownload (old : Option Bytes) (offset : ℕ) : Incoming :=
  ⟨(old.getD []).take offset, false, offset ≤ (old.getD []).length⟩

/-- Behind the end of a file it is sent anew. -/
def current (inc : Incoming) : Incoming := if inc.ended then fresh else inc

/-- A block, with its data. The end of a file is a block without any. -/
def block (inc : Incoming) (written : Bool) (data : Bytes) (isEnd : Bool) : Incoming :=
  ⟨inc.bytes ++ data, isEnd, inc.ok && written⟩

end Incoming

/-- A write job and its files, with what was sent for each final path. -/
structure Receiver (L : Type*) where
  job : Option (TransferJob Handle)
  disk : Disk L
  received : L → Incoming
  complete : L → List Bytes

section Disk

variable {L : Type*} [DecidableEq L] (loc : Path → L) (base : Path) (codec : Codec)

namespace Receiver

/-- A job at its start. -/
def start (job : TransferJob Handle) (disk : Disk L) : Receiver L where
  job := some job
  disk := disk
  received _ := .fresh
  complete _ := []

/-- Note what was sent for a file. -/
def note (st : Receiver L) (e : FileEntry) (inc : Incoming) : Receiver L :=
  let l := target loc base e
  { st with
    received := Function.update st.received l inc
    complete :=
      if inc.ended ∧ inc.ok then Function.update st.complete l (inc.bytes :: st.complete l)
      else st.complete }

/-- A confirmation asks the sender to go on from an offset. -/
def noteConfirm (job : TransferJob Handle) (st : Receiver L) (r : FileTransferSendConfirmRequest) :
    Receiver L :=
  match job.files[asUsize r.fileNum]?, r.union with
  | some e, some (.offsetBlk offset) =>
    if 0 < offset then
      st.note loc base e (.ofDownload (st.disk.content (downloadOf loc base e)) offset.toNat)
    else st
  | _, _ => st

/-- A block names a file. -/
def noteBlock (job : TransferJob Handle) (written : Bool) (st : Receiver L)
    (block : FileTransferBlock) : Receiver L :=
  match job.files[asUsize block.fileNum]? with
  | none => st
  | some e =>
    st.note loc base e ((st.received (target loc base e)).current.block written
      (payload codec block) (block.data = [] ∧ block.compressed = false))

/-- The confirmations among what is sent. -/
def confirms (sent : List WriteOutput) : List FileTransferSendConfirmRequest :=
  sent.filterMap fun
    | .sendConfirm r => some r
    | _ => none

/-- What an event says of what is sent. -/
def noteEvent (env : DiskEnv) (st : Receiver L) (job : TransferJob Handle)
    (sent : List WriteOutput) : WriteEvent → Receiver L
  | .block _ block =>
    st.noteBlock loc base codec job (job.write (diskFs loc env) codec st.disk block).1.isOk block
  | .sendConfirm r => st.noteConfirm loc base job r
  | _ => (confirms sent).foldl (noteConfirm loc base job) st

/-- An event, on a disk as it is for a while. -/
def step (st : Receiver L) (a : DiskEnv × WriteEvent) : Option (Receiver L) :=
  (receiveWrite (diskFs loc a.1) codec st.disk st.job a.2).map fun w =>
    { (match st.job with
        | some job =>
          if job.id = a.2.id then st.noteEvent loc base codec a.1 job w.sent a.2 else st
        | none => st) with
      job := w.job, disk := w.fileSystem }

/-- Every final path holds what it held before the job, or a complete content that was sent for it. -/
def InPlace (before : Disk L) (files : List FileEntry) (st : Receiver L) : Prop :=
  ∀ e ∈ files, st.disk.content (target loc base e) = before.content (target loc base e) ∨
    ∃ data ∈ st.complete (target loc base e), st.disk.content (target loc base e) = some data

/-- The `.download` of a file, where there is one, is what was sent of it to the end. -/
def Whole (st : Receiver L) (e : FileEntry) : Prop :=
  ∀ data, st.disk.content (downloadOf loc base e) = some data →
    (st.received (target loc base e)).ended = true ∧ (st.received (target loc base e)).ok = true ∧
      data.length = (st.received (target loc base e)).bytes.length

/-- The file that the job is at is whole. -/
def CurrentWhole (st : Receiver L) (job : TransferJob Handle) : Prop :=
  ∀ e, job.files[asUsize job.fileNum]? = some e → st.Whole loc base e

/-- What holds a block to the claim. One that opens a file finds the file that the job was at whole,
and nothing sent yet of its own. One that goes on with an open file finds it open at the end of what
was sent. -/
structure BlockFits (st : Receiver L) (job : TransferJob Handle) (block : FileTransferBlock)
    (e : FileEntry) : Prop where
  whole : Opens job block → st.CurrentWhole loc base job
  unsent : Opens job block → (st.received (target loc base e)).current.bytes = []
  node : ¬ Opens job block → ∀ h, job.dataStream = some (.fileStream h) → h.writable = true →
    st.disk.node (downloadOf loc base e) = some h.node
  pos : ¬ Opens job block → ∀ h, job.dataStream = some (.fileStream h) → h.writable = true →
    h.pos = (st.received (target loc base e)).current.bytes.length

/-- What holds an event to the claim. -/
def Fits (st : Receiver L) (a : DiskEnv × WriteEvent) : Prop :=
  ∀ job, st.job = some job → job.id = a.2.id →
    match a.2 with
    | .block _ block =>
      ∀ e, job.files[asUsize block.fileNum]? = some e → st.BlockFits loc base job block e
    | .done .. => st.CurrentWhole loc base job
    | _ => True

end Receiver

end Disk

/-! ## Paths -/

theorem joinValidatedPath_eq {σ H : Type*} {fs : FileSystem σ H} {s : σ} {base name path : Path}
    (h : joinValidatedPath fs s base name = .ok path) : path = join base name := by
  unfold joinValidatedPath at h
  cases hname : validateFileNameNoTraversal name with
  | error e =>
    rw [hname] at h
    cases h
  | ok _ =>
    rw [hname] at h
    cases hlinks : validateNoSymlinkComponents fs s base name with
    | error e =>
      rw [hlinks] at h
      cases h
    | ok _ =>
      rw [hlinks] at h
      exact (Except.ok.inj h).symm

section Proofs

variable {L : Type*} {loc : Path → L} {base : Path} {files : List FileEntry} {s s' : Disk L} {e : FileEntry}
  {job' : TransferJob Handle} {res : Except String Unit}

/-! ## What a job does to the files -/

/-- A location that is no digest of the list. -/
def OffDigests (loc : Path → L) (base : Path) (files : List FileEntry) (l : L) : Prop :=
  ∀ e ∈ files, l ≠ digestOf loc base e

theorem Apart.target_off (hapart : Apart loc base files) (he : e ∈ files) :
    OffDigests loc base files (target loc base e) :=
  fun e' he' h => hapart.digest_target e' he' e he h.symm

theorem Apart.download_off (hapart : Apart loc base files) (he : e ∈ files) :
    OffDigests loc base files (downloadOf loc base e) :=
  fun e' he' h => hapart.digest_download e' he' e he h.symm

/-- Off the digests, the files are the same. -/
def SameFiles (loc : Path → L) (base : Path) (files : List FileEntry) (s s' : Disk L) : Prop :=
  ∀ l, OffDigests loc base files l → s'.content l = s.content l

variable [DecidableEq L] {codec : Codec} {env : DiskEnv} {job : TransferJob Handle}

/-- A `.download` was moved to the final path. -/
def Moved (loc : Path → L) (base : Path) (files : List FileEntry) (e : FileEntry) (s s' : Disk L) :
    Prop :=
  ∃ data, s.content (downloadOf loc base e) = some data ∧
    ∀ l, OffDigests loc base files l → s'.content l =
      if l = target loc base e then some data
      else if l = downloadOf loc base e then none else s.content l

theorem WritesUnder.currentEntryPath (hjob : WritesUnder base files job) {path : Path}
    (h : job.currentEntryPath (diskFs loc env) s = some (e, path)) :
    files[asUsize job.fileNum]? = some e ∧ path = join base e.name := by
  unfold TransferJob.currentEntryPath at h
  rw [hjob.type, hjob.dataSource, hjob.files] at h
  obtain ⟨e', hentry, hres⟩ := Option.bind_eq_some_iff.mp h
  obtain ⟨path', hpath, heq⟩ := Option.map_eq_some_iff.mp hres
  obtain ⟨rfl, rfl⟩ := Prod.mk.inj heq
  unfold TransferJob.resolveEntryPath at hpath
  rw [hjob.type] at hpath
  refine ⟨hentry, joinValidatedPath_eq (?_ : joinValidatedPath (diskFs loc env) s _ _ = _)⟩
  cases hjoin : joinValidatedPath (diskFs loc env) s base e'.name with
  | error err =>
    rw [hjoin] at hpath
    cases hpath
  | ok p =>
    rw [hjoin] at hpath
    exact congrArg Except.ok (Option.some.inj hpath)

/-- `modify_time` moves the `.download` of the current file, or nothing. -/
theorem modifyTime_spec (hapart : Apart loc base files) (hjob : WritesUnder base files job)
    (env : DiskEnv) (s : Disk L) :
    SameFiles loc base files s (job.modifyTime (diskFs loc env) s) ∨ ∃ e, files[asUsize job.fileNum]? = some e ∧
        Moved loc base files e s (job.modifyTime (diskFs loc env) s) := by
  unfold TransferJob.modifyTime
  split
  · exact .inl fun _ _ => rfl
  next e path hcurrent =>
    obtain ⟨hentry, rfl⟩ := hjob.currentEntryPath hcurrent
    have he := List.mem_of_getElem? hentry
    have hremove : ∀ l, OffDigests loc base files l →
        (s.removeFile loc env (join base e.name ++ digestSuffix)).2.content l = s.content l :=
      fun l hl => Disk.content_removeFile (hl e he)
    -- the rename, of the disk without the digest
    show SameFiles loc base files s (Disk.setFileMtime loc env (Disk.rename loc env
        (s.removeFile loc env (join base e.name ++ digestSuffix)).2 _ _) _ _) ∨ _
    obtain hrename | ⟨data, hdata, hrename⟩ := Disk.content_rename env
      (s.removeFile loc env (join base e.name ++ digestSuffix)).2
      (hapart.download_target e he e he)
    · left
      intro l hl
      rw [Disk.content_setFileMtime, hrename, hremove l hl]
    · right
      refine ⟨e, hentry, data, ?_, fun l hl => ?_⟩
      · rw [← hremove _ (hapart.download_off he)]
        exact hdata
      · show Disk.content (Disk.setFileMtime loc env (Disk.rename loc env
          (s.removeFile loc env (join base e.name ++ digestSuffix)).2 _ _) _ _) l = _
        rw [Disk.content_setFileMtime, hrename, hremove l hl]
        rfl

/-- `remove_download_file` removes companions at most. -/
theorem removeDownloadFile_spec (hapart : Apart loc base files) (hjob : WritesUnder base files job)
    (env : DiskEnv) (s : Disk L) {e' : FileEntry} (he' : e' ∈ files) :
    (job.removeDownloadFile (diskFs loc env) s).content (target loc base e') = s.content (target loc base e') ∧
      ((job.removeDownloadFile (diskFs loc env) s).content (downloadOf loc base e') =
          s.content (downloadOf loc base e') ∨
        (job.removeDownloadFile (diskFs loc env) s).content (downloadOf loc base e') = none) := by
  unfold TransferJob.removeDownloadFile
  split
  · exact ⟨rfl, .inl rfl⟩
  next e path hcurrent =>
    obtain ⟨hentry, rfl⟩ := hjob.currentEntryPath hcurrent
    have he := List.mem_of_getElem? hentry
    show Disk.content (Disk.removeFile loc env
        (s.removeFile loc env (join base e.name ++ downloadSuffix)).2 _).2 _ = _ ∧
      (Disk.content (Disk.removeFile loc env
        (s.removeFile loc env (join base e.name ++ downloadSuffix)).2 _).2 _ = _ ∨
        Disk.content (Disk.removeFile loc env
        (s.removeFile loc env (join base e.name ++ downloadSuffix)).2 _).2 _ = _)
    rw [Disk.content_removeFile (hapart.target_off he' e he),
      Disk.content_removeFile (hapart.download_off he' e he),
      Disk.content_removeFile (hapart.download_target e he e' he').symm]
    exact ⟨rfl, Disk.removeFile_content _⟩

/-- Opening a `.download` again leaves every file. -/
theorem openAtOffset_content (loc : Path → L) (env : DiskEnv) (s : Disk L) (path : Path) (l : L) :
    (TransferJob.openAtOffset (diskFs loc env) s path).2.content l = s.content l := by
  unfold TransferJob.openAtOffset
  split
  next h =>
    have hnode : s.node (loc (path ++ downloadSuffix)) ≠ none := by
      intro hnone
      have hexists : (s.metadata loc env (path ++ downloadSuffix)).isOk = true := h.1
      unfold Disk.metadata at hexists
      split at hexists
      · cases hexists
      · rw [s.get_eq_none.mpr hnone] at hexists
        cases hexists
    have hcontent : ((diskFs loc env).openWrite s (path ++ downloadSuffix)).2.content l = s.content l := by
      apply Disk.content_openWrite
      by_cases hl : l = loc (path ++ downloadSuffix)
      · exact .inl (hl ▸ hnode)
      · exact .inr hl
    split
    next heq =>
      rw [heq] at hcontent
      exact hcontent
    next heq =>
      rw [heq] at hcontent
      exact hcontent
  · split <;> rfl

/-- A confirmation leaves every file, and a job of the same list. -/
theorem confirm_spec (hjob : WritesUnder base files job) {r : FileTransferSendConfirmRequest}
    {res : TransferJob Handle × Disk L} (h : job.confirm (diskFs loc env) s r = some res) :
    WritesUnder base files res.1 ∧ ∀ l, res.2.content l = s.content l := by
  unfold TransferJob.confirm at h
  have hconfirmed : WritesUnder base files (job.setFileConfirmed true) :=
    ⟨hjob.type, hjob.dataSource, hjob.files, hjob.stream⟩
  split at h
  · cases h
    exact ⟨hjob, fun _ => rfl⟩
  · split at h
    · cases h
      exact ⟨⟨hjob.type, hjob.dataSource, hjob.files, fun _ _ h => by cases h⟩, fun _ => rfl⟩
    · cases h
      exact ⟨hconfirmed, fun _ => rfl⟩
    next offset =>
      rw [hjob.dataSource] at h
      split at h
      · obtain ⟨entry, -, rfl⟩ := Option.map_eq_some_iff.mp h
        unfold TransferJob.setStreamOffset
        rw [hconfirmed.dataSource]
        dsimp only
        split
        · exact ⟨hconfirmed, fun _ => rfl⟩
        next path _ =>
          have hcontent := openAtOffset_content loc env s path
          split
          next heq =>
            rw [heq] at hcontent
            exact ⟨hconfirmed, hcontent⟩
          next heq =>
            rw [heq] at hcontent
            split
            · exact ⟨hconfirmed, hcontent⟩
            · exact ⟨⟨hjob.type, rfl, hjob.files, fun _ _ h => by cases h⟩, hcontent⟩
      · cases h
        exact ⟨hconfirmed, fun _ => rfl⟩
    · cases h
      exact ⟨hjob, fun _ => rfl⟩

/-! ## Blocks -/

/-- Bytes that are written behind a prefix go on with it. -/
theorem prefix_overwrite {front old data : Bytes} (h : front <+: old) :
    front ++ data <+: TransferJob.overwrite old front.length data := by
  obtain ⟨rest, rfl⟩ := h
  unfold TransferJob.overwrite
  rw [List.take_left, Nat.sub_eq_zero_of_le (by simp), List.replicate_zero, List.append_nil]
  exact List.prefix_append _ _

/-- The paths that are written for an entry; the directories are there. -/
theorem writePaths_disk (htype : job.type = .generic) (env : DiskEnv) (s : Disk L) (name : Path) :
    (∃ err, job.writePaths (diskFs loc env) s base name = (.error err, s)) ∨
      job.writePaths (diskFs loc env) s base name =
        (.ok (join base name ++ downloadSuffix, some (join base name ++ digestSuffix)), s) := by
  unfold TransferJob.writePaths
  rw [htype]
  cases hjoin : joinValidatedPath (diskFs loc env) s base name with
  | error err => exact .inl ⟨err, rfl⟩
  | ok path =>
    right
    obtain rfl := joinValidatedPath_eq hjoin
    dsimp only
    split <;> rfl

/-- Removing the old digest of an entry leaves everything else. -/
theorem removeOldDigest_content (env : DiskEnv) (s : Disk L) (he : e ∈ files) {l : L}
    (hl : OffDigests loc base files l) :
    (TransferJob.removeOldDigest (diskFs loc env) s (some (join base e.name ++ digestSuffix))).2.content
      l = s.content l := by
  unfold TransferJob.removeOldDigest
  dsimp only
  split
  · have hremove : ((diskFs loc env).removeFile s (join base e.name ++ digestSuffix)).2.content l =
        s.content l := Disk.content_removeFile (hl e he)
    split
    next heq =>
      rw [heq] at hremove
      exact hremove
    next heq =>
      rw [heq] at hremove
      exact hremove
  · rfl

/-- What the part of `write` leaves that goes over to another file: the current file finalised, or as
it was, and the other one empty and open at its start. -/
theorem openForWrite_spec (hapart : Apart loc base files) (hjob : WritesUnder base files job)
    (codec : Codec) (env : DiskEnv) (s : Disk L) (he : e ∈ files) (fileNum : ℤ)
    (h : job.openForWrite (diskFs loc env) codec s base e fileNum = (res, job', s')) :
    WritesUnder base files job' ∧ ∃ s₁, (SameFiles loc base files s s₁ ∨ ∃ c, files[asUsize job.fileNum]? = some c ∧
          Moved loc base files c s s₁) ∧
        (∀ l, OffDigests loc base files l → l ≠ downloadOf loc base e → s'.content l = s₁.content l) ∧
        (res.isOk → ∃ h, job'.dataStream = some (.fileStream h) ∧ h.pos = 0 ∧ h.writable = true ∧
          s'.node (downloadOf loc base e) = some h.node ∧
          s'.content (downloadOf loc base e) = some []) := by
  have hfinal := modifyTime_spec hapart hjob env s
  unfold TransferJob.openForWrite at h
  generalize job.modifyTime (diskFs loc env) s = s₁ at h hfinal
  dsimp only at h
  split at h
  · -- the sync of the last stream fails
    cases h
    exact ⟨hjob, _, hfinal, fun _ _ _ => rfl, fun h => by cases h⟩
  · have hjob' : WritesUnder base files { job with fileNum := fileNum } :=
      ⟨hjob.type, hjob.dataSource, hjob.files, hjob.stream⟩
    obtain ⟨err, hpaths⟩ | hpaths := writePaths_disk hjob'.type env s₁ e.name
    · rw [hpaths] at h
      cases h
      exact ⟨hjob', _, hfinal, fun _ _ _ => rfl, fun h => by cases h⟩
    · rw [hpaths] at h
      dsimp only at h
      have hdigest := fun l (hl : OffDigests loc base files l) => removeOldDigest_content env s₁ he hl
      split at h
      next heq =>
        rw [heq] at hdigest
        cases h
        exact ⟨hjob', _, hfinal, fun l hl _ => hdigest l hl, fun h => by cases h⟩
      next s₂ heq =>
        rw [heq] at hdigest
        have hframe := fun l (hl : l ≠ downloadOf loc base e) => (Disk.create_frame env s₂ hl).1
        have hcreate : (diskFs loc env).create s₂ (join base e.name ++ downloadSuffix) =
          s₂.create loc env (join base e.name ++ downloadSuffix) := rfl
        rw [hcreate] at h
        split at h
        next heq' =>
          rw [downloadOf, heq'] at hframe
          cases h
          exact ⟨hjob', _, hfinal, fun l hl hne => (hframe l hne).trans (hdigest l hl),
            fun h => by cases h⟩
        next handle s₃ heq' =>
          obtain ⟨hpos, hwritable, hnode, hempty⟩ := Disk.create_spec (congrArg Prod.fst heq')
          rw [heq'] at hnode hempty
          rw [downloadOf, heq'] at hframe
          cases h
          have hwrite := fun l (hl : OffDigests loc base files l) => Disk.write_frame env s₃
            (codec.digestToJson job.digest) (hl e he)
          have hoff := hwrite _ (hapart.download_off he)
          refine ⟨⟨hjob'.type, hjob'.dataSource, hjob'.files, fun _ _ h => by cases h⟩, _, hfinal,
            fun l hl hne => ?_, fun _ => ⟨handle, rfl, hpos, hwritable, ?_, ?_⟩⟩
          · exact ((hwrite l hl).1.trans (hframe l hne)).trans (hdigest l hl)
          · exact hoff.2.trans hnode
          · exact hoff.1.trans hempty

/-- What `write_all` leaves of a file that is open where it is to be written. -/
theorem writeData_spec (hjob : WritesUnder base files job) (env : DiskEnv) (s : Disk L) (data : Bytes)
    (l' : L) (hopen : ∀ h, job.dataStream = some (.fileStream h) → h.writable = true → s.node l' = some h.node)
    (h : job.writeData (diskFs loc env) s data = (res, job', s')) :
    WritesUnder base files job' ∧ (∀ l ≠ l', s'.content l = s.content l) ∧
      (res.isOk → data = [] ∧ s' = s ∨ ∃ h, job.dataStream = some (.fileStream h) ∧ h.writable = true ∧
        s'.content l' = some (TransferJob.overwrite (s.val h.node).bytes h.pos data)) := by
  unfold TransferJob.writeData at h
  split at h
  · cases h
    exact ⟨hjob, fun _ _ => rfl, fun h => by cases h⟩
  next handle hstream =>
    have hwrite := Disk.writeAll_spec env data (hopen handle hstream)
    have hdef : (diskFs loc env).writeAll s handle data = s.writeAll env handle data := rfl
    rw [hdef] at h
    split at h
    next r handle' s'' heq =>
      rw [heq] at hwrite
      cases h
      refine ⟨⟨hjob.type, hjob.dataSource, hjob.files, fun _ _ h => by cases h⟩, hwrite.1,
        fun hok => ?_⟩
      cases r with
      | error e => cases hok
      | ok u =>
        obtain hnothing | ⟨hwritable, hcontent⟩ := hwrite.2 u rfl
        · exact .inl hnothing
        · exact .inr ⟨handle, hstream, hwritable, hcontent⟩
  next old pos hstream => exact absurd hstream (hjob.stream old pos)

/-- A block that opens its file. -/
theorem write_opening (hapart : Apart loc base files) (hjob : WritesUnder base files job)
    {block : FileTransferBlock} (hid : block.id = job.id)
    (hentry : files[asUsize block.fileNum]? = some e) (hopens : Opens job block)
    (h : job.write (diskFs loc env) codec s block = (res, job', s')) :
    WritesUnder base files job' ∧ ∃ s₁, (SameFiles loc base files s s₁ ∨ ∃ c, files[asUsize job.fileNum]? = some c ∧
          Moved loc base files c s s₁) ∧
        (∀ l, OffDigests loc base files l → l ≠ downloadOf loc base e → s'.content l = s₁.content l) ∧
        (res.isOk → s'.content (downloadOf loc base e) = some (payload codec block)) := by
  have he := List.mem_of_getElem? hentry
  unfold TransferJob.write at h
  rw [if_neg (not_not_intro hid)] at h
  have hselect : job.selectStream (diskFs loc env) codec s block =
      job.openForWrite (diskFs loc env) codec s base e block.fileNum := by
    unfold TransferJob.selectStream
    rw [hjob.dataSource]
    rw [hjob.files, hentry]
    exact if_pos hopens
  rw [hselect] at h
  cases hopen : job.openForWrite (diskFs loc env) codec s base e block.fileNum with
  | mk r rest =>
    obtain ⟨job₁, s₂⟩ := rest
    obtain ⟨hjob₁, s₁, hfinal, hframe, hready⟩ := openForWrite_spec hapart hjob codec env s he _ hopen
    rw [hopen] at h
    cases r with
    | error err =>
      cases h
      exact ⟨hjob₁, s₁, hfinal, hframe, fun h => by cases h⟩
    | ok u =>
      obtain ⟨handle, hstream, hpos, hwritable, hnode, hempty⟩ := hready rfl
      obtain ⟨hjob', hsame, hok⟩ := writeData_spec hjob₁ env s₂ (payload codec block) (downloadOf loc base e)
        (fun h' hh _ => by
          rw [hstream] at hh
          cases hh
          exact hnode) h
      refine ⟨hjob', s₁, hfinal, fun l hl hne => (hsame l hne).trans (hframe l hl hne), fun h => ?_⟩
      obtain ⟨hdata, rfl⟩ | ⟨handle', hstream', -, hcontent⟩ := hok h
      · rw [hempty, hdata]
      · rw [hstream] at hstream'
        cases hstream'
        have hnil : (s₂.val handle.node).bytes = [] := by
          rw [Disk.content_of_node hnode] at hempty
          exact Option.some.inj hempty
        rw [hcontent, hnil, hpos]
        simp [TransferJob.overwrite]

/-- A block that goes on with the open file. -/
theorem write_going_on (hjob : WritesUnder base files job) {block : FileTransferBlock} (hid : block.id = job.id)
    (hentry : files[asUsize block.fileNum]? = some e) (hopens : ¬ Opens job block)
    (hopen : ∀ h, job.dataStream = some (.fileStream h) → h.writable = true →
      s.node (downloadOf loc base e) = some h.node)
    (h : job.write (diskFs loc env) codec s block = (res, job', s')) :
    WritesUnder base files job' ∧ (∀ l ≠ downloadOf loc base e, s'.content l = s.content l) ∧
      (res.isOk → payload codec block = [] ∧ s' = s ∨ ∃ h, job.dataStream = some (.fileStream h) ∧
        h.writable = true ∧ s'.content (downloadOf loc base e) =
          some (TransferJob.overwrite (s.val h.node).bytes h.pos (payload codec block))) := by
  unfold TransferJob.write at h
  rw [if_neg (not_not_intro hid)] at h
  have hselect : job.selectStream (diskFs loc env) codec s block = (.ok (), job, s) := by
    unfold TransferJob.selectStream
    rw [hjob.dataSource]
    rw [hjob.files, hentry]
    exact if_neg hopens
  rw [hselect] at h
  exact writeData_spec hjob env s (payload codec block) _ hopen h

/-- A block for no file of the list. -/
theorem write_no_file (hjob : WritesUnder base files job) {block : FileTransferBlock}
    (hid : block.id = job.id) (hentry : files[asUsize block.fileNum]? = none) :
    job.write (diskFs loc env) codec s block = (.error "Wrong file number", job, s) := by
  unfold TransferJob.write
  rw [if_neg (not_not_intro hid)]
  unfold TransferJob.selectStream
  rw [hjob.dataSource]
  rw [hjob.files, hentry]

/-! ## What is kept -/

namespace Receiver

/-- What is kept between a disk and what was sent. What was sent of a file is how its `.download`
starts, complete contents are noted, and the final paths hold whole files. -/
structure Kept (loc : Path → L) (base : Path) (before : Disk L) (files : List FileEntry)
    (st : Receiver L) : Prop where
  part : ∀ e ∈ files, (st.received (target loc base e)).ok = true →
    ∀ data, st.disk.content (downloadOf loc base e) = some data →
      (st.received (target loc base e)).bytes <+: data
  noted : ∀ e ∈ files, (st.received (target loc base e)).ended = true →
    (st.received (target loc base e)).ok = true →
      (st.received (target loc base e)).bytes ∈ st.complete (target loc base e)
  inPlace : st.InPlace loc base before files

variable {before : Disk L} {st : Receiver L} {w : Written (Disk L) Handle}

omit [DecidableEq L] in
/-- A disk with the same final files, and with the same downloads or fewer. -/
theorem Kept.frame (h : st.Kept loc base before files) (s' : Disk L)
    (htarget : ∀ e ∈ files, s'.content (target loc base e) = st.disk.content (target loc base e))
    (hdownload : ∀ e ∈ files, s'.content (downloadOf loc base e) = st.disk.content (downloadOf loc base e) ∨
        s'.content (downloadOf loc base e) = none) :
    Kept loc base before files { st with disk := s' } where
  part e he hok data hdata := by
    obtain hsame | hnone := hdownload e he
    · exact h.part e he hok data (hsame.symm.trans hdata)
    · exact absurd (hnone.symm.trans hdata) (by simp)
  noted := h.noted
  inPlace e he := by
    show s'.content _ = _ ∨ ∃ data ∈ _, s'.content _ = _
    rw [htarget e he]
    exact h.inPlace e he

omit [DecidableEq L] in
theorem Kept.withJob (h : st.Kept loc base before files) (job : Option (TransferJob Handle)) :
    Kept loc base before files { st with job := job } :=
  ⟨h.part, h.noted, h.inPlace⟩

omit [DecidableEq L] in
theorem Kept.sameFiles (h : st.Kept loc base before files) (hapart : Apart loc base files)
    (hsame : SameFiles loc base files st.disk s') :
    Kept loc base before files { st with disk := s' } :=
  h.frame s' (fun _ he => hsame _ (hapart.target_off he)) (fun _ he => .inl (hsame _ (hapart.download_off he)))

section

variable (h : st.Kept loc base before files) (hapart : Apart loc base files)
include h hapart

/-- A whole `.download` may be put in place. -/
theorem Kept.moved {e : FileEntry} (he : e ∈ files) (hwhole : st.Whole loc base e)
    (hmoved : Moved loc base files e st.disk s') :
    Kept loc base before files { st with disk := s' } := by
  obtain ⟨data, hdata, hcontent⟩ := hmoved
  obtain ⟨hended, hok, hlength⟩ := hwhole data hdata
  -- the `.download` is what was sent
  have heq : (st.received (target loc base e)).bytes = data :=
    (h.part e he hok data hdata).eq_of_length hlength.symm
  refine ⟨fun e' he' hok' data' hdata' => ?_, h.noted, fun e' he' => ?_⟩
  · have hother := hcontent _ (hapart.download_off he')
    rw [if_neg (hapart.download_target e' he' e he)] at hother
    split at hother
    · exact absurd (hother.symm.trans hdata') (by simp)
    · exact h.part e' he' hok' data' (hother.symm.trans hdata')
  · have hother := hcontent _ (hapart.target_off he')
    show s'.content _ = _ ∨ ∃ data ∈ _, s'.content _ = _
    rw [hother]
    by_cases hsame : target loc base e' = target loc base e
    · rw [if_pos hsame]
      refine .inr ⟨data, ?_, rfl⟩
      rw [hsame, ← heq]
      exact h.noted e he hended hok
    · rw [if_neg hsame, if_neg (hapart.download_target e he e' he').symm]
      exact h.inPlace e' he'

/-- More was sent of a file, and its `.download` goes with it. -/
theorem Kept.note {e : FileEntry} (he : e ∈ files) {inc : Incoming} (s' : Disk L)
    (hother : ∀ l, OffDigests loc base files l → l ≠ downloadOf loc base e → s'.content l = st.disk.content l)
    (hpart : inc.ok = true → ∀ data, s'.content (downloadOf loc base e) = some data → inc.bytes <+: data) :
    Kept loc base before files { st.note loc base e inc with disk := s' } := by
  have hself : (Function.update st.received (target loc base e) inc) (target loc base e) = inc :=
    Function.update_self ..
  have hne : ∀ e' ∈ files, target loc base e' ≠ target loc base e →
      (Function.update st.received (target loc base e) inc) (target loc base e') =
        st.received (target loc base e') := fun e' _ hne => Function.update_of_ne hne ..
  refine ⟨fun e' he' hok data hdata => ?_, fun e' he' hended hok => ?_, fun e' he' => ?_⟩
  · change (Function.update st.received _ inc _).ok = true at hok
    show (Function.update st.received _ inc _).bytes <+: data
    by_cases hsame : target loc base e' = target loc base e
    · rw [hsame, hself] at hok ⊢
      exact hpart hok data ((hapart.same e' he' e he).mp hsame ▸ hdata)
    · rw [hne e' he' hsame] at hok ⊢
      refine h.part e' he' hok data ?_
      rw [← hother _ (hapart.download_off he') fun hd => hsame ((hapart.same e' he' e he).mpr hd)]
      exact hdata
  · change (Function.update st.received _ inc _).ended = true at hended
    change (Function.update st.received _ inc _).ok = true at hok
    show (Function.update st.received _ inc _).bytes ∈ (ite _ _ _ : L → List Bytes) _
    by_cases hsame : target loc base e' = target loc base e
    · rw [hsame, hself] at hended hok ⊢
      rw [if_pos ⟨hended, hok⟩, Function.update_self]
      exact List.mem_cons_self
    · rw [hne e' he' hsame] at hended hok ⊢
      have hnoted := h.noted e' he' hended hok
      split
      · rwa [Function.update_of_ne hsame]
      · exact hnoted
  · show s'.content _ = _ ∨ ∃ data ∈ (ite _ _ _ : L → List Bytes) _, s'.content _ = _
    rw [hother _ (hapart.target_off he') (hapart.download_target e he e' he').symm]
    obtain hold | ⟨data, hdata, hcontent⟩ := h.inPlace e' he'
    · exact .inl hold
    · refine .inr ⟨data, ?_, hcontent⟩
      split
      · by_cases hsame : target loc base e' = target loc base e
        · rw [hsame, Function.update_self]
          exact List.mem_cons_of_mem _ (hsame ▸ hdata)
        · rwa [Function.update_of_ne hsame]
      · exact hdata

/-- A confirmation is noted. -/
theorem Kept.noteConfirm (hjob : WritesUnder base files job) (r : FileTransferSendConfirmRequest) :
    (st.noteConfirm loc base job r).Kept loc base before files ∧
      (st.noteConfirm loc base job r).disk = st.disk := by
  unfold Receiver.noteConfirm
  rw [hjob.files]
  split
  next e offset hentry _ =>
    split
    · refine ⟨h.note hapart (List.mem_of_getElem? hentry) st.disk (fun _ _ _ => rfl)
        fun _ data hdata => ?_, rfl⟩
      rw [hdata]
      exact List.take_prefix _ _
    · exact ⟨h, rfl⟩
  · exact ⟨h, rfl⟩

theorem Kept.noteConfirms (hjob : WritesUnder base files job) (rs : List FileTransferSendConfirmRequest) :
    (rs.foldl (Receiver.noteConfirm loc base job) st).Kept loc base before files ∧
      (rs.foldl (Receiver.noteConfirm loc base job) st).disk = st.disk := by
  induction rs generalizing st with
  | nil => exact ⟨h, rfl⟩
  | cons r rs ih =>
    obtain ⟨hr, hdisk⟩ := h.noteConfirm hapart hjob r
    obtain ⟨hrs, hdisk'⟩ := ih hr
    exact ⟨hrs, hdisk'.trans hdisk⟩

end

theorem block_bytes (inc : Incoming) (written : Bool) (data : Bytes) (isEnd : Bool) :
    (inc.block written data isEnd).ok = true → inc.ok = true ∧ written = true := by
  simp [Incoming.block]

theorem current_prefix {inc : Incoming} {data : Bytes} (h : inc.ok = true → inc.bytes <+: data)
    (hok : inc.current.ok = true) : inc.current.bytes <+: data := by
  unfold Incoming.current at hok ⊢
  split
  · exact List.nil_prefix
  next hended =>
    rw [if_neg hended] at hok
    exact h hok

/-- A block is written, and noted. -/
theorem Kept.noteBlock (h : st.Kept loc base before files) (hapart : Apart loc base files)
    (hjob : WritesUnder base files job) {block : FileTransferBlock} (hid : block.id = job.id)
    (hfits : ∀ e, job.files[asUsize block.fileNum]? = some e → st.BlockFits loc base job block e)
    {res : Except String Unit} {job' : TransferJob Handle}
    (hwrite : job.write (diskFs loc env) codec st.disk block = (res, job', s')) :
    WritesUnder base files job' ∧ Kept loc base before files
        { st.noteBlock loc base codec job res.isOk block with disk := s' } := by
  rw [hjob.files] at hfits
  unfold Receiver.noteBlock
  rw [hjob.files]
  cases hentry : files[asUsize block.fileNum]? with
  | none =>
    rw [write_no_file hjob hid hentry] at hwrite
    cases hwrite
    exact ⟨hjob, h⟩
  | some e =>
    have he := List.mem_of_getElem? hentry
    have hfits := hfits e hentry
    by_cases hopens : Opens job block
    · -- the file that the job was at is put in place, or stays
      obtain ⟨hjob', s₁, hfinal, hother, hdata⟩ := write_opening hapart hjob hid hentry hopens hwrite
      have hkept : Kept loc base before files { st with disk := s₁ } := by
        obtain hsame | ⟨c, hc, hmoved⟩ := hfinal
        · exact h.sameFiles hapart hsame
        · exact h.moved hapart (List.mem_of_getElem? hc)
            (hfits.whole hopens c (by rw [hjob.files]; exact hc)) hmoved
      refine ⟨hjob', hkept.note hapart he s' hother fun hok data hcontent => ?_⟩
      obtain ⟨-, hres⟩ := block_bytes _ _ _ _ hok
      obtain rfl : payload codec block = data := Option.some.inj ((hdata hres).symm.trans hcontent)
      show (st.received (target loc base e)).current.bytes ++ payload codec block <+: _
      simp only [hfits.unsent hopens, List.nil_append, List.prefix_rfl]
    · obtain ⟨hjob', hother, hdata⟩ := write_going_on hjob hid hentry hopens (hfits.node hopens) hwrite
      refine ⟨hjob', h.note hapart he s' (fun l _ hne => hother l hne) fun hok data hcontent => ?_⟩
      obtain ⟨hok, hres⟩ := block_bytes _ _ _ _ hok
      show (st.received (target loc base e)).current.bytes ++ _ <+: data
      obtain ⟨hpayload, rfl⟩ | ⟨handle, hstream, hwritable, hover⟩ := hdata hres
      · rw [hpayload, List.append_nil]
        exact current_prefix (fun hok => h.part e he hok data hcontent) hok
      · have hnode := hfits.node hopens handle hstream hwritable
        have hprefix := current_prefix (fun hok => h.part e he hok _ (Disk.content_of_node hnode)) hok
        rw [hover, hfits.pos hopens handle hstream hwritable] at hcontent
        rw [← Option.some.inj hcontent]
        exact prefix_overwrite hprefix

/-! ## Runs -/

/-- What holds of a receiver in every run that fits. -/
structure Inv (loc : Path → L) (base : Path) (before : Disk L) (files : List FileEntry)
    (st : Receiver L) : Prop where
  job : ∀ job, st.job = some job → WritesUnder base files job
  kept : st.Kept loc base before files

section

variable (hjob : WritesUnder base files job)
include hjob

theorem confirmBoth_spec {r : FileTransferSendConfirmRequest} (h : job.confirmBoth (diskFs loc env) s r = some w) :
    (∀ job', w.job = some job' → WritesUnder base files job') ∧ ∀ l, w.fileSystem.content l = s.content l := by
  unfold TransferJob.confirmBoth at h
  obtain ⟨res, hres, rfl⟩ := Option.map_eq_some_iff.mp h
  obtain ⟨hjob', hcontent⟩ := confirm_spec hjob hres
  exact ⟨fun _ h => Option.some.inj h ▸ hjob', hcontent⟩

theorem receiveDigest_spec {isSupportResume : Bool} {digest : FileTransferDigest}
    (h : job.receiveDigest (diskFs loc env) codec s isSupportResume digest = some w) :
    (∀ job', w.job = some job' → WritesUnder base files job') ∧ ∀ l, w.fileSystem.content l = s.content l := by
  have hset : WritesUnder base files (job.setDigest digest.fileSize digest.lastModified) :=
    ⟨hjob.type, hjob.dataSource, hjob.files, hjob.stream⟩
  unfold TransferJob.receiveDigest at h
  split at h
  · dsimp only at h
    split at h
    · exact confirmBoth_spec hset h
    · split at h
      · exact confirmBoth_spec hset h
      · exact confirmBoth_spec hset h
      · cases h
        exact ⟨fun _ h => Option.some.inj h ▸ hset, fun _ => rfl⟩
    · exact confirmBoth_spec hset h
    · cases h
      exact ⟨fun _ h => Option.some.inj h ▸ hset, fun _ => rfl⟩
  · cases h
    exact ⟨fun _ h => Option.some.inj h ▸ hjob, fun _ => rfl⟩

theorem checkDigest_spec (loc : Path → L) (codec : Codec) (env : DiskEnv) (s : Disk L) (id fileNum : ℤ)
    (fileSize lastModified : ℕ) (isUpload isResume : Bool) :
    (∀ job', (job.checkDigest (diskFs loc env) codec s id fileNum fileSize lastModified isUpload
        isResume).job = some job' → WritesUnder base files job') ∧
      (job.checkDigest (diskFs loc env) codec s id fileNum fileSize lastModified isUpload
        isResume).fileSystem = s := by
  unfold TransferJob.checkDigest
  split
  · dsimp only
    split
    · exact ⟨fun _ h => Option.some.inj h ▸ ⟨hjob.type, hjob.dataSource, hjob.files, hjob.stream⟩, rfl⟩
    · exact ⟨fun _ h => Option.some.inj h ▸ hjob, rfl⟩
  · exact ⟨fun _ h => Option.some.inj h ▸ hjob, rfl⟩

end

/-- An event for the job keeps what is kept. -/
theorem Inv.event (hinv : st.Inv loc base before files) (hapart : Apart loc base files)
    (hst : st.job = some job) {ev : WriteEvent} (hid : job.id = ev.id)
    (hfits : st.Fits loc base (env, ev))
    (h : job.receive (diskFs loc env) codec st.disk ev = some w) :
    Inv loc base before files
      { st.noteEvent loc base codec env job w.sent ev with job := w.job, disk := w.fileSystem } := by
  have hjob := hinv.job job hst
  have hkept := hinv.kept
  -- what leaves the files as they are
  have hquiet : ∀ rs : List FileTransferSendConfirmRequest,
      ((∀ job', w.job = some job' → WritesUnder base files job') ∧
        ∀ l, w.fileSystem.content l = st.disk.content l) →
      Inv loc base before files { rs.foldl (Receiver.noteConfirm loc base job) st with
        job := w.job, disk := w.fileSystem } := by
    rintro rs ⟨hjob', hcontent⟩
    obtain ⟨hnoted, hdisk⟩ := hkept.noteConfirms hapart hjob rs
    have hframe := hnoted.frame w.fileSystem
      (fun e _ => by rw [hdisk, hcontent]) fun e _ => .inl (by rw [hdisk, hcontent])
    exact ⟨hjob', hframe.withJob w.job⟩
  cases ev with
  | digest isSupportResume digest => exact hquiet _ (receiveDigest_spec hjob h)
  | setConfirmOverrideFile id fileNum needOverride remember =>
    refine hquiet _ ?_
    change TransferJob.receiveAnswer _ _ _ _ _ _ _ = _ at h
    unfold TransferJob.receiveAnswer at h
    refine confirmBoth_spec ?_ h
    split
    · exact ⟨hjob.type, hjob.dataSource, hjob.files, hjob.stream⟩
    · exact hjob
  | checkDigest id fileNum fileSize lastModified isUpload isResume =>
    cases h
    obtain ⟨hjob', hdisk⟩ := checkDigest_spec hjob loc codec env st.disk id fileNum fileSize
      lastModified isUpload isResume
    exact hquiet _ ⟨hjob', fun l => by rw [hdisk]⟩
  | sendConfirm r =>
    obtain ⟨res, hres, rfl⟩ := Option.map_eq_some_iff.mp h
    obtain ⟨hjob', hcontent⟩ := confirm_spec hjob hres
    exact hquiet [r] ⟨fun _ h => Option.some.inj h ▸ hjob', hcontent⟩
  | block writer block =>
    cases h
    show Inv loc base before files
      { st.noteBlock loc base codec job (job.write (diskFs loc env) codec st.disk block).1.isOk block
        with
        job := (job.receiveBlock (diskFs loc env) codec st.disk writer block).job
        disk := (job.receiveBlock (diskFs loc env) codec st.disk writer block).fileSystem }
    unfold TransferJob.receiveBlock
    cases hwrite : job.write (diskFs loc env) codec st.disk block with
    | mk res rest =>
      obtain ⟨job', s'⟩ := rest
      obtain ⟨hjob', hkept'⟩ := hkept.noteBlock hapart hjob hid.symm (hfits job hst hid) hwrite
      exact ⟨fun _ h => Option.some.inj h ▸ hjob', hkept'.withJob (some job')⟩
  | done writer id fileNum =>
    cases h
    have hkept' : Kept loc base before files
        { st with disk := job.modifyTime (diskFs loc env) st.disk } := by
      obtain hsame | ⟨c, hc, hmoved⟩ := modifyTime_spec hapart hjob env st.disk
      · exact hkept.sameFiles hapart hsame
      · exact hkept.moved hapart (List.mem_of_getElem? hc)
          (hfits job hst hid c (by rw [hjob.files]; exact hc)) hmoved
    cases writer with
    | client | connectionManager => exact ⟨fun _ h => (by cases h), hkept'.withJob none⟩
  | error writer id err fileNum =>
    cases writer with
    | client | connectionManager =>
      cases h
      exact hquiet [] ⟨fun _ h => (by cases h), fun _ => rfl⟩
  | cancel writer id =>
    have hremoved := fun e (he : e ∈ files) => removeDownloadFile_spec hapart hjob env st.disk he
    have hkept' : Kept loc base before files
        { st with disk := job.removeDownloadFile (diskFs loc env) st.disk } :=
      hkept.frame _ (fun e he => (hremoved e he).1) fun e he => (hremoved e he).2
    cases writer with
    | client | connectionManager =>
      cases h
      exact ⟨fun _ h => (by cases h), hkept'.withJob none⟩

theorem Inv.step (hinv : st.Inv loc base before files) (hapart : Apart loc base files)
    {a : DiskEnv × WriteEvent} (hfits : st.Fits loc base a) {st' : Receiver L}
    (h : st.step loc base codec a = some st') : st'.Inv loc base before files := by
  obtain ⟨w, hw, rfl⟩ := Option.map_eq_some_iff.mp h
  unfold receiveWrite at hw
  cases hst : st.job with
  | none =>
    rw [hst] at hw
    cases hw
    exact ⟨fun _ h => (by cases h), hinv.kept.withJob none⟩
  | some job =>
    rw [hst] at hw
    dsimp only at hw ⊢
    split at hw
    next hid =>
      rw [if_pos hid]
      exact hinv.event hapart hst hid hfits hw
    next hid =>
      rw [if_neg hid]
      cases hw
      exact ⟨fun _ h => Option.some.inj h ▸ hinv.job job hst, hinv.kept.withJob (some job)⟩

omit [DecidableEq L] in
/-- At its start nothing was sent. -/
theorem Inv.start (hjob : WritesUnder base files job) (disk : Disk L) :
    (Receiver.start job disk).Inv loc base disk files where
  job _ h := Option.some.inj h ▸ hjob
  kept :=
    { part := fun _ _ _ _ _ => List.nil_prefix
      noted := fun _ _ hended => by cases hended
      inPlace := fun _ _ => .inl rfl }

/-- **Whole files in place.** In every run whose events fit, every final path holds what it held before
the job, or a complete content that was sent for it. -/
theorem whole_files_in_place (loc : Path → L) (codec : Codec) (base : Path)
    (files : List FileEntry) (hapart : Apart loc base files) (job : TransferJob Handle)
    (hjob : WritesUnder base files job) (disk : Disk L) (as : List (DiskEnv × WriteEvent))
    (st : Receiver L)
    (hrun : Run (Only (Receiver.Fits loc base) (Steps (Receiver.step loc base codec)))
      (Receiver.start job disk) as st) :
    st.InPlace loc base disk files :=
  have hinv : st.Inv loc base disk files :=
    hrun.invariant (fun _ _ _ (h : Receiver.Inv loc base disk files _) hstep =>
      h.step hapart hstep.1 hstep.2) (Inv.start hjob disk)
  hinv.kept.inPlace

end Receiver

end Proofs

/-! ## One file -/

namespace Receiver

/-- A job for one file at a path. -/
def oneFile : TransferJob Handle :=
  { TransferJob.newWrite 1 .generic (.filePath ['d']) 0 true with files := [⟨[], 0⟩] }

/-- A disk with nothing on it but the file. -/
def oneFileDisk : Disk Path where
  node l := if l = ['d'] then some 0 else none
  val _ := ⟨[1], 0⟩
  fresh := 1
  inj l l' i h h' := by
    split at h
    next hl =>
      split at h'
      next hl' => rw [hl, hl']
      · cases h'
    · cases h
  bound l i h := by
    split at h
    · cases h
      exact Nat.zero_lt_one
    · cases h

/-- The same disk, with a `.download` of an earlier run. -/
def staleDisk : Disk Path := oneFileDisk.link (['d'] ++ downloadSuffix) ⟨[2], 0⟩

def oneBlock (data : Bytes) : DiskEnv × WriteEvent :=
  (.faultless 0 0, .block .client ⟨1, 0, data, false⟩)

theorem oneFile_apart : Apart id ['d'] oneFile.files := by constructor <;> decide

theorem oneFile_writes : WritesUnder ['d'] oneFile.files oneFile := ⟨rfl, rfl, rfl, fun _ _ h => by cases h⟩

/-- A file is sent and put in place. -/
theorem whole_files_in_place_sent : ∃ st,
    Run (Only (Fits id ['d']) (Steps (step id ['d'] Codec.plain))) (start oneFile oneFileDisk)
      [oneBlock [3], oneBlock [], (.faultless 0 0, .done .client 1 0)] st ∧
      st.disk.content ['d'] = some [3] ∧ st.InPlace id ['d'] oneFileDisk oneFile.files := by
  refine exists_and_and (fun _ hrun _ =>
    whole_files_in_place id .plain ['d'] oneFile.files oneFile_apart oneFile oneFile_writes _ _ _ hrun) ?_
  refine ⟨_, .cons ⟨?_, rfl⟩ (.cons ⟨?_, rfl⟩ (.cons ⟨?_, rfl⟩ (.nil _))), by decide⟩
  · rintro job hjob - e he
    obtain rfl : oneFile = job := Option.some.inj hjob
    obtain rfl : ⟨[], 0⟩ = e := Option.some.inj he
    refine ⟨fun _ c hc data hdata => ?_, fun _ => rfl, fun h => absurd (by decide) h,
      fun h => absurd (by decide) h⟩
    obtain rfl : ⟨[], 0⟩ = c := Option.some.inj hc
    have hnone : oneFileDisk.content (downloadOf id ['d'] ⟨[], 0⟩) = none := by decide
    exact absurd (hnone.symm.trans hdata) (by simp)
  · rintro job hjob - e he
    cases hjob
    obtain rfl : ⟨[], 0⟩ = e := Option.some.inj he
    refine ⟨fun h => absurd h (by decide), fun h => absurd h (by decide), fun _ h hh _ => ?_,
      fun _ h hh _ => ?_⟩
    · cases hh
      decide
    · cases hh
      decide
  · rintro job hjob - c hc data hdata
    cases hjob
    obtain rfl : ⟨[], 0⟩ = c := Option.some.inj hc
    obtain rfl : [3] = data := Option.some.inj hdata
    decide

/-- The first block puts the `.download` of the earlier run in place. -/
theorem stale_download_in_place : ∃ st,
    Run (Steps (step id ['d'] Codec.plain)) (start oneFile staleDisk) [oneBlock [3]] st ∧
      ¬ st.InPlace id ['d'] staleDisk oneFile.files := by
  refine ⟨_, .cons rfl (.nil _), ?_⟩
  intro h
  have := h _ (List.mem_singleton_self _)
  revert this
  decide

end Receiver

end RustDesk.FileTransfer
