import RustDesk.FileTransfer.InPlace

/-!
# Disks without faults

What the operations of a job leave where nothing fails: a read goes on with its file, and a block goes on
with its `.download`, or opens it.
-/

namespace RustDesk.FileTransfer

namespace Disk

variable {L : Type*} {loc : Path → L} {chunk now : ℕ} {s : Disk L} {p q : Path} {l : L}

theorem metadata_isOk : (s.metadata loc (.faultless chunk now) p).isOk = true ↔ s.content (loc p) ≠ none := by
  unfold metadata content
  cases s.get (loc p) <;> simp [DiskEnv.faultless, Except.isOk, Except.toBool]

/-- Where there is no link, a component of a path is a directory, a file, or missing. -/
theorem symlinkMetadata_cases [DecidableEq L] (loc : Path → L) (chunk now : ℕ) (s : Disk L) (p : Path) :
    (diskFs loc (.faultless chunk now)).symlinkMetadata s p = .ok false ∨
      (diskFs loc (.faultless chunk now)).symlinkMetadata s p = .error noSuchFile := by
  show (s.metadata loc (.faultless chunk now) p).map _ = _ ∨ (s.metadata loc _ p).map _ = _
  unfold metadata
  cases s.get (loc p) with
  | none => exact .inr rfl
  | some f => exact .inl rfl

/-! ## Content -/

variable [DecidableEq L]

theorem create_faultless (chunk now : ℕ) (s : Disk L) (p : Path) :
    ∃ h s', s.create loc (.faultless chunk now) p = (.ok h, s') ∧ h.pos = 0 ∧ h.writable = true ∧
      s'.node (loc p) = some h.node ∧ s'.content (loc p) = some [] ∧
      ∀ l ≠ loc p, s'.content l = s.content l := by
  obtain ⟨⟨res, s'⟩, hcreate⟩ : ∃ r, s.create loc (.faultless chunk now) p = r := ⟨_, rfl⟩
  cases res with
  | error e => cases congrArg Prod.fst hcreate
  | ok h =>
    obtain ⟨hpos, hwritable, hnode, hempty⟩ := create_spec (congrArg Prod.fst hcreate)
    rw [hcreate] at hnode hempty
    refine ⟨h, s', hcreate, hpos, hwritable, hnode, hempty, fun l hl => ?_⟩
    have hframe := create_frame (.faultless chunk now) s hl
    rw [hcreate] at hframe
    exact hframe.1

omit [DecidableEq L] in
/-- Bytes that are written to an open file, inside it or at its end. -/
theorem writeAll_faultless (chunk now : ℕ) {h : Handle} {old : Bytes} (hwritable : h.writable = true)
    (hnode : s.node l = some h.node) (hold : s.content l = some old) (hpos : h.pos ≤ old.length)
    (data : Bytes) :
    ∃ s', s.writeAll (.faultless chunk now) h data =
        (.ok (), { h with pos := h.pos + data.length }, s') ∧ s'.node = s.node ∧
      s'.content l = some (old.take h.pos ++ data ++ old.drop (h.pos + data.length)) ∧
      ∀ l' ≠ l, s'.content l' = s.content l' := by
  unfold writeAll
  by_cases hdata : data = []
  · subst hdata
    exact ⟨s, rfl, rfl, by simp [hold], fun _ _ => rfl⟩
  · have hval : (s.val h.node).bytes = old := by
      rw [content_of_node hnode] at hold
      exact Option.some.inj hold
    rw [if_neg hdata, hwritable]
    refine ⟨_, rfl, rfl, ?_, fun l' hl' => content_put_of_ne hnode hl'⟩
    rw [content_put hnode, hval, TransferJob.overwrite, Nat.sub_eq_zero_of_le hpos]
    simp

end Disk

/-! ## A file that is read -/

section Reading

variable {L : Type*} [DecidableEq L]

/-- A read that is not at the end of its file goes on with it. -/
theorem readLoop_faultless (loc : Path → L) (chunk now : ℕ) (s : Disk L) (i fuel pos room : ℕ) (buf : Bytes) :
    ∃ data, TransferJob.readLoop (diskFs loc (.faultless chunk now)) s fuel (.fileStream ⟨i, pos, false⟩)
        room buf = (.ok (buf ++ data), .fileStream ⟨i, pos + data.length, false⟩) ∧
      data <+: (s.val i).bytes.drop pos ∧
      (0 < fuel → 0 < room → data = [] → (s.val i).bytes.drop pos = []) := by
  induction fuel generalizing pos room buf with
  | zero => exact ⟨[], by simp [TransferJob.readLoop], List.nil_prefix, fun h => absurd h (by omega)⟩
  | succ fuel ih =>
    have hread : TransferJob.readStream (diskFs loc (.faultless chunk now)) s (.fileStream ⟨i, pos, false⟩) room =
        (.ok (((s.val i).bytes.drop pos).take (min room (chunk + 1))), .fileStream ⟨i,
          pos + (((s.val i).bytes.drop pos).take (min room (chunk + 1))).length, false⟩) := rfl
    rw [TransferJob.readLoop, hread]
    generalize hdata : ((s.val i).bytes.drop pos).take (min room (chunk + 1)) = data
    have hprefix : data <+: (s.val i).bytes.drop pos := hdata ▸ List.take_prefix ..
    have hend : 0 < room → data = [] → (s.val i).bytes.drop pos = [] := by
      intro hroom hnil
      rw [hnil, List.take_eq_nil_iff] at hdata
      exact hdata.resolve_left (by omega)
    dsimp only
    by_cases hstop : data = [] ∨ room - data.length = 0
    · rw [if_pos hstop]
      exact ⟨data, rfl, hprefix, fun _ => hend⟩
    · rw [if_neg hstop]
      obtain ⟨rest, hloop, hrest, -⟩ := ih (pos + data.length) (room - data.length) (buf ++ data)
      refine ⟨data ++ rest, ?_, ?_, fun _ _ hnil => ?_⟩
      · rw [hloop, List.append_assoc, List.length_append, Nat.add_assoc]
      · obtain ⟨more, hmore⟩ := hprefix
        rw [← List.drop_drop, ← hmore, List.drop_left] at hrest
        rw [← hmore]
        exact (List.prefix_append_right_inj data).mpr hrest
      · exact absurd (List.append_eq_nil_iff.mp hnil).1 fun h => hstop (.inl h)

end Reading

/-! ## A file that is written -/

section Writing

variable {L : Type*} [DecidableEq L] {loc : Path → L} {base : Path} {files : List FileEntry}
  {chunk now : ℕ} {s : Disk L} {codec : Codec} {job : TransferJob Handle} {e : FileEntry}

/-- A location that is none of a file and its companions. -/
def OffEntry (loc : Path → L) (base : Path) (e : FileEntry) (l : L) : Prop :=
  l ≠ target loc base e ∧ l ≠ downloadOf loc base e ∧ l ≠ digestOf loc base e

/-- The name of an entry is accepted, on a disk without links. -/
def Accepted (e : FileEntry) : Prop :=
  validateFileNameNoTraversal e.name = .ok () ∧
    (e.name ≠ [] → ∀ c ∈ components e.name, c ≠ .parentDir ∧ c ≠ .rootDir)

theorem validateComponents_normal (loc : Path → L) (chunk now : ℕ) (s : Disk L) (current seg : Path)
    (cs : List Component) :
    validateComponents (diskFs loc (.faultless chunk now)) s current (.normal seg :: cs) =
      validateComponents (diskFs loc (.faultless chunk now)) s (push current seg) cs := by
  rw [validateComponents]
  rcases Disk.symlinkMetadata_cases loc chunk now s (push current seg) with h | h
  · rw [h]
  · rw [h]
    rfl

/-- Whether a name is accepted does not depend on the disk. -/
theorem validateComponents_faultless (loc : Path → L) (chunk now : ℕ) (s : Disk L)
    (cs : List Component) (current : Path) :
    validateComponents (diskFs loc (.faultless chunk now)) s current cs = .ok () ↔
      ∀ c ∈ cs, c ≠ .parentDir ∧ c ≠ .rootDir := by
  induction cs generalizing current with
  | nil => simp [validateComponents]
  | cons c cs ih =>
    rw [List.forall_mem_cons]
    cases c with
    | normal seg =>
      rw [validateComponents_normal, ih]
      simp
    | curDir =>
      rw [validateComponents, ih]
      simp
    | parentDir | rootDir => simp [validateComponents]

theorem Accepted.joinValidatedPath (h : Accepted e) (loc : Path → L) (chunk now : ℕ) (s : Disk L) (base : Path) :
    joinValidatedPath (diskFs loc (.faultless chunk now)) s base e.name = .ok (join base e.name) := by
  have hlinks : validateNoSymlinkComponents (diskFs loc (.faultless chunk now)) s base e.name = .ok () := by
    unfold validateNoSymlinkComponents
    by_cases hempty : e.name = []
    · rw [if_pos hempty]
    · rw [if_neg hempty]
      exact (validateComponents_faultless loc chunk now s _ _).mpr (h.2 hempty)
  rw [FileTransfer.joinValidatedPath, h.1, hlinks]

/-- An entry and its companions are three files. -/
structure OwnFiles (loc : Path → L) (base : Path) (e : FileEntry) : Prop where
  download_target : downloadOf loc base e ≠ target loc base e
  digest_target : digestOf loc base e ≠ target loc base e
  digest_download : digestOf loc base e ≠ downloadOf loc base e

/-- A file that is opened for writing is empty and open at its start, behind the one that the job was
at. -/
theorem openForWrite_faultless (chunk now : ℕ) (codec : Codec) (hjob : WritesUnder base files job)
    (haccepted : Accepted e) (hown : OwnFiles loc base e) (fileNum : ℤ) (s : Disk L) :
    ∃ h s', job.openForWrite (diskFs loc (.faultless chunk now)) codec s base e fileNum =
        (.ok (), { job with fileNum := fileNum, dataStream := some (.fileStream h) }, s') ∧
      h.pos = 0 ∧ h.writable = true ∧ s'.node (downloadOf loc base e) = some h.node ∧
      s'.content (downloadOf loc base e) = some [] ∧
      ∀ l, OffEntry loc base e l → s'.content l =
        (job.modifyTime (diskFs loc (.faultless chunk now)) s).content l := by
  let s₁ := job.modifyTime (diskFs loc (.faultless chunk now)) s
  have hsync : job.syncStream (diskFs loc (.faultless chunk now)) s₁ = .ok () := by
    unfold TransferJob.syncStream
    split <;> rfl
  have hpaths : ({ job with fileNum := fileNum } : TransferJob Handle).writePaths
      (diskFs loc (.faultless chunk now)) s₁ base e.name =
      (.ok (join base e.name ++ downloadSuffix, some (join base e.name ++ digestSuffix)), s₁) := by
    unfold TransferJob.writePaths
    rw [hjob.type, haccepted.joinValidatedPath]
    dsimp only
    split <;> rfl
  obtain ⟨s₂, hdigest, hs₂⟩ : ∃ s₂, TransferJob.removeOldDigest (diskFs loc (.faultless chunk now)) s₁
      (some (join base e.name ++ digestSuffix)) = (.ok (), s₂) ∧
      ∀ l, OffEntry loc base e l → s₂.content l = s₁.content l := by
    unfold TransferJob.removeOldDigest
    dsimp only
    by_cases hexists : (diskFs loc (.faultless chunk now)).pathExists s₁ (join base e.name ++ digestSuffix) = true
    · rw [if_pos hexists]
      have hnode : s₁.node (loc (join base e.name ++ digestSuffix)) ≠ none := fun hnone =>
        Disk.metadata_isOk.mp hexists (Disk.content_eq_none.mpr hnone)
      obtain ⟨i, hi⟩ := Option.ne_none_iff_exists'.mp hnode
      have hremove : (diskFs loc (.faultless chunk now)).removeFile s₁ (join base e.name ++ digestSuffix) =
          (.ok (), s₁.unlink (loc (join base e.name ++ digestSuffix))) := by
        show Disk.removeFile loc (.faultless chunk now) s₁ _ = _
        unfold Disk.removeFile
        rw [hi]
        rfl
      rw [hremove]
      refine ⟨_, rfl, fun l hl => ?_⟩
      have hne : l ≠ loc (join base e.name ++ digestSuffix) := hl.2.2
      rw [Disk.content, Inodes.get_unlink_of_ne s₁ hne]
      rfl
    · rw [if_neg hexists]
      exact ⟨s₁, rfl, fun _ _ => rfl⟩
  obtain ⟨h, s₃, hcreate, hpos, hwritable, hnode, hempty, hs₃⟩ :=
    Disk.create_faultless chunk now s₂ (join base e.name ++ downloadSuffix)
  have hwrite := fun l (hl : l ≠ digestOf loc base e) =>
    Disk.write_frame (.faultless chunk now) s₃ (codec.digestToJson job.digest) hl
  have hdownload := hwrite _ hown.digest_download.symm
  refine ⟨h, _, ?_, hpos, hwritable, hdownload.2.trans hnode, hdownload.1.trans hempty,
    fun l hl => ?_⟩
  · have hcreate' : (diskFs loc (.faultless chunk now)).create s₂
        (join base e.name ++ downloadSuffix) = (.ok h, s₃) := hcreate
    unfold TransferJob.openForWrite
    simp only [s₁] at hsync hpaths hdigest
    simp only [hsync, hpaths, hdigest, hcreate']
    rfl
  · exact ((hwrite l hl.2.2).1.trans (hs₃ l hl.2.1)).trans (hs₂ l hl)

omit [DecidableEq L] in
theorem writeData_of_ok {fs : FileSystem (Disk L) Handle} {data : Bytes} {h h' : Handle} {s' : Disk L}
    (hstream : job.dataStream = some (.fileStream h)) (hwrite : fs.writeAll s h data = (.ok (), h', s')) :
    job.writeData fs s data = (.ok (), { job with dataStream := some (.fileStream h') }, s') := by
  unfold TransferJob.writeData
  rw [hstream]
  simp only [hwrite, Except.mapError]

/-- A block that opens its file leaves what it brings in the `.download`. -/
theorem write_opening_faultless (chunk now : ℕ) (codec : Codec) (hjob : WritesUnder base files job)
    (haccepted : Accepted e) (hown : OwnFiles loc base e) {block : FileTransferBlock} (hid : block.id = job.id)
    (he : files[asUsize block.fileNum]? = some e) (hopens : Opens job block) (s : Disk L) :
    ∃ i s', job.write (diskFs loc (.faultless chunk now)) codec s block = (.ok (), { job with
        fileNum := block.fileNum
        dataStream := some (.fileStream ⟨i, (payload codec block).length, true⟩) }, s') ∧
      s'.node (downloadOf loc base e) = some i ∧
      s'.content (downloadOf loc base e) = some (payload codec block) ∧
      ∀ l, OffEntry loc base e l → s'.content l =
        (job.modifyTime (diskFs loc (.faultless chunk now)) s).content l := by
  obtain ⟨h, s₁, hopen, hpos, hwritable, hnode, hempty, hs₁⟩ :=
    openForWrite_faultless chunk now codec hjob haccepted hown block.fileNum s
  obtain ⟨s', hwrite, hnode', hcontent, hs'⟩ :=
    Disk.writeAll_faultless chunk now hwritable hnode hempty (by simp [hpos]) (payload codec block)
  have hselect : job.selectStream (diskFs loc (.faultless chunk now)) codec s block =
      job.openForWrite (diskFs loc (.faultless chunk now)) codec s base e block.fileNum := by
    unfold TransferJob.selectStream
    rw [hjob.dataSource]
    rw [hjob.files, he]
    exact if_pos hopens
  have hwrite' : (diskFs loc (.faultless chunk now)).writeAll s₁ h (payload codec block) =
      (.ok (), ⟨h.node, (payload codec block).length, true⟩, s') := by
    show s₁.writeAll _ h _ = _
    rw [hwrite, ← hwritable, hpos, Nat.zero_add]
  refine ⟨h.node, s', ?_, by rw [hnode', hnode], by simpa [hpos] using hcontent, fun l hl => ?_⟩
  · unfold TransferJob.write
    rw [if_neg (not_not_intro hid), hselect, hopen]
    exact writeData_of_ok rfl hwrite'
  · exact (hs' l hl.2.1).trans (hs₁ l hl)

/-- A block that goes on with its file is written where the file is open. -/
theorem write_going_on_faultless (chunk now : ℕ) (codec : Codec) (hjob : WritesUnder base files job)
    {block : FileTransferBlock}
    (hid : block.id = job.id) (he : files[asUsize block.fileNum]? = some e)
    (hsame : block.fileNum = job.fileNum) {i pos : ℕ} {old : Bytes}
    (hstream : job.dataStream = some (.fileStream ⟨i, pos, true⟩))
    (hnode : s.node (downloadOf loc base e) = some i)
    (hold : s.content (downloadOf loc base e) = some old) (hpos : pos ≤ old.length) :
    ∃ s', job.write (diskFs loc (.faultless chunk now)) codec s block = (.ok (), { job with
        dataStream := some (.fileStream ⟨i, pos + (payload codec block).length, true⟩) }, s') ∧
      s'.node (downloadOf loc base e) = some i ∧
      s'.content (downloadOf loc base e) = some (old.take pos ++ payload codec block ++
        old.drop (pos + (payload codec block).length)) ∧
      ∀ l ≠ downloadOf loc base e, s'.content l = s.content l := by
  obtain ⟨s', hwrite, hnode', hcontent, hs'⟩ :=
    Disk.writeAll_faultless chunk now (rfl : Handle.writable ⟨i, pos, true⟩ = true) hnode hold hpos
      (payload codec block)
  have hselect : job.selectStream (diskFs loc (.faultless chunk now)) codec s block = (.ok (), job, s) := by
    have hopens : ¬ Opens job block := by
      rintro (hne | hnone)
      · exact hne (by rw [hsame])
      · rw [hstream] at hnone
        cases hnone
    unfold TransferJob.selectStream
    rw [hjob.dataSource]
    rw [hjob.files, he]
    exact if_neg hopens
  have hwrite' : (diskFs loc (.faultless chunk now)).writeAll s ⟨i, pos, true⟩
      (payload codec block) = (.ok (), ⟨i, pos + (payload codec block).length, true⟩, s') := hwrite
  refine ⟨s', ?_, by rw [hnode', hnode], hcontent, hs'⟩
  unfold TransferJob.write
  rw [if_neg (not_not_intro hid), hselect]
  exact writeData_of_ok hstream hwrite'

end Writing

end RustDesk.FileTransfer
