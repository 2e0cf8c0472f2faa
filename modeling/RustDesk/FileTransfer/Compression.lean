import RustDesk.FileTransfer.Faultless
import RustDesk.FileTransfer.JobFaults

/-!
# Compressed blocks

References: `libs/hbb_common/src/compress.rs` (`compress`, `decompress`), `libs/hbb_common/src/fs.rs`
(`TransferJob::read`, `TransferJob::write`). Both wrappers turn a failure into an empty vector. `read`
takes what is shorter than the data for its compression, so that a compressor that fails has compressed
the block to nothing; `write` appends what comes out of `decompress`.

One file goes from a sender to a receiver, on disks where nothing fails. Every call of the library may
fail on its own.
-/

namespace RustDesk.FileTransfer

/-! ## The library -/

/-- One call of the `zstd` compressor and the call of its decompressor for the same block. Either may
fail; what comes out of a compression is what went in; nothing is decompressed to nothing, or not at
all. -/
structure ZstdCall where
  compress : Bytes → Option Bytes
  decompress : Bytes → Option Bytes
  inverts : ∀ data z out, compress data = some z → decompress z = some out → out = data
  nothing : ∀ out, decompress [] = some out → out = []

namespace ZstdCall

/-- The wrappers `compress` and `decompress`. -/
def codec (base : Codec) (call : ZstdCall) : Codec where
  compress data := (call.compress data).getD []
  decompress data := (call.decompress data).getD []
  digestToJson := base.digestToJson
  digestFromJson := base.digestFromJson

/-- A block of data survives: it is not compressed, its compression is no shorter, or it is compressed
and decompressed. -/
def Survives (call : ZstdCall) (name : Path) (data : Bytes) : Prop :=
  TransferJob.isCompressedFile name = true ∨
    ∃ z, call.compress data = some z ∧ (data.length ≤ z.length ∨ call.decompress z ≠ none)

/-- What the receiver gets of a block of data: all of it if it survives, and nothing else. -/
theorem payload_packBlock (base : Codec) (call : ZstdCall) {job : TransferJob Handle} {p : Path}
    (hsource : job.dataSource = .filePath p) (name : Path) {data : Bytes} (hdata : data ≠ []) (id n : ℤ) :
    let packed := job.packBlock (call.codec base) name data
    (call.Survives name data → payload (call.codec base) ⟨id, n, packed.1, packed.2⟩ = data) ∧
      (¬ call.Survives name data → payload (call.codec base) ⟨id, n, packed.1, packed.2⟩ = []) := by
  have hlength : 0 < data.length := List.length_pos_iff.mpr hdata
  rw [TransferJob.packBlock, hsource]
  dsimp only
  by_cases hname : TransferJob.isCompressedFile name = true
  · rw [if_pos hname]
    exact ⟨fun _ => rfl, fun h => absurd (.inl hname) h⟩
  · rw [if_neg hname]
    cases hz : call.compress data with
    | none =>
      -- the failure is an empty vector, which is shorter than the data
      have hcodec : (call.codec base).compress data = [] := by simp [codec, hz]
      rw [hcodec, if_pos (show ([] : Bytes).length < data.length from hlength)]
      have hempty : payload (call.codec base) ⟨id, n, [], true⟩ = [] := by
        show (call.decompress []).getD [] = []
        cases hout : call.decompress [] with
        | none => rfl
        | some out => exact call.nothing out hout
      refine ⟨?_, fun _ => hempty⟩
      rintro (hcompressed | ⟨z, hz', -⟩)
      · exact absurd hcompressed hname
      · rw [hz] at hz'
        cases hz'
    | some z =>
      have hcodec : (call.codec base).compress data = z := by simp [codec, hz]
      rw [hcodec]
      by_cases hshorter : z.length < data.length
      · rw [if_pos hshorter]
        have hpayload : payload (call.codec base) ⟨id, n, z, true⟩ = (call.decompress z).getD [] := rfl
        rw [hpayload]
        cases hout : call.decompress z with
        | none =>
          refine ⟨?_, fun _ => rfl⟩
          rintro (hcompressed | ⟨z', hz', hlonger | hsome⟩)
          · exact absurd hcompressed hname
          · cases hz.symm.trans hz'
            omega
          · cases hz.symm.trans hz'
            exact absurd hout hsome
        | some out =>
          refine ⟨fun _ => call.inverts data z out hz hout, fun h => absurd ?_ h⟩
          exact .inr ⟨z, hz, .inr (by rw [hout]; exact Option.some_ne_none out)⟩
      · rw [if_neg hshorter]
        exact ⟨fun _ => rfl, fun h => absurd (.inr ⟨z, hz, .inl (Nat.le_of_not_lt hshorter)⟩) h⟩

end ZstdCall

/-! ## One file -/

/-- A file on the disk of a sender, and where it goes to. -/
structure Outgoing (S L : Type*) where
  source : Disk S
  sourceLoc : Path → S
  /-- the file at the sender -/
  node : ℕ
  loc : Path → L
  base : Path
  files : List FileEntry
  /-- its entry at the receiver -/
  entry : FileEntry
  codec : Codec

/-- The two jobs while the file is sent: how many bytes `read` has taken out of the file, and what
`write` has appended. -/
structure Sending (L : Type*) where
  sender : TransferJob Handle
  receiver : TransferJob Handle
  disk : Disk L
  taken : ℕ
  appended : Bytes
  /-- the errors that either side reports -/
  reported : List String
  ended : Bool

/-- A read and the write of its block: what `zstd` does to it, and how the disks behave. -/
structure BlockCall where
  call : ZstdCall
  chunk : ℕ
  now : ℕ

namespace Outgoing

variable {S L : Type*} [DecidableEq S] [DecidableEq L] (D : Outgoing S L)

/-- What the file holds. -/
def bytes : Bytes := (D.source.val D.node).bytes

/-- One block: `read`, and `write` of what it returns. A block without data that is not compressed is
the end of the file. -/
def step (st : Sending L) (a : BlockCall) : Option (Sending L) :=
  let senderFs := diskFs D.sourceLoc (.faultless a.chunk a.now)
  let receiverFs := diskFs D.loc (.faultless a.chunk a.now)
  if st.ended then none
  else
    match st.sender.read senderFs (a.call.codec D.codec) D.source with
    | (.error e, sender) =>
      some { st with sender := sender, reported := st.reported ++ [e], ended := true }
    | (.ok none, sender) => some { st with sender := sender }
    | (.ok (some block), sender) =>
      match st.receiver.write receiverFs (a.call.codec D.codec) st.disk block with
      | (.error e, receiver, disk) =>
        some { st with
          sender := sender, receiver := receiver, disk := disk, reported := st.reported ++ [e]
          ended := true }
      | (.ok (), receiver, disk) =>
        some { st with
          sender := sender, receiver := receiver, disk := disk
          taken := st.taken + CountedJob.readLength senderFs D.source st.sender
          appended := st.appended ++ payload (a.call.codec D.codec) block
          ended := block.data = [] ∧ block.compressed = false }

/-- The file is open at the sender, at its start, and the receiver has not opened it. -/
structure Start (st : Sending L) : Prop where
  source : ∃ p, st.sender.dataSource = .filePath p
  named : ∃ name, st.sender.currentName = some name
  stream : st.sender.dataStream = some (.fileStream ⟨D.node, 0, false⟩)
  confirmed : ¬ (st.sender.type = .generic ∧ st.sender.enableOverwriteDetection = true ∧
    ¬ st.sender.fileConfirmed = true)
  id : st.sender.id = st.receiver.id
  receiver : WritesUnder D.base D.files st.receiver
  unopened : st.receiver.dataStream = none
  entry : D.files[asUsize st.sender.fileNum]? = some D.entry
  accepted : Accepted D.entry
  own : OwnFiles D.loc D.base D.entry
  taken : st.taken = 0
  appended : st.appended = []
  reported : st.reported = []
  ended : st.ended = false

/-- The data that the next read takes out of the file survives. -/
def BlockSurvives (st : Sending L) (a : BlockCall) : Prop :=
  ∀ name stream data stream', st.sender.currentName = some name → st.sender.dataStream = some stream →
    TransferJob.readLoop (diskFs D.sourceLoc (.faultless a.chunk a.now)) D.source
      (TransferJob.bufSize + 1) stream TransferJob.bufSize [] = (.ok data, stream') →
    data ≠ [] → a.call.Survives name data

/-- What holds of the two jobs until the end of the file. -/
structure Under (st : Sending L) : Prop where
  source : ∃ p, st.sender.dataSource = .filePath p
  named : ∃ name, st.sender.currentName = some name
  stream : st.sender.dataStream = some (.fileStream ⟨D.node, st.taken, false⟩)
  confirmed : ¬ (st.sender.type = .generic ∧ st.sender.enableOverwriteDetection = true ∧
    ¬ st.sender.fileConfirmed = true)
  id : st.sender.id = st.receiver.id
  receiver : WritesUnder D.base D.files st.receiver
  entry : D.files[asUsize st.sender.fileNum]? = some D.entry
  written : st.receiver.dataStream = none ∧ st.appended = [] ∨
    ∃ i, st.receiver.dataStream = some (.fileStream ⟨i, st.appended.length, true⟩) ∧
      st.receiver.fileNum = st.sender.fileNum ∧
      st.disk.node (downloadOf D.loc D.base D.entry) = some i ∧
      st.disk.content (downloadOf D.loc D.base D.entry) = some st.appended
  ended : st.ended = false

/-- What holds at the end of the file. -/
structure Over (st : Sending L) : Prop where
  taken : st.taken = D.bytes.length
  content : st.disk.content (downloadOf D.loc D.base D.entry) = some st.appended
  ended : st.ended = true

/-- **The invariant.** -/
structure Inv (st : Sending L) : Prop where
  taken : st.taken ≤ D.bytes.length
  short : st.appended.length ≤ st.taken
  reported : st.reported = []
  phase : D.Under st ∨ D.Over st

variable {D} {st st' : Sending L} {a : BlockCall}

omit [DecidableEq L] in
/-- What a read takes out of the file. -/
theorem readLoop_spec (D : Outgoing S L) (a : BlockCall) {taken : ℕ} (htaken : taken ≤ D.bytes.length) :
    ∃ data, TransferJob.readLoop (diskFs D.sourceLoc (.faultless a.chunk a.now)) D.source
        (TransferJob.bufSize + 1) (.fileStream ⟨D.node, taken, false⟩) TransferJob.bufSize [] =
        (.ok data, .fileStream ⟨D.node, taken + data.length, false⟩) ∧
      taken + data.length ≤ D.bytes.length ∧
      D.bytes.take (taken + data.length) = D.bytes.take taken ++ data ∧
      (data = [] → D.bytes.length ≤ taken) := by
  obtain ⟨data, hloop, hprefix, hend⟩ := readLoop_faultless D.sourceLoc a.chunk a.now D.source D.node
    (TransferJob.bufSize + 1) taken TransferJob.bufSize []
  obtain ⟨rest, hrest⟩ := hprefix
  have hrest : data ++ rest = D.bytes.drop taken := hrest
  refine ⟨data, hloop, ?_, ?_, fun hnil => ?_⟩
  · have hlength := congrArg List.length hrest
    rw [List.length_append, List.length_drop] at hlength
    omega
  · rw [List.take_add, ← hrest, List.take_left]
  · exact List.drop_eq_nil_iff.mp (hend (Nat.succ_pos _) (by decide) hnil)

omit [DecidableEq S] in
/-- The write of a block: it opens the file or goes on with it. -/
theorem Under.write (h : D.Under st) (haccepted : Accepted D.entry) (hown : OwnFiles D.loc D.base D.entry)
    (codec : Codec) (a : BlockCall) {block : FileTransferBlock} (hid : block.id = st.sender.id)
    (hnum : block.fileNum = st.sender.fileNum) :
    ∃ i disk, st.receiver.write (diskFs D.loc (.faultless a.chunk a.now)) codec st.disk block =
        (.ok (), { st.receiver with
          fileNum := block.fileNum
          dataStream := some (.fileStream ⟨i, (st.appended ++ payload codec block).length, true⟩) }, disk) ∧
      disk.node (downloadOf D.loc D.base D.entry) = some i ∧
      disk.content (downloadOf D.loc D.base D.entry) = some (st.appended ++ payload codec block) := by
  have hid : block.id = st.receiver.id := hid.trans h.id
  have hentry : D.files[asUsize block.fileNum]? = some D.entry := hnum ▸ h.entry
  obtain ⟨hnone, happended⟩ | ⟨i, hstream, hsame, hnode, hcontent⟩ := h.written
  · obtain ⟨i, disk, hwrite, hnode, hcontent, -⟩ := write_opening_faultless a.chunk a.now codec h.receiver
      haccepted hown hid hentry (.inr (by rw [hnone]; rfl)) st.disk
    rw [happended, List.nil_append]
    exact ⟨i, disk, hwrite, hnode, hcontent⟩
  · have hsame : block.fileNum = st.receiver.fileNum := hnum.trans hsame.symm
    obtain ⟨disk, hwrite, hnode', hcontent', -⟩ := write_going_on_faultless a.chunk a.now codec h.receiver
      hid hentry hsame hstream hnode hcontent (Nat.le_refl _)
    refine ⟨i, disk, ?_, hnode', ?_⟩
    · rw [hwrite, hsame, List.length_append]
    · rw [hcontent', List.take_length, List.drop_eq_nil_of_le (Nat.le_add_right _ _), List.append_nil]

/-- A read that is not at the end of the file sends a block of data. -/
theorem Under.step_data (h : D.Under st) (haccepted : Accepted D.entry)
    (hown : OwnFiles D.loc D.base D.entry) {data : Bytes}
    (hloop : TransferJob.readLoop (diskFs D.sourceLoc (.faultless a.chunk a.now)) D.source
        (TransferJob.bufSize + 1) (.fileStream ⟨D.node, st.taken, false⟩) TransferJob.bufSize [] =
        (.ok data, .fileStream ⟨D.node, st.taken + data.length, false⟩))
    (hdata : data ≠ []) :
    ∃ st' block, D.step st a = some st' ∧ D.Under st' ∧ st'.taken = st.taken + data.length ∧
      st'.reported = st.reported ∧ st'.appended = st.appended ++ payload (a.call.codec D.codec) block ∧
      (D.BlockSurvives st a → payload (a.call.codec D.codec) block = data) ∧
      (¬ D.BlockSurvives st a → payload (a.call.codec D.codec) block = []) := by
  obtain ⟨p, hp⟩ := h.source
  obtain ⟨name, hname⟩ := h.named
  -- the block that `read` returns
  let packed := st.sender.packBlock (a.call.codec D.codec) name data
  let block : FileTransferBlock := ⟨st.sender.id, st.sender.fileNum, packed.1, packed.2⟩
  have hread : st.sender.read (diskFs D.sourceLoc (.faultless a.chunk a.now)) (a.call.codec D.codec)
      D.source = (.ok (some block), { st.sender with
        dataStream := some (.fileStream ⟨D.node, st.taken + data.length, false⟩) }) := by
    unfold TransferJob.read
    rw [if_neg h.confirmed, hname, h.stream]
    dsimp only
    rw [hloop]
    cases data with
    | nil => exact absurd rfl hdata
    | cons b data => rfl
  have hlength : CountedJob.readLength (diskFs D.sourceLoc (.faultless a.chunk a.now)) D.source
      st.sender = data.length := by
    unfold CountedJob.readLength
    rw [if_neg h.confirmed, hname, h.stream]
    dsimp only
    rw [hloop]
  have hsurvives : D.BlockSurvives st a ↔ a.call.Survives name data := by
    constructor
    · exact fun hall => hall name _ data _ hname h.stream hloop hdata
    · intro hone name' stream' data' left hname' hstream' hloop' _
      cases hname.symm.trans hname'
      cases h.stream.symm.trans hstream'
      rw [hloop] at hloop'
      obtain rfl := Except.ok.inj (Prod.mk.inj hloop').1
      exact hone
  have hnotend : ¬ (block.data = [] ∧ block.compressed = false) := by
    rintro ⟨hnil, hplain⟩
    have hpack : packed.1 = [] := hnil
    have hflag : packed.2 = false := hplain
    simp only [packed, TransferJob.packBlock, hp] at hpack hflag
    split at hpack
    · exact hdata hpack
    · split at hpack
      next hshorter => simp_all
      · exact hdata hpack
  obtain ⟨i, disk, hwrite, hnode, hcontent⟩ :=
    h.write haccepted hown (a.call.codec D.codec) a (show block.id = st.sender.id from rfl) rfl
  obtain ⟨hkept, hlost⟩ := ZstdCall.payload_packBlock D.codec a.call hp name hdata st.sender.id
    st.sender.fileNum
  refine ⟨{ st with
      sender := { st.sender with
        dataStream := some (.fileStream ⟨D.node, st.taken + data.length, false⟩) }
      receiver := { st.receiver with
        fileNum := block.fileNum
        dataStream := some (.fileStream ⟨i, (st.appended ++ payload (a.call.codec D.codec) block).length, true⟩) }
      disk := disk
      taken := st.taken + data.length
      appended := st.appended ++ payload (a.call.codec D.codec) block }, block, ?_, ?_, rfl, rfl, rfl,
    fun hok => hkept (hsurvives.mp hok), fun hnot => hlost fun hok => hnot (hsurvives.mpr hok)⟩
  · unfold Outgoing.step
    rw [if_neg (by rw [h.ended]; exact Bool.false_ne_true), hread]
    dsimp only
    rw [hwrite, hlength]
    rw [decide_eq_false hnotend, h.ended]
  · exact {
      source := h.source, named := h.named, stream := rfl, confirmed := h.confirmed, id := h.id
      entry := h.entry, ended := h.ended
      receiver := ⟨h.receiver.type, h.receiver.dataSource, h.receiver.files, by rintro _ _ ⟨⟩⟩
      written := .inr ⟨i, rfl, rfl, hnode, hcontent⟩ }

/-- A read at the end of the file sends the block that says so. -/
theorem Under.step_end (h : D.Under st) (haccepted : Accepted D.entry)
    (hown : OwnFiles D.loc D.base D.entry) {stream : DataStream Handle}
    (hloop : TransferJob.readLoop (diskFs D.sourceLoc (.faultless a.chunk a.now)) D.source
        (TransferJob.bufSize + 1) (.fileStream ⟨D.node, st.taken, false⟩) TransferJob.bufSize [] =
        (.ok [], stream)) :
    ∃ st', D.step st a = some st' ∧ st'.taken = st.taken ∧ st'.reported = st.reported ∧
      st'.appended = st.appended ∧ st'.ended = true ∧
      st'.disk.content (downloadOf D.loc D.base D.entry) = some st'.appended := by
  obtain ⟨p, hp⟩ := h.source
  obtain ⟨name, hname⟩ := h.named
  let block : FileTransferBlock := ⟨st.sender.id, st.sender.fileNum, [], false⟩
  have hread : st.sender.read (diskFs D.sourceLoc (.faultless a.chunk a.now)) (a.call.codec D.codec)
      D.source = (.ok (some block), { st.sender with dataStream := none }.leaveFile) := by
    unfold TransferJob.read
    rw [if_neg h.confirmed, hname, h.stream]
    dsimp only
    rw [hloop]
    rw [hp]
  have hlength : CountedJob.readLength (diskFs D.sourceLoc (.faultless a.chunk a.now)) D.source
      st.sender = 0 := by
    unfold CountedJob.readLength
    rw [if_neg h.confirmed, hname, h.stream]
    dsimp only
    rw [hloop]
    rfl
  obtain ⟨i, disk, hwrite, -, hcontent⟩ :=
    h.write haccepted hown (a.call.codec D.codec) a (show block.id = st.sender.id from rfl) rfl
  have hpayload : payload (a.call.codec D.codec) block = [] := rfl
  rw [hpayload, List.append_nil] at hwrite hcontent
  refine ⟨{ st with
      sender := { st.sender with dataStream := none }.leaveFile
      receiver := { st.receiver with
        fileNum := block.fileNum
        dataStream := some (.fileStream ⟨i, st.appended.length, true⟩) }
      disk := disk
      ended := true }, ?_, rfl, rfl, rfl, rfl, hcontent⟩
  unfold Outgoing.step
  rw [if_neg (by rw [h.ended]; exact Bool.false_ne_true), hread]
  dsimp only
  rw [hwrite, hlength]
  rw [hpayload, List.append_nil]
  rfl

/-- What was appended is what was read. -/
def Kept (D : Outgoing S L) (st : Sending L) : Prop := st.appended = D.bytes.take st.taken

/-- **The step lemma.** A block that is lost is missed for good, since nothing makes up for its length. -/
theorem Inv.step (haccepted : Accepted D.entry) (hown : OwnFiles D.loc D.base D.entry)
    (hinv : D.Inv st) (hstep : D.step st a = some st') :
    D.Inv st' ∧ (D.Kept st' ↔ D.Kept st ∧ D.BlockSurvives st a) := by
  obtain hunder | hover := hinv.phase
  · obtain ⟨data, hloop, hle, htake, hend⟩ := readLoop_spec D a hinv.taken
    by_cases hdata : data = []
    · subst hdata
      obtain ⟨left, hleft, htaken, hreported, happended, hended, hcontent⟩ :=
        hunder.step_end haccepted hown hloop
      obtain rfl := Option.some.inj (hleft.symm.trans hstep)
      have hall : left.taken = D.bytes.length := htaken.trans (Nat.le_antisymm hinv.taken (hend rfl))
      refine ⟨⟨Nat.le_of_eq hall, ?_, hreported.trans hinv.reported, .inr ⟨hall, hcontent, hended⟩⟩, ?_⟩
      · rw [happended, htaken]
        exact hinv.short
      · have hnothing : D.BlockSurvives st a := by
          intro name stream data' left' _ hstream' hloop' hne
          obtain rfl := Option.some.inj (hunder.stream.symm.trans hstream')
          rw [hloop] at hloop'
          exact absurd (Except.ok.inj (Prod.mk.inj hloop').1).symm hne
        rw [Kept, Kept, happended, htaken]
        exact (and_iff_left hnothing).symm
    · obtain ⟨next, block, hnext, hunder', htaken, hreported, happended, hkept, hlost⟩ :=
        hunder.step_data haccepted hown hloop hdata
      obtain rfl := Option.some.inj (hnext.symm.trans hstep)
      have hlength : 0 < data.length := List.length_pos_iff.mpr hdata
      have hshort := hinv.short
      by_cases hsurvives : D.BlockSurvives st a
      · rw [hkept hsurvives] at happended
        refine ⟨⟨htaken ▸ hle, ?_, hreported.trans hinv.reported, .inl hunder'⟩, ?_⟩
        · rw [happended, htaken, List.length_append]
          omega
        · rw [Kept, Kept, happended, htaken, htake, List.append_left_inj]
          exact (and_iff_left hsurvives).symm
      · rw [hlost hsurvives, List.append_nil] at happended
        refine ⟨⟨htaken ▸ hle, ?_, hreported.trans hinv.reported, .inl hunder'⟩, ?_⟩
        · rw [happended, htaken]
          omega
        · refine iff_of_false (fun hsame => ?_) fun h => hsurvives h.2
          -- what was appended is shorter than what was read
          have hlengths := congrArg List.length hsame
          rw [happended, List.length_take, htaken] at hlengths
          omega
  · unfold Outgoing.step at hstep
    rw [if_pos hover.ended] at hstep
    cases hstep

omit [DecidableEq S] [DecidableEq L] in
theorem Start.inv (h : D.Start st) : D.Inv st where
  taken := h.taken ▸ Nat.zero_le _
  short := by rw [h.appended, h.taken]; exact Nat.le_refl _
  reported := h.reported
  phase := .inl {
    source := h.source, named := h.named, stream := h.taken ▸ h.stream, confirmed := h.confirmed
    id := h.id, receiver := h.receiver, entry := h.entry
    written := .inl ⟨h.unopened, h.appended⟩, ended := h.ended }

/-- **Compression loses no data just if every block survives it**: whatever the file holds and is called,
and whichever calls of the library fail, at the end of the file the receiver has written all of it, or
an error was reported, if and only if every block of data survives. -/
theorem whole_iff (D : Outgoing S L) {st₀ : Sending L} (hstart : D.Start st₀) {calls : List BlockCall}
    (hrun : Run (Steps D.step) st₀ calls st) (hended : st.ended = true) :
    (st.disk.content (downloadOf D.loc D.base D.entry) = some D.bytes ∨ st.reported ≠ []) ↔
      Run (Only D.BlockSurvives (Steps D.step)) st₀ calls st := by
  have hstep := fun s a t (hs : D.Inv s) (h : D.step s a = some t) =>
    hs.step hstart.accepted hstart.own h
  have hinv : D.Inv st := hrun.invariant (fun s a t hs h => (hstep s a t hs h).1) hstart.inv
  have hkept := hrun.holds_iff_only (fun s a t hs h => (hstep s a t hs h).1)
    (fun s a t hs h => (hstep s a t hs h).2) hstart.inv
  have hfirst : D.Kept st₀ := by
    rw [Kept, hstart.appended, hstart.taken]
    rfl
  rw [and_iff_right hfirst] at hkept
  rw [← hkept, or_iff_left (not_not.mpr hinv.reported)]
  obtain hunder | hover := hinv.phase
  · rw [hunder.ended] at hended
    cases hended
  · rw [hover.content, Kept, hover.taken, List.take_length]
    exact Option.some_inj

/-! ## A file of one byte -/

/-- A compressor that fails. -/
def failing : ZstdCall where
  compress _ := none
  decompress _ := none
  inverts _ _ _ h := by cases h
  nothing _ h := by cases h

/-- A frame of one stored block, as `zstd` makes it of a few bytes. -/
def stored : ZstdCall where
  compress data :=
    if data.length < 16 then
      some ([0x28, 0xB5, 0x2F, 0xFD, 0x20, .ofNat data.length, .ofNat (8 * data.length + 1), 0, 0] ++ data)
    else none
  decompress z := some (z.drop 9)
  inverts data z out h hout := by
    split at h
    · cases h
      exact (Option.some.inj hout).symm
    · cases h
  nothing out h := (Option.some.inj h).symm

/-- The file `d` of one byte, from one machine to another. -/
def oneByte : Outgoing Path Path where
  source := Receiver.oneFileDisk
  sourceLoc := id
  node := 0
  loc := id
  base := ['d']
  files := Receiver.oneFile.files
  entry := ⟨[], 0⟩
  codec := .plain

/-- The file is open at the sender. -/
def oneByteOpen : Sending Path where
  sender := { (.newRead 1 .generic (.filePath ['d']) [⟨[], 0⟩] 0 false : TransferJob Handle) with
    dataStream := some (.fileStream ⟨0, 0, false⟩) }
  receiver := Receiver.oneFile
  disk := Receiver.oneFileDisk
  taken := 0
  appended := []
  reported := []
  ended := false

theorem oneByte_start : oneByte.Start oneByteOpen where
  source := ⟨_, rfl⟩
  named := ⟨_, rfl⟩
  stream := rfl
  confirmed h := by cases h.2.1
  id := rfl
  receiver := Receiver.oneFile_writes
  unopened := rfl
  entry := rfl
  accepted := ⟨rfl, fun h => absurd rfl h⟩
  own := by constructor <;> decide
  taken := rfl
  appended := rfl
  reported := rfl
  ended := rfl

/-- The compression of one byte is longer than that, and the byte arrives. -/
theorem whole_iff_stored : ∃ st,
    Run (Only oneByte.BlockSurvives (Steps oneByte.step)) oneByteOpen
      [⟨stored, 0, 0⟩, ⟨stored, 0, 0⟩] st ∧
      st.disk.content (downloadOf oneByte.loc oneByte.base oneByte.entry) = some [1] := by
  obtain ⟨st, hrun, hended, hcontent⟩ : ∃ st,
      Run (Steps oneByte.step) oneByteOpen [⟨stored, 0, 0⟩, ⟨stored, 0, 0⟩] st ∧ st.ended = true ∧
        st.disk.content (downloadOf oneByte.loc oneByte.base oneByte.entry) = some [1] :=
    ⟨_, exec_eq_some_iff.mp rfl, by decide +kernel, by decide +kernel⟩
  exact ⟨st, (whole_iff oneByte oneByte_start hrun hended).mp (.inl hcontent), hcontent⟩

/-- The compressor fails, and the receiver has an empty file that nobody complains about. -/
theorem failed_compression_is_silent : ∃ st,
    Run (Steps oneByte.step) oneByteOpen [⟨failing, 0, 0⟩, ⟨failing, 0, 0⟩] st ∧ st.ended = true ∧
      st.disk.content (downloadOf oneByte.loc oneByte.base oneByte.entry) = some [] ∧
      oneByte.bytes = [1] ∧ st.reported = [] :=
  ⟨_, exec_eq_some_iff.mp rfl, by decide +kernel, by decide +kernel, rfl, by decide +kernel⟩

end Outgoing

end RustDesk.FileTransfer
