import Mathlib.Data.Int.Notation
import Mathlib.Data.List.Basic
import Mathlib.Tactic.Common

/-!
# Files that the clipboard serves

References: `libs/clipboard/src/platform/unix/local_file.rs` (`LocalFile`: `try_open`, `load_handle`,
`read_exact_at`, `invalidate_handle`).

A reader stays open between two reads of a file, and `offset` says where it is. What the files hold is `disk`; it does
not change while they are served. An operation of the file system may fail at any time, as `FileIo` says.
-/

namespace RustDesk.Clipboard

/-- A path, as its text. -/
abbrev Path := List Char

/-- `std::fs::Metadata`. The time counts nanoseconds from 1970 on, and is `none` where the system has none. -/
structure Metadata where
  len : UInt64
  isDir : Bool
  readonly : Bool
  modified : Option ℤ
  mode : UInt32

/-- `LocalFile`. The reader is where it reads next. -/
structure LocalFile where
  relativeRoot : Path
  path : Path
  handle : Option ℕ
  offset : ℕ
  size : UInt64
  lastWriteTime : ℤ
  isDir : Bool
  perm : UInt32
  readOnly : Bool
  hidden : Bool
  system : Bool
  archive : Bool
  normal : Bool
deriving DecidableEq

/-- Which operations of the file system succeed. -/
structure FileIo where
  opens : Path → Bool
  seeks : Bool
  reads : Bool
  isFile : Path → Bool

/-- `CliprdrError`, the errors of the handlers here. -/
inductive CliprdrError
  | fileError (path : Path)
  | invalidRequest (description : String)
  | conversionFailure
deriving DecidableEq

namespace LocalFile

/-- `try_open`, with the metadata of the path. -/
def tryOpen (relativeRoot path : Path) (metadata : Option Metadata) : Except CliprdrError LocalFile :=
  match metadata with
  | none => .error (.fileError path)
  | some mt =>
    let hidden : Bool := path.head? = some '.'
    .ok {
      relativeRoot
      path
      handle := none
      offset := 0
      size := mt.len
      lastWriteTime := mt.modified.getD 0
      isDir := mt.isDir
      perm := mt.mode
      readOnly := mt.readonly
      hidden
      system := false
      archive := false
      normal := ! (mt.isDir || mt.readonly || hidden) }

variable (disk : Path → List UInt8) (io : FileIo)

/-- `load_handle`. -/
def loadHandle (f : LocalFile) : Except CliprdrError Unit × LocalFile :=
  if ! f.isDir && f.handle.isNone then
    if io.opens f.path then (.ok (), { f with handle := some 0 }) else (.error (.fileError f.path), f)
  else (.ok (), f)

/-- `invalidate_handle`. -/
def invalidateHandle (f : LocalFile) : CliprdrError × LocalFile :=
  (.fileError f.path, { f with handle := none, offset := 0 })

/-- `read_exact` of so many bytes with the reader at `start`. Nothing is read for no bytes. -/
def readExact (f : LocalFile) (start len : ℕ) : Option (List UInt8) :=
  if len = 0 then some []
  else if io.reads ∧ start + len ≤ (disk f.path).length then some (((disk f.path).drop start).take len)
  else none

/-- `read_exact_at`, into a buffer of `len` bytes. -/
def readExactAt (f : LocalFile) (len offset : ℕ) : Except CliprdrError (List UInt8) × LocalFile :=
  match f.loadHandle io with
  | (.error e, f) => (.error e, f)
  | (.ok (), f) =>
    match f.handle with
    | none => (.error (.fileError f.path), f)
    | some position =>
      let start := if offset ≠ f.offset then if io.seeks then some offset else none else some position
      match start.bind fun start => (f.readExact disk io start len).map (start, ·) with
      | none => (.error f.invalidateHandle.1, f.invalidateHandle.2)
      | some (start, buf) =>
        let newOffset := offset + len
        -- the handle of a file that is read to its end is dropped
        if f.size.toNat ≤ newOffset then (.ok buf, { f with handle := none, offset := 0 })
        else (.ok buf, { f with handle := some (start + len), offset := newOffset })

/-! ## Where the reader is -/

/-- The stored offset is where the reader is, or 0 without a reader. -/
def Positioned (f : LocalFile) : Prop := f.offset = f.handle.getD 0

/-- The files differ in their readers only. -/
def SameFile (f g : LocalFile) : Prop := g = { f with handle := g.handle, offset := g.offset }

variable {disk io} {f g h : LocalFile} {len offset : ℕ} {buf : List UInt8}

theorem SameFile.refl (f : LocalFile) : SameFile f f := rfl

theorem SameFile.trans (hfg : SameFile f g) (hgh : SameFile g h) : SameFile f h := by
  unfold SameFile at *
  rw [hgh, hfg]

/-- A reader that is there, or can be opened. -/
theorem loadHandle_of_file (hfile : f.isDir = false) : f.loadHandle io =
      if f.handle = none ∧ io.opens f.path = false then (.error (.fileError f.path), f)
      else (.ok (), { f with handle := some (f.handle.getD 0) }) := by
  unfold loadHandle
  cases hhandle : f.handle with
  | none => cases io.opens f.path <;> simp [hfile]
  | some position =>
    have hsame : { f with handle := some ((some position).getD 0) } = f := by
      obtain ⟨⟩ := f
      cases hhandle
      rfl
    rw [if_neg (by simp), if_neg (by simp)]
    exact congrArg _ hsame.symm

theorem positioned_loadHandle (hf : f.Positioned) : (f.loadHandle io).2.Positioned := by
  unfold loadHandle
  cases hhandle : f.handle with
  | none =>
    have hoffset : f.offset = 0 := by rwa [Positioned, hhandle] at hf
    cases f.isDir <;> cases io.opens f.path <;> simp [Positioned, hhandle, hoffset]
  | some position => simpa using hf

theorem sameFile_loadHandle (f : LocalFile) (io : FileIo) : SameFile f (f.loadHandle io).2 := by
  unfold loadHandle
  split
  · split <;> rfl
  · rfl

/-- What a read needs from the file system. -/
structure Readable (io : FileIo) (f : LocalFile) (len offset : ℕ) : Prop where
  opens : f.handle = none → io.opens f.path = true
  seeks : offset ≠ f.offset → io.seeks = true
  reads : len ≠ 0 → io.reads = true

/-- **A read answers with the bytes from the offset on**, as far as the file system does its work. -/
theorem readExactAt_eq_ok_iff (hfile : f.isDir = false) (hf : f.Positioned)
    (hlen : offset + len ≤ (disk f.path).length) :
    (f.readExactAt disk io len offset).1 = .ok buf ↔
      Readable io f len offset ∧ buf = ((disk f.path).drop offset).take len := by
  have hexact (g : LocalFile) (hg : g.path = f.path) : g.readExact disk io offset len =
      if len ≠ 0 → io.reads = true then some (((disk f.path).drop offset).take len) else none := by
    unfold readExact
    rw [hg]
    by_cases hzero : len = 0
    · simp [hzero]
    · rw [if_neg hzero]
      simp [hzero, hlen]
  have hposition : f.handle.getD 0 = f.offset := hf.symm
  have hstart : (if offset ≠ f.offset then if io.seeks then some offset else none else some f.offset) =
      if offset ≠ f.offset → io.seeks = true then some offset else none := by
    by_cases hsame : offset = f.offset
    · simp [hsame]
    · simp [hsame]
  unfold readExactAt
  rw [loadHandle_of_file hfile]
  by_cases hopens : f.handle = none ∧ io.opens f.path = false
  · rw [if_pos hopens]
    exact ⟨nofun, fun h => absurd (h.1.opens hopens.1) (by simp [hopens.2])⟩
  · rw [if_neg hopens]
    dsimp only
    rw [hposition, hstart]
    by_cases hseeks : offset ≠ f.offset → io.seeks = true
    · rw [if_pos hseeks, Option.bind_some, hexact { f with handle := some f.offset } rfl]
      by_cases hreads : len ≠ 0 → io.reads = true
      · rw [if_pos hreads, Option.map_some]
        have hreadable : Readable io f len offset :=
          ⟨fun hnone => by simpa [hnone] using hopens, hseeks, hreads⟩
        dsimp only
        split <;> simp [hreadable, eq_comm]
      · rw [if_neg hreads]
        exact ⟨nofun, fun h => absurd h.1.reads hreads⟩
    · rw [if_neg hseeks]
      exact ⟨nofun, fun h => absurd h.1.seeks hseeks⟩

/-- **The reader is where the offset says, also after a read.** -/
theorem positioned_readExactAt (hf : f.Positioned) : (f.readExactAt disk io len offset).2.Positioned := by
  have hload : (f.loadHandle io).2.Positioned := positioned_loadHandle hf
  unfold readExactAt
  generalize f.loadHandle io = res at hload
  match res with
  | (.error e, g) => exact hload
  | (.ok (), g) =>
    dsimp only at hload ⊢
    cases hhandle : g.handle with
    | none => exact hload
    | some position =>
      have hposition : g.offset = position := by rwa [Positioned, hhandle] at hload
      dsimp only
      -- a read goes on at the offset, whether the reader was there already or had to seek
      have hstart : ∀ start, (if offset ≠ g.offset then if io.seeks then some offset else none else some position) =
          some start → start = offset := by
        intro start h
        split at h
        · split at h
          · exact (Option.some.inj h).symm
          · cases h
        · next hsame => rw [← Option.some.inj h, ← hposition, not_not.mp hsame]
      generalize (if offset ≠ g.offset then if io.seeks then some offset else none else some position) = from? at hstart
      cases from? with
      | none => rfl
      | some start =>
        rw [Option.bind_some]
        cases g.readExact disk io start len with
        | none => rfl
        | some buf =>
          rw [Option.map_some]
          dsimp only
          split
          · rfl
          · rw [hstart start rfl]
            rfl

theorem sameFile_readExactAt : SameFile f (f.readExactAt disk io len offset).2 := by
  have hload := sameFile_loadHandle f io
  unfold readExactAt
  generalize f.loadHandle io = res at hload
  match res with
  | (.error e, g) => exact hload
  | (.ok (), g) =>
    dsimp only at hload ⊢
    refine hload.trans ?_
    split
    · rfl
    · split
      · rfl
      · split <;> rfl

/-- What is read are bytes of the file, wherever the reader was. -/
theorem infix_of_readExactAt (h : (f.readExactAt disk io len offset).1 = .ok buf) : buf <:+: disk f.path := by
  have hload := sameFile_loadHandle f io
  unfold readExactAt at h
  generalize f.loadHandle io = res at h hload
  match res with
  | (.error e, g) => cases h
  | (.ok (), g) =>
    have hpath : g.path = f.path := by
      dsimp only at hload
      rw [hload]
    dsimp only at h
    cases hhandle : g.handle with
    | none =>
      rw [hhandle] at h
      cases h
    | some position =>
      rw [hhandle] at h
      dsimp only at h
      generalize (if offset ≠ g.offset then if io.seeks then some offset else none else some position) = from? at h
      cases from? with
      | none => cases h
      | some start =>
        rw [Option.bind_some] at h
        cases hread : g.readExact disk io start len with
        | none =>
          rw [hread] at h
          cases h
        | some bytes =>
          rw [hread, Option.map_some] at h
          have hbuf : bytes = buf := by
            dsimp only at h
            split at h <;> exact Except.ok.inj h
          rw [← hbuf, ← hpath]
          unfold readExact at hread
          split at hread
          · rw [← Option.some.inj hread]
            exact List.nil_infix
          · split at hread
            · rw [← Option.some.inj hread]
              exact (List.take_prefix _ _).isInfix.trans (List.drop_suffix _ _).isInfix
            · cases hread

end LocalFile

end RustDesk.Clipboard
