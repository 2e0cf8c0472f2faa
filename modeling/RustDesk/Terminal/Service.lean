import Mathlib.Data.List.AList
import RustDesk.Terminal.Utf8Chunks

/-!
# The terminal service

Reference: `src/server/terminal_service.rs` (`PersistentTerminalService::reset_status`, `handle_open`,
`handle_resize`, `handle_close`, `read_outputs`, the reader thread, `try_send_output`).

A session is an `Arc` in the source and stays the same one when it is moved to another id. Here it has a
number, `handle`. A `HashMap` is an `AList`; its entries come in any order, `World.Step` below. What the
operating system does (the shell starts, a PTY is resized, a child ends, a lock is held) are arguments.
What goes to the shell is left out, and so are the times of last activity.
-/

namespace RustDesk.Terminal

def CHANNEL_BUFFER_SIZE : ℕ := 500

def COMPRESS_THRESHOLD : ℕ := 512

def DEFAULT_RECONNECT_BUFFER_BYTES : ℕ := 8 * 1024

def MAX_SIGWINCH_PHASE_ATTEMPTS : ℕ := 3

/-! ## Messages -/

structure OpenTerminal where
  terminalId : ℤ
  rows : ℕ
  cols : ℕ

structure ResizeTerminal where
  terminalId : ℤ
  rows : ℕ
  cols : ℕ

structure TerminalOpened where
  terminalId : ℤ
  success : Bool
  message : String
  pid : ℕ
  serviceId : String
  replayTerminalOutput : Bool
  persistentSessions : List ℤ
  deriving DecidableEq

inductive TerminalResponse
  | opened (response : TerminalOpened)
  | data (terminalId : ℤ) (data : Bytes) (compressed : Bool)
  | closed (terminalId exitCode : ℤ)
  | error (message : String)
  deriving DecidableEq

/-- The `zstd` library. What it compresses it decompresses. -/
structure Zstd where
  compress : Bytes → Option Bytes
  decodeAll : Bytes → Option Bytes
  inverts : ∀ data, ∃ z, compress data = some z ∧ decodeAll z = some data

namespace Zstd

/-- `hbb_common::compress::compress`, where a failure is an empty vector. -/
def compressed (zstd : Zstd) (data : Bytes) : Bytes := (zstd.compress data).getD []

/-- `hbb_common::compress::decompress`. -/
def decompressed (zstd : Zstd) (data : Bytes) : Bytes := (zstd.decodeAll data).getD []

theorem decompressed_compressed (zstd : Zstd) (data : Bytes) : zstd.decompressed (zstd.compressed data) = data := by
  obtain ⟨z, hz, hdata⟩ := zstd.inverts data
  rw [compressed, hz, Option.getD_some, decompressed, hdata, Option.getD_some]

end Zstd

def createTerminalDataResponse (zstd : Zstd) (terminalId : ℤ) (data : Bytes) : TerminalResponse :=
  if COMPRESS_THRESHOLD < data.length then
    let compressed := zstd.compressed data
    if compressed.length < data.length then .data terminalId compressed true
    else .data terminalId data false
  else .data terminalId data false

/-! ## Sessions -/

inductive SigwinchPhase
  | idle
  | tempResize (retries : ℕ)
  | restore (retries : ℕ)
  deriving DecidableEq

inductive SigwinchAction
  | tempResize
  | restore

inductive SessionState
  | closed
  | active (pendingBuffer : Option Bytes) (sigwinch : SigwinchPhase)
  deriving DecidableEq

structure TerminalSession where
  handle : ℕ
  pid : ℕ
  rows : ℕ
  cols : ℕ
  /-- the chunks in the output channel, the oldest first -/
  outputRx : List Bytes
  outputBuffer : OutputBuffer
  /-- what the reader thread holds back -/
  utf8Chunks : Utf8ChunkAccumulator
  readerFinished : Bool
  /-- what `child.try_wait()` gives -/
  exitStatus : Option ℤ
  closedMessageSent : Bool
  state : SessionState
  deriving DecidableEq

namespace TerminalSession

/-- A session whose shell has just been started. -/
def spawned (handle pid rows cols : ℕ) : TerminalSession where
  handle := handle
  pid := pid
  rows := rows % 2 ^ 16
  cols := cols % 2 ^ 16
  outputRx := []
  outputBuffer := .new
  utf8Chunks := ⟨[]⟩
  readerFinished := false
  exitStatus := none
  closedMessageSent := false
  state := .active none .idle

/-- `try_send_output` to a channel of `CHANNEL_BUFFER_SIZE` chunks. What does not fit is dropped. -/
def trySendOutput (session : TerminalSession) (data : Bytes) : TerminalSession :=
  if session.outputRx.length < CHANNEL_BUFFER_SIZE then
    { session with outputRx := session.outputRx ++ [data] }
  else session

/-- A read of the reader thread, and the chunk that it passes on. -/
def readPty (session : TerminalSession) (bytes : Bytes) : TerminalSession × Option Bytes :=
  let (chunk, utf8Chunks) := session.utf8Chunks.pushChunk bytes
  let session := { session with utf8Chunks := utf8Chunks }
  match chunk with
  | none => (session, none)
  | some data => (session.trySendOutput data, some data)

/-- The reader thread ends, at the end of the output or with an error. -/
def readerEnds (session : TerminalSession) (eof : Bool) : TerminalSession × Option Bytes :=
  let session := { session with readerFinished := true }
  if eof then
    let (chunk, utf8Chunks) := session.utf8Chunks.finish
    let session := { session with utf8Chunks := utf8Chunks }
    match chunk with
    | none => (session, none)
    | some data => (session.trySendOutput data, some data)
  else (session, none)

/-- What `handle_open` does to a session that is there, and whether there is output to show again. -/
def reconnect (session : TerminalSession) : TerminalSession × Bool :=
  let reconnectBacklog := session.outputRx.take CHANNEL_BUFFER_SIZE
  let outputBuffer := session.outputBuffer.appendAll reconnectBacklog
  let buffer :=
    if reconnectBacklog.isEmpty then session.outputBuffer.getRecent DEFAULT_RECONNECT_BUFFER_BYTES
    else outputBuffer.getRecent DEFAULT_RECONNECT_BUFFER_BYTES
  let hasPending := !buffer.isEmpty
  ({ session with
    outputRx := session.outputRx.drop CHANNEL_BUFFER_SIZE
    outputBuffer := outputBuffer
    state := .active (if hasPending then some buffer else none)
      (.tempResize MAX_SIGWINCH_PHASE_ATTEMPTS) }, hasPending)

/-! ### The redraw -/

/-- The phase for the next poll, and what this poll resizes. -/
def takeSigwinch : SigwinchPhase → SigwinchPhase × Option SigwinchAction
  | .tempResize 0 => (.idle, none)
  | .tempResize (retries + 1) => (.tempResize retries, some .tempResize)
  | .restore 0 => (.idle, none)
  | .restore (retries + 1) => (.restore retries, some .restore)
  | .idle => (.idle, none)

/-- `do_sigwinch_resize`. `resizePty` says whether the PTY takes a size. -/
def doSigwinchResize (rows cols : ℕ) (resizePty : ℕ → ℕ → Bool) (action : SigwinchAction) : Bool :=
  if rows = 0 ∨ cols = 0 then false
  else
    let targetRows :=
      match action with
      | .tempResize => if 2 < rows then rows - 1 else rows + 1
      | .restore => rows
    resizePty targetRows cols

def resized (resizeOk : Bool) (sigwinch : SigwinchPhase) : SigwinchAction → SigwinchPhase
  | .tempResize => if resizeOk then .restore MAX_SIGWINCH_PHASE_ATTEMPTS else sigwinch
  | .restore => if resizeOk then .idle else sigwinch

/-- The two phases of the redraw, for one poll. -/
def stepSigwinch (session : TerminalSession) (resizePty : ℕ → ℕ → Bool) (sigwinch : SigwinchPhase) :
    SigwinchPhase :=
  match takeSigwinch sigwinch with
  | (sigwinch, none) => sigwinch
  | (sigwinch, some action) =>
    resized (doSigwinchResize session.rows session.cols resizePty action) sigwinch action

/-! ### One session of a poll -/

/-- Whether the client has to be told that the session has ended. -/
def shouldSendClosed (session : TerminalSession) : Bool :=
  !session.closedMessageSent && (session.readerFinished || session.exitStatus.isSome)

/-- What `read_outputs` does with a session whose lock is free. -/
def readOutput (zstd : Zstd) (resizePty : ℕ → ℕ → Bool) (terminalId : ℤ) (session : TerminalSession) :
    TerminalSession × List TerminalResponse :=
  let receivedData := session.outputRx
  let drained :=
    { session with
      closedMessageSent := session.closedMessageSent || session.shouldSendClosed
      outputRx := []
      outputBuffer := session.outputBuffer.appendAll receivedData }
  match session.state with
  | .closed => (drained, [])
  | .active pendingBuffer sigwinch =>
    let replay := pendingBuffer.toList.filter (!·.isEmpty)
    ({ drained with state := .active none (session.stepSigwinch resizePty sigwinch) },
      (replay ++ receivedData).map (createTerminalDataResponse zstd terminalId))

end TerminalSession

/-! ## The service -/

/-- `HashMap<i32, Arc<Mutex<TerminalSession>>>`. -/
abbrev Sessions := AList fun _ : ℤ => TerminalSession

namespace Sessions

/-- Something is done to every session. -/
def mapVal (sessions : Sessions) (f : ℤ → TerminalSession → TerminalSession) : Sessions where
  entries := sessions.entries.map (.map id f)
  nodupKeys := sessions.nodupKeys.map₂ f

@[simp]
theorem lookup_mapVal (sessions : Sessions) (f : ℤ → TerminalSession → TerminalSession) (id : ℤ) :
    (sessions.mapVal f).lookup id = (sessions.lookup id).map (f id) :=
  List.dlookup_map₂ id

end Sessions

structure PersistentTerminalService where
  serviceId : String
  sessions : Sessions
  isPersistent : Bool
  needsSessionSync : Bool
  /-- how many sessions there have been, which is the handle of the next one -/
  created : ℕ

/-- The texts of the failures to start a shell. -/
inductive SpawnError
  | openPty
  | spawnCommand
  | takeWriter
  | cloneReader

def SpawnError.text : SpawnError → String
  | .openPty => "Failed to open PTY"
  | .spawnCommand => "Failed to spawn command"
  | .takeWriter => "Failed to get writer"
  | .cloneReader => "Failed to get reader"

namespace PersistentTerminalService

def new (serviceId : String) (isPersistent : Bool) : PersistentTerminalService :=
  ⟨serviceId, ∅, isPersistent, false, 0⟩

def resetStatus (service : PersistentTerminalService) (isPersistent : Bool) :
    PersistentTerminalService :=
  { service with
    isPersistent := isPersistent
    needsSessionSync := true
    sessions := service.sessions.mapVal fun _ session => { session with state := .closed } }

/-- The lowest session takes the id that is asked for, on the first open of a connection. -/
def remapped (service : PersistentTerminalService) (terminalId : ℤ) : Sessions :=
  if terminalId ∉ service.sessions ∧ service.needsSessionSync = true ∧ service.sessions.keys ≠ [] then
    match service.sessions.keys.min? with
    | some lowestId =>
      match service.sessions.lookup lowestId with
      | some session => (service.sessions.erase lowestId).insert terminalId session
      | none => service.sessions
    | none => service.sessions
  else service.sessions

/-- `handle_open`. `spawned` is the process id of a shell that is started, if one is. -/
def handleOpen (service : PersistentTerminalService) (open' : OpenTerminal)
    (spawned : Except SpawnError ℕ) : PersistentTerminalService × Except String TerminalResponse :=
  let sessions := service.remapped open'.terminalId
  match sessions.lookup open'.terminalId with
  | some session =>
    let (session, hasPending) := session.reconnect
    let opened : TerminalOpened :=
      { terminalId := open'.terminalId
        success := true
        message := if hasPending then "Reconnected to existing terminal with pending output"
          else "Reconnected to existing terminal"
        pid := session.pid
        serviceId := service.serviceId
        replayTerminalOutput := hasPending
        persistentSessions :=
          if service.needsSessionSync && decide (1 < sessions.keys.length) then
            sessions.keys.filter (· ≠ open'.terminalId)
          else [] }
    ({ service with
      sessions := sessions.insert open'.terminalId session
      needsSessionSync := false }, .ok (.opened opened))
  | none =>
    match spawned with
    | .error e => ({ service with sessions := sessions }, .error e.text)
    | .ok pid =>
      let session := TerminalSession.spawned service.created pid open'.rows open'.cols
      let opened : TerminalOpened :=
        { terminalId := open'.terminalId
          success := true
          message := "Terminal opened"
          pid := pid
          serviceId := service.serviceId
          replayTerminalOutput := false
          persistentSessions := if service.needsSessionSync then sessions.keys else [] }
      ({ service with
        sessions := sessions.insert open'.terminalId session
        needsSessionSync := false
        created := service.created + 1 }, .ok (.opened opened))

/-- `handle_resize`. `resized` is what the PTY says. -/
def handleResize (service : PersistentTerminalService) (resize : ResizeTerminal)
    (resized : Except String Unit) :
    PersistentTerminalService × Except String (Option TerminalResponse) :=
  match service.sessions.lookup resize.terminalId with
  | none => (service, .ok none)
  | some session =>
    let session := { session with rows := resize.rows % 2 ^ 16, cols := resize.cols % 2 ^ 16 }
    ({ service with sessions := service.sessions.insert resize.terminalId session },
      resized.map fun _ => none)

/-- `handle_close`. `killed` is what the child says. -/
def handleClose (service : PersistentTerminalService) (terminalId : ℤ) (killed : Except String Unit) :
    PersistentTerminalService × Except String (Option TerminalResponse) :=
  if terminalId ∈ service.sessions then
    ({ service with sessions := service.sessions.erase terminalId },
      killed.map fun _ => some (.closed terminalId (-1)))
  else (service, .ok none)

/-! ### Polls -/

/-- The cleanup of a session that has ended. -/
def closeTerminal (state : PersistentTerminalService × List TerminalResponse) (terminalId : ℤ) :
    PersistentTerminalService × List TerminalResponse :=
  let (service, responses) := state
  match service.sessions.lookup terminalId with
  | none => (service, responses ++ [.closed terminalId 0])
  | some session =>
    let removed := !service.isPersistent || session.closedMessageSent
    (if removed then { service with sessions := service.sessions.erase terminalId } else service,
      responses ++ [.closed terminalId (session.exitStatus.getD 0)])

/-- `read_outputs`. Sessions whose lock is held are left alone. -/
def readOutputs (zstd : Zstd) (locked : List ℤ) (resizePty : ℤ → ℕ → ℕ → Bool)
    (service : PersistentTerminalService) : PersistentTerminalService × List TerminalResponse :=
  let sessions := service.sessions.mapVal fun id session =>
    if id ∈ locked then session else (session.readOutput zstd (resizePty id) id).1
  let responses := service.sessions.entries.flatMap fun e =>
    if e.1 ∈ locked then [] else (e.2.readOutput zstd (resizePty e.1) e.1).2
  let closedTerminals := (service.sessions.entries.filter fun e =>
    e.1 ∉ locked ∧ e.2.shouldSendClosed = true).map (·.1)
  closedTerminals.foldl closeTerminal ({ service with sessions := sessions }, responses)

end PersistentTerminalService

/-! ## Steps -/

/-- What can be seen of the service: what its readers read and pass on, when a client connects anew, and
what the client gets. -/
inductive Event
  | read (handle : ℕ) (bytes : Bytes)
  | produced (handle : ℕ) (chunk : Bytes)
  | reset
  | sent (response : TerminalResponse)
  deriving DecidableEq

inductive Action
  /-- the reader thread of a session reads bytes of its PTY -/
  | read (id : ℤ) (bytes : Bytes)
  | readerEnds (id : ℤ) (eof : Bool)
  | childExits (id : ℤ) (status : ℤ)
  | poll (locked : List ℤ) (resizePty : ℤ → ℕ → ℕ → Bool)
  /-- the connection is gone and the next one begins -/
  | reset (isPersistent : Bool)
  | openTerminal (open' : OpenTerminal) (spawned : Except SpawnError ℕ)
  | resize (resize : ResizeTerminal) (resized : Except String Unit)
  | close (terminalId : ℤ) (killed : Except String Unit)

structure World where
  service : PersistentTerminalService
  /-- all that has happened, the oldest first -/
  log : List Event

namespace World

def sessions (w : World) : Sessions := w.service.sessions

/-- What `handle_terminal_action` answers. -/
def answer : Except String (Option TerminalResponse) → List Event
  | .ok (some response) => [.sent response]
  | .ok none => []
  | .error err => [.sent (.error ("Failed to handle action: " ++ err))]

/-- Something happens to one session. -/
def onSession (w : World) (id : ℤ) (f : TerminalSession → TerminalSession × List Event) : World :=
  match w.sessions.lookup id with
  | none => w
  | some session =>
    ⟨{ w.service with sessions := w.sessions.insert id (f session).1 }, w.log ++ (f session).2⟩

/-- The chunk that a reader thread passes on. -/
def passedOn (handle : ℕ) (chunk : Option Bytes) : List Event :=
  chunk.toList.map (.produced handle)

def act (zstd : Zstd) (w : World) : Action → World
  | .read id bytes =>
    w.onSession id fun session =>
      if session.readerFinished then (session, [])
      else
        let (session', chunk) := session.readPty bytes
        (session', .read session.handle bytes :: passedOn session.handle chunk)
  | .readerEnds id eof =>
    w.onSession id fun session =>
      if session.readerFinished then (session, [])
      else
        let (session', chunk) := session.readerEnds eof
        (session', passedOn session.handle chunk)
  | .childExits id status =>
    w.onSession id fun session => ({ session with exitStatus := some status }, [])
  | .poll locked resizePty =>
    let (service, responses) := w.service.readOutputs zstd locked resizePty
    ⟨service, w.log ++ responses.map .sent⟩
  | .reset isPersistent => ⟨w.service.resetStatus isPersistent, w.log ++ [.reset]⟩
  | .openTerminal open' spawned =>
    let (service, result) := w.service.handleOpen open' spawned
    ⟨service, w.log ++ answer (result.map some)⟩
  | .resize resize resized =>
    let (service, result) := w.service.handleResize resize resized
    ⟨service, w.log ++ answer result⟩
  | .close terminalId killed =>
    let (service, result) := w.service.handleClose terminalId killed
    ⟨service, w.log ++ answer result⟩

/-- One action, with the entries of the map in any order. -/
def Step (zstd : Zstd) (w : World) (action : Action) (w' : World) : Prop :=
  ∃ sessions : Sessions, sessions.entries.Perm w.sessions.entries ∧
    w' = act zstd { w with service := { w.service with sessions := sessions } } action

/-- A service for its first connection. -/
def start (serviceId : String) (isPersistent : Bool) : World :=
  ⟨(PersistentTerminalService.new serviceId isPersistent).resetStatus isPersistent, [.reset]⟩

end World

end RustDesk.Terminal
