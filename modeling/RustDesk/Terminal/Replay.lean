import RustDesk.Common.Run
import RustDesk.Terminal.Service

/-!
# Output across a reconnect

Reference: `src/server/terminal_service.rs` (`handle_open`, `read_outputs`, `reset_status`, the reader
thread). Output is in the channel, in the output buffer or in the replay that waits for the next poll, and
a chunk must not be counted in two of these, nor in none.

Output is produced when the reader thread passes it on to the channel: a character that two reads of the
PTY cut in two is held back in between. What the client gets of a terminal since it last opened it is the
end of what was produced before, as the output buffer kept it, and all that was produced since.
-/

namespace RustDesk.Terminal

/-! ## What a log says -/

/-- The chunks that the reader of a session passed on. -/
def outputOf (handle : ℕ) (log : List Event) : List Bytes :=
  log.filterMap fun
    | .produced handle' chunk => if handle' = handle then some chunk else none
    | _ => none

/-- The bytes that it read. -/
def readOf (handle : ℕ) (log : List Event) : Bytes :=
  log.flatMap fun
    | .read handle' bytes => if handle' = handle then bytes else []
    | _ => []

/-- What `handle_terminal_response` of the client takes out of a response, for one terminal. -/
def payload (zstd : Zstd) (id : ℤ) : Event → Bytes
  | .sent (.data terminalId data compressed) =>
    if terminalId = id then if compressed then zstd.decompressed data else data else []
  | _ => []

/-- The data that a client got for a terminal. -/
def received (zstd : Zstd) (id : ℤ) (log : List Event) : Bytes := log.flatMap (payload zstd id)

def awaitsAfter (awaits : Bool) : Event → Bool
  | .reset => true
  | .sent (.opened _) => false
  | _ => awaits

/-- Whether no terminal has been opened since the client connected. -/
def awaitsOpen (log : List Event) : Bool := log.foldl awaitsAfter false

/-- The end of the output before, as the output buffer keeps it. -/
def kept (handle : ℕ) (before : List Event) : Bytes :=
  (OutputBuffer.new.appendAll (outputOf handle before)).getRecent DEFAULT_RECONNECT_BUFFER_BYTES

/-- What a client will still get of a session: the replay, and the channel behind it. -/
def TerminalSession.waiting (session : TerminalSession) : Bytes :=
  (match session.state with
    | .closed => []
    | .active pendingBuffer _ => pendingBuffer.getD []) ++ session.outputRx.flatten

/-- Of a terminal that was opened, a client gets what was kept and all that was produced since. -/
def Streams (zstd : Zstd) (log : List Event) (id : ℤ) (session : TerminalSession) : Prop :=
  ∃ before opened after, log = before ++ .sent (.opened opened) :: after ∧ opened.terminalId = id ∧
    (∀ later, .sent (.opened later) ∈ after → later.terminalId ≠ id) ∧
    received zstd id after ++ session.waiting =
      kept session.handle before ++ (outputOf session.handle after).flatten

/-- What the output buffer kept is the end of the output, at most 8 KiB of it. -/
theorem kept_spec (handle : ℕ) (before : List Event) :
    kept handle before <:+ (outputOf handle before).flatten ∧ (kept handle before).length ≤ 8 * 1024 := by
  have hcontents := OutputBuffer.contents_appendAll .new (outputOf handle before)
  rw [OutputBuffer.contents_new, List.nil_append] at hcontents
  exact ⟨(OutputBuffer.getRecent_suffix _ _).trans hcontents, OutputBuffer.length_getRecent _ _⟩

section

variable {zstd : Zstd} {log events : List Event} {id id' : ℤ} {handle created created' : ℕ}
  {session session' : TerminalSession}

@[simp]
theorem outputOf_append : outputOf handle (log ++ events) = outputOf handle log ++ outputOf handle events :=
  List.filterMap_append

@[simp]
theorem readOf_append : readOf handle (log ++ events) = readOf handle log ++ readOf handle events :=
  List.flatMap_append

@[simp]
theorem received_append : received zstd id (log ++ events) = received zstd id log ++ received zstd id events :=
  List.flatMap_append

@[simp]
theorem outputOf_sent (handle : ℕ) (responses : List TerminalResponse) :
    outputOf handle (responses.map .sent) = [] := by
  rw [outputOf, List.filterMap_map]
  exact List.filterMap_eq_nil_iff.mpr fun _ _ => rfl

@[simp]
theorem readOf_sent (handle : ℕ) (responses : List TerminalResponse) :
    readOf handle (responses.map .sent) = [] := by
  rw [readOf, List.flatMap_map]
  exact List.flatMap_eq_nil_iff.mpr fun _ _ => rfl

@[simp]
theorem outputOf_passedOn (handle : ℕ) (chunk : Option Bytes) :
    outputOf handle (World.passedOn handle chunk) = chunk.toList := by
  cases chunk <;> simp [outputOf, World.passedOn]

@[simp]
theorem readOf_passedOn (handle handle' : ℕ) (chunk : Option Bytes) :
    readOf handle (World.passedOn handle' chunk) = [] := by
  cases chunk <;> simp [readOf, World.passedOn]

@[simp]
theorem received_passedOn (zstd : Zstd) (id : ℤ) (handle : ℕ) (chunk : Option Bytes) :
    received zstd id (World.passedOn handle chunk) = [] := by
  cases chunk <;> simp [received, payload, World.passedOn]

/-- The client reads what was put into a response. -/
theorem payload_createTerminalDataResponse (zstd : Zstd) (terminalId id : ℤ) (data : Bytes) :
    payload zstd id (.sent (createTerminalDataResponse zstd terminalId data)) =
      if terminalId = id then data else [] := by
  unfold createTerminalDataResponse
  split
  · dsimp only
    split
    · rw [payload, zstd.decompressed_compressed]
      rfl
    · rfl
  · rfl

/-! ## One session -/

/-- What the client sees of a terminal goes on when the session does. -/
theorem Streams.advance (h : Streams zstd log id session) (hhandle : session'.handle = session.handle)
    (hopened : ∀ later, .sent (.opened later) ∈ events → later.terminalId ≠ id)
    (hwaiting : received zstd id events ++ session'.waiting =
      session.waiting ++ (outputOf session.handle events).flatten) :
    Streams zstd (log ++ events) id session' := by
  obtain ⟨before, opened, after, rfl, hid, hlast, hstream⟩ := h
  refine ⟨before, opened, after ++ events, by simp, hid, ?_, ?_⟩
  · intro later hlater
    exact (List.mem_append.mp hlater).elim (hlast later) (hopened later)
  · rw [received_append, List.append_assoc, hwaiting, ← List.append_assoc, hstream, hhandle,
      outputOf_append, List.flatten_append, List.append_assoc]

/-- What holds of a session between the actions. -/
structure SessionInv (zstd : Zstd) (created : ℕ) (log : List Event) (id : ℤ) (session : TerminalSession) :
    Prop where
  known : session.handle < created
  room : session.outputRx.length ≤ CHANNEL_BUFFER_SIZE
  /-- what was produced is in the buffer or in the channel -/
  buffered : ∃ drained, session.outputBuffer = OutputBuffer.new.appendAll drained ∧
    outputOf session.handle log = drained ++ session.outputRx
  /-- what was read is produced or held back -/
  held : readOf session.handle log =
    (outputOf session.handle log).flatten ++ session.utf8Chunks.remainder
  streams : session.state ≠ .closed → Streams zstd log id session

/-- Events that are about other sessions. -/
structure Quiet (zstd : Zstd) (id : ℤ) (handle : ℕ) (events : List Event) : Prop where
  output : outputOf handle events = []
  read : readOf handle events = []
  received : received zstd id events = []
  opened : ∀ later, .sent (.opened later) ∈ events → later.terminalId ≠ id

theorem quiet_of_forall (h : ∀ event ∈ events, Quiet zstd id handle [event]) : Quiet zstd id handle events := by
  induction events with
  | nil => exact ⟨rfl, rfl, rfl, by simp⟩
  | cons event events ih =>
    rw [List.forall_mem_cons] at h
    obtain ⟨houtput, hread, hreceived, hopened⟩ := ih h.2
    rw [← List.singleton_append]
    refine ⟨?_, ?_, ?_, ?_⟩
    · rw [outputOf_append, h.1.output, houtput, List.append_nil]
    · rw [readOf_append, h.1.read, hread, List.append_nil]
    · rw [received_append, h.1.received, hreceived, List.append_nil]
    · intro later hlater
      exact (List.mem_append.mp hlater).elim (h.1.opened later) (hopened later)

namespace SessionInv

section

variable (h : SessionInv zstd created log id session)
include h

theorem frame (hcreated : created ≤ created') (hquiet : Quiet zstd id session.handle events) :
    SessionInv zstd created' (log ++ events) id session where
  known := Nat.lt_of_lt_of_le h.known hcreated
  room := h.room
  buffered := by
    obtain ⟨drained, hbuffer, houtput⟩ := h.buffered
    exact ⟨drained, hbuffer, by rw [outputOf_append, hquiet.output, List.append_nil, houtput]⟩
  held := by
    rw [readOf_append, outputOf_append, hquiet.output, hquiet.read, List.append_nil, List.append_nil, h.held]
  streams hopen := (h.streams hopen).advance rfl hquiet.opened (by
    rw [hquiet.received, hquiet.output, List.flatten_nil, List.append_nil, List.nil_append])

/-- A closed session may be at any id. -/
theorem move (hclosed : session.state = .closed) : SessionInv zstd created log id' session :=
  ⟨h.known, h.room, h.buffered, h.held, fun hopen => absurd hclosed hopen⟩

section

variable (hroom : session.outputRx.length < CHANNEL_BUFFER_SIZE)
include hroom

/-- The reader passes a chunk on, or holds back what it has. -/
theorem passOn {chunk : Option Bytes} {bytes : Bytes} (hhandle : session'.handle = session.handle)
    (hrx : session'.outputRx = session.outputRx ++ chunk.toList)
    (hbuffer : session'.outputBuffer = session.outputBuffer)
    (hstate : session'.state = session.state)
    (hconserves : chunk.getD [] ++ session'.utf8Chunks.remainder = session.utf8Chunks.remainder ++ bytes)
    (houtput : outputOf session.handle events = chunk.toList)
    (hread : readOf session.handle events = bytes)
    (hreceived : received zstd id events = [])
    (hopened : ∀ later, .sent (.opened later) ∈ events → later.terminalId ≠ id) :
    SessionInv zstd created (log ++ events) id session' where
  known := hhandle ▸ h.known
  room := by
    have hone : chunk.toList.length ≤ 1 := by cases chunk <;> simp
    rw [hrx, List.length_append]
    omega
  buffered := by
    obtain ⟨drained, hdrained, hlog⟩ := h.buffered
    refine ⟨drained, hbuffer.trans hdrained, ?_⟩
    rw [hhandle, outputOf_append, hlog, houtput, hrx, List.append_assoc]
  held := by
    have hchunk : chunk.toList.flatten = chunk.getD [] := by cases chunk <;> simp
    rw [hhandle, readOf_append, outputOf_append, h.held, hread, houtput, List.flatten_append, hchunk,
      List.append_assoc, List.append_assoc, hconserves]
  streams hopen := by
    refine (h.streams (hstate ▸ hopen)).advance hhandle hopened ?_
    rw [hreceived, houtput, TerminalSession.waiting, TerminalSession.waiting, hstate, hrx,
      List.flatten_append, List.nil_append, List.append_assoc]

/-- A read of the reader thread. -/
theorem readPty (bytes : Bytes) : SessionInv zstd created
      (log ++ .read session.handle bytes :: World.passedOn session.handle (session.readPty bytes).2) id
      (session.readPty bytes).1 := by
  have hconserves := session.utf8Chunks.pushChunk_conserves bytes
  have hread (chunk : Option Bytes) :
      readOf session.handle (.read session.handle bytes :: World.passedOn session.handle chunk) = bytes := by
    have hpassed := readOf_passedOn session.handle session.handle chunk
    simp only [readOf] at hpassed ⊢
    simp [hpassed]
  have houtput (chunk : Option Bytes) :
      outputOf session.handle (.read session.handle bytes :: World.passedOn session.handle chunk) =
        chunk.toList := outputOf_passedOn session.handle chunk
  have hreceived (chunk : Option Bytes) :
      received zstd id (.read session.handle bytes :: World.passedOn session.handle chunk) = [] :=
    received_passedOn zstd id session.handle chunk
  have hopened (chunk : Option Bytes) : ∀ later, Event.sent (.opened later) ∈
      Event.read session.handle bytes :: World.passedOn session.handle chunk → later.terminalId ≠ id := by
    intro later hlater
    cases chunk <;> simp [World.passedOn] at hlater
  unfold TerminalSession.readPty
  rcases hpush : session.utf8Chunks.pushChunk bytes with ⟨_ | chunk, utf8Chunks⟩
  · rw [hpush] at hconserves
    exact h.passOn hroom rfl (List.append_nil _).symm rfl rfl hconserves (houtput none) (hread none)
      (hreceived none) (hopened none)
  · rw [hpush] at hconserves
    dsimp only [TerminalSession.trySendOutput]
    rw [if_pos hroom]
    exact h.passOn hroom rfl rfl rfl rfl hconserves (houtput (some chunk)) (hread (some chunk))
      (hreceived (some chunk)) (hopened (some chunk))

/-- The end of the reader thread. -/
theorem readerEnds (eof : Bool) :
    SessionInv zstd created (log ++ World.passedOn session.handle (session.readerEnds eof).2) id
      (session.readerEnds eof).1 := by
  have hopened (chunk : Option Bytes) : ∀ later, Event.sent (.opened later) ∈
      World.passedOn session.handle chunk → later.terminalId ≠ id := by
    intro later hlater
    cases chunk <;> simp [World.passedOn] at hlater
  have hread (chunk : Option Bytes) :
      readOf session.handle (World.passedOn session.handle chunk) = [] := readOf_passedOn _ _ chunk
  have houtput (chunk : Option Bytes) :
      outputOf session.handle (World.passedOn session.handle chunk) = chunk.toList :=
    outputOf_passedOn _ chunk
  have hreceived (chunk : Option Bytes) :
      received zstd id (World.passedOn session.handle chunk) = [] := received_passedOn _ _ _ chunk
  unfold TerminalSession.readerEnds
  cases eof with
  | false =>
    exact h.passOn hroom rfl (List.append_nil _).symm rfl rfl (List.append_nil _).symm (houtput none)
      (hread none) (hreceived none) (hopened none)
  | true =>
    have hconserves := session.utf8Chunks.finish_conserves
    rw [← List.append_nil session.utf8Chunks.remainder] at hconserves
    rw [if_pos rfl]
    rcases hfinish : session.utf8Chunks.finish with ⟨_ | chunk, utf8Chunks⟩
    · rw [hfinish] at hconserves
      exact h.passOn hroom rfl (List.append_nil _).symm rfl rfl hconserves (houtput none) (hread none)
        (hreceived none) (hopened none)
    · rw [hfinish] at hconserves
      dsimp only [TerminalSession.trySendOutput]
      rw [if_pos hroom]
      exact h.passOn hroom rfl rfl rfl rfl hconserves (houtput (some chunk)) (hread (some chunk))
        (hreceived (some chunk)) (hopened (some chunk))

end

/-- A disconnect. The replay that waits is not lost: it is in the buffer. -/
theorem closed : SessionInv zstd created log id { session with state := .closed } :=
  ⟨h.known, h.room, h.buffered, h.held, fun hopen => absurd rfl hopen⟩

end

/-- What a poll gives the client of one session. -/
theorem received_readOutput (zstd : Zstd) (resizePty : ℕ → ℕ → Bool) (id : ℤ) (session : TerminalSession) :
    received zstd id ((session.readOutput zstd resizePty id).2.map .sent) =
      if session.state = .closed then [] else session.waiting := by
  have hdata (chunks : List Bytes) :
      received zstd id ((chunks.map (createTerminalDataResponse zstd id)).map .sent) = chunks.flatten := by
    induction chunks with
    | nil => rfl
    | cons chunk chunks ih =>
      simp only [received, List.map_cons, List.flatMap_cons, List.flatten_cons] at ih ⊢
      rw [ih, payload_createTerminalDataResponse, if_pos rfl]
  unfold TerminalSession.readOutput TerminalSession.waiting
  cases hstate : session.state with
  | closed => rfl
  | active pendingBuffer sigwinch =>
    rw [hdata, List.flatten_append, if_neg (by simp)]
    congr 1
    rcases pendingBuffer with _ | _ | ⟨b, bs⟩ <;> simp

/-- A poll. -/
theorem readOutput (h : SessionInv zstd created log id session) (resizePty : ℕ → ℕ → Bool)
    (houtput : outputOf session.handle events = []) (hread : readOf session.handle events = [])
    (hreceived : received zstd id events = received zstd id ((session.readOutput zstd resizePty id).2.map .sent))
    (hopened : ∀ later, .sent (.opened later) ∈ events → later.terminalId ≠ id) :
    SessionInv zstd created (log ++ events) id (session.readOutput zstd resizePty id).1 := by
  have hfields : (session.readOutput zstd resizePty id).1.handle = session.handle ∧
      (session.readOutput zstd resizePty id).1.outputRx = [] ∧
      (session.readOutput zstd resizePty id).1.outputBuffer = session.outputBuffer.appendAll session.outputRx ∧
      (session.readOutput zstd resizePty id).1.utf8Chunks = session.utf8Chunks := by
    unfold TerminalSession.readOutput
    cases session.state <;> exact ⟨rfl, rfl, rfl, rfl⟩
  obtain ⟨hhandle, hrx, hbuffer, hutf8⟩ := hfields
  constructor
  case known => exact hhandle ▸ h.known
  case room => rw [hrx]; exact Nat.zero_le _
  case buffered =>
    obtain ⟨drained, hdrained, hlog⟩ := h.buffered
    refine ⟨drained ++ session.outputRx, ?_, ?_⟩
    · rw [hbuffer, hdrained, OutputBuffer.appendAll_append]
    · rw [hhandle, outputOf_append, houtput, hlog, hrx]
  case held =>
    rw [hhandle, hutf8, readOf_append, outputOf_append, hread, houtput, List.append_nil, List.append_nil, h.held]
  case streams =>
    intro hopen
    rw [received_readOutput] at hreceived
    cases hstate : session.state with
    | closed =>
      refine absurd ?_ hopen
      simp only [TerminalSession.readOutput, hstate]
    | active pendingBuffer sigwinch =>
      have hactive : session.state ≠ .closed := by simp [hstate]
      rw [if_neg hactive] at hreceived
      refine (h.streams hactive).advance hhandle hopened ?_
      have hwaiting : (session.readOutput zstd resizePty id).1.waiting = [] := by
        unfold TerminalSession.waiting TerminalSession.readOutput
        rw [hstate]
        rfl
      rw [hreceived, houtput, hwaiting, List.flatten_nil]

/-- `handle_open` of a session that is there: the replay is what is kept of all that was produced. -/
theorem reconnect (h : SessionInv zstd created log id session) {opened : TerminalOpened}
    (hid : opened.terminalId = id) :
    SessionInv zstd created (log ++ [.sent (.opened opened)]) id session.reconnect.1 := by
  have htake : session.outputRx.take CHANNEL_BUFFER_SIZE = session.outputRx := List.take_of_length_le h.room
  have hdrop : session.outputRx.drop CHANNEL_BUFFER_SIZE = [] := List.drop_eq_nil_of_le h.room
  obtain ⟨drained, hbuffer, hlog⟩ := h.buffered
  have hall : session.outputBuffer.appendAll session.outputRx =
      OutputBuffer.new.appendAll (outputOf session.handle log) := by
    rw [hlog, hbuffer, OutputBuffer.appendAll_append]
  constructor
  case known => exact h.known
  case room =>
    show (session.outputRx.drop CHANNEL_BUFFER_SIZE).length ≤ _
    rw [hdrop]
    exact Nat.zero_le _
  case buffered =>
    refine ⟨outputOf session.handle log, ?_, ?_⟩
    · show session.outputBuffer.appendAll (session.outputRx.take CHANNEL_BUFFER_SIZE) = _
      rw [htake, hall]
    · show outputOf session.handle (log ++ _) = _ ++ session.outputRx.drop CHANNEL_BUFFER_SIZE
      rw [hdrop, outputOf_append]
      rfl
  case held =>
    show readOf session.handle (log ++ _) = (outputOf session.handle (log ++ _)).flatten ++ _
    rw [readOf_append, outputOf_append, h.held]
    simp [readOf, outputOf, TerminalSession.reconnect]
  case streams =>
    intro _
    refine ⟨log, opened, [], rfl, hid, by simp, ?_⟩
    have hbacklog : (if session.outputRx.isEmpty then
        session.outputBuffer.getRecent DEFAULT_RECONNECT_BUFFER_BYTES
        else (session.outputBuffer.appendAll session.outputRx).getRecent DEFAULT_RECONNECT_BUFFER_BYTES) =
        kept session.handle log := by
      rw [kept, ← hall]
      cases session.outputRx <;> rfl
    unfold TerminalSession.waiting TerminalSession.reconnect
    dsimp only
    rw [htake, hdrop, hbacklog]
    cases kept session.handle log with
    | nil | cons => simp [received, outputOf]

/-- A session that is new. -/
theorem spawned (hquiet : outputOf created log = [] ∧ readOf created log = []) (hcreated : created < created')
    {opened : TerminalOpened} (hid : opened.terminalId = id) (pid rows cols : ℕ) :
    SessionInv zstd created' (log ++ [.sent (.opened opened)]) id
      (TerminalSession.spawned created pid rows cols) := by
  have houtput : outputOf created (log ++ [.sent (.opened opened)]) = [] := by
    rw [outputOf_append, hquiet.1]
    rfl
  constructor
  case known => exact hcreated
  case room => exact Nat.zero_le _
  case buffered => exact ⟨[], rfl, houtput⟩
  case held =>
    show readOf created _ = (outputOf created _).flatten ++ []
    rw [houtput, readOf_append, hquiet.2]
    rfl
  case streams =>
    intro _
    refine ⟨log, opened, [], rfl, hid, by simp, ?_⟩
    show received zstd id [] ++ (none.getD [] ++ [].flatten) = kept created log ++ (outputOf created []).flatten
    rw [kept, hquiet.1]
    rfl

end SessionInv

end

end RustDesk.Terminal
