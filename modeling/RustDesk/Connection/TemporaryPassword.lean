import RustDesk.Common.Run

/-!
# Guesses of the temporary password

Reference: `src/server/connection.rs` (`check_update_temporary_password`, `validate_password`, the password
attempt of `on_message`). The counter of wrong guesses keeps a copy of the password that it counts for, and
looks at the password itself when the next outcome is recorded. A comparison and the recording of its outcome
are two steps, between which other handlers run, a session ends or the user asks for a new password.
-/

namespace RustDesk.Connection

def MAX_CONSECUTIVE_FAILURES : ℕ := 10

/-- The state of `check_update_temporary_password`. -/
structure TemporaryPasswordFailures where
  password : String
  failures : ℕ
  deriving DecidableEq

/-- What is known of the guesses: one was compared with a value, an outcome was recorded, the counter saw
that the password had changed, and it changed the password. -/
inductive GuessEvent
  | compared (password : String) (correct : Bool)
  | recorded (success : Bool)
  | seen
  | rotated
  deriving DecidableEq

/-- `password_security::TEMPORARY_PASSWORD` with all values that it had, the counter, the handlers between
comparison and recording by their outcome, the most of them at once, and the events with the latest first. -/
structure GuessWorld where
  enabled : Bool
  password : String
  used : List String
  state : TemporaryPasswordFailures
  waitingRight : ℕ
  waitingWrong : ℕ
  most : ℕ
  log : List GuessEvent
  deriving DecidableEq

inductive GuessLabel
  /-- `validate_password`, for what the handler accepts of the temporary password and whether it accepts
  a permanent one -/
  | compare (accepts : String → Bool) (permanent : Bool)
  /-- `check_update_temporary_password` of a handler, and the password that comes of a rotation -/
  | update (success : Bool) (fresh : String)
  /-- `update_temporary_password` elsewhere -/
  | change (fresh : String)

namespace GuessWorld

def init (enabled : Bool) (password : String) : GuessWorld :=
  ⟨enabled, password, [password], ⟨"", 0⟩, 0, 0, 0, []⟩

/-- `validate_password_plain`, which accepts no empty password. -/
def validatePasswordPlain (accepts : String → Bool) (password : String) : Bool :=
  !password.isEmpty && accepts password

/-- A handler more that waits to record a correct guess. -/
def waitRight (world : GuessWorld) : GuessWorld :=
  { world with
    waitingRight := world.waitingRight + 1
    most := max world.most (world.waitingRight + 1 + world.waitingWrong) }

/-- A handler more that waits to record a wrong guess. -/
def waitWrong (world : GuessWorld) : GuessWorld :=
  { world with
    waitingWrong := world.waitingWrong + 1
    most := max world.most (world.waitingRight + (world.waitingWrong + 1)) }

/-- The comparison with the password that there is now. -/
def note (world : GuessWorld) (correct : Bool) : GuessWorld :=
  { world with log := .compared world.password correct :: world.log }

/-- The comparison of `validate_password`. Who has the permanent password guesses nothing, and records
nothing. -/
def compare (world : GuessWorld) (accepts : String → Bool) (permanent : Bool) : GuessWorld :=
  if world.enabled && validatePasswordPlain accepts world.password then (world.note true).waitRight
  else if permanent then world
  else if world.enabled && !world.password.isEmpty then (world.note false).waitWrong
  else world.waitWrong

/-- A new value, in place of the one before. -/
def setPassword (world : GuessWorld) (fresh : String) : GuessWorld :=
  { world with password := fresh, used := fresh :: world.used }

/-- The counter for the password that there is now. -/
def reconcile (world : GuessWorld) : GuessWorld :=
  if world.state.password ≠ world.password then
    { world with state := ⟨world.password, 0⟩, log := .seen :: world.log }
  else world

/-- `check_update_temporary_password`. -/
def checkUpdateTemporaryPassword (world : GuessWorld) (success : Bool) (fresh : String) : GuessWorld :=
  if !world.enabled then world
  else if world.password.isEmpty then world
  else
    let world := world.reconcile
    if success then
      { world with state := { world.state with failures := 0 }, log := .recorded true :: world.log }
    else
      let failures := world.state.failures + 1
      let world := { world with
        state := { world.state with failures := failures }, log := .recorded false :: world.log }
      if failures < MAX_CONSECUTIVE_FAILURES then world
      else { world.setPassword fresh with state := ⟨fresh, 0⟩, log := .rotated :: world.log }

/-- The handlers that wait to record this outcome. -/
def waiting (world : GuessWorld) (success : Bool) : ℕ :=
  if success then world.waitingRight else world.waitingWrong

/-- A handler less that waits. -/
def done (world : GuessWorld) (success : Bool) : GuessWorld :=
  match success with
  | true => { world with waitingRight := world.waitingRight - 1 }
  | false => { world with waitingWrong := world.waitingWrong - 1 }

/-- The step of a label. A new password is not empty and was not there before. -/
def step (world : GuessWorld) : GuessLabel → Option GuessWorld
  | .compare accepts permanent => some (world.compare accepts permanent)
  | .update success fresh =>
    if (fresh ∉ world.used ∧ fresh ≠ "") ∧ 0 < world.waiting success then
      some ((world.checkUpdateTemporaryPassword success fresh).done success)
    else none
  | .change fresh => if fresh ∉ world.used ∧ fresh ≠ "" then some (world.setPassword fresh) else none

end GuessWorld

/-! ## What is counted -/

/-- The wrong guesses in a row that were compared with a value, up to the latest comparison. -/
def wrongInRow (password : String) : List GuessEvent → ℕ
  | [] => 0
  | .compared password' correct :: log =>
    if password' = password ∧ correct = false then wrongInRow password log + 1 else 0
  | _ :: log => wrongInRow password log

/-- The wrong guesses in a row, where one that is correct ends the row when it is compared and once more when
it is recorded. -/
def wrongSinceRecorded (password : String) : List GuessEvent → ℕ
  | [] => 0
  | .compared password' correct :: log =>
    if password' = password ∧ correct = false then wrongSinceRecorded password log + 1 else 0
  | .recorded true :: _ => 0
  | _ :: log => wrongSinceRecorded password log

/-- The wrong guesses recorded since a correct one was recorded or the counter saw a change. -/
def recordedWrong : List GuessEvent → ℕ
  | [] => 0
  | .recorded false :: log => recordedWrong log + 1
  | .recorded true :: _ => 0
  | .seen :: _ => 0
  | .rotated :: _ => 0
  | .compared _ _ :: log => recordedWrong log

/-- The wrong guesses compared since a correct one was compared or the counter saw a change. -/
def comparedWrong : List GuessEvent → ℕ
  | [] => 0
  | .compared _ true :: _ => 0
  | .compared _ false :: log => comparedWrong log + 1
  | .seen :: _ => 0
  | .rotated :: _ => 0
  | .recorded _ :: log => comparedWrong log

/-! ## The counter -/

namespace GuessWorld

variable {world world' : GuessWorld} {label : GuessLabel} {fresh : String}

/-- The wrong guesses that are counted for the password that there is now. -/
def counted (world : GuessWorld) : ℕ :=
  if world.state.password = world.password then world.state.failures else 0

/-- The events, with that of the counter that looks at the password. -/
def seenLog (world : GuessWorld) : List GuessEvent :=
  if world.state.password = world.password then world.log else .seen :: world.log

@[simp]
theorem wrongInRow_seenLog (password : String) :
    wrongInRow password world.seenLog = wrongInRow password world.log := by
  unfold seenLog
  split <;> rfl

@[simp]
theorem wrongSinceRecorded_seenLog (password : String) :
    wrongSinceRecorded password world.seenLog = wrongSinceRecorded password world.log := by
  unfold seenLog
  split <;> rfl

theorem mem_seenLog {event : GuessEvent} (hevent : event ≠ .seen) : event ∈ world.seenLog ↔ event ∈ world.log := by
  unfold seenLog
  split
  · rfl
  · rw [List.mem_cons]
    exact or_iff_right hevent

theorem recordedWrong_seenLog (h : recordedWrong world.log = world.state.failures) :
    recordedWrong world.seenLog = world.counted := by
  unfold seenLog counted
  split
  · exact h
  · rfl

theorem reconcile_eq (world : GuessWorld) :
    world.reconcile = { world with state := ⟨world.password, world.counted⟩, log := world.seenLog } := by
  unfold reconcile counted seenLog
  by_cases h : world.state.password = world.password
  · have hstate : world.state = ⟨world.password, world.state.failures⟩ := by rw [← h]
    rw [if_neg (not_not.mpr h), if_pos h, if_pos h, ← hstate]
  · rw [if_pos h, if_neg h, if_neg h]

/-- There is nothing to compare with. -/
def Off (world : GuessWorld) : Prop := world.enabled = false ∨ world.password = ""

theorem checkUpdate_off (h : world.Off) (success : Bool) :
    world.checkUpdateTemporaryPassword success fresh = world := by
  unfold checkUpdateTemporaryPassword
  rcases h with h | h <;> simp [h]

theorem checkUpdate_right (h : ¬ world.Off) : world.checkUpdateTemporaryPassword true fresh =
    { world with state := ⟨world.password, 0⟩, log := .recorded true :: world.seenLog } := by
  rw [Off, not_or, Bool.not_eq_false] at h
  simp [checkUpdateTemporaryPassword, h.1, h.2, reconcile_eq]

/-- **A wrong guess recorded** adds to the count, or is the tenth and ends the password. -/
theorem checkUpdate_wrong (h : ¬ world.Off) : world.checkUpdateTemporaryPassword false fresh =
    if world.counted + 1 < MAX_CONSECUTIVE_FAILURES then
      { world with
        state := ⟨world.password, world.counted + 1⟩, log := .recorded false :: world.seenLog }
    else
      { world with
        password := fresh
        used := fresh :: world.used
        state := ⟨fresh, 0⟩
        log := .rotated :: .recorded false :: world.seenLog } := by
  rw [Off, not_or, Bool.not_eq_false] at h
  simp [checkUpdateTemporaryPassword, h.1, h.2, reconcile_eq, setPassword]

/-! ## What holds in every run -/

/-- The values of the comparisons are those that the password had, and none was made while there was nothing
to compare with. -/
structure Known (world : GuessWorld) : Prop where
  password : world.password ∈ world.used
  compared : ∀ password correct, .compared password correct ∈ world.log → password ∈ world.used
  off : world.Off → ∀ password correct, .compared password correct ∉ world.log

theorem wrongInRow_eq_zero {password : String} {log : List GuessEvent}
    (h : ∀ correct, .compared password correct ∉ log) :
    wrongInRow password log = 0 ∧ wrongSinceRecorded password log = 0 := by
  induction log with
  | nil => exact ⟨rfl, rfl⟩
  | cons event log ih =>
    have hlog := ih fun correct hmem => h correct (List.mem_cons_of_mem _ hmem)
    cases event with
    | compared password' correct =>
      have hne : ¬ (password' = password ∧ correct = false) := by
        rintro ⟨rfl, rfl⟩
        exact h false List.mem_cons_self
      rw [wrongInRow, wrongSinceRecorded, if_neg hne, if_neg hne]
      exact ⟨rfl, rfl⟩
    | recorded success =>
      cases success with
      | true => exact ⟨hlog.1, rfl⟩
      | false => exact hlog
    | seen => exact hlog
    | rotated => exact hlog

/-- A value that is new was not guessed. -/
theorem Known.newValue (h : Known world) (hfresh : fresh ∉ world.used) :
    wrongInRow fresh world.log = 0 ∧ wrongSinceRecorded fresh world.log = 0 :=
  wrongInRow_eq_zero fun correct hmem => hfresh (h.compared fresh correct hmem)

theorem Known.noRow (h : Known world) (hoff : world.Off) :
    wrongInRow world.password world.log = 0 ∧ wrongSinceRecorded world.password world.log = 0 :=
  wrongInRow_eq_zero (h.off hoff world.password)

/-- The bounds of the rows of the password that there is now. `waitingRight` handlers may each set the counter
back once more, and `waitingWrong` will count. -/
structure Current (world : GuessWorld) : Prop where
  few : world.state.failures ≤ 9
  waiting : world.waitingRight + world.waitingWrong ≤ world.most
  since : wrongSinceRecorded world.password world.log ≤ world.counted + world.waitingWrong
  row : wrongInRow world.password world.log = 0 ∨ world.waitingRight + 1 ≤ world.most ∧
    wrongInRow world.password world.log ≤
      9 * (world.most - 1 - world.waitingRight) + world.counted + world.waitingWrong

/-- The bounds of the rows of all values. -/
def Bounded (world : GuessWorld) : Prop :=
  ∀ password, wrongSinceRecorded password world.log ≤ 9 + world.most ∧
    wrongInRow password world.log ≤ 10 * world.most

theorem counted_le (world : GuessWorld) : world.counted ≤ world.state.failures := by
  unfold counted
  split
  · exact Nat.le_refl _
  · exact Nat.zero_le _

theorem Current.bounds (h : Current world) : wrongSinceRecorded world.password world.log ≤ 9 + world.most ∧
    wrongInRow world.password world.log ≤ 10 * world.most := by
  obtain ⟨hfew, hwaiting, hsince, hrow⟩ := h
  have hcounted := world.counted_le
  omega

/-- The rows of other values do not grow. -/
theorem Bounded.next (h : Bounded world) (hcurrent : Current world') (hmost : world.most ≤ world'.most)
    (hothers : ∀ password, password ≠ world'.password →
      wrongSinceRecorded password world'.log ≤ wrongSinceRecorded password world.log ∧
        wrongInRow password world'.log ≤ wrongInRow password world.log) : Bounded world' := by
  intro password
  by_cases hpassword : password = world'.password
  · rw [hpassword]
    exact hcurrent.bounds
  · have hold := h password
    have hother := hothers password hpassword
    omega

/-- Every rotation is at the tenth wrong guess that is recorded. -/
def Rotations (log : List GuessEvent) : Prop :=
  ∀ newer older, log = newer ++ .rotated :: older → recordedWrong older = 10

theorem rotations_cons {event : GuessEvent} {log : List GuessEvent} :
    Rotations (event :: log) ↔ (event = .rotated → recordedWrong log = 10) ∧ Rotations log := by
  constructor
  · intro h
    refine ⟨fun hevent => h [] log (by rw [hevent]; rfl), fun newer older heq => ?_⟩
    exact h (event :: newer) older (by rw [heq]; rfl)
  · rintro ⟨hevent, hlog⟩ newer older heq
    cases newer with
    | nil =>
      cases heq
      exact hevent rfl
    | cons first newer => exact hlog newer older (List.cons.inj heq).2

/-- The counter counts what is recorded. -/
structure Rotates (world : GuessWorld) : Prop where
  failures : recordedWrong world.log = world.state.failures
  rotations : Rotations world.log

theorem Rotates.seen (h : Rotates world) : recordedWrong world.seenLog = world.counted ∧
    Rotations world.seenLog := by
  refine ⟨recordedWrong_seenLog h.failures, ?_⟩
  unfold seenLog
  split
  · exact h.rotations
  · exact rotations_cons.mpr ⟨fun heq => (by cases heq), h.rotations⟩

theorem Known.init (enabled : Bool) (password : String) : Known (init enabled password) :=
  ⟨List.mem_cons_self, fun _ _ h => absurd h List.not_mem_nil, fun _ _ _ => List.not_mem_nil⟩

theorem Current.init (enabled : Bool) (password : String) : Current (init enabled password) :=
  ⟨Nat.zero_le _, Nat.le_refl _, Nat.zero_le _, .inl rfl⟩

theorem Rotates.init (enabled : Bool) (password : String) : Rotates (init enabled password) :=
  ⟨rfl, fun _ _ h => absurd h.symm (List.append_ne_nil_of_right_ne_nil _ (List.cons_ne_nil _ _))⟩

/-! ### A comparison -/

theorem compare_off (h : world.Off) (accepts : String → Bool) (permanent : Bool) :
    world.compare accepts permanent = if permanent then world else world.waitWrong := by
  unfold compare validatePasswordPlain
  rcases h with h | h
  · rw [h]
    rfl
  · rw [h]
    simp

theorem compare_on (h : ¬ world.Off) (accepts : String → Bool) (permanent : Bool) :
    world.compare accepts permanent =
      if accepts world.password then (world.note true).waitRight
      else if permanent then world
      else (world.note false).waitWrong := by
  rw [Off, not_or, Bool.not_eq_false] at h
  unfold compare validatePasswordPlain
  simp [h.1, h.2]

theorem Known.note (h : Known world) (hon : ¬ world.Off) (correct : Bool) : Known (world.note correct) := by
  refine ⟨h.password, fun password c hmem => ?_, fun hoff => absurd hoff hon⟩
  rcases List.mem_cons.mp hmem with heq | hmem
  · cases heq
    exact h.password
  · exact h.compared password c hmem

theorem wrongInRow_note_true (password : String) :
    wrongInRow password (world.note true).log = 0 ∧ wrongSinceRecorded password (world.note true).log = 0 := by
  simp [note, wrongInRow, wrongSinceRecorded]

/-- A correct guess ends the row. -/
theorem Current.right (h : Current world) : Current (world.note true).waitRight := by
  obtain ⟨hrow, hsince⟩ := @wrongInRow_note_true world world.password
  refine ⟨h.few, Nat.le_max_right _ _, ?_, .inl hrow⟩
  exact Nat.le_trans (Nat.le_of_eq hsince) (Nat.zero_le _)

/-- A wrong guess adds to the row, and waits to be counted. -/
theorem Current.wrong (h : Current world) : Current (world.note false).waitWrong := by
  obtain ⟨hfew, hwaiting, hsince, hrow⟩ := h
  have hmost : world.most ≤ (world.note false).waitWrong.most := Nat.le_max_left _ _
  have hroom : world.waitingRight + (world.waitingWrong + 1) ≤ (world.note false).waitWrong.most :=
    Nat.le_max_right _ _
  have hrowNext : wrongInRow world.password (world.note false).log = wrongInRow world.password world.log + 1 :=
    if_pos ⟨rfl, rfl⟩
  have hsinceNext : wrongSinceRecorded world.password (world.note false).log =
      wrongSinceRecorded world.password world.log + 1 := if_pos ⟨rfl, rfl⟩
  refine ⟨hfew, hroom, ?_, .inr ⟨?_, ?_⟩⟩
  · change wrongSinceRecorded world.password (world.note false).log ≤ world.counted + (world.waitingWrong + 1)
    omega
  · change world.waitingRight + 1 ≤ (world.note false).waitWrong.most
    omega
  · change wrongInRow world.password (world.note false).log ≤
      9 * ((world.note false).waitWrong.most - 1 - world.waitingRight) + world.counted + (world.waitingWrong + 1)
    omega

/-- A handler with nothing to compare with only waits. -/
theorem Current.idle (h : Current world) : Current world.waitWrong := by
  obtain ⟨hfew, hwaiting, hsince, hrow⟩ := h
  have hmost : world.most ≤ world.waitWrong.most := Nat.le_max_left _ _
  refine ⟨hfew, Nat.le_max_right _ _, Nat.le_trans hsince (Nat.le_succ _), ?_⟩
  refine hrow.imp_right fun hrow => ⟨Nat.le_trans hrow.1 hmost, ?_⟩
  change wrongInRow world.password world.log ≤
    9 * (world.waitWrong.most - 1 - world.waitingRight) + world.counted + (world.waitingWrong + 1)
  omega

/-! ### A recording -/

/-- Where nothing can be guessed, handlers come and go. -/
theorem Current.doneOff (h : Current world) (hknown : Known world) (hoff : world.Off) (success : Bool) :
    Current (world.done success) := by
  obtain ⟨hrow, hsince⟩ := hknown.noRow hoff
  have hwaiting := h.waiting
  cases success with
  | true =>
    refine ⟨h.few, ?_, Nat.le_trans (Nat.le_of_eq hsince) (Nat.zero_le _), .inl hrow⟩
    change world.waitingRight - 1 + world.waitingWrong ≤ world.most
    omega
  | false =>
    refine ⟨h.few, ?_, Nat.le_trans (Nat.le_of_eq hsince) (Nat.zero_le _), .inl hrow⟩
    change world.waitingRight + (world.waitingWrong - 1) ≤ world.most
    omega

/-- A correct guess recorded sets the counter back: nine more wrong ones are not noticed. -/
theorem Current.doneRight (h : Current world) (hright : 0 < world.waitingRight) : Current (GuessWorld.done
      { world with state := ⟨world.password, 0⟩, log := .recorded true :: world.seenLog } true) := by
  obtain ⟨hfew, hwaiting, hsince, hrow⟩ := h
  have hcounted := world.counted_le
  refine ⟨Nat.zero_le _, ?_, Nat.zero_le _, ?_⟩
  · change world.waitingRight - 1 + world.waitingWrong ≤ world.most
    omega
  · have hsame : wrongInRow world.password (.recorded true :: world.seenLog) =
        wrongInRow world.password world.log := wrongInRow_seenLog world.password
    refine hrow.imp (fun hrow => hsame.trans hrow) fun ⟨hmost, hrow⟩ => ⟨?_, ?_⟩
    · change world.waitingRight - 1 + 1 ≤ world.most
      omega
    · change wrongInRow world.password (.recorded true :: world.seenLog) ≤
        9 * (world.most - 1 - (world.waitingRight - 1)) + _ + world.waitingWrong
      omega

/-- A wrong guess recorded is counted and waits no longer. -/
theorem Current.doneWrong (h : Current world) (hwrong : 0 < world.waitingWrong) (hfew : world.counted + 1 ≤ 9) :
    Current (GuessWorld.done { world with
      state := ⟨world.password, world.counted + 1⟩, log := .recorded false :: world.seenLog } false) := by
  obtain ⟨-, hwaiting, hsince, hrow⟩ := h
  have hnext : (GuessWorld.done { world with
      state := ⟨world.password, world.counted + 1⟩, log := .recorded false :: world.seenLog } false).counted =
        world.counted + 1 := if_pos rfl
  have hsame : wrongInRow world.password (.recorded false :: world.seenLog) =
      wrongInRow world.password world.log := wrongInRow_seenLog world.password
  have hsameSince : wrongSinceRecorded world.password (.recorded false :: world.seenLog) =
      wrongSinceRecorded world.password world.log := wrongSinceRecorded_seenLog world.password
  refine ⟨hfew, ?_, ?_, ?_⟩
  · change world.waitingRight + (world.waitingWrong - 1) ≤ world.most
    omega
  · rw [hnext]
    change wrongSinceRecorded world.password (.recorded false :: world.seenLog) ≤
      world.counted + 1 + (world.waitingWrong - 1)
    omega
  · refine hrow.imp (fun hrow => hsame.trans hrow) fun ⟨hmost, hrow⟩ => ⟨hmost, ?_⟩
    rw [hnext]
    change wrongInRow world.password (.recorded false :: world.seenLog) ≤
      9 * (world.most - 1 - world.waitingRight) + (world.counted + 1) + (world.waitingWrong - 1)
    omega

/-- A new password was not guessed yet. -/
theorem Current.ofFresh (hfew : world.state.failures ≤ 9)
    (hwaiting : world.waitingRight + world.waitingWrong ≤ world.most)
    (hrow : wrongInRow world.password world.log = 0)
    (hsince : wrongSinceRecorded world.password world.log = 0) : Current world :=
  ⟨hfew, hwaiting, Nat.le_trans (Nat.le_of_eq hsince) (Nat.zero_le _), .inl hrow⟩

/-! ### Steps -/

/-- The three together. -/
structure Sound (world : GuessWorld) : Prop where
  known : Known world
  current : Current world
  bounded : Bounded world
  rotates : Rotates world

theorem Known.done (h : Known world) (success : Bool) : Known (world.done success) := by
  cases success <;> exact ⟨h.password, h.compared, h.off⟩

theorem Rotates.done (h : Rotates world) (success : Bool) : Rotates (world.done success) := by
  cases success <;> exact ⟨h.failures, h.rotations⟩

theorem log_done (world : GuessWorld) (success : Bool) : (world.done success).log = world.log ∧
    (world.done success).most = world.most ∧ (world.done success).password = world.password := by
  cases success <;> exact ⟨rfl, rfl, rfl⟩

/-- What the counter leaves of the values that are known, for any count. -/
theorem Known.seen (h : Known world) (hon : ¬ world.Off) (state : TemporaryPasswordFailures) (success : Bool) :
    Known { world with state := state, log := .recorded success :: world.seenLog } := by
  refine ⟨h.password, fun password correct hmem => ?_, fun hoff => absurd hoff hon⟩
  rcases List.mem_cons.mp hmem with heq | hmem
  · cases heq
  · exact h.compared password correct ((mem_seenLog (by simp)).mp hmem)

theorem Sound.compare (h : Sound world) (accepts : String → Bool) (permanent : Bool) :
    Sound (world.compare accepts permanent) := by
  obtain ⟨hknown, hcurrent, hbounded, hrotates⟩ := h
  by_cases hoff : world.Off
  · rw [compare_off hoff]
    split
    · exact ⟨hknown, hcurrent, hbounded, hrotates⟩
    · exact ⟨⟨hknown.password, hknown.compared, hknown.off⟩, hcurrent.idle,
        hbounded.next hcurrent.idle (Nat.le_max_left _ _) fun _ _ => ⟨Nat.le_refl _, Nat.le_refl _⟩,
        ⟨hrotates.failures, hrotates.rotations⟩⟩
  · have hothers (correct : Bool) : ∀ password, password ≠ world.password →
        wrongSinceRecorded password (world.note correct).log ≤ wrongSinceRecorded password world.log ∧
          wrongInRow password (world.note correct).log ≤ wrongInRow password world.log := by
      intro password hpassword
      have hne : ¬ (world.password = password ∧ correct = false) := fun heq => hpassword heq.1.symm
      rw [note, wrongSinceRecorded, wrongInRow, if_neg hne, if_neg hne]
      exact ⟨Nat.zero_le _, Nat.zero_le _⟩
    have hnoted (correct : Bool) : Known (world.note correct) := hknown.note hoff correct
    have hrotations (correct : Bool) : Rotations (world.note correct).log :=
      rotations_cons.mpr ⟨fun heq => (by cases heq), hrotates.rotations⟩
    rw [compare_on hoff]
    split
    · exact ⟨⟨(hnoted true).password, (hnoted true).compared, (hnoted true).off⟩, hcurrent.right,
        hbounded.next hcurrent.right (Nat.le_max_left _ _) (hothers true),
        ⟨hrotates.failures, hrotations true⟩⟩
    · split
      · exact ⟨hknown, hcurrent, hbounded, hrotates⟩
      · exact ⟨⟨(hnoted false).password, (hnoted false).compared, (hnoted false).off⟩, hcurrent.wrong,
          hbounded.next hcurrent.wrong (Nat.le_max_left _ _) (hothers false),
          ⟨hrotates.failures, hrotations false⟩⟩

/-- A password that is set is known, and was not guessed. -/
theorem Known.set (h : Known world) (hne : fresh ≠ "") : Known (world.setPassword fresh) := by
  refine ⟨List.mem_cons_self, fun password correct hmem => ?_, fun hoff => ?_⟩
  · exact List.mem_cons_of_mem _ (h.compared password correct hmem)
  · rcases hoff with hoff | hoff
    · exact h.off (.inl hoff)
    · exact absurd hoff hne

theorem Sound.change (h : Sound world) (hfresh : fresh ∉ world.used) (hne : fresh ≠ "") :
    Sound (world.setPassword fresh) := by
  obtain ⟨hknown, hcurrent, hbounded, hrotates⟩ := h
  obtain ⟨hrow, hsince⟩ := hknown.newValue hfresh
  have hnext : Current (world.setPassword fresh) := .ofFresh hcurrent.few hcurrent.waiting hrow hsince
  exact ⟨hknown.set hne, hnext, hbounded.next hnext (Nat.le_refl _) fun _ _ => ⟨Nat.le_refl _, Nat.le_refl _⟩,
    ⟨hrotates.failures, hrotates.rotations⟩⟩

theorem Sound.update (h : Sound world) {success : Bool} (hwaiting : 0 < world.waiting success)
    (hfresh : fresh ∉ world.used) (hne : fresh ≠ "") :
    Sound ((world.checkUpdateTemporaryPassword success fresh).done success) := by
  obtain ⟨hknown, hcurrent, hbounded, hrotates⟩ := h
  by_cases hoff : world.Off
  · rw [checkUpdate_off hoff]
    have hnext := hcurrent.doneOff hknown hoff success
    obtain ⟨hlog, hmost, -⟩ := world.log_done success
    refine ⟨hknown.done success, hnext, hbounded.next hnext (Nat.le_of_eq hmost.symm) fun _ _ => ?_,
      hrotates.done success⟩
    rw [hlog]
    exact ⟨Nat.le_refl _, Nat.le_refl _⟩
  obtain ⟨hseen, hseenRotations⟩ := hrotates.seen
  cases success with
  | true =>
    rw [checkUpdate_right hoff]
    have hnext := hcurrent.doneRight hwaiting
    refine ⟨(hknown.seen hoff _ true).done true, hnext, hbounded.next hnext (Nat.le_refl _) fun password _ => ?_,
      Rotates.done ⟨rfl, rotations_cons.mpr ⟨fun heq => (by cases heq), hseenRotations⟩⟩ true⟩
    exact ⟨Nat.zero_le _, Nat.le_of_eq (wrongInRow_seenLog password)⟩
  | false =>
    have hcount : recordedWrong (.recorded false :: world.seenLog) = world.counted + 1 := congrArg (· + 1) hseen
    have hrotationsNext : Rotations (.recorded false :: world.seenLog) :=
      rotations_cons.mpr ⟨fun heq => (by cases heq), hseenRotations⟩
    rw [checkUpdate_wrong hoff]
    split
    · next hfew =>
      have hnext := hcurrent.doneWrong hwaiting (Nat.le_of_lt_succ hfew)
      refine ⟨(hknown.seen hoff _ false).done false, hnext, hbounded.next hnext (Nat.le_refl _)
        fun password _ => ?_, Rotates.done ⟨hcount, hrotationsNext⟩ false⟩
      exact ⟨Nat.le_of_eq (wrongSinceRecorded_seenLog password), Nat.le_of_eq (wrongInRow_seenLog password)⟩
    · next hmany =>
      -- the tenth: the counter sets a new password
      have hcounted := world.counted_le
      have hfew := hcurrent.few
      have hten : world.counted + 1 = 10 := by
        unfold MAX_CONSECUTIVE_FAILURES at hmany
        omega
      have hset : Known { world with
          password := fresh
          used := fresh :: world.used
          state := ⟨fresh, 0⟩
          log := .rotated :: .recorded false :: world.seenLog } := by
        have hrecorded := (hknown.seen hoff ⟨fresh, 0⟩ false).set hne
        refine ⟨hrecorded.password, fun password correct hmem => ?_, fun h => ?_⟩
        · rcases List.mem_cons.mp hmem with heq | hmem
          · cases heq
          · exact hrecorded.compared password correct hmem
        · rcases h with h | h
          · exact absurd (.inl h) hoff
          · exact absurd h hne
      obtain ⟨hrow, hsince⟩ := hknown.newValue hfresh
      have hwait := hcurrent.waiting
      have hnext : Current (GuessWorld.done { world with
          password := fresh
          used := fresh :: world.used
          state := ⟨fresh, 0⟩
          log := .rotated :: .recorded false :: world.seenLog } false) := by
        refine .ofFresh (Nat.zero_le _) ?_ ((wrongInRow_seenLog fresh).trans hrow)
          ((wrongSinceRecorded_seenLog fresh).trans hsince)
        change world.waitingRight + (world.waitingWrong - 1) ≤ world.most
        omega
      refine ⟨hset.done false, hnext, hbounded.next hnext (Nat.le_refl _) fun password _ => ?_,
        Rotates.done ⟨rfl, rotations_cons.mpr ⟨fun _ => hcount.trans hten, hrotationsNext⟩⟩ false⟩
      exact ⟨Nat.le_of_eq (wrongSinceRecorded_seenLog password), Nat.le_of_eq (wrongInRow_seenLog password)⟩

theorem Sound.step (h : Sound world) (hstep : world.step label = some world') : Sound world' := by
  cases label with
  | compare accepts permanent =>
    cases hstep
    exact h.compare accepts permanent
  | update success fresh =>
    rw [GuessWorld.step, Option.ite_none_right_eq_some] at hstep
    obtain ⟨⟨⟨hfresh, hne⟩, hwaiting⟩, hstep⟩ := hstep
    cases hstep
    exact h.update hwaiting hfresh hne
  | change fresh =>
    rw [GuessWorld.step, Option.ite_none_right_eq_some] at hstep
    obtain ⟨⟨hfresh, hne⟩, hstep⟩ := hstep
    cases hstep
    exact h.change hfresh hne

theorem Sound.init (enabled : Bool) (password : String) : Sound (init enabled password) :=
  ⟨.init enabled password, .init enabled password, fun _ => ⟨Nat.zero_le _, Nat.zero_le _⟩, .init enabled password⟩

end GuessWorld

open GuessWorld

/-- **Guesses of one password.** With at most `most` handlers between comparison and recording, at most `9 + most`
wrong guesses in a row are compared with one value when a correct guess also ends the row as it is recorded,
and `10 * most` when it does not. The counter rotates at the tenth wrong guess that is recorded after the last
correct one was and after the last change that it saw. -/
theorem temporaryPassword_guesses {enabled : Bool} {password : String} {labels : List GuessLabel}
    {world : GuessWorld} (hrun : Run (Steps step) (init enabled password) labels world) :
    (∀ value, wrongSinceRecorded value world.log ≤ 9 + world.most ∧
      wrongInRow value world.log ≤ 10 * world.most) ∧
    ∀ newer older, world.log = newer ++ .rotated :: older → recordedWrong older = 10 := by
  have hsound : Sound world := hrun.invariant (fun _ _ _ h hstep => h.step hstep) (.init enabled password)
  exact ⟨hsound.bounded, hsound.rotates.rotations⟩

/-- One who never knows the password. -/
private def wrongGuess : GuessLabel := .compare (fun _ => false) false

private def rightGuess : GuessLabel := .compare (fun value => value == "p") false

/-- One wrong guess, compared and recorded. -/
theorem temporaryPassword_guesses_one :
    ∃ world, Run (Steps GuessWorld.step) (init true "p") [wrongGuess, .update false "q"] world ∧
      (∀ value, wrongSinceRecorded value world.log ≤ 9 + world.most ∧
        wrongInRow value world.log ≤ 10 * world.most) ∧
      ∀ newer older, world.log = newer ++ .rotated :: older → recordedWrong older = 10 :=
  have hrun : Run (Steps GuessWorld.step) (init true "p") [wrongGuess, .update false "q"] _ :=
    exec_eq_some_iff.mp rfl
  ⟨_, hrun, temporaryPassword_guesses hrun⟩

/-- A correct guess waits to be recorded while nine wrong ones are compared and recorded. Its recording then sets
the counter back, although it was compared before them. -/
private def lateSuccess : List GuessLabel :=
  rightGuess :: (List.replicate 9 [wrongGuess, .update false "q"]).flatten ++
    .update true "q" :: (List.replicate 9 [wrongGuess, .update false "q"]).flatten ++ [wrongGuess, wrongGuess]

/-- Ten wrong guesses are compared before the correct one and recorded after it. -/
private def lateFailures : List GuessLabel :=
  List.replicate 10 wrongGuess ++ rightGuess :: .update true "q" :: List.replicate 10 (.update false "q")

/-- With two handlers at once twenty wrong guesses in a row are compared with one password, and a rotation comes
although no wrong guess was compared since the last correct one. -/
theorem not_temporaryPassword_guesses :
    (∃ world, Run (Steps GuessWorld.step) (init true "p") lateSuccess world ∧ world.most = 2 ∧
      wrongInRow "p" world.log = 20) ∧
    ∃ world older, Run (Steps GuessWorld.step) (init true "p") lateFailures world ∧
      world.log = .rotated :: older ∧ comparedWrong older = 0 :=
  ⟨⟨_, exec_eq_some_iff.mp rfl, rfl, rfl⟩, _, _, exec_eq_some_iff.mp rfl, rfl, rfl⟩

end RustDesk.Connection
