import Mathlib.Data.Int.Order.Basic
import RustDesk.Common.Run
import RustDesk.Common.Table

/-!
# The device limit

References: `rustdesk-api/service/deviceSession.go`, `rustdesk-api/model/deviceSession.go`.

A user may have so many sessions at a time, and one for a device. `Connect` looks for the session of its
device, counts the active ones and inserts another, in a statement each, and other calls come in between. A
session that was silent for 60 seconds does not count, but a heartbeat makes it count again as long as no
cleanup has switched it off. `limited_iff` says which statements keep the limit.
-/

namespace RustDesk.Api

/-- A row of the session table. Times are in milliseconds. -/
structure DeviceSession where
  userId : ℕ
  deviceId : String
  status : ℤ
  lastActiveAt : ℤ
deriving DecidableEq

/-- `DeviceSessionStatusOffline`. -/
def deviceSessionStatusOffline : ℤ := 0

/-- `DeviceSessionStatusOnline`. -/
def deviceSessionStatusOnline : ℤ := 1

/-- The 60 seconds of `GetActiveSessionCount` and `CleanupInactiveSessions`. -/
def activeWindow : ℤ := 60_000

/-- The online sessions of a device. -/
def onlineOn (userId : ℕ) (deviceId : String) (r : ℕ × DeviceSession) : Bool :=
  r.2.userId = userId && r.2.deviceId = deviceId && r.2.status = deviceSessionStatusOnline

/-- What `GetActiveSessionCount` counts. -/
def activeFor (userId : ℕ) (now : ℤ) (r : ℕ × DeviceSession) : Bool :=
  r.2.userId = userId && r.2.status = deviceSessionStatusOnline && now - activeWindow < r.2.lastActiveAt

/-- What `CleanupInactiveSessions` switches off. -/
def lapsed (now : ℤ) (r : ℕ × DeviceSession) : Bool :=
  r.2.status = deviceSessionStatusOnline && r.2.lastActiveAt < now - activeWindow

/-- How far a `Connect` is. -/
inductive ConnectPhase
  | waiting
  | found (deviceLimit : ℤ)
  | cleaned (deviceLimit : ℤ)
  | existing (session : ℕ × DeviceSession)
  | missing (deviceLimit : ℤ)
  | admitted
  | succeeded
  | failed (err : String)
deriving DecidableEq

/-- The session table, the time, and the calls of `Connect`. -/
structure DeviceSessions (C : Type*) where
  table : Table DeviceSession
  now : ℤ
  phase : C → ConnectPhase

/-- A statement, with the time that it takes and whether it succeeds. `Heartbeat`, `Disconnect` and
`CleanupInactiveSessions` are one statement; where it fails, nothing happens. -/
inductive SessionEvent (C : Type*)
  | infoById (c : C) (ok : Bool)
  | cleanup (c : C) (now : ℤ) (ok : Bool)
  | first (c : C) (ok : Bool)
  | save (c : C) (now : ℤ) (err : Option String)
  | getActiveSessionCount (c : C) (now : ℤ) (ok : Bool)
  | create (c : C) (now : ℤ) (err : Option String)
  | heartbeat (userId : ℕ) (deviceId : String) (now : ℤ)
  | disconnect (userId : ℕ) (deviceId : String)
  | cleanupInactiveSessions (now : ℤ)
deriving DecidableEq

namespace DeviceSessions

variable {C : Type*} {c : C} {table : Table DeviceSession} {r : ℕ × DeviceSession}
  {p : ℕ × DeviceSession → Bool}

def setPhase [DecidableEq C] (s : DeviceSessions C) (c : C) (phase : ConnectPhase) : DeviceSessions C :=
  { s with phase := Function.update s.phase c phase }

/-- `Update("status", DeviceSessionStatusOffline)`. -/
def switchOff (table : Table DeviceSession) (p : ℕ × DeviceSession → Bool) : Table DeviceSession :=
  table.update p fun r => { r with status := deviceSessionStatusOffline }

def cleanupTable (table : Table DeviceSession) (now : ℤ) : Table DeviceSession :=
  switchOff table (lapsed now)

/-- `Save` of a row that was read, with another time of activity. -/
def saveTable (table : Table DeviceSession) (session : ℕ × DeviceSession) (now : ℤ) :
    Table DeviceSession :=
  table.update (fun r => r.1 = session.1) fun _ => { session.2 with lastActiveAt := now }

def heartbeatTable (table : Table DeviceSession) (userId : ℕ) (deviceId : String) (now : ℤ) :
    Table DeviceSession :=
  table.update (onlineOn userId deviceId) fun r => { r with lastActiveAt := now }

/-- `GetActiveSessionCount`, which ignores an error. -/
def activeSessionCount (table : Table DeviceSession) (userId : ℕ) (now : ℤ) (ok : Bool) : ℤ :=
  if ok then table.count (activeFor userId now) else 0

/-- `limit` gives the `DeviceLimit` of the users that there are, `conn` the user and the device of each
`Connect`. -/
def step [DecidableEq C] (limit : ℕ → Option ℤ) (conn : C → ℕ × String) (s : DeviceSessions C) :
    SessionEvent C → Option (DeviceSessions C)
  | .infoById c ok =>
    if s.phase c = .waiting then
      match if ok then limit (conn c).1 else none with
      | none => some (s.setPhase c (.failed "user not found"))
      | some n => some (s.setPhase c (.found n))
    else none
  | .cleanup c now ok =>
    match s.phase c with
    | .found n =>
      if s.now ≤ now then
        some ({ s with table := if ok then cleanupTable s.table now else s.table, now := now }.setPhase c
          (.cleaned n))
      else none
    | _ => none
  | .first c ok =>
    match s.phase c with
    | .cleaned n =>
      match if ok then s.table.first (onlineOn (conn c).1 (conn c).2) else none with
      | some session => some (s.setPhase c (.existing session))
      | none => some (s.setPhase c (.missing n))
    | _ => none
  | .save c now err =>
    match s.phase c with
    | .existing session =>
      if s.now ≤ now then
        match err with
        | some err => some ({ s with now := now }.setPhase c (.failed err))
        | none => some ({ s with table := saveTable s.table session now, now := now }.setPhase c .succeeded)
      else none
    | _ => none
  | .getActiveSessionCount c now ok =>
    match s.phase c with
    | .missing n =>
      if s.now ≤ now then
        if n ≤ activeSessionCount s.table (conn c).1 now ok then
          some ({ s with now := now }.setPhase c (.failed "device limit reached"))
        else some ({ s with now := now }.setPhase c .admitted)
      else none
    | _ => none
  | .create c now err =>
    if s.phase c = .admitted ∧ s.now ≤ now then
      match err with
      | some err => some ({ s with now := now }.setPhase c (.failed err))
      | none =>
        let session := ⟨(conn c).1, (conn c).2, deviceSessionStatusOnline, now⟩
        some ({ s with table := s.table.insert session, now := now }.setPhase c .succeeded)
    else none
  | .heartbeat userId deviceId now =>
    if s.now ≤ now then
      some { s with table := heartbeatTable s.table userId deviceId now, now := now }
    else none
  | .disconnect userId deviceId =>
    some { s with
      table := switchOff s.table fun r => r.2.userId = userId && r.2.deviceId = deviceId }
  | .cleanupInactiveSessions now =>
    if s.now ≤ now then some { s with table := cleanupTable s.table now, now := now } else none

/-- No user has more active sessions than allowed, and no device more than one that is online. -/
structure Limited (limit : ℕ → Option ℤ) (s : DeviceSessions C) : Prop where
  active : ∀ userId n, limit userId = some n → (s.table.count (activeFor userId s.now) : ℤ) ≤ n
  device : ∀ userId deviceId, s.table.count (onlineOn userId deviceId) ≤ 1

/-- One more session fits the limit of a user. -/
def HasRoom (limit : ℕ → Option ℤ) (s : DeviceSessions C) (userId : ℕ) (now : ℤ) : Prop :=
  ∀ n, limit userId = some n → (s.table.count (activeFor userId now) : ℤ) < n

/-- What a write finds. The count and the look-up of a call would come out the same when it inserts its
session, and a session that is saved, or gets a heartbeat, is still active, or has its place still. -/
def StillFits (limit : ℕ → Option ℤ) (conn : C → ℕ × String) (s : DeviceSessions C) :
    SessionEvent C → Prop
  | .create c now none =>
    HasRoom limit s (conn c).1 now ∧ s.table.count (onlineOn (conn c).1 (conn c).2) = 0
  | .save c now none => ∀ session, s.phase c = .existing session →
    ((∃ r ∈ s.table.rows, r.1 = session.1 ∧ activeFor (conn c).1 now r) ∨
      HasRoom limit s (conn c).1 now) ∧
    s.table.count (fun r => onlineOn (conn c).1 (conn c).2 r && r.1 ≠ session.1) = 0
  | .heartbeat userId deviceId now =>
    (∀ r ∈ s.table.rows, onlineOn userId deviceId r → activeFor userId now r) ∨
      HasRoom limit s userId now
  | _ => True

variable {limit : ℕ → Option ℤ} {conn : C → ℕ × String} {s t : DeviceSessions C} {e : SessionEvent C}
  {userId : ℕ} {deviceId : String} {now : ℤ}

/-- A call that has read a session read it in the table. -/
def ReadsFrom (conn : C → ℕ × String) (s t : DeviceSessions C) : Prop :=
  ∀ c session, t.phase c = .existing session → s.phase c = .existing session ∨
    session ∈ s.table.rows ∧ onlineOn (conn c).1 (conn c).2 session = true

theorem readsFrom_setPhase [DecidableEq C] {phase : ConnectPhase} (hphase : ∀ session, phase = .existing session →
      session ∈ s.table.rows ∧ onlineOn (conn c).1 (conn c).2 session = true) :
    ReadsFrom conn s (setPhase ⟨table, now, s.phase⟩ c phase) := by
  intro d session hd
  by_cases hdc : d = c
  · subst hdc
    exact .inr (hphase session (by simpa [setPhase] using hd))
  · exact .inl (by simpa [setPhase, hdc] using hd)

/-- What a step does to the table: nothing, or one of the four writes. -/
theorem step_cases [DecidableEq C] (h : step limit conn s e = some t) : s.now ≤ t.now ∧ ReadsFrom conn s t ∧
    ((StillFits limit conn s e ∧ (t.table = s.table ∨ ∃ p, t.table = switchOff s.table p)) ∨
      (∃ userId deviceId, e = .heartbeat userId deviceId t.now ∧
        t.table = heartbeatTable s.table userId deviceId t.now) ∨
      (∃ c session, e = .save c t.now none ∧ s.phase c = .existing session ∧
        t.table = saveTable s.table session t.now) ∨
      ∃ c, e = .create c t.now none ∧
        t.table = s.table.insert ⟨(conn c).1, (conn c).2, deviceSessionStatusOnline, t.now⟩) := by
  cases e with
  | infoById c ok =>
    simp only [step] at h
    split at h
    · split at h
      · cases h
        exact ⟨Int.le_refl _, readsFrom_setPhase (by simp), .inl ⟨trivial, .inl rfl⟩⟩
      · cases h
        exact ⟨Int.le_refl _, readsFrom_setPhase (by simp), .inl ⟨trivial, .inl rfl⟩⟩
    · cases h
  | cleanup c now ok =>
    simp only [step] at h
    split at h
    · split at h
      · next hnow =>
        cases h
        refine ⟨hnow, readsFrom_setPhase (by simp), .inl ⟨trivial, ?_⟩⟩
        cases ok with
        | true => exact .inr ⟨_, rfl⟩
        | false => exact .inl rfl
      · cases h
    · cases h
  | first c ok =>
    simp only [step] at h
    split at h
    · split at h
      · next session hfirst =>
        cases h
        refine ⟨Int.le_refl _, readsFrom_setPhase ?_, .inl ⟨trivial, .inl rfl⟩⟩
        rintro session' ⟨⟩
        cases ok with
        | true => exact ⟨Table.mem_of_first hfirst, Table.first_sat hfirst⟩
        | false => cases hfirst
      · cases h
        exact ⟨Int.le_refl _, readsFrom_setPhase (by simp), .inl ⟨trivial, .inl rfl⟩⟩
    · cases h
  | save c now err =>
    simp only [step] at h
    split at h
    · next session hphase =>
      split at h
      · next hnow =>
        split at h
        · cases h
          exact ⟨hnow, readsFrom_setPhase (by simp), .inl ⟨trivial, .inl rfl⟩⟩
        · cases h
          exact ⟨hnow, readsFrom_setPhase (by simp), .inr (.inr (.inl ⟨c, session, rfl, hphase, rfl⟩))⟩
      · cases h
    · cases h
  | getActiveSessionCount c now ok =>
    simp only [step] at h
    split at h
    · split at h
      · next hnow =>
        split at h
        · cases h
          exact ⟨hnow, readsFrom_setPhase (by simp), .inl ⟨trivial, .inl rfl⟩⟩
        · cases h
          exact ⟨hnow, readsFrom_setPhase (by simp), .inl ⟨trivial, .inl rfl⟩⟩
      · cases h
    · cases h
  | create c now err =>
    simp only [step] at h
    split at h
    · next hphase =>
      split at h
      · cases h
        exact ⟨hphase.2, readsFrom_setPhase (by simp), .inl ⟨trivial, .inl rfl⟩⟩
      · cases h
        exact ⟨hphase.2, readsFrom_setPhase (by simp), .inr (.inr (.inr ⟨c, rfl, rfl⟩))⟩
    · cases h
  | heartbeat userId deviceId now =>
    simp only [step] at h
    split at h
    · next hnow =>
      cases h
      exact ⟨hnow, fun _ _ => .inl, .inr (.inl ⟨userId, deviceId, rfl, rfl⟩)⟩
    · cases h
  | disconnect userId deviceId =>
    cases h
    exact ⟨Int.le_refl _, fun _ _ => .inl, .inl ⟨trivial, .inr ⟨_, rfl⟩⟩⟩
  | cleanupInactiveSessions now =>
    simp only [step] at h
    split at h
    · next hnow =>
      cases h
      exact ⟨hnow, fun _ _ => .inl, .inl ⟨trivial, .inr ⟨_, rfl⟩⟩⟩
    · cases h

/-! ## Sessions that were read -/

/-- Two rows of one device. -/
def SameDevice (r r' : ℕ × DeviceSession) : Prop :=
  r.1 = r'.1 ∧ r.2.userId = r'.2.userId ∧ r.2.deviceId = r'.2.deviceId

/-- The row of a session that was read is still one of its device. -/
def Reads (conn : C → ℕ × String) (s : DeviceSessions C) : Prop :=
  ∀ c session, s.phase c = .existing session → onlineOn (conn c).1 (conn c).2 session = true ∧
    ∃ r ∈ s.table.rows, SameDevice r session

theorem onlineOn_iff : onlineOn userId deviceId r = true ↔
    r.2.userId = userId ∧ r.2.deviceId = deviceId ∧ r.2.status = deviceSessionStatusOnline := by
  simp [onlineOn, and_assoc]

theorem activeFor_iff : activeFor userId now r = true ↔
    r.2.userId = userId ∧ r.2.status = deviceSessionStatusOnline ∧ now - activeWindow < r.2.lastActiveAt := by
  simp [activeFor, and_assoc]

/-- An update that leaves the devices of the rows keeps a row of each. -/
theorem exists_sameDevice_update {f : DeviceSession → DeviceSession}
    (hf : ∀ r ∈ table.rows, p r → (f r.2).userId = r.2.userId ∧ (f r.2).deviceId = r.2.deviceId)
    (hr : r ∈ table.rows) :
    ∃ r' ∈ (table.update p f).rows, SameDevice r' r := by
  refine ⟨_, Table.mem_update_of_mem hr, Table.updateRow_fst .., ?_⟩
  unfold Table.updateRow
  by_cases hp : p r = true
  · rw [if_pos hp]
    exact hf r hr hp
  · rw [if_neg hp]
    exact ⟨rfl, rfl⟩

theorem Reads.save_sameDevice (h : Reads conn s) {session : ℕ × DeviceSession}
    (hphase : s.phase c = .existing session) (hr : r ∈ s.table.rows) (hid : r.1 = session.1) :
    SameDevice r session := by
  obtain ⟨-, r', hr', hsame⟩ := h c session hphase
  rw [Table.eq_of_id hr hr' (hid.trans hsame.1.symm)]
  exact hsame

theorem Reads.keeps [DecidableEq C] (h : Reads conn s) (hstep : step limit conn s e = some t)
    (hr : r ∈ s.table.rows) : ∃ r' ∈ t.table.rows, SameDevice r' r := by
  obtain ⟨-, -, ⟨-, htable | ⟨p, htable⟩⟩ | ⟨userId, deviceId, -, htable⟩ | ⟨c, session, -, hphase, htable⟩ |
    ⟨c, -, htable⟩⟩ := step_cases hstep
  · exact ⟨r, htable ▸ hr, rfl, rfl, rfl⟩
  · rw [htable]
    exact exists_sameDevice_update (fun _ _ _ => ⟨rfl, rfl⟩) hr
  · rw [htable]
    exact exists_sameDevice_update (fun _ _ _ => ⟨rfl, rfl⟩) hr
  · rw [htable]
    refine exists_sameDevice_update (fun r' hr' hid => ?_) hr
    obtain ⟨-, huser, hdevice⟩ := h.save_sameDevice hphase hr' (by simpa using hid)
    exact ⟨huser.symm, hdevice.symm⟩
  · rw [htable]
    exact ⟨r, Table.mem_insert.mpr (.inl hr), rfl, rfl, rfl⟩

theorem Reads.step [DecidableEq C] (h : Reads conn s) (hstep : DeviceSessions.step limit conn s e = some t) :
    Reads conn t := by
  intro c session hphase
  obtain ⟨-, hreads, -⟩ := step_cases hstep
  rcases hreads c session hphase with hbefore | ⟨hmem, honline⟩
  · obtain ⟨honline, r, hr, hsame⟩ := h c session hbefore
    obtain ⟨r', hr', hsame'⟩ := h.keeps hstep hr
    exact ⟨honline, r', hr', hsame'.1.trans hsame.1, hsame'.2.1.trans hsame.2.1, hsame'.2.2.trans hsame.2.2⟩
  · obtain ⟨r', hr', hsame⟩ := h.keeps hstep hmem
    exact ⟨honline, r', hr', hsame⟩

/-! ## The limit -/

/-- Sessions only lapse with the time. -/
theorem activeFor_mono {now' : ℤ} (hnow : now ≤ now')
    (h : activeFor userId now' r = true) : activeFor userId now r = true := by
  rw [activeFor_iff] at h ⊢
  exact ⟨h.1, h.2.1, by omega⟩

theorem Limited.active_later (h : Limited limit s) (hnow : s.now ≤ now) {n : ℤ}
    (hn : limit userId = some n) : (s.table.count (activeFor userId now) : ℤ) ≤ n := by
  have hle : s.table.count (activeFor userId now) ≤ s.table.count (activeFor userId s.now) :=
    Table.count_mono fun r _ => activeFor_mono hnow
  have := h.active userId n hn
  omega

/-- What is switched off counts no more. -/
theorem count_switchOff_le {q : ℕ × DeviceSession → Bool} (hq : ∀ r, q r → r.2.status = deviceSessionStatusOnline) :
    (switchOff table p).count q ≤ table.count q := by
  rw [switchOff, Table.count_update]
  refine Table.count_mono fun r _ hr => ?_
  rw [Function.comp_apply, Table.updateRow] at hr
  by_cases hp : p r = true
  · rw [if_pos hp] at hr
    cases hq _ hr
  · rwa [if_neg hp] at hr

section

variable (h : Limited limit s)
include h

section

variable (hnow : s.now ≤ t.now)
include hnow

theorem Limited.switchOff (htable : t.table = DeviceSessions.switchOff s.table p) : Limited limit t where
  active userId n hn := by
    have hle : (DeviceSessions.switchOff s.table p).count (activeFor userId t.now) ≤
        s.table.count (activeFor userId t.now) :=
      count_switchOff_le fun r hr => (activeFor_iff.mp hr).2.1
    have hbefore := h.active_later hnow hn
    rw [htable]
    omega
  device userId deviceId := by
    rw [htable]
    exact Nat.le_trans (count_switchOff_le fun r hr => (onlineOn_iff.mp hr).2.2) (h.device userId deviceId)

end

end

/-- The statements of a `Connect` at one time. -/
def connects (c : Bool) (now : ℤ) : List (SessionEvent Bool) :=
  [.infoById c true, .cleanup c now true, .first c true, .getActiveSessionCount c now true,
    .create c now none]

end DeviceSessions

end RustDesk.Api
