import RustDesk.Connection.OnMessage
import RustDesk.Connection.WrongGuesses

/-!
# How many wrong guesses are recorded in one minute

The bound on what an address records with one minute needs more than the check of its counter: that
its handlers run one at a time, that the clock is not set back, and that no success comes between.
-/

namespace RustDesk.Connection

open Net

namespace FailureState

variable {s t : FailureState} {table : Fin 2} {key : FailureKey}

/-! ## Failures in one minute -/

/-- The handlers of an address between their start and their update. -/
def running (s : FailureState) (table : Fin 2) (ip : IpAddr) : ℕ :=
  s.handlers.countP fun h => h.table = table && h.ip = ip

/-- The failures of one minute that are recorded after the last reset. -/
def inMinute (table : Fin 2) (ip : IpAddr) (minute : ℕ) (log : List FailureEvent) : ℕ :=
  (sinceReset (·.resetFor table (.ip ip)) log).count (.recorded table ip minute)

section Minutes

variable {ip : IpAddr} {n : ℕ} {h : FailureHandler}

/-- The invariant of the counter of a minute, for one address whose handlers run one at a time. -/
structure Minutes (table : Fin 2) (ip : IpAddr) (s : FailureState) : Prop where
  one : s.running table ip ≤ 1
  entry_le_clock : ((s.tables table).entry (.ip ip)).minute ≤ s.clock
  counted : inMinute table ip ((s.tables table).entry (.ip ip)).minute s.log
    ≤ ((s.tables table).entry (.ip ip)).inMinute
  later : ∀ m, ((s.tables table).entry (.ip ip)).minute < m → inMinute table ip m s.log = 0
  time : ∀ h ∈ s.handlers, h.table = table → h.ip = ip →
    ((s.tables table).entry (.ip ip)).minute ≤ h.time ∧ h.time ≤ s.clock
  passed : ∀ h ∈ s.handlers, h.table = table → h.ip = ip → h.passed (.ip ip) →
    inMinute table ip h.time s.log ≤ 6
  history : ∀ before, before <+: s.log → ∀ m, inMinute table ip m before ≤ 7

theorem Minutes.init (table : Fin 2) (ip : IpAddr) : Minutes table ip init where
  one := Nat.zero_le _
  entry_le_clock := Nat.le_refl _
  counted := Nat.le_refl _
  later _ _ := rfl
  time _ hh := nomatch hh
  passed _ hh := nomatch hh
  history before hbefore m := by
    rw [List.prefix_nil.mp hbefore]
    exact Nat.zero_le _

theorem inMinute_concat_reset {e : FailureEvent} (he : e.resetFor table (.ip ip) = true) (m : ℕ)
    (log : List FailureEvent) : inMinute table ip m (log ++ [e]) = 0 := by
  rw [inMinute, sinceReset_reset he, List.count_nil]

theorem inMinute_concat {e : FailureEvent} (he : e.resetFor table (.ip ip) = false) (m : ℕ)
    (log : List FailureEvent) :
    inMinute table ip m (log ++ [e])
      = inMinute table ip m log + if e = .recorded table ip m then 1 else 0 := by
  rw [inMinute, sinceReset_concat he, List.count_append, List.count_singleton, inMinute]
  simp only [beq_iff_eq]

section

variable (hs : Minutes table ip s)
include hs

/-- Handlers that move on, without the tables or the log having changed for the address. -/
theorem Minutes.of_handlers {handlers : List FailureHandler} {clock : ℕ} (hclock : s.clock ≤ clock)
    (hone : handlers.countP (fun h => h.table = table && h.ip = ip) ≤ 1)
    (hnew : ∀ h ∈ handlers, h.table = table → h.ip = ip → h ∈ s.handlers ∨
      (((s.tables table).entry (.ip ip)).minute ≤ h.time ∧ h.time ≤ clock) ∧
        (h.passed (.ip ip) → inMinute table ip h.time s.log ≤ 6)) :
    Minutes table ip { s with handlers := handlers, clock := clock } where
  one := hone
  entry_le_clock := hs.entry_le_clock.trans hclock
  counted := hs.counted
  later := hs.later
  time h hh htable hip := by
    obtain hold | ⟨htime, -⟩ := hnew h hh htable hip
    · exact ⟨(hs.time h hold htable hip).1, (hs.time h hold htable hip).2.trans hclock⟩
    · exact htime
  passed h hh htable hip hpassed := by
    obtain hold | ⟨-, hpass⟩ := hnew h hh htable hip
    · exact hs.passed h hold htable hip hpassed
    · exact hpass hpassed
  history := hs.history

theorem Minutes.leave (n : ℕ) : Minutes table ip (s.leave n) := by
  refine hs.of_handlers (Nat.le_refl _) ?_ fun h hh _ _ => .inl (List.mem_of_mem_eraseIdx hh)
  exact (List.eraseIdx_sublist _ _).countP_le.trans hs.one

theorem Minutes.moveTo (hn : s.handlers[n]? = some h) {stage : FailureStage}
    (hpass : h.table = table → h.ip = ip → { h with stage := stage }.passed (.ip ip) →
      inMinute table ip h.time s.log ≤ 6) :
    Minutes table ip (s.moveTo n h stage) := by
  refine hs.of_handlers (Nat.le_refl _) ?_ fun h' hh' htable hip => ?_
  · have hcount := countP_set (p := fun h => h.table = table && h.ip = ip) hn
      { h with stage := stage }
    rw [Nat.add_right_cancel hcount]
    exact hs.one
  · obtain hold | rfl := List.mem_or_eq_of_mem_set hh'
    · exact .inl hold
    · exact .inr ⟨hs.time h (List.mem_of_getElem? hn) htable hip, hpass htable hip⟩

/-- What the log gains is not about the address, and neither is a change of the tables. -/
theorem Minutes.frame {tables : Fin 2 → FailureMap} {events : List FailureEvent}
    (hentry : (tables table).entry (.ip ip) = (s.tables table).entry (.ip ip))
    (hreset : ∀ e ∈ events, e.resetFor table (.ip ip) = false)
    (hrecorded : ∀ e ∈ events, ∀ m, e ≠ .recorded table ip m) :
    Minutes table ip { s with tables := tables, log := s.log ++ events } := by
  have hsame : (∀ m, inMinute table ip m (s.log ++ events) = inMinute table ip m s.log) ∧
      ∀ before, before <+: s.log ++ events → ∀ m, inMinute table ip m before ≤ 7 := by
    induction events using List.reverseRecOn with
    | nil =>
      rw [List.append_nil]
      exact ⟨fun _ => rfl, hs.history⟩
    | append_singleton events e ih =>
      obtain ⟨hsame, hhistory⟩ := ih (fun e he => hreset e (List.mem_append_left _ he))
        fun e he => hrecorded e (List.mem_append_left _ he)
      have hconcat (m : ℕ) : inMinute table ip m (s.log ++ events ++ [e])
          = inMinute table ip m s.log := by
        rw [inMinute_concat (hreset e (by simp)), if_neg (hrecorded e (by simp) m), hsame, Nat.add_zero]
      rw [← List.append_assoc]
      exact ⟨hconcat, history_concat hhistory fun m => (hconcat m).trans_le (hs.history _ List.prefix_rfl m)⟩
  obtain ⟨hsame, hhistory⟩ := hsame
  refine ⟨hs.one, ?_, ?_, ?_, ?_, fun h hh htable hip hpass => ?_, hhistory⟩
  · rw [hentry]
    exact hs.entry_le_clock
  · rw [hentry]
    exact (hsame _).trans_le hs.counted
  · rw [hentry]
    exact fun m hm => (hsame m).trans (hs.later m hm)
  · rw [hentry]
    exact hs.time
  · exact (hsame _).trans_le (hs.passed h hh htable hip hpass)

section

variable (hn : s.handlers[n]? = some h)
include hn

theorem Minutes.readStep {done : ℕ} : Minutes table ip (s.readStep n h done) := by
  obtain ⟨err, heq⟩ | heq | ⟨hcheck, heq⟩ := readStep_cases (s := s) n h done
  · exact heq ▸ (hs.leave n).frame rfl (by simp [FailureEvent.resetFor]) (by simp)
  · refine heq ▸ hs.moveTo hn fun _ hip hpassed => ?_
    have hmem := of_decide_eq_true hpassed
    exact absurd (List.map_subset _ (List.take_subset _ _) hmem) (ip_notMem_prefixChecks ip h.ip)
  · refine heq ▸ hs.moveTo hn fun htable hip _ => ?_
    subst htable hip
    obtain ⟨htime, -⟩ := hs.time h (List.mem_of_getElem? hn) rfl rfl
    obtain hlt | heq := Nat.lt_or_eq_of_le htime
    · rw [hs.later _ hlt]
      exact Nat.zero_le _
    · rw [← heq]
      exact hs.counted.trans ((FailureMap.checkIp_eq_none hcheck).2 heq.symm)

theorem Minutes.compareStep
    {failure : FailureEntry} (hstage : h.stage = .compare failure) (accepted : Option Bool) :
    Minutes table ip (s.compareStep n h failure accepted) := by
  have hmove (remove : Bool) : Minutes table ip (s.moveTo n h (.update failure remove)) := by
    refine hs.moveTo hn fun htable hip hpassed => ?_
    refine hs.passed h (List.mem_of_getElem? hn) htable hip ?_
    rw [passed_of_compare hstage, ← passed_of_update (h := { h with stage := _ }) rfl]
    exact hpassed
  match accepted with
  | none => exact hs.leave n
  | some true => exact hmove true
  | some false => exact (hmove false).frame rfl (by simp [FailureEvent.resetFor]) (by simp)

/-- Once the only handler of the address is done, none is left. -/
theorem Minutes.none_left (htable : h.table = table) (hip : h.ip = ip) :
    ∀ h' ∈ (s.leave n).handlers, h'.table = table → h'.ip ≠ ip := by
  have hcount := countP_leave (p := fun h => h.table = table && h.ip = ip) hn
  have hone := hs.one
  simp only [htable, hip, decide_true, Bool.and_self, if_true] at hcount
  have hzero : (s.leave n).handlers.countP (fun h => h.table = table && h.ip = ip) = 0 := by
    unfold running at hone
    omega
  intro h' hh' htable' hip'
  exact List.countP_eq_zero.mp hzero h' hh' (by simp [htable', hip'])

end

/-- An update of another address, or of the other table, changes nothing here. -/
theorem Minutes.updateStep_other (failure : FailureEntry)
    (remove : Bool) (hother : ¬ (h.table = table ∧ h.ip = ip)) :
    Minutes table ip (s.updateStep n h failure remove) := by
  have hentry : ((s.updateStep n h failure remove).tables table).entry (.ip ip)
      = (s.tables table).entry (.ip ip) := by
    rw [updateStep_entry, if_neg]
    rwa [mem_failureKeys_ip]
  refine (hs.leave n).frame hentry ?_ ?_
  · unfold updateEvents
    split_ifs <;> simp [FailureEvent.resetFor, mem_failureKeys_ip]
    simpa using hother
  · unfold updateEvents
    split_ifs <;> simp
    simpa using hother

/-- Recording a failure of a minute counts it, and there were at most six before. -/
theorem Minutes.record (hn : s.handlers[n]? = some h)
    {failure : FailureEntry} (hstage : h.stage = .update failure false)
    (htable : h.table = table) (hip : h.ip = ip) :
    Minutes table ip (s.updateStep n h failure false) := by
  have hmem := List.mem_of_getElem? hn
  obtain ⟨htime, hclock⟩ := hs.time h hmem htable hip
  have hsix := hs.passed h hmem htable hip (by
    rw [passed_of_update hstage, hip]
    exact decide_eq_true (mem_failureKeys_ip.mpr rfl))
  have hleft := hs.none_left hn htable hip
  have hentry : ((s.updateStep n h failure false).tables table).entry (.ip ip)
      = bumpFailureEntry ((s.tables table).entry (.ip ip)) h.time := by
    rw [updateStep_entry, if_pos ⟨htable, mem_failureKeys_ip.mpr hip⟩, if_neg (by decide)]
  have hlog (m : ℕ) : inMinute table ip m (s.updateStep n h failure false).log
      = inMinute table ip m s.log + if h.time = m then 1 else 0 := by
    have hevents : (s.updateStep n h failure false).log
        = s.log ++ [.recorded h.table h.ip h.time] := rfl
    rw [hevents, inMinute_concat rfl]
    simp [htable, hip]
  have hminute : (bumpFailureEntry ((s.tables table).entry (.ip ip)) h.time).minute = h.time := by
    unfold bumpFailureEntry
    split
    next heq => exact heq
    · rfl
  have hseven (m : ℕ) : inMinute table ip m (s.updateStep n h failure false).log ≤ 7 := by
    rw [hlog]
    split
    next heq => exact Nat.succ_le_succ (heq ▸ hsix)
    · exact hs.history _ List.prefix_rfl m
  refine ⟨(hs.leave n).one, ?_, ?_, ?_, fun h' hh' htable' hip' => ?_,
    fun h' hh' htable' hip' => ?_, history_concat hs.history hseven⟩
  · rw [hentry, hminute]
    exact hclock
  · rw [hentry, hminute, hlog, if_pos rfl]
    unfold bumpFailureEntry
    split
    next heq =>
      rw [← heq]
      exact Nat.succ_le_succ hs.counted
    next hne => rw [hs.later _ (Nat.lt_of_le_of_ne htime hne)]
  · intro m hm
    rw [hentry, hminute] at hm
    rw [hlog, if_neg hm.ne, hs.later m (htime.trans_lt hm)]
  · exact absurd hip' (hleft h' hh' htable')
  · exact absurd hip' (hleft h' hh' htable')

/-- A success forgets the failures, unless none was known when it was checked. -/
theorem Minutes.accept (hn : s.handlers[n]? = some h)
    (failure : FailureEntry) (htable : h.table = table) (hip : h.ip = ip) :
    Minutes table ip (s.updateStep n h failure true) := by
  have hleft := hs.none_left hn htable hip
  by_cases hminute : failure.minute = 0
  · have hentry : ((s.updateStep n h failure true).tables table).entry (.ip ip)
        = (s.tables table).entry (.ip ip) := by
      rw [updateStep_entry]
      simp [hminute]
    refine (hs.leave n).frame hentry ?_ ?_ <;> simp [updateEvents, hminute]
  have hentry : ((s.updateStep n h failure true).tables table).entry (.ip ip) = .none := by
    rw [updateStep_entry, if_pos ⟨htable, mem_failureKeys_ip.mpr hip⟩, if_pos rfl, if_pos hminute]
  have hlog (m : ℕ) : inMinute table ip m (s.updateStep n h failure true).log = 0 := by
    have hreset : (FailureEvent.reset h.table h.ip).resetFor table (.ip ip) = true := by
      simp [FailureEvent.resetFor, htable, hip, mem_failureKeys_ip]
    unfold updateStep updateEvents
    rw [if_pos rfl, if_pos hminute]
    exact inMinute_concat_reset hreset m s.log
  have hhistory : ∀ before, before <+: (s.updateStep n h failure true).log →
      ∀ m, inMinute table ip m before ≤ 7 := by
    have hevents : (s.updateStep n h failure true).log = s.log ++ [.reset h.table h.ip] := by
      simp [updateStep, updateEvents, hminute]
    rw [hevents] at hlog ⊢
    exact history_concat hs.history fun m => (hlog m).trans_le (Nat.zero_le _)
  refine ⟨(hs.leave n).one, ?_, (hlog _).trans_le (Nat.zero_le _), fun m _ => hlog m,
    fun h' hh' htable' hip' => ?_, fun h' hh' htable' hip' => ?_, hhistory⟩
  · rw [hentry]
    exact Nat.zero_le _
  · exact absurd hip' (hleft h' hh' htable')
  · exact absurd hip' (hleft h' hh' htable')

/-- **The step lemma.** -/
theorem Minutes.step {a : Action} (h : s.step a = some t)
    (hone : t.running table ip ≤ 1) (hclock : s.clock ≤ t.clock) : Minutes table ip t := by
  obtain ⟨table', ip', time, rfl⟩ | ⟨n, handler, hn, hstep⟩ := step_cases h
  · refine hs.of_handlers hclock hone fun h hh _ _ => ?_
    obtain hold | hnew := List.mem_append.mp hh
    · exact .inl hold
    · obtain rfl := List.mem_singleton.mp hnew
      refine .inr ⟨⟨hs.entry_le_clock.trans hclock, Nat.le_refl _⟩, fun hpassed => ?_⟩
      simp [FailureHandler.passed] at hpassed
  obtain ⟨done, hstage, rfl⟩ | ⟨failure, accepted, hstage, rfl⟩ | ⟨failure, remove, hstage, rfl⟩ := hstep
  · exact hs.readStep hn
  · exact hs.compareStep hn hstage accepted
  · by_cases hself : handler.table = table ∧ handler.ip = ip
    · obtain ⟨htable, hip⟩ := hself
      cases remove with
      | false => exact hs.record hn hstage htable hip
      | true => exact hs.accept hn failure htable hip
    · exact hs.updateStep_other failure remove hself

end

end Minutes

/-- **The bound of a minute.** -/
theorem recorded_in_minute_le {ip : IpAddr} (h : Reached (fun s t => t.running table ip ≤ 1 ∧ s.clock ≤ t.clock) s)
    {seg : List FailureEvent} (hseg : seg <:+: s.log)
    (hreset : ∀ e ∈ seg, e.resetFor table (.ip ip) = false) (minute : ℕ) :
    seg.count (.recorded table ip minute) ≤ 7 := by
  obtain ⟨as, hrun⟩ := h
  have hs : Minutes table ip s := by
    refine hrun.invariant (fun s a t (hs : Minutes table ip s) hstep => ?_) (.init table ip)
    exact hs.step hstep.1 hstep.2.1 hstep.2.2
  exact countP_stretch_le (fun before hbefore => hs.history before hbefore minute) hseg hreset

/-! ## Fixed runs -/

/-- A run that the step function computes. -/
theorem reached_of_exec {Ok : FailureState → FailureState → Prop} [∀ s t, Decidable (Ok s t)]
    {as : List Action} (h : exec (fun s a => (s.step a).filter (Ok s ·)) init as = some s) :
    Reached Ok s := by
  refine ⟨as, (exec_eq_some_iff.mp h).mono fun s a t hstep => ?_⟩
  obtain ⟨hstep, hok⟩ := Option.filter_eq_some_iff.mp hstep
  exact ⟨hstep, of_decide_eq_true hok⟩

/-- A handler that runs alone. -/
def attempt (ip : IpAddr) (minute : ℕ) (accepted : Bool) : List Action :=
  [.start 0 ip minute, .read 0, .compare 0 (some accepted), .update 0]

/-- 127.0.0.1 -/
def localhost : IpAddr := .v4 #v[127, 0, 0, 1]

/-- Seven failures in one minute are not all there can be: a success in the minute starts anew, and so
does a clock that is set back after a failure in a later minute. -/
theorem more_than_seven :
    (¬ ∀ s, Reached (fun s t => t.handlers.length ≤ 1 ∧ s.clock ≤ t.clock) s →
      ∀ table ip minute, s.log.count (.recorded table ip minute) ≤ 7) ∧
    ¬ ∀ s, Reached (fun _ t => t.handlers.length ≤ 1) s →
      ∀ table ip minute, ∀ seg, seg <:+: s.log → (∀ e ∈ seg, e.resetFor table (.ip ip) = false) →
        seg.count (.recorded table ip minute) ≤ 7 := by
  constructor
  · intro h
    have hexec : ((exec (fun s a => (s.step a).filter
        (fun t => t.handlers.length ≤ 1 ∧ s.clock ≤ t.clock)) init
        ((List.replicate 6 (attempt localhost 1 false)).flatten ++ attempt localhost 1 true ++
          (List.replicate 7 (attempt localhost 1 false)).flatten)).map
        fun s => s.log.count (.recorded 0 localhost 1)) = some 13 := by decide +kernel
    obtain ⟨s, hs, hcount⟩ := Option.map_eq_some_iff.mp hexec
    have hle := h s (reached_of_exec hs) 0 localhost 1
    omega
  · intro h
    have hexec : ((exec (fun s a => (s.step a).filter (fun t => t.handlers.length ≤ 1)) init
        ((List.replicate 7 (attempt localhost 1 false)).flatten ++ attempt localhost 2 false ++
          (List.replicate 7 (attempt localhost 1 false)).flatten)).map
        fun s => (s.log.count (.recorded 0 localhost 1),
          s.log.all fun e => !e.resetFor 0 (.ip localhost))) = some (14, true) := by decide +kernel
    obtain ⟨s, hs, hcount⟩ := Option.map_eq_some_iff.mp hexec
    simp only [Prod.mk.injEq, List.all_eq_true, Bool.not_eq_true'] at hcount
    have hle := h s (reached_of_exec hs) 0 localhost 1 s.log List.infix_rfl hcount.2
    omega

end FailureState

/-! ## What a connection records -/

section Handlers

variable (b : Build) (env : Env) (h : Host)

theorem validatePassword_wrong {allow : Bool} (hwrong : (h.validatePassword b env allow).2 = false) :
    h.validatePassword b env allow = (h, false) := by
  unfold Host.validatePassword at hwrong ⊢
  split_ifs at hwrong ⊢
  rfl

/-- A wrong password is the first thing that is recorded of its login. -/
theorem tryPassword_wrong (lr : LoginRequest) (errMsg : String) (hcheck : env.checkFailure 0 = none)
    (hwrong : (h.validatePassword b env (env.allowLogonScreenPassword b)).2 = false) :
    h.log ++ [.updateFailure false 0] <+: (h.tryPassword b env lr errMsg).1.log := by
  simp only [Host.tryPassword, Host.checkFailure, hcheck, validatePassword_wrong b env h hwrong]
  split
  · exact ⟨_, List.append_assoc _ _ _ |>.symm⟩
  · exact List.prefix_append _ _

theorem onAuth2fa_wrong (tfa : Auth2fa) (hcheck : env.checkFailure 1 = none)
    (hwrong : h.conn.require2fa.bind (env.checkCurrent · tfa.code) = some false) :
    h.log ++ [.updateFailure false 1] <+: (h.onAuth2fa b env tfa).1.log := by
  simp only [Host.onAuth2fa, Host.checkFailure, hcheck, hwrong]
  exact List.prefix_append _ _

end Handlers

open FailureState in
/-- **Wrong guesses are bounded.** A handler that finds a password or a code wrong goes on to record
it, and in every run all that were found wrong are recorded but for those whose handler has not come
to it. Between two successes that reset a key no more are recorded under it than its limit and the
handlers between the check of the key and the update at one time. If those of an address run one at a
time and the clock is not set back, no more than seven of them carry the same minute. -/
theorem wrong_guesses_bounded :
    (∀ (b : Build) (env : Env) (h : Host) (lr : LoginRequest) (errMsg : String),
      env.checkFailure 0 = none →
      (h.validatePassword b env (env.allowLogonScreenPassword b)).2 = false →
      h.log ++ [.updateFailure false 0] <+: (h.tryPassword b env lr errMsg).1.log) ∧
    (∀ (b : Build) (env : Env) (h : Host) (tfa : Auth2fa), env.checkFailure 1 = none →
      h.conn.require2fa.bind (env.checkCurrent · tfa.code) = some false →
      h.log ++ [.updateFailure false 1] <+: (h.onAuth2fa b env tfa).1.log) ∧
    ∀ (table : Fin 2) (s : FailureState),
      (∀ (Ok : FailureState → FailureState → Prop) (ip : IpAddr), Reached Ok s →
        s.log.count (.wrong table ip) = s.log.countP (·.recordedFor table (.ip ip)) +
          s.handlers.countP (wrongPending table ip)) ∧
      (∀ (ip : IpAddr) (k : ℕ), Reached (fun _ t => t.between table (.ip ip) ≤ k) s →
        ∀ seg, seg <:+: s.log → (∀ e ∈ seg, e.resetFor table (.ip ip) = false) →
          seg.countP (·.recordedFor table (.ip ip)) ≤ 30 + k) ∧
      (∀ (octets : Vector UInt8 16) (prefixNum limit k : ℕ),
        (prefixNum, limit) ∈ [(64, 60), (56, 80), (48, 100)] →
        Reached (fun _ t => t.between table (netKey octets prefixNum) ≤ k) s →
        ∀ seg, seg <:+: s.log → (∀ e ∈ seg, e.resetFor table (netKey octets prefixNum) = false) →
          seg.countP (·.recordedFor table (netKey octets prefixNum)) ≤ limit + k) ∧
      ∀ ip : IpAddr, Reached (fun s t => t.running table ip ≤ 1 ∧ s.clock ≤ t.clock) s →
        ∀ seg, seg <:+: s.log → (∀ e ∈ seg, e.resetFor table (.ip ip) = false) →
          ∀ minute, seg.count (.recorded table ip minute) ≤ 7 := by
  refine ⟨tryPassword_wrong, onAuth2fa_wrong, fun table s => ⟨?_, ?_, ?_, ?_⟩⟩
  · exact fun Ok ip hs => wrongRecorded table ip hs
  · exact fun ip k hs seg hseg hreset => recorded_le hs hseg hreset
  · intro octets prefixNum limit k hlimit hs seg hseg hreset
    have hbound := recorded_le hs hseg hreset
    have heq : (netKey octets prefixNum).limit = limit := by
      simp only [List.mem_cons, Prod.mk.injEq, List.not_mem_nil, or_false] at hlimit
      obtain ⟨rfl, rfl⟩ | ⟨rfl, rfl⟩ | ⟨rfl, rfl⟩ := hlimit <;> rfl
    rwa [heq] at hbound
  · exact fun ip hs seg hseg hreset => recorded_in_minute_le hs hseg hreset

open FailureState in
/-- One wrong password from this machine is recorded, within the bounds. -/
theorem wrong_guesses_bounded_one :
    ∃ s, Reached (fun s t => t.running 0 localhost ≤ 1 ∧ s.clock ≤ t.clock) s ∧
      s.log = [.wrong 0 localhost, .recorded 0 localhost 1] ∧
      s.log.count (.wrong 0 localhost) = s.log.countP (·.recordedFor 0 (.ip localhost)) +
        s.handlers.countP (wrongPending 0 localhost) ∧
      s.log.count (.recorded 0 localhost 1) ≤ 7 := by
  have hexec : ((exec (fun s a => (s.step a).filter
      fun t => t.running 0 localhost ≤ 1 ∧ s.clock ≤ t.clock) init
      (attempt localhost 1 false)).map (·.log))
      = some [.wrong 0 localhost, .recorded 0 localhost 1] := by decide +kernel
  obtain ⟨s, hs, hlog⟩ := Option.map_eq_some_iff.mp hexec
  have hreached := reached_of_exec hs
  have hnoreset : ∀ e ∈ s.log, e.resetFor 0 (.ip localhost) = false := by
    rw [hlog]
    decide
  obtain ⟨hwrong, -, -, hminute⟩ := wrong_guesses_bounded.2.2 0 s
  exact ⟨s, hreached, hlog, hwrong _ localhost hreached,
    hminute localhost hreached s.log List.infix_rfl hnoreset 1⟩

end RustDesk.Connection
