import Mathlib.Data.List.Perm.Basic
import RustDesk.Common.Gate
import RustDesk.Connection.LoginFailures

/-!
# How many wrong guesses are recorded

For one key, `LOGIN_FAILURES` and the handlers that passed the check of the key are a `Gate`, whatever
the other handlers do.
-/

namespace RustDesk.Connection

open Net

/-! ## Keys -/

theorem mem_failureKeys_ip {a ip : IpAddr} : .ip a ∈ failureKeys ip ↔ ip = a := by
  cases ip <;> simp [failureKeys, getIpv6Prefixes, netKey, eq_comm]

theorem failureKeys_nodup (ip : IpAddr) : (failureKeys ip).Nodup := by
  cases ip <;> simp [failureKeys, getIpv6Prefixes, netKey]

theorem failureKeys_eq (ip : IpAddr) : failureKeys ip = (prefixChecks ip).map (·.1) ++ [.ip ip] := by
  cases ip <;> rfl

theorem ip_notMem_prefixChecks (a ip : IpAddr) : .ip a ∉ (prefixChecks ip).map (·.1) := by
  cases ip <;> simp [prefixChecks, getIpv6Prefixes, netKey]

/-- The limit that a key is checked against. -/
def FailureKey.limit : FailureKey → ℕ
  | .ip _ => 30
  | .net 64 _ => 60
  | .net 56 _ => 80
  | .net _ _ => 100

theorem thresh_eq_limit {ip : IpAddr} {key : FailureKey} {prefixNum thresh : ℕ}
    (h : (key, prefixNum, thresh) ∈ prefixChecks ip) : thresh = key.limit := by
  cases ip with
  | v4 => cases h
  | v6 octets =>
    simp only [prefixChecks, getIpv6Prefixes, List.mem_cons, Prod.mk.injEq, List.not_mem_nil, or_false] at h
    obtain ⟨rfl, -, rfl⟩ | ⟨rfl, -, rfl⟩ | ⟨rfl, -, rfl⟩ := h <;> rfl

/-! ## One table -/

namespace FailureMap

variable {m : FailureMap} {key : FailureKey}

theorem bump_entry (time : ℕ) (key' : FailureKey) : (m.bump time key').entry key
      = if key' = key then bumpFailureEntry (m.entry key) time else m.entry key := by
  unfold bump entry
  split
  next h => simp [h]
  next h => rw [Function.update_of_ne (Ne.symm h)]

theorem remove_entry (key' : FailureKey) :
    (m.remove key').entry key = if key' = key then .none else m.entry key := by
  unfold remove entry
  split
  next h => simp [h]
  next h => rw [Function.update_of_ne (Ne.symm h)]

theorem bumps_entry {keys : List FailureKey} (hkeys : keys.Nodup) (time : ℕ) :
    (keys.foldl (bump · time ·) m).entry key
      = if key ∈ keys then bumpFailureEntry (m.entry key) time else m.entry key := by
  induction keys generalizing m with
  | nil => rfl
  | cons key' keys ih =>
    rw [List.nodup_cons] at hkeys
    rw [List.foldl_cons, ih hkeys.2, bump_entry]
    by_cases h : key' = key
    · subst h
      simp [hkeys.1]
    · simp [h, Ne.symm h]

theorem removes_entry (keys : List FailureKey) :
    (keys.foldl remove m).entry key = if key ∈ keys then .none else m.entry key := by
  induction keys generalizing m with
  | nil => rfl
  | cons key' keys ih =>
    rw [List.foldl_cons, ih, remove_entry]
    by_cases h : key' = key
    · simp [h]
    · simp [h, Ne.symm h]

/-- The entries after `update_failure`. -/
theorem updateFailure_entry (ip : IpAddr) (failure : FailureEntry) (time : ℕ) (remove : Bool) :
    (m.updateFailure ip failure time remove).entry key =
      if key ∈ failureKeys ip then
        if remove then if failure.minute ≠ 0 then .none else m.entry key
        else bumpFailureEntry (m.entry key) time
      else m.entry key := by
  unfold updateFailure
  cases remove with
  | false => exact bumps_entry (failureKeys_nodup ip) time
  | true =>
    by_cases h : failure.minute = 0
    · simp [h]
    · simpa [h] using removes_entry (failureKeys ip)

end FailureMap

theorem bumpFailureEntry_total (cur : FailureEntry) (time : ℕ) :
    (bumpFailureEntry cur time).total = cur.total + 1 := by
  unfold bumpFailureEntry
  split <;> rfl

namespace FailureMap

variable {m : FailureMap}

theorem checkPrefix_eq_none {key : FailureKey} {prefixNum thresh : ℕ}
    (h : m.checkPrefix key prefixNum thresh = none) : (m.entry key).total ≤ thresh := by
  unfold checkPrefix at h
  split at h
  · cases h
  next hle => exact not_lt.mp hle

theorem checkIp_eq_none {ip : IpAddr} {time : ℕ} (h : m.checkIp ip time = none) :
    (m.entry (.ip ip)).total ≤ 30 ∧ (time = (m.entry (.ip ip)).minute → (m.entry (.ip ip)).inMinute ≤ 6) := by
  unfold checkIp at h
  dsimp only at h
  split at h
  · cases h
  next htotal =>
    split at h
    · cases h
    next hminute => exact ⟨not_lt.mp htotal, fun heq => not_lt.mp fun hlt => hminute ⟨heq, hlt⟩⟩

end FailureMap

/-! ## The gate of a key -/

/-- A handler has passed the check of a key and not yet come to its update. -/
def FailureHandler.passed (h : FailureHandler) (key : FailureKey) : Bool :=
  match h.stage with
  | .check done => key ∈ ((prefixChecks h.ip).take done).map (·.1)
  | _ => key ∈ failureKeys h.ip

/-- A failure was recorded under the key. -/
def FailureEvent.recordedFor (table : Fin 2) (key : FailureKey) : FailureEvent → Bool
  | .recorded t ip _ => t = table && key ∈ failureKeys ip
  | _ => false

/-- The key was removed by a success. -/
def FailureEvent.resetFor (table : Fin 2) (key : FailureKey) : FailureEvent → Bool
  | .reset t ip => t = table && key ∈ failureKeys ip
  | _ => false

namespace FailureState

variable {s t : FailureState} {table : Fin 2} {key : FailureKey}

/-- The handlers between their check of a key and their update. -/
def between (s : FailureState) (table : Fin 2) (key : FailureKey) : ℕ :=
  s.handlers.countP fun h => h.table = table && h.passed key

/-- What a log entry says of a key. -/
def mark (table : Fin 2) (key : FailureKey) (e : FailureEvent) : Option Gate.Mark :=
  if e.recordedFor table key then some .record
  else if e.resetFor table key then some .reset
  else none

/-- A key, as a counter that is checked and then raised. -/
def gate (table : Fin 2) (key : FailureKey) (s : FailureState) : Gate where
  total := ((s.tables table).entry key).total
  passed := s.between table key
  log := s.log.filterMap (mark table key)

section Counting

variable {p : FailureHandler → Bool} {n : ℕ} {h : FailureHandler}

theorem countP_set (hn : s.handlers[n]? = some h) (h' : FailureHandler) :
    (s.handlers.set n h').countP p + (if p h then 1 else 0)
      = s.handlers.countP p + if p h' then 1 else 0 := by
  obtain ⟨hlt, rfl⟩ := List.getElem?_eq_some_iff.mp hn
  have hpos : p s.handlers[n] → 0 < s.handlers.countP p := fun h =>
    List.countP_pos_iff.mpr ⟨_, List.getElem_mem hlt, h⟩
  rw [List.countP_set hlt]
  by_cases h : p s.handlers[n]
  · have := hpos h
    simp only [h, if_true]
    omega
  · simp [h]

theorem countP_leave (hn : s.handlers[n]? = some h) :
    (s.leave n).handlers.countP p + (if p h then 1 else 0) = s.handlers.countP p := by
  obtain ⟨hlt, rfl⟩ := List.getElem?_eq_some_iff.mp hn
  have hperm := (List.getElem_cons_eraseIdx_perm hlt).countP_eq p
  rw [leave, ← hperm, List.countP_cons]

end Counting

section Simulation

variable {n : ℕ} {h : FailureHandler} {failure : FailureEntry}

section

variable (hn : s.handlers[n]? = some h)
include hn

/-- A handler that moves on keeps what it passed, and passes the key only if it is within its
limit. -/
theorem gate_set {h' : FailureHandler} (htable : h'.table = h.table) (hkeep : h.passed key → h'.passed key)
    (hpass : h.table = table → h'.passed key → ¬ h.passed key → ((s.tables table).entry key).total ≤ key.limit) :
    Gate.Step key.limit (s.gate table key) ({ s with handlers := s.handlers.set n h' }.gate table key) := by
  have hcount := countP_set (p := fun h => h.table = table && h.passed key) hn h'
  by_cases hnew : h.table = table ∧ ¬ h.passed key ∧ h'.passed key
  · obtain ⟨heq, hold, hnew⟩ := hnew
    have hbetween : (s.handlers.set n h').countP (fun h => h.table = table && h.passed key)
        = s.between table key + 1 := by
      simpa [htable, heq, hold, hnew, between] using hcount
    unfold gate between
    rw [hbetween]
    exact .pass (hpass heq hnew hold)
  · have hbetween : (s.handlers.set n h').countP (fun h => h.table = table && h.passed key)
        = s.between table key := by
      by_cases heq : h.table = table
      · by_cases hold : h.passed key
        · simpa [htable, heq, hold, hkeep hold, between] using hcount
        · have hnot : ¬ h'.passed key := fun h => hnew ⟨heq, hold, h⟩
          simpa [htable, heq, hold, hnot, between] using hcount
      · simpa [htable, heq, between] using hcount
    unfold gate between
    rw [hbetween]
    exact .idle _

/-- A handler that is refused, or has nothing to record, leaves every gate it passed. -/
theorem gate_leave : Gate.Step key.limit (s.gate table key) ((s.leave n).gate table key) := by
  have hcount := countP_leave (p := fun h => h.table = table && h.passed key) hn
  unfold gate between
  rw [← hcount]
  split
  · exact .leave
  · exact .idle _

theorem gate_refuse (err : String) :
    Gate.Step key.limit (s.gate table key) ((s.refuse n h err).gate table key) := by
  have hlog : (s.refuse n h err).log.filterMap (mark table key)
      = s.log.filterMap (mark table key) := by
    unfold refuse
    rw [List.filterMap_append]
    exact List.append_nil _
  have hgate : (s.refuse n h err).gate table key = (s.leave n).gate table key := by
    unfold gate
    rw [hlog]
    rfl
  exact hgate ▸ gate_leave hn

theorem gate_readStep {done : ℕ} (hstage : h.stage = .check done) :
    Gate.Step key.limit (s.gate table key) ((s.readStep n h done).gate table key) := by
  unfold readStep
  cases hget : (prefixChecks h.ip)[done]? with
  | some check =>
    obtain ⟨key', prefixNum, thresh⟩ := check
    dsimp only
    cases hcheck : (s.tables h.table).checkPrefix key' prefixNum thresh with
    | some err => exact gate_refuse hn err
    | none =>
      have hthresh := thresh_eq_limit (List.mem_of_getElem? hget)
      refine gate_set hn rfl (fun hold => ?_) fun htable hnew hold => ?_
      · simp only [FailureHandler.passed, hstage, decide_eq_true_eq] at hold ⊢
        exact List.map_subset _ (List.take_subset_take_left _ done.le_succ) hold
      · simp only [FailureHandler.passed, hstage, decide_eq_true_eq, List.take_add_one, hget,
          Option.toList_some, List.map_append, List.map_singleton, List.mem_append,
          List.mem_singleton] at hnew hold
        obtain rfl := hnew.resolve_left hold
        rw [← hthresh, ← htable]
        exact FailureMap.checkPrefix_eq_none hcheck
  | none =>
    cases hcheck : (s.tables h.table).checkIp h.ip h.time with
    | some err => exact gate_refuse hn err
    | none =>
      have htake : (prefixChecks h.ip).take done = prefixChecks h.ip :=
        List.take_of_length_le (List.getElem?_eq_none_iff.mp hget)
      refine gate_set hn rfl (fun hold => ?_) fun htable hnew hold => ?_
      · simp only [FailureHandler.passed, hstage, decide_eq_true_eq, htake, failureKeys_eq] at hold ⊢
        exact List.mem_append_left _ hold
      · simp only [FailureHandler.passed, hstage, decide_eq_true_eq, htake, failureKeys_eq,
          List.mem_append, List.mem_singleton] at hnew hold
        obtain rfl := hnew.resolve_left hold
        rw [← htable]
        exact (FailureMap.checkIp_eq_none hcheck).1

end

/-- A handler past its checks has passed every key. -/
theorem passed_of_compare (hstage : h.stage = .compare failure) : h.passed key = decide (key ∈ failureKeys h.ip) := by
  simp [FailureHandler.passed, hstage]

theorem passed_of_update {remove : Bool} (hstage : h.stage = .update failure remove) :
    h.passed key = decide (key ∈ failureKeys h.ip) := by
  simp [FailureHandler.passed, hstage]

theorem gate_compareStep (hn : s.handlers[n]? = some h)
    (hstage : h.stage = .compare failure) (accepted : Option Bool) :
    Gate.Step key.limit (s.gate table key) ((s.compareStep n h failure accepted).gate table key) := by
  have hmove (remove : Bool) : Gate.Step key.limit (s.gate table key)
      ((s.moveTo n h (.update failure remove)).gate table key) := by
    have hsame : { h with stage := .update failure remove }.passed key = h.passed key := by
      rw [passed_of_compare hstage, passed_of_update rfl]
    refine gate_set hn rfl (fun hold => ?_) fun _ hnew hold => ?_
    · rwa [hsame]
    · exact absurd (hsame ▸ hnew) hold
  cases accepted with
  | none => exact gate_leave hn
  | some accepted =>
    cases accepted with
    | true => exact hmove true
    | false =>
      have hlog : (s.log ++ [FailureEvent.wrong h.table h.ip]).filterMap (mark table key)
          = s.log.filterMap (mark table key) := by
        rw [List.filterMap_append]
        exact List.append_nil _
      have hgate : (s.compareStep n h failure (some false)).gate table key
          = (s.moveTo n h (.update failure false)).gate table key := by
        unfold gate
        rw [compareStep, hlog]
        rfl
      rw [hgate]
      exact hmove false

theorem updateStep_between (failure : FailureEntry) (remove : Bool) :
    (s.updateStep n h failure remove).between table key = (s.leave n).between table key := rfl

theorem updateStep_entry (failure : FailureEntry) (remove : Bool) :
    ((s.updateStep n h failure remove).tables table).entry key =
      if h.table = table ∧ key ∈ failureKeys h.ip then
        if remove then if failure.minute ≠ 0 then .none else (s.tables table).entry key
        else bumpFailureEntry ((s.tables table).entry key) h.time
      else (s.tables table).entry key := by
  unfold updateStep
  dsimp only
  by_cases htable : h.table = table
  · subst htable
    simp only [Function.update_self, FailureMap.updateFailure_entry, true_and]
  · rw [Function.update_of_ne (Ne.symm htable), if_neg fun h => htable h.1]

theorem gate_updateStep {remove : Bool} (hn : s.handlers[n]? = some h) (hstage : h.stage = .update failure remove) :
    Gate.Step key.limit (s.gate table key) ((s.updateStep n h failure remove).gate table key) := by
  have hcount := countP_leave (p := fun h => h.table = table && h.passed key) hn
  rw [passed_of_update hstage] at hcount
  have hlog : (s.updateStep n h failure remove).log.filterMap (mark table key)
      = s.log.filterMap (mark table key)
        ++ (updateEvents h failure remove).filterMap (mark table key) := by
    unfold updateStep
    exact List.filterMap_append
  unfold gate
  rw [updateStep_between, updateStep_entry, hlog]
  by_cases hkey : h.table = table ∧ key ∈ failureKeys h.ip
  · -- the handler passed this key, and updates it
    have hbetween : s.between table key = (s.leave n).between table key + 1 := by
      simpa [hkey, between] using hcount.symm
    rw [hbetween, if_pos hkey]
    obtain ⟨rfl, hkey⟩ := hkey
    cases remove with
    | false =>
      rw [if_neg (by decide), bumpFailureEntry_total]
      simpa [updateEvents, mark, FailureEvent.recordedFor, hkey] using Gate.Step.record
    | true =>
      by_cases hminute : failure.minute = 0
      · simpa [updateEvents, hminute] using Gate.Step.leave
      · simpa [updateEvents, mark, FailureEvent.recordedFor, FailureEvent.resetFor, hkey, hminute,
          FailureEntry.none] using Gate.Step.reset
  · have hbetween : s.between table key = (s.leave n).between table key := by
      rw [if_neg (by simpa using hkey)] at hcount
      exact hcount.symm
    have hnone : (updateEvents h failure remove).filterMap (mark table key) = [] := by
      unfold updateEvents
      split_ifs <;> simp [mark, FailureEvent.recordedFor, FailureEvent.resetFor, hkey]
    rw [hbetween, if_neg hkey, hnone, List.append_nil]
    exact .idle _

end Simulation

/-- What a step is: a handler starts, or the one at some place does what its stage says. -/
theorem step_cases {a : Action} (h : s.step a = some t) : (∃ table ip time, t = { s with
      handlers := s.handlers ++ [⟨table, ip, time, .check 0⟩], clock := time }) ∨
    ∃ n h, s.handlers[n]? = some h ∧ ((∃ done, h.stage = .check done ∧ t = s.readStep n h done) ∨
        (∃ failure accepted, h.stage = .compare failure ∧ t = s.compareStep n h failure accepted) ∨
        ∃ failure remove, h.stage = .update failure remove ∧ t = s.updateStep n h failure remove) := by
  cases a with
  | start table ip time => exact .inl ⟨table, ip, time, (Option.some.inj h).symm⟩
  | read n =>
    simp only [step] at h
    split at h
    next handler hn =>
      split at h
      next done hstage => exact .inr ⟨n, handler, hn, .inl ⟨done, hstage, (Option.some.inj h).symm⟩⟩
      · cases h
    · cases h
  | compare n accepted =>
    simp only [step] at h
    split at h
    next handler hn =>
      split at h
      next failure hstage =>
        exact .inr ⟨n, handler, hn, .inr (.inl ⟨failure, accepted, hstage, (Option.some.inj h).symm⟩)⟩
      · cases h
    · cases h
  | update n =>
    simp only [step] at h
    split at h
    next handler hn =>
      split at h
      next failure remove hstage =>
        exact .inr ⟨n, handler, hn, .inr (.inr ⟨failure, remove, hstage, (Option.some.inj h).symm⟩)⟩
      · cases h
    · cases h

/-- A read of `check_failure` refuses, goes on to the next key, or lets the handler compare. -/
theorem readStep_cases (n : ℕ) (h : FailureHandler) (done : ℕ) : (∃ err, s.readStep n h done = s.refuse n h err) ∨
    s.readStep n h done = s.moveTo n h (.check (done + 1)) ∨
    ((s.tables h.table).checkIp h.ip h.time = none ∧ s.readStep n h done
        = s.moveTo n h (.compare ((s.tables h.table).entry (.ip h.ip)))) := by
  unfold readStep
  cases (prefixChecks h.ip)[done]? with
  | some check =>
    dsimp only
    cases (s.tables h.table).checkPrefix check.1 check.2.1 check.2.2 with
    | some err => exact .inl ⟨err, rfl⟩
    | none => exact .inr (.inl rfl)
  | none =>
    cases hcheck : (s.tables h.table).checkIp h.ip h.time with
    | some err => exact .inl ⟨err, rfl⟩
    | none => exact .inr (.inr ⟨rfl, rfl⟩)

/-- **Simulation.** Every critical section is a step of the gate of every key. -/
theorem gate_step {a : Action} (h : s.step a = some t) :
    Gate.Step key.limit (s.gate table key) (t.gate table key) := by
  obtain ⟨table', ip, time, rfl⟩ | ⟨n, handler, hn, hstep⟩ := step_cases h
  · have hbetween : between { s with
        handlers := s.handlers ++ [⟨table', ip, time, .check 0⟩], clock := time } table key
        = s.between table key := by
      simp [between, FailureHandler.passed]
    unfold gate
    rw [hbetween]
    exact .idle _
  · obtain ⟨done, hstage, rfl⟩ | ⟨failure, accepted, hstage, rfl⟩ | ⟨failure, remove, hstage, rfl⟩ := hstep
    · exact gate_readStep hn hstage
    · exact gate_compareStep hn hstage accepted
    · exact gate_updateStep hn hstage

/-! ## Runs -/

/-- The states that a run reaches whose steps all meet a condition. -/
def Reached (Ok : FailureState → FailureState → Prop) (s : FailureState) : Prop :=
  ∃ as, Run (fun s a t => s.step a = some t ∧ Ok s t) init as s

/-- The gate of a key is bounded by its limit. -/
def GateBounded (table : Fin 2) (key : FailureKey) (k : ℕ) (s : FailureState) : Prop :=
  Gate.Bounded key.limit k (s.gate table key)

theorem gate_bounded {k : ℕ} (h : Reached (fun _ t => t.between table key ≤ k) s) : GateBounded table key k s := by
  obtain ⟨as, hrun⟩ := h
  refine hrun.invariant (fun s a t (hs : GateBounded table key k s) hstep => ?_) (Gate.Bounded.init key.limit k)
  exact Gate.Bounded.step hs (gate_step hstep.1) hstep.2

/-- **The bound of a key.** Between two resets no more failures are recorded than the limit and those
between check and update at the same time. -/
theorem recorded_le {k : ℕ} (h : Reached (fun _ t => t.between table key ≤ k) s)
    {seg : List FailureEvent} (hseg : seg <:+: s.log)
    (hreset : ∀ e ∈ seg, e.resetFor table key = false) :
    seg.countP (·.recordedFor table key) ≤ key.limit + k := by
  have hmarks : .reset ∉ seg.filterMap (mark table key) := by
    rw [List.mem_filterMap]
    rintro ⟨e, he, hmark⟩
    simp [mark, hreset e he] at hmark
  have hbound := Gate.Bounded.countP_le (gate_bounded h) (hseg.filterMap (mark table key)) hmarks
  rw [List.countP_filterMap] at hbound
  refine le_trans (List.countP_mono_left fun e _ he => ?_) hbound
  simp [mark, he]

/-! ## Every wrong guess is recorded -/

/-- A handler whose password or code was wrong, at its update. -/
def wrongPending (table : Fin 2) (ip : IpAddr) (h : FailureHandler) : Bool :=
  h.table = table && h.ip = ip && h.stage matches .update _ false

/-- What the log and the handlers say of wrong guesses. -/
def WrongRecorded (table : Fin 2) (ip : IpAddr) (s : FailureState) : Prop :=
  s.log.count (.wrong table ip) =
    s.log.countP (·.recordedFor table (.ip ip)) + s.handlers.countP (wrongPending table ip)

section WrongRecorded

variable {ip : IpAddr} {n : ℕ} {h : FailureHandler}

section

variable (hs : WrongRecorded table ip s) (hn : s.handlers[n]? = some h)
include hs hn

section

variable (hold : wrongPending table ip h = false)
include hold

theorem wrongRecorded_leave
    : WrongRecorded table ip (s.leave n) := by
  have hcount := countP_leave (p := wrongPending table ip) hn
  rw [hold, if_neg (by decide), Nat.add_zero] at hcount
  unfold WrongRecorded at hs ⊢
  rw [hcount]
  exact hs

theorem wrongRecorded_refuse (err : String) : WrongRecorded table ip (s.refuse n h err) := by
  have hleave := wrongRecorded_leave hs hn hold
  unfold WrongRecorded at hleave ⊢
  unfold refuse
  simpa [FailureEvent.recordedFor, leave] using hleave

theorem wrongRecorded_moveTo {stage : FailureStage}
    (hnew : wrongPending table ip { h with stage := stage } = false) :
    WrongRecorded table ip (s.moveTo n h stage) := by
  have hcount := countP_set (p := wrongPending table ip) hn { h with stage := stage }
  rw [hold, hnew, if_neg (by decide), Nat.add_zero, Nat.add_zero] at hcount
  unfold WrongRecorded at hs ⊢
  rw [moveTo, hcount]
  exact hs

end

theorem wrongRecorded_compareStep {failure : FailureEntry}
    (hstage : h.stage = .compare failure) (accepted : Option Bool) :
    WrongRecorded table ip (s.compareStep n h failure accepted) := by
  have hold : wrongPending table ip h = false := by simp [wrongPending, hstage]
  match accepted with
  | none => exact wrongRecorded_leave hs hn hold
  | some true => exact wrongRecorded_moveTo hs hn hold (by simp [wrongPending])
  | some false =>
    have hcount := countP_set (p := wrongPending table ip) hn { h with stage := .update failure false }
    rw [hold, if_neg (by decide), Nat.add_zero] at hcount
    unfold WrongRecorded at hs ⊢
    unfold compareStep moveTo
    rw [hcount, List.count_append, List.countP_append, hs]
    by_cases heq : h.table = table ∧ h.ip = ip
    · simp [wrongPending, FailureEvent.recordedFor, heq]
      omega
    · simp [wrongPending, FailureEvent.recordedFor, heq]

theorem wrongRecorded_updateStep {failure : FailureEntry} {remove : Bool}
    (hstage : h.stage = .update failure remove) :
    WrongRecorded table ip (s.updateStep n h failure remove) := by
  have hcount := countP_leave (p := wrongPending table ip) hn
  unfold WrongRecorded at hs ⊢
  unfold updateStep
  rw [List.count_append, List.countP_append, hs, ← hcount]
  cases remove with
  | true => by_cases hminute : failure.minute = 0 <;>
      simp [wrongPending, hstage, updateEvents, hminute, FailureEvent.recordedFor]
  | false =>
    by_cases heq : h.table = table ∧ h.ip = ip
    · simp [wrongPending, hstage, updateEvents, FailureEvent.recordedFor, heq, mem_failureKeys_ip]
      omega
    · simp [wrongPending, hstage, updateEvents, FailureEvent.recordedFor, heq, mem_failureKeys_ip]

end

end WrongRecorded

/-- **Every wrong guess is recorded**, or its handler has yet to come to its update. -/
theorem wrongRecorded (table : Fin 2) (ip : IpAddr) {Ok : FailureState → FailureState → Prop}
    (h : Reached Ok s) : WrongRecorded table ip s := by
  obtain ⟨as, hrun⟩ := h
  refine hrun.invariant (fun s a t hs hstep => ?_) rfl
  obtain ⟨table', ip', time, rfl⟩ | ⟨n, handler, hn, hstep⟩ := step_cases hstep.1
  · unfold WrongRecorded at hs ⊢
    simpa [wrongPending] using hs
  obtain ⟨done, hstage, rfl⟩ | ⟨failure, accepted, hstage, rfl⟩ | ⟨failure, remove, hstage, rfl⟩ := hstep
  · have hold : wrongPending table ip handler = false := by simp [wrongPending, hstage]
    obtain ⟨err, heq⟩ | heq | ⟨-, heq⟩ := readStep_cases (s := s) n handler done
    · exact heq ▸ wrongRecorded_refuse hs hn hold err
    · exact heq ▸ wrongRecorded_moveTo hs hn hold (by simp [wrongPending])
    · exact heq ▸ wrongRecorded_moveTo hs hn hold (by simp [wrongPending])
  · exact wrongRecorded_compareStep hs hn hstage accepted
  · exact wrongRecorded_updateStep hs hn hstage

end FailureState

end RustDesk.Connection
