import RustDesk.Common.Run
import RustDesk.Server.RefusedSessions

/-!
# The limit of concurrent sessions

References: `rustdesk-server/src/redis_session.rs` (`check_and_register`).

Every call of `check_and_register` that comes to Redis enters the device with the time of the call and
evicts the lowest entries above the limit. The scores in the set of a user are the times of the last
registrations, so those evicted are the ones that registered least recently, whatever the limits of the
earlier calls were.
-/

namespace RustDesk.Server

/-- A call of `check_and_register`. -/
structure Registration where
  env : PunchEnv
  userId : ℤ
  deviceId : String
  limit : ℤ

namespace Registration

/-- The clock the call reads. -/
def now (r : Registration) : ℤ := r.env.timestampMillis

/-- The script of the call has run. -/
def Ran (r : Registration) : Prop := r.env.redis ≠ .unreachable

/-- The answer of the call, and the sessions after it. -/
def perform (r : Registration) (sessions : Sessions) : Bool × Sessions :=
  checkAndRegister r.env sessions r.userId r.deviceId r.limit

/-- A call as a step of the sessions. -/
def step (sessions : Sessions) (r : Registration) : Option Sessions := some (r.perform sessions).2

/-- The call has entered a device of a user. -/
def Registers (r : Registration) (userId : ℤ) (deviceId : String) : Prop :=
  r.Ran ∧ r.userId = userId ∧ r.deviceId = deviceId

instance (r : Registration) (userId : ℤ) (deviceId : String) :
    Decidable (r.Registers userId deviceId) :=
  inferInstanceAs (Decidable (r.env.redis ≠ .unreachable ∧ r.userId = userId ∧ r.deviceId = deviceId))

end Registration

/-- No user has a session. -/
def Sessions.none : Sessions := fun _ => .empty

/-- The last call that entered a device of a user. -/
def lastRegistration (calls : List Registration) (userId : ℤ) (deviceId : String) :
    Option Registration :=
  calls.reverse.find? fun r => r.Registers userId deviceId

/-- A device registered after the last registration of another one. -/
def RegisteredAfter (calls : List Registration) (userId : ℤ) (later earlier : String) : Prop :=
  ∃ before r after, calls = before ++ r :: after ∧ r.Registers userId earlier ∧
    (∀ c ∈ after, ¬ c.Registers userId earlier) ∧ ∃ c ∈ after, c.Registers userId later

/-- The last registrations of two devices have one time. -/
def SameTime (calls : List Registration) (userId : ℤ) (a b : String) : Prop :=
  (lastRegistration calls userId a).map Registration.now =
    (lastRegistration calls userId b).map Registration.now

/-! ## One call -/

section Calls

variable {calls : List Registration} {sessions : Sessions} {r : Registration}

theorem perform_snd (hran : r.Ran) : (r.perform sessions).2 = Function.update sessions r.userId
      (sessionScript (sessions r.userId) r.deviceId r.now r.limit).2 := by
  unfold Registration.perform checkAndRegister
  cases hredis : r.env.redis with
  | unreachable => exact absurd hredis hran
  | answered => rfl
  | lostReply => rfl

theorem perform_unreachable (h : ¬ r.Ran) : r.perform sessions = (true, sessions) := by
  have hredis : r.env.redis = .unreachable := not_not.mp h
  simp [Registration.perform, checkAndRegister, hredis]

theorem perform_answered (h : r.env.redis = .answered) : (r.perform sessions).1 =
      (sessionScript (sessions r.userId) r.deviceId r.now r.limit).1 := by
  simp [Registration.perform, checkAndRegister, h, Registration.now]

/-- The set of the user after a call: the lowest above the limit are taken from the set with the
device. -/
theorem perform_set (hran : r.Ran) : (r.perform sessions).2 r.userId =
      (((sessions r.userId).zadd r.deviceId r.now).zpopmin
        (((sessions r.userId).zadd r.deviceId r.now).zcard - r.limit).toNat).2 := by
  rw [perform_snd hran, Function.update_self, sessionScript_snd]

/-- The answer is whether the device is in the set. -/
theorem answer_iff (h : r.env.redis = .answered) :
    (r.perform sessions).1 = true ↔ r.deviceId ∈ ((r.perform sessions).2 r.userId).members := by
  have hran : r.Ran := by
    rw [Registration.Ran, h]
    decide
  have hentered : r.deviceId ∈ ((sessions r.userId).zadd r.deviceId r.now).members :=
    SortedSet.mem_members_zadd.mpr (.inl rfl)
  rw [perform_answered h, perform_set hran, SortedSet.mem_members_zpopmin hentered]
  unfold sessionScript
  by_cases hle : (((sessions r.userId).zadd r.deviceId r.now).zcard : ℤ) ≤ r.limit
  · have hzero : ((((sessions r.userId).zadd r.deviceId r.now).zcard : ℤ) - r.limit).toNat = 0 := by omega
    rw [if_pos hle, hzero]
    simp [SortedSet.zpopmin]
  · rw [if_neg hle]
    exact decide_eq_true_iff

/-- No more is evicted than has to be. -/
theorem zcard_perform (hran : r.Ran) : (((r.perform sessions).2 r.userId).zcard : ℤ) =
      min (((sessions r.userId).zadd r.deviceId r.now).zcard : ℤ) (max r.limit 0) := by
  rw [perform_set hran, SortedSet.zcard_zpopmin]
  omega

/-! ## The times of the last registrations -/

theorem lastRegistration_append (r : Registration) (userId : ℤ) (deviceId : String) :
    lastRegistration (calls ++ [r]) userId deviceId =
      if r.Registers userId deviceId then some r else lastRegistration calls userId deviceId := by
  unfold lastRegistration
  rw [List.reverse_append, List.reverse_singleton, List.singleton_append, List.find?_cons]
  by_cases h : r.Registers userId deviceId <;> simp [h]

theorem lastRegistration_eq_some {userId : ℤ} {deviceId : String} {c : Registration}
    (h : lastRegistration calls userId deviceId = some c) :
    ∃ before after, calls = before ++ c :: after ∧ c.Registers userId deviceId ∧
      ∀ c' ∈ after, ¬ c'.Registers userId deviceId := by
  obtain ⟨hregisters, later, earlier, hsplit, hnone⟩ := List.find?_eq_some_iff_append.mp h
  refine ⟨earlier.reverse, later.reverse, ?_, of_decide_eq_true hregisters, ?_⟩
  · have hcalls := congrArg List.reverse hsplit
    simpa using hcalls
  · intro c' hc'
    simpa using hnone c' (List.mem_reverse.mp hc')

/-- The score of every member is the time of its last registration. -/
def Timed (calls : List Registration) (sessions : Sessions) : Prop :=
  ∀ userId, ∀ e ∈ (sessions userId).entries,
    (lastRegistration calls userId (SortedSet.member e)).map Registration.now = some (ofLex e).1

theorem timed_none : Timed [] Sessions.none := by
  intro userId e he
  cases he

/-- The entries of the set in which the device was entered, before the eviction. -/
theorem Timed.entered (h : Timed calls sessions) (hran : r.Ran) {e : ℤ ×ₗ String}
    (he : e ∈ ((sessions r.userId).zadd r.deviceId r.now).entries) :
    (lastRegistration (calls ++ [r]) r.userId (SortedSet.member e)).map Registration.now = some (ofLex e).1 := by
  rw [lastRegistration_append]
  rcases SortedSet.mem_entries_zadd.mp he with rfl | ⟨he, hne⟩
  · rw [if_pos ⟨hran, rfl, rfl⟩]
    rfl
  · rw [if_neg fun hr => hne hr.2.2.symm]
    exact h r.userId e he

theorem Timed.step (h : Timed calls sessions) : Timed (calls ++ [r]) (r.perform sessions).2 := by
  intro userId e he
  by_cases hran : r.Ran
  · by_cases huser : userId = r.userId
    · subst huser
      rw [perform_set hran] at he
      exact h.entered hran (SortedSet.mem_entries_of_zpopmin he)
    · -- the set of another user
      rw [perform_snd hran, Function.update_of_ne huser] at he
      rw [lastRegistration_append, if_neg fun hr => huser hr.2.1.symm]
      exact h userId e he
  · rw [perform_unreachable hran] at he
    rw [lastRegistration_append, if_neg fun hr => hran hr.1]
    exact h userId e he

theorem timed_of_run (hrun : Run (Steps Registration.step) Sessions.none calls sessions) :
    Timed calls sessions := by
  refine hrun.invariant_history ?_ timed_none
  intro as s a t hs hstep
  obtain rfl : (a.perform s).2 = t := Option.some.inj hstep
  exact hs.step

/-- The clock that the calls of one user read does not go back. -/
def ClockForward (calls : List Registration) : Prop :=
  calls.Pairwise fun a b => a.userId = b.userId → a.now ≤ b.now

/-- With a clock that does not go back, a later time is a later registration. -/
theorem registeredAfter_of_lt {userId : ℤ} {later earlier : String} {c k : Registration}
    (hclock : ClockForward calls)
    (hearlier : lastRegistration calls userId earlier = some c)
    (hlater : lastRegistration calls userId later = some k) (hlt : c.now < k.now) :
    RegisteredAfter calls userId later earlier := by
  obtain ⟨before, after, rfl, hc, hnone⟩ := lastRegistration_eq_some hearlier
  obtain ⟨before', after', hsplit, hk, -⟩ := lastRegistration_eq_some hlater
  refine ⟨before, c, after, rfl, hc, hnone, k, ?_, hk⟩
  have hmem : k ∈ before ++ c :: after := by
    rw [hsplit]
    simp
  rw [ClockForward, List.pairwise_append, List.pairwise_cons] at hclock
  rcases List.mem_append.mp hmem with hbefore | hrest
  · have hle := hclock.2.2 k hbefore c List.mem_cons_self (hk.2.1.trans hc.2.1.symm)
    omega
  · rcases List.mem_cons.mp hrest with rfl | hafter
    · omega
    · exact hafter

/-- Those evicted registered before those that stay. -/
theorem Timed.evicted (h : Timed calls sessions) (hran : r.Ran)
    (hclock : ClockForward (calls ++ [r])) {e k : String}
    (he : e ∈ ((sessions r.userId).zadd r.deviceId r.now).members)
    (hgone : e ∉ ((r.perform sessions).2 r.userId).members)
    (hk : k ∈ ((r.perform sessions).2 r.userId).members) :
    RegisteredAfter (calls ++ [r]) r.userId k e ∨ SameTime (calls ++ [r]) r.userId e k ∧ e < k := by
  rw [perform_set hran] at hgone hk
  obtain ⟨e', he', rfl⟩ := List.mem_map.mp he
  obtain ⟨k', hk', rfl⟩ := List.mem_map.mp hk
  have hetime := h.entered hran he'
  have hktime := h.entered hran (SortedSet.mem_entries_of_zpopmin hk')
  rcases (Prod.Lex.lt_iff.mp (SortedSet.lt_of_zpopmin he' hgone hk')) with hlt | ⟨heq, hname⟩
  · left
    obtain ⟨c, hc, hcnow⟩ := Option.map_eq_some_iff.mp hetime
    obtain ⟨d, hd, hdnow⟩ := Option.map_eq_some_iff.mp hktime
    exact registeredAfter_of_lt hclock hc hd (by omega)
  · right
    exact ⟨by rw [SameTime, hetime, hktime, heq], hname⟩

/-- A device that calls later than all others did is never the one to go. -/
theorem Timed.kept (h : Timed calls sessions) (hran : r.Ran) (hlimit : 1 ≤ r.limit)
    (hclock : ∀ c ∈ calls, c.userId = r.userId → c.now < r.now) :
    r.deviceId ∈ ((r.perform sessions).2 r.userId).members := by
  by_contra hgone
  have hcard := @zcard_perform sessions r hran
  have hsize := (sessions r.userId).zcard_zadd r.deviceId r.now
  have hpos : 0 < ((r.perform sessions).2 r.userId).entries.length := by
    rw [SortedSet.zcard] at hcard
    omega
  obtain ⟨k, hk⟩ := List.exists_mem_of_length_pos hpos
  rw [perform_set hran] at hgone hk
  -- another one stays, and it is lower than the entry of the call
  have hlt : toLex (r.now, r.deviceId) < k :=
    SortedSet.lt_of_zpopmin (SortedSet.mem_entries_zadd.mpr (.inl rfl)) hgone hk
  have hkept := SortedSet.mem_entries_of_zpopmin hk
  rcases SortedSet.mem_entries_zadd.mp hkept with rfl | ⟨hold, -⟩
  · exact absurd hlt (lt_irrefl _)
  · obtain ⟨c, hc, hnow⟩ := Option.map_eq_some_iff.mp (h r.userId k hold)
    obtain ⟨before, after, rfl, hregisters, -⟩ := lastRegistration_eq_some hc
    have hbefore := hclock c (by simp) hregisters.2.1
    rcases Prod.Lex.lt_iff.mp hlt with hlater | ⟨hsame, -⟩
    · have hscore : r.now < (ofLex k).1 := hlater
      omega
    · have hscore : r.now = (ofLex k).1 := hsame
      omega

/-- After every call that comes to Redis the set is within the limit, the answer is whether the device
is in it, and what went is what registered least recently. -/
theorem least_recent_evicted (hrun : Run (Steps Registration.step) Sessions.none calls sessions)
    (hran : r.Ran) (hclock : ClockForward (calls ++ [r])) :
    (((r.perform sessions).2 r.userId).zcard : ℤ) ≤ max r.limit 0 ∧
    (r.env.redis = .answered →
      ((r.perform sessions).1 = true ↔ r.deviceId ∈ ((r.perform sessions).2 r.userId).members)) ∧
    (∀ d ∈ ((r.perform sessions).2 r.userId).members,
      d = r.deviceId ∨ d ∈ (sessions r.userId).members) ∧
    (∀ e, e = r.deviceId ∨ e ∈ (sessions r.userId).members →
      e ∉ ((r.perform sessions).2 r.userId).members →
        (((r.perform sessions).2 r.userId).zcard : ℤ) = max r.limit 0 ∧
        ∀ k ∈ ((r.perform sessions).2 r.userId).members,
          RegisteredAfter (calls ++ [r]) r.userId k e ∨
            SameTime (calls ++ [r]) r.userId e k ∧ e < k) ∧
    (∀ userId, userId ≠ r.userId → (r.perform sessions).2 userId = sessions userId) ∧
    (1 ≤ r.limit → (∀ c ∈ calls, c.userId = r.userId → c.now < r.now) →
      (r.perform sessions).1 = true) := by
  have htimed := timed_of_run hrun
  have hcard := @zcard_perform sessions r hran
  refine ⟨by omega, answer_iff, ?_, ?_, ?_, ?_⟩
  · intro d hd
    rw [perform_set hran] at hd
    obtain ⟨e, he, rfl⟩ := List.mem_map.mp hd
    exact SortedSet.mem_members_zadd.mp
      (List.mem_map.mpr ⟨e, SortedSet.mem_entries_of_zpopmin he, rfl⟩)
  · intro e he hgone
    have hentered : e ∈ ((sessions r.userId).zadd r.deviceId r.now).members :=
      SortedSet.mem_members_zadd.mpr he
    refine ⟨?_, fun k hk => htimed.evicted hran hclock hentered hgone hk⟩
    by_contra hne
    -- nothing is taken from a set that fits
    have hzero : ((((sessions r.userId).zadd r.deviceId r.now).zcard : ℤ) - r.limit).toNat = 0 := by
      omega
    rw [perform_set hran, hzero] at hgone
    exact hgone hentered
  · intro userId hne
    rw [perform_snd hran, Function.update_of_ne hne]
  · intro hlimit hlater
    have hmem := htimed.kept hran hlimit hlater
    cases hredis : r.env.redis with
    | unreachable => exact absurd hredis hran
    | answered => exact (answer_iff hredis).mpr hmem
    | lostReply => simp [Registration.perform, checkAndRegister, hredis]

end Calls

/-! ### A third device -/

/-- A call at a time, for two sessions at most. -/
def callFrom (deviceId : String) (time : ℤ) : Registration :=
  ⟨{ exampleEnv true with timestampMillis := time }, 7, deviceId, 2⟩

/-- The sessions after a laptop and a desktop. -/
def bothSessions : Sessions := ((callFrom "desktop" 20).perform
  ((callFrom "laptop" 10).perform Sessions.none).2).2

theorem bothSessions_reached :
    Run (Steps Registration.step) Sessions.none [callFrom "laptop" 10, callFrom "desktop" 20]
      bothSessions :=
  .cons rfl (.cons rfl (.nil _))

theorem least_recent_evicted_phone :
    ((callFrom "phone" 30).perform bothSessions).1 = true ∧
      (((callFrom "phone" 30).perform bothSessions).2 7).zcard ≤ 2 ∧
      (RegisteredAfter
          ([callFrom "laptop" 10, callFrom "desktop" 20] ++ [callFrom "phone" 30]) 7 "desktop" "laptop" ∨
        SameTime
          ([callFrom "laptop" 10, callFrom "desktop" 20] ++ [callFrom "phone" 30]) 7 "laptop" "desktop" ∧
          "laptop" < "desktop") := by
  have hclock : ClockForward
      ([callFrom "laptop" 10, callFrom "desktop" 20] ++ [callFrom "phone" 30]) := by
    unfold ClockForward
    decide
  obtain ⟨hcard, -, -, hevicted, -, hanswer⟩ :=
    least_recent_evicted (r := callFrom "phone" 30) bothSessions_reached
      (by unfold Registration.Ran; decide) hclock
  refine ⟨hanswer (by decide) (by decide), ?_, ?_⟩
  · have hmax : max (callFrom "phone" 30).limit 0 = 2 := by decide
    rw [hmax] at hcard
    exact_mod_cast hcard
  · exact (hevicted "laptop" (.inr (by decide)) (by decide)).2 "desktop" (by decide)

end RustDesk.Server
