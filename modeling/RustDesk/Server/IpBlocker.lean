import RustDesk.Common.Run
import Mathlib.Data.Finset.Card
import Mathlib.Data.Finset.Range

/-!
# The ip blocker

References: `rustdesk-server/src/rendezvous_server.rs` (`check_ip_blocker`) and `src/peer.rs`
(`IpBlockMap`, `IP_BLOCK_DUR`, `DAY_SECONDS`).

An ip has two counters. The calls of the last minute are counted first, then the ids of the last day. A
call that the second counter refuses has been counted by the first one, and a known id that is let in
while 301 ids are counted does not renew their day.
-/

namespace RustDesk.Server

/-- `IP_BLOCK_DUR`. -/
def ipBlockDur : ℕ := 60

/-- `DAY_SECONDS`. -/
def daySeconds : ℕ := 3600 * 24

/-- `Duration::as_secs` of nanoseconds. -/
def asSecs (elapsed : ℕ) : ℕ := elapsed / 1000000000

/-- The counters of an ip, each with the time of its last change. -/
structure IpBlock where
  calls : ℕ
  callTime : ℕ
  ids : Finset String
  idTime : ℕ
deriving DecidableEq

namespace IpBlock

/-- The first counter: too many calls, or the call is counted. -/
def countCall (old : IpBlock) (now : ℕ) : Option IpBlock :=
  if asSecs (now - old.callTime) > ipBlockDur then some { old with calls := 1, callTime := now }
  else if old.calls > 30 then none
  else some { old with calls := old.calls + 1, callTime := now }

/-- The second counter. Whether the id is new is asked before the ids are cleared. -/
def countId (old : IpBlock) (id : String) (now : ℕ) : Bool × IpBlock :=
  let isNew : Bool := id ∉ old.ids
  if asSecs (now - old.idTime) > daySeconds then
    (true, { old with ids := if isNew then {id} else ∅, idTime := now })
  else if old.ids.card > 300 then (!isNew, old)
  else (true, { old with ids := if isNew then insert id old.ids else old.ids, idTime := now })

/-- A call for an ip with these counters, or without any. The first call of an ip is not counted. -/
def check (old : Option IpBlock) (id : String) (now : ℕ) : Bool × IpBlock :=
  match old with
  | none => (true, ⟨0, now, ∅, now⟩)
  | some old =>
    match old.countCall now with
    | none => (false, old)
    | some old => old.countId id now

end IpBlock

/-- `IpBlockMap`. -/
abbrev IpBlockMap := String → Option IpBlock

/-- `check_ip_blocker`. -/
def checkIpBlocker (lock : IpBlockMap) (ip id : String) (now : ℕ) : Bool × IpBlockMap :=
  let (ok, block) := IpBlock.check (lock ip) id now
  (ok, Function.update lock ip (some block))

/-! ## Histories -/

/-- Too many calls in the last minute. -/
def IpBlock.CallsFull (old : IpBlock) (now : ℕ) : Prop :=
  asSecs (now - old.callTime) ≤ ipBlockDur ∧ 30 < old.calls

/-- Too many ids in the last day. -/
def IpBlock.IdsFull (old : IpBlock) (now : ℕ) : Prop :=
  asSecs (now - old.idTime) ≤ daySeconds ∧ 300 < old.ids.card

instance (old : IpBlock) (now : ℕ) : Decidable (old.CallsFull now) :=
  inferInstanceAs (Decidable (_ ∧ _))

instance (old : IpBlock) (now : ℕ) : Decidable (old.IdsFull now) :=
  inferInstanceAs (Decidable (_ ∧ _))

/-- A call with its answer, and whether it found too many ids. -/
structure IpCall where
  ip : String
  id : String
  now : ℕ
  accepted : Bool
  idsFull : Bool
deriving DecidableEq

namespace IpCall

/-- The call changes the counters of its ip in this way. -/
def Counts (old : Option IpBlock) (r : IpCall) (new : Option IpBlock) : Prop :=
  (r.accepted, new) = ((IpBlock.check old r.id r.now).1, some (IpBlock.check old r.id r.now).2) ∧
    (r.idsFull = true ↔ ∃ block, old = some block ∧ block.IdsFull r.now)

/-- The call as a step of the whole map. -/
def Step (lock : IpBlockMap) (r : IpCall) (lock' : IpBlockMap) : Prop :=
  (r.accepted, lock') = checkIpBlocker lock r.ip r.id r.now ∧
    (r.idsFull = true ↔ ∃ block, lock r.ip = some block ∧ block.IdsFull r.now)

end IpCall

/-- When the last call of a kind came. -/
def lastTime (kind : IpCall → Bool) (history : List IpCall) : Option ℕ :=
  (history.reverse.find? kind).map IpCall.now

/-- The last accepted call. -/
def lastAccepted : List IpCall → Option ℕ := lastTime fun r => r.accepted

/-- The last accepted call that found at most 300 ids. -/
def lastCounted : List IpCall → Option ℕ := lastTime fun r => r.accepted && !r.idsFull

/-- None of these calls comes longer than a duration after the last one of a kind. -/
def NoGap (dur : ℕ) (last : List IpCall → Option ℕ) (before : List IpCall) (calls : List IpCall) :
    Prop :=
  ∀ p r q, calls = p ++ r :: q → ∀ t, last (before ++ p) = some t → asSecs (r.now - t) ≤ dur

/-! ## One call -/

namespace IpBlock

variable {old : IpBlock} {id : String} {now : ℕ}

/-- The calls after a call that is counted. -/
def nextCalls (old : IpBlock) (now : ℕ) : ℕ :=
  if asSecs (now - old.callTime) > ipBlockDur then 1 else old.calls + 1

/-- The ids after a call that is counted. -/
def nextIds (old : IpBlock) (id : String) (now : ℕ) : Finset String :=
  if asSecs (now - old.idTime) > daySeconds then if id ∉ old.ids then {id} else ∅
  else insert id old.ids

theorem check_of_callsFull (h : old.CallsFull now) : check (some old) id now = (false, old) := by
  have hnone : old.countCall now = none := by rw [countCall, if_neg (not_lt.mpr h.1), if_pos h.2]
  simp only [check, hnone]

section

variable (h : ¬ old.CallsFull now)
include h

theorem countCall_of_not_callsFull :
    old.countCall now = some { old with calls := old.nextCalls now, callTime := now } := by
  unfold countCall nextCalls
  by_cases hsecs : asSecs (now - old.callTime) > ipBlockDur
  · rw [if_pos hsecs, if_pos hsecs]
  · have hfew : ¬ old.calls > 30 := fun hmany => h ⟨not_lt.mp hsecs, hmany⟩
    rw [if_neg hsecs, if_neg hsecs, if_neg hfew]

/-- While too many ids are counted, the known ones are let in, and only the call is counted. -/
theorem check_of_idsFull (hids : old.IdsFull now) : check (some old) id now =
      (decide (id ∈ old.ids), { old with calls := old.nextCalls now, callTime := now }) := by
  have hsecs : ¬ asSecs (now - old.idTime) > daySeconds := not_lt.mpr hids.1
  simp only [check, countCall_of_not_callsFull h, countId, if_neg hsecs, if_pos hids.2]
  simp

theorem check_of_counted (hids : ¬ old.IdsFull now) : check (some old) id now =
      (true, ⟨old.nextCalls now, now, old.nextIds id now, now⟩) := by
  simp only [check, countCall_of_not_callsFull h, countId, nextIds]
  by_cases hsecs : asSecs (now - old.idTime) > daySeconds
  · simp only [if_pos hsecs, decide_eq_true_eq]
  · have hfew : ¬ old.ids.card > 300 := fun hmany => hids ⟨not_lt.mp hsecs, hmany⟩
    simp only [if_neg hsecs, if_neg hfew, decide_eq_true_eq]
    by_cases hnew : id ∉ old.ids
    · rw [if_pos hnew]
    · rw [if_neg hnew, Finset.insert_eq_self.mpr (not_not.mp hnew)]

theorem nextCalls_le : old.nextCalls now ≤ 31 := by
  unfold nextCalls
  split
  · omega
  · next hsecs =>
    have hfew : ¬ 30 < old.calls := fun hmany => h ⟨not_lt.mp hsecs, hmany⟩
    omega

end

theorem card_nextIds_le (h : ¬ old.IdsFull now) : (old.nextIds id now).card ≤ 301 := by
  unfold nextIds
  split
  · split <;> simp
  · next hsecs =>
    have hfew : ¬ 300 < old.ids.card := fun hmany => h ⟨not_lt.mp hsecs, hmany⟩
    have hcard := Finset.card_insert_le id old.ids
    omega

end IpBlock

/-! ## The last call of a kind -/

section Histories

variable {h before rest : List IpCall} {r : IpCall} {dur : ℕ} {last : List IpCall → Option ℕ}

theorem lastTime_append (kind : IpCall → Bool) :
    lastTime kind (h ++ [r]) = if kind r then some r.now else lastTime kind h := by
  unfold lastTime
  rw [List.reverse_append, List.reverse_singleton, List.singleton_append, List.find?_cons]
  cases kind r <;> rfl

theorem lastTime_mem {kind : IpCall → Bool} {t : ℕ} (ht : lastTime kind h = some t) : ∃ c ∈ h, c.now = t := by
  obtain ⟨c, hc, rfl⟩ := Option.map_eq_some_iff.mp ht
  exact ⟨c, List.mem_reverse.mp (List.mem_of_find?_eq_some hc), rfl⟩

theorem noGap_append : NoGap dur last before (rest ++ [r]) ↔
      NoGap dur last before rest ∧ ∀ t, last (before ++ rest) = some t → asSecs (r.now - t) ≤ dur := by
  constructor
  · intro hgap
    refine ⟨fun p c q hsplit => hgap p c (q ++ [r]) (by simp [hsplit]), hgap rest r [] rfl⟩
  · rintro ⟨hgap, hlast⟩ p c q hsplit
    rcases List.eq_nil_or_concat q with rfl | ⟨q', d, rfl⟩
    · obtain ⟨rfl, hone⟩ := List.append_inj' hsplit rfl
      obtain rfl : r = c := by simpa using hone
      exact hlast
    · have hconcat : rest ++ [r] = (p ++ c :: q') ++ [d] := by simpa using hsplit
      obtain ⟨rfl, -⟩ := List.append_inj' hconcat rfl
      exact hgap p c q' rfl

/-- A part of a history that ends now is the last call alone, or one that ended before and that call. -/
theorem append_eq_cases {first : IpCall} (hsplit : h ++ [r] = before ++ first :: rest) :
    (h = before ∧ r = first ∧ rest = []) ∨ ∃ rest', rest = rest' ++ [r] ∧ h = before ++ first :: rest' := by
  rcases List.eq_nil_or_concat rest with rfl | ⟨rest', d, rfl⟩
  · obtain ⟨rfl, hone⟩ := List.append_inj' hsplit rfl
    exact .inl ⟨rfl, by simpa using hone, rfl⟩
  · have hconcat : h ++ [r] = (before ++ first :: rest') ++ [d] := by simpa using hsplit
    obtain ⟨rfl, hone⟩ := List.append_inj' hconcat rfl
    obtain rfl : r = d := by simpa using hone
    exact .inr ⟨rest', by simp, rfl⟩

end Histories

/-! ## What the counters of an ip say about its history -/

/-- The counters after a history: they bound the calls accepted since any gap of a minute, and have
the ids accepted since any gap of a day. -/
structure Accounts (h : List IpCall) (b : IpBlock) : Prop where
  calls_le : b.calls ≤ 31
  card_le : b.ids.card ≤ 301
  counted : lastCounted h = some b.idTime
  accepted : ∃ t, lastAccepted h = some t ∧ t ≤ b.callTime
  few : ∀ before first rest, h = before ++ first :: rest →
    NoGap ipBlockDur lastAccepted (before ++ [first]) rest →
      (first :: rest).countP (fun c => c.accepted) ≤ b.calls + 1
  known : ∀ before first rest, h = before ++ first :: rest →
    NoGap daySeconds lastCounted (before ++ [first]) rest →
      ∀ c ∈ first :: rest, c.accepted = true → c.id = first.id ∨ c.id ∈ b.ids

section Step

variable {h : List IpCall} {r : IpCall} {b b' : IpBlock}

theorem accounts_first (haccepted : r.accepted = true) (hfull : r.idsFull = false) :
    Accounts [r] ⟨0, r.now, ∅, r.now⟩ where
  calls_le := by simp
  card_le := by simp
  counted := by simp [lastCounted, lastTime, haccepted, hfull]
  accepted := ⟨r.now, by simp [lastAccepted, lastTime, haccepted], le_rfl⟩
  few before first rest hsplit _ := by
    have hlen := congrArg List.length hsplit
    have hcount := List.countP_le_length (p := fun c : IpCall => c.accepted) (l := first :: rest)
    simp only [List.length_append, List.length_cons, List.length_nil] at hlen hcount
    show _ ≤ 0 + 1
    omega
  known before first rest hsplit _ c hc _ := by
    rcases append_eq_cases (h := []) hsplit with ⟨-, -, rfl⟩ | ⟨rest', -, hnil⟩
    · exact .inl (congrArg _ (List.mem_singleton.mp hc))
    · simp at hnil

section

variable (hb : Accounts h b)
include hb

/-- A call that the first counter refuses. -/
theorem Accounts.refused (hrefused : r.accepted = false) : Accounts (h ++ [r]) b where
  calls_le := hb.calls_le
  card_le := hb.card_le
  counted := by
    have hlast := hb.counted
    rw [lastCounted] at hlast ⊢
    simp [lastTime_append, hrefused, hlast]
  accepted := by
    obtain ⟨t, ht, hle⟩ := hb.accepted
    refine ⟨t, ?_, hle⟩
    rw [lastAccepted] at ht ⊢
    simp [lastTime_append, hrefused, ht]
  few before first rest hsplit hgap := by
    rcases append_eq_cases hsplit with ⟨-, rfl, rfl⟩ | ⟨rest', rfl, hrest⟩
    · simp [hrefused]
    · have hfew := hb.few before first rest' hrest (noGap_append.mp hgap).1
      rw [← List.cons_append, List.countP_append]
      simpa [hrefused] using hfew
  known before first rest hsplit hgap c hc haccepted := by
    rcases append_eq_cases hsplit with ⟨-, rfl, rfl⟩ | ⟨rest', rfl, hrest⟩
    · obtain rfl := List.mem_singleton.mp hc
      exact .inl rfl
    · rw [← List.cons_append, List.mem_append, List.mem_singleton] at hc
      rcases hc with hc | rfl
      · exact hb.known before first rest' hrest (noGap_append.mp hgap).1 c hc haccepted
      · rw [hrefused] at haccepted
        cases haccepted

/-- The calls of a part without a gap are counted one by one. -/
theorem Accounts.few_counted {before rest : List IpCall} {first : IpCall}
    (hsplit : h ++ [r] = before ++ first :: rest)
    (hgap : NoGap ipBlockDur lastAccepted (before ++ [first]) rest) :
    (first :: rest).countP (fun c => c.accepted) ≤ b.nextCalls r.now + 1 := by
  rcases append_eq_cases hsplit with ⟨-, rfl, rfl⟩ | ⟨rest', rfl, hrest⟩
  · have hcount := List.countP_le_length (p := fun c : IpCall => c.accepted) (l := [r])
    rw [List.length_singleton] at hcount
    omega
  · obtain ⟨hgap', hlast⟩ := noGap_append.mp hgap
    obtain ⟨t, ht, hle⟩ := hb.accepted
    have hsecs : asSecs (r.now - t) ≤ ipBlockDur := hlast t (by simpa [hrest] using ht)
    -- the first counter was changed at that time or later, so it is not set back
    have hkept : ¬ asSecs (r.now - b.callTime) > ipBlockDur := by
      unfold asSecs at hsecs ⊢
      omega
    have hfew := hb.few before first rest' hrest hgap'
    have hcount := List.countP_le_length (p := fun c : IpCall => c.accepted) (l := [r])
    rw [List.length_singleton] at hcount
    rw [← List.cons_append, List.countP_append, IpBlock.nextCalls, if_neg hkept]
    omega

section

variable (hclock : ∀ c ∈ h, c.now ≤ r.now)
include hclock

theorem Accounts.accepted_counted : ∃ t, lastAccepted (h ++ [r]) = some t ∧ t ≤ r.now := by
  rw [lastAccepted, lastTime_append]
  by_cases haccepted : r.accepted
  · exact ⟨r.now, by rw [if_pos haccepted], le_rfl⟩
  · obtain ⟨t, ht, -⟩ := hb.accepted
    obtain ⟨c, hc, rfl⟩ := lastTime_mem ht
    exact ⟨c.now, by rw [if_neg haccepted]; exact ht, hclock c hc⟩

/-- A call that finds too many ids. -/
theorem Accounts.idsFull (hcalls : ¬ b.CallsFull r.now) (hfull : r.idsFull = true)
    (haccepted : r.accepted = decide (r.id ∈ b.ids)) :
    Accounts (h ++ [r]) { b with calls := b.nextCalls r.now, callTime := r.now } where
  calls_le := IpBlock.nextCalls_le hcalls
  card_le := hb.card_le
  counted := by
    have hlast := hb.counted
    rw [lastCounted] at hlast ⊢
    simp [lastTime_append, hfull, hlast]
  accepted := hb.accepted_counted hclock
  few _ _ _ hsplit hgap := hb.few_counted hsplit hgap
  known before first rest hsplit hgap c hc hok := by
    rcases append_eq_cases hsplit with ⟨-, rfl, rfl⟩ | ⟨rest', rfl, hrest⟩
    · exact .inl (congrArg _ (List.mem_singleton.mp hc))
    · rw [← List.cons_append, List.mem_append, List.mem_singleton] at hc
      rcases hc with hc | rfl
      · exact hb.known before first rest' hrest (noGap_append.mp hgap).1 c hc hok
      · rw [haccepted] at hok
        exact .inr (of_decide_eq_true hok)

/-- A call that both counters count. -/
theorem Accounts.counts (hcalls : ¬ b.CallsFull r.now) (hids : ¬ b.IdsFull r.now) (hfull : r.idsFull = false)
    (haccepted : r.accepted = true) :
    Accounts (h ++ [r]) ⟨b.nextCalls r.now, r.now, b.nextIds r.id r.now, r.now⟩ where
  calls_le := IpBlock.nextCalls_le hcalls
  card_le := IpBlock.card_nextIds_le hids
  counted := by
    rw [lastCounted]
    simp [lastTime_append, hfull, haccepted]
  accepted := hb.accepted_counted hclock
  few _ _ _ hsplit hgap := hb.few_counted hsplit hgap
  known before first rest hsplit hgap c hc hok := by
    rcases append_eq_cases hsplit with ⟨-, rfl, rfl⟩ | ⟨rest', rfl, hrest⟩
    · exact .inl (congrArg _ (List.mem_singleton.mp hc))
    · obtain ⟨hgap', hlast⟩ := noGap_append.mp hgap
      have hkept : ¬ asSecs (r.now - b.idTime) > daySeconds := by
        refine not_lt.mpr (hlast b.idTime ?_)
        have hcounted := hb.counted
        simpa [hrest] using hcounted
      have hinsert : b.nextIds r.id r.now = insert r.id b.ids := by rw [IpBlock.nextIds, if_neg hkept]
      show c.id = first.id ∨ c.id ∈ b.nextIds r.id r.now
      rw [hinsert, Finset.mem_insert]
      rw [← List.cons_append, List.mem_append, List.mem_singleton] at hc
      rcases hc with hc | rfl
      · rcases hb.known before first rest' hrest hgap' c hc hok with hfirst | hold
        · exact .inl hfirst
        · exact .inr (.inr hold)
      · exact .inr (.inl rfl)

/-- What any call makes of the counters of its ip. -/
theorem Accounts.step (hstep : r.Counts (some b) (some b')) : Accounts (h ++ [r]) b' := by
  obtain ⟨hcheck, hfull⟩ := hstep
  obtain ⟨haccepted, hb'⟩ := Prod.ext_iff.mp hcheck
  have hfull' : r.idsFull = true ↔ b.IdsFull r.now := by
    rw [hfull]
    exact ⟨fun ⟨_, hsome, hids⟩ => Option.some.inj hsome ▸ hids, fun hids => ⟨b, rfl, hids⟩⟩
  cases hb'
  by_cases hcalls : b.CallsFull r.now
  · rw [IpBlock.check_of_callsFull hcalls] at haccepted ⊢
    exact hb.refused haccepted
  · by_cases hids : b.IdsFull r.now
    · rw [IpBlock.check_of_idsFull hcalls hids] at haccepted ⊢
      exact hb.idsFull hclock hcalls (hfull'.mpr hids) haccepted
    · rw [IpBlock.check_of_counted hcalls hids] at haccepted ⊢
      have hnot : r.idsFull = false := Bool.eq_false_iff.mpr fun htrue => hids (hfull'.mp htrue)
      exact hb.counts hclock hcalls hids hnot haccepted

end

end

end Step

/-! ## Runs -/

/-- The clock does not go back. -/
def IpCall.ClockForward (calls : List IpCall) : Prop := calls.Pairwise fun a b => a.now ≤ b.now

/-- The counters of each ip account for the calls for it. -/
def IpAccounts (calls : List IpCall) (lock : IpBlockMap) : Prop :=
  ∀ ip, (lock ip = none ∧ calls.filter (fun c => c.ip = ip) = []) ∨
    ∃ b, lock ip = some b ∧ Accounts (calls.filter fun c => c.ip = ip) b

variable {calls : List IpCall} {lock : IpBlockMap} {n : ℕ}

theorem IpAccounts.step {lock' : IpBlockMap} {r : IpCall}
    (haccounts : IpAccounts calls lock) (hclock : ∀ c ∈ calls, c.now ≤ r.now)
    (hstep : r.Step lock lock') : IpAccounts (calls ++ [r]) lock' := by
  obtain ⟨hcheck, hfull⟩ := hstep
  obtain ⟨haccepted, hlock⟩ := Prod.ext_iff.mp hcheck
  obtain rfl := hlock
  intro ip
  by_cases hip : r.ip = ip
  · subst hip
    have hfilter : (calls ++ [r]).filter (fun c => c.ip = r.ip) = calls.filter (fun c => c.ip = r.ip) ++ [r] := by
      simp
    refine .inr ⟨_, Function.update_self _ _ _, ?_⟩
    rw [hfilter]
    rcases haccounts r.ip with ⟨hnone, hnil⟩ | ⟨b, hsome, hb⟩
    · rw [hnone] at hfull
      rw [hnil, List.nil_append, hnone]
      refine accounts_first ?_ ?_
      · simpa [checkIpBlocker, hnone, IpBlock.check] using haccepted
      · refine Bool.eq_false_iff.mpr fun htrue => ?_
        obtain ⟨_, hsome, -⟩ := hfull.mp htrue
        cases hsome
    · rw [hsome] at hfull
      refine hb.step (fun c hc => hclock c (List.mem_of_mem_filter hc)) ⟨?_, hfull⟩
      refine Prod.ext ?_ (congrArg (fun old => some (IpBlock.check old r.id r.now).2) hsome)
      simpa [checkIpBlocker, hsome] using haccepted
  · have hfilter : (calls ++ [r]).filter (fun c => c.ip = ip) = calls.filter (fun c => c.ip = ip) := by
      simp [hip]
    have hother : (checkIpBlocker lock r.ip r.id r.now).2 ip = lock ip :=
      Function.update_of_ne (Ne.symm hip) _ _
    have hold := haccounts ip
    rwa [← hother, ← hfilter] at hold

/-- The map without any ip. -/
def IpBlockMap.empty : IpBlockMap := fun _ => none

theorem ipAccounts_of_run (hrun : Run IpCall.Step IpBlockMap.empty calls lock)
    (hclock : IpCall.ClockForward calls) : IpAccounts calls lock := by
  refine @Run.invariant_history _ _ _ _ _ _
    (fun calls lock => IpCall.ClockForward calls → IpAccounts calls lock) ?_ hrun ?_ hclock
  · intro as s a t hs hstep hforward
    rw [IpCall.ClockForward, List.pairwise_append] at hforward
    exact (hs hforward.1).step (fun c hc => hforward.2.2 c hc a (List.mem_singleton_self a)) hstep
  · exact fun _ ip => .inl ⟨rfl, rfl⟩

/-- An ip that was called for has counters. -/
theorem IpAccounts.of_called {before rest : List IpCall} {ip : String}
    {first : IpCall} (h : IpAccounts calls lock)
    (hsplit : calls.filter (fun c => c.ip = ip) = before ++ first :: rest) :
    ∃ b, Accounts (before ++ first :: rest) b := by
  rcases h ip with ⟨-, hnil⟩ | ⟨b, -, hb⟩
  · simp [hnil] at hsplit
  · exact ⟨b, hsplit ▸ hb⟩

/-- In any order of calls for any ips: at most 32 calls for an ip are accepted between two gaps of a
minute since the last accepted one, and at most 302 ids between two gaps of a day since the last
accepted one that found at most 300 ids. A refused call leaves the ids and their day alone; if the first
counter refused it, it leaves everything. -/
theorem ip_blocker_bounds {calls : List IpCall} {lock : IpBlockMap}
    (hrun : Run IpCall.Step IpBlockMap.empty calls lock) (hclock : IpCall.ClockForward calls)
    (ip : String) :
    (∀ before first rest, calls.filter (fun c => c.ip = ip) = before ++ first :: rest →
      NoGap ipBlockDur lastAccepted (before ++ [first]) rest →
        (first :: rest).countP (fun c => c.accepted) ≤ 32) ∧
    (∀ before first rest, calls.filter (fun c => c.ip = ip) = before ++ first :: rest →
      NoGap daySeconds lastCounted (before ++ [first]) rest →
        (((first :: rest).filter fun c => c.accepted).map IpCall.id).toFinset.card ≤ 302) ∧
    ∀ id now, (checkIpBlocker lock ip id now).1 = false →
      ∃ old new, lock ip = some old ∧ (checkIpBlocker lock ip id now).2 ip = some new ∧
        new.ids = old.ids ∧ new.idTime = old.idTime ∧
        (old.CallsFull now → new = old) ∧
        (¬ old.CallsFull now → new.calls = old.nextCalls now ∧ new.callTime = now) := by
  have haccounts := ipAccounts_of_run hrun hclock
  refine ⟨?_, ?_, ?_⟩
  · intro before first rest hsplit hgap
    obtain ⟨b, hb⟩ := haccounts.of_called hsplit
    have hfew := hb.few before first rest rfl hgap
    have hle := hb.calls_le
    omega
  · intro before first rest hsplit hgap
    obtain ⟨b, hb⟩ := haccounts.of_called hsplit
    have hsub : (((first :: rest).filter fun c => c.accepted).map IpCall.id).toFinset ⊆
        insert first.id b.ids := by
      intro id hid
      obtain ⟨c, hc, rfl⟩ := List.mem_map.mp (List.mem_toFinset.mp hid)
      obtain ⟨hmem, hok⟩ := List.mem_filter.mp hc
      rw [Finset.mem_insert]
      exact hb.known before first rest rfl hgap c hmem hok
    have hcard := Finset.card_le_card hsub
    have hinsert := Finset.card_insert_le first.id b.ids
    have hle := hb.card_le
    omega
  · intro id now hrefused
    have hanswer : (IpBlock.check (lock ip) id now).1 = false := hrefused
    have hafter : (checkIpBlocker lock ip id now).2 ip = some (IpBlock.check (lock ip) id now).2 :=
      Function.update_self _ _ _
    rw [hafter]
    cases hblock : lock ip with
    | none => simp [hblock, IpBlock.check] at hanswer
    | some old =>
      rw [hblock] at hanswer
      by_cases hcalls : old.CallsFull now
      · rw [IpBlock.check_of_callsFull hcalls]
        exact ⟨old, old, rfl, rfl, rfl, rfl, fun _ => rfl, fun hnot => absurd hcalls hnot⟩
      · by_cases hids : old.IdsFull now
        · rw [IpBlock.check_of_idsFull hcalls hids]
          exact ⟨old, _, rfl, rfl, rfl, rfl, fun h => absurd h hcalls, fun _ => ⟨rfl, rfl⟩⟩
        · rw [IpBlock.check_of_counted hcalls hids] at hanswer
          cases hanswer

/-! ### An ip with 301 counted ids -/

/-- Seconds, as nanoseconds. -/
def secs (n : ℕ) : ℕ := n * 1000000000

/-- As many ids as one likes. -/
def nthId (n : ℕ) : String := String.ofList (List.replicate (n + 6) 'a')

theorem nthId_injective : Function.Injective nthId := by
  intro m n h
  have hlen := congrArg (fun s => s.toList.length) h
  simpa [nthId] using hlen

def gatewayIp : String := "203.0.113.7"

/-- A call with the next id, 61 seconds after the one before. -/
def fillCall (n : ℕ) : IpCall := ⟨gatewayIp, nthId n, secs (61 * n), true, false⟩

def fillRest (n : ℕ) : List IpCall := (List.range n).map fun k => fillCall (k + 1)

def fillCalls (n : ℕ) : List IpCall := fillCall 0 :: fillRest n

/-- The ids counted then: the first is not. -/
def filledIds (n : ℕ) : Finset String := (Finset.range n).image fun k => nthId (k + 1)

def filledLock (n : ℕ) : IpBlockMap :=
  Function.update IpBlockMap.empty gatewayIp
    (some ⟨if n = 0 then 0 else 1, secs (61 * n), filledIds n, secs (61 * n)⟩)

theorem card_filledIds (n : ℕ) : (filledIds n).card = n := by
  have hinj : Function.Injective fun k => nthId (k + 1) := nthId_injective.comp (Nat.succ_injective)
  rw [filledIds, Finset.card_image_of_injective _ hinj, Finset.card_range]

theorem asSecs_secs (n : ℕ) : asSecs (secs n) = n := Nat.mul_div_cancel n (by omega)

theorem secs_sub (m n : ℕ) : secs m - secs n = secs (m - n) := (Nat.sub_mul _ _ _).symm

theorem secs_mono {m : ℕ} (h : m ≤ n) : secs m ≤ secs n := Nat.mul_le_mul_right _ h

theorem step_of_check {r : IpCall} {old new : IpBlock}
    (hold : lock r.ip = some old) (hcheck : IpBlock.check (some old) r.id r.now = (r.accepted, new))
    (hfull : r.idsFull = true ↔ old.IdsFull r.now) :
    r.Step lock (Function.update lock r.ip (some new)) := by
  refine ⟨?_, ?_⟩
  · rw [checkIpBlocker, hold, hcheck]
  · rw [hfull, hold]
    exact ⟨fun h => ⟨old, rfl, h⟩, fun ⟨_, hsome, h⟩ => Option.some.inj hsome ▸ h⟩

theorem fillCall_step (hn : n < 301) : (fillCall (n + 1)).Step (filledLock n) (filledLock (n + 1)) := by
  have hold : filledLock n (fillCall (n + 1)).ip =
      some ⟨if n = 0 then 0 else 1, secs (61 * n), filledIds n, secs (61 * n)⟩ :=
    Function.update_self _ _ _
  have hgap : asSecs (secs (61 * (n + 1)) - secs (61 * n)) = 61 := by
    rw [secs_sub, asSecs_secs]
    omega
  have hids : ¬ (300 < (filledIds n).card) := by
    rw [card_filledIds]
    omega
  have hnew : filledLock (n + 1) = Function.update (filledLock n) gatewayIp
      (some ⟨1, secs (61 * (n + 1)), insert (nthId (n + 1)) (filledIds n), secs (61 * (n + 1))⟩) := by
    have hinsert : insert (nthId (n + 1)) (filledIds n) = filledIds (n + 1) := by
      rw [filledIds, filledIds, Finset.range_add_one, Finset.image_insert]
    rw [hinsert, filledLock, filledLock, Function.update_idem, if_neg (Nat.succ_ne_zero n)]
  rw [hnew]
  refine step_of_check hold ?_ ?_
  · rw [IpBlock.check_of_counted]
    · simp only [IpBlock.nextCalls, IpBlock.nextIds, fillCall, hgap, ipBlockDur, daySeconds]
      simp
    · rintro ⟨hle, -⟩
      simp only [fillCall, hgap, ipBlockDur] at hle
      omega
    · exact fun h => hids h.2
  · exact ⟨fun h => absurd h (by simp [fillCall]), fun h => absurd h.2 hids⟩

theorem fillCalls_succ (n : ℕ) : fillCalls (n + 1) = fillCalls n ++ [fillCall (n + 1)] := by
  rw [fillCalls, fillRest, List.range_succ, List.map_append]
  rfl

theorem fillCalls_run (hn : n ≤ 301) : Run IpCall.Step IpBlockMap.empty (fillCalls n) (filledLock n) := by
  induction n with
  | zero =>
    have hfirst : (fillCall 0).Step IpBlockMap.empty (filledLock 0) :=
      ⟨rfl, ⟨fun h => absurd h (by simp [fillCall]), fun ⟨_, h, _⟩ => by cases h⟩⟩
    exact .cons hfirst (.nil _)
  | succ n ih =>
    rw [fillCalls_succ]
    exact (ih (by omega)).append (.cons (fillCall_step (by omega)) (.nil _))

theorem lastTime_fillCalls {kind : IpCall → Bool} (hkind : ∀ k, kind (fillCall k) = true) (n : ℕ) :
    lastTime kind (fillCalls n) = some (secs (61 * n)) := by
  cases n with
  | zero =>
    have hfirst : fillCalls 0 = [] ++ [fillCall 0] := rfl
    rw [hfirst, lastTime_append, if_pos (hkind _)]
    rfl
  | succ n =>
    rw [fillCalls_succ, lastTime_append, if_pos (hkind _)]
    rfl

theorem fillRest_noGap {kind : IpCall → Bool} (hkind : ∀ k, kind (fillCall k) = true) (n : ℕ) :
    NoGap daySeconds (lastTime kind) [fillCall 0] (fillRest n) := by
  induction n with
  | zero =>
    intro p r q hsplit
    simp [fillRest] at hsplit
  | succ n ih =>
    rw [fillRest, List.range_succ, List.map_append]
    refine noGap_append.mpr ⟨ih, fun t ht => ?_⟩
    have hlast : lastTime kind ([fillCall 0] ++ fillRest n) = some (secs (61 * n)) :=
      lastTime_fillCalls hkind n
    cases hlast.symm.trans ht
    show asSecs (secs (61 * (n + 1)) - secs (61 * n)) ≤ daySeconds
    rw [secs_sub, asSecs_secs, daySeconds]
    omega

theorem fillCalls_time {c : IpCall} (hc : c ∈ fillCalls n) : c.ip = gatewayIp ∧ c.now ≤ secs (61 * n) := by
  rcases List.mem_cons.mp hc with rfl | hrest
  · exact ⟨rfl, by simp [fillCall, secs]⟩
  · obtain ⟨k, hk, rfl⟩ := List.mem_map.mp hrest
    have hlt := List.mem_range.mp hk
    exact ⟨rfl, secs_mono (by omega)⟩

theorem filter_fillCalls (n : ℕ) : (fillCalls n).filter (fun c => c.ip = gatewayIp) = fillCalls n :=
  List.filter_eq_self.mpr fun _ hc => decide_eq_true (fillCalls_time hc).1

theorem fillCalls_clockForward (n : ℕ) : IpCall.ClockForward (fillCalls n) := by
  induction n with
  | zero => exact List.pairwise_singleton _ _
  | succ n ih =>
    rw [fillCalls_succ, IpCall.ClockForward, List.pairwise_append]
    refine ⟨ih, List.pairwise_singleton _ _, fun a ha b hb => ?_⟩
    obtain rfl := List.mem_singleton.mp hb
    exact (fillCalls_time ha).2.trans (secs_mono (by omega))

/-- The counters of the ip with 301 ids, at a count of calls. -/
def fullLock (calls time : ℕ) : IpBlockMap :=
  Function.update IpBlockMap.empty gatewayIp
    (some ⟨calls, secs time, filledIds 301, secs 18361⟩)

section

variable {calls time now : ℕ} {id : String} (hcalls : calls ≤ 30) (hnow : now ≤ 18361 + 86400)
include hcalls hnow

/-- Within a day, a call is counted, and let in just if its id is known. -/
theorem fullLock_step :
    IpCall.Step (fullLock calls time) ⟨gatewayIp, id, secs now, id ∈ filledIds 301, true⟩
      (fullLock (if now - time > 60 then 1 else calls + 1) now) := by
  have hold : fullLock calls time gatewayIp =
      some ⟨calls, secs time, filledIds 301, secs 18361⟩ := Function.update_self _ _ _
  have hids : IpBlock.IdsFull ⟨calls, secs time, filledIds 301, secs 18361⟩ (secs now) := by
    refine ⟨?_, ?_⟩
    · simp only [secs_sub, asSecs_secs, daySeconds]
      omega
    · show 300 < (filledIds 301).card
      rw [card_filledIds]
      omega
  have hnew : fullLock (if now - time > 60 then 1 else calls + 1) now =
      Function.update (fullLock calls time) gatewayIp
        (some ⟨if now - time > 60 then 1 else calls + 1, secs now, filledIds 301, secs 18361⟩) := by
    rw [fullLock, fullLock, Function.update_idem]
  rw [hnew]
  refine step_of_check hold ?_ ⟨fun _ => hids, fun _ => rfl⟩
  rw [IpBlock.check_of_idsFull _ hids]
  · simp only [IpBlock.nextCalls, secs_sub, asSecs_secs, ipBlockDur]
  · rintro ⟨-, hmany⟩
    simp only at hmany
    omega

theorem fullLock_answer :
    (checkIpBlocker (fullLock calls time) gatewayIp id (secs now)).1 = decide (id ∈ filledIds 301) := by
  have hstep := (@fullLock_step calls time now id hcalls hnow).1
  rw [← hstep]

end

theorem filledLock_eq : filledLock 301 = fullLock 1 18361 := rfl

/-- A known id, half a day later. -/
def knownCall : IpCall := ⟨gatewayIp, nthId 1, secs (18361 + 50000), nthId 1 ∈ filledIds 301, true⟩

/-- A new id, a day after the last id was counted. -/
def newCall : IpCall := ⟨gatewayIp, nthId 302, secs (18361 + 86401), true, false⟩

theorem nthId_counted : nthId 1 ∈ filledIds 301 := by
  rw [filledIds, Finset.mem_image]
  exact ⟨0, Finset.mem_range.mpr (by omega), rfl⟩

theorem known_accepted : knownCall.accepted = true := by simp only [knownCall, nthId_counted, decide_true]

theorem knownCall_step : knownCall.Step (filledLock 301) (fullLock 1 (18361 + 50000)) := by
  rw [filledLock_eq]
  exact fullLock_step (by omega) (by omega)

/-- A day after the last id was counted, the ids are forgotten. -/
theorem newCall_step : ∃ lock, newCall.Step (fullLock 1 (18361 + 50000)) lock := by
  have hold : fullLock 1 (18361 + 50000) gatewayIp =
      some ⟨1, secs (18361 + 50000), filledIds 301, secs 18361⟩ := Function.update_self _ _ _
  have hids : ¬ IpBlock.IdsFull ⟨1, secs (18361 + 50000), filledIds 301, secs 18361⟩ (secs (18361 + 86401)) := by
    rintro ⟨hle, -⟩
    simp only [secs_sub, asSecs_secs, daySeconds] at hle
    omega
  have hcalls : ¬ IpBlock.CallsFull ⟨1, secs (18361 + 50000), filledIds 301, secs 18361⟩
      (secs (18361 + 86401)) := fun h => absurd h.2 (by simp)
  exact ⟨_, step_of_check (r := newCall) hold (IpBlock.check_of_counted hcalls hids)
    ⟨fun h => absurd h (by simp [newCall]), fun h => absurd h hids⟩⟩

/-- After the first call: the ids are filled, a known one is seen again, and a new one comes. -/
def exceedRest : List IpCall := (fillRest 301 ++ [knownCall]) ++ [newCall]

theorem exceedRest_eq : fillCall 0 :: exceedRest = (fillCalls 301 ++ [knownCall]) ++ [newCall] := rfl

theorem exceedRest_clockForward : IpCall.ClockForward (fillCall 0 :: exceedRest) := by
  rw [exceedRest_eq, IpCall.ClockForward, List.pairwise_append, List.pairwise_append]
  refine ⟨⟨fillCalls_clockForward 301, List.pairwise_singleton _ _, fun a ha b hb => ?_⟩,
    List.pairwise_singleton _ _, fun a ha b hb => ?_⟩
  · obtain rfl := List.mem_singleton.mp hb
    exact (fillCalls_time ha).2.trans (secs_mono (by omega))
  · obtain rfl := List.mem_singleton.mp hb
    rcases List.mem_append.mp ha with ha | ha
    · exact (fillCalls_time ha).2.trans (secs_mono (by omega))
    · obtain rfl := List.mem_singleton.mp ha
      exact secs_mono (by omega)

/-- The accepted calls are never a day apart. -/
theorem exceedRest_noGap : NoGap daySeconds lastAccepted [fillCall 0] exceedRest := by
  refine noGap_append.mpr ⟨noGap_append.mpr ⟨fillRest_noGap (fun _ => rfl) 301, fun t ht => ?_⟩, fun t ht => ?_⟩
  · cases (lastTime_fillCalls (fun _ => rfl) 301).symm.trans ht
    show asSecs (secs (18361 + 50000) - secs (61 * 301)) ≤ daySeconds
    rw [secs_sub, asSecs_secs, daySeconds]
    omega
  · have hlast : lastAccepted (fillCalls 301 ++ [knownCall]) = some (secs (18361 + 50000)) := by
      rw [lastAccepted, lastTime_append, if_pos known_accepted]
      rfl
    cases hlast.symm.trans ht
    show asSecs (secs (18361 + 86401) - secs (18361 + 50000)) ≤ daySeconds
    rw [secs_sub, asSecs_secs, daySeconds]
    omega

theorem card_exceedRest :
    302 < (((fillCall 0 :: exceedRest).filter fun c => c.accepted).map IpCall.id).toFinset.card := by
  have hsub : (Finset.range 303).image nthId ⊆
      (((fillCall 0 :: exceedRest).filter fun c => c.accepted).map IpCall.id).toFinset := by
    intro id hid
    obtain ⟨k, hk, rfl⟩ := Finset.mem_image.mp hid
    have hlt := Finset.mem_range.mp hk
    rw [List.mem_toFinset, List.mem_map]
    by_cases hlast : k = 302
    · subst hlast
      exact ⟨newCall, by simp [exceedRest, newCall], rfl⟩
    · refine ⟨fillCall k, List.mem_filter.mpr ⟨?_, rfl⟩, rfl⟩
      cases k with
      | zero => exact List.mem_cons_self
      | succ k =>
        have hmem : fillCall (k + 1) ∈ fillRest 301 :=
          List.mem_map.mpr ⟨k, List.mem_range.mpr (by omega), rfl⟩
        simp [exceedRest, hmem]
  have hcard := Finset.card_le_card hsub
  rw [Finset.card_image_of_injective _ nthId_injective, Finset.card_range] at hcard
  omega

/-- The day of the ids is not renewed by the known id, so they are forgotten within a day of it. -/
theorem ids_exceed : ∃ calls lock, Run IpCall.Step IpBlockMap.empty calls lock ∧ IpCall.ClockForward calls ∧
      ∃ before first rest, calls.filter (fun c => c.ip = gatewayIp) = before ++ first :: rest ∧
        NoGap daySeconds lastAccepted (before ++ [first]) rest ∧
        302 < (((first :: rest).filter fun c => c.accepted).map IpCall.id).toFinset.card := by
  obtain ⟨lock, hnew⟩ := newCall_step
  refine ⟨fillCall 0 :: exceedRest, lock, ?_, exceedRest_clockForward, [], fillCall 0, exceedRest, ?_,
    exceedRest_noGap, card_exceedRest⟩
  · rw [exceedRest_eq]
    exact ((fillCalls_run le_rfl).append (.cons knownCall_step (.nil _))).append (.cons hnew (.nil _))
  · rw [exceedRest_eq, List.filter_append, List.filter_append, filter_fillCalls]
    rfl

/-- Refused ids, a second apart. -/
def refusedCall (n : ℕ) : IpCall :=
  ⟨gatewayIp, nthId 302, secs (18361 + n), nthId 302 ∈ filledIds 301, true⟩

theorem not_accepted : nthId 302 ∉ filledIds 301 := by
  intro h
  obtain ⟨k, hk, heq⟩ := Finset.mem_image.mp h
  have hlt := Finset.mem_range.mp hk
  have hk' := nthId_injective heq
  omega

def refusedCalls (n : ℕ) : List IpCall := (List.range n).map fun k => refusedCall (k + 1)

theorem refusedCalls_succ (n : ℕ) : refusedCalls (n + 1) = refusedCalls n ++ [refusedCall (n + 1)] := by
  rw [refusedCalls, List.range_succ, List.map_append]
  rfl

theorem refusedCall_step (hn : n < 30) :
    (refusedCall (n + 1)).Step (fullLock (n + 1) (18361 + n)) (fullLock (n + 2) (18361 + (n + 1))) := by
  have hstep : (refusedCall (n + 1)).Step (fullLock (n + 1) (18361 + n))
      (fullLock (if 18361 + (n + 1) - (18361 + n) > 60 then 1 else n + 1 + 1) (18361 + (n + 1))) :=
    fullLock_step (by omega) (by omega)
  have hgap : ¬ 18361 + (n + 1) - (18361 + n) > 60 := by omega
  rw [if_neg hgap] at hstep
  exact hstep

theorem refusedCalls_run (hn : n ≤ 30) : Run IpCall.Step IpBlockMap.empty (fillCalls 301 ++ refusedCalls n)
      (fullLock (n + 1) (18361 + n)) := by
  induction n with
  | zero => simpa [refusedCalls, filledLock_eq] using fillCalls_run le_rfl
  | succ n ih =>
    rw [refusedCalls_succ, ← List.append_assoc]
    exact (ih (by omega)).append (.cons (refusedCall_step (by omega)) (.nil _))

theorem refusedCalls_time {c : IpCall} (hc : c ∈ refusedCalls n) : secs 18361 ≤ c.now ∧ c.now ≤ secs (18361 + n) := by
  obtain ⟨k, hk, rfl⟩ := List.mem_map.mp hc
  have hlt := List.mem_range.mp hk
  exact ⟨secs_mono (by omega), secs_mono (by omega)⟩

theorem refusedCalls_clockForward (n : ℕ) : IpCall.ClockForward (refusedCalls n) := by
  induction n with
  | zero => exact .nil
  | succ n ih =>
    rw [refusedCalls_succ, IpCall.ClockForward, List.pairwise_append]
    refine ⟨ih, List.pairwise_singleton _ _, fun a ha b hb => ?_⟩
    obtain rfl := List.mem_singleton.mp hb
    exact (refusedCalls_time ha).2.trans (secs_mono (by omega))

/-- The last of thirty refused ids is one call too many for a known id. -/
theorem refusal_extends : ∃ calls lock r lock', Run IpCall.Step IpBlockMap.empty calls lock ∧ r.Step lock lock' ∧
      IpCall.ClockForward (calls ++ [r]) ∧ r.accepted = false ∧
      ∃ id now, r.now ≤ now ∧ (checkIpBlocker lock r.ip id now).1 = true ∧
        (checkIpBlocker lock' r.ip id now).1 = false := by
  refine ⟨fillCalls 301 ++ refusedCalls 29, _, refusedCall 30, _, refusedCalls_run (by omega),
    refusedCall_step (by omega), ?_, ?_, nthId 1, secs (18361 + 31), secs_mono (by omega), ?_, ?_⟩
  · rw [List.append_assoc, ← refusedCalls_succ, IpCall.ClockForward, List.pairwise_append]
    refine ⟨fillCalls_clockForward 301, refusedCalls_clockForward 30, fun a ha b hb => ?_⟩
    exact (fillCalls_time ha).2.trans (refusedCalls_time hb).1
  · simp only [refusedCall, not_accepted, decide_false]
  · show (checkIpBlocker (fullLock 30 (18361 + 29)) gatewayIp (nthId 1) (secs (18361 + 31))).1 = true
    rw [fullLock_answer (by omega) (by omega)]
    exact decide_eq_true nthId_counted
  · have hfull : IpBlock.CallsFull ⟨31, secs (18361 + 30), filledIds 301, secs 18361⟩ (secs (18361 + 31)) := by
      refine ⟨?_, by simp⟩
      simp only [secs_sub, asSecs_secs, ipBlockDur]
      omega
    have hold : fullLock 31 (18361 + 30) gatewayIp =
        some ⟨31, secs (18361 + 30), filledIds 301, secs 18361⟩ := Function.update_self _ _ _
    show (IpBlock.check (fullLock 31 (18361 + 30) gatewayIp) (nthId 1) (secs (18361 + 31))).1 = false
    rw [hold, IpBlock.check_of_callsFull hfull]

/-- More than 302 ids are accepted without a gap of a day, and a refused call puts off the next one. -/
theorem ids_exceed_and_refusal_extends :
    (∃ calls lock, Run IpCall.Step IpBlockMap.empty calls lock ∧ IpCall.ClockForward calls ∧
      ∃ before first rest, calls.filter (fun c => c.ip = gatewayIp) = before ++ first :: rest ∧
        NoGap daySeconds lastAccepted (before ++ [first]) rest ∧
        302 < (((first :: rest).filter fun c => c.accepted).map IpCall.id).toFinset.card) ∧
    ∃ calls lock r lock', Run IpCall.Step IpBlockMap.empty calls lock ∧ r.Step lock lock' ∧
      IpCall.ClockForward (calls ++ [r]) ∧ r.accepted = false ∧
      ∃ id now, r.now ≤ now ∧ (checkIpBlocker lock r.ip id now).1 = true ∧
        (checkIpBlocker lock' r.ip id now).1 = false :=
  ⟨ids_exceed, refusal_extends⟩

theorem ip_blocker_bounds_filled :
    (((fillCalls 301).filter fun c => c.accepted).map IpCall.id).toFinset.card ≤ 302 ∧
      ∃ new, (checkIpBlocker (filledLock 301) gatewayIp (nthId 302) (secs 18362)).2 gatewayIp = some new ∧
        new.ids = filledIds 301 := by
  have hbounds := ip_blocker_bounds (fillCalls_run le_rfl) (fillCalls_clockForward 301) gatewayIp
  have hcounted : ∀ k, ((fillCall k).accepted && !(fillCall k).idsFull) = true := fun _ => rfl
  refine ⟨hbounds.2.1 [] (fillCall 0) (fillRest 301) (filter_fillCalls 301)
    (fillRest_noGap hcounted 301), ?_⟩
  have hrefused : (checkIpBlocker (filledLock 301) gatewayIp (nthId 302) (secs 18362)).1 = false := by
    rw [filledLock_eq, fullLock_answer (by omega) (by omega)]
    exact decide_eq_false not_accepted
  obtain ⟨old, new, hold, hnew, hids, -⟩ := hbounds.2.2 (nthId 302) (secs 18362) hrefused
  have hsame : filledLock 301 gatewayIp = some _ := Function.update_self _ _ _
  cases hsame.symm.trans hold
  exact ⟨new, hnew, hids⟩

end RustDesk.Server
