import RustDesk.Common.Run
import RustDesk.Server.RendezvousProto

/-!
# Pairing of relay connections

References: `rustdesk-server/src/relay_server.rs` (`PEERS`, `make_pair_`).

Every connection to hbbr is a task of its own, and the tasks share the map of the streams that wait for
their peer. A task locks the map once to look for its peer and once more to enter its own stream, so
the tasks of one pair may both look before either has entered: each of them waits then, and the stream
entered last drops the other. `paired_iff_in_turn` says that nothing else keeps a pair apart.

A stream is named by its connection. How two paired streams are relayed is no part of the model.
-/

namespace RustDesk.Server

/-- Where `make_pair_` stands for a connection. -/
inductive PairTask (C : Type*)
  /-- It waits for the first message. -/
  | connected
  /-- It found no peer, and is to enter its stream. -/
  | missed (uuid : String)
  /-- Its stream is in the map, and it sleeps. -/
  | sleeping (uuid : String) (since : ℕ)
  | relaying (peer : C)
  | closed

/-- hbbr. `requestedAt` and `dropped` are observations: when a connection looked for its peer, and
which streams were dropped while they waited. The clock counts milliseconds. -/
structure Hbbr (C : Type*) where
  peers : String → Option C
  task : C → PairTask C
  requestedAt : C → Option ℕ
  dropped : List C
  now : ℕ

/-- A step is one section under the lock of the map, with what the task does on its way there. -/
inductive HbbrEvent (C : Type*)
  | request (c : C) (rf : RequestRelay)
  /-- Another first message, or none within the timeout. -/
  | close (c : C)
  | insert (c : C)
  | expire (c : C)
  | tick

/-- The connection whose task takes the step. -/
def HbbrEvent.conn {C : Type*} : HbbrEvent C → Option C
  | .request c _ | .close c | .insert c | .expire c => some c
  | .tick => none

namespace Hbbr

variable {C : Type*} {rf : RequestRelay} {ev : HbbrEvent C}

def start : Hbbr C := ⟨fun _ => none, fun _ => .connected, fun _ => none, [], 0⟩

variable [DecidableEq C]

def setTask (s : Hbbr C) (c : C) (task : PairTask C) : Hbbr C :=
  { s with task := Function.update s.task c task }

/-- The first section of `make_pair_`: take the peer out of the map, if one waits. -/
def lookup (s : Hbbr C) (c : C) (uuid : String) : Hbbr C :=
  let task := match s.peers uuid with
    | some peer => .relaying peer
    | none => .missed uuid
  { s with
    peers := Function.update s.peers uuid none
    task := Function.update s.task c task
    requestedAt := Function.update s.requestedAt c (some s.now) }

/-- The second section: the stream is entered, and one that it replaces is dropped. -/
def enter (s : Hbbr C) (c : C) (uuid : String) : Hbbr C :=
  { s with
    peers := Function.update s.peers uuid (some c)
    task := Function.update s.task c (.sleeping uuid s.now)
    dropped := (s.peers uuid).toList ++ s.dropped }

/-- The third section, after the sleep: whatever waits under the uuid is dropped. -/
def leave (s : Hbbr C) (c : C) (uuid : String) : Hbbr C :=
  { s with
    peers := Function.update s.peers uuid none
    task := Function.update s.task c .closed
    dropped := (s.peers uuid).toList ++ s.dropped }

/-- `make_pair_`, one section at a time. -/
def step (key : String) (s : Hbbr C) : HbbrEvent C → Option (Hbbr C)
  | .request c rf =>
    match s.task c with
    | .connected =>
      if key ≠ "" ∧ rf.licenceKey ≠ key then some (s.setTask c .closed)
      else if rf.uuid ≠ "" then some (s.lookup c rf.uuid)
      else some (s.setTask c .closed)
    | _ => none
  | .close c =>
    match s.task c with
    | .connected => some (s.setTask c .closed)
    | _ => none
  | .insert c =>
    match s.task c with
    | .missed uuid => some (s.enter c uuid)
    | _ => none
  | .expire c =>
    match s.task c with
    | .sleeping uuid since => if since + 30_000 ≤ s.now then some (s.leave c uuid) else none
    | _ => none
  | .tick => some { s with now := s.now + 1 }

/-! ## What a step does -/

variable {key : String} {s t : Hbbr C} {c : C}

theorem request_cases (h : step key s (.request c rf) = some t) : s.task c = .connected ∧
      ((¬ (key = "" ∨ rf.licenceKey = key) ∨ rf.uuid = "") ∧ t = s.setTask c .closed ∨
        (key = "" ∨ rf.licenceKey = key) ∧ rf.uuid ≠ "" ∧ t = s.lookup c rf.uuid) := by
  cases htask : s.task c with
  | connected =>
    refine ⟨rfl, ?_⟩
    simp only [step, htask] at h
    by_cases hkey : key ≠ "" ∧ rf.licenceKey ≠ key
    · rw [if_pos hkey, Option.some.injEq] at h
      exact .inl ⟨.inl (by tauto), h.symm⟩
    · rw [if_neg hkey] at h
      by_cases huuid : rf.uuid = ""
      · rw [if_neg (not_not.mpr huuid), Option.some.injEq] at h
        exact .inl ⟨.inr huuid, h.symm⟩
      · rw [if_pos huuid, Option.some.injEq] at h
        exact .inr ⟨by tauto, huuid, h.symm⟩
  | _ => simp [step, htask] at h

theorem close_cases (h : step key s (.close c) = some t) : s.task c = .connected ∧ t = s.setTask c .closed := by
  cases htask : s.task c with
  | connected =>
    simp only [step, htask, Option.some.injEq] at h
    exact ⟨rfl, h.symm⟩
  | _ => simp [step, htask] at h

theorem insert_cases (h : step key s (.insert c) = some t) :
    ∃ uuid, s.task c = .missed uuid ∧ t = s.enter c uuid := by
  cases htask : s.task c with
  | missed uuid =>
    simp only [step, htask, Option.some.injEq] at h
    exact ⟨uuid, rfl, h.symm⟩
  | _ => simp [step, htask] at h

theorem expire_cases (h : step key s (.expire c) = some t) :
    ∃ uuid since, s.task c = .sleeping uuid since ∧ since + 30_000 ≤ s.now ∧ t = s.leave c uuid := by
  cases htask : s.task c with
  | sleeping uuid since =>
    simp only [step, htask] at h
    by_cases hslept : since + 30_000 ≤ s.now
    · rw [if_pos hslept, Option.some.injEq] at h
      exact ⟨uuid, since, rfl, hslept, h.symm⟩
    · simp [hslept] at h
  | _ => simp [step, htask] at h

/-! ## Entries -/

/-- The map holds streams of sleeping tasks only, and a task that has not looked has no time. -/
structure Inv (s : Hbbr C) : Prop where
  entries : ∀ uuid c, s.peers uuid = some c → ∃ since, s.task c = .sleeping uuid since
  unasked : ∀ c, s.task c = .connected → s.requestedAt c = none

omit [DecidableEq C] in
theorem inv_start : Inv (start : Hbbr C) := ⟨fun _ _ h => (by cases h), fun _ _ => rfl⟩

section

variable (hs : s.Inv)
include hs

/-- A task that is not asleep may move on, when the map only loses entries. -/
theorem Inv.move {peers : String → Option C} {task : PairTask C}
    {requestedAt : C → Option ℕ} (hpeers : ∀ uuid peer, peers uuid = some peer → s.peers uuid = some peer)
    (hawake : ∀ uuid since, s.task c ≠ .sleeping uuid since) (htask : task ≠ .connected)
    (hothers : ∀ c', c' ≠ c → requestedAt c' = s.requestedAt c') :
    Inv { s with peers, task := Function.update s.task c task, requestedAt } where
  entries := by
    intro uuid peer hpeer
    obtain ⟨since, hsleep⟩ := hs.entries uuid peer (hpeers uuid peer hpeer)
    have hne : peer ≠ c := by
      rintro rfl
      exact hawake uuid since hsleep
    exact ⟨since, by simpa [hne] using hsleep⟩
  unasked := by
    intro c' hc'
    by_cases hsame : c' = c
    · subst hsame
      simp only [Function.update_self] at hc'
      exact absurd hc' htask
    · simp only [Function.update_of_ne hsame] at hc'
      exact (hothers c' hsame).trans (hs.unasked c' hc')

theorem Inv.setTask_closed (hc : s.task c = .connected) : (s.setTask c .closed).Inv :=
  hs.move (fun _ _ h => h) (by simp [hc]) (by simp) fun _ _ => rfl

theorem Inv.lookup (hc : s.task c = .connected) (uuid : String) : (s.lookup c uuid).Inv := by
  refine hs.move (fun uuid' peer h => ?_) (by simp [hc]) ?_ fun c' hc' => ?_
  · by_cases hsame : uuid' = uuid
    · simp [hsame] at h
    · simpa [hsame] using h
  · cases s.peers uuid <;> simp
  · simp [hc']

theorem Inv.enter {uuid : String} (hc : s.task c = .missed uuid) : (s.enter c uuid).Inv where
  entries := by
    intro uuid' peer hpeer
    by_cases hsame : uuid' = uuid
    · subst hsame
      obtain rfl : c = peer := by simpa [Hbbr.enter] using hpeer
      exact ⟨s.now, by simp [Hbbr.enter]⟩
    · obtain ⟨since, hsleep⟩ := hs.entries uuid' peer (by simpa [Hbbr.enter, hsame] using hpeer)
      have hne : peer ≠ c := by
        rintro rfl
        simp [hc] at hsleep
      exact ⟨since, by simpa [Hbbr.enter, hne] using hsleep⟩
  unasked := by
    intro c' hc'
    by_cases hsame : c' = c
    · simp [Hbbr.enter, hsame] at hc'
    · exact hs.unasked c' (by simpa [Hbbr.enter, hsame] using hc')

theorem Inv.leave {uuid : String} {since : ℕ} (hc : s.task c = .sleeping uuid since) : (s.leave c uuid).Inv where
  entries := by
    intro uuid' peer hpeer
    have hne : uuid' ≠ uuid := by
      rintro rfl
      simp [Hbbr.leave] at hpeer
    obtain ⟨since', hsleep⟩ := hs.entries uuid' peer (by simpa [Hbbr.leave, hne] using hpeer)
    have hother : peer ≠ c := by
      rintro rfl
      rw [hc] at hsleep
      cases hsleep
      exact hne rfl
    exact ⟨since', by simpa [Hbbr.leave, hother] using hsleep⟩
  unasked := by
    intro c' hc'
    by_cases hsame : c' = c
    · simp [Hbbr.leave, hsame] at hc'
    · exact hs.unasked c' (by simpa [Hbbr.leave, hsame] using hc')

theorem Inv.step (h : step key s ev = some t) : t.Inv := by
  cases ev with
  | request c rf =>
    obtain ⟨hc, ⟨-, rfl⟩ | ⟨-, -, rfl⟩⟩ := request_cases h
    · exact hs.setTask_closed hc
    · exact hs.lookup hc rf.uuid
  | close c =>
    obtain ⟨hc, rfl⟩ := close_cases h
    exact hs.setTask_closed hc
  | insert c =>
    obtain ⟨uuid, hc, rfl⟩ := insert_cases h
    exact hs.enter hc
  | expire c =>
    obtain ⟨uuid, since, hc, -, rfl⟩ := expire_cases h
    exact hs.leave hc
  | tick =>
    cases h
    exact ⟨hs.entries, hs.unasked⟩

end

/-! ## Two connections with one uuid -/

/-- The task looked for its peer under a uuid and found none. -/
def WaitsFor (s : Hbbr C) (c : C) (uuid : String) : Prop :=
  s.task c = .missed uuid ∨ ∃ since, s.task c = .sleeping uuid since

/-- Two connections send a `RequestRelay` with one uuid and the right key, and nobody else uses the
uuid. -/
def OnlyPair (key uuid : String) (a b : C) : HbbrEvent C → Prop
  | .request c rf =>
    (rf.uuid = uuid ↔ c = a ∨ c = b) ∧ (c = a ∨ c = b → key = "" ∨ rf.licenceKey = key)
  | .close c => c ≠ a ∧ c ≠ b
  | _ => True

/-- One of the two found the other, which did not find it, and neither stream was dropped. -/
def Paired (a b : C) (s : Hbbr C) : Prop :=
  (s.task a = .relaying b ∧ s.task b ≠ .relaying a ∨ s.task b = .relaying a ∧ s.task a ≠ .relaying b) ∧
    a ∉ s.dropped ∧ b ∉ s.dropped

/-- A task is between its look at the map and the entry of its stream. -/
def Between (s : Hbbr C) (c : C) : Prop := ∃ uuid, s.task c = .missed uuid

/-- Neither of the two looks while the other is between its look and its entry. -/
def InTurn (a b : C) (s : Hbbr C) : HbbrEvent C → Prop
  | .request c _ => ¬ (c = a ∧ s.Between b) ∧ ¬ (c = b ∧ s.Between a)
  | _ => True

variable {uuid : String} {a b : C}

/-- The uuid is used by the two connections alone. -/
def Uses (uuid : String) (a b : C) (s : Hbbr C) : Prop :=
  ∀ c uuid', s.WaitsFor c uuid' → (uuid' = uuid ↔ c = a ∨ c = b)

omit [DecidableEq C] in
/-- While none of the two sleeps, nothing waits under their uuid. -/
theorem Uses.none (h : Uses uuid a b s) (hs : s.Inv) (ha : ∀ since, s.task a ≠ .sleeping uuid since)
    (hb : ∀ since, s.task b ≠ .sleeping uuid since) : s.peers uuid = none := by
  cases hpeer : s.peers uuid with
  | none => rfl
  | some c =>
    obtain ⟨since, hsleep⟩ := hs.entries uuid c hpeer
    obtain rfl | rfl := (h c uuid (.inr ⟨since, hsleep⟩)).mp rfl
    · exact absurd hsleep (ha since)
    · exact absurd hsleep (hb since)

/-- A task that moves on waits for what it looked for, or no longer. -/
theorem Uses.move (h : Uses uuid a b s) {peers : String → Option C} {task : PairTask C}
    {requestedAt : C → Option ℕ} {dropped : List C}
    (hc : ∀ uuid', task = .missed uuid' ∨ (∃ since, task = .sleeping uuid' since) →
      (uuid' = uuid ↔ c = a ∨ c = b)) :
    Uses uuid a b { s with peers, task := Function.update s.task c task, requestedAt, dropped } := by
  intro c' uuid' hwaits
  by_cases hsame : c' = c
  · subst hsame
    exact hc uuid' (by simpa [WaitsFor] using hwaits)
  · exact h c' uuid' (by simpa [WaitsFor, hsame] using hwaits)

theorem Uses.step (h : Uses uuid a b s) (hev : OnlyPair key uuid a b ev)
    (hstep : Hbbr.step key s ev = some t) : Uses uuid a b t := by
  cases ev with
  | request c rf =>
    obtain ⟨-, ⟨-, rfl⟩ | ⟨-, -, rfl⟩⟩ := request_cases hstep
    · exact h.move (by simp)
    · refine h.move fun uuid' htask => ?_
      cases hpeer : s.peers rf.uuid with
      | none =>
        obtain rfl : rf.uuid = uuid' := by simpa [hpeer] using htask
        exact hev.1
      | some peer => simp [hpeer] at htask
  | close c =>
    obtain ⟨-, rfl⟩ := close_cases hstep
    exact h.move (by simp)
  | insert c =>
    obtain ⟨uuid', hc, rfl⟩ := insert_cases hstep
    refine h.move fun uuid'' htask => ?_
    obtain rfl : uuid' = uuid'' := by simpa using htask
    exact h c uuid' (.inl hc)
  | expire c =>
    obtain ⟨uuid', since, -, -, rfl⟩ := expire_cases hstep
    exact h.move (by simp)
  | tick =>
    cases hstep
    exact h

/-! ## The pair out of turn -/

/-- Both looked, and neither found a stream. -/
def Crossed (a b : C) (s : Hbbr C) : Prop :=
  ∀ c, c = a ∨ c = b → s.task c ≠ .connected ∧ ∀ peer, s.task c ≠ .relaying peer

omit [DecidableEq C] in
theorem Crossed.not_paired (h : Crossed a b s) : ¬ Paired a b s := by
  rintro ⟨⟨ha, -⟩ | ⟨hb, -⟩, -⟩
  · exact (h a (.inl rfl)).2 b ha
  · exact (h b (.inr rfl)).2 a hb

/-- Who found nobody is found by nobody who looked as well. -/
theorem Crossed.step (h : Crossed a b s) (hstep : Hbbr.step key s ev = some t) : Crossed a b t := by
  intro c hc
  obtain ⟨hconn, hrelay⟩ := h c hc
  cases ev with
  | request c' rf =>
    obtain ⟨hc', -⟩ := id (request_cases hstep)
    have hne : c ≠ c' := by
      rintro rfl
      exact hconn hc'
    obtain ⟨-, ⟨-, rfl⟩ | ⟨-, -, rfl⟩⟩ := request_cases hstep
    · simpa [setTask, hne] using ⟨hconn, hrelay⟩
    · simpa [lookup, hne] using ⟨hconn, hrelay⟩
  | close c' =>
    obtain ⟨hc', rfl⟩ := close_cases hstep
    have hne : c ≠ c' := by
      rintro rfl
      exact hconn hc'
    simpa [setTask, hne] using ⟨hconn, hrelay⟩
  | insert c' =>
    obtain ⟨uuid', -, rfl⟩ := insert_cases hstep
    by_cases hsame : c = c'
    · simp [enter, hsame]
    · simpa [enter, hsame] using ⟨hconn, hrelay⟩
  | expire c' =>
    obtain ⟨uuid', since, -, -, rfl⟩ := expire_cases hstep
    by_cases hsame : c = c'
    · simp [leave, hsame]
    · simpa [leave, hsame] using ⟨hconn, hrelay⟩
  | tick =>
    cases hstep
    exact ⟨hconn, hrelay⟩

/-- A look while the other is about to enter its stream finds nobody. -/
theorem crossed_of_out_of_turn (hs : s.Inv) (huses : Uses uuid a b s) (hne : uuid ≠ "")
    (hev : OnlyPair key uuid a b ev) (hturn : ¬ InTurn a b s ev)
    (hstep : Hbbr.step key s ev = some t) : Crossed a b t := by
  cases ev with
  | request c rf =>
    obtain ⟨hc, hcases⟩ := request_cases hstep
    -- one of the two looks, and the other is between
    obtain ⟨d, hd, hcd, uuid', hbetween⟩ : ∃ d, (d = a ∨ d = b) ∧
        (∀ e, e = a ∨ e = b → e = c ∨ e = d) ∧ s.Between d := by
      by_cases hca : c = a ∧ s.Between b
      · exact ⟨b, .inr rfl, by rintro e (rfl | rfl) <;> simp [hca.1], hca.2⟩
      · have hcb : c = b ∧ s.Between a := by
          by_contra hcb
          exact hturn ⟨hca, hcb⟩
        exact ⟨a, .inl rfl, by rintro e (rfl | rfl) <;> simp [hcb.1], hcb.2⟩
    have hmem : c = a ∨ c = b := by
      by_contra hnone
      exact hturn ⟨fun h => hnone (.inl h.1), fun h => hnone (.inr h.1)⟩
    obtain rfl : rf.uuid = uuid := hev.1.mpr hmem
    obtain ⟨hbad | hbad, -⟩ | ⟨-, -, rfl⟩ := hcases
    · exact absurd (hev.2 hmem) hbad
    · exact absurd hbad hne
    have hawake : ∀ e, e = a ∨ e = b → ∀ since, s.task e ≠ .sleeping rf.uuid since := by
      intro e he since
      obtain rfl | rfl := hcd e he
      · simp [hc]
      · simp [hbetween]
    have hnone : s.peers rf.uuid = Option.none := huses.none hs (hawake a (.inl rfl)) (hawake b (.inr rfl))
    intro e he
    by_cases hec : e = c
    · simp [lookup, hec, hnone]
    · obtain rfl : e = d := (hcd e he).resolve_left hec
      simp [lookup, hec, hbetween]
  | _ => exact absurd trivial hturn

/-! ## The pair in turn -/

/-- How far two connections are, `a` being the first of them to look, when they look in turn. -/
inductive Stage (uuid : String) (a b : C) (s : Hbbr C) : Prop
  | fresh (ha : s.task a = .connected) (hb : s.task b = .connected)
      (hdropped : a ∉ s.dropped ∧ b ∉ s.dropped)
  | missed (ta : ℕ) (ha : s.task a = .missed uuid) (hb : s.task b = .connected)
      (hat : s.requestedAt a = some ta) (hta : ta ≤ s.now)
      (hdropped : a ∉ s.dropped ∧ b ∉ s.dropped)
  | waiting (ta since : ℕ) (ha : s.task a = .sleeping uuid since) (hb : s.task b = .connected)
      (hat : s.requestedAt a = some ta) (hta : ta ≤ since) (hpeer : s.peers uuid = some a)
      (hdropped : a ∉ s.dropped ∧ b ∉ s.dropped)
  | gone (ta : ℕ) (ha : s.task a = .closed) (hb : s.task b = .connected)
      (hat : s.requestedAt a = some ta) (hta : ta + 30_000 ≤ s.now)
  | paired (ha : (∃ since, s.task a = .sleeping uuid since) ∨ s.task a = .closed)
      (hb : s.task b = .relaying a) (hpeer : s.peers uuid = none)
      (hdropped : a ∉ s.dropped ∧ b ∉ s.dropped)
  | late (ta tb : ℕ) (hat : s.requestedAt a = some ta) (hbt : s.requestedAt b = some tb)
      (hlate : ta + 30_000 ≤ tb)

/-- What a step of anybody else keeps. -/
structure SamePair (uuid : String) (a b : C) (s t : Hbbr C) : Prop where
  task : ∀ e, e = a ∨ e = b → t.task e = s.task e
  requestedAt : ∀ e, e = a ∨ e = b → t.requestedAt e = s.requestedAt e
  peers : t.peers uuid = s.peers uuid
  dropped : ∀ e, e = a ∨ e = b → e ∉ s.dropped → e ∉ t.dropped
  now : s.now ≤ t.now

omit [DecidableEq C] in
theorem Stage.frame (h : Stage uuid a b s) (hsame : SamePair uuid a b s t) : Stage uuid a b t := by
  have hta := hsame.task a (.inl rfl)
  have htb := hsame.task b (.inr rfl)
  have hra := hsame.requestedAt a (.inl rfl)
  have hrb := hsame.requestedAt b (.inr rfl)
  have hnow := hsame.now
  have hdrop : a ∉ s.dropped ∧ b ∉ s.dropped → a ∉ t.dropped ∧ b ∉ t.dropped :=
    fun hd => ⟨hsame.dropped a (.inl rfl) hd.1, hsame.dropped b (.inr rfl) hd.2⟩
  cases h with
  | fresh ha hb hd => exact .fresh (hta.trans ha) (htb.trans hb) (hdrop hd)
  | missed ta ha hb hat hle hd =>
    exact .missed ta (hta.trans ha) (htb.trans hb) (hra.trans hat) (by omega) (hdrop hd)
  | waiting ta since ha hb hat hle hpeer hd =>
    exact .waiting ta since (hta.trans ha) (htb.trans hb) (hra.trans hat) hle (hsame.peers.trans hpeer) (hdrop hd)
  | gone ta ha hb hat hle => exact .gone ta (hta.trans ha) (htb.trans hb) (hra.trans hat) (by omega)
  | paired ha hb hpeer hd =>
    refine .paired ?_ (htb.trans hb) (hsame.peers.trans hpeer) (hdrop hd)
    rwa [hta]
  | late ta tb hat hbt hle => exact .late ta tb (hra.trans hat) (hrb.trans hbt) hle

omit [DecidableEq C] in
/-- What waits under another uuid is no stream of the pair. -/
theorem Uses.entry_ne (h : Uses uuid a b s) (hs : s.Inv) {uuid' : String} (hne : uuid' ≠ uuid)
    {e : C} (he : e = a ∨ e = b) : e ∉ (s.peers uuid').toList := by
  intro hmem
  obtain ⟨since, hsleep⟩ := hs.entries uuid' e (by simpa using hmem)
  exact hne ((h e uuid' (.inr ⟨since, hsleep⟩)).mpr he)

theorem samePair_of_other (hs : s.Inv) (huses : Uses uuid a b s)
    (hev : OnlyPair key uuid a b ev) (hother : ∀ c, ev.conn = some c → c ≠ a ∧ c ≠ b)
    (hstep : Hbbr.step key s ev = some t) : SamePair uuid a b s t := by
  have hne : ∀ c, ev.conn = some c → ∀ e, e = a ∨ e = b → e ≠ c := by
    rintro c hc e he rfl
    exact he.elim (hother e hc).1 (hother e hc).2
  cases ev with
  | request c rf =>
    have hc := hne c rfl
    have huuid : uuid ≠ rf.uuid := fun h => (hev.1.mp h.symm).elim (hother c rfl).1 (hother c rfl).2
    obtain ⟨-, ⟨-, rfl⟩ | ⟨-, -, rfl⟩⟩ := request_cases hstep
    · exact ⟨fun e he => by simp [setTask, hc e he], fun _ _ => rfl, rfl, fun _ _ h => h, Nat.le_refl _⟩
    · exact ⟨fun e he => by simp [lookup, hc e he], fun e he => by simp [lookup, hc e he],
        by simp [lookup, huuid], fun _ _ h => h, Nat.le_refl _⟩
  | close c =>
    have hc := hne c rfl
    obtain ⟨-, rfl⟩ := close_cases hstep
    exact ⟨fun e he => by simp [setTask, hc e he], fun _ _ => rfl, rfl, fun _ _ h => h, Nat.le_refl _⟩
  | insert c =>
    have hc := hne c rfl
    obtain ⟨uuid', hwaits, rfl⟩ := insert_cases hstep
    have huuid : uuid' ≠ uuid := fun h =>
      ((huses c uuid' (.inl hwaits)).mp h).elim (hother c rfl).1 (hother c rfl).2
    refine ⟨fun e he => by simp [enter, hc e he], fun _ _ => rfl, by simp [enter, huuid.symm],
      fun e he hmem => ?_, Nat.le_refl _⟩
    rw [enter, List.mem_append]
    exact not_or.mpr ⟨huses.entry_ne hs huuid he, hmem⟩
  | expire c =>
    have hc := hne c rfl
    obtain ⟨uuid', since, hwaits, -, rfl⟩ := expire_cases hstep
    have huuid : uuid' ≠ uuid := fun h =>
      ((huses c uuid' (.inr ⟨since, hwaits⟩)).mp h).elim (hother c rfl).1 (hother c rfl).2
    refine ⟨fun e he => by simp [leave, hc e he], fun _ _ => rfl, by simp [leave, huuid.symm],
      fun e he hmem => ?_, Nat.le_refl _⟩
    rw [leave, List.mem_append]
    exact not_or.mpr ⟨huses.entry_ne hs huuid he, hmem⟩
  | tick =>
    cases hstep
    exact ⟨fun _ _ => rfl, fun _ _ => rfl, rfl, fun _ _ h => h, Nat.le_succ _⟩

omit [DecidableEq C] in
theorem OnlyPair.symm (h : OnlyPair key uuid a b ev) : OnlyPair key uuid b a ev := by
  cases ev with
  | request c rf => exact ⟨h.1.trans or_comm, fun hc => h.2 hc.symm⟩
  | close c => exact And.symm h
  | _ => trivial

omit [DecidableEq C] in
theorem InTurn.symm (h : InTurn a b s ev) : InTurn b a s ev := by
  cases ev with
  | request c rf => exact And.symm h
  | _ => trivial

omit [DecidableEq C] in
theorem Uses.symm (h : Uses uuid a b s) : Uses uuid b a s :=
  fun c uuid' hwaits => (h c uuid' hwaits).trans or_comm

/-- The accepted request of one of the two. -/
theorem request_of_pair (hne : uuid ≠ "") (hc : c = a ∨ c = b)
    (hev : OnlyPair key uuid a b (.request c rf)) (hstep : step key s (.request c rf) = some t) :
    s.task c = .connected ∧ t = s.lookup c uuid := by
  obtain rfl : rf.uuid = uuid := hev.1.mpr hc
  obtain ⟨hconn, ⟨hbad | hbad, -⟩ | ⟨-, -, rfl⟩⟩ := request_cases hstep
  · exact absurd (hev.2 hc) hbad
  · exact absurd hbad hne
  · exact ⟨hconn, rfl⟩

/-- The first of the two looks while nothing waits under the uuid. -/
theorem Stage.lookup_fresh (hab : a ≠ b) (hb : s.task b = .connected)
    (hd : a ∉ s.dropped ∧ b ∉ s.dropped) (hnone : s.peers uuid = none) :
    Stage uuid a b (s.lookup a uuid) := by
  refine .missed s.now ?_ ?_ ?_ (Nat.le_refl _) hd
  · simp [lookup, hnone]
  · simpa [lookup, hab.symm] using hb
  · simp [lookup]

section

variable (h : Stage uuid a b s) (hab : a ≠ b)
include h hab

theorem Stage.request (hne : uuid ≠ "") (hs : s.Inv) (huses : Uses uuid a b s) (hc : c = a ∨ c = b)
    (hev : OnlyPair key uuid a b (.request c rf)) (hturn : InTurn a b s (.request c rf))
    (hstep : step key s (.request c rf) = some t) : Stage uuid a b t ∨ Stage uuid b a t := by
  obtain ⟨hconn, rfl⟩ := request_of_pair hne hc hev hstep
  cases h with
  | fresh ha hb hd =>
    have hnone := huses.none hs (by simp [ha]) (by simp [hb])
    obtain rfl | rfl := hc
    · exact .inl (.lookup_fresh hab hb hd hnone)
    · exact .inr (.lookup_fresh hab.symm ha hd.symm hnone)
  | missed ta ha hb hat hle hd =>
    obtain rfl | rfl := hc
    · simp [ha] at hconn
    · exact absurd ⟨rfl, uuid, ha⟩ hturn.2
  | waiting ta since ha hb hat hle hpeer hd =>
    obtain rfl | rfl := hc
    · simp [ha] at hconn
    · refine .inl (.paired (.inl ⟨since, ?_⟩) ?_ ?_ hd)
      · simpa [lookup, hab] using ha
      · simp [lookup, hpeer]
      · simp [lookup]
  | gone ta ha hb hat hle =>
    obtain rfl | rfl := hc
    · simp [ha] at hconn
    · refine .inl (.late ta s.now ?_ ?_ hle)
      · simpa [lookup, hab] using hat
      · simp [lookup]
  | paired ha hb hpeer hd =>
    obtain rfl | rfl := hc
    · simp [hconn] at ha
    · simp [hb] at hconn
  | late ta tb hat hbt hle =>
    have hnone := hs.unasked c hconn
    obtain rfl | rfl := hc
    · simp [hnone] at hat
    · simp [hnone] at hbt

theorem Stage.insert (hs : s.Inv) (huses : Uses uuid a b s)
    (hc : c = a ∨ c = b) (hstep : step key s (.insert c) = some t) : Stage uuid a b t := by
  obtain ⟨uuid', hwaits, rfl⟩ := insert_cases hstep
  obtain rfl : uuid' = uuid := (huses c uuid' (.inl hwaits)).mpr hc
  cases h with
  | missed ta ha hb hat hle hd =>
    obtain rfl | rfl := hc
    · -- nothing is replaced
      have hnone := huses.none hs (by simp [ha]) (by simp [hb])
      refine .waiting ta s.now ?_ ?_ hat hle ?_ ?_
      · simp [enter]
      · simpa [enter, hab.symm] using hb
      · simp [enter]
      · simpa [enter, hnone] using hd
    · simp [hb] at hwaits
  | late ta tb hat hbt hle => exact .late ta tb hat hbt hle
  | fresh ha hb hd | waiting ta since ha hb hat hle hpeer hd
  | gone ta ha hb hat hle => obtain rfl | rfl := hc <;> simp [ha, hb] at hwaits
  | paired ha hb hpeer hd =>
    obtain rfl | rfl := hc
    · simp [hwaits] at ha
    · simp [hb] at hwaits

theorem Stage.expire (huses : Uses uuid a b s)
    (hc : c = a ∨ c = b) (hstep : step key s (.expire c) = some t) : Stage uuid a b t := by
  obtain ⟨uuid', since, hwaits, hslept, rfl⟩ := expire_cases hstep
  obtain rfl : uuid' = uuid := (huses c uuid' (.inr ⟨since, hwaits⟩)).mpr hc
  cases h with
  | waiting ta since' ha hb hat hle hpeer hd =>
    obtain rfl | rfl := hc
    · obtain ⟨-, rfl⟩ : uuid' = uuid' ∧ since' = since := by simpa [ha] using hwaits
      refine .gone ta ?_ ?_ hat ?_
      · simp [leave]
      · simpa [leave, hab.symm] using hb
      · exact Nat.le_trans (Nat.add_le_add_right hle _) hslept
    · simp [hb] at hwaits
  | paired ha hb hpeer hd =>
    obtain rfl | rfl := hc
    · refine .paired (.inr ?_) ?_ ?_ ?_
      · simp [leave]
      · simpa [leave, hab.symm] using hb
      · simp [leave]
      · simpa [leave, hpeer] using hd
    · simp [hb] at hwaits
  | late ta tb hat hbt hle => exact .late ta tb hat hbt hle
  | fresh ha hb hd | missed ta ha hb hat hle hd
  | gone ta ha hb hat hle => obtain rfl | rfl := hc <;> simp [ha, hb] at hwaits

/-- What a step in turn makes of the stage. -/
theorem Stage.step (hne : uuid ≠ "") (hs : s.Inv) (huses : Uses uuid a b s) (hev : OnlyPair key uuid a b ev)
    (hturn : InTurn a b s ev) (hstep : Hbbr.step key s ev = some t) :
    Stage uuid a b t ∨ Stage uuid b a t := by
  by_cases hother : ∀ c, ev.conn = some c → c ≠ a ∧ c ≠ b
  · exact .inl (h.frame (samePair_of_other hs huses hev hother hstep))
  · obtain ⟨c, hc, hpair⟩ : ∃ c, ev.conn = some c ∧ (c = a ∨ c = b) := by
      by_contra hnone
      exact hother fun c hc => not_or.mp fun hpair => hnone ⟨c, hc, hpair⟩
    cases ev with
    | request c' rf =>
      obtain rfl : c' = c := Option.some.inj hc
      exact h.request hab hne hs huses hpair hev hturn hstep
    | close c' =>
      obtain rfl : c' = c := Option.some.inj hc
      exact absurd hpair (not_or.mpr hev)
    | insert c' =>
      obtain rfl : c' = c := Option.some.inj hc
      exact .inl (h.insert hab hs huses hpair hstep)
    | expire c' =>
      obtain rfl : c' = c := Option.some.inj hc
      exact .inl (h.expire hab huses hpair hstep)
    | tick => cases hc

end

/-! ## Runs -/

/-- What holds of two connections that have their uuid for themselves. -/
structure PairInv (uuid : String) (a b : C) (s : Hbbr C) : Prop where
  inv : s.Inv
  uses : Uses uuid a b s

omit [DecidableEq C] in
theorem pairInv_start : PairInv uuid a b start where
  inv := inv_start
  uses := by rintro c uuid' (h | ⟨since, h⟩) <;> cases h

theorem PairInv.step (h : PairInv uuid a b s) (hev : OnlyPair key uuid a b ev)
    (hstep : Hbbr.step key s ev = some t) : PairInv uuid a b t :=
  ⟨h.inv.step hstep, h.uses.step hev hstep⟩

variable {as : List (HbbrEvent C)}

theorem pairInv_run (hrun : Run (Steps (Hbbr.step key)) start as s)
    (honly : ∀ ev ∈ as, OnlyPair key uuid a b ev) : PairInv uuid a b s :=
  (hrun.only honly).invariant (fun _ _ _ (h : PairInv uuid a b _) hstep => h.step hstep.1 hstep.2) pairInv_start

theorem stage_run (hab : a ≠ b) (hne : uuid ≠ "")
    (hrun : Run (Only (InTurn a b) (Steps (Hbbr.step key))) start as s)
    (honly : ∀ ev ∈ as, OnlyPair key uuid a b ev) : Stage uuid a b s ∨ Stage uuid b a s := by
  have hstep : ∀ s ev t, PairInv uuid a b s ∧ (Stage uuid a b s ∨ Stage uuid b a s) →
      Only (fun _ => OnlyPair key uuid a b) (Only (InTurn a b) (Steps (Hbbr.step key))) s ev t →
      PairInv uuid a b t ∧ (Stage uuid a b t ∨ Stage uuid b a t) := by
    rintro s ev t ⟨h, hstage⟩ ⟨hev, hturn, hstep⟩
    refine ⟨h.step hev hstep, ?_⟩
    rcases hstage with hstage | hstage
    · exact hstage.step hab hne h.inv h.uses hev hturn hstep
    · exact (hstage.step hab.symm hne h.inv h.uses.symm hev.symm hturn.symm hstep).symm
  exact ((hrun.only honly).invariant hstep ⟨pairInv_start, .inl (.fresh rfl rfl (by simp [start]))⟩).2

omit [DecidableEq C] in
/-- Once both have looked within the time, a stage in turn is the pairing. -/
theorem Stage.to_paired (h : Stage uuid a b s) (hs : s.Inv) {ta tb : ℕ}
    (hta : s.requestedAt a = some ta) (htb : s.requestedAt b = some tb) (hwithin : tb < ta + 30_000) :
    Paired a b s := by
  have hasked : s.task b ≠ .connected := fun hb => by simp [hs.unasked b hb] at htb
  cases h with
  | fresh ha hb hd | missed ta' ha hb hat hle hd | waiting ta' since ha hb hat hle hpeer hd
  | gone ta' ha hb hat hle => exact absurd hb hasked
  | paired ha hb hpeer hd =>
    refine ⟨.inr ⟨hb, ?_⟩, hd⟩
    rcases ha with ⟨since, ha⟩ | ha <;> simp [ha]
  | late ta' tb' hat hbt hle =>
    obtain rfl : ta' = ta := Option.some.inj (hat.symm.trans hta)
    obtain rfl : tb' = tb := Option.some.inj (hbt.symm.trans htb)
    omega

omit [DecidableEq C] in
theorem Paired.symm (h : Paired a b s) : Paired b a s := ⟨h.1.symm, h.2.symm⟩

/-- **Relay pairing.** Two connections that look for each other under one uuid within 30 seconds are
paired, and none of their streams is dropped, exactly if neither looks while the other is between its
look at the map and the entry of its stream. -/
theorem paired_iff_in_turn (hab : a ≠ b) (hne : uuid ≠ "")
    (hrun : Run (Steps (Hbbr.step key)) start as t)
    (honly : ∀ ev ∈ as, OnlyPair key uuid a b ev) {ta tb : ℕ}
    (hta : t.requestedAt a = some ta) (htb : t.requestedAt b = some tb)
    (hwithin : ta < tb + 30_000 ∧ tb < ta + 30_000) :
    Paired a b t ↔ Run (Only (InTurn a b) (Steps (Hbbr.step key))) start as t := by
  have hinv := (pairInv_run hrun honly).inv
  constructor
  · intro hpaired
    obtain hturn | ⟨before, ev, after, m, m', rfl, hbefore, hturn, hstep, hafter⟩ :=
      hrun.only_or_not (InTurn a b)
    · exact hturn
    · have hm := pairInv_run hbefore fun ev hev => honly ev (List.mem_append_left _ hev)
      have hcrossed : Crossed a b m' :=
        crossed_of_out_of_turn hm.inv hm.uses hne (honly ev (by simp)) hturn hstep
      have hend : Crossed a b t :=
        hafter.invariant (fun _ _ _ (h : Crossed a b _) hstep => h.step hstep) hcrossed
      exact absurd hpaired hend.not_paired
  · intro hturn
    rcases stage_run hab hne hturn honly with hstage | hstage
    · exact hstage.to_paired hinv hta htb hwithin.2
    · exact (hstage.to_paired hinv htb hta hwithin.1).symm

/-! ## Two runs -/

/-- The request that both sides of a relay send. -/
def exampleRequest : RequestRelay := ⟨"123456789", "uuid", [], "", true, "key", .known .defaultConn, ""⟩

/-- The second looks after the first has entered its stream. -/
theorem paired_one_after_the_other :
    ∃ t, Run (Steps (Hbbr.step "key")) start
        [.request false exampleRequest, .insert false, .request true exampleRequest] t ∧
      Paired false true t := by
  have hrun : Run (Steps (Hbbr.step "key")) start
      [.request false exampleRequest, .insert false, .request true exampleRequest] _ :=
    exec_eq_some_iff.mp rfl
  have honly : ∀ ev ∈ [.request false exampleRequest, .insert false, .request true exampleRequest],
      OnlyPair "key" "uuid" false true ev := by
    simp [OnlyPair, exampleRequest]
  refine ⟨_, hrun, (paired_iff_in_turn (by decide) (by decide) hrun honly rfl rfl
    (by decide)).mpr ?_⟩
  refine .cons ⟨?_, rfl⟩ (.cons ⟨trivial, rfl⟩ (.cons ⟨?_, rfl⟩ (.nil _)))
  · constructor <;> rintro ⟨-, uuid, h⟩ <;> cases h
  · constructor <;> rintro ⟨-, uuid, h⟩ <;> cases h

/-- Both look before either enters its stream: the second entry drops the first stream, and both wait
in vain. -/
theorem pair_overwritten :
    ∃ t, Run (Steps (Hbbr.step "key")) start
        [.request false exampleRequest, .request true exampleRequest, .insert false, .insert true] t ∧
      t.requestedAt false = t.requestedAt true ∧ false ∈ t.dropped ∧ ¬ Paired false true t := by
  refine ⟨_, exec_eq_some_iff.mp rfl, rfl, by decide, ?_⟩
  rintro ⟨-, hdropped, -⟩
  exact hdropped (by decide)

end Hbbr

end RustDesk.Server
