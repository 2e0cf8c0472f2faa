import RustDesk.Net.SecuredChannel
import RustDesk.Server.RelayWaits

/-!
# The bytes of relayed connections

References: `rustdesk-server/src/relay_server.rs` (`make_pair`, `make_pair_`, `relay`) and
`rustdesk-server/libs/hbb_common/src/tcp.rs` (`set_raw`, `send_bytes`, `next`).

Over `Hbbr`, the streams of the connections and the bytes on them. A connection frames its first
message; a pair is switched to raw bytes, with whatever has been read by then still in the buffers, and
is copied chunk by chunk. All connections are TCP connections: two of those are what is relayed raw.

A relay may end after any chunk and in the middle of a write: an end of a stream, an error, the block
list and the 30 seconds without a chunk all come to that. The limiters only delay.
-/

namespace RustDesk.Server

open Net

/-- hbbr and the streams of its connections. `wire` is what a client sent and hbbr has not read,
`written` what hbbr wrote to a client, and `sent` records all that a client sent. -/
structure RelayStreams (C K : Type*) where
  hbbr : Hbbr C
  stream : C → FramedStream K
  wire : C → Bytes
  sent : C → Bytes
  written : C → Bytes
  /-- Whether the `relay` of the task has returned. -/
  ended : C → Bool

inductive RelayEvent (C : Type*)
  /-- The client sends. -/
  | send (c : C) (bytes : Bytes)
  /-- Up to `n` bytes are read into the buffer of the stream. -/
  | arrive (c : C) (n : ℕ)
  /-- The task polls for its first message. -/
  | first (c : C)
  /-- The first message does not come. -/
  | timeout (c : C)
  | insert (c : C)
  | expire (c : C)
  | tick
  /-- `relay` polls one of its two streams, and writes to the other. -/
  | forward (c : C) (fromPeer : Bool)
  /-- The same, and the write fails after `n` bytes. -/
  | fail (c : C) (fromPeer : Bool) (n : ℕ)
  | stop (c : C)

namespace RelayStreams

variable {C K : Type*}

def start : RelayStreams C K where
  hbbr := .start
  stream _ := .new
  wire _ := []
  sent _ := []
  written _ := []
  ended _ := false

/-- What the client sent and hbbr has not written on or taken as a message. -/
def unread (s : RelayStreams C K) (c : C) : Bytes := (s.stream c).readBuf ++ s.wire c

variable [DecidableEq C]

def setStream (s : RelayStreams C K) (c : C) (r : FramedStream K) : RelayStreams C K :=
  { s with stream := Function.update s.stream c r }

/-- `set_raw` on both streams, if the task got paired. -/
def setRaw (s : RelayStreams C K) (c : C) : RelayStreams C K :=
  match s.hbbr.task c with
  | .relaying peer => (s.setStream peer (s.stream peer).setRaw).setStream c (s.stream c).setRaw
  | _ => s

def stop (s : RelayStreams C K) (c : C) : RelayStreams C K :=
  { s with ended := Function.update s.ended c true }

def write (s : RelayStreams C K) (c : C) (bytes : Bytes) : RelayStreams C K :=
  { s with written := Function.update s.written c (s.written c ++ bytes) }

variable (box : SecretBox K) (parse : Bytes → Option RequestRelay) (key : String)

/-- A section of `make_pair_` that reads and writes nothing. -/
def pairing (s : RelayStreams C K) (ev : HbbrEvent C) : Option (RelayStreams C K) :=
  (s.hbbr.step key ev).map fun hbbr => { s with hbbr }

/-- `make_pair_`, up to the pairing. -/
def firstMessage (s : RelayStreams C K) (c : C) : Option (RelayStreams C K) :=
  match s.hbbr.task c with
  | .connected =>
    match (s.stream c).pollNext box with
    | (none, r) => some (s.setStream c r)
    | (some (.ok bytes), r) =>
      match parse bytes with
      | some rf => ((s.setStream c r).pairing key (.request c rf)).map (·.setRaw c)
      | none => (s.setStream c r).pairing key (.close c)
    | (some (.error _), r) => (s.setStream c r).pairing key (.close c)
  | _ => none

/-- One branch of the `select!` of `relay`: from `src` to `dst`. `cut` is where the write fails. -/
def copy (s : RelayStreams C K) (c src dst : C) (cut : Option ℕ) : RelayStreams C K :=
  match (s.stream src).pollNext box with
  | (none, r) => s.setStream src r
  | (some (.ok bytes), r) =>
    let s := s.setStream src r
    if bytes.isEmpty then s
    else
      match (s.stream dst).sendBytes bytes, cut with
      | .ok out, none => s.write dst out
      | .ok out, some n => (s.write dst (out.take n)).stop c
      | .error _, _ => s.stop c
  | (some (.error _), r) => (s.setStream src r).stop c

/-- A turn of the loop of `relay`, in the task of `c`. -/
def turn (s : RelayStreams C K) (c : C) (fromPeer : Bool) (cut : Option ℕ) :
    Option (RelayStreams C K) :=
  match s.hbbr.task c with
  | .relaying peer =>
    if s.ended c then none
    else if fromPeer then some (s.copy box c peer c cut)
    else some (s.copy box c c peer cut)
  | _ => none

def step (s : RelayStreams C K) : RelayEvent C → Option (RelayStreams C K)
  | .send c bytes =>
    some { s with
      wire := Function.update s.wire c (s.wire c ++ bytes)
      sent := Function.update s.sent c (s.sent c ++ bytes) }
  | .arrive c n =>
    let r := s.stream c
    some { s.setStream c { r with readBuf := r.readBuf ++ (s.wire c).take n } with
      wire := Function.update s.wire c ((s.wire c).drop n) }
  | .first c => s.firstMessage box parse key c
  | .timeout c => s.pairing key (.close c)
  | .insert c => s.pairing key (.insert c)
  | .expire c => s.pairing key (.expire c)
  | .tick => s.pairing key .tick
  | .forward c fromPeer => s.turn box c fromPeer none
  | .fail c fromPeer n => s.turn box c fromPeer (some n)
  | .stop c =>
    match s.hbbr.task c with
    | .relaying _ => some (s.stop c)
    | _ => none

end RelayStreams

/-! ## Pairs of tasks -/

namespace Hbbr

variable {C : Type*} {s t : Hbbr C} {c dst src : C}

/-- The task of `c` relays from `src` to `dst`. -/
def Leg (s : Hbbr C) (c src dst : C) : Prop :=
  s.task c = .relaying src ∧ dst = c ∨ s.task c = .relaying dst ∧ src = c

theorem Leg.swap (h : s.Leg c src dst) : s.Leg c dst src := Or.symm h

/-- The first message was taken, and no peer is there yet. -/
def Asked (s : Hbbr C) (c : C) : Prop :=
  (∃ uuid, s.task c = .missed uuid) ∨ ∃ uuid, s.peers uuid = some c

/-- The map is about streams that wait, and a stream is taken once. -/
structure TakenOnce (s : Hbbr C) : Prop where
  waits : s.WaitInv
  once : ∀ c c' d, s.task c = .relaying d → s.task c' = .relaying d → c = c'

theorem Leg.not_connected (h : s.Leg c src dst) (hs : s.WaitInv) : s.task src ≠ .connected := by
  intro hsrc
  rcases h with ⟨hc, -⟩ | ⟨hc, rfl⟩
  · exact hs.not_taken (by simp [hsrc]) (by simp [hsrc]) c hc
  · simp [hsrc] at hc

theorem Leg.not_asked (h : s.Leg c src dst) (hs : s.WaitInv) : ¬ s.Asked src := by
  rintro (⟨uuid, hsrc⟩ | ⟨uuid, hpeer⟩)
  · rcases h with ⟨hc, -⟩ | ⟨hc, rfl⟩
    · exact hs.not_taken (by simp [hsrc]) (by simp [hsrc]) c hc
    · simp [hsrc] at hc
  · rcases h with ⟨hc, -⟩ | ⟨hc, rfl⟩
    · exact hs.untaken uuid src hpeer c hc
    · obtain ⟨since, hsleep⟩ := hs.inv.entries uuid src hpeer
      simp [hsleep] at hc

/-- A stream is relayed to one place only. -/
theorem Leg.unique {c' dst' : C} (h : s.Leg c src dst) (h' : s.Leg c' src dst')
    (hs : s.TakenOnce) : c' = c ∧ dst' = dst := by
  -- a task that relays is not the peer of another
  have hawake : ∀ {a b d : C}, s.task a = .relaying b → s.task b = .relaying d → False := by
    intro a b d ha hb
    rcases hs.waits.taken a b ha with ⟨uuid, since, hsleep⟩ | hclosed
    · simp [hb] at hsleep
    · simp [hb] at hclosed
  rcases h with ⟨hc, rfl⟩ | ⟨hc, rfl⟩ <;> rcases h' with ⟨hc', rfl⟩ | ⟨hc', rfl⟩
  · have hsame := hs.once _ _ _ hc hc'
    exact ⟨hsame.symm, hsame.symm⟩
  · exact (hawake hc hc').elim
  · exact (hawake hc' hc).elim
  · rw [hc] at hc'
    exact ⟨rfl, (PairTask.relaying.inj hc').symm⟩

variable [DecidableEq C] {key : String} {ev : HbbrEvent C}

section

variable (hstep : step key s ev = some t)
include hstep

theorem connected_before {x : C} (hx : t.task x = .connected) :
    s.task x = .connected ∧ ∀ rf, ev ≠ .request x rf := by
  rcases task_moves hstep with ⟨rfl, htask⟩ | ⟨c, task, hmove⟩
  · rw [htask] at hx
    exact ⟨hx, fun _ hev => by cases hev⟩
  · have hne : x ≠ c := by
      rintro rfl
      exact hmove.left (hmove.self.symm.trans hx)
    rw [hmove.other hne] at hx
    refine ⟨hx, ?_⟩
    rintro rf rfl
    exact hne (Option.some.inj hmove.conn)

theorem asked_before {x : C} (hx : t.Asked x) : s.Asked x ∨ ∃ rf, ev = .request x rf := by
  rcases hx with ⟨uuid, hx⟩ | ⟨uuid, hx⟩
  · rcases task_moves hstep with ⟨-, htask⟩ | ⟨c, task, hmove⟩
    · exact .inl (.inl ⟨uuid, htask ▸ hx⟩)
    · by_cases hc : x = c
      · subst hc
        exact .inr (hmove.missed uuid (hmove.self.symm.trans hx))
      · rw [hmove.other hc] at hx
        exact .inl (.inl ⟨uuid, hx⟩)
  · cases ev with
    | request c rf =>
      obtain ⟨-, ⟨-, rfl⟩ | ⟨-, -, rfl⟩⟩ := request_cases hstep
      · exact .inl (.inr ⟨uuid, hx⟩)
      · have huuid : uuid ≠ rf.uuid := by
          rintro rfl
          simp [lookup] at hx
        exact .inl (.inr ⟨uuid, by simpa [lookup, huuid] using hx⟩)
    | close c =>
      obtain ⟨-, rfl⟩ := close_cases hstep
      exact .inl (.inr ⟨uuid, hx⟩)
    | insert c =>
      obtain ⟨uuid', hc, rfl⟩ := insert_cases hstep
      by_cases huuid : uuid = uuid'
      · subst huuid
        obtain rfl : c = x := by simpa [enter] using hx
        exact .inl (.inl ⟨uuid, hc⟩)
      · exact .inl (.inr ⟨uuid, by simpa [enter, huuid] using hx⟩)
    | expire c =>
      obtain ⟨uuid', since, -, -, rfl⟩ := expire_cases hstep
      have huuid : uuid ≠ uuid' := by
        rintro rfl
        simp [leave] at hx
      exact .inl (.inr ⟨uuid, by simpa [leave, huuid] using hx⟩)
    | tick =>
      cases hstep
      exact .inl (.inr ⟨uuid, hx⟩)

/-- A task begins to relay when its request finds a stream in the map. -/
theorem relaying_before {c d : C} (hc : t.task c = .relaying d) :
    s.task c = .relaying d ∨ ∃ rf, ev = .request c rf ∧ s.peers rf.uuid = some d := by
  rcases task_moves hstep with ⟨-, htask⟩ | ⟨c', task, hmove⟩
  · exact .inl (htask ▸ hc)
  · by_cases hsame : c = c'
    · subst hsame
      exact .inr (hmove.relaying d (hmove.self.symm.trans hc))
    · exact .inl (hmove.other hsame ▸ hc)

/-- A leg is there before, or belongs to the pair that the step makes. -/
theorem leg_before {c src dst : C} (hleg : t.Leg c src dst) :
    s.Leg c src dst ∨ ∃ rf d, ev = .request c rf ∧ s.peers rf.uuid = some d ∧
      (src = d ∧ dst = c ∨ src = c ∧ dst = d) := by
  rcases hleg with ⟨hc, rfl⟩ | ⟨hc, rfl⟩
  · rcases relaying_before hstep hc with hc | ⟨rf, hev, hpeer⟩
    · exact .inl (.inl ⟨hc, rfl⟩)
    · exact .inr ⟨rf, src, hev, hpeer, .inl ⟨rfl, rfl⟩⟩
  · rcases relaying_before hstep hc with hc | ⟨rf, hev, hpeer⟩
    · exact .inl (.inr ⟨hc, rfl⟩)
    · exact .inr ⟨rf, dst, hev, hpeer, .inr ⟨rfl, rfl⟩⟩

end

theorem TakenOnce.step (h : s.TakenOnce) (hstep : Hbbr.step key s ev = some t) : t.TakenOnce where
  waits := h.waits.step hstep
  once := by
    intro c c' d hc hc'
    rcases relaying_before hstep hc with hc | ⟨rf, hev, hpeer⟩ <;>
      rcases relaying_before hstep hc' with hc' | ⟨rf', hev', hpeer'⟩
    · exact h.once c c' d hc hc'
    · exact absurd hc (h.waits.untaken _ d hpeer' c)
    · exact absurd hc' (h.waits.untaken _ d hpeer c')
    · cases hev.symm.trans hev'
      rfl

end Hbbr

end RustDesk.Server
