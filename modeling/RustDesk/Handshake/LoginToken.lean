import RustDesk.Handshake.SecureConnection
import RustDesk.Handshake.SymbolicPrimitives

/-!
# Who gets to see the login token

References: `src/client.rs` (`_start_inner` up to its punch attempts, `request_relay`, `create_relay`,
`hc_connection_` up to its loop) and `src/common.rs` (`get_next_nonkeyexchange_msg`).

Each call secures its connection with `secure_tcp` and then sends a message with the token, relying
on the `Ok` alone. `Shape` lists the runs such calls can have; from it `token_guarded_iff` reads off
when the token goes out on a keyed stream only.
-/

namespace RustDesk.Handshake

open Dialogue

variable {B : Type} (P : Primitives B)

/-! ## The calls -/

/-- `get_next_nonkeyexchange_msg`, with so many reads left. -/
def nextNonKeyExchangeMsg : ℕ → Dialogue B B String (Option (RendezvousMessage B))
  | 0 => return none
  | reads + 1 => do
    match ← nextFrame with
    | .frame bytes =>
      match P.parseRendezvous bytes with
      | .ok ⟨some (.keyExchange _)⟩ => nextNonKeyExchangeMsg reads
      | .ok msgIn => return some msgIn
      | .error _ => return none
    | _ => return none

def getNextNonKeyExchangeMsg : Dialogue B B String (Option (RendezvousMessage B)) :=
  nextNonKeyExchangeMsg P 2

/-- The error of a `PunchHoleResponse` without an address. -/
def punchHoleError (failure : PunchHoleFailure) (otherFailure : String) : String :=
  if otherFailure ≠ "" then otherFailure
  else
    match failure with
    | .idNotExist => "ID does not exist"
    | .offline => "Remote desktop is offline"
    | .licenseMismatch => "Key mismatch"
    | .licenseOveruse => "Key overuse"
    | .unknown => "other punch hole failure"

/-- The punch attempts of `_start_inner`, with so many left: the request goes out on the same socket
until a `PunchHoleResponse` or a `RelayResponse` comes back. -/
def punchAttempts (msgOut : B) : ℕ → Dialogue B B String (Option (RendezvousMessage B))
  | 0 => return none
  | attempts + 1 => do
    sendFrame msgOut
    match ← getNextNonKeyExchangeMsg P with
    | some ⟨some (.punchHoleResponse socketAddr failure otherFailure)⟩ =>
      if P.len socketAddr = 0 then bail (punchHoleError failure otherFailure)
      else return some ⟨some (.punchHoleResponse socketAddr failure otherFailure)⟩
    | some ⟨some (.relayResponse refuseReason)⟩ =>
      return some ⟨some (.relayResponse refuseReason)⟩
    | _ => punchAttempts msgOut attempts

/-- `_start_inner` up to the answer to its punch attempts. Key and token are those of the request. -/
def startInner (fresh : KeyMaterial B) (useWs : Bool) (request : PunchHoleRequest B) :
    Dialogue B B String (Option (RendezvousMessage B)) := do
  connectStream
  if request.licenceKey ≠ "" ∧ request.token ≠ "" then
    (secureTcpImpl P fresh useWs request.licenceKey).mapError ("Failed to secure tcp: " ++ ·)
  punchAttempts P (P.writeRendezvous ⟨some (.punchHoleRequest request)⟩) 3

/-- The attempts of `request_relay`, each on a socket of its own, with the fresh values each
generates. The result is the uuid of the attempt that succeeded. -/
def relayAttempts (useWs : Bool) (key : String) (request : RequestRelay) :
    List (KeyMaterial B × String) → Dialogue B B String String
  | [] => bail "Timeout"
  | (fresh, uuid) :: attempts => do
    connectStream
    if key ≠ "" ∧ request.token ≠ "" then
      -- mainly for the security of token
      secureTcpImpl P fresh useWs key
    sendFrame (P.writeRendezvous ⟨some (.requestRelay { request with uuid })⟩)
    match ← getNextNonKeyExchangeMsg P with
    | some ⟨some (.relayResponse refuseReason)⟩ =>
      if refuseReason ≠ "" then bail refuseReason else return uuid
    | _ => relayAttempts useWs key request attempts

/-- `create_relay`: its request carries the licence key and no token. -/
def createRelay (peer uuid key : String) (connType : ℕ) : Dialogue B B String Unit := do
  connectStream
  sendFrame (P.writeRendezvous ⟨some (.requestRelay ⟨peer, uuid, "", false, key, connType, ""⟩)⟩)

/-- `request_relay`; the request carries peer, relay server, flag and token of the call. -/
def requestRelay (fresh : ℕ → KeyMaterial B × String) (useWs : Bool) (key : String)
    (request : RequestRelay) (connType : ℕ) : Dialogue B B String Unit := do
  let uuid ← relayAttempts P useWs key request [fresh 1, fresh 2, fresh 3]
  createRelay P request.id uuid key connType

/-- `hc_connection_` up to its loop, which sends heartbeats only. -/
def hcConnection (fresh : KeyMaterial B) (useWs : Bool) (key token : String) :
    Dialogue B B String Unit := do
  connectStream
  secureTcpImpl P fresh useWs key
  sendFrame (P.writeRendezvous ⟨some (.hc token)⟩)

/-- The three callers. -/
inductive TokenCall (B : Type)
  | startInner (fresh : KeyMaterial B) (request : PunchHoleRequest B)
  | requestRelay (fresh : ℕ → KeyMaterial B × String) (key : String) (request : RequestRelay)
      (connType : ℕ)
  | hcConnection (fresh : KeyMaterial B) (key token : String)

namespace TokenCall

def key : TokenCall B → String
  | .startInner _ request => request.licenceKey
  | .requestRelay _ key _ _ => key
  | .hcConnection _ key _ => key

def token : TokenCall B → String
  | .startInner _ request => request.token
  | .requestRelay _ _ request _ => request.token
  | .hcConnection _ _ token => token

/-- What the call generates. -/
def Generates : TokenCall B → KeyMaterial B → Prop
  | .startInner fresh _, f => f = fresh
  | .requestRelay fresh _ _ _, f => ∃ i, f = (fresh i).1
  | .hcConnection fresh _ _, f => f = fresh

/-- The complete runs of the call without WebSocket. -/
def Runs (evs : List (Event B B)) : TokenCall B → Prop
  | .startInner fresh request => ∃ r, Finishes (Handshake.startInner P fresh false request) evs r
  | .requestRelay fresh key request connType =>
    ∃ r, Finishes (Handshake.requestRelay P fresh false key request connType) evs r
  | .hcConnection fresh key token =>
    ∃ r, Finishes (Handshake.hcConnection P fresh false key token) evs r

end TokenCall

/-! ## The property and the condition -/

/-- The token a message carries. -/
def RendezvousMessage.token (m : RendezvousMessage B) : String :=
  match m.union with
  | some (.punchHoleRequest request) => request.token
  | some (.requestRelay request) => request.token
  | some (.hc token) => token
  | _ => ""

def CarriesToken (frame : B) : Prop := ∃ m, frame = P.writeRendezvous m ∧ m.token ≠ ""

/-- The stream is keyed with a key that the call generated and sealed to a public key which a frame
of this connection carried under a valid signature of the rendezvous key. -/
def Secured (Generated : KeyMaterial B → Prop) (rsPk : B) (since : List (Event B B)) : Prop :=
  ∃ fresh frame signed theirPkB rest, Generated fresh ∧
    P.parseRendezvous frame = .ok ⟨some (.keyExchange [signed])⟩ ∧
    P.verify signed rsPk = some theirPkB ∧ P.len theirPkB = keyBytes ∧
    since = .got (.frame frame) ::
      .sent (P.writeRendezvous ⟨some (.keyExchange
        [P.boxPk fresh.boxSk, P.boxSeal fresh.key theirPkB fresh.boxSk])⟩) ::
      .keyed fresh.key :: rest ∧
    installedKey since = some fresh.key

/-- Every frame with a token is sent on a secured connection; `since` is what happened on the current
one so far. -/
def Guarded (Generated : KeyMaterial B → Prop) (rsPk : B) :
    List (Event B B) → List (Event B B) → Prop
  | _, [] => True
  | _, .connected :: evs => Guarded Generated rsPk [] evs
  | since, .sent f :: evs =>
    (CarriesToken P f → Secured P Generated rsPk since) ∧
      Guarded Generated rsPk (since ++ [.sent f]) evs
  | since, ev :: evs => Guarded Generated rsPk (since ++ [ev]) evs

/-- A first answer of the server that `secure_tcp` does not pass over: silence or a `KeyExchange`,
be it a good one or not. -/
def Answers (x : Received B) : Prop :=
  x = .timeout ∨ ∃ frame keys, x = .frame frame ∧
    P.parseRendezvous frame = .ok ⟨some (.keyExchange keys)⟩

/-- On every connection whose first event is a read, that read answers. -/
def OpensWell : List (Event B B) → Prop
  | [] => True
  | .connected :: evs => (∀ x, evs.head? = some (.got x) → Answers P x) ∧ OpensWell evs
  | _ :: evs => OpensWell evs

/-! ## The shape of a run -/

/-- The part of a connection behind `secure_tcp`: the token message, sent once or more, and reads. -/
def Asks (msgOut : B) (evs : List (Event B B)) : Prop :=
  evs.head? = some (.sent msgOut) ∧ ∀ ev ∈ evs, ev = .sent msgOut ∨ ∃ r, ev = .got r

/-- The complete runs of a call whose token messages are in `TokenMsg`. -/
inductive Shape (Generated : KeyMaterial B → Prop) (rsPk : B) (TokenMsg : B → Prop) :
    List (Event B B) → Prop
  | stop : Shape Generated rsPk TokenMsg []
  | refused : Shape Generated rsPk TokenMsg [.refused]
  /-- `secure_tcp` fails. -/
  | failed {x rest} : Answers P x → (rest = [] ∨ ∃ keys, rest = [.sent (P.writeRendezvous
      ⟨some (.keyExchange keys)⟩)]) → Shape Generated rsPk TokenMsg (.connected :: .got x :: rest)
  /-- `secure_tcp` returns without a key. -/
  | unkeyed {x msgOut asks tail} : ¬ Answers P x → TokenMsg msgOut → Asks msgOut asks →
      Shape Generated rsPk TokenMsg tail →
      Shape Generated rsPk TokenMsg (.connected :: .got x :: (asks ++ tail))
  /-- `secure_tcp` returns with a key. -/
  | keyed {since msgOut asks tail} : Secured P Generated rsPk since →
      (∀ ev ∈ since, ev ≠ .connected) → (∀ f, .sent f ∈ since → ¬ CarriesToken P f) →
      TokenMsg msgOut → Asks msgOut asks → Shape Generated rsPk TokenMsg tail →
      Shape Generated rsPk TokenMsg (.connected :: (since ++ (asks ++ tail)))
  /-- The connection to the relay server. -/
  | relay {f} : ¬ CarriesToken P f → Shape Generated rsPk TokenMsg [.connected, .sent f]

/-! ## The parts of a call -/

section Parts

variable {P} {evs : List (Event B B)} {msgOut : B}

/-- A read hands on a message other than a `KeyExchange`, or nothing. Either way it only reads. -/
theorem nextNonKeyExchangeMsg_finishes {reads : ℕ} {r}
    (h : Finishes (nextNonKeyExchangeMsg P reads) evs r) : ∀ ev ∈ evs, ∃ x, ev = .got x := by
  induction reads generalizing evs with
  | zero =>
    obtain ⟨rfl, -⟩ := finishes_done.mp h
    simp
  | succ reads ih =>
    simp only [nextNonKeyExchangeMsg, bind_eq, bind_nextFrame, finishes_recv] at h
    obtain ⟨x, evs', rfl, h⟩ := h
    have htail : ∀ ev ∈ evs', ∃ x, ev = .got x := by
      cases x with
      | failed | closed | timeout =>
        obtain ⟨rfl, -⟩ := finishes_done.mp h
        simp
      | frame bytes =>
        dsimp only at h
        split at h
        · exact ih h
        all_goals
          obtain ⟨rfl, -⟩ := finishes_done.mp h
          simp
    intro ev hev
    rcases List.mem_cons.mp hev with rfl | hev
    · exact ⟨x, rfl⟩
    · exact htail ev hev

/-- The token message, followed by reads and by more of the same. -/
theorem asks_cons {reads : List (Event B B)} (hreads : ∀ ev ∈ reads, ∃ x, ev = .got x)
    (hevs : evs = [] ∨ Asks msgOut evs) : Asks msgOut (.sent msgOut :: (reads ++ evs)) := by
  refine ⟨rfl, fun ev hev => ?_⟩
  rcases List.mem_cons.mp hev with rfl | hev
  · exact Or.inl rfl
  rcases List.mem_append.mp hev with hev | hev
  · exact Or.inr (hreads ev hev)
  · rcases hevs with rfl | hasks
    · cases hev
    · exact hasks.2 ev hev

section

variable {attempts : ℕ} {r} (h : Finishes (punchAttempts P msgOut (attempts + 1)) evs r)
include h

/-- One punch attempt: the request, reads, and the next attempt if there was no usable answer. -/
theorem punchAttempts_succ :
    ∃ reads evs', evs = .sent msgOut :: (reads ++ evs') ∧ (∀ ev ∈ reads, ∃ x, ev = .got x) ∧
      (evs' = [] ∨ Finishes (punchAttempts P msgOut attempts) evs' r) := by
  simp only [punchAttempts, bind_eq, bind_sendFrame, finishes_send] at h
  obtain ⟨evs₁, rfl, h | ⟨rfl, -⟩⟩ := h
  · rcases finishes_bind h with ⟨e, hreads, -⟩ | ⟨msgIn, reads, evs₂, rfl, hreads, hnext⟩
    · exact ⟨evs₁, [], by simp, nextNonKeyExchangeMsg_finishes hreads, Or.inl rfl⟩
    · refine ⟨reads, evs₂, rfl, nextNonKeyExchangeMsg_finishes hreads, ?_⟩
      split at hnext
      · split at hnext
        all_goals exact Or.inl (finishes_done.mp hnext).1
      · exact Or.inl (finishes_done.mp hnext).1
      · exact Or.inr hnext
  · exact ⟨[], [], rfl, by simp, Or.inl rfl⟩

theorem punchAttempts_finishes : Asks msgOut evs := by
  induction attempts generalizing evs with
  | zero =>
    obtain ⟨reads, evs', rfl, hreads, hnext⟩ := punchAttempts_succ h
    exact asks_cons hreads (Or.inl (hnext.elim id fun hdone => (finishes_done.mp hdone).1))
  | succ attempts ih =>
    obtain ⟨reads, evs', rfl, hreads, hnext⟩ := punchAttempts_succ h
    exact asks_cons hreads (hnext.imp_right ih)

end

/-- What `secure_tcp` can do with the rendezvous key known: pass over a first read that does not
answer, fail on one that does, or key the stream. -/
theorem secureTcpImpl_finishes {fresh : KeyMaterial B} {key : String} {rsPk : B}
    (hkey : getRsPk P key = some rsPk) {r : Except String Unit}
    (h : Finishes (secureTcpImpl P fresh false key) evs r) :
    (∃ x, ¬ Answers P x ∧ evs = [.got x] ∧ r = .ok ()) ∨
    (∃ x rest, Answers P x ∧ evs = .got x :: rest ∧ (rest = [] ∨ ∃ keys,
      rest = [.sent (P.writeRendezvous ⟨some (.keyExchange keys)⟩)]) ∧ ∃ e, r = .error e) ∨
    (r = .ok () ∧ ∃ frame signed theirPkB, P.parseRendezvous frame = .ok ⟨some (.keyExchange [signed])⟩ ∧
      P.verify signed rsPk = some theirPkB ∧ P.len theirPkB = keyBytes ∧
      evs = [.got (.frame frame), .sent (P.writeRendezvous ⟨some (.keyExchange
        [P.boxPk fresh.boxSk, P.boxSeal fresh.key theirPkB fresh.boxSk])⟩), .keyed fresh.key]) := by
  simp only [secureTcpImpl, hkey, bind_eq, bind_nextFrame, Bool.false_eq_true, if_false, finishes_recv] at h
  obtain ⟨x, evs', rfl, h⟩ := h
  cases x with
  | timeout =>
    obtain ⟨rfl, rfl⟩ := finishes_done.mp h
    exact Or.inr (Or.inl ⟨_, [], Or.inl rfl, rfl, Or.inl rfl, _, rfl⟩)
  | closed | failed =>
    obtain ⟨rfl, rfl⟩ := finishes_done.mp h
    exact Or.inl ⟨_, by simp [Answers], rfl, rfl⟩
  | frame bytes =>
    dsimp only at h
    split at h
    next keys hparse =>
      have hanswers : Answers P (.frame bytes) := Or.inr ⟨bytes, keys, rfl, hparse⟩
      cases hanswer : answerKeyExchange P fresh rsPk keys with
      | error e =>
        simp only [hanswer, bind_lift_error] at h
        obtain ⟨rfl, rfl⟩ := finishes_done.mp h
        exact Or.inr (Or.inl ⟨_, [], hanswers, rfl, Or.inl rfl, _, rfl⟩)
      | ok out =>
        obtain ⟨keys', k⟩ := out
        obtain ⟨signed, theirPkB, rfl, hverify, hlen, rfl, rfl⟩ := answerKeyExchange_eq_ok hanswer
        simp only [hanswer, bind_lift_ok, bind_sendFrame, installKey, finishes_send,
          finishes_setKey, finishes_done] at h
        obtain ⟨evs'', rfl, ⟨evs₃, rfl, rfl, rfl⟩ | ⟨rfl, he⟩⟩ := h
        · exact Or.inr (Or.inr ⟨rfl, bytes, signed, theirPkB, hparse, hverify, hlen, rfl⟩)
        · exact Or.inr (Or.inl ⟨_, _, hanswers, rfl, Or.inr ⟨_, rfl⟩, he⟩)
    next hother =>
      obtain ⟨rfl, rfl⟩ := finishes_done.mp h
      refine Or.inl ⟨_, ?_, rfl, rfl⟩
      rintro (h | ⟨frame, keys, hframe, hparse⟩)
      · cases h
      · cases hframe
        exact hother keys hparse

theorem writeRendezvous_inj (hP : P.Correct) {m m' : RendezvousMessage B}
    (h : P.writeRendezvous m = P.writeRendezvous m') : m = m' := by
  have hparse := hP.parse_writeRendezvous m
  rw [h, hP.parse_writeRendezvous] at hparse
  exact (Except.ok.inj hparse).symm

/-- A message without a token carries none. -/
theorem not_carriesToken (hP : P.Correct) {m : RendezvousMessage B} (h : m.token = "") :
    ¬ CarriesToken P (P.writeRendezvous m) := by
  rintro ⟨m', hm, htoken⟩
  obtain rfl := writeRendezvous_inj hP hm
  exact htoken h

end Parts

/-! ## Every call has the shape -/

section Calls

variable {P} {Generated : KeyMaterial B → Prop} {rsPk : B} {TokenMsg : B → Prop} {fresh : KeyMaterial B}
  {key : String} {evs : List (Event B B)}

/-- `secure_tcp` returned, and the token message was sent. -/
theorem shape_of_ok (hP : P.Correct) (hkey : getRsPk P key = some rsPk) (hfresh : Generated fresh)
    {asks tail : List (Event B B)} {msgOut : B}
    (h : Finishes (secureTcpImpl P fresh false key) evs (.ok ())) (hmsg : TokenMsg msgOut)
    (hasks : Asks msgOut asks) (htail : Shape P Generated rsPk TokenMsg tail) :
    Shape P Generated rsPk TokenMsg (.connected :: (evs ++ (asks ++ tail))) := by
  rcases secureTcpImpl_finishes hkey h with ⟨x, hx, rfl, -⟩ | ⟨-, -, -, -, -, e, he⟩ |
    ⟨-, frame, signed, theirPkB, hparse, hverify, hlen, rfl⟩
  · change Shape P Generated rsPk TokenMsg (.connected :: .got x :: (asks ++ tail))
    exact .unkeyed hx hmsg hasks htail
  · cases he
  · refine .keyed ⟨fresh, frame, signed, theirPkB, [], hfresh, hparse, hverify, hlen, rfl, rfl⟩
      (by simp) ?_ hmsg hasks htail
    intro f hf
    obtain rfl : f = P.writeRendezvous ⟨some (.keyExchange
        [P.boxPk fresh.boxSk, P.boxSeal fresh.key theirPkB fresh.boxSk])⟩ := by simpa using hf
    exact not_carriesToken hP rfl

/-- `secure_tcp` failed. -/
theorem shape_of_error (hkey : getRsPk P key = some rsPk) {e : String}
    (h : Finishes (secureTcpImpl P fresh false key) evs (.error e)) :
    Shape P Generated rsPk TokenMsg (.connected :: evs) := by
  rcases secureTcpImpl_finishes hkey h with ⟨x, -, -, hr⟩ | ⟨x, rest, hx, rfl, hrest, -⟩ | ⟨hr, -⟩
  · cases hr
  · exact .failed hx hrest
  · cases hr

theorem shape_startInner (hP : P.Correct) {request : PunchHoleRequest B}
    (hkey : getRsPk P request.licenceKey = some rsPk) (hne : request.licenceKey ≠ "")
    (htoken : request.token ≠ "") (hfresh : Generated fresh)
    (hmsg : TokenMsg (P.writeRendezvous ⟨some (.punchHoleRequest request)⟩))
    {r} (h : Finishes (startInner P fresh false request) evs r) :
    Shape P Generated rsPk TokenMsg evs := by
  simp only [startInner, bind_eq, bind_connectStream, if_pos (And.intro hne htoken)] at h
  rcases finishes_connect.mp h with ⟨evs', rfl, hrun⟩ | ⟨rfl, -⟩
  · rcases finishes_bind hrun with ⟨e, hsecure, -⟩ | ⟨_, evs₁, evs₂, rfl, hsecure, hpunch⟩
    · rcases finishes_mapError hsecure with hsecure | ⟨_, _, _, hsecure⟩ <;>
        exact shape_of_error hkey hsecure
    · rcases finishes_mapError hsecure with hsecure | ⟨_, _, he, -⟩
      · have hasks := punchAttempts_finishes hpunch
        have hshape := shape_of_ok hP hkey hfresh hsecure hmsg hasks .stop
        rwa [List.append_nil] at hshape
      · cases he
  · exact .refused

/-- The attempts of `request_relay`, with whatever comes after a successful one. -/
theorem shape_relayAttempts (hP : P.Correct) {request : RequestRelay}
    (hkey : getRsPk P key = some rsPk) (hne : key ≠ "") (htoken : request.token ≠ "")
    (hmsg : ∀ uuid, TokenMsg (P.writeRendezvous ⟨some (.requestRelay { request with uuid })⟩))
    {attempts : List (KeyMaterial B × String)} (hfresh : ∀ a ∈ attempts, Generated a.1)
    {tail : List (Event B B)} {r} (h : Finishes (relayAttempts P false key request attempts) evs r)
    (htail : Shape P Generated rsPk TokenMsg tail) (herr : ∀ e, r = .error e → tail = []) :
    Shape P Generated rsPk TokenMsg (evs ++ tail) := by
  induction attempts generalizing evs with
  | nil =>
    obtain ⟨rfl, -⟩ := finishes_done.mp h
    exact htail
  | cons attempt attempts ih =>
    obtain ⟨fresh, uuid⟩ := attempt
    obtain ⟨hfirst, hrest⟩ := List.forall_mem_cons.mp hfresh
    simp only [relayAttempts, bind_eq, bind_connectStream, if_pos (And.intro hne htoken)] at h
    rcases finishes_connect.mp h with ⟨evs', rfl, hrun⟩ | ⟨rfl, e, rfl⟩
    · rcases finishes_bind hrun with ⟨e, hsecure, rfl⟩ | ⟨_, evs₁, evs₂, rfl, hsecure, hsend⟩
      · rw [herr e rfl, List.append_nil]
        exact shape_of_error hkey hsecure
      · simp only [bind_sendFrame, finishes_send] at hsend
        obtain ⟨evs₃, rfl, hask⟩ := hsend
        -- the token message, its reads, and what the next attempts and the tail add
        obtain ⟨reads, evs₄, rfl, hreads, hshape⟩ : ∃ reads evs₄, evs₃ = reads ++ evs₄ ∧
            (∀ ev ∈ reads, ∃ x, ev = .got x) ∧
            Shape P Generated rsPk TokenMsg (evs₄ ++ tail) := by
          rcases hask with hask | ⟨rfl, -⟩
          · rcases finishes_bind hask with ⟨e, hreads, -⟩ | ⟨m, reads, evs₄, rfl, hreads, hnext⟩
            · exact ⟨evs₃, [], by simp, nextNonKeyExchangeMsg_finishes hreads, htail⟩
            · refine ⟨reads, evs₄, rfl, nextNonKeyExchangeMsg_finishes hreads, ?_⟩
              split at hnext
              · split at hnext
                all_goals
                  obtain ⟨rfl, -⟩ := finishes_done.mp hnext
                  exact htail
              · exact ih hrest hnext
          · exact ⟨[], [], rfl, by simp, htail⟩
        have hasks : Asks (P.writeRendezvous ⟨some (.requestRelay { request with uuid })⟩)
            (.sent _ :: (reads ++ [])) := asks_cons hreads (Or.inl rfl)
        have hconnection := shape_of_ok hP hkey hfirst hsecure (hmsg uuid) hasks hshape
        simpa using hconnection
    · rw [herr e rfl]
      exact .refused

theorem shape_requestRelay (hP : P.Correct) {fresh : ℕ → KeyMaterial B × String}
    {request : RequestRelay} {connType : ℕ} (hkey : getRsPk P key = some rsPk) (hne : key ≠ "")
    (htoken : request.token ≠ "")
    (hmsg : ∀ uuid, TokenMsg (P.writeRendezvous ⟨some (.requestRelay { request with uuid })⟩))
    (hfresh : ∀ i, Generated (fresh i).1) {r}
    (h : Finishes (requestRelay P fresh false key request connType) evs r) :
    Shape P Generated rsPk TokenMsg evs := by
  have hall : ∀ a ∈ [fresh 1, fresh 2, fresh 3], Generated a.1 := by
    intro a ha
    simp only [List.mem_cons, List.not_mem_nil, or_false] at ha
    rcases ha with rfl | rfl | rfl <;> exact hfresh _
  rcases finishes_bind h with ⟨e, hattempts, -⟩ | ⟨uuid, evs₁, evs₂, rfl, hattempts, hrelay⟩
  · have hshape := shape_relayAttempts hP hkey hne htoken hmsg hall hattempts .stop fun _ _ => rfl
    rwa [List.append_nil] at hshape
  · refine shape_relayAttempts hP hkey hne htoken hmsg hall hattempts ?_ fun e he => by cases he
    simp only [createRelay, bind_eq, bind_connectStream, sendFrame, finishes_connect,
      finishes_send, finishes_done] at hrelay
    rcases hrelay with ⟨evs', rfl, evs'', rfl, ⟨rfl, -⟩ | ⟨rfl, -⟩⟩ | ⟨rfl, -⟩
    · exact .relay (not_carriesToken hP rfl)
    · exact .relay (not_carriesToken hP rfl)
    · exact .refused

theorem shape_hcConnection (hP : P.Correct) {token : String} (hkey : getRsPk P key = some rsPk)
    (hfresh : Generated fresh) (hmsg : TokenMsg (P.writeRendezvous ⟨some (.hc token)⟩))
    {r} (h : Finishes (hcConnection P fresh false key token) evs r) :
    Shape P Generated rsPk TokenMsg evs := by
  simp only [hcConnection, bind_eq, bind_connectStream] at h
  rcases finishes_connect.mp h with ⟨evs', rfl, hrun⟩ | ⟨rfl, -⟩
  · rcases finishes_bind hrun with ⟨e, hsecure, -⟩ | ⟨_, evs₁, evs₂, rfl, hsecure, hsend⟩
    · exact shape_of_error hkey hsecure
    · simp only [sendFrame, finishes_send, finishes_done] at hsend
      obtain ⟨evs₃, rfl, hdone⟩ := hsend
      obtain rfl : evs₃ = [] := hdone.elim And.left And.left
      have hasks : Asks (P.writeRendezvous ⟨some (.hc token)⟩)
          [(.sent (P.writeRendezvous ⟨some (.hc token)⟩) : Event B B)] :=
        asks_cons (List.forall_mem_nil _) (Or.inl rfl)
      exact shape_of_ok hP hkey hfresh hsecure hmsg hasks .stop
  · exact .refused

end Calls

/-! ## What the shape says -/

section Guard

variable {P} {Generated : KeyMaterial B → Prop} {rsPk : B} {TokenMsg : B → Prop} {evs : List (Event B B)}

/-- A secured connection stays secured as long as no other key is installed. -/
theorem secured_append {since : List (Event B B)} (h : Secured P Generated rsPk since)
    (hevs : ∀ ev ∈ evs, ∀ k, ev ≠ .keyed k) : Secured P Generated rsPk (since ++ evs) := by
  obtain ⟨fresh, frame, signed, theirPkB, rest, hfresh, hparse, hverify, hlen, rfl, hkey⟩ := h
  refine ⟨fresh, frame, signed, theirPkB, rest ++ evs, hfresh, hparse, hverify, hlen, rfl, ?_⟩
  rw [installedKey_append hevs, hkey]

theorem asks_not_keyed {msgOut : B} {asks : List (Event B B)} (h : Asks msgOut asks) :
    ∀ ev ∈ asks, ∀ k, ev ≠ .keyed k := by
  intro ev hev k
  rcases h.2 ev hev with rfl | ⟨r, rfl⟩ <;> simp

theorem asks_not_connected {msgOut : B} {asks : List (Event B B)} (h : Asks msgOut asks) :
    ∀ ev ∈ asks, ev ≠ .connected := by
  intro ev hev
  rcases h.2 ev hev with rfl | ⟨r, rfl⟩ <;> simp

/-- Events of the current connection only concern the frames sent among them. -/
theorem guarded_append {since tail : List (Event B B)} (hevs : ∀ ev ∈ evs, ev ≠ .connected)
    (hsent : ∀ pre f post, evs = pre ++ .sent f :: post → CarriesToken P f →
      Secured P Generated rsPk (since ++ pre)) :
    Guarded P Generated rsPk since (evs ++ tail) ↔ Guarded P Generated rsPk (since ++ evs) tail := by
  induction evs generalizing since with
  | nil => simp
  | cons ev evs ih =>
    obtain ⟨hev, hevs⟩ := List.forall_mem_cons.mp hevs
    have hlater : ∀ pre f post, evs = pre ++ .sent f :: post → CarriesToken P f →
        Secured P Generated rsPk ((since ++ [ev]) ++ pre) := by
      intro pre f post hpre hf
      rw [List.append_assoc]
      exact hsent (ev :: pre) f post (by rw [hpre]; rfl) hf
    have htail := ih hevs hlater
    rw [List.append_assoc, List.singleton_append] at htail
    cases ev with
    | connected => exact absurd rfl hev
    | sent f =>
      have hfirst : CarriesToken P f → Secured P Generated rsPk since := fun hf => by
        simpa using hsent [] f evs rfl hf
      simp only [List.cons_append, Guarded, htail]
      exact and_iff_right hfirst
    | _ => exact htail

theorem opensWell_append {tail : List (Event B B)} (hevs : ∀ ev ∈ evs, ev ≠ .connected) :
    OpensWell P (evs ++ tail) ↔ OpensWell P tail := by
  induction evs with
  | nil => rfl
  | cons ev evs ih =>
    obtain ⟨hev, htail⟩ := List.forall_mem_cons.mp hevs
    cases ev with
    | connected => exact absurd rfl hev
    | _ => exact ih htail

/-- A run of the shape guards its tokens exactly when its connections open well. -/
theorem Shape.guarded_iff (hP : P.Correct) (htoken : ∀ f, TokenMsg f → CarriesToken P f)
    (h : Shape P Generated rsPk TokenMsg evs)
    (since : List (Event B B)) : Guarded P Generated rsPk since evs ↔ OpensWell P evs := by
  induction h generalizing since with
  | stop | refused => exact Iff.rfl
  | @failed x rest hx hrest =>
    refine iff_of_true ?_ ⟨fun y hy => ?_, ?_⟩
    · rcases hrest with rfl | ⟨keys, rfl⟩
      · exact trivial
      · exact ⟨fun hf => absurd hf (not_carriesToken hP rfl), trivial⟩
    · obtain rfl : x = y := by simpa using hy
      exact hx
    · rcases hrest with rfl | ⟨keys, rfl⟩ <;> exact trivial
  | @unkeyed x msgOut asks tail hx hmsg hasks _ ih =>
    refine iff_of_false ?_ fun hopens => hx (hopens.1 x rfl)
    -- the token goes out at once, behind a single read
    obtain ⟨hhead, -⟩ := hasks
    rcases asks with _ | ⟨ev, asks⟩
    · cases hhead
    · obtain rfl : ev = .sent msgOut := by simpa using hhead
      intro hguarded
      obtain ⟨_, _, _, _, _, _, _, _, _, hsince, -⟩ := hguarded.1 (htoken _ hmsg)
      simp at hsince
  | @keyed since' msgOut asks tail hsecured hplain hquiet hmsg hasks _ ih =>
    have hguard : Guarded P Generated rsPk since (.connected :: (since' ++ (asks ++ tail))) ↔
        Guarded P Generated rsPk (since' ++ asks) tail := by
      change Guarded P Generated rsPk [] (since' ++ (asks ++ tail)) ↔ _
      rw [guarded_append hplain, List.nil_append, guarded_append (asks_not_connected hasks)]
      · intro pre f post hpre _
        refine secured_append hsecured fun ev hev k => ?_
        exact asks_not_keyed hasks ev (by simp [hpre, hev]) k
      · intro pre f post hpre hf
        exact absurd hf (hquiet f (by simp [hpre]))
    have hopens : OpensWell P (.connected :: (since' ++ (asks ++ tail))) ↔ OpensWell P tail := by
      rw [OpensWell, opensWell_append hplain, opensWell_append (asks_not_connected hasks)]
      refine and_iff_right fun y hy => ?_
      obtain ⟨_, frame, _, _, _, _, hparse, _, _, rfl, -⟩ := hsecured
      obtain rfl : .frame frame = y := by simpa using hy
      exact Or.inr ⟨frame, _, rfl, hparse⟩
    rw [hguard, hopens, ih]
  | @relay f hf => exact iff_of_true ⟨fun h => absurd h hf, trivial⟩ ⟨by simp, trivial⟩

end Guard

/-- **When the login token stays under cover.** With the licence key that of the rendezvous server
and a token to send, a call sends the token only on secured connections exactly when the first read
on each of its connections is silence or a `KeyExchange`. -/
theorem token_guarded_iff (hP : P.Correct) (call : TokenCall B) {rsPk : B}
    (hkey : getRsPk P call.key = some rsPk) (hne : call.key ≠ "") (htoken : call.token ≠ "")
    {evs : List (Event B B)} (hrun : call.Runs P evs) :
    Guarded P call.Generates rsPk [] evs ↔ OpensWell P evs := by
  suffices hshape : Shape P call.Generates rsPk (CarriesToken P) evs from
    hshape.guarded_iff hP (fun _ hf => hf) []
  cases call with
  | startInner fresh request =>
    obtain ⟨r, h⟩ := hrun
    refine shape_startInner hP hkey hne htoken ?_ ?_ h
    · exact rfl
    · exact ⟨_, rfl, htoken⟩
  | requestRelay fresh key request connType =>
    obtain ⟨r, h⟩ := hrun
    refine shape_requestRelay hP hkey hne htoken (fun uuid => ?_) (fun i => ⟨i, rfl⟩) h
    exact ⟨_, rfl, htoken⟩
  | hcConnection fresh key token =>
    obtain ⟨r, h⟩ := hrun
    refine shape_hcConnection hP hkey ?_ ?_ h
    · exact rfl
    · exact ⟨_, rfl, htoken⟩

/-! ## Two servers -/

/-- Secret 0 is the rendezvous key. -/
def tokenPrimitives : Primitives (Term ℕ) :=
  symbolic (fun _ => 32) fun _ => some (.signPk (.secret 0))

/-- A health check with a token. -/
def healthCheck : TokenCall (Term ℕ) := .hcConnection ⟨.secret 1, .secret 2⟩ "key" "token"

/-- The client reads an empty frame and sends its token. -/
def emptyFirstFrame : List (Event (Term ℕ) (Term ℕ)) :=
  [.connected, .got (.frame (.raw [])), .sent (writeRendezvousTerm ⟨some (.hc "token")⟩)]

theorem emptyFirstFrame_runs : healthCheck.Runs tokenPrimitives emptyFirstFrame :=
  ⟨.ok (), finishes_connect.mpr (Or.inl ⟨_, rfl, finishes_recv.mpr ⟨_, _, rfl,
    finishes_send.mpr ⟨_, rfl, Or.inl (.nil _)⟩⟩⟩)⟩

/-- An empty first frame makes the client send its token in clear. -/
theorem token_in_clear : ∃ evs, healthCheck.Runs tokenPrimitives evs ∧
    ¬ Guarded tokenPrimitives healthCheck.Generates (.signPk (.secret 0)) [] evs := by
  refine ⟨emptyFirstFrame, emptyFirstFrame_runs, fun hguarded => ?_⟩
  have hsecured := hguarded.1 ⟨⟨some (.hc "token")⟩, rfl, by decide⟩
  obtain ⟨_, _, _, _, _, _, _, _, _, hsince, -⟩ := hsecured
  cases hsince

/-- The client answers a signed key and sends its token under the new key. -/
def honestServer : List (Event (Term ℕ) (Term ℕ)) :=
  [.connected,
    .got (.frame (writeRendezvousTerm
      ⟨some (.keyExchange [.signed (.boxPk (.secret 3)) (.secret 0)])⟩)),
    .sent (writeRendezvousTerm ⟨some (.keyExchange
      [.boxPk (.secret 1), .boxed (.secret 2) (.boxPk (.secret 3)) (.secret 1)])⟩),
    .keyed (.secret 2),
    .sent (writeRendezvousTerm ⟨some (.hc "token")⟩)]

theorem honestServer_runs : healthCheck.Runs tokenPrimitives honestServer :=
  ⟨.ok (), finishes_connect.mpr (Or.inl ⟨_, rfl, finishes_recv.mpr ⟨_, _, rfl,
    finishes_send.mpr ⟨_, rfl, Or.inl (finishes_setKey.mpr ⟨_, rfl,
      finishes_send.mpr ⟨_, rfl, Or.inl (.nil _)⟩⟩)⟩⟩⟩)⟩

/-- A server that opens with a signed key gets the token under a key. -/
theorem token_guarded_honest_server :
    Guarded tokenPrimitives healthCheck.Generates (.signPk (.secret 0)) [] honestServer := by
  refine (token_guarded_iff tokenPrimitives (symbolic_correct _ _) healthCheck rfl (by decide)
    (by decide) honestServer_runs).mpr ⟨fun x hx => ?_, trivial⟩
  cases hx
  exact Or.inr ⟨_, _, rfl, rfl⟩

end RustDesk.Handshake
