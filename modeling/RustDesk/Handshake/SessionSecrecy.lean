import RustDesk.Handshake.SecureConnection
import RustDesk.Handshake.SymbolicPrimitives
import Mathlib.Logic.Function.Basic

/-!
# Who knows a session key

Any number of client and host sessions run their handshakes over a network that an attacker owns:
every frame a session receives is one the attacker can compute from all it has seen. The rendezvous
server signs whatever is registered, but for a host's id only that host's key.

Three links hold the guarantee: the rendezvous signature ties the peer's id to the host's signing
key, the host's signature ties its id to a box key of one of its sessions, and the box hides the
session key from everyone but that session. `discipline` states them for all messages at once, and
the handshakes keep it whatever they receive (`secureConnection_keeps`, `createTcpConnection_keeps`).
-/

namespace RustDesk.Handshake

open Dialogue

/-- The secrets: signing keys of the rendezvous server and of the hosts, and what each session and
each rendezvous connection generates; the rest are the attacker's. -/
inductive Name (H : Type)
  | rendezvous
  | hostSign (h : H)
  | hostBox (h : H) (j : ℕ)
  | clientBox (i : ℕ)
  | clientKey (i : ℕ)
  | hbbsBox (n : ℕ)
  | attacker (n : ℕ)
deriving DecidableEq

/-- `sign` secret keys have 64 bytes, all others 32. -/
def Name.size {H : Type} : Name H → ℕ
  | .rendezvous | .hostSign _ => 64
  | _ => 32

/-- The honest parties: the id of each host, and the peer and licence key each client session is
started with. Where the key decodes, it is the rendezvous server's. -/
structure Parties (H : Type) where
  hostId : H → String
  peerId : ℕ → String
  key : ℕ → String
  decode64 : String → Option (Term (Name H))
  key_rendezvous : ∀ i t, decode64 (if key i = "" then rsPubKey else key i) = some t →
    t = .signPk (.secret .rendezvous)

namespace Parties

variable {H : Type} [DecidableEq H] (W : Parties H) {signPk : Term (Name H)} {host : H} {i : ℕ}

abbrev prims : Primitives (Term (Name H)) := symbolic Name.size W.decode64

/-- The peer of client session `i` is an honest host. -/
def Protected (i : ℕ) : Prop := ∃ h, W.hostId h = W.peerId i

/-- What the rendezvous server signs: box keys of its own, and identities that give a host's id only
with that host's key. -/
def RendezvousSigns (m : Term (Name H)) : Prop :=
  (∃ n, m = .boxPk (.secret (.hbbsBox n))) ∨
  ∃ id pk, m = writeIdPkTerm ⟨id, pk⟩ ∧ ∀ h, id = W.hostId h → pk = .signPk (.secret (.hostSign h))

/-- What host `h` signs: its id with a box key of one of its sessions. -/
def HostSigns (h : H) (m : Term (Name H)) : Prop :=
  ∃ j, m = writeIdPkTerm ⟨W.hostId h, .boxPk (.secret (.hostBox h j))⟩

/-- The discipline of the handshakes. The only boxes with something to hide carry the key of a
protected client session to a session of its peer. -/
def discipline : Discipline (Name H) where
  Public
    | .attacker _ => True
    | .clientKey i => ¬ W.Protected i
    | _ => False
  SignOk sk m :=
    (sk = .secret .rendezvous → W.RendezvousSigns m) ∧
    ∀ h, sk = .secret (.hostSign h) → W.HostSigns h m
  BoxOk m pk sk := ∃ i h j, W.hostId h = W.peerId i ∧ m = .secret (.clientKey i) ∧
    sk = .secret (.clientBox i) ∧ pk = .boxPk (.secret (.hostBox h j))

/-- A message that may be seen on the network. -/
abbrev Safe (t : Term (Name H)) : Prop := W.discipline.Safe t

omit [DecidableEq H] in
theorem boxesHide : W.discipline.BoxesHide := by
  rintro m pk sk ⟨i, h, j, -, rfl, rfl, rfl⟩
  exact ⟨id, _, rfl, id⟩

variable {W}

/-- A verified identity is the payload of a signature. -/
theorem decodeIdPk_eq_signed {si pk : Term (Name H)} {id : String}
    (h : decodeIdPk W.prims si signPk = .ok (id, pk)) :
    ∃ sk, si = .signed (writeIdPkTerm ⟨id, pk⟩) sk ∧ signPk = .signPk sk := by
  obtain ⟨m, hverify, hparse, -⟩ := decodeIdPk_eq_ok.mp h
  obtain ⟨sk, rfl, hpk⟩ := Term.verify_eq_some hverify
  exact ⟨sk, by rw [parseIdPkTerm_eq_ok hparse], hpk⟩

/-! ## The client keeps the discipline -/

/-- The first link: a client that expects the key of a host's id expects that host's key. -/
theorem expectedSignPk_of_protected {signedIdPk : Term (Name H)} (hsafe : W.Safe signedIdPk)
    (h : expectedSignPk W.prims (W.peerId i) signedIdPk (W.key i) = some signPk)
    (hhost : W.hostId host = W.peerId i) : signPk = .signPk (.secret (.hostSign host)) := by
  obtain ⟨rsPk, hrs, hdecode⟩ := expectedSignPk_eq_some h
  obtain ⟨sk, rfl, rfl⟩ := decodeIdPk_eq_signed hdecode
  -- the licence key is the rendezvous server's, so the rendezvous server signed
  have hsk : sk = .secret .rendezvous := by
    unfold getRsPk at hrs
    split at hrs
    next pk hkey =>
      rw [W.key_rendezvous i pk hkey] at hrs
      obtain ⟨-, hsame⟩ := getPk_eq_some.mp hrs
      exact (Term.signPk.inj hsame).symm
    · cases hrs
  subst hsk
  rcases hsafe.2 with hknown | hsigned
  · exact hknown.elim
  · rcases hsigned.1 rfl with ⟨n, hbox⟩ | ⟨id, pk, hid, hhosts⟩
    · cases hbox
    · cases hid
      exact hhosts host hhost.symm

/-- The second link: a box key that a host's signature vouches for is one of that host's. -/
theorem decodeIdPk_of_host {si pk : Term (Name H)} {id : String} (hsafe : W.Safe si)
    (h : decodeIdPk W.prims si (.signPk (.secret (.hostSign host))) = .ok (id, pk)) :
    ∃ j, pk = .boxPk (.secret (.hostBox host j)) := by
  obtain ⟨sk, rfl, hsk⟩ := decodeIdPk_eq_signed h
  obtain rfl := (Term.signPk.inj hsk).symm
  rcases hsafe.2 with hknown | hsigned
  · exact hknown.elim
  · obtain ⟨j, hj⟩ := hsigned.2 host rfl
    cases hj
    exact ⟨j, rfl⟩

variable (W)

/-- What client session `i` generates. -/
def clientFresh (i : ℕ) : KeyMaterial (Term (Name H)) := ⟨.secret (.clientBox i), .secret (.clientKey i)⟩

variable {W}

/-- The client's answer to a safe frame is safe: if its peer is a host, its key is boxed for that
host. -/
theorem safe_answerFrame {bytes : Term (Name H)} (hbytes : W.Safe bytes)
    (hsign : ∀ host, W.hostId host = W.peerId i → signPk = .signPk (.secret (.hostSign host))) :
    W.Safe (answerFrame W.prims (clientFresh i) (W.peerId i) signPk bytes).1 ∧
      ∀ k, (answerFrame W.prims (clientFresh i) (W.peerId i) signPk bytes).2 = some k →
        k = .secret (.clientKey i) := by
  have hnew : W.Safe (W.prims.writeMessage .new) := trivial
  unfold answerFrame
  cases hparse : W.prims.parseMessage bytes with
  | error text => exact ⟨hnew, by simp⟩
  | ok msgIn =>
    obtain rfl := parseMessageTerm_eq_ok hparse
    obtain ⟨_ | ⟨si⟩ | ⟨a, s⟩ | ⟨body⟩⟩ := msgIn
    case none | publicKey | other => exact ⟨hnew, by simp⟩
    case signedId =>
      dsimp only
      cases hdecode : decodeIdPk W.prims si signPk with
      | error text => exact ⟨⟨trivial, trivial⟩, by simp⟩
      | ok res =>
        obtain ⟨id, theirPkB⟩ := res
        dsimp only
        by_cases hid : id = W.peerId i
        · rw [if_pos hid]
          refine ⟨⟨trivial, ?_⟩, fun k hk => (Option.some.inj hk).symm⟩
          by_cases hprotected : W.Protected i
          · obtain ⟨host, hhost⟩ := hprotected
            have hsi : W.Safe si := hbytes
            rw [hsign host hhost] at hdecode
            obtain ⟨j, rfl⟩ := decodeIdPk_of_host hsi hdecode
            exact Or.inr ⟨i, host, j, hhost, rfl, rfl, rfl⟩
          · exact Or.inl hprotected
        · rw [if_neg hid]
          exact ⟨hnew, by simp⟩

/-- Client session `i` keeps the discipline, and installs no key but its own. -/
theorem secureConnection_keeps {signedIdPk : Term (Name H)} (hsafe : W.Safe signedIdPk) :
    (secureConnection W.prims (clientFresh i) (W.peerId i) signedIdPk (W.key i)).Keeps W.Safe
      fun k => k = .secret (.clientKey i) := by
  unfold secureConnection
  cases hsign : expectedSignPk W.prims (W.peerId i) signedIdPk (W.key i) with
  | none => exact ⟨trivial, trivial⟩
  | some signPk =>
    simp only [bind_eq, bind_nextFrame, keeps_recv]
    intro r hr
    cases r with
    | timeout | closed | failed => exact keeps_bail _
    | frame bytes =>
      obtain ⟨hmsg, hkey⟩ := safe_answerFrame (hr bytes rfl)
        fun host hhost => expectedSignPk_of_protected hsafe hsign hhost
      rcases hanswer : answerFrame W.prims (clientFresh i) (W.peerId i) signPk bytes
        with ⟨msgOut, _ | k⟩ <;> rw [hanswer] at hmsg hkey <;>
        simp only [hanswer, bind_sendFrame, bind_installKey, pure_eq, keeps_send, keeps_setKey]
      · exact ⟨hmsg, trivial⟩
      · exact ⟨hmsg, hkey k rfl, trivial⟩

/-! ## The host keeps the discipline -/

variable (W)

/-- A host may install any key but that of a client session with another host. -/
def HostKey (host : H) (k : Term (Name H)) : Prop :=
  ∀ i, W.Protected i → k = .secret (.clientKey i) → W.hostId host = W.peerId i

variable {W}

/-- The third link: a host opens the key of a protected client session only if it is its peer. -/
theorem hostKey_of_encryptDecode {j : ℕ} {sym asym k : Term (Name H)} (hsafe : W.Safe sym)
    (h : encryptDecode W.prims sym asym (.secret (.hostBox host j)) = .ok k) :
    W.HostKey host k := by
  rintro i hprotected rfl
  obtain ⟨-, hopen, -⟩ := encryptDecode_eq_ok.mp h
  obtain ⟨pk, sk, rfl, hwho⟩ := Term.boxOpen_eq_some hopen
  rcases hsafe with hknown | ⟨i', host', j', hpeer, hkey, rfl, rfl⟩
  · exact absurd hprotected hknown
  · cases hkey
    rcases hwho with ⟨hpk, -⟩ | ⟨hsk, -⟩
    · cases hpk
      exact hpeer
    · cases hsk

theorem createTcpConnection_keeps (host : H) (j : ℕ) (secure : Bool) :
    (createTcpConnection W.prims (.secret (.hostBox host j)) (W.hostId host)
      (.signPk (.secret (.hostSign host))) (.secret (.hostSign host)) secure).Keeps W.Safe (W.HostKey host) := by
  unfold createTcpConnection
  split
  · simp only [bind_eq, bind_sendFrame, bind_nextFrame, keeps_send, keeps_recv]
    constructor
    · -- the host's signature is on its own id and one of its box keys
      have hsigned : W.discipline.SignOk (.secret (.hostSign host))
          (writeIdPkTerm ⟨W.hostId host, .boxPk (.secret (.hostBox host j))⟩) := by
        constructor
        · intro h
          cases h
        · intro h hh
          cases hh
          exact ⟨j, rfl⟩
      exact ⟨⟨trivial, trivial⟩, Or.inr hsigned⟩
    · intro r hr
      cases r with
      | timeout | closed | failed => exact keeps_bail _
      | frame bytes =>
        cases hreact : reactToAnswer W.prims (.secret (.hostBox host j)) bytes with
        | forceUpdatePk | plain | fail => simp only [hreact]; trivial
        | key k =>
          simp only [hreact, bind_installKey, pure_eq, keeps_setKey]
          obtain ⟨asym, sym, hparse, hdecode⟩ := reactToAnswer_eq_key hreact
          have hbytes : W.Safe (writeMessageTerm ⟨some (.publicKey asym sym)⟩) := by
            rw [← parseMessageTerm_eq_ok hparse]
            exact hr bytes rfl
          exact ⟨hostKey_of_encryptDecode hbytes.2 hdecode, trivial⟩
  · trivial

/-! ## The network -/

/-- Client sessions, and the sessions of each host. -/
inductive SessionId (H : Type)
  | client (i : ℕ)
  | host (h : H) (j : ℕ)
deriving DecidableEq

abbrev SessionId.Result : SessionId H → Type
  | .client _ => Option (Term (Name H))
  | .host _ _ => Bool

/-- A session: what is left of its handshake and the key on its stream. -/
structure Session (H : Type) (α : Type) where
  proc : Dialogue (Term (Name H)) (Term (Name H)) String α
  key : Option (Term (Name H))

/-- All the attacker has seen, and the sessions started so far. -/
structure Network (H : Type) where
  seen : Set (Term (Name H))
  session : ∀ s : SessionId H, Option (Session H s.Result)

inductive NetworkAction (H : Type)
  | registerPk (id : String) (pk : Term (Name H))
  | keyExchangePhase1 (n : ℕ)
  | startClient (i : ℕ) (signedIdPk : Term (Name H))
  | startHost (h : H) (j : ℕ) (secure : Bool)
  | handshake (s : SessionId H) (ev : Event (Term (Name H)) (Term (Name H)))
  | app (s : SessionId H) (body : List UInt8) (count : ℕ)

namespace Network

/-- What an event shows to the attacker. -/
def shown : Event (Term (Name H)) (Term (Name H)) → Set (Term (Name H))
  | .sent f => {f}
  | _ => ∅

/-- The key on a stream after an event. -/
def keyAfter (key : Option (Term (Name H))) :
    Event (Term (Name H)) (Term (Name H)) → Option (Term (Name H))
  | .keyed k => some k
  | _ => key

def setSession (n : Network H) (s : SessionId H) (run : Session H s.Result) : Network H :=
  { n with session := Function.update n.session s (some run) }

def reveal (n : Network H) (S : Set (Term (Name H))) : Network H := { n with seen := n.seen ∪ S }

/-- The attacker starts with its own secrets and everybody's public keys. -/
def start : Network H where
  seen := {t | (∃ n, t = .secret (.attacker n)) ∨ ∃ n, t = .signPk (.secret n) ∨ t = .boxPk (.secret n)}
  session _ := none

end Network

variable (W)

open Network in
/-- One step. A session receives only what the attacker can compute; the rendezvous server signs for
a host's id only that host's key. -/
inductive Step : Network H → NetworkAction H → Network H → Prop
  | registerPk {n id pk} : Derives n.seen pk →
      (∀ h, id = W.hostId h → pk = .signPk (.secret (.hostSign h))) →
      Step n (.registerPk id pk)
        (n.reveal {.signed (writeIdPkTerm ⟨id, pk⟩) (.secret .rendezvous)})
  | keyExchangePhase1 {n} (i : ℕ) :
      Step n (.keyExchangePhase1 i)
        (n.reveal {.signed (.boxPk (.secret (.hbbsBox i))) (.secret .rendezvous)})
  | startClient {n i signedIdPk} : n.session (.client i) = none → Derives n.seen signedIdPk →
      Step n (.startClient i signedIdPk)
        (n.setSession (.client i)
          ⟨secureConnection W.prims (clientFresh i) (W.peerId i) signedIdPk (W.key i), none⟩)
  | startHost {n h j} (secure : Bool) : n.session (.host h j) = none →
      Step n (.startHost h j secure)
        (n.setSession (.host h j)
          ⟨createTcpConnection W.prims (.secret (.hostBox h j)) (W.hostId h)
            (.signPk (.secret (.hostSign h))) (.secret (.hostSign h)) secure, none⟩)
  | handshake {n : Network H} {s ev run p} : n.session s = some run →
      Dialogue.Step run.proc ev p → (∀ f, ev = .got (.frame f) → Derives n.seen f) →
      Step n (.handshake s ev)
        ((n.setSession s ⟨p, keyAfter run.key ev⟩).reveal (shown ev))
  /-- The application of a keyed session sends a message. -/
  | app {n : Network H} {s run k} (body : List UInt8) (count : ℕ) : n.session s = some run →
      run.key = some k →
      Step n (.app s body count) (n.reveal {.secretBoxed (.raw body) count k})

/-- The keys a session may have on its stream. -/
def KeyOk : SessionId H → Term (Name H) → Prop
  | .client i, k => k = .secret (.clientKey i)
  | .host h _, k => W.HostKey h k

/-- Everything seen is safe, and every session keeps the discipline. -/
structure Inv (n : Network H) : Prop where
  seen : ∀ t ∈ n.seen, W.Safe t
  keeps : ∀ s run, n.session s = some run → run.proc.Keeps W.Safe (W.KeyOk s)
  key : ∀ s run k, n.session s = some run → run.key = some k → W.KeyOk s k

variable {W}

omit [DecidableEq H] in
theorem Inv.reveal {n : Network H} (h : W.Inv n) {S : Set (Term (Name H))} (hS : ∀ t ∈ S, W.Safe t) :
    W.Inv (n.reveal S) where
  seen t ht := ht.elim (h.seen t) (hS t)
  keeps := h.keeps
  key := h.key

theorem Inv.setSession {n : Network H} (h : W.Inv n) {s : SessionId H} {run : Session H s.Result}
    (hkeeps : run.proc.Keeps W.Safe (W.KeyOk s)) (hkey : ∀ k, run.key = some k → W.KeyOk s k) :
    W.Inv (n.setSession s run) where
  seen := h.seen
  keeps s' run' hrun' := by
    by_cases hs : s' = s
    · subst hs
      obtain rfl : run = run' := by simpa [Network.setSession] using hrun'
      exact hkeeps
    · exact h.keeps s' run' (by simpa [Network.setSession, hs] using hrun')
  key s' run' k hrun' hk := by
    by_cases hs : s' = s
    · subst hs
      obtain rfl : run = run' := by simpa [Network.setSession] using hrun'
      exact hkey k hk
    · exact h.key s' run' k (by simpa [Network.setSession, hs] using hrun') hk

/-- Every step keeps the invariant. -/
theorem inv_step (n : Network H) (a : NetworkAction H) (n' : Network H) (h : W.Inv n)
    (hstep : W.Step n a n') : W.Inv n' := by
  have hderives : ∀ t, Derives n.seen t → W.Safe t := fun t => Discipline.safe_of_derives W.boxesHide h.seen
  cases hstep with
  | registerPk hpk hhosts =>
    refine h.reveal fun t ht => ?_
    obtain rfl := ht
    refine ⟨⟨trivial, hderives _ hpk⟩, Or.inr ⟨fun _ => Or.inr ⟨_, _, rfl, hhosts⟩, ?_⟩⟩
    intro host hhost
    cases hhost
  | keyExchangePhase1 i =>
    refine h.reveal fun t ht => ?_
    obtain rfl := ht
    refine ⟨trivial, Or.inr ⟨fun _ => Or.inl ⟨i, rfl⟩, ?_⟩⟩
    intro host hhost
    cases hhost
  | startClient _ hsigned => exact h.setSession (secureConnection_keeps (hderives _ hsigned)) (by simp)
  | startHost secure _ => exact h.setSession (createTcpConnection_keeps _ _ secure) (by simp)
  | @handshake s ev run p hrun hproc hin =>
    obtain ⟨hkept, hkeeps⟩ := (h.keeps s run hrun).step hproc fun f hf => hderives f (hin f hf)
    refine (h.setSession hkeeps fun k hk => ?_).reveal fun t ht => ?_
    · cases ev with
      | keyed k' =>
        obtain rfl : k' = k := by simpa [Network.keyAfter] using hk
        exact hkept
      | _ => exact h.key s run k hrun hk
    · cases ev with
      | sent f =>
        obtain rfl : t = f := ht
        exact hkept
      | _ => exact ht.elim
  | app body count _ _ =>
    refine h.reveal fun t ht => ?_
    obtain rfl := ht
    exact trivial

omit [DecidableEq H] in
theorem inv_start : W.Inv Network.start where
  seen t ht := by rcases ht with ⟨n, rfl⟩ | ⟨n, rfl | rfl⟩ <;> trivial
  keeps s run hrun := by cases hrun
  key s run k hrun := by cases hrun

/-- **Session keys are known to the right host only.** When `secure_connection` for the id of a host
has returned with a key on its stream, the attacker cannot compute that key, and every host session
with that key on its stream belongs to a host with that id. -/
theorem session_key_secret {acts : List (NetworkAction H)} {n : Network H}
    (hrun : Run W.Step Network.start acts n) {i : ℕ} {host : H}
    (hpeer : W.hostId host = W.peerId i) {r : Option (Term (Name H))} {k : Term (Name H)}
    (hdone : n.session (.client i) = some ⟨.done (.ok r), some k⟩) :
    ¬ Derives n.seen k ∧
      ∀ h j run, n.session (.host h j) = some run → run.key = some k → W.hostId h = W.peerId i := by
  have hinv := hrun.invariant inv_step inv_start
  obtain rfl : k = .secret (.clientKey i) := hinv.key _ _ k hdone rfl
  constructor
  · intro hderives
    have hsafe : W.Safe (.secret (.clientKey i)) :=
      Discipline.safe_of_derives W.boxesHide hinv.seen hderives
    exact hsafe ⟨host, hpeer⟩
  · intro h j run hsession hkey
    exact hinv.key _ run _ hsession hkey i ⟨host, hpeer⟩ rfl

/-! ## One host, one client -/

/-- One host with the id the client connects to. -/
def soleHost : Parties Unit where
  hostId _ := "123456789"
  peerId _ := "123456789"
  key _ := "key"
  decode64 _ := some (.signPk (.secret .rendezvous))
  key_rendezvous _ _ h := (Option.some.inj h).symm

/-- The identity of the host as the rendezvous server signs it. -/
def soleSignedIdPk : Term (Name Unit) :=
  .signed (writeIdPkTerm ⟨"123456789", .signPk (.secret (.hostSign ()))⟩) (.secret .rendezvous)

/-- The host's first message in its session 0. -/
def soleSignedId : Term (Name Unit) :=
  signedIdMessage soleHost.prims (.secret (.hostBox () 0)) "123456789" (.secret (.hostSign ()))

/-- The client's answer. -/
def solePublicKey : Term (Name Unit) :=
  writeMessageTerm ⟨some (.publicKey (.boxPk (.secret (.clientBox 0)))
    (.boxed (.secret (.clientKey 0)) (.boxPk (.secret (.hostBox () 0))) (.secret (.clientBox 0))))⟩

/-- The rendezvous server signs the host's key, the host opens a session, the client answers. -/
def soleActs : List (NetworkAction Unit) :=
  [.registerPk "123456789" (.signPk (.secret (.hostSign ()))),
    .startHost () 0 true,
    .handshake (.host () 0) (.sent soleSignedId),
    .startClient 0 soleSignedIdPk,
    .handshake (.client 0) (.got (.frame soleSignedId)),
    .handshake (.client 0) (.sent solePublicKey),
    .handshake (.client 0) (.keyed (.secret (.clientKey 0))),
    .handshake (.host () 0) (.got (.frame solePublicKey)),
    .handshake (.host () 0) (.keyed (.secret (.clientKey 0)))]

/-- The host behind its first message. -/
def soleHostWaits : Dialogue (Term (Name Unit)) (Term (Name Unit)) String Bool :=
  match createTcpConnection soleHost.prims (.secret (.hostBox () 0)) "123456789"
    (.signPk (.secret (.hostSign ()))) (.secret (.hostSign ())) true with
  | .send _ next => next
  | p => p

theorem soleHost_sends : Dialogue.Step (createTcpConnection soleHost.prims
    (.secret (.hostBox () 0)) "123456789" (.signPk (.secret (.hostSign ())))
    (.secret (.hostSign ())) true) (.sent soleSignedId) soleHostWaits := .send _ _

theorem soleHost_receives : Dialogue.Step soleHostWaits (.got (.frame solePublicKey))
    (.setKey (.secret (.clientKey 0)) (.done (.ok false))) := .recv _ (.frame solePublicKey)

theorem soleClient_receives : Dialogue.Step
    (secureConnection soleHost.prims (clientFresh 0) "123456789" soleSignedIdPk "key")
    (.got (.frame soleSignedId))
    (.send solePublicKey (.setKey (.secret (.clientKey 0))
      (.done (.ok (some (.signPk (.secret (.hostSign ())))))))) := .recv _ (.frame soleSignedId)

/-- Both ends of the exchange end up with the client's key. -/
theorem soleActs_run : ∃ n : Network Unit, Run soleHost.Step Network.start soleActs n ∧
    n.session (.client 0) = some ⟨.done (.ok (some (.signPk (.secret (.hostSign ()))))),
      some (.secret (.clientKey 0))⟩ ∧
    n.session (.host () 0) = some ⟨.done (.ok false), some (.secret (.clientKey 0))⟩ := by
  have hpublic : Derives (Network.start : Network Unit).seen (.signPk (.secret (.hostSign ()))) :=
    .seen (Or.inr ⟨_, Or.inl rfl⟩)
  refine ⟨_, .cons (.registerPk hpublic fun _ _ => rfl) (.cons (.startHost true rfl)
    (.cons (.handshake rfl soleHost_sends (by nofun))
    (.cons (.startClient rfl (.seen ?_))
    (.cons (.handshake rfl soleClient_receives ?_)
    (.cons (.handshake rfl (.send _ _) (by nofun))
    (.cons (.handshake rfl (.setKey _ _) (by nofun))
    (.cons (.handshake rfl soleHost_receives ?_)
    (.cons (.handshake rfl (.setKey _ _) (by nofun)) (.nil _))))))))), rfl, rfl⟩
  · exact Or.inl (Or.inr rfl)
  · intro f hf
    cases hf
    exact .seen (Or.inr rfl)
  · intro f hf
    cases hf
    exact .seen (Or.inl (Or.inr rfl))

/-- The key of that exchange stays between the two. -/
theorem session_key_secret_sole_host : ∃ n : Network Unit,
    n.session (.client 0) = some ⟨.done (.ok (some (.signPk (.secret (.hostSign ()))))),
      some (.secret (.clientKey 0))⟩ ∧
    ¬ Derives n.seen (.secret (.clientKey 0)) := by
  obtain ⟨n, hrun, hdone, -⟩ := soleActs_run
  have hpeer : soleHost.hostId () = soleHost.peerId 0 := rfl
  exact ⟨n, hdone, (session_key_secret hrun hpeer hdone).1⟩

end Parties

end RustDesk.Handshake
