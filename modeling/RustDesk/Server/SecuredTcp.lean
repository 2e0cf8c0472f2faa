import RustDesk.Net.Encrypt
import RustDesk.Server.LoginEnforcement

/-!
# Secured TCP connections

References: `rustdesk-server/src/rendezvous_server.rs` (`handle_listener_inner`, `handle_tcp`,
`Sink::send`).

A `KeyExchange` puts the cipher of a connection into its sink, and the read loop of a TCP connection opens
a frame only if the sink is still with it. The first request leaves the sink in `tcp_punch`, with the
cipher in it, and whatever comes after that on the connection is read as it is.
-/

namespace RustDesk.Server

open Net

/-- What the read loop takes from libraries: the parser of messages, `secretbox` and its keys. -/
structure HbbsWire (K : Type*) where
  parse : Bytes → Option RendezvousMessage
  box : SecretBox K
  keyOf : Bytes → K

/-- hbbs with the ciphers in its sinks. A sink is named by its connection, wherever it is. -/
structure SecuredHbbs (C K : Type*) where
  server : Rendezvous C
  encrypt : C → Option (Encrypt K)

/-- What happens at the server, with the frames of connections as they come. -/
inductive FrameEvent (C : Type*)
  | accept (c : C) (addr : SocketAddr) (ws : Bool)
  | frame (c : C) (env : HbbsEnv) (bytes : Bytes)
  | close (c : C)
  | udp (addr : SocketAddr) (env : HbbsEnv) (msg : Option RendezvousMessage)

/-- The event is a frame of the connection. -/
def FrameEvent.IsFrameOf {C : Type*} (c : C) : FrameEvent C → Prop
  | .frame c' _ _ => c' = c
  | _ => False

instance {C : Type*} [DecidableEq C] (c : C) : DecidablePred (FrameEvent.IsFrameOf c)
  | .frame c' _ _ => inferInstanceAs (Decidable (c' = c))
  | .accept _ _ _ | .close _ | .udp _ _ _ => inferInstanceAs (Decidable False)

namespace SecuredHbbs

variable {C K : Type*} [DecidableEq C]

/-- The ciphers after some effects: a message that is written to a sink is counted by its cipher. -/
def ciphers (wire : HbbsWire K) (encrypt : C → Option (Encrypt K)) :
    List (Effect C) → C → Option (Encrypt K)
  | [] => encrypt
  | .send c _ :: effs | .forward _ (.inl c) _ :: effs =>
    ciphers wire (Function.update encrypt c
      ((encrypt c).map fun key => { key with sendSeq := key.sendSeq + 1 })) effs
  | .setKey c key :: effs =>
    ciphers wire (Function.update encrypt c (some (Encrypt.new (wire.keyOf key)))) effs
  | _ :: effs => ciphers wire encrypt effs

/-- What the read loop makes of a frame: the bytes for `handle_tcp`, unless they cannot be opened. -/
def openFrame (wire : HbbsWire K) (s : SecuredHbbs C K) (c : C) (conn : Conn) (bytes : Bytes) :
    Option Bytes × (C → Option (Encrypt K)) :=
  if conn.hasSink ∧ ¬ conn.ws then
    match s.encrypt c with
    | some key =>
      let (res, key) := key.dec wire.box bytes
      (res.toOption, Function.update s.encrypt c (some key))
    | none => (some bytes, s.encrypt)
  else (some bytes, s.encrypt)

/-- A step of the server on a message, with the ciphers that it writes with. -/
def handle (cfg : HbbsConfig) (wire : HbbsWire K) (s : SecuredHbbs C K) (ev : HbbsEvent C) :
    Option (SecuredHbbs C K) :=
  (s.server.step cfg ev).map fun server =>
    ⟨server, ciphers wire s.encrypt (s.server.effects cfg ev)⟩

/-- The server on frames. -/
def step (cfg : HbbsConfig) (wire : HbbsWire K) (s : SecuredHbbs C K) :
    FrameEvent C → Option (SecuredHbbs C K)
  | .accept c addr ws =>
    handle cfg wire { s with encrypt := Function.update s.encrypt c none } (.accept c addr ws)
  | .frame c env bytes =>
    match s.server.conn c with
    | some conn =>
      match openFrame wire s c conn bytes with
      | (some bytes, encrypt) =>
        handle cfg wire { s with encrypt } (.tcp c env (wire.parse bytes))
      | (none, encrypt) =>
        if conn.isOpen then some ⟨s.server.cleanup c, encrypt⟩ else none
    | none => none
  | .close c => handle cfg wire s (.close c)
  | .udp addr env msg => handle cfg wire s (.udp addr env msg)

/-- The same server without the cipher of one connection. -/
def plain (c : C) (s : SecuredHbbs C K) : SecuredHbbs C K :=
  { s with encrypt := Function.update s.encrypt c none }

end SecuredHbbs

/-- A client on one connection, and everything else that happens. -/
inductive ClientEvent (C : Type*)
  | send (env : HbbsEnv) (bytes : Bytes)
  | other (ev : FrameEvent C)

/-- The server, and the cipher of the client. -/
structure ClientSession (C K : Type*) where
  hbbs : SecuredHbbs C K
  client : Encrypt K

namespace Rendezvous

variable {C : Type*} [DecidableEq C] {cfg : HbbsConfig} {env : HbbsEnv} {s t u : Rendezvous C} {c : C}
  {conn : Conn} {msg : Option RendezvousMessage} {effs : List (Effect C)} {after : After}

/-- A message on a TCP connection takes its sink exactly if it is a request. -/
theorem TcpActs.hasSink (h : TcpActs cfg env s c conn msg u effs after) (hconn : s.conn c = some conn)
    (hws : conn.ws = false) :
    ∃ conn', u.conn c = some conn' ∧ conn'.ws = false ∧
      (conn'.hasSink = true ↔ conn.hasSink = true ∧ ¬ IsRequest msg) := by
  have hpark : IsRequest msg → ∃ conn', (s.park c conn).conn c = some conn' ∧ conn'.ws = false ∧
      (conn'.hasSink = true ↔ conn.hasSink = true ∧ ¬ IsRequest msg) := by
    intro hrequest
    unfold park
    by_cases hsink : conn.hasSink = true
    · rw [if_pos hsink]
      exact ⟨_, Function.update_self .., hws, by simp [hrequest]⟩
    · rw [if_neg hsink]
      exact ⟨conn, hconn, hws, by simp [hsink]⟩
  have hsame : ¬ IsRequest msg → ∃ conn', s.conn c = some conn' ∧ conn'.ws = false ∧
      (conn'.hasSink = true ↔ conn.hasSink = true ∧ ¬ IsRequest msg) :=
    fun hrequest => ⟨conn, hconn, hws, by simp [hrequest]⟩
  cases h with
  | quiet hmsg => exact hsame hmsg
  | keyExchange | registerPeer | registerPkRefused => exact hsame (by simp [IsRequest])
  | registerPk h hreply hv =>
    subst hv
    rw [hws]
    exact hsame (by simp [IsRequest])
  | @passed ph | @refused ph => exact hpark (.inl ⟨ph, rfl⟩)
  | @relay rf => exact hpark (.inr ⟨rf, rfl⟩)
  | @answer m addr u effs hto h =>
    obtain ⟨registry, -, rfl⟩ := h.state
    refine hsame ?_
    rintro (⟨ph, hm⟩ | ⟨rf, hm⟩)
    · cases Option.some.inj hm
      cases hto
    · cases Option.some.inj hm
      cases hto

/-- What ends a read loop leaves the sinks of all connections where they are. -/
theorem hasSink_finish (u : Rendezvous C) (c' : C) (after : After) (hu : u.conn c = some conn) :
    ∃ conn', (u.finish c' after).conn c = some conn' ∧ conn'.ws = conn.ws ∧ conn'.hasSink = conn.hasSink := by
  rcases conn_finish u c' after with h | h
  · exact ⟨conn, by rw [h, hu], rfl, rfl⟩
  · rw [h]
    by_cases heq : c = c'
    · subst heq
      rw [Function.update_self, hu]
      exact ⟨_, rfl, rfl, rfl⟩
    · exact ⟨conn, by rw [Function.update_of_ne heq, hu], rfl, rfl⟩

theorem hasSink_step_tcp (hstep : step cfg s (.tcp c env msg) = some t) (hconn : s.conn c = some conn)
    (hws : conn.ws = false) :
    ∃ conn', t.conn c = some conn' ∧ conn'.ws = false ∧
      (conn'.hasSink = true ↔ conn.hasSink = true ∧ ¬ IsRequest msg) := by
  cases step_stepped hstep with
  | @tcp _ _ _ conn' u effs after hconn' hopen hu hacts =>
    obtain rfl : conn' = conn := Option.some.inj (hconn'.symm.trans hconn)
    obtain ⟨conn₁, hconn₁, hws₁, hsink₁⟩ := hacts.hasSink hconn hws
    obtain ⟨conn₂, hconn₂, hws₂, hsink₂⟩ := hasSink_finish (record (.conn c) (u, effs)) c after hconn₁
    exact ⟨conn₂, hconn₂, hws₂.trans hws₁, by rw [hsink₂, hsink₁]⟩

/-- An event that is no message of a connection leaves its sink where it is. -/
theorem hasSink_step_other {ev : HbbsEvent C} (hstep : step cfg s ev = some t)
    (hconn : s.conn c = some conn) (hother : ∀ env msg, ev ≠ .tcp c env msg) :
    ∃ conn', t.conn c = some conn' ∧ conn'.ws = conn.ws ∧ conn'.hasSink = conn.hasSink := by
  cases step_stepped hstep with
  | @accept c' addr ws hnew =>
    have hne : c ≠ c' := by
      rintro rfl
      rw [hconn] at hnew
      cases hnew
    exact ⟨conn, by simpa [Function.update_of_ne hne] using hconn, rfl, rfl⟩
  | @close c' => exact hasSink_finish s c' .stop hconn
  | @tcp c' env msg conn' u effs after hconn' hopen hu hacts =>
    have hne : c ≠ c' := by
      rintro rfl
      exact hother env msg rfl
    refine hasSink_finish (record (.conn c') (u, effs)) c' after ?_
    show u.conn c = some conn
    rcases hacts.conn with h | h
    · rw [h, hconn]
    · rw [h, Function.update_of_ne hne, hconn]
  | udp hu hacts => exact ⟨conn, (congrFun hacts.sinks.1 c).trans hconn, rfl, rfl⟩

/-- Only a `KeyExchange` on a connection sets its key. -/
theorem setKey_notMem_effects {ev : HbbsEvent C} (hstep : step cfg s ev = some t)
    (hother : ∀ env keys, ev ≠ .tcp c env (some (.keyExchange keys))) (key : List UInt8) :
    .setKey c key ∉ effects cfg s ev := by
  intro hmem
  cases sends_of_mem_effects hstep hmem with
  | reply h => exact h
  | @setKey c env keys => exact hother env keys rfl
  | datagram h => exact h

end Rendezvous

namespace SecuredHbbs

variable {C K : Type*} [DecidableEq C] {cfg : HbbsConfig} {wire : HbbsWire K} {s t : SecuredHbbs C K} {c : C}
  {conn : Conn}

/-- A cipher that is not replaced keeps its key and what it has opened. -/
theorem ciphers_same (wire : HbbsWire K) {effs : List (Effect C)} (hset : ∀ key, .setKey c key ∉ effs)
    {encrypt : C → Option (Encrypt K)} {e : Encrypt K} (he : encrypt c = some e) :
    ∃ e', ciphers wire encrypt effs c = some e' ∧ e'.key = e.key ∧ e'.recvSeq = e.recvSeq := by
  induction effs generalizing encrypt e with
  | nil => exact ⟨e, he, rfl, rfl⟩
  | cons eff effs ih =>
    have hset' : ∀ key, .setKey c key ∉ effs := fun key hmem => hset key (List.mem_cons_of_mem _ hmem)
    have hcount : ∀ c', ∃ e', ciphers wire (Function.update encrypt c'
        ((encrypt c').map fun key => { key with sendSeq := key.sendSeq + 1 })) effs c = some e' ∧
        e'.key = e.key ∧ e'.recvSeq = e.recvSeq := by
      intro c'
      by_cases hc : c = c'
      · subst hc
        rw [he]
        exact ih hset' (e := { e with sendSeq := e.sendSeq + 1 }) (Function.update_self ..)
      · exact ih hset' ((Function.update_of_ne hc ..).trans he)
    cases eff with
    | send c' msg => exact hcount c'
    | datagram addr msg => exact ih hset' he
    | forward id dest msg =>
      cases dest with
      | inl c' => exact hcount c'
      | inr addr => exact ih hset' he
    | setKey c' key =>
      have hc : c ≠ c' := by
        rintro rfl
        exact hset key (List.mem_cons_self ..)
      exact ih hset' ((Function.update_of_ne hc ..).trans he)

/-- The other ciphers do not depend on one that is not replaced. -/
theorem ciphers_update_none {effs : List (Effect C)} (hset : ∀ key, .setKey c key ∉ effs)
    (encrypt : C → Option (Encrypt K)) :
    ciphers wire (Function.update encrypt c none) effs = Function.update (ciphers wire encrypt effs) c none := by
  induction effs generalizing encrypt with
  | nil => rfl
  | cons eff effs ih =>
    have hset' : ∀ key, .setKey c key ∉ effs := fun key hmem => hset key (List.mem_cons_of_mem _ hmem)
    have hcount : ∀ c', ciphers wire (Function.update (Function.update encrypt c none) c'
        ((Function.update encrypt c none c').map fun key => { key with sendSeq := key.sendSeq + 1 })) effs =
        Function.update (ciphers wire (Function.update encrypt c'
          ((encrypt c').map fun key => { key with sendSeq := key.sendSeq + 1 })) effs) c none := by
      intro c'
      by_cases hc : c' = c
      · subst hc
        rw [← ih hset', Function.update_self, Function.update_idem, Function.update_idem]
        rfl
      · rw [← ih hset', Function.update_of_ne hc, Function.update_comm (Ne.symm hc)]
    cases eff with
    | send c' msg => exact hcount c'
    | datagram addr msg => exact ih hset' encrypt
    | forward id dest msg =>
      cases dest with
      | inl c' => exact hcount c'
      | inr addr => exact ih hset' encrypt
    | setKey c' key =>
      have hc : c ≠ c' := by
        rintro rfl
        exact hset key (List.mem_cons_self ..)
      show ciphers wire (Function.update (Function.update encrypt c none) c' _) effs = _
      rw [Function.update_comm hc, ih hset']
      rfl

/-- A step on a message does the same without the cipher of a connection, whose key it does not set. -/
theorem handle_plain (cfg : HbbsConfig) (wire : HbbsWire K) (s : SecuredHbbs C K) {ev : HbbsEvent C}
    (hother : ∀ env keys, ev ≠ .tcp c env (some (.keyExchange keys))) :
    handle cfg wire (s.plain c) ev = (handle cfg wire s ev).map (plain c) := by
  unfold handle
  show (s.server.step cfg ev).map _ = ((s.server.step cfg ev).map _).map _
  cases hstep : s.server.step cfg ev with
  | none => rfl
  | some server =>
    have hset := Rendezvous.setKey_notMem_effects hstep hother
    exact congrArg (fun encrypt => some (SecuredHbbs.mk server encrypt)) (ciphers_update_none hset s.encrypt)

theorem openFrame_plain {c' : C} (hne : c' ≠ c) (conn : Conn) (bytes : Bytes) :
    openFrame wire (s.plain c) c' conn bytes = ((openFrame wire s c' conn bytes).1,
      Function.update (openFrame wire s c' conn bytes).2 c none) := by
  unfold openFrame
  by_cases hsecured : conn.hasSink = true ∧ ¬ conn.ws = true
  · rw [if_pos hsecured, if_pos hsecured, plain]
    simp only [Function.update_of_ne hne]
    cases s.encrypt c' with
    | none => rfl
    | some key => exact congrArg (Prod.mk _) (Function.update_comm (Ne.symm hne) ..)
  · rw [if_neg hsecured, if_neg hsecured]
    rfl

/-- What happens elsewhere happens as well without the cipher of a connection. -/
theorem step_plain {ev : FrameEvent C} (hother : ¬ ev.IsFrameOf c) :
    (s.plain c).step cfg wire ev = (s.step cfg wire ev).map (plain c) := by
  cases ev with
  | accept c' addr ws =>
    have hcomm : ({ s.plain c with encrypt := Function.update (s.plain c).encrypt c' none } :
        SecuredHbbs C K) = ({ s with encrypt := Function.update s.encrypt c' none } : SecuredHbbs C K).plain c := by
      unfold plain
      by_cases hc : c = c'
      · subst hc
        rfl
      · exact congrArg (SecuredHbbs.mk s.server) (Function.update_comm hc ..)
    rw [step, hcomm]
    exact handle_plain _ _ _ (by simp)
  | frame c' env bytes =>
    have hne : c' ≠ c := hother
    cases hconn : s.server.conn c' with
    | none => simp only [step, plain, hconn, Option.map_none]
    | some conn =>
      have hconn' : (s.plain c).server.conn c' = some conn := hconn
      obtain ⟨⟨opened, encrypt⟩, hopened⟩ : ∃ r, openFrame wire s c' conn bytes = r := ⟨_, rfl⟩
      simp only [step, hconn', hconn, openFrame_plain hne, hopened]
      cases opened with
      | some bytes => exact handle_plain _ _ { s with encrypt } fun _ _ h => hne (HbbsEvent.tcp.inj h).1
      | none =>
        by_cases hopen : conn.isOpen = true
        · simp only [if_pos hopen]
          rfl
        · simp only [if_neg hopen]
          rfl
  | close | udp => exact handle_plain _ _ _ (by simp)

/-- What is left of a connection and its cipher by what happens elsewhere. -/
def Elsewhere (c : C) (conn : Conn) (s t : SecuredHbbs C K) : Prop :=
  ∃ conn', t.server.conn c = some conn' ∧ conn'.ws = conn.ws ∧ conn'.hasSink = conn.hasSink ∧
    ∀ e, s.encrypt c = some e → ∃ e', t.encrypt c = some e' ∧ e'.key = e.key ∧ e'.recvSeq = e.recvSeq

theorem handle_elsewhere {ev : HbbsEvent C} (hhandle : handle cfg wire s ev = some t)
    (hconn : s.server.conn c = some conn) (hother : ∀ env msg, ev ≠ .tcp c env msg) :
    Elsewhere c conn s t := by
  obtain ⟨server, hserver, rfl⟩ := Option.map_eq_some_iff.mp hhandle
  obtain ⟨conn', hconn', hws, hsink⟩ := Rendezvous.hasSink_step_other hserver hconn hother
  have hset := Rendezvous.setKey_notMem_effects (c := c) hserver fun env keys => hother env _
  exact ⟨conn', hconn', hws, hsink, fun e he => ciphers_same wire hset he⟩

/-- Without a cipher, a frame is taken as it is. -/
theorem openFrame_of_none (wire : HbbsWire K) (hnone : s.encrypt c = none) (conn : Conn) (bytes : Bytes) :
    openFrame wire s c conn bytes = (some bytes, s.encrypt) := by
  unfold openFrame
  rw [hnone]
  exact ite_self _

theorem openFrame_of_ne (wire : HbbsWire K) (s : SecuredHbbs C K) {c' : C} (hne : c' ≠ c) (conn : Conn)
    (bytes : Bytes) :
    (openFrame wire s c' conn bytes).2 c = s.encrypt c := by
  unfold openFrame
  split
  · cases s.encrypt c' with
    | none => rfl
    | some key => exact Function.update_of_ne (Ne.symm hne) ..
  · rfl

theorem step_elsewhere {ev : FrameEvent C} (hother : ¬ ev.IsFrameOf c)
    (hstep : s.step cfg wire ev = some t) (hconn : s.server.conn c = some conn) :
    Elsewhere c conn s t := by
  cases ev with
  | accept c' addr ws =>
    have hne : c ≠ c' := by
      rintro rfl
      simp [step, handle, Rendezvous.step, hconn] at hstep
    obtain ⟨conn', hconn', hws, hsink, hcipher⟩ := handle_elsewhere hstep hconn (by simp)
    exact ⟨conn', hconn', hws, hsink, fun e he => hcipher e ((Function.update_of_ne hne ..).trans he)⟩
  | frame c' env bytes =>
    have hne : c' ≠ c := hother
    cases hconn' : s.server.conn c' with
    | none => simp [step, hconn'] at hstep
    | some conn' =>
      have hsame := openFrame_of_ne wire s hne conn' bytes
      obtain ⟨⟨opened, encrypt⟩, hopened⟩ : ∃ r, openFrame wire s c' conn' bytes = r := ⟨_, rfl⟩
      rw [hopened] at hsame
      simp only [step, hconn', hopened] at hstep
      cases opened with
      | some bytes =>
        obtain ⟨conn'', hconn'', hws, hsink, hcipher⟩ :=
          handle_elsewhere hstep hconn fun _ _ h => hne (HbbsEvent.tcp.inj h).1
        exact ⟨conn'', hconn'', hws, hsink, fun e he => hcipher e (hsame.trans he)⟩
      | none =>
        by_cases hopen : conn'.isOpen = true
        · simp only [if_pos hopen] at hstep
          cases hstep
          obtain ⟨conn'', hconn'', hws, hsink⟩ := Rendezvous.hasSink_finish s.server c' .stop hconn
          exact ⟨conn'', hconn'', hws, hsink, fun e he => ⟨e, hsame.trans he, rfl, rfl⟩⟩
        · simp [hopen] at hstep
  | close | udp => exact handle_elsewhere hstep hconn (by simp)

end SecuredHbbs

namespace ClientSession

variable {C K : Type*} [DecidableEq C]

/-- The client seals what it sends. -/
def secured (cfg : HbbsConfig) (wire : HbbsWire K) (c : C) (s : ClientSession C K) :
    ClientEvent C → Option (ClientSession C K)
  | .send env bytes =>
    let (frame, client) := s.client.enc wire.box bytes
    (s.hbbs.step cfg wire (.frame c env frame)).map fun hbbs => ⟨hbbs, client⟩
  | .other ev =>
    if ev.IsFrameOf c then none else (s.hbbs.step cfg wire ev).map fun hbbs => { s with hbbs }

/-- A client sends the same without a cipher. -/
def unsecured (cfg : HbbsConfig) (wire : HbbsWire K) (c : C) (s : SecuredHbbs C K) :
    ClientEvent C → Option (SecuredHbbs C K)
  | .send env bytes => s.step cfg wire (.frame c env bytes)
  | .other ev => if ev.IsFrameOf c then none else s.step cfg wire ev

/-! ## The connection -/

/-- What the read loop gets of a frame is what the client sealed in it. -/
def Opens (wire : HbbsWire K) (c : C) (s : ClientSession C K) : ClientEvent C → Prop
  | .send _ bytes => ∃ conn, s.hbbs.server.conn c = some conn ∧
    (s.hbbs.openFrame wire c conn (s.client.enc wire.box bytes).1).1 = some bytes
  | .other _ => True

/-- The client asks for a device. -/
def Asks (wire : HbbsWire K) : ClientEvent C → Prop
  | .send _ bytes => IsRequest (wire.parse bytes)
  | .other _ => False

/-- The client starts another `KeyExchange`. -/
def Rekeys (wire : HbbsWire K) : ClientEvent C → Prop
  | .send _ bytes => ∃ keys, wire.parse bytes = some (.keyExchange keys)
  | .other _ => False

/-- The client sends something. -/
def IsSent : ClientEvent C → Prop
  | .send _ _ => True
  | .other _ => False

/-- The two ciphers agree while the sink is with the connection. -/
def Synced (c : C) (s : ClientSession C K) (conn : Conn) : Prop :=
  s.hbbs.server.conn c = some conn ∧ conn.ws = false ∧
    (conn.hasSink = true → ∃ e, s.hbbs.encrypt c = some e ∧ e.key = s.client.key ∧
      e.recvSeq = s.client.sendSeq)

variable {cfg : HbbsConfig} {wire : HbbsWire K} {c : C} {s t : ClientSession C K} {conn : Conn}
  {env : HbbsEnv} {bytes : Bytes}

section

variable (hs : Synced c s conn) (hbox : wire.box.Correct)
include hs hbox

/-- With its sink, the connection opens what the client seals. -/
theorem Synced.openFrame (hsink : conn.hasSink = true)
    (bytes : Bytes) :
    ∃ e, s.hbbs.encrypt c = some e ∧ e.key = s.client.key ∧ e.recvSeq = s.client.sendSeq ∧
      s.hbbs.openFrame wire c conn (s.client.enc wire.box bytes).1 =
        (some bytes, Function.update s.hbbs.encrypt c (some { e with recvSeq := e.recvSeq + 1 })) := by
  obtain ⟨hconn, hws, hsync⟩ := hs
  obtain ⟨e, he, hkey, hseq⟩ := hsync hsink
  refine ⟨e, he, hkey, hseq, ?_⟩
  have hlength : 1 < (s.client.enc wire.box bytes).1.length := by
    rw [Encrypt.enc_fst, hbox.seal_length _ _ _ (getNonce_length _)]
    omega
  have hopen : wire.box.openBox (s.client.enc wire.box bytes).1 (getNonce (e.recvSeq + 1)) e.key = some bytes := by
    rw [Encrypt.enc_fst, hkey, hseq]
    exact hbox.open_seal _ _ _ (getNonce_length _)
  have hdec : e.dec wire.box (s.client.enc wire.box bytes).1 =
      (.ok bytes, { e with recvSeq := e.recvSeq + 1 }) := by
    rw [Encrypt.dec_long wire.box e hlength, hopen]
  have hsecured : conn.hasSink = true ∧ ¬ conn.ws = true := ⟨hsink, by simp [hws]⟩
  rw [SecuredHbbs.openFrame, if_pos hsecured, he]
  simp only [hdec]
  rfl

/-- Without it, what is sealed is not opened. -/
theorem Synced.not_opens (hsink : conn.hasSink = false) :
    ¬ Opens wire c s (.send env bytes) := by
  rintro ⟨conn', hconn', hopens⟩
  obtain rfl : conn' = conn := Option.some.inj (hconn'.symm.trans hs.1)
  simp only [SecuredHbbs.openFrame, hsink, Bool.false_eq_true, false_and, if_false, Option.some.injEq]
    at hopens
  have hlength := congrArg List.length hopens
  rw [Encrypt.enc_fst, hbox.seal_length _ _ _ (getNonce_length _)] at hlength
  omega

theorem Synced.opens_iff :
    Opens wire c s (.send env bytes) ↔ conn.hasSink = true := by
  constructor
  · intro hopens
    cases hsink : conn.hasSink with
    | true => rfl
    | false => exact absurd hopens (hs.not_opens hbox hsink)
  · intro hsink
    obtain ⟨e, -, -, -, hopen⟩ := hs.openFrame hbox hsink bytes
    exact ⟨conn, hs.1, by rw [hopen]⟩

end

/-! ### Steps -/

/-- A message of the client: its read loop goes on with the sink exactly if it had it and the client does
not ask for a device. -/
theorem Synced.step_send (hs : Synced c s conn) (hbox : wire.box.Correct) (hsink : conn.hasSink = true)
    (hkeys : ¬ Rekeys wire (.send env bytes : ClientEvent C))
    (hstep : secured cfg wire c s (.send env bytes) = some t) :
    (∃ conn', Synced c t conn' ∧ (conn'.hasSink = true ↔ ¬ Asks wire (.send env bytes : ClientEvent C))) ∧
      unsecured cfg wire c (s.hbbs.plain c) (.send env bytes) = some (t.hbbs.plain c) := by
  obtain ⟨e, he, hekey, heseq, hopen⟩ := hs.openFrame hbox hsink bytes
  obtain ⟨hconn, hws, -⟩ := hs
  -- the server's own step, with the frame opened
  let opened : SecuredHbbs C K :=
    ⟨s.hbbs.server, Function.update s.hbbs.encrypt c (some { e with recvSeq := e.recvSeq + 1 })⟩
  obtain ⟨hbbs, hhandle, rfl⟩ : ∃ hbbs, opened.handle cfg wire (.tcp c env (wire.parse bytes)) = some hbbs ∧
        ⟨hbbs, (s.client.enc wire.box bytes).2⟩ = t := by
    simp only [secured, SecuredHbbs.step, hconn, hopen] at hstep
    exact Option.map_eq_some_iff.mp hstep
  have hother : ∀ env' keys, HbbsEvent.tcp c env (wire.parse bytes) ≠
      .tcp c env' (some (.keyExchange keys)) :=
    fun _ keys h => hkeys ⟨keys, (HbbsEvent.tcp.inj h).2.2⟩
  constructor
  · obtain ⟨server, hserver, rfl⟩ := Option.map_eq_some_iff.mp hhandle
    obtain ⟨conn', hconn', hws', hsink'⟩ := Rendezvous.hasSink_step_tcp hserver hconn hws
    obtain ⟨e', he', hekey', heseq'⟩ := SecuredHbbs.ciphers_same wire
      (Rendezvous.setKey_notMem_effects hserver hother)
      (Function.update_self c (some { e with recvSeq := e.recvSeq + 1 }) s.hbbs.encrypt)
    refine ⟨conn', ⟨hconn', hws', fun _ => ⟨e', he', hekey'.trans hekey, ?_⟩⟩, ?_⟩
    · rw [heseq', heseq]
      rfl
    · rw [hsink', hsink]
      simp [Asks]
  · have hconn' : (s.hbbs.plain c).server.conn c = some conn := hconn
    have hopen' : (s.hbbs.plain c).openFrame wire c conn bytes = (some bytes, (s.hbbs.plain c).encrypt) :=
      SecuredHbbs.openFrame_of_none wire (Function.update_self ..) conn bytes
    have hplain : opened.plain c = s.hbbs.plain c :=
      congrArg (SecuredHbbs.mk s.hbbs.server) (Function.update_idem ..)
    simp only [unsecured, SecuredHbbs.step, hconn', hopen']
    show (s.hbbs.plain c).handle cfg wire _ = _
    rw [← hplain, SecuredHbbs.handle_plain cfg wire opened hother, hhandle]
    rfl

/-- What happens elsewhere leaves the sink and the cipher where they are, and is the same without the
cipher. -/
theorem Synced.step_other (hs : Synced c s conn) {ev : FrameEvent C}
    (hstep : secured cfg wire c s (.other ev) = some t) :
    (∃ conn', Synced c t conn' ∧ conn'.hasSink = conn.hasSink) ∧
      unsecured cfg wire c (s.hbbs.plain c) (.other ev) = some (t.hbbs.plain c) := by
  by_cases hframe : ev.IsFrameOf c
  · simp [secured, hframe] at hstep
  simp only [secured, if_neg hframe] at hstep
  obtain ⟨hbbs, hhbbs, rfl⟩ := Option.map_eq_some_iff.mp hstep
  constructor
  · obtain ⟨hconn, hws, hsync⟩ := hs
    obtain ⟨conn', hconn', hws', hsink', hcipher⟩ := SecuredHbbs.step_elsewhere hframe hhbbs hconn
    refine ⟨conn', ⟨hconn', hws'.trans hws, fun hsink => ?_⟩, hsink'⟩
    obtain ⟨e, he, hkey, hseq⟩ := hsync (hsink'.symm.trans hsink)
    obtain ⟨e', he', hkey', hseq'⟩ := hcipher e he
    exact ⟨e', he', hkey'.trans hkey, hseq'.trans hseq⟩
  · simp only [unsecured, if_neg hframe, SecuredHbbs.step_plain hframe, hhbbs]
    rfl

/-! ## Runs -/

/-- A step in which the read loop gets what was sealed, and a connection without a cipher does the
same. -/
def AsPlain (cfg : HbbsConfig) (wire : HbbsWire K) (c : C) (s : ClientSession C K) (ev : ClientEvent C)
    (t : ClientSession C K) : Prop :=
  secured cfg wire c s ev = some t ∧ Opens wire c s ev ∧
    unsecured cfg wire c (s.hbbs.plain c) ev = some (t.hbbs.plain c)

variable {u : ClientSession C K} {evs : List (ClientEvent C)} {ev : ClientEvent C}

theorem asPlain_cons (hstep : secured cfg wire c s ev = some u) : Run (AsPlain cfg wire c) s (ev :: evs) t ↔
      AsPlain cfg wire c s ev u ∧ Run (AsPlain cfg wire c) u evs t := by
  constructor
  · rintro (_ | ⟨hhead, hrest⟩)
    cases hhead.1.symm.trans hstep
    exact ⟨hhead, hrest⟩
  · rintro ⟨hhead, hrest⟩
    exact .cons hhead hrest

/-- Once the sink is gone, a run is as a plain one exactly if the client sends nothing more. -/
theorem asPlain_parked_iff (hbox : wire.box.Correct)
    (hrun : Run (Steps (secured cfg wire c)) s evs t) (hs : Synced c s conn)
    (hsink : conn.hasSink = false) :
    Run (AsPlain cfg wire c) s evs t ↔ ∀ ev ∈ evs, ¬ IsSent ev := by
  induction hrun generalizing conn with
  | nil => exact ⟨fun _ _ h => (by cases h), fun _ => .nil _⟩
  | @cons s u t ev evs hstep hrest ih =>
    rw [asPlain_cons hstep, List.forall_mem_cons]
    cases ev with
    | send env bytes =>
      constructor
      · rintro ⟨⟨-, hopens, -⟩, -⟩
        exact absurd hopens (hs.not_opens hbox hsink)
      · rintro ⟨hsent, -⟩
        exact absurd trivial hsent
    | other ev =>
      obtain ⟨⟨conn', hs', hsink'⟩, hplain⟩ := hs.step_other hstep
      rw [ih hs' (hsink'.trans hsink)]
      exact and_congr_left fun _ => ⟨fun _ h => h, fun _ => ⟨hstep, trivial, hplain⟩⟩

/-- With the sink, exactly if it sends nothing after it asked for a device. -/
theorem asPlain_iff (hbox : wire.box.Correct) (hrun : Run (Steps (secured cfg wire c)) s evs t)
    (hkeys : ∀ ev ∈ evs, ¬ Rekeys wire ev)
    (hs : Synced c s conn) (hsink : conn.hasSink = true) :
    Run (AsPlain cfg wire c) s evs t ↔ evs.Pairwise fun ev ev' => Asks wire ev → ¬ IsSent ev' := by
  induction hrun generalizing conn with
  | nil => exact ⟨fun _ => .nil, fun _ => .nil _⟩
  | @cons s u t ev evs hstep hrest ih =>
    rw [List.forall_mem_cons] at hkeys
    rw [asPlain_cons hstep, List.pairwise_cons]
    cases ev with
    | send env bytes =>
      obtain ⟨⟨conn', hs', hsink'⟩, hplain⟩ := hs.step_send hbox hsink hkeys.1 hstep
      have hhead : AsPlain cfg wire c s (.send env bytes) u := ⟨hstep, (hs.opens_iff hbox).mpr hsink, hplain⟩
      by_cases hasks : Asks wire (.send env bytes : ClientEvent C)
      · have hgone : conn'.hasSink = false := by simpa [hasks] using hsink'
        rw [asPlain_parked_iff hbox hrest hs' hgone]
        constructor
        · rintro ⟨-, hsilent⟩
          refine ⟨fun ev hev _ => hsilent ev hev, List.pairwise_of_forall_mem_list ?_⟩
          intro ev hev ev' hev' _
          exact hsilent ev' hev'
        · rintro ⟨hsilent, -⟩
          exact ⟨hhead, fun ev hev => hsilent ev hev hasks⟩
      · rw [ih hkeys.2 hs' (hsink'.mpr hasks)]
        constructor
        · rintro ⟨-, hrest⟩
          exact ⟨fun _ _ h => absurd h hasks, hrest⟩
        · rintro ⟨-, hrest⟩
          exact ⟨hhead, hrest⟩
    | other ev =>
      obtain ⟨⟨conn', hs', hsink'⟩, hplain⟩ := hs.step_other hstep
      rw [ih hkeys.2 hs' (hsink'.trans hsink)]
      constructor
      · rintro ⟨-, hrest⟩
        exact ⟨fun _ _ h => h.elim, hrest⟩
      · rintro ⟨-, hrest⟩
        exact ⟨⟨hstep, trivial, hplain⟩, hrest⟩

/-- A TCP connection completes the `KeyExchange`. -/
structure Exchanged (cfg : HbbsConfig) (wire : HbbsWire K) (c : C) (key : Bytes) (s t : SecuredHbbs C K) :
    Prop where
  conn : ∃ conn, s.server.conn c = some conn ∧ conn.ws = false ∧ conn.hasSink = true
  step : ∃ env bytes keys, s.encrypt c = none ∧ wire.parse bytes = some (.keyExchange keys) ∧
    Rendezvous.symmetricKey cfg keys = some key ∧ s.step cfg wire (.frame c env bytes) = some t

/-- The server then has the cipher of the client. -/
theorem Exchanged.synced {key : Bytes} {s t : SecuredHbbs C K} (h : Exchanged cfg wire c key s t) :
    ∃ conn, Synced c ⟨t, Encrypt.new (wire.keyOf key)⟩ conn ∧ conn.hasSink = true := by
  obtain ⟨⟨conn, hconn, hws, hsink⟩, env, bytes, keys, hnone, hparse, hkey, hstep⟩ := h
  have hlength : keys.length = 2 := by
    unfold Rendezvous.symmetricKey at hkey
    split at hkey
    · rfl
    · cases hkey
  have hhandled : s.server.handleTcp cfg env c conn (some (.keyExchange keys)) =
      ((s.server, [.setKey c key]), .continue) := by
    simp [Rendezvous.handleTcp, hlength, hkey, hsink]
  simp only [SecuredHbbs.step, hconn, SecuredHbbs.openFrame_of_none wire hnone, hparse] at hstep
  obtain ⟨server, hserver, rfl⟩ := Option.map_eq_some_iff.mp hstep
  obtain ⟨conn', hconn', hws', hsink'⟩ := Rendezvous.hasSink_step_tcp hserver hconn hws
  refine ⟨conn', ⟨hconn', hws', fun _ => ⟨Encrypt.new (wire.keyOf key), ?_, rfl, rfl⟩⟩, ?_⟩
  · simp only [Rendezvous.effects, hconn, hhandled, SecuredHbbs.ciphers, Function.update_self]
  · exact hsink'.mpr ⟨hsink, by simp [IsRequest]⟩

/-- **A secured connection handles what the client seals as a plain one handles it** exactly if the client
sends nothing after its first request for a device. What it sends is anything but another
`KeyExchange`. -/
theorem handled_as_plain_iff {key : Bytes} {s t : SecuredHbbs C K} {u : ClientSession C K}
    (hbox : wire.box.Correct) (hexchanged : Exchanged cfg wire c key s t)
    (hrun : Run (Steps (secured cfg wire c)) ⟨t, Encrypt.new (wire.keyOf key)⟩ evs u)
    (hkeys : ∀ ev ∈ evs, ¬ Rekeys wire ev) :
    Run (AsPlain cfg wire c) ⟨t, Encrypt.new (wire.keyOf key)⟩ evs u ↔
      evs.Pairwise fun ev ev' => Asks wire ev → ¬ IsSent ev' := by
  obtain ⟨conn, hs, hsink⟩ := hexchanged.synced
  exact asPlain_iff hbox hrun hkeys hs hsink

/-! ## Two requests -/

/-- A `KeyExchange` and a `RequestRelay` as they are on the wire. -/
def exampleExchange : Bytes :=
  [0xCA, 0x01, 84, 0x0A, 32] ++ List.replicate 32 1 ++ [0x0A, 48] ++ List.replicate 48 2

def exampleAsk : Bytes := [0x92, 0x01, 11, 0x0A, 9, 49, 50, 51, 52, 53, 54, 55, 56, 57]

def exampleHbbsWire : HbbsWire Unit where
  parse := fun bytes =>
    if bytes = exampleExchange then some (.keyExchange [.replicate 32 1, .replicate 48 2])
    else if bytes = exampleAsk then
      some (.requestRelay ⟨"123456789", "", [], "", false, "", .known .defaultConn, ""⟩)
    else none
  box := tagBox
  keyOf := fun _ => ()

def exampleBoxConfig : HbbsConfig := { exampleConfig with openBox := fun _ _ => some (.replicate 32 0) }

/-- A device is registered, and a client is connected. -/
def exampleConnected : SecuredHbbs ℕ Unit where
  server := (exec (Rendezvous.step exampleBoxConfig) (.start ⟨fun _ => none, .empty⟩ fun _ => .empty)
    Rendezvous.exampleStart).getD (.start ⟨fun _ => none, .empty⟩ fun _ => .empty)
  encrypt := fun _ => none

def exampleSecured : SecuredHbbs ℕ Unit :=
  (exampleConnected.step exampleBoxConfig exampleHbbsWire
    (.frame 0 Rendezvous.exampleHbbsEnv exampleExchange)).getD exampleConnected

def exampleSend : ClientEvent ℕ := .send Rendezvous.exampleHbbsEnv exampleAsk

theorem exampleExchanged :
    Exchanged exampleBoxConfig exampleHbbsWire 0 (.replicate 32 0) exampleConnected exampleSecured :=
  ⟨⟨_, rfl, rfl, rfl⟩, Rendezvous.exampleHbbsEnv, exampleExchange, _, rfl, rfl, rfl, rfl⟩

/-- The first request is opened and handled. -/
theorem first_as_plain :
    ∃ u, Run (AsPlain exampleBoxConfig exampleHbbsWire 0) ⟨exampleSecured, Encrypt.new ()⟩ [exampleSend] u := by
  obtain ⟨u, hexec⟩ : ∃ u, exec (secured exampleBoxConfig exampleHbbsWire 0)
    ⟨exampleSecured, Encrypt.new ()⟩ [exampleSend] = some u := ⟨_, rfl⟩
  have hkeys : ∀ ev ∈ [exampleSend], ¬ Rekeys exampleHbbsWire ev := by
    intro ev hev
    rw [List.mem_singleton] at hev
    subst hev
    rintro ⟨keys, hparse⟩
    cases hparse
  exact ⟨u, (handled_as_plain_iff tagBox_correct exampleExchanged (exec_eq_some_iff.mp hexec) hkeys).mpr
    (List.pairwise_singleton ..)⟩

/-- The second is not: what was sealed is taken for a message, and the connection is closed, where a
connection without a cipher sends the device a second request. -/
theorem second_as_sealed :
    Exchanged exampleBoxConfig exampleHbbsWire 0 (.replicate 32 0) exampleConnected exampleSecured ∧
      ∃ u v, exec (secured exampleBoxConfig exampleHbbsWire 0) ⟨exampleSecured, Encrypt.new ()⟩
          [exampleSend, exampleSend] = some u ∧
        exec (unsecured exampleBoxConfig exampleHbbsWire 0) (exampleSecured.plain 0)
          [exampleSend, exampleSend] = some v ∧
        u.hbbs.server.log.length + 1 = v.server.log.length ∧
        (u.hbbs.server.conn 0).map Conn.isOpen = some false ∧
        (v.server.conn 0).map Conn.isOpen = some true := by
  exact ⟨exampleExchanged, _, _, rfl, rfl, rfl, rfl, rfl⟩

end ClientSession

end RustDesk.Server
