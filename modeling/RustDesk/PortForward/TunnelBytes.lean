import RustDesk.PortForward.Tunnel

/-!
# Only tunnel bytes go through a tunnel

What either end wrote to its socket is the beginning of what the other one sent raw (`Sound`), in
every run that keeps quiet where the ends leave the framing (`only_tunnel_bytes`). The probes decide:
a host that waits for the reply to one is still in its loop when a client that went raw is heard
(`InLoop`). On a click on accept the host does not wait, and the reply ends up in the forwarded socket
(`reply_forwarded`).
-/

namespace RustDesk.PortForward.Tunnel

open Net Connection

variable {K : Type*} {p : Parsers} {box : SecretBox K} {b : Build} {letIn asked : Bool}
  {ms pendingToHost frames pending : List Bytes} {h h' : Host} {t t' : Tunnel K} {msg m reply : Bytes}
  {s s' r : FramedStream K} {env : Env}

/-! ## What is under way -/

/-- A login error or a probe. -/
def isChatter : Option Effect → Bool
  | some (.loginError ..) | some .testDelay => true
  | _ => false

/-- A login response that is no error. -/
def isLetIn : Option Effect → Bool
  | some (.loginResponse (.ok _)) => true
  | _ => false

/-- What is under way to a client that frames: login errors and probes, and behind them, once it is
let in, the login response. -/
def Answers (p : Parsers) (letIn : Bool) : List Bytes → Prop
  | [] => letIn = false
  | m :: ms =>
    isChatter (p.effect m) = true ∧ Answers p letIn ms ∨
      isLetIn (p.effect m) = true ∧ letIn = true ∧ ms = []

def probes (p : Parsers) (pending : List Bytes) : ℕ :=
  pending.countP fun m => decide (p.effect m = some .testDelay)

def replies (p : Parsers) (pending : List Bytes) : ℕ :=
  pending.countP fun m => isReply (p.message m)

/-- The first message under way that is no reply is a login request; there is one once the client
asked. -/
def Introduced (p : Parsers) (asked : Bool) (pending : List Bytes) : Prop :=
  match pending.find? fun m => !isReply (p.message m) with
  | none => asked = false
  | some m => isForwardRequest (p.message m) = true

theorem Answers.append (h : Answers p false ms) {more : List Bytes}
    (hmore : Answers p letIn more) : Answers p letIn (ms ++ more) := by
  induction ms with
  | nil => exact hmore
  | cons m ms ih =>
    obtain ⟨hm, hms⟩ | ⟨-, hletIn, -⟩ := h
    · exact .inl ⟨hm, ih hms⟩
    · exact absurd hletIn Bool.false_ne_true

theorem answers_chatter (h : ∀ m ∈ ms, isChatter (p.effect m) = true) : Answers p false ms := by
  induction ms with
  | nil => rfl
  | cons m ms ih =>
    rw [List.forall_mem_cons] at h
    exact .inl ⟨h.1, ih h.2⟩

/-- No login error or login response is a probe. -/
theorem probes_eq_zero (h : ∀ m ∈ ms, p.effect m ≠ some .testDelay) : probes p ms = 0 := by
  rw [probes, List.countP_eq_zero]
  simpa using h

theorem replies_cons (m : Bytes) (ms : List Bytes) :
    replies p (m :: ms) = replies p ms + if isReply (p.message m) then 1 else 0 := by
  rw [replies, List.countP_cons]
  rfl

theorem replies_append (ms more : List Bytes) :
    replies p (ms ++ more) = replies p ms + replies p more := List.countP_append

theorem probes_append (ms more : List Bytes) :
    probes p (ms ++ more) = probes p ms + probes p more := List.countP_append

theorem probes_cons (m : Bytes) (ms : List Bytes) :
    probes p (m :: ms) = probes p ms + if p.effect m = some .testDelay then 1 else 0 := by
  rw [probes, List.countP_cons]
  simp [probes]

/-! ## The invariant -/

/-- Nobody has asked the host for anything. -/
structure Unasked (p : Parsers) (h : Host) (asked : Bool) (pendingToHost : List Bytes) : Prop where
  authorized : h.conn.authorized = false
  lastLogin : Connection.lastLogin h.log = none
  introduced : Introduced p asked pendingToHost

theorem Unasked.still
    (hu : Unasked p h asked pendingToHost) (hs : Still h h') : Unasked p h' asked pendingToHost where
  authorized := hs.authorized.trans hu.authorized
  lastLogin := hs.lastLogin.trans hu.lastLogin
  introduced := hu.introduced

/-- A host in its loop, with what is under way. A client that went raw answered the probe that the
host still waits for. -/
structure InLoop (p : Parsers) (h : Host) (asked : Bool) (clientPhase : Phase)
    (pendingToHost pendingToClient : List Bytes) (sentByClient : Bytes) : Prop where
  running : h.isOpen = true
  forwarding : Forwarding h
  named : Named h ∨ Unasked p h asked pendingToHost
  waiting : h.conn.authorized = true → h.conn.lastTestDelay.isSome = true
  left : clientPhase = .raw ∨ sentByClient ≠ [] →
    h.conn.authorized = true ∧ replies p pendingToHost = 1
  probed : clientPhase = .framed →
    probes p pendingToClient + replies p pendingToHost
      = if h.conn.lastTestDelay.isSome then 1 else 0

/-- What a client that frames is to hear. A host that went raw has let it in, and waits for no reply. -/
structure Awaits (p : Parsers) (h : Host) (hostPhase : Phase) (letIn : Bool)
    (pendingToClient : List Bytes) (sentByHost : Bytes) : Prop where
  answers : Answers p letIn pendingToClient
  quiet : letIn = false → sentByHost = []
  framed : hostPhase = .framed → letIn = h.conn.authorized
  raw : hostPhase = .raw → letIn = true ∧ probes p pendingToClient = 0

/-- A message of a client that wants a port forward. -/
def isRequest (m : Option Message) : Bool := isReply m || isForwardRequest m || isCode m

/-- **The invariant** of a tunnel. -/
structure Sound (p : Parsers) (box : SecretBox K) (t : Tunnel K) : Prop where
  up : Flow box t.clientPhase t.hostPhase t.clientStream t.hostStream t.wireToHost t.pendingToHost
    t.sentByClient t.forwarded
  down : Flow box t.hostPhase t.clientPhase t.hostStream t.clientStream t.wireToClient
    t.pendingToClient t.sentByHost t.delivered
  requests : ∀ m ∈ t.pendingToHost, isRequest (p.message m) = true
  host : t.hostPhase = .framed → InLoop p t.host t.asked t.clientPhase t.pendingToHost
    t.pendingToClient t.sentByClient
  client : t.clientPhase = .framed →
    ∃ letIn, Awaits p t.host t.hostPhase letIn t.pendingToClient t.sentByHost

/-- What the invariant says in every phase. -/
structure Flows (p : Parsers) (box : SecretBox K) (t : Tunnel K) : Prop where
  up : Flow box t.clientPhase t.hostPhase t.clientStream t.hostStream t.wireToHost t.pendingToHost
    t.sentByClient t.forwarded
  down : Flow box t.hostPhase t.clientPhase t.hostStream t.clientStream t.wireToClient
    t.pendingToClient t.sentByHost t.delivered
  requests : ∀ m ∈ t.pendingToHost, isRequest (p.message m) = true

theorem Sound.flows (h : Sound p box t) : Flows p box t := ⟨h.up, h.down, h.requests⟩

/-- The invariant is what the claim of a tunnel says, and more. -/
theorem Sound.faithful (h : Sound p box t) : t.Faithful where
  forwarded := h.up.written_prefix
  delivered := h.down.written_prefix
  all_forwarded hraw hbuf hwire := by
    obtain ⟨-, -, -, hsent⟩ := h.up.raw_receiver hraw
    rwa [hbuf, hwire, List.append_nil, List.append_nil] at hsent
  all_delivered hraw hbuf hwire := by
    obtain ⟨-, -, -, hsent⟩ := h.down.raw_receiver hraw
    rwa [hbuf, hwire, List.append_nil, List.append_nil] at hsent

/-! ## Sending -/

/-- Sending touches neither what is read nor how it is opened. -/
theorem sendRaw_reading {frame : Bytes} (hsend : s.sendRaw box msg = (.ok frame, s')) :
    s'.codec = s.codec ∧ s'.readBuf = s.readBuf ∧ Flow.opener s' = Flow.opener s := by
  unfold FramedStream.sendRaw at hsend
  split at hsend
  next key hkey =>
    have hs' := (Prod.mk.inj hsend).2
    subst hs'
    exact ⟨rfl, rfl, by simp [Flow.opener, hkey]⟩
  · have hs' := (Prod.mk.inj hsend).2
    subst hs'
    exact ⟨rfl, rfl, rfl⟩

theorem sendAll_reading {bytes : Bytes} (hsend : sendAll box s frames = some (bytes, s')) :
    s'.codec = s.codec ∧ s'.readBuf = s.readBuf ∧ Flow.opener s' = Flow.opener s := by
  induction frames generalizing s bytes with
  | nil =>
    cases hsend
    exact ⟨rfl, rfl, rfl⟩
  | cons m ms ih =>
    rw [sendAll] at hsend
    split at hsend
    next frame s₁ hfirst =>
      obtain ⟨⟨rest, s₂⟩, hrest, heq⟩ := Option.map_eq_some_iff.mp hsend
      cases heq
      obtain ⟨hcodec, hbuf, hopener⟩ := sendRaw_reading hfirst
      obtain ⟨hcodec', hbuf', hopener'⟩ := ih hrest
      exact ⟨hcodec'.trans hcodec, hbuf'.trans hbuf, hopener'.trans hopener⟩
    · cases hsend

/-- Sending messages puts them under way, while the other end does not take them for raw bytes. -/
theorem flow_sendAll {rPhase : Phase} {wire : Bytes} {sent written : Bytes} {bytes : Bytes}
    (h : Flow box .framed rPhase s r wire pending sent written)
    (hrecv : frames ≠ [] → rPhase ≠ .raw) (hsend : sendAll box s frames = some (bytes, s')) :
    Flow box .framed rPhase s' r (wire ++ bytes) (pending ++ frames) sent written := by
  induction frames generalizing s bytes wire pending with
  | nil =>
    cases hsend
    rw [List.append_nil, List.append_nil]
    exact h
  | cons m ms ih =>
    rw [sendAll] at hsend
    split at hsend
    next frame s₁ hfirst =>
      obtain ⟨⟨rest, s₂⟩, hrest, heq⟩ := Option.map_eq_some_iff.mp hsend
      cases heq
      have hmore := h.send (hrecv (List.cons_ne_nil _ _)) hfirst
      rw [← List.append_assoc, List.append_cons]
      exact ih hmore (fun _ => hrecv (List.cons_ne_nil _ _)) hrest
    · cases hsend

/-- The client sends a message, to a host that does not take it for raw bytes. -/
theorem clientSend_flow (h : t.clientSend box msg = some t')
    (hframed : t.clientPhase = .framed) (hrecv : t.hostPhase ≠ .raw) (hflows : Flows p box t) :
    ∃ s wire, t' = { t with
        clientStream := s, wireToHost := wire, pendingToHost := t.pendingToHost ++ [msg] } ∧
      Flow box t.clientPhase t.hostPhase s t.hostStream wire (t.pendingToHost ++ [msg])
        t.sentByClient t.forwarded ∧
      Flow box t.hostPhase t.clientPhase t.hostStream s t.wireToClient t.pendingToClient
        t.sentByHost t.delivered := by
  obtain ⟨hup, hdown, -⟩ := hflows
  unfold clientSend at h
  split at h
  next frame s hsend =>
    cases h
    obtain ⟨hcodec, hbuf, hopener⟩ := sendRaw_reading hsend
    rw [hframed] at hup ⊢
    rw [hframed] at hdown
    exact ⟨s, _, rfl, hup.send hrecv hsend, hdown.receiver_congr hcodec hbuf hopener⟩
  · cases h

/-! ## Turns of the host -/

/-- **A turn of the host keeps the invariant**, if it sends what a client that frames may hear, and
leaves the loop for the forwarding only when nothing framed is to come. -/
theorem sound_hostTurn (hflows : Flows p box t)
    (hframed : t.hostPhase = .framed) (hturn : t.hostTurn p box h' frames = some t')
    (hheard : frames ≠ [] → t.clientPhase ≠ .raw)
    (hanswers : t.clientPhase = .framed → Answers p h'.conn.authorized (t.pendingToClient ++ frames))
    (hstays : h'.isOpen = true → InLoop p h' t.asked t.clientPhase t.pendingToHost
      (t.pendingToClient ++ frames) t.sentByClient)
    (hleaves : h'.isOpen = false → leaves t.host h' = true → t.pendingToHost = [] ∧ (t.clientPhase = .framed →
        h'.conn.authorized = true ∧ probes p (t.pendingToClient ++ frames) = 0)) :
    Sound p box t' := by
  obtain ⟨hup, hdown, hrequests⟩ := hflows
  unfold hostTurn at hturn
  split at hturn
  swap
  · cases hturn
  obtain ⟨⟨bytes, s⟩, hsend, heq⟩ := Option.map_eq_some_iff.mp hturn
  obtain ⟨hcodec, hbuf, hopener⟩ := sendAll_reading hsend
  rw [hframed] at hup hdown
  have hdown' := flow_sendAll hdown hheard hsend
  have hup' := hup.receiver_congr hcodec hbuf hopener
  have hsent : t.sentByHost = [] := (hdown.framed_sender rfl).2
  dsimp only at heq
  split at heq
  next hopen =>
    subst heq
    refine ⟨?_, ?_, hrequests, fun _ => hstays hopen, fun hc => ⟨_, hanswers hc, fun _ => hsent,
      fun _ => rfl, ?_⟩⟩
    · dsimp only
      rw [hframed]
      exact hup'
    · dsimp only
      rw [hframed]
      exact hdown'
    · dsimp only
      rw [hframed]
      exact nofun
  next hopen =>
    rw [Bool.not_eq_true] at hopen
    split at heq
    next hgoes =>
      subst heq
      obtain ⟨hnone, hletIn⟩ := hleaves hopen hgoes
      refine ⟨?_, hdown'.sender_setRaw, hrequests, nofun, fun hc => ⟨_, hanswers hc, fun _ => hsent,
        nofun, fun _ => hletIn hc⟩⟩
      rw [hnone] at hup' ⊢
      exact hup'.receiver_setRaw
    · subst heq
      exact ⟨hup'.receiver_ended, hdown'.sender_ended, hrequests, nofun,
        fun hc => ⟨_, hanswers hc, fun _ => hsent, nofun, nofun⟩⟩

theorem hostTurn_frames (hturn : t.hostTurn p box h' frames = some t') :
    frames.map p.effect = (sentToPeer t.host h').map some := by
  unfold hostTurn at hturn
  split at hturn
  · assumption
  · cases hturn

theorem effect_of_mem {sent : List Effect} (h : frames.map p.effect = sent.map some) (hm : m ∈ frames) :
    ∃ e ∈ sent, p.effect m = some e := by
  have hmem := List.mem_map_of_mem (f := p.effect) hm
  rw [h] at hmem
  obtain ⟨e, he, heq⟩ := List.mem_map.mp hmem
  exact ⟨e, he, heq.symm⟩

/-- The frames of login errors. -/
theorem errors_chatter {errs : List Effect}
    (h : frames.map p.effect = errs.map some) (herrs : ∀ e ∈ errs, isLoginError e = true) :
    Answers p false frames ∧ probes p frames = 0 := by
  constructor
  · refine answers_chatter fun m hm => ?_
    obtain ⟨e, he, heq⟩ := effect_of_mem h hm
    have herr := herrs e he
    rw [heq]
    cases e <;> first | rfl | cases herr
  · refine probes_eq_zero fun m hm heq => ?_
    obtain ⟨e, he, heq'⟩ := effect_of_mem h hm
    cases heq'.symm.trans heq
    exact Bool.false_ne_true (herrs _ he)

/-- **A turn of a host that is not authorized yet** keeps the invariant, if nothing of the client is
under way and no probe unanswered when it leaves for the forwarding. -/
theorem sound_turn (hflows : Flows p box t)
    (hframed : t.hostPhase = .framed) (hraw : t.clientPhase ≠ .raw) (hsent : t.sentByClient = [])
    (hprobed : t.clientPhase = .framed → probes p t.pendingToClient + replies p t.pendingToHost
      = if t.host.conn.lastTestDelay.isSome then 1 else 0)
    (hanswers : t.clientPhase = .framed → Answers p false t.pendingToClient)
    (hturn : t.hostTurn p box h' frames = some t')
    (ht : Turn t.host h' (sentToPeer t.host h')) (hnamed : Named h')
    (hquiet : h'.conn.authorized = true → h'.isOpen = false → leaves t.host h' = true →
      h'.conn.lastTestDelay = none ∧ t.pendingToHost = []) : Sound p box t' := by
  have hframes := hostTurn_frames hturn
  have hnever : ¬ (t.clientPhase = .raw ∨ t.sentByClient ≠ []) := by simp [hraw, hsent]
  cases ht with
  | refused hf hauth hdelay herrs =>
    obtain ⟨hmore, hzero⟩ := errors_chatter hframes herrs
    refine sound_hostTurn hflows hframed hturn (fun _ => hraw) ?_ ?_ ?_
    · intro hc
      rw [hauth]
      exact (hanswers hc).append hmore
    · intro hopen
      refine ⟨hopen, hf, .inl hnamed, fun hnow => ?_, fun hleft => absurd hleft hnever, fun hc => ?_⟩
      · exact absurd (hauth.symm.trans hnow) Bool.false_ne_true
      · rw [probes_append, hzero, hdelay, Nat.add_zero]
        exact hprobed hc
    · intro hclosed hgoes
      -- it has no socket to go on with
      have hsocket : h'.conn.portForwardSocket.isSome = false := hf.socket.trans hauth
      rw [leaves, hsocket, Bool.and_false, Bool.false_and] at hgoes
      exact absurd hgoes Bool.false_ne_true
  | opened errs hf hauth hdelay herrs hsentToPeer hwait =>
    rw [hsentToPeer, List.map_append] at hframes
    obtain ⟨fs, last, rfl, hfs, hlast⟩ := List.map_eq_append_iff.mp hframes
    obtain ⟨m, rfl, hm⟩ := List.map_eq_singleton_iff.mp hlast
    obtain ⟨hmore, hzero⟩ := errors_chatter hfs herrs
    have hletIn : Answers p true [m] := .inr ⟨by rw [hm]; rfl, rfl, rfl⟩
    have hnone : probes p [m] = 0 := by
      refine probes_eq_zero fun m' hm' => ?_
      rw [List.mem_singleton.mp hm', hm]
      exact fun h => nomatch Option.some.inj h
    have hall : probes p (t.pendingToClient ++ (fs ++ [m])) = probes p t.pendingToClient := by
      rw [probes_append, probes_append, hzero, hnone, Nat.add_zero]
    refine sound_hostTurn hflows hframed hturn (fun _ => hraw) ?_ ?_ ?_
    · intro hc
      rw [hauth]
      exact (hanswers hc).append (hmore.append hletIn)
    · intro hopen
      refine ⟨hopen, hf, .inl hnamed, fun _ => hwait hopen, fun hleft => absurd hleft hnever,
        fun hc => ?_⟩
      rw [hall, hdelay]
      exact hprobed hc
    · intro hclosed hgoes
      obtain ⟨hdone, hempty⟩ := hquiet hauth hclosed hgoes
      refine ⟨hempty, fun hc => ⟨hauth, ?_⟩⟩
      have hcount := hprobed hc
      rw [← hdelay, hdone] at hcount
      rw [hall]
      simp only [Option.isSome_none, Bool.false_eq_true, if_false] at hcount
      omega

/-- A turn in which nothing is sent. -/
theorem hostTurn_nothing (hturn : t.hostTurn p box h' frames = some t') (hsent : sentToPeer t.host h' = []) :
    frames = [] := by
  have hframes := hostTurn_frames hturn
  rw [hsent] at hframes
  exact List.map_eq_nil_iff.mp hframes

/-- What a client that frames is to hear from a host in its loop. -/
theorem Sound.answers (h : Sound p box t) (hframed : t.hostPhase = .framed)
    (hc : t.clientPhase = .framed) : Answers p t.host.conn.authorized t.pendingToClient := by
  obtain ⟨letIn, haw⟩ := h.client hc
  rw [← haw.framed hframed]
  exact haw.answers

/-- A client that a host in its loop has not let in has sent nothing raw. -/
theorem InLoop.not_left {clientPhase : Phase} {pendingToClient : List Bytes} {sentByClient : Bytes}
    (hin : InLoop p h asked clientPhase pendingToHost pendingToClient sentByClient)
    (hauth : h.conn.authorized = false) : clientPhase ≠ .raw ∧ sentByClient = [] := by
  constructor
  · intro hraw
    exact absurd (hauth.symm.trans (hin.left (.inl hraw)).1) Bool.false_ne_true
  · by_contra hsent
    exact absurd (hauth.symm.trans (hin.left (.inr hsent)).1) Bool.false_ne_true

/-- **The timer** keeps the invariant. -/
theorem sound_timer (h : Sound p box t)
    (hstep : t.onHostEvent p box b (.testDelayTimer env) frames = some t') : Sound p box t' := by
  unfold onHostEvent at hstep
  split at hstep
  swap
  · cases hstep
  next hframed =>
    obtain ⟨h', hturn', hturn⟩ := Option.bind_eq_some_iff.mp hstep
    have hin := h.host hframed
    obtain ⟨hstill, hopen, hsaid⟩ := turn_timer hin.forwarding hturn'
    have hnamed : Named h' ∨ Unasked p h' t.asked t.pendingToHost :=
      hin.named.imp hstill.named fun hu => hu.still hstill
    have hgoes {P : Prop} : h'.isOpen = false → P := fun hclosed =>
      absurd (hclosed.symm.trans (hopen.trans hin.running)) Bool.false_ne_true
    obtain ⟨hnone, hdelay⟩ | ⟨hone, hdelay, hprobe, hauth⟩ := hsaid
    · obtain rfl := hostTurn_nothing hturn hnone
      refine sound_hostTurn h.flows hframed hturn (fun hne => absurd rfl hne) ?_ ?_
        fun hclosed => hgoes hclosed
      · intro hc
        rw [List.append_nil, hstill.authorized]
        exact h.answers hframed hc
      · intro hrun
        rw [List.append_nil]
        refine ⟨hrun, hstill.forwarding, hnamed, ?_, ?_, ?_⟩
        · rw [hstill.authorized, hdelay]
          exact hin.waiting
        · rw [hstill.authorized]
          exact hin.left
        · rw [hdelay]
          exact hin.probed
    · obtain ⟨hraw, hsent⟩ := hin.not_left hauth
      have hframes := hostTurn_frames hturn
      rw [hone] at hframes
      obtain ⟨m, rfl, hm⟩ := List.map_eq_singleton_iff.mp hframes
      have hauth' : h'.conn.authorized = false := hstill.authorized.trans hauth
      refine sound_hostTurn h.flows hframed hturn (fun _ => hraw) ?_ ?_
        fun hclosed => hgoes hclosed
      · intro hc
        have hanswers := h.answers hframed hc
        rw [hauth] at hanswers
        rw [hauth']
        exact hanswers.append (.inl ⟨by rw [hm]; rfl, rfl⟩)
      · intro hrun
        refine ⟨hrun, hstill.forwarding, hnamed, fun hnow => ?_, fun hleft => ?_, fun hc => ?_⟩
        · exact absurd (hauth'.symm.trans hnow) Bool.false_ne_true
        · exact absurd hleft (by simp [hraw, hsent])
        · have hcount := hin.probed hc
          rw [hdelay] at hcount
          simp only [Option.isSome_none, Bool.false_eq_true, if_false] at hcount
          have hm' : probes p [m] = 1 := by simp [probes, hm]
          rw [probes_append, hm', hprobe, if_pos rfl]
          omega

/-- **A click** keeps the invariant, if it is quiet. -/
theorem sound_click (h : Sound p box t)
    (hquiet : Quiet p box b t (.click env frames)) (hlogin : (lastLogin t.host.log).isSome)
    (hstep : t.onHostEvent p box b (.authorize env) frames = some t') : Sound p box t' := by
  unfold onHostEvent at hstep
  split at hstep
  swap
  · cases hstep
  next hframed =>
    obtain ⟨h', hturn', hturn⟩ := Option.bind_eq_some_iff.mp hstep
    have hin := h.host hframed
    have hnamed : Named t.host := by
      refine hin.named.resolve_right fun hnone => ?_
      rw [hnone.lastLogin] at hlogin
      cases hlogin
    cases hauth : t.host.conn.authorized with
    | true =>
      -- it leaves the loop while it waits for a reply
      obtain ⟨hnone, hclosed, hsocket⟩ := turn_click_late hin.forwarding hauth hturn'
      have hgoes : leaves t.host h' = true := by
        rw [leaves, hnone, hclosed, hsocket]
        rfl
      have hwait := hin.waiting hauth
      rw [(hquiet h' hturn' hgoes).1] at hwait
      cases hwait
    | false =>
      obtain ⟨hraw, hsent⟩ := hin.not_left hauth
      obtain ⟨ht, hnamed', -⟩ := turn_authorize hin.forwarding hnamed hauth hturn'
      refine sound_turn h.flows hframed hraw hsent hin.probed ?_ hturn ht hnamed' ?_
      · intro hc
        have hanswers := h.answers hframed hc
        rwa [hauth] at hanswers
      · intro hnow _ hgoes
        obtain ⟨hdone, hempty⟩ := hquiet h' hturn' hgoes
        have hdelay : h'.conn.lastTestDelay = t.host.conn.lastTestDelay := by cases ht <;> assumption
        exact ⟨hdelay.trans hdone, hempty⟩

/-- A message that the host takes off the stream, with the invariant up to its turn. -/
theorem sound_hostMessage {msg : Message} (hflows : Flows p box t) (hframed : t.hostPhase = .framed)
    (hin : InLoop p t.host t.asked t.clientPhase (m :: t.pendingToHost) t.pendingToClient
      t.sentByClient)
    (hanswers : t.clientPhase = .framed → Answers p t.host.conn.authorized t.pendingToClient)
    (hm : isRequest (p.message m) = true) (hmsg : p.message m = some msg)
    (hlate : t.host.conn.authorized = true → isCode (some msg) = true →
      allowOption2bool (env.option "allow-scope-violation-close") = false)
    (hquiet : ∀ h', Connection.step b t.host (.message env msg) = some h' → leaves t.host h' = true →
      t.pendingToHost = [])
    (hstep : (Connection.step b t.host (.message env msg)).bind (t.hostTurn p box · frames)
      = some t') : Sound p box t' := by
  obtain ⟨h', hturn', hturn⟩ := Option.bind_eq_some_iff.mp hstep
  cases hreply : isReply (p.message m) with
  | true =>
    have hcount : replies p (m :: t.pendingToHost) = replies p t.pendingToHost + 1 := by
      rw [replies_cons, hreply, if_pos rfl]
    have hintro : Introduced p t.asked (m :: t.pendingToHost) ↔ Introduced p t.asked t.pendingToHost := by
      unfold Introduced
      rw [List.find?_cons_of_neg (by simp [hreply])]
    obtain rfl : msg = .testDelay false := Option.some.inj (hmsg.symm.trans (by simpa [isReply] using hreply))
    obtain ⟨hnone, hstill, hdone, hopen⟩ := turn_reply hin.running hin.forwarding hturn'
    obtain rfl := hostTurn_nothing hturn hnone
    refine sound_hostTurn hflows hframed hturn (fun hne => absurd rfl hne) ?_ ?_ ?_
    · intro hc
      rw [List.append_nil, hstill.authorized]
      exact hanswers hc
    · intro hrun
      have hauth : t.host.conn.authorized = false := by simpa [hrun] using hopen.symm
      obtain ⟨hraw, hsent⟩ := hin.not_left hauth
      have hnamed : Named h' ∨ Unasked p h' t.asked t.pendingToHost :=
        hin.named.imp hstill.named fun hu =>
          ⟨(hu.still hstill).authorized, (hu.still hstill).lastLogin, hintro.mp hu.introduced⟩
      refine ⟨hrun, hstill.forwarding, hnamed, fun hnow => ?_, fun hleft => ?_, fun hc => ?_⟩
      · exact absurd ((hstill.authorized.trans hauth).symm.trans hnow) Bool.false_ne_true
      · exact absurd hleft (by simp [hraw, hsent])
      · have hprobed := hin.probed hc
        rw [List.append_nil, hdone]
        simp only [Option.isSome_none, Bool.false_eq_true, if_false]
        split at hprobed <;> omega
    · intro hclosed hgoes
      have hauth : t.host.conn.authorized = true := by simpa [hclosed] using hopen.symm
      refine ⟨hquiet h' hturn' hgoes, fun hc => ⟨hstill.authorized.trans hauth, ?_⟩⟩
      have hprobed := hin.probed hc
      rw [List.append_nil]
      split at hprobed <;> omega
  | false =>
    have hcount : replies p (m :: t.pendingToHost) = replies p t.pendingToHost := by
      rw [replies_cons, hreply]
      rfl
    have hkind : isForwardRequest (some msg) = true ∨ isCode (some msg) = true := by
      simpa [isRequest, hmsg ▸ hreply, hmsg] using hm
    have hnamed : isCode (some msg) = true → Named t.host := by
      intro hcode
      refine hin.named.resolve_right fun hu => ?_
      have hintro := hu.introduced
      unfold Introduced at hintro
      rw [List.find?_cons_of_pos (by simp [hreply])] at hintro
      dsimp only at hintro
      rw [hmsg] at hintro
      cases msg with
      | auth2fa _ => exact Bool.false_ne_true hintro
      | _ => exact Bool.false_ne_true hcode
    cases hauth : t.host.conn.authorized with
    | true =>
      have hwait := hin.waiting hauth
      have hsame : h' = t.host := by
        refine turn_late hin.running hin.forwarding hauth hwait ?_ hturn'
        cases msg with
        | loginRequest lr => exact .inl ⟨lr, rfl⟩
        | auth2fa tfa => exact .inr ⟨⟨tfa, rfl⟩, hlate hauth rfl⟩
        | _ => simp [isForwardRequest, isCode] at hkind
      rw [hsame] at hturn
      obtain rfl := hostTurn_nothing hturn (sentToPeer_eq (List.append_nil _).symm)
      have hnamed : Named t.host := hin.named.resolve_right fun hu =>
        Bool.false_ne_true (hu.authorized.symm.trans hauth)
      refine sound_hostTurn hflows hframed hturn (fun hne => absurd rfl hne) ?_ ?_
        fun hclosed => absurd (hclosed.symm.trans hin.running) Bool.false_ne_true
      · rw [List.append_nil]
        exact hanswers
      · rw [List.append_nil]
        exact fun hrun => ⟨hrun, hin.forwarding, .inl hnamed, hin.waiting,
          by rw [← hcount]; exact hin.left, by rw [← hcount]; exact hin.probed⟩
    | false =>
      obtain ⟨hraw, hsent⟩ := hin.not_left hauth
      obtain ⟨ht, hnamed', hdone⟩ : Turn t.host h' (sentToPeer t.host h') ∧ Named h' ∧
          (h'.conn.authorized = true → h'.isOpen = false → h'.conn.lastTestDelay = none) := by
        cases msg with
        | loginRequest lr =>
          obtain ⟨pf, hpf⟩ : ∃ pf, lr.union = some (.portForward pf) := by
            have hforward := hkind.resolve_right nofun
            simp only [isForwardRequest] at hforward
            split at hforward
            next pf hpf => exact ⟨pf, hpf⟩
            · cases hforward
          exact turn_login hpf hin.forwarding hauth hin.running hturn'
        | auth2fa tfa => exact turn_auth2fa hin.forwarding (hnamed rfl) hauth hin.running hturn'
        | _ => simp [isForwardRequest, isCode] at hkind
      refine sound_turn hflows hframed hraw hsent ?_ ?_ hturn ht hnamed' ?_
      · rw [← hcount]
        exact hin.probed
      · intro hc
        have hanswers := hanswers hc
        rwa [hauth] at hanswers
      · exact fun hnow hclosed hgoes => ⟨hdone hnow hclosed, hquiet h' hturn' hgoes⟩

/-- **A poll of the host** keeps the invariant, if it is quiet. -/
theorem sound_hostNext (hbox : box.Correct) (h : Sound p box t) (hquiet : Quiet p box b t (.hostNext env frames))
    (hstep : t.onHostNext p box b env frames = some t') : Sound p box t' := by
  obtain ⟨hup, hdown, hrequests, hhost, hclient⟩ := h
  obtain ⟨host, hostPhase, hostStream, clientPhase, clientStream, asked, buffer, wireToHost,
    wireToClient, pendingToHost, pendingToClient, sentByClient, sentByHost, forwarded,
    delivered⟩ := t
  cases hostPhase with
  | ended => simp [onHostNext] at hstep
  | raw =>
    obtain hpoll | ⟨hpoll, hup'⟩ := hup.poll_raw
    · simp only [onHostNext, hpoll] at hstep
      cases hstep
      exact ⟨hup, hdown, hrequests, hhost, hclient⟩
    · simp only [onHostNext, hpoll] at hstep
      cases hstep
      exact ⟨hup', hdown.sender_congr rfl rfl, hrequests, nofun, hclient⟩
  | framed =>
    have hin := hhost rfl
    have hanswers (hc : clientPhase = .framed) : Answers p host.conn.authorized pendingToClient := by
      obtain ⟨letIn, haw⟩ := hclient hc
      rw [← haw.framed rfl]
      exact haw.answers
    have hsender {r' : FramedStream K} (hraw : r'.codec.raw = false) :
        r'.codec.raw = hostStream.codec.raw := hraw.trans (hdown.framed_sender rfl).1.symm
    cases pendingToHost with
    | nil =>
      -- a client that went raw has its reply under way
      have hsent : sentByClient = [] := by
        by_contra hne
        exact absurd (hin.left (.inr hne)).2 Nat.zero_ne_one
      rw [hsent] at hup
      simp only [onHostNext, hup.poll_nil] at hstep
      cases hstep
      exact ⟨hsent ▸ hup, hdown, hrequests, hhost, hclient⟩
    | cons m ms =>
      obtain ⟨r', hraw, hsealer, ⟨hpoll, hup'⟩ | ⟨hpoll, hup'⟩⟩ := hup.poll hbox
      · simp only [onHostNext, hpoll] at hstep
        cases hstep
        exact ⟨hup', hdown.sender_congr (hsender hraw) hsealer, hrequests, hhost, hclient⟩
      · rw [List.forall_mem_cons] at hrequests
        obtain ⟨msg, hmsg⟩ : ∃ msg, p.message m = some msg := by
          cases hnone : p.message m with
          | some msg => exact ⟨msg, rfl⟩
          | none => simp [isRequest, isReply, isForwardRequest, isCode, hnone] at hrequests
        obtain ⟨hlate, hempty⟩ := hquiet rfl m r' msg hpoll hmsg
        simp only [onHostNext, hpoll, hmsg, List.tail_cons] at hstep
        exact sound_hostMessage (t := ⟨host, .framed, r', clientPhase, clientStream, asked, buffer,
          wireToHost, wireToClient, ms, pendingToClient, sentByClient, sentByHost, forwarded,
          delivered⟩) ⟨hup', hdown.sender_congr (hsender hraw) hsealer, hrequests.2⟩ rfl hin hanswers
          hrequests.1 hmsg hlate hempty hstep

/-! ## Turns of the client -/

/-- A request of the client goes behind what is under way, to a host in its loop. -/
theorem InLoop.request {pendingToClient : List Bytes} {sentByClient : Bytes}
    (hin : InLoop p h asked .framed pendingToHost pendingToClient sentByClient) {asked' : Bool}
    (hreply : isReply (p.message msg) = false)
    (hintro : Introduced p asked pendingToHost → Introduced p asked' (pendingToHost ++ [msg])) :
    InLoop p h asked' .framed (pendingToHost ++ [msg]) pendingToClient sentByClient := by
  have hcount : replies p (pendingToHost ++ [msg]) = replies p pendingToHost := by
    rw [replies_append, replies_cons, hreply]
    rfl
  refine ⟨hin.running, hin.forwarding, ?_, hin.waiting, ?_, ?_⟩
  · exact hin.named.imp_right fun hu => ⟨hu.authorized, hu.lastLogin, hintro hu.introduced⟩
  · rw [hcount]
    exact hin.left
  · rw [hcount]
    exact hin.probed

theorem introduced_append
    (h : Introduced p asked pending) (hasked : asked = true) : Introduced p asked (pending ++ [m]) := by
  unfold Introduced at h ⊢
  rw [List.find?_append]
  cases hfirst : pending.find? fun m => !isReply (p.message m) with
  | none =>
    rw [hfirst] at h
    exact absurd (h.symm.trans hasked) Bool.false_ne_true
  | some first =>
    rw [hfirst] at h
    exact h

/-- **A login request or a code** of the client keeps the invariant, while the host is in its loop. -/
theorem sound_request {asked' : Bool} (h : Sound p box t)
    (hc : t.clientPhase = .framed) (hquiet : t.hostPhase = .framed)
    (hmsg : isForwardRequest (p.message msg) = true ∨ isCode (p.message msg) = true)
    (hintro : Introduced p t.asked t.pendingToHost → Introduced p asked' (t.pendingToHost ++ [msg]))
    (hsend : { t with asked := asked' }.clientSend box msg = some t') : Sound p box t' := by
  have hreply : isReply (p.message msg) = false := by
    cases hm : p.message msg with
    | none => rfl
    | some m =>
      rw [hm] at hmsg
      cases m <;> first | rfl | simp [isForwardRequest, isCode] at hmsg
  obtain ⟨s, wire, rfl, hup, hdown⟩ := clientSend_flow hsend hc
    (by dsimp only; rw [hquiet]; exact nofun) (Flows.mk h.up h.down h.requests)
  refine ⟨hup, hdown, ?_, fun hf => ?_, h.client⟩
  · intro m hm
    obtain hold | hnew := List.mem_append.mp hm
    · exact h.requests m hold
    · rw [List.mem_singleton.mp hnew, isRequest]
      obtain hm | hm := hmsg <;> simp [hm]
  · dsimp only
    have hin := h.host hquiet
    rw [hc] at hin ⊢
    exact hin.request hreply hintro

theorem introduced_request (h : Introduced p asked pending) (hm : isForwardRequest (p.message m) = true) :
    Introduced p true (pending ++ [m]) := by
  unfold Introduced at h ⊢
  rw [List.find?_append]
  cases hfirst : pending.find? fun m => !isReply (p.message m) with
  | none =>
    have hreply : isReply (p.message m) = false := by
      cases hmsg : p.message m with
      | none => rfl
      | some msg =>
        rw [hmsg] at hm
        cases msg <;> first | rfl | cases hm
    rw [Option.none_or, List.find?_cons_of_pos (by simp [hreply])]
    exact hm
  | some first =>
    rw [hfirst] at h
    exact h

/-- **The end of the client's loop** keeps the invariant. -/
theorem sound_clientSetRaw (hup : Flow box t.clientPhase t.hostPhase t.clientStream t.hostStream t.wireToHost
      t.pendingToHost t.sentByClient t.forwarded)
    (hdown : Flow box t.hostPhase .framed t.hostStream t.clientStream t.wireToClient [] t.sentByHost
      t.delivered)
    (hpending : t.pendingToClient = [])
    (hrequests : ∀ m ∈ t.pendingToHost, isRequest (p.message m) = true)
    (hhost : t.hostPhase = .framed → InLoop p t.host t.asked .raw t.pendingToHost [] t.sentByClient) :
    Sound p box t.clientSetRaw := by
  refine ⟨hup.sender_setRaw.sendBytes t.buffer, ?_, hrequests, fun hf => ?_, nofun⟩
  · unfold clientSetRaw
    rw [hpending]
    exact hdown.receiver_setRaw
  · have hin := hhost hf
    unfold clientSetRaw
    rw [hpending]
    exact ⟨hin.running, hin.forwarding, hin.named, hin.waiting, fun _ => hin.left (.inl rfl), nofun⟩

/-- The client leaves without going raw. -/
theorem Sound.clientEnded (h : Sound p box t) : Sound p box { t with clientPhase := .ended } where
  up := h.up.sender_ended
  down := h.down.receiver_ended
  requests := h.requests
  host hf := by
    have hin := h.host hf
    exact ⟨hin.running, hin.forwarding, hin.named, hin.waiting,
      fun hleft => hin.left (.inr (hleft.resolve_left nofun)), nofun⟩
  client := nofun

/-- The host leaves without going raw. -/
theorem Sound.hostEnded (h : Sound p box t) : Sound p box { t with hostPhase := .ended } where
  up := h.up.receiver_ended
  down := h.down.sender_ended
  requests := h.requests
  host := nofun
  client hc := by
    obtain ⟨letIn, haw⟩ := h.client hc
    exact ⟨letIn, haw.answers, haw.quiet, nofun, nofun⟩

/-- **The reply to a probe** goes to a host that is still in its loop, or done with the stream. -/
theorem sound_reply (hflows : Flows p box t) (hc : t.clientPhase = .framed)
    (hhost : t.hostPhase = .framed → InLoop p t.host t.asked .framed t.pendingToHost
      (m :: t.pendingToClient) t.sentByClient)
    (haw : Awaits p t.host t.hostPhase letIn (m :: t.pendingToClient) t.sentByHost)
    (hrest : Answers p letIn t.pendingToClient) (hm : p.effect m = some .testDelay)
    (hreply : isReply (p.message reply) = true) (hsend : t.clientSend box reply = some t') :
    Sound p box t' := by
  have hprobe : probes p (m :: t.pendingToClient) = probes p t.pendingToClient + 1 := by
    rw [probes_cons, if_pos hm]
  have hrecv : t.hostPhase ≠ .raw := by
    intro hraw
    have hzero := (haw.raw hraw).2
    omega
  obtain ⟨s, wire, rfl, hup', hdown'⟩ := clientSend_flow hsend hc hrecv hflows
  refine ⟨hup', hdown', ?_, fun hf => ?_, fun _ => ⟨letIn, hrest, haw.quiet, haw.framed,
    fun hraw => absurd hraw hrecv⟩⟩
  · intro m' hm'
    obtain hold | hnew := List.mem_append.mp hm'
    · exact hflows.requests m' hold
    · rw [List.mem_singleton.mp hnew, isRequest, hreply]
      rfl
  · have hin := hhost hf
    have hcount : replies p (t.pendingToHost ++ [reply]) = replies p t.pendingToHost + 1 := by
      rw [replies_append, replies_cons, if_pos hreply]
      rfl
    have hprobed := hin.probed rfl
    refine ⟨hin.running, hin.forwarding, ?_, hin.waiting, fun hleft => ?_, fun _ => ?_⟩
    · refine hin.named.imp_right fun hu => ⟨hu.authorized, hu.lastLogin, ?_⟩
      have hintro := hu.introduced
      unfold Introduced at hintro ⊢
      rw [List.find?_append, List.find?_cons_of_neg (by simp [hreply]), List.find?_nil, Option.or_none]
      exact hintro
    · have hold := (hin.left (.inr (hleft.resolve_left (by simp [hc])))).2
      rw [hold] at hprobed
      split at hprobed <;> omega
    · dsimp only
      rw [hcount]
      omega

/-- A message that the client takes off the stream, with the invariant up to what it makes of it. -/
theorem sound_clientMessage {keep : Bool} (hflows : Flows p box t) (hc : t.clientPhase = .framed)
    (hhost : t.hostPhase = .framed → InLoop p t.host t.asked .framed t.pendingToHost
      (m :: t.pendingToClient) t.sentByClient)
    (haw : Awaits p t.host t.hostPhase letIn (m :: t.pendingToClient) t.sentByHost)
    (hstep : t.clientMessage p box keep reply m = some t') : Sound p box t' := by
  have ⟨hup, hdown, hrequests⟩ := hflows
  obtain ⟨hchatter, hrest⟩ | ⟨hlast, hletIn, hempty⟩ := haw.answers
  · cases hm : p.effect m with
    | none => simp [hm, isChatter] at hchatter
    | some e =>
      cases e with
      | loginError err devices =>
        have hprobe : probes p (m :: t.pendingToClient) = probes p t.pendingToClient := by
          rw [probes_cons, if_neg (by simp [hm]), Nat.add_zero]
        have hkept : Sound p box t := by
          refine ⟨hup, hdown, hrequests, fun hf => ?_, fun _ => ⟨letIn, hrest, haw.quiet, haw.framed,
            fun hraw => ?_⟩⟩
          · have hin := hhost hf
            rw [hc]
            exact ⟨hin.running, hin.forwarding, hin.named, hin.waiting, hin.left, hprobe ▸ hin.probed⟩
          · rw [← hprobe]
            exact haw.raw hraw
        simp only [clientMessage, hm] at hstep
        split at hstep
        · cases hstep
          exact hkept
        · cases hstep
          exact hkept.clientEnded
      | testDelay =>
        simp only [clientMessage, hm] at hstep
        split at hstep
        next hreply => exact sound_reply hflows hc hhost haw hrest hm hreply hstep
        · cases hstep
      | _ => simp [hm, isChatter] at hchatter
  · obtain ⟨type, hm⟩ : ∃ type, p.effect m = some (.loginResponse (.ok type)) := by
      unfold isLetIn at hlast
      split at hlast
      next type hm => exact ⟨type, hm⟩
      · cases hlast
    simp only [clientMessage, hm] at hstep
    cases hstep
    rw [hc, hempty] at hdown
    refine sound_clientSetRaw hup hdown hempty hrequests fun hf => ?_
    have hin := hhost hf
    have hauth : t.host.conn.authorized = true := (haw.framed hf).symm.trans hletIn
    have hprobed := hin.probed rfl
    rw [hempty, probes_cons, if_neg (by simp [hm]), if_pos (hin.waiting hauth)] at hprobed
    have hone : replies p t.pendingToHost = 1 := by simpa [probes] using hprobed
    exact ⟨hin.running, hin.forwarding, hin.named, hin.waiting, fun _ => ⟨hauth, hone⟩, nofun⟩

/-- **A poll of the client** keeps the invariant. -/
theorem sound_clientNext (hbox : box.Correct) {keep : Bool}
    (h : Sound p box t) (hstep : t.onClientNext p box keep reply = some t') : Sound p box t' := by
  obtain ⟨hup, hdown, hrequests, hhost, hclient⟩ := h
  obtain ⟨host, hostPhase, hostStream, clientPhase, clientStream, asked, buffer, wireToHost,
    wireToClient, pendingToHost, pendingToClient, sentByClient, sentByHost, forwarded,
    delivered⟩ := t
  cases clientPhase with
  | ended => simp [onClientNext] at hstep
  | raw =>
    obtain hpoll | ⟨hpoll, hdown'⟩ := hdown.poll_raw
    · simp only [onClientNext, hpoll] at hstep
      cases hstep
      exact ⟨hup, hdown, hrequests, hhost, hclient⟩
    · simp only [onClientNext, hpoll] at hstep
      cases hstep
      exact ⟨hup.sender_congr rfl rfl, hdown', hrequests, hhost, nofun⟩
  | framed =>
    obtain ⟨letIn, haw⟩ := hclient rfl
    have hsender {r' : FramedStream K} (hraw : r'.codec.raw = false) :
        r'.codec.raw = clientStream.codec.raw := hraw.trans (hup.framed_sender rfl).1.symm
    cases pendingToClient with
    | nil =>
      -- a host that went raw has its login response under way
      have hsent : sentByHost = [] := haw.quiet haw.answers
      rw [hsent] at hdown
      simp only [onClientNext, hdown.poll_nil] at hstep
      cases hstep
      exact ⟨hup, hsent ▸ hdown, hrequests, hhost, hclient⟩
    | cons m ms =>
      obtain ⟨r', hraw, hsealer, ⟨hpoll, hdown'⟩ | ⟨hpoll, hdown'⟩⟩ := hdown.poll hbox
      · simp only [onClientNext, hpoll] at hstep
        cases hstep
        exact ⟨hup.sender_congr (hsender hraw) hsealer, hdown', hrequests, hhost, hclient⟩
      · have hup' := hup.sender_congr (hsender hraw) hsealer
        simp only [onClientNext, hpoll, List.tail_cons] at hstep
        exact sound_clientMessage (t := ⟨host, hostPhase, hostStream, .framed, r', asked, buffer,
          wireToHost, wireToClient, pendingToHost, ms, sentByClient, sentByHost, forwarded,
          delivered⟩) ⟨hup', hdown', hrequests⟩ rfl hhost haw hstep

/-! ## Runs -/

/-- Two streams that have nothing under way, and seal as the other one opens. -/
structure Paired (s r : FramedStream K) : Prop where
  codec : s.codec = .new ∧ r.codec = .new
  readBuf : s.readBuf = [] ∧ r.readBuf = []
  forth : Flow.sealer s = Flow.opener r
  back : Flow.sealer r = Flow.opener s

theorem flow_start (hs : s.codec = .new) (hr : r.codec = .new)
    (hbuf : r.readBuf = []) (hkey : Flow.sealer s = Flow.opener r) :
    Flow box .framed .framed s r [] [] [] [] := by
  have hframing : BytesCodec.Framing s.codec := by
    rw [hs]
    exact BytesCodec.new_framing
  refine ⟨fun _ => ⟨hframing, rfl⟩, nofun, fun _ => .of_new hr hbuf, nofun,
    fun _ _ => ⟨hframing, ?_⟩, fun _ => rfl, List.prefix_rfl⟩
  unfold Flow.sealer Flow.opener at hkey
  cases hes : s.encrypt with
  | none =>
    rw [hes] at hkey
    exact .inl ⟨rfl, Option.map_eq_none_iff.mp hkey.symm⟩
  | some e =>
    rw [hes] at hkey
    obtain ⟨e', her, he⟩ := Option.map_eq_some_iff.mp hkey.symm
    rw [Prod.mk.injEq] at he
    refine .inr ⟨e, e', rfl, her, he.1.symm, ?_⟩
    simp [he.2]

theorem sound_start {host : Host} (hfresh : host.Fresh)
    (hopen : host.isOpen = true) (hpair : Paired s r) : Sound p box (.start host s r) := by
  obtain ⟨id, hash, require2fa, permissions, controlPermissions, headless, hconn⟩ := hfresh.conn
  have hauth : host.conn.authorized = false := by rw [hconn]; rfl
  refine ⟨flow_start hpair.codec.2 hpair.codec.1 hpair.readBuf.1 hpair.back,
    flow_start hpair.codec.1 hpair.codec.2 hpair.readBuf.2 hpair.forth, by simp [start],
    fun _ => ⟨hopen, ?_, .inr ⟨hauth, ?_, rfl⟩, ?_, ?_, ?_⟩, fun _ => ⟨false, rfl, fun _ => rfl, ?_, nofun⟩⟩
  · rw [start]
    exact ⟨by rw [hconn]; rfl, by rw [hconn]; rfl, by rw [hconn]; rfl, by rw [hconn]; rfl,
      fun hnow => absurd (hauth.symm.trans hnow) Bool.false_ne_true⟩
  · rw [start, hfresh.log]
    rfl
  · exact fun hnow => absurd (hauth.symm.trans hnow) Bool.false_ne_true
  · exact fun hleft => hleft.elim nofun fun hne => absurd rfl hne
  · intro _
    rw [start, hconn]
    rfl
  · exact fun _ => hauth.symm

/-- **One quiet step** keeps the invariant. -/
theorem sound_step (hbox : box.Correct) {a : TunnelAction} (h : Sound p box t)
    (hquiet : Quiet p box b t a) (hstep : step p box b t a = some t') : Sound p box t' := by
  cases a with
  | localBytes bytes =>
    simp only [step, onLocalBytes] at hstep
    split at hstep
    · cases hstep
      exact ⟨h.up, h.down, h.requests, h.host, h.client⟩
    next hraw =>
      cases hstep
      have hup := h.up
      rw [hraw] at hup
      refine ⟨?_, h.down, h.requests, fun hf => ?_, h.client⟩
      · dsimp only
        rw [hraw]
        exact hup.sendBytes bytes
      · have hin := h.host hf
        exact ⟨hin.running, hin.forwarding, hin.named, hin.waiting, fun _ => hin.left (.inl hraw), hin.probed⟩
    · cases hstep
  | login bytes =>
    simp only [step] at hstep
    split at hstep
    next hready =>
      exact sound_request h hready.1 hquiet (.inl hready.2) (fun hintro => introduced_request hintro hready.2) hstep
    · cases hstep
  | code bytes =>
    simp only [step] at hstep
    split at hstep
    next hready =>
      exact sound_request h hready.1 hquiet (.inr hready.2.2)
        (fun hintro => introduced_append hintro hready.2.1) hstep
    · cases hstep
  | clientArrive n =>
    cases hstep
    exact ⟨h.up.sender_congr rfl rfl, h.down.arrive n, h.requests, h.host, h.client⟩
  | clientNext keep reply => exact sound_clientNext hbox h hstep
  | clientEnded =>
    cases hstep
    exact h.clientEnded
  | hostArrive n =>
    cases hstep
    exact ⟨h.up.arrive n, h.down.sender_congr rfl rfl, h.requests, h.host, h.client⟩
  | hostNext env frames => exact sound_hostNext hbox h hquiet hstep
  | click env frames =>
    simp only [step] at hstep
    split at hstep
    next hlogin => exact sound_click h hquiet hlogin hstep
    · cases hstep
  | timer env frames => exact sound_timer h hstep
  | forwardBytes bytes =>
    simp only [step] at hstep
    split at hstep
    next hraw =>
      cases hstep
      have hdown := h.down
      rw [hraw] at hdown
      refine ⟨h.up, ?_, h.requests, h.host, fun hc => ?_⟩
      · dsimp only
        rw [hraw]
        exact hdown.sendBytes bytes
      · obtain ⟨letIn, haw⟩ := h.client hc
        refine ⟨letIn, haw.answers, fun hnot => ?_, haw.framed, haw.raw⟩
        exact absurd (hnot.symm.trans (haw.raw hraw).1) Bool.false_ne_true
    · cases hstep
  | hostEnded =>
    cases hstep
    exact h.hostEnded

/-- **A port-forward tunnel carries only tunnel bytes**, in every run whose steps are quiet. -/
theorem only_tunnel_bytes (hbox : box.Correct) {host : Host} {s r : FramedStream K}
    (hfresh : host.Fresh) (hopen : host.isOpen = true) (hpair : Paired s r)
    {as : List TunnelAction} {t : Tunnel K}
    (hrun : Run (Only (Quiet p box b) (Steps (step p box b))) (.start host s r) as t) :
    t.Faithful := by
  have hsound : Sound p box t :=
    hrun.invariant (fun t _ _ (ht : Sound p box t) hstep => sound_step hbox ht hstep.1 hstep.2)
      (sound_start hfresh hopen hpair)
  exact hsound.faithful

/-! ## Samples -/

/-- A host whose port forwards connect. -/
def tunnelEnv : Env := { plainEnv with connects := fun _ => true }

/-- A request for a port forward that leaves the password to the user. -/
def forwardRequest : LoginRequest :=
  { LoginRequest.default with
    username := "987654321", union := some (.portForward ⟨"10.0.0.1", 22⟩) }

/-- A frame of one byte for each kind of message. -/
def sampleParsers : Parsers where
  message
    | [1] => some (.loginRequest forwardRequest)
    | [2] => some (.testDelay false)
    | _ => none
  effect
    | [2] => some .testDelay
    | [3] => some (.loginResponse (.ok .portForward))
    | _ => none

/-- The tunnel of two streams without keys, to a host with default settings. -/
def sampleTunnel : Tunnel Unit := .start (plainHost none) .new .new

def sampleStep : Tunnel Unit → TunnelAction → Option (Tunnel Unit) :=
  step sampleParsers tagBox (linuxBuild fun _ => [])

/-- A login that is clicked before any probe, and a byte of the forwarded socket. -/
theorem only_tunnel_bytes_clicked :
    ∃ t, Run (Only (Quiet sampleParsers tagBox (linuxBuild fun _ => [])) (Steps sampleStep))
      sampleTunnel [.login [1], .hostArrive 9, .hostNext tunnelEnv [],
        .click tunnelEnv [[3]], .forwardBytes [7], .clientArrive 9, .clientNext true [],
        .clientNext true []] t ∧ t.delivered = [7] ∧ t.Faithful := by
  have hpair : Paired (.new : FramedStream Unit) .new := ⟨⟨rfl, rfl⟩, ⟨rfl, rfl⟩, rfl, rfl⟩
  refine exists_and_and
    (fun _ hrun _ => only_tunnel_bytes tagBox_correct (plainHost_fresh none) rfl hpair hrun) ?_
  refine ⟨_, .cons ⟨rfl, rfl⟩ (.cons ⟨trivial, rfl⟩ (.cons ⟨?_, rfl⟩ (.cons ⟨?_, rfl⟩
    (.cons ⟨trivial, rfl⟩ (.cons ⟨trivial, rfl⟩ (.cons ⟨trivial, rfl⟩
      (.cons ⟨trivial, rfl⟩ (.nil _)))))))), rfl⟩
  · exact fun _ _ _ _ _ _ => ⟨fun hauth => absurd hauth (by decide), fun _ _ _ => rfl⟩
  · exact fun _ _ _ => ⟨rfl, rfl⟩

/-- The reply to a probe is under way when the user clicks on accept: its frame is written to the
forwarded socket. -/
theorem reply_forwarded :
    ∃ t, Run (Steps sampleStep) sampleTunnel [.login [1], .hostArrive 9, .hostNext tunnelEnv [],
        .timer tunnelEnv [[2]], .clientArrive 9, .clientNext true [2],
        .click tunnelEnv [[3]], .hostArrive 9, .hostNext tunnelEnv []] t ∧
      t.sentByClient = [] ∧ t.forwarded = [4, 2] ∧ ¬ t.Faithful := by
  refine ⟨_, .cons rfl (.cons rfl (.cons rfl (.cons rfl (.cons rfl (.cons rfl (.cons rfl
    (.cons rfl (.cons rfl (.nil _))))))))), rfl, rfl, fun h => ?_⟩
  have hprefix := h.forwarded
  exact absurd hprefix (by decide)

end RustDesk.PortForward.Tunnel
