import RustDesk.Common.Symbolic
import RustDesk.Handshake.Primitives

/-!
# The handshakes' operations over symbolic terms

Ideal `sign` and `box_`, with message codecs that pair and tag terms. Every operation does what it is
for (`symbolic_correct`).
-/

namespace RustDesk.Handshake

open Term

variable {N : Type}

/-! ## Codecs -/

def writeIdPkTerm (m : IdPk (Term N)) : Term N := .pair (.text m.id) m.pk

def parseIdPkTerm : Term N → Except String (IdPk (Term N))
  | .pair (.text id) pk => .ok ⟨id, pk⟩
  | _ => .error "invalid IdPk"

def writeMessageTerm : Message (Term N) → Term N
  | ⟨none⟩ => .tagged 0 (.raw [])
  | ⟨some (.signedId id)⟩ => .tagged 1 id
  | ⟨some (.publicKey asymmetricValue symmetricValue)⟩ =>
    .tagged 2 (.pair asymmetricValue symmetricValue)
  | ⟨some (.other body)⟩ => .tagged 3 body

def parseMessageTerm : Term N → Except String (Message (Term N))
  | .tagged 0 (.raw []) => .ok ⟨none⟩
  | .tagged 1 id => .ok ⟨some (.signedId id)⟩
  | .tagged 2 (.pair asymmetricValue symmetricValue) =>
    .ok ⟨some (.publicKey asymmetricValue symmetricValue)⟩
  | .tagged 3 body => .ok ⟨some (.other body)⟩
  | _ => .error "invalid Message"

def numTerm (n : ℕ) : Term N := .tagged n (.raw [])

def listTerm : List (Term N) → Term N
  | [] => .raw []
  | t :: ts => .pair t (listTerm ts)

def parseListTerm : Term N → Option (List (Term N))
  | .raw [] => some []
  | .pair t ts => (parseListTerm ts).map (t :: ·)
  | _ => none

@[simp] theorem parseListTerm_listTerm (ts : List (Term N)) : parseListTerm (listTerm ts) = some ts := by
  induction ts with
  | nil => rfl
  | cons t ts ih => rw [listTerm, parseListTerm, ih]; rfl

def failureNum : PunchHoleFailure → ℕ
  | .idNotExist => 0
  | .offline => 2
  | .licenseMismatch => 3
  | .licenseOveruse => 4
  | .unknown => 1

def parseFailureNum : ℕ → PunchHoleFailure
  | 0 => .idNotExist
  | 2 => .offline
  | 3 => .licenseMismatch
  | 4 => .licenseOveruse
  | _ => .unknown

def writeRendezvousTerm : RendezvousMessage (Term N) → Term N
  | ⟨none⟩ => .tagged 0 (.raw [])
  | ⟨some (.keyExchange keys)⟩ => .tagged 1 (listTerm keys)
  | ⟨some (.punchHoleRequest r)⟩ =>
    .tagged 2 (listTerm [.text r.id, numTerm r.natType, .text r.licenceKey, numTerm r.connType,
      .text r.token, .text r.version, numTerm r.udpPort, numTerm r.forceRelay.toNat,
      r.socketAddrV6])
  | ⟨some (.requestRelay r)⟩ =>
    .tagged 3 (listTerm [.text r.id, .text r.uuid, .text r.relayServer, numTerm r.secure.toNat,
      .text r.licenceKey, numTerm r.connType, .text r.token])
  | ⟨some (.hc token)⟩ => .tagged 4 (.text token)
  | ⟨some (.punchHoleResponse socketAddr failure otherFailure)⟩ =>
    .tagged 5 (listTerm [socketAddr, numTerm (failureNum failure), .text otherFailure])
  | ⟨some (.relayResponse refuseReason)⟩ => .tagged 6 (.text refuseReason)
  | ⟨some (.other body)⟩ => .tagged 7 body

def parseRendezvousTerm : Term N → Except String (RendezvousMessage (Term N))
  | .tagged 0 (.raw []) => .ok ⟨none⟩
  | .tagged 1 t =>
    match parseListTerm t with
    | some keys => .ok ⟨some (.keyExchange keys)⟩
    | none => .error "invalid KeyExchange"
  | .tagged 2 t =>
    match parseListTerm t with
    | some [.text id, .tagged natType _, .text licenceKey, .tagged connType _, .text token,
        .text version, .tagged udpPort _, .tagged forceRelay _, socketAddrV6] =>
      .ok ⟨some (.punchHoleRequest ⟨id, natType, licenceKey, connType, token, version, udpPort,
        forceRelay == 1, socketAddrV6⟩)⟩
    | _ => .error "invalid PunchHoleRequest"
  | .tagged 3 t =>
    match parseListTerm t with
    | some [.text id, .text uuid, .text relayServer, .tagged secure _, .text licenceKey,
        .tagged connType _, .text token] =>
      .ok ⟨some (.requestRelay ⟨id, uuid, relayServer, secure == 1, licenceKey, connType, token⟩)⟩
    | _ => .error "invalid RequestRelay"
  | .tagged 4 (.text token) => .ok ⟨some (.hc token)⟩
  | .tagged 5 t =>
    match parseListTerm t with
    | some [socketAddr, .tagged failure _, .text otherFailure] =>
      .ok ⟨some (.punchHoleResponse socketAddr (parseFailureNum failure) otherFailure)⟩
    | _ => .error "invalid PunchHoleResponse"
  | .tagged 6 (.text refuseReason) => .ok ⟨some (.relayResponse refuseReason)⟩
  | .tagged 7 body => .ok ⟨some (.other body)⟩
  | _ => .error "invalid RendezvousMessage"

/-- Only a pair of a text and a key parses as an `IdPk`. -/
theorem parseIdPkTerm_eq_ok {t : Term N} {m : IdPk (Term N)} (h : parseIdPkTerm t = .ok m) :
    t = writeIdPkTerm m := by
  unfold parseIdPkTerm at h
  split at h <;> cases h
  rfl

/-- Only what `writeMessageTerm` writes parses as a `Message`. -/
theorem parseMessageTerm_eq_ok {t : Term N} {m : Message (Term N)}
    (h : parseMessageTerm t = .ok m) : t = writeMessageTerm m := by
  unfold parseMessageTerm at h
  split at h <;> cases h <;> rfl

theorem parse_writeMessageTerm (m : Message (Term N)) : parseMessageTerm (writeMessageTerm m) = .ok m := by
  rcases m with ⟨_ | ⟨id⟩ | ⟨a, s⟩ | ⟨body⟩⟩ <;> rfl

theorem parse_writeRendezvousTerm (m : RendezvousMessage (Term N)) :
    parseRendezvousTerm (writeRendezvousTerm m) = .ok m := by
  rcases m with ⟨_ | ⟨keys⟩ | ⟨r⟩ | ⟨r⟩ | ⟨token⟩ | ⟨a, f, o⟩ | ⟨reason⟩ | ⟨body⟩⟩
  case none | hc | relayResponse | other => rfl
  case keyExchange => simp [writeRendezvousTerm, parseRendezvousTerm]
  case punchHoleRequest =>
    obtain ⟨id, natType, licenceKey, connType, token, version, udpPort, forceRelay, addr⟩ := r
    simp only [writeRendezvousTerm, parseRendezvousTerm, parseListTerm_listTerm, numTerm]
    cases forceRelay <;> rfl
  case requestRelay =>
    obtain ⟨id, uuid, relayServer, secure, licenceKey, connType, token⟩ := r
    simp only [writeRendezvousTerm, parseRendezvousTerm, parseListTerm_listTerm, numTerm]
    cases secure <;> rfl
  case punchHoleResponse =>
    simp only [writeRendezvousTerm, parseRendezvousTerm, parseListTerm_listTerm, numTerm]
    cases f <;> rfl

/-! ## The operations -/

variable [DecidableEq N]

/-- The operations over terms, from the lengths of the secrets and what each base64 text stands
for. -/
def symbolic (size : N → ℕ) (decode64 : String → Option (Term N)) : Primitives (Term N) where
  sign := .signed
  verify := Term.verify
  boxPk := .boxPk
  boxSeal := .boxed
  boxOpen := Term.boxOpen
  len := Term.len size
  empty := .raw []
  decode64 := decode64
  writeIdPk := writeIdPkTerm
  parseIdPk := parseIdPkTerm
  writeMessage := writeMessageTerm
  parseMessage := parseMessageTerm
  writeRendezvous := writeRendezvousTerm
  parseRendezvous := parseRendezvousTerm

theorem symbolic_correct (size : N → ℕ) (decode64 : String → Option (Term N)) :
    (symbolic size decode64).Correct where
  len_empty := rfl
  parse_writeIdPk _ := rfl
  parse_writeMessage := parse_writeMessageTerm
  parse_writeRendezvous := parse_writeRendezvousTerm
  verify_sign m sk pk m' h := by
    have hverify : (Term.signed m sk).verify pk = some m' := h
    obtain ⟨sk', hsigned, -⟩ := verify_eq_some hverify
    exact (Term.signed.inj hsigned).1.symm
  open_seal m sk sk' := if_pos (Or.inl ⟨rfl, rfl⟩)
  len_boxPk _ := rfl

end RustDesk.Handshake
