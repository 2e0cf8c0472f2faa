import RustDesk.Common.Dialogue
import RustDesk.Handshake.Primitives

/-!
# The handshakes of client, host and rendezvous connection

References: `src/common.rs` (`get_pk`, `get_rs_pk`, `decode_id_pk`, `create_symmetric_key_msg`,
`secure_tcp_impl`), `src/client.rs` (`secure_connection`), `src/server.rs` (the handshake part of
`create_tcp_connection`), `libs/hbb_common/src/tcp.rs` (`Encrypt::decode`).

Each is a `Dialogue` on an unkeyed stream. The fresh keys a function generates are arguments.
-/

namespace RustDesk.Handshake

/-- The text of tokio's `Elapsed`, which `timeout(..).await?` passes on. -/
def elapsed : String := "deadline has elapsed"

/-- `config::RS_PUB_KEY`. -/
def rsPubKey : String := "Du3JOA6bfBK9oNBeeTdLJM3wJ7A5BbDs8t+ngFrYYQQ="

/-- `sign::PUBLICKEYBYTES`, `box_::PUBLICKEYBYTES` and `secretbox::KEYBYTES`. -/
def keyBytes : ℕ := 32

/-- `sign::SECRETKEYBYTES`. -/
def secretKeyBytes : ℕ := 64

variable {B : Type} (P : Primitives B)

/-- `get_pk`: the bytes as a public key, if there are 32 of them. -/
def getPk (pk : B) : Option B := if P.len pk = keyBytes then some pk else none

/-- `get_rs_pk`. -/
def getRsPk (strBase64 : String) : Option B :=
  match P.decode64 strBase64 with
  | some pk => getPk P pk
  | none => none

/-- `decode_id_pk`: the id and the public key that the signer vouches for. -/
def decodeIdPk (signed key : B) : Except String (String × B) :=
  match P.verify signed key with
  | none => .error "Signature mismatch"
  | some bytes =>
    match P.parseIdPk bytes with
    | .error text => .error text
    | .ok res =>
      match getPk P res.pk with
      | some pk => .ok (res.id, pk)
      | none => .error "Wrong their public length"

/-- `create_symmetric_key_msg`: our public key, the sealed session key, the session key. -/
def createSymmetricKeyMsg (fresh : KeyMaterial B) (theirPkB : B) : B × B × B :=
  (P.boxPk fresh.boxSk, P.boxSeal fresh.key theirPkB fresh.boxSk, fresh.key)

/-- `Encrypt::decode`: the session key a `PublicKey` message carries. -/
def encryptDecode (symmetricData theirPkB ourSkB : B) : Except String B :=
  if P.len theirPkB ≠ keyBytes then .error ("Handshake failed: pk length " ++ toString (P.len theirPkB))
  else
    match P.boxOpen symmetricData theirPkB ourSkB with
    | none => .error "Handshake failed: box decryption failure"
    | some symmetricKey =>
      if P.len symmetricKey ≠ keyBytes then
        .error "Handshake failed: invalid secret key length from peer"
      else .ok symmetricKey

section

variable {P}

theorem getPk_eq_some {pk pk' : B} : getPk P pk = some pk' ↔ P.len pk = keyBytes ∧ pk = pk' := by
  rw [getPk, Option.ite_none_right_eq_some, Option.some.injEq]

/-- What `decode_id_pk` accepts: a signed `IdPk` with a key of the right length. -/
theorem decodeIdPk_eq_ok {signed key pk : B} {id : String} : decodeIdPk P signed key = .ok (id, pk) ↔
      ∃ bytes, P.verify signed key = some bytes ∧ P.parseIdPk bytes = .ok ⟨id, pk⟩ ∧ P.len pk = keyBytes := by
  unfold decodeIdPk
  cases P.verify signed key with
  | none => simp
  | some bytes =>
    cases hparse : P.parseIdPk bytes with
    | error text => simp [hparse]
    | ok res =>
      obtain ⟨id', pk'⟩ := res
      by_cases hlen : P.len pk' = keyBytes
      · simp [hparse, getPk, hlen]
        rintro - rfl
        exact hlen
      · simp [hparse, getPk, hlen]
        rintro - rfl
        exact hlen

/-- What `Encrypt::decode` accepts: a box for us that holds a key of the right length. -/
theorem encryptDecode_eq_ok {symmetricData theirPkB ourSkB k : B} :
    encryptDecode P symmetricData theirPkB ourSkB = .ok k ↔
      P.len theirPkB = keyBytes ∧ P.boxOpen symmetricData theirPkB ourSkB = some k ∧ P.len k = keyBytes := by
  unfold encryptDecode
  by_cases hpk : P.len theirPkB = keyBytes
  · cases P.boxOpen symmetricData theirPkB ourSkB with
    | none => simp [hpk]
    | some symmetricKey =>
      by_cases hlen : P.len symmetricKey = keyBytes
      · simp [hpk, hlen]
        rintro rfl
        exact hlen
      · simp [hpk, hlen]
        rintro rfl
        exact hlen
  · simp [hpk]

end

/-! ## Client and host -/

/-- The first part of `secure_connection`: the host key that the rendezvous server signed for
`peer_id`. `sign_pk` and `option_pk` are set together, so one value stands for both. -/
def expectedSignPk (peerId : String) (signedIdPk : B) (key : String) : Option B :=
  if P.len signedIdPk = 0 then none
  else
    match getRsPk P (if key = "" then rsPubKey else key) with
    | none => none
    | some rsPk =>
      match decodeIdPk P signedIdPk rsPk with
      | .ok (id, pk) => if id = peerId then some pk else none
      | .error _ => none

/-- The client expects a host key only if the rendezvous key signed it for the peer's id. -/
theorem expectedSignPk_eq_some {P : Primitives B} {peerId : String} {signedIdPk : B} {key : String}
    {signPk : B} (h : expectedSignPk P peerId signedIdPk key = some signPk) :
    ∃ rsPk, getRsPk P (if key = "" then rsPubKey else key) = some rsPk ∧
      decodeIdPk P signedIdPk rsPk = .ok (peerId, signPk) := by
  unfold expectedSignPk at h
  split at h
  · cases h
  · cases hrs : getRsPk P (if key = "" then rsPubKey else key) with
    | none => rw [hrs] at h; cases h
    | some rsPk =>
      refine ⟨rsPk, rfl, ?_⟩
      cases hdecode : decodeIdPk P signedIdPk rsPk with
      | error text => simp [hrs, hdecode] at h
      | ok res =>
        obtain ⟨rfl, rfl⟩ : res.1 = peerId ∧ res.2 = signPk := by simpa [hrs, hdecode] using h
        rfl

/-- The client's answer to the host's first frame: the frame it sends back, and the key it installs
after that. -/
def answerFrame (fresh : KeyMaterial B) (peerId : String) (signPk bytes : B) : B × Option B :=
  match P.parseMessage bytes with
  | .error _ => (P.writeMessage .new, none)
  | .ok msgIn =>
    match msgIn.union with
    | some (.signedId si) =>
      match decodeIdPk P si signPk with
      | .ok (id, theirPkB) =>
        if id = peerId then
          let (asymmetricValue, symmetricValue, key) := createSymmetricKeyMsg P fresh theirPkB
          (P.writeMessage ⟨some (.publicKey asymmetricValue symmetricValue)⟩, some key)
        else (P.writeMessage .new, none)
      -- fall back to non-secure connection in case pk mismatch
      | .error _ => (P.writeMessage ⟨some (.publicKey P.empty P.empty)⟩, none)
    | _ => (P.writeMessage .new, none)

open Dialogue

/-- `secure_connection`. -/
def secureConnection (fresh : KeyMaterial B) (peerId : String) (signedIdPk : B) (key : String) :
    Dialogue B B String (Option B) :=
  match expectedSignPk P peerId signedIdPk key with
  | none => do
    -- an empty message in case the host is setting up secure and waits for a first message
    sendFrame (P.writeMessage .new)
    return none
  | some signPk => do
    match ← nextFrame with
    | .timeout => bail elapsed
    | .closed => bail "Reset by the peer"
    | .failed text => bail text
    | .frame bytes =>
      match answerFrame P fresh peerId signPk bytes with
      | (msgOut, some key) =>
        sendFrame msgOut
        installKey key
        return some signPk
      | (msgOut, none) =>
        sendFrame msgOut
        return some signPk

/-- What the host does with the client's answer. -/
inductive HostReaction (B : Type)
  | key (k : B)
  /-- `Config::set_key_confirmed(false)`: the client could not use the registered key. -/
  | forceUpdatePk
  | plain
  | fail (text : String)
deriving DecidableEq

def reactToAnswer (ourSkB bytes : B) : HostReaction B :=
  match P.parseMessage bytes with
  | .error _ => .fail "Handshake failed: invalid message format"
  | .ok msgIn =>
    match msgIn.union with
    | some (.publicKey asymmetricValue symmetricValue) =>
      if P.len asymmetricValue = keyBytes then
        match encryptDecode P symmetricValue asymmetricValue ourSkB with
        | .ok key => .key key
        | .error text => .fail text
      else if P.len asymmetricValue = 0 then .forceUpdatePk
      else .fail "Handshake failed: invalid public sign key length from peer"
    | _ => .plain

/-- The host installs only the key of a `PublicKey` message that is boxed for it. -/
theorem reactToAnswer_eq_key {P : Primitives B} {ourSkB bytes k : B} (h : reactToAnswer P ourSkB bytes = .key k) :
    ∃ asymmetricValue symmetricValue,
      P.parseMessage bytes = .ok ⟨some (.publicKey asymmetricValue symmetricValue)⟩ ∧
        encryptDecode P symmetricValue asymmetricValue ourSkB = .ok k := by
  unfold reactToAnswer at h
  cases hparse : P.parseMessage bytes with
  | error text => rw [hparse] at h; cases h
  | ok msgIn =>
    obtain ⟨_ | ⟨si⟩ | ⟨a, s⟩ | ⟨body⟩⟩ := msgIn
    case none | signedId | other => rw [hparse] at h; cases h
    case publicKey =>
      refine ⟨a, s, rfl, ?_⟩
      by_cases hlen : P.len a = keyBytes
      · cases hdecode : encryptDecode P s a ourSkB with
        | error text => simp [hparse, hlen, hdecode] at h
        | ok key =>
          obtain rfl : key = k := by simpa [hparse, hlen, hdecode] using h
          rfl
      · simp only [hparse, if_neg hlen] at h
        split at h <;> cases h

/-- The host's opening message: its id and a fresh box key, signed with its stored key. -/
def signedIdMessage (ourSkB : B) (hostId : String) (sk : B) : B :=
  P.writeMessage ⟨some (.signedId (P.sign (P.writeIdPk ⟨hostId, P.boxPk ourSkB⟩) sk))⟩

/-- The handshake part of `create_tcp_connection`; the result tells whether the host's key is marked
unconfirmed. -/
def createTcpConnection (ourSkB : B) (hostId : String) (pk sk : B) (secure : Bool) :
    Dialogue B B String Bool :=
  if secure = true ∧ P.len pk = keyBytes ∧ P.len sk = secretKeyBytes then do
    sendFrame (signedIdMessage P ourSkB hostId sk)
    match ← nextFrame with
    | .timeout => bail elapsed
    | .closed => bail "Failed to receive public key"
    | .failed text => bail text
    | .frame bytes =>
      match reactToAnswer P ourSkB bytes with
      | .key k =>
        installKey k
        return false
      | .forceUpdatePk => return true
      | .plain => return false
      | .fail text => bail text
  else return false

/-! ## Client and rendezvous server -/

/-- The reaction of `secure_tcp_impl` to a `KeyExchange`: the keys it answers with and the key it
installs. -/
def answerKeyExchange (fresh : KeyMaterial B) (rsPk : B) (keys : List B) :
    Except String (List B × B) :=
  match keys with
  | [signed] =>
    match P.verify signed rsPk with
    | none => .error "Signature mismatch in key exchange"
    | some theirPkB =>
      match getPk P theirPkB with
      | none => .error "Wrong their public length in key exchange"
      | some theirPkB =>
        let (asymmetricValue, symmetricValue, key) := createSymmetricKeyMsg P fresh theirPkB
        .ok ([asymmetricValue, symmetricValue], key)
  | _ => .error "Handshake failed: invalid key exchange message"

/-- A `KeyExchange` is answered if it holds one key, signed by the rendezvous key. -/
theorem answerKeyExchange_eq_ok {P : Primitives B} {fresh : KeyMaterial B} {rsPk k : B}
    {keys keys' : List B} (h : answerKeyExchange P fresh rsPk keys = .ok (keys', k)) :
    ∃ signed theirPkB, keys = [signed] ∧ P.verify signed rsPk = some theirPkB ∧ P.len theirPkB = keyBytes ∧
      keys' = [P.boxPk fresh.boxSk, P.boxSeal fresh.key theirPkB fresh.boxSk] ∧ k = fresh.key := by
  unfold answerKeyExchange at h
  split at h
  next signed =>
    cases hverify : P.verify signed rsPk with
    | none => rw [hverify] at h; cases h
    | some theirPkB =>
      by_cases hlen : P.len theirPkB = keyBytes
      · simp only [hverify, getPk, if_pos hlen, createSymmetricKeyMsg] at h
        cases h
        exact ⟨signed, theirPkB, rfl, hverify, hlen, rfl, rfl⟩
      · simp only [hverify, getPk, if_neg hlen] at h
        cases h
  · cases h

/-- `secure_tcp_impl`. -/
def secureTcpImpl (fresh : KeyMaterial B) (useWs : Bool) (key : String) :
    Dialogue B B String Unit :=
  if useWs then return ()
  else
    match getRsPk P key with
    | none => bail "Handshake failed: invalid public key from rendezvous server"
    | some rsPk => do
      match ← nextFrame with
      | .timeout => bail elapsed
      | .frame bytes =>
        match P.parseRendezvous bytes with
        | .ok ⟨some (.keyExchange keys)⟩ =>
          let (keys, key) ← lift (answerKeyExchange P fresh rsPk keys)
          sendFrame (P.writeRendezvous ⟨some (.keyExchange keys)⟩)
          installKey key
        | _ => return ()
      -- a closed stream and a read error are passed over
      | _ => return ()

end RustDesk.Handshake
