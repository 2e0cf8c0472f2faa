import RustDesk.Handshake.IdPkBytes
import Mathlib.Logic.Function.Basic

/-!
# Registered peers of the rendezvous server

References: `rustdesk-server/src/rendezvous_server.rs` (`handle_register_pk`, `get_pk`,
`key_exchange_phase1`) and `src/peer.rs` (`get_or`, `update_pk`).

The map stands for the peers in memory and in the database, which `update_pk` writes together. The
answer of `check_ip_blocker` and the clock are inputs of a request.
-/

namespace RustDesk.Server

open Handshake

/-- `register_pk_response::Result`. -/
inductive RegisterPkResult
  | ok
  | uuidMismatch
  | tooFrequent
  | invalidIdFormat
deriving DecidableEq

/-- `Peer`. `regPk` is how often the peer registered and when it last did, in seconds; the default is
long expired. -/
structure Peer where
  uuid : List UInt8
  pk : List UInt8
  ip : String
  regPk : ℕ × Option ℕ
deriving DecidableEq

def Peer.default : Peer := ⟨[], [], "", (0, none)⟩

/-- `PeerMap`. -/
abbrev PeerMap := String → Option Peer

/-- `RegisterPk`. -/
structure RegisterPk where
  id : String
  uuid : List UInt8
  pk : List UInt8
deriving DecidableEq

namespace PeerMap

def set (pm : PeerMap) (id : String) (peer : Peer) : PeerMap := Function.update pm id (some peer)

/-- `get_or`: the peer, entered with defaults if it was unknown. -/
def getOr (pm : PeerMap) (id : String) : Peer × PeerMap :=
  match pm id with
  | some peer => (peer, pm)
  | none => (.default, pm.set id .default)

/-- The first check of `handle_register_pk` against a known peer: whether anything changes, or that
another device holds the id. -/
def checkPeer (peer : Peer) (rk : RegisterPk) (ip : String) : Except RegisterPkResult Bool :=
  if peer.uuid = [] then .ok true
  else if peer.uuid = rk.uuid then
    if peer.ip ≠ ip ∧ peer.pk ≠ rk.pk then .error .uuidMismatch
    else .ok (peer.uuid ≠ rk.uuid ∨ peer.pk ≠ rk.pk ∨ peer.ip ≠ ip)
  else .error .uuidMismatch

/-- The registration counter: at most three in a row within six seconds of each other. -/
def countRegPk (regPk : ℕ × Option ℕ) (now : ℕ) : Except RegisterPkResult (ℕ × Option ℕ) :=
  let expired : Bool := match regPk.2 with
    | some last => now - last > 6
    | none => true
  if expired then .ok (1, some now)
  else if regPk.1 > 2 then .error .tooFrequent
  else .ok (regPk.1 + 1, some now)

/-- `handle_register_pk`. -/
def handleRegisterPk (pm : PeerMap) (rk : RegisterPk) (ip : String) (ws ipAllowed : Bool) (now : ℕ) :
    Except RegisterPkResult RegisterPkResult × PeerMap :=
  if rk.uuid = [] ∨ rk.pk = [] then (.error .invalidIdFormat, pm)
  else if rk.id.utf8ByteSize < 6 then (.error .uuidMismatch, pm)
  else if ¬ ipAllowed then (.error .tooFrequent, pm)
  else
    let (peer, pm) := pm.getOr rk.id
    match checkPeer peer rk ip with
    | .error e => (.error e, pm)
    | .ok changed =>
      match countRegPk peer.regPk now with
      | .error e => (.error e, pm)
      | .ok regPk =>
        let peer := { peer with regPk }
        if changed ∨ ws then
          -- `update_pk`
          (.ok .ok, pm.set rk.id { peer with uuid := rk.uuid, pk := rk.pk, ip })
        else (.ok .ok, pm.set rk.id peer)

/-- `get_pk`: the identity of a peer under the server's key. -/
def getPk (pm : PeerMap) (sign : List UInt8 → List UInt8 → List UInt8) (sk : Option (List UInt8))
    (version id : String) : List UInt8 :=
  match sk with
  | none => []
  | some sk =>
    if version = "" then []
    else
      match pm id with
      | some peer => sign (IdPk.writeToBytes ⟨id, peer.pk⟩) sk
      | none => []

/-- `key_exchange_phase1`: the server's box key under its signing key. -/
def keyExchangePhase1 (sign : List UInt8 → List UInt8 → List UInt8) (sk : Option (List UInt8))
    (secureTcpPkB : List UInt8) : Option (List (List UInt8)) :=
  sk.map fun sk => [sign secureTcpPkB sk]

/-! ## What the map holds -/

/-- Every peer has an id of at least six bytes and a key. -/
def Registered (pm : PeerMap) : Prop :=
  ∀ id peer, pm id = some peer → 6 ≤ id.utf8ByteSize ∧ peer.uuid ≠ [] ∧ peer.pk ≠ []

theorem registered_set {pm : PeerMap} (h : pm.Registered) {id : String} {peer : Peer}
    (hid : 6 ≤ id.utf8ByteSize) (huuid : peer.uuid ≠ []) (hpk : peer.pk ≠ []) :
    (pm.set id peer).Registered := by
  intro id' peer' hpeer'
  by_cases hsame : id' = id
  · subst hsame
    obtain rfl : peer = peer' := by simpa [set] using hpeer'
    exact ⟨hid, huuid, hpk⟩
  · exact h id' peer' (by simpa [set, hsame] using hpeer')

/-- A default entry is completed by the registration that made it. -/
theorem set_set (pm : PeerMap) (id : String) (peer peer' : Peer) :
    (pm.set id peer).set id peer' = pm.set id peer' := Function.update_idem ..

/-- A registration keeps the map registered, whatever its answer. -/
theorem registered_handleRegisterPk {pm : PeerMap} (h : pm.Registered) (rk : RegisterPk)
    (ip : String) (ws ipAllowed : Bool) (now : ℕ) :
    (pm.handleRegisterPk rk ip ws ipAllowed now).2.Registered := by
  unfold handleRegisterPk
  split
  · exact h
  next hset =>
    rw [not_or] at hset
    split
    · exact h
    next hid =>
      split
      · exact h
      · cases hpeer : pm rk.id with
        | none =>
          -- a new peer is neither another device's nor too frequent
          have hchanged : checkPeer .default rk ip = .ok true := rfl
          have hcount : countRegPk Peer.default.regPk now = .ok (1, some now) := rfl
          simp only [getOr, hpeer, hchanged, hcount, true_or, if_true, set_set]
          exact registered_set h (by omega) hset.1 hset.2
        | some peer =>
          obtain ⟨-, huuid, hpk⟩ := h rk.id peer hpeer
          simp only [getOr, hpeer]
          cases checkPeer peer rk ip with
          | error e => exact h
          | ok changed =>
            cases countRegPk peer.regPk now with
            | error e => exact h
            | ok regPk =>
              dsimp only
              split
              · exact registered_set h (by omega) hset.1 hset.2
              · exact registered_set h (by omega) huuid hpk

end PeerMap

end RustDesk.Server
