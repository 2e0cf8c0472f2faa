import RustDesk.Handshake.SecureConnection
import RustDesk.Server.PeerMap

/-!
# Two kinds of payload under one key

The rendezvous server signs identities (`get_pk`) and its own box key (`key_exchange_phase1`) with
the same key, and without a tag that tells them apart. A client takes any signed string of 32 bytes
for a box key (`secure_tcp_impl`), and any signed `IdPk` with a key of 32 bytes for an identity
(`decode_id_pk`).

A box key is never taken for an identity, because the key in an `IdPk` is shorter than the whole.
An identity is taken for a box key exactly when its encoding has 32 bytes.
-/

namespace RustDesk.Server

open Handshake

/-- The clients' operations over real bytes: any signatures, boxes, base64 and message codecs, with
the lengths of byte strings and the codec of `IdPk`. -/
def bytesPrimitives (S : Sodium (List UInt8)) (W : Wire (List UInt8)) : Primitives (List UInt8) :=
  { S with
    toWire := { W with
      len := List.length
      empty := []
      writeIdPk := IdPk.writeToBytes
      parseIdPk := IdPk.parseFromBytes } }

/-- `sign` under the server's key: what is signed verifies and is 64 bytes longer. -/
structure SignsFor (S : Sodium (List UInt8)) (sk rsPk : List UInt8) : Prop where
  verify_sign : ∀ m, S.verify (S.sign m sk) rsPk = some m
  sign_length : ∀ m, (S.sign m sk).length = 64 + m.length

theorem SignsFor.sign_inj {S : Sodium (List UInt8)} {sk rsPk m m' : List UInt8}
    (hS : SignsFor S sk rsPk) (h : S.sign m sk = S.sign m' sk) : m = m' := by
  have hverify := hS.verify_sign m
  rw [h, hS.verify_sign m'] at hverify
  exact (Option.some.inj hverify).symm

/-! ## The server -/

/-- The server: its peers, and every string it gave out as signed. -/
structure Hbbs where
  pm : PeerMap
  issued : List (List UInt8)

inductive HbbsAction
  | registerPk (rk : RegisterPk) (ip : String) (ws ipAllowed : Bool) (now : ℕ)
  | getPk (version id : String)
  | keyExchangePhase1

namespace Hbbs

def start : Hbbs := ⟨fun _ => none, []⟩

/-- One request to a server with the signing key `sk` and the box key `secureTcpPkB`. -/
def step (S : Sodium (List UInt8)) (sk secureTcpPkB : List UInt8) (h : Hbbs) :
    HbbsAction → Option Hbbs
  | .registerPk rk ip ws ipAllowed now =>
    some { h with pm := (h.pm.handleRegisterPk rk ip ws ipAllowed now).2 }
  | .getPk version id =>
    some { h with issued := h.issued ++ [h.pm.getPk S.sign (some sk) version id] }
  | .keyExchangePhase1 =>
    some { h with issued := h.issued ++
      (PeerMap.keyExchangePhase1 S.sign (some sk) secureTcpPkB).getD [] }

/-- A signed identity of a peer that registered. -/
def IssuedIdentity (S : Sodium (List UInt8)) (sk s : List UInt8) : Prop :=
  ∃ id pk, 6 ≤ id.utf8ByteSize ∧ pk ≠ [] ∧ s = S.sign (IdPk.writeToBytes ⟨id, pk⟩) sk

/-- The map is registered, and what was issued is an identity, the box key, or empty. -/
structure Inv (S : Sodium (List UInt8)) (sk secureTcpPkB : List UInt8) (h : Hbbs) : Prop where
  registered : h.pm.Registered
  issued : ∀ s ∈ h.issued, s = [] ∨ s = S.sign secureTcpPkB sk ∨ IssuedIdentity S sk s

variable {S : Sodium (List UInt8)} {sk secureTcpPkB rsPk : List UInt8}

/-- `get_pk` gives out nothing, or the identity of a registered peer. -/
theorem getPk_issued {pm : PeerMap} (h : pm.Registered) (version id : String) :
    pm.getPk S.sign (some sk) version id = [] ∨ IssuedIdentity S sk (pm.getPk S.sign (some sk) version id) := by
  unfold PeerMap.getPk
  split
  · exact Or.inl rfl
  next hsk =>
    cases hsk
    split
    · exact Or.inl rfl
    · split
      next peer hpeer =>
        obtain ⟨hid, -, hpk⟩ := h id peer hpeer
        exact Or.inr ⟨id, peer.pk, hid, hpk, rfl⟩
      · exact Or.inl rfl

theorem inv_step (h : Hbbs) (a : HbbsAction) (h' : Hbbs) (hinv : Inv S sk secureTcpPkB h)
    (hstep : Steps (step S sk secureTcpPkB) h a h') : Inv S sk secureTcpPkB h' := by
  cases a with
  | registerPk rk ip ws ipAllowed now =>
    cases hstep
    exact ⟨PeerMap.registered_handleRegisterPk hinv.registered rk ip ws ipAllowed now, hinv.issued⟩
  | getPk version id =>
    cases hstep
    refine ⟨hinv.registered, fun s hs => ?_⟩
    rcases List.mem_append.mp hs with hs | hs
    · exact hinv.issued s hs
    · rw [List.mem_singleton.mp hs]
      exact (getPk_issued hinv.registered version id).imp_right Or.inr
  | keyExchangePhase1 =>
    cases hstep
    refine ⟨hinv.registered, fun s hs => ?_⟩
    rcases List.mem_append.mp hs with hs | hs
    · exact hinv.issued s hs
    · rw [List.mem_singleton.mp hs]
      exact Or.inr (Or.inl rfl)

theorem inv_start : Inv S sk secureTcpPkB start where
  registered id peer hpeer := by cases hpeer
  issued s hs := by cases hs

/-- Of the strings presented to clients, none verifies that the server did not sign. -/
def Unforged (S : Sodium (List UInt8)) (sk rsPk : List UInt8) (h : Hbbs)
    (presented : List (List UInt8)) : Prop :=
  ∀ s ∈ presented, ∀ m, S.verify s rsPk = some m → S.sign m sk ∈ h.issued

/-- What verifies is the box key or the identity of a peer that registered. -/
theorem verified_cases (hS : SignsFor S sk rsPk) {h : Hbbs} (hinv : Inv S sk secureTcpPkB h)
    {presented : List (List UInt8)} (hideal : Unforged S sk rsPk h presented) {s m : List UInt8}
    (hs : s ∈ presented) (hverify : S.verify s rsPk = some m) :
    m = secureTcpPkB ∨ ∃ id pk, 6 ≤ id.utf8ByteSize ∧ pk ≠ [] ∧ m = IdPk.writeToBytes ⟨id, pk⟩ := by
  rcases hinv.issued _ (hideal s hs m hverify) with hempty | hbox | ⟨id, pk, hid, hpk, hsigned⟩
  · have hlen := congrArg List.length hempty
    rw [hS.sign_length, List.length_nil] at hlen
    omega
  · exact Or.inl (hS.sign_inj hbox)
  · exact Or.inr ⟨id, pk, hid, hpk, hS.sign_inj hsigned⟩

end Hbbs

/-! ## The clients -/

section Clients

variable (S : Sodium (List UInt8)) (W : Wire (List UInt8)) {sk secureTcpPkB rsPk : List UInt8}

/-- `secure_tcp_impl` takes a signed string for a box key. -/
def AcceptsAsKey (fresh : KeyMaterial (List UInt8)) (rsPk signed : List UInt8) : Prop :=
  ∃ out, answerKeyExchange (bytesPrimitives S W) fresh rsPk [signed] = .ok out

/-- `decode_id_pk` takes a signed string for an identity. -/
def AcceptsAsIdentity (rsPk signed : List UInt8) : Prop :=
  ∃ out, decodeIdPk (bytesPrimitives S W) signed rsPk = .ok out

variable {S W}

/-- A signed string is taken for a box key exactly when its payload has 32 bytes. -/
theorem acceptsAsKey_iff {fresh : KeyMaterial (List UInt8)} {signed m : List UInt8}
    (hverify : S.verify signed rsPk = some m) :
    AcceptsAsKey S W fresh rsPk signed ↔ m.length = 32 := by
  constructor
  · rintro ⟨⟨keys, k⟩, hok⟩
    obtain ⟨signed', m', hsigned, hverify', hlen, -⟩ := answerKeyExchange_eq_ok hok
    obtain rfl : signed = signed' := by simpa using hsigned
    have hm : some m = some m' := hverify.symm.trans hverify'
    cases hm
    exact hlen
  · intro hlen
    have hpk : Handshake.getPk (bytesPrimitives S W) m = some m := getPk_eq_some.mpr ⟨hlen, rfl⟩
    have hverify' : (bytesPrimitives S W).verify signed rsPk = some m := hverify
    simp only [AcceptsAsKey, answerKeyExchange, hverify', hpk]
    exact ⟨_, rfl⟩

/-- A payload of 32 bytes is never taken for an identity: the key in it would have to have 32 bytes
of its own. -/
theorem not_acceptsAsIdentity {signed m : List UInt8} (hverify : S.verify signed rsPk = some m)
    (hlen : m.length = 32) : ¬ AcceptsAsIdentity S W rsPk signed := by
  rintro ⟨⟨id, pk⟩, hok⟩
  obtain ⟨m', hverify', hparse, hpk⟩ := decodeIdPk_eq_ok.mp hok
  have hm : some m = some m' := hverify.symm.trans hverify'
  cases hm
  have hkey : pk.length = 32 := hpk
  have hne : pk ≠ [] := by
    rintro rfl
    cases hkey
  have hinside : pk.length + 2 ≤ m.length := IdPk.pk_length hparse hne
  omega

/-- **How far the server's signatures are interchangeable.** After any sequence of requests, with
signatures ideal and a box key of 32 bytes:
* the identity of a peer is taken for a box key exactly when id and key have 28 bytes between them,
  so never with a key of 32 bytes;
* the signed box key is never taken for an identity;
* the key to which a client seals its session key, from a string presented to it, is the server's
  box key or the encoding of such an identity. -/
theorem signed_payloads (hS : SignsFor S sk rsPk) (hbox : secureTcpPkB.length = 32)
    {acts : List HbbsAction} {h : Hbbs}
    (hrun : Run (Steps (Hbbs.step S sk secureTcpPkB)) Hbbs.start acts h)
    {presented : List (List UInt8)} (hideal : Hbbs.Unforged S sk rsPk h presented)
    (fresh : KeyMaterial (List UInt8)) :
    (∀ id peer version, h.pm id = some peer → version ≠ "" →
      (AcceptsAsKey S W fresh rsPk (h.pm.getPk S.sign (some sk) version id) ↔
        id.utf8ByteSize + peer.pk.length = 28)) ∧
    ¬ AcceptsAsIdentity S W rsPk (S.sign secureTcpPkB sk) ∧
    ∀ signed ∈ presented, ∀ theirPkB, S.verify signed rsPk = some theirPkB →
      AcceptsAsKey S W fresh rsPk signed →
      theirPkB = secureTcpPkB ∨ ∃ id pk, 6 ≤ id.utf8ByteSize ∧ pk ≠ [] ∧
        id.utf8ByteSize + pk.length = 28 ∧ theirPkB = IdPk.writeToBytes ⟨id, pk⟩ := by
  have hinv := hrun.invariant Hbbs.inv_step Hbbs.inv_start
  refine ⟨?_, not_acceptsAsIdentity (hS.verify_sign _) hbox, ?_⟩
  · intro id peer version hpeer hversion
    obtain ⟨hid, -, hpk⟩ := hinv.registered id peer hpeer
    have hget : h.pm.getPk S.sign (some sk) version id
        = S.sign (IdPk.writeToBytes ⟨id, peer.pk⟩) sk := by
      simp only [PeerMap.getPk, if_neg hversion, hpeer]
    rw [hget, acceptsAsKey_iff (hS.verify_sign _)]
    exact IdPk.writeToBytes_length_eq_iff (by change 0 < id.utf8ByteSize; omega) hpk
  · intro signed hmem theirPkB hverify haccepts
    rw [acceptsAsKey_iff hverify] at haccepts
    rcases Hbbs.verified_cases hS hinv hideal hmem hverify with hown | ⟨id, pk, hid, hpk, rfl⟩
    · exact Or.inl hown
    · refine Or.inr ⟨id, pk, hid, hpk, ?_, rfl⟩
      exact (IdPk.writeToBytes_length_eq_iff (by change 0 < id.utf8ByteSize; omega) hpk).mp haccepts

end Clients

/-! ## A short key -/

/-- Transparent signatures of 64 zero bytes in front of the message. -/
def zeroSodium : Sodium (List UInt8) where
  sign m _ := List.replicate 64 0 ++ m
  verify s _ := if s.take 64 = List.replicate 64 0 then some (s.drop 64) else none
  boxPk sk := sk
  boxSeal m _ _ := m
  boxOpen c _ _ := some c

theorem zeroSodium_signsFor (sk rsPk : List UInt8) : SignsFor zeroSodium sk rsPk where
  verify_sign m := by simp [zeroSodium]
  sign_length m := by
    change (List.replicate 64 0 ++ m).length = 64 + m.length
    rw [List.length_append, List.length_replicate]

/-- Codecs that are not used. -/
def noWire : Wire (List UInt8) where
  len := List.length
  empty := []
  decode64 _ := none
  writeIdPk _ := []
  parseIdPk _ := .error ""
  writeMessage _ := []
  parseMessage _ := .error ""
  writeRendezvous _ := []
  parseRendezvous _ := .error ""

/-- A server at which the id `abcdef` registered with the given key and was looked up. -/
def lookedUp (pk : List UInt8) : List HbbsAction :=
  [.registerPk ⟨"abcdef", [1], pk⟩ "10.0.0.1" false true 0, .getPk "1.4.9" "abcdef"]

/-- The server behind such a lookup. -/
theorem lookedUp_run (pk : List UInt8) (hpk : pk ≠ []) :
    ∃ h, Run (Steps (Hbbs.step zeroSodium [] (List.replicate 32 0))) Hbbs.start (lookedUp pk) h ∧
      h.pm "abcdef" = some ⟨[1], pk, "10.0.0.1", (1, some 0)⟩ ∧
      h.issued = [zeroSodium.sign (IdPk.writeToBytes ⟨"abcdef", pk⟩) []] := by
  have hregister : (PeerMap.handleRegisterPk Hbbs.start.pm ⟨"abcdef", [1], pk⟩ "10.0.0.1" false
      true 0).2 "abcdef" = some ⟨[1], pk, "10.0.0.1", (1, some 0)⟩ := by
    have hset : ¬ (([1] : List UInt8) = [] ∨ pk = []) := by simp [hpk]
    have hid : ¬ "abcdef".utf8ByteSize < 6 := by decide
    simp only [PeerMap.handleRegisterPk, if_neg hset, if_neg hid]
    rfl
  refine ⟨_, .cons rfl (.cons rfl (.nil _)), hregister, ?_⟩
  simp only [PeerMap.getPk, hregister]
  rfl

/-- A key of 22 bytes makes the signed identity a box key for clients. -/
theorem short_key_accepted : ∃ h, Run (Steps (Hbbs.step zeroSodium [] (List.replicate 32 0)))
      Hbbs.start (lookedUp (List.replicate 22 7)) h ∧
    AcceptsAsKey zeroSodium noWire ⟨[], []⟩ []
      (h.pm.getPk zeroSodium.sign (some []) "1.4.9" "abcdef") := by
  obtain ⟨h, hrun, hpeer, -⟩ := lookedUp_run (List.replicate 22 7) (by decide)
  have hget : h.pm.getPk zeroSodium.sign (some []) "1.4.9" "abcdef"
      = zeroSodium.sign (IdPk.writeToBytes ⟨"abcdef", List.replicate 22 7⟩) [] := by
    simp only [PeerMap.getPk, hpeer]
    rfl
  refine ⟨h, hrun, ?_⟩
  rw [hget, acceptsAsKey_iff ((zeroSodium_signsFor [] []).verify_sign _)]
  exact (IdPk.writeToBytes_length_eq_iff (by decide) (by decide)).mpr (by decide)

/-- A key of 32 bytes makes an identity that no client takes for a box key. -/
theorem signed_payloads_full_key : ∃ h : Hbbs,
    h.pm "abcdef" = some ⟨[1], List.replicate 32 7, "10.0.0.1", (1, some 0)⟩ ∧
    ¬ AcceptsAsKey zeroSodium noWire ⟨[], []⟩ []
      (h.pm.getPk zeroSodium.sign (some []) "1.4.9" "abcdef") := by
  obtain ⟨h, hrun, hpeer, hissued⟩ := lookedUp_run (List.replicate 32 7) (by decide)
  have hideal : Hbbs.Unforged zeroSodium [] [] h h.issued := by
    intro s hs m hverify
    rw [hissued, List.mem_singleton] at hs
    rw [hs, (zeroSodium_signsFor [] []).verify_sign] at hverify
    rw [hissued, ← Option.some.inj hverify]
    exact List.mem_singleton_self _
  obtain ⟨hkeys, -, -⟩ := signed_payloads (zeroSodium_signsFor [] []) (W := noWire)
    (List.length_replicate ..) hrun hideal ⟨[], []⟩
  refine ⟨h, hpeer, ?_⟩
  rw [hkeys "abcdef" _ "1.4.9" hpeer (by decide)]
  decide

/-! ## What a client reads -/

/-- **From server to client**: what `get_pk` signs is read by `decode_id_pk` as the id that was asked for and the key
it is registered with, and only a key of 32 bytes is read. -/
theorem decodeIdPk_getPk_iff {S : Sodium (List UInt8)} {W : Wire (List UInt8)} {sk rsPk pk : List UInt8}
    (hS : SignsFor S sk rsPk) (hshort : S.verify [] rsPk = none) {pm : PeerMap} {version id id' : String}
    (hversion : version ≠ "") (hid : id.utf8ByteSize < 2 ^ 64)
    (hpks : ∀ peer, pm id = some peer → peer.pk.length < 2 ^ 64) :
    decodeIdPk (bytesPrimitives S W) (pm.getPk S.sign (some sk) version id) rsPk = .ok (id', pk) ↔
      id' = id ∧ pk.length = 32 ∧ ∃ peer, pm id = some peer ∧ peer.pk = pk := by
  rw [decodeIdPk_eq_ok]
  simp only [PeerMap.getPk, if_neg hversion]
  cases hpeer : pm id with
  | none =>
    have hnone : (bytesPrimitives S W).verify [] rsPk = none := hshort
    simp [hnone]
  | some peer =>
    have hverify : (bytesPrimitives S W).verify (S.sign (IdPk.writeToBytes ⟨id, peer.pk⟩) sk) rsPk =
        some (IdPk.writeToBytes ⟨id, peer.pk⟩) := hS.verify_sign _
    have hparse : (bytesPrimitives S W).parseIdPk (IdPk.writeToBytes ⟨id, peer.pk⟩) = .ok ⟨id, peer.pk⟩ :=
      IdPk.parse_writeToBytes hid (hpks peer hpeer)
    constructor
    · rintro ⟨bytes, hbytes, hok, hlen⟩
      cases hverify.symm.trans hbytes
      cases hparse.symm.trans hok
      exact ⟨rfl, hlen, peer, rfl, rfl⟩
    · rintro ⟨rfl, hlen, _, hpeer', rfl⟩
      cases hpeer'
      exact ⟨_, hverify, hparse, hlen⟩

/-- A key of 32 bytes arrives. -/
theorem decodeIdPk_getPk_full_key :
    let pm : PeerMap := fun _ => some ⟨[1], List.replicate 32 7, "10.0.0.1", (1, some 0)⟩
    decodeIdPk (bytesPrimitives zeroSodium noWire) (pm.getPk zeroSodium.sign (some []) "1.4.9" "abcdef") [] =
      .ok ("abcdef", List.replicate 32 7) := by
  refine (decodeIdPk_getPk_iff (zeroSodium_signsFor [] []) (by decide) (by decide) (by decide) ?_).mpr
    ⟨rfl, by decide, _, rfl, rfl⟩
  intro peer h
  cases h
  decide

end RustDesk.Server
