import RustDesk.Common.Bitmap
import RustDesk.Server.Rendezvous

/-!
# Which peers are online

References: `rustdesk-server/src/rendezvous_server.rs` (`peers_online_state`, `handle_punch_hole_request`,
`REG_TIMEOUT`), and `query_online_states_` of `src/client.rs`, which reads the bits.

A peer is online for less than `REG_TIMEOUT` since it registered. The time is cut to 32 bits with a sign, in both
handlers.
-/

namespace RustDesk.Server

open Net Handshake Bitmap

namespace Registry

variable (s : Registry) (now : ℕ)

/-- The test of `peers_online_state` for one id. -/
def answersOnline (id : String) : Bool :=
  match s.getInMemory id with
  | some peer => peer.elapsed now < regTimeout
  | none => false

/-- `peers_online_state`, peer by peer. -/
def peersOnlineState (peers : List String) : List UInt8 :=
  setAll (zeroed ((peers.length + 7) / 8)) 0 (peers.map (s.answersOnline now))

/-- In memory, and less than `REG_TIMEOUT` since its last registration. -/
def Online (id : String) : Prop :=
  ∃ peer, s.getInMemory id = some peer ∧ (now - peer.lastRegTime : ℤ) < regTimeout

/-- Nobody registered later than now. -/
def ClockForward : Prop := ∀ id peer, s.map id = some peer → peer.lastRegTime ≤ now

end Registry

/-- The number of milliseconds means the same with its 32 low bits and a sign: it is below the timeout, or the cut
number is neither below it nor negative. -/
def KeepsTimeout (elapsed : ℕ) : Prop :=
  elapsed < 30_000 ∨ 30_000 ≤ elapsed % 2 ^ 32 ∧ elapsed % 2 ^ 32 < 2 ^ 31

theorem asI32_lt_iff (elapsed : ℕ) :
    asI32 elapsed < regTimeout ↔ elapsed % 2 ^ 32 < 30_000 ∨ 2 ^ 31 ≤ elapsed % 2 ^ 32 := by
  unfold asI32 regTimeout
  rw [Int.bmod_def]
  split <;> omega

theorem keepsTimeout_iff (elapsed : ℕ) :
    (asI32 elapsed < regTimeout ↔ (elapsed : ℤ) < regTimeout) ↔ KeepsTimeout elapsed := by
  rw [asI32_lt_iff]
  unfold KeepsTimeout regTimeout
  omega

namespace Registry

variable {s : Registry} {now : ℕ}

/-- The bits of the loop. -/
theorem bit_peersOnlineState (peers : List String) (i : ℕ) :
    bit (s.peersOnlineState now peers) i = (peers.map (s.answersOnline now)).getD i false := by
  rw [peersOnlineState, bit_setAll]
  · simp
  · simp only [List.length_map, zeroed, List.length_replicate]
    omega

theorem length_peersOnlineState (peers : List String) :
    (s.peersOnlineState now peers).length = (peers.length + 7) / 8 := by
  rw [peersOnlineState, length_setAll]
  exact List.length_replicate

theorem bit_of_lt {peers : List String} {i : ℕ} (hi : i < peers.length) :
    bit (s.peersOnlineState now peers) i = s.answersOnline now peers[i] := by
  rw [bit_peersOnlineState, List.getD_eq_getElem _ _ (by rwa [List.length_map]), List.getElem_map]

theorem bit_padding {peers : List String} {i : ℕ} (hi : peers.length ≤ i) :
    bit (s.peersOnlineState now peers) i = false := by
  rw [bit_peersOnlineState, List.getD_eq_default _ _ (by rwa [List.length_map])]

end Registry

/-- The bytes of the loop are those of the server. -/
theorem Rendezvous.peersOnlineState_eq {C : Type*} (s : Rendezvous C) (now : ℕ) (peers : List String) :
    s.peersOnlineState now peers = s.registry.peersOnlineState now peers := by
  refine List.ext_getElem ?_ fun k hk hk' => ?_
  · rw [Registry.length_peersOnlineState]
    simp [Rendezvous.peersOnlineState]
  · rw [← byte_of_bits (s.registry.peersOnlineState now peers)[k]]
    simp only [Rendezvous.peersOnlineState, List.getElem_map, List.getElem_range]
    refine List.foldl_ext _ _ _ fun byte j hj => ?_
    have hj8 : j < 8 := List.mem_range.mp hj
    have hbyte : (8 * k + j) / 8 = k := by omega
    have hmod : (8 * k + j) % 8 = j := by omega
    have hmask : mask (8 * k + j) = mask j := by rw [mask, mask, hmod, Nat.mod_eq_of_lt hj8]
    have hbit : bit (s.registry.peersOnlineState now peers) (8 * k + j) =
        ((s.registry.peersOnlineState now peers)[k] &&& mask j == mask j) := by
      rw [bit, hbyte, hmask, List.getD_eq_getElem _ _ hk']
    have hone : (1 : UInt8) <<< UInt8.ofNat (7 - j) = mask j := by rw [mask, Nat.mod_eq_of_lt hj8]
    rw [← hbit, hone]
    by_cases hlt : 8 * k + j < peers.length
    · rw [Registry.bit_of_lt hlt, List.getElem?_eq_getElem hlt]
      rfl
    · rw [Registry.bit_padding (Nat.le_of_not_lt hlt), List.getElem?_eq_none (Nat.le_of_not_lt hlt)]
      rfl

/-! ## Both handlers -/

section Handlers

variable {cfg : HbbsConfig} {env : PunchEnv} {s : Registry} {addr : SocketAddr} {ph : PunchHoleRequest}
  {ws : Bool} {peer : LivePeer} {id : String}

/-- The bits say who is online, and a request for one of the peers that are known is answered with OFFLINE where
the bit is down. -/
structure StatesExact (cfg : HbbsConfig) (env : PunchEnv) (s : Registry) (addr : SocketAddr) (ph : PunchHoleRequest)
    (ws : Bool) (peers : List String) : Prop where
  length : (s.peersOnlineState env.now peers).length = (peers.length + 7) / 8
  bits : ∀ i (hi : i < peers.length),
    bit (s.peersOnlineState env.now peers) i = true ↔ s.Online env.now peers[i]
  padding : ∀ i, peers.length ≤ i → bit (s.peersOnlineState env.now peers) i = false
  offline : ∀ i (hi : i < peers.length), (s.get env.now env.getPeerOk peers[i]).1.isSome →
    ((punch cfg env s addr { ph with id := peers[i] } ws).1.1 = fail .offline ↔
      bit (s.peersOnlineState env.now peers) i = false)

/-- The time since a registration keeps its meaning, and a peer that comes from the database comes an hour late. -/
def Registry.KeepsTimeouts (s : Registry) (env : PunchEnv) (peers : List String) : Prop :=
  ∀ id ∈ peers,
    match s.getInMemory id with
    | some peer => KeepsTimeout (env.now - peer.lastRegTime)
    | none => (Registry.readPeer s.db env.getPeerOk id).isSome → 3_600_000 ≤ env.now

theorem punchMessage_ne_fail (peerAddr : SocketAddr) (failure : Failure) :
    punchMessage cfg env addr peerAddr ph ws ≠ fail failure := by
  unfold punchMessage fail
  dsimp only
  split <;> exact nofun

theorem punch_offline_iff (ph : PunchHoleRequest) (h : (s.get env.now env.getPeerOk ph.id).1 = some peer) :
    (punch cfg env s addr ph ws).1.1 = fail .offline ↔ regTimeout ≤ peer.elapsed env.now := by
  unfold punch
  generalize s.get env.now env.getPeerOk ph.id = res at h
  obtain ⟨found, s'⟩ := res
  obtain rfl : found = some peer := h
  dsimp only
  split
  · next helapsed => exact ⟨fun _ => helapsed, fun _ => rfl⟩
  · next helapsed => exact ⟨fun h => absurd h (punchMessage_ne_fail _ _), fun h => absurd h helapsed⟩

/-- A peer from the database registered an hour ago, or now. -/
theorem ofRow_offline_iff (row : PeerRow) (now : ℕ) :
    regTimeout ≤ (LivePeer.ofRow row now).elapsed now ↔ 3_600_000 ≤ now := by
  have hlast : (LivePeer.ofRow row now).lastRegTime = getExpiredTime now := rfl
  unfold LivePeer.elapsed
  rw [hlast, getExpiredTime]
  unfold asI32 regTimeout
  rw [Int.bmod_def]
  split <;> split <;> omega

theorem answersOnline_of_inMemory {now : ℕ} (h : s.getInMemory id = some peer) :
    s.answersOnline now id = true ↔ peer.elapsed now < regTimeout := by
  rw [Registry.answersOnline, h]
  exact decide_eq_true_iff

/-- One id: the bit and the answer to a request are right exactly when the time keeps its meaning. -/
theorem exact_iff_inMemory (hclock : s.ClockForward env.now) (h : s.getInMemory id = some peer) :
    (s.answersOnline env.now id = true ↔ s.Online env.now id) ↔ KeepsTimeout (env.now - peer.lastRegTime) := by
  have hle := hclock id peer h
  have hcast : (env.now - peer.lastRegTime : ℤ) = ((env.now - peer.lastRegTime : ℕ) : ℤ) := by omega
  have honline : s.Online env.now id ↔ ((env.now - peer.lastRegTime : ℕ) : ℤ) < regTimeout := by
    rw [← hcast]
    constructor
    · rintro ⟨peer', hpeer', hlt⟩
      rw [h] at hpeer'
      cases hpeer'
      exact hlt
    · exact fun hlt => ⟨peer, h, hlt⟩
  rw [answersOnline_of_inMemory h, honline, LivePeer.elapsed, hcast]
  exact keepsTimeout_iff _

theorem get_of_inMemory (h : s.getInMemory id = some peer) : (s.get env.now env.getPeerOk id).1 = some peer := by
  have hmap : s.map id = some peer := h
  rw [Registry.get, hmap]

theorem get_of_not_inMemory (env : PunchEnv) (h : s.getInMemory id = none) : (s.get env.now env.getPeerOk id).1 =
      (Registry.readPeer s.db env.getPeerOk id).map fun row => LivePeer.ofRow row env.now := by
  have hmap : s.map id = none := h
  rw [Registry.get, hmap]
  cases Registry.readPeer s.db env.getPeerOk id <;> rfl

/-- **The bits and the answers are exact if and only if the times keep their meaning.** -/
theorem statesExact_iff_keepsTimeouts (cfg : HbbsConfig) (env : PunchEnv) (s : Registry) (addr : SocketAddr)
    (ph : PunchHoleRequest) (ws : Bool) (peers : List String) (hclock : s.ClockForward env.now) :
    StatesExact cfg env s addr ph ws peers ↔ s.KeepsTimeouts env peers := by
  constructor
  · intro h id hid
    obtain ⟨i, hi, rfl⟩ := List.mem_iff_getElem.mp hid
    cases hpeer : s.getInMemory peers[i] with
    | some peer =>
      have hbits := h.bits i hi
      rw [Registry.bit_of_lt hi] at hbits
      exact (exact_iff_inMemory hclock hpeer).mp hbits
    | none =>
      intro hrow
      obtain ⟨row, hrow⟩ := Option.isSome_iff_exists.mp hrow
      have hget := get_of_not_inMemory env hpeer
      rw [hrow, Option.map_some] at hget
      have hdown : bit (s.peersOnlineState env.now peers) i = false := by
        rw [Registry.bit_of_lt hi, Registry.answersOnline, hpeer]
      have hoffline := (h.offline i hi (by rw [hget]; rfl)).mpr hdown
      exact (ofRow_offline_iff row env.now).mp
        ((punch_offline_iff { ph with id := peers[i] } hget).mp hoffline)
  · intro h
    refine ⟨Registry.length_peersOnlineState peers, fun i hi => ?_, fun i hi => Registry.bit_padding hi,
      fun i hi hfound => ?_⟩
    · have hkeeps := h peers[i] (List.getElem_mem hi)
      rw [Registry.bit_of_lt hi]
      cases hpeer : s.getInMemory peers[i] with
      | some peer =>
        rw [hpeer] at hkeeps
        exact (exact_iff_inMemory hclock hpeer).mpr hkeeps
      | none =>
        rw [Registry.answersOnline, hpeer]
        refine ⟨fun h => absurd h Bool.false_ne_true, ?_⟩
        rintro ⟨peer, hsome, -⟩
        rw [hpeer] at hsome
        cases hsome
    · have hkeeps := h peers[i] (List.getElem_mem hi)
      rw [Registry.bit_of_lt hi]
      cases hpeer : s.getInMemory peers[i] with
      | some peer =>
        rw [punch_offline_iff { ph with id := peers[i] } (get_of_inMemory hpeer), ← not_lt,
          ← answersOnline_of_inMemory hpeer, Bool.not_eq_true]
      | none =>
        rw [hpeer] at hkeeps
        rw [get_of_not_inMemory env hpeer, Option.isSome_map] at hfound
        obtain ⟨row, hrow⟩ := Option.isSome_iff_exists.mp hfound
        have hget := get_of_not_inMemory env hpeer
        rw [hrow, Option.map_some] at hget
        have hhour := hkeeps hfound
        rw [punch_offline_iff { ph with id := peers[i] } hget, Registry.answersOnline, hpeer]
        exact ⟨fun _ => rfl, fun _ => (ofRow_offline_iff row env.now).mpr hhour⟩

end Handlers

/-! ### A month without a registration -/

def openConfig : HbbsConfig := ⟨"", false, "", none, "", none, fun _ => id, fun _ _ => none, fun _ => "", "", ""⟩

/-- A server that has run for this many milliseconds. -/
def upFor (now : ℕ) : PunchEnv where
  decode _ := none
  timestamp := 0
  userStatus _ := none
  subscription _ := none
  utcNow := 0
  redis := .answered
  timestampMillis := 0
  permission _ _ := none
  now
  getPeerOk := true
  alwaysUseRelay := false
  relayServer _ _ := ""
  tm := 0

/-- One peer, which registered at this time. -/
def registeredAt (last : ℕ) : Registry where
  map id := if id = "123456789" then some { LivePeer.default 0 with lastRegTime := last } else none
  db := .empty

def peerAddr : SocketAddr := ⟨.v4 #v[203, 0, 113, 7], 21116⟩

theorem registeredAt_clockForward {last now : ℕ} (h : last ≤ now) : (registeredAt last).ClockForward now := by
  intro id peer hpeer
  simp only [registeredAt] at hpeer
  split at hpeer
  · cases hpeer
    exact h
  · cases hpeer

/-- A peer that registered ten seconds ago. -/
theorem statesExact_ten_seconds :
    StatesExact openConfig (upFor 50_000) (registeredAt 40_000) peerAddr
      ⟨"", .known .unknownNat, "", "", "", false⟩ false ["123456789"] := by
  refine (statesExact_iff_keepsTimeouts _ _ _ _ _ _ _ (registeredAt_clockForward (by decide))).mpr fun id hid => ?_
  rw [List.mem_singleton.mp hid]
  exact .inl (by decide)

/-- 2 ^ 31 milliseconds after its registration, which are 24 days and 20 hours, a peer is answered to be online. -/
theorem online_after_25_days :
    ¬ StatesExact openConfig (upFor (2 ^ 31)) (registeredAt 0) peerAddr
      ⟨"", .known .unknownNat, "", "", "", false⟩ false ["123456789"] := by
  intro h
  have hbit : bit ((registeredAt 0).peersOnlineState (2 ^ 31) ["123456789"]) 0 = true := by decide +kernel
  obtain ⟨peer, hpeer, hlt⟩ := (h.bits 0 (by decide)).mp hbit
  have hlast : peer = { LivePeer.default 0 with lastRegTime := 0 } := (Option.some.inj hpeer).symm
  rw [hlast] at hlt
  revert hlt
  decide

end RustDesk.Server
