import RustDesk.Server.PeerObjects

/-!
# One live peer for an id

References: `rustdesk-server/src/peer.rs` (`PeerMap::get`, `get_or`, `get_in_memory`).

`get` looks for a peer in the map, and if there is none it reads the database and enters what it made
of the row, without looking again. Another handler may have entered a peer for the id meanwhile and
written to it; that peer is replaced then, and what is written to it is not seen any more. `one_live`
says that this is the only way to lose a write.
-/

namespace RustDesk.Server

namespace PeerServer

variable {τ : Type*} [DecidableEq τ]

/-- `get` enters a peer only while the map has none for the id. -/
def NoReplace (s : PeerServer τ) : PeerEvent τ → Prop
  | .act i _ => ∀ req row, s.handler i = some ⟨req, .insert row⟩ → s.shared.map req.id = none
  | _ => True

/-- The map has this peer for an id. -/
def Holds (id : String) (r : ℕ) (s : PeerServer τ) : Prop := s.shared.map id = some r

/-- Every peer that a handler holds is the one in the map. -/
def Held (s : PeerServer τ) : Prop :=
  ∀ i req pos r, s.handler i = some ⟨req, pos⟩ → pos.peer = some r → Holds req.id r s

variable {s t : PeerServer τ}

omit [DecidableEq τ] in
theorem held_start (db : PeerTable) (now : ℕ) : Held (start db now : PeerServer τ) := by
  intro i req pos r h
  cases h

@[simp] theorem peer_withPeer (req : PeerRequest) (r : ℕ) : (req.withPeer r).peer = some r := by
  cases req <;> rfl

section

variable {io : RegisterIo} {s s' : Shared} {req : PeerRequest} {pos pos' : HandlerAt}
  (h : Acts io s req pos s' pos')
include h

/-- A section keeps what is in the map. -/
theorem map_of_acts (hreplace : ∀ row, pos = .insert row → s.map req.id = none) {id : String} {r : ℕ}
    (hmap : s.map id = some r) : s'.map id = some r := by
  have henter : ∀ peer, s.map req.id = none → (s.enter req.id peer).map id = some r := by
    intro peer hnone
    have hne : id ≠ req.id := by
      rintro rfl
      simp [hnone] at hmap
    simpa [Shared.enter, hne] using hmap
  cases h with
  | insert _ row => exact henter _ (hreplace row rfl)
  | getOrNew _ hnone => exact henter _ hnone
  | _ => exact hmap

/-- A handler has its peer from the map, or entered it there, or had it before. -/
theorem peer_of_acts {r : ℕ} (hpeer : pos'.peer = some r) :
    s'.map req.id = some r ∨ pos.peer = some r := by
  have henter : ∀ peer, (req.withPeer (s.made req.id)).peer = some r →
      (s.enter req.id peer).map req.id = some r := by
    intro peer hpeer
    rw [peer_withPeer] at hpeer
    simpa [Shared.enter] using hpeer
  cases h with
  | found _ r' hmap | getOrFound _ r' hmap =>
    rw [peer_withPeer] at hpeer
    exact .inl (hmap.trans hpeer)
  | insert | getOrNew => exact .inl (henter _ hpeer)
  | missing _ pos hpos | noRow _ pos hpos => rcases hpos with rfl | rfl <;> cases hpeer
  | checked | counted | toUpdate | update | dbInsert => exact .inr hpeer
  | _ => cases hpeer

end

/-- What is in the map stays there. -/
theorem map_of_step {ev : PeerEvent τ} (hev : NoReplace s ev) (h : step s ev = some t) {id : String}
    {r : ℕ} (hmap : Holds id r s) : Holds id r t := by
  cases ev with
  | spawn i req =>
    obtain ⟨-, rfl⟩ := spawn_cases h
    exact hmap
  | act i io =>
    obtain ⟨req, pos, shared, pos', hi, hacts, rfl⟩ := act_cases h
    refine map_of_acts hacts (fun row hpos => ?_) hmap
    subst hpos
    exact hev req row hi

theorem Held.step (hs : s.Held) {ev : PeerEvent τ} (hev : NoReplace s ev)
    (h : PeerServer.step s ev = some t) : t.Held := by
  have hkeep : ∀ id r, Holds id r s → Holds id r t := fun _ _ => map_of_step hev h
  cases ev with
  | spawn i req =>
    obtain ⟨-, rfl⟩ := spawn_cases h
    intro j req' pos r hj hpeer
    by_cases hji : j = i
    · subst hji
      obtain ⟨rfl, rfl⟩ : req = req' ∧ HandlerAt.start = pos := by simpa using hj
      cases hpeer
    · exact hs j req' pos r (by simpa [hji] using hj) hpeer
  | act i io =>
    obtain ⟨req, pos, shared, pos', hi, hacts, rfl⟩ := act_cases h
    intro j req' pos'' r hj hpeer
    by_cases hji : j = i
    · subst hji
      obtain ⟨rfl, rfl⟩ : req = req' ∧ pos' = pos'' := by simpa using hj
      rcases peer_of_acts hacts hpeer with hmap | hbefore
      · exact hmap
      · exact hkeep _ _ (hs j req pos r hi hbefore)
    · exact hkeep _ _ (hs j req' pos'' r (by simpa [hji] using hj) hpeer)

/-- **No lost update**: if `get` never replaces a peer, every peer that a handler holds is the one in
the map, and stays it, so that whatever the handler writes through it is what `get_in_memory` returns
from then on. -/
theorem one_live {db : PeerTable} {now : ℕ} {evs evs' : List (PeerEvent τ)}
    (hrun : Run (Only NoReplace (Steps step)) (start db now) evs s)
    (hrun' : Run (Only NoReplace (Steps step)) s evs' t) {i : τ} {req : PeerRequest} {pos : HandlerAt}
    {r : ℕ} (hi : s.handler i = some ⟨req, pos⟩) (hpeer : pos.peer = some r) :
    Holds req.id r s ∧ Holds req.id r t ∧ t.shared.getInMemory req.id = some (t.shared.object req.id r) := by
  have hheld : s.Held :=
    hrun.invariant (fun _ _ _ (h : Held _) hstep => h.step hstep.1 hstep.2) (held_start db now)
  have hmap := hheld i req pos r hi hpeer
  have hkeep : ∀ (s' : PeerServer τ) ev t', Holds req.id r s' → Only NoReplace (Steps step) s' ev t' →
      Holds req.id r t' := fun _ _ _ h hstep => map_of_step hstep.1 hstep.2 h
  have hlater : Holds req.id r t := hrun'.invariant hkeep hmap
  refine ⟨hmap, hlater, ?_⟩
  rw [Shared.getInMemory, show t.shared.map req.id = some r from hlater, Option.map_some]

/-! ## Two runs -/

/-- A table with one registered peer. -/
def exampleTable : PeerTable :=
  ⟨[⟨[7], "123456789", [1], [2], "10.0.0.1"⟩], by decide, by decide, by decide⟩

def exampleIo : RegisterIo := ⟨10_000_000, true, true, .replicate 16 8, true⟩

/-- The peer registers again from a new port. -/
def exampleRegister : PeerRequest :=
  .registerPk ⟨"123456789", [1], [2]⟩ ⟨.ofOctets 10 0 0 1, 40000⟩ "10.0.0.1" true

def exampleGet : PeerRequest := .get "123456789"

/-- The registration finds nothing in memory, reads the row, enters its peer and holds it. -/
theorem one_live_registered :
    ∃ s : PeerServer Bool, Run (Only NoReplace (Steps step)) (start exampleTable 10_000_000)
        [.spawn false exampleRegister, .act false exampleIo, .act false exampleIo,
          .act false exampleIo, .act false exampleIo] s ∧ Holds "123456789" 0 s := by
  obtain ⟨s, hrun, hs⟩ : ∃ s : PeerServer Bool,
      Run (Only NoReplace (Steps step)) (start exampleTable 10_000_000)
        [.spawn false exampleRegister, .act false exampleIo, .act false exampleIo,
          .act false exampleIo, .act false exampleIo] s ∧
        s.handler false = some ⟨exampleRegister, .check 0⟩ := by
    refine ⟨_, .cons ⟨trivial, rfl⟩ (.cons ⟨?_, rfl⟩ (.cons ⟨?_, rfl⟩ (.cons ⟨?_, rfl⟩
      (.cons ⟨?_, rfl⟩ (.nil _))))), rfl⟩
    · rintro req row ⟨⟩
    · rintro req row ⟨⟩
    · rintro req row ⟨⟩
    · rintro req row ⟨⟩
      rfl
  exact ⟨s, hrun, (one_live hrun (.nil _) hs rfl).1⟩

/-- A reader has read the row; meanwhile the peer registers, and its new address is in memory. Then
the reader enters the peer of the row, and the address is lost. -/
theorem registration_replaced :
    ∃ s t : PeerServer Bool, Run (Steps step) (start exampleTable 10_000_000)
        [.spawn true exampleGet, .act true exampleIo, .act true exampleIo, .act true exampleIo,
          .spawn false exampleRegister, .act false exampleIo, .act false exampleIo,
          .act false exampleIo, .act false exampleIo, .act false exampleIo, .act false exampleIo,
          .act false exampleIo, .act false exampleIo] s ∧
      (s.shared.getInMemory "123456789").map LivePeer.socketAddr =
        some ⟨.v4 #v[10, 0, 0, 1], 40000⟩ ∧
      step s (.act true exampleIo) = some t ∧
      (t.shared.getInMemory "123456789").map LivePeer.socketAddr = some ⟨.v4 #v[0, 0, 0, 0], 0⟩ := by
  refine ⟨_, _, exec_eq_some_iff.mp rfl, ?_, rfl, ?_⟩
  · rfl
  · rfl

end PeerServer

end RustDesk.Server
