import RustDesk.Server.Durability
import RustDesk.Server.LivePeers

/-!
# An id is bound to one uuid

References: `rustdesk-server/src/rendezvous_server.rs` (`handle_register_pk`) and `src/peer.rs`
(`update_pk`, `get_or`).

`handle_register_pk` compares the uuid under the read lock of the peer and lets the lock go before
`update_pk` takes it to write. Two first registrations of an id may both pass the comparison and both
be answered OK, each with its own uuid. The other way to two uuids is a database that cannot be read:
`get_or` takes a failed read for an unknown id and makes an empty peer for a registered one.
`identity_bound` says that there is no third.
-/

namespace RustDesk.Server

/-! ## What is known of one id -/

/-- The part of the shared state that belongs to one id. -/
structure PeerView where
  entry : Option ℕ
  object : ℕ → LivePeer
  made : ℕ
  row : Option PeerRow

/-- The view of an id. -/
def Shared.view (s : Shared) (id : String) : PeerView :=
  ⟨s.map id, s.object id, s.made id, s.db.getPeer id⟩

namespace PeerView

def enter (v : PeerView) (peer : LivePeer) : PeerView :=
  { v with
    entry := some v.made, object := Function.update v.object v.made peer, made := v.made + 1 }

def write (v : PeerView) (r : ℕ) (peer : LivePeer) : PeerView :=
  { v with object := Function.update v.object r peer }

/-- A guid that a peer or a handler has is the one of the row. -/
def GuidOk (v : PeerView) (guid : List UInt8) : Prop :=
  guid = [] ∨ ∃ row, v.row = some row ∧ row.guid = guid

/-- Memory and table fit together, before anything is said of uuids. -/
structure WellFormed (v : PeerView) : Prop where
  unmade : v.entry = none → v.made = 0
  entry_lt : ∀ r, v.entry = some r → r < v.made
  row_uuid : ∀ row, v.row = some row → row.uuid ≠ []
  guid : ∀ r, r < v.made → v.GuidOk (v.object r).guid
  /-- A peer without a uuid is the only one, and the table knows nothing of the id. -/
  empty : ∀ r, r < v.made → (v.object r).uuid = [] → v.made = 1 ∧ v.row = none

end PeerView

namespace Shared

variable (s : Shared) (id id' : String) (r : ℕ) (peer : LivePeer)

theorem view_enter_self : (s.enter id peer).view id = (s.view id).enter peer := by
  simp [view, enter, PeerView.enter]

theorem view_enter_ne (h : id' ≠ id) : (s.enter id peer).view id' = s.view id' := by simp [view, enter, h]

theorem view_write_self : (s.write id r peer).view id = (s.view id).write r peer := by
  simp [view, write, PeerView.write]

theorem view_write_ne (h : id' ≠ id) : (s.write id r peer).view id' = s.view id' := by simp [view, write, h]

end Shared

namespace PeerView

/-- What a section keeps of an id: peers and row stay, with their uuids once they have one. -/
structure Grows (v v' : PeerView) : Prop where
  made : v.made ≤ v'.made
  row : ∀ row, v.row = some row → ∃ row', v'.row = some row' ∧ row'.uuid = row.uuid ∧ row'.guid = row.guid
  uuid : ∀ r, r < v.made → (v.object r).uuid ≠ [] → (v'.object r).uuid = (v.object r).uuid

variable {v v' : PeerView} {r : ℕ} {peer : LivePeer}

theorem write_object_self : (v.write r peer).object r = peer := Function.update_self ..

theorem write_object_ne {r' : ℕ} (h : r' ≠ r) : (v.write r peer).object r' = v.object r' :=
  Function.update_of_ne h ..

theorem enter_object_self : (v.enter peer).object v.made = peer := Function.update_self ..

theorem enter_object_ne (h : r ≠ v.made) : (v.enter peer).object r = v.object r := Function.update_of_ne h ..

theorem Grows.refl (v : PeerView) : v.Grows v :=
  ⟨Nat.le_refl _, fun row h => ⟨row, h, rfl, rfl⟩, fun _ _ _ => rfl⟩

theorem GuidOk.mono {guid : List UInt8} (h : v.GuidOk guid) (hgrow : v.Grows v') : v'.GuidOk guid := by
  rcases h with h | ⟨row, hrow, hguid⟩
  · exact .inl h
  · obtain ⟨row', hrow', -, hguid'⟩ := hgrow.row row hrow
    exact .inr ⟨row', hrow', hguid'.trans hguid⟩

theorem grows_enter (v : PeerView) (peer : LivePeer) : v.Grows (v.enter peer) where
  made := Nat.le_succ _
  row := fun row h => ⟨row, h, rfl, rfl⟩
  uuid := by
    intro r hr _
    rw [enter_object_ne (Nat.ne_of_lt hr)]

/-- A peer may be written where its uuid, if it has one, stays. -/
theorem grows_write (hr : (v.object r).uuid = [] ∨ peer.uuid = (v.object r).uuid) : v.Grows (v.write r peer) where
  made := Nat.le_refl _
  row := fun row h => ⟨row, h, rfl, rfl⟩
  uuid := by
    intro r' _ hne
    by_cases hsame : r' = r
    · subst hsame
      rw [write_object_self]
      exact hr.resolve_left hne
    · rw [write_object_ne hsame]

section

variable (hv : v.WellFormed)
include hv

theorem WellFormed.write (hr : r < v.made)
    (huuid : peer.uuid = (v.object r).uuid ∨ peer.uuid ≠ []) (hguid : v.GuidOk peer.guid) :
    (v.write r peer).WellFormed where
  unmade := hv.unmade
  entry_lt := hv.entry_lt
  row_uuid := hv.row_uuid
  guid := by
    intro r' hr'
    by_cases hsame : r' = r
    · subst hsame
      rw [write_object_self]
      exact hguid
    · rw [write_object_ne hsame]
      exact hv.guid r' hr'
  empty := by
    intro r' hr' hnil
    by_cases hsame : r' = r
    · subst hsame
      rw [write_object_self] at hnil
      rcases huuid with heq | hne
      · exact hv.empty r' hr' (heq.symm.trans hnil)
      · exact absurd hnil hne
    · rw [write_object_ne hsame] at hnil
      exact hv.empty r' hr' hnil

/-- The peer of a row is entered. -/
theorem WellFormed.enter_row {row : PeerRow} (hrow : v.row = some row)
    (huuid : peer.uuid = row.uuid) (hguid : peer.guid = row.guid) : (v.enter peer).WellFormed where
  unmade := fun h => (by cases h)
  entry_lt := by
    intro r h
    cases h
    exact Nat.lt_succ_self _
  row_uuid := hv.row_uuid
  guid := by
    intro r hr
    by_cases hsame : r = v.made
    · subst hsame
      rw [enter_object_self]
      exact .inr ⟨row, hrow, hguid.symm⟩
    · have hlt : r < v.made := Nat.lt_of_le_of_ne (Nat.le_of_lt_succ hr) hsame
      rw [enter_object_ne hsame]
      exact hv.guid r hlt
  empty := by
    intro r hr hnil
    by_cases hsame : r = v.made
    · subst hsame
      rw [enter_object_self, huuid] at hnil
      exact absurd hnil (hv.row_uuid row hrow)
    · have hlt : r < v.made := Nat.lt_of_le_of_ne (Nat.le_of_lt_succ hr) hsame
      rw [enter_object_ne hsame] at hnil
      have hnone := (hv.empty r hlt hnil).2
      simp [hrow] at hnone

/-- An empty peer is entered for an id that nothing is known of. -/
theorem WellFormed.enter_default (hentry : v.entry = none) (hrow : v.row = none)
    (now : ℕ) : (v.enter (.default now)).WellFormed where
  unmade := fun h => (by cases h)
  entry_lt := by
    intro r h
    cases h
    exact Nat.lt_succ_self _
  row_uuid := hv.row_uuid
  guid := by
    intro r hr
    have hr0 : r = v.made := by
      have := hv.unmade hentry
      simp only [enter] at hr
      omega
    subst hr0
    rw [enter_object_self]
    exact .inl rfl
  empty := by
    intro r _ _
    exact ⟨by simp [enter, hv.unmade hentry], hrow⟩

/-- The row is written, with the uuid that a peer has. -/
theorem WellFormed.set_row (hr : r < v.made) (huuid : (v.object r).uuid ≠ [])
    {row : PeerRow} (hrow : row.uuid ≠ []) (hgrow : v.Grows { v with row := some row }) :
    WellFormed { v with row := some row } where
  unmade := hv.unmade
  entry_lt := hv.entry_lt
  row_uuid := by
    intro row' h
    cases h
    exact hrow
  guid := fun r' hr' => (hv.guid r' hr').mono hgrow
  empty := by
    intro r' hr' hnil
    -- the only peer has a uuid
    have hone := (hv.empty r' hr' hnil).1
    have hlt : r' < v.made := hr'
    obtain rfl : r' = r := by omega
    exact absurd hnil huuid

end

end PeerView

/-! ## Handlers -/

/-- What holds for a handler of an id, by the section that it comes to. -/
def HandlerOk (v : PeerView) (req : PeerRequest) : HandlerAt → Prop
  | .start => True
  | .insert row => ∃ row', v.row = some row' ∧ row'.uuid = row.uuid ∧ row'.guid = row.guid
  | .check r => r < v.made
  | .readRegPk r changed | .writeRegPk r changed _ =>
    r < v.made ∧ req.uuid ≠ [] ∧ (changed = false → (v.object r).uuid = req.uuid)
  | .updatePk r => r < v.made ∧ req.uuid ≠ []
  | .dbWrite r guid | .setGuid r guid =>
    r < v.made ∧ req.uuid ≠ [] ∧ (v.object r).uuid = req.uuid ∧ v.GuidOk guid
  | .answered (.ok .ok) => ∃ r, r < v.made ∧ req.uuid ≠ [] ∧ (v.object r).uuid = req.uuid
  | .updateAddr r | .holding r => r < v.made
  | _ => True

/-- A registration that got past the first checks has a uuid. -/
def UuidOk (req : PeerRequest) (pos : HandlerAt) : Prop :=
  ∀ rk addr ip ws, req = .registerPk rk addr ip ws →
    pos = .start ∨ (∃ e, pos = .answered (.error e)) ∨ rk.uuid ≠ []

/-- The handler passed the comparison of the uuid. -/
def HandlerAt.Passed : HandlerAt → Prop
  | .readRegPk .. | .writeRegPk .. | .updatePk .. | .dbWrite .. | .setGuid .. | .answered (.ok .ok) =>
    True
  | _ => False

theorem HandlerOk.mono {v v' : PeerView} {req : PeerRequest} {pos : HandlerAt}
    (h : HandlerOk v req pos) (hgrow : v.Grows v') : HandlerOk v' req pos := by
  have hlt : ∀ {r}, r < v.made → r < v'.made := fun hr => Nat.lt_of_lt_of_le hr hgrow.made
  have huuid : ∀ {r}, r < v.made → req.uuid ≠ [] → (v.object r).uuid = req.uuid →
      (v'.object r).uuid = req.uuid := fun hr hne heq =>
    (hgrow.uuid _ hr (heq ▸ hne)).trans heq
  cases pos with
  | insert row =>
    obtain ⟨row', hrow', hu, hg⟩ := h
    obtain ⟨row'', hrow'', hu', hg'⟩ := hgrow.row row' hrow'
    exact ⟨row'', hrow'', hu'.trans hu, hg'.trans hg⟩
  | check r => exact hlt h
  | readRegPk | writeRegPk => exact ⟨hlt h.1, h.2.1, fun hc => huuid h.1 h.2.1 (h.2.2 hc)⟩
  | updatePk r => exact ⟨hlt h.1, h.2⟩
  | dbWrite | setGuid => exact ⟨hlt h.1, h.2.1, huuid h.1 h.2.1 h.2.2.1, h.2.2.2.mono hgrow⟩
  | updateAddr r => exact hlt h
  | holding r => exact hlt h
  | answered res =>
    rcases res with e | e
    · trivial
    · cases e with
      | ok =>
        obtain ⟨r, hr, hne, heq⟩ := h
        exact ⟨r, hlt hr, hne, huuid hr hne heq⟩
      | _ => trivial
  | _ => trivial

/-- A uuid is stored, in memory or in the table. -/
def PeerView.Has (v : PeerView) (u : List UInt8) : Prop :=
  (∃ r, r < v.made ∧ (v.object r).uuid = u ∧ u ≠ []) ∨ ∃ row, v.row = some row ∧ row.uuid = u

/-- What a section of a handler does to its own id. -/
structure SectionOk (v v' : PeerView) (req : PeerRequest) (pos pos' : HandlerAt) : Prop where
  wellFormed : v'.WellFormed
  grows : v.Grows v'
  handler : HandlerOk v' req pos'
  has : ∀ u, v'.Has u → v.Has u ∨ pos.Passed ∧ u = req.uuid

section Sections

variable {v : PeerView} {req : PeerRequest} {pos pos' : HandlerAt} {peer : LivePeer} {r : ℕ} {io : RegisterIo}
  {s s' : Shared}

/-- A section that only reads. -/
theorem SectionOk.read (hv : v.WellFormed) (h : HandlerOk v req pos') : SectionOk v v req pos pos' :=
  ⟨hv, .refl v, h, fun _ hu => .inl hu⟩

theorem has_write {u : List UInt8} (hr : r < v.made)
    (huuid : peer.uuid = (v.object r).uuid ∨ pos.Passed ∧ peer.uuid = req.uuid)
    (hu : (v.write r peer).Has u) : v.Has u ∨ pos.Passed ∧ u = req.uuid := by
  rcases hu with ⟨r', hr', hu, hne⟩ | hrow
  · by_cases hsame : r' = r
    · subst hsame
      rw [PeerView.write_object_self] at hu
      rcases huuid with heq | ⟨hpos, heq⟩
      · exact .inl (.inl ⟨r', hr, heq.symm.trans hu, hne⟩)
      · exact .inr ⟨hpos, hu.symm.trans heq⟩
    · rw [PeerView.write_object_ne hsame] at hu
      exact .inl (.inl ⟨r', hr', hu, hne⟩)
  · exact .inl (.inr hrow)

section

variable (hv : v.WellFormed)
include hv

/-- A write that leaves the uuid and the guid. -/
theorem SectionOk.write_same (hr : r < v.made)
    (huuid : peer.uuid = (v.object r).uuid) (hguid : peer.guid = (v.object r).guid)
    (h : v.Grows (v.write r peer) → HandlerOk (v.write r peer) req pos') :
    SectionOk v (v.write r peer) req pos pos' where
  wellFormed := hv.write hr (.inl huuid) (hguid ▸ hv.guid r hr)
  grows := PeerView.grows_write (.inr huuid)
  handler := h (PeerView.grows_write (.inr huuid))
  has := fun _ => has_write hr (.inl huuid)

/-- The peer of a row is entered. -/
theorem SectionOk.enter_row {row : PeerRow}
    (hrow : v.row = some row) (huuid : peer.uuid = row.uuid) (hguid : peer.guid = row.guid)
    (h : ∀ v' : PeerView, v.made < v'.made → HandlerOk v' req pos') :
    SectionOk v (v.enter peer) req pos pos' where
  wellFormed := hv.enter_row hrow huuid hguid
  grows := PeerView.grows_enter v peer
  handler := h _ (Nat.lt_succ_self _)
  has := by
    rintro u (⟨r, hr, hu, hne⟩ | hrow')
    · by_cases hsame : r = v.made
      · subst hsame
        rw [PeerView.enter_object_self] at hu
        exact .inl (.inr ⟨row, hrow, huuid.symm.trans hu⟩)
      · rw [PeerView.enter_object_ne hsame] at hu
        exact .inl (.inl ⟨r, Nat.lt_of_le_of_ne (Nat.le_of_lt_succ hr) hsame, hu, hne⟩)
    · exact .inl (.inr hrow')

/-- An empty peer is entered. -/
theorem SectionOk.enter_default (hentry : v.entry = none) (hrow : v.row = none)
    (now : ℕ) (h : ∀ v' : PeerView, v.made < v'.made → HandlerOk v' req pos') :
    SectionOk v (v.enter (.default now)) req pos pos' where
  wellFormed := hv.enter_default hentry hrow now
  grows := PeerView.grows_enter v _
  handler := h _ (Nat.lt_succ_self _)
  has := by
    rintro u (⟨r, hr, hu, hne⟩ | hrow')
    · by_cases hsame : r = v.made
      · subst hsame
        rw [PeerView.enter_object_self] at hu
        exact absurd hu.symm hne
      · rw [PeerView.enter_object_ne hsame] at hu
        exact .inl (.inl ⟨r, Nat.lt_of_le_of_ne (Nat.le_of_lt_succ hr) hsame, hu, hne⟩)
    · exact .inl (.inr hrow')

/-- The row is written with the uuid of the handler. -/
theorem SectionOk.set_row {row : PeerRow} (hr : r < v.made)
    (hne : req.uuid ≠ []) (huuid : (v.object r).uuid = req.uuid) (hrow : row.uuid = req.uuid)
    (hgrow : v.Grows { v with row := some row }) (hpos : pos.Passed)
    (h : HandlerOk { v with row := some row } req pos') :
    SectionOk v { v with row := some row } req pos pos' where
  wellFormed := hv.set_row hr (huuid ▸ hne) (hrow ▸ hne) hgrow
  grows := hgrow
  handler := h
  has := by
    rintro u (hobject | ⟨row', hrow', hu⟩)
    · exact .inl (.inl hobject)
    · cases hrow'
      exact .inr ⟨hpos, hu.symm.trans hrow⟩

end

theorem handlerOk_withPeer (hr : r < v.made) : HandlerOk v req (req.withPeer r) := by cases req <;> exact hr

section

variable (h : Acts io s req pos s' pos')
include h

/-- A section of a handler keeps its own id in order, if it makes no empty peer of a registered id and
writes no uuid over another. -/
theorem sectionOk_of_acts (hv : (s.view req.id).WellFormed) (hok : HandlerOk (s.view req.id) req pos)
    (huuid : UuidOk req pos)
    (hempty : pos = .getOr → s.map req.id = none → s.db.getPeer req.id = none)
    (hsame : pos.Passed → ∀ u, (s.view req.id).Has u → u = req.uuid) :
    SectionOk (s.view req.id) (s'.view req.id) req pos pos' := by
  cases h with
  | refuse | begin => exact .read hv trivial
  | found _ r hmap => exact .read hv (handlerOk_withPeer (hv.entry_lt r hmap))
  | missing _ _ hpos => rcases hpos with rfl | rfl <;> exact .read hv trivial
  | row _ row hrow => exact .read hv ⟨row, hrow, rfl, rfl⟩
  | noRow _ _ hpos => rcases hpos with rfl | rfl <;> exact .read hv trivial
  | insert _ row =>
    obtain ⟨row', hrow', hu, hg⟩ := hok
    rw [s.view_enter_self]
    exact .enter_row hv hrow' hu.symm hg.symm fun v' hlt => handlerOk_withPeer hlt
  | getOrFound _ r hmap => exact .read hv (handlerOk_withPeer (hv.entry_lt r hmap))
  | getOrNew _ hmap =>
    rw [s.view_enter_self]
    exact .enter_default hv hmap (hempty rfl hmap) io.now fun v' hlt => handlerOk_withPeer hlt
  | checked rk addr ip ws r changed hcheck =>
    have hne : rk.uuid ≠ [] := by
      obtain hstart | ⟨e, herr⟩ | hne := huuid rk addr ip ws rfl
      · cases hstart
      · cases herr
      · exact hne
    exact .read hv ⟨hok, hne, fun hc => ((Registry.checkPeer_ok hcheck).2 hc).1⟩
  | checkFailed _ r e => exact .read hv trivial
  | counted _ r changed regPk => exact .read hv hok
  | countFailed _ r changed e => exact .read hv trivial
  | toUpdate _ r changed regPk =>
    rw [s.view_write_self]
    exact .write_same hv hok.1 rfl rfl fun hgrow => ⟨Nat.lt_of_lt_of_le hok.1 hgrow.made, hok.2.1⟩
  | unchanged _ r regPk =>
    rw [s.view_write_self]
    refine .write_same hv hok.1 rfl rfl fun hgrow => ?_
    exact ⟨r, hok.1, hok.2.1, by rw [PeerView.write_object_self]; exact hok.2.2 rfl⟩
  | update rk addr ip ws r =>
    have hguid := hv.guid r hok.1
    have hold : (s.object rk.id r).uuid = [] ∨ rk.uuid = (s.object rk.id r).uuid := by
      by_cases hnil : (s.object rk.id r).uuid = []
      · exact .inl hnil
      · exact .inr (hsame trivial _ (.inl ⟨r, hok.1, rfl, hnil⟩)).symm
    have hgrow : (s.view rk.id).Grows
        ((s.view rk.id).write r ((s.object rk.id r).register io.now addr rk.uuid rk.pk ip)) :=
      PeerView.grows_write hold
    change SectionOk (s.view rk.id) _ _ _ _
    rw [PeerRequest.id, s.view_write_self]
    refine ⟨hv.write hok.1 (.inr hok.2) hguid, hgrow, ?_, fun u => has_write hok.1 (.inr ⟨trivial, rfl⟩)⟩
    exact ⟨hok.1, hok.2, by rw [PeerView.write_object_self]; rfl, hguid.mono hgrow⟩
  | dbInsert rk addr ip ws r db hdb =>
    obtain ⟨hnone, hget⟩ := PeerTable.getPeer_insertPeer hdb
    have hrow := (hget rk.id).trans (if_pos rfl)
    have hview : Shared.view { s with db } rk.id =
        { s.view rk.id with row := some ⟨io.guid.toList, rk.id, rk.uuid, rk.pk, ip⟩ } := by
      rw [Shared.view, Shared.view, hrow]
    have hgrow : (s.view rk.id).Grows
        { s.view rk.id with row := some ⟨io.guid.toList, rk.id, rk.uuid, rk.pk, ip⟩ } := by
      refine ⟨Nat.le_refl _, fun row h => ?_, fun _ _ _ => rfl⟩
      exact absurd (hnone.symm.trans h) (by simp)
    rw [PeerRequest.id, hview]
    exact .set_row hv hok.1 hok.2.1 hok.2.2.1 rfl hgrow trivial ⟨hok.1, hok.2.1, hok.2.2.1, .inr ⟨_, rfl, rfl⟩⟩
  | dbUpdate rk addr ip ws r guid hguid db hdb =>
    obtain ⟨row, hrow, hg⟩ := hok.2.2.2.resolve_left hguid
    have hrow' := (PeerTable.getPeer_updatePk hrow hg hdb rk.id).trans (if_pos rfl)
    have hview : Shared.view { s with db } rk.id =
        { s.view rk.id with row := some { row with pk := rk.pk, ip := ip } } := by
      rw [Shared.view, Shared.view, hrow']
    have hgrow : (s.view rk.id).Grows
        { s.view rk.id with row := some { row with pk := rk.pk, ip := ip } } := by
      refine ⟨Nat.le_refl _, fun row' h => ⟨_, rfl, ?_⟩, fun _ _ _ => rfl⟩
      cases hrow.symm.trans h
      exact ⟨rfl, rfl⟩
    rw [PeerRequest.id, hview]
    exact .set_row hv hok.1 hok.2.1 hok.2.2.1 (hsame trivial _ (.inr ⟨row, hrow, rfl⟩)) hgrow trivial
      ⟨r, hok.1, hok.2.1, hok.2.2.1⟩
  | dbFailed _ r guid => exact .read hv ⟨r, hok.1, hok.2.1, hok.2.2.1⟩
  | setGuid _ r guid =>
    rw [s.view_write_self]
    refine ⟨hv.write hok.1 (.inl rfl) hok.2.2.2, PeerView.grows_write (.inr rfl), ?_,
      fun u => has_write hok.1 (.inl rfl)⟩
    exact ⟨r, hok.1, hok.2.1, by rw [PeerView.write_object_self]; exact hok.2.2.1⟩
  | updateAddr id addr ip r =>
    rw [PeerRequest.id, s.view_write_self]
    exact .write_same hv hok (by simp [Shared.view]) (by simp [Shared.view]) fun _ => trivial
  | release _ r => exact .read hv trivial

/-- A section leaves the other ids alone. -/
theorem view_of_acts (hok : HandlerOk (s.view req.id) req pos) {id : String} (hid : id ≠ req.id) :
    s'.view id = s.view id := by
  cases h with
  | insert | getOrNew => exact s.view_enter_ne _ _ _ hid
  | toUpdate | unchanged | update | setGuid | updateAddr => exact s.view_write_ne _ _ _ _ hid
  | dbInsert rk addr ip ws r db hdb =>
    rw [Shared.view, Shared.view, ((PeerTable.getPeer_insertPeer hdb).2 id).trans (if_neg hid)]
  | dbUpdate rk addr ip ws r guid hguid db hdb =>
    obtain ⟨row, hrow, hg⟩ := hok.2.2.2.resolve_left hguid
    rw [Shared.view, Shared.view, (PeerTable.getPeer_updatePk hrow hg hdb id).trans (if_neg hid)]
  | _ => rfl

/-- Who passes the comparison passes it with the uuid of the peer, or the peer has none. -/
theorem passed_of_acts (hpassed : pos'.Passed) :
    pos.Passed ∨ ∃ r, pos = .check r ∧ (HandlerOk (s.view req.id) req pos → r < s.made req.id) ∧
      ((s.object req.id r).uuid = [] ∨ (s.object req.id r).uuid = req.uuid) := by
  have hnot : ∀ r, ¬ (req.withPeer r).Passed := by
    intro r
    cases req <;> exact id
  cases h with
  | found _ r hmap | getOrFound _ r hmap => exact absurd hpassed (hnot r)
  | insert | getOrNew => exact absurd hpassed (hnot _)
  | missing _ _ hpos | noRow _ _ hpos => rcases hpos with rfl | rfl <;> cases hpassed
  | checked rk addr ip ws r changed hcheck => exact .inr ⟨r, rfl, id, (Registry.checkPeer_ok hcheck).1⟩
  | counted | toUpdate | unchanged | update | dbInsert | dbUpdate | dbFailed | setGuid => exact .inl trivial
  | _ => cases hpassed

theorem uuidOk_of_acts (huuid : UuidOk req pos) : UuidOk req pos' := by
  intro rk addr ip ws hreq
  cases h with
  | refuse _ e => exact .inr (.inl ⟨e, rfl⟩)
  | begin _ hne => exact .inr (.inr (hne rk addr ip ws hreq))
  | checkFailed _ r e | countFailed _ r changed e => exact .inr (.inl ⟨e, rfl⟩)
  | _ =>
    obtain hstart | ⟨e, herr⟩ | hne := huuid rk addr ip ws hreq
    · cases hstart
    · cases herr
    · exact .inr (.inr hne)

end

end Sections

namespace PeerServer

variable {τ : Type*} {u : List UInt8} {id : String}

/-- The uuids that are stored for an id, or that some handler passed with. -/
def InPlay (s : PeerServer τ) (id : String) (u : List UInt8) : Prop :=
  (s.shared.view id).Has u ∨
    ∃ i req pos, s.handler i = some ⟨req, pos⟩ ∧ req.id = id ∧ pos.Passed ∧ req.uuid = u

/-- The invariant, for every id. -/
structure BoundInv (s : PeerServer τ) : Prop where
  view : ∀ id, (s.shared.view id).WellFormed
  handler : ∀ i req pos, s.handler i = some ⟨req, pos⟩ → HandlerOk (s.shared.view req.id) req pos
  uuid : ∀ i req pos, s.handler i = some ⟨req, pos⟩ → UuidOk req pos
  one : ∀ id u v, s.InPlay id u → s.InPlay id v → u = v

/-- A registration passes a peer without a uuid only while no other for the id, with another uuid, is
between its own comparison and its write; and `get_or` makes an empty peer only for an id without a
row. -/
def Bound (s : PeerServer τ) : PeerEvent τ → Prop
  | .act i _ => ∀ req pos, s.handler i = some ⟨req, pos⟩ →
    (∀ r, pos = .check r → (s.shared.object req.id r).uuid = [] →
      ∀ j req' pos', s.handler j = some ⟨req', pos'⟩ → req'.id = req.id → pos'.Between →
        req'.uuid = req.uuid) ∧
    (pos = .getOr → s.shared.map req.id = none → s.shared.db.getPeer req.id = none)
  | _ => True

theorem boundInv_start {db : PeerTable} (hdb : db.Registered) (now : ℕ) :
    BoundInv (start db now : PeerServer τ) where
  view id := {
    unmade := fun _ => rfl
    entry_lt := fun _ h => (by cases h)
    row_uuid := hdb id
    guid := fun _ h => absurd h (Nat.not_lt_zero _)
    empty := fun _ h => absurd h (Nat.not_lt_zero _) }
  handler := fun _ _ _ h => (by cases h)
  uuid := fun _ _ _ h => (by cases h)
  one := by
    have hrow : ∀ {id u}, InPlay (start db now : PeerServer τ) id u →
        ∃ row, db.getPeer id = some row ∧ row.uuid = u := by
      rintro id u ((⟨r, hr, -⟩ | hrow) | ⟨i, req, pos, hi, -⟩)
      · exact absurd hr (Nat.not_lt_zero _)
      · exact hrow
      · cases hi
    intro id u v hu hv
    obtain ⟨row, hget, rfl⟩ := hrow hu
    obtain ⟨row', hget', rfl⟩ := hrow hv
    rw [Option.some.inj (hget.symm.trans hget')]

variable {s t : PeerServer τ} {i : τ} {req : PeerRequest} {pos : HandlerAt}

/-- Who has passed and is not between has a peer with the uuid. -/
theorem between_or_written {v : PeerView} (hpos : pos.Passed) (h : HandlerOk v req pos) :
    pos.Between ∨ ∃ r, r < v.made ∧ req.uuid ≠ [] ∧ (v.object r).uuid = req.uuid := by
  cases pos with
  | readRegPk | writeRegPk | updatePk => exact .inl trivial
  | dbWrite r guid | setGuid r guid => exact .inr ⟨r, h.1, h.2.1, h.2.2.1⟩
  | answered res =>
    rcases res with e | e
    · cases hpos
    · cases e with
      | ok => exact .inr h
      | _ => cases hpos
  | _ => cases hpos

/-- At the comparison with a peer without a uuid, nothing else is in play, if the handler has its turn. -/
theorem BoundInv.alone (hs : s.BoundInv) {r : ℕ} (hi : s.handler i = some ⟨req, .check r⟩)
    (hnil : (s.shared.object req.id r).uuid = []) {io : RegisterIo} (hturn : Bound s (.act i io))
    (hu : s.InPlay req.id u) : u = req.uuid := by
  have hr : r < s.shared.made req.id := hs.handler i req _ hi
  obtain ⟨hone, hrow⟩ := (hs.view req.id).empty r hr hnil
  have hnone : ∀ r', r' < s.shared.made req.id → (s.shared.object req.id r').uuid = [] := by
    intro r' hr'
    have hmade : s.shared.made req.id = 1 := hone
    obtain rfl : r' = r := by omega
    exact hnil
  rcases hu with (⟨r', hr', hu, hne⟩ | ⟨row, hrow', -⟩) | ⟨j, req', pos', hj, hid, hpos, rfl⟩
  · exact absurd (hu.symm.trans (hnone r' hr')) hne
  · simp [hrow] at hrow'
  · have hok := hs.handler j req' pos' hj
    rw [hid] at hok
    rcases between_or_written hpos hok with hbetween | ⟨r', hr', hne, hu⟩
    · exact (hturn req _ hi).1 r rfl hnil j req' pos' hj hid hbetween
    · exact absurd (hu.symm.trans (hnone r' hr')) hne

variable [DecidableEq τ]

theorem BoundInv.step (hs : s.BoundInv) {ev : PeerEvent τ} (hev : Bound s ev)
    (h : PeerServer.step s ev = some t) : t.BoundInv := by
  cases ev with
  | spawn i req =>
    obtain ⟨hi, rfl⟩ := spawn_cases h
    have hold : ∀ {j req' pos'}, (Function.update s.handler i (some ⟨req, .start⟩)) j =
        some ⟨req', pos'⟩ → pos' = .start ∨ s.handler j = some ⟨req', pos'⟩ := by
      intro j req' pos' hj
      by_cases hji : j = i
      · subst hji
        exact .inl (by simpa using (congrArg (Option.map Handler.pos) hj).symm)
      · exact .inr (by simpa [hji] using hj)
    have hplay : ∀ {id u}, InPlay { s with handler := Function.update s.handler i (some ⟨req, .start⟩) }
        id u → s.InPlay id u := by
      rintro id u (hhas | ⟨j, req', pos', hj, hid, hpos, hu⟩)
      · exact .inl hhas
      · rcases hold hj with rfl | hj
        · cases hpos
        · exact .inr ⟨j, req', pos', hj, hid, hpos, hu⟩
    refine ⟨hs.view, fun j req' pos' hj => ?_, fun j req' pos' hj => ?_,
      fun id u v hu hv => hs.one id u v (hplay hu) (hplay hv)⟩
    · rcases hold hj with rfl | hj
      · trivial
      · exact hs.handler j req' pos' hj
    · rcases hold hj with rfl | hj
      · exact fun _ _ _ _ _ => .inl rfl
      · exact hs.uuid j req' pos' hj
  | act i io =>
    obtain ⟨req, pos, shared, pos', hi, hacts, rfl⟩ := act_cases h
    have hok := hs.handler i req pos hi
    have hpassed : pos.Passed → s.InPlay req.id req.uuid := fun hpos => .inr ⟨i, req, pos, hi, rfl, hpos, rfl⟩
    have hsection := sectionOk_of_acts hacts (hs.view req.id) hok (hs.uuid i req pos hi)
      (hev req pos hi).2 fun hpos u hu => hs.one req.id u req.uuid (.inl hu) (hpassed hpos)
    have hothers : ∀ {id}, id ≠ req.id → shared.view id = s.shared.view id := view_of_acts hacts hok
    have hold : ∀ {j req' pos''}, (Function.update s.handler i (some ⟨req, pos'⟩)) j =
        some ⟨req', pos''⟩ → (req' = req ∧ pos'' = pos') ∨ s.handler j = some ⟨req', pos''⟩ := by
      intro j req' pos'' hj
      by_cases hji : j = i
      · subst hji
        have heq : (⟨req, pos'⟩ : Handler) = ⟨req', pos''⟩ := by simpa using hj
        cases heq
        exact .inl ⟨rfl, rfl⟩
      · exact .inr (by simpa [hji] using hj)
    -- what is in play was so before, or the handler has just passed with nothing else in play
    have hplay : ∀ {id u}, InPlay ⟨shared, Function.update s.handler i (some ⟨req, pos'⟩)⟩ id u →
        s.InPlay id u ∨ id = req.id ∧ u = req.uuid ∧ ∀ w, s.InPlay req.id w → w = req.uuid := by
      rintro id u (hhas | ⟨j, req', pos'', hj, rfl, hpos, rfl⟩)
      · by_cases hid : id = req.id
        · subst hid
          rcases hsection.has u hhas with hhas | ⟨hpos, rfl⟩
          · exact .inl (.inl hhas)
          · exact .inl (hpassed hpos)
        · exact .inl (.inl (by rwa [← hothers hid]))
      · rcases hold hj with ⟨rfl, rfl⟩ | hj
        · rcases passed_of_acts hacts hpos with hpos | ⟨r, rfl, hr, huuid⟩
          · exact .inl (hpassed hpos)
          · by_cases hnil : (s.shared.object req'.id r).uuid = []
            · exact .inr ⟨rfl, rfl, fun w hw => hs.alone hi hnil hev hw⟩
            · have heq := huuid.resolve_left hnil
              exact .inl (.inl (.inl ⟨r, hr hok, heq, heq ▸ hnil⟩))
        · exact .inl (.inr ⟨j, req', pos'', hj, rfl, hpos, rfl⟩)
    refine ⟨fun id => ?_, fun j req' pos'' hj => ?_, fun j req' pos'' hj => ?_, fun id u v hu hv => ?_⟩
    · by_cases hid : id = req.id
      · subst hid
        exact hsection.wellFormed
      · rw [hothers hid]
        exact hs.view id
    · rcases hold hj with ⟨rfl, rfl⟩ | hj
      · exact hsection.handler
      · by_cases hid : req'.id = req.id
        · rw [hid]
          exact (hid ▸ hs.handler j req' pos'' hj : HandlerOk (s.shared.view req.id) req' pos'').mono
            hsection.grows
        · rw [hothers hid]
          exact hs.handler j req' pos'' hj
    · rcases hold hj with ⟨rfl, rfl⟩ | hj
      · exact uuidOk_of_acts hacts (hs.uuid i _ pos hi)
      · exact hs.uuid j req' pos'' hj
    · rcases hplay hu with hu | ⟨rfl, rfl, hall⟩
      · rcases hplay hv with hv | ⟨rfl, rfl, hall⟩
        · exact hs.one id u v hu hv
        · exact hall u hu
      · rcases hplay hv with hv | ⟨-, rfl, -⟩
        · exact (hall v hv).symm
        · rfl

/-! ## Answers -/

/-- A registration of the id with the uuid was answered OK. -/
def AnsweredOk (id : String) (u : List UInt8) (s : PeerServer τ) : Prop :=
  ∃ i rk addr ip ws, s.handler i = some ⟨.registerPk rk addr ip ws, .answered (.ok .ok)⟩ ∧
    rk.id = id ∧ rk.uuid = u

/-- The uuid that is stored for an id. -/
def storedUuid (s : PeerServer τ) (id : String) : Option (List UInt8) :=
  (s.shared.getInMemory id).map fun peer => peer.uuid

/-- An answer stays. -/
theorem AnsweredOk.step (h : AnsweredOk id u s) {ev : PeerEvent τ}
    (hstep : PeerServer.step s ev = some t) : AnsweredOk id u t := by
  obtain ⟨i, rk, addr, ip, ws, hi, hid, hu⟩ := h
  refine ⟨i, rk, addr, ip, ws, ?_, hid, hu⟩
  cases ev with
  | spawn j req =>
    obtain ⟨hj, rfl⟩ := spawn_cases hstep
    have hne : i ≠ j := by
      rintro rfl
      simp [hi] at hj
    simpa [hne] using hi
  | act j io =>
    obtain ⟨req, pos, shared, pos', hj, hacts, rfl⟩ := act_cases hstep
    have hne : i ≠ j := by
      rintro rfl
      obtain ⟨rfl, rfl⟩ : _ = req ∧ _ = pos := by simpa [hi] using hj
      cases hacts
    simpa [hne] using hi

omit [DecidableEq τ] in
theorem AnsweredOk.inPlay (h : AnsweredOk id u s) : s.InPlay id u := by
  obtain ⟨i, rk, addr, ip, ws, hi, hid, hu⟩ := h
  exact .inr ⟨i, _, _, hi, hid, trivial, hu⟩

omit [DecidableEq τ] in
/-- After an answer the map has a peer with the uuid. -/
theorem BoundInv.stored (hs : s.BoundInv) (h : AnsweredOk id u s) : s.storedUuid id = some u := by
  have hplay := h.inPlay
  obtain ⟨i, rk, addr, ip, ws, hi, rfl, rfl⟩ := h
  obtain ⟨r, hr, hne, huuid⟩ := hs.handler i _ _ hi
  have hmade : 0 < s.shared.made rk.id := Nat.lt_of_le_of_lt (Nat.zero_le _) hr
  cases hmap : s.shared.map rk.id with
  | none =>
    have := (hs.view rk.id).unmade hmap
    exact absurd this (Nat.ne_of_gt hmade)
  | some r' =>
    have hr' : r' < s.shared.made rk.id := (hs.view rk.id).entry_lt r' hmap
    have hne' : (s.shared.object rk.id r').uuid ≠ [] := by
      intro hnil
      -- an empty peer would be the only one
      have hone : s.shared.made rk.id = 1 := ((hs.view rk.id).empty r' hr' hnil).1
      have hlt : r < s.shared.made rk.id := hr
      obtain rfl : r = r' := by omega
      exact hne (huuid.symm.trans hnil)
    have heq : (s.shared.object rk.id r').uuid = rk.uuid :=
      hs.one rk.id _ _ (.inl (.inl ⟨r', hr', rfl, hne'⟩)) hplay
    simp [storedUuid, Shared.getInMemory, hmap, heq]

/-- **Identity binding**: once a registration of an id with a uuid has been answered OK, that uuid is
stored for the id, in memory and in the row if there is one, and no registration with another uuid is
answered OK, in every run whose registrations come to the comparison in turn. -/
theorem identity_bound {db : PeerTable} {now : ℕ} {evs evs' : List (PeerEvent τ)}
    (hdb : db.Registered) (hrun : Run (Only Bound (Steps step)) (start db now) evs s)
    (hrun' : Run (Only Bound (Steps step)) s evs' t) {id : String} {u : List UInt8}
    (hok : AnsweredOk id u s) :
    t.storedUuid id = some u ∧ (∀ row, t.shared.db.getPeer id = some row → row.uuid = u) ∧
      ∀ u', AnsweredOk id u' t → u' = u := by
  have ht : t.BoundInv := (hrun.append hrun').invariant
    (fun _ _ _ (h : BoundInv _) hstep => h.step hstep.1 hstep.2) (boundInv_start hdb now)
  have hok' : AnsweredOk id u t :=
    hrun'.of_only.invariant (fun _ _ _ (h : AnsweredOk id u _) hstep => h.step hstep) hok
  refine ⟨ht.stored hok', fun row hrow => ?_, fun u' hu' => ?_⟩
  · exact ht.one id _ _ (.inl (.inr ⟨row, hrow, rfl⟩)) hok'.inPlay
  · exact ht.one id _ _ hu'.inPlay hok'.inPlay

/-! ## Two runs -/

def exampleIo' (writeOk : Bool) : RegisterIo := ⟨10_000_000, true, writeOk, .replicate 16 8, true⟩

/-- A first registration of an id, with a uuid. -/
def exampleFirst (uuid : List UInt8) : PeerRequest :=
  .registerPk ⟨"123456789", uuid, [2]⟩ ⟨.ofOctets 10 0 0 1, 40000⟩ "10.0.0.1" false

omit [DecidableEq τ] in
/-- Only two sections are under a condition. -/
theorem bound_of_pos (hi : s.handler i = some ⟨req, pos⟩) (io : RegisterIo)
    (hcheck : ∀ r, pos ≠ .check r) (hgetOr : pos ≠ .getOr) : Bound s (.act i io) := by
  rintro req' pos' hi'
  obtain ⟨rfl, rfl⟩ : req = req' ∧ pos = pos' := by simpa [hi] using hi'
  exact ⟨fun r hr => absurd hr (hcheck r), fun hpos => absurd hpos hgetOr⟩

/-- One handler registers a new id. -/
theorem identity_bound_registered :
    ∃ t : PeerServer Unit, t.storedUuid "123456789" = some [1] := by
  obtain ⟨t, hrun, hok⟩ : ∃ t : PeerServer Unit,
      Run (Only Bound (Steps step)) (start .empty 10_000_000)
        (.spawn () (exampleFirst [1]) :: List.replicate 9 (.act () (exampleIo' false))) t ∧
        AnsweredOk "123456789" [1] t := by
    refine ⟨_, .cons ⟨trivial, rfl⟩ (.cons ⟨?_, rfl⟩ (.cons ⟨?_, rfl⟩ (.cons ⟨?_, rfl⟩ (.cons ⟨?_, rfl⟩
      (.cons ⟨?_, rfl⟩ (.cons ⟨?_, rfl⟩ (.cons ⟨?_, rfl⟩ (.cons ⟨?_, rfl⟩ (.cons ⟨?_, rfl⟩
        (.nil _)))))))))), (), _, _, _, _, rfl, rfl, rfl⟩
    · exact bound_of_pos rfl _ (by simp) (by simp)
    · exact bound_of_pos rfl _ (by simp) (by simp)
    · exact bound_of_pos rfl _ (by simp) (by simp)
    · -- `get_or`: the table has no row
      rintro req pos ⟨⟩
      exact ⟨fun _ h => (by cases h), fun _ _ => rfl⟩
    · -- the comparison: nobody else is there
      rintro req pos ⟨⟩
      refine ⟨fun r hr hnil j req' pos' hj hid hbetween => ?_, fun h => (by cases h)⟩
      cases hj
      exact hbetween.elim
    · exact bound_of_pos rfl _ (by simp) (by simp)
    · exact bound_of_pos rfl _ (by simp) (by simp)
    · exact bound_of_pos rfl _ (by simp) (by simp)
    · exact bound_of_pos rfl _ (by simp) (by simp)
  have hdb : PeerTable.empty.Registered := by simp [PeerTable.Registered, PeerTable.getPeer, PeerTable.empty]
  exact ⟨t, (identity_bound hdb hrun (.nil _) hok).1⟩

/-- Two registrations of a new id pass the comparison one after the other, before either writes. Both
are answered OK, with two uuids. -/
theorem two_uuids_answered_ok :
    ∃ t : PeerServer Bool, Run (Steps step) (start .empty 10_000_000)
        (.spawn false (exampleFirst [1]) :: List.replicate 5 (.act false (exampleIo' true)) ++
          .spawn true (exampleFirst [3]) :: List.replicate 3 (.act true (exampleIo' true)) ++
          List.replicate 5 (.act false (exampleIo' true)) ++
          List.replicate 4 (.act true (exampleIo' true))) t ∧
      AnsweredOk "123456789" [1] t ∧ AnsweredOk "123456789" [3] t ∧
      t.storedUuid "123456789" = some [3] := by
  refine ⟨_, exec_eq_some_iff.mp rfl, ?_, ?_, rfl⟩
  · exact ⟨false, _, _, _, _, rfl, rfl, rfl⟩
  · exact ⟨true, _, _, _, _, rfl, rfl, rfl⟩

end PeerServer

end RustDesk.Server
