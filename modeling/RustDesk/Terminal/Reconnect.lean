import RustDesk.Terminal.Replay

/-!
# The sessions of a service, over its connections

References: `src/server/terminal_service.rs` (`handle_open`, `read_outputs`, `reset_status`),
`src/server/connection.rs` (`handle_terminal_action`).

In every run of the service in which no channel is full, each terminal that is open is streamed as
`Replay` says, whatever ids the sessions are moved to. After the first open of a connection no session is
lost: it is the one opened, or named in the answer.
-/

namespace RustDesk.Terminal

/-! ## The sessions -/

namespace PersistentTerminalService

variable (service : PersistentTerminalService) (terminalId : ℤ)

/-- Nothing moves, or the session of some other id, on the first open of a connection. -/
theorem remapped_cases : service.remapped terminalId = service.sessions ∨
      ∃ lowestId session, service.needsSessionSync = true ∧ terminalId ∉ service.sessions ∧
        service.sessions.lookup lowestId = some session ∧
        service.remapped terminalId = (service.sessions.erase lowestId).insert terminalId session := by
  unfold remapped
  split
  · next h =>
    obtain ⟨habsent, hsync, -⟩ := h
    split
    · next lowestId _ =>
      split
      · next session hlookup => exact .inr ⟨lowestId, session, hsync, habsent, hlookup, rfl⟩
      · exact .inl rfl
    · exact .inl rfl
  · exact .inl rfl

/-- On the first open of a connection the terminal is there, unless there is none. -/
theorem mem_remapped (hsync : service.needsSessionSync = true)
    (hlookup : (service.remapped terminalId).lookup terminalId = none) :
    (service.remapped terminalId).keys = [] := by
  unfold remapped at *
  split at hlookup
  · next h =>
    rw [if_pos h]
    have hmin : service.sessions.keys.min?.isSome := List.isSome_min?_of_ne_nil h.2.2
    obtain ⟨lowestId, hlowest⟩ := Option.isSome_iff_exists.mp hmin
    have hmem : lowestId ∈ service.sessions := List.min?_mem hlowest
    obtain ⟨session, hsession⟩ := Option.isSome_iff_exists.mp (AList.lookup_isSome.mpr hmem)
    simp only [hlowest, hsession, AList.lookup_insert] at hlookup
    cases hlookup
  · next h =>
    rw [if_neg h]
    by_contra hkeys
    exact h ⟨AList.lookup_eq_none.mp hlookup, hsync, hkeys⟩

/-- A session that is moved is where it was moved to. -/
theorem lookup_remapped {id : ℤ} {session : TerminalSession} (h : service.sessions.lookup id = some session) :
    ∃ id', (service.remapped terminalId).lookup id' = some session := by
  rcases service.remapped_cases terminalId with heq | ⟨lowestId, lowest, -, habsent, hlowest, heq⟩
  · exact ⟨id, heq ▸ h⟩
  · rw [heq]
    by_cases hid : id = lowestId
    · subst hid
      cases h.symm.trans hlowest
      exact ⟨terminalId, AList.lookup_insert _⟩
    · have hne : id ≠ terminalId := by
        rintro rfl
        exact habsent (AList.lookup_isSome.mp (by rw [h]; rfl))
      exact ⟨id, by rw [AList.lookup_insert_ne hne, AList.lookup_erase_ne hid, h]⟩

/-- The cleanup after a poll only removes sessions, and tells the client. -/
theorem foldl_closeTerminal (ids : List ℤ) (responses : List TerminalResponse) :
    let result := ids.foldl closeTerminal (service, responses)
    ∃ sessions closed, result = ({ service with sessions := sessions }, responses ++ closed) ∧
      (∀ id session, sessions.lookup id = some session → service.sessions.lookup id = some session) ∧
      ∀ response ∈ closed, ∃ id exitCode, response = .closed id exitCode := by
  induction ids generalizing service responses with
  | nil => exact ⟨service.sessions, [], by simp, fun _ _ h => h, by simp⟩
  | cons id ids ih =>
    have hone : ∃ sessions exitCode, closeTerminal (service, responses) id =
        ({ service with sessions := sessions }, responses ++ [.closed id exitCode]) ∧
        ∀ id session, sessions.lookup id = some session → service.sessions.lookup id = some session := by
      unfold closeTerminal
      dsimp only
      split
      · exact ⟨service.sessions, 0, rfl, fun _ _ h => h⟩
      · split
        · refine ⟨service.sessions.erase id, _, rfl, fun id' session h => ?_⟩
          by_cases hid : id' = id
          · subst hid
            rw [AList.lookup_erase] at h
            cases h
          · rwa [AList.lookup_erase_ne hid] at h
        · exact ⟨service.sessions, _, rfl, fun _ _ h => h⟩
    obtain ⟨sessions, exitCode, heq, hsub⟩ := hone
    obtain ⟨sessions', closed, heq', hsub', hclosed⟩ :=
      ih { service with sessions := sessions } (responses ++ [.closed id exitCode])
    refine ⟨sessions', .closed id exitCode :: closed, ?_, fun id' s h => hsub _ _ (hsub' _ _ h), ?_⟩
    · rw [List.foldl_cons, heq, heq', List.append_assoc]
      rfl
    · rw [List.forall_mem_cons]
      exact ⟨⟨id, exitCode, rfl⟩, hclosed⟩

end PersistentTerminalService

namespace World

variable {zstd : Zstd} {w w' : World} {events : List Event} {id : ℤ} {s : TerminalSession}

/-! ## What holds between the actions -/

structure Inv (zstd : Zstd) (w : World) : Prop where
  session : ∀ id s, w.sessions.lookup id = some s → SessionInv zstd w.service.created w.log id s
  /-- no session is at two ids -/
  distinct : ∀ id id' s s', w.sessions.lookup id = some s → w.sessions.lookup id' = some s' →
    s.handle = s'.handle → id = id'
  fresh : ∀ handle, w.service.created ≤ handle → outputOf handle w.log = [] ∧ readOf handle w.log = []
  awaits : awaitsOpen w.log = w.service.needsSessionSync
  closed : w.service.needsSessionSync = true → ∀ id s, w.sessions.lookup id = some s → s.state = .closed

theorem Inv.start (serviceId : String) (isPersistent : Bool) : Inv zstd (World.start serviceId isPersistent) where
  session _ _ h := by cases h
  distinct _ _ _ _ h := by cases h
  fresh _ _ := ⟨rfl, rfl⟩
  awaits := rfl
  closed _ _ _ h := by cases h

/-- The map may be in any order. -/
theorem Inv.perm (h : Inv zstd w) {sessions : Sessions} (hperm : sessions.entries.Perm w.sessions.entries) :
    Inv zstd { w with service := { w.service with sessions := sessions } } where
  session id s hs := h.session id s ((AList.perm_lookup hperm).symm.trans hs)
  distinct id id' s s' hs hs' :=
    h.distinct id id' s s' ((AList.perm_lookup hperm).symm.trans hs) ((AList.perm_lookup hperm).symm.trans hs')
  fresh := h.fresh
  awaits := h.awaits
  closed hsync id s hs := h.closed hsync id s ((AList.perm_lookup hperm).symm.trans hs)

/-! ## Events that are about one session, or about none -/

/-- What the reader thread of a session does. -/
def OfReader (handle : ℕ) : Event → Prop
  | .read handle' _ | .produced handle' _ => handle' = handle
  | _ => False

/-- An answer that opens nothing and carries no output. -/
def Plain : Event → Prop
  | .sent (.closed _ _) | .sent (.error _) => True
  | _ => False

theorem awaitsOpen_append {log : List Event} (h : ∀ event ∈ events, event ≠ .reset ∧
    ∀ opened, event ≠ .sent (.opened opened)) : awaitsOpen (log ++ events) = awaitsOpen log := by
  rw [awaitsOpen, List.foldl_append]
  change events.foldl awaitsAfter (awaitsOpen log) = awaitsOpen log
  induction events with
  | nil => rfl
  | cons event events ih =>
    rw [List.forall_mem_cons] at h
    obtain ⟨⟨hreset, hopened⟩, hrest⟩ := h
    have hevent : awaitsAfter (awaitsOpen log) event = awaitsOpen log := by
      unfold awaitsAfter
      split
      · exact absurd rfl hreset
      · exact absurd rfl (hopened _)
      · rfl
    rw [List.foldl_cons, hevent, ih hrest]

theorem awaitsOpen_reset (log : List Event) : awaitsOpen (log ++ [.reset]) = true := by
  rw [awaitsOpen, List.foldl_append]
  rfl

theorem awaitsOpen_opened (log : List Event) (opened : TerminalOpened) :
    awaitsOpen (log ++ [.sent (.opened opened)]) = false := by
  rw [awaitsOpen, List.foldl_append]
  rfl

/-- The reader of one session is nothing to the others. -/
theorem quiet_ofReader {handle handle' : ℕ} (hne : handle ≠ handle')
    (h : ∀ event ∈ events, OfReader handle event) : Quiet zstd id handle' events := by
  refine quiet_of_forall fun event hmem => ?_
  have hevent := h event hmem
  cases event with
  | read handle'' _ => exact ⟨rfl, by simp [readOf, hevent.trans_ne hne], rfl, by simp⟩
  | produced handle'' _ => exact ⟨by simp [outputOf, hevent.trans_ne hne], rfl, rfl, by simp⟩
  | reset | sent => exact hevent.elim

theorem quiet_plain {handle : ℕ} (h : ∀ event ∈ events, Plain event) : Quiet zstd id handle events := by
  refine quiet_of_forall fun event hmem => ?_
  have hevent := h event hmem
  unfold Plain at hevent
  split at hevent
  · exact ⟨rfl, rfl, rfl, by simp⟩
  · exact ⟨rfl, rfl, rfl, by simp⟩
  · exact hevent.elim

/-! ## Each action -/

section

variable (h : Inv zstd w)
include h

/-- One session is put in, for itself or as a new one. -/
theorem Inv.insert {created : ℕ} {sync : Bool} (hcreated : w.service.created ≤ created)
    (hs : SessionInv zstd created (w.log ++ events) id s)
    (hother : ∀ id' s', w.sessions.lookup id' = some s' → id' ≠ id →
      s'.handle ≠ s.handle ∧ Quiet zstd id' s'.handle events)
    (hfresh : ∀ handle, created ≤ handle → outputOf handle events = [] ∧ readOf handle events = [])
    (hawaits : awaitsOpen (w.log ++ events) = sync)
    (hclosed : sync = true → w.service.needsSessionSync = true ∧ s.state = .closed) :
    Inv zstd ⟨{ w.service with
      sessions := w.sessions.insert id s
      needsSessionSync := sync
      created := created }, w.log ++ events⟩ := by
  have hlookup (id' : ℤ) (s' : TerminalSession) (hs' : (w.sessions.insert id s).lookup id' = some s') :
      (id' = id ∧ s' = s) ∨ (id' ≠ id ∧ w.sessions.lookup id' = some s') := by
    by_cases hid : id' = id
    · subst hid
      rw [AList.lookup_insert] at hs'
      exact .inl ⟨rfl, (Option.some.inj hs').symm⟩
    · exact .inr ⟨hid, by rwa [AList.lookup_insert_ne hid] at hs'⟩
  constructor
  case session =>
    intro id' s' hs'
    rcases hlookup id' s' hs' with ⟨rfl, rfl⟩ | ⟨hid, hs'⟩
    · exact hs
    · exact (h.session id' s' hs').frame hcreated (hother id' s' hs' hid).2
  case distinct =>
    intro id₁ id₂ s₁ s₂ h₁ h₂ hhandle
    rcases hlookup id₁ s₁ h₁ with ⟨rfl, rfl⟩ | ⟨hid₁, h₁'⟩ <;>
      rcases hlookup id₂ s₂ h₂ with ⟨rfl, rfl⟩ | ⟨hid₂, h₂'⟩
    · rfl
    · exact absurd hhandle.symm (hother id₂ s₂ h₂' hid₂).1
    · exact absurd hhandle (hother id₁ s₁ h₁' hid₁).1
    · exact h.distinct id₁ id₂ s₁ s₂ h₁' h₂' hhandle
  case fresh =>
    intro handle hhandle
    obtain ⟨houtput, hread⟩ := h.fresh handle (Nat.le_trans hcreated hhandle)
    rw [outputOf_append, readOf_append, houtput, hread]
    exact hfresh handle hhandle
  case awaits => exact hawaits
  case closed =>
    intro hsync id' s' hs'
    obtain ⟨hsync', hstate⟩ := hclosed hsync
    rcases hlookup id' s' hs' with ⟨rfl, rfl⟩ | ⟨-, hs'⟩
    · exact hstate
    · exact h.closed hsync' id' s' hs'

/-- Something that happens to one session, and what its reader does. -/
theorem Inv.onSession (id : ℤ) (f : TerminalSession → TerminalSession × List Event)
    (hf : ∀ s, w.sessions.lookup id = some s →
      SessionInv zstd w.service.created (w.log ++ (f s).2) id (f s).1 ∧ (f s).1.handle = s.handle ∧
        (f s).1.state = s.state ∧ ∀ event ∈ (f s).2, OfReader s.handle event) :
    Inv zstd (w.onSession id f) := by
  unfold World.onSession
  split
  · exact h
  · next s hs =>
    obtain ⟨hsession, hhandle, hstate, hevents⟩ := hf s hs
    refine h.insert (Nat.le_refl _) hsession (fun id' s' hs' hid => ?_) (fun handle hle => ?_) ?_ ?_
    · have hne : s.handle ≠ s'.handle := fun heq => hid (h.distinct _ _ _ _ hs hs' heq).symm
      exact ⟨hhandle ▸ hne.symm, quiet_ofReader hne hevents⟩
    · have hne : s.handle ≠ handle := Nat.ne_of_lt (Nat.lt_of_lt_of_le (h.session id s hs).known hle)
      have hquiet : Quiet zstd id handle (f s).2 := quiet_ofReader hne hevents
      exact ⟨hquiet.output, hquiet.read⟩
    · rw [awaitsOpen_append, h.awaits]
      intro event hmem
      have hevent := hevents event hmem
      cases event with
      | read | produced => exact ⟨by simp, by simp⟩
      | reset | sent => exact hevent.elim
    · exact fun hsync => ⟨hsync, hstate.trans (h.closed hsync id s hs)⟩

/-- An answer that opens nothing and carries no output. -/
theorem Inv.note (hplain : ∀ event ∈ events, Plain event) : Inv zstd ⟨w.service, w.log ++ events⟩ where
  session id s hs := (h.session id s hs).frame (Nat.le_refl _) (quiet_plain hplain)
  distinct := h.distinct
  fresh handle hle := by
    obtain ⟨houtput, hread⟩ := h.fresh handle hle
    have hquiet : Quiet zstd 0 handle events := quiet_plain hplain
    rw [outputOf_append, readOf_append, houtput, hread]
    exact ⟨hquiet.output, hquiet.read⟩
  awaits := by
    rw [awaitsOpen_append, h.awaits]
    intro event hmem
    have hevent := hplain event hmem
    unfold Plain at hevent
    split at hevent
    · exact ⟨by simp, by simp⟩
    · exact ⟨by simp, by simp⟩
    · exact hevent.elim
  closed := h.closed

/-- Sessions may be removed. -/
theorem Inv.sub {sessions : Sessions} (hsub : ∀ id s, sessions.lookup id = some s → w.sessions.lookup id = some s) :
    Inv zstd ⟨{ w.service with sessions := sessions }, w.log⟩ where
  session id s hs := h.session id s (hsub id s hs)
  distinct id id' s s' hs hs' := h.distinct id id' s s' (hsub id s hs) (hsub id' s' hs')
  fresh := h.fresh
  awaits := h.awaits
  closed hsync id s hs := h.closed hsync id s (hsub id s hs)

/-- A disconnect closes every session. -/
theorem Inv.reset (isPersistent : Bool) : Inv zstd ⟨w.service.resetStatus isPersistent, w.log ++ [.reset]⟩ := by
  have hlookup (id : ℤ) (s : TerminalSession)
      (hs : (w.service.resetStatus isPersistent).sessions.lookup id = some s) :
      ∃ s', w.sessions.lookup id = some s' ∧ s = { s' with state := .closed } := by
    rw [PersistentTerminalService.resetStatus, Sessions.lookup_mapVal] at hs
    obtain ⟨s', hs', rfl⟩ := Option.map_eq_some_iff.mp hs
    exact ⟨s', hs', rfl⟩
  have hquiet (id : ℤ) (handle : ℕ) : Quiet zstd id handle [.reset] := ⟨rfl, rfl, rfl, by simp⟩
  constructor
  case session =>
    intro id s hs
    obtain ⟨s', hs', rfl⟩ := hlookup id s hs
    exact ((h.session id s' hs').frame (Nat.le_refl _) (hquiet id s'.handle)).closed
  case distinct =>
    intro id₁ id₂ s₁ s₂ h₁ h₂ hhandle
    obtain ⟨s₁', h₁', rfl⟩ := hlookup id₁ s₁ h₁
    obtain ⟨s₂', h₂', rfl⟩ := hlookup id₂ s₂ h₂
    exact h.distinct id₁ id₂ s₁' s₂' h₁' h₂' hhandle
  case fresh =>
    intro handle hle
    obtain ⟨houtput, hread⟩ := h.fresh handle hle
    rw [outputOf_append, readOf_append, houtput, hread]
    exact ⟨rfl, rfl⟩
  case awaits => exact awaitsOpen_reset w.log
  case closed =>
    intro _ id s hs
    obtain ⟨s', -, rfl⟩ := hlookup id s hs
    rfl

/-- Where the sessions are when a terminal is opened. -/
theorem Inv.remapped (terminalId : ℤ) :
    Inv zstd ⟨{ w.service with sessions := w.service.remapped terminalId }, w.log⟩ := by
  rcases w.service.remapped_cases terminalId with heq | ⟨lowestId, s, hsync, habsent, hlowest, heq⟩
  · rw [heq]
    exact h
  · have hlookup (id' : ℤ) (s' : TerminalSession) (hs' : (w.service.sessions.erase lowestId).lookup id' = some s') :
        id' ≠ lowestId ∧ w.sessions.lookup id' = some s' := by
      have hid : id' ≠ lowestId := by
        rintro rfl
        rw [AList.lookup_erase] at hs'
        cases hs'
      exact ⟨hid, by rwa [AList.lookup_erase_ne hid] at hs'⟩
    have herased := h.sub fun id' s' hs' => (hlookup id' s' hs').2
    have hclosed : s.state = .closed := h.closed hsync lowestId s hlowest
    have hsession : SessionInv zstd w.service.created (w.log ++ []) terminalId s := by
      rw [List.append_nil]
      exact (h.session lowestId s hlowest).move hclosed
    have hawaits : awaitsOpen (w.log ++ []) = w.service.needsSessionSync := by
      rw [List.append_nil]
      exact h.awaits
    rw [heq]
    have hinsert := herased.insert (Nat.le_refl _) hsession
      (fun id' s' hs' _ => ⟨fun hhandle => (hlookup id' s' hs').1
        (h.distinct _ _ _ _ (hlookup id' s' hs').2 hlowest hhandle), ⟨rfl, rfl, rfl, by simp⟩⟩)
      (fun _ _ => ⟨rfl, rfl⟩) hawaits fun _ => ⟨hsync, hclosed⟩
    rw [List.append_nil] at hinsert
    exact hinsert

/-- A terminal is opened. -/
theorem Inv.openTerminal (open' : OpenTerminal) (spawned : Except SpawnError ℕ) :
    Inv zstd ⟨(w.service.handleOpen open' spawned).1,
      w.log ++ answer ((w.service.handleOpen open' spawned).2.map some)⟩ := by
  have hmoved := h.remapped open'.terminalId
  have hquiet (opened : TerminalOpened) (hid : opened.terminalId = open'.terminalId) (id : ℤ) (handle : ℕ)
      (hne : id ≠ open'.terminalId) : Quiet zstd id handle [.sent (.opened opened)] := by
    refine ⟨rfl, rfl, rfl, fun later hlater => ?_⟩
    obtain rfl : later = opened := by simpa using hlater
    exact fun heq => hne (heq.symm.trans hid)
  unfold PersistentTerminalService.handleOpen
  dsimp only
  split
  · next s hs =>
    have hsession := (hmoved.session _ s hs)
    exact hmoved.insert (Nat.le_refl _) (hsession.reconnect rfl)
      (fun id' s' hs' hid => ⟨fun hhandle => hid (hmoved.distinct _ _ _ _ hs' hs hhandle), hquiet _ rfl id' _ hid⟩)
      (fun _ _ => ⟨rfl, rfl⟩) (awaitsOpen_opened w.log _) (fun hsync => by cases hsync)
  · split
    · exact hmoved.note (by simp [answer, Except.map, Plain])
    · next pid =>
      have hfresh := hmoved.fresh w.service.created (Nat.le_refl _)
      exact hmoved.insert (Nat.le_succ _)
        (SessionInv.spawned hfresh (Nat.lt_succ_self _) rfl pid open'.rows open'.cols)
        (fun id' s' hs' hid => ⟨Nat.ne_of_lt (hmoved.session id' s' hs').known, hquiet _ rfl id' _ hid⟩)
        (fun _ _ => ⟨rfl, rfl⟩) (awaitsOpen_opened w.log _) (fun hsync => by cases hsync)

end

/-! ## Polls -/

/-- What a poll sends for one terminal is nothing to the others. -/
theorem received_readOutput_ne {terminalId : ℤ} (hne : terminalId ≠ id) (resizePty : ℕ → ℕ → Bool)
    (s : TerminalSession) : received zstd id ((s.readOutput zstd resizePty terminalId).2.map .sent) = [] := by
  unfold TerminalSession.readOutput received
  cases s.state with
  | closed => rfl
  | active pendingBuffer sigwinch =>
    rw [List.map_map, List.flatMap_map]
    refine List.flatMap_eq_nil_iff.mpr fun data _ => ?_
    exact (payload_createTerminalDataResponse zstd terminalId id data).trans (if_neg hne)

/-- A poll only sends data. -/
theorem opened_notMem_readOutput (id : ℤ) (resizePty : ℕ → ℕ → Bool) (s : TerminalSession)
    (opened : TerminalOpened) : .opened opened ∉ (s.readOutput zstd resizePty id).2 := by
  unfold TerminalSession.readOutput
  cases s.state with
  | closed => simp
  | active pendingBuffer sigwinch =>
    intro hmem
    obtain ⟨data, -, hdata⟩ := List.mem_map.mp hmem
    unfold createTerminalDataResponse at hdata
    split at hdata
    · dsimp only at hdata
      split at hdata <;> cases hdata
    · cases hdata

/-- What a client gets of one terminal, out of the responses for all of them. -/
theorem received_flatMap (g : (Σ _ : ℤ, TerminalSession) → List TerminalResponse)
    (hother : ∀ e : Σ _ : ℤ, TerminalSession, e.1 ≠ id → received zstd id ((g e).map .sent) = [])
    (entries : List (Σ _ : ℤ, TerminalSession)) (hnodup : entries.NodupKeys) (hmem : ⟨id, s⟩ ∈ entries) :
    received zstd id ((entries.flatMap g).map .sent) = received zstd id ((g ⟨id, s⟩).map .sent) := by
  have hnone (entries : List (Σ _ : ℤ, TerminalSession)) (habsent : id ∉ entries.keys) :
      received zstd id ((entries.flatMap g).map .sent) = [] := by
    induction entries with
    | nil => rfl
    | cons e entries ih =>
      rw [List.keys_cons, List.mem_cons, not_or] at habsent
      rw [List.flatMap_cons, List.map_append, received_append, hother e (Ne.symm habsent.1),
        ih habsent.2, List.append_nil]
  induction entries with
  | nil => cases hmem
  | cons e entries ih =>
    obtain ⟨habsent, hnodup'⟩ := List.nodupKeys_cons.mp hnodup
    rw [List.flatMap_cons, List.map_append, received_append]
    rcases List.mem_cons.mp hmem with rfl | hmem'
    · rw [hnone entries habsent, List.append_nil]
    · have hne : e.1 ≠ id := by
        rintro rfl
        have hkey := List.mem_keys_of_mem hmem'
        exact habsent hkey
      rw [hother e hne, ih hnodup' hmem', List.nil_append]

/-- What a poll leaves of the sessions, and what it sends. -/
theorem readOutputs_spec (zstd : Zstd) (locked : List ℤ) (resizePty : ℤ → ℕ → ℕ → Bool)
    (service : PersistentTerminalService) :
    ∃ sessions responses, service.readOutputs zstd locked resizePty =
        ({ service with sessions := sessions }, responses) ∧
      (∀ id s', sessions.lookup id = some s' → ∃ s, service.sessions.lookup id = some s ∧
        s' = if id ∈ locked then s else (s.readOutput zstd (resizePty id) id).1) ∧
      (∀ id s, service.sessions.lookup id = some s → received zstd id (responses.map .sent) =
        if id ∈ locked then []
        else received zstd id ((s.readOutput zstd (resizePty id) id).2.map .sent)) ∧
      ∀ opened, .opened opened ∉ responses := by
  let g (e : Σ _ : ℤ, TerminalSession) : List TerminalResponse :=
    if e.1 ∈ locked then [] else (e.2.readOutput zstd (resizePty e.1) e.1).2
  have hg (e : Σ _ : ℤ, TerminalSession) (id : ℤ) (hne : e.1 ≠ id) : received zstd id ((g e).map .sent) = [] := by
    dsimp only [g]
    split
    · rfl
    · exact received_readOutput_ne hne _ _
  obtain ⟨sessions, closed, heq, hsub, hclosed⟩ :=
    PersistentTerminalService.foldl_closeTerminal
      { service with sessions := service.sessions.mapVal fun id s =>
          if id ∈ locked then s else (s.readOutput zstd (resizePty id) id).1 }
      ((service.sessions.entries.filter fun e => e.1 ∉ locked ∧ e.2.shouldSendClosed = true).map (·.1))
      (service.sessions.entries.flatMap g)
  refine ⟨sessions, service.sessions.entries.flatMap g ++ closed, heq, ?_, ?_, ?_⟩
  · intro id s' hs'
    have hmapped := hsub id s' hs'
    rw [Sessions.lookup_mapVal] at hmapped
    obtain ⟨s, hs, rfl⟩ := Option.map_eq_some_iff.mp hmapped
    exact ⟨s, hs, rfl⟩
  · intro id s hs
    have hnone : received zstd id (closed.map .sent) = [] := by
      rw [received, List.flatMap_map]
      refine List.flatMap_eq_nil_iff.mpr fun response hmem => ?_
      obtain ⟨id', exitCode, rfl⟩ := hclosed response hmem
      rfl
    rw [List.map_append, received_append, hnone, List.append_nil,
      received_flatMap g (fun e => hg e id) _ service.sessions.nodupKeys (AList.mem_lookup_iff.mp hs)]
    dsimp only [g]
    split <;> rfl
  · intro opened hmem
    rcases List.mem_append.mp hmem with hdata | hdata
    · obtain ⟨e, -, he⟩ := List.mem_flatMap.mp hdata
      dsimp only [g] at he
      split at he
      · cases he
      · exact opened_notMem_readOutput _ _ _ opened he
    · obtain ⟨id', exitCode, heq'⟩ := hclosed _ hdata
      cases heq'

theorem Inv.poll (h : Inv zstd w) (locked : List ℤ) (resizePty : ℤ → ℕ → ℕ → Bool) :
    Inv zstd ⟨(w.service.readOutputs zstd locked resizePty).1,
      w.log ++ (w.service.readOutputs zstd locked resizePty).2.map .sent⟩ := by
  obtain ⟨sessions, responses, heq, hsessions, hreceived, hopened⟩ :=
    readOutputs_spec zstd locked resizePty w.service
  rw [heq]
  have hlater (later : TerminalOpened) : .sent (.opened later) ∉ responses.map Event.sent := by
    intro hmem
    obtain ⟨response, hresponse, heq'⟩ := List.mem_map.mp hmem
    cases heq'
    exact hopened later hresponse
  have hhandle (id : ℤ) (s' : TerminalSession) (hs' : sessions.lookup id = some s') :
      ∃ s, w.sessions.lookup id = some s ∧ s'.handle = s.handle := by
    obtain ⟨s, hs, rfl⟩ := hsessions id s' hs'
    refine ⟨s, hs, ?_⟩
    split
    · rfl
    · unfold TerminalSession.readOutput
      cases s.state <;> rfl
  constructor
  case session =>
    intro id s' hs'
    obtain ⟨s, hs, rfl⟩ := hsessions id s' hs'
    have hgot := hreceived id s hs
    split
    · next hlocked =>
      rw [if_pos hlocked] at hgot
      exact (h.session id s hs).frame (Nat.le_refl _)
        ⟨outputOf_sent _ _, readOf_sent _ _, hgot, fun later hmem => absurd hmem (hlater later)⟩
    · next hlocked =>
      rw [if_neg hlocked] at hgot
      exact (h.session id s hs).readOutput _ (outputOf_sent _ _) (readOf_sent _ _) hgot
        fun later hmem => absurd hmem (hlater later)
  case distinct =>
    intro id₁ id₂ s₁ s₂ h₁ h₂ heq'
    obtain ⟨s₁', h₁', hhandle₁⟩ := hhandle id₁ s₁ h₁
    obtain ⟨s₂', h₂', hhandle₂⟩ := hhandle id₂ s₂ h₂
    exact h.distinct id₁ id₂ s₁' s₂' h₁' h₂' (hhandle₁.symm.trans (heq'.trans hhandle₂))
  case fresh =>
    intro handle hle
    rw [outputOf_append, readOf_append, outputOf_sent, readOf_sent, List.append_nil, List.append_nil]
    exact h.fresh handle hle
  case awaits =>
    rw [awaitsOpen_append, h.awaits]
    intro event hmem
    refine ⟨?_, fun opened heq' => hlater opened (heq' ▸ hmem)⟩
    rintro rfl
    obtain ⟨response, -, heq'⟩ := List.mem_map.mp hmem
    cases heq'
  case closed =>
    intro hsync id s' hs'
    obtain ⟨s, hs, rfl⟩ := hsessions id s' hs'
    have hstate := h.closed hsync id s hs
    split
    · exact hstate
    · unfold TerminalSession.readOutput
      rw [hstate]

/-! ## Runs -/

/-- The channel that a reader passes a chunk on to has room for it. -/
def Roomy (w : World) : Action → Prop
  | .read id _ | .readerEnds id _ =>
    ∀ s, w.sessions.lookup id = some s → s.outputRx.length < CHANNEL_BUFFER_SIZE
  | _ => True

theorem trySendOutput_fields (s : TerminalSession) (data : Bytes) :
    (s.trySendOutput data).handle = s.handle ∧ (s.trySendOutput data).state = s.state := by
  unfold TerminalSession.trySendOutput
  split <;> exact ⟨rfl, rfl⟩

theorem readPty_fields (s : TerminalSession) (bytes : Bytes) :
    (s.readPty bytes).1.handle = s.handle ∧ (s.readPty bytes).1.state = s.state := by
  unfold TerminalSession.readPty
  rcases s.utf8Chunks.pushChunk bytes with ⟨_ | chunk, utf8Chunks⟩
  · exact ⟨rfl, rfl⟩
  · exact trySendOutput_fields { s with utf8Chunks := utf8Chunks } chunk

theorem readerEnds_fields (s : TerminalSession) (eof : Bool) :
    (s.readerEnds eof).1.handle = s.handle ∧ (s.readerEnds eof).1.state = s.state := by
  unfold TerminalSession.readerEnds
  cases eof with
  | false => exact ⟨rfl, rfl⟩
  | true =>
    rw [if_pos rfl]
    rcases s.utf8Chunks.finish with ⟨_ | chunk, utf8Chunks⟩
    · exact ⟨rfl, rfl⟩
    · exact trySendOutput_fields { s with readerFinished := true, utf8Chunks := utf8Chunks } chunk

theorem ofReader_passedOn (handle : ℕ) (chunk : Option Bytes) :
    ∀ event ∈ passedOn handle chunk, OfReader handle event := by
  cases chunk <;> simp [passedOn, OfReader]

theorem plain_answer {result : Except String (Option TerminalResponse)}
    (h : ∀ response, result = .ok (some response) → ∃ id exitCode, response = .closed id exitCode) :
    ∀ event ∈ answer result, Plain event := by
  rcases result with err | _ | response
  · simp [answer, Plain]
  · simp [answer]
  · obtain ⟨id, exitCode, rfl⟩ := h response rfl
    simp [answer, Plain]

/-- The id of a session stays, whatever size its terminal gets. -/
theorem Inv.resize (h : Inv zstd w) (resize : ResizeTerminal) (resized : Except String Unit) :
    Inv zstd ⟨(w.service.handleResize resize resized).1,
      w.log ++ answer (w.service.handleResize resize resized).2⟩ := by
  have hresized := h.onSession resize.terminalId
    (fun s => ({ s with rows := resize.rows % 2 ^ 16, cols := resize.cols % 2 ^ 16 }, [])) fun s hs => by
      have hsession := h.session resize.terminalId s hs
      rw [List.append_nil]
      exact ⟨⟨hsession.known, hsession.room, hsession.buffered, hsession.held, hsession.streams⟩, rfl, rfl, by simp⟩
  unfold World.onSession sessions at hresized
  unfold PersistentTerminalService.handleResize
  split at hresized
  · exact h.note (plain_answer fun response heq => by cases heq)
  · rw [List.append_nil] at hresized
    refine hresized.note (plain_answer fun response heq => ?_)
    cases resized <;> cases heq

theorem Inv.close (h : Inv zstd w) (terminalId : ℤ) (killed : Except String Unit) :
    Inv zstd ⟨(w.service.handleClose terminalId killed).1,
      w.log ++ answer (w.service.handleClose terminalId killed).2⟩ := by
  unfold PersistentTerminalService.handleClose
  split
  · have herased := h.sub fun id s (hs : (w.service.sessions.erase terminalId).lookup id = some s) => by
      by_cases hid : id = terminalId
      · subst hid
        rw [AList.lookup_erase] at hs
        cases hs
      · rwa [AList.lookup_erase_ne hid] at hs
    refine herased.note (plain_answer fun response heq => ?_)
    cases killed with
    | error err => cases heq
    | ok => exact ⟨terminalId, -1, by cases heq; rfl⟩
  · exact h.note (plain_answer fun response heq => by cases heq)

theorem Inv.act (h : Inv zstd w) {action : Action} (hroomy : Roomy w action) : Inv zstd (w.act zstd action) := by
  cases action with
  | read id bytes =>
    refine h.onSession id _ fun s hs => ?_
    cases hfinished : s.readerFinished with
    | true =>
      simp only [if_true, List.append_nil]
      exact ⟨h.session id s hs, trivial, trivial, by simp⟩
    | false =>
      obtain ⟨hhandle, hstate⟩ := readPty_fields s bytes
      refine ⟨(h.session id s hs).readPty (hroomy s hs) bytes, hhandle, hstate, ?_⟩
      intro event hmem
      rcases List.mem_cons.mp hmem with rfl | hmem
      · exact rfl
      · exact ofReader_passedOn _ _ event hmem
  | readerEnds id eof =>
    refine h.onSession id _ fun s hs => ?_
    cases hfinished : s.readerFinished with
    | true =>
      simp only [if_true, List.append_nil]
      exact ⟨h.session id s hs, trivial, trivial, by simp⟩
    | false =>
      obtain ⟨hhandle, hstate⟩ := readerEnds_fields s eof
      exact ⟨(h.session id s hs).readerEnds (hroomy s hs) eof, hhandle, hstate, ofReader_passedOn _ _⟩
  | childExits id status =>
    refine h.onSession id _ fun s hs => ?_
    have hsession := h.session id s hs
    rw [List.append_nil]
    exact ⟨⟨hsession.known, hsession.room, hsession.buffered, hsession.held, hsession.streams⟩, rfl, rfl, by simp⟩
  | poll locked resizePty => exact h.poll locked resizePty
  | reset isPersistent => exact h.reset isPersistent
  | openTerminal open' spawned => exact h.openTerminal open' spawned
  | resize resize resized => exact h.resize resize resized
  | close terminalId killed => exact h.close terminalId killed

/-- What holds at the start holds in every run in which no channel is full. -/
theorem Inv.run {serviceId : String} {isPersistent : Bool} {actions : List Action}
    (hrun : Run (Only Roomy (Step zstd)) (World.start serviceId isPersistent) actions w) : Inv zstd w := by
  refine hrun.invariant (fun w action w' h hstep => ?_) (Inv.start serviceId isPersistent)
  obtain ⟨hroomy, sessions, hperm, rfl⟩ := hstep
  refine (h.perm hperm).act ?_
  cases action with
  | read | readerEnds => exact fun s hs => hroomy s ((AList.perm_lookup hperm).symm.trans hs)
  | childExits | poll | reset | openTerminal | resize | close => trivial

/-! ## Output is neither lost nor repeated -/

/-- What a client can rely on, at some moment of a run. -/
structure Faithful (zstd : Zstd) (w : World) : Prop where
  /-- of a terminal that it opened, it has the end of the output before, at most 8 KiB of it, and all the
  output since, but for what waits for the next poll -/
  streamed : ∀ id s, w.sessions.lookup id = some s → s.state ≠ .closed →
    ∃ before opened after, w.log = before ++ .sent (.opened opened) :: after ∧ opened.terminalId = id ∧
      (∀ later, .sent (.opened later) ∈ after → later.terminalId ≠ id) ∧
      kept s.handle before <:+ (outputOf s.handle before).flatten ∧
      (kept s.handle before).length ≤ 8 * 1024 ∧
      received zstd id after ++ s.waiting = kept s.handle before ++ (outputOf s.handle after).flatten
  /-- nothing waits after a poll -/
  polled : ∀ locked resizePty w', Step zstd w (.poll locked resizePty) w' →
    ∀ id s, w'.sessions.lookup id = some s → id ∉ locked → s.state ≠ .closed → s.waiting = []
  /-- what the reader of a session has read is the output, but for the bytes of a character that is not
  there yet -/
  read : ∀ id s, w.sessions.lookup id = some s →
    readOf s.handle w.log = (outputOf s.handle w.log).flatten ++ s.utf8Chunks.remainder
  /-- the first open of a connection loses no session, and each is the one opened or is named -/
  named : awaitsOpen w.log = true → ∀ open' spawned w' opened,
    Step zstd w (.openTerminal open' spawned) w' → w'.log = w.log ++ [.sent (.opened opened)] →
    (∀ id s, w.sessions.lookup id = some s →
      ∃ id' s', w'.sessions.lookup id' = some s' ∧ s'.handle = s.handle) ∧
    ∀ id s', w'.sessions.lookup id = some s' → id = open'.terminalId ∨ id ∈ opened.persistentSessions

/-- A poll leaves nothing in a session that is open. -/
theorem waiting_of_poll {locked : List ℤ} {resizePty : ℤ → ℕ → ℕ → Bool}
    (hstep : Step zstd w (.poll locked resizePty) w')
    (hs : w'.sessions.lookup id = some s) (hlocked : id ∉ locked) (hopen : s.state ≠ .closed) :
    s.waiting = [] := by
  obtain ⟨sessions, -, rfl⟩ := hstep
  obtain ⟨sessions', responses, heq, hsessions, -, -⟩ :=
    readOutputs_spec zstd locked resizePty { w.service with sessions := sessions }
  change (PersistentTerminalService.readOutputs zstd locked resizePty
    { w.service with sessions := sessions }).1.sessions.lookup id = some s at hs
  rw [heq] at hs
  obtain ⟨s', -, rfl⟩ := hsessions id s hs
  rw [if_neg hlocked] at hopen ⊢
  unfold TerminalSession.waiting TerminalSession.readOutput at *
  cases hstate : s'.state with
  | closed => simp [hstate] at hopen
  | active pendingBuffer sigwinch => rfl

/-- The answer to the first open of a connection. -/
theorem named_of_open (service : PersistentTerminalService) (hsync : service.needsSessionSync = true)
    (open' : OpenTerminal) (spawned : Except SpawnError ℕ) {opened : TerminalOpened}
    (hopened : (service.handleOpen open' spawned).2 = .ok (.opened opened)) :
    (∀ id s, service.sessions.lookup id = some s →
      ∃ id' s', (service.handleOpen open' spawned).1.sessions.lookup id' = some s' ∧ s'.handle = s.handle) ∧
    ∀ id s', (service.handleOpen open' spawned).1.sessions.lookup id = some s' →
      id = open'.terminalId ∨ id ∈ opened.persistentSessions := by
  have hmoved (id : ℤ) (s : TerminalSession) (hs : service.sessions.lookup id = some s) :=
    service.lookup_remapped open'.terminalId hs
  unfold PersistentTerminalService.handleOpen at *
  dsimp only at *
  cases hlookup : (service.remapped open'.terminalId).lookup open'.terminalId with
  | some session =>
    rw [hlookup] at hopened
    simp only [Except.ok.injEq, TerminalResponse.opened.injEq] at hopened
    subst hopened
    constructor
    · intro id s hs
      obtain ⟨id', hid'⟩ := hmoved id s hs
      by_cases heq : id' = open'.terminalId
      · subst heq
        cases hlookup.symm.trans hid'
        exact ⟨open'.terminalId, session.reconnect.1, AList.lookup_insert _, rfl⟩
      · exact ⟨id', s, by rw [AList.lookup_insert_ne heq, hid'], rfl⟩
    · intro id s' hs'
      refine or_iff_not_imp_left.mpr fun hne => ?_
      rw [AList.lookup_insert_ne hne] at hs'
      have hid : id ∈ (service.remapped open'.terminalId).keys := AList.lookup_isSome.mp (by rw [hs']; rfl)
      have hopen : open'.terminalId ∈ (service.remapped open'.terminalId).keys :=
        AList.lookup_isSome.mp (by rw [hlookup]; rfl)
      -- two ids, so that the others are named
      have htwo : 1 < (service.remapped open'.terminalId).keys.length := by
        by_contra hshort
        have hle : (service.remapped open'.terminalId).keys.length ≤ 1 := Nat.le_of_not_lt hshort
        rcases hkeys : (service.remapped open'.terminalId).keys with _ | ⟨key, _ | ⟨key', keys⟩⟩
        · rw [hkeys] at hid
          cases hid
        · rw [hkeys, List.mem_singleton] at hid hopen
          exact hne (hid.trans hopen.symm)
        · rw [hkeys] at hle
          simp at hle
      rw [hsync, decide_eq_true htwo, Bool.and_self, if_pos rfl]
      exact List.mem_filter.mpr ⟨hid, decide_eq_true hne⟩
  | none =>
    -- nothing is there on the first open: nothing is lost
    have hempty := service.mem_remapped open'.terminalId hsync hlookup
    rw [hlookup] at hopened
    cases spawned with
    | error e => cases hopened
    | ok pid =>
      have hnone (id : ℤ) (s : TerminalSession) : (service.remapped open'.terminalId).lookup id ≠ some s := by
        intro hs
        have hid : id ∈ (service.remapped open'.terminalId).keys := AList.lookup_isSome.mp (by rw [hs]; rfl)
        rw [hempty] at hid
        cases hid
      constructor
      · intro id s hs
        obtain ⟨id', hid'⟩ := hmoved id s hs
        exact absurd hid' (hnone id' s)
      · intro id s' hs'
        refine or_iff_not_imp_left.mpr fun hne => ?_
        rw [AList.lookup_insert_ne hne] at hs'
        exact absurd hs' (hnone id s')

/-- **Terminal output survives a reconnect**: in every run in which no output channel is full, at every
moment. -/
theorem output_survives_reconnect (zstd : Zstd) (serviceId : String) (isPersistent : Bool)
    (actions : List Action) (w : World)
    (hrun : Run (Only Roomy (Step zstd)) (World.start serviceId isPersistent) actions w) :
    Faithful zstd w := by
  have h : Inv zstd w := Inv.run hrun
  constructor
  case streamed =>
    intro id s hs hopen
    obtain ⟨before, opened, after, hlog, hid, hlast, hstream⟩ := (h.session id s hs).streams hopen
    obtain ⟨hsuffix, hlength⟩ := kept_spec s.handle before
    exact ⟨before, opened, after, hlog, hid, hlast, hsuffix, hlength, hstream⟩
  case polled =>
    intro locked resizePty w' hstep id s hs hlocked hopen
    exact waiting_of_poll hstep hs hlocked hopen
  case read => exact fun id s hs => (h.session id s hs).held
  case named =>
    rintro hawaits open' spawned w' opened ⟨sessions, hperm, rfl⟩ hlog
    have hsync : w.service.needsSessionSync = true := h.awaits.symm.trans hawaits
    have hanswer : answer (({ w.service with sessions := sessions }.handleOpen open' spawned).2.map some) =
        [.sent (.opened opened)] := List.append_cancel_left hlog
    have hopened : ({ w.service with sessions := sessions }.handleOpen open' spawned).2 =
        .ok (.opened opened) := by
      cases hresult : ({ w.service with sessions := sessions }.handleOpen open' spawned).2 with
      | error e =>
        rw [hresult] at hanswer
        simp [Except.map, answer] at hanswer
      | ok response =>
        rw [hresult] at hanswer
        simpa [Except.map, answer] using hanswer
    obtain ⟨hkept, hnamed⟩ := named_of_open { w.service with sessions := sessions } hsync open' spawned hopened
    exact ⟨fun id s hs => hkept id s ((AList.perm_lookup hperm).trans hs), hnamed⟩

/-- A library that stores the data. Short output does not go through it. -/
def stored : Zstd := ⟨some, some, fun data => ⟨data, rfl, rfl⟩⟩

/-- Terminal 2 prints `hi`, the connection breaks, it prints `!`, and the client opens terminal 1: it gets
`hi!` with the next poll. -/
def reconnecting : List Action :=
  [.openTerminal ⟨2, 24, 80⟩ (.ok 7), .read 2 [104, 105], .poll [] fun _ _ _ => true, .reset true,
    .read 2 [33], .openTerminal ⟨1, 24, 80⟩ (.error .openPty)]

theorem output_survives_reconnecting :
    ∃ w, Run (Only Roomy (Step stored)) (World.start "ts_1" true) reconnecting w ∧ Faithful stored w ∧
      (w.sessions.lookup 1).map TerminalSession.waiting = some [104, 105, 33] := by
  have hrun : Run (Only Roomy (Step stored)) (World.start "ts_1" true) reconnecting
      (reconnecting.foldl (act stored) (World.start "ts_1" true)) := by
    refine .cons ⟨trivial, _, .refl _, rfl⟩ <| .cons ⟨?_, _, .refl _, rfl⟩ <|
      .cons ⟨trivial, _, .refl _, rfl⟩ <| .cons ⟨trivial, _, .refl _, rfl⟩ <|
      .cons ⟨?_, _, .refl _, rfl⟩ <| .cons ⟨trivial, _, .refl _, rfl⟩ <| .nil _
    · intro s hs
      cases hs
      decide
    · intro s hs
      cases hs
      decide
  exact ⟨_, hrun, output_survives_reconnect stored "ts_1" true reconnecting _ hrun, by decide +kernel⟩

end World

end RustDesk.Terminal
