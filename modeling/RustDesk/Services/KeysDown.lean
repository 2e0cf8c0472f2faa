import RustDesk.Services.InputService

/-!
# The keys that are down at the host

References: `src/server/input_service.rs` (`KEYS_DOWN`, `record_pressed_key`, `release_device_modifiers`,
`press_modifiers`, `release_keys`).

A key that is down is recorded in `KEYS_DOWN` or is one of the modifiers that are released at the end, and a legacy
event gives back the modifiers it pressed. `Accounts` is the condition on an event.
-/

namespace RustDesk.Services.InputService

section Statements

variable (b : BackEnd) (s : Host)

/-- The key codes of a key, if there is one. -/
def keyCodes : Option Key → Finset ℕ
  | some key => b.codes key
  | none => ∅

/-- The key codes that are released for a record. -/
def recordCodes : KeysDown → Finset ℕ
  | .rdevKey code => {code}
  | .enigoKey record => keyCodes b (recordKeyToKey record)

def Accounted (code : ℕ) : Prop :=
  (∃ record ∈ s.keysDown, code ∈ recordCodes b record) ∨ ∃ m ∈ Host.deviceModifiers, code ∈ b.codes m

structure NoKeyLost : Prop where
  accounted : ∀ code ∈ s.down, Accounted b s code
  cleared : ((s.fixKeyDownTimeout b true fun _ => false).releaseDeviceModifiers b).down = ∅

/-- The key that a legacy event is about. -/
def ownKey (evt : KeyEvent) : Option Key :=
  match evt.union with
  | some (.controlKey ck) => controlKeyValueToKey ck
  | some (.chr chr) => some (charValueToKey chr.toNat)
  | _ => none

def ownCodes (evt : KeyEvent) : Finset ℕ := keyCodes b (ownKey evt)

/-- What is pressed for a legacy event is up again, nothing but its own key is put down, and what its list does not ask
for is up. -/
structure ModifiersKept (evt : KeyEvent) : Prop where
  released : ∀ key ∈ (s.syncModifiers b evt).2, ∀ code ∈ b.codes key, code ∉ (s.legacyKeyboardMode b evt).down
  kept : (s.legacyKeyboardMode b evt).down ⊆ s.down ∪ ownCodes b evt
  asked : evt.down = true → ∀ m ∈ Host.fixedModifiers, Host.getControlKeyValue evt ≠ m.own → m.asked ∉ evt.modifiers →
    ∀ code ∈ b.codes m.key, code ∈ (s.legacyKeyboardMode b evt).down → code ∈ ownCodes b evt

/-- The event is one of map mode, or one of translate mode for a key. -/
def SendsRawKey (evt : KeyEvent) : Prop :=
  evt.mode = some .map ∨ evt.mode = some .translate ∧ ∃ code, evt.union = some (.chr code)

def IsLegacy (evt : KeyEvent) : Prop := evt.mode ≠ some .map ∧ evt.mode ≠ some .translate

/-- On Wayland a raw key that goes down is recorded already or is a modifier. A function key presses no modifier. A
control key without a key of its own does not go up when the key that has its record is down. -/
structure Accounts (evt : KeyEvent) : Prop where
  raw : b.session ≠ .x11 → SendsRawKey evt → evt.down = true →
    s.server.accepts (.raw (Host.chrOf evt % 2 ^ 16)) = true →
    ∀ code ∈ b.codes (.raw (Host.chrOf evt % 2 ^ 16)), Accounted b s code
  function : IsLegacy evt → ∀ ck, evt.union = some (.controlKey ck) → isFunctionKey ck = true →
    (s.syncModifiers b evt).2 = []
  unknown : IsLegacy evt → ∀ ck, evt.union = some (.controlKey ck) → controlKeyValueToKey ck = none →
    evt.down = false → ∀ code ∈ s.down, code ∉ recordCodes b (controlKeyRecord ck)

def HostEvent.Accounts : HostEvent → Prop
  | .key evt => InputService.Accounts b s evt
  | _ => True

end Statements

/-! ## What an operation presses -/

section Presses

variable {b : BackEnd} {s t u : Host} {codes codes' : Finset ℕ} {code : ℕ} {key : Key}

/-- From one state to the other nothing is pressed but these codes, and nothing is recorded. -/
structure Presses (codes : Finset ℕ) (s t : Host) : Prop where
  down : t.down ⊆ s.down ∪ codes
  keysDown : t.keysDown = s.keysDown

theorem Presses.refl (s : Host) : Presses ∅ s s := ⟨Finset.subset_union_left, rfl⟩

theorem Presses.trans (h : Presses codes s t) (h' : Presses codes' t u) : Presses (codes ∪ codes') s u := by
  refine ⟨fun code hcode => ?_, h'.keysDown.trans h.keysDown⟩
  rcases Finset.mem_union.mp (h'.down hcode) with ht | hnew
  · rw [← Finset.union_assoc]
    exact Finset.mem_union_left _ (h.down ht)
  · exact Finset.mem_union_right _ (Finset.mem_union_right _ hnew)

theorem Presses.mono (h : Presses codes s t) (hsub : codes ⊆ codes') : Presses codes' s t :=
  ⟨h.down.trans (Finset.union_subset_union_right hsub), h.keysDown⟩

/-- Releases before and after do not count. -/
theorem Presses.then_release (h : Presses codes s t) (h' : Presses ∅ t u) : Presses codes s u :=
  (h.trans h').mono (Finset.union_subset subset_rfl (Finset.empty_subset codes))

theorem presses_sdiff (s : Host) (codes : Finset ℕ) : Presses ∅ s { s with down := s.down \ codes } :=
  ⟨Finset.sdiff_subset.trans Finset.subset_union_left, rfl⟩

theorem presses_keyUp (b : BackEnd) (s : Host) (key : Key) : Presses ∅ s (s.keyUp b key) := presses_sdiff s _

theorem presses_keySequence (b : BackEnd) (s : Host) (text : List Char) : Presses ∅ s (s.keySequence b text) :=
  presses_sdiff s _

theorem presses_keyDown (b : BackEnd) (s : Host) (key : Key) : Presses (b.codes key) s (s.keyDown b key).1 := by
  have hpress : Presses (b.codes key) s { s with down := s.down ∪ b.codes key } := ⟨subset_rfl, rfl⟩
  unfold Host.keyDown
  split
  · split
    · split
      · exact (presses_keySequence b s _).mono (Finset.empty_subset _)
      · exact hpress
    · exact hpress
  · exact (Presses.refl s).mono (Finset.empty_subset _)

/-- What is pressed and released again. -/
theorem Presses.keyUp (h : Presses (b.codes key) s t) : Presses ∅ s (t.keyUp b key) := by
  refine ⟨fun code hcode => ?_, h.keysDown⟩
  obtain ⟨hdown, hnot⟩ := Finset.mem_sdiff.mp hcode
  exact Finset.mem_union_left _ ((Finset.mem_union.mp (h.down hdown)).resolve_right hnot)

theorem keyDown_of_failed (h : (s.keyDown b key).2 = false) : (s.keyDown b key).1 = s := by
  unfold Host.keyDown at h ⊢
  split
  · next haccepts =>
    rw [if_pos haccepts] at h
    split at h
    · split at h <;> cases h
    · cases h
  · rfl

theorem presses_foldl {α : Type*} {f : Host → α → Host} (hf : ∀ s a, Presses ∅ s (f s a)) (as : List α) (s : Host) :
    Presses ∅ s (as.foldl f s) := by
  induction as generalizing s with
  | nil => exact .refl s
  | cons a as ih => exact (hf s a).then_release (ih (f s a))

theorem presses_simulate_up (s : Host) (code : ℕ) : Presses ∅ s (s.simulate code false) :=
  ⟨(Finset.erase_subset _ _).trans Finset.subset_union_left, rfl⟩

theorem presses_releaseKeys (b : BackEnd) (s : Host) (keys : List Key) : Presses ∅ s (s.releaseKeys b keys) :=
  presses_foldl (presses_keyUp b) keys s

theorem presses_fixModifier (b : BackEnd) (s : Host) (modifiers : List ℤ) (key0 : ℤ) (key1 : Key) :
    Presses ∅ s (s.fixModifier b modifiers key0 key1) := by
  unfold Host.fixModifier
  split
  · exact presses_keyUp b s key1
  · exact .refl s

theorem presses_releaseShift (b : BackEnd) (s : Host) (key : Key) (code : ℕ) :
    Presses ∅ s (s.releaseShift b key code) := by
  unfold Host.releaseShift
  split
  · split
    · exact presses_simulate_up s code
    · exact presses_keyUp b s key
  · exact .refl s

theorem presses_releaseShiftForCharInput (b : BackEnd) (s : Host) : Presses ∅ s (s.releaseShiftForCharInput b) := by
  unfold Host.releaseShiftForCharInput
  split
  · exact .refl s
  · exact (presses_releaseShift b s _ _).then_release (presses_releaseShift b _ _ _)

theorem presses_releaseUnpressedModifiers (b : BackEnd) (s : Host) (evt : KeyEvent) :
    Presses ∅ s (s.releaseUnpressedModifiers b evt) := by
  refine presses_foldl (fun s m => ?_) _ s
  split
  · exact presses_fixModifier b s _ _ _
  · exact .refl s

/-- Shift and Insert are released on every way out. -/
theorem presses_inputTextViaClipboardServer (b : BackEnd) (s : Host) (text : List Char) :
    Presses ∅ s (s.inputTextViaClipboardServer b text) := by
  unfold Host.inputTextViaClipboardServer
  split
  · exact .refl s
  · have hshift := presses_keyDown b s .shift
    have hinsert := presses_keyDown b (s.keyDown b .shift).1 (.raw 118)
    dsimp only
    split
    · next hfailed =>
      rw [keyDown_of_failed (by simpa using hfailed)]
      exact .refl s
    · split
      · next hfailed =>
        rw [keyDown_of_failed (by simpa using hfailed)]
        exact hshift.keyUp
      · exact (hshift.then_release hinsert.keyUp).keyUp

/-- What is put down for the event is to be released. -/
theorem pressModifiers_spec (b : BackEnd) (modifiers : List ℤ) (s : Host) :
    (s.pressModifiers b modifiers).1.keysDown = s.keysDown ∧ ∀ code ∈ (s.pressModifiers b modifiers).1.down,
        code ∈ s.down ∨ ∃ key ∈ (s.pressModifiers b modifiers).2, code ∈ b.codes key := by
  induction modifiers generalizing s with
  | nil => exact ⟨rfl, fun code h => .inl h⟩
  | cons ck rest ih =>
    rw [Host.pressModifiers]
    split
    · next key _ =>
      split
      · exact ih s
      · obtain ⟨hkeys, hdown⟩ := ih (s.keyDown b key).1
        have hpress := presses_keyDown b s key
        refine ⟨hkeys.trans hpress.keysDown, fun code hcode => ?_⟩
        rcases hdown code hcode with hmem | ⟨other, hother, hmem⟩
        · rcases Finset.mem_union.mp (hpress.down hmem) with hold | hnew
          · exact .inl hold
          · exact .inr ⟨key, List.mem_cons_self, hnew⟩
        · exact .inr ⟨other, List.mem_cons_of_mem _ hother, hmem⟩
    · exact ih s

end Presses

/-! ## What is released one after the other -/

section Clears

variable {b : BackEnd} {s : Host} {codes : Finset ℕ} {code : ℕ} {key : Key}

theorem foldl_subset {α : Type*} {f : Host → α → Host} (hf : ∀ s a, (f s a).down ⊆ s.down) (as : List α) (s : Host) :
    (as.foldl f s).down ⊆ s.down := by
  induction as generalizing s with
  | nil => exact subset_rfl
  | cons a as ih => exact (ih _).trans (hf s a)

/-- What one turn of a loop releases stays up. -/
theorem foldl_clears {α : Type*} {f : Host → α → Host} (hf : ∀ s a, (f s a).down ⊆ s.down) {as : List α} {a : α}
    (ha : a ∈ as) (hclears : ∀ s, code ∉ (f s a).down) (s : Host) : code ∉ (as.foldl f s).down := by
  induction as generalizing s with
  | nil => cases ha
  | cons c as ih =>
    rcases List.mem_cons.mp ha with rfl | ha
    · exact fun hcode => hclears s (foldl_subset hf as _ hcode)
    · exact ih ha (f s c)

theorem Presses.subset {s t : Host} (h : Presses ∅ s t) : t.down ⊆ s.down :=
  h.down.trans (Finset.union_subset subset_rfl (Finset.empty_subset _))

theorem notMem_keyUp (hcode : code ∈ b.codes key) (s : Host) : code ∉ (s.keyUp b key).down :=
  fun h => (Finset.mem_sdiff.mp h).2 hcode

theorem notMem_releaseKeys {keys : List Key} (hkey : key ∈ keys) (hcode : code ∈ b.codes key) (s : Host) :
    code ∉ (s.releaseKeys b keys).down :=
  foldl_clears (fun s key => (presses_keyUp b s key).subset) hkey (notMem_keyUp hcode) s

/-- The state of a modifier covers its key codes. -/
theorem notMem_of_modifierState (hm : key ∈ Host.deviceModifiers) (hstate : s.getModifierState b key = false)
    (hcode : code ∈ b.codes key) : code ∉ s.down := by
  simp only [Host.deviceModifiers, List.mem_cons, List.not_mem_nil, or_false] at hm
  -- on X11 and uinput the state of one side shows both
  rcases hm with rfl | rfl | rfl | rfl | rfl | rfl | rfl | rfl
  case inr.inr.inr.inr.inr.inr.inr =>
    have hboth : 133 ∉ s.down ∧ 134 ∉ s.down := by
      cases hsession : b.session <;> simp_all [Host.getModifierState, Host.getKeyState]
    rw [BackEnd.codes] at hcode
    split at hcode <;> rw [Finset.mem_singleton.mp hcode]
    · exact hboth.1
    · exact hboth.2
  all_goals
    rw [BackEnd.codes, Finset.mem_singleton] at hcode
    cases hsession : b.session <;> simp_all [Host.getModifierState, Host.getKeyState]

theorem notMem_releaseDeviceModifiers (hm : key ∈ Host.deviceModifiers) (hcode : code ∈ b.codes key) (s : Host) :
    code ∉ (s.releaseDeviceModifiers b).down := by
  refine foldl_clears (fun s modifier => ?_) hm (fun s => ?_) s
  · split
    · exact (presses_keyUp b s modifier).subset
    · exact subset_rfl
  · split
    · exact notMem_keyUp hcode s
    · next hstate => exact notMem_of_modifierState hm (Bool.eq_false_of_not_eq_true hstate) hcode

/-- A modifier that the list does not ask for is up. -/
theorem notMem_releaseUnpressedModifiers {evt : KeyEvent} {m : Host.Modifier} (hm : m ∈ Host.fixedModifiers)
    (hown : Host.getControlKeyValue evt ≠ m.own) (hasked : m.asked ∉ evt.modifiers) (hcode : code ∈ b.codes m.key)
    (s : Host) : code ∉ (s.releaseUnpressedModifiers b evt).down := by
  refine foldl_clears (fun s m => ?_) hm (fun s => ?_) s
  · split
    · exact (presses_fixModifier b s _ _ _).subset
    · exact subset_rfl
  · rw [if_pos hown, Host.fixModifier]
    split
    · exact notMem_keyUp hcode s
    · next hstate =>
      have hdevice : ∀ m ∈ Host.fixedModifiers, m.key ∈ Host.deviceModifiers := by decide
      refine notMem_of_modifierState (hdevice m hm) ?_ hcode
      exact Bool.eq_false_of_not_eq_true fun h => hstate ⟨h, hasked⟩

end Clears

/-! ## A legacy event -/

section Legacy

variable {b : BackEnd} {s t u : Host} {evt : KeyEvent} {code : ℕ} {ck : ℤ}

/-- The record of the key that a legacy event is about. -/
def ownRecord (evt : KeyEvent) : Option KeysDown :=
  match evt.union with
  | some (.controlKey ck) => some (controlKeyRecord ck)
  | some (.chr chr) => some (chrRecord chr)
  | _ => none

def recorded (evt : KeyEvent) (keysDown : List KeysDown) : List KeysDown :=
  match ownRecord evt with
  | some record => if evt.down then keysDown.insert record else keysDown.erase record
  | none => keysDown

theorem range_of_controlKeyValueToKey {key : Key} (h : controlKeyValueToKey ck = some key) : 1 ≤ ck ∧ ck ≤ 75 := by
  by_contra hrange
  have hrows : ∀ row ∈ keyMap, 1 ≤ row.1 ∧ row.1 ≤ 75 := by decide
  have hnone : keyMap.lookup ck = none := by
    rw [List.lookup_eq_none_iff]
    intro row hrow
    refine bne_iff_ne.mpr ?_
    rintro rfl
    exact hrange (hrows row hrow)
  rw [controlKeyValueToKey, hnone, if_neg hrange] at h
  cases h

/-- The record of a control key leads back to its key. -/
theorem recordCodes_controlKey {key : Key} (b : BackEnd) (h : controlKeyValueToKey ck = some key) :
    recordCodes b (controlKeyRecord ck) = b.codes key := by
  obtain ⟨hlow, hhigh⟩ := range_of_controlKeyValueToKey h
  have hrecord : ((ck % 2 ^ 64).toNat : ℤ) = ck := by omega
  have hsmall : (ck % 2 ^ 64).toNat < keyCharStart := by
    unfold keyCharStart
    omega
  rw [controlKeyRecord, recordCodes, recordKeyToKey, if_pos hsmall, hrecord, h, keyCodes]

theorem recordCodes_chr (b : BackEnd) (chr : UInt32) :
    recordCodes b (chrRecord chr) = b.codes (charValueToKey chr.toNat) := by
  have hlarge : ¬chr.toNat + keyCharStart < keyCharStart := by omega
  have hchr : (chr.toNat + keyCharStart - keyCharStart) % 2 ^ 32 = chr.toNat := by
    rw [Nat.add_sub_cancel]
    exact Nat.mod_eq_of_lt chr.toNat_lt
  rw [chrRecord, recordCodes, recordKeyToKey, if_neg hlarge, hchr, keyCodes]

/-- What an event does between its modifiers' being pressed and released. -/
structure Handled (b : BackEnd) (evt : KeyEvent) (t u : Host) : Prop where
  down : u.down ⊆ t.down ∪ ownCodes b evt
  up : evt.down = false → ∀ code ∈ u.down, code ∉ ownCodes b evt
  keysDown : u.keysDown = recorded evt t.keysDown

/-- An event without a key of its own. -/
theorem Presses.handled (h : Presses ∅ t u) (hkey : ownKey evt = none) (hrecord : ownRecord evt = none) :
    Handled b evt t u := by
  have hown : ownCodes b evt = ∅ := by rw [ownCodes, hkey, keyCodes]
  refine ⟨h.subset.trans Finset.subset_union_left, fun _ code _ => ?_, ?_⟩
  · rw [hown]
    exact Finset.notMem_empty code
  · rw [recorded, hrecord]
    exact h.keysDown

theorem handled_controlKey (b : BackEnd) (hunion : evt.union = some (.controlKey ck)) (t : Host) :
    Handled b evt t ((t.recordPressedKey (controlKeyRecord ck) evt.down).processControlKey b ck evt.down) := by
  have hown : ownCodes b evt = keyCodes b (controlKeyValueToKey ck) := by rw [ownCodes, ownKey, hunion]
  have hrecorded : recorded evt t.keysDown = (t.recordPressedKey (controlKeyRecord ck) evt.down).keysDown := by
    rw [recorded, ownRecord, hunion]
    rfl
  have hdown : (t.recordPressedKey (controlKeyRecord ck) evt.down).down = t.down := rfl
  rw [Host.processControlKey]
  cases hkey : controlKeyValueToKey ck with
  | none =>
    refine ⟨Finset.subset_union_left, fun _ code _ => ?_, hrecorded.symm⟩
    rw [hown, hkey]
    exact Finset.notMem_empty code
  | some key =>
    rw [hkey, keyCodes] at hown
    dsimp only
    split
    · next hpressed =>
      have hpress := presses_keyDown b (t.recordPressedKey (controlKeyRecord ck) evt.down) key
      refine ⟨?_, fun hup => ?_, hpress.keysDown.trans hrecorded.symm⟩
      · rw [hown]
        exact hpress.down
      · rw [hpressed] at hup
        cases hup
    · refine ⟨?_, fun _ code hcode hmem => ?_, hrecorded.symm⟩
      · exact (presses_keyUp b _ key).subset.trans Finset.subset_union_left
      · rw [hown] at hmem
        exact notMem_keyUp hmem _ hcode

/-- Only a character that is ASCII is a key of uinput. -/
theorem codes_layout_of_uinput {c : Char} (hsession : b.session = .uinput) (hascii : isAsciiPrintable c = false) :
    b.codes (.layout c) = ∅ := by
  rw [BackEnd.codes, if_neg]
  simp [hsession, hascii]

theorem charValueToKey_of_some {value : ℕ} {c : Char} (h : charFromU32 value = some c) :
    charValueToKey value = .layout c := by
  rw [charValueToKey, h, Option.getD_some]

theorem codes_of_none {value : ℕ} (hsession : b.session = .uinput) (h : charFromU32 value = none) :
    b.codes (charValueToKey value) = ∅ := by
  rw [charValueToKey, h, Option.getD_none]
  exact codes_layout_of_uinput hsession (by decide)

theorem presses_processChr (b : BackEnd) (s : Host) (chr : UInt32) (down : Bool) :
    Presses (b.codes (charValueToKey chr.toNat)) s (s.processChr b chr down) := by
  unfold Host.processChr
  split
  · split
    · next c hc =>
      rw [charValueToKey_of_some hc]
      split
      · split
        · exact presses_keyDown b s _
        · exact (presses_keyUp b s _).mono (Finset.empty_subset _)
      · split
        · exact (presses_inputTextViaClipboardServer b s _).mono (Finset.empty_subset _)
        · exact (Presses.refl s).mono (Finset.empty_subset _)
    · exact (Presses.refl s).mono (Finset.empty_subset _)
  · have hpress := presses_keyDown b s (charValueToKey chr.toNat)
    dsimp only
    split
    · split
      · exact hpress
      · split
        · exact hpress.then_release (presses_keySequence b _ _)
        · exact hpress
    · exact (presses_keyUp b s _).mono (Finset.empty_subset _)

/-- A character that goes up has none of its key codes left, as uinput has none for what it pastes. -/
theorem notMem_processChr_up {chr : UInt32} (hcode : code ∈ b.codes (charValueToKey chr.toNat)) (s : Host) :
    code ∉ (s.processChr b chr false).down := by
  unfold Host.processChr
  split
  · next huinput =>
    obtain ⟨hsession, -⟩ := huinput
    split
    · next c hc =>
      rw [charValueToKey_of_some hc] at hcode
      split
      · exact notMem_keyUp hcode s
      · next hascii =>
        rw [codes_layout_of_uinput hsession (Bool.eq_false_of_not_eq_true hascii)] at hcode
        cases hcode
    · next hnone =>
      rw [codes_of_none hsession hnone] at hcode
      cases hcode
  · exact notMem_keyUp hcode s

theorem handled_chr {chr : UInt32} (b : BackEnd) (hunion : evt.union = some (.chr chr)) (t : Host) : Handled b evt t
      (((t.releaseShiftForCharInput b).recordPressedKey (chrRecord chr) evt.down).processChr b chr evt.down) := by
  have hown : ownCodes b evt = b.codes (charValueToKey chr.toNat) := by
    rw [ownCodes, ownKey, hunion, keyCodes]
  have hshift := presses_releaseShiftForCharInput b t
  have hpress := presses_processChr b
    ((t.releaseShiftForCharInput b).recordPressedKey (chrRecord chr) evt.down) chr evt.down
  refine ⟨?_, fun hup code hcode hmem => ?_, hpress.keysDown.trans ?_⟩
  · rw [hown]
    exact hpress.down.trans (Finset.union_subset_union_left hshift.subset)
  · rw [hown] at hmem
    rw [hup] at hcode
    exact notMem_processChr_up hmem _ hcode
  · rw [recorded, ownRecord, hunion, ← hshift.keysDown]
    rfl

theorem presses_processUnicode (b : BackEnd) (s : Host) (chr : UInt32) : Presses ∅ s (s.processUnicode b chr) := by
  unfold Host.processUnicode
  split
  · split
    · exact presses_inputTextViaClipboardServer b s _
    · exact presses_keySequence b s _
  · exact .refl s

theorem presses_processSeq (b : BackEnd) (s : Host) (text : List Char) : Presses ∅ s (s.processSeq b text) := by
  unfold Host.processSeq
  split
  · exact presses_inputTextViaClipboardServer b s _
  · exact presses_keySequence b s _

/-- **The two ways through a legacy event**: a function key returns at once, all others release what was pressed. -/
theorem legacy_cases (b : BackEnd) (s : Host) (evt : KeyEvent) :
    (∃ ck, evt.union = some (.controlKey ck) ∧ isFunctionKey ck = true ∧
      s.legacyKeyboardMode b evt = (s.syncModifiers b evt).1) ∨
    ∃ u, Handled b evt (s.syncModifiers b evt).1 u ∧
      s.legacyKeyboardMode b evt = u.releaseKeys b (s.syncModifiers b evt).2 := by
  have hshift := presses_releaseShiftForCharInput b (s.syncModifiers b evt).1
  unfold Host.legacyKeyboardMode
  dsimp only
  split
  · next ck hunion =>
    split
    · next hfunction => exact .inl ⟨ck, hunion, hfunction, rfl⟩
    · exact .inr ⟨_, handled_controlKey b hunion _, rfl⟩
  · next chr hunion => exact .inr ⟨_, handled_chr b hunion _, rfl⟩
  · next chr hunion =>
    refine .inr ⟨_, (hshift.then_release (presses_processUnicode b _ chr)).handled ?_ ?_, rfl⟩
    · rw [ownKey, hunion]
    · rw [ownRecord, hunion]
  · next text hunion =>
    refine .inr ⟨_, (presses_processSeq b _ text).handled ?_ ?_, rfl⟩
    · rw [ownKey, hunion]
    · rw [ownRecord, hunion]
  · next hcontrol hchr hunicode hseq =>
    refine .inr ⟨_, (Presses.refl _).handled ?_ ?_, rfl⟩
    · rw [ownKey]
      split
      · next ck hunion => exact absurd hunion (hcontrol ck)
      · next chr hunion => exact absurd hunion (hchr chr)
      · rfl
    · rw [ownRecord]
      split
      · next ck hunion => exact absurd hunion (hcontrol ck)
      · next chr hunion => exact absurd hunion (hchr chr)
      · rfl

/-- The state when the modifiers that the event does not ask for are released. -/
def unpressed (b : BackEnd) (s : Host) (evt : KeyEvent) : Host :=
  if evt.down then s.releaseUnpressedModifiers b evt else s

theorem presses_unpressed (b : BackEnd) (s : Host) (evt : KeyEvent) : Presses ∅ s (unpressed b s evt) := by
  unfold unpressed
  split
  · exact presses_releaseUnpressedModifiers b s evt
  · exact .refl s

theorem syncModifiers_spec (b : BackEnd) (s : Host) (evt : KeyEvent) :
    (s.syncModifiers b evt).1.keysDown = s.keysDown ∧ ∀ code ∈ (s.syncModifiers b evt).1.down,
        code ∈ (unpressed b s evt).down ∨ ∃ key ∈ (s.syncModifiers b evt).2, code ∈ b.codes key := by
  unfold Host.syncModifiers unpressed
  split
  · obtain ⟨hkeys, hdown⟩ := pressModifiers_spec b evt.modifiers (s.releaseUnpressedModifiers b evt)
    exact ⟨hkeys.trans (presses_releaseUnpressedModifiers b s evt).keysDown, hdown⟩
  · exact ⟨rfl, fun code h => .inl h⟩

section

variable (hfunction : ∀ ck, evt.union = some (.controlKey ck) → isFunctionKey ck = true → (s.syncModifiers b evt).2 = [])
include hfunction

/-- What is down after an event was down before or is its own key, and is none of the modifiers that it pressed. -/
theorem legacy_down (hcode : code ∈ (s.legacyKeyboardMode b evt).down) :
    (code ∈ (unpressed b s evt).down ∨ code ∈ ownCodes b evt) ∧
      ∀ key ∈ (s.syncModifiers b evt).2, code ∉ b.codes key := by
  obtain ⟨-, hsync⟩ := syncModifiers_spec b s evt
  rcases legacy_cases b s evt with ⟨ck, hunion, hck, heq⟩ | ⟨u, hhandled, heq⟩
  · have hnone := hfunction ck hunion hck
    rw [heq] at hcode
    rw [hnone] at hsync ⊢
    refine ⟨.inl ((hsync code hcode).resolve_right ?_), nofun⟩
    rintro ⟨key, hkey, -⟩
    cases hkey
  · rw [heq] at hcode
    have hreleased : ∀ key ∈ (s.syncModifiers b evt).2, code ∉ b.codes key :=
      fun key hkey hmem => notMem_releaseKeys hkey hmem u hcode
    refine ⟨?_, hreleased⟩
    rcases Finset.mem_union.mp (hhandled.down ((presses_releaseKeys b u _).subset hcode)) with ht | hown
    · refine .inl ((hsync code ht).resolve_right ?_)
      rintro ⟨key, hkey, hmem⟩
      exact hreleased key hkey hmem
    · exact .inr hown

theorem modifiersKept : ModifiersKept b s evt := by
  refine ⟨fun key hkey code hmem hcode => ?_, fun code hcode => ?_, fun hdown m hm hown hasked code hmem hcode => ?_⟩
  · exact (legacy_down hfunction hcode).2 key hkey hmem
  · rcases (legacy_down hfunction hcode).1 with hold | hown
    · exact Finset.mem_union_left _ ((presses_unpressed b s evt).subset hold)
    · exact Finset.mem_union_right _ hown
  · refine (legacy_down hfunction hcode).1.resolve_left ?_
    rw [unpressed, if_pos hdown]
    exact notMem_releaseUnpressedModifiers hm hown hasked hmem s

end

end Legacy

/-! ## Every key that is down is accounted for -/

section Accounted

variable {b : BackEnd} {s t : Host} {evt : KeyEvent} {code : ℕ}

/-- Every key that is down is accounted for. -/
def AllAccounted (b : BackEnd) (s : Host) : Prop := ∀ code ∈ s.down, Accounted b s code

/-- What is new is accounted for, and what goes from `KEYS_DOWN` has been released. -/
theorem AllAccounted.step (h : AllAccounted b s) (hnew : ∀ code ∈ t.down, code ∉ s.down → Accounted b t code)
    (hkept : ∀ record ∈ s.keysDown, record ∈ t.keysDown ∨ ∀ code ∈ t.down, code ∉ recordCodes b record) :
    AllAccounted b t := by
  intro code hcode
  by_cases hold : code ∈ s.down
  · rcases h code hold with ⟨record, hrecord, hmem⟩ | hmodifier
    · rcases hkept record hrecord with hkeep | hgone
      · exact .inl ⟨record, hkeep, hmem⟩
      · exact absurd hmem (hgone code hcode)
    · exact .inr hmodifier
  · exact hnew code hcode hold

theorem AllAccounted.release (h : AllAccounted b s) (hrelease : Presses ∅ s t) : AllAccounted b t := by
  refine h.step (fun code hcode hnot => absurd (hrelease.subset hcode) hnot) fun record hrecord => .inl ?_
  rw [hrelease.keysDown]
  exact hrecord

theorem exists_ownRecord (hcode : code ∈ ownCodes b evt) :
    ∃ record, ownRecord evt = some record ∧ code ∈ recordCodes b record := by
  unfold ownCodes ownKey at hcode
  unfold ownRecord
  split at hcode
  · next ck hunion =>
    cases hkey : controlKeyValueToKey ck with
    | none =>
      rw [hkey] at hcode
      cases hcode
    | some key =>
      refine ⟨controlKeyRecord ck, rfl, ?_⟩
      rw [hkey] at hcode
      rw [recordCodes_controlKey b hkey]
      exact hcode
  · next chr hunion =>
    refine ⟨chrRecord chr, rfl, ?_⟩
    rw [recordCodes_chr]
    exact hcode
  · cases hcode

/-- A record that is taken away has no key that is down. -/
theorem notMem_of_ownRecord {record : KeysDown} (hrecord : ownRecord evt = some record)
    (hunknown : ∀ ck, evt.union = some (.controlKey ck) → controlKeyValueToKey ck = none →
      ∀ code ∈ s.down, code ∉ recordCodes b (controlKeyRecord ck))
    (hcode : code ∈ s.down) (hown : code ∉ ownCodes b evt) : code ∉ recordCodes b record := by
  intro hmem
  unfold ownRecord at hrecord
  split at hrecord
  · next ck hunion =>
    cases hrecord
    cases hkey : controlKeyValueToKey ck with
    | none => exact hunknown ck hunion hkey code hcode hmem
    | some key =>
      rw [recordCodes_controlKey b hkey] at hmem
      rw [ownCodes, ownKey, hunion] at hown
      dsimp only at hown
      rw [hkey] at hown
      exact hown hmem
  · next chr hunion =>
    cases hrecord
    rw [recordCodes_chr] at hmem
    rw [ownCodes, ownKey, hunion] at hown
    exact hown hmem
  · cases hrecord

theorem AllAccounted.legacy (h : AllAccounted b s) (hlegacy : IsLegacy evt) (haccounts : Accounts b s evt) :
    AllAccounted b (s.legacyKeyboardMode b evt) := by
  have hfunction := haccounts.function hlegacy
  have hdown : ∀ code ∈ (s.legacyKeyboardMode b evt).down, code ∈ s.down ∨ code ∈ ownCodes b evt := fun code hcode =>
    (legacy_down hfunction hcode).1.imp_left fun hold => (presses_unpressed b s evt).subset hold
  obtain ⟨hsync, hsyncDown⟩ := syncModifiers_spec b s evt
  rcases legacy_cases b s evt with ⟨ck, hunion, hck, heq⟩ | ⟨u, hhandled, heq⟩
  · refine h.release ⟨fun code hcode => Finset.mem_union_left _ ?_, ?_⟩
    · rw [heq] at hcode
      refine (presses_unpressed b s evt).subset ((hsyncDown code hcode).resolve_right ?_)
      rw [hfunction ck hunion hck]
      rintro ⟨key, hkey, -⟩
      cases hkey
    · rw [heq, hsync]
  · have hkeysDown : (s.legacyKeyboardMode b evt).keysDown = recorded evt s.keysDown := by
      rw [heq, (presses_releaseKeys b u _).keysDown, hhandled.keysDown, hsync]
    have hup : evt.down = false → ∀ code ∈ (s.legacyKeyboardMode b evt).down, code ∉ ownCodes b evt := by
      intro hup code hcode
      rw [heq] at hcode
      exact hhandled.up hup code ((presses_releaseKeys b u _).subset hcode)
    refine h.step (fun code hcode hnot => .inl ?_) fun record hrecord => ?_
    · -- it is the event's own key, which went down
      have hown := (hdown code hcode).resolve_left hnot
      have hpressed : evt.down = true := by
        by_contra hnot
        exact hup (Bool.eq_false_of_not_eq_true hnot) code hcode hown
      obtain ⟨record, hrecord, hmem⟩ := exists_ownRecord hown
      refine ⟨record, ?_, hmem⟩
      rw [hkeysDown, recorded, hrecord, hpressed]
      exact List.mem_insert_self
    · rw [hkeysDown, recorded]
      cases hownRecord : ownRecord evt with
      | none => exact .inl hrecord
      | some own =>
        cases hpressed : evt.down with
        | true => exact .inl (List.mem_insert_of_mem hrecord)
        | false =>
          by_cases hne : record = own
          · subst hne
            right
            intro code hcode
            have hold := (hdown code hcode).resolve_right (hup hpressed code hcode)
            refine notMem_of_ownRecord hownRecord (fun ck hunion hkey => ?_) hold (hup hpressed code hcode)
            exact haccounts.unknown hlegacy ck hunion hkey hpressed
          · exact .inl ((List.mem_erase_of_ne hne).mpr hrecord)

theorem releaseRecordKey_subset (b : BackEnd) (s : Host) (record : KeysDown) :
    (s.releaseRecordKey b record).down ⊆ s.down := by
  unfold Host.releaseRecordKey
  split
  · exact (presses_simulate_up s _).subset
  · split
    · exact (presses_keyUp b s _).subset
    · exact subset_rfl

theorem notMem_releaseRecordKey {record : KeysDown} (hcode : code ∈ recordCodes b record) (s : Host) :
    code ∉ (s.releaseRecordKey b record).down := by
  unfold Host.releaseRecordKey
  unfold recordCodes at hcode
  split at hcode
  · rw [Finset.mem_singleton.mp hcode]
    exact Finset.notMem_erase _ _
  · next record =>
    cases hkey : recordKeyToKey record with
    | none =>
      rw [hkey] at hcode
      cases hcode
    | some key =>
      rw [hkey] at hcode
      simpa only [hkey] using notMem_keyUp hcode s

theorem keysDown_releaseRecordKey (b : BackEnd) (s : Host) (record : KeysDown) :
    (s.releaseRecordKey b record).keysDown = s.keysDown := by
  unfold Host.releaseRecordKey
  split
  · rfl
  · split <;> rfl

section

variable (h : AllAccounted b s)
include h

/-- A record goes with its key. -/
theorem AllAccounted.release_record (record : KeysDown) :
    AllAccounted b ((s.recordPressedKey record false).releaseRecordKey b record) := by
  refine h.step (fun code hcode hnot => ?_) fun other hother => ?_
  · exact absurd (releaseRecordKey_subset b _ record hcode) hnot
  · by_cases hne : other = record
    · subst hne
      exact .inr fun code hcode hmem => notMem_releaseRecordKey hmem _ hcode
    · rw [keysDown_releaseRecordKey]
      exact .inl ((List.mem_erase_of_ne hne).mpr hother)

theorem AllAccounted.fixKeyDownTimeout (force : Bool) (old : KeysDown → Bool) :
    AllAccounted b (s.fixKeyDownTimeout b force old) := by
  have hfold : ∀ (records : List KeysDown) s, AllAccounted b s → AllAccounted b (records.foldl (fun s record =>
      if force || old record then (s.recordPressedKey record false).releaseRecordKey b record else s) s) := by
    intro records
    induction records with
    | nil => exact fun s h => h
    | cons record records ih =>
      intro s h
      rw [List.foldl_cons]
      refine ih _ ?_
      split
      · exact h.release_record record
      · exact h
  exact hfold s.keysDown s h

theorem AllAccounted.simRdevRawkeyPosition (code : ℕ) (down : Bool) :
    AllAccounted b (s.simRdevRawkeyPosition code down) := by
  cases down with
  | false => exact h.release_record (.rdevKey code)
  | true =>
    refine h.step (fun other hother hnot => .inl ⟨.rdevKey code, List.mem_insert_self, ?_⟩)
      fun record hrecord => .inl (List.mem_insert_of_mem hrecord)
    exact Finset.mem_singleton.mpr ((Finset.mem_insert.mp hother).resolve_right hnot)

theorem AllAccounted.waylandSendRawKey (code : ℕ) (down : Bool)
    (hraw : down = true → s.server.accepts (.raw code) = true → ∀ c ∈ b.codes (.raw code), Accounted b s c) :
    AllAccounted b (s.waylandSendRawKey b code down) := by
  unfold Host.waylandSendRawKey
  split
  · next hdown =>
    cases haccepts : s.server.accepts (.raw code) with
    | false =>
      have hfailed : s.keyDown b (.raw code) = (s, false) := by
        unfold Host.keyDown
        rw [haccepts]
        rfl
      rw [hfailed]
      exact h
    | true =>
      have hpress := presses_keyDown b s (.raw code)
      refine h.step (fun c hc hnot => ?_) fun record hrecord => .inl ?_
      · have hnew := (Finset.mem_union.mp (hpress.down hc)).resolve_left hnot
        refine (hraw hdown haccepts c hnew).imp_left ?_
        rw [hpress.keysDown]
        exact id
      · rw [hpress.keysDown]
        exact hrecord
  · exact h.release (presses_keyUp b s _)

theorem AllAccounted.mapKeyboardMode (hraw : SendsRawKey evt)
    (haccounts : Accounts b s evt) : AllAccounted b (s.mapKeyboardMode b evt) := by
  unfold Host.mapKeyboardMode
  split
  · next hwayland => exact h.waylandSendRawKey _ _ (haccounts.raw hwayland hraw)
  · exact h.simRdevRawkeyPosition _ _

end

theorem presses_clickAll (b : BackEnd) (s : Host) (text : List Char) : Presses ∅ s (s.clickAll b text) :=
  presses_foldl (fun s c => presses_keySequence b s [c]) text s

theorem AllAccounted.translateKeyboardMode (h : AllAccounted b s) (hmode : evt.mode = some .translate)
    (haccounts : Accounts b s evt) : AllAccounted b (s.translateKeyboardMode b evt) := by
  have hshift := presses_releaseShiftForCharInput b s
  unfold Host.translateKeyboardMode
  split
  · next text _ =>
    split
    · exact h.release (hshift.then_release (presses_keySequence b _ text))
    · split
      · exact h.release (presses_clickAll b s text)
      · dsimp only
        split
        · exact h.release (hshift.then_release (presses_keySequence b _ text))
        · exact h.release (hshift.then_release (presses_inputTextViaClipboardServer b _ text))
    · exact h.release (hshift.then_release (presses_clickAll b _ text))
  · next code hunion => exact h.mapKeyboardMode (.inr ⟨hmode, code, hunion⟩) haccounts
  · exact h

theorem AllAccounted.handleKey (h : AllAccounted b s) (haccounts : Accounts b s evt) :
    AllAccounted b (s.handleKey b evt) := by
  unfold Host.handleKey
  split
  · next hmode => exact h.mapKeyboardMode (.inl hmode) haccounts
  · next hmode => exact h.translateKeyboardMode hmode haccounts
  · next hmap htranslate => exact h.legacy ⟨hmap, htranslate⟩ haccounts

/-- **After the releases at the end no key is down.** -/
theorem AllAccounted.cleared (h : AllAccounted b s) :
    ((s.fixKeyDownTimeout b true fun _ => false).releaseDeviceModifiers b).down = ∅ := by
  have hmodifier : ∀ (s : Host) (m : Key), (if s.getModifierState b m then s.keyUp b m else s).down ⊆ s.down := by
    intro s m
    split
    · exact (presses_keyUp b s m).subset
    · exact subset_rfl
  have hrecord : ∀ (s : Host) (record : KeysDown), (if true || false then
      (s.recordPressedKey record false).releaseRecordKey b record else s).down ⊆ s.down := by
    intro s record
    exact releaseRecordKey_subset b _ record
  rw [Finset.eq_empty_iff_forall_notMem]
  intro code hcode
  have hfixed := foldl_subset hmodifier Host.deviceModifiers _ hcode
  rcases h code (foldl_subset hrecord s.keysDown s hfixed) with ⟨record, hmem, hcodes⟩ | ⟨m, hm, hmem⟩
  · exact foldl_clears hrecord hmem (fun s => notMem_releaseRecordKey hcodes _) s hfixed
  · exact notMem_releaseDeviceModifiers hm hmem _ hcode

/-- **No key is lost**, and each legacy event keeps the modifiers, in a run of events that account for their keys. -/
theorem noKeyLost_of_run {server : DisplayServer} {es : List HostEvent}
    (hrun : Run (Only (fun s e => HostEvent.Accounts b s e) (Steps (Host.step b))) (Host.start server) es s) :
    NoKeyLost b s ∧ ∀ evt, IsLegacy evt → Accounts b s evt → ModifiersKept b s evt := by
  have hstep : ∀ (s : Host) e t, AllAccounted b s →
      Only (fun s e => HostEvent.Accounts b s e) (Steps (Host.step b)) s e t → AllAccounted b t := by
    rintro s e t hs ⟨haccounts, hstep⟩
    cases e with
    | key evt =>
      cases hstep
      exact hs.handleKey haccounts
    | timeout old =>
      cases hstep
      exact hs.fixKeyDownTimeout false old
    | displayServer server =>
      cases hstep
      exact hs.release ⟨Finset.subset_union_left, rfl⟩
  have hall : AllAccounted b s := hrun.invariant hstep nofun
  exact ⟨⟨hall, hall.cleared⟩, fun evt hlegacy haccounts => modifiersKept (haccounts.function hlegacy)⟩

end Accounted

/-! ## Two hosts -/

/-- A key code for one letter is enough here. -/
def letterCode : Key → Finset ℕ
  | .layout 'a' => {38}
  | _ => ∅

def x11Host : BackEnd := ⟨.x11, true, letterCode, fun _ => ∅, fun c => [c]⟩

def uinputHost : BackEnd := ⟨.uinput, false, letterCode, fun _ => ∅, fun c => [c]⟩

def displayServer : DisplayServer := ⟨fun _ => false, fun _ => true, true⟩

/-- Control and a letter in legacy mode. -/
def controlA (down : Bool) : KeyEvent := ⟨down, some (.chr 97), [4], some .legacy⟩

theorem noKeyLost_controlA :
    ∃ s, Run (Only (fun s e => HostEvent.Accounts x11Host s e) (Steps (Host.step x11Host))) (Host.start displayServer)
        [.key (controlA true), .key (controlA false)] s ∧ s.down = ∅ ∧ s.keysDown = [] ∧ NoKeyLost x11Host s := by
  have haccounts : ∀ s down, HostEvent.Accounts x11Host s (.key (controlA down)) :=
    fun s down => ⟨fun hx11 => absurd rfl hx11, fun _ => nofun, fun _ => nofun⟩
  have hrun : ∃ s, Run (Only (fun s e => HostEvent.Accounts x11Host s e) (Steps (Host.step x11Host)))
      (Host.start displayServer) [.key (controlA true), .key (controlA false)] s ∧ s.down = ∅ ∧ s.keysDown = [] :=
    ⟨_, .cons ⟨haccounts _ true, rfl⟩ (.cons ⟨haccounts _ false, rfl⟩ (.nil _)), by decide, by decide⟩
  obtain ⟨s, hrun, hdown, hkeys⟩ := hrun
  exact ⟨s, hrun, hdown, hkeys, (noKeyLost_of_run hrun).1⟩

/-- The same key goes down in map mode. -/
def mapKeyDown : KeyEvent := ⟨true, some (.chr 38), [], some .map⟩

/-- The screen is locked with Control in the list. -/
def lockScreen : KeyEvent := ⟨true, some (.controlKey 101), [4], some .legacy⟩

/-- On Wayland the key of a map event is lost, and Control stays down when the screen is locked. -/
theorem not_noKeyLost :
    (∃ s, Run (Steps (Host.step uinputHost)) (Host.start displayServer) [.key mapKeyDown] s ∧
      s.down = {38} ∧ s.keysDown = [] ∧ ¬NoKeyLost uinputHost s) ∧
    37 ∈ ((Host.start displayServer).legacyKeyboardMode x11Host lockScreen).down ∧
      ¬ModifiersKept x11Host (Host.start displayServer) lockScreen := by
  refine ⟨⟨_, .cons rfl (.nil _), by decide, by decide, fun h => ?_⟩, by decide, fun h => ?_⟩
  · exact absurd h.cleared (by decide)
  · exact h.released .control (by decide) 37 (by decide) (by decide)

end RustDesk.Services.InputService
