import Mathlib.Algebra.Group.Int.Defs
import Mathlib.Algebra.Group.Nat.Defs
import Mathlib.Data.Finset.Basic
import RustDesk.Common.Run

/-!
# Key events at the host

References: `src/server/input_service.rs` (`map_keyboard_mode`, `translate_keyboard_mode`, `legacy_keyboard_mode` and
what they call, `fix_key_down_timeout`, `release_device_modifiers`), `get_key_state`, `key_down` and `key_up` of
`libs/enigo/src/linux`, `src/server/uinput.rs` and `src/server/rdp_input.rs`.

A back end is known by the key codes that are down, numbered as X11 does. The codes of the modifiers are fixed, those of
the other keys and what is struck to type a text are parameters. A number of a `ControlKey` is any integer, as an
unknown one passes through.
-/

namespace RustDesk.Services.InputService

/-- `enigo::Key`. The keys of `KEY_MAP` that nothing here speaks of go by the number of their `ControlKey`. -/
inductive Key
  | shift
  | control
  | alt
  | metaKey
  | rightShift
  | rightControl
  | rightAlt
  | rWin
  | capsLock
  | numLock
  | layout (c : Char)
  | raw (code : ℕ)
  | other (value : ℤ)
deriving DecidableEq

/-- The rows of `KEY_MAP` for the keys that have a name here, `Menu` among them. -/
def keyMap : List (ℤ × Key) :=
  [(1, .alt), (3, .capsLock), (4, .control), (23, .metaKey), (29, .shift), (45, .alt), (63, .numLock), (64, .rWin),
    (73, .rightShift), (74, .rightControl), (75, .rightAlt)]

/-- The numbers from 1 to 75 are in `KEY_MAP`. -/
def controlKeyValueToKey (value : ℤ) : Option Key :=
  (keyMap.lookup value).or (if 1 ≤ value ∧ value ≤ 75 then some (.other value) else none)

/-- `CtrlAltDel` and `LockScreen` -/
def isFunctionKey (value : ℤ) : Bool := value == 100 || value == 101

inductive KeyUnion
  | controlKey (value : ℤ)
  | chr (code : UInt32)
  | unicode (code : UInt32)
  | seq (text : List Char)
  | win2winHotkey (code : UInt32)

inductive KeyboardMode
  | legacy
  | map
  | translate
  | auto
deriving DecidableEq

structure KeyEvent where
  down : Bool
  union : Option KeyUnion
  modifiers : List ℤ
  mode : Option KeyboardMode

/-- `KeysDown`, of which a `RdevKey` has an X11 key code. -/
inductive KeysDown
  | rdevKey (code : ℕ)
  | enigoKey (record : ℕ)
deriving DecidableEq

/-! ## Characters and records -/

def charFromU32 (value : ℕ) : Option Char := if value.isValidChar then some (Char.ofNat value) else none

def charValueToKey (value : ℕ) : Key := .layout ((charFromU32 value).getD '\x00')

def isAsciiPrintable (c : Char) : Bool := 0x20 ≤ c.toNat && c.toNat ≤ 0x7E

/-- `KEY_CHAR_START` -/
def keyCharStart : ℕ := 9999

/-- `record_key_to_key` -/
def recordKeyToKey (record : ℕ) : Option Key :=
  if record < keyCharStart then controlKeyValueToKey record
  else some (charValueToKey ((record - keyCharStart) % 2 ^ 32))

/-- The record of a control key, whose number is cast to a `u64`. -/
def controlKeyRecord (value : ℤ) : KeysDown := .enigoKey (value % 2 ^ 64).toNat

def chrRecord (code : UInt32) : KeysDown := .enigoKey (code.toNat + keyCharStart)

/-! ## The back ends -/

/-- X11, or Wayland with `is_server` or without. -/
inductive Session
  | x11
  | uinput
  | portal
deriving DecidableEq

structure BackEnd where
  session : Session
  /- On X11 there is a `TFC_Context`, for which `RWin` is `Meta`. -/
  tfc : Bool
  code : Key → Finset ℕ
  typing : List Char → Finset ℕ
  toUppercase : Char → List Char

/-- The key codes of a key. -/
def BackEnd.codes (b : BackEnd) : Key → Finset ℕ
  | .shift => {50}
  | .rightShift => {62}
  | .control => {37}
  | .rightControl => {105}
  | .alt => {64}
  | .rightAlt => {108}
  | .metaKey => {133}
  | .rWin => if b.session = .x11 ∧ b.tfc then {133} else {134}
  | .raw code =>
    if b.session = .uinput ∧ code < 8 then ∅
    else if b.session = .portal ∧ code = 134 then {133}
    else {code}
  -- Wayland pastes what is not ASCII
  | .layout c => if b.session = .x11 ∨ isAsciiPrintable c then b.code (.layout c) else ∅
  | key => b.code key

/-- What the display server shows and accepts at the moment. -/
structure DisplayServer where
  led : Key → Bool
  accepts : Key → Bool
  setsClipboard : Bool

structure Host where
  down : Finset ℕ
  keysDown : List KeysDown
  server : DisplayServer

namespace Host

variable (b : BackEnd) (s : Host)

/-- A text is typed by keys that go down and up. -/
def keySequence (text : List Char) : Host := { s with down := s.down \ b.typing text }

def keyClick (c : Char) : Host := s.keySequence b [c]

def keyUp (key : Key) : Host := { s with down := s.down \ b.codes key }

/-- Whether it worked comes with it. The portal pastes a character that is not ASCII at once. -/
def keyDown (key : Key) : Host × Bool :=
  if s.server.accepts key then
    match key with
    | .layout c =>
      if b.session = .portal ∧ !isAsciiPrintable c then (s.keySequence b [c], true)
      else ({ s with down := s.down ∪ b.codes key }, true)
    | key => ({ s with down := s.down ∪ b.codes key }, true)
  else (s, false)

/-- X11 and uinput do not tell the sides of a modifier apart. -/
def getKeyState : Key → Bool
  | .shift => 50 ∈ s.down || b.session != .portal && 62 ∈ s.down
  | .control => 37 ∈ s.down || b.session != .portal && 105 ∈ s.down
  | .alt => 64 ∈ s.down || b.session != .portal && 108 ∈ s.down
  | .metaKey => 133 ∈ s.down || b.session != .portal && 134 ∈ s.down
  | .rightShift => b.session == .portal && 62 ∈ s.down
  | .rightControl => b.session == .portal && 105 ∈ s.down
  | .rightAlt => b.session == .portal && 108 ∈ s.down
  | .rWin => b.session == .portal && 134 ∈ s.down
  | .capsLock => b.session != .portal && s.server.led .capsLock
  | .numLock => b.session != .portal && s.server.led .numLock
  | _ => false

def getModifierState (key : Key) : Bool :=
  match key with
  | .shift => s.getKeyState b .shift || s.getKeyState b .rightShift
  | .control => s.getKeyState b .control || s.getKeyState b .rightControl
  | .alt => s.getKeyState b .alt || s.getKeyState b .rightAlt
  | .metaKey => s.getKeyState b .metaKey || s.getKeyState b .rWin
  | .rightShift => s.getKeyState b .rightShift || s.getKeyState b .shift
  | .rightControl => s.getKeyState b .rightControl || s.getKeyState b .control
  | .rightAlt => s.getKeyState b .rightAlt || s.getKeyState b .alt
  | .rWin => s.getKeyState b .rWin || s.getKeyState b .metaKey
  | key => s.getKeyState b key

/-- `record_pressed_key` -/
def recordPressedKey (record : KeysDown) (down : Bool) : Host :=
  { s with keysDown := if down then s.keysDown.insert record else s.keysDown.erase record }

/-- `simulate_` of a key code of X11 -/
def simulate (code : ℕ) (down : Bool) : Host :=
  { s with down := if down then insert code s.down else s.down.erase code }

/-! ## Releasing -/

/-- `release_record_key` -/
def releaseRecordKey : KeysDown → Host
  | .rdevKey code => s.simulate code false
  | .enigoKey record =>
    match recordKeyToKey record with
    | some key => s.keyUp b key
    | none => s

/-- The keys that are recorded for long, or all of them. -/
def fixKeyDownTimeout (force : Bool) (old : KeysDown → Bool) : Host :=
  s.keysDown.foldl (fun s record =>
    if force || old record then (s.recordPressedKey record false).releaseRecordKey b record else s) s

def deviceModifiers : List Key :=
  [.shift, .control, .alt, .metaKey, .rightShift, .rightControl, .rightAlt, .rWin]

def releaseDeviceModifiers : Host :=
  deviceModifiers.foldl (fun s modifier => if s.getModifierState b modifier then s.keyUp b modifier else s) s

/-! ## The modifiers of a legacy event -/

/-- A modifier key, the control key that is this key, and the one that asks for it in a list of modifiers. -/
structure Modifier where
  own : ℤ
  asked : ℤ
  key : Key

/-- The order of `fix_modifiers`. -/
def fixedModifiers : List Modifier :=
  [⟨29, 29, .shift⟩, ⟨73, 29, .rightShift⟩, ⟨1, 1, .alt⟩, ⟨75, 1, .rightAlt⟩, ⟨4, 4, .control⟩, ⟨74, 4, .rightControl⟩,
    ⟨23, 23, .metaKey⟩, ⟨64, 23, .rWin⟩]

def fixModifier (modifiers : List ℤ) (key0 : ℤ) (key1 : Key) : Host :=
  if s.getModifierState b key1 ∧ key0 ∉ modifiers then s.keyUp b key1 else s

def fixModifiers (modifiers : List ℤ) (ck : ℤ) : Host :=
  fixedModifiers.foldl (fun s m => if ck ≠ m.own then s.fixModifier b modifiers m.asked m.key else s) s

def getControlKeyValue (evt : KeyEvent) : ℤ :=
  match evt.union with
  | some (.controlKey ck) => ck
  | _ => -1

def releaseUnpressedModifiers (evt : KeyEvent) : Host := s.fixModifiers b evt.modifiers (getControlKeyValue evt)

/-- The key code it looks for is the number of `RAlt`. -/
def isAltgrPressed : Bool := s.keysDown.contains (.rdevKey 75)

/-- `press_modifiers`, with the keys to release. -/
def pressModifiers : List ℤ → Host → Host × List Key
  | [], s => (s, [])
  | ck :: rest, s =>
    match controlKeyValueToKey ck with
    | some key =>
      if s.getModifierState b key ∨ key = .alt ∧ s.isAltgrPressed then pressModifiers rest s
      else
        let (t, toRelease) := pressModifiers rest (s.keyDown b key).1
        (t, key :: toRelease)
    | none => pressModifiers rest s

def syncModifiers (evt : KeyEvent) : Host × List Key :=
  if evt.down then pressModifiers b evt.modifiers (s.releaseUnpressedModifiers b evt) else (s, [])

def releaseKeys (toRelease : List Key) : Host := toRelease.foldl (fun s key => s.keyUp b key) s

/-! ## Legacy mode -/

def processControlKey (ck : ℤ) (down : Bool) : Host :=
  match controlKeyValueToKey ck with
  | some key => if down then (s.keyDown b key).1 else s.keyUp b key
  | none => s

def isHotkeyModifierPressed : Bool :=
  s.getModifierState b .control || s.getModifierState b .rightControl || s.getModifierState b .alt ||
    s.getModifierState b .rightAlt || s.getModifierState b .metaKey || s.getModifierState b .rWin

/-- `input_text_via_clipboard_server`; 118 is the key code of Insert. -/
def inputTextViaClipboardServer (text : List Char) : Host :=
  if text = [] ∨ !s.server.setsClipboard then s
  else
    let (t, shift) := s.keyDown b .shift
    if !shift then t
    else
      let (u, insert) := t.keyDown b (.raw 118)
      if !insert then u.keyUp b .shift else (u.keyUp b (.raw 118)).keyUp b .shift

def needToUppercase : Bool := s.getModifierState b .shift || s.getModifierState b .capsLock

def processChr (chr : UInt32) (down : Bool) : Host :=
  if b.session = .uinput ∧ !s.isHotkeyModifierPressed b then
    match charFromU32 chr.toNat with
    | some c =>
      if isAsciiPrintable c then if down then (s.keyDown b (.layout c)).1 else s.keyUp b (.layout c)
      else if down then s.inputTextViaClipboardServer b [c] else s
    | none => s
  else
    let key := charValueToKey chr.toNat
    if down then
      let (t, accepted) := s.keyDown b key
      if accepted then t
      else
        match charFromU32 chr.toNat with
        | some c => t.keySequence b (if t.needToUppercase b then b.toUppercase c else [c])
        | none => t
    else s.keyUp b key

def processUnicode (chr : UInt32) : Host :=
  match charFromU32 chr.toNat with
  | some c =>
    if b.session = .uinput ∧ !isAsciiPrintable c then s.inputTextViaClipboardServer b [c] else s.keySequence b [c]
  | none => s

def processSeq (text : List Char) : Host :=
  if b.session = .uinput ∧ !text.all isAsciiPrintable then s.inputTextViaClipboardServer b text
  else s.keySequence b text

/-- One side of Shift is released, on X11 by its key code. -/
def releaseShift (key : Key) (code : ℕ) : Host :=
  if s.getModifierState b key then if b.session = .x11 then s.simulate code false else s.keyUp b key else s

def releaseShiftForCharInput : Host :=
  if s.isHotkeyModifierPressed b then s else (s.releaseShift b .shift 50).releaseShift b .rightShift 62

def legacyKeyboardMode (evt : KeyEvent) : Host :=
  let (t, toRelease) := s.syncModifiers b evt
  match evt.union with
  | some (.controlKey ck) =>
    -- the modifiers that were pressed stay down
    if isFunctionKey ck then t
    else ((t.recordPressedKey (controlKeyRecord ck) evt.down).processControlKey b ck evt.down).releaseKeys b toRelease
  | some (.chr chr) =>
    (((t.releaseShiftForCharInput b).recordPressedKey (chrRecord chr) evt.down).processChr b chr evt.down).releaseKeys b
      toRelease
  | some (.unicode chr) => ((t.releaseShiftForCharInput b).processUnicode b chr).releaseKeys b toRelease
  | some (.seq text) => (t.processSeq b text).releaseKeys b toRelease
  | _ => t.releaseKeys b toRelease

/-! ## The other modes -/

/-- `evt.chr()` -/
def chrOf (evt : KeyEvent) : ℕ :=
  match evt.union with
  | some (.chr code) => code.toNat
  | _ => 0

def simRdevRawkeyPosition (code : ℕ) (down : Bool) : Host :=
  (s.recordPressedKey (.rdevKey code) down).simulate code down

/-- `wayland_send_raw_key` -/
def waylandSendRawKey (code : ℕ) (down : Bool) : Host :=
  if down then (s.keyDown b (.raw code)).1 else s.keyUp b (.raw code)

def mapKeyboardMode (evt : KeyEvent) : Host :=
  if b.session ≠ .x11 then s.waylandSendRawKey b (chrOf evt % 2 ^ 16) evt.down
  else s.simRdevRawkeyPosition (chrOf evt) evt.down

def clickAll (text : List Char) : Host := text.foldl (fun s c => s.keyClick b c) s

def translateKeyboardMode (evt : KeyEvent) : Host :=
  match evt.union with
  | some (.seq text) =>
    match b.session with
    | .portal => (s.releaseShiftForCharInput b).keySequence b text
    | .uinput =>
      if s.isHotkeyModifierPressed b then s.clickAll b text
      else
        let t := s.releaseShiftForCharInput b
        if text.all isAsciiPrintable then t.keySequence b text else t.inputTextViaClipboardServer b text
    | .x11 => (s.releaseShiftForCharInput b).clickAll b text
  | some (.chr _) => s.mapKeyboardMode b evt
  | _ => s

/-- `handle_key_`, without the lock keys around it. -/
def handleKey (evt : KeyEvent) : Host :=
  match evt.mode with
  | some .map => s.mapKeyboardMode b evt
  | some .translate => s.translateKeyboardMode b evt
  | _ => s.legacyKeyboardMode b evt

end Host

/-- An event of any connection, a pass of `fix_key_down_timeout_loop`, or what the display server does. -/
inductive HostEvent
  | key (evt : KeyEvent)
  | timeout (old : KeysDown → Bool)
  | displayServer (server : DisplayServer)

def Host.step (b : BackEnd) (s : Host) : HostEvent → Option Host
  | .key evt => some (s.handleKey b evt)
  | .timeout old => some (s.fixKeyDownTimeout b false old)
  | .displayServer server => some { s with server := server }

def Host.start (server : DisplayServer) : Host := ⟨∅, [], server⟩

end RustDesk.Services.InputService
