import RustDesk.Common.Run
import RustDesk.Config.PasswordSecurity
import RustDesk.Connection.Environment

/-!
# Trusted devices

Reference: `libs/hbb_common/src/config.rs` (`Config::get_trusted_devices` to `Config::clear_trusted_devices`).
The list is kept in memory once it was read or set, and encrypted in the config. Every call works on a copy,
in steps that are one lock section each: others run between them, but not while one holds `CONFIG2`, which
`set_trusted_devices` keeps until the memory is written too.
-/

namespace RustDesk.Config

open Net

open Connection (TrustedDevice)

/-- `serde_json` for devices. -/
structure DeviceJson where
  toString : List TrustedDevice → Option String
  fromStr : String → Option (List TrustedDevice)

/-- What is written is an array and is read back. -/
structure DeviceJson.Correct (json : DeviceJson) : Prop where
  empty : json.toString [] = some "[]"
  back : ∀ devices, ∃ rest, json.toString devices = some ("[" ++ rest) ∧
    json.fromStr ("[" ++ rest) = some devices

/-- `retain(|d| !d.outdate())`. -/
def retainInDate (now : ℕ) (devices : List TrustedDevice) : List TrustedDevice :=
  devices.filter fun d => !d.outdate now

inductive DeviceCall
  | get
  | add (device : TrustedDevice)
  | remove (hwids : List Bytes)
  | clear
  deriving DecidableEq

/-- What a call makes of the devices that it was given. -/
def DeviceCall.apply (devices : List TrustedDevice) : DeviceCall → List TrustedDevice
  | .get => devices
  | .add device => devices.filter (fun d => d.hwid ≠ device.hwid) ++ [device]
  | .remove hwids => devices.filter fun d => !hwids.contains d.hwid
  | .clear => []

/-- The section that comes next. `inGet` is for the `set_trusted_devices` in `get_trusted_devices`, and `copy` the
list that this gives back. -/
inductive DeviceStage
  | readConfig
  | setConfig (copy : List TrustedDevice) (inGet : Bool)
  | setMemory (devices copy : List TrustedDevice) (inGet : Bool)
  | setCache (copy : List TrustedDevice)
  deriving DecidableEq

inductive DeviceEvent
  | began (t : ℕ) (call : DeviceCall)
  | returned (t : ℕ) (call : DeviceCall) (result : List TrustedDevice) (now : ℕ)
  deriving DecidableEq

/-- `TRUSTED_DEVICES`, `CONFIG2.trusted_devices` with the file that `store` writes in the same section, the call
that holds `CONFIG2`, the calls by their numbers, and the events with the latest first. `list` is what was set
last. -/
structure DeviceWorld where
  memory : List TrustedDevice × Bool
  config : String
  locked : Option ℕ
  calls : ℕ → Option (DeviceCall × DeviceStage)
  next : ℕ
  clock : ℕ
  list : List TrustedDevice
  log : List DeviceEvent

/-- A new call, or the next section of one, at a time and with what `gen_nonce` gives. -/
inductive DeviceLabel
  | begin (call : DeviceCall) (now : ℕ) (nonce : Bytes)
  | next (t : ℕ) (now : ℕ) (nonce : Bytes)

/-- `max_len`. -/
def trustedDevicesMaxLen : ℕ := 1024 * 1024

section

variable (box : SecretBox Bytes) (b64 : Base64Coder) (machine : Machine) (json : DeviceJson)

/-- The devices that the config has. -/
def storedDevices (config : String) : List TrustedDevice :=
  let (devices, succ, _) := decryptStrOrOriginal box b64 machine config "00"
  if succ then (json.fromStr devices).getD [] else []

namespace DeviceWorld

def init (config : String) : DeviceWorld :=
  ⟨([], false), config, none, fun _ => none, 0, 0, storedDevices box b64 machine json config, []⟩

/-- The call goes on with this section. -/
def goOn (world : DeviceWorld) (t : ℕ) (call : DeviceCall) (stage : DeviceStage) : DeviceWorld :=
  { world with calls := Function.update world.calls t (some (call, stage)) }

def finish (world : DeviceWorld) (t : ℕ) (call : DeviceCall) (result : List TrustedDevice) : DeviceWorld :=
  { world with
    calls := Function.update world.calls t none
    log := .returned t call result world.clock :: world.log }

/-- `get_trusted_devices` returns, to its caller or to the call that it is part of. -/
def gave (world : DeviceWorld) (t : ℕ) (call : DeviceCall) (devices : List TrustedDevice) : DeviceWorld :=
  if call = .get then world.finish t call devices else world.goOn t call (.setConfig devices false)

/-- `set_trusted_devices` returns. -/
def didSet (world : DeviceWorld) (t : ℕ) (call : DeviceCall) (copy : List TrustedDevice) (inGet : Bool) :
    DeviceWorld :=
  if inGet then world.goOn t call (.setCache copy) else world.finish t call []

def readMemory (world : DeviceWorld) (t : ℕ) (call : DeviceCall) : DeviceWorld :=
  if world.memory.2 then world.gave t call world.memory.1 else world.goOn t call .readConfig

def readConfig (world : DeviceWorld) (t : ℕ) (call : DeviceCall) : Option DeviceWorld :=
  if world.locked.isSome then none
  else
    let (devices, succ, store) := decryptStrOrOriginal box b64 machine world.config "00"
    if succ then
      let devices := (json.fromStr devices).getD []
      let kept := retainInDate world.clock devices
      some (world.goOn t call
        (if store ∨ kept.length ≠ devices.length then .setConfig kept true else .setCache kept))
    else some (world.gave t call [])

/-- What `set_trusted_devices` is called with. -/
def target (call : DeviceCall) (copy : List TrustedDevice) (inGet : Bool) : List TrustedDevice :=
  if inGet then copy else call.apply copy

def setConfig (world : DeviceWorld) (t : ℕ) (call : DeviceCall) (copy : List TrustedDevice) (inGet : Bool)
    (nonce : Bytes) : Option DeviceWorld :=
  let trustedDevices := retainInDate world.clock (target call copy inGet)
  let devices := (json.toString trustedDevices).getD ""
  if trustedDevicesMaxLen < (Utf8.bytes devices).length then some (world.didSet t call copy inGet)
  else if world.locked.isSome then none
  else
    some { world.goOn t call (.setMemory trustedDevices copy inGet) with
      config := encryptStrOrOriginal box b64 machine nonce devices "00" trustedDevicesMaxLen
      locked := some t }

def setMemory (world : DeviceWorld) (t : ℕ) (call : DeviceCall) (devices copy : List TrustedDevice)
    (inGet : Bool) : DeviceWorld :=
  { world.didSet t call copy inGet with memory := (devices, true), locked := none, list := devices }

def setCache (world : DeviceWorld) (t : ℕ) (call : DeviceCall) (copy : List TrustedDevice) : DeviceWorld :=
  { world with memory := (copy, true) }.gave t call copy

/-- The next section of a call. -/
def advance (world : DeviceWorld) (t : ℕ) (call : DeviceCall) (nonce : Bytes) : DeviceStage → Option DeviceWorld
  | .readConfig => world.readConfig box b64 machine json t call
  | .setConfig copy inGet => world.setConfig box b64 machine json t call copy inGet nonce
  | .setMemory devices copy inGet => some (world.setMemory t call devices copy inGet)
  | .setCache copy => some (world.setCache t call copy)

/-- The first section of a call. -/
def start (world : DeviceWorld) (t : ℕ) (call : DeviceCall) (nonce : Bytes) : Option DeviceWorld :=
  if call = .clear then world.setConfig box b64 machine json t call [] false nonce
  else some (world.readMemory t call)

/-- The step of a label. Time goes on, and nonces have their length. -/
def step (world : DeviceWorld) : DeviceLabel → Option DeviceWorld
  | .begin call now nonce =>
    if world.clock ≤ now ∧ nonce.length = nonceBytes then
      start box b64 machine json
        { world with clock := now, next := world.next + 1, log := .began world.next call :: world.log }
        world.next call nonce
    else none
  | .next t now nonce =>
    if world.clock ≤ now ∧ nonce.length = nonceBytes then
      (world.calls t).bind fun (call, stage) =>
        advance box b64 machine json { world with clock := now } t call nonce stage
    else none

end DeviceWorld

end

end RustDesk.Config
