import RustDesk.Connection.State
import RustDesk.Handshake.IdPkBytes

/-!
# What a handler asks of its surroundings

References: `src/server/connection.rs` (`permission`, `is_permission_enabled_locally`,
`enable_trusted_devices`, the closures of the login), `libs/hbb_common/src/password_security.rs`
(`approve_mode`, `verification_method`, `has_valid_password`), `config.rs` (`option2bool`,
`has_permanent_password`, `TrustedDevice::outdate`) and `src/common.rs` (`get_control_permission`).

An `Env` answers for the duration of one handler. Nothing ties the answers of two handlers together:
between them the user may change any setting, and other connections go on.
-/

namespace RustDesk.Connection

open Handshake

/-- `target_os`. -/
inductive TargetOs
  | windows
  | linux
  | macos
  | android
  | ios
deriving DecidableEq

/-- `not(any(target_os = "android", target_os = "ios"))` -/
def TargetOs.isDesktop : TargetOs → Bool
  | .android | .ios => false
  | _ => true

/-- What is fixed when the program is built: the target, the `flutter` feature, and the digest. -/
structure Build where
  os : TargetOs
  flutter : Bool
  sha256 : List UInt8 → List UInt8

/-- A stored permanent password: what is stored, its salt, whether `.._is_usable_for_auth`, and the
hash that `decode_.._h1_from_storage` finds in it. -/
structure PasswordStorage where
  storage : String
  salt : String
  usable : Bool
  h1 : Option (List UInt8)
deriving DecidableEq

/-- Where a handler takes hold of a shared table. -/
inductive SharedRead
  | trustedDevices
  | recentPassword
  | recentTfa
  | switchSidesUuid
deriving DecidableEq

/-- The surroundings of one handler. -/
structure Env where
  /-- milliseconds -/
  now : ℕ
  /-- What the other connections did to the shared tables before this one gets hold of one. -/
  meanwhile : SharedRead → Shared → Shared
  /-- `Config::get_option` -/
  option : String → String
  /-- `get_builtin_option` -/
  builtinOption : String → String
  /-- `Config::get_id` -/
  id : String
  temporaryPassword : String
  localPassword : PasswordStorage
  presetPassword : PasswordStorage
  /-- `is_direct_ip_access` -/
  isDirectIpAccess : String → Bool
  /-- `get_version_number` -/
  versionNumber : String → ℤ
  isInPrivacyMode : Bool
  isPrelogin : Bool
  isLocked : Bool
  isLogonUi : Bool
  isInstalled : Bool
  /-- `linux_desktop_manager::get_username` -/
  desktopUsername : String
  /-- `linux_desktop_manager::try_start_desktop` -/
  tryStartDesktop : String → String → String
  /-- What is wrong with the display server (Linux). -/
  displayServerError : Option String
  /-- The error of `update_get_sync_displays_on_login`. -/
  displaysError : Option String
  /-- What `check_failure(i)` refuses with. -/
  checkFailure : ℕ → Option String
  /-- Whether `evaluate_os_credential_policy` blocks the attempt, and the text it has for the peer. -/
  osCredentialBlocked : Option (Option String)
  /-- `try_acquire_os_credential_login_gate` -/
  osCredentialGate : Bool
  /-- `get_logon_user_token` and `is_user_token_admin` both say yes. -/
  isAdministrator : String → String → Bool
  /-- The token that `handle_installed_user` finds. -/
  installedUserToken : Except String ℕ
  /-- `terminal_service::is_service_specified_user` -/
  isServiceSpecifiedUser : String → Option Bool
  /-- `TcpStream::connect` within three seconds -/
  connects : String → Bool
  /-- `check_current` -/
  checkCurrent : Totp → String → Option Bool
  /-- Whether a session of this type takes messages of this family. -/
  inScope : AuthConnType → String → Bool
  /-- What the arm of a session message returns. -/
  sessionKeepAlive : Bool

/-! ## Options -/

/-- `option2bool` of an option whose name starts with `enable-`. -/
def enableOption2bool (value : String) : Bool := value ≠ "N"

/-- `option2bool` of an option whose name starts with `allow-`. -/
def allowOption2bool (value : String) : Bool := value = "Y"

/-- `ApproveMode`. -/
inductive ApproveMode
  | both
  | password
  | click
deriving DecidableEq

/-- `control_permissions::Permission`, as far as a login asks for them. -/
inductive Permission
  | file
  | camera
  | terminal
  | tunnel
deriving DecidableEq

def Permission.index : Permission → ℕ
  | .file => 3
  | .camera => 5
  | .terminal => 6
  | .tunnel => 7

/-- The option that a permission falls back to. -/
def Permission.option : Permission → String
  | .file => "enable-file-transfer"
  | .camera => "enable-camera"
  | .terminal => "enable-terminal"
  | .tunnel => "enable-tunnel"

/-- `get_control_permission`. -/
def getControlPermission (permissions : BitVec 64) (permission : Permission) : Option Bool :=
  let value := (permissions >>> (permission.index * 2)) &&& 0b11#64
  if value = 1#64 then some false
  else if value = 2#64 then some true
  else none

namespace Env

variable (b : Build) (env : Env)

/-- `approve_mode`. -/
def approveMode : ApproveMode :=
  let mode := env.option "approve-mode"
  if mode = "password" then .password
  else if mode = "click" then .click
  else .both

/-- `temporary_enabled`. -/
def temporaryEnabled : Bool := env.option "verification-method" ≠ "use-permanent-password"

/-- `permanent_enabled`. -/
def permanentEnabled : Bool := env.option "verification-method" ≠ "use-temporary-password"

/-- `has_permanent_password`. -/
def hasPermanentPassword : Bool :=
  if env.localPassword.storage ≠ "" then env.localPassword.usable
  else env.presetPassword.usable

/-- `has_valid_password`. -/
def hasValidPassword : Bool :=
  env.temporaryEnabled && env.temporaryPassword ≠ "" ||
    env.permanentEnabled && env.hasPermanentPassword

/-- `is_permission_enabled_locally`. -/
def isPermissionEnabledLocally (permission : Permission) : Bool :=
  if b.flutter ∧ b.os.isDesktop ∧ env.option "access-mode" = "full" then true
  else if b.flutter ∧ b.os.isDesktop ∧ env.option "access-mode" = "view" then false
  else enableOption2bool (env.option permission.option)

/-- `permission`. -/
def permission (permission : Permission) (controlPermissions : Option (BitVec 64)) : Bool :=
  match controlPermissions.bind (getControlPermission · permission) with
  | some enabled => enabled
  | none => env.isPermissionEnabledLocally b permission

/-- `enable_trusted_devices`. -/
def enableTrustedDevices : Bool := enableOption2bool (env.option "enable-trusted-devices")

/-- `is_logon`, a closure of the login. -/
def isLogon : Bool :=
  match b.os with
  | .windows => env.isPrelogin || env.isLocked || env.isLogonUi
  | .linux | .macos => env.isPrelogin || env.isLocked
  | .android | .ios => env.isPrelogin

/-- `allow_logon_screen_password`, a variable of the login. -/
def allowLogonScreenPassword : Bool :=
  env.builtinOption "allow-logon-screen-password" = "Y" && env.isLogon b

/-- The login is up to the user at the host alone: it must be clicked, or there is no password. -/
def clickOnly : Bool :=
  env.approveMode = .click && !env.allowLogonScreenPassword b ||
    env.approveMode = .both && !env.hasValidPassword

end Env

/-- `TrustedDevice::outdate`. -/
def TrustedDevice.outdate (d : TrustedDevice) (now : ℕ) : Bool :=
  d.time + 90 * 24 * 60 * 60 * 1000 < now

/-! ## Strings -/

/-- The `White_Space` characters, which `trim` takes off. -/
def isWhiteSpace (c : Char) : Bool :=
  let n := c.toNat
  9 ≤ n && n ≤ 13 || n = 0x20 || n = 0x85 || n = 0xA0 || n = 0x1680 || 0x2000 ≤ n && n ≤ 0x200A ||
    n = 0x2028 || n = 0x2029 || n = 0x202F || n = 0x205F || n = 0x3000

/-- `str::trim`. -/
def trim (s : String) : String :=
  String.ofList ((s.toList.dropWhile isWhiteSpace).reverse.dropWhile isWhiteSpace).reverse

/-- `should_use_terminal_os_login_scope`. -/
def shouldUseTerminalOsLoginScope (b : Build) (isTerminal : Bool) (osLoginUsername : String) :
    Bool :=
  b.os = .windows && isTerminal && trim osLoginUsername ≠ ""

/-- `should_check_linux_headless_os_auth_before_desktop_start`. -/
def shouldCheckLinuxHeadlessOsAuth (env : Env) (isHeadlessAllowed : Bool) (username : String) :
    Bool :=
  isHeadlessAllowed && trim username ≠ "" && env.desktopUsername = ""

/-- `should_record_linux_headless_os_auth_failure`. -/
def shouldRecordLinuxHeadlessOsAuthFailure (isHeadlessAllowed : Bool) (username errMsg : String) :
    Bool :=
  isHeadlessAllowed && trim username ≠ "" && errMsg = "Wrong Password"

/-! ## Passwords -/

section Passwords

variable (b : Build) (hash : Hash) (password : List UInt8)

/-- `verify_h1`, the password being the one of the login request. -/
def verifyH1 (h1 : List UInt8) : Bool :=
  b.sha256 (h1 ++ utf8Bytes hash.challenge) = password

/-- `validate_password_plain`. -/
def validatePasswordPlain (plain : String) : Bool :=
  if plain = "" then false
  else verifyH1 b hash password (b.sha256 (utf8Bytes plain ++ utf8Bytes hash.salt))

/-- `validate_password_storage`. -/
def validatePasswordStorage (stored : PasswordStorage) : Bool :=
  if stored.storage = "" then false
  else
    match stored.h1 with
    | some h1 => verifyH1 b hash password h1
    | none => validatePasswordPlain b hash password stored.storage

/-- `validate_preset_password_storage`. -/
def validatePresetPasswordStorage (stored : PasswordStorage) : Bool :=
  if stored.salt = "" then validatePasswordPlain b hash password stored.storage
  else
    match stored.h1 with
    | some h1 => verifyH1 b hash password h1
    | none => false

/-- Whether the password is the permanent one: the local one if there is one, else the preset one. -/
def isPermanentPassword (env : Env) : Bool :=
  if env.localPassword.storage ≠ "" then
    env.localPassword.usable && validatePasswordStorage b hash password env.localPassword
  else env.presetPassword.usable && validatePresetPasswordStorage b hash password env.presetPassword

end Passwords

end RustDesk.Connection
