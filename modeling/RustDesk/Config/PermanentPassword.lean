import RustDesk.Config.PasswordSecurity
import RustDesk.Connection.Environment

/-!
# The permanent password in the configuration

References: `libs/hbb_common/src/config/permanent_password.rs` and `config.rs`
(`validate_or_decrypt_permanent_password_storage` to `store`, `set_permanent_password` to `get_salt`).

A password is kept as its hash with the salt: the hash in base64 behind `00`, encrypted and in base64
behind `01`. What older versions wrote stands beside it, plain or encrypted behind `00`.

Of the configuration only the password and its salt are modelled. A file that is written is written.
-/

namespace RustDesk.Config

open Net

/-- `PERMANENT_PASSWORD_H1_LEN`, `DEFAULT_SALT_LEN` and `ENCRYPT_MAX_LEN`. -/
def h1Len : ℕ := 32

def defaultSaltLen : ℕ := 32

def encryptMaxLen : ℕ := 128

/-- `starts_with` one of the versions. -/
def startsWith (s version : String) : Bool := (Utf8.bytes version).isPrefixOf (Utf8.bytes s)

/-- `compute_permanent_password_h1`. -/
def computeH1 (sha256 : Bytes → Bytes) (password salt : String) : Bytes :=
  sha256 (Utf8.bytes password ++ Utf8.bytes salt)

/-! ## Storages -/

section Storages

variable (box : SecretBox Bytes) (b64 : Base64Coder) (machine : Machine)

/-- `encode_permanent_password_storage_from_h1`. -/
def encodeStorageFromH1 (h1 : Bytes) : String := "00" ++ b64.encode h1

/-- `encrypt_permanent_password_storage`. -/
def encryptPermanentPasswordStorage (nonce : Bytes) (storage : String) : Option String :=
  if encryptMaxLen < storage.length then none
  else some ("01" ++ b64.encode (symmetricEncrypt box machine nonce (Utf8.bytes storage)))

/-- `encode_permanent_password_encrypted_storage_from_h1`. -/
def encodeEncryptedStorageFromH1 (nonce h1 : Bytes) : Option String :=
  encryptPermanentPasswordStorage box b64 machine nonce (encodeStorageFromH1 b64 h1)

/-- `decode_password_h1_after_prefix`. -/
def decodeH1After (version storage : String) : Option Bytes :=
  if startsWith storage version then
    match b64.decode ((Utf8.bytes storage).drop versionLen) with
    | some v => if v.length = h1Len then some v else none
    | none => none
  else none

/-- `decode_permanent_password_h1_from_hashed_storage`. -/
def decodeH1FromHashedStorage (storage : String) : Option Bytes := decodeH1After b64 "00" storage

/-- `decode_preset_password_h1_from_storage`. -/
def decodePresetH1FromStorage (storage : String) : Option Bytes := decodeH1After b64 "00" storage

/-- `decrypt_permanent_password_str_or_original`: the storage, whether decryption succeeded, and
whether there is anything else to it. -/
def decryptPermanentStrOrOriginal (storage : String) : String × Bool × Bool :=
  let bytes := Utf8.bytes storage
  let decrypted :=
    if versionLen < bytes.length ∧ startsWith storage "01" then
      (b64.decode (bytes.drop versionLen)).bind (symmetricDecrypt box machine)
    else none
  match decrypted with
  | some v => (Utf8.lossy v, true, false)
  | none => (storage, false, !bytes.isEmpty)

/-- `decode_permanent_password_h1_from_storage`. -/
def decodeH1FromStorage (storage : String) : Option Bytes :=
  if startsWith storage "01" then
    match decryptPermanentStrOrOriginal box b64 machine storage with
    | (hashedStorage, true, _) => decodeH1FromHashedStorage b64 hashedStorage
    | (_, false, _) => none
  else none

/-- `local_permanent_password_storage_is_usable_for_auth`. -/
def localStorageIsUsableForAuth (storage salt : String) : Bool :=
  if storage = "" then false
  else if (decodeH1FromStorage box b64 machine storage).isSome then salt ≠ ""
  else if startsWith storage "01" && (decryptPermanentStrOrOriginal box b64 machine storage).2.1 then
    false
  else
    match decryptStrOrOriginal box b64 machine storage "00" with
    | (_, decrypted, looksLikePlaintext) =>
      !(startsWith storage "00" && !decrypted && !looksLikePlaintext)

/-- `preset_permanent_password_storage_is_usable_for_auth`. -/
def presetStorageIsUsableForAuth (storage salt : String) : Bool :=
  if storage = "" then false
  else if salt = "" then true
  else (decodePresetH1FromStorage b64 storage).isSome

/-- `preset_permanent_password_storage_matches_plain`. -/
def presetStorageMatchesPlain (sha256 : Bytes → Bytes) (storage salt input : String) : Bool :=
  if storage = "" ∨ input = "" then false
  else if salt = "" then storage = input
  else
    match decodePresetH1FromStorage b64 storage with
    | none => false
    | some storedH1 => computeH1 sha256 input salt = storedH1

/-- `password_is_empty_or_not_hashed`. -/
def passwordIsEmptyOrNotHashed (storage : String) : Bool :=
  if storage = "" then true
  else if (decodeH1FromStorage box b64 machine storage).isSome then false
  else if startsWith storage "01" then false
  else
    match decryptStrOrOriginal box b64 machine storage "00" with
    | (_, decrypted, looksLikePlaintext) => decrypted || looksLikePlaintext

/-- `keep_encrypted_storage_if_plaintext_unchanged`. -/
def keepEncryptedStorageIfPlaintextUnchanged (nonce : Bytes) (plain stored : String) : String :=
  match decryptStrOrOriginal box b64 machine stored "00" with
  | (storedPlain, encrypted, _) =>
    if encrypted ∧ storedPlain = plain then stored
    else encryptStrOrOriginal box b64 machine nonce plain "00" encryptMaxLen

end Storages

/-! ## The configuration -/

/-- The password and the salt of a `Config`. -/
structure PasswordConfig where
  password : String
  salt : String
deriving DecidableEq

/-- The password and the salt of `HARD_SETTINGS`. -/
structure Preset where
  storage : String
  salt : String

/-- `CONFIG` and the file of the configuration. -/
structure State where
  memory : PasswordConfig
  file : PasswordConfig
deriving DecidableEq

/-- What is drawn in one call: the nonces of `symmetric_crypt` for a hash and for a plain password, and
the salt, `get_auto_password(DEFAULT_SALT_LEN)`. -/
structure Random where
  nonce : Bytes
  plainNonce : Bytes
  salt : String
  nonce_length : nonce.length = nonceBytes
  plainNonce_length : plainNonce.length = nonceBytes
  salt_length : salt.length = defaultSaltLen

namespace PasswordConfig

variable (box : SecretBox Bytes) (b64 : Base64Coder) (machine : Machine)

/-- `validate_or_decrypt_permanent_password_storage`. -/
def validateOrDecrypt (config : PasswordConfig) : Except String PasswordConfig :=
  if config.password = "" then .ok config
  else if startsWith config.password "00" then
    match decryptStrOrOriginal box b64 machine config.password "00" with
    | (plain, true, _) => .ok { config with password := plain }
    | (_, false, shouldStore) =>
      if !shouldStore then .error "Invalid permanent password encrypted hash storage" else .ok config
  else
    match decryptPermanentStrOrOriginal box b64 machine config.password with
    | (decryptedStorage, true, _) =>
      -- `ensure_permanent_password_hash_salt`
      if config.salt = "" then .error "Permanent password hash storage requires a non-empty salt"
      else if (decodeH1FromHashedStorage b64 decryptedStorage).isSome then .ok config
      else .error "Invalid permanent password encrypted hash storage"
    | (_, false, _) => .ok config

/-- `prepare_config_for_store`. -/
def prepareForStore (config : PasswordConfig) : PasswordConfig :=
  match config.validateOrDecrypt box b64 machine with
  | .ok config => config
  | .error _ => ⟨"", ""⟩

/-- What `store` writes over the stored configuration. -/
def store (r : Random) (config stored : PasswordConfig) : PasswordConfig :=
  let config := config.prepareForStore box b64 machine
  if config.password ≠ "" ∧ decodeH1FromStorage box b64 machine config.password = none then
    { config with
      password := keepEncryptedStorageIfPlaintextUnchanged box b64 machine r.plainNonce
        config.password stored.password }
  else config

/-- What `load` makes of the stored configuration. -/
def load (stored : PasswordConfig) : PasswordConfig :=
  match stored.validateOrDecrypt box b64 machine with
  | .ok config => config
  | .error _ => stored

/-- `ensure_permanent_password_salt`. -/
def ensureSalt (r : Random) (config : PasswordConfig) : PasswordConfig :=
  if config.salt = "" then { config with salt := r.salt } else config

/-- `compute_permanent_password_storage_for_update`. -/
def computeStorageForUpdate (sha256 : Bytes → Bytes) (r : Random) (config : PasswordConfig)
    (password : String) : PasswordConfig × Option String :=
  let config := config.ensureSalt r
  (config, encodeEncryptedStorageFromH1 box b64 machine r.nonce
    (computeH1 sha256 password config.salt))

/-- `apply_permanent_password_storage_for_sync`. -/
def applyStorageForSync (config : PasswordConfig) (storage salt : String) :
    Except String (Bool × PasswordConfig) :=
  if storage = "" then
    if config.password = "" ∧ (salt = "" ∨ config.salt = salt) then .ok (false, config)
    else .ok (true, ⟨"", if salt ≠ "" then salt else config.salt⟩)
  else if salt = "" then
    .error "Refusing to persist permanent password storage without salt"
  else if decodeH1FromStorage box b64 machine storage = none then
    .error "Invalid permanent password storage sync payload"
  else if config.password = storage ∧ config.salt = salt then .ok (false, config)
  else .ok (true, ⟨storage, salt⟩)

end PasswordConfig

namespace State

variable (box : SecretBox Bytes) (b64 : Base64Coder) (machine : Machine) (sha256 : Bytes → Bytes)

/-- Before the first start. -/
def new : State := ⟨⟨"", ""⟩, ⟨"", ""⟩⟩

/-- `store`. -/
def store (r : Random) (s : State) : State :=
  { s with file := s.memory.store box b64 machine r s.file }

/-- `load`, at the start of the program. A new id makes it store. -/
def load (r : Random) (newId : Bool) (s : State) : State :=
  let s := { s with memory := s.file.load box b64 machine }
  if newId then s.store box b64 machine r else s

/-- `set_permanent_password`. -/
def setPermanentPassword (preset : Preset) (disabled : Bool) (r : Random) (s : State)
    (password : String) : Bool × State :=
  if disabled then (false, s)
  else if presetStorageMatchesPlain b64 sha256 preset.storage preset.salt password ∧
      s.memory.password = "" then (true, s)
  else
    let (config, stored) :=
      if password = "" then (s.memory, some "")
      else s.memory.computeStorageForUpdate box b64 machine sha256 r password
    match stored with
    | none => (false, { s with memory := config })
    | some stored =>
      if stored = config.password then (true, { s with memory := config })
      else (true, store box b64 machine r { s with memory := { config with password := stored } })

/-- `set_permanent_password_storage_for_sync`. -/
def setStorageForSync (r : Random) (s : State) (storage salt : String) : Except String Bool × State :=
  match s.memory.applyStorageForSync box b64 machine storage salt with
  | .error err => (.error err, s)
  | .ok (false, config) => (.ok false, { s with memory := config })
  | .ok (true, config) => (.ok true, store box b64 machine r { s with memory := config })

/-- `set_salt`. -/
def setSalt (r : Random) (s : State) (salt : String) : State :=
  if salt = s.memory.salt then s
  else if !passwordIsEmptyOrNotHashed box b64 machine s.memory.password && s.memory.salt ≠ "" then s
  else store box b64 machine r { s with memory := { s.memory with salt := salt } }

/-- `get_salt`. -/
def getSalt (r : Random) (s : State) : String × State :=
  if s.memory.salt = "" then (r.salt, setSalt box b64 machine r s r.salt) else (s.memory.salt, s)

/-- `get_effective_permanent_password_salt`. -/
def getEffectiveSalt (preset : Preset) (r : Random) (s : State) : String × State :=
  if s.memory.password ≠ "" then
    if localStorageIsUsableForAuth box b64 machine s.memory.password s.memory.salt then
      getSalt box b64 machine r s
    else ("", s)
  else if preset.salt ≠ "" then
    if presetStorageIsUsableForAuth b64 preset.storage preset.salt then (preset.salt, s) else ("", s)
  else getSalt box b64 machine r s

end State

/-! ## A hash in its storage -/

/-- The length of padded base64. -/
def Base64Coder.Padded (b64 : Base64Coder) : Prop :=
  ∀ v, (b64.encode v).length = (v.length + 2) / 3 * 4

theorem base64_padded : base64.Padded := by
  intro v
  rw [base64, String.length_ofList, List.length_map, Base64.encode_length]

/-- The storage of a hash, as a machine with this `uuid` writes it. -/
def IsStorageOf (box : SecretBox Bytes) (b64 : Base64Coder) (uuid h1 : Bytes) (storage : String) : Prop :=
  h1.length = h1Len ∧ ∃ machine nonce, machine.uuid = uuid ∧ nonce.length = nonceBytes ∧
    storage = "01" ++ b64.encode
      (symmetricEncrypt box machine nonce (Utf8.bytes (encodeStorageFromH1 b64 h1)))

theorem bytes_current : Utf8.bytes "01" = [48, 49] := by decide

theorem startsWith_legacy_append (text : String) : startsWith ("00" ++ text) "00" = true := by
  rw [startsWith, Utf8.bytes_append, bytes_version]
  rfl

theorem startsWith_current_append (text : String) : startsWith ("01" ++ text) "01" = true := by
  rw [startsWith, Utf8.bytes_append, bytes_current]
  rfl

/-- A storage has one version. -/
theorem startsWith_current_legacy {s : String} (h : startsWith s "01" = true) : startsWith s "00" = false := by
  obtain ⟨rest, hrest⟩ := List.isPrefixOf_iff_prefix.mp h
  rw [bytes_current] at hrest
  rw [startsWith, ← hrest, bytes_version]
  rfl

theorem not_startsWith_empty (version : String) (h : version ≠ "") : startsWith "" version = false := by
  have hne : Utf8.bytes version ≠ [] := mt Utf8.bytes_eq_nil.mp h
  rw [startsWith, Utf8.bytes_eq_nil.mpr rfl]
  cases hbytes : Utf8.bytes version with
  | nil => exact absurd hbytes hne
  | cons b bs => rfl

variable {box : SecretBox Bytes} {b64 : Base64Coder} {machine : Machine} {sha256 : Bytes → Bytes}

/-- The hash behind its version is decoded. -/
theorem decodeH1FromHashedStorage_encode (hb64 : b64.Correct) {h1 : Bytes} (hlen : h1.length = h1Len) :
    decodeH1FromHashedStorage b64 (encodeStorageFromH1 b64 h1) = some h1 := by
  have hdrop : (Utf8.bytes ("00" ++ b64.encode h1)).drop versionLen = Utf8.bytes (b64.encode h1) := by
    rw [Utf8.bytes_append, bytes_version]
    rfl
  rw [decodeH1FromHashedStorage, decodeH1After, encodeStorageFromH1,
    if_pos (startsWith_legacy_append _), hdrop, hb64.decode_of_encode]
  exact if_pos hlen

/-- A hash is never too long to be encrypted. -/
theorem encodeEncryptedStorageFromH1_isStorageOf (hpad : b64.Padded) {nonce h1 : Bytes}
    (hnonce : nonce.length = nonceBytes) (hlen : h1.length = h1Len) :
    ∃ storage, encodeEncryptedStorageFromH1 box b64 machine nonce h1 = some storage ∧
      IsStorageOf box b64 machine.uuid h1 storage := by
  have hshort : ¬ encryptMaxLen < (encodeStorageFromH1 b64 h1).length := by
    rw [encodeStorageFromH1, String.length_append, hpad, hlen]
    decide
  rw [encodeEncryptedStorageFromH1, encryptPermanentPasswordStorage, if_neg hshort]
  exact ⟨_, rfl, hlen, machine, nonce, rfl, hnonce, rfl⟩

namespace IsStorageOf

variable {h1 : Bytes} {storage : String}

theorem startsWith_current (h : IsStorageOf box b64 machine.uuid h1 storage) : startsWith storage "01" = true := by
  obtain ⟨-, _, _, -, -, rfl⟩ := h
  exact startsWith_current_append _

theorem ne_empty (h : IsStorageOf box b64 machine.uuid h1 storage) : storage ≠ "" := by
  rintro rfl
  cases (not_startsWith_empty "01" (by decide)).symm.trans h.startsWith_current

section

variable (hbox : box.Correct) (hb64 : b64.Correct) (h : IsStorageOf box b64 machine.uuid h1 storage)
include hbox hb64 h

theorem decryptPermanent
    :
    decryptPermanentStrOrOriginal box b64 machine storage
      = (encodeStorageFromH1 b64 h1, true, false) := by
  obtain ⟨-, writer, nonce, huuid, hnonce, rfl⟩ := h
  have hsame : symmetricEncrypt box writer nonce (Utf8.bytes (encodeStorageFromH1 b64 h1))
      = symmetricEncrypt box machine nonce (Utf8.bytes (encodeStorageFromH1 b64 h1)) := by
    rw [symmetricEncrypt, symmetricEncrypt, huuid]
  rw [hsame]
  have hne : symmetricEncrypt box machine nonce (Utf8.bytes (encodeStorageFromH1 b64 h1)) ≠ [] :=
    symmetricEncrypt_ne_nil _ _
  have hlong := encoded_length hb64 hne
  have hopen : symmetricDecrypt box machine (symmetricEncrypt box machine nonce
      (Utf8.bytes (encodeStorageFromH1 b64 h1))) = some (Utf8.bytes (encodeStorageFromH1 b64 h1)) :=
    symmetricDecrypt_encrypt hbox hnonce _
  generalize symmetricEncrypt box machine nonce (Utf8.bytes (encodeStorageFromH1 b64 h1)) = payload
    at hlong hopen
  have hbytes : Utf8.bytes ("01" ++ b64.encode payload) = 48 :: 49 :: Utf8.bytes (b64.encode payload) := by
    rw [Utf8.bytes_append, bytes_current]
    rfl
  have hgo : versionLen < (48 :: 49 :: Utf8.bytes (b64.encode payload)).length ∧
      startsWith ("01" ++ b64.encode payload) "01" = true := by
    refine ⟨?_, startsWith_current_append _⟩
    simpa [versionLen] using hlong
  have hrest : (48 :: 49 :: Utf8.bytes (b64.encode payload)).drop versionLen
      = Utf8.bytes (b64.encode payload) := rfl
  rw [decryptPermanentStrOrOriginal, hbytes, if_pos hgo, hrest, hb64.decode_of_encode, Option.bind_some, hopen]
  dsimp only
  rw [Utf8.lossy_bytes]

theorem decodeH1
    :
    decodeH1FromStorage box b64 machine storage = some h1 := by
  rw [decodeH1FromStorage, if_pos h.startsWith_current, h.decryptPermanent hbox hb64]
  exact decodeH1FromHashedStorage_encode hb64 h.1

theorem usable {salt : String} (hsalt : salt ≠ "") :
    localStorageIsUsableForAuth box b64 machine storage salt = true := by
  rw [localStorageIsUsableForAuth, if_neg h.ne_empty, h.decodeH1 hbox hb64]
  exact decide_eq_true hsalt

theorem hashed
    :
    passwordIsEmptyOrNotHashed box b64 machine storage = false := by
  rw [passwordIsEmptyOrNotHashed, if_neg h.ne_empty, h.decodeH1 hbox hb64]
  rfl

/-- A hash with a salt is valid as it is. -/
theorem validateOrDecrypt {salt : String} (hsalt : salt ≠ "") :
    PasswordConfig.validateOrDecrypt box b64 machine ⟨storage, salt⟩ = .ok ⟨storage, salt⟩ := by
  rw [PasswordConfig.validateOrDecrypt, if_neg h.ne_empty,
    if_neg (Bool.eq_false_iff.mp (startsWith_current_legacy h.startsWith_current)),
    h.decryptPermanent hbox hb64]
  dsimp only
  rw [if_neg hsalt, decodeH1FromHashedStorage_encode hb64 h.1]
  rfl

end

end IsStorageOf

end RustDesk.Config
