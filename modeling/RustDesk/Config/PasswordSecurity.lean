import Mathlib.Data.List.TakeDrop
import RustDesk.Common.Base64
import RustDesk.Common.Utf8
import RustDesk.Net.Encrypt

/-!
# Secrets in the configuration

References: `libs/hbb_common/src/password_security.rs` (`is_encrypted` to `open_secretbox_payload`).

A stored secret is the version `00` and the base64 text of a payload. A payload holds a box, behind a
marker and the nonce in the current format, alone and sealed under the zero nonce in the legacy one. A
legacy box may begin with the marker, and either may be sealed under the fallback key.

`secretbox` and `base64` are not part of the repository. What a result needs of them is a hypothesis.
-/

namespace RustDesk.Config

open Net

/-- `sodiumoxide::base64` with `Variant::Original`. -/
structure Base64Coder where
  encode : Bytes → String
  decode : Bytes → Option Bytes

/-- `decode` inverts `encode`, which makes something of something. -/
structure Base64Coder.Correct (b64 : Base64Coder) : Prop where
  decode_of_encode : ∀ v, b64.decode (Utf8.bytes (b64.encode v)) = some v
  encode_ne : ∀ v, v ≠ [] → b64.encode v ≠ ""

/-- What the keys come from: `get_uuid`, the public key of `Config::get_existing_key_pair`, and whether
this is Android or iOS, where the public key is no fallback. -/
structure Machine where
  uuid : Bytes
  existingPk : Option Bytes
  mobile : Bool

def versionLen : ℕ := 2

def formatV1 : UInt8 := 1

/-- `secretbox::KEYBYTES`, `NONCEBYTES` and `MACBYTES`. -/
def keyBytes : ℕ := 32

def nonceBytes : ℕ := 24

def macBytes : ℕ := 16

/-- `keybuf.resize(KEYBYTES, 0)`. -/
def keyOf (keybuf : Bytes) : Bytes := keybuf.takeD keyBytes 0

/-- The nonce of the legacy format. -/
def legacyNonce : Bytes := List.replicate nonceBytes 0

section

variable (box : SecretBox Bytes) (b64 : Base64Coder) (machine : Machine)

/-- `is_encrypted`. -/
def isEncrypted (v : Bytes) : Bool :=
  if v.length ≤ versionLen || !(Utf8.bytes "00").isPrefixOf v then false
  else
    match b64.decode (v.drop versionLen) with
    | some decoded => macBytes ≤ decoded.length
    | none => false

/-- `symmetric_crypt` that encrypts, with the nonce that `gen_nonce` gives. -/
def symmetricEncrypt (nonce data : Bytes) : Bytes :=
  formatV1 :: nonce ++ box.sealBox data nonce (keyOf machine.uuid)

/-- `open_secretbox_payload`. -/
def openSecretboxPayload (data key : Bytes) : Option Bytes :=
  let v1 :=
    if data.head? = some formatV1 ∧ 1 + nonceBytes + macBytes ≤ data.length then
      box.openBox (data.drop (1 + nonceBytes)) ((data.drop 1).take nonceBytes) key
    else none
  match v1 with
  | some decrypted => some decrypted
  | none => box.openBox data legacyNonce key

/-- `symmetric_crypt` that decrypts. -/
def symmetricDecrypt (data : Bytes) : Option Bytes :=
  match openSecretboxPayload box data (keyOf machine.uuid) with
  | some decrypted => some decrypted
  | none =>
    if machine.mobile then none
    else
      match machine.existingPk with
      | some pk => if pk ≠ machine.uuid then openSecretboxPayload box data (keyOf pk) else none
      | none => none

/-- `encrypt`. -/
def encrypt (nonce v : Bytes) : Option String :=
  if v ≠ [] then some (b64.encode (symmetricEncrypt box machine nonce v)) else none

/-- `decrypt`. -/
def decrypt (v : Bytes) : Option Bytes :=
  if v ≠ [] then (b64.decode v).bind (symmetricDecrypt box machine) else none

def encryptStrOrOriginal (nonce : Bytes) (s version : String) (maxLen : ℕ) : String :=
  if isEncrypted b64 (Utf8.bytes s) then s
  else if maxLen < s.length then ""
  else if version = "00" then
    match encrypt box b64 machine nonce (Utf8.bytes s) with
    | some encrypted => version ++ encrypted
    | none => s
  else s

/-- The secret, whether decryption succeeded, and whether it is to be stored again. -/
def decryptStrOrOriginal (s currentVersion : String) : String × Bool × Bool :=
  let bytes := Utf8.bytes s
  let decrypted :=
    if versionLen < bytes.length ∧ (Utf8.bytes "00").isPrefixOf bytes then
      decrypt box b64 machine (bytes.drop versionLen)
    else none
  match decrypted with
  | some v => (Utf8.lossy v, true, "00" != currentVersion)
  | none => (s, false, !bytes.isEmpty && !isEncrypted b64 bytes)

def encryptVecOrOriginal (nonce v : Bytes) (version : String) (maxLen : ℕ) : Bytes :=
  if isEncrypted b64 v then v
  else if maxLen < v.length then []
  else if version = "00" then
    match encrypt box b64 machine nonce v with
    | some encrypted => Utf8.bytes version ++ Utf8.bytes encrypted
    | none => v
  else v

/-- The same for bytes. -/
def decryptVecOrOriginal (v : Bytes) (currentVersion : String) : Bytes × Bool × Bool :=
  let version := Utf8.lossy (v.take versionLen)
  let decrypted :=
    if versionLen < v.length ∧ version = "00" then decrypt box b64 machine (v.drop versionLen)
    else none
  match decrypted with
  | some decrypted => (decrypted, true, version != currentVersion)
  | none => (v, false, !v.isEmpty && !isEncrypted b64 v)

end

/-! ## Payloads -/

/-- A payload with the box of `m` under `key`: the payload, the box and its nonce. -/
inductive WrittenAs (box : SecretBox Bytes) (m key : Bytes) : Bytes → Bytes → Bytes → Prop
  | v1 (nonce : Bytes) (hnonce : nonce.length = nonceBytes) :
    WrittenAs box m key (formatV1 :: nonce ++ box.sealBox m nonce key) (box.sealBox m nonce key) nonce
  | legacy : WrittenAs box m key (box.sealBox m legacyNonce key) (box.sealBox m legacyNonce key)
      legacyNonce

/-- Where a box is looked for in a payload, and the nonce for it. -/
inductive Reading (payload : Bytes) : Bytes → Bytes → Prop
  | v1 : Reading payload (payload.drop (1 + nonceBytes)) ((payload.drop 1).take nonceBytes)
  | legacy : Reading payload payload legacyNonce

/-- The keys that a payload is opened with. -/
def Machine.keys (machine : Machine) : List Bytes :=
  keyOf machine.uuid :: if machine.mobile then [] else machine.existingPk.toList.map keyOf

/-- `open` rejects what is not the box of the payload, and the box under another nonce or key. -/
def RejectsOthers (box : SecretBox Bytes) (keys : List Bytes) (payload c nonce key : Bytes) : Prop :=
  ∀ c' nonce', Reading payload c' nonce' → ∀ key' ∈ keys, ∀ m,
    box.openBox c' nonce' key' = some m → c' = c ∧ nonce' = nonce ∧ key' = key

variable {box : SecretBox Bytes} {b64 : Base64Coder} {machine : Machine} {key m nonce c payload : Bytes}

theorem legacyNonce_length : legacyNonce.length = nonceBytes := List.length_replicate ..

/-- What `open_secretbox_payload` gives, it opened. -/
theorem openSecretboxPayload_some {data : Bytes} (h : openSecretboxPayload box data key = some m) :
    ∃ c nonce, Reading data c nonce ∧ box.openBox c nonce key = some m := by
  unfold openSecretboxPayload at h
  by_cases hmarked : data.head? = some formatV1 ∧ 1 + nonceBytes + macBytes ≤ data.length
  · cases hopen : box.openBox (data.drop (1 + nonceBytes)) ((data.drop 1).take nonceBytes) key with
    | none =>
      rw [if_pos hmarked, hopen] at h
      exact ⟨_, _, .legacy, h⟩
    | some decrypted =>
      rw [if_pos hmarked, hopen] at h
      exact ⟨_, _, .v1, hopen.trans h⟩
  · rw [if_neg hmarked] at h
    exact ⟨_, _, .legacy, h⟩

/-- In the current format the box is the first that is tried. -/
theorem openSecretboxPayload_v1 (hbox : box.Correct) (hnonce : nonce.length = nonceBytes) (m key : Bytes) :
    openSecretboxPayload box (formatV1 :: nonce ++ box.sealBox m nonce key) key = some m := by
  have hlen := hbox.seal_length m nonce key hnonce
  have htake : ((formatV1 :: nonce ++ box.sealBox m nonce key).drop 1).take nonceBytes = nonce := by
    simp [← hnonce]
  have hdrop : (formatV1 :: nonce ++ box.sealBox m nonce key).drop (1 + nonceBytes)
      = box.sealBox m nonce key := by
    simp [← hnonce, Nat.add_comm 1]
  rw [openSecretboxPayload, if_pos, htake, hdrop, hbox.open_seal m nonce key hnonce]
  refine ⟨rfl, ?_⟩
  simp only [List.cons_append, List.length_cons, List.length_append, hlen, hnonce, macBytes]
  omega

/-- The box of a payload is found under its own key. -/
theorem openSecretboxPayload_written (hbox : box.Correct)
    (hwritten : WrittenAs box m key payload c nonce) {keys : List Bytes} (hkey : key ∈ keys)
    (hrejects : RejectsOthers box keys payload c nonce key) :
    openSecretboxPayload box payload key = some m := by
  cases hwritten with
  | v1 nonce hnonce => exact openSecretboxPayload_v1 hbox hnonce m key
  | legacy =>
    have hlen := hbox.seal_length m legacyNonce key legacyNonce_length
    have hv1 : box.openBox ((box.sealBox m legacyNonce key).drop (1 + nonceBytes))
        (((box.sealBox m legacyNonce key).drop 1).take nonceBytes) key = none := by
      by_contra hopen
      obtain ⟨m', hm'⟩ := Option.ne_none_iff_exists'.mp hopen
      obtain ⟨hpiece, -⟩ := hrejects _ _ .v1 key hkey m' hm'
      have hshort := congrArg List.length hpiece
      rw [List.length_drop, hlen, nonceBytes] at hshort
      omega
    rw [openSecretboxPayload, hv1, ite_self]
    exact hbox.open_seal m legacyNonce key legacyNonce_length

/-- No other key opens it. -/
theorem openSecretboxPayload_other {key' : Bytes} {keys : List Bytes} (hkey' : key' ∈ keys) (hne : key' ≠ key)
    (hrejects : RejectsOthers box keys payload c nonce key) :
    openSecretboxPayload box payload key' = none := by
  by_contra hopen
  obtain ⟨m, hm⟩ := Option.ne_none_iff_exists'.mp hopen
  obtain ⟨c', nonce', hreading, hopened⟩ := openSecretboxPayload_some hm
  exact hne (hrejects c' nonce' hreading key' hkey' m hopened).2.2

/-- **One payload**, in either format and under either key. -/
theorem symmetricDecrypt_written (hbox : box.Correct)
    (hwritten : WrittenAs box m key payload c nonce) (hkey : key ∈ machine.keys)
    (hrejects : RejectsOthers box machine.keys payload c nonce key) :
    symmetricDecrypt box machine payload = some m := by
  have hopen := openSecretboxPayload_written hbox hwritten hkey hrejects
  unfold symmetricDecrypt
  by_cases hown : keyOf machine.uuid = key
  · rw [hown, hopen]
  · rw [openSecretboxPayload_other List.mem_cons_self hown hrejects]
    have hfallback : key ∈ if machine.mobile then [] else machine.existingPk.toList.map keyOf :=
      (List.mem_cons.mp hkey).resolve_left (Ne.symm hown)
    cases hmobile : machine.mobile with
    | true => simp [hmobile] at hfallback
    | false =>
      cases hpk : machine.existingPk with
      | none => simp [hmobile, hpk] at hfallback
      | some pk =>
        obtain rfl : key = keyOf pk := by simpa [hmobile, hpk] using hfallback
        have hne : pk ≠ machine.uuid := by
          rintro rfl
          exact hown rfl
        simp [hne, hopen]

/-! ## Stored secrets -/

theorem bytes_version : Utf8.bytes "00" = [48, 48] := by decide

section

variable (hb64 : b64.Correct) (hne : payload ≠ [])
include hb64 hne

theorem decrypt_encoded : decrypt box b64 machine (Utf8.bytes (b64.encode payload))
      = symmetricDecrypt box machine payload := by
  have hbytes : Utf8.bytes (b64.encode payload) ≠ [] := by
    rw [ne_eq, Utf8.bytes_eq_nil]
    exact hb64.encode_ne payload hne
  rw [decrypt, if_pos hbytes, hb64.decode_of_encode, Option.bind_some]

theorem encoded_length : 0 < (Utf8.bytes (b64.encode payload)).length := by
  rw [List.length_pos_iff, ne_eq, Utf8.bytes_eq_nil]
  exact hb64.encode_ne payload hne

theorem decryptVec_encoded (hm : symmetricDecrypt box machine payload = some m) :
    decryptVecOrOriginal box b64 machine (Utf8.bytes "00" ++ Utf8.bytes (b64.encode payload)) "00"
      = (m, true, false) := by
  have hlen := encoded_length hb64 hne
  have hversion : (Utf8.bytes "00" ++ Utf8.bytes (b64.encode payload)).take versionLen
      = Utf8.bytes "00" := by
    rw [bytes_version]
    rfl
  have hrest : (Utf8.bytes "00" ++ Utf8.bytes (b64.encode payload)).drop versionLen
      = Utf8.bytes (b64.encode payload) := by
    rw [bytes_version]
    rfl
  have hlong : versionLen < (Utf8.bytes "00" ++ Utf8.bytes (b64.encode payload)).length := by
    rw [bytes_version, List.length_append, versionLen]
    simpa using hlen
  rw [decryptVecOrOriginal, hversion, Utf8.lossy_bytes, if_pos ⟨hlong, rfl⟩, hrest, decrypt_encoded hb64 hne, hm]
  rfl

theorem decryptStr_encoded {s : String} (hm : symmetricDecrypt box machine payload = some (Utf8.bytes s)) :
    decryptStrOrOriginal box b64 machine ("00" ++ b64.encode payload) "00" = (s, true, false) := by
  have hlen := encoded_length hb64 hne
  have hbytes : Utf8.bytes ("00" ++ b64.encode payload) = 48 :: 48 :: Utf8.bytes (b64.encode payload) := by
    rw [Utf8.bytes_append, bytes_version]
    rfl
  have hlong : versionLen < (48 :: 48 :: Utf8.bytes (b64.encode payload)).length := by
    simpa [versionLen] using hlen
  have hprefix : (Utf8.bytes "00").isPrefixOf (48 :: 48 :: Utf8.bytes (b64.encode payload)) = true := by
    rw [bytes_version]
    rfl
  have hrest : (48 :: 48 :: Utf8.bytes (b64.encode payload)).drop versionLen
      = Utf8.bytes (b64.encode payload) := rfl
  rw [decryptStrOrOriginal, hbytes, if_pos ⟨hlong, hprefix⟩, hrest, decrypt_encoded hb64 hne, hm]
  show (Utf8.lossy (Utf8.bytes s), true, false) = _
  rw [Utf8.lossy_bytes]

end

theorem decryptStr_empty : decryptStrOrOriginal box b64 machine "" "00" = ("", false, false) := by rfl

theorem decryptVec_empty : decryptVecOrOriginal box b64 machine [] "00" = ([], false, false) := by rfl

/-- What `encrypt` writes. -/
theorem encrypt_ne_nil {v : Bytes} (hv : v ≠ []) :
    encrypt box b64 machine nonce v = some (b64.encode (symmetricEncrypt box machine nonce v)) :=
  if_pos hv

theorem symmetricEncrypt_ne_nil (nonce m : Bytes) : symmetricEncrypt box machine nonce m ≠ [] := by
  rw [symmetricEncrypt, List.cons_append]
  exact List.cons_ne_nil _ _

section

variable (hbox : box.Correct)
include hbox

/-- What the machine encrypts, it decrypts. -/
theorem symmetricDecrypt_encrypt (hnonce : nonce.length = nonceBytes) (m : Bytes) :
    symmetricDecrypt box machine (symmetricEncrypt box machine nonce m) = some m := by
  rw [symmetricDecrypt, symmetricEncrypt, openSecretboxPayload_v1 hbox hnonce]

/-- A string that is encrypted here comes back. -/
theorem decryptStr_encryptStr (hb64 : b64.Correct) {s : String} {maxLen : ℕ}
    (hshort : s.length ≤ maxLen) (hplain : isEncrypted b64 (Utf8.bytes s) = false)
    (hnonce : nonce.length = nonceBytes) :
    decryptStrOrOriginal box b64 machine (encryptStrOrOriginal box b64 machine nonce s "00" maxLen) "00"
      = (s, decide (s ≠ ""), false) := by
  rw [encryptStrOrOriginal, hplain, if_neg Bool.false_ne_true, if_neg (Nat.not_lt.mpr hshort), if_pos rfl]
  by_cases hs : s = ""
  · subst hs
    exact decryptStr_empty
  · rw [encrypt_ne_nil (mt Utf8.bytes_eq_nil.mp hs), decide_eq_true hs]
    exact decryptStr_encoded hb64 (symmetricEncrypt_ne_nil _ _) (symmetricDecrypt_encrypt hbox hnonce _)

/-- The same for bytes. -/
theorem decryptVec_encryptVec (hb64 : b64.Correct) {v : Bytes} {maxLen : ℕ}
    (hshort : v.length ≤ maxLen) (hplain : isEncrypted b64 v = false) (hnonce : nonce.length = nonceBytes) :
    decryptVecOrOriginal box b64 machine (encryptVecOrOriginal box b64 machine nonce v "00" maxLen) "00"
      = (v, decide (v ≠ []), false) := by
  rw [encryptVecOrOriginal, hplain, if_neg Bool.false_ne_true, if_neg (Nat.not_lt.mpr hshort), if_pos rfl]
  by_cases hv : v = []
  · subst hv
    exact decryptVec_empty
  · rw [encrypt_ne_nil hv, decide_eq_true hv]
    exact decryptVec_encoded hb64 (symmetricEncrypt_ne_nil _ _) (symmetricDecrypt_encrypt hbox hnonce _)

theorem WrittenAs.ne_nil (h : WrittenAs box m key payload c nonce) : payload ≠ [] := by
  cases h with
  | v1 nonce hnonce => exact List.cons_ne_nil _ _
  | legacy =>
    intro hnil
    have hlen := hbox.seal_length m legacyNonce key legacyNonce_length
    rw [hnil, List.length_nil] at hlen
    omega

end

/-- **Stored secrets come back**: strings and bytes that are encrypted here, and what stands in a payload
of either format, under the key of the machine or the fallback key. -/
theorem stored_secret_round_trip (hbox : box.Correct) (hb64 : b64.Correct) :
    (∀ s maxLen nonce, s.length ≤ maxLen → isEncrypted b64 (Utf8.bytes s) = false →
      nonce.length = nonceBytes →
      decryptStrOrOriginal box b64 machine (encryptStrOrOriginal box b64 machine nonce s "00" maxLen) "00"
        = (s, decide (s ≠ ""), false)) ∧
    (∀ v maxLen nonce, v.length ≤ maxLen → isEncrypted b64 v = false → nonce.length = nonceBytes →
      decryptVecOrOriginal box b64 machine (encryptVecOrOriginal box b64 machine nonce v "00" maxLen) "00"
        = (v, decide (v ≠ []), false)) ∧
    ∀ m key payload c nonce, WrittenAs box m key payload c nonce → key ∈ machine.keys →
      RejectsOthers box machine.keys payload c nonce key → m ≠ [] →
      (∀ s, Utf8.bytes s = m →
        decryptStrOrOriginal box b64 machine ("00" ++ b64.encode payload) "00"
          = (s, decide (s ≠ ""), false)) ∧
      decryptVecOrOriginal box b64 machine (Utf8.bytes "00" ++ Utf8.bytes (b64.encode payload)) "00"
        = (m, decide (m ≠ []), false) := by
  refine ⟨fun s maxLen nonce hshort hplain hnonce => ?_, fun v maxLen nonce hshort hplain hnonce => ?_,
    fun m key payload c nonce hwritten hkey hrejects hm => ?_⟩
  · exact decryptStr_encryptStr hbox hb64 hshort hplain hnonce
  · exact decryptVec_encryptVec hbox hb64 hshort hplain hnonce
  · have hopen := symmetricDecrypt_written hbox hwritten hkey hrejects
    have hne := hwritten.ne_nil hbox
    constructor
    · rintro s rfl
      rw [decide_eq_true (mt Utf8.bytes_eq_nil.mpr hm)]
      exact decryptStr_encoded hb64 hne hopen
    · rw [decide_eq_true hm]
      exact decryptVec_encoded hb64 hne hopen

/-! ## A legacy payload that begins with the marker -/

/-- The padded base64 of `Base64`, as text. -/
def base64 : Base64Coder where
  encode v := String.ofList ((Base64.encode v).map fun b => Char.ofNat b.toNat)
  decode := Base64.decode

theorem base64_correct : base64.Correct where
  decode_of_encode v := by
    rw [base64, Utf8.bytes_ascii (Base64.encode_lt v)]
    exact Base64.decode_of_encode v
  encode_ne v hv := by
    intro hnil
    have hback := Base64.decode_of_encode v
    rw [← Utf8.bytes_ascii (Base64.encode_lt v)] at hback
    change Base64.decode (Utf8.bytes (base64.encode v)) = _ at hback
    rw [hnil] at hback
    exact hv (Option.some.inj hback).symm

/-- A box that begins with the first bytes of its key and its nonce. -/
def tagBox : SecretBox Bytes where
  sealBox m n k := k.takeD 8 0 ++ n.takeD 8 0 ++ m
  openBox c n k := if c.take 16 = k.takeD 8 0 ++ n.takeD 8 0 then some (c.drop 16) else none

theorem tagBox_correct : tagBox.Correct where
  open_seal m n k _ := by
    have hlen : (k.takeD 8 0 ++ n.takeD 8 0).length = 16 := by
      rw [List.length_append, List.takeD_length, List.takeD_length]
    have hopen : (k.takeD 8 0 ++ n.takeD 8 0 ++ m).take 16 = k.takeD 8 0 ++ n.takeD 8 0 :=
      List.take_left' hlen
    exact (if_pos hopen).trans (congrArg some (List.drop_left' hlen))
  seal_length m n k _ := by
    show (k.takeD 8 0 ++ n.takeD 8 0 ++ m).length = _
    rw [List.length_append, List.length_append, List.takeD_length, List.takeD_length, Nat.add_comm]

/-- The key of the payload is the fallback key. -/
def exampleMachine : Machine := ⟨[2], some [1], false⟩

def examplePayload : Bytes :=
  tagBox.sealBox (Utf8.bytes "legacy collision payload 00000") legacyNonce (keyOf [1])

theorem stored_secret_round_trip_legacy :
    examplePayload.head? = some formatV1 ∧ 1 + nonceBytes + macBytes ≤ examplePayload.length ∧
      decryptStrOrOriginal tagBox base64 exampleMachine ("00" ++ base64.encode examplePayload) "00"
        = ("legacy collision payload 00000", true, false) := by
  have hrejects : RejectsOthers tagBox exampleMachine.keys examplePayload examplePayload legacyNonce
      (keyOf [1]) := by
    intro c' nonce' hreading key' hkey' m hopen
    have hkeys : key' = keyOf [2] ∨ key' = keyOf [1] := by simpa [Machine.keys, exampleMachine] using hkey'
    have hmarked : ∀ k ∈ [keyOf [2], keyOf [1]], tagBox.openBox (examplePayload.drop (1 + nonceBytes))
        ((examplePayload.drop 1).take nonceBytes) k = none := by decide
    have hown : tagBox.openBox examplePayload legacyNonce (keyOf [2]) = none := by decide
    cases hreading with
    | v1 => cases (hmarked key' (by simpa using hkeys)).symm.trans hopen
    | legacy =>
      rcases hkeys with rfl | rfl
      · cases hown.symm.trans hopen
      · exact ⟨rfl, rfl, rfl⟩
  obtain ⟨hstr, -⟩ := (stored_secret_round_trip tagBox_correct base64_correct).2.2 _ _ _ _ _ .legacy
    (by decide) hrejects (by decide)
  exact ⟨by decide, by decide, hstr _ rfl⟩

end RustDesk.Config
