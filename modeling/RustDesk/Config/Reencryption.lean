import RustDesk.Config.PasswordSecurity

/-!
# Storing secrets again

References: `libs/hbb_common/src/password_security.rs` (`is_encrypted`, `encrypt_str_or_original`,
`decrypt_str_or_original`).

A value that has to be stored again is one that does not look encrypted. What `encrypt_str_or_original`
then writes looks encrypted and decrypts to the same text, so that the next load leaves it alone. A value of
another key looks encrypted too, and is neither stored again nor encrypted a second time.
-/

namespace RustDesk.Config

open Net

variable {box : SecretBox Bytes} {b64 : Base64Coder} {machine : Machine} {v : String}

/-- What `open` opens is longer than the text by the tag. -/
def OpensSealed (box : SecretBox Bytes) : Prop :=
  ∀ c nonce key m, box.openBox c nonce key = some m → c.length = m.length + macBytes

/-- An encrypted value: it looks so, it decrypts here, or it holds a payload of either format under some
key. -/
inductive Encrypted (box : SecretBox Bytes) (b64 : Base64Coder) (machine : Machine) (v : String) : Prop
  | looks (h : isEncrypted b64 (Utf8.bytes v) = true)
  | decrypts (h : (decryptStrOrOriginal box b64 machine v "00").2.1 = true)
  | holds (m key payload c nonce : Bytes) (hwritten : WrittenAs box m key payload c nonce)
      (h : v = "00" ++ b64.encode payload)

/-! ## What looks encrypted -/

theorem isEncrypted_iff {v : Bytes} :
    isEncrypted b64 v = true ↔ versionLen < v.length ∧ (Utf8.bytes "00").isPrefixOf v = true ∧
      ∃ decoded, b64.decode (v.drop versionLen) = some decoded ∧ macBytes ≤ decoded.length := by
  unfold isEncrypted
  by_cases hlen : v.length ≤ versionLen
  · simp [hlen]
  · by_cases hprefix : (Utf8.bytes "00").isPrefixOf v = true
    · have hshort : ¬ (v.length ≤ versionLen || !(Utf8.bytes "00").isPrefixOf v) = true := by
        simp [hlen, hprefix]
      rw [if_neg hshort]
      cases hdecode : b64.decode (v.drop versionLen) with
      | none => simp
      | some decoded => simp [not_le.mp hlen, hprefix]
    · simp [hlen, hprefix]

/-- A stored payload looks encrypted if it is as long as a tag. -/
theorem isEncrypted_stored (hb64 : b64.Correct) {payload : Bytes} (hlen : macBytes ≤ payload.length) :
    isEncrypted b64 (Utf8.bytes ("00" ++ b64.encode payload)) = true := by
  have hne : payload ≠ [] := by
    rintro rfl
    rw [macBytes, List.length_nil] at hlen
    omega
  have hbytes : Utf8.bytes ("00" ++ b64.encode payload) = 48 :: 48 :: Utf8.bytes (b64.encode payload) := by
    rw [Utf8.bytes_append, bytes_version]
    rfl
  have hpos := encoded_length hb64 hne
  rw [hbytes, isEncrypted_iff]
  refine ⟨?_, ?_, payload, hb64.decode_of_encode payload, hlen⟩
  · simp only [List.length_cons, versionLen]
    omega
  · rw [bytes_version]
    rfl

theorem WrittenAs.macBytes_le (hbox : box.Correct) {m key payload c nonce : Bytes}
    (h : WrittenAs box m key payload c nonce) : macBytes ≤ payload.length := by
  cases h with
  | v1 nonce hnonce =>
    have hlen := hbox.seal_length m nonce key hnonce
    simp only [List.cons_append, List.length_cons, List.length_append, hlen, macBytes]
    omega
  | legacy =>
    have hlen := hbox.seal_length m legacyNonce key legacyNonce_length
    simp only [hlen, macBytes]
    omega

/-- What is opened is as long as a tag. -/
theorem macBytes_le_of_decrypt (hopens : OpensSealed box) {data m : Bytes}
    (h : symmetricDecrypt box machine data = some m) : macBytes ≤ data.length := by
  have hpayload : ∀ key, openSecretboxPayload box data key = some m → macBytes ≤ data.length := by
    intro key hopen
    obtain ⟨c, nonce, hreading, hbox⟩ := openSecretboxPayload_some hopen
    have hlen := hopens c nonce key m hbox
    cases hreading with
    | v1 =>
      rw [List.length_drop] at hlen
      omega
    | legacy => omega
  unfold symmetricDecrypt at h
  cases hown : openSecretboxPayload box data (keyOf machine.uuid) with
  | some decrypted =>
    rw [hown] at h
    exact hpayload _ (hown.trans h)
  | none =>
    rw [hown] at h
    cases hmobile : machine.mobile with
    | true => simp [hmobile] at h
    | false =>
      cases hpk : machine.existingPk with
      | none => simp [hmobile, hpk] at h
      | some pk =>
        by_cases hne : pk = machine.uuid
        · simp [hmobile, hpk, hne] at h
        · exact hpayload (keyOf pk) (by simpa [hmobile, hpk, hne] using h)

/-- A load decrypts the payload of the value, or gives the value back. -/
theorem decryptStr_cases (box : SecretBox Bytes) (b64 : Base64Coder) (machine : Machine) (v : String) :
    (∃ data m, versionLen < (Utf8.bytes v).length ∧ (Utf8.bytes "00").isPrefixOf (Utf8.bytes v) = true ∧
        b64.decode ((Utf8.bytes v).drop versionLen) = some data ∧
        symmetricDecrypt box machine data = some m ∧
        decryptStrOrOriginal box b64 machine v "00" = (Utf8.lossy m, true, false)) ∨
      decryptStrOrOriginal box b64 machine v "00" =
        (v, false, !(Utf8.bytes v).isEmpty && !isEncrypted b64 (Utf8.bytes v)) := by
  unfold decryptStrOrOriginal
  dsimp only
  by_cases hversion : versionLen < (Utf8.bytes v).length ∧ (Utf8.bytes "00").isPrefixOf (Utf8.bytes v) = true
  · rw [if_pos hversion]
    cases hdecrypt : decrypt box b64 machine ((Utf8.bytes v).drop versionLen) with
    | none => exact .inr rfl
    | some m =>
      left
      unfold decrypt at hdecrypt
      split at hdecrypt
      · obtain ⟨data, hdata, hm⟩ := Option.bind_eq_some_iff.mp hdecrypt
        exact ⟨data, m, hversion.1, hversion.2, hdata, hm, rfl⟩
      · cases hdecrypt
  · rw [if_neg hversion]
    exact .inr rfl

/-- Every encrypted value looks so. -/
theorem Encrypted.isEncrypted (hbox : box.Correct) (hopens : OpensSealed box) (hb64 : b64.Correct)
    (h : Encrypted box b64 machine v) : Config.isEncrypted b64 (Utf8.bytes v) = true := by
  cases h with
  | looks h => exact h
  | holds m key payload c nonce hwritten h =>
    rw [h]
    exact isEncrypted_stored hb64 (hwritten.macBytes_le hbox)
  | decrypts h =>
    rcases decryptStr_cases box b64 machine v with ⟨data, m, hlen, hprefix, hdata, hm, -⟩ | hfailed
    · exact isEncrypted_iff.mpr ⟨hlen, hprefix, data, hdata, macBytes_le_of_decrypt hopens hm⟩
    · rw [hfailed] at h
      cases h

/-! ## Storing again -/

theorem encryptStr_of_isEncrypted (h : isEncrypted b64 (Utf8.bytes v) = true)
    (nonce : Bytes) (version : String) (maxLen : ℕ) :
    encryptStrOrOriginal box b64 machine nonce v version maxLen = v := by
  rw [encryptStrOrOriginal, if_pos h]

/-- What `encrypt_str_or_original` gives is left alone by it. -/
theorem encryptStr_idempotent (hbox : box.Correct) (hb64 : b64.Correct) {nonce : Bytes}
    (hnonce : nonce.length = nonceBytes) (s : String) (nonce' : Bytes) (maxLen maxLen' : ℕ) :
    encryptStrOrOriginal box b64 machine nonce'
        (encryptStrOrOriginal box b64 machine nonce s "00" maxLen) "00" maxLen' =
      encryptStrOrOriginal box b64 machine nonce s "00" maxLen := by
  have hempty : encryptStrOrOriginal box b64 machine nonce' "" "00" maxLen' = "" := rfl
  by_cases hs : isEncrypted b64 (Utf8.bytes s) = true
  · rw [encryptStr_of_isEncrypted hs, encryptStr_of_isEncrypted hs]
  · by_cases hlong : maxLen < s.length
    · have hnew : encryptStrOrOriginal box b64 machine nonce s "00" maxLen = "" := by
        rw [encryptStrOrOriginal, if_neg hs, if_pos hlong]
      rw [hnew, hempty]
    · by_cases hnil : s = ""
      · subst hnil
        have hnew : encryptStrOrOriginal box b64 machine nonce "" "00" maxLen = "" := rfl
        rw [hnew, hempty]
      · have hnew : encryptStrOrOriginal box b64 machine nonce s "00" maxLen =
            "00" ++ b64.encode (symmetricEncrypt box machine nonce (Utf8.bytes s)) := by
          rw [encryptStrOrOriginal, if_neg hs, if_neg hlong, if_pos rfl,
            encrypt_ne_nil (mt Utf8.bytes_eq_nil.mp hnil)]
        have hwritten : WrittenAs box (Utf8.bytes s) (keyOf machine.uuid)
            (symmetricEncrypt box machine nonce (Utf8.bytes s)) _ nonce := .v1 nonce hnonce
        rw [hnew]
        exact encryptStr_of_isEncrypted (isEncrypted_stored hb64 (hwritten.macBytes_le hbox)) _ _ _

/-- A value that is not decrypted is given back, to be stored again if it does not look encrypted. -/
theorem decryptStr_failed (h : (decryptStrOrOriginal box b64 machine v "00").2.1 = false) :
    decryptStrOrOriginal box b64 machine v "00" =
      (v, false, !(Utf8.bytes v).isEmpty && !isEncrypted b64 (Utf8.bytes v)) := by
  rcases decryptStr_cases box b64 machine v with ⟨data, m, -, -, -, -, hdecrypted⟩ | hfailed
  · rw [hdecrypted] at h
    cases h
  · exact hfailed

/-- What is to be stored again was not decrypted. -/
theorem ok_of_store (h : (decryptStrOrOriginal box b64 machine v "00").2.2 = true) :
    (decryptStrOrOriginal box b64 machine v "00").2.1 = false := by
  rcases decryptStr_cases box b64 machine v with ⟨data, m, -, -, -, -, hdecrypted⟩ | hfailed
  · rw [hdecrypted] at h
    cases h
  · rw [hfailed]

/-- An encrypted value is never encrypted again. A value that is to be stored again is stored once: the
next load gives the same text and leaves it. A value of another key is left as it is. -/
theorem reencryption_converges (hbox : box.Correct) (hopens : OpensSealed box) (hb64 : b64.Correct)
    (machine : Machine) (v : String) (maxLen : ℕ) (nonce : Bytes) (hnonce : nonce.length = nonceBytes) :
    (Encrypted box b64 machine v → ∀ version,
      encryptStrOrOriginal box b64 machine nonce v version maxLen = v) ∧
    (∀ nonce' maxLen', encryptStrOrOriginal box b64 machine nonce'
        (encryptStrOrOriginal box b64 machine nonce v "00" maxLen) "00" maxLen' =
      encryptStrOrOriginal box b64 machine nonce v "00" maxLen) ∧
    ∀ p ok store, decryptStrOrOriginal box b64 machine v "00" = (p, ok, store) →
      (store = true → p.length ≤ maxLen →
        decryptStrOrOriginal box b64 machine (encryptStrOrOriginal box b64 machine nonce p "00" maxLen) "00"
          = (p, true, false)) ∧
      (ok = false → Encrypted box b64 machine v →
        store = false ∧ ∀ version, encryptStrOrOriginal box b64 machine nonce p version maxLen = v) := by
  refine ⟨fun h version => ?_, fun nonce' maxLen' => ?_, fun p ok store hload => ⟨fun hstore hfits => ?_,
    fun hok h => ?_⟩⟩
  · exact encryptStr_of_isEncrypted (h.isEncrypted hbox hopens hb64) nonce version maxLen
  · exact encryptStr_idempotent hbox hb64 hnonce v nonce' maxLen maxLen'
  · have hfailed := decryptStr_failed (ok_of_store (by rw [hload]; exact hstore))
    rw [hload] at hfailed
    obtain ⟨rfl, rfl, rfl⟩ : p = v ∧ ok = false ∧
        store = (!(Utf8.bytes v).isEmpty && !isEncrypted b64 (Utf8.bytes v)) := by simpa using hfailed
    obtain ⟨hne, hnot⟩ := Bool.and_eq_true_iff.mp hstore
    have hround := (@stored_secret_round_trip box b64 machine hbox hb64).1 p maxLen nonce hfits
      (by simpa using hnot) hnonce
    rw [hround, decide_eq_true]
    rintro rfl
    exact absurd hne (by decide)
  · have hlooks := h.isEncrypted hbox hopens hb64
    have hfailed := decryptStr_failed (by rw [hload]; exact hok)
    rw [hload, hlooks] at hfailed
    obtain ⟨rfl, -, rfl⟩ : p = v ∧ ok = false ∧ store = false := by simpa using hfailed
    exact ⟨rfl, fun version => encryptStr_of_isEncrypted hlooks nonce version maxLen⟩

theorem tagBox_opensSealed : OpensSealed tagBox := by
  intro c nonce key m h
  change (if c.take 16 = key.takeD 8 0 ++ nonce.takeD 8 0 then some (c.drop 16) else none) = some m at h
  by_cases htag : c.take 16 = key.takeD 8 0 ++ nonce.takeD 8 0
  · rw [if_pos htag] at h
    have hlen := congrArg List.length htag
    rw [List.length_take, List.length_append, List.takeD_length, List.takeD_length] at hlen
    rw [← Option.some.inj h, List.length_drop, macBytes]
    omega
  · rw [if_neg htag] at h
    cases h

/-- A value that was stored on another machine. -/
def foreignValue : String :=
  "00" ++ base64.encode (symmetricEncrypt tagBox ⟨[9], none, false⟩ legacyNonce (Utf8.bytes "secret"))

/-- A text behind the version is encrypted once, and the value of the other machine is left. -/
theorem reencryption_converges_plain :
    decryptStrOrOriginal tagBox base64 exampleMachine
        (encryptStrOrOriginal tagBox base64 exampleMachine legacyNonce "00Hello World" "00" 128) "00" =
      ("00Hello World", true, false) ∧
    encryptStrOrOriginal tagBox base64 exampleMachine legacyNonce foreignValue "00" 128 = foreignValue := by
  have hload : decryptStrOrOriginal tagBox base64 exampleMachine "00Hello World" "00" =
      ("00Hello World", false, true) := by decide +kernel
  have hforeign : Encrypted tagBox base64 exampleMachine foreignValue :=
    .holds _ _ _ _ _ (.v1 legacyNonce legacyNonce_length) rfl
  constructor
  · exact ((reencryption_converges tagBox_correct tagBox_opensSealed base64_correct exampleMachine
      "00Hello World" 128 legacyNonce legacyNonce_length).2.2 _ _ _ hload).1 rfl (by decide)
  · exact (reencryption_converges tagBox_correct tagBox_opensSealed base64_correct exampleMachine
      foreignValue 128 legacyNonce legacyNonce_length).1 hforeign "00"

end RustDesk.Config
