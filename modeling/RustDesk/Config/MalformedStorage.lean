import RustDesk.Config.PasswordLifecycle

/-!
# Password storages that the host cannot use

References: `libs/hbb_common/src/config/permanent_password.rs`
(`decrypt_permanent_password_str_or_original`, `local_permanent_password_storage_is_usable_for_auth`) and
`src/server/connection.rs` (`validate_password_plain`, `validate_password_storage`).

A storage of the current version that cannot be opened is none of what the predicates look for: it is no
hash, nothing was decrypted, and it does not begin with `00`. It is left as a plain password of older
versions, so whoever has read it can log in with it.
-/

namespace RustDesk.Config

open Net Connection

variable (box : SecretBox Bytes) (b64 : Base64Coder) (machine : Machine) {version : String} {b : Build}
  {c : PasswordConfig}

/-- Ciphertext that is of no use as a password: the host cannot open it, or it opens to something other
than a hash. -/
inductive Unusable : String → Prop
  | unopened {version text : String} {payload : Bytes} (hversion : version = "00" ∨ version = "01")
    (htext : text ≠ "") (hdecode : b64.decode (Utf8.bytes text) = some payload)
    (hlen : macBytes + 1 ≤ payload.length) (hclosed : symmetricDecrypt box machine payload = none) :
    Unusable (version ++ text)
  | notHash {text : String} {payload m : Bytes} (htext : text ≠ "")
    (hdecode : b64.decode (Utf8.bytes text) = some payload)
    (hopen : symmetricDecrypt box machine payload = some m)
    (hnot : decodeH1FromHashedStorage b64 (Utf8.lossy m) = none) :
    Unusable ("01" ++ text)

/-- Every password is refused by `validate_password_storage` behind
`local_permanent_password_storage_is_usable_for_auth`. -/
def Refuses (b : Build) (c : PasswordConfig) : Prop :=
  ∀ hash password, ((c.localPassword box b64 machine).usable &&
    validatePasswordStorage b hash password (c.localPassword box b64 machine)) = false

variable {box b64 machine} {text : String} {payload : Bytes}

/-! ## What the host makes of them -/

theorem versionLen_lt (hversion : (Utf8.bytes version).length = versionLen)
    (htext : text ≠ "") : versionLen < (Utf8.bytes (version ++ text)).length := by
  have hpos : 0 < (Utf8.bytes text).length := by
    rw [List.length_pos_iff, ne_eq, Utf8.bytes_eq_nil]
    exact htext
  rw [Utf8.bytes_append, List.length_append, hversion]
  omega

theorem drop_version (hversion : (Utf8.bytes version).length = versionLen) :
    (Utf8.bytes (version ++ text)).drop versionLen = Utf8.bytes text := by
  rw [Utf8.bytes_append]
  exact List.drop_left' hversion

theorem length_legacy : (Utf8.bytes "00").length = versionLen := by decide

theorem length_current : (Utf8.bytes "01").length = versionLen := by decide

theorem append_ne_empty (htext : text ≠ "") : version ++ text ≠ "" := by
  intro h
  have hbytes := Utf8.bytes_eq_nil.mpr h
  rw [Utf8.bytes_append] at hbytes
  exact htext (Utf8.bytes_eq_nil.mp (List.append_eq_nil_iff.mp hbytes).2)

/-- A legacy storage that cannot be opened still looks encrypted. -/
theorem decryptStr_unopened (htext : text ≠ "") (hdecode : b64.decode (Utf8.bytes text) = some payload)
    (hlen : macBytes + 1 ≤ payload.length) (hclosed : symmetricDecrypt box machine payload = none) :
    decryptStrOrOriginal box b64 machine ("00" ++ text) "00" = ("00" ++ text, false, false) := by
  have hgo : versionLen < (Utf8.bytes ("00" ++ text)).length ∧
      (Utf8.bytes "00").isPrefixOf (Utf8.bytes ("00" ++ text)) = true :=
    ⟨versionLen_lt length_legacy htext, startsWith_legacy_append text⟩
  have hnone : decrypt box b64 machine (Utf8.bytes text) = none := by
    rw [decrypt, if_pos (mt Utf8.bytes_eq_nil.mp htext), hdecode, Option.bind_some, hclosed]
  have hencrypted : isEncrypted b64 (Utf8.bytes ("00" ++ text)) = true := by
    have hshort : ((Utf8.bytes ("00" ++ text)).length ≤ versionLen
        || !(Utf8.bytes "00").isPrefixOf (Utf8.bytes ("00" ++ text))) ≠ true := by
      rw [hgo.2, decide_eq_false (Nat.not_le.mpr hgo.1)]
      exact Bool.false_ne_true
    rw [isEncrypted, if_neg hshort, drop_version length_legacy, hdecode]
    exact decide_eq_true (by omega)
  rw [decryptStrOrOriginal, if_pos hgo, drop_version length_legacy, hnone, hencrypted, Bool.not_true, Bool.and_false]

/-- A current storage is opened if its payload is. -/
theorem decryptPermanent_current (htext : text ≠ "") (hdecode : b64.decode (Utf8.bytes text) = some payload) :
    decryptPermanentStrOrOriginal box b64 machine ("01" ++ text)
      = match symmetricDecrypt box machine payload with
        | some m => (Utf8.lossy m, true, false)
        | none => ("01" ++ text, false, true) := by
  have hgo : versionLen < (Utf8.bytes ("01" ++ text)).length ∧ startsWith ("01" ++ text) "01" = true :=
    ⟨versionLen_lt length_current htext, startsWith_current_append text⟩
  have hbytes : (Utf8.bytes ("01" ++ text)).isEmpty = false := by
    rw [List.isEmpty_eq_false_iff, ne_eq, Utf8.bytes_eq_nil]
    exact append_ne_empty htext
  rw [decryptPermanentStrOrOriginal, if_pos hgo, drop_version length_current, hdecode, Option.bind_some, hbytes]
  rfl

/-- What does not begin with `00` does not look encrypted. -/
theorem isEncrypted_current (b64 : Base64Coder) (text : String) :
    isEncrypted b64 (Utf8.bytes ("01" ++ text)) = false := by
  have hlegacy : (Utf8.bytes "00").isPrefixOf (Utf8.bytes ("01" ++ text)) = false :=
    startsWith_current_legacy (startsWith_current_append text)
  rw [isEncrypted, hlegacy, Bool.not_false, Bool.or_true, if_pos rfl]

theorem decryptStr_current (htext : text ≠ "") :
    decryptStrOrOriginal box b64 machine ("01" ++ text) "00" = ("01" ++ text, false, true) := by
  have hlegacy : (Utf8.bytes "00").isPrefixOf (Utf8.bytes ("01" ++ text)) = false :=
    startsWith_current_legacy (startsWith_current_append text)
  have hbytes : (Utf8.bytes ("01" ++ text)).isEmpty = false := by
    rw [List.isEmpty_eq_false_iff, ne_eq, Utf8.bytes_eq_nil]
    exact append_ne_empty htext
  rw [decryptStrOrOriginal, hlegacy, if_neg (fun hand => Bool.false_ne_true hand.2), hbytes, isEncrypted_current]
  rfl

/-! ## Refused -/

/-- What is not usable is refused. -/
theorem refuses_of_unusable (h : localStorageIsUsableForAuth box b64 machine c.password c.salt = false) :
    Refuses box b64 machine b c := by
  intro hash password
  rw [show (c.localPassword box b64 machine).usable = false from h, Bool.false_and]

theorem refuses_empty (b : Build) (salt : String) : Refuses box b64 machine b ⟨"", salt⟩ :=
  refuses_of_unusable (if_pos rfl)

/-- What is not valid is cleared when it is stored. -/
theorem refuses_stored {err : String}
    (h : c.validateOrDecrypt box b64 machine = .error err) (r : Random) (stored : PasswordConfig) :
    Refuses box b64 machine b ((c.store box b64 machine r stored).load box b64 machine) := by
  have hstore : c.store box b64 machine r stored = ⟨"", ""⟩ := by
    rw [PasswordConfig.store, PasswordConfig.prepareForStore, h]
    exact if_neg (fun hand => hand.1 rfl)
  have hload : PasswordConfig.load box b64 machine ⟨"", ""⟩ = ⟨"", ""⟩ := by
    rw [PasswordConfig.load, PasswordConfig.validateOrDecrypt, if_pos rfl]
  rw [hstore, hload]
  exact refuses_empty b ""

theorem refuses_loaded {err : String}
    (h : c.validateOrDecrypt box b64 machine = .error err) (hrefuses : Refuses box b64 machine b c) :
    Refuses box b64 machine b (c.load box b64 machine) := by
  rw [PasswordConfig.load, h]
  exact hrefuses

theorem unopened_legacy_unusable (htext : text ≠ "")
    (hdecode : b64.decode (Utf8.bytes text) = some payload) (hlen : macBytes + 1 ≤ payload.length)
    (hclosed : symmetricDecrypt box machine payload = none) (salt : String) :
    localStorageIsUsableForAuth box b64 machine ("00" ++ text) salt = false ∧
    ∃ err, PasswordConfig.validateOrDecrypt box b64 machine ⟨"00" ++ text, salt⟩ = .error err := by
  have hversion := startsWith_legacy_append text
  have hcurrent : startsWith ("00" ++ text) "01" = false := by
    by_contra h
    have hlegacy := startsWith_current_legacy (Bool.not_eq_false _ ▸ h)
    cases hlegacy.symm.trans hversion
  have hdecrypt := decryptStr_unopened htext hdecode hlen hclosed
  have hne : "00" ++ text ≠ "" := append_ne_empty htext
  constructor
  · have hnone : decodeH1FromStorage box b64 machine ("00" ++ text) = none := by
      rw [decodeH1FromStorage, hcurrent, if_neg Bool.false_ne_true]
    rw [localStorageIsUsableForAuth, if_neg hne, hnone, hcurrent, hdecrypt, hversion]
    rfl
  · refine ⟨"Invalid permanent password encrypted hash storage", ?_⟩
    rw [PasswordConfig.validateOrDecrypt, if_neg hne, if_pos hversion, hdecrypt]
    rfl

theorem notHash_unusable {m : Bytes} (htext : text ≠ "") (hdecode : b64.decode (Utf8.bytes text) = some payload)
    (hopen : symmetricDecrypt box machine payload = some m)
    (hnot : decodeH1FromHashedStorage b64 (Utf8.lossy m) = none) (salt : String) :
    localStorageIsUsableForAuth box b64 machine ("01" ++ text) salt = false ∧
    ∃ err, PasswordConfig.validateOrDecrypt box b64 machine ⟨"01" ++ text, salt⟩ = .error err := by
  have hversion := startsWith_current_append text
  have hdecrypt : decryptPermanentStrOrOriginal box b64 machine ("01" ++ text)
      = (Utf8.lossy m, true, false) := by
    rw [decryptPermanent_current htext hdecode, hopen]
  have hne : "01" ++ text ≠ "" := append_ne_empty htext
  constructor
  · have hnone : decodeH1FromStorage box b64 machine ("01" ++ text) = none := by
      rw [decodeH1FromStorage, if_pos hversion, hdecrypt]
      exact hnot
    rw [localStorageIsUsableForAuth, if_neg hne, hnone, hversion, hdecrypt]
    rfl
  · rw [PasswordConfig.validateOrDecrypt, if_neg hne,
      if_neg (Bool.eq_false_iff.mp (startsWith_current_legacy hversion)), hdecrypt]
    dsimp only
    split
    · exact ⟨_, rfl⟩
    · rw [hnot]
      exact ⟨_, rfl⟩

/-! ## Accepted -/

section

variable (htext : text ≠ "") (hdecode : b64.decode (Utf8.bytes text) = some payload)
  (hclosed : symmetricDecrypt box machine payload = none)
include htext hdecode hclosed

/-- A current storage that cannot be opened is taken for a plain password. -/
theorem unopened_current (salt : String) :
    decryptPermanentStrOrOriginal box b64 machine ("01" ++ text) = ("01" ++ text, false, true) ∧
    decodeH1FromStorage box b64 machine ("01" ++ text) = none ∧
    localStorageIsUsableForAuth box b64 machine ("01" ++ text) salt = true := by
  have hversion := startsWith_current_append text
  have hdecrypt : decryptPermanentStrOrOriginal box b64 machine ("01" ++ text)
      = ("01" ++ text, false, true) := by
    rw [decryptPermanent_current htext hdecode, hclosed]
  have hne : "01" ++ text ≠ "" := append_ne_empty htext
  have hnone : decodeH1FromStorage box b64 machine ("01" ++ text) = none := by
    rw [decodeH1FromStorage, if_pos hversion, hdecrypt]
  refine ⟨hdecrypt, hnone, ?_⟩
  rw [localStorageIsUsableForAuth, if_neg hne, hnone, hdecrypt, decryptStr_current htext,
    startsWith_current_legacy hversion, Bool.and_false]
  rfl

/-- So the storage opens the host like any other password. -/
theorem unopened_current_accepted (b : Build) (hash : Hash) (salt : String) :
    let c : PasswordConfig := ⟨"01" ++ text, salt⟩
    ((c.localPassword box b64 machine).usable &&
      validatePasswordStorage b hash (clientPassword b.sha256 hash ("01" ++ text))
        (c.localPassword box b64 machine)) = true := by
  obtain ⟨-, hnone, husable⟩ := unopened_current htext hdecode hclosed salt
  have hne : "01" ++ text ≠ "" := append_ne_empty htext
  intro c
  have hstored : c.localPassword box b64 machine = ⟨"01" ++ text, salt, true, none⟩ :=
    congrArg₂ (PasswordStorage.mk ("01" ++ text) salt) husable hnone
  rw [hstored, Bool.true_and, validatePasswordStorage, if_neg hne, validatePasswordPlain, if_neg hne,
    verifyH1, utf8Bytes_eq, utf8Bytes_eq, utf8Bytes_eq]
  exact decide_eq_true rfl

end

/-- It is stored encrypted like a plain password, so that the next start reads it as it was. -/
theorem unopened_current_reloaded (hbox : box.Correct) (hb64 : b64.Correct) (htext : text ≠ "")
    (hdecode : b64.decode (Utf8.bytes text) = some payload)
    (hclosed : symmetricDecrypt box machine payload = none)
    (hshort : ("01" ++ text).length ≤ encryptMaxLen) (r : Random) (salt salt' : String) :
    (PasswordConfig.store box b64 machine r ⟨"01" ++ text, salt⟩ ⟨"", salt'⟩).load box b64 machine
      = ⟨"01" ++ text, salt⟩ := by
  obtain ⟨hdecrypt, hnone, -⟩ := unopened_current htext hdecode hclosed salt
  have hne : "01" ++ text ≠ "" := append_ne_empty htext
  have hvalid : PasswordConfig.validateOrDecrypt box b64 machine ⟨"01" ++ text, salt⟩
      = .ok ⟨"01" ++ text, salt⟩ := by
    rw [PasswordConfig.validateOrDecrypt, if_neg hne,
      if_neg (Bool.eq_false_iff.mp (startsWith_current_legacy (startsWith_current_append text))), hdecrypt]
  have hkept : keepEncryptedStorageIfPlaintextUnchanged box b64 machine r.plainNonce ("01" ++ text) ""
      = "00" ++ b64.encode (symmetricEncrypt box machine r.plainNonce (Utf8.bytes ("01" ++ text))) := by
    rw [keepEncryptedStorageIfPlaintextUnchanged, decryptStr_empty]
    dsimp only
    rw [if_neg fun hand => Bool.false_ne_true hand.1, encryptStrOrOriginal, isEncrypted_current,
      if_neg Bool.false_ne_true, if_neg (Nat.not_lt.mpr hshort), if_pos rfl,
      encrypt_ne_nil (mt Utf8.bytes_eq_nil.mp hne)]
  have hback : decryptStrOrOriginal box b64 machine
      ("00" ++ b64.encode (symmetricEncrypt box machine r.plainNonce (Utf8.bytes ("01" ++ text)))) "00"
      = ("01" ++ text, true, false) :=
    decryptStr_encoded hb64 (symmetricEncrypt_ne_nil _ _) (symmetricDecrypt_encrypt hbox r.plainNonce_length _)
  rw [PasswordConfig.store, PasswordConfig.prepareForStore, hvalid]
  rw [if_pos ⟨hne, hnone⟩, hkept, PasswordConfig.load, PasswordConfig.validateOrDecrypt,
    if_neg (append_ne_empty (hb64.encode_ne _ (symmetricEncrypt_ne_nil _ _))),
    if_pos (startsWith_legacy_append _), hback]

/-- **Malformed storages**: what the host cannot use refuses every password, as it is, loaded, and stored
and loaded again, except for current storages that do not open. -/
theorem unusable_refuses_iff (b : Build) {storage : String} (salt : String)
    (h : Unusable box b64 machine storage) :
    (Refuses box b64 machine b ⟨storage, salt⟩ ∧
      Refuses box b64 machine b (PasswordConfig.load box b64 machine ⟨storage, salt⟩) ∧
      ∀ r stored, Refuses box b64 machine b
        ((PasswordConfig.store box b64 machine r ⟨storage, salt⟩ stored).load box b64 machine))
      ↔ ¬ (startsWith storage "01" = true ∧
        (decryptPermanentStrOrOriginal box b64 machine storage).2.1 = false) := by
  have hinvalid : localStorageIsUsableForAuth box b64 machine storage salt = false ∧
      (∃ err, PasswordConfig.validateOrDecrypt box b64 machine ⟨storage, salt⟩ = .error err) →
      Refuses box b64 machine b ⟨storage, salt⟩ ∧
      Refuses box b64 machine b (PasswordConfig.load box b64 machine ⟨storage, salt⟩) ∧
      ∀ r stored, Refuses box b64 machine b
        ((PasswordConfig.store box b64 machine r ⟨storage, salt⟩ stored).load box b64 machine) := by
    rintro ⟨hunusable, err, herr⟩
    have hrefuses : Refuses box b64 machine b ⟨storage, salt⟩ := refuses_of_unusable hunusable
    exact ⟨hrefuses, refuses_loaded herr hrefuses, refuses_stored herr⟩
  cases h with
  | notHash htext hdecode hopen hnot =>
    refine iff_of_true (hinvalid (notHash_unusable htext hdecode hopen hnot salt)) ?_
    rintro ⟨-, hclosed⟩
    rw [decryptPermanent_current htext hdecode, hopen] at hclosed
    cases hclosed
  | unopened hversion htext hdecode hlen hclosed =>
    rcases hversion with rfl | rfl
    · refine iff_of_true (hinvalid (unopened_legacy_unusable htext hdecode hlen hclosed salt)) ?_
      rintro ⟨hcurrent, -⟩
      cases (startsWith_current_legacy hcurrent).symm.trans (startsWith_legacy_append _)
    · refine iff_of_false ?_ ?_
      · rintro ⟨hrefuses, -⟩
        have haccepted := unopened_current_accepted htext hdecode hclosed b ⟨salt, ""⟩ salt
        cases (hrefuses ⟨salt, ""⟩ _).symm.trans haccepted
      · rw [not_not]
        have hdecrypt := (unopened_current htext hdecode hclosed salt).1
        exact ⟨startsWith_current_append _, congrArg (·.2.1) hdecrypt⟩

/-! ## A configuration that comes from another machine -/

/-- What another machine writes does not open here, so it is of no use. -/
theorem foreign_hash_unusable {writer : Machine} {nonce h1 : Bytes} {storage : String} (hb64 : b64.Correct)
    (hstorage : encodeEncryptedStorageFromH1 box b64 writer nonce h1 = some storage)
    (hlen : macBytes + 1 ≤ (symmetricEncrypt box writer nonce (Utf8.bytes (encodeStorageFromH1 b64 h1))).length)
    (hclosed : symmetricDecrypt box machine
      (symmetricEncrypt box writer nonce (Utf8.bytes (encodeStorageFromH1 b64 h1))) = none) :
    Unusable box b64 machine storage := by
  unfold encodeEncryptedStorageFromH1 encryptPermanentPasswordStorage at hstorage
  split at hstorage
  · cases hstorage
  · cases hstorage
    exact .unopened (.inr rfl) (hb64.encode_ne _ (symmetricEncrypt_ne_nil _ _))
      (hb64.decode_of_encode _) hlen hclosed

theorem foreign_secret_unusable {writer : Machine} {nonce : Bytes} {s : String} {maxLen : ℕ}
    (hb64 : b64.Correct) (hs : s ≠ "") (hplain : isEncrypted b64 (Utf8.bytes s) = false)
    (hshort : s.length ≤ maxLen)
    (hlen : macBytes + 1 ≤ (symmetricEncrypt box writer nonce (Utf8.bytes s)).length)
    (hclosed : symmetricDecrypt box machine (symmetricEncrypt box writer nonce (Utf8.bytes s)) = none) :
    Unusable box b64 machine (encryptStrOrOriginal box b64 writer nonce s "00" maxLen) := by
  rw [encryptStrOrOriginal, hplain, if_neg Bool.false_ne_true, if_neg (Nat.not_lt.mpr hshort),
    if_pos rfl, encrypt_ne_nil (mt Utf8.bytes_eq_nil.mp hs)]
  exact .unopened (.inl rfl) (hb64.encode_ne _ (symmetricEncrypt_ne_nil _ _)) (hb64.decode_of_encode _) hlen hclosed

def otherMachine : Machine := ⟨[9], none, false⟩

/-- The storage of a hash, written on the other machine. -/
def otherPayload : Bytes :=
  symmetricEncrypt tagBox otherMachine sampleDraw.nonce
    (Utf8.bytes (encodeStorageFromH1 base64 (List.replicate h1Len 5)))

theorem unusable_refuses_iff_legacy :
    Refuses tagBox base64 exampleMachine (linuxBuild sampleDigest)
      ⟨"00" ++ base64.encode otherPayload, "salt"⟩ := by
  have hunusable : Unusable tagBox base64 exampleMachine ("00" ++ base64.encode otherPayload) :=
    .unopened (.inl rfl) (base64_correct.encode_ne _ (symmetricEncrypt_ne_nil _ _))
      (base64_correct.decode_of_encode _) (by decide) (by decide)
  refine ((unusable_refuses_iff (linuxBuild sampleDigest) "salt" hunusable).mpr ?_).1
  rintro ⟨hcurrent, -⟩
  cases (startsWith_current_legacy hcurrent).symm.trans (startsWith_legacy_append _)

/-- A hash of the other machine opens the host with its storage as the password, also after it is stored
and loaded. -/
theorem other_hash_opens :
    encodeEncryptedStorageFromH1 tagBox base64 otherMachine sampleDraw.nonce (List.replicate h1Len 5)
        = some ("01" ++ base64.encode otherPayload) ∧
      Unusable tagBox base64 exampleMachine ("01" ++ base64.encode otherPayload) ∧
      ¬ Refuses tagBox base64 exampleMachine (linuxBuild sampleDigest)
        ⟨"01" ++ base64.encode otherPayload, "salt"⟩ ∧
      ¬ Refuses tagBox base64 exampleMachine (linuxBuild sampleDigest)
        ((PasswordConfig.store tagBox base64 exampleMachine sampleDraw
          ⟨"01" ++ base64.encode otherPayload, "salt"⟩ ⟨"", ""⟩).load tagBox base64 exampleMachine) := by
  have hclosed : symmetricDecrypt tagBox exampleMachine otherPayload = none := by decide
  have htext : base64.encode otherPayload ≠ "" :=
    base64_correct.encode_ne _ (symmetricEncrypt_ne_nil _ _)
  have hdecode : base64.decode (Utf8.bytes (base64.encode otherPayload)) = some otherPayload :=
    base64_correct.decode_of_encode _
  have hopens : ¬ Refuses tagBox base64 exampleMachine (linuxBuild sampleDigest)
      ⟨"01" ++ base64.encode otherPayload, "salt"⟩ := by
    intro hrefuses
    have haccepted := unopened_current_accepted htext hdecode hclosed (linuxBuild sampleDigest)
      ⟨"salt", ""⟩ "salt"
    cases (hrefuses ⟨"salt", ""⟩ _).symm.trans haccepted
  have hshort : ("01" ++ base64.encode otherPayload).length ≤ encryptMaxLen := by
    have hencode : (base64.encode otherPayload).length = (otherPayload.length + 2) / 3 * 4 := by
      rw [← Base64.encode_length, ← List.length_map (fun b => Char.ofNat b.toNat)]
      exact String.length_ofList
    rw [String.length_append, hencode]
    decide
  have hback := unopened_current_reloaded tagBox_correct base64_correct htext hdecode hclosed hshort
    sampleDraw "salt" ""
  rw [hback]
  exact ⟨by decide +kernel, .unopened (.inr rfl) htext hdecode (by decide) hclosed, hopens, hopens⟩

end RustDesk.Config
