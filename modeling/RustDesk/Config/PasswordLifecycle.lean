import RustDesk.Config.PermanentPassword
import RustDesk.Connection.OnMessage

/-!
# One permanent password at a time

References: `libs/hbb_common/src/config.rs` (`set_permanent_password` to `get_salt`), `src/client.rs`
(`handle_hash`, `handle_login_from_ui`) and `src/server/connection.rs` (`validate_password`).

The storage and the salt are one secret in two fields. In every state that the operations lead to they
belong to the password of the last update, or there is none; so the hash that a client makes of a password
with the salt of the host opens the host if it is that password.

The digest is a parameter. It is asked to tell two passwords apart only where they are hashed.
-/

namespace RustDesk.Config

open Net Connection

variable (box : SecretBox Bytes) (b64 : Base64Coder) {r : Random} {presetSalt : String}

/-! ## A login with a password -/

/-- What a client sends for a password. -/
def clientPassword (sha256 : Bytes → Bytes) (hash : Hash) (password : String) : Bytes :=
  sha256 (computeH1 sha256 password hash.salt ++ Utf8.bytes hash.challenge)

/-- The local password as `validate_password` finds it. -/
def PasswordConfig.localPassword (machine : Machine) (c : PasswordConfig) : PasswordStorage where
  storage := c.password
  salt := c.salt
  usable := localStorageIsUsableForAuth box b64 machine c.password c.salt
  h1 := decodeH1FromStorage box b64 machine c.password

/-- The preset password as it finds it. -/
def Preset.presetPassword (preset : Preset) : PasswordStorage where
  storage := preset.storage
  salt := preset.salt
  usable := presetStorageIsUsableForAuth b64 preset.storage preset.salt
  h1 := decodePresetH1FromStorage b64 preset.storage

/-- The permanent-password branch of `validate_password` accepts the password of a login request. -/
def Accepts (b : Build) (env : Env) (machine : Machine) (preset : Preset) (s : State) (hash : Hash)
    (password : Bytes) : Prop :=
  isPermanentPassword b hash password { env with
    localPassword := s.memory.localPassword box b64 machine
    presetPassword := preset.presetPassword b64 } = true

/-- The digest tells the hashes of two passwords apart, and the hashes with the challenge. -/
structure TellsApart (sha256 : Bytes → Bytes) (hash : Hash) (p q : String) : Prop where
  salted : computeH1 sha256 p hash.salt = computeH1 sha256 q hash.salt →
    Utf8.bytes p ++ Utf8.bytes hash.salt = Utf8.bytes q ++ Utf8.bytes hash.salt
  challenged : clientPassword sha256 hash p = clientPassword sha256 hash q →
    computeH1 sha256 p hash.salt ++ Utf8.bytes hash.challenge
      = computeH1 sha256 q hash.salt ++ Utf8.bytes hash.challenge

/-! ## Runs -/

/-- Whose password it is after an update to `password`. -/
def ownerOf (password : String) : Option String := if password = "" then none else some password

/-- Whose it is after a synchronization. -/
def ownerAfterSync (answer : Except String Bool) (otherOwner owner : Option String) : Option String :=
  match answer with
  | .ok true => otherOwner
  | _ => owner

/-- What the operations lead to on a host without a preset password, and the password of the last update
that was answered `true`. The machine keeps its `uuid`, its key pair may change. A synchronization brings
the storage and the salt of another configuration of this kind. -/
inductive Reaches (sha256 : Bytes → Bytes) (uuid : Bytes) (presetSalt : String) :
    State → Option String → Prop
  | new : Reaches sha256 uuid presetSalt .new none
  | setPermanentPassword {s owner} (h : Reaches sha256 uuid presetSalt s owner) (machine : Machine)
    (huuid : machine.uuid = uuid) (disabled : Bool) (r : Random) (password : String) {answer s'}
    (hset : s.setPermanentPassword box b64 machine sha256 ⟨"", presetSalt⟩ disabled r password
      = (answer, s')) :
    Reaches sha256 uuid presetSalt s' (if answer then ownerOf password else owner)
  | setStorageForSync {s owner} (h : Reaches sha256 uuid presetSalt s owner) (machine : Machine)
    (huuid : machine.uuid = uuid) (r : Random) {other otherOwner}
    (hother : Reaches sha256 uuid presetSalt other otherOwner) {answer s'}
    (hsync : s.setStorageForSync box b64 machine r other.memory.password other.memory.salt
      = (answer, s')) :
    Reaches sha256 uuid presetSalt s' (ownerAfterSync answer otherOwner owner)
  | setSalt {s owner} (h : Reaches sha256 uuid presetSalt s owner) (machine : Machine)
    (huuid : machine.uuid = uuid) (r : Random) (salt : String) :
    Reaches sha256 uuid presetSalt (s.setSalt box b64 machine r salt) owner
  | getSalt {s owner} (h : Reaches sha256 uuid presetSalt s owner) (machine : Machine)
    (huuid : machine.uuid = uuid) (r : Random) :
    Reaches sha256 uuid presetSalt (s.getSalt box b64 machine r).2 owner
  | getEffectiveSalt {s owner} (h : Reaches sha256 uuid presetSalt s owner) (machine : Machine)
    (huuid : machine.uuid = uuid) (r : Random) :
    Reaches sha256 uuid presetSalt (s.getEffectiveSalt box b64 machine ⟨"", presetSalt⟩ r).2 owner
  | store {s owner} (h : Reaches sha256 uuid presetSalt s owner) (machine : Machine)
    (huuid : machine.uuid = uuid) (r : Random) :
    Reaches sha256 uuid presetSalt (s.store box b64 machine r) owner
  | load {s owner} (h : Reaches sha256 uuid presetSalt s owner) (machine : Machine)
    (huuid : machine.uuid = uuid) (r : Random) (newId : Bool) :
    Reaches sha256 uuid presetSalt (s.load box b64 machine r newId) owner

/-! ## The invariant -/

/-- The configuration keeps the password of `owner`, under a salt. -/
def PasswordConfig.Keeps (sha256 : Bytes → Bytes) (uuid : Bytes) (c : PasswordConfig) :
    Option String → Prop
  | none => c.password = ""
  | some p => p ≠ "" ∧ c.salt ≠ "" ∧ IsStorageOf box b64 uuid (computeH1 sha256 p c.salt) c.password

/-- In memory and in the file, which agree. -/
structure State.Keeps (sha256 : Bytes → Bytes) (uuid : Bytes) (s : State) (owner : Option String) :
    Prop where
  memory : s.memory.Keeps box b64 sha256 uuid owner
  file : s.file = s.memory

variable {box b64} {sha256 : Bytes → Bytes} {uuid : Bytes} {machine : Machine} {owner : Option String}

namespace PasswordConfig.Keeps

variable {c : PasswordConfig}

section

variable (hbox : box.Correct) (hb64 : b64.Correct) (h : c.Keeps box b64 sha256 machine.uuid owner)
include hbox hb64 h

/-- A configuration that keeps a password is valid as it is. -/
theorem validateOrDecrypt :
    c.validateOrDecrypt box b64 machine = .ok c := by
  cases owner with
  | none => exact if_pos h
  | some p => exact h.2.2.validateOrDecrypt hbox hb64 h.2.1

theorem load : c.load box b64 machine = c := by
  rw [PasswordConfig.load, h.validateOrDecrypt hbox hb64]

theorem store (r : Random) (stored : PasswordConfig) :
    c.store box b64 machine r stored = c := by
  rw [PasswordConfig.store, prepareForStore, h.validateOrDecrypt hbox hb64]
  refine if_neg ?_
  rintro ⟨hne, hnone⟩
  cases owner with
  | none => exact hne h
  | some p => cases (h.2.2.decodeH1 hbox hb64).symm.trans hnone

end

/-- Without a password any salt will do. -/
theorem ownerless {salt : String} : (⟨"", salt⟩ : PasswordConfig).Keeps box b64 sha256 uuid none := rfl

end PasswordConfig.Keeps

variable {s : State}

section

variable (hbox : box.Correct) (hb64 : b64.Correct)
include hbox hb64

/-- What is stored comes to stand in the file as it is. -/
theorem State.store_keeps (h : s.memory.Keeps box b64 sha256 machine.uuid owner) (r : Random) :
    (s.store box b64 machine r).Keeps box b64 sha256 machine.uuid owner := by
  refine ⟨h, ?_⟩
  exact h.store hbox hb64 r s.file

/-- The file is read as what is in memory. -/
theorem State.Keeps.load_file (h : s.Keeps box b64 sha256 machine.uuid owner) :
    { s with memory := s.file.load box b64 machine } = s := by
  obtain ⟨memory, file⟩ := s
  obtain rfl : file = memory := h.file
  exact congrArg (fun c => State.mk c file) (h.memory.load hbox hb64)

theorem State.Keeps.load (h : s.Keeps box b64 sha256 machine.uuid owner) (r : Random) (newId : Bool) :
    (s.load box b64 machine r newId).Keeps box b64 sha256 machine.uuid owner := by
  rw [State.load, h.load_file hbox hb64]
  cases newId with
  | false => exact h
  | true => exact State.store_keeps hbox hb64 h.memory r

end

/-! ## Each operation -/

/-- The update of a password is computed: a storage of its hash. -/
theorem PasswordConfig.computeStorageForUpdate_eq (hpad : b64.Padded)
    (hsha : ∀ x, (sha256 x).length = h1Len) (r : Random) (c : PasswordConfig) (password : String) :
    ∃ storage, c.computeStorageForUpdate box b64 machine sha256 r password
        = (c.ensureSalt r, some storage) ∧
      IsStorageOf box b64 machine.uuid (computeH1 sha256 password (c.ensureSalt r).salt) storage := by
  have hlen : (computeH1 sha256 password (c.ensureSalt r).salt).length = h1Len := hsha _
  obtain ⟨storage, hstorage, his⟩ := encodeEncryptedStorageFromH1_isStorageOf hpad r.nonce_length hlen
  exact ⟨storage, congrArg (Prod.mk _) hstorage, his⟩

/-- An update is refused before anything is changed. -/
theorem setPermanentPassword_false (hpad : b64.Padded) (hsha : ∀ x, (sha256 x).length = h1Len)
    {preset : Preset} {disabled : Bool} {password : String}
    (h : (s.setPermanentPassword box b64 machine sha256 preset disabled r password).1 = false) :
    (s.setPermanentPassword box b64 machine sha256 preset disabled r password).2 = s := by
  unfold State.setPermanentPassword at h ⊢
  cases disabled with
  | true => rfl
  | false =>
    rw [if_neg Bool.false_ne_true] at h ⊢
    by_cases hpreset : presetStorageMatchesPlain b64 sha256 preset.storage preset.salt password ∧
        s.memory.password = ""
    · rw [if_pos hpreset]
    · rw [if_neg hpreset] at h ⊢
      exfalso
      by_cases hempty : password = ""
      · rw [if_pos hempty] at h
        dsimp only at h
        split at h <;> cases h
      · obtain ⟨storage, hstorage, -⟩ := s.memory.computeStorageForUpdate_eq hpad hsha r password
        rw [if_neg hempty, hstorage] at h
        dsimp only at h
        split at h <;> cases h

/-- So is a synchronization. -/
theorem setStorageForSync_refused {storage salt : String}
    (h : (s.setStorageForSync box b64 machine r storage salt).1 ≠ .ok true) :
    (s.setStorageForSync box b64 machine r storage salt).2 = s := by
  unfold State.setStorageForSync at h ⊢
  cases happly : s.memory.applyStorageForSync box b64 machine storage salt with
  | error err => rfl
  | ok result =>
    obtain ⟨changed, config⟩ := result
    rw [happly] at h
    cases changed with
    | true => exact absurd rfl h
    | false =>
      have hsame : config = s.memory := by
        unfold PasswordConfig.applyStorageForSync at happly
        grind
      rw [hsame]

theorem Random.salt_ne (r : Random) : r.salt ≠ "" := by
  intro h
  have hlen := r.salt_length
  rw [h] at hlen
  cases hlen

theorem PasswordConfig.ensureSalt_ne (r : Random) (c : PasswordConfig) : (c.ensureSalt r).salt ≠ "" := by
  unfold PasswordConfig.ensureSalt
  split
  · exact r.salt_ne
  · assumption

section

variable (hbox : box.Correct) (hb64 : b64.Correct)
include hbox hb64

/-- An update that is answered `true` makes the password the one that is kept. -/
theorem State.Keeps.setPermanentPassword (hpad : b64.Padded)
    (hsha : ∀ x, (sha256 x).length = h1Len) (h : s.Keeps box b64 sha256 machine.uuid owner)
    {disabled : Bool} {password : String} {answer : Bool} {s' : State}
    (hset : s.setPermanentPassword box b64 machine sha256 ⟨"", presetSalt⟩ disabled r password
      = (answer, s')) :
    s'.Keeps box b64 sha256 machine.uuid (if answer then ownerOf password else owner) := by
  unfold State.setPermanentPassword at hset
  cases disabled with
  | true =>
    cases hset
    exact h
  | false =>
    have hnone : presetStorageMatchesPlain b64 sha256 "" presetSalt password = false := by
      rw [presetStorageMatchesPlain, if_pos (.inl rfl)]
    rw [if_neg Bool.false_ne_true, hnone, if_neg (fun hand => Bool.false_ne_true hand.1)] at hset
    by_cases hempty : password = ""
    · subst hempty
      rw [if_pos rfl] at hset
      dsimp only at hset
      split at hset
      next hsame =>
        -- there was no password before
        cases hset
        exact ⟨hsame.symm, h.file⟩
      next =>
        cases hset
        exact State.store_keeps hbox hb64 PasswordConfig.Keeps.ownerless r
    · obtain ⟨storage, hstorage, his⟩ := s.memory.computeStorageForUpdate_eq hpad hsha r password
      rw [if_neg hempty, hstorage] at hset
      dsimp only at hset
      have howner : ownerOf password = some password := if_neg hempty
      have hkeeps : (⟨storage, (s.memory.ensureSalt r).salt⟩ : PasswordConfig).Keeps box b64 sha256
          machine.uuid (some password) := ⟨hempty, s.memory.ensureSalt_ne r, his⟩
      split at hset
      next hsame =>
        -- the very storage that is kept, so it had its salt
        cases hset
        rw [if_pos rfl, howner]
        have hsalt : s.memory.ensureSalt r = s.memory := by
          unfold PasswordConfig.ensureSalt at hsame ⊢
          refine if_neg fun hunsalted => ?_
          cases owner with
          | none =>
            have hblank : storage = "" := by
              rw [hsame, if_pos hunsalted]
              exact h.memory
            exact his.ne_empty hblank
          | some p => exact h.memory.2.1 hunsalted
        rw [hsalt] at hsame hkeeps
        subst hsame
        refine ⟨?_, ?_⟩
        · rw [hsalt]
          exact hkeeps
        · rw [hsalt]
          exact h.file
      next =>
        cases hset
        rw [if_pos rfl, howner]
        exact State.store_keeps hbox hb64 hkeeps r

/-- What a synchronization takes over is what the other configuration keeps, but for the salt of an empty
password. -/
theorem PasswordConfig.Keeps.applyStorageForSync {c other config : PasswordConfig} {otherOwner : Option String}
    (hother : other.Keeps box b64 sha256 machine.uuid otherOwner)
    (h : c.applyStorageForSync box b64 machine other.password other.salt = .ok (true, config)) :
    config.Keeps box b64 sha256 machine.uuid otherOwner := by
  unfold PasswordConfig.applyStorageForSync at h
  cases otherOwner with
  | none =>
    have hempty : other.password = "" := hother
    rw [if_pos hempty] at h
    split at h
    · cases h
    · cases h
      exact ownerless
  | some p =>
    have hdecodes : decodeH1FromStorage box b64 machine other.password ≠ none := by
      rw [hother.2.2.decodeH1 hbox hb64]
      exact Option.some_ne_none _
    rw [if_neg hother.2.2.ne_empty, if_neg hother.2.1, if_neg hdecodes] at h
    split at h
    · cases h
    · cases h
      exact hother

section

variable (h : s.Keeps box b64 sha256 machine.uuid owner)
include h

/-- A synchronization that is answered `true` brings the password of the other configuration. -/
theorem State.Keeps.setStorageForSync {other : State} {otherOwner : Option String}
    (hother : other.Keeps box b64 sha256 machine.uuid otherOwner)
    {answer : Except String Bool} {s' : State}
    (hsync : s.setStorageForSync box b64 machine r other.memory.password other.memory.salt
      = (answer, s')) :
    s'.Keeps box b64 sha256 machine.uuid (ownerAfterSync answer otherOwner owner) := by
  by_cases hanswer : answer = .ok true
  · subst hanswer
    show s'.Keeps box b64 sha256 machine.uuid otherOwner
    unfold State.setStorageForSync at hsync
    cases happly : s.memory.applyStorageForSync box b64 machine other.memory.password other.memory.salt with
    | error err =>
      rw [happly] at hsync
      cases hsync
    | ok result =>
      obtain ⟨changed, config⟩ := result
      rw [happly] at hsync
      cases changed with
      | false => cases hsync
      | true =>
        cases hsync
        exact State.store_keeps hbox hb64 (hother.memory.applyStorageForSync hbox hb64 happly) r
  · have hsame : s' = s := by
      have hrefused := setStorageForSync_refused (fun heq => hanswer ((congrArg Prod.fst hsync).symm.trans heq))
      exact (congrArg Prod.snd hsync).symm.trans hrefused
    have howner : ownerAfterSync answer otherOwner owner = owner := by
      unfold ownerAfterSync
      split
      · exact absurd rfl hanswer
      · rfl
    rw [hsame, howner]
    exact h

/-- A salt is set where no hash hangs on the one before. -/
theorem State.Keeps.setSalt (r : Random) (salt : String) :
    (s.setSalt box b64 machine r salt).Keeps box b64 sha256 machine.uuid owner := by
  unfold State.setSalt
  by_cases hsame : salt = s.memory.salt
  · rw [if_pos hsame]
    exact h
  · rw [if_neg hsame]
    cases owner with
    | none =>
      have hkeeps : ({ s.memory with salt := salt } : PasswordConfig).Keeps box b64 sha256 machine.uuid
          none := h.memory
      split
      · exact h
      · exact State.store_keeps hbox hb64 hkeeps r
    | some p =>
      obtain ⟨-, hsalt, his⟩ := h.memory
      rw [his.hashed hbox hb64, if_pos]
      · exact h
      · simpa using hsalt

theorem State.Keeps.getSalt (r : Random) :
    (s.getSalt box b64 machine r).2.Keeps box b64 sha256 machine.uuid owner := by
  unfold State.getSalt
  split
  · exact h.setSalt hbox hb64 r r.salt
  · exact h

theorem State.Keeps.getEffectiveSalt (preset : Preset) (r : Random) :
    (s.getEffectiveSalt box b64 machine preset r).2.Keeps box b64 sha256 machine.uuid owner := by
  unfold State.getEffectiveSalt
  repeat' split
  · exact h.getSalt hbox hb64 r
  · exact h
  · exact h
  · exact h
  · exact h.getSalt hbox hb64 r

end

/-- Where there is a password, its salt is the one in effect. -/
theorem State.Keeps.getEffectiveSalt_eq {p : String}
    (h : s.Keeps box b64 sha256 machine.uuid (some p)) (preset : Preset) (r : Random) :
    s.getEffectiveSalt box b64 machine preset r = (s.memory.salt, s) := by
  obtain ⟨-, hsalt, his⟩ := h.memory
  rw [State.getEffectiveSalt, if_pos his.ne_empty, if_pos (his.usable hbox hb64 hsalt), State.getSalt, if_neg hsalt]

/-- **Every run** keeps the password of its last update. -/
theorem Reaches.keeps (hpad : b64.Padded) (hsha : ∀ x, (sha256 x).length = h1Len)
    (h : Reaches box b64 sha256 uuid presetSalt s owner) : s.Keeps box b64 sha256 uuid owner := by
  induction h with
  | new => exact ⟨rfl, rfl⟩
  | setPermanentPassword _ machine huuid disabled r password hset ih =>
    subst huuid
    exact ih.setPermanentPassword hbox hb64 hpad hsha hset
  | setStorageForSync _ machine huuid r _ hsync ih ihother =>
    subst huuid
    exact ih.setStorageForSync hbox hb64 ihother hsync
  | setSalt _ machine huuid r salt ih =>
    subst huuid
    exact ih.setSalt hbox hb64 r salt
  | getSalt _ machine huuid r ih =>
    subst huuid
    exact ih.getSalt hbox hb64 r
  | getEffectiveSalt _ machine huuid r ih =>
    subst huuid
    exact ih.getEffectiveSalt hbox hb64 _ r
  | store _ machine huuid r ih =>
    subst huuid
    exact State.store_keeps hbox hb64 ih.memory r
  | load _ machine huuid r newId ih =>
    subst huuid
    exact ih.load hbox hb64 r newId

end

/-! ## Logins -/

theorem utf8Bytes_eq (s : String) : Handshake.utf8Bytes s = Utf8.bytes s := by
  rw [Handshake.utf8Bytes, String.toUTF8_eq_toByteArray, ← String.utf8Encode_toList, List.utf8Encode,
    List.data_toByteArray]
  rfl

/-- **One login** on a host that keeps a password: what is sent for `q`, with the salt of the password. -/
theorem State.Keeps.accepts_iff (hbox : box.Correct) (hb64 : b64.Correct) {b : Build}
    (h : s.Keeps box b64 b.sha256 machine.uuid owner) (env : Env) {hash : Hash}
    {q : String} (hsalt : owner ≠ none → hash.salt = s.memory.salt)
    (hapart : ∀ p, owner = some p → TellsApart b.sha256 hash p q) :
    Accepts box b64 b env machine ⟨"", presetSalt⟩ s hash (clientPassword b.sha256 hash q)
      ↔ q ≠ "" ∧ owner = some q := by
  cases owner with
  | none =>
    have hempty : s.memory.password = "" := h.memory
    simp [Accepts, isPermanentPassword, PasswordConfig.localPassword, Preset.presetPassword, hempty,
      presetStorageIsUsableForAuth]
  | some p =>
    obtain ⟨hp, hne, his⟩ := h.memory
    have hbranch : Accepts box b64 b env machine ⟨"", presetSalt⟩ s hash (clientPassword b.sha256 hash q)
        ↔ clientPassword b.sha256 hash p = clientPassword b.sha256 hash q := by
      rw [Accepts, isPermanentPassword, PasswordConfig.localPassword]
      rw [if_pos his.ne_empty, his.usable hbox hb64 hne, Bool.true_and, validatePasswordStorage,
        if_neg his.ne_empty, his.decodeH1 hbox hb64]
      simp only [verifyH1, decide_eq_true_eq, utf8Bytes_eq, clientPassword, hsalt (Option.some_ne_none _)]
    rw [hbranch]
    constructor
    · intro hsame
      have hh1 := List.append_cancel_right ((hapart p rfl).challenged hsame)
      have hbytes := List.append_cancel_right ((hapart p rfl).salted hh1)
      have hpq : p = q := by rw [← Utf8.lossy_bytes p, hbytes, Utf8.lossy_bytes]
      exact ⟨hpq ▸ hp, congrArg some hpq⟩
    · rintro ⟨-, hpq⟩
      rw [Option.some.inj hpq]

/-- **The permanent password of a host**: an update that is not answered `true` changes nothing, and in
every state that the operations lead to the hash of `q` with the salt that the host sends, then or as long
as the salt stays, is accepted exactly if `q` is not empty and the password of the last update. -/
theorem accepts_iff_last_update (hbox : box.Correct) (hb64 : b64.Correct) (hpad : b64.Padded) (b : Build)
    (hsha : ∀ x, (b.sha256 x).length = h1Len) (env : Env) (uuid : Bytes) (presetSalt : String) :
    (∀ (s : State) machine preset disabled r password,
      (s.setPermanentPassword box b64 machine b.sha256 preset disabled r password).1 = false →
      (s.setPermanentPassword box b64 machine b.sha256 preset disabled r password).2 = s) ∧
    (∀ (s : State) machine r storage salt,
      (s.setStorageForSync box b64 machine r storage salt).1 ≠ .ok true →
      (s.setStorageForSync box b64 machine r storage salt).2 = s) ∧
    ∀ s owner, Reaches box b64 b.sha256 uuid presetSalt s owner → ∀ machine, machine.uuid = uuid →
      ∀ salt s', ((∃ r, s.getEffectiveSalt box b64 machine ⟨"", presetSalt⟩ r = (salt, s')) ∨
        (salt = s.memory.salt ∧ s' = s)) →
      ∀ challenge q, (∀ p, owner = some p → TellsApart b.sha256 ⟨salt, challenge⟩ p q) →
        (Accepts box b64 b env machine ⟨"", presetSalt⟩ s' ⟨salt, challenge⟩
            (clientPassword b.sha256 ⟨salt, challenge⟩ q)
          ↔ q ≠ "" ∧ owner = some q) := by
  refine ⟨fun s machine preset disabled r password => setPermanentPassword_false hpad hsha,
    fun s machine r storage salt => setStorageForSync_refused, ?_⟩
  rintro s owner hreach machine rfl salt s' hsent challenge q hapart
  have hkeeps := hreach.keeps hbox hb64 hpad hsha
  rcases hsent with ⟨r, hsent⟩ | ⟨rfl, rfl⟩
  · have hkeeps' := hkeeps.getEffectiveSalt hbox hb64 ⟨"", presetSalt⟩ r
    rw [hsent] at hkeeps'
    refine hkeeps'.accepts_iff hbox hb64 env (fun hsome => ?_) hapart
    obtain ⟨p, rfl⟩ := Option.ne_none_iff_exists'.mp hsome
    rw [hkeeps.getEffectiveSalt_eq hbox hb64] at hsent
    cases hsent
    rfl
  · exact hkeeps.accepts_iff hbox hb64 env (fun _ => rfl) hapart

/-! ## A password that is set, and a restart -/

/-- The first bytes stand for the digest. -/
def sampleDigest (data : Bytes) : Bytes := data.takeD h1Len 0

def sampleDraw : Random where
  nonce := List.replicate nonceBytes 7
  plainNonce := List.replicate nonceBytes 8
  salt := "abcdefghijkmnpqrstuvwxyz23456789"
  nonce_length := List.length_replicate ..
  plainNonce_length := List.length_replicate ..
  salt_length := by decide

/-- "secret" is set on a new host, which is started again. -/
def sampleUpdate : Bool × State :=
  State.setPermanentPassword tagBox base64 exampleMachine sampleDigest ⟨"", ""⟩ false sampleDraw .new
    "secret"

def sampleState : State := sampleUpdate.2.load tagBox base64 exampleMachine sampleDraw false

theorem sampleUpdate_reached :
    Reaches tagBox base64 sampleDigest exampleMachine.uuid "" sampleUpdate.2 (some "secret") := by
  have hset : Reaches tagBox base64 sampleDigest exampleMachine.uuid "" sampleUpdate.2
      (if sampleUpdate.1 then ownerOf "secret" else none) :=
    .setPermanentPassword .new exampleMachine rfl false sampleDraw "secret" rfl
  have hanswer : sampleUpdate.1 = true := by decide
  have howner : ownerOf "secret" = some "secret" := by decide
  rwa [hanswer, if_pos rfl, howner] at hset

theorem sampleState_reached :
    Reaches tagBox base64 sampleDigest exampleMachine.uuid "" sampleState (some "secret") :=
  sampleUpdate_reached.load exampleMachine rfl sampleDraw false

theorem length_sampleDigest (x : Bytes) : (sampleDigest x).length = h1Len := List.takeD_length _ _ _

/-- The restart leaves the salt of the update. -/
theorem sampleState_salt : sampleState.memory.salt = "abcdefghijkmnpqrstuvwxyz23456789" := by
  have hkeeps := sampleUpdate_reached.keeps tagBox_correct base64_correct base64_padded length_sampleDigest
  have hload : sampleState = sampleUpdate.2 := hkeeps.load_file tagBox_correct base64_correct
  rw [hload]
  decide +kernel

/-- A client that types a password at the host with the last update. -/
def SampleAccepts (q : String) : Prop :=
  Accepts tagBox base64 (linuxBuild sampleDigest) plainEnv exampleMachine ⟨"", ""⟩ sampleState
    ⟨sampleState.memory.salt, "123456"⟩
    (clientPassword sampleDigest ⟨sampleState.memory.salt, "123456"⟩ q)

theorem accepts_iff_last_update_restarted :
    SampleAccepts "secret" ∧ ¬ SampleAccepts "other" := by
  have hapart : ∀ q ∈ ["secret", "other"], ∀ p, some "secret" = some p →
      TellsApart sampleDigest ⟨sampleState.memory.salt, "123456"⟩ p q := by
    intro q hq p hp
    cases hp
    rw [sampleState_salt]
    rcases List.mem_pair.mp hq with rfl | rfl
    · exact ⟨fun _ => rfl, fun _ => rfl⟩
    · exact ⟨fun h => absurd h (by decide), fun h => absurd h (by decide)⟩
  have hmain : ∀ q ∈ ["secret", "other"],
      (SampleAccepts q ↔ q ≠ "" ∧ some "secret" = some q) := fun q hq =>
    (accepts_iff_last_update tagBox_correct base64_correct base64_padded (linuxBuild sampleDigest)
      length_sampleDigest plainEnv exampleMachine.uuid "").2.2 sampleState (some "secret") sampleState_reached
      exampleMachine rfl sampleState.memory.salt sampleState (.inr ⟨rfl, rfl⟩) "123456" q (hapart q hq)
  constructor
  · exact (hmain "secret" (by simp)).mpr ⟨by simp, rfl⟩
  · intro h
    have heq := ((hmain "other" (by simp)).mp h).2
    simp at heq

end RustDesk.Config
