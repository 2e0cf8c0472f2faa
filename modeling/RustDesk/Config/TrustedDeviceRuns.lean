import Mathlib.Logic.Equiv.List
import RustDesk.Config.TrustedDevices

/-!
# Revoking trusted devices

What the calls return, told from their history: a device that was removed stays away until it is added again, and
one that was added is there until it is removed. Both hold as long as no call writes back a copy that others have
overtaken.
-/

namespace RustDesk.Config

open Net

open Connection (TrustedDevice)

variable {box : SecretBox Bytes} {b64 : Base64Coder} {machine : Machine} {json : DeviceJson}
  {log : List DeviceEvent} {device : TrustedDevice}

/-! ## What a history says -/

def DeviceCall.Adds (hwid : Bytes) : DeviceCall → Prop
  | .add device => device.hwid = hwid
  | _ => False

def DeviceCall.Removes (hwid : Bytes) : DeviceCall → Prop
  | .remove hwids => hwid ∈ hwids
  | .clear => True
  | _ => False

/-- The device was removed, and no call that adds it began since. -/
def Revoked (hwid : Bytes) : List DeviceEvent → Prop
  | [] => False
  | .began _ call :: log => ¬ call.Adds hwid ∧ Revoked hwid log
  | .returned _ call _ _ :: log => call.Removes hwid ∨ Revoked hwid log

/-- The device was added, and not removed or replaced since. -/
def Trusted (device : TrustedDevice) : List DeviceEvent → Prop
  | [] => False
  | .began _ _ :: log => Trusted device log
  | .returned _ call _ _ :: log =>
    call = .add device ∨ ¬ call.Adds device.hwid ∧ ¬ call.Removes device.hwid ∧ Trusted device log

/-- What a call returns is what the history before says. -/
def Answers (log : List DeviceEvent) : Prop :=
  ∀ newer t result now older, log = newer ++ .returned t .get result now :: older →
    (∀ hwid, Revoked hwid older → ∀ d ∈ result, d.hwid ≠ hwid) ∧
    ∀ d, Trusted d older → d.outdate now = false → d ∈ result

theorem answers_cons {event : DeviceEvent} :
    Answers (event :: log) ↔ (∀ t result now, event = .returned t .get result now →
      (∀ hwid, Revoked hwid log → ∀ d ∈ result, d.hwid ≠ hwid) ∧
      ∀ d, Trusted d log → d.outdate now = false → d ∈ result) ∧ Answers log := by
  constructor
  · intro h
    refine ⟨fun t result now hevent => h [] t result now log (by rw [hevent]; rfl), ?_⟩
    intro newer t result now older heq
    exact h (event :: newer) t result now older (by rw [heq]; rfl)
  · rintro ⟨hevent, hlog⟩ newer t result now older heq
    cases newer with
    | nil =>
      cases heq
      exact hevent t result now rfl
    | cons first newer => exact hlog newer t result now older (List.cons.inj heq).2

theorem outdate_mono {now now' : ℕ} (hle : now ≤ now')
    (h : device.outdate now' = false) : device.outdate now = false := by
  unfold Connection.TrustedDevice.outdate at *
  rw [decide_eq_false_iff_not] at *
  omega

theorem mem_retainInDate {now : ℕ} {devices : List TrustedDevice} :
    device ∈ retainInDate now devices ↔ device ∈ devices ∧ device.outdate now = false := by
  rw [retainInDate, List.mem_filter, Bool.not_eq_true']

/-! ## What is stored -/

/-- JSON is not taken for a secret. -/
theorem isEncrypted_array (b64 : Base64Coder) (rest : String) :
    isEncrypted b64 (Utf8.bytes ("[" ++ rest)) = false := by
  have hbytes : Utf8.bytes ("[" ++ rest) = 91 :: Utf8.bytes rest := by
    rw [Utf8.bytes_append]
    rfl
  unfold isEncrypted
  rw [hbytes, if_pos]
  rw [Bool.or_eq_true, bytes_version]
  exact .inr rfl

/-- **What is set is stored.** -/
theorem storedDevices_encrypt (hbox : box.Correct) (hb64 : b64.Correct) (hjson : json.Correct) {nonce : Bytes}
    (hnonce : nonce.length = nonceBytes) {devices : List TrustedDevice}
    (hfits : (Utf8.bytes ((json.toString devices).getD "")).length ≤ trustedDevicesMaxLen) :
    storedDevices box b64 machine json (encryptStrOrOriginal box b64 machine nonce
      ((json.toString devices).getD "") "00" trustedDevicesMaxLen) = devices := by
  obtain ⟨rest, hto, hfrom⟩ := hjson.back devices
  rw [hto, Option.getD_some] at hfits ⊢
  have hback := @decryptStr_encryptStr box b64 machine _ hbox hb64 _ _
    (Nat.le_trans (Utf8.length_le_bytes _) hfits) (isEncrypted_array b64 rest) hnonce
  have hne : "[" ++ rest ≠ "" := by
    rw [ne_eq, ← Utf8.bytes_eq_nil, Utf8.bytes_append]
    exact List.cons_ne_nil _ _
  rw [storedDevices, hback, decide_eq_true hne]
  change (json.fromStr ("[" ++ rest)).getD [] = devices
  rw [hfrom, Option.getD_some]

/-! ## The invariant -/

namespace DeviceWorld

variable {world world' : DeviceWorld} {t : ℕ} {call : DeviceCall} {stage : DeviceStage} {label : DeviceLabel}
  {copy devices : List TrustedDevice} {inGet : Bool} {now : ℕ} {nonce : Bytes}
  {value : Option (DeviceCall × DeviceStage)}

/-- `get_trusted_devices` alone sets nothing of its own. -/
def Suits (call : DeviceCall) : DeviceStage → Prop
  | .setConfig _ inGet => inGet = false → call ≠ .get
  | .setMemory _ _ inGet => inGet = false → call ≠ .get
  | _ => True

/-- The list that the holder of `CONFIG2` has stored, and that it sets the memory to. -/
structure Held (world : DeviceWorld) (stored : List TrustedDevice) (t : ℕ) (call : DeviceCall)
    (devices : List TrustedDevice) (inGet : Bool) : Prop where
  locked : world.locked = some t
  stored : stored = devices
  source : ∃ now ≤ world.clock, devices = retainInDate now (target call world.list inGet)
  unrevoked : inGet = false → ∀ d, call = .add d → ¬ Revoked d.hwid world.log

/-- What the history says of the list and of the results. -/
structure Told (world : DeviceWorld) : Prop where
  revoked : ∀ hwid, Revoked hwid world.log → ∀ d ∈ world.list, d.hwid ≠ hwid
  trusted : ∀ d, Trusted d world.log → d.outdate world.clock = false → d ∈ world.list
  answers : Answers world.log

/-- The memory and the config have the list that was set last, but while one call sets it. -/
structure Sound (stored : String → List TrustedDevice) (world : DeviceWorld) : Prop where
  memory : world.memory.2 = true → world.memory.1 = world.list
  unlocked : world.locked = none → stored world.config = world.list
  holder : ∀ t, world.locked = some t → ∃ call devices copy inGet,
    world.calls t = some (call, .setMemory devices copy inGet)
  held : ∀ t call devices copy inGet, world.calls t = some (call, .setMemory devices copy inGet) →
    Held world (stored world.config) t call devices inGet
  suits : ∀ t call stage, world.calls t = some (call, stage) → Suits call stage
  given : ∀ t, world.next ≤ t → world.calls t = none
  told : Told world

variable {stored : String → List TrustedDevice}

/-- A call that is not about to set the memory does not hold `CONFIG2`. -/
theorem Sound.not_holder (h : Sound stored world)
    (hstage : ∀ call devices copy inGet, world.calls t ≠ some (call, .setMemory devices copy inGet)) :
    world.locked ≠ some t := by
  intro hlocked
  obtain ⟨call, devices, copy, inGet, hcall⟩ := h.holder t hlocked
  exact hstage call devices copy inGet hcall

theorem calls_update {t' : ℕ} {call' : DeviceCall}
    {stage' : DeviceStage} (h : Function.update world.calls t value t' = some (call', stage')) :
    t' = t ∧ value = some (call', stage') ∨ t' ≠ t ∧ world.calls t' = some (call', stage') := by
  by_cases ht : t' = t
  · subst ht
    rw [Function.update_self] at h
    exact .inl ⟨rfl, h⟩
  · rw [Function.update_of_ne ht] at h
    exact .inr ⟨ht, h⟩

section

variable (h : Sound stored world)
include h

/-- Time goes on. -/
theorem Sound.tick (hle : world.clock ≤ now) : Sound stored { world with clock := now } := by
  refine ⟨h.memory, h.unlocked, h.holder, fun t call devices copy inGet hcall => ?_, h.suits, h.given,
    h.told.revoked, fun d hd hdate => h.told.trusted d hd (outdate_mono hle hdate), h.told.answers⟩
  obtain ⟨hlocked, hstored, ⟨before, hbefore, hdevices⟩, hunrevoked⟩ := h.held t call devices copy inGet hcall
  exact ⟨hlocked, hstored, ⟨before, Nat.le_trans hbefore hle, hdevices⟩, hunrevoked⟩

/-- A call begins. -/
theorem Sound.began (t : ℕ) (call : DeviceCall) :
    Sound stored { world with next := world.next + 1, log := .began t call :: world.log } := by
  refine ⟨h.memory, h.unlocked, h.holder, fun t' call' devices copy inGet hcall => ?_, h.suits,
    fun t' ht' => h.given t' (Nat.le_of_succ_le ht'), fun hwid hrevoked => h.told.revoked hwid hrevoked.2,
    h.told.trusted, answers_cons.mpr ⟨fun _ _ _ heq => (by cases heq), h.told.answers⟩⟩
  obtain ⟨hlocked, hstored, hsource, hunrevoked⟩ := h.held t' call' devices copy inGet hcall
  exact ⟨hlocked, hstored, hsource, fun hout d hd hrevoked => hunrevoked hout d hd hrevoked.2⟩

section

variable (ht : t < world.next) (hfree : world.locked ≠ some t)
include ht hfree

/-- A call without `CONFIG2` goes on, or ends. -/
theorem Sound.update (hvalue : ∀ call stage, value = some (call, stage) →
      Suits call stage ∧ ∀ devices copy inGet, stage ≠ .setMemory devices copy inGet) :
    Sound stored { world with calls := Function.update world.calls t value } := by
  refine ⟨h.memory, h.unlocked, fun t' hlocked => ?_, fun t' call' devices copy inGet hcall => ?_,
    fun t' call' stage' hcall => ?_, fun t' ht' => ?_, ⟨h.told.revoked, h.told.trusted, h.told.answers⟩⟩
  · have hne : t' ≠ t := by
      rintro rfl
      exact hfree hlocked
    obtain ⟨call', devices, copy, inGet, hcall⟩ := h.holder t' hlocked
    exact ⟨call', devices, copy, inGet, (Function.update_of_ne hne _ _).trans hcall⟩
  · rcases calls_update hcall with ⟨-, heq⟩ | ⟨-, hcall⟩
    · exact absurd rfl ((hvalue _ _ heq).2 devices copy inGet)
    · obtain ⟨hlocked, hstored, hsource, hunrevoked⟩ := h.held t' call' devices copy inGet hcall
      exact ⟨hlocked, hstored, hsource, hunrevoked⟩
  · rcases calls_update hcall with ⟨-, heq⟩ | ⟨-, hcall⟩
    · exact (hvalue _ _ heq).1
    · exact h.suits t' call' stage' hcall
  · have hne : t' ≠ t := Nat.ne_of_gt (Nat.lt_of_lt_of_le ht ht')
    exact (Function.update_of_ne hne _ _).trans (h.given t' ht')

theorem Sound.goOn
    (hsuits : Suits call stage) (hstage : ∀ devices copy inGet, stage ≠ .setMemory devices copy inGet) :
    Sound stored (world.goOn t call stage) := by
  refine h.update ht hfree fun call' stage' heq => ?_
  cases heq
  exact ⟨hsuits, hstage⟩

/-- A `get_trusted_devices` returns the list that was set last. -/
theorem Sound.finishGet : Sound stored (world.finish t .get world.list) := by
  have hended : Sound stored { world with calls := Function.update world.calls t none } :=
    h.update ht hfree fun call' stage' heq => by cases heq
  have hrevoked : ∀ hwid, Revoked hwid (.returned t .get world.list world.clock :: world.log) →
      Revoked hwid world.log := fun hwid hlog => hlog.resolve_left id
  refine ⟨hended.memory, hended.unlocked, hended.holder, fun t' call' devices copy inGet hcall => ?_,
    hended.suits, hended.given, fun hwid hlog => h.told.revoked hwid (hrevoked hwid hlog), fun d hlog => ?_,
    answers_cons.mpr ⟨fun t' result now heq => ?_, h.told.answers⟩⟩
  · obtain ⟨hlocked, hstored, hsource, hunrevoked⟩ := hended.held t' call' devices copy inGet hcall
    exact ⟨hlocked, hstored, hsource, fun hout d hd hlog => hunrevoked hout d hd (hrevoked _ hlog)⟩
  · rcases hlog with heq | ⟨-, -, hlog⟩
    · cases heq
    · exact h.told.trusted d hlog
  · obtain ⟨-, -, rfl, rfl⟩ := DeviceEvent.returned.inj heq
    exact ⟨h.told.revoked, h.told.trusted⟩

/-- What `get_trusted_devices` gives, where it is alone, is the list that was set last. -/
theorem Sound.gave (hlist : copy = world.list) : Sound stored (world.gave t call copy) := by
  unfold DeviceWorld.gave
  split
  · next hget =>
    rw [hget, hlist]
    exact h.finishGet ht hfree
  · next hget => exact h.goOn ht hfree (fun _ => hget) (fun _ _ _ heq => by cases heq)

end

end

/-! ### Sections -/

theorem Sound.readMemory (h : Sound stored world) (ht : t < world.next) (hfree : world.locked ≠ some t) :
    Sound stored (world.readMemory t call) := by
  unfold DeviceWorld.readMemory
  split
  · next hsynced => exact h.gave ht hfree (h.memory hsynced)
  · exact h.goOn ht hfree trivial (fun _ _ _ heq => by cases heq)

theorem Sound.readConfig (h : Sound (storedDevices box b64 machine json) world) (ht : t < world.next)
    (hread : world.readConfig box b64 machine json t call = some world') :
    Sound (storedDevices box b64 machine json) world' := by
  unfold DeviceWorld.readConfig at hread
  split at hread
  · cases hread
  · next hlocked =>
    rw [Bool.not_eq_true, Option.isSome_eq_false_iff, Option.isNone_iff_eq_none] at hlocked
    have hfree : world.locked ≠ some t := by simp [hlocked]
    have hstored := h.unlocked hlocked
    unfold storedDevices at hstored
    dsimp only at hread hstored
    split at hread
    · cases hread
      refine h.goOn ht hfree ?_ ?_
      · split
        · exact fun heq => absurd heq (by decide)
        · trivial
      · intro devices copy inGet heq
        split at heq <;> cases heq
    · next hfails =>
      -- what cannot be decrypted is an empty list
      rw [if_neg hfails] at hstored
      cases hread
      exact h.gave ht hfree hstored

theorem Sound.setCache (h : Sound stored world) (ht : t < world.next) (hfree : world.locked ≠ some t)
    (hcopy : copy = world.list) : Sound stored (world.setCache t call copy) := by
  have hset : Sound stored { world with memory := (copy, true) } := by
    refine ⟨fun _ => hcopy, h.unlocked, h.holder, fun t' call' devices copy inGet hcall => ?_, h.suits, h.given,
      ⟨h.told.revoked, h.told.trusted, h.told.answers⟩⟩
    obtain ⟨hlocked, hstored, hsource, hunrevoked⟩ := h.held t' call' devices copy inGet hcall
    exact ⟨hlocked, hstored, hsource, hunrevoked⟩
  exact hset.gave ht hfree hcopy

/-- The config is set to what the call would set it to from the list that was set last. -/
theorem Sound.setConfig (hbox : box.Correct) (hb64 : b64.Correct) (hjson : json.Correct)
    (h : Sound (storedDevices box b64 machine json) world) (ht : t < world.next)
    (hnonce : nonce.length = nonceBytes) (hsuits : inGet = false → call ≠ .get)
    (hfits : (Utf8.bytes ((json.toString (retainInDate world.clock (target call copy inGet))).getD "")).length ≤
      trustedDevicesMaxLen)
    (hcopy : retainInDate world.clock (target call copy inGet) =
      retainInDate world.clock (target call world.list inGet))
    (hunrevoked : inGet = false → ∀ d, call = .add d → ¬ Revoked d.hwid world.log)
    (hset : world.setConfig box b64 machine json t call copy inGet nonce = some world') :
    Sound (storedDevices box b64 machine json) world' := by
  unfold DeviceWorld.setConfig at hset
  rw [if_neg (Nat.not_lt.mpr hfits)] at hset
  split at hset
  · cases hset
  next hlocked =>
  rw [Bool.not_eq_true, Option.isSome_eq_false_iff, Option.isNone_iff_eq_none] at hlocked
  cases hset
  refine ⟨h.memory, fun heq => (by cases heq), fun t' heq => ?_, fun t' call' devices copy' inGet' hcall => ?_,
    fun t' call' stage' hcall => ?_, fun t' ht' => ?_, ⟨h.told.revoked, h.told.trusted, h.told.answers⟩⟩
  · cases heq
    exact ⟨_, _, _, _, Function.update_self _ _ _⟩
  · rcases calls_update hcall with ⟨rfl, heq⟩ | ⟨-, hcall⟩
    · cases heq
      exact ⟨rfl, storedDevices_encrypt hbox hb64 hjson hnonce hfits, ⟨_, Nat.le_refl _, hcopy⟩, hunrevoked⟩
    · -- no other call holds `CONFIG2`
      have hother := (h.held t' call' devices copy' inGet' hcall).locked
      rw [hlocked] at hother
      cases hother
  · rcases calls_update hcall with ⟨-, heq⟩ | ⟨-, hcall⟩
    · cases heq
      exact hsuits
    · exact h.suits t' call' stage' hcall
  · have hne : t' ≠ t := Nat.ne_of_gt (Nat.lt_of_lt_of_le ht ht')
    exact (Function.update_of_ne hne _ _).trans (h.given t' ht')

/-- The memory is set, and `CONFIG2` given back. -/
theorem Sound.settle (h : Sound stored world) (hcall : world.calls t = some (call, .setMemory devices copy inGet))
    {log : List DeviceEvent}
    (hvalue : ∀ call stage, value = some (call, stage) →
      Suits call stage ∧ ∀ devices copy inGet, stage ≠ .setMemory devices copy inGet)
    (htold : Told { world with list := devices, log := log }) :
    Sound stored { world with
      memory := (devices, true)
      locked := none
      list := devices
      calls := Function.update world.calls t value
      log := log } := by
  have hheld := h.held t call devices copy inGet hcall
  have ht : t < world.next := by
    by_contra hnot
    rw [h.given t (Nat.not_lt.mp hnot)] at hcall
    cases hcall
  refine ⟨fun _ => rfl, fun _ => hheld.stored, fun t' heq => (by cases heq),
    fun t' call' devices' copy' inGet' hcall' => ?_, fun t' call' stage' hcall' => ?_, fun t' ht' => ?_,
    ⟨htold.revoked, htold.trusted, htold.answers⟩⟩
  · rcases calls_update hcall' with ⟨-, heq⟩ | ⟨hne, hcall'⟩
    · exact absurd rfl ((hvalue _ _ heq).2 devices' copy' inGet')
    · have hother := (h.held t' call' devices' copy' inGet' hcall').locked
      exact absurd (Option.some.inj (hother.symm.trans hheld.locked)) hne
  · rcases calls_update hcall' with ⟨-, heq⟩ | ⟨-, hcall'⟩
    · exact (hvalue _ _ heq).1
    · exact h.suits t' call' stage' hcall'
  · have hne : t' ≠ t := Nat.ne_of_gt (Nat.lt_of_lt_of_le ht ht')
    exact (Function.update_of_ne hne _ _).trans (h.given t' ht')

/-- What an add, a removal or a clear leaves of the list. -/
theorem mem_apply {device : TrustedDevice} (hcall : call ≠ .get) :
    device ∈ call.apply devices ↔ call = .add device ∨
      ¬ call.Adds device.hwid ∧ ¬ call.Removes device.hwid ∧ device ∈ devices := by
  cases call with
  | get => exact absurd rfl hcall
  | add d =>
    simp only [DeviceCall.apply, DeviceCall.Adds, DeviceCall.Removes, List.mem_append, List.mem_filter,
      List.mem_singleton, decide_eq_true_eq, DeviceCall.add.injEq, not_false_eq_true, true_and]
    rw [or_comm, @eq_comm _ device d, @eq_comm _ d.hwid, and_comm]
  | remove hwids =>
    simp only [DeviceCall.apply, DeviceCall.Adds, DeviceCall.Removes, List.mem_filter, Bool.not_eq_true',
      List.contains_eq_mem, decide_eq_false_iff_not, not_false_eq_true, true_and, reduceCtorEq, false_or]
    exact and_comm
  | clear => simp [DeviceCall.apply, DeviceCall.Adds, DeviceCall.Removes]

/-- **A call has set the list**: the history says of the new list what it said of the old one. -/
theorem Sound.toldSet (h : Sound stored world)
    (hcall : world.calls t = some (call, .setMemory devices copy false)) :
    Told { world with list := devices, log := .returned t call [] world.clock :: world.log } := by
  obtain ⟨-, -, ⟨now, hnow, hdevices⟩, hunrevoked⟩ := h.held t call devices copy false hcall
  have hget : call ≠ .get := h.suits t _ _ hcall rfl
  have hmem : ∀ d, d ∈ devices ↔ (call = .add d ∨
      ¬ call.Adds d.hwid ∧ ¬ call.Removes d.hwid ∧ d ∈ world.list) ∧ d.outdate now = false := by
    intro d
    rw [hdevices, mem_retainInDate, target, if_neg Bool.false_ne_true, mem_apply hget]
  refine ⟨fun hwid hrevoked d hd heq => ?_, fun d htrusted hdate => ?_,
    answers_cons.mpr ⟨fun _ _ _ heq => absurd (DeviceEvent.returned.inj heq).2.1 hget, h.told.answers⟩⟩
  · rw [← heq] at hrevoked
    rcases ((hmem d).mp hd).1 with hadd | ⟨-, hnot, hold⟩
    · -- the device that is added was not removed since the call began
      rcases hrevoked with hremoves | hrevoked
      · rw [hadd] at hremoves
        exact hremoves
      · exact hunrevoked rfl d hadd hrevoked
    · exact h.told.revoked _ (hrevoked.resolve_left hnot) d hold rfl
  · refine (hmem d).mpr ⟨htrusted.imp_right fun ⟨hadds, hremoves, hlog⟩ => ⟨hadds, hremoves, ?_⟩,
      outdate_mono hnow hdate⟩
    exact h.told.trusted d hlog hdate

/-- A `get_trusted_devices` has taken out what is out of date. -/
theorem Sound.toldInGet (h : Sound stored world)
    (hcall : world.calls t = some (call, .setMemory devices copy true)) :
    Told { world with list := devices } := by
  obtain ⟨-, -, ⟨now, hnow, hdevices⟩, -⟩ := h.held t call devices copy true hcall
  have hmem : ∀ d, d ∈ devices ↔ d ∈ world.list ∧ d.outdate now = false := by
    intro d
    rw [hdevices, mem_retainInDate, target, if_pos rfl]
  refine ⟨fun hwid hrevoked d hd => h.told.revoked hwid hrevoked d ((hmem d).mp hd).1, fun d htrusted hdate => ?_,
    h.told.answers⟩
  exact (hmem d).mpr ⟨h.told.trusted d htrusted hdate, outdate_mono hnow hdate⟩

theorem Sound.setMemory (h : Sound stored world)
    (hcall : world.calls t = some (call, .setMemory devices copy inGet)) :
    Sound stored (world.setMemory t call devices copy inGet) := by
  cases inGet with
  | true =>
    refine h.settle hcall (fun call' stage' heq => ?_) (h.toldInGet hcall)
    cases heq
    exact ⟨trivial, fun _ _ _ heq => by cases heq⟩
  | false => exact h.settle hcall (fun call' stage' heq => by cases heq) (h.toldSet hcall)

/-! ### Steps -/

/-- The list that a step sets is below the limit. -/
def BelowLimit (json : DeviceJson) (world : DeviceWorld) : DeviceLabel → Prop
  | .begin _ _ _ => True
  | .next t now _ => ∀ call copy inGet, world.calls t = some (call, .setConfig copy inGet) →
    (Utf8.bytes ((json.toString (retainInDate now (target call copy inGet))).getD "")).length ≤
      trustedDevicesMaxLen

/-- A step that writes a copy back writes what the list that was set last would give, and no removal of a
device has returned while a call was adding it. -/
def Current (world : DeviceWorld) : DeviceLabel → Prop
  | .begin _ _ _ => True
  | .next t now _ =>
    (∀ call copy inGet, world.calls t = some (call, .setConfig copy inGet) →
      retainInDate now (target call copy inGet) = retainInDate now (target call world.list inGet) ∧
      (inGet = false → ∀ d, call = .add d → ¬ Revoked d.hwid world.log)) ∧
    ∀ call copy, world.calls t = some (call, .setCache copy) → copy = world.list

theorem Sound.init (config : String) :
    Sound (storedDevices box b64 machine json) (init box b64 machine json config) :=
  ⟨fun h => (by cases h), fun _ => rfl, fun _ h => (by cases h), fun _ _ _ _ _ h => (by cases h),
    fun _ _ _ h => (by cases h), fun _ _ => rfl, ⟨fun _ h => h.elim, fun _ h => h.elim,
      fun newer _ _ _ _ h => by cases newer <;> cases h⟩⟩

section

variable (hbox : box.Correct) (hb64 : b64.Correct) (hjson : json.Correct)
  (h : Sound (storedDevices box b64 machine json) world)
include hbox hb64 hjson h

theorem Sound.next (hnonce : nonce.length = nonceBytes)
    (hbelow : BelowLimit json world (.next t world.clock nonce))
    (hcurrent : Current world (.next t world.clock nonce)) (hcall : world.calls t = some (call, stage))
    (hstep : world.advance box b64 machine json t call nonce stage = some world') :
    Sound (storedDevices box b64 machine json) world' := by
  have ht : t < world.next := by
    by_contra hnot
    rw [h.given t (Nat.not_lt.mp hnot)] at hcall
    cases hcall
  cases stage with
  | readConfig => exact h.readConfig ht hstep
  | setConfig copy inGet =>
    obtain ⟨hcopy, hunrevoked⟩ := hcurrent.1 call copy inGet hcall
    exact h.setConfig hbox hb64 hjson ht hnonce (h.suits t _ _ hcall) (hbelow call copy inGet hcall) hcopy
      hunrevoked hstep
  | setMemory devices copy inGet =>
    cases hstep
    exact h.setMemory hcall
  | setCache copy =>
    cases hstep
    refine h.setCache ht (h.not_holder fun _ _ _ _ heq => ?_) (hcurrent.2 call copy hcall)
    rw [hcall] at heq
    cases heq

/-- A clear sets a list that no copy goes into. -/
theorem Sound.begin (ht : t < world.next)
    (hnonce : nonce.length = nonceBytes) (hnew : world.calls t = none)
    (hstep : world.start box b64 machine json t call nonce = some world') :
    Sound (storedDevices box b64 machine json) world' := by
  have hfree : world.locked ≠ some t := h.not_holder fun _ _ _ _ heq => by
    rw [hnew] at heq
    cases heq
  unfold start at hstep
  split at hstep
  · next hclear =>
    subst hclear
    have hempty (copy : List TrustedDevice) : retainInDate world.clock (target .clear copy false) = [] := rfl
    refine h.setConfig hbox hb64 hjson ht hnonce (fun _ heq => by cases heq) ?_ ?_ (fun _ d heq => by cases heq) hstep
    · have htwo : (Utf8.bytes "[]").length = 2 := by decide
      rw [hempty, hjson.empty, Option.getD_some, htwo]
      unfold trustedDevicesMaxLen
      omega
    · rw [hempty, hempty]
  · cases hstep
    exact h.readMemory ht hfree

theorem Sound.step (hbelow : BelowLimit json world label)
    (hcurrent : Current world label) (hstep : world.step box b64 machine json label = some world') :
    Sound (storedDevices box b64 machine json) world' := by
  cases label with
  | begin call now nonce =>
    rw [DeviceWorld.step, Option.ite_none_right_eq_some] at hstep
    obtain ⟨⟨hclock, hnonce⟩, hstep⟩ := hstep
    refine ((h.tick hclock).began world.next call).begin hbox hb64 hjson (Nat.lt_succ_self _) hnonce ?_ hstep
    exact h.given _ (Nat.le_refl _)
  | next t now nonce =>
    rw [DeviceWorld.step, Option.ite_none_right_eq_some] at hstep
    obtain ⟨⟨hclock, hnonce⟩, hstep⟩ := hstep
    obtain ⟨⟨call, stage⟩, hcall, hstep⟩ := Option.bind_eq_some_iff.mp hstep
    exact (h.tick hclock).next hbox hb64 hjson hnonce hbelow hcurrent hcall hstep

end

end DeviceWorld

open DeviceWorld

/-- The numbers of a device. -/
private def numbers (device : TrustedDevice) : List ℕ × ℤ × List ℕ × List ℕ × List ℕ :=
  (device.hwid.map UInt8.toNat, device.time, device.id.toList.map Char.toNat, device.name.toList.map Char.toNat,
    device.platform.toList.map Char.toNat)

end RustDesk.Config
