import RustDesk.Common.Side
import RustDesk.Net.Encrypt
import Mathlib.Data.List.Nodup
import Mathlib.Logic.Function.Basic

/-!
# Nonces of a keyed session

A session key is handed to both ends, each end counts the messages it seals from one, and the count
alone is the nonce. `sealAll` records what both ends seal, in any interleaving.

One end never repeats a nonce (`sentNonces_nodup`). The two ends do not keep apart from each other:
their first messages already share nonce one, so the nonces of a session are pairwise distinct
exactly when at most one end seals (`nonces_nodup_iff_one_sender`).
-/

namespace RustDesk.Net

/-- A sealed message as it enters the session: who sealed it, under which nonce, from what. -/
structure SealedMessage where
  side : Side
  nonce : Bytes
  plain : Bytes
  cipher : Bytes
deriving DecidableEq

variable {K : Type*} (box : SecretBox K) {d : Side} {acts : List (Side × Bytes)}

/-- All messages sealed in a run of `enc` calls of the two ends, in order. -/
def sealAll (ends : Side → Encrypt K) : List (Side × Bytes) → List SealedMessage
  | [] => []
  | (d, m) :: acts =>
    let (cipher, e) := (ends d).enc box m
    ⟨d, getNonce e.sendSeq, m, cipher⟩ :: sealAll (Function.update ends d e) acts

/-- Both ends install the key they agreed on with `set_key`. -/
def sessionLog (key : K) (acts : List (Side × Bytes)) : List SealedMessage :=
  sealAll box (fun _ => Encrypt.new key) acts

/-- The plaintexts end `d` seals, in order. -/
def sentBy (d : Side) (acts : List (Side × Bytes)) : List Bytes :=
  (acts.filter fun a => a.1 = d).map Prod.snd

@[simp] theorem sentBy_cons_self (d : Side) (m : Bytes) (acts : List (Side × Bytes)) :
    sentBy d ((d, m) :: acts) = m :: sentBy d acts := by
  simp [sentBy]

theorem sentBy_cons_ne {d' : Side} (h : d' ≠ d) (m : Bytes) (acts : List (Side × Bytes)) :
    sentBy d ((d', m) :: acts) = sentBy d acts := by
  simp [sentBy, h]

/-- The message end `d` seals after `i` others: its nonce continues the end's counter. -/
def sealedAt (d : Side) (e : Encrypt K) (i : ℕ) (m : Bytes) : SealedMessage :=
  let nonce := getNonce (e.sendSeq + UInt64.ofNat (i + 1))
  ⟨d, nonce, m, box.sealBox m nonce e.key⟩

theorem count_succ (s : UInt64) (i : ℕ) : s + 1 + UInt64.ofNat i = s + UInt64.ofNat (i + 1) := by
  rw [UInt64.ofNat_add, UInt64.add_assoc, UInt64.add_comm 1]
  rfl

/-- Counting one message moves the later ones up by one. -/
theorem sealedAt_enc (d : Side) (e : Encrypt K) (m' : Bytes) (i : ℕ) (m : Bytes) :
    sealedAt box d (e.enc box m').2 i m = sealedAt box d e (i + 1) m := by
  simp only [sealedAt, Encrypt.enc_snd, count_succ]

/-- **What one end contributes to a session.** Whatever the other end does in between, the `i`-th
message an end seals is sealed under the `i`-th count after the one it started from. -/
theorem sealAll_filter_side (d : Side) (ends : Side → Encrypt K) (acts : List (Side × Bytes)) :
    (sealAll box ends acts).filter (fun s => s.side = d)
      = (sentBy d acts).mapIdx (sealedAt box d (ends d)) := by
  induction acts generalizing ends with
  | nil => rfl
  | cons act acts ih =>
    obtain ⟨d', m⟩ := act
    rw [sealAll]
    by_cases h : d' = d
    · subst h
      rw [List.filter_cons_of_pos (by simp), ih, sentBy_cons_self, List.mapIdx_cons, Function.update_self]
      congr 1
      exact congrArg (List.mapIdx · _) (funext₂ fun i m' => sealedAt_enc box d' (ends d') m i m')
    · rw [List.filter_cons_of_neg (by simp [h]), ih, sentBy_cons_ne h, Function.update_of_ne (fun hd => h hd.symm)]

/-- Every message of a session is the `i`-th that its sender sealed, for some `i`. -/
theorem mem_sealAll {ends : Side → Encrypt K} {s : SealedMessage} (h : s ∈ sealAll box ends acts) :
    ∃ i, (sentBy s.side acts)[i]? = some s.plain ∧ s = sealedAt box s.side (ends s.side) i s.plain := by
  have hside : s ∈ (sealAll box ends acts).filter (fun t => t.side = s.side) :=
    List.mem_filter.mpr ⟨h, by simp⟩
  rw [sealAll_filter_side, List.mem_mapIdx] at hside
  obtain ⟨i, hi, hs⟩ := hside
  have hplain : (sentBy s.side acts)[i] = s.plain := congrArg SealedMessage.plain hs
  exact ⟨i, by rw [List.getElem?_eq_getElem hi, hplain], by rw [← hplain]; exact hs.symm⟩

/-- Every message an end sends is in the session, sealed under its own count. -/
theorem sealedAt_mem (ends : Side → Encrypt K) {i : ℕ} {m : Bytes} (h : (sentBy d acts)[i]? = some m) :
    sealedAt box d (ends d) i m ∈ sealAll box ends acts := by
  obtain ⟨hi, rfl⟩ := List.getElem?_eq_some_iff.mp h
  have hmem : sealedAt box d (ends d) i (sentBy d acts)[i]
      ∈ (sealAll box ends acts).filter (fun t => t.side = d) := by
    rw [sealAll_filter_side]
    exact List.mem_mapIdx.mpr ⟨i, hi, rfl⟩
  exact List.mem_of_mem_filter hmem

/-! ## Distinctness -/

/-- The nonces of all sealed messages of a session, both directions together. -/
def nonces (key : K) (acts : List (Side × Bytes)) : List Bytes :=
  (sessionLog box key acts).map SealedMessage.nonce

/-- The nonces one end uses are the counts one, two, three and so on. -/
theorem sentNonces_eq (key : K) (d : Side) (acts : List (Side × Bytes)) :
    ((sessionLog box key acts).filter (fun s => s.side = d)).map SealedMessage.nonce
      = (List.range (sentBy d acts).length).map fun i => getNonce (UInt64.ofNat (i + 1)) := by
  rw [sessionLog, sealAll_filter_side]
  refine List.ext_getElem (by simp) fun i _ _ => ?_
  simp [sealedAt, Encrypt.new]

theorem sentBy_length_le (d : Side) (acts : List (Side × Bytes)) : (sentBy d acts).length ≤ acts.length := by
  rw [sentBy, List.length_map]
  exact List.length_filter_le _ _

/-- One end never repeats a nonce. -/
theorem sentNonces_nodup (key : K) (d : Side) (acts : List (Side × Bytes)) (hlen : acts.length < 2 ^ 64) :
    (((sessionLog box key acts).filter (fun s => s.side = d)).map SealedMessage.nonce).Nodup := by
  have hcount := sentBy_length_le d acts
  rw [sentNonces_eq]
  refine List.Nodup.map_on (fun i hi j hj hij => ?_) List.nodup_range
  rw [List.mem_range] at hi hj
  have := getNonce_ofNat_inj (by omega) (by omega) hij
  omega

theorem sentBy_ne_nil {m : Bytes} (h : (d, m) ∈ acts) : ∃ m', (sentBy d acts)[0]? = some m' := by
  have hmem : m ∈ sentBy d acts := List.mem_map.mpr ⟨(d, m), by simp [h], rfl⟩
  rcases hs : sentBy d acts with _ | ⟨m', ms⟩
  · simp [hs] at hmem
  · exact ⟨m', rfl⟩

/-- **The nonces of a session are pairwise distinct exactly when at most one end seals.** Both ends
count from one under the same key, so each end's first message already takes the nonce of the
other's. -/
theorem nonces_nodup_iff_one_sender (key : K) (acts : List (Side × Bytes))
    (hlen : acts.length < 2 ^ 64) :
    (nonces box key acts).Nodup ↔ ∀ a ∈ acts, ∀ b ∈ acts, a.1 = b.1 := by
  constructor
  · rintro hnodup ⟨d, m⟩ ha ⟨d', m'⟩ hb
    -- the first messages of `d` and of `d'` carry the same nonce, so they are one message
    obtain ⟨m₁, h₁⟩ := sentBy_ne_nil ha
    obtain ⟨m₂, h₂⟩ := sentBy_ne_nil hb
    have hsame := List.inj_on_of_nodup_map hnodup (sealedAt_mem box _ h₁) (sealedAt_mem box _ h₂) rfl
    exact congrArg SealedMessage.side hsame
  · intro hone
    rcases acts with _ | ⟨⟨d, m⟩, acts⟩
    · simp [nonces, sessionLog, sealAll]
    · have hall : (sessionLog box key ((d, m) :: acts)).filter (fun s => s.side = d)
          = sessionLog box key ((d, m) :: acts) := by
        refine List.filter_eq_self.mpr fun s hs => ?_
        obtain ⟨i, hi, -⟩ := mem_sealAll box hs
        obtain ⟨a, ha, -⟩ := List.mem_map.mp (List.mem_of_getElem? hi)
        rw [List.mem_filter, decide_eq_true_iff] at ha
        simp only [decide_eq_true_iff, ← ha.2]
        exact hone a ha.1 (d, m) (by simp)
      have hnodup := sentNonces_nodup box key d _ hlen
      rwa [hall] at hnodup

/-- One message from each end: both are sealed under nonce one. -/
theorem nonces_collide_across_ends :
    ¬ (nonces tagBox () [(.controlling, [1]), (.controlled, [2])]).Nodup := by
  decide

/-- Two messages of one end and none of the other. -/
theorem nonces_nodup_iff_one_sender_two_messages :
    (nonces tagBox () [(.controlling, [1]), (.controlling, [2])]).Nodup :=
  (nonces_nodup_iff_one_sender tagBox () _ (by decide)).mpr (by decide)

end RustDesk.Net
