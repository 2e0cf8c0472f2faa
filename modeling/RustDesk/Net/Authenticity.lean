import RustDesk.Net.NonceReuse

/-!
# What an attacker can make a keyed stream deliver

An attacker hands arbitrary frames to the receiving end. `secretbox` is taken as a perfect AEAD: it
opens a frame under a nonce only if one of the two ends sealed exactly that frame under that nonce.

Frames of at most one byte are let through unopened, so they are delivered whatever the attacker
likes. Longer frames deliver, up to the first error, what either end sealed under the same count: a
prefix of the sender's messages, if the receiver has sealed none (`delivered_authentic`).
-/

namespace RustDesk.Net

variable {K : Type*} (box : SecretBox K) {e : Encrypt K} {s : FramedStream K} {m : Bytes}

/-- `secretbox` as a perfect AEAD for one session: whatever opens was sealed in the session, under
the nonce it opens with. -/
def PerfectOn (key : K) (acts : List (Side × Bytes)) (frames : List Bytes) : Prop :=
  ∀ f ∈ frames, ∀ (n : UInt64) (m : Bytes), box.openBox f (getNonce n) key = some m →
    ∃ s ∈ sessionLog box key acts, s.nonce = getNonce n ∧ s.cipher = f ∧ s.plain = m

/-- `next` called until its first error: the frames that were answered `Ok`, with what was
delivered for them. -/
def deliver (s : FramedStream K) : List Bytes → List (Bytes × Bytes)
  | [] => []
  | f :: fs =>
    match s.openFrame box f with
    | (.ok m, s) => (f, m) :: deliver s fs
    | (.error _, _) => []

/-- What was delivered for the frames that are long enough to be opened. -/
def opened (ds : List (Bytes × Bytes)) : List Bytes :=
  (ds.filter fun d => 1 < d.1.length).map Prod.snd

/-- **What one frame comes to.** A short frame is delivered as it is; a longer one opens under the next
count and is delivered, or ends the run. -/
theorem deliver_cons (hs : s.encrypt = some e) (f : Bytes) (fs : List Bytes) :
    (f.length ≤ 1 ∧ deliver box s (f :: fs) = (f, f) :: deliver box s fs) ∨
    (1 < f.length ∧ ∃ m, box.openBox f (getNonce (e.recvSeq + 1)) e.key = some m ∧
      deliver box s (f :: fs) = (f, m) ::
        deliver box { s with encrypt := some { e with recvSeq := e.recvSeq + 1 } } fs) ∨
    (1 < f.length ∧ deliver box s (f :: fs) = []) := by
  rw [deliver, FramedStream.openFrame_keyed hs]
  by_cases hf : f.length ≤ 1
  · refine Or.inl ⟨hf, ?_⟩
    rw [Encrypt.dec_short box e hf, ← hs]
  · have hlong : 1 < f.length := by omega
    rw [Encrypt.dec_long box e hlong]
    cases hopen : box.openBox f (getNonce (e.recvSeq + 1)) e.key with
    | some m => exact Or.inr (Or.inl ⟨hlong, m, rfl, rfl⟩)
    | none => exact Or.inr (Or.inr ⟨hlong, rfl⟩)

/-- Short frames are delivered as they are. -/
theorem deliver_short (hs : s.encrypt = some e) (frames : List Bytes) :
    ∀ d ∈ deliver box s frames, d.1.length ≤ 1 → d.2 = d.1 := by
  induction frames generalizing s e with
  | nil => simp [deliver]
  | cons f fs ih =>
    intro d hd hshort
    rcases deliver_cons box hs f fs with ⟨-, heq⟩ | ⟨hlong, m, -, heq⟩ | ⟨-, heq⟩ <;> rw [heq] at hd
    · rcases List.mem_cons.mp hd with rfl | hd
      · rfl
      · exact ih hs d hd hshort
    · rcases List.mem_cons.mp hd with rfl | hd
      · exact absurd hlong (not_lt.mpr hshort)
      · exact ih rfl d hd hshort
    · cases hd

theorem opened_cons_short {f : Bytes} (hf : f.length ≤ 1) (ds : List (Bytes × Bytes)) :
    opened ((f, m) :: ds) = opened ds := by
  simp [opened, show ¬ 1 < f.length by omega]

theorem opened_cons_long {f : Bytes} (hf : 1 < f.length) (ds : List (Bytes × Bytes)) :
    opened ((f, m) :: ds) = m :: opened ds := by
  simp [opened, hf]

/-- The `i`-th message delivered from a long frame was opened under the `i`-th count. -/
theorem opened_deliver (hs : s.encrypt = some e)
    (frames : List Bytes) {i : ℕ} (h : (opened (deliver box s frames))[i]? = some m) :
    ∃ f ∈ frames, box.openBox f (getNonce (e.recvSeq + UInt64.ofNat (i + 1))) e.key = some m := by
  induction frames generalizing s e i with
  | nil => simp [deliver, opened] at h
  | cons f fs ih =>
    rcases deliver_cons box hs f fs with ⟨hshort, heq⟩ | ⟨hlong, m₀, hm₀, heq⟩ | ⟨-, heq⟩ <;>
      rw [heq] at h
    · rw [opened_cons_short hshort] at h
      obtain ⟨g, hg, hopen⟩ := ih hs h
      exact ⟨g, List.mem_cons_of_mem _ hg, hopen⟩
    · rw [opened_cons_long hlong] at h
      cases i with
      | zero =>
        obtain rfl : m₀ = m := by simpa using h
        exact ⟨f, List.mem_cons_self .., hm₀⟩
      | succ i =>
        obtain ⟨g, hg, hopen⟩ := ih rfl (List.getElem?_cons_succ ▸ h)
        exact ⟨g, List.mem_cons_of_mem _ hg, by rwa [count_succ] at hopen⟩
    · simp [opened] at h

/-- **Authenticity of a keyed stream.** Before its first error the receiving end delivers, for any
frames an attacker hands it:
* a frame of at most one byte as it is;
* for the `i`-th longer frame a message that one of the two ends sealed under the same count;
* so, if the receiving end itself has sealed nothing, for the longer frames a prefix of what the
  sending end sealed. -/
theorem delivered_authentic (key : K) (acts : List (Side × Bytes)) (frames : List Bytes)
    (hideal : PerfectOn box key acts frames) :
    let ds := deliver box (FramedStream.new.setKey key) frames
    (∀ d ∈ ds, d.1.length ≤ 1 → d.2 = d.1) ∧
    (∀ i m, (opened ds)[i]? = some m →
      ∃ d j, j % 2 ^ 64 = i % 2 ^ 64 ∧ (sentBy d acts)[j]? = some m) ∧
    (sentBy .controlled acts = [] → (sentBy .controlling acts).length < 2 ^ 64 →
      opened ds <+: sentBy .controlling acts) := by
  set s := FramedStream.new.setKey key with hs
  have hkey : s.encrypt = some (Encrypt.new key) := rfl
  have hsealed : ∀ i m, (opened (deliver box s frames))[i]? = some m →
      ∃ d j, j % 2 ^ 64 = i % 2 ^ 64 ∧ (sentBy d acts)[j]? = some m := by
    intro i m hi
    obtain ⟨f, hf, hopen⟩ := opened_deliver box hkey frames hi
    obtain ⟨t, ht, hnonce, -, rfl⟩ := hideal f hf _ _ hopen
    obtain ⟨j, hj, hseal⟩ := mem_sealAll box ht
    refine ⟨t.side, j, ?_, hj⟩
    -- equal nonces are equal counts, and both counters started from zero
    have hcount := congrArg SealedMessage.nonce hseal
    rw [hnonce] at hcount
    have hmod := congrArg UInt64.toNat (getNonce_injective hcount)
    simp only [Encrypt.new, UInt64.zero_add, UInt64.toNat_ofNat'] at hmod
    omega
  refine ⟨deliver_short box hkey frames, hsealed, fun hquiet hlen => ?_⟩
  have hback : ∀ i m, (opened (deliver box s frames))[i]? = some m →
      ∃ j, j % 2 ^ 64 = i % 2 ^ 64 ∧ j < (sentBy .controlling acts).length ∧
        (sentBy .controlling acts)[j]? = some m := by
    intro i m hi
    obtain ⟨d, j, hmod, hj⟩ := hsealed i m hi
    cases d with
    | controlling => exact ⟨j, hmod, (List.getElem?_eq_some_iff.mp hj).1, hj⟩
    | controlled => simp [hquiet] at hj
  have hshort : (opened (deliver box s frames)).length ≤ (sentBy .controlling acts).length := by
    -- otherwise the delivery after the last sealed message would carry an unused count
    by_contra hlong
    obtain ⟨j, hmod, hj, -⟩ := hback _ _ (List.getElem?_eq_getElem (not_le.mp hlong))
    omega
  rw [List.prefix_iff_getElem?]
  intro i hi
  obtain ⟨j, hmod, hj, hm⟩ := hback i _ (List.getElem?_eq_getElem hi)
  obtain rfl : j = i := by omega
  exact hm

/-- Two deliveries of what the other end never sealed: a one-byte frame, though nothing was sealed at
all, and a message of the receiver that comes back to it. -/
theorem unsealed_delivered :
    (PerfectOn tagBox () [] [[7]] ∧
      ¬ (deliver tagBox (FramedStream.new.setKey ()) [[7]]).map Prod.snd
          <+: sentBy .controlling []) ∧
    (PerfectOn tagBox () [(.controlled, [1])] [tagBox.sealBox [1] (getNonce 1) ()] ∧
      ¬ (deliver tagBox (FramedStream.new.setKey ())
            [tagBox.sealBox [1] (getNonce 1) ()]).map Prod.snd
          <+: sentBy .controlling [(.controlled, [1])]) := by
  refine ⟨⟨fun f hf n m hopen => ?_, by decide⟩, fun f hf n m hopen => ?_, by decide⟩
  · obtain rfl : f = [7] := by simpa using hf
    have hlen := congrArg List.length (tagBox_open hopen)
    simp [tagBox] at hlen
  · obtain rfl : f = tagBox.sealBox [1] (getNonce 1) () := by simpa using hf
    obtain ⟨rfl, rfl⟩ := tagBox_seal_inj (tagBox_open hopen)
    exact ⟨_, List.mem_cons_self .., rfl, rfl, rfl⟩

/-- One sealed message and a one-byte frame in front of it. -/
theorem delivered_authentic_one_message :
    opened (deliver tagBox (FramedStream.new.setKey ())
        [[7], tagBox.sealBox [1, 2] (getNonce 1) ()])
      <+: sentBy .controlling [(.controlling, [1, 2])] := by
  refine (delivered_authentic tagBox () [(.controlling, [1, 2])] _ ?_).2.2 (by decide) (by decide)
  intro f hf n m hopen
  have hcipher := tagBox_open hopen
  simp only [List.mem_cons, List.not_mem_nil, or_false] at hf
  rcases hf with rfl | rfl
  · have hlen := congrArg List.length hcipher
    simp [tagBox] at hlen
  · obtain ⟨rfl, rfl⟩ := tagBox_seal_inj hcipher
    exact ⟨_, List.mem_cons_self .., rfl, rfl, rfl⟩

end RustDesk.Net
