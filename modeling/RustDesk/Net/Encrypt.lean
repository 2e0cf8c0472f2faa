import RustDesk.Net.BytesCodec

/-!
# `Encrypt` and `FramedStream`: the keyed stream

Reference: `libs/hbb_common/src/tcp.rs`. Both ends of a keyed stream hold the same secretbox key and
two counters each: one for the messages they seal, one for the frames they open. The counter is the
nonce.

`secretbox` is not part of the repository. It is a parameter, and what a result needs of it is a
hypothesis of that result.
-/

namespace RustDesk.Net

open LittleEndian

/-- `sodiumoxide::crypto::secretbox` over keys `K`: plaintext or ciphertext, nonce, key. -/
structure SecretBox (K : Type*) where
  sealBox : Bytes → Bytes → K → Bytes
  openBox : Bytes → Bytes → K → Option Bytes

/-- `open` inverts `seal` under the same key and nonce (24 bytes, `NONCEBYTES`), and `seal` adds a
tag of 16 bytes (`MACBYTES`). -/
structure SecretBox.Correct {K : Type*} (box : SecretBox K) : Prop where
  open_seal : ∀ m n k, n.length = 24 → box.openBox (box.sealBox m n k) n k = some m
  seal_length : ∀ m n k, n.length = 24 → (box.sealBox m n k).length = m.length + 16

/-- `Encrypt(Key, u64, u64)`: the key, the counter of sealed messages, the counter of opened
frames. Counters wrap as `u64` does in a release build. -/
structure Encrypt (K : Type*) where
  key : K
  sendSeq : UInt64
  recvSeq : UInt64
deriving DecidableEq

/-- `get_nonce`: the counter in the low eight of the 24 nonce bytes. -/
def getNonce (seqnum : UInt64) : Bytes := leBytes 8 seqnum.toNat ++ List.replicate 16 0

namespace Encrypt

variable {K : Type*} (box : SecretBox K)

def new (key : K) : Encrypt K where
  key := key
  sendSeq := 0
  recvSeq := 0

/-- `enc`: count the message, then seal it under the new count. -/
def enc (e : Encrypt K) (data : Bytes) : Bytes × Encrypt K :=
  let e := { e with sendSeq := e.sendSeq + 1 }
  (box.sealBox data (getNonce e.sendSeq) e.key, e)

/-- `dec`: frames of at most one byte pass through unopened and uncounted. -/
def dec (e : Encrypt K) (bytes : Bytes) : Except IoError Bytes × Encrypt K :=
  if bytes.length ≤ 1 then (.ok bytes, e)
  else
    let e := { e with recvSeq := e.recvSeq + 1 }
    match box.openBox bytes (getNonce e.recvSeq) e.key with
    | some res => (.ok res, e)
    | none => (.error ⟨.other, "decryption error"⟩, e)

@[simp] theorem enc_fst (e : Encrypt K) (data : Bytes) :
    (e.enc box data).1 = box.sealBox data (getNonce (e.sendSeq + 1)) e.key := rfl

@[simp] theorem enc_snd (e : Encrypt K) (data : Bytes) :
    (e.enc box data).2 = { e with sendSeq := e.sendSeq + 1 } := rfl

theorem dec_short (e : Encrypt K) {bytes : Bytes} (h : bytes.length ≤ 1) :
    e.dec box bytes = (.ok bytes, e) := if_pos h

/-- A longer frame is counted before it is opened, whether or not it opens. -/
theorem dec_long (e : Encrypt K) {bytes : Bytes} (h : 1 < bytes.length) : e.dec box bytes =
      (match box.openBox bytes (getNonce (e.recvSeq + 1)) e.key with
        | some res => .ok res
        | none => .error ⟨.other, "decryption error"⟩,
      { e with recvSeq := e.recvSeq + 1 }) := by
  rw [dec, if_neg (by omega)]
  dsimp only
  split <;> rfl

end Encrypt

/-! ## Nonces -/

@[simp] theorem getNonce_length (n : UInt64) : (getNonce n).length = 24 := by simp [getNonce]

/-- Different counts give different nonces. -/
theorem getNonce_injective : Function.Injective getNonce := by
  intro m n h
  have hbytes : leBytes 8 m.toNat = leBytes 8 n.toNat := List.append_cancel_right h
  exact UInt64.toNat_inj.mp (leBytes_inj m.toNat_lt n.toNat_lt hbytes)

/-- Counts below `2 ^ 64` are told apart by their nonces. -/
theorem getNonce_ofNat_inj {m n : ℕ} (hm : m < 2 ^ 64) (hn : n < 2 ^ 64)
    (h : getNonce (UInt64.ofNat m) = getNonce (UInt64.ofNat n)) : m = n := by
  have hval := congrArg UInt64.toNat (getNonce_injective h)
  rwa [UInt64.toNat_ofNat', UInt64.toNat_ofNat', Nat.mod_eq_of_lt hm, Nat.mod_eq_of_lt hn] at hval

/-! ## A box to evaluate with -/

/-- A transparent box whose tag is the head of the nonce. It opens exactly what it sealed under the
same count, and lets concrete runs be evaluated. -/
def tagBox : SecretBox Unit where
  sealBox m n _ := m ++ n.take 16
  openBox c n _ :=
    if (n.take 16).length = 16 ∧ n.take 16 <:+ c then some (c.take (c.length - 16)) else none

/-- What the box opens under a count was sealed under it. -/
theorem tagBox_open {c : Bytes} {n : UInt64} {m : Bytes}
    (h : tagBox.openBox c (getNonce n) () = some m) : c = tagBox.sealBox m (getNonce n) () := by
  simp only [tagBox, Option.ite_none_right_eq_some, Option.some.injEq] at h ⊢
  obtain ⟨⟨hlen, t, rfl⟩, rfl⟩ := h
  simp [hlen]

/-- A sealed frame tells its plaintext and its count. -/
theorem tagBox_seal_inj {m m' : Bytes} {n n' : UInt64}
    (h : tagBox.sealBox m (getNonce n) () = tagBox.sealBox m' (getNonce n') ()) :
    m = m' ∧ n = n' := by
  have htag : ∀ c, (getNonce c).take 16 = leBytes 8 c.toNat ++ List.replicate 8 0 := fun c => by
    rw [getNonce, List.take_append, List.take_of_length_le (by simp)]
    simp
  obtain ⟨hm, hn⟩ := List.append_inj' h (by simp)
  rw [htag, htag] at hn
  exact ⟨hm, UInt64.toNat_inj.mp (leBytes_inj n.toNat_lt n'.toNat_lt (List.append_cancel_right hn))⟩

theorem tagBox_correct : tagBox.Correct where
  open_seal m n _ hn := by simp [tagBox, hn]
  seal_length m n _ hn := by simp [tagBox, hn]

/-! ## The framed stream -/

/-- `FramedStream` over its read buffer: codec, bytes read from the socket and not yet decoded, and
the cipher once `set_key` has run. -/
structure FramedStream (K : Type*) where
  codec : BytesCodec
  readBuf : Bytes
  encrypt : Option (Encrypt K)
deriving DecidableEq

namespace FramedStream

variable {K : Type*} (box : SecretBox K)

def new : FramedStream K where
  codec := .new
  readBuf := []
  encrypt := none

def setKey (s : FramedStream K) (key : K) : FramedStream K :=
  { s with encrypt := some (Encrypt.new key) }

def setRaw (s : FramedStream K) : FramedStream K :=
  { s with codec := s.codec.setRaw, encrypt := none }

def isSecured (s : FramedStream K) : Bool := s.encrypt.isSome

/-- `send_raw`: seal if keyed, then frame. The result is what goes to the socket. An overlong frame
is refused by the codec after `enc` has counted it. -/
def sendRaw (s : FramedStream K) (msg : Bytes) : Except IoError Bytes × FramedStream K :=
  match s.encrypt with
  | some key =>
    let (msg, key) := key.enc box msg
    (s.codec.encode msg [], { s with encrypt := some key })
  | none => (s.codec.encode msg [], s)

/-- `send_bytes`: frame what is neither sealed nor counted. -/
def sendBytes (s : FramedStream K) (bytes : Bytes) : Except IoError Bytes := s.codec.encode bytes []

/-- The part of `next` behind the codec: open the frame if the stream is keyed. -/
def openFrame (s : FramedStream K) (bytes : Bytes) : Except IoError Bytes × FramedStream K :=
  match s.encrypt with
  | some key =>
    let (res, key) := key.dec box bytes
    (res, { s with encrypt := some key })
  | none => (.ok bytes, s)

/-- One poll of `next` on what has been read so far; `none` waits for more bytes. -/
def pollNext (s : FramedStream K) : Option (Except IoError Bytes) × FramedStream K :=
  match s.codec.decode s.readBuf with
  | (.ok none, codec, readBuf) => (none, { s with codec, readBuf })
  | (.error e, codec, readBuf) => (some (.error e), { s with codec, readBuf })
  | (.ok (some bytes), codec, readBuf) =>
    let (res, s) := openFrame box { s with codec, readBuf } bytes
    (some res, s)

variable {box}

/-- A keyed stream opens frames with its cipher. -/
theorem openFrame_keyed {s : FramedStream K} {e : Encrypt K} (hs : s.encrypt = some e) (bytes : Bytes) :
    s.openFrame box bytes
      = ((e.dec box bytes).1, { s with encrypt := some (e.dec box bytes).2 }) := by
  simp only [openFrame, hs]

/-- A keyed stream seals what it frames. -/
theorem sendRaw_keyed {s : FramedStream K} {e : Encrypt K} (hs : s.encrypt = some e) (msg : Bytes) :
    s.sendRaw box msg
      = (s.codec.encode (e.enc box msg).1 [], { s with encrypt := some (e.enc box msg).2 }) := by
  simp only [sendRaw, hs]

end FramedStream

end RustDesk.Net
