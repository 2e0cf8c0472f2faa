import RustDesk.Net.SecuredChannel

/-!
# Frames, and raw bytes behind them

Reference: `libs/hbb_common/src/tcp.rs` (`set_raw`). Each end of a stream leaves the framing when it
calls `set_raw`, the one before the other. What is on its way to an end that still frames are the
frames of the messages it has not been given yet and, if the other end went raw, bytes behind them
(`Link`). A stream may be keyed or not.
-/

namespace RustDesk.Net

open BytesCodec

variable {K : Type*} {box : SecretBox K}

/-- The frames of the messages that a receiver has not been given yet. -/
def framesFrom (box : SecretBox K) : Option (Encrypt K) → List Bytes → List Bytes
  | _, [] => []
  | none, m :: ms => m :: framesFrom box none ms
  | some e, m :: ms =>
    let e := { e with recvSeq := e.recvSeq + 1 }
    box.sealBox m (getNonce e.recvSeq) e.key :: framesFrom box (some e) ms

theorem framesFrom_none (ms : List Bytes) : framesFrom box none ms = ms := by
  induction ms with
  | nil => rfl
  | cons m ms ih => rw [framesFrom, ih]

theorem framesFrom_append_none (ms : List Bytes) (m : Bytes) :
    framesFrom box none (ms ++ [m]) = framesFrom box none ms ++ [m] := by
  rw [framesFrom_none, framesFrom_none]

theorem framesFrom_append_some (e : Encrypt K) (ms : List Bytes) (m : Bytes) :
    framesFrom box (some e) (ms ++ [m]) = framesFrom box (some e) ms ++
      [box.sealBox m (getNonce (e.recvSeq + UInt64.ofNat ms.length + 1)) e.key] := by
  induction ms generalizing e with
  | nil => simp [framesFrom]
  | cons m' ms ih =>
    have hcount : e.recvSeq + 1 + UInt64.ofNat ms.length + 1
        = e.recvSeq + UInt64.ofNat (ms.length + 1) + 1 := by
      rw [UInt64.ofNat_add, UInt64.ofNat_one, UInt64.add_assoc e.recvSeq, UInt64.add_comm 1]
    simp only [List.cons_append, framesFrom, ih, hcount, List.length_cons]

/-- What is on its way to `r`, in its read buffer and on the wire: the frames of `pending`, and `raw`
bytes behind them. -/
structure Link (box : SecretBox K) (r : FramedStream K) (wire : Bytes) (pending : List Bytes)
    (raw : Bytes) : Prop where
  framing : Framing r.codec
  front : ∃ front, r.readBuf ++ wire = front ++ raw ∧
    decoder.drain r.codec front = ⟨framesFrom box r.encrypt pending, none, .new, []⟩

/-- `s` frames, and seals as `r` will open after the messages still to come. -/
structure Sealing (s r : FramedStream K) (pending : ℕ) : Prop where
  framing : Framing s.codec
  keyed : s.encrypt = none ∧ r.encrypt = none ∨
    ∃ e e' : Encrypt K, s.encrypt = some e ∧ r.encrypt = some e' ∧ e.key = e'.key ∧
      e.sendSeq = e'.recvSeq + UInt64.ofNat pending

/-! ## Framing receivers -/

namespace Link

variable {s s' r r' : FramedStream K} {wire : Bytes} {pending : List Bytes} {raw : Bytes}

theorem of_new (h : r.codec = .new) (hbuf : r.readBuf = []) : Link box r [] [] [] where
  framing := by
    rw [h]
    exact new_framing
  front := ⟨[], by rw [hbuf, List.nil_append], by
    rw [h]
    exact StreamDecoder.drain_wait poll_new_nil⟩

section

variable (h : Link box r wire pending raw)
include h

theorem arrive (n : ℕ) : Link box { r with readBuf := r.readBuf ++ wire.take n } (wire.drop n) pending raw where
  framing := h.framing
  front := by
    rw [List.append_assoc, List.take_append_drop]
    exact h.front

/-- The receiver may send, or the key of its own messages may count. -/
theorem congr (hcodec : r'.codec = r.codec) (hbuf : r'.readBuf = r.readBuf)
    (hkey : framesFrom box r'.encrypt pending = framesFrom box r.encrypt pending) :
    Link box r' wire pending raw where
  framing := by
    rw [hcodec]
    exact h.framing
  front := by
    rw [hcodec, hbuf, hkey]
    exact h.front

/-- Raw bytes go behind all that is on its way. -/
theorem sendBytes (bytes : Bytes) : Link box r (wire ++ bytes) pending (raw ++ bytes) where
  framing := h.framing
  front := by
    obtain ⟨front, hfront, hdrain⟩ := h.front
    exact ⟨front, by rw [← List.append_assoc, hfront, List.append_assoc], hdrain⟩

end

/-- Sending a message puts its frame behind the others. -/
theorem send (h : Link box r wire pending []) (hs : Sealing s r pending.length) {msg frame : Bytes}
    (hsend : s.sendRaw box msg = (.ok frame, s')) :
    Link box r (wire ++ frame) (pending ++ [msg]) [] := by
  obtain ⟨front, hfront, hdrain⟩ := h.front
  rw [List.append_nil] at hfront
  have happend (payload : Bytes) (hframe : s.codec.encode payload [] = .ok frame) :
      decoder.drain r.codec (front ++ frame)
        = ⟨framesFrom box r.encrypt pending ++ [payload], none, .new, []⟩ := by
    have hmore := decoder_incremental.drain_append h.framing front frame (by rw [hdrain])
    rw [hdrain, List.nil_append, drain_encode hs.framing hframe] at hmore
    exact hmore
  refine ⟨h.framing, front ++ frame, by rw [List.append_nil, ← List.append_assoc, hfront], ?_⟩
  obtain ⟨hs, hr⟩ | ⟨e, e', hs, hr, hkey, hseq⟩ := hs.keyed
  · simp only [FramedStream.sendRaw, hs, Prod.mk.injEq] at hsend
    rw [happend msg hsend.1, hr, framesFrom_append_none]
  · rw [FramedStream.sendRaw_keyed hs, Prod.mk.injEq, Encrypt.enc_fst, hkey, hseq] at hsend
    rw [happend _ hsend.1, hr, framesFrom_append_some]

end Link

/-- A codec that waits on a buffer and ends up fresh was fresh, and had nothing to read. -/
theorem decode_wait_new {c : BytesCodec} {src : Bytes} (hraw : Framing c)
    (h : decode c src = (.ok none, .new, [])) : c = .new ∧ src = [] := by
  cases hc : c.state with
  | head =>
    rw [decode_head hraw hc] at h
    rcases decodeHead_cases c src with hd | ⟨b₀, tail, rfl, -, ⟨-, hd⟩ | ⟨-, hd⟩⟩ <;> rw [hd] at h
    · obtain ⟨-, rfl, rfl⟩ := Prod.mk.injEq .. ▸ h
      exact ⟨rfl, rfl⟩
    · cases h
    · obtain ⟨hcodec, -⟩ := decodeBody_wait h
      cases hcodec
  | data n =>
    rw [decode_data hraw hc] at h
    obtain ⟨rfl, -⟩ := decodeBody_wait h
    cases hc

namespace Link

variable {r r' : FramedStream K} {wire : Bytes} {pending : List Bytes} {raw : Bytes}

/-- With no message to come, only raw bytes are. -/
theorem eq_raw (h : Link box r wire [] raw) : r.readBuf ++ wire = raw ∧ r.codec = .new := by
  obtain ⟨front, hfront, hdrain⟩ := h.front
  have hempty : framesFrom box r.encrypt [] = [] := by cases r.encrypt <;> rfl
  rw [hempty] at hdrain
  rcases hpoll : decode r.codec front with ⟨e | _ | x, codec, rest⟩
  · rw [StreamDecoder.drain_fail hpoll] at hdrain
    cases hdrain
  · rw [StreamDecoder.drain_wait hpoll] at hdrain
    obtain ⟨-, -, rfl, rfl⟩ := StreamDecoder.Outcome.mk.injEq .. ▸ hdrain
    obtain ⟨hnew, rfl⟩ := decode_wait_new h.framing hpoll
    exact ⟨hfront, hnew⟩
  · rw [StreamDecoder.drain_item hpoll] at hdrain
    exact absurd (congrArg (·.items) hdrain) (by simp)

/-- A poll of the codec while a frame is to come: it waits, or gives that frame. -/
theorem decode_cons {c : BytesCodec} {buf front : Bytes} {frame : Bytes} {frames : List Bytes}
    (hraw : Framing c) (hfront : buf ++ wire = front ++ raw)
    (hdrain : decoder.drain c front = ⟨frame :: frames, none, .new, []⟩) :
    ∃ c' rest, (decode c buf = (.ok none, c', rest) ∧ ∃ front', rest ++ wire = front' ++ raw ∧
          decoder.drain c' front' = ⟨frame :: frames, none, .new, []⟩) ∨
      decode c buf = (.ok (some frame), c', rest) ∧ ∃ front', rest ++ wire = front' ++ raw ∧
          decoder.drain c' front' = ⟨frames, none, .new, []⟩ := by
  have hitem {c' : BytesCodec} {x rest : Bytes} (hpoll : decode c front = (.ok (some x), c', rest)) :
      x = frame ∧ decoder.drain c' rest = ⟨frames, none, .new, []⟩ := by
    rw [StreamDecoder.drain_item hpoll] at hdrain
    have hitems := congrArg (·.items) hdrain
    simp only [StreamDecoder.Outcome.prepend_items, List.singleton_append, List.cons.injEq]
      at hitems
    exact ⟨hitems.1, StreamDecoder.Outcome.ext hitems.2 (congrArg (·.error) hdrain)
      (congrArg (·.state) hdrain) (congrArg (·.buffer) hdrain)⟩
  rcases List.append_eq_append_iff.mp hfront with ⟨more, rfl, rfl⟩ | ⟨beyond, rfl, rfl⟩
  · -- the buffer ends within the frames
    rcases hpoll : decode c buf with ⟨e | _ | x, c', rest⟩
    · rw [StreamDecoder.drain_fail (decoder_incremental.fail more hraw hpoll)] at hdrain
      cases hdrain
    · refine ⟨c', rest, .inl ⟨rfl, rest ++ more, by rw [List.append_assoc], ?_⟩⟩
      rw [← decoder_incremental.drain_append_wait hraw hpoll, hdrain]
    · obtain ⟨rfl, hrest⟩ := hitem (decoder_incremental.item more hraw hpoll)
      exact ⟨c', rest, .inr ⟨rfl, rest ++ more, by rw [List.append_assoc], hrest⟩⟩
  · -- the buffer holds the frames and the beginning of the raw bytes
    rcases hpoll : decode c front with ⟨e | _ | x, c', rest⟩
    · rw [StreamDecoder.drain_fail hpoll] at hdrain
      cases hdrain
    · rw [StreamDecoder.drain_wait hpoll] at hdrain
      cases hdrain
    · obtain ⟨rfl, hrest⟩ := hitem hpoll
      refine ⟨c', rest ++ beyond, .inr ⟨decoder_incremental.item beyond hraw hpoll, rest, ?_, hrest⟩⟩
      rw [List.append_assoc]

/-- **A poll while a message is to come**: it waits, or gives that message. -/
theorem poll_cons (hbox : box.Correct) {m : Bytes} {ms : List Bytes} (h : Link box r wire (m :: ms) raw) :
    ∃ r', (r.pollNext box = (none, r') ∧ r'.encrypt = r.encrypt ∧ Link box r' wire (m :: ms) raw) ∨
      r.pollNext box = (some (.ok m), r') ∧
        r'.encrypt = r.encrypt.map (fun e => { e with recvSeq := e.recvSeq + 1 }) ∧
        Link box r' wire ms raw := by
  obtain ⟨front, hfront, hdrain⟩ := h.front
  have hpoll {frame : Bytes} {frames : List Bytes}
      (hframes : framesFrom box r.encrypt (m :: ms) = frame :: frames) :=
    decode_cons h.framing hfront (hframes ▸ hdrain)
  cases hkey : r.encrypt with
  | none =>
    rw [hkey] at hpoll
    obtain ⟨c', rest, ⟨hdecode, hrest⟩ | ⟨hdecode, hrest⟩⟩ := hpoll rfl
    · refine ⟨{ r with codec := c', readBuf := rest }, .inl ⟨?_, hkey, ?_, ?_⟩⟩
      · rw [FramedStream.pollNext, hdecode]
      · exact decode_framing h.framing hdecode
      · simpa only [hkey, framesFrom] using hrest
    · refine ⟨{ r with codec := c', readBuf := rest }, .inr ⟨?_, hkey, ?_, ?_⟩⟩
      · simp only [FramedStream.pollNext, hdecode, FramedStream.openFrame, hkey]
      · exact decode_framing h.framing hdecode
      · simpa only [hkey, framesFrom] using hrest
  | some e =>
    rw [hkey] at hpoll
    obtain ⟨c', rest, ⟨hdecode, hrest⟩ | ⟨hdecode, hrest⟩⟩ := hpoll rfl
    · refine ⟨{ r with codec := c', readBuf := rest }, .inl ⟨?_, hkey, ?_, ?_⟩⟩
      · rw [FramedStream.pollNext, hdecode]
      · exact decode_framing h.framing hdecode
      · simpa only [hkey, framesFrom] using hrest
    · have hlong : 1 < (box.sealBox m (getNonce (e.recvSeq + 1)) e.key).length := by
        rw [hbox.seal_length _ _ _ (getNonce_length _)]
        omega
      refine ⟨⟨c', rest, some { e with recvSeq := e.recvSeq + 1 }⟩, .inr ⟨?_, rfl, ?_, ?_⟩⟩
      · rw [FramedStream.pollNext, hdecode]
        dsimp only
        rw [FramedStream.openFrame_keyed (s := { r with codec := c', readBuf := rest }) hkey,
          Encrypt.dec_long _ _ hlong]
        rw [hbox.open_seal _ _ _ (getNonce_length _)]
      · exact decode_framing h.framing hdecode
      · exact hrest

/-- With no message and no raw byte to come, a poll waits. -/
theorem poll_nil (h : Link box r wire [] []) : r.pollNext box = (none, r) := by
  obtain ⟨hempty, hcodec⟩ := h.eq_raw
  have hbuf : r.readBuf = [] := (List.append_eq_nil_iff.mp hempty).1
  obtain ⟨codec, readBuf, encrypt⟩ := r
  subst hcodec hbuf
  rfl

end Link

/-! ## Raw receivers -/

/-- After `set_raw` all that was read is given as it is. -/
theorem FramedStream.pollNext_raw {r : FramedStream K} (hraw : r.codec.raw = true) (hkey : r.encrypt = none) :
    r.pollNext box
      = if r.readBuf = [] then (none, r) else (some (.ok r.readBuf), { r with readBuf := [] }) := by
  by_cases hbuf : r.readBuf = []
  · rw [if_pos hbuf, pollNext, decode, if_pos hraw, if_pos (by rw [hbuf]; rfl)]
  · have hempty : r.readBuf.isEmpty = false := by
      rw [List.isEmpty_eq_false_iff]
      exact hbuf
    rw [if_neg hbuf, pollNext, decode, if_pos hraw, hempty]
    simp only [Bool.false_eq_true, if_false, openFrame, hkey]

/-! ## Senders -/

namespace Sealing

variable {s s' r r' : FramedStream K} {n : ℕ}

/-- One more message is to come. -/
theorem send (h : Sealing s r n) {msg frame : Bytes} (hsend : s.sendRaw box msg = (.ok frame, s')) :
    Sealing s' r (n + 1) := by
  obtain ⟨hs, hr⟩ | ⟨e, e', hs, hr, hkey, hseq⟩ := h.keyed
  · simp only [FramedStream.sendRaw, hs, Prod.mk.injEq] at hsend
    obtain ⟨-, rfl⟩ := hsend
    exact ⟨h.framing, .inl ⟨hs, hr⟩⟩
  · rw [FramedStream.sendRaw_keyed hs, Prod.mk.injEq] at hsend
    obtain ⟨-, rfl⟩ := hsend
    refine ⟨h.framing, .inr ⟨_, e', rfl, hr, hkey, ?_⟩⟩
    rw [Encrypt.enc_snd, hseq, UInt64.ofNat_add, UInt64.ofNat_one, UInt64.add_assoc]

/-- One message less is to come. -/
theorem deliver (h : Sealing s r (n + 1))
    (hkey : r'.encrypt = r.encrypt.map fun e => { e with recvSeq := e.recvSeq + 1 }) :
    Sealing s r' n := by
  obtain ⟨hs, hr⟩ | ⟨e, e', hs, hr, hsame, hseq⟩ := h.keyed
  · exact ⟨h.framing, .inl ⟨hs, by rw [hkey, hr]; rfl⟩⟩
  · refine ⟨h.framing, .inr ⟨e, { e' with recvSeq := e'.recvSeq + 1 }, hs, by rw [hkey, hr]; rfl, hsame, ?_⟩⟩
    rw [hseq, UInt64.ofNat_add, UInt64.ofNat_one, UInt64.add_comm (UInt64.ofNat n), UInt64.add_assoc]

/-- The receiver may count what it seals, the sender what it opens. -/
theorem congr (h : Sealing s r n) (hframing : Framing s'.codec)
    (hs : s'.encrypt.map (fun e => (e.key, e.sendSeq)) = s.encrypt.map fun e => (e.key, e.sendSeq))
    (hr : r'.encrypt.map (fun e => (e.key, e.recvSeq)) = r.encrypt.map fun e => (e.key, e.recvSeq)) :
    Sealing s' r' n := by
  refine ⟨hframing, ?_⟩
  obtain ⟨hs₀, hr₀⟩ | ⟨e, e', hs₀, hr₀, hsame, hseq⟩ := h.keyed
  · rw [hs₀] at hs
    rw [hr₀] at hr
    exact .inl ⟨Option.map_eq_none_iff.mp hs, Option.map_eq_none_iff.mp hr⟩
  · rw [hs₀] at hs
    rw [hr₀] at hr
    obtain ⟨e₁, hs₁, he₁⟩ := Option.map_eq_some_iff.mp hs
    obtain ⟨e₂, hr₁, he₂⟩ := Option.map_eq_some_iff.mp hr
    rw [Prod.mk.injEq] at he₁ he₂
    exact .inr ⟨e₁, e₂, hs₁, hr₁, by rw [he₁.1, he₂.1, hsame], by rw [he₁.2, he₂.2, hseq]⟩

end Sealing

/-! ## One direction of a stream, over its whole life -/

/-- How far an end is: it frames, it went raw, or it is done with the stream. -/
inductive Phase
  | framed
  | raw
  | ended
deriving DecidableEq

/-- From `s` to `r`: `pending` messages and raw bytes are under way, the raw bytes that `s` sent are
`sent`, and `r` wrote `written` of them on. -/
structure Flow (box : SecretBox K) (sPhase rPhase : Phase) (s r : FramedStream K) (wire : Bytes)
    (pending : List Bytes) (sent written : Bytes) : Prop where
  framed_sender : sPhase = .framed → Framing s.codec ∧ sent = []
  raw_sender : sPhase = .raw → s.codec.raw = true ∧ s.encrypt = none
  framed_receiver : rPhase = .framed → Link box r wire pending sent
  raw_receiver : rPhase = .raw → r.codec.raw = true ∧ r.encrypt = none ∧ pending = [] ∧
    written ++ (r.readBuf ++ wire) = sent
  sealing : sPhase = .framed → rPhase = .framed → Sealing s r pending.length
  written_framed : rPhase = .framed → written = []
  written_prefix : written <+: sent

namespace Flow

variable {sPhase rPhase : Phase} {s s' r r' : FramedStream K} {wire : Bytes} {pending : List Bytes}
  {sent written : Bytes}

/-- The key and the counter that a stream seals under. -/
def sealer (s : FramedStream K) : Option (K × UInt64) := s.encrypt.map fun e => (e.key, e.sendSeq)

/-- The key and the counter that a stream opens under. -/
def opener (r : FramedStream K) : Option (K × UInt64) := r.encrypt.map fun e => (e.key, e.recvSeq)

theorem framesFrom_congr (h : opener r' = opener r) (ms : List Bytes) :
    framesFrom box r'.encrypt ms = framesFrom box r.encrypt ms := by
  have hfrom (ms : List Bytes) : ∀ e e' : Encrypt K, e'.key = e.key → e'.recvSeq = e.recvSeq →
      framesFrom box (some e') ms = framesFrom box (some e) ms := by
    induction ms with
    | nil => exact fun _ _ _ _ => rfl
    | cons m ms ih =>
      intro e e' hkey hseq
      simp only [framesFrom, hkey, hseq]
      exact congrArg _ (ih _ _ rfl rfl)
  unfold opener at h
  cases hr : r.encrypt with
  | none =>
    rw [hr] at h
    rw [Option.map_eq_none_iff.mp h]
  | some e =>
    rw [hr] at h
    obtain ⟨e', hr', he⟩ := Option.map_eq_some_iff.mp h
    rw [Prod.mk.injEq] at he
    rw [hr', hfrom ms e e' he.1 he.2]

section

variable (h : Flow box sPhase rPhase s r wire pending sent written)
include h

/-- The sender may open messages of the other direction. -/
theorem sender_congr (hraw : s'.codec.raw = s.codec.raw) (hs : sealer s' = sealer s) :
    Flow box sPhase rPhase s' r wire pending sent written := by
  have hframed : sPhase = .framed → Framing s'.codec ∧ sent = [] := by
    intro hf
    exact ⟨hraw.trans (h.framed_sender hf).1, (h.framed_sender hf).2⟩
  refine { h with framed_sender := hframed, raw_sender := ?_, sealing := ?_ }
  · intro hp
    obtain ⟨hcodec, hkey⟩ := h.raw_sender hp
    refine ⟨hraw.trans hcodec, ?_⟩
    rw [sealer, sealer, hkey] at hs
    exact Option.map_eq_none_iff.mp hs
  · exact fun hf hr => (h.sealing hf hr).congr (hframed hf).1 hs rfl

/-- The receiver may seal messages of the other direction. -/
theorem receiver_congr (hcodec : r'.codec = r.codec) (hbuf : r'.readBuf = r.readBuf) (hr : opener r' = opener r) :
    Flow box sPhase rPhase s r' wire pending sent written := by
  refine { h with framed_receiver := ?_, raw_receiver := ?_, sealing := ?_ }
  · exact fun hf => (h.framed_receiver hf).congr hcodec hbuf (framesFrom_congr hr pending)
  · intro hp
    obtain ⟨hraw, hkey, hpending, hsent⟩ := h.raw_receiver hp
    rw [opener, opener, hkey] at hr
    exact ⟨by rw [hcodec, hraw], Option.map_eq_none_iff.mp hr, hpending, by rw [hbuf, hsent]⟩
  · exact fun hf hp => (h.sealing hf hp).congr (h.framed_sender hf).1 rfl hr

/-- Bytes of the wire reach the receiver. -/
theorem arrive (n : ℕ) :
    Flow box sPhase rPhase s { r with readBuf := r.readBuf ++ wire.take n } (wire.drop n) pending
      sent written where
  framed_sender := h.framed_sender
  raw_sender := h.raw_sender
  framed_receiver hf := (h.framed_receiver hf).arrive n
  raw_receiver hp := by
    obtain ⟨hraw, hkey, hpending, hsent⟩ := h.raw_receiver hp
    exact ⟨hraw, hkey, hpending, by rw [List.append_assoc r.readBuf, List.take_append_drop, hsent]⟩
  sealing hf hp := (h.sealing hf hp).congr (h.framed_sender hf).1 rfl rfl
  written_framed := h.written_framed
  written_prefix := h.written_prefix

end

/-- A message is sent, while the other end does not take it for raw bytes. -/
theorem send (h : Flow box .framed rPhase s r wire pending sent written) (hrecv : rPhase ≠ .raw)
    {msg frame : Bytes} (hsend : s.sendRaw box msg = (.ok frame, s')) :
    Flow box .framed rPhase s' r (wire ++ frame) (pending ++ [msg]) sent written := by
  obtain ⟨hframing, hsent⟩ := h.framed_sender rfl
  have hcodec : s'.codec = s.codec := by
    unfold FramedStream.sendRaw at hsend
    split at hsend <;> exact (congrArg (·.2.codec) hsend).symm
  refine ⟨fun _ => ⟨by rw [hcodec]; exact hframing, hsent⟩, nofun, ?_, fun hp => absurd hp hrecv, ?_,
    h.written_framed, h.written_prefix⟩
  · intro hf
    have hlink := h.framed_receiver hf
    rw [hsent] at hlink ⊢
    exact hlink.send (h.sealing rfl hf) hsend
  · intro _ hf
    rw [List.length_append]
    exact (h.sealing rfl hf).send hsend

/-- Raw bytes are sent. -/
theorem sendBytes (h : Flow box .raw rPhase s r wire pending sent written) (bytes : Bytes) :
    Flow box .raw rPhase s r (wire ++ bytes) pending (sent ++ bytes) written where
  framed_sender := nofun
  raw_sender := h.raw_sender
  framed_receiver hf := (h.framed_receiver hf).sendBytes bytes
  raw_receiver hp := by
    obtain ⟨hraw, hkey, hpending, hsent⟩ := h.raw_receiver hp
    refine ⟨hraw, hkey, hpending, ?_⟩
    rw [← List.append_assoc r.readBuf, ← List.append_assoc written, hsent]
  sealing := nofun
  written_framed := h.written_framed
  written_prefix := h.written_prefix.trans (List.prefix_append _ _)

/-- The sender calls `set_raw`. -/
theorem sender_setRaw (h : Flow box sPhase rPhase s r wire pending sent written) :
    Flow box .raw rPhase s.setRaw r wire pending sent written :=
  { h with framed_sender := nofun, raw_sender := fun _ => ⟨rfl, rfl⟩, sealing := nofun }

/-- The receiver calls `set_raw`, with no message under way. -/
theorem receiver_setRaw (h : Flow box sPhase .framed s r wire [] sent written) :
    Flow box sPhase .raw s r.setRaw wire [] sent written where
  framed_sender := h.framed_sender
  raw_sender := h.raw_sender
  framed_receiver := nofun
  raw_receiver _ := by
    refine ⟨rfl, rfl, rfl, ?_⟩
    rw [h.written_framed rfl]
    exact (h.framed_receiver rfl).eq_raw.1
  sealing := nofun
  written_framed := nofun
  written_prefix := h.written_prefix

section

variable (h : Flow box sPhase rPhase s r wire pending sent written)
include h

/-- The sender is done with the stream. -/
theorem sender_ended : Flow box .ended rPhase s' r wire pending sent written :=
  { h with framed_sender := nofun, raw_sender := nofun, sealing := nofun }

/-- The receiver is done with the stream. -/
theorem receiver_ended : Flow box sPhase .ended s r' wire pending sent written :=
  { h with framed_receiver := nofun, raw_receiver := nofun, sealing := nofun, written_framed := nofun }

end

/-- **A poll of a framing receiver** while a message is to come: it waits, or gives that message. -/
theorem poll (hbox : box.Correct) {m : Bytes} {ms : List Bytes}
    (h : Flow box sPhase .framed s r wire (m :: ms) sent written) :
    ∃ r', r'.codec.raw = false ∧ sealer r' = sealer r ∧
      (r.pollNext box = (none, r') ∧ Flow box sPhase .framed s r' wire (m :: ms) sent written ∨
        r.pollNext box = (some (.ok m), r') ∧ Flow box sPhase .framed s r' wire ms sent written) := by
  obtain ⟨r', ⟨hpoll, hkey, hlink⟩ | ⟨hpoll, hkey, hlink⟩⟩ := (h.framed_receiver rfl).poll_cons hbox
  · refine ⟨r', hlink.framing, by rw [sealer, sealer, hkey], .inl ⟨hpoll, ?_⟩⟩
    refine { h with framed_receiver := fun _ => hlink, raw_receiver := nofun, sealing := ?_ }
    exact fun hf _ => (h.sealing hf rfl).congr (h.framed_sender hf).1 rfl (by rw [hkey])
  · have hsealer : sealer r' = sealer r := by
      rw [sealer, sealer, hkey, Option.map_map]
      rfl
    refine ⟨r', hlink.framing, hsealer, .inr ⟨hpoll, ?_⟩⟩
    refine { h with framed_receiver := fun _ => hlink, raw_receiver := nofun, sealing := ?_ }
    exact fun hf _ => (h.sealing hf rfl).deliver hkey

/-- With nothing to come, a poll of a framing receiver waits. -/
theorem poll_nil (h : Flow box sPhase .framed s r wire [] [] written) :
    r.pollNext box = (none, r) := (h.framed_receiver rfl).poll_nil

/-- **A poll of a raw receiver** gives all that arrived. -/
theorem poll_raw (h : Flow box sPhase .raw s r wire pending sent written) : r.pollNext box = (none, r) ∨
      r.pollNext box = (some (.ok r.readBuf), { r with readBuf := [] }) ∧
        Flow box sPhase .raw s { r with readBuf := [] } wire pending sent (written ++ r.readBuf) := by
  obtain ⟨hraw, hkey, hpending, hsent⟩ := h.raw_receiver rfl
  rw [FramedStream.pollNext_raw hraw hkey]
  by_cases hbuf : r.readBuf = []
  · exact .inl (if_pos hbuf)
  · have hall : written ++ r.readBuf ++ wire = sent := by rw [List.append_assoc, hsent]
    have hprefix : written ++ r.readBuf <+: sent := hall ▸ List.prefix_append _ _
    exact .inr ⟨if_neg hbuf, h.framed_sender, h.raw_sender, nofun,
      fun _ => ⟨hraw, hkey, hpending, hall⟩, nofun, nofun, hprefix⟩

end Flow

end RustDesk.Net
