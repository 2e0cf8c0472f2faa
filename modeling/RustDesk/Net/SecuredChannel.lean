import RustDesk.Common.Run
import RustDesk.Net.BytesCodecStream
import RustDesk.Net.NonceReuse

/-!
# The keyed channel between two ends

Two `FramedStream`s over one connection, one byte pipe in each direction. An end sends, bytes of a
pipe arrive in pieces of any size, and an end polls, in any interleaving.

For each direction `InStep` relates sender, pipe and receiver: what is still to be decoded is exactly
the sealed messages that were not delivered yet, and either counter is the number of messages it
counted. Every step keeps it, so nothing is lost, reordered or refused
(`secured_channel_complete`).
-/

namespace RustDesk.Net

open BytesCodec

/-- A connection: the two streams, the bytes under way to each end, and what the history recorded:
the messages each end sent and the results of its `next`. -/
structure Channel (K : Type*) where
  stream : Side → FramedStream K
  wire : Side → Bytes
  sent : Side → List Bytes
  got : Side → List (Except IoError Bytes)

inductive ChannelAction
  | send (d : Side) (msg : Bytes)
  /-- Up to `n` bytes reach the read buffer of end `d`. -/
  | arrive (d : Side) (n : ℕ)
  | poll (d : Side)
deriving DecidableEq

namespace Channel

variable {K : Type*} (box : SecretBox K)

/-- Both ends have just called `set_key`. -/
def start (key : K) : Channel K where
  stream _ := FramedStream.new.setKey key
  wire _ := []
  sent _ := []
  got _ := []

/-- One step. A message that the codec refuses ends the connection, so it is no step. -/
def step (c : Channel K) : ChannelAction → Option (Channel K)
  | .send d msg =>
    match (c.stream d).sendRaw box msg with
    | (.ok frame, s) => some
      { c with
        stream := Function.update c.stream d s
        wire := Function.update c.wire d.other (c.wire d.other ++ frame)
        sent := Function.update c.sent d (c.sent d ++ [msg]) }
    | (.error _, _) => none
  | .arrive d n => some
    { c with
      stream := Function.update c.stream d
        { c.stream d with readBuf := (c.stream d).readBuf ++ (c.wire d).take n }
      wire := Function.update c.wire d ((c.wire d).drop n) }
  | .poll d =>
    match (c.stream d).pollNext box with
    | (none, s) => some { c with stream := Function.update c.stream d s }
    | (some res, s) => some
      { c with
        stream := Function.update c.stream d s
        got := Function.update c.got d (c.got d ++ [res]) }

end Channel

/-! ## One direction -/

section Direction

variable {K : Type*} {box : SecretBox K} {key : K}

/-- The frames a message list is sealed into under the counts one, two, three and so on. -/
def sealedFrames (box : SecretBox K) (key : K) (msgs : List Bytes) : List Bytes :=
  msgs.mapIdx fun i m => box.sealBox m (getNonce (UInt64.ofNat (i + 1))) key

@[simp] theorem sealedFrames_length (msgs : List Bytes) : (sealedFrames box key msgs).length = msgs.length := by
  simp [sealedFrames]

theorem sealedFrames_append (msgs : List Bytes) (m : Bytes) :
    sealedFrames box key (msgs ++ [m]) = sealedFrames box key msgs ++
      [box.sealBox m (getNonce (UInt64.ofNat (msgs.length + 1))) key] := by
  simp [sealedFrames, List.mapIdx_append]

/-- Sender `s`, receiver `r` and the bytes between them, after the messages `sent` went in and the
results `got` came out. -/
structure InStep (box : SecretBox K) (key : K) (s r : FramedStream K) (wire : Bytes)
    (sent : List Bytes) (got : List (Except IoError Bytes)) : Prop where
  seals : ∃ n, s.encrypt = some ⟨key, UInt64.ofNat sent.length, n⟩
  opens : ∃ n, r.encrypt = some ⟨key, n, UInt64.ofNat got.length⟩
  framing_send : Framing s.codec
  framing_recv : Framing r.codec
  delivered : got = (sent.take got.length).map .ok
  pending : decoder.drain r.codec (r.readBuf ++ wire)
    = ⟨(sealedFrames box key sent).drop got.length, none, .new, []⟩

namespace InStep

variable {s r s' r' : FramedStream K} {wire : Bytes} {sent : List Bytes}
  {got : List (Except IoError Bytes)}

theorem start : InStep box key (FramedStream.new.setKey key) (FramedStream.new.setKey key) [] [] [] where
  seals := ⟨0, rfl⟩
  opens := ⟨0, rfl⟩
  framing_send := rfl
  framing_recv := rfl
  delivered := rfl
  pending := StreamDecoder.drain_wait poll_new_nil

section

variable (h : InStep box key s r wire sent got)
include h

theorem got_length_le : got.length ≤ sent.length := by
  have hlen := congrArg List.length h.delivered
  rw [List.length_map, List.length_take] at hlen
  omega

/-- The sender may change in whatever does not touch what it sends. -/
theorem sender_congr (hframing : Framing s'.codec)
    (hseals : ∃ n, s'.encrypt = some ⟨key, UInt64.ofNat sent.length, n⟩) :
    InStep box key s' r wire sent got :=
  { h with seals := hseals, framing_send := hframing }

/-- The receiver may send: that touches neither its codec nor the counter of opened frames. -/
theorem receiver_congr (hcodec : r'.codec = r.codec) (hbuf : r'.readBuf = r.readBuf)
    (hopens : ∃ n, r'.encrypt = some ⟨key, n, UInt64.ofNat got.length⟩) :
    InStep box key s r' wire sent got where
  seals := h.seals
  opens := hopens
  framing_send := h.framing_send
  framing_recv := by rw [hcodec]; exact h.framing_recv
  delivered := h.delivered
  pending := by rw [hcodec, hbuf]; exact h.pending

/-- Bytes moving from the pipe to the read buffer change nothing. -/
theorem arrive (n : ℕ) :
    InStep box key s { r with readBuf := r.readBuf ++ wire.take n } (wire.drop n) sent got where
  seals := h.seals
  opens := h.opens
  framing_send := h.framing_send
  framing_recv := h.framing_recv
  delivered := h.delivered
  pending := by
    rw [List.append_assoc, List.take_append_drop]
    exact h.pending

end

end InStep

/-- A frame on its own is decoded by a fresh codec, whoever encoded it. -/
theorem drain_encode {c : BytesCodec} (hraw : Framing c) {p frame : Bytes}
    (h : c.encode p [] = .ok frame) : decoder.drain .new frame = ⟨[p], none, .new, []⟩ := by
  have hlen := length_le_of_encode hraw h
  have hnew : new.encode p [] = .ok frame := by
    rw [← h, encode, encode, show c.raw = false from hraw]
    rfl
  have hpoll := decode_encoded new_framing rfl (hlen.trans (by decide)) hlen hnew []
  rw [List.append_nil] at hpoll
  rw [StreamDecoder.drain_item hpoll, StreamDecoder.drain_wait poll_new_nil]
  rfl

namespace InStep

variable {s r s' r' : FramedStream K} {wire : Bytes} {sent : List Bytes}
  {got : List (Except IoError Bytes)}

/-- Sending puts one sealed message behind those that are still to be decoded. -/
theorem send (h : InStep box key s r wire sent got) {msg frame : Bytes}
    (hsend : s.sendRaw box msg = (.ok frame, s')) :
    InStep box key s' r (wire ++ frame) (sent ++ [msg]) got := by
  obtain ⟨n, hs⟩ := h.seals
  rw [FramedStream.sendRaw_keyed hs] at hsend
  obtain ⟨hframe, rfl⟩ := Prod.mk.inj hsend
  have hle := h.got_length_le
  have hdrain := decoder_incremental.drain_append h.framing_recv (r.readBuf ++ wire) frame (by rw [h.pending])
  rw [h.pending, List.nil_append, drain_encode h.framing_send hframe] at hdrain
  refine
    { seals := ⟨n, by simp⟩
      opens := h.opens
      framing_send := h.framing_send
      framing_recv := h.framing_recv
      delivered := by rw [List.take_append_of_le_length hle]; exact h.delivered
      pending := ?_ }
  rw [← List.append_assoc, hdrain, sealedFrames_append, List.drop_append_of_le_length (by simpa using hle)]
  simp [StreamDecoder.Outcome.prepend]

/-- Everything one poll of the receiver can do: wait because the next message has not arrived in
full, or deliver it. -/
theorem poll (hbox : box.Correct) (h : InStep box key s r wire sent got) :
    (∃ r', r.pollNext box = (none, r') ∧ InStep box key s r' wire sent got ∧
      (wire = [] → sent.length = got.length)) ∨
    ∃ m r', r.pollNext box = (some (.ok m), r') ∧ sent[got.length]? = some m ∧
      InStep box key s r' wire sent (got ++ [.ok m]) := by
  obtain ⟨n, hr⟩ := h.opens
  have hpending := h.pending
  rcases hd : r.codec.decode r.readBuf with ⟨_ | ⟨_ | x⟩, codec, readBuf⟩
  · -- the codec fails: then the whole stream would
    rw [StreamDecoder.drain_fail (decoder_incremental.fail wire h.framing_recv hd)] at hpending
    exact absurd (congrArg (·.error) hpending) (by simp)
  · have hdrain := decoder_incremental.drain_append_wait h.framing_recv hd wire
    refine Or.inl ⟨_, by rw [FramedStream.pollNext, hd], ?_, fun hwire => ?_⟩
    · exact
        { seals := h.seals
          opens := ⟨n, hr⟩
          framing_send := h.framing_send
          framing_recv := decode_framing h.framing_recv hd
          delivered := h.delivered
          pending := hdrain ▸ hpending }
    · have hempty := congrArg (·.items.length) hpending
      rw [hwire, List.append_nil, StreamDecoder.drain_wait hd] at hempty
      have hle := h.got_length_le
      simp only [List.length_nil, List.length_drop, sealedFrames_length] at hempty
      omega
  · rw [StreamDecoder.drain_item (decoder_incremental.item wire h.framing_recv hd)] at hpending
    -- the frame is the first pending one, so it opens under the receiver's next count
    have hitems := congrArg (·.items) hpending
    simp only [StreamDecoder.Outcome.prepend_items, List.singleton_append] at hitems
    have hlt : got.length < sent.length := by
      have hlen := congrArg List.length hitems
      simp only [List.length_cons, List.length_drop, sealedFrames_length] at hlen
      omega
    rw [List.drop_eq_getElem_cons (by simpa using hlt)] at hitems
    obtain ⟨hx, hrest⟩ := List.cons.inj hitems
    have hx : x = box.sealBox sent[got.length] (getNonce (UInt64.ofNat got.length + 1)) key := by
      simp [hx, sealedFrames]
    have hlong : 1 < x.length := by
      rw [hx, hbox.seal_length _ _ _ (getNonce_length _)]
      omega
    have hopen : r.pollNext box = (some (.ok sent[got.length]),
        { codec, readBuf, encrypt := some ⟨key, n, UInt64.ofNat got.length + 1⟩ }) := by
      rw [FramedStream.pollNext, hd]
      dsimp only
      rw [FramedStream.openFrame_keyed (s := { r with codec, readBuf }) hr, Encrypt.dec_long _ _ hlong]
      rw [hx, hbox.open_seal _ _ _ (getNonce_length _)]
    refine Or.inr ⟨_, _, hopen, List.getElem?_eq_getElem hlt, ?_⟩
    exact
      { seals := h.seals
        opens := ⟨n, by simp⟩
        framing_send := h.framing_send
        framing_recv := decode_framing h.framing_recv hd
        delivered := by
          rw [List.length_append, List.length_singleton, List.take_succ_eq_append_getElem hlt,
            List.map_append, ← h.delivered]
          rfl
        pending := by
          rw [List.length_append, List.length_singleton]
          have herr := congrArg (·.error) hpending
          have hstate := congrArg (·.state) hpending
          have hbuf := congrArg (·.buffer) hpending
          exact StreamDecoder.Outcome.ext hrest herr hstate hbuf }

end InStep

end Direction

/-! ## Both directions -/

/-- A poll leaves what its end sends alone: the codec keeps framing, key and counter of sealed
messages stand. -/
theorem FramedStream.pollNext_sender {K : Type*} {box : SecretBox K} {s s' : FramedStream K}
    {e : Encrypt K} {res} (hs : s.encrypt = some e) (hframing : Framing s.codec)
    (h : s.pollNext box = (res, s')) :
    Framing s'.codec ∧ ∃ n, s'.encrypt = some ⟨e.key, e.sendSeq, n⟩ := by
  rw [FramedStream.pollNext] at h
  rcases hd : s.codec.decode s.readBuf with ⟨_ | ⟨_ | x⟩, codec, readBuf⟩ <;> rw [hd] at h
  · cases h
    exact ⟨decode_framing hframing hd, e.recvSeq, hs⟩
  · cases h
    exact ⟨decode_framing hframing hd, e.recvSeq, hs⟩
  · dsimp only at h
    rw [FramedStream.openFrame_keyed (s := { s with codec, readBuf }) hs] at h
    cases h
    refine ⟨decode_framing hframing hd, (e.dec box x).2.recvSeq, ?_⟩
    by_cases hx : x.length ≤ 1
    · simp [Encrypt.dec_short box e hx]
    · simp [Encrypt.dec_long box e (show 1 < x.length by omega)]

namespace Channel

variable {K : Type*} {box : SecretBox K} {key : K}

/-- The direction towards end `d` is in step. -/
def Towards (box : SecretBox K) (key : K) (c : Channel K) (d : Side) : Prop :=
  InStep box key (c.stream d.other) (c.stream d) (c.wire d) (c.sent d.other) (c.got d)

/-- Sending serves the direction away from the sender and keeps the other one. -/
theorem towards_send {c : Channel K} (h : ∀ d, Towards box key c d) {d : Side} {msg frame : Bytes}
    {s : FramedStream K} (hsend : (c.stream d).sendRaw box msg = (.ok frame, s)) (d' : Side) :
    Towards box key
      { c with
        stream := Function.update c.stream d s
        wire := Function.update c.wire d.other (c.wire d.other ++ frame)
        sent := Function.update c.sent d (c.sent d ++ [msg]) } d' := by
  rcases d.eq_or_eq_other d' with rfl | rfl
  · obtain ⟨m, hr⟩ := (h d').opens
    rw [FramedStream.sendRaw_keyed hr] at hsend
    obtain ⟨-, rfl⟩ := Prod.mk.inj hsend
    have hdir : InStep box key (c.stream d'.other)
        { c.stream d' with encrypt := some ⟨key, m + 1, UInt64.ofNat (c.got d').length⟩ }
        (c.wire d') (c.sent d'.other) (c.got d') :=
      (h d').receiver_congr rfl rfl ⟨m + 1, rfl⟩
    simpa [Towards] using hdir
  · have hdir := h d.other
    rw [Towards, Side.other_other] at hdir
    simpa [Towards] using hdir.send hsend

/-- Arriving bytes serve the direction towards the end they reach. -/
theorem towards_arrive {c : Channel K} (h : ∀ d, Towards box key c d) (d : Side) (n : ℕ) (d' : Side) :
    Towards box key
      { c with
        stream := Function.update c.stream d
          { c.stream d with readBuf := (c.stream d).readBuf ++ (c.wire d).take n }
        wire := Function.update c.wire d ((c.wire d).drop n) } d' := by
  rcases d.eq_or_eq_other d' with rfl | rfl
  · simpa [Towards] using (h d').arrive n
  · have hdir := h d.other
    rw [Towards, Side.other_other] at hdir
    have hsender : InStep box key
        { c.stream d with readBuf := (c.stream d).readBuf ++ (c.wire d).take n }
        (c.stream d.other) (c.wire d.other) (c.sent d) (c.got d.other) :=
      hdir.sender_congr hdir.framing_send hdir.seals
    simpa [Towards] using hsender

/-- A poll serves the direction towards its end, and does not touch what the end sends. -/
theorem towards_poll (hbox : box.Correct) {c c' : Channel K} (h : ∀ d, Towards box key c d)
    {d : Side} (hstep : c.step box (.poll d) = some c') (d' : Side) : Towards box key c' d' := by
  obtain ⟨m, hr⟩ := (h d.other).seals
  rw [Side.other_other] at hr
  have hother := h d.other
  rw [Towards, Side.other_other] at hother
  rcases (h d).poll hbox with ⟨s, hpoll, hdir, -⟩ | ⟨msg, s, hpoll, -, hdir⟩ <;>
    obtain ⟨hframing, hseals⟩ := FramedStream.pollNext_sender hr (h d).framing_recv hpoll <;>
    simp only [step, hpoll, Option.some.injEq] at hstep <;>
    subst hstep <;>
    rcases d.eq_or_eq_other d' with rfl | rfl
  · simpa [Towards] using hdir
  · simpa [Towards] using hother.sender_congr hframing hseals
  · simpa [Towards] using hdir
  · simpa [Towards] using hother.sender_congr hframing hseals

/-- Every step keeps both directions in step. -/
theorem towards_step (hbox : box.Correct) (c : Channel K) (a : ChannelAction) (c' : Channel K)
    (h : ∀ d, Towards box key c d) (hstep : Steps (step box) c a c') :
    ∀ d, Towards box key c' d := by
  cases a with
  | send d msg =>
    rw [Steps, step] at hstep
    rcases hsend : (c.stream d).sendRaw box msg with ⟨_ | frame, s⟩ <;> rw [hsend] at hstep <;>
      cases hstep
    exact towards_send h hsend
  | arrive d n =>
    cases hstep
    exact towards_arrive h d n
  | poll d => exact towards_poll hbox h hstep

/-- **Completeness of the keyed channel.** Whatever the two ends send and poll and however the bytes
are cut, in every state the connection reaches and for each end `d`:
* the results of its `next` are all `Ok`, and are the messages of the other end in order, from the
  first on;
* the counters are the numbers of messages delivered to it and sent by the other end;
* once all bytes have arrived, the next poll delivers the next message, if there is one. -/
theorem secured_channel_complete (hbox : box.Correct) (key : K) {acts : List ChannelAction}
    {c : Channel K} (hrun : Run (Steps (step box)) (start key) acts c) (d : Side) :
    c.got d = ((c.sent d.other).take (c.got d).length).map .ok ∧
    (∃ n, (c.stream d).encrypt = some ⟨key, n, UInt64.ofNat (c.got d).length⟩) ∧
    (∃ n, (c.stream d.other).encrypt = some ⟨key, UInt64.ofNat (c.sent d.other).length, n⟩) ∧
    (c.wire d = [] →
      ((c.stream d).pollNext box).1 = ((c.sent d.other)[(c.got d).length]?).map .ok) := by
  have hstart : ∀ d, Towards box key (start key) d := fun _ => InStep.start
  have hdir := hrun.invariant (towards_step hbox) hstart d
  refine ⟨hdir.delivered, hdir.opens, hdir.seals, fun hwire => ?_⟩
  rcases hdir.poll hbox with ⟨s, hpoll, -, hall⟩ | ⟨m, s, hpoll, hm, -⟩
  · rw [hpoll, List.getElem?_eq_none (hall hwire).le]
    rfl
  · rw [hpoll, hm]
    rfl

/-- An empty message crosses in two pieces while its receiver sends one of its own. -/
theorem secured_channel_complete_crossing :
    ∃ c, exec (step tagBox) (start ())
        [.send .controlling [], .arrive .controlled 9, .poll .controlled, .send .controlled [7],
          .arrive .controlled 8, .poll .controlled] = some c ∧
      c.got .controlled = [.ok []] ∧
      c.got .controlled = ((c.sent .controlling).take (c.got .controlled).length).map .ok := by
  have hgot : (exec (step tagBox) (start ())
      [.send .controlling [], .arrive .controlled 9, .poll .controlled, .send .controlled [7],
        .arrive .controlled 8, .poll .controlled]).map (·.got .controlled) = some [.ok []] := by rfl
  obtain ⟨c, hrun, hc⟩ := Option.map_eq_some_iff.mp hgot
  exact ⟨c, hrun, hc,
    (secured_channel_complete tagBox_correct () (exec_eq_some_iff.mp hrun) .controlled).1⟩

end Channel

end RustDesk.Net
