import RustDesk.Common.Checked
import RustDesk.Common.Run

/-!
# Playing the audio of a peer

References: `src/client.rs` (`AudioBuffer`, `AudioHandler`: `start_audio`, `handle_format`, `handle_frame`,
`build_output_stream`, without Linux) and `src/common.rs` (`audio_resample` with dasp, `audio_rechannel`).

Samples are counted, not computed. The audio thread handles formats and frames, and the callback of the output stream
runs next to it, so that an event of the thread is one lock section of the ring buffer; a stream that starts takes the
place of the one before it at once. The number of frames of a decoded packet, what comes out of a change of channels,
which devices there are and whether a stream can be built are part of the events.
-/

namespace RustDesk.Client

/-- `AUDIO_BUFFER_MS` -/
def audioBufferMs : ℕ := 3000

/-- The ring buffer: how many samples have been appended since it was made, and how many of them have left it. -/
structure AudioRing where
  capacity : ℕ
  front : ℕ
  appended : ℕ
  front_le : front ≤ appended
  appended_le : appended ≤ front + capacity
deriving DecidableEq

namespace AudioRing

/-- `HeapRb::new`, which panics without a capacity. -/
def new (capacity : ℕ) : MayPanic AudioRing :=
  if capacity = 0 then .error .panicked else .ok ⟨capacity, 0, 0, Nat.zero_le _, Nat.zero_le _⟩

variable (r : AudioRing) (n : ℕ)

def occupiedLen : ℕ := r.appended - r.front

/-- Drop the oldest samples, or pop them. -/
def skip : AudioRing :=
  ⟨r.capacity, r.front + min n r.occupiedLen, r.appended, by
    have hfront := r.front_le
    unfold occupiedLen
    omega, by
    have happended := r.appended_le
    omega⟩

def pushSliceOverwrite : AudioRing :=
  ⟨r.capacity, max r.front (r.appended + n - r.capacity), r.appended + n, by
    have hfront := r.front_le
    omega, by omega⟩

end AudioRing

/-- `AudioBuffer`: the ring, the samples of a second and the statistics of how full the ring is. -/
structure AudioBuffer where
  ring : AudioRing
  perSecond : ℕ
  counters : List ℕ

/-- The loop of `try_shrink` over the counters, `zeros` being `zero`. -/
structure WaterMarks where
  counters : List ℕ
  zeros : ℕ
  max : ℕ

def WaterMarks.turn (marks : WaterMarks) (i : ℕ) : MayPanic WaterMarks :=
  (MayPanic.index marks.counters i).bind fun ci =>
    (MayPanic.index marks.counters marks.max).bind fun cmax =>
      let zeros := if ci = 0 ∧ marks.zeros = i then marks.zeros + 1 else marks.zeros
      if cmax < ci then .ok ⟨marks.counters.set marks.max 0, zeros, i⟩
      else .ok ⟨marks.counters.set i 0, zeros, marks.max⟩

def WaterMarks.turns : List ℕ → WaterMarks → MayPanic WaterMarks
  | [], marks => .ok marks
  | i :: is, marks => (marks.turn i).bind (turns is)

/-- The mark that the samples to drop are computed from, if there are any to drop. -/
def WaterMarks.drop (marks : WaterMarks) : Option ℕ :=
  let zeros := marks.zeros * 2 / 3
  if marks.max < 6 then none else some (if zeros * 4 < marks.max then zeros * 4 else marks.max)

/-- `(cap * max / (30 * N) + 1) & (!1)` -/
def skipFor (capacity mark : ℕ) : ℕ := (capacity * mark / (30 * 4) + 1) / 2 * 2

namespace AudioBuffer

def default : AudioBuffer :=
  ⟨⟨48000 * 2 * audioBufferMs / 1000, 0, 0, Nat.zero_le _, Nat.zero_le _⟩, 48000 * 2, List.replicate 30 0⟩

variable (b : AudioBuffer)

def resize (sampleRate channels : ℕ) : MayPanic AudioBuffer :=
  let capacity := sampleRate * channels * audioBufferMs / 1000
  if capacity ≠ b.ring.capacity then
    (AudioRing.new capacity).bind fun ring => .ok { b with ring, perSecond := sampleRate * channels }
  else .ok b

/-- `append_pcm2` of so many samples, and how many the ring has then. -/
def appendPcm2 (len : ℕ) : AudioBuffer × ℕ :=
  if b.ring.capacity < len then
    ({ b with ring := b.ring.pushSliceOverwrite len }, b.ring.capacity)
  else
    let having := b.ring.occupiedLen + len
    let ring := if b.ring.capacity < having then b.ring.skip (having - b.ring.capacity) else b.ring
    let ring := ring.pushSliceOverwrite len
    ({ b with ring }, ring.occupiedLen)

/-- The statistics with one more entry. -/
def count (having : ℕ) : MayPanic (List ℕ) :=
  (MayPanic.div (having * 10) b.perSecond).bind fun i => MayPanic.modifyAt b.counters (min i 29) (· + 1)

/-- What is dropped for a mark. -/
def shrink (mark : ℕ) : AudioRing :=
  let skip := skipFor b.ring.capacity mark
  if skip * 3 < b.ring.occupiedLen ∧ 0 < skip then b.ring.skip skip else b.ring

/-- `try_shrink`. Whether twelve seconds have passed since the last time comes from a clock and a static variable. -/
def tryShrink (having : ℕ) (due : Bool) : MayPanic AudioBuffer :=
  (b.count having).bind fun counters =>
    if due then
      (WaterMarks.turns (List.range 30) ⟨counters, 0, 0⟩).bind fun marks =>
        (MayPanic.modifyAt marks.counters marks.max fun _ => 0).bind fun counters =>
          match marks.drop with
          | none => .ok { b with counters }
          | some mark => .ok { b with counters, ring := b.shrink mark }
    else .ok { b with counters }

end AudioBuffer

/-- `audio_resample`, by the number of samples. -/
def audioResample (len sampleRate0 sampleRate channels : ℕ) : MayPanic ℕ :=
  (MayPanic.div len channels).bind fun n =>
    (MayPanic.div (n * sampleRate) sampleRate0).bind fun n =>
      if channels = 2 then .ok (n * 2) else .ok n

/-- `audio_rechannel`, with the number of frames that come out. -/
def audioRechannel (len inChan outputChan frames : ℕ) : MayPanic ℕ :=
  if inChan = outputChan then .ok len
  else
    (MayPanic.div len inChan).bind fun n =>
      if (1 ≤ inChan ∧ inChan ≤ 8) ∧ 1 ≤ outputChan ∧ outputChan ≤ 8 then .ok (outputChan * frames)
      else .ok (n * inChan)

/-- The rates that Opus decodes to. -/
def opusRates : List ℕ := [8000, 12000, 16000, 24000, 48000]

/-- An Opus decoder and the buffer it decodes to. -/
structure AudioDecoder where
  sampleRate : ℕ
  channels : ℕ
  bufferLen : ℕ
deriving DecidableEq

/-- What `decode_float` can return: at most 120 ms, and what fits. -/
def AudioDecoder.Decodes (d : AudioDecoder) (frames : ℕ) : Prop :=
  frames ≤ d.sampleRate * 120 / 1000 ∧ frames * d.channels ≤ d.bufferLen

instance (d : AudioDecoder) (frames : ℕ) : Decidable (d.Decodes frames) := inferInstanceAs (Decidable (_ ∧ _))

/-- The configuration of an output stream. -/
structure StreamConfig where
  sampleRate : ℕ
  channels : ℕ
deriving DecidableEq

/-- The default output device, with whether its sample format is one of those that are known. -/
structure OutputDevice where
  config : StreamConfig
  supported : Bool
deriving DecidableEq

/-- Where the audio thread is: between two messages, before or behind the resizing of the buffer for a stream (with the
channels of the streams still to try), or before the shrinking of the buffer. -/
inductive AudioThread
  | idle
  | resizing (channels : ℕ) (rest : List ℕ)
  | opening (rest : List ℕ)
  | shrinking (having : ℕ)
deriving DecidableEq

/-- `AudioHandler`, with the stream by its configuration. -/
structure AudioHandler where
  audioDecoder : Option AudioDecoder
  audioBuffer : AudioBuffer
  sampleRate : ℕ × ℕ
  audioStream : Option StreamConfig
  channels : ℕ
  deviceChannel : ℕ
  ready : Bool
  thread : AudioThread

inductive AudioEvent
  | format (sampleRate channels : UInt32) (device : Option OutputDevice)
  | resize
  | opened (ok : Bool)
  | frame (frames rechanneled : ℕ)
  | shrink (due : Bool)
  | callback (frames : ℕ)
deriving DecidableEq

namespace AudioHandler

def default : AudioHandler := ⟨none, .default, (0, 0), none, 0, 0, false, .idle⟩

variable (s : AudioHandler)

/-- `start_audio`, up to the first stream. -/
def startAudio (sampleRate channels : ℕ) : Option OutputDevice → AudioHandler
  | none => s
  | some device =>
    let s := { s with sampleRate := (sampleRate, device.config.sampleRate) }
    if device.supported then
      { s with
        thread :=
          if channels < device.config.channels then .resizing channels [device.config.channels]
          else .resizing device.config.channels [] }
    else s

def handleFormat (sampleRate channels : ℕ) (device : Option OutputDevice) : AudioHandler :=
  if sampleRate ∈ opusRates then
    let decoder := ⟨sampleRate, if 1 < channels then 2 else 1, sampleRate * channels⟩
    let s := { s with audioDecoder := some decoder, channels := channels % 2 ^ 16 }
    s.startAudio sampleRate (channels % 2 ^ 16) device
  else s

/-- `handle_frame`, up to the shrinking. -/
def handleFrame (d : AudioDecoder) (frames rechanneled : ℕ) : MayPanic AudioHandler :=
  let n := frames * s.channels
  let (sampleRate0, sampleRate) := s.sampleRate
  (if n ≤ d.bufferLen then .ok n else .error .indexOutOfRange : MayPanic ℕ).bind fun n =>
    (if sampleRate ≠ sampleRate0 then audioResample n sampleRate0 sampleRate s.channels else .ok n).bind fun n =>
      (if s.channels ≠ s.deviceChannel then audioRechannel n s.channels s.deviceChannel rechanneled
        else .ok n).bind fun n =>
        let (audioBuffer, having) := s.audioBuffer.appendPcm2 n
        .ok { s with audioBuffer, thread := .shrinking having }

/-- One event, `none` if it cannot come now. A device has 1 to 8 channels and a positive rate, and a stream asks for
whole frames. -/
def step : AudioEvent → Option (MayPanic AudioHandler)
  | .format sampleRate channels device =>
    if s.thread = .idle ∧ device.all (fun d => decide (0 < d.config.sampleRate ∧ 1 ≤ d.config.channels ∧
      d.config.channels ≤ 8)) then
      some (.ok (s.handleFormat sampleRate.toNat channels.toNat device))
    else none
  | .resize =>
    match s.thread with
    | .resizing channels rest =>
      some ((s.audioBuffer.resize s.sampleRate.2 channels).bind fun audioBuffer =>
        .ok { s with deviceChannel := channels, audioBuffer, thread := .opening rest })
    | _ => none
  | .opened ok =>
    match s.thread with
    | .opening rest =>
      if ok then
        some (.ok { s with audioStream := some ⟨s.sampleRate.2, s.deviceChannel⟩, thread := .idle })
      else
        match rest with
        | [] => some (.ok { s with thread := .idle })
        | channels :: rest => some (.ok { s with thread := .resizing channels rest })
    | _ => none
  | .frame frames rechanneled =>
    if s.thread = .idle then
      match s.audioStream, s.ready, s.audioDecoder with
      | some _, true, some d => if d.Decodes frames then some (s.handleFrame d frames rechanneled) else none
      | _, _, _ => some (.ok s)
    else none
  | .shrink due =>
    match s.thread with
    | .shrinking having =>
      some ((s.audioBuffer.tryShrink having due).bind fun audioBuffer => .ok { s with audioBuffer, thread := .idle })
    | _ => none
  | .callback frames =>
    s.audioStream.map fun config =>
      let ring := s.audioBuffer.ring.skip (frames * config.channels)
      .ok { s with ready := true, audioBuffer := { s.audioBuffer with ring } }

/-- An event that goes well. -/
def Step (s : AudioHandler) (e : AudioEvent) (t : AudioHandler) : Prop := s.step e = some (.ok t)

/-- What keeps playback from crashing and frames in place. -/
def Harmless : AudioEvent → Prop
  /- The peer announces channels, and no more than there is room for. -/
  | .format sampleRate channels _ => sampleRate.toNat ∈ opusRates →
    1 ≤ channels.toNat ∧ sampleRate.toNat * channels.toNat ≤ 48000 * 8
  /- A new stream finds whole frames, and none that fails leaves another one behind. -/
  | .opened ok =>
    (ok = true → s.deviceChannel ∣ s.audioBuffer.ring.front ∧ s.deviceChannel ∣ s.audioBuffer.ring.appended) ∧
      (ok = false → s.thread = .opening [] →
        ∀ config, s.audioStream = some config → config = ⟨s.sampleRate.2, s.deviceChannel⟩)
  /- A resampled frame is whole; so is one whose channels cannot be changed to those of the device. -/
  | .frame frames _ =>
    if s.channels ≤ 8 then
      s.sampleRate.1 = s.sampleRate.2 ∨ s.channels ≤ 2 ∨ s.channels ≠ s.deviceChannel ∨
        s.deviceChannel ∣ frames * s.sampleRate.2 / s.sampleRate.1
    else
      s.deviceChannel ∣ (if s.sampleRate.1 = s.sampleRate.2 then frames
        else frames * s.sampleRate.2 / s.sampleRate.1 / s.channels) * s.channels
  /- The even number of samples that is dropped is one of whole frames. -/
  | .shrink due => due = true → ∀ having counters marks mark, s.thread = .shrinking having →
    s.audioBuffer.count having = .ok counters → WaterMarks.turns (List.range 30) ⟨counters, 0, 0⟩ = .ok marks →
      marks.drop = some mark → skipFor s.audioBuffer.ring.capacity mark * 3 < s.audioBuffer.ring.occupiedLen →
        s.deviceChannel ∣ skipFor s.audioBuffer.ring.capacity mark
  | _ => True

/-- What is meant by playback that neither crashes nor scrambles. -/
structure PlaysWell : Prop where
  decode_buffer : ∀ d, s.audioDecoder = some d → d.bufferLen ≤ 48000 * 8
  fine : ∀ e r, s.Harmless e → s.step e = some r → MayPanic.Fine r
  ring : ∀ config, s.audioStream = some config →
    s.audioBuffer.ring.occupiedLen * 1000 ≤ config.sampleRate * config.channels * audioBufferMs
  aligned : ∀ config, s.audioStream = some config → config.channels ∣ s.audioBuffer.ring.front

end AudioHandler

/-! ## The ring -/

namespace AudioRing

variable {r : AudioRing} {n c : ℕ}

theorem dvd_skip (hfront : c ∣ r.front) (happended : c ∣ r.appended) (hn : c ∣ n) : c ∣ (r.skip n).front := by
  have hlen : c ∣ r.occupiedLen := Nat.dvd_sub happended hfront
  show c ∣ r.front + min n r.occupiedLen
  rcases Nat.le_total n r.occupiedLen with hle | hle
  · rw [Nat.min_eq_left hle]
    exact Nat.dvd_add hfront hn
  · rw [Nat.min_eq_right hle]
    exact Nat.dvd_add hfront hlen

theorem dvd_pushSliceOverwrite (hfront : c ∣ r.front) (happended : c ∣ r.appended) (hn : c ∣ n)
    (hcapacity : c ∣ r.capacity) :
    c ∣ (r.pushSliceOverwrite n).front ∧ c ∣ (r.pushSliceOverwrite n).appended := by
  refine ⟨?_, Nat.dvd_add happended hn⟩
  show c ∣ max r.front (r.appended + n - r.capacity)
  rcases Nat.le_total r.front (r.appended + n - r.capacity) with hle | hle
  · rw [Nat.max_eq_right hle]
    exact Nat.dvd_sub (Nat.dvd_add happended hn) hcapacity
  · rw [Nat.max_eq_left hle]
    exact hfront

theorem occupiedLen_skip_le : (r.skip n).occupiedLen ≤ r.occupiedLen := by
  show r.appended - (r.front + min n r.occupiedLen) ≤ r.appended - r.front
  omega

theorem occupiedLen_le : r.occupiedLen ≤ r.capacity := by
  have happended := r.appended_le
  unfold occupiedLen
  omega

end AudioRing

namespace AudioBuffer

variable {b : AudioBuffer} {len c : ℕ}

theorem capacity_appendPcm2 : (b.appendPcm2 len).1.ring.capacity = b.ring.capacity := by
  unfold appendPcm2
  split
  · rfl
  · dsimp only
    split <;> rfl

theorem perSecond_appendPcm2 : (b.appendPcm2 len).1.perSecond = b.perSecond := by
  unfold appendPcm2
  split <;> rfl

theorem counters_appendPcm2 : (b.appendPcm2 len).1.counters = b.counters := by
  unfold appendPcm2
  split <;> rfl

/-- **What is appended in whole frames stays in whole frames**, also where the ring overflows. -/
theorem dvd_appendPcm2 (hfront : c ∣ b.ring.front) (happended : c ∣ b.ring.appended) (hlen : c ∣ len)
    (hcapacity : c ∣ b.ring.capacity) :
    c ∣ (b.appendPcm2 len).1.ring.front ∧ c ∣ (b.appendPcm2 len).1.ring.appended := by
  unfold appendPcm2
  split
  · exact AudioRing.dvd_pushSliceOverwrite hfront happended hlen hcapacity
  · dsimp only
    split
    · have hhaving : c ∣ b.ring.occupiedLen + len - b.ring.capacity :=
        Nat.dvd_sub (Nat.dvd_add (Nat.dvd_sub happended hfront) hlen) hcapacity
      exact AudioRing.dvd_pushSliceOverwrite (AudioRing.dvd_skip hfront happended hhaving) happended hlen hcapacity
    · exact AudioRing.dvd_pushSliceOverwrite hfront happended hlen hcapacity

theorem count_ok (hpos : 0 < b.perSecond) (hcounters : b.counters.length = 30) (having : ℕ) :
    ∃ counters, b.count having = .ok counters ∧ counters.length = 30 := by
  refine ⟨b.counters.modify (min (having * 10 / b.perSecond) 29) (· + 1), ?_, ?_⟩
  · rw [count, MayPanic.div_ok (Nat.ne_of_gt hpos)]
    exact if_pos (by omega)
  · rw [List.length_modify, hcounters]

end AudioBuffer

namespace WaterMarks

theorem turn_ok {marks : WaterMarks} {i : ℕ} (hcounters : marks.counters.length = 30) (hmax : marks.max < 30)
    (hi : i < 30) :
    ∃ marks', marks.turn i = .ok marks' ∧ marks'.counters.length = 30 ∧ marks'.max < 30 := by
  have hindex : ∀ j < 30, ∃ n, MayPanic.index marks.counters j = .ok n := by
    intro j hj
    exact ⟨_, MayPanic.index_eq_ok.mpr (List.getElem?_eq_getElem (by omega))⟩
  obtain ⟨ci, hci⟩ := hindex i hi
  obtain ⟨cmax, hcmax⟩ := hindex marks.max hmax
  rw [turn, hci, Except.bind, hcmax, Except.bind]
  dsimp only
  split
  · exact ⟨_, rfl, by rw [List.length_set, hcounters], hi⟩
  · exact ⟨_, rfl, by rw [List.length_set, hcounters], hmax⟩

/-- **The loop** stays inside its counters. -/
theorem turns_ok {is : List ℕ} {marks : WaterMarks} (hcounters : marks.counters.length = 30) (hmax : marks.max < 30)
    (his : ∀ i ∈ is, i < 30) :
    ∃ marks', turns is marks = .ok marks' ∧ marks'.counters.length = 30 ∧ marks'.max < 30 := by
  induction is generalizing marks with
  | nil => exact ⟨marks, rfl, hcounters, hmax⟩
  | cons i is ih =>
    rw [List.forall_mem_cons] at his
    obtain ⟨marks', hturn, hcounters', hmax'⟩ := turn_ok hcounters hmax his.1
    rw [turns, hturn]
    exact ih hcounters' hmax' his.2

end WaterMarks

namespace AudioBuffer

variable {b : AudioBuffer}

/-- **`try_shrink`** does not panic, and drops what the statistics say or nothing. -/
theorem tryShrink_ok (hpos : 0 < b.perSecond) (hcounters : b.counters.length = 30) (having : ℕ) (due : Bool) :
    ∃ b', b.tryShrink having due = .ok b' ∧ b'.counters.length = 30 ∧ b'.perSecond = b.perSecond ∧
      (b'.ring = b.ring ∨ due = true ∧ ∃ counters marks mark, b.count having = .ok counters ∧
        WaterMarks.turns (List.range 30) ⟨counters, 0, 0⟩ = .ok marks ∧ marks.drop = some mark ∧
          skipFor b.ring.capacity mark * 3 < b.ring.occupiedLen ∧
            b'.ring = b.ring.skip (skipFor b.ring.capacity mark)) := by
  obtain ⟨counters, hcount, hlength⟩ := count_ok hpos hcounters having
  rw [tryShrink, hcount, Except.bind]
  cases due with
  | false => exact ⟨_, rfl, hlength, rfl, .inl rfl⟩
  | true =>
    obtain ⟨marks, hturns, hlength', hmax⟩ :=
      @WaterMarks.turns_ok (List.range 30) ⟨counters, 0, 0⟩ hlength (show 0 < 30 by decide) fun i hi =>
        List.mem_range.mp hi
    have hset : MayPanic.modifyAt marks.counters marks.max (fun _ => 0) =
        .ok (marks.counters.modify marks.max fun _ => 0) := if_pos (by omega)
    rw [if_pos rfl, hturns, Except.bind, hset, Except.bind]
    cases hdrop : marks.drop with
    | none => exact ⟨_, rfl, by rw [List.length_modify, hlength'], rfl, .inl rfl⟩
    | some mark =>
      refine ⟨_, rfl, by rw [List.length_modify, hlength'], rfl, ?_⟩
      show b.shrink mark = b.ring ∨ _
      unfold shrink
      dsimp only
      split
      · next hskip => exact .inr ⟨rfl, counters, marks, mark, rfl, hturns, hdrop, hskip.1, rfl⟩
      · exact .inl rfl

end AudioBuffer

/-! ## Whole frames -/

theorem audioResample_ok {len sampleRate0 sampleRate channels frames : ℕ} (hlen : len = frames * channels)
    (hchannels : 0 < channels) (hrate : 0 < sampleRate0) :
    audioResample len sampleRate0 sampleRate channels =
      .ok (if channels = 2 then frames * sampleRate / sampleRate0 * 2 else frames * sampleRate / sampleRate0) := by
  rw [audioResample, hlen, MayPanic.div_ok (Nat.ne_of_gt hchannels), Nat.mul_div_cancel _ hchannels, Except.bind,
    MayPanic.div_ok (Nat.ne_of_gt hrate), Except.bind]
  split <;> rfl

/-- A change of channels gives whole frames. -/
theorem audioRechannel_ok {len inChan outputChan frames : ℕ} (hne : inChan ≠ outputChan) (hin : 1 ≤ inChan)
    (hin' : inChan ≤ 8) (hout : 1 ≤ outputChan) (hout' : outputChan ≤ 8) :
    audioRechannel len inChan outputChan frames = .ok (outputChan * frames) := by
  rw [audioRechannel, if_neg hne, MayPanic.div_ok (Nat.ne_of_gt hin), Except.bind]
  exact if_pos ⟨⟨hin, hin'⟩, hout, hout'⟩

/-- With too many channels there is only the last frame to cut. -/
theorem audioRechannel_many {len inChan outputChan frames : ℕ} (hne : inChan ≠ outputChan) (hin : ¬inChan ≤ 8) :
    audioRechannel len inChan outputChan frames = .ok (len / inChan * inChan) := by
  rw [audioRechannel, if_neg hne, MayPanic.div_ok (by omega), Except.bind]
  exact if_neg fun h => hin h.1.2

namespace AudioHandler

variable {s t : AudioHandler}

/-- The thread is not in the middle of a format. -/
def Settled (s : AudioHandler) : Prop := s.thread = .idle ∨ ∃ having, s.thread = .shrinking having

structure Inv (s : AudioHandler) : Prop where
  counters : s.audioBuffer.counters.length = 30
  perSecond_pos : 0 < s.audioBuffer.perSecond
  capacity : s.audioBuffer.ring.capacity = s.audioBuffer.perSecond * 3
  decoder : ∀ d, s.audioDecoder = some d →
    d.bufferLen ≤ 48000 * 8 ∧ 1 ≤ s.channels ∧ d.sampleRate * s.channels ≤ d.bufferLen
  aligned : ∀ config, s.audioStream = some config →
    config.channels ∣ s.audioBuffer.ring.front ∧ config.channels ∣ s.audioBuffer.ring.appended
  bound : ∀ config, s.audioStream = some config →
    s.audioBuffer.ring.occupiedLen ≤ config.sampleRate * config.channels * 3
  rate : s.sampleRate.1 = 0 → s.audioStream = none ∧ s.thread = .idle
  settled : s.Settled → ∀ config, s.audioStream = some config → config.channels = s.deviceChannel ∧
    1 ≤ s.deviceChannel ∧ s.deviceChannel ≤ 8 ∧ config.sampleRate * config.channels = s.audioBuffer.perSecond
  resizing : ∀ channels rest, s.thread = .resizing channels rest →
    0 < s.sampleRate.2 ∧ ∀ c ∈ channels :: rest, 1 ≤ c ∧ c ≤ 8
  opening : ∀ rest, s.thread = .opening rest →
    0 < s.sampleRate.2 ∧ (∀ c ∈ s.deviceChannel :: rest, 1 ≤ c ∧ c ≤ 8) ∧
      s.sampleRate.2 * s.deviceChannel = s.audioBuffer.perSecond

theorem default_inv : default.Inv where
  counters := rfl
  perSecond_pos := by decide
  capacity := rfl
  decoder := nofun
  aligned := nofun
  bound := nofun
  rate _ := ⟨rfl, rfl⟩
  settled _ := nofun
  resizing := nofun
  opening := nofun

theorem le_of_mem_opusRates {sampleRate : ℕ} (h : sampleRate ∈ opusRates) : 8000 ≤ sampleRate := by
  have hall : ∀ rate ∈ opusRates, 8000 ≤ rate := by decide
  exact hall sampleRate h

/-- A format. -/
theorem Inv.handleFormat (h : s.Inv) (hidle : s.thread = .idle) {sampleRate channels : ℕ} {device : Option OutputDevice}
    (hdevice : ∀ d, device = some d → 0 < d.config.sampleRate ∧ 1 ≤ d.config.channels ∧ d.config.channels ≤ 8)
    (hharmless : sampleRate ∈ opusRates → 1 ≤ channels ∧ sampleRate * channels ≤ 48000 * 8) :
    (s.handleFormat sampleRate channels device).Inv := by
  unfold AudioHandler.handleFormat
  split
  · next hrate =>
    have hrate' := le_of_mem_opusRates hrate
    obtain ⟨hchannels, hroom⟩ := hharmless hrate
    have hfew : channels ≤ 48 := by
      have hle : 8000 * channels ≤ sampleRate * channels := Nat.mul_le_mul_right _ hrate'
      omega
    have hmod : channels % 2 ^ 16 = channels := Nat.mod_eq_of_lt (by omega)
    have hdecoder : ∀ d,
        some (⟨sampleRate, if 1 < channels then 2 else 1, sampleRate * channels⟩ : AudioDecoder) = some d →
        d.bufferLen ≤ 48000 * 8 ∧ 1 ≤ channels ∧ d.sampleRate * channels ≤ d.bufferLen := by
      intro d hd
      cases hd
      exact ⟨hroom, hchannels, le_refl _⟩
    rw [hmod]
    cases device with
    | none => exact { h with decoder := hdecoder }
    | some d =>
      obtain ⟨hpos, hlow, hhigh⟩ := hdevice d rfl
      unfold startAudio
      dsimp only
      split
      · refine { h with
          decoder := hdecoder, rate := fun hzero => ?_, settled := ?_, resizing := ?_, opening := ?_ }
        · exact absurd (show sampleRate = 0 from hzero) (by omega)
        · rintro (hsettled | ⟨having, hsettled⟩)
          all_goals
            dsimp only at hsettled
            split at hsettled <;> cases hsettled
        · intro c rest hthread
          refine ⟨hpos, ?_⟩
          dsimp only at hthread
          split at hthread
          · cases hthread
            simp only [List.forall_mem_cons]
            exact ⟨⟨hchannels, by omega⟩, ⟨hlow, hhigh⟩, by simp⟩
          · cases hthread
            simp only [List.forall_mem_cons]
            exact ⟨⟨hlow, hhigh⟩, by simp⟩
        · intro rest hthread
          dsimp only at hthread
          split at hthread <;> cases hthread
      · refine { h with decoder := hdecoder, rate := fun hzero => absurd (show sampleRate = 0 from hzero) (by omega)
                        settled := h.settled, resizing := ?_, opening := ?_ }
        · intro c rest hthread
          rw [hidle] at hthread
          cases hthread
        · intro rest hthread
          rw [hidle] at hthread
          cases hthread
  · exact h

/-- The resizing. -/
theorem Inv.resize (h : s.Inv) {channels : ℕ} {rest : List ℕ} (hthread : s.thread = .resizing channels rest) :
    ∃ audioBuffer, s.audioBuffer.resize s.sampleRate.2 channels = .ok audioBuffer ∧
      Inv { s with deviceChannel := channels, audioBuffer, thread := .opening rest } := by
  obtain ⟨hrate, hchannels⟩ := h.resizing channels rest hthread
  have hpos : 0 < s.sampleRate.2 * channels := Nat.mul_pos hrate (hchannels channels (List.mem_cons_self ..)).1
  have hcapacity : s.sampleRate.2 * channels * audioBufferMs / 1000 = s.sampleRate.2 * channels * 3 := by
    unfold audioBufferMs
    omega
  have hopening : ∀ {b : AudioBuffer}, s.sampleRate.2 * channels = b.perSecond →
      ∀ rest', AudioThread.opening rest = .opening rest' →
      0 < s.sampleRate.2 ∧ (∀ c ∈ channels :: rest', 1 ≤ c ∧ c ≤ 8) ∧ s.sampleRate.2 * channels = b.perSecond := by
    rintro b hproduct rest' ⟨⟩
    exact ⟨hrate, hchannels, hproduct⟩
  have hunsettled : ¬ Settled { s with deviceChannel := channels, thread := .opening rest } := by
    rintro (hsettled | ⟨having, hsettled⟩) <;> cases hsettled
  have hrate0 : s.sampleRate.1 ≠ 0 := by
    intro hzero
    have hidle := (h.rate hzero).2
    rw [hthread] at hidle
    cases hidle
  unfold AudioBuffer.resize
  dsimp only
  rw [hcapacity]
  split
  · have hnew : AudioRing.new (s.sampleRate.2 * channels * 3) =
        .ok ⟨s.sampleRate.2 * channels * 3, 0, 0, Nat.zero_le _, Nat.zero_le _⟩ := if_neg (by omega)
    rw [hnew]
    exact ⟨_, rfl, { h with
      perSecond_pos := hpos, capacity := rfl
      aligned := fun config _ => ⟨Nat.dvd_zero _, Nat.dvd_zero _⟩
      bound := fun config _ => Nat.zero_le _
      rate := fun hzero => absurd hzero hrate0
      settled := fun hsettled => absurd hsettled hunsettled
      resizing := nofun
      opening := hopening rfl }⟩
  · next hsame =>
    rw [not_not, h.capacity] at hsame
    exact ⟨_, rfl, { h with
      rate := fun hzero => absurd hzero hrate0
      settled := fun hsettled => absurd hsettled hunsettled
      resizing := nofun
      opening := hopening (show s.sampleRate.2 * channels = s.audioBuffer.perSecond by omega) }⟩

/-- The samples of a frame after resampling are those of whole frames, unless their channels are changed next. -/
theorem resampled_ok {frames rechanneled : ℕ} (hchannels : 1 ≤ s.channels) (hrate : 0 < s.sampleRate.1)
    (hharmless : s.Harmless (.frame frames rechanneled)) :
    ∃ k, (if s.sampleRate.2 ≠ s.sampleRate.1 then
        audioResample (frames * s.channels) s.sampleRate.1 s.sampleRate.2 s.channels
      else .ok (frames * s.channels)) = .ok k ∧
      (s.channels ≤ 8 → s.channels = s.deviceChannel → s.deviceChannel ∣ k) ∧
      (¬s.channels ≤ 8 → s.deviceChannel ∣ k / s.channels * s.channels) := by
  simp only [Harmless] at hharmless
  by_cases hrates : s.sampleRate.2 ≠ s.sampleRate.1
  · refine ⟨_, (if_pos hrates).trans (audioResample_ok rfl hchannels hrate), fun hfew hsame => ?_, fun hmany => ?_⟩
    · rw [if_pos hfew] at hharmless
      split
      · next htwo =>
        rw [← hsame, htwo]
        exact Nat.dvd_mul_left ..
      · next htwo =>
        rcases hharmless with heq | hfew | hne | hwhole
        · exact absurd heq.symm hrates
        · have hone : s.deviceChannel = 1 := by omega
          rw [hone]
          exact Nat.one_dvd _
        · exact absurd hsame hne
        · exact hwhole
    · have htwo : ¬s.channels = 2 := by omega
      rw [if_neg htwo]
      rw [if_neg hmany, if_neg (Ne.symm hrates)] at hharmless
      exact hharmless
  · refine ⟨_, if_neg hrates, fun _ hsame => ?_, fun hmany => ?_⟩
    · rw [hsame]
      exact Nat.dvd_mul_left ..
    · rw [Nat.mul_div_cancel _ hchannels]
      rw [if_neg hmany, if_pos (not_not.mp hrates).symm] at hharmless
      exact hharmless

theorem rechanneled_ok {k rechanneled : ℕ} (hchannels : 1 ≤ s.channels) (hlow : 1 ≤ s.deviceChannel)
    (hhigh : s.deviceChannel ≤ 8) (hwhole : s.channels ≤ 8 → s.channels = s.deviceChannel → s.deviceChannel ∣ k)
    (hmany : ¬s.channels ≤ 8 → s.deviceChannel ∣ k / s.channels * s.channels) :
    ∃ n, (if s.channels ≠ s.deviceChannel then audioRechannel k s.channels s.deviceChannel rechanneled
      else .ok k) = .ok n ∧ s.deviceChannel ∣ n := by
  by_cases hne : s.channels ≠ s.deviceChannel
  · by_cases hfew : s.channels ≤ 8
    · exact ⟨_, (if_pos hne).trans (audioRechannel_ok hne hchannels hfew hlow hhigh), Nat.dvd_mul_right ..⟩
    · exact ⟨_, (if_pos hne).trans (audioRechannel_many hne hfew), hmany hfew⟩
  · rw [not_not] at hne
    exact ⟨k, if_neg (not_not.mpr hne), hwhole (by omega) hne⟩

section

variable (h : s.Inv)
include h

/-- A frame. -/
theorem Inv.handleFrame (hidle : s.thread = .idle) {config : StreamConfig}
    (hstream : s.audioStream = some config) {d : AudioDecoder} (hdecoder : s.audioDecoder = some d)
    {frames rechanneled : ℕ} (hdecodes : d.Decodes frames) (hharmless : s.Harmless (.frame frames rechanneled)) :
    ∃ t, s.handleFrame d frames rechanneled = .ok t ∧ t.Inv := by
  obtain ⟨hdevice, hlow, hhigh, hproduct⟩ := h.settled (.inl hidle) config hstream
  obtain ⟨-, hchannels, hroom⟩ := h.decoder d hdecoder
  have hrate : 0 < s.sampleRate.1 := by
    refine Nat.pos_of_ne_zero fun hzero => ?_
    rw [(h.rate hzero).1] at hstream
    cases hstream
  -- 120 ms are part of the second that the buffer has room for
  have hslice : frames * s.channels ≤ d.bufferLen := by
    have hle : frames ≤ d.sampleRate := by
      have hfew := hdecodes.1
      omega
    exact (Nat.mul_le_mul_right _ hle).trans hroom
  -- what is appended is whole frames
  have hlen : ∃ n, s.deviceChannel ∣ n ∧ s.handleFrame d frames rechanneled = .ok { s with
        audioBuffer := (s.audioBuffer.appendPcm2 n).1, thread := .shrinking (s.audioBuffer.appendPcm2 n).2 } := by
    obtain ⟨k, hk, hwhole, hmany⟩ := resampled_ok hchannels hrate hharmless
    obtain ⟨n, hn, hdvd⟩ := @rechanneled_ok s k rechanneled hchannels hlow hhigh hwhole hmany
    refine ⟨n, hdvd, ?_⟩
    unfold AudioHandler.handleFrame
    dsimp only
    rw [if_pos hslice, Except.bind, hk, Except.bind, hn]
    rfl
  obtain ⟨n, hn, heq⟩ := hlen
  refine ⟨_, heq, ?_⟩
  have haligned := h.aligned config hstream
  rw [hdevice] at haligned
  have hcapacity : s.deviceChannel ∣ s.audioBuffer.ring.capacity := by
    rw [h.capacity, ← hproduct, hdevice]
    exact Nat.dvd_mul_right_of_dvd (Nat.dvd_mul_left ..) 3
  have happended := AudioBuffer.dvd_appendPcm2 haligned.1 haligned.2 hn hcapacity
  have hcapacity' := @AudioBuffer.capacity_appendPcm2 s.audioBuffer n
  exact { h with
    counters := by
      rw [AudioBuffer.counters_appendPcm2]
      exact h.counters
    perSecond_pos := by
      rw [AudioBuffer.perSecond_appendPcm2]
      exact h.perSecond_pos
    capacity := by
      rw [AudioBuffer.capacity_appendPcm2, AudioBuffer.perSecond_appendPcm2]
      exact h.capacity
    aligned := by
      intro config' hconfig'
      cases hstream.symm.trans hconfig'
      rw [hdevice]
      exact happended
    bound := by
      intro config' hconfig'
      cases hstream.symm.trans hconfig'
      rw [hproduct, ← h.capacity, ← hcapacity']
      exact AudioRing.occupiedLen_le
    rate := fun hzero => absurd hzero (Nat.ne_of_gt hrate)
    settled := by
      intro _ config' hconfig'
      rw [AudioBuffer.perSecond_appendPcm2]
      exact h.settled (.inl hidle) config' hconfig'
    resizing := nofun
    opening := nofun }

/-- The shrinking. -/
theorem Inv.shrink {having : ℕ} (hthread : s.thread = .shrinking having) {due : Bool}
    (hharmless : s.Harmless (.shrink due)) :
    ∃ audioBuffer, s.audioBuffer.tryShrink having due = .ok audioBuffer ∧
      Inv { s with audioBuffer, thread := .idle } := by
  obtain ⟨b, hb, hcounters, hperSecond, hring⟩ := AudioBuffer.tryShrink_ok h.perSecond_pos h.counters having due
  have hcapacity : b.ring.capacity = s.audioBuffer.ring.capacity := by
    rcases hring with hring | ⟨-, _, _, _, -, -, -, -, hring⟩ <;> rw [hring]
    rfl
  refine ⟨b, hb, { h with
    counters := hcounters
    perSecond_pos := hperSecond ▸ h.perSecond_pos
    capacity := hcapacity.trans (hperSecond ▸ h.capacity)
    aligned := ?_, bound := ?_
    rate := fun hzero => ⟨(h.rate hzero).1, rfl⟩
    settled := fun _ config hconfig => hperSecond ▸ h.settled (.inr ⟨having, hthread⟩) config hconfig
    resizing := nofun, opening := nofun }⟩
  · intro config hconfig
    obtain ⟨hfront, happended⟩ := h.aligned config hconfig
    rcases hring with hring | ⟨rfl, counters, marks, mark, hcount, hturns, hdrop, hmany, hring⟩
    · rw [hring]
      exact ⟨hfront, happended⟩
    · have hdvd := hharmless rfl having counters marks mark hthread hcount hturns hdrop hmany
      rw [← (h.settled (.inr ⟨having, hthread⟩) config hconfig).1] at hdvd
      rw [hring]
      exact ⟨AudioRing.dvd_skip hfront happended hdvd, happended⟩
  · intro config hconfig
    refine Nat.le_trans ?_ (h.bound config hconfig)
    rcases hring with hring | ⟨-, _, _, _, -, -, -, -, hring⟩ <;> rw [hring]
    exact AudioRing.occupiedLen_skip_le

/-- The callback of the stream. -/
theorem Inv.callback {config : StreamConfig} (hstream : s.audioStream = some config) (frames : ℕ) :
    Inv { s with ready := true, audioBuffer :=
      { s.audioBuffer with ring := s.audioBuffer.ring.skip (frames * config.channels) } } := by
  obtain ⟨hfront, happended⟩ := h.aligned config hstream
  refine { h with aligned := fun config' hconfig' => ?_, bound := fun config' hconfig' => ?_ }
  · cases hstream.symm.trans hconfig'
    exact ⟨AudioRing.dvd_skip hfront happended (Nat.dvd_mul_left ..), happended⟩
  · exact AudioRing.occupiedLen_skip_le.trans (h.bound config' hconfig')

/-- A stream that can be built or not. -/
theorem Inv.opened {rest : List ℕ} (hthread : s.thread = .opening rest) {ok : Bool}
    (hharmless : s.Harmless (.opened ok)) {r : MayPanic AudioHandler} (hstep : s.step (.opened ok) = some r) :
    ∃ t, r = .ok t ∧ t.Inv := by
  obtain ⟨hrate, hchannels, hproduct⟩ := h.opening rest hthread
  obtain ⟨hlow, hhigh⟩ := hchannels s.deviceChannel (List.mem_cons_self ..)
  have hrate0 : s.sampleRate.1 ≠ 0 := by
    intro hzero
    have hidle := (h.rate hzero).2
    rw [hthread] at hidle
    cases hidle
  rw [AudioHandler.step, hthread] at hstep
  cases ok with
  | true =>
    cases hstep
    refine ⟨_, rfl, { h with
      aligned := ?_, bound := ?_, rate := fun hzero => absurd hzero hrate0, settled := ?_
      resizing := nofun, opening := nofun }⟩
    · intro config hconfig
      cases hconfig
      exact hharmless.1 rfl
    · intro config hconfig
      cases hconfig
      show _ ≤ s.sampleRate.2 * s.deviceChannel * 3
      rw [hproduct, ← h.capacity]
      exact AudioRing.occupiedLen_le
    · intro _ config hconfig
      cases hconfig
      exact ⟨rfl, hlow, hhigh, hproduct⟩
  | false =>
    cases rest with
    | nil =>
      cases hstep
      refine ⟨_, rfl, { h with
        rate := fun hzero => absurd hzero hrate0, settled := ?_, resizing := nofun, opening := nofun }⟩
      intro _ config hconfig
      obtain rfl := hharmless.2 rfl hthread config hconfig
      exact ⟨rfl, hlow, hhigh, hproduct⟩
    | cons channels rest =>
      cases hstep
      refine ⟨_, rfl, { h with
        rate := fun hzero => absurd hzero hrate0, settled := ?_, resizing := ?_, opening := nofun }⟩
      · rintro (hsettled | ⟨having, hsettled⟩) <;> cases hsettled
      · rintro channels' rest' ⟨⟩
        exact ⟨hrate, fun c hc => hchannels c (List.mem_cons_of_mem _ hc)⟩

/-- **One event.** -/
theorem Inv.step {e : AudioEvent} (hharmless : s.Harmless e) {r : MayPanic AudioHandler}
    (hstep : s.step e = some r) : ∃ t, r = .ok t ∧ t.Inv := by
  cases e with
  | format sampleRate channels device =>
    obtain ⟨⟨hidle, hdevice⟩, heq⟩ := Option.ite_none_right_eq_some.mp hstep
    cases heq
    refine ⟨_, rfl, h.handleFormat hidle (fun d hd => ?_) hharmless⟩
    rw [hd, Option.all_some, decide_eq_true_eq] at hdevice
    exact hdevice
  | resize =>
    cases hthread : s.thread with
    | resizing channels rest =>
      rw [AudioHandler.step, hthread] at hstep
      cases hstep
      obtain ⟨b, hb, hinv⟩ := h.resize hthread
      exact ⟨_, by rw [hb]; rfl, hinv⟩
    | _ =>
      rw [AudioHandler.step, hthread] at hstep
      cases hstep
  | opened ok =>
    cases hthread : s.thread with
    | opening rest => exact h.opened hthread hharmless hstep
    | _ =>
      rw [AudioHandler.step, hthread] at hstep
      cases hstep
  | frame frames rechanneled =>
    obtain ⟨hidle, hstep⟩ := Option.ite_none_right_eq_some.mp hstep
    split at hstep
    · next config d hstream hready hdecoder =>
      obtain ⟨hdecodes, heq⟩ := Option.ite_none_right_eq_some.mp hstep
      cases heq
      obtain ⟨t, ht, hinv⟩ := h.handleFrame hidle hstream hdecoder hdecodes hharmless
      exact ⟨t, ht, hinv⟩
    · cases hstep
      exact ⟨s, rfl, h⟩
  | shrink due =>
    cases hthread : s.thread with
    | shrinking having =>
      rw [AudioHandler.step, hthread] at hstep
      cases hstep
      obtain ⟨b, hb, hinv⟩ := h.shrink hthread hharmless
      exact ⟨_, by rw [hb]; rfl, hinv⟩
    | _ =>
      rw [AudioHandler.step, hthread] at hstep
      cases hstep
  | callback frames =>
    obtain ⟨config, hstream, heq⟩ := Option.map_eq_some_iff.mp hstep
    obtain rfl := heq
    exact ⟨_, rfl, h.callback hstream frames⟩

theorem Inv.playsWell : s.PlaysWell where
  decode_buffer d hd := (h.decoder d hd).1
  fine e r hharmless hstep := by
    obtain ⟨t, rfl, -⟩ := h.step hharmless hstep
    exact MayPanic.fine_ok t
  ring config hconfig := by
    have hbound := h.bound config hconfig
    unfold audioBufferMs
    omega
  aligned config hconfig := (h.aligned config hconfig).1

end

/-- **Playback neither crashes nor scrambles** in every run whose events are all harmless. -/
theorem playsWell_of_run {es : List AudioEvent} (hrun : Run (Only Harmless Step) default es s) : s.PlaysWell := by
  have hinv : s.Inv := by
    apply hrun.invariant
    · rintro s e t hs ⟨hharmless, hstep⟩
      obtain ⟨t', heq, ht⟩ := hs.step hharmless hstep
      cases heq
      exact ht
    · exact default_inv
  exact hinv.playsWell

/-- A stereo device, a stream for it, and 10 ms of stereo. -/
def stereo : List AudioEvent :=
  [.format 48000 2 (some ⟨⟨48000, 2⟩, true⟩), .resize, .opened true, .callback 64, .frame 480 0, .shrink true]

theorem playsWell_stereo :
    ∃ s, Run (Only Harmless Step) default stereo s ∧ s.audioBuffer.ring.occupiedLen = 960 ∧ s.PlaysWell := by
  -- the buffer is made for such a stream
  have hresize : ∀ s : AudioHandler, s.thread = .resizing 2 [] → s.audioBuffer = .default → s.sampleRate.2 = 48000 →
      s.step .resize = some (.ok { s with deviceChannel := 2, thread := .opening [] }) := by
    intro s hthread hbuffer hrate
    have hsame : s.audioBuffer.resize 48000 2 = .ok s.audioBuffer := by
      have hcapacity : ¬48000 * 2 * audioBufferMs / 1000 ≠ AudioBuffer.default.ring.capacity := by decide
      rw [hbuffer, AudioBuffer.resize, if_neg hcapacity]
    rw [AudioHandler.step, hthread]
    dsimp only
    rw [hrate, hsame]
    rfl
  have hrun : ∃ s, Run (Only Harmless Step) default stereo s ∧ s.audioBuffer.ring.occupiedLen = 960 := by
    refine ⟨_, .cons ⟨?_, rfl⟩ (.cons ⟨trivial, hresize _ rfl rfl rfl⟩ (.cons ⟨?_, rfl⟩ (.cons ⟨trivial, rfl⟩
      (.cons ⟨?_, rfl⟩ (.cons ⟨?_, rfl⟩ (.nil _)))))), rfl⟩
    · exact fun _ => by decide
    · exact ⟨fun _ => ⟨Nat.dvd_zero _, Nat.dvd_zero _⟩, nofun⟩
    · exact .inl rfl
    · rintro - having counters marks mark hthread hcount hturns hdrop -
      exact Nat.dvd_mul_left ..
  obtain ⟨s, hrun, hlen⟩ := hrun
  exact ⟨s, hrun, hlen, playsWell_of_run hrun⟩

/-- A peer that announces all the channels there are, to a user without an output device. -/
theorem not_playsWell_manyChannels :
    ∃ s, Run Step default [.format 48000 4294967295 none] s ∧
      s.audioDecoder = some ⟨48000, 2, 206158430160000⟩ ∧ ¬ s.PlaysWell := by
  have hrun : ∃ s, Run Step default [.format 48000 4294967295 none] s ∧
      s.audioDecoder = some ⟨48000, 2, 206158430160000⟩ := ⟨_, .cons rfl (.nil _), rfl⟩
  obtain ⟨s, hrun, hdecoder⟩ := hrun
  refine ⟨s, hrun, hdecoder, fun h => ?_⟩
  have hlen := h.decode_buffer _ hdecoder
  revert hlen
  decide

end AudioHandler

end RustDesk.Client
