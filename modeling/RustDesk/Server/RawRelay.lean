import RustDesk.Net.RawSwitch
import RustDesk.Server.RelayStreams

/-!
# Raw relaying is transparent

References: `rustdesk-server/src/relay_server.rs` (`make_pair_`, `relay`).

A stream goes raw with bytes in its buffer: those that came with the request, or while it waited. What
is written to the other side and what is still unread make up, at any time, the bytes behind the
request. `relay_transparent` is that invariant, and what it means for the other side's codec.
-/

namespace RustDesk.Server.RelayStreams

open Net BytesCodec

variable {C K : Type*} {box : SecretBox K} {parse : Bytes → Option RequestRelay} {key : String} {out : Bytes}
  {c : C} {r : FramedStream K}
variable {s t : RelayStreams C K}

/-- The bytes from `x` are those of its request and, behind it, `out` and what is unread. -/
def Behind (parse : Bytes → Option RequestRelay) (s : RelayStreams C K) (x : C) (out : Bytes) :
    Prop :=
  ∃ request codec rf, parse request = some rf ∧ ∀ more,
    decode .new (s.sent x ++ more) = (.ok (some request), codec, out ++ s.unread x ++ more)

/-- Where the bytes from each connection are. -/
structure StreamsInv (parse : Bytes → Option RequestRelay) (s : RelayStreams C K) : Prop where
  tasks : s.hbbr.TakenOnce
  keyless : ∀ x, (s.stream x).encrypt = none
  connected : ∀ x, s.hbbr.task x = .connected → s.written x = [] ∧ Framing (s.stream x).codec ∧
    ∀ more, decode .new (s.sent x ++ more) = decode (s.stream x).codec (s.unread x ++ more)
  asked : ∀ x, s.hbbr.Asked x → s.written x = [] ∧ s.Behind parse x []
  /-- A relay that has ended may have `lost` what it read last. -/
  legs : ∀ c src dst, s.hbbr.Leg c src dst → (s.stream src).codec.raw = true ∧
    ∃ lost, (s.ended c = false → lost = []) ∧ s.Behind parse src (s.written dst ++ lost)

theorem streamsInv_start : StreamsInv parse (start : RelayStreams C K) where
  tasks := ⟨Hbbr.waitInv_start, fun _ _ _ h => (by cases h)⟩
  keyless _ := rfl
  connected _ _ := ⟨rfl, new_framing, fun _ => rfl⟩
  asked := by rintro x (⟨uuid, hx⟩ | ⟨uuid, hx⟩) <;> cases hx
  legs := by rintro c src dst (⟨hc, -⟩ | ⟨hc, -⟩) <;> cases hc

theorem Behind.congr {x : C} {out' : Bytes} (h : s.Behind parse x out) (hsent : t.sent x = s.sent x)
    (hunread : out' ++ t.unread x = out ++ s.unread x) : t.Behind parse x out' := by
  obtain ⟨request, codec, rf, hparse, hdecode⟩ := h
  refine ⟨request, codec, rf, hparse, fun more => ?_⟩
  rw [hsent, hunread]
  exact hdecode more

theorem Behind.more {x : C} {new : Bytes} (h : s.Behind parse x out)
    (hsent : t.sent x = s.sent x ++ new) (hunread : t.unread x = s.unread x ++ new) :
    t.Behind parse x out := by
  obtain ⟨request, codec, rf, hparse, hdecode⟩ := h
  refine ⟨request, codec, rf, hparse, fun more => ?_⟩
  rw [hsent, hunread, List.append_assoc, hdecode (new ++ more)]
  simp only [List.append_assoc]

/-- Bytes are sent, or move on. -/
theorem StreamsInv.more (h : s.StreamsInv parse) (hhbbr : t.hbbr = s.hbbr)
    (hwritten : t.written = s.written) (hover : t.ended = s.ended)
    (hcodec : ∀ x, (t.stream x).codec = (s.stream x).codec)
    (hkeyless : ∀ x, (t.stream x).encrypt = (s.stream x).encrypt)
    (hmore : ∀ x, ∃ new, t.sent x = s.sent x ++ new ∧ t.unread x = s.unread x ++ new) :
    t.StreamsInv parse where
  tasks := hhbbr ▸ h.tasks
  keyless x := (hkeyless x).trans (h.keyless x)
  connected := by
    intro x hx
    rw [hhbbr] at hx
    obtain ⟨hnone, hframing, hsent⟩ := h.connected x hx
    obtain ⟨new, hnew, hunread⟩ := hmore x
    refine ⟨by rw [hwritten, hnone], by rw [hcodec]; exact hframing, fun more => ?_⟩
    rw [hcodec, hnew, hunread, List.append_assoc, List.append_assoc]
    exact hsent (new ++ more)
  asked := by
    intro x hx
    rw [hhbbr] at hx
    obtain ⟨hnone, hbehind⟩ := h.asked x hx
    obtain ⟨new, hnew, hunread⟩ := hmore x
    exact ⟨by rw [hwritten, hnone], hbehind.more hnew hunread⟩
  legs := by
    intro c src dst hleg
    rw [hhbbr] at hleg
    obtain ⟨hraw, lost, hlost, hbehind⟩ := h.legs c src dst hleg
    obtain ⟨new, hnew, hunread⟩ := hmore src
    refine ⟨by rw [hcodec, hraw], lost, by rwa [hover], ?_⟩
    rw [hwritten]
    exact hbehind.more hnew hunread

variable [DecidableEq C]

theorem StreamsInv.send (h : s.StreamsInv parse) {bytes : Bytes}
    (hstep : s.step box parse key (.send c bytes) = some t) : t.StreamsInv parse := by
  cases hstep
  refine h.more rfl rfl rfl (fun _ => rfl) (fun _ => rfl) fun x => ?_
  by_cases hx : x = c
  · exact ⟨bytes, by simp [hx], by simp [unread, hx]⟩
  · exact ⟨[], by simp [hx], by simp [unread, hx]⟩

theorem StreamsInv.arrive (h : s.StreamsInv parse) {n : ℕ}
    (hstep : s.step box parse key (.arrive c n) = some t) : t.StreamsInv parse := by
  cases hstep
  have hstream : ∀ x, ∃ readBuf, (Function.update s.stream c { s.stream c with
      readBuf := (s.stream c).readBuf ++ (s.wire c).take n } x) = { s.stream x with readBuf } := by
    intro x
    by_cases hx : x = c
    · subst hx
      exact ⟨_, Function.update_self ..⟩
    · exact ⟨(s.stream x).readBuf, Function.update_of_ne hx ..⟩
  refine h.more rfl rfl rfl (fun x => ?_) (fun x => ?_) fun x => ⟨[], by simp [setStream], ?_⟩
  · obtain ⟨readBuf, hx⟩ := hstream x
    simp only [setStream, hx]
  · obtain ⟨readBuf, hx⟩ := hstream x
    simp only [setStream, hx]
  · by_cases hx : x = c
    · simp [setStream, unread, hx]
    · simp [setStream, unread, hx]

/-! ## Pairing -/

/-- The task of `c` is done, or about to be, and its stream is nobody's. -/
theorem StreamsInv.setStream_off (h : s.StreamsInv parse)
    (hr : r.encrypt = none) (hconn : s.hbbr.task c ≠ .connected) (hasked : ¬ s.hbbr.Asked c)
    (hleg : ∀ c' dst, ¬ s.hbbr.Leg c' c dst) : (s.setStream c r).StreamsInv parse := by
  have hsame : ∀ x, x ≠ c → (s.setStream c r).stream x = s.stream x := fun x hx => Function.update_of_ne hx ..
  have hunread : ∀ x, x ≠ c → (s.setStream c r).unread x = s.unread x :=
    fun x hx => by rw [unread, hsame x hx]; rfl
  refine ⟨h.tasks, fun x => ?_, fun x hx => ?_, fun x hx => ?_, fun c' src dst hl => ?_⟩
  · by_cases hx : x = c
    · simpa [setStream, hx] using hr
    · rw [hsame x hx]
      exact h.keyless x
  · have hne : x ≠ c := fun heq => hconn (heq ▸ hx)
    rw [hsame x hne, hunread x hne]
    exact h.connected x hx
  · have hne : x ≠ c := fun heq => hasked (heq ▸ hx)
    obtain ⟨hnone, hbehind⟩ := h.asked x hx
    exact ⟨hnone, hbehind.congr rfl (by rw [hunread x hne])⟩
  · have hne : src ≠ c := fun heq => hleg c' dst (heq ▸ hl)
    obtain ⟨hraw, lost, hlost, hbehind⟩ := h.legs c' src dst hl
    refine ⟨by rw [hsame src hne, hraw], lost, hlost, ?_⟩
    exact hbehind.congr rfl (by rw [hunread src hne]; rfl)

/-- A section of `make_pair_` other than the first. -/
theorem StreamsInv.pairing (h : s.StreamsInv parse) {ev : HbbrEvent C}
    (hev : ∀ x rf, ev ≠ .request x rf) {hbbr : Hbbr C} (hstep : s.hbbr.step key ev = some hbbr) :
    StreamsInv parse { s with hbbr } where
  tasks := h.tasks.step hstep
  keyless := h.keyless
  connected x hx := h.connected x (Hbbr.connected_before hstep hx).1
  asked := by
    intro x hx
    rcases Hbbr.asked_before hstep hx with hx | ⟨rf, hreq⟩
    · exact h.asked x hx
    · exact absurd hreq (hev x rf)
  legs := by
    intro c src dst hleg
    rcases Hbbr.leg_before hstep hleg with hleg | ⟨rf, d, hreq, -, -⟩
    · exact h.legs c src dst hleg
    · exact absurd hreq (hev c rf)

/-- The task gives up, whatever it has made of its stream. -/
theorem StreamsInv.close (h : s.StreamsInv parse) (hr : r.encrypt = none)
    (hstep : (s.setStream c r).pairing key (.close c) = some t) : t.StreamsInv parse := by
  obtain ⟨hbbr, hclose, rfl⟩ := Option.map_eq_some_iff.mp hstep
  have hinv := h.pairing (fun _ _ hev => by cases hev) hclose
  obtain ⟨hconn, hhbbr⟩ := Hbbr.close_cases hclose
  have hc : hbbr.task c = .closed := by
    rw [hhbbr]
    simp [Hbbr.setTask]
  refine hinv.setStream_off hr (by simp [hc]) ?_ ?_
  · rintro (⟨uuid, hmiss⟩ | ⟨uuid, hpeer⟩)
    · simp [hc] at hmiss
    · obtain ⟨since, hsleep⟩ := hinv.tasks.waits.inv.entries uuid c hpeer
      simp [hc] at hsleep
  · -- a connection that had not asked is no leg
    intro c' dst hleg
    rcases Hbbr.leg_before hclose hleg with hleg | ⟨rf, d, hreq, -, -⟩
    · exact hleg.not_connected h.tasks.waits hconn
    · cases hreq

/-! ### `set_raw` -/

/-- `set_raw` leaves the buffers, and what else hbbr knows. -/
theorem setRaw_eq (s : RelayStreams C K) (c : C) : ∃ stream, s.setRaw c = { s with stream } ∧
      (∀ x, stream x = s.stream x ∨ stream x = (s.stream x).setRaw) ∧
      (∀ x, (∀ dst, ¬ s.hbbr.Leg c x dst) → stream x = s.stream x) ∧
      ∀ src dst, s.hbbr.Leg c src dst → stream src = (s.stream src).setRaw := by
  rcases htask : s.hbbr.task c with _ | _ | _ | peer | _
  case relaying =>
    refine ⟨Function.update (Function.update s.stream peer (s.stream peer).setRaw) c
      (s.stream c).setRaw, by simp only [setRaw, htask, setStream], fun x => ?_, fun x hx => ?_,
      fun src dst hleg => ?_⟩
    · by_cases hc : x = c
      · exact .inr (by simp [hc])
      · by_cases hpeer : x = peer
        · subst hpeer
          exact .inr (by simp [hc])
        · exact .inl (by simp [hc, hpeer])
    · have hc : x ≠ c := by
        rintro rfl
        exact hx peer (.inr ⟨htask, rfl⟩)
      have hpeer : x ≠ peer := by
        rintro rfl
        exact hx c (.inl ⟨htask, rfl⟩)
      simp [hc, hpeer]
    · by_cases hc : src = c
      · simp [hc]
      · obtain rfl : src = peer := by
          rcases hleg with ⟨hsrc, -⟩ | ⟨-, hsrc⟩
          · rw [htask] at hsrc
            exact (PairTask.relaying.inj hsrc).symm
          · exact absurd hsrc hc
        simp [hc]
  all_goals
    refine ⟨s.stream, by simp only [setRaw, htask], fun _ => .inl rfl, fun _ _ => rfl, ?_⟩
    rintro src dst (⟨hleg, -⟩ | ⟨hleg, -⟩) <;> simp [htask] at hleg

/-- The first section: the message was the request `rf`, and `r` is the stream behind it. -/
theorem StreamsInv.request (h : s.StreamsInv parse)
    (hr : r.encrypt = none) (hbehind : (s.setStream c r).Behind parse c []) {rf : RequestRelay}
    (hstep : ((s.setStream c r).pairing key (.request c rf)).map (·.setRaw c) = some t) :
    t.StreamsInv parse := by
  obtain ⟨u, hu, rfl⟩ := Option.map_eq_some_iff.mp hstep
  obtain ⟨hbbr, hreq, rfl⟩ := Option.map_eq_some_iff.mp hu
  have hconn : s.hbbr.task c = .connected := (Hbbr.request_cases hreq).1
  obtain ⟨hnone, -, -⟩ := h.connected c hconn
  have htasks : hbbr.TakenOnce := h.tasks.step hreq
  obtain ⟨stream, heq, hkind, hother, hlegs⟩ := setRaw_eq { s.setStream c r with hbbr } c
  rw [heq]
  have hsame : ∀ x, x ≠ c → (s.setStream c r).stream x = s.stream x := fun x hx => Function.update_of_ne hx ..
  -- nothing that was read or sent is touched
  have hunread : ∀ x, (stream x).readBuf = ((s.setStream c r).stream x).readBuf := by
    intro x
    rcases hkind x with hx | hx
    · rw [hx]
    · rw [hx]
      rfl
  have hbehind' : ∀ x out, x ≠ c → s.Behind parse x out →
      Behind parse { s.setStream c r with hbbr, stream } x out := by
    intro x out hx hb
    refine hb.congr rfl ?_
    simp only [unread, hunread, hsame x hx]
    rfl
  have hbehindc : Behind parse { s.setStream c r with hbbr, stream } c [] := by
    refine hbehind.congr rfl ?_
    simp only [unread, hunread]
  refine ⟨htasks, fun x => ?_, fun x hx => ?_, fun x hx => ?_, fun c' src dst hleg => ?_⟩
  · have hkeyless : ((s.setStream c r).stream x).encrypt = none := by
      by_cases hx : x = c
      · simpa [setStream, hx] using hr
      · rw [hsame x hx]
        exact h.keyless x
    rcases hkind x with hx | hx
    · exact (congrArg (·.encrypt) hx).trans hkeyless
    · exact (congrArg (·.encrypt) hx).trans rfl
  · obtain ⟨hxs, hne⟩ := Hbbr.connected_before hreq hx
    have hxc : x ≠ c := by
      rintro rfl
      exact hne rf rfl
    have hstream : stream x = s.stream x :=
      (hother x fun dst hleg => hleg.not_connected htasks.waits hx).trans (hsame x hxc)
    obtain ⟨hnonex, hframing, hsent⟩ := h.connected x hxs
    refine ⟨hnonex, ?_, fun more => ?_⟩
    · show Framing (stream x).codec
      rwa [hstream]
    · simp only [unread, hstream]
      exact hsent more
  · rcases Hbbr.asked_before hreq hx with hxs | ⟨rf', hev⟩
    · have hxc : x ≠ c := by
        rintro rfl
        rcases hxs with ⟨uuid, hmiss⟩ | ⟨uuid, hpeer⟩
        · cases hconn.symm.trans hmiss
        · obtain ⟨since, hsleep⟩ := h.tasks.waits.inv.entries uuid x hpeer
          simp [hconn] at hsleep
      obtain ⟨hnonex, hb⟩ := h.asked x hxs
      exact ⟨hnonex, hbehind' x [] hxc hb⟩
    · cases hev
      exact ⟨hnone, hbehindc⟩
  · rcases Hbbr.leg_before hreq hleg with hold | ⟨rf', d, hev, hpeer, hends⟩
    · have hsrc : src ≠ c := by
        rintro rfl
        exact hold.not_connected h.tasks.waits hconn
      obtain ⟨hraw, lost, hlost, hb⟩ := h.legs c' src dst hold
      refine ⟨?_, lost, hlost, hbehind' src _ hsrc hb⟩
      rcases hkind src with hx | hx
      · exact (congrArg (·.codec.raw) (hx.trans (hsame src hsrc))).trans hraw
      · exact (congrArg (·.codec.raw) hx).trans rfl
    · cases hev
      have hraw : (stream src).codec.raw = true := congrArg (·.codec.raw) (hlegs src dst hleg)
      have hdc : d ≠ c := by
        rintro rfl
        obtain ⟨since, hsleep⟩ := h.tasks.waits.inv.entries _ d hpeer
        simp [hconn] at hsleep
      obtain ⟨hnoned, hbd⟩ := h.asked d (.inr ⟨_, hpeer⟩)
      refine ⟨hraw, [], fun _ => rfl, ?_⟩
      rcases hends with ⟨rfl, rfl⟩ | ⟨rfl, rfl⟩
      · have hb := hbehind' src [] hdc hbd
        simpa [setStream, hnone] using hb
      · simpa [setStream, hnoned] using hbehindc

/-- A poll for the first message: the codec waits, takes it, or fails. -/
theorem StreamsInv.firstMessage (h : s.StreamsInv parse)
    (hstep : s.firstMessage box parse key c = some t) : t.StreamsInv parse := by
  rcases hconn : s.hbbr.task c with _ | _ | _ | _ | _
  case connected =>
    obtain ⟨hnone, hframing, hsent⟩ := h.connected c hconn
    have hkey := h.keyless c
    rcases hdecode : decode (s.stream c).codec (s.stream c).readBuf with ⟨e | _ | x, codec, rest⟩
    · simp only [RelayStreams.firstMessage, hconn, FramedStream.pollNext, hdecode] at hstep
      exact h.close (by exact hkey) hstep
    · simp only [RelayStreams.firstMessage, hconn, FramedStream.pollNext, hdecode, Option.some.injEq] at hstep
      subst hstep
      have hsame : ∀ x, x ≠ c → (s.setStream c { s.stream c with codec, readBuf := rest }).stream x
          = s.stream x := fun x hx => Function.update_of_ne hx ..
      refine ⟨h.tasks, fun x => ?_, fun x hx => ?_, fun x hx => ?_, fun c' src dst hleg => ?_⟩
      · by_cases hx : x = c
        · simpa [setStream, hx] using hkey
        · rw [hsame x hx]
          exact h.keyless x
      · by_cases hxc : x = c
        · subst hxc
          refine ⟨hnone, ?_, fun more => ?_⟩
          · simpa [setStream] using decode_framing hframing hdecode
          · have hwait : decode (s.stream x).codec ((s.stream x).readBuf ++ (s.wire x ++ more))
                = decode codec (rest ++ (s.wire x ++ more)) :=
              decoder_incremental.wait (s.wire x ++ more) hframing hdecode
            refine (hsent more).trans ?_
            simpa [unread, setStream] using hwait
        · rw [unread, hsame x hxc]
          exact h.connected x hx
      · have hxc : x ≠ c := by
          rintro rfl
          rcases hx with ⟨uuid, hmiss⟩ | ⟨uuid, hpeer⟩
          · cases hconn.symm.trans hmiss
          · obtain ⟨since, hsleep⟩ := h.tasks.waits.inv.entries uuid x hpeer
            cases hconn.symm.trans hsleep
        obtain ⟨hnonex, hb⟩ := h.asked x hx
        exact ⟨hnonex, hb.congr rfl (by rw [unread, hsame x hxc]; rfl)⟩
      · have hsrc : src ≠ c := by
          rintro rfl
          exact hleg.not_connected h.tasks.waits hconn
        obtain ⟨hraw, lost, hlost, hb⟩ := h.legs c' src dst hleg
        refine ⟨by rw [hsame src hsrc, hraw], lost, hlost, ?_⟩
        exact hb.congr rfl (by rw [unread, hsame src hsrc]; rfl)
    · simp only [RelayStreams.firstMessage, hconn, FramedStream.pollNext, hdecode,
        FramedStream.openFrame, hkey] at hstep
      cases hparse : parse x with
      | none =>
        rw [hparse] at hstep
        exact h.close rfl hstep
      | some rf =>
        rw [hparse] at hstep
        refine h.request rfl ⟨x, codec, rf, hparse, fun more => ?_⟩ hstep
        have hitem := decoder_incremental.item (s.wire c ++ more) hframing hdecode
        have hall : decode .new (s.sent c ++ more) = (.ok (some x), codec, rest ++ (s.wire c ++ more)) := by
          rw [hsent more, unread, List.append_assoc]
          exact hitem
        simpa [unread, setStream] using hall
  all_goals simp [RelayStreams.firstMessage, hconn] at hstep

/-! ## Relaying -/

/-- Some of what `src` has in its buffer is written, and the rest of it may be lost. -/
theorem StreamsInv.forward (h : s.StreamsInv parse) {src dst : C} (hleg : s.hbbr.Leg c src dst)
    (hrunning : s.ended c = false) {lost : Bytes} (hbuf : (s.stream src).readBuf = out ++ lost)
    {ended : C → Bool} (hlost : ended c = false → lost = [])
    (hover : ∀ c', ended c' = false → s.ended c' = false) :
    StreamsInv parse
      { (s.setStream src { s.stream src with readBuf := [] }).write dst out with ended } := by
  have hstream : ∀ x, x ≠ src → (s.setStream src { s.stream src with readBuf := [] }).stream x = s.stream x :=
    fun x hx => Function.update_of_ne hx ..
  have hwritten : ∀ x, x ≠ dst →
      ((s.setStream src { s.stream src with readBuf := [] }).write dst out).written x = s.written x :=
    fun x hx => Function.update_of_ne hx ..
  have hoff : ∀ x, s.hbbr.task x = .connected ∨ s.hbbr.Asked x → x ≠ src ∧ x ≠ dst := by
    rintro x (hx | hx)
    · exact ⟨fun heq => hleg.not_connected h.tasks.waits (heq ▸ hx),
        fun heq => hleg.swap.not_connected h.tasks.waits (heq ▸ hx)⟩
    · exact ⟨fun heq => hleg.not_asked h.tasks.waits (heq ▸ hx),
        fun heq => hleg.swap.not_asked h.tasks.waits (heq ▸ hx)⟩
  refine ⟨h.tasks, fun x => ?_, fun x hx => ?_, fun x hx => ?_, fun c' src' dst' hleg' => ?_⟩
  · by_cases hx : x = src
    · simpa [setStream, write, hx] using h.keyless src
    · exact (congrArg (·.encrypt) (hstream x hx)).trans (h.keyless x)
  · obtain ⟨hsrc, hdst⟩ := hoff x (.inl hx)
    obtain ⟨hnone, hframing, hsent⟩ := h.connected x hx
    refine ⟨(hwritten x hdst).trans hnone, ?_, fun more => ?_⟩
    · simpa [setStream, write, hsrc] using hframing
    · simpa [setStream, write, unread, hsrc] using hsent more
  · obtain ⟨hsrc, hdst⟩ := hoff x (.inr hx)
    obtain ⟨hnone, hb⟩ := h.asked x hx
    refine ⟨(hwritten x hdst).trans hnone, hb.congr rfl ?_⟩
    simp [setStream, write, unread, hsrc]
  · obtain ⟨hraw, lost', hlost', hb⟩ := h.legs c' src' dst' hleg'
    by_cases hsrc : src' = src
    · obtain ⟨rfl, rfl⟩ := hleg.unique (hsrc ▸ hleg') h.tasks
      subst hsrc
      obtain rfl := hlost' hrunning
      refine ⟨by simpa [setStream, write] using hraw, lost, hlost, hb.congr rfl ?_⟩
      simp [setStream, write, unread, hbuf]
    · have hdst : dst' ≠ dst := by
        rintro rfl
        exact hsrc (hleg.swap.unique hleg'.swap h.tasks).2
      refine ⟨by simpa [setStream, write, hsrc] using hraw, lost', fun hc' => hlost' (hover c' hc'),
        hb.congr rfl ?_⟩
      simp [setStream, write, unread, hsrc, hdst]

omit [DecidableEq C] in
theorem StreamsInv.endRelay (h : s.StreamsInv parse) {ended : C → Bool}
    (hover : ∀ c', ended c' = false → s.ended c' = false) : StreamsInv parse { s with ended } :=
  { h with
    legs := by
      intro c src dst hleg
      obtain ⟨hraw, lost, hlost, hb⟩ := h.legs c src dst hleg
      exact ⟨hraw, lost, fun hc => hlost (hover c hc), hb⟩ }

theorem ended_stop (s : RelayStreams C K) (c c' : C) (h : (s.stop c).ended c' = false) : s.ended c' = false := by
  by_cases hc : c' = c
  · simp [stop, hc] at h
  · simpa [stop, hc] using h

section

variable (h : s.StreamsInv parse)
include h

theorem StreamsInv.copy {src dst : C} (hleg : s.hbbr.Leg c src dst)
    (hne : dst ≠ src) (hrunning : s.ended c = false) (cut : Option ℕ) :
    (s.copy box c src dst cut).StreamsInv parse := by
  obtain ⟨hraw, -⟩ := h.legs c src dst hleg
  obtain ⟨hrawd, -⟩ := h.legs c dst src hleg.swap
  by_cases hbuf : (s.stream src).readBuf = []
  · have hidle : s.setStream src (s.stream src) = s := by simp [setStream]
    rw [RelayStreams.copy, FramedStream.pollNext_raw hraw (h.keyless src), if_pos hbuf]
    simp only [hidle]
    exact h
  · have hsend : ((s.setStream src { s.stream src with readBuf := [] }).stream dst).sendBytes
        (s.stream src).readBuf = .ok (s.stream src).readBuf := by
      simp [setStream, hne, FramedStream.sendBytes, encode, hrawd]
    rw [RelayStreams.copy, FramedStream.pollNext_raw hraw (h.keyless src), if_neg hbuf]
    simp only [List.isEmpty_iff, hbuf, if_false, hsend]
    cases cut with
    | none => exact h.forward hleg hrunning (List.append_nil _).symm (fun _ => rfl) fun _ hc => hc
    | some n =>
      refine h.forward hleg hrunning (List.take_append_drop n _).symm (fun hc => ?_) (ended_stop s c)
      simp at hc

theorem StreamsInv.turn {fromPeer : Bool} {cut : Option ℕ}
    (hstep : s.turn box c fromPeer cut = some t) : t.StreamsInv parse := by
  rcases htask : s.hbbr.task c with _ | _ | _ | peer | _
  case relaying =>
    have hne : peer ≠ c := by
      rintro rfl
      rcases h.tasks.waits.taken peer peer htask with ⟨uuid, since, hsleep⟩ | hclosed
      · cases htask.symm.trans hsleep
      · cases htask.symm.trans hclosed
    cases hover : s.ended c with
    | true => simp [RelayStreams.turn, htask, hover] at hstep
    | false =>
      cases fromPeer with
      | true =>
        simp only [RelayStreams.turn, htask, hover, Bool.false_eq_true, if_false, if_true,
          Option.some.injEq] at hstep
        exact hstep ▸ h.copy (.inl ⟨htask, rfl⟩) hne.symm hover cut
      | false =>
        simp only [RelayStreams.turn, htask, hover, Bool.false_eq_true, if_false, Option.some.injEq] at hstep
        exact hstep ▸ h.copy (.inr ⟨htask, rfl⟩) hne hover cut
  all_goals simp [RelayStreams.turn, htask] at hstep

theorem StreamsInv.stop (hstep : s.step box parse key (.stop c) = some t) : t.StreamsInv parse := by
  rcases htask : s.hbbr.task c with _ | _ | _ | peer | _
  case relaying =>
    simp only [RelayStreams.step, htask, Option.some.injEq] at hstep
    exact hstep ▸ h.endRelay (ended_stop s c)
  all_goals simp [RelayStreams.step, htask] at hstep

theorem StreamsInv.step {ev : RelayEvent C} (hstep : s.step box parse key ev = some t) : t.StreamsInv parse := by
  have hpairing : ∀ ev', (∀ x rf, ev' ≠ .request x rf) → s.pairing key ev' = some t → t.StreamsInv parse := by
    intro ev' hev' hp
    obtain ⟨hbbr, hstep', rfl⟩ := Option.map_eq_some_iff.mp hp
    exact h.pairing hev' hstep'
  cases ev with
  | send c bytes => exact h.send hstep
  | arrive c n => exact h.arrive hstep
  | first c => exact h.firstMessage hstep
  | timeout c => exact hpairing (.close c) (fun _ _ hev => by cases hev) hstep
  | insert c => exact hpairing (.insert c) (fun _ _ hev => by cases hev) hstep
  | expire c => exact hpairing (.expire c) (fun _ _ hev => by cases hev) hstep
  | tick => exact hpairing .tick (fun _ _ hev => by cases hev) hstep
  | forward | fail => exact h.turn hstep
  | stop c => exact h.stop hstep

end

/-- **Raw relaying is transparent.** What `src` sent is its request, one frame that `make_pair_` took,
and bytes behind it. hbbr writes them to `dst` in their order. While the relay runs, the bytes written
and the bytes not read yet are all of them, and if they were frames, a codec at `dst` yields just these
frames once all of them have been read. -/
theorem relay_transparent {as : List (RelayEvent C)}
    (hrun : Run (Steps (step box parse key)) start as s) {c src dst : C}
    (hleg : s.hbbr.Leg c src dst) :
    ∃ request rf bytes, parse request = some rf ∧
      decode .new (s.sent src) = (.ok (some request), .new, bytes) ∧ s.written dst <+: bytes ∧
      (s.ended c = false → s.written dst ++ s.unread src = bytes ∧
        (s.unread src = [] → ∀ frames, BytesCodec.new.encodeAll frames [] = .ok bytes →
          ∀ chunks, chunks.flatten = s.written dst →
            decoder.feed .new [] chunks = ⟨frames, none, .new, []⟩)) := by
  have hinv : s.StreamsInv parse :=
    hrun.invariant (fun _ _ _ (h : StreamsInv parse _) hstep => h.step hstep) streamsInv_start
  obtain ⟨-, lost, hlost, request, codec, rf, hparse, hdecode⟩ := hinv.legs c src dst hleg
  have hall := hdecode []
  rw [List.append_nil, List.append_nil] at hall
  obtain rfl := decode_new_item hall
  refine ⟨request, rf, _, hparse, hall, ?_, fun hrunning => ?_⟩
  · rw [List.append_assoc]
    exact List.prefix_append _ _
  · obtain rfl := hlost hrunning
    refine ⟨by rw [List.append_nil], fun hread frames henc chunks hchunks => ?_⟩
    rw [hread, List.append_nil, List.append_nil] at henc
    exact feed_encodeAll henc hchunks

/-- The box of streams that never seal. -/
def plainBox : SecretBox Unit := ⟨fun m _ _ => m, fun m _ _ => some m⟩

/-- A frame comes with the request, in one segment, and waits in the buffer for the peer. -/
theorem relay_transparent_buffered :
    ∃ s : RelayStreams Bool Unit,
      Run (Steps (step plainBox (fun _ => some Hbbr.exampleRequest) "key")) start
        [.send false [0, 4, 7], .arrive false 3, .first false, .insert false, .send true [0],
          .arrive true 1, .first true, .forward true true] s ∧
      s.written true = [4, 7] ∧ decoder.feed .new [] [s.written true] = ⟨[[7]], none, .new, []⟩ := by
  obtain ⟨s, hexec, hrelays, hrunning, hwritten, hread⟩ :
      ∃ s : RelayStreams Bool Unit,
        exec (step plainBox (fun _ => some Hbbr.exampleRequest) "key") start
          [.send false [0, 4, 7], .arrive false 3, .first false, .insert false, .send true [0],
            .arrive true 1, .first true, .forward true true] = some s ∧
        s.hbbr.task true = .relaying false ∧ s.ended true = false ∧ s.written true = [4, 7] ∧
        s.unread false = [] :=
    ⟨_, rfl, rfl, rfl, rfl, rfl⟩
  have hrun := exec_eq_some_iff.mp hexec
  obtain ⟨request, rf, bytes, -, -, -, hall⟩ := relay_transparent hrun (.inl ⟨hrelays, rfl⟩)
  obtain ⟨rfl, hdecoded⟩ := hall hrunning
  refine ⟨s, hrun, hwritten, hdecoded hread [[7]] ?_ _ (by simp)⟩
  rw [hwritten, hread]
  rfl

end RustDesk.Server.RelayStreams
