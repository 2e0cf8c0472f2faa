import RustDesk.Common.HashMap
import RustDesk.Common.Run
import RustDesk.Common.Tally

/-!
# Which codec the host encodes with

References: `libs/scrap/src/common/codec.rs` (`Encoder::update`, `Encoder::negotiated_codec`, `disable_av1`,
`supported_encoding`) and `SupportedDecoding` of `message.proto`.

What the host can encode, its option for AV1 and its memory are those of the moment of an update. The peers are gone
through in any order. `negotiates_iff` says which updates choose a codec that all viewers can decode.
-/

namespace RustDesk.Services

inductive CodecFormat
  | vp8
  | vp9
  | av1
  | h264
  | h265
  | unknown
deriving DecidableEq

inductive PreferCodec
  | auto
  | vp9
  | h264
  | h265
  | vp8
  | av1
deriving DecidableEq

namespace PreferCodec

/-- The numbers of the message. -/
def value : PreferCodec → ℤ
  | auto => 0
  | vp9 => 1
  | h264 => 2
  | h265 => 3
  | vp8 => 4
  | av1 => 5

/-- `EnumOrUnknown::enum_value_or` -/
def enumValueOr (prefer : ℤ) (default : PreferCodec) : PreferCodec :=
  ([auto, vp9, h264, h265, vp8, av1].find? fun p => p.value == prefer).getD default

end PreferCodec

/-- `SupportedDecoding`, without what is about chroma. -/
structure SupportedDecoding where
  abilityVp9 : ℤ := 0
  abilityH264 : ℤ := 0
  abilityH265 : ℤ := 0
  prefer : ℤ := 0
  abilityVp8 : ℤ := 0
  abilityAv1 : ℤ := 0
deriving DecidableEq

/-- The host at an update: `disable_av1`, the options and the hardware encoders, `OPTION_AV1_TEST` not being `N`, and
the memory in bytes. -/
structure EncodeEnv where
  disableAv1 : Bool
  enableVramOption : Bool
  vramH264 : Bool
  vramH265 : Bool
  enableHwcodecOption : Bool
  hwRamH264 : Bool
  hwRamH265 : Bool
  av1Test : Bool
  totalMemory : ℕ
deriving DecidableEq

inductive EncodingUpdate
  | update (id : ℤ) (decoding : SupportedDecoding)
  | remove (id : ℤ)
  | newOnlyVp9 (id : ℤ)
  | check
deriving DecidableEq

abbrev PeerDecodings := HashMap ℤ SupportedDecoding

def EncodingUpdate.apply (decodings : PeerDecodings) : EncodingUpdate → PeerDecodings
  | update id decoding => decodings.insert id decoding
  | remove id => decodings.erase id
  | newOnlyVp9 id => decodings.insert id { abilityVp9 := 1 }
  | check => decodings

section Update

variable (env : EncodeEnv) (decodings : List SupportedDecoding)

/-- All peers there are decode it. -/
def allSupport (ability : SupportedDecoding → ℤ) : Bool :=
  decide (0 < decodings.length) && decodings.all fun s => decide (0 < ability s)

def vp8Useable : Bool := allSupport decodings (·.abilityVp8)

def av1Useable : Bool := allSupport decodings (·.abilityAv1) && !env.disableAv1

/-- `h264vram_encoding || h264hw_encoding.is_some()` -/
def h264Encoding : Bool :=
  env.enableVramOption && (allSupport decodings (·.abilityH264) && env.vramH264) ||
    env.enableHwcodecOption && (allSupport decodings (·.abilityH264) && env.hwRamH264)

def h265Encoding : Bool :=
  env.enableVramOption && (allSupport decodings (·.abilityH265) && env.vramH265) ||
    env.enableHwcodecOption && (allSupport decodings (·.abilityH265) && env.hwRamH265)

def h264Useable : Bool := allSupport decodings (·.abilityH264) && h264Encoding env decodings

def h265Useable : Bool := allSupport decodings (·.abilityH265) && h265Encoding env decodings

/-- The filter of the preferences. -/
def counted (s : SupportedDecoding) : Bool :=
  s.prefer == PreferCodec.vp9.value || s.prefer == PreferCodec.vp8.value && vp8Useable decodings ||
    s.prefer == PreferCodec.av1.value && av1Useable env decodings ||
    s.prefer == PreferCodec.h264.value && h264Useable env decodings ||
    s.prefer == PreferCodec.h265.value && h265Useable env decodings

def preferences : List ℤ := (decodings.filter (counted env decodings)).map (·.prefer)

def preference : PreferCodec :=
  PreferCodec.enumValueOr ((Tally.mostFrequent (preferences env decodings)).getD PreferCodec.auto.value) .auto

def autoCodec : CodecFormat :=
  let auto := if av1Useable env decodings && env.av1Test then CodecFormat.av1 else .vp9
  let auto := if h264Useable env decodings then .h264 else auto
  let auto := if h265Useable env decodings then .h265 else auto
  if (auto = .vp9 ∨ auto = .av1) ∧ vp8Useable decodings ∧ env.totalMemory ≤ 4 * 1024 * 1024 * 1024 then .vp8 else auto

/-- The format that an update sets. -/
def chooseFormat : CodecFormat :=
  match preference env decodings with
  | .vp8 => .vp8
  | .vp9 => .vp9
  | .av1 => .av1
  | .h264 => if h264Encoding env decodings then .h264 else autoCodec env decodings
  | .h265 => if h265Encoding env decodings then .h265 else autoCodec env decodings
  | .auto => autoCodec env decodings

end Update

/-- `PEER_DECODINGS` and `ENCODE_CODEC_FORMAT`. -/
structure Codec.Encoder where
  decodings : PeerDecodings
  format : CodecFormat

namespace Codec.Encoder

def start : Encoder := ⟨∅, .vp9⟩

/-- What the peers of a map decode. -/
def values (decodings : PeerDecodings) : Multiset SupportedDecoding := decodings.entries.map (·.2)

/-- `Encoder::update`, the peers in some order. -/
def Update (s : Encoder) (e : EncodingUpdate × EncodeEnv) (t : Encoder) : Prop :=
  t.decodings = e.1.apply s.decodings ∧
    ∃ order : List SupportedDecoding, (order : Multiset SupportedDecoding) = values t.decodings ∧
      t.format = chooseFormat e.2 order

end Codec.Encoder

/-! ## What is meant by a negotiation -/

def SupportedDecoding.ability (s : SupportedDecoding) : CodecFormat → ℤ
  | .vp8 => s.abilityVp8
  | .vp9 => s.abilityVp9
  | .av1 => s.abilityAv1
  | .h264 => s.abilityH264
  | .h265 => s.abilityH265
  | .unknown => 0

/-- `supported_encoding`, with VP9. -/
def EncodeEnv.canEncode (env : EncodeEnv) : CodecFormat → Bool
  | .vp8 | .vp9 => true
  | .av1 => !env.disableAv1
  | .h264 => env.enableHwcodecOption && env.hwRamH264 || env.enableVramOption && env.vramH264
  | .h265 => env.enableHwcodecOption && env.hwRamH265 || env.enableVramOption && env.vramH265
  | .unknown => false

def CodecFormat.prefer : CodecFormat → PreferCodec
  | .vp8 => .vp8
  | .vp9 => .vp9
  | .av1 => .av1
  | .h264 => .h264
  | .h265 => .h265
  | .unknown => .auto

section Negotiation

variable (env : EncodeEnv) (decodings : Multiset SupportedDecoding)

/-- The host encodes it and every peer decodes it. -/
def Common (c : CodecFormat) : Prop := env.canEncode c = true ∧ ∀ s ∈ decodings, 0 < s.ability c

/-- How many peers prefer it. -/
def votes (c : CodecFormat) : ℕ := decodings.countP fun s => s.prefer = c.prefer.value

structure Negotiates (format : CodecFormat) : Prop where
  common : (∃ c, Common env decodings c) → Common env decodings format
  preferred : (∃ c, Common env decodings c ∧ 0 < votes decodings c) →
    ∀ c, Common env decodings c → votes decodings c ≤ votes decodings format

/-- Hardware encodes something common, or AV1 is common and not slow, or VP8 is common and there is little memory. -/
def AutoCommon : Prop :=
  Common env decodings .h265 ∨ Common env decodings .h264 ∨ Common env decodings .av1 ∧ env.av1Test = true ∨
    Common env decodings .vp8 ∧ env.totalMemory ≤ 4 * 1024 * 1024 * 1024

/-- VP9 is common, or nothing is, or something common has more votes than VP9, or VP9 has none and the automatic choice
is another one. -/
def Settles : Prop :=
  Common env decodings .vp9 ∨ (∀ c, ¬Common env decodings c) ∨
    (∃ c, Common env decodings c ∧ votes decodings .vp9 < votes decodings c) ∨
    votes decodings .vp9 = 0 ∧ AutoCommon env decodings

end Negotiation

/-! ## What an update chooses -/

section Choice

variable {env : EncodeEnv} {l : List SupportedDecoding}

section

variable (hne : l ≠ [])
include hne

theorem allSupport_iff (ability : SupportedDecoding → ℤ) :
    allSupport l ability = true ↔ ∀ s ∈ l, 0 < ability s := by
  have hpos := List.length_pos_iff.mpr hne
  simp [allSupport, hpos]

theorem vp8Useable_iff : vp8Useable l = true ↔ Common env l .vp8 := by
  rw [vp8Useable, allSupport_iff hne]
  exact (and_iff_right rfl).symm

theorem av1Useable_iff : av1Useable env l = true ↔ Common env l .av1 := by
  rw [av1Useable, Bool.and_eq_true, allSupport_iff hne]
  exact and_comm

theorem h264Encoding_iff : h264Encoding env l = true ↔ Common env l .h264 := by
  have hall : allSupport l (·.abilityH264) = true ↔ ∀ s ∈ (l : Multiset SupportedDecoding), 0 < s.ability .h264 :=
    allSupport_iff hne _
  rw [h264Encoding, Common, ← hall]
  simp only [EncodeEnv.canEncode, Bool.or_eq_true, Bool.and_eq_true]
  tauto

theorem h265Encoding_iff : h265Encoding env l = true ↔ Common env l .h265 := by
  have hall : allSupport l (·.abilityH265) = true ↔ ∀ s ∈ (l : Multiset SupportedDecoding), 0 < s.ability .h265 :=
    allSupport_iff hne _
  rw [h265Encoding, Common, ← hall]
  simp only [EncodeEnv.canEncode, Bool.or_eq_true, Bool.and_eq_true]
  tauto

theorem h264Useable_iff : h264Useable env l = true ↔ Common env l .h264 := by
  rw [h264Useable, Bool.and_eq_true, h264Encoding_iff hne, and_iff_right_iff_imp]
  exact fun h => (allSupport_iff hne _).mpr h.2

theorem h265Useable_iff : h265Useable env l = true ↔ Common env l .h265 := by
  rw [h265Useable, Bool.and_eq_true, h265Encoding_iff hne, and_iff_right_iff_imp]
  exact fun h => (allSupport_iff hne _).mpr h.2

end

/-- What a preference can be counted for: what is common, and VP9. -/
def Candidate (env : EncodeEnv) (decodings : Multiset SupportedDecoding) (c : CodecFormat) : Prop :=
  c = .vp9 ∨ Common env decodings c

theorem not_common_unknown {decodings : Multiset SupportedDecoding} : ¬Common env decodings .unknown :=
  fun h => Bool.false_ne_true h.1

theorem counted_iff (hne : l ≠ []) (s : SupportedDecoding) :
    counted env l s = true ↔ ∃ c, Candidate env l c ∧ s.prefer = c.prefer.value := by
  simp only [counted, Bool.or_eq_true, Bool.and_eq_true, beq_iff_eq, @vp8Useable_iff env l hne, av1Useable_iff hne,
    h264Useable_iff hne, h265Useable_iff hne]
  constructor
  · rintro ((((h | ⟨h, hc⟩) | ⟨h, hc⟩) | ⟨h, hc⟩) | ⟨h, hc⟩)
    · exact ⟨.vp9, .inl rfl, h⟩
    · exact ⟨.vp8, .inr hc, h⟩
    · exact ⟨.av1, .inr hc, h⟩
    · exact ⟨.h264, .inr hc, h⟩
    · exact ⟨.h265, .inr hc, h⟩
  · rintro ⟨c, rfl | hc, h⟩
    · exact .inl (.inl (.inl (.inl h)))
    · cases c with
      | vp8 => exact .inl (.inl (.inl (.inr ⟨h, hc⟩)))
      | vp9 => exact .inl (.inl (.inl (.inl h)))
      | av1 => exact .inl (.inl (.inr ⟨h, hc⟩))
      | h264 => exact .inl (.inr ⟨h, hc⟩)
      | h265 => exact .inr ⟨h, hc⟩
      | unknown => exact absurd hc not_common_unknown

/-- Every vote for a candidate is counted. -/
theorem count_preferences (hne : l ≠ []) {c : CodecFormat} (hc : Candidate env l c) :
    (preferences env l).count c.prefer.value = votes l c := by
  rw [preferences, List.count, List.countP_map, List.countP_filter, votes, Multiset.coe_countP]
  refine List.countP_congr fun s _ => ?_
  simp only [Function.comp_apply, Bool.and_eq_true, beq_iff_eq, decide_eq_true_eq, counted_iff hne]
  exact ⟨fun h => h.1, fun h => ⟨h, c, hc, h⟩⟩

/-- What is counted is a candidate. -/
theorem candidate_of_mem_preferences (hne : l ≠ []) {x : ℤ} (h : x ∈ preferences env l) :
    ∃ c, Candidate env l c ∧ x = c.prefer.value := by
  obtain ⟨s, hs, rfl⟩ := List.mem_map.mp h
  exact (counted_iff hne s).mp (List.mem_filter.mp hs).2

theorem enumValueOr_value (p : PreferCodec) : PreferCodec.enumValueOr p.value .auto = p := by cases p <;> rfl

/-- A candidate that is preferred is chosen. -/
theorem chooseFormat_of_mostFrequent (hne : l ≠ []) {c : CodecFormat} (hc : Candidate env l c)
    (h : Tally.mostFrequent (preferences env l) = some c.prefer.value) : chooseFormat env l = c := by
  have hpreference : preference env l = c.prefer := by rw [preference, h, Option.getD_some, enumValueOr_value]
  rw [chooseFormat, hpreference]
  rcases hc with rfl | hc
  · rfl
  · cases c with
    | vp8 => rfl
    | vp9 => rfl
    | av1 => rfl
    | h264 => exact if_pos ((h264Encoding_iff hne).mpr hc)
    | h265 => exact if_pos ((h265Encoding_iff hne).mpr hc)
    | unknown => exact absurd hc not_common_unknown

theorem chooseFormat_of_nil (h : preferences env l = []) : chooseFormat env l = autoCodec env l := by
  have hpreference : preference env l = .auto := by
    rw [preference, h]
    rfl
  rw [chooseFormat, hpreference]

/-- **What an update chooses**: the automatic choice, or a candidate with the most votes. -/
theorem chooseFormat_spec (hne : l ≠ []) :
    (chooseFormat env l = autoCodec env l ∧ ∀ c, Candidate env l c → votes l c = 0) ∨
      Candidate env l (chooseFormat env l) ∧ 0 < votes l (chooseFormat env l) ∧
        ∀ c, Candidate env l c → votes l c ≤ votes l (chooseFormat env l) := by
  rcases Tally.mostFrequent_spec (preferences env l) with ⟨-, hnil⟩ | ⟨x, hx, hmost, hmax⟩
  · refine .inl ⟨chooseFormat_of_nil hnil, fun c hc => ?_⟩
    rw [← count_preferences hne hc, hnil]
    rfl
  · obtain ⟨c, hc, rfl⟩ := candidate_of_mem_preferences hne hx
    refine .inr ?_
    rw [chooseFormat_of_mostFrequent hne hc hmost, ← count_preferences hne hc]
    refine ⟨hc, List.count_pos_iff.mpr hx, fun c' hc' => ?_⟩
    rw [← count_preferences hne hc']
    exact hmax _

/-- **The automatic choice** is common, or it is VP9. -/
theorem autoCodec_spec (hne : l ≠ []) :
    AutoCommon env l ∧ Common env l (autoCodec env l) ∨ ¬AutoCommon env l ∧ autoCodec env l = .vp9 := by
  by_cases h265 : h265Useable env l = true
  · have hauto : autoCodec env l = .h265 := by simp [autoCodec, h265]
    have hc := (h265Useable_iff hne).mp h265
    rw [hauto]
    exact .inl ⟨.inl hc, hc⟩
  by_cases h264 : h264Useable env l = true
  · have hauto : autoCodec env l = .h264 := by simp [autoCodec, h265, h264]
    have hc := (h264Useable_iff hne).mp h264
    rw [hauto]
    exact .inl ⟨.inr (.inl hc), hc⟩
  by_cases hvp8 : vp8Useable l = true ∧ env.totalMemory ≤ 4 * 1024 * 1024 * 1024
  · have hauto : autoCodec env l = .vp8 := by
      unfold autoCodec
      dsimp only
      rw [if_neg h265, if_neg h264]
      refine if_pos ⟨?_, hvp8⟩
      split
      · exact .inr rfl
      · exact .inl rfl
    have hc := (@vp8Useable_iff env l hne).mp hvp8.1
    rw [hauto]
    exact .inl ⟨.inr (.inr (.inr ⟨hc, hvp8.2⟩)), hc⟩
  -- what is left is between AV1 and VP9
  have hauto : autoCodec env l = if (av1Useable env l && env.av1Test) = true then .av1 else .vp9 := by
    unfold autoCodec
    dsimp only
    rw [if_neg h265, if_neg h264]
    exact if_neg fun h => hvp8 h.2
  by_cases hav1 : (av1Useable env l && env.av1Test) = true
  · obtain ⟨huseable, htest⟩ := Bool.and_eq_true_iff.mp hav1
    have hc := (av1Useable_iff hne).mp huseable
    rw [hauto, if_pos hav1]
    exact .inl ⟨.inr (.inr (.inl ⟨hc, htest⟩)), hc⟩
  · rw [hauto, if_neg hav1]
    refine .inr ⟨?_, rfl⟩
    rintro (hc | hc | ⟨hc, htest⟩ | ⟨hc, hmemory⟩)
    · exact h265 ((h265Useable_iff hne).mpr hc)
    · exact h264 ((h264Useable_iff hne).mpr hc)
    · exact hav1 (Bool.and_eq_true_iff.mpr ⟨(av1Useable_iff hne).mpr hc, htest⟩)
    · exact hvp8 ⟨(@vp8Useable_iff env l hne).mpr hc, hmemory⟩

theorem Settles.negotiates (h : Settles env l) (hne : l ≠ []) : Negotiates env l (chooseFormat env l) := by
  rcases chooseFormat_spec hne with ⟨hauto, hzero⟩ | ⟨hc, hpos, hmax⟩
  · -- nobody prefers anything that is counted
    refine ⟨fun hcommon => ?_, fun ⟨c, hc, hpos⟩ => absurd (hzero c (.inr hc)) (Nat.ne_of_gt hpos)⟩
    rw [hauto]
    rcases h with hvp9 | hnone | ⟨c, hc, hmore⟩ | ⟨-, hgood⟩
    · rcases autoCodec_spec hne with ⟨-, hc⟩ | ⟨-, heq⟩
      · exact hc
      · rw [heq]
        exact hvp9
    · obtain ⟨c, hc⟩ := hcommon
      exact absurd hc (hnone c)
    · rw [hzero c (.inr hc)] at hmore
      exact absurd hmore (Nat.not_lt_zero _)
    · exact ((autoCodec_spec hne).resolve_right fun hbad => hbad.1 hgood).2
  · -- only a vote for VP9 could be one for something that is not common
    refine ⟨fun hcommon => ?_, fun _ c hc' => hmax c (.inr hc')⟩
    rcases hc with heq | hc
    · rw [heq] at hpos hmax ⊢
      rcases h with hvp9 | hnone | ⟨c, hc, hmore⟩ | ⟨hzero, -⟩
      · exact hvp9
      · obtain ⟨c, hc⟩ := hcommon
        exact absurd hc (hnone c)
      · exact absurd (hmax c (.inr hc)) (Nat.not_le.mpr hmore)
      · omega
    · exact hc

/-- Where nothing common has more votes than VP9, VP9 is chosen if a peer that prefers it comes first. -/
theorem chooseFormat_cons_of_vp9 {s : SupportedDecoding} (hprefer : s.prefer = CodecFormat.vp9.prefer.value)
    (hle : ∀ c, Common env (s :: l : List SupportedDecoding) c →
      votes (s :: l : List SupportedDecoding) c ≤ votes (s :: l : List SupportedDecoding) .vp9) :
    chooseFormat env (s :: l) = .vp9 := by
  have hne : s :: l ≠ [] := List.cons_ne_nil _ _
  have hfirst : preferences env (s :: l) =
      CodecFormat.vp9.prefer.value :: (l.filter (counted env (s :: l))).map (·.prefer) := by
    have hcounted : counted env (s :: l) s = true := (counted_iff hne s).mpr ⟨.vp9, .inl rfl, hprefer⟩
    rw [preferences, List.filter_cons_of_pos hcounted, List.map_cons, hprefer]
  refine chooseFormat_of_mostFrequent hne (.inl rfl) ?_
  rw [hfirst]
  apply Tally.mostFrequent_cons
  rw [← hfirst]
  intro x
  by_cases hx : x ∈ preferences env (s :: l)
  · obtain ⟨c, hc, rfl⟩ := candidate_of_mem_preferences hne hx
    rw [count_preferences hne hc, count_preferences hne (.inl rfl)]
    rcases hc with rfl | hc
    · exact Nat.le_refl _
    · exact hle c hc
  · rw [List.count_eq_zero_of_not_mem hx]
    exact Nat.zero_le _

end Choice

section Orders

variable (env : EncodeEnv) {decodings : Multiset SupportedDecoding}

/-- Every order of the peers negotiates. -/
def AlwaysNegotiates (decodings : Multiset SupportedDecoding) : Prop :=
  ∀ order : List SupportedDecoding, (order : Multiset SupportedDecoding) = decodings →
    Negotiates env decodings (chooseFormat env order)

theorem order_ne_nil (hne : decodings ≠ 0) {order : List SupportedDecoding}
    (horder : (order : Multiset SupportedDecoding) = decodings) : order ≠ [] := by
  rintro rfl
  exact hne horder.symm

variable {env}

theorem AlwaysNegotiates.settles (h : AlwaysNegotiates env decodings) (hne : decodings ≠ 0) :
    Settles env decodings := by
  by_contra hnot
  simp only [Settles, not_or, not_and, not_exists, not_forall, not_not, not_lt] at hnot
  obtain ⟨hvp9, ⟨c, hc⟩, hle, hauto⟩ := hnot
  by_cases hzero : votes decodings .vp9 = 0
  · -- nothing is preferred, and the automatic choice is VP9
    obtain ⟨order, rfl⟩ : ∃ order : List SupportedDecoding, (order : Multiset SupportedDecoding) = decodings :=
      Quotient.exists_rep decodings
    have hcommon := (h order rfl).common ⟨c, hc⟩
    have horder := order_ne_nil hne rfl
    rcases @chooseFormat_spec env order horder with ⟨heq, -⟩ | ⟨-, hpos, -⟩
    · rcases @autoCodec_spec env order horder with ⟨hgood, -⟩ | ⟨-, hvp9'⟩
      · exact hauto hzero hgood
      · rw [heq, hvp9'] at hcommon
        exact hvp9 hcommon
    · have hmost := hle _ hcommon
      omega
  · -- a peer that prefers VP9 comes first
    obtain ⟨s, hs, hprefer⟩ := Multiset.countP_pos.mp (Nat.pos_of_ne_zero hzero)
    obtain ⟨rest, hrest⟩ := Multiset.exists_cons_of_mem hs
    obtain ⟨rest, rfl⟩ := Quotient.exists_rep rest
    have horder : ((s :: rest : List SupportedDecoding) : Multiset SupportedDecoding) = decodings := hrest.symm
    subst horder
    have hcommon := (h (s :: rest) rfl).common ⟨c, hc⟩
    rw [chooseFormat_cons_of_vp9 hprefer hle] at hcommon
    exact hvp9 hcommon

/-- **An update settles on what all peers decode, in every order of the peers**, just if the condition holds. -/
theorem alwaysNegotiates_iff (hne : decodings ≠ 0) : AlwaysNegotiates env decodings ↔ Settles env decodings := by
  refine ⟨fun h => h.settles hne, ?_⟩
  rintro h order rfl
  exact h.negotiates (order_ne_nil hne rfl)

end Orders

/-! ## Runs -/

namespace Codec.Encoder

/-- The peers that updates leave. -/
def peersAfter (es : List (EncodingUpdate × EncodeEnv)) : PeerDecodings :=
  es.foldl (fun decodings e => e.1.apply decodings) ∅

theorem decodings_of_run {es : List (EncodingUpdate × EncodeEnv)} {s : Encoder} (hrun : Run Update start es s) :
    s.decodings = peersAfter es := by
  have hstep : ∀ es (s : Encoder) e t, s.decodings = peersAfter es → Update s e t →
      t.decodings = peersAfter (es ++ [e]) := by
    rintro es s e t hs ⟨ht, -⟩
    rw [ht, hs, peersAfter, peersAfter, List.foldl_append]
    rfl
  exact hrun.invariant_history hstep rfl

/-- There is an update in every order. -/
theorem exists_update (s : Encoder) (e : EncodingUpdate × EncodeEnv) {order : List SupportedDecoding}
    (horder : (order : Multiset SupportedDecoding) = values (e.1.apply s.decodings)) :
    Update s e ⟨e.1.apply s.decodings, chooseFormat e.2 order⟩ :=
  ⟨rfl, order, horder, rfl⟩

theorem exists_run (es : List (EncodingUpdate × EncodeEnv)) (s : Encoder) : ∃ t, Run Update s es t := by
  induction es generalizing s with
  | nil => exact ⟨s, .nil s⟩
  | cons e es ih =>
    obtain ⟨order, horder⟩ : ∃ order : List SupportedDecoding,
        (order : Multiset SupportedDecoding) = values (e.1.apply s.decodings) := Quotient.exists_rep _
    obtain ⟨t, hrun⟩ := ih ⟨_, chooseFormat e.2 order⟩
    exact ⟨t, .cons (exists_update s e horder) hrun⟩

theorem values_eq_zero_iff {decodings : PeerDecodings} : values decodings = 0 ↔ decodings = ∅ := by
  rw [values, Multiset.map_eq_zero]
  constructor
  · intro h
    exact Finmap.ext h
  · rintro rfl
    rfl

/-- Every update that leaves a peer settles on what all peers decode, whatever happened before and in whatever order
the peers were gone through. -/
def NegotiatesThroughout (es : List (EncodingUpdate × EncodeEnv)) : Prop :=
  ∀ before e after s t, es = before ++ e :: after → Run Update start before s → Update s e t → t.decodings ≠ ∅ →
    Negotiates e.2 (values t.decodings) t.format

theorem negotiatesThroughout_iff (es : List (EncodingUpdate × EncodeEnv)) :
    NegotiatesThroughout es ↔ ∀ before e after, es = before ++ e :: after → peersAfter (before ++ [e]) ≠ ∅ →
      Settles e.2 (values (peersAfter (before ++ [e]))) := by
  have hpeers : ∀ before (e : EncodingUpdate × EncodeEnv) s, Run Update start before s →
      e.1.apply s.decodings = peersAfter (before ++ [e]) := by
    intro before e s hrun
    rw [decodings_of_run hrun, peersAfter, peersAfter, List.foldl_append]
    rfl
  constructor
  · intro h before e after hes hne
    obtain ⟨s, hrun⟩ := exists_run before start
    rw [← hpeers before e s hrun] at hne ⊢
    refine (alwaysNegotiates_iff fun hzero => hne (values_eq_zero_iff.mp hzero)).mp fun order horder => ?_
    exact h before e after s _ hes hrun (exists_update s e horder) hne
  · rintro h before e after s t hes hrun ⟨hdecodings, order, horder, hformat⟩ hne
    have hsettles := h before e after hes
    rw [← hpeers before e s hrun, ← hdecodings] at hsettles
    rw [hformat]
    exact (alwaysNegotiates_iff fun hzero => hne (values_eq_zero_iff.mp hzero)).mpr (hsettles hne) order horder

/-- A host without hardware encoders and with 8 GB of memory. -/
def plainEnv : EncodeEnv := ⟨false, false, false, false, false, false, false, true, 8 * 1024 * 1024 * 1024⟩

/-- A viewer that has withdrawn VP9 and AV1. -/
theorem not_negotiatesThroughout_withoutVp9 :
    ¬NegotiatesThroughout [(.update 1 { abilityVp8 := 1 }, plainEnv)] := by
  intro h
  have hupdate := @exists_update start (.update 1 { abilityVp8 := 1 }, plainEnv) [{ abilityVp8 := 1 }] rfl
  have hpeer : (1 : ℤ) ∈ EncodingUpdate.apply ∅ (.update 1 { abilityVp8 := 1 }) := Finmap.mem_insert.mpr (.inl rfl)
  have hne : EncodingUpdate.apply ∅ (.update 1 { abilityVp8 := 1 }) ≠ ∅ := by
    intro hempty
    rw [hempty] at hpeer
    exact Finmap.notMem_empty hpeer
  have hnegotiates := h [] _ [] start _ rfl (.nil _) hupdate hne
  have hvp8 : Common plainEnv {{ abilityVp8 := 1 }} .vp8 :=
    ⟨rfl, fun s hs => by rw [Multiset.mem_singleton.mp hs]; decide⟩
  -- the format is VP9
  have hvp9 : Common plainEnv {{ abilityVp8 := 1 }} .vp9 := hnegotiates.common ⟨.vp8, hvp8⟩
  exact absurd (hvp9.2 _ (Multiset.mem_singleton_self _)) (by decide)

end Codec.Encoder

end RustDesk.Services
