import RustDesk.Services.UserDelay

/-!
# Bitrates of the encoders

References: `libs/scrap/src/common/codec.rs` (`Quality`, `base_bitrate`), `vpxcodec.rs`, `aom.rs`, `vram.rs`
(`bitrate`) and `hwcodec.rs` (`calc_bitrate`, `check_bitrate_range`). What the video service stores in the QoS
controller is a bitrate of an encoder, in kbit/s, at a ratio that the controller gave.
-/

namespace RustDesk.Services

/-- `cfg!(target_os)`, as far as it matters here. -/
inductive TargetOs
  | linux
  | android
  | other
  deriving DecidableEq

/-! ## Quality -/

def brBest : ℚ := 3 / 2

def brBalanced : ℚ := 67 / 100

def brSpeed : ℚ := 1 / 2

def brMax : ℚ := 40

def brMin : ℚ := 1 / 5

def brMinHighResolution : ℚ := 1 / 10

inductive Quality
  | best
  | balanced
  | low
  | custom (v : ℚ)
  deriving DecidableEq

def Quality.ratio : Quality → ℚ
  | .best => brBest
  | .balanced => brBalanced
  | .low => brSpeed
  | .custom v => v

/-! ## Bitrates -/

/-- Width, height and bitrate. -/
def resolutionPresets : List (ℕ × ℕ × ℕ) :=
  [(640, 480, 400), (800, 600, 500), (1024, 768, 800), (1280, 720, 1000), (1366, 768, 1100), (1440, 900, 1300),
    (1600, 900, 1500), (1920, 1080, 2073), (2048, 1080, 2200), (2560, 1440, 3000), (3440, 1440, 4000),
    (3840, 2160, 5000), (7680, 4320, 12000)]

/-- How far a preset is from a number of pixels. -/
def presetDistance (pixels : ℕ) (preset : ℕ × ℕ) : ℕ :=
  if preset.1 ≥ pixels then preset.1 - pixels else pixels - preset.1

/-- `base_bitrate`, with what `fix_quality` gives on Android. -/
def baseBitrate (os : TargetOs) (fix width height : ℕ) : ℕ :=
  let pixels := width * height
  let presets := resolutionPresets.map fun (w, h, bitrate) => (w * h, bitrate)
  let (presetPixels, presetBitrate) := (presets.argmin (presetDistance pixels)).getD (1920 * 1080, 2073)
  -- `round` of a positive number
  let bitrate := asU32 (⌊(presetBitrate : ℚ) * ((pixels : ℚ) / presetPixels) + 1 / 2⌋ : ℤ)
  if os = .android then bitrate * fix else bitrate

/-- `HwRamEncoder::calc_bitrate`. -/
def calcBitrate (os : TargetOs) (fix width height : ℕ) (ratio : ℚ) (h264 : Bool) : ℕ :=
  let base := baseBitrate os fix width height * ratio
  let threshold : ℚ := 2000
  let decayRate : ℚ := 1 / 1000
  let factor :=
    if os = .android then
      if base > threshold then 1 + 4 / (1 + (base - threshold) * decayRate) else 5
    else if h264 then
      if base > threshold then 1 + 1 / (1 + (base - threshold) * decayRate) else 2
    else
      if base > threshold then 1 + 1 / 2 / (1 + (base - threshold) * decayRate) else 3 / 2
  asU32 (base * factor)

/-- `HwRamEncoder::check_bitrate_range`, with the range of the codec that has the name. -/
def checkBitrateRange (os : TargetOs) (range : Option (ℕ × ℕ)) (bitrate : ℕ) : ℕ :=
  if os = .android then
    match range with
    | some (minBitrate, maxBitrate) =>
      if minBitrate < maxBitrate then
        if bitrate > maxBitrate then maxBitrate else if bitrate < minBitrate then minBitrate else bitrate
      else bitrate
    | none => bitrate
  else bitrate

inductive EncoderKind
  | vpx
  | aom
  | hwRam (h264 : Bool) (range : Option (ℕ × ℕ))
  | vram (h264 : Bool)

/-- An encoder with the quality that it was last given. The size is one whose pixels an `u32` counts, the scale of
an Android screen is 1 or 2, and the bitrates of an Android codec are Java integers. -/
structure Encoder where
  kind : EncoderKind
  fix : ℕ
  width : ℕ
  height : ℕ
  quality : ℚ
  fix_le : fix ≤ 4
  pixels_lt : width * height < 2 ^ 32
  min_le_quality : brMinHighResolution ≤ quality
  quality_le_max : quality ≤ brMax
  range_lt : ∀ h264 minBitrate maxBitrate, kind = .hwRam h264 (some (minBitrate, maxBitrate)) → maxBitrate < 2 ^ 31

/-- `EncoderApi::bitrate`. -/
def Encoder.bitrate (os : TargetOs) (encoder : Encoder) : ℕ :=
  match encoder.kind with
  | .vpx | .aom => asU32 (baseBitrate os encoder.fix encoder.width encoder.height * encoder.quality)
  | .hwRam h264 range =>
    checkBitrateRange os range (calcBitrate os encoder.fix encoder.width encoder.height encoder.quality h264)
  | .vram h264 => calcBitrate os encoder.fix encoder.width encoder.height encoder.quality h264

/-! ## They leave room -/

variable {os : TargetOs} {fix width height : ℕ} {ratio : ℚ}

theorem presetDistance_eq (pixels : ℕ) (preset : ℕ × ℕ) :
    presetDistance pixels preset = (preset.1 - pixels) + (pixels - preset.1) := by
  unfold presetDistance
  split <;> omega

/-- The nearest preset has at most about 1.6 Mbit/s for a number of pixels that fits in an `u32`. -/
theorem preset_bitrate_le {pixels : ℕ} (hpixels : pixels < 2 ^ 32) {preset : ℕ × ℕ}
    (hmem : preset ∈ resolutionPresets.map fun (w, h, bitrate) => (w * h, bitrate))
    (hnearest : presetDistance pixels preset ≤ presetDistance pixels (7680 * 4320, 12000)) :
    0 < preset.1 ∧ preset.2 * pixels ≤ 1553446 * preset.1 := by
  have hpresets : ∀ preset ∈ resolutionPresets.map fun (w, h, bitrate) => (w * h, bitrate),
      preset = (7680 * 4320, 12000) ∨ 0 < preset.1 ∧ preset.1 ≤ 8294400 ∧ preset.2 * 768 ≤ preset.1 := by decide
  rcases hpresets preset hmem with rfl | ⟨hpos, hle, hrate⟩
  · dsimp only
    omega
  · refine ⟨hpos, ?_⟩
    -- a smaller preset is the nearest only for fewer pixels than the largest has
    have hfew : pixels ≤ 7680 * 4320 := by
      rw [presetDistance_eq, presetDistance_eq] at hnearest
      omega
    have hmul := Nat.mul_le_mul_left preset.2 hfew
    omega

theorem asU32_le {x : ℚ} {n : ℕ} (h : x ≤ n) : asU32 x ≤ n :=
  Nat.le_trans (Nat.min_le_left _ _) (Nat.floor_le_of_le h)

theorem baseBitrate_le (hpixels : width * height < 2 ^ 32) (hfix : fix ≤ 4) :
    baseBitrate os fix width height ≤ 6213788 := by
  set presets := resolutionPresets.map fun (w, h, bitrate) => (w * h, bitrate) with hpresets
  obtain ⟨preset, hpreset⟩ : ∃ preset, presets.argmin (presetDistance (width * height)) = some preset :=
    Option.ne_none_iff_exists'.mp fun hnone => absurd (List.argmin_eq_none.mp hnone) (by decide)
  obtain ⟨hpos, hle⟩ := preset_bitrate_le hpixels (List.argmin_mem hpreset)
    (List.le_of_mem_argmin (by decide : (7680 * 4320, 12000) ∈ presets) hpreset)
  have hrate : (preset.2 : ℚ) * (((width * height : ℕ) : ℚ) / preset.1) ≤ 1553446 := by
    have hpos' : (0 : ℚ) < preset.1 := by exact_mod_cast hpos
    rw [← mul_div_assoc, div_le_iff₀ hpos']
    exact_mod_cast hle
  have hround : asU32 (⌊(preset.2 : ℚ) * (((width * height : ℕ) : ℚ) / preset.1) + 1 / 2⌋ : ℤ) ≤ 1553447 := by
    refine asU32_le (le_trans (Int.floor_le _) ?_)
    rw [Nat.cast_ofNat]
    linarith
  unfold baseBitrate
  dsimp only
  rw [← hpresets, hpreset]
  dsimp only [Option.getD]
  split
  · exact Nat.mul_le_mul hround hfix
  · omega

/-- The factor on top of the base bitrate falls with it. -/
theorem factor_le {base c : ℚ} (hc : 0 ≤ c) (h : base > 2000) :
    1 + c / (1 + (base - 2000) * (1 / 1000)) ≤ 1 + c := by
  have hone : 1 ≤ 1 + (base - 2000) * (1 / 1000) := by linarith
  linarith [div_le_self hc hone]

theorem calcBitrate_le {h264 : Bool} (hpixels : width * height < 2 ^ 32) (hfix : fix ≤ 4)
    (hmin : brMinHighResolution ≤ ratio) (hmax : ratio ≤ brMax) :
    calcBitrate os fix width height ratio h264 ≤ 1242757600 := by
  have hbase : (baseBitrate os fix width height : ℚ) * ratio ≤ 6213788 * 40 := by
    have hle : (baseBitrate os fix width height : ℚ) ≤ 6213788 := by exact_mod_cast baseBitrate_le hpixels hfix
    have hpos : (0 : ℚ) ≤ ratio := le_trans (by unfold brMinHighResolution; norm_num) hmin
    exact mul_le_mul hle hmax hpos (by norm_num)
  have hnonneg : (0 : ℚ) ≤ baseBitrate os fix width height * ratio :=
    mul_nonneg (Nat.cast_nonneg _) (le_trans (by unfold brMinHighResolution; norm_num) hmin)
  unfold calcBitrate
  generalize (baseBitrate os fix width height : ℚ) * ratio = base at hbase hnonneg
  refine asU32_le (le_trans (mul_le_mul_of_nonneg_left (?_ : _ ≤ (5 : ℚ)) hnonneg) ?_)
  · split
    · split
      · next h => exact le_trans (factor_le (by norm_num) h) (by norm_num)
      · exact le_refl _
    · split
      · split
        · next h => exact le_trans (factor_le (by norm_num) h) (by norm_num)
        · norm_num
      · split
        · next h => exact le_trans (factor_le (by norm_num) h) (by norm_num)
        · norm_num
  · push_cast
    linarith

/-- A stored bitrate leaves room for what is added to it. -/
theorem Encoder.bitrate_lt (os : TargetOs) (encoder : Encoder) : encoder.bitrate os + 150 < 2 ^ 32 := by
  have hcalc : ∀ h264, calcBitrate os encoder.fix encoder.width encoder.height encoder.quality h264 ≤ 1242757600 :=
    fun h264 => calcBitrate_le encoder.pixels_lt encoder.fix_le encoder.min_le_quality encoder.quality_le_max
  have hsoft : asU32 (baseBitrate os encoder.fix encoder.width encoder.height * encoder.quality) ≤ 248551520 := by
    have hle : (baseBitrate os encoder.fix encoder.width encoder.height : ℚ) ≤ 6213788 := by
      exact_mod_cast baseBitrate_le encoder.pixels_lt encoder.fix_le
    refine asU32_le (le_trans (mul_le_mul hle encoder.quality_le_max ?_ (by norm_num)) ?_)
    · exact le_trans (by unfold brMinHighResolution; norm_num) encoder.min_le_quality
    · unfold brMax
      norm_num
  unfold Encoder.bitrate
  cases hkind : encoder.kind with
  | vpx => dsimp only; omega
  | aom => dsimp only; omega
  | vram h264 =>
    have := hcalc h264
    dsimp only
    omega
  | hwRam h264 range =>
    have hle := hcalc h264
    dsimp only
    unfold checkBitrateRange
    split
    · split
      · next minBitrate maxBitrate =>
        have hrange := encoder.range_lt h264 minBitrate maxBitrate hkind
        split
        · split
          · omega
          · split <;> omega
        · omega
      · omega
    · omega

end RustDesk.Services
