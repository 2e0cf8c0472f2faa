import RustDesk.Common.HashMap

/-!
# Layers of options

Reference: `libs/hbb_common/src/config.rs` (`Config::get_options` to `Config::set_option`, `get_or`,
`is_option_can_save`). An option is looked up in the overwrite settings, then in the options of the config, and
then in the default settings. An option that is overwritten or that has its default value is not saved.
-/

namespace RustDesk.Config

abbrev Options := HashMap String String

/-- `OVERWRITE_SETTINGS` and `DEFAULT_SETTINGS`. -/
structure OptionLayers where
  overwrite : Options
  defaults : Options

/-- `CONFIG2.options`, and those in the file that `Config2::store` wrote last. -/
structure StoredOptions where
  options : Options
  file : Options

def getOr (a b c : Options) (k : String) : Option String :=
  ((a.lookup k).or (b.lookup k)).or (c.lookup k)

def isOptionCanSave (overwrite : Options) (k : String) (defaults : Options) (v : String) : Bool :=
  !(decide (k ∈ overwrite) || ((defaults.lookup k).map (· == v)).getD false)

namespace StoredOptions

def store (config : StoredOptions) : StoredOptions := { config with file := config.options }

def getOptions (layers : OptionLayers) (config : StoredOptions) : Options :=
  (layers.defaults.extend config.options).extend layers.overwrite

def purifyOptions (layers : OptionLayers) (v : Options) : Options :=
  v.retain fun k v => isOptionCanSave layers.overwrite k layers.defaults v

def setOptions (layers : OptionLayers) (config : StoredOptions) (v : Options) : StoredOptions :=
  let v := purifyOptions layers v
  if config.options = v then config else store { config with options := v }

def getOption (layers : OptionLayers) (config : StoredOptions) (k : String) : String :=
  (getOr layers.overwrite config.options layers.defaults k).getD ""

def setOption (layers : OptionLayers) (config : StoredOptions) (k v : String) : StoredOptions :=
  if !isOptionCanSave layers.overwrite k layers.defaults v then
    if k ∈ config.options then store { config with options := config.options.erase k } else config
  else
    let v2 := if v.isEmpty then none else some v
    if v2 ≠ config.options.lookup k then
      match v2 with
      | none => store { config with options := config.options.erase k }
      | some v => store { config with options := config.options.insert k v }
    else config

/-! ## What a writer leaves of the options -/

variable {layers : OptionLayers} {config : StoredOptions} {m : Options} {k k' v : String}

theorem isOptionCanSave_iff (overwrite defaults : Options) (k v : String) :
    isOptionCanSave overwrite k defaults v = true ↔ k ∉ overwrite ∧ defaults.lookup k ≠ some v := by
  unfold isOptionCanSave
  cases defaults.lookup k with
  | none => simp
  | some x => simp

/-- What `set_option` keeps of a value. -/
def kept (layers : OptionLayers) (k v : String) : Option String :=
  if k ∉ layers.overwrite ∧ layers.defaults.lookup k ≠ some v ∧ v ≠ "" then some v else none

/-- What `set_options` keeps of a value. -/
def keptOfAll (layers : OptionLayers) (k v : String) : Option String :=
  if k ∉ layers.overwrite ∧ layers.defaults.lookup k ≠ some v then some v else none

theorem lookup_erase_ite (options : Options) (k k' : String) :
    (options.erase k).lookup k' = if k' = k then none else options.lookup k' := by
  split
  · next h => rw [h, Finmap.lookup_erase]
  · next h => exact Finmap.lookup_erase_ne h

theorem lookup_insert_ite (options : Options) (k v k' : String) :
    (options.insert k v).lookup k' = if k' = k then some v else options.lookup k' := by
  split
  · next h => rw [h, Finmap.lookup_insert]
  · next h => exact Finmap.lookup_insert_of_ne _ h

/-- A lookup that is there already is not changed. -/
theorem ite_lookup_eq (options : Options) (k k' : String) :
    (if k' = k then options.lookup k else options.lookup k') = options.lookup k' := by
  split
  · next h => rw [h]
  · rfl

/-- A value is written, or an option taken away, where that changes anything. -/
theorem lookup_written (config : StoredOptions) (k k' : String) (v2 : Option String) :
    (if v2 ≠ config.options.lookup k then
      match v2 with
      | none => store { config with options := config.options.erase k }
      | some v => store { config with options := config.options.insert k v }
    else config).options.lookup k' = if k' = k then v2 else config.options.lookup k' := by
  by_cases hsame : v2 = config.options.lookup k
  · rw [if_neg (not_not.mpr hsame), hsame, ite_lookup_eq]
  · rw [if_pos hsame]
    cases v2 with
    | none => exact lookup_erase_ite _ _ _
    | some v => exact lookup_insert_ite _ _ _ _

@[simp]
theorem lookup_setOption (layers : OptionLayers) (config : StoredOptions) (k v k' : String) :
    (setOption layers config k v).options.lookup k' =
      if k' = k then kept layers k v else config.options.lookup k' := by
  unfold setOption kept
  by_cases hsave : isOptionCanSave layers.overwrite k layers.defaults v = true
  · obtain ⟨hover, hdefault⟩ := (isOptionCanSave_iff _ _ _ _).mp hsave
    have hkept : (if v.isEmpty then none else some v) =
        if k ∉ layers.overwrite ∧ layers.defaults.lookup k ≠ some v ∧ v ≠ "" then some v else none := by
      by_cases hv : v = "" <;> simp [hv, hover, hdefault]
    rw [if_neg (by simpa using hsave), ← hkept]
    exact lookup_written config k k' _
  · have hnot : ¬ (k ∉ layers.overwrite ∧ layers.defaults.lookup k ≠ some v ∧ v ≠ "") :=
      fun h => hsave ((isOptionCanSave_iff _ _ _ _).mpr ⟨h.1, h.2.1⟩)
    rw [if_pos (by simpa using hsave), if_neg hnot]
    split
    · exact lookup_erase_ite _ _ _
    · next hmem => rw [← Finmap.lookup_eq_none.mpr hmem, ite_lookup_eq]

@[simp]
theorem lookup_setOptions (layers : OptionLayers) (config : StoredOptions) (m : Options) (k : String) :
    (setOptions layers config m).options.lookup k = (m.lookup k).bind (keptOfAll layers k) := by
  have hpurified : (purifyOptions layers m).lookup k = (m.lookup k).bind (keptOfAll layers k) := by
    rw [purifyOptions, HashMap.lookup_retain]
    cases m.lookup k with
    | none => rfl
    | some v =>
      rw [Option.bind_some, Option.filter_some, keptOfAll]
      exact if_congr (isOptionCanSave_iff _ _ _ _) rfl rfl
  unfold setOptions
  dsimp only
  split
  · next h => rw [h, hpurified]
  · exact hpurified

/-- The file has the options of the config. -/
def Stored (config : StoredOptions) : Prop := config.file = config.options

theorem Stored.setOption (h : Stored config) (layers : OptionLayers) (k v : String) :
    Stored (setOption layers config k v) := by
  unfold StoredOptions.setOption
  dsimp only
  repeat' split
  all_goals first | rfl | exact h

theorem Stored.setOptions (h : Stored config) (layers : OptionLayers) (m : Options) :
    Stored (setOptions layers config m) := by
  unfold StoredOptions.setOptions
  dsimp only
  split
  · exact h
  · rfl

/-! ## What a reader sees -/

/-- The value that an option has beside the config. -/
def fallback (layers : OptionLayers) (k : String) : String :=
  ((layers.overwrite.lookup k).or (layers.defaults.lookup k)).getD ""

theorem getOption_of_lookup {config' : StoredOptions} (h : config'.options.lookup k = config.options.lookup k) :
    getOption layers config' k = getOption layers config k := by
  unfold getOption getOr
  rw [h]

theorem getOption_of_none (h : config.options.lookup k = none) : getOption layers config k = fallback layers k := by
  unfold getOption getOr fallback
  rw [h, Option.or_none]

theorem getOption_of_some (hover : k ∉ layers.overwrite) (h : config.options.lookup k = some v) :
    getOption layers config k = v := by
  unfold getOption getOr
  rw [h, Finmap.lookup_eq_none.mpr hover, Option.none_or, Option.some_or, Option.getD_some]

theorem lookup_getOptions (layers : OptionLayers) (config : StoredOptions) (k : String) :
    (getOptions layers config).lookup k = getOr layers.overwrite config.options layers.defaults k := by
  rw [getOptions, HashMap.lookup_extend, HashMap.lookup_extend, getOr, Option.or_assoc]

/-- A value that is not saved because it is the default is what is read. -/
theorem fallback_of_default (hover : k ∉ layers.overwrite) (h : layers.defaults.lookup k = some v) :
    fallback layers k = v := by
  unfold fallback
  rw [h, Finmap.lookup_eq_none.mpr hover, Option.none_or, Option.getD_some]

theorem getOption_of_overwrite (config' : StoredOptions) (hover : k ∈ layers.overwrite) :
    getOption layers config k = getOption layers config' k := by
  obtain ⟨v, hv⟩ := Option.isSome_iff_exists.mp (Finmap.lookup_isSome.mpr hover)
  unfold getOption getOr
  simp only [hv, Option.some_or]

theorem kept_of_ne_empty (h : v ≠ "") : kept layers k v = keptOfAll layers k v := by
  unfold kept keptOfAll
  simp [h]

/-- What is kept of all options is read again. -/
theorem getOption_of_keptOfAll (hover : k ∉ layers.overwrite)
    (h : config.options.lookup k = keptOfAll layers k v) : getOption layers config k = v := by
  unfold keptOfAll at h
  split at h
  · exact getOption_of_some hover h
  · next hnot =>
    rw [getOption_of_none h]
    exact fallback_of_default hover (by simpa [hover] using hnot)

end StoredOptions

open StoredOptions

/-! ## The layers agree -/

/-- The readers and the writers agree. -/
structure LayersAgree (layers : OptionLayers) (config : StoredOptions) (m : Options) : Prop where
  listed : ∀ k, k ∈ layers.overwrite ∨ k ∈ config.options ∨ k ∈ layers.defaults →
    (getOptions layers config).lookup k = some (getOption layers config k)
  written : ∀ k v, v ≠ "" → k ∉ layers.overwrite → getOption layers (setOption layers config k v) k = v
  others : ∀ k v k', k' ≠ k →
    getOption layers (setOption layers config k v) k' = getOption layers config k'
  each : ∀ k v, m.lookup k = some v → ∀ config' : StoredOptions,
    getOption layers (setOptions layers config m) k = getOption layers (setOption layers config' k v) k
  rest : ∀ k ∉ m, getOption layers (setOptions layers config m) k = fallback layers k
  again : ∀ k, getOption layers (setOptions layers config (getOptions layers config)) k =
    getOption layers config k

/-- An option that is set to the empty value is then empty. -/
def Emptied (layers : OptionLayers) (k : String) : Prop :=
  k ∉ layers.overwrite → ∀ d, layers.defaults.lookup k = some d → d = ""

section

variable {layers : OptionLayers} {config : StoredOptions} {m : Options} {k v : String}

/-- **The two writers** agree on a value, but for the empty one where the default is another. -/
theorem each_iff (hv : m.lookup k = some v) (config' : StoredOptions) :
    getOption layers (setOptions layers config m) k = getOption layers (setOption layers config' k v) k ↔
      (v = "" → Emptied layers k) := by
  have hall : (setOptions layers config m).options.lookup k = keptOfAll layers k v := by
    rw [lookup_setOptions, hv, Option.bind_some]
  have hone : (setOption layers config' k v).options.lookup k = kept layers k v := by
    rw [lookup_setOption, if_pos rfl]
  by_cases hempty : v = ""
  · subst hempty
    by_cases hover : k ∈ layers.overwrite
    · exact iff_of_true (getOption_of_overwrite _ hover) fun _ hnot => absurd hover hnot
    · -- the one writer keeps the empty value, the other takes the option away
      have hkept : kept layers k "" = none := by simp [kept]
      rw [getOption_of_keptOfAll hover hall, getOption_of_none (hone.trans hkept), fallback,
        Finmap.lookup_eq_none.mpr hover, Option.none_or]
      cases hdefault : layers.defaults.lookup k with
      | none => simp [Emptied, hdefault]
      | some d => simp [Emptied, hdefault, hover, eq_comm]
  · refine iff_of_true (getOption_of_lookup ?_) fun h => absurd h hempty
    rw [hall, hone, kept_of_ne_empty hempty]

/-- What is written back is what was read. -/
theorem getOption_setOptions_getOptions (layers : OptionLayers) (config : StoredOptions) (k : String) :
    getOption layers (setOptions layers config (getOptions layers config)) k = getOption layers config k := by
  by_cases hover : k ∈ layers.overwrite
  · exact getOption_of_overwrite _ hover
  have hlookup := lookup_setOptions layers config (getOptions layers config) k
  rw [lookup_getOptions] at hlookup
  cases hread : getOr layers.overwrite config.options layers.defaults k with
  | none =>
    rw [hread] at hlookup
    rw [getOption_of_none hlookup, getOption, hread]
    unfold getOr at hread
    rw [Option.or_eq_none_iff, Option.or_eq_none_iff] at hread
    rw [fallback, hread.1.1, hread.2]
    rfl
  | some v =>
    rw [hread] at hlookup
    rw [getOption_of_keptOfAll hover hlookup, getOption, hread, Option.getD_some]

/-- **When the layers agree**: the empty value is set only where it is what remains. -/
theorem layersAgree_iff (layers : OptionLayers) (config : StoredOptions) (m : Options) :
    LayersAgree layers config m ↔ ∀ k, m.lookup k = some "" → Emptied layers k := by
  constructor
  · intro h k hk
    exact (each_iff hk config).mp (h.each k "" hk config) rfl
  · intro h
    refine ⟨fun k hk => ?_, fun k v hv hover => ?_, fun k v k' hne => ?_, fun k v hv config' => ?_,
      fun k hk => ?_, getOption_setOptions_getOptions layers config⟩
    · rw [lookup_getOptions, getOption]
      have hsome : (getOr layers.overwrite config.options layers.defaults k).isSome = true := by
        simpa only [getOr, Option.isSome_or, Bool.or_eq_true, Finmap.lookup_isSome, or_assoc] using hk
      obtain ⟨v, hv⟩ := Option.isSome_iff_exists.mp hsome
      rw [hv, Option.getD_some]
    · refine getOption_of_keptOfAll hover ?_
      rw [lookup_setOption, if_pos rfl, kept_of_ne_empty hv]
    · refine getOption_of_lookup ?_
      rw [lookup_setOption, if_neg hne]
    · refine (each_iff hv config').mpr fun hempty => h k ?_
      rw [hv, hempty]
    · refine getOption_of_none ?_
      rw [lookup_setOptions, Finmap.lookup_eq_none.mpr hk, Option.bind_none]

end

/-- The empty value for an option whose default is `a`. -/
theorem not_layersAgree :
    ¬ LayersAgree ⟨∅, Finmap.singleton "b" "a"⟩ ⟨∅, ∅⟩ (Finmap.singleton "b" "") := by
  intro h
  have hdiffers := (each_iff Finmap.lookup_singleton_eq ⟨∅, ∅⟩).mp
    (h.each "b" "" Finmap.lookup_singleton_eq ⟨∅, ∅⟩) rfl Finmap.notMem_empty "a" Finmap.lookup_singleton_eq
  exact absurd hdiffers (by decide)

end RustDesk.Config
