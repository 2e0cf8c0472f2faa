import RustDesk.Common.Utf8Boundaries
import RustDesk.Config.PeerFiles

/-!
# Ids and the names of their files

An id is read back from the name of its file just if the name has no separator, is no way to a directory, and does
not look encoded without being so.
-/

namespace RustDesk.Config

open UnixPath

variable {configDir path : List Component} {name : List Char} {id : String}

/-! ## Paths -/

theorem withTomlExtension_concat (path : List Component) (name : List Char) :
    withTomlExtension (path ++ [.normal name]) = path ++ [.normal (name ++ '.' :: toml)] := by
  unfold withTomlExtension
  rw [extension_concat]
  cases hsplit : (splitAtDot name).2 with
  | none => rw [withExtension_concat, splitAtDot_fst hsplit]
  | some ext =>
    have hname : name = (splitAtDot name).1 ++ '.' :: ext := eq_of_splitAtDot (Prod.ext rfl hsplit)
    dsimp only
    rw [withExtension_concat]
    conv_rhs => rw [hname]
    simp

theorem length_withTomlExtension (path : List Component) : (withTomlExtension path).length = path.length := by
  unfold withTomlExtension
  split <;> exact length_withExtension _ _

theorem peerPath_of_isName (h : IsName (idEncoded id)) :
    peerPath configDir id = peersDir configDir ++ [.normal (idEncoded id ++ '.' :: toml)] := by
  rw [peerPath, h.pieces, List.filterMap_cons_some h.component, List.filterMap_nil, withTomlExtension_concat]

/-- A file of the directory with the extension is listed with the id that its stem stands for. -/
theorem listedPeer_toml (configDir : List Component) (hname : name ≠ []) :
    listedPeer configDir (peersDir configDir ++ [.normal (name ++ '.' :: toml)]) =
      some (idDecoded name, peersDir configDir ++ [.normal (name ++ '.' :: toml)]) := by
  have hsplit : splitAtDot (name ++ '.' :: toml) = (name, some toml) :=
    splitAtDot_append hname (by decide) (by decide)
  unfold listedPeer
  rw [List.dropLast_concat, extension_concat, fileStem_concat, hsplit, if_pos ⟨rfl, rfl⟩, Option.getD_some]

/-- What is not in the directory itself is not listed. -/
theorem listedPeer_eq_none (h : path.length ≠ (peersDir configDir).length + 1) :
    listedPeer configDir path = none := by
  unfold listedPeer
  rw [if_neg]
  rintro ⟨hdir, hext⟩
  have hlength := congrArg List.length hdir
  rw [List.length_dropLast] at hlength
  have hpos : path ≠ [] := by
    rintro rfl
    cases hext
  have hlt := List.length_pos_of_ne_nil hpos
  omega

/-! ## Stems -/

theorem bytes_ofList_append (xs ys : List Char) :
    Utf8.bytes (String.ofList (xs ++ ys)) = Utf8.bytes (String.ofList xs) ++ Utf8.bytes (String.ofList ys) := by
  rw [String.ofList_append, Utf8.bytes_append]

theorem length_le_bytes_ofList (xs : List Char) : xs.length ≤ (Utf8.bytes (String.ofList xs)).length := by
  have h := Utf8.length_le_bytes (String.ofList xs)
  rwa [String.length_ofList] at h

/-- What is decoded has no more characters than the digits. -/
theorem length_decoded (digits : List Char) :
    (Utf8.lossy ((base64.decode (Utf8.bytes (String.ofList digits))).getD [])).length ≤ digits.length := by
  cases hdecode : base64.decode (Utf8.bytes (String.ofList digits)) with
  | none => exact Nat.le_trans (Utf8.length_lossy _) (Nat.zero_le _)
  | some d =>
    obtain ⟨-, hle, hascii⟩ := Base64.decode_spec hdecode
    have hlength := Utf8.length_of_ascii hascii
    rw [String.length_ofList] at hlength
    rw [hlength]
    exact Nat.le_trans (Utf8.length_lossy d) hle

theorem idDecoded_append {digits : List Char} (hdigits : digits ≠ []) : idDecoded (encodedPrefix ++ digits) =
      Utf8.lossy ((base64.decode (Utf8.bytes (String.ofList digits))).getD []) := by
  have hseven : (Utf8.bytes (String.ofList encodedPrefix)).length = 7 := by decide
  have hpos := List.length_pos_of_ne_nil hdigits
  have hle := length_le_bytes_ofList digits
  have hlength : (Utf8.bytes (String.ofList (encodedPrefix ++ digits))).length ≠ 7 := by
    rw [bytes_ofList_append, List.length_append, hseven]
    omega
  unfold idDecoded
  rw [if_pos ⟨List.isPrefixOf_iff_prefix.mpr (List.prefix_append _ _), hlength⟩]
  rfl

/-- **A name stands for itself** unless it looks encoded: what is decoded is shorter. -/
theorem idDecoded_eq_iff (name : List Char) :
    idDecoded name = String.ofList name ↔ (encodedPrefix <+: name → name = encodedPrefix) := by
  by_cases hprefix : encodedPrefix <+: name
  · obtain ⟨digits, rfl⟩ := hprefix
    by_cases hdigits : digits = []
    · subst hdigits
      refine iff_of_true ?_ fun _ => List.append_nil _
      have hseven : (Utf8.bytes (String.ofList (encodedPrefix ++ []))).length = 7 := by decide
      unfold idDecoded
      rw [if_neg fun h => h.2 hseven]
    · refine iff_of_false (fun heq => ?_) fun h => hdigits ?_
      · have hlength := length_decoded digits
        rw [← idDecoded_append hdigits, heq, String.length_ofList, List.length_append] at hlength
        have hseven : encodedPrefix.length = 7 := rfl
        omega
      · simpa using h (List.prefix_append _ _)
  · refine iff_of_true ?_ fun h => absurd h hprefix
    unfold idDecoded
    rw [if_neg fun h => hprefix (List.isPrefixOf_iff_prefix.mp h.1)]

/-! ## Digits -/

/-- The digits of an id. -/
def digitsOf (id : String) : List Char := (base64.encode (Utf8.bytes id)).toList

theorem ofList_digitsOf (id : String) : String.ofList (digitsOf id) = base64.encode (Utf8.bytes id) :=
  String.ofList_toList

theorem bytes_digitsOf (id : String) :
    Utf8.bytes (String.ofList (digitsOf id)) = Base64.encode (Utf8.bytes id) := by
  rw [ofList_digitsOf]
  exact Utf8.bytes_ascii (Base64.encode_lt _)

theorem mem_digitsOf {c : Char} (h : c ∈ digitsOf id) : c ≠ '.' ∧ c ≠ nul := by
  have hchars : digitsOf id = (Base64.encode (Utf8.bytes id)).map fun b => Char.ofNat b.toNat :=
    String.toList_ofList
  rw [hchars] at h
  obtain ⟨b, hb, rfl⟩ := List.mem_map.mp h
  have hne := Base64.encode_ne _ b hb
  have hlt := Base64.encode_lt _ b hb
  have hall : ∀ i : Fin 128, (Char.ofNat i = '.' → i = 46) ∧ (Char.ofNat i = nul → i = 0) := by decide
  have hone := hall ⟨b.toNat, hlt⟩
  refine ⟨fun heq => hne.2 ?_, fun heq => hne.1 ?_⟩
  · have hval := congrArg Fin.val (hone.1 heq)
    exact UInt8.toNat_inj.mp hval
  · have hval := congrArg Fin.val (hone.2 heq)
    exact UInt8.toNat_inj.mp hval

theorem digitsOf_ne_nil (hid : id ≠ "") : digitsOf id ≠ [] := by
  intro hnil
  refine base64_correct.encode_ne (Utf8.bytes id) (mt Utf8.bytes_eq_nil.mp hid) ?_
  rw [← ofList_digitsOf, hnil]

/-- The digits stand for the id. -/
theorem idDecoded_digitsOf (hid : id ≠ "") : idDecoded (encodedPrefix ++ digitsOf id) = id := by
  rw [idDecoded_append (digitsOf_ne_nil hid), ofList_digitsOf, base64_correct.decode_of_encode,
    Option.getD_some, Utf8.lossy_bytes]

/-- Digits that end in separators do not stand for the id without them. -/
theorem idDecoded_ne_of_slashes (hforbidden : isForbidden id = true) {digits : List Char} {n : ℕ} (hn : n ≠ 0)
    (h : digitsOf id = digits ++ List.replicate n '/') : idDecoded (encodedPrefix ++ digits) ≠ id := by
  by_cases hdigits : digits = []
  · subst hdigits
    have hplain : encodedPrefix.any (· ∈ forbiddenChars) = false := rfl
    have hself : idDecoded (encodedPrefix ++ []) = String.ofList encodedPrefix := by
      rw [List.append_nil]
      exact (idDecoded_eq_iff encodedPrefix).mpr fun _ => rfl
    rw [hself]
    rintro rfl
    cases hforbidden
  · rw [idDecoded_append hdigits]
    cases hdecode : base64.decode (Utf8.bytes (String.ofList digits)) with
    | none =>
      have hempty : Utf8.lossy [] = "" := by rw [Utf8.lossy, Utf8.lossyChars]
      rw [Option.getD_none, hempty]
      rintro rfl
      cases hforbidden
    | some d =>
      -- all bits of the last digits are set, and so are those of a byte of the id
      have hslashes : Utf8.bytes (String.ofList (List.replicate n '/')) = List.replicate n Base64.slash := by
        rw [Utf8.bytes, String.toList_ofList, List.flatMap_replicate]
        exact List.flatten_replicate_singleton
      have hencode : Base64.encode (Utf8.bytes id) =
          Utf8.bytes (String.ofList digits) ++ List.replicate n Base64.slash := by
        rw [← bytes_digitsOf, h, bytes_ofList_append, hslashes]
      have hmem := Base64.mem_of_encode_slashes hn hdecode hencode
      exact absurd (Utf8.bytes_lt id 255 hmem) (by decide)

/-! ## Ids that are listed -/

/-- An id whose file is written, and listed with the id. -/
def Lists (configDir : List Component) (id : String) : Prop :=
  canStore (peerPath configDir id) = true ∧
    listedPeer configDir (peerPath configDir id) = some (id, peerPath configDir id)

/-- The digits of a forbidden id have no separator, and another id is a name that does not look encoded. -/
def GoodId (id : String) : Prop :=
  if isForbidden id then '/' ∉ digitsOf id
  else nul ∉ id.toList ∧ id ≠ "." ∧ id ≠ ".." ∧ (encodedPrefix <+: id.toList → id.toList = encodedPrefix)

theorem lists_iff_of_isName (configDir : List Component) (h : IsName (idEncoded id)) :
    Lists configDir id ↔ nul ∉ idEncoded id ∧ idDecoded (idEncoded id) = id := by
  have hnul : nul ∉ '.' :: toml := by decide
  unfold Lists
  rw [peerPath_of_isName h, listedPeer_toml configDir h.ne_nil, canStore, List.getLast?_concat]
  simp [hnul]

theorem not_lists_of_length (h : (peerPath configDir id).length ≠ (peersDir configDir).length + 1) :
    ¬ Lists configDir id := by
  intro hlists
  have hnone := listedPeer_eq_none h
  rw [hlists.2] at hnone
  cases hnone

theorem idEncoded_plain (h : isForbidden id = false) : idEncoded id = id.toList :=
  if_neg (by rw [h]; exact Bool.false_ne_true)

theorem idEncoded_forbidden (h : isForbidden id = true) : idEncoded id = encodedPrefix ++ digitsOf id := if_pos h

/-- An id without forbidden characters. -/
theorem lists_iff_plain (configDir : List Component) (hid : id ≠ "") (hplain : isForbidden id = false) :
    Lists configDir id ↔ GoodId id := by
  have hencoded := idEncoded_plain hplain
  have hseparator : '/' ∉ id.toList := by
    intro hmem
    have hall := List.any_eq_false.mp hplain '/' hmem
    exact hall (by decide)
  unfold GoodId
  rw [if_neg (by rw [hplain]; exact Bool.false_ne_true)]
  by_cases hhere : id = "."
  · subst hhere
    refine iff_of_false (not_lists_of_length ?_) fun h => h.2.1 rfl
    have hnone : (pieces (idEncoded ".")).filterMap component = [] := by decide
    rw [peerPath, hnone, List.append_nil, length_withTomlExtension]
    omega
  by_cases hup : id = ".."
  · subst hup
    refine iff_of_false (fun h => ?_) fun h => h.2.2.1 rfl
    have hparent : (pieces (idEncoded "..")).filterMap component = [.parentDir] := by decide
    have hpath : peerPath configDir ".." = peersDir configDir ++ [.parentDir] := by
      rw [peerPath, hparent, withTomlExtension, extension, List.getLast?_concat]
      rw [withExtension, List.getLast?_concat]
    have hstore := h.1
    rw [hpath, canStore, List.getLast?_concat] at hstore
    cases hstore
  · have hname : IsName (idEncoded id) := by
      rw [hencoded]
      exact ⟨fun hnil => hid (String.toList_eq_nil_iff.mp hnil), hseparator,
        fun heq => hhere (String.toList_inj.mp heq), fun heq => hup (String.toList_inj.mp heq)⟩
    have hself := idDecoded_eq_iff id.toList
    rw [String.ofList_toList] at hself
    rw [lists_iff_of_isName configDir hname, hencoded, hself]
    exact and_congr_right fun _ => ⟨fun h => ⟨hhere, hup, h⟩, fun h => h.2.2⟩

/-- Digits without a separator are a name. -/
theorem isName_digitsOf (hslash : '/' ∉ digitsOf id) : IsName (encodedPrefix ++ digitsOf id) := by
  refine ⟨List.append_ne_nil_of_left_ne_nil (by decide) _, ?_, ?_, ?_⟩
  · rw [List.mem_append, not_or]
    exact ⟨by decide, hslash⟩
  · intro heq
    cases (List.cons.inj heq).1
  · intro heq
    cases (List.cons.inj heq).1

/-- A text of nothing but separators has no components, and only such a text. -/
theorem eq_replicate_of_components {text : List Char} (hdot : '.' ∉ text)
    (h : (pieces text).filterMap component = []) : text = List.replicate text.length '/' := by
  refine List.eq_replicate_of_mem fun c hc => ?_
  by_contra hne
  obtain ⟨piece, hpiece, hmem⟩ := (mem_pieces_iff hne).mpr hc
  have hcdot : c ≠ '.' := by
    rintro rfl
    exact hdot hc
  have hcomponent := List.mem_filterMap.mpr ⟨piece, hpiece, component_of_mem hcdot hmem⟩
  rw [h] at hcomponent
  exact absurd hcomponent List.not_mem_nil

/-- An id with forbidden characters. -/
theorem lists_iff_forbidden (configDir : List Component) (hid : id ≠ "") (hforbidden : isForbidden id = true) :
    Lists configDir id ↔ GoodId id := by
  have hencoded := idEncoded_forbidden hforbidden
  unfold GoodId
  rw [if_pos hforbidden]
  by_cases hslash : '/' ∈ digitsOf id
  · refine iff_of_false ?_ fun h => h hslash
    obtain ⟨digits, text, hdigits, hfirst⟩ := List.eq_append_cons_of_mem hslash
    have hname : IsName (encodedPrefix ++ digits) := by
      refine ⟨List.append_ne_nil_of_left_ne_nil (by decide) _, ?_, fun heq => ?_, fun heq => ?_⟩
      · rw [List.mem_append, not_or]
        exact ⟨by decide, hfirst⟩
      · cases (List.cons.inj heq).1
      · cases (List.cons.inj heq).1
    have hpieces : pieces (idEncoded id) = (encodedPrefix ++ digits) :: pieces text := by
      rw [hencoded, hdigits, ← List.append_assoc, pieces, List.splitOn_append_cons_self]
      exact congrArg (· ++ _) hname.pieces
    have hpath : peerPath configDir id = withTomlExtension (peersDir configDir ++
        .normal (encodedPrefix ++ digits) :: (pieces text).filterMap component) := by
      rw [peerPath, hpieces, List.filterMap_cons_some hname.component]
    by_cases htext : (pieces text).filterMap component = []
    · -- the separators at the end are lost
      rw [htext, withTomlExtension_concat] at hpath
      have hdot : '.' ∉ text := fun hmem => (mem_digitsOf (by rw [hdigits]; simp [hmem])).1 rfl
      have hslashes := eq_replicate_of_components hdot htext
      have hall : digitsOf id = digits ++ List.replicate (text.length + 1) '/' := by
        rw [hdigits, List.replicate_succ, ← hslashes]
      intro hlists
      have hlisted := hlists.2
      rw [hpath, listedPeer_toml configDir hname.ne_nil] at hlisted
      exact idDecoded_ne_of_slashes hforbidden (Nat.succ_ne_zero _) hall (Prod.mk.inj (Option.some.inj hlisted)).1
    · -- the file is further down
      refine not_lists_of_length ?_
      have hpos := List.length_pos_of_ne_nil htext
      rw [hpath, length_withTomlExtension, List.length_append, List.length_cons]
      omega
  · refine iff_of_true ?_ hslash
    have hname := isName_digitsOf hslash
    rw [← hencoded] at hname
    rw [lists_iff_of_isName configDir hname, hencoded]
    refine ⟨?_, idDecoded_digitsOf hid⟩
    rw [List.mem_append, not_or]
    exact ⟨by decide, fun hmem => (mem_digitsOf hmem).2 rfl⟩

/-- **Which ids are read back** from the names of their files. -/
theorem lists_iff (configDir : List Component) (hid : id ≠ "") : Lists configDir id ↔ GoodId id := by
  cases hforbidden : isForbidden id with
  | true => exact lists_iff_forbidden configDir hid hforbidden
  | false => exact lists_iff_plain configDir hid hforbidden

end RustDesk.Config
