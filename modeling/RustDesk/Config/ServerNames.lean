import RustDesk.Config.CustomServer

/-!
# Which file names are read as they are meant

Reference: `src/custom_server.rs` and its test.

A name is meant as a prefix, `host=` with a value, further keys with values, each behind a comma, perhaps one more
comma, and perhaps `.exe`. Lower case that has more bytes than the prefix moves the position behind the `h` of
`host=`, and lower case that has fewer moves it into the prefix.
-/

namespace RustDesk.Config

open Patterns Texts

/-! ## Names -/

inductive Keyword
  | key | api | relay
deriving DecidableEq

def Keyword.word : Keyword → List Char
  | key => keyWord
  | api => apiWord
  | relay => relayWord

/-- A keyword in any letter case, and its value. -/
structure Part where
  keyword : Keyword
  word : List Char
  value : List Char
  word_case : asciiLower word = keyword.word
  no_comma : ',' ∉ value

def Part.text (p : Part) : List Char := p.word ++ p.value

def Part.set (server : CustomServer) (p : Part) : CustomServer :=
  match p.keyword with
  | .key => { server with key := p.value }
  | .api => { server with api := p.value }
  | .relay => { server with relay := p.value }

/-- What comes behind the prefix. -/
structure ServerName where
  word : List Char
  host : List Char
  parts : List Part
  comma : Bool
  suffix : List Char
  word_case : asciiLower word = hostWord
  no_comma : ',' ∉ host
  suffix_case : suffix = [] ∨ asciiLower suffix = exeWord

namespace ServerName

variable (name : ServerName)

/-- The elements between the commas. -/
def elements : List (List Char) :=
  (name.word ++ name.host) :: name.parts.map Part.text ++ if name.comma then [[]] else []

def body : List Char := List.intercalate [','] name.elements

def text : List Char := name.body ++ name.suffix

/-- The values, of each keyword the last one. -/
def values : CustomServer := name.parts.foldl Part.set { host := name.host }

/-- The last value. -/
def last : List Char := (name.parts.getLast?.map Part.value).getD name.host

/-- The value in front of the suffix does not end like one. -/
def Plain : Prop := name.comma = true ∨ ¬ exeWord <:+ asciiLower name.last

end ServerName

/-- A prefix without `host=`. -/
structure NamePrefix where
  text : List Char
  no_host : find hostWord (asciiLower text) = none

/-- What is left of the prefix behind the position that its lower case gives is nothing, or it ends with a comma and
brings no values. -/
def Harmless (u : Unicode) (pre : List Char) : Prop :=
  ∃ front extra, pre = front ++ extra ∧ byteLen front = byteLen (toLowercase u pre) ∧
    (extra = [] ∨ extra.getLast? = some ',') ∧ readElements u {} (extra.splitOn ',') = {}

/-! ## Elements -/

variable {u : Unicode} {io : ConfigIo} {s w suffix : List Char} {pre : NamePrefix}

theorem asciiLower_append (a b : List Char) : asciiLower (a ++ b) = asciiLower a ++ asciiLower b := List.map_append

theorem ascii_of_asciiLower (h : asciiLower s = w) (hw : ∀ d ∈ w, d.toNat < 128) : ∀ c ∈ s, c.toNat < 128 := by
  subst h
  intro c hc
  by_contra hforeign
  have hlower := hw c.toLower (List.mem_map_of_mem hc)
  rw [toLower_of_foreign (by omega)] at hlower
  exact hforeign hlower

theorem notMem_of_asciiLower (h : asciiLower s = w) {c : Char} (hc : c.toLower ∉ w) : c ∉ s := by
  subst h
  exact fun hmem => hc (List.mem_map_of_mem hmem)

/-- The lower case of a word in ASCII with its value begins with the word. -/
theorem toLowercase_word {word : List Char} (hword : asciiLower word = w) (hw : ∀ d ∈ w, d.toNat < 128)
    (value : List Char) : ∃ rest, toLowercase u (word ++ value) = w ++ rest := by
  obtain ⟨rest, hrest⟩ := toLowercase_ascii_append (u := u) (ascii_of_asciiLower hword hw) value
  exact ⟨rest, by rw [hrest, hword]⟩

theorem drop_word {word : List Char} (hword : asciiLower word = w) (value : List Char) :
    (word ++ value).drop w.length = value := by
  subst hword
  rw [asciiLower, List.length_map, List.drop_left]

theorem readElement_host {word : List Char} (hword : asciiLower word = hostWord) (server : CustomServer)
    (value : List Char) : readElement u server (word ++ value) = { server with host := value } := by
  obtain ⟨rest, hrest⟩ := toLowercase_word (u := u) hword (List.all_iff_forall_prop.mp (by decide)) value
  have hdrop : (word ++ value).drop 5 = value := drop_word hword value
  rw [readElement, hrest, hdrop]
  rfl

section

variable (server : CustomServer)
include server

theorem readElement_part (p : Part) : readElement u server p.text = p.set server := by
  obtain ⟨keyword, word, value, hword, hcomma⟩ := p
  have hascii : ∀ d ∈ keyword.word, d.toNat < 128 := by
    cases keyword <;> exact List.all_iff_forall_prop.mp (by decide)
  obtain ⟨rest, hrest⟩ := toLowercase_word (u := u) hword hascii value
  have hdrop := drop_word hword value
  rw [readElement, Part.text, hrest]
  cases keyword with
  | key | api =>
    have hdrop' : (word ++ value).drop 4 = value := hdrop
    rw [hdrop']
    rfl
  | relay =>
    have hdrop' : (word ++ value).drop 6 = value := hdrop
    rw [hdrop']
    rfl

theorem readElement_nil : readElement u server [] = server := rfl

theorem readElements_parts (parts : List Part) :
    readElements u server (parts.map Part.text) = parts.foldl Part.set server := by
  induction parts generalizing server with
  | nil => rfl
  | cons p parts ih =>
    rw [List.map_cons, readElements, List.foldl_cons, readElement_part, ← readElements, ih, List.foldl_cons]

theorem readElements_append (els els' : List (List Char)) :
    readElements u server (els ++ els') = readElements u (readElements u server els) els' := List.foldl_append

end

/-- **The elements of a name** give its values. -/
theorem readElements_elements (name : ServerName) : readElements u {} name.elements = name.values := by
  have hcomma : ∀ server, readElements u server (if name.comma then [[]] else []) = server := by
    intro server
    split
    · exact readElement_nil (u := u) server
    · rfl
  rw [ServerName.elements, readElements_append, hcomma, readElements, List.foldl_cons, readElement_host name.word_case,
    ← readElements, readElements_parts]
  rfl

/-- What does not begin with `host=` leaves the host. -/
theorem readElements_host {els : List (List Char)} (h : ∀ el ∈ els, ¬ hostWord <+: asciiLower el)
    (server : CustomServer) : (readElements u server els).host = server.host := by
  induction els generalizing server with
  | nil => rfl
  | cons el els ih =>
    obtain ⟨hel, hels⟩ := List.forall_mem_cons.mp h
    have hnot : ¬ hostWord.isPrefixOf (toLowercase u el) = true := by
      rw [List.isPrefixOf_iff_prefix, prefix_toLowercase_iff plainWord_hostWord]
      exact hel
    have hkeep : (readElement u server el).host = server.host := by
      rw [readElement, if_neg hnot]
      split <;> split <;> split <;> rfl
    rw [readElements, List.foldl_cons, ← readElements, ih hels, hkeep]

theorem splitOn_body (name : ServerName) : name.body.splitOn ',' = name.elements := by
  refine List.splitOn_intercalate ',' ?_ ?_
  · intro el hel
    have hword : ',' ∉ name.word := notMem_of_asciiLower name.word_case (by decide)
    have hpart : ∀ p : Part, ',' ∉ p.text := by
      intro p
      have hpword : ',' ∉ p.word := notMem_of_asciiLower p.word_case (by cases p.keyword <;> decide)
      rw [Part.text, List.mem_append, not_or]
      exact ⟨hpword, p.no_comma⟩
    rcases List.mem_append.mp hel with hel | hel
    · rcases List.mem_cons.mp hel with rfl | hel
      · rw [List.mem_append, not_or]
        exact ⟨hword, name.no_comma⟩
      · obtain ⟨p, -, rfl⟩ := List.mem_map.mp hel
        exact hpart p
    · split at hel
      · rw [List.mem_singleton.mp hel]
        exact List.not_mem_nil
      · cases hel
  · rw [ServerName.elements, List.cons_append]
    exact List.cons_ne_nil _ _

/-! ## Behind a harmless prefix -/

theorem body_eq (name : ServerName) : ∃ rest, name.body = name.word ++ rest := by
  rw [ServerName.body, ServerName.elements, List.cons_append]
  cases hrest : name.parts.map Part.text ++ if name.comma then [[]] else [] with
  | nil => exact ⟨name.host, by rw [List.intercalate_singleton]⟩
  | cons el els => exact ⟨_, by rw [List.intercalate_cons_cons, List.append_assoc, List.append_assoc]⟩

/-- The first `host=` is that of the name. -/
theorem find_hostWord (pre : NamePrefix) {word : List Char} (hword : asciiLower word = hostWord) (rest : List Char) :
    find hostWord (asciiLower (pre.text ++ (word ++ rest))) = some pre.text.length := by
  rw [asciiLower_append, asciiLower_append, hword]
  have hfind : find hostWord (asciiLower pre.text ++ (hostWord ++ asciiLower rest)) = some (asciiLower pre.text).length :=
    find_append (by decide) pre.no_host (asciiLower rest)
  rwa [asciiLower, List.length_map, ← asciiLower] at hfind

theorem readElements_splitOn_comma (server : CustomServer) (extra : List Char) :
    readElements u server ((extra ++ [',']).splitOn ',') = readElements u server (extra.splitOn ',') := by
  rw [List.splitOn_append_cons_self, readElements_append]
  rfl

theorem readName_body (h : Harmless u pre.text) (name : ServerName) :
    readName u io (pre.text ++ name.body) = some (some name.values) := by
  obtain ⟨front, extra, hpre, hlen, hend, hextra⟩ := h
  obtain ⟨rest, hbody⟩ := body_eq name
  have hfind : find hostWord (asciiLower (pre.text ++ name.body)) = some pre.text.length := by
    rw [hbody]
    exact find_hostWord pre name.word_case rest
  have hsplit : splitAtByte (pre.text ++ name.body) (byteLen (toLowercase u pre.text)) =
      some (front, extra ++ name.body) := by
    refine splitAtByte_eq_some.mpr ⟨?_, hlen⟩
    rw [hpre, List.append_assoc]
  have hread : readElements u {} ((extra ++ name.body).splitOn ',') = name.values := by
    rcases hend with rfl | hlast
    · rw [List.nil_append, splitOn_body, readElements_elements]
    · obtain ⟨extra, rfl⟩ := List.getLast?_eq_some_iff.mp hlast
      rw [readElements_splitOn_comma] at hextra
      rw [List.append_assoc, List.singleton_append, List.splitOn_append_cons_self, readElements_append, hextra,
        splitOn_body, readElements_elements]
  rw [readName_of_some hfind, List.take_left, hsplit, Option.map_some, hread]

/-! ## The end of a name -/

theorem toLower_eq_sign {c : Char} (h : c.toLower = '=') : c = '=' := by
  unfold Char.toLower at h
  split at h
  · next hupper =>
    have hval := congrArg Char.toNat h
    have hlo : 65 ≤ c.val.toNat := hupper.1
    have hhi : c.val.toNat ≤ 90 := hupper.2
    have hsum : (c.val + 32).toNat = c.val.toNat + 32 := by
      rw [UInt32.toNat_add]
      exact Nat.mod_eq_of_lt (by show c.val.toNat + 32 < _; omega)
    have hval' : (c.val + 32).toNat = 61 := hval
    omega
  · exact h

/-- A keyword ends with its sign. -/
theorem word_eq {word : List Char} (h : asciiLower word = w ++ ['=']) : ∃ front, word = front ++ ['='] := by
  obtain ⟨front, back, rfl, -, hback⟩ := List.map_eq_append_iff.mp h
  obtain ⟨c, rfl, hc⟩ := List.map_eq_singleton_iff.mp hback
  exact ⟨front, by rw [toLower_eq_sign hc]⟩

theorem intercalate_concat {els : List (List Char)} (h : els ≠ []) (el : List Char) :
    List.intercalate [','] (els ++ [el]) = List.intercalate [','] els ++ ',' :: el := by
  induction els with
  | nil => exact absurd rfl h
  | cons first els ih =>
    cases els with
    | nil => simp
    | cons next els =>
      rw [List.cons_append, List.cons_append, List.intercalate_cons_cons, ← List.cons_append,
        ih (List.cons_ne_nil _ _), List.intercalate_cons_cons]
      simp

/-- Behind a separator the end of the name is the end of what follows. -/
theorem stripped_append {sep : Char} (hsep : sep.toLower ∉ exeWord) (front s : List Char) :
    stripped (front ++ sep :: s) = front ++ sep :: stripped s := by
  have hsuffix : ∀ w, sep.toLower ∉ w → (w <:+ asciiLower (front ++ sep :: s) ↔ w <:+ asciiLower s) := by
    intro w hw
    have hlower : asciiLower (front ++ sep :: s) = asciiLower front ++ sep.toLower :: asciiLower s :=
      asciiLower_append _ _
    rw [hlower]
    exact ⟨fun h => suffix_of_suffix_append h hw, fun h => h.trans ((List.suffix_cons _ _).trans (List.suffix_append _ _))⟩
  have htake : ∀ w, w <:+ asciiLower s →
      (front ++ sep :: s).take ((front ++ sep :: s).length - w.length) = front ++ sep :: s.take (s.length - w.length) := by
    intro w hw
    have hle := hw.length_le
    rw [asciiLower, List.length_map] at hle
    have hsub : (front ++ sep :: s).length - w.length = front.length + (s.length - w.length + 1) := by
      rw [List.length_append, List.length_cons]
      omega
    rw [hsub, List.take_length_add_append, List.take_succ_cons]
  have hexe : sep.toLower ∉ exeWord ++ exeWord := fun h => (List.mem_append.mp h).elim hsep hsep
  unfold stripped
  simp only [hsuffix _ hexe, hsuffix _ hsep]
  split
  · next h => exact htake _ h
  · split
    · next h => exact htake _ h
    · rfl

theorem stripped_suffix (h : suffix = [] ∨ asciiLower suffix = exeWord) : stripped suffix = [] := by
  rcases h with rfl | h
  · rfl
  · have hlen : suffix.length = 4 := by
      have hlen := congrArg List.length h
      rwa [asciiLower, List.length_map] at hlen
    rw [stripped, h, if_neg (by decide), if_pos (List.suffix_refl _), hlen]
    rfl

/-- A text that does not end like the suffix is what is left of it with a suffix. -/
theorem stripped_of_plain {v : List Char} (hv : ¬ exeWord <:+ asciiLower v)
    (h : suffix = [] ∨ asciiLower suffix = exeWord) : stripped (v ++ suffix) = v := by
  rcases h with rfl | h
  · rw [List.append_nil, stripped, if_neg, if_neg hv]
    exact fun hsuffix => hv ((List.suffix_append _ _).trans hsuffix)
  · have hlen : suffix.length = 4 := by
      have hlen := congrArg List.length h
      rwa [asciiLower, List.length_map] at hlen
    rw [stripped, asciiLower_append, h, if_neg, if_pos (List.suffix_append _ _), List.length_append, hlen,
      Nat.add_sub_cancel, List.take_left]
    exact fun hsuffix => hv ((List.suffix_append_inj_of_length_eq rfl).mp hsuffix |>.1)

/-- Of a text that does, some of its characters are missing. -/
theorem stripped_of_not_plain {v : List Char} (hv : exeWord <:+ asciiLower v)
    (h : suffix = [] ∨ asciiLower suffix = exeWord) : ∃ k < v.length, stripped (v ++ suffix) = v.take k := by
  have hlen : 4 ≤ v.length := by
    have hle := hv.length_le
    rwa [asciiLower, List.length_map] at hle
  rcases h with rfl | h
  · rw [List.append_nil, stripped]
    split
    · exact ⟨v.length - 8, by omega, rfl⟩
    · exact ⟨v.length - 4, by omega, rfl⟩
  · have hlen' : suffix.length = 4 := by
      have hlen := congrArg List.length h
      rwa [asciiLower, List.length_map] at hlen
    have hboth : exeWord ++ exeWord <:+ asciiLower (v ++ suffix) := by
      rw [asciiLower_append, h]
      obtain ⟨front, hfront⟩ := hv
      exact ⟨front, by rw [← hfront, List.append_assoc]⟩
    refine ⟨v.length - 4, by omega, ?_⟩
    rw [stripped, if_pos hboth, List.length_append, hlen']
    have hsub : v.length + 4 - 8 = v.length - 4 := by omega
    rw [hsub, List.take_append_of_le_length (Nat.sub_le _ _)]

namespace ServerName

variable {name : ServerName}

theorem set_set (server server' : CustomServer) (p p' : Part) (hkeyword : p.keyword = p'.keyword)
    (h : p.set server = p'.set server') : p.value = p'.value := by
  obtain ⟨keyword, _, _, _, _⟩ := p
  obtain ⟨_, _, _, _, _⟩ := p'
  subst hkeyword
  cases keyword with
  | key => exact congrArg CustomServer.key h
  | api => exact congrArg CustomServer.api h
  | relay => exact congrArg CustomServer.relay h

/-- The last value stands behind a sign, and the name with another one there has other values. -/
theorem exists_stem (hcomma : name.comma = false) :
    ∃ stem, name.body = stem ++ '=' :: name.last ∧ ∀ v, ',' ∉ v → v ≠ name.last →
      ∃ name' : ServerName, name'.body = stem ++ '=' :: v ∧ name'.values ≠ name.values := by
  obtain ⟨word, host, parts, comma, suffix, hword, hhost, hsuffix⟩ := name
  obtain rfl : comma = false := hcomma
  have hbody : ∀ host parts hhost, (ServerName.mk word host parts false suffix hword hhost hsuffix).body =
      List.intercalate [','] ((word ++ host) :: parts.map Part.text) := by
    intro host parts hhost
    rw [body, elements, if_neg Bool.false_ne_true, List.append_nil]
  rcases List.eq_nil_or_concat parts with rfl | ⟨parts, p, rfl⟩
  · obtain ⟨front, rfl⟩ := word_eq (w := ['h', 'o', 's', 't']) hword
    refine ⟨front, by rw [hbody]; simp [last], fun v hv hne => ?_⟩
    refine ⟨⟨_, v, [], false, suffix, hword, hv, hsuffix⟩, by rw [hbody]; simp, fun h => hne ?_⟩
    exact congrArg CustomServer.host h
  · obtain ⟨front, hfront⟩ : ∃ front, p.word = front ++ ['='] := by
      have hpword := p.word_case
      cases hkeyword : p.keyword <;> rw [hkeyword] at hpword
      · exact word_eq (w := ['k', 'e', 'y']) hpword
      · exact word_eq (w := ['a', 'p', 'i']) hpword
      · exact word_eq (w := ['r', 'e', 'l', 'a', 'y']) hpword
    have hlast : ∀ q : Part, q.word = p.word →
        List.intercalate [','] ((word ++ host) :: (parts ++ [q]).map Part.text) =
          List.intercalate [','] ((word ++ host) :: parts.map Part.text) ++ ',' :: front ++ '=' :: q.value := by
      intro q hq
      rw [List.map_append, List.map_singleton, ← List.cons_append, intercalate_concat (List.cons_ne_nil _ _), Part.text,
        hq, hfront]
      simp
    rw [List.concat_eq_append] at *
    refine ⟨List.intercalate [','] ((word ++ host) :: parts.map Part.text) ++ ',' :: front, ?_, fun v hv hne => ?_⟩
    · rw [hbody, hlast p rfl]
      simp [last]
    · refine ⟨⟨word, host, parts ++ [⟨p.keyword, p.word, v, p.word_case, hv⟩], false, suffix, hword, hhost, hsuffix⟩,
        by rw [hbody]; exact hlast _ rfl, fun h => hne ?_⟩
      rw [values, values, List.foldl_append, List.foldl_append, List.foldl_cons, List.foldl_cons, List.foldl_nil,
        List.foldl_nil] at h
      have hvalue : v = p.value := set_set _ _ ⟨p.keyword, p.word, v, p.word_case, hv⟩ p rfl h
      rw [hvalue]
      simp [last]

theorem last_no_comma (name : ServerName) : ',' ∉ name.last := by
  unfold last
  cases name.parts.getLast? with
  | none => exact name.no_comma
  | some p => exact p.no_comma

/-- With a comma at the end. -/
theorem exists_stem_comma (hcomma : name.comma = true) : ∃ stem, name.body = stem ++ [','] := by
  refine ⟨List.intercalate [','] ((name.word ++ name.host) :: name.parts.map Part.text), ?_⟩
  rw [body, elements, if_pos hcomma, intercalate_concat (List.cons_ne_nil _ _)]

end ServerName

/-- **Behind a harmless prefix** a name is read as it is meant if its last value does not end like the suffix. -/
theorem getCustomServerFromString_iff_plain (h : Harmless u pre.text) (name : ServerName) :
    getCustomServerFromString u io (pre.text ++ name.text) = some (some name.values) ↔ name.Plain := by
  rw [getCustomServerFromString_eq, ServerName.text, ServerName.Plain]
  cases hcomma : name.comma with
  | true =>
    obtain ⟨stem, hstem⟩ := ServerName.exists_stem_comma hcomma
    have hstrip : stripped (pre.text ++ (name.body ++ name.suffix)) = pre.text ++ name.body := by
      have hassoc : pre.text ++ (name.body ++ name.suffix) = (pre.text ++ stem) ++ ',' :: name.suffix := by
        rw [hstem]
        simp
      rw [hassoc, stripped_append (by decide), stripped_suffix name.suffix_case, hstem]
      simp
    rw [hstrip]
    exact iff_of_true (readName_body h name) (.inl rfl)
  | false =>
    obtain ⟨stem, hstem, hother⟩ := ServerName.exists_stem hcomma
    have hassoc : pre.text ++ (name.body ++ name.suffix) = (pre.text ++ stem) ++ '=' :: (name.last ++ name.suffix) := by
      rw [hstem]
      simp
    rw [hassoc, stripped_append (by decide), or_iff_right Bool.false_ne_true]
    constructor
    · intro hread hsuffix
      obtain ⟨k, hk, hstrip⟩ := stripped_of_not_plain hsuffix name.suffix_case
      have hne : name.last.take k ≠ name.last := by
        intro heq
        have hlen := congrArg List.length heq
        rw [List.length_take] at hlen
        omega
      obtain ⟨name', hbody, hvalues⟩ := hother (name.last.take k) (fun hmem => name.last_no_comma (List.mem_of_mem_take hmem)) hne
      rw [hstrip, List.append_assoc, ← hbody, readName_body h name'] at hread
      exact hvalues (Option.some.inj (Option.some.inj hread))
    · intro hplain
      rw [stripped_of_plain hplain name.suffix_case, List.append_assoc, ← hstem]
      exact readName_body h name

/-- `host=a` -/
def shortName : ServerName := ⟨hostWord, ['a'], [], false, [], rfl, by decide, .inl rfl⟩

theorem shortName_text : shortName.text = hostWord ++ ['a'] := rfl

/-- An element of a text without `host=` does not begin with it. -/
theorem not_prefix_of_mem_splitOn {front mid back el : List Char} (h : find hostWord (asciiLower s) = none)
    (hs : s = front ++ (mid ++ back)) (hel : el ∈ mid.splitOn ',') : ¬ hostWord <+: asciiLower el := by
  obtain ⟨before, after, hmid, -⟩ : ∃ before after, List.intercalate [','] (mid.splitOn ',') = before ++ (el ++ after) ∧ _ :=
    mem_intercalate hel
  rw [List.intercalate_splitOn] at hmid
  have hparts : asciiLower s = asciiLower (front ++ before) ++ (asciiLower el ++ asciiLower (after ++ back)) := by
    rw [hs, hmid, ← asciiLower_append, ← asciiLower_append]
    simp
  exact not_prefix_of_find_eq_none h hparts

/-- If the name is read, then an element with `host=` is left, and only the one behind the prefix has it. -/
theorem harmless_of_shortName
    (h : getCustomServerFromString u io (pre.text ++ shortName.text) = some (some shortName.values)) :
    Harmless u pre.text := by
  have hstrip : stripped (pre.text ++ shortName.text) = pre.text ++ shortName.text := by
    have hassoc : pre.text ++ shortName.text = (pre.text ++ ['h', 'o', 's', 't']) ++ '=' :: ['a'] := by
      rw [shortName_text, List.append_assoc]
      rfl
    rw [hassoc, stripped_append (by decide)]
    rfl
  have hfind : find hostWord (asciiLower (pre.text ++ shortName.text)) = some pre.text.length :=
    find_hostWord pre shortName.word_case ['a']
  rw [getCustomServerFromString_eq, hstrip, readName_of_some hfind, List.take_left] at h
  obtain ⟨⟨front, back⟩, hparts, hread⟩ := Option.map_eq_some_iff.mp h
  have hvalues : readElements u {} (back.splitOn ',') = { host := ['a'] } := Option.some.inj hread
  obtain ⟨hsplit, hlen⟩ := splitAtByte_eq_some.mp hparts
  obtain ⟨el, hel, hprefix⟩ : ∃ el ∈ back.splitOn ',', hostWord <+: asciiLower el := by
    by_contra hnone
    have hhost := readElements_host (u := u) (fun el hel hprefix => hnone ⟨el, hel, hprefix⟩) {}
    rw [hvalues] at hhost
    cases hhost
  obtain ⟨extra, after, hback, hend⟩ : ∃ extra after, List.intercalate [','] (back.splitOn ',') = extra ++ (el ++ after) ∧
    (extra = [] ∨ extra.getLast? = some ',') := mem_intercalate hel
  rw [List.intercalate_splitOn] at hback
  have hwhole : pre.text ++ (hostWord ++ ['a']) = (front ++ extra) ++ (el ++ after) := by
    rw [← shortName_text, hsplit, hback, List.append_assoc]
  -- the element stands where `host=` does
  have hbehind : hostWord <+: asciiLower (el ++ after) := by
    rw [asciiLower_append]
    exact hprefix.trans (List.prefix_append _ _)
  have hpos : (front ++ extra).length = pre.text.length := by
    obtain ⟨-, -, hfirst⟩ := find_eq_some.mp hfind
    rw [shortName_text, hwhole] at hfirst
    have hge : ¬ (front ++ extra).length < pre.text.length := by
      intro hlt
      refine hfirst _ hlt ?_
      have hdrop : (asciiLower ((front ++ extra) ++ (el ++ after))).drop (front ++ extra).length =
          asciiLower (el ++ after) := by
        rw [asciiLower, ← List.map_drop, List.drop_left]
        rfl
      rw [hdrop]
      exact hbehind
    have hword : hostWord.length = 5 := rfl
    have hshort : (hostWord ++ ['a']).length = 6 := rfl
    have hlong := hbehind.length_le
    have hlength := congrArg List.length hwhole
    rw [List.length_append, hshort, @List.length_append _ (front ++ extra)] at hlength
    rw [asciiLower, List.length_map] at hlong
    by_contra hne
    -- one character further on there is no `host=` any more
    have hnext : (front ++ extra).length = pre.text.length + 1 := by omega
    have hdrop := congrArg (List.drop (pre.text.length + 1)) hwhole
    rw [← hnext, List.drop_left, hnext, List.drop_length_add_append] at hdrop
    rw [← hdrop] at hbehind
    exact absurd hbehind (by decide)
  obtain ⟨hpre, hbody⟩ := List.append_inj hwhole hpos.symm
  refine ⟨front, extra, hpre, hlen, hend, ?_⟩
  rcases hend with rfl | hlast
  · rfl
  · obtain ⟨extra, rfl⟩ := List.getLast?_eq_some_iff.mp hlast
    have hhost : (readElements u {} (extra.splitOn ',')).host = [] := readElements_host (fun el hel =>
      not_prefix_of_mem_splitOn pre.no_host hpre hel) {}
    have hsplitOn : back.splitOn ',' = extra.splitOn ',' ++ [hostWord ++ ['a']] := by
      rw [hback, ← hbody, List.append_assoc, List.singleton_append, List.splitOn_append_cons_self]
      rfl
    rw [hsplitOn, readElements_append] at hvalues
    have hset : readElements u (readElements u {} (extra.splitOn ',')) [hostWord ++ ['a']] =
        { readElements u {} (extra.splitOn ',') with host := ['a'] } := readElement_host rfl _ _
    rw [hset] at hvalues
    rw [readElements_splitOn_comma]
    generalize readElements u {} (extra.splitOn ',') = server at hvalues hhost
    obtain ⟨key, host, api, relay⟩ := server
    cases hvalues
    cases hhost
    rfl

/-- **A name is read without a panic** just if the position is that of a character, and as it is meant just behind a
harmless prefix, if its last value does not end like the suffix. -/
theorem fileNames_read_iff (u : Unicode) (io : ConfigIo) :
    (∀ s, (getCustomServerFromString u io s).isSome = true ↔ OnBoundary u (stripped s)) ∧
      ∀ pre : NamePrefix,
        (∀ name : ServerName,
          getCustomServerFromString u io (pre.text ++ name.text) = some (some name.values) ↔ name.Plain) ↔
        Harmless u pre.text := by
  refine ⟨fun s => ?_, fun pre => ⟨fun h => ?_, getCustomServerFromString_iff_plain⟩⟩
  · rw [getCustomServerFromString_eq]
    exact isSome_readName_iff u io _
  · exact harmless_of_shortName ((h shortName).mpr (.inr (by decide)))

/-! ### A sharp S and a dotted I -/

def dotAbove : Char := Char.ofNat 0x307

def sampleLower (c : Char) : List Char :=
  if c = 'İ' then ['i', dotAbove]
  else if c = Char.ofNat 0x212A then ['k']
  else if c = 'ẞ' then ['ß']
  else [c.toLower]

/-- The tables for the characters of the names below. -/
def sampleUnicode : Unicode where
  lower := sampleLower
  cased c := c.isAlpha || c = 'İ' || c = 'ẞ'
  caseIgnorable c := c = dotAbove
  whitespace c := c.isWhitespace
  lower_ascii c hc := by
    have hne : ∀ d : Char, 128 ≤ d.toNat → c ≠ d := by
      rintro d hd rfl
      omega
    rw [sampleLower, if_neg (hne _ (by decide)), if_neg (hne _ (by decide)), if_neg (hne _ (by decide))]
  lower_foreign c hc := by
    unfold sampleLower
    split
    · exact ⟨List.cons_ne_nil _ _, List.all_iff_forall_prop.mp (by decide)⟩
    · split
      · exact ⟨List.cons_ne_nil _ _, List.all_iff_forall_prop.mp (by decide)⟩
      · split
        · exact ⟨List.cons_ne_nil _ _, List.all_iff_forall_prop.mp (by decide)⟩
        · rw [toLower_of_foreign hc]
          exact ⟨List.cons_ne_nil _ _, List.forall_mem_singleton.mpr (.inl hc)⟩

def noConfig : ConfigIo := ⟨fun _ => none, fun _ => none, fun _ _ => none⟩

/-- The lower case of a sharp S has two bytes of its three, so the name is cut in the middle of it. That of a dotted I
has three for two, so the `h` of `host=` is lost and with it the value. -/
theorem cut_in_lower_case :
    (¬ ∀ s, (getCustomServerFromString sampleUnicode noConfig s).isSome = true) ∧
      ¬ ∀ (pre : NamePrefix) (name : ServerName), name.Plain →
        getCustomServerFromString sampleUnicode noConfig (pre.text ++ name.text) = some (some name.values) := by
  constructor
  · intro h
    have hsome := h ('ẞ' :: shortName.text)
    revert hsome
    decide +kernel
  · intro h
    have hread := h ⟨['İ'], by decide⟩ shortName (.inr (by decide))
    revert hread
    decide +kernel

end RustDesk.Config
