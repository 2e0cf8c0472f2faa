import RustDesk.Common.LdapFilter

/-!
# Looking users up

References: `rustdesk-api/service/ldap.go` (`usernameSearchResult`, `emailSearchResult`, `buildUserSearchRequest`,
`filterField`, `fieldUsername`, `fieldEmail`).

What is typed is put between the attribute and a closing parenthesis as it is. `isUserInGroup` escapes what it puts
into a filter.
-/

namespace RustDesk.Api

open LdapFilter

/-- `config.LdapUser`, as far as a look-up reads it. -/
structure LdapUserConfig where
  filter : List Char
  username : List Char
  email : List Char

namespace LdapUserConfig

section Functions

variable (cfg : LdapUserConfig)

def fieldUsername : List Char := if cfg.username = [] then "uid".toList else cfg.username

def fieldEmail : List Char := if cfg.email = [] then "mail".toList else cfg.email

def filterField (field value : List Char) : List Char := '(' :: (field ++ '=' :: (value ++ [')']))

def filterConfig : List Char := if cfg.filter = [] then "(cn=*)".toList else cfg.filter

/-- The filter of the request. -/
def buildUserSearchRequest (filter : List Char) : List Char := '(' :: '&' :: (cfg.filterConfig ++ (filter ++ [')']))

def usernameSearchResult (username : List Char) : List Char :=
  cfg.buildUserSearchRequest (filterField cfg.fieldUsername username)

def emailSearchResult (email : List Char) : List Char := cfg.buildUserSearchRequest (filterField cfg.fieldEmail email)

end Functions

/-- A filter of this text means what was typed: the entries that match are those that match the filter that is
configured and have the value. -/
def MeansTyped (configured attr value built : List Char) : Prop :=
  WellFormed built ∧ ∀ f₀ f : Filter, Text .filter f₀ configured → Text .filter f built →
    ∀ (rules : MatchingRules) (e : Entry),
      rules.Matches e f ↔ rules.Matches e f₀ ∧ rules.Equals e attr (Utf8.encoded value)

/-- A user is looked up by what was typed as the name. -/
def UsernameMeansTyped (cfg : LdapUserConfig) (value : List Char) : Prop :=
  MeansTyped cfg.filterConfig cfg.fieldUsername value (cfg.usernameSearchResult value)

/-- A user is looked up by what was typed as the address. -/
def EmailMeansTyped (cfg : LdapUserConfig) (value : List Char) : Prop :=
  MeansTyped cfg.filterConfig cfg.fieldEmail value (cfg.emailSearchResult value)

variable {attr value : List Char}

theorem itemText_equality (hattr : IsAttribute attr) (hvalue : ∀ c ∈ value, Normal c) :
    ItemText (.pattern attr [Utf8.encoded value]) (attr ++ '=' :: value) :=
  ⟨hattr, [value], List.cons_ne_nil _ _, .cons (value_encoded hvalue) .nil, by rw [List.intercalate_singleton]; rfl⟩

/-- Of characters that stand for themselves, the request is the configured filter and a comparison. -/
theorem text_request (cfg : LdapUserConfig) (hattr : IsAttribute attr) (hvalue : ∀ c ∈ value, Normal c) {f₀ : Filter}
    (hf₀ : Text .filter f₀ cfg.filterConfig) :
    Text .filter (.and (.list f₀ (.item (.pattern attr [Utf8.encoded value]))))
      (cfg.buildUserSearchRequest (filterField attr value)) := by
  have htext := Text.and (.cons hf₀ (.one (.item (itemText_equality hattr hvalue))))
  simpa [buildUserSearchRequest, filterField] using htext

theorem meansTyped_of_normal (cfg : LdapUserConfig) (hcfg : WellFormed cfg.filterConfig) (hattr : IsAttribute attr)
    (hvalue : ∀ c ∈ value, Normal c) :
    MeansTyped cfg.filterConfig attr value (cfg.buildUserSearchRequest (filterField attr value)) := by
  constructor
  · obtain ⟨f₀, hf₀⟩ := hcfg
    exact ⟨_, text_request cfg hattr hvalue hf₀⟩
  · intro f₀ f hf₀ hf rules e
    rw [hf.unique (text_request cfg hattr hvalue hf₀), MatchingRules.matches_and_list, MatchingRules.matches_equality]

/-! ## What does not stand for itself -/

/-- Every entry that has the attribute. -/
def present : Filter := .item (.pattern "cn".toList [[], []])

theorem isAttribute_of_isDescr {s : List Char} (h : IsDescr s) : IsAttribute s :=
  ⟨s, [], .inl h, fun _ ho => absurd ho List.not_mem_nil, (List.append_nil s).symm⟩

theorem isDescr_cn : IsDescr "cn".toList := ⟨'c', ['n'], rfl, by decide, List.all_iff_forall_prop.mp (by decide)⟩

theorem text_present : Text .filter present "(cn=*)".toList := by
  have hitem : ItemText (.pattern "cn".toList [[], []]) "cn=*".toList :=
    ⟨isAttribute_of_isDescr isDescr_cn, [[], []], List.cons_ne_nil _ _, .cons .nil (.cons .nil .nil), rfl⟩
  exact .item hitem

/-- What is compared in a request is a part of what was typed. -/
theorem infix_of_request {a text front back : List Char} (hattr : '=' ∉ attr)
    (htext : ∀ c ∈ text, c ≠ ')' ∧ c ≠ '*')
    (h : buildUserSearchRequest ⟨[], [], []⟩ (filterField attr value) = front ++ '(' :: (a ++ '=' :: text ++ ')' :: back)) :
    text <:+: value := by
  -- no equals sign is before the asterisk, and none is between the asterisk and that of the attribute
  have hfirst : "(&(cn".toList ++ '=' :: ("*)(".toList ++ attr ++ '=' :: (value ++ [')', ')'])) =
      (front ++ '(' :: a) ++ '=' :: (text ++ ')' :: back) := by
    simpa [buildUserSearchRequest, filterConfig, filterField] using h
  have hclose : ')' ∉ text := fun hmem => (htext _ hmem).1 rfl
  obtain ⟨r, -, hr⟩ := Patterns.exists_of_append_eq (by decide) hfirst
  cases r with
  | nil =>
    cases text with
    | nil => simp at hr
    | cons c text =>
      obtain ⟨rfl, -⟩ : '*' = c ∧ _ := by simpa using hr
      exact absurd rfl (htext '*' List.mem_cons_self).2
  | cons c r =>
    have hsecond : "*)(".toList ++ attr ++ '=' :: (value ++ [')', ')']) = r ++ '=' :: (text ++ ')' :: back) :=
      List.tail_eq_of_cons_eq hr
    have hfront : '=' ∉ "*)(".toList ++ attr := fun hmem => (List.mem_append.mp hmem).elim (by decide) hattr
    obtain ⟨r', -, hr'⟩ := Patterns.exists_of_append_eq hfront hsecond
    obtain ⟨q, hq⟩ : ∃ q, value ++ [')', ')'] = q ++ (text ++ ')' :: back) := by
      cases r' with
      | nil => exact ⟨[], List.tail_eq_of_cons_eq hr'⟩
      | cons d r' => exact ⟨r' ++ ['='], by simpa using List.tail_eq_of_cons_eq hr'⟩
    rcases List.append_eq_append_iff.mp hq with ⟨m, -, hm⟩ | ⟨m, rfl, hm⟩
    · cases text with
      | nil => exact List.nil_infix
      | cons c text =>
        have hmem : c ∈ [')', ')'] := by
          rw [hm]
          simp
        have hc : c = ')' := by simpa using hmem
        exact absurd hc (htext c List.mem_cons_self).1
    · have hprefix : text <+: m := Patterns.prefix_of_prefix_append ⟨_, hm⟩ hclose
      exact hprefix.isInfix.trans (List.suffix_append q m).isInfix

theorem length_encoded_pos {s : List Char} (h : s ≠ []) : 0 < (Utf8.encoded s).length := by
  cases s with
  | nil => exact absurd rfl h
  | cons c s =>
    have hc := String.length_utf8EncodeChar c
    have hpos := Char.utf8Size_pos c
    rw [Utf8.encoded_cons, List.length_append]
    omega

/-- A part of what was typed is the value of a text that is shorter, unless the text stands for itself. -/
theorem ne_of_infix {text : List Char} {b : List UInt8} {c : Char} (h : text <:+: value) (hb : Value text b)
    (hc : c ∈ value) (hnormal : ¬ Normal c) : b ≠ Utf8.encoded value ∧ b ≠ Utf8.encoded value ++ [0] := by
  obtain ⟨p, q, rfl⟩ := h
  have hlength : (Utf8.encoded (p ++ text ++ q)).length =
      (Utf8.encoded p).length + (Utf8.encoded text).length + (Utf8.encoded q).length := by
    rw [Utf8.encoded_append, Utf8.encoded_append, List.length_append, List.length_append]
  have hlt : b.length < (Utf8.encoded (p ++ text ++ q)).length := by
    rcases hb.length with hlt | ⟨htext, rfl⟩
    · omega
    · -- what does not stand for itself is before or behind
      have hne : p ≠ [] ∨ q ≠ [] := by
        by_contra hnot
        obtain ⟨rfl, rfl⟩ : p = [] ∧ q = [] := by simpa using hnot
        exact hnormal (htext c (by simpa using hc))
      rcases hne with hne | hne
      · have hpos := length_encoded_pos hne
        omega
      · have hpos := length_encoded_pos hne
        omega
  constructor
  · rintro rfl
    omega
  · rintro rfl
    rw [List.length_append] at hlt
    omega

/-- A directory with one value that is not what was typed, which its rules may take for that. -/
def confusing (w x : List UInt8) : MatchingRules where
  normalise _ b := if b = w then x else b
  other _ _ := some false

theorem not_meansTyped {c : Char} (hattr : IsAttribute attr) (hc : c ∈ value) (hnormal : ¬ Normal c) :
    ¬ MeansTyped "(cn=*)".toList attr value (buildUserSearchRequest ⟨[], [], []⟩ (filterField attr value)) := by
  rintro ⟨⟨f, hf⟩, hmeans⟩
  let w := Utf8.encoded value ++ [0]
  let e : Entry := fun _ => [w]
  have hw : Utf8.encoded value ≠ w := by simp [w]
  have hpresent : ∀ rules : MatchingRules, rules.Matches e present := fun _ => rfl
  have heq : (confusing w (Utf8.encoded value)).Equals e attr (Utf8.encoded value) :=
    ⟨w, List.mem_singleton_self w, by simp [confusing]⟩
  have hne : ¬ (confusing w w).Equals e attr (Utf8.encoded value) := by
    rintro ⟨x, hx, h⟩
    obtain rfl := List.mem_singleton.mp hx
    have hsame : w = Utf8.encoded value := by simpa [confusing, hw] using h
    exact hw hsame.symm
  -- no item of the request asks for either value
  have hsame : ∀ i ∈ f.items, (confusing w (Utf8.encoded value)).itemTruth e i = (confusing w w).itemTruth e i := by
    intro i hi
    obtain ⟨front, p, back, ⟨hnamed, texts, -, hvalues, rfl⟩, hbuilt⟩ := hf.exists_item hi
    rcases i with ⟨a, _ | ⟨b, _ | ⟨b', pieces⟩⟩⟩ | ⟨a, order, b⟩ | ⟨head, b⟩
    · rfl
    · cases hvalues with
      | @cons text _ _ _ hvalue htail =>
        cases htail
        rw [List.intercalate_singleton] at hbuilt
        have hchars : ∀ d ∈ text, d ≠ ')' ∧ d ≠ '*' := fun d hd => (hvalue.char_ne hd).2
        have hinfix := infix_of_request (fun hmem => absurd (hattr.attributeChar hmem) (by decide)) hchars hbuilt
        obtain ⟨hb, hbw⟩ := ne_of_infix hinfix hvalue hc hnormal
        have hneither : ¬ b = w ∧ ¬ w = b := ⟨hbw, Ne.symm hbw⟩
        have hleft : (confusing w (Utf8.encoded value)).itemTruth e (.pattern a [b]) = some false := by
          simp [MatchingRules.itemTruth, confusing, e, hneither, hb.symm]
        have hright : (confusing w w).itemTruth e (.pattern a [b]) = some false := by
          simp [MatchingRules.itemTruth, confusing, e, hneither]
        rw [hleft, hright]
    · rcases b with _ | ⟨x, b⟩ <;> rcases b' with _ | ⟨y, b'⟩ <;> rcases pieces with _ | ⟨z, pieces⟩ <;> rfl
    · rfl
    · rfl
  have htruth := MatchingRules.truth_congr (c := .and) e hsame
  have hmatches := (hmeans present f text_present hf _ e).mpr ⟨hpresent _, heq⟩
  exact hne ((hmeans present f text_present hf _ e).mp (htruth.symm.trans hmatches)).2

/-- A look-up means what was typed, for every filter that is configured, just if each character stands for
itself. -/
theorem meansTyped_iff (username email : List Char) (hattr : IsAttribute attr) :
    (∀ filter, filter = [] ∨ WellFormed filter → MeansTyped (filterConfig ⟨filter, username, email⟩) attr value
        (buildUserSearchRequest ⟨filter, username, email⟩ (filterField attr value))) ↔ ∀ c ∈ value, Normal c := by
  constructor
  · intro h c hc
    by_contra hnormal
    exact not_meansTyped hattr hc hnormal (h [] (.inl rfl))
  · intro hvalue filter hfilter
    refine meansTyped_of_normal ⟨filter, username, email⟩ ?_ hattr hvalue
    rw [filterConfig]
    split
    · exact ⟨present, text_present⟩
    · next hne => exact hfilter.resolve_left hne

theorem isAttribute_fieldUsername (cfg : LdapUserConfig) (h : cfg.username = [] ∨ IsAttribute cfg.username) :
    IsAttribute cfg.fieldUsername := by
  rw [fieldUsername]
  split
  · exact isAttribute_of_isDescr ⟨'u', ['i', 'd'], rfl, by decide, List.all_iff_forall_prop.mp (by decide)⟩
  · next hne => exact h.resolve_left hne

theorem isAttribute_fieldEmail (cfg : LdapUserConfig) (h : cfg.email = [] ∨ IsAttribute cfg.email) :
    IsAttribute cfg.fieldEmail := by
  rw [fieldEmail]
  split
  · exact isAttribute_of_isDescr ⟨'m', ['a', 'i', 'l'], rfl, by decide, List.all_iff_forall_prop.mp (by decide)⟩
  · next hne => exact h.resolve_left hne

/-- **Look-ups mean what was typed** just if each character stands for itself in a filter. -/
theorem lookUps_meanTyped_iff {username email : List Char} (husername : username = [] ∨ IsAttribute username)
    (hemail : email = [] ∨ IsAttribute email) (value : List Char) :
    ((∀ filter, filter = [] ∨ WellFormed filter → UsernameMeansTyped ⟨filter, username, email⟩ value) ↔
      ∀ c ∈ value, Normal c) ∧
    ((∀ filter, filter = [] ∨ WellFormed filter → EmailMeansTyped ⟨filter, username, email⟩ value) ↔
      ∀ c ∈ value, Normal c) :=
  ⟨meansTyped_iff username email (isAttribute_fieldUsername ⟨[], username, email⟩ husername),
    meansTyped_iff username email (isAttribute_fieldEmail ⟨[], username, email⟩ hemail)⟩

theorem lookUps_meanTyped_default :
    ((∀ filter, filter = [] ∨ WellFormed filter → UsernameMeansTyped ⟨filter, [], []⟩ "jdoe".toList) ↔
      ∀ c ∈ "jdoe".toList, Normal c) ∧
    ((∀ filter, filter = [] ∨ WellFormed filter → EmailMeansTyped ⟨filter, [], []⟩ "jdoe".toList) ↔
      ∀ c ∈ "jdoe".toList, Normal c) :=
  lookUps_meanTyped_iff (.inl rfl) (.inl rfl) "jdoe".toList

/-- An asterisk asks for every entry that has the attribute. -/
theorem not_usernameMeansTyped_asterisk :
    Text .filter (.and (.list present (.item (.pattern "uid".toList [[], []]))))
        (usernameSearchResult ⟨[], [], []⟩ ['*']) ∧
      ¬ UsernameMeansTyped ⟨[], [], []⟩ ['*'] := by
  have huid : IsAttribute "uid".toList := isAttribute_of_isDescr ⟨'u', ['i', 'd'], rfl, by decide, List.all_iff_forall_prop.mp (by decide)⟩
  have hitem : ItemText (.pattern "uid".toList [[], []]) "uid=*".toList :=
    ⟨huid, [[], []], List.cons_ne_nil _ _, .cons .nil (.cons .nil .nil), rfl⟩
  constructor
  · exact .and (.cons text_present (.one (.item hitem)))
  · exact not_meansTyped huid (List.mem_singleton_self '*') (by decide)

end LdapUserConfig

end RustDesk.Api
