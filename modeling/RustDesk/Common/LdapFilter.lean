import Mathlib.Data.List.Forall2
import RustDesk.Common.Patterns
import RustDesk.Common.Utf8Boundaries

/-!
# LDAP search filters

The grammar of RFC 4515 and what a filter means by RFC 4511. `Text` relates a filter to its texts. No text of one
filter begins that of another (`text_prefixFree`), so a text has one meaning, also inside of another text.

Of the values that an entry has for an attribute, one equals a value that is asserted if the rule of the attribute
brings both into the same form. The other rules of a directory are a parameter.
-/

namespace LdapFilter

/-! ## Filters -/

inductive Order
  | approx | greaterOrEqual | lessOrEqual
deriving DecidableEq

def Order.sign : Order → Char
  | approx => '~'
  | greaterOrEqual => '>'
  | lessOrEqual => '<'

/-- An item. Of a pattern there are the pieces between the asterisks: one piece is an equality, two empty ones ask
whether the attribute is there. An extensible match has all that is before its `:=` as it is written. -/
inductive Item
  | pattern (attr : List Char) (pieces : List (List UInt8))
  | ordering (attr : List Char) (order : Order) (value : List UInt8)
  | extensible (head : List Char) (value : List UInt8)
deriving DecidableEq

/-- A filter. A list of filters is a filter and, after it, perhaps a list. -/
inductive Filter
  | item (i : Item)
  | not (f : Filter)
  | and (fs : Filter)
  | or (fs : Filter)
  | list (f fs : Filter)

/-! ## Texts -/

/-- A character of a value that stands for itself. -/
def Normal (c : Char) : Prop := c.toNat ≠ 0 ∧ c ≠ '(' ∧ c ≠ ')' ∧ c ≠ '*' ∧ c ≠ '\\'

instance (c : Char) : Decidable (Normal c) := inferInstanceAs (Decidable (_ ∧ _))

def hexDigits : List Char := "0123456789abcdefABCDEF".toList

def hexValue (c : Char) : ℕ := if c.isDigit then c.toNat - 48 else c.toLower.toNat - 87

/-- A value: characters that stand for themselves, and bytes that are escaped. -/
inductive Value : List Char → List UInt8 → Prop
  | nil : Value [] []
  | normal {c : Char} {s : List Char} {bs : List UInt8} : Normal c → Value s bs →
      Value (c :: s) (String.utf8EncodeChar c ++ bs)
  | escaped {x y : Char} {s : List Char} {bs : List UInt8} : x ∈ hexDigits → y ∈ hexDigits → Value s bs →
      Value ('\\' :: x :: y :: s) (UInt8.ofNat (16 * hexValue x + hexValue y) :: bs)

/-- A letter, a digit or a hyphen. -/
def KeyChar (c : Char) : Prop := c.isAlphanum = true ∨ c = '-'

instance (c : Char) : Decidable (KeyChar c) := inferInstanceAs (Decidable (_ ∨ _))

def IsDescr (s : List Char) : Prop := ∃ c rest, s = c :: rest ∧ c.isAlpha = true ∧ ∀ d ∈ rest, KeyChar d

/-- A number without zeros in front. -/
def IsNumber (s : List Char) : Prop := s = ['0'] ∨ ∃ c rest, s = c :: rest ∧ c ≠ '0' ∧ ∀ d ∈ s, d.isDigit = true

def IsNumericOid (s : List Char) : Prop :=
  ∃ numbers : List (List Char), 2 ≤ numbers.length ∧ (∀ n ∈ numbers, IsNumber n) ∧ s = List.intercalate ['.'] numbers

def IsOid (s : List Char) : Prop := IsDescr s ∨ IsNumericOid s

/-- The name of an attribute, with its options. -/
def IsAttribute (s : List Char) : Prop :=
  ∃ oid, ∃ options : List (List Char), IsOid oid ∧ (∀ o ∈ options, o ≠ [] ∧ ∀ c ∈ o, KeyChar c) ∧
    s = oid ++ options.flatMap (';' :: ·)

/-- What is before the `:=`: an attribute, `:dn` and a rule, where the attribute or the rule may be missing. -/
def IsHead (s : List Char) : Prop :=
  ∃ attr dn rule, (attr = [] ∨ IsAttribute attr) ∧ (dn = [] ∨ dn = [':', 'd', 'n']) ∧
    (rule = [] ∨ ∃ oid, IsOid oid ∧ rule = ':' :: oid) ∧ (attr ≠ [] ∨ rule ≠ []) ∧ s = attr ++ (dn ++ rule)

namespace Item

/-- What is before the equals sign. -/
def front : Item → List Char
  | pattern attr _ => attr
  | ordering attr order _ => attr ++ [order.sign]
  | extensible head _ => head ++ [':']

/-- What is behind it, with asterisks between. -/
def pieces : Item → List (List UInt8)
  | pattern _ pieces => pieces
  | ordering _ _ value => [value]
  | extensible _ value => [value]

def Named : Item → Prop
  | pattern attr _ => IsAttribute attr
  | ordering attr _ _ => IsAttribute attr
  | extensible head _ => IsHead head

end Item

def ItemText (i : Item) (s : List Char) : Prop :=
  i.Named ∧ ∃ texts : List (List Char), texts ≠ [] ∧ List.Forall₂ Value texts i.pieces ∧
    s = i.front ++ '=' :: List.intercalate ['*'] texts

/-- A filter, or a list of filters. -/
inductive Kind
  | filter | list

inductive Text : Kind → Filter → List Char → Prop
  | item {i : Item} {s : List Char} : ItemText i s → Text .filter (.item i) ('(' :: (s ++ [')']))
  | not {f : Filter} {s : List Char} : Text .filter f s → Text .filter (.not f) ('(' :: '!' :: (s ++ [')']))
  | and {fs : Filter} {s : List Char} : Text .list fs s → Text .filter (.and fs) ('(' :: '&' :: (s ++ [')']))
  | or {fs : Filter} {s : List Char} : Text .list fs s → Text .filter (.or fs) ('(' :: '|' :: (s ++ [')']))
  | one {f : Filter} {s : List Char} : Text .filter f s → Text .list f s
  | cons {f fs : Filter} {s t : List Char} : Text .filter f s → Text .list fs t → Text .list (.list f fs) (s ++ t)

/-- What RFC 4515 allows. -/
def WellFormed (s : List Char) : Prop := ∃ f, Text .filter f s

/-! ## Each text has one filter -/

section Characters

/-- A character of the name of an attribute. -/
def AttributeChar (c : Char) : Prop := KeyChar c ∨ c = '.' ∨ c = ';'

instance (c : Char) : Decidable (AttributeChar c) := inferInstanceAs (Decidable (_ ∨ _))

/-- A character that may stand before the equals sign of an item. -/
def FrontChar (c : Char) : Prop := AttributeChar c ∨ c = ':' ∨ c = '~' ∨ c = '>' ∨ c = '<'

instance (c : Char) : Decidable (FrontChar c) := inferInstanceAs (Decidable (_ ∨ _))

theorem keyChar_of_isAlpha {c : Char} (h : c.isAlpha = true) : KeyChar c :=
  .inl (by rw [Char.isAlphanum, h, Bool.true_or])

theorem keyChar_of_isDigit {c : Char} (h : c.isDigit = true) : KeyChar c :=
  .inl (by rw [Char.isAlphanum, h, Bool.or_true])

variable {s : List Char} {c : Char}

theorem IsDescr.keyChar (h : IsDescr s) (hc : c ∈ s) : KeyChar c := by
  obtain ⟨d, rest, rfl, hd, hrest⟩ := h
  rcases List.mem_cons.mp hc with rfl | hc
  · exact keyChar_of_isAlpha hd
  · exact hrest c hc

theorem IsNumber.isDigit (h : IsNumber s) (hc : c ∈ s) : c.isDigit = true := by
  rcases h with rfl | ⟨d, rest, rfl, -, hdigits⟩
  · obtain rfl := List.mem_singleton.mp hc
    rfl
  · exact hdigits c hc

theorem mem_of_mem_intercalate {α : Type*} {sep : α} {parts : List (List α)} {x : α}
    (h : x ∈ List.intercalate [sep] parts) : x = sep ∨ ∃ part ∈ parts, x ∈ part := by
  induction parts with
  | nil => cases h
  | cons first parts ih =>
    cases parts with
    | nil =>
      rw [List.intercalate_singleton] at h
      exact .inr ⟨first, List.mem_cons_self, h⟩
    | cons next parts =>
      rw [List.intercalate_cons_cons, List.append_assoc, List.mem_append, List.mem_append, List.mem_singleton] at h
      rcases h with h | h | h
      · exact .inr ⟨first, List.mem_cons_self, h⟩
      · exact .inl h
      · rcases ih h with h | ⟨part, hpart, h⟩
        · exact .inl h
        · exact .inr ⟨part, List.mem_cons_of_mem _ hpart, h⟩

theorem IsOid.attributeChar (h : IsOid s) (hc : c ∈ s) : AttributeChar c := by
  rcases h with h | ⟨numbers, -, hnumbers, rfl⟩
  · exact .inl (h.keyChar hc)
  · rcases mem_of_mem_intercalate hc with rfl | ⟨n, hn, hc⟩
    · exact .inr (.inl rfl)
    · exact .inl (keyChar_of_isDigit ((hnumbers n hn).isDigit hc))

theorem IsOid.ne_nil (h : IsOid s) : s ≠ [] := by
  rcases h with ⟨d, rest, rfl, -, -⟩ | ⟨numbers, hlength, -, rfl⟩
  · exact List.cons_ne_nil _ _
  · obtain ⟨a, b, numbers, rfl⟩ : ∃ a b more, numbers = a :: b :: more := by
      rcases numbers with _ | ⟨a, _ | ⟨b, more⟩⟩
      · cases hlength
      · cases hlength with
        | step h => cases h
      · exact ⟨a, b, more, rfl⟩
    rw [List.intercalate_cons_cons]
    simp

theorem IsAttribute.attributeChar (h : IsAttribute s) (hc : c ∈ s) : AttributeChar c := by
  obtain ⟨oid, options, hoid, hoptions, rfl⟩ := h
  rcases List.mem_append.mp hc with hc | hc
  · exact hoid.attributeChar hc
  · obtain ⟨o, ho, hc⟩ := List.mem_flatMap.mp hc
    rcases List.mem_cons.mp hc with rfl | hc
    · exact .inr (.inr rfl)
    · exact .inl ((hoptions o ho).2 c hc)

theorem IsAttribute.ne_nil (h : IsAttribute s) : s ≠ [] := by
  obtain ⟨oid, options, hoid, -, rfl⟩ := h
  exact List.append_ne_nil_of_left_ne_nil hoid.ne_nil _

theorem IsHead.frontChar (h : IsHead s) (hc : c ∈ s) : FrontChar c := by
  obtain ⟨attr, dn, rule, hattr, hdn, hrule, -, rfl⟩ := h
  rcases List.mem_append.mp hc with hc | hc
  · rcases hattr with rfl | hattr
    · cases hc
    · exact .inl (hattr.attributeChar hc)
  rcases List.mem_append.mp hc with hc | hc
  · rcases hdn with rfl | rfl
    · cases hc
    · have hchars : ∀ d ∈ [':', 'd', 'n'], FrontChar d := List.all_iff_forall_prop.mp (by decide)
      exact hchars c hc
  · rcases hrule with rfl | ⟨oid, hoid, rfl⟩
    · cases hc
    · rcases List.mem_cons.mp hc with rfl | hc
      · exact .inr (.inl rfl)
      · exact .inl (hoid.attributeChar hc)

theorem Item.Named.frontChar {i : Item} (h : i.Named) (hc : c ∈ i.front) : FrontChar c := by
  cases i with
  | pattern attr pieces => exact .inl (IsAttribute.attributeChar h hc)
  | ordering attr order value =>
    rcases List.mem_append.mp hc with hc | hc
    · exact .inl (IsAttribute.attributeChar h hc)
    · obtain rfl := List.mem_singleton.mp hc
      cases order <;> decide
  | extensible head value =>
    rcases List.mem_append.mp hc with hc | hc
    · exact IsHead.frontChar h hc
    · obtain rfl := List.mem_singleton.mp hc
      decide

theorem Item.Named.front_ne_nil {i : Item} (h : i.Named) : i.front ≠ [] := by
  cases i with
  | pattern attr pieces => exact IsAttribute.ne_nil h
  | ordering | extensible => exact List.append_ne_nil_of_right_ne_nil _ (List.cons_ne_nil _ _)

theorem Item.Named.notMem {i : Item} (h : i.Named) (hc : ¬ FrontChar c) : c ∉ i.front := fun hmem => hc (h.frontChar hmem)

theorem Value.char_ne {bs : List UInt8} (h : Value s bs) (hc : c ∈ s) : c ≠ '(' ∧ c ≠ ')' ∧ c ≠ '*' := by
  have hhex : ∀ d ∈ hexDigits, d ≠ '(' ∧ d ≠ ')' ∧ d ≠ '*' := List.all_iff_forall_prop.mp (by decide)
  induction h with
  | nil => cases hc
  | normal hnormal _ ih =>
    rcases List.mem_cons.mp hc with rfl | hc
    · exact ⟨hnormal.2.1, hnormal.2.2.1, hnormal.2.2.2.1⟩
    · exact ih hc
  | escaped hx hy _ ih =>
    rcases List.mem_cons.mp hc with rfl | hc
    · decide
    rcases List.mem_cons.mp hc with rfl | hc
    · exact hhex _ hx
    rcases List.mem_cons.mp hc with rfl | hc
    · exact hhex _ hy
    · exact ih hc

end Characters

theorem Value.unique {s : List Char} {bs bs' : List UInt8} (h : Value s bs) (h' : Value s bs') : bs = bs' := by
  induction h generalizing bs' with
  | nil =>
    cases h'
    rfl
  | normal hnormal _ ih =>
    cases h' with
    | normal _ h' => rw [ih h']
    | escaped _ _ _ => exact absurd rfl hnormal.2.2.2.2
  | escaped _ _ _ ih =>
    cases h' with
    | normal hnormal _ => exact absurd rfl hnormal.2.2.2.2
    | escaped _ _ h' => rw [ih h']

theorem pieces_char_ne {texts : List (List Char)} {pieces : List (List UInt8)} (h : List.Forall₂ Value texts pieces)
    {text : List Char} (htext : text ∈ texts) {c : Char} (hc : c ∈ text) : c ≠ '(' ∧ c ≠ ')' ∧ c ≠ '*' := by
  induction h with
  | nil => cases htext
  | cons hvalue _ ih =>
    rcases List.mem_cons.mp htext with rfl | htext
    · exact hvalue.char_ne hc
    · exact ih htext

/-- The asterisks are those between the pieces. -/
theorem pieces_unique {texts texts' : List (List Char)} {pieces pieces' : List (List UInt8)}
    (h : List.Forall₂ Value texts pieces) (h' : List.Forall₂ Value texts' pieces') (hne : texts ≠ []) (hne' : texts' ≠ [])
    (heq : List.intercalate ['*'] texts = List.intercalate ['*'] texts') : pieces = pieces' := by
  have hasterisk : ∀ {ts : List (List Char)} {ps}, List.Forall₂ Value ts ps → ∀ t ∈ ts, '*' ∉ t :=
    fun hts _ ht hmem => (pieces_char_ne hts ht hmem).2.2 rfl
  obtain rfl : texts = texts' := by
    rw [← List.splitOn_intercalate '*' (hasterisk h) hne, heq, List.splitOn_intercalate '*' (hasterisk h') hne']
  have hunique : Relator.RightUnique Value := fun _ _ _ hvalue hvalue' => hvalue.unique hvalue'
  exact List.right_unique_forall₂' hunique h h'

theorem Item.eq_of_parts {i j : Item} (hi : i.Named) (hj : j.Named) (hfront : i.front = j.front)
    (hpieces : i.pieces = j.pieces) : i = j := by
  -- the sign before the equals sign is none of an attribute
  have hsign : ∀ order : Order, ¬ AttributeChar order.sign ∧ order.sign ≠ ':' := by
    intro order
    cases order <;> decide
  have hcolon : ¬ AttributeChar ':' := by decide
  have hlast : ∀ {attr front : List Char} {d : Char}, IsAttribute attr → attr = front ++ [d] → AttributeChar d := by
    rintro attr front d hattr rfl
    exact hattr.attributeChar (List.mem_append_right _ (List.mem_singleton_self d))
  cases i with
  | pattern attr ps =>
    cases j with
    | pattern attr' ps' =>
      obtain rfl : attr = attr' := hfront
      obtain rfl : ps = ps' := hpieces
      rfl
    | ordering attr' order value => exact absurd (hlast hi hfront) (hsign order).1
    | extensible head value => exact absurd (hlast hi hfront) hcolon
  | ordering attr order value =>
    cases j with
    | pattern attr' ps' => exact absurd (hlast hj hfront.symm) (hsign order).1
    | ordering attr' order' value' =>
      obtain ⟨rfl, hend⟩ := List.append_inj' hfront rfl
      obtain rfl : order = order' := by cases order <;> cases order' <;> first | rfl | cases hend
      obtain rfl : value = value' := List.singleton_inj.mp hpieces
      rfl
    | extensible head value' =>
      obtain ⟨-, hend⟩ := List.append_inj' hfront rfl
      exact absurd (List.singleton_inj.mp hend) (hsign order).2
  | extensible head value =>
    cases j with
    | pattern attr' ps' => exact absurd (hlast hj hfront.symm) hcolon
    | ordering attr' order value' =>
      obtain ⟨-, hend⟩ := List.append_inj' hfront rfl
      exact absurd (List.singleton_inj.mp hend).symm (hsign order).2
    | extensible head' value' =>
      obtain ⟨rfl, -⟩ := List.append_inj' hfront rfl
      obtain rfl : value = value' := List.singleton_inj.mp hpieces
      rfl

theorem ItemText.unique {i j : Item} {s : List Char} (hi : ItemText i s) (hj : ItemText j s) : i = j := by
  obtain ⟨hnamed, texts, hne, hvalues, rfl⟩ := hi
  obtain ⟨hnamed', texts', hne', hvalues', heq⟩ := hj
  obtain ⟨hfront, hback⟩ := (Patterns.append_cons_inj (hnamed.notMem (by decide)) (hnamed'.notMem (by decide))).mp heq
  exact Item.eq_of_parts hnamed hnamed' hfront (pieces_unique hvalues hvalues' hne hne' hback)

/-- No parenthesis stands in an item. -/
theorem ItemText.char_ne {i : Item} {s : List Char} (h : ItemText i s) {c : Char} (hc : c ∈ s) : c ≠ '(' ∧ c ≠ ')' := by
  obtain ⟨hnamed, texts, -, hvalues, rfl⟩ := h
  rcases List.mem_append.mp hc with hc | hc
  · have hfront := hnamed.frontChar hc
    constructor
    · rintro rfl
      revert hfront
      decide
    · rintro rfl
      revert hfront
      decide
  rcases List.mem_cons.mp hc with rfl | hc
  · decide
  rcases mem_of_mem_intercalate hc with rfl | ⟨text, htext, hc⟩
  · decide
  · have hne := pieces_char_ne hvalues htext hc
    exact ⟨hne.1, hne.2.1⟩

/-- An item does not begin as the other filters do. -/
theorem ItemText.first {i : Item} {s x t : List Char} {c : Char} (h : ItemText i s) (hc : ¬ FrontChar c) :
    s ++ x ≠ c :: t := by
  obtain ⟨hnamed, texts, -, -, rfl⟩ := h
  cases hfront : i.front with
  | nil => exact absurd hfront hnamed.front_ne_nil
  | cons d front =>
    intro heq
    obtain ⟨rfl, -⟩ := List.cons.inj heq
    exact hc (hnamed.frontChar (hfront ▸ List.mem_cons_self))

theorem Text.first {k : Kind} {f : Filter} {s : List Char} (h : Text k f s) : ∃ t, s = '(' :: t := by
  induction h with
  | item | not | and | or => exact ⟨_, rfl⟩
  | one _ ih => exact ih
  | cons _ _ ih _ =>
    obtain ⟨t, rfl⟩ := ih
    exact ⟨_, rfl⟩

/-- What may come behind: anything behind a filter, and a closing parenthesis behind a list. -/
def Kind.Follows : Kind → List Char → Prop
  | filter, _ => True
  | list, x => ∃ y, x = ')' :: y

/-- **No text begins another**: two texts that go on in the same way are those of one filter. -/
theorem text_prefixFree {k : Kind} {f g : Filter} {s t x y : List Char} (hf : Text k f s) (hg : Text k g t)
    (hx : k.Follows x) (hy : k.Follows y) (h : s ++ x = t ++ y) : f = g ∧ s = t := by
  induction hf generalizing g t x y with
  | @item i s hi =>
    cases hg with
    | @item j t hj =>
      have hrest : s ++ ')' :: x = t ++ ')' :: y := by simpa using h
      have hs : ')' ∉ s := fun hmem => (hi.char_ne hmem).2 rfl
      have ht : ')' ∉ t := fun hmem => (hj.char_ne hmem).2 rfl
      obtain ⟨rfl, -⟩ := (Patterns.append_cons_inj hs ht).mp hrest
      rw [hi.unique hj]
      exact ⟨rfl, rfl⟩
    | not | and | or => exact absurd (by simpa using h) (hi.first (by decide))
  | not hf ih =>
    cases hg with
    | item hj => exact absurd (by simpa using h.symm) (hj.first (by decide))
    | not hg =>
      obtain ⟨rfl, rfl⟩ := ih hg trivial trivial (by simpa using h)
      exact ⟨rfl, rfl⟩
    | and _ => simp at h
    | or _ => simp at h
  | and hf ih =>
    cases hg with
    | item hj => exact absurd (by simpa using h.symm) (hj.first (by decide))
    | not _ => simp at h
    | and hg =>
      obtain ⟨rfl, rfl⟩ := ih hg ⟨_, rfl⟩ ⟨_, rfl⟩ (by simpa using h)
      exact ⟨rfl, rfl⟩
    | or _ => simp at h
  | or hf ih =>
    cases hg with
    | item hj => exact absurd (by simpa using h.symm) (hj.first (by decide))
    | not _ => simp at h
    | and _ => simp at h
    | or hg =>
      obtain ⟨rfl, rfl⟩ := ih hg ⟨_, rfl⟩ ⟨_, rfl⟩ (by simpa using h)
      exact ⟨rfl, rfl⟩
  | one hf ih =>
    cases hg with
    | one hg => exact ih hg trivial trivial h
    | cons hg hgs =>
      -- the second text of the list would have to begin with the closing parenthesis
      obtain ⟨rfl, rfl⟩ := ih hg trivial trivial (h.trans (List.append_assoc _ _ _))
      obtain ⟨x', rfl⟩ := hx
      obtain ⟨t', rfl⟩ := hgs.first
      simp at h
  | cons hf hfs ih ihs =>
    cases hg with
    | one hg =>
      obtain ⟨rfl, rfl⟩ := ih hg trivial trivial ((List.append_assoc _ _ _).symm.trans h)
      obtain ⟨y', rfl⟩ := hy
      obtain ⟨t', rfl⟩ := hfs.first
      simp at h
    | cons hg hgs =>
      rw [List.append_assoc, List.append_assoc] at h
      obtain ⟨rfl, rfl⟩ := ih hg trivial trivial h
      obtain ⟨rfl, rfl⟩ := ihs hgs hx hy (List.append_cancel_left h)
      exact ⟨rfl, rfl⟩

/-- **A text has one meaning.** -/
theorem Text.unique {f g : Filter} {s : List Char} (hf : Text .filter f s) (hg : Text .filter g s) : f = g :=
  (text_prefixFree hf hg (x := []) (y := []) trivial trivial rfl).1

/-- The items of a filter. -/
def Filter.items : Filter → List Item
  | item i => [i]
  | not f => f.items
  | and fs => fs.items
  | or fs => fs.items
  | list f fs => f.items ++ fs.items

/-- Every item stands in the text, in parentheses of its own. -/
theorem Text.exists_item {k : Kind} {f : Filter} {s : List Char} (h : Text k f s) {i : Item} (hi : i ∈ f.items) :
    ∃ front p back, ItemText i p ∧ s = front ++ '(' :: (p ++ ')' :: back) := by
  induction h with
  | @item j p hj =>
    obtain rfl := List.mem_singleton.mp hi
    exact ⟨[], p, [], hj, rfl⟩
  | not _ ih =>
    obtain ⟨front, p, back, hp, rfl⟩ := ih hi
    exact ⟨'(' :: '!' :: front, p, back ++ [')'], hp, by simp⟩
  | and _ ih =>
    obtain ⟨front, p, back, hp, rfl⟩ := ih hi
    exact ⟨'(' :: '&' :: front, p, back ++ [')'], hp, by simp⟩
  | or _ ih =>
    obtain ⟨front, p, back, hp, rfl⟩ := ih hi
    exact ⟨'(' :: '|' :: front, p, back ++ [')'], hp, by simp⟩
  | one _ ih => exact ih hi
  | @cons f fs s t _ _ ih ihs =>
    rcases List.mem_append.mp hi with hi | hi
    · obtain ⟨front, p, back, hp, rfl⟩ := ih hi
      exact ⟨front, p, back ++ t, hp, by simp⟩
    · obtain ⟨front, p, back, hp, rfl⟩ := ihs hi
      exact ⟨s ++ front, p, back, hp, by simp⟩

/-! ## Texts that stand for themselves -/

theorem value_encoded {s : List Char} (h : ∀ c ∈ s, Normal c) : Value s (Utf8.encoded s) := by
  induction s with
  | nil => exact .nil
  | cons c s ih => exact .normal (h c List.mem_cons_self) (ih fun d hd => h d (List.mem_cons_of_mem _ hd))

/-- A value has as many bytes as its text just if nothing is escaped. -/
theorem Value.length {s : List Char} {bs : List UInt8} (h : Value s bs) :
    bs.length < (Utf8.encoded s).length ∨ (∀ c ∈ s, Normal c) ∧ bs = Utf8.encoded s := by
  induction h with
  | nil => exact .inr ⟨fun _ hc => absurd hc List.not_mem_nil, rfl⟩
  | @normal c s bs hc _ ih =>
    rcases ih with ih | ⟨ih, rfl⟩
    · left
      rw [Utf8.encoded_cons, List.length_append, List.length_append]
      omega
    · exact .inr ⟨List.forall_mem_cons.mpr ⟨hc, ih⟩, rfl⟩
  | @escaped x y s bs _ _ _ ih =>
    left
    have hle : bs.length ≤ (Utf8.encoded s).length := by
      rcases ih with ih | ⟨-, rfl⟩
      · exact ih.le
      · exact le_rfl
    have hx := String.length_utf8EncodeChar x
    have hy := String.length_utf8EncodeChar y
    have hxpos := Char.utf8Size_pos x
    have hypos := Char.utf8Size_pos y
    rw [Utf8.encoded_cons, Utf8.encoded_cons, Utf8.encoded_cons, List.length_cons, List.length_append, List.length_append,
      List.length_append]
    omega

/-! ## Meaning -/

/-- The values of an entry. -/
abbrev Entry := List Char → List (List UInt8)

/-- The rules of a directory: the form into which the values of an attribute are brought to be compared, and what the
other items say. -/
structure MatchingRules where
  normalise : List Char → List UInt8 → List UInt8
  other : Item → Entry → Option Bool

inductive Connective
  | and | or

def Connective.combine : Connective → Option Bool → Option Bool → Option Bool
  | and, some false, _ => some false
  | and, _, some false => some false
  | and, some true, b => b
  | and, none, _ => none
  | or, some true, _ => some true
  | or, _, some true => some true
  | or, some false, b => b
  | or, none, _ => none

namespace MatchingRules

variable (rules : MatchingRules) (e : Entry)

def Equals (attr : List Char) (value : List UInt8) : Prop :=
  ∃ x ∈ e attr, rules.normalise attr x = rules.normalise attr value

def itemTruth : Item → Option Bool
  | .pattern attr [value] => some ((e attr).any fun x => rules.normalise attr x == rules.normalise attr value)
  | .pattern attr [[], []] => some !(e attr).isEmpty
  | i => rules.other i e

/-- True, false, or `none` for undefined. A list is read under the connective before it. -/
def truth : Connective → Filter → Option Bool
  | _, .item i => rules.itemTruth e i
  | c, .not f => (truth c f).map (!·)
  | _, .and fs => truth .and fs
  | _, .or fs => truth .or fs
  | c, .list f fs => c.combine (truth c f) (truth c fs)

def Matches (f : Filter) : Prop := rules.truth e .and f = some true

theorem matches_and_list (f g : Filter) :
    rules.Matches e (.and (.list f g)) ↔ rules.Matches e f ∧ rules.Matches e g := by
  unfold Matches
  rw [truth, truth]
  rcases rules.truth e .and f with _ | _ | _ <;> rcases rules.truth e .and g with _ | _ | _ <;>
    simp [Connective.combine]

theorem matches_equality (attr : List Char) (value : List UInt8) :
    rules.Matches e (.item (.pattern attr [value])) ↔ rules.Equals e attr value := by
  unfold Matches Equals
  rw [truth, itemTruth]
  simp

/-- What a filter says is what its items say. -/
theorem truth_congr {rules rules' : MatchingRules} {c : Connective} {f : Filter}
    (h : ∀ i ∈ f.items, rules.itemTruth e i = rules'.itemTruth e i) : rules.truth e c f = rules'.truth e c f := by
  induction f generalizing c with
  | item i => exact h i (List.mem_singleton_self i)
  | not f ih => rw [truth, truth, ih h]
  | and fs ih => exact ih h
  | or fs ih => exact ih h
  | list f fs ih ihs =>
    rw [truth, truth, ih fun i hi => h i (List.mem_append_left _ hi), ihs fun i hi => h i (List.mem_append_right _ hi)]

end MatchingRules

end LdapFilter
