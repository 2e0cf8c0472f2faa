import Mathlib.Data.List.Forall2
import RustDesk.Common.Patterns

/-!
# Byte positions and lower case

A text is a list of characters, and a position in it a number of bytes: it may be cut only where a character
begins. `toLowercase` follows Rust's `str::to_lowercase`, for which a `Unicode` holds the tables. Lower case may have
more bytes or fewer, so a position in it is not one in the text. A word of ASCII letters without `i` and `k` stands in
the lower case only where it stands in the text.
-/

namespace Texts

open Patterns

/-! ## Byte positions -/

def byteLen : List Char → ℕ
  | [] => 0
  | c :: s => c.utf8Size + byteLen s

/-- The text before a position and after it, if a character begins there or the text ends. -/
def splitAtByte : List Char → ℕ → Option (List Char × List Char)
  | s, 0 => some ([], s)
  | [], _ + 1 => none
  | c :: s, n + 1 =>
    if c.utf8Size ≤ n + 1 then (splitAtByte s (n + 1 - c.utf8Size)).map fun parts => (c :: parts.1, parts.2) else none

@[simp] theorem byteLen_append (a b : List Char) : byteLen (a ++ b) = byteLen a + byteLen b := by
  induction a with
  | nil => exact (Nat.zero_add _).symm
  | cons c a ih => rw [List.cons_append, byteLen, ih, byteLen, Nat.add_assoc]

theorem splitAtByte_append (a b : List Char) : splitAtByte (a ++ b) (byteLen a) = some (a, b) := by
  induction a with
  | nil => rw [byteLen, List.nil_append, splitAtByte]
  | cons c a ih =>
    have hpos := c.utf8Size_pos
    obtain ⟨n, hn⟩ : ∃ n, byteLen (c :: a) = n + 1 := ⟨_, (Nat.sub_add_cancel (by rw [byteLen]; omega)).symm⟩
    have hsub : n + 1 - c.utf8Size = byteLen a := by
      rw [← hn, byteLen]
      omega
    rw [hn, List.cons_append, splitAtByte, if_pos (by rw [← hn, byteLen]; omega), hsub, ih]
    rfl

theorem splitAtByte_eq_some {s a b : List Char} {n : ℕ} :
    splitAtByte s n = some (a, b) ↔ s = a ++ b ∧ byteLen a = n := by
  constructor
  · intro h
    induction s generalizing n a with
    | nil =>
      cases n with
      | zero =>
        cases h
        exact ⟨rfl, rfl⟩
      | succ n => cases h
    | cons c s ih =>
      cases n with
      | zero =>
        cases h
        exact ⟨rfl, rfl⟩
      | succ n =>
        rw [splitAtByte] at h
        split at h
        · next hle =>
          obtain ⟨⟨a', b'⟩, hparts, heq⟩ := Option.map_eq_some_iff.mp h
          obtain ⟨rfl, rfl⟩ := Prod.mk.injEq .. ▸ heq
          obtain ⟨rfl, hlen⟩ := ih hparts
          refine ⟨rfl, ?_⟩
          rw [byteLen, hlen]
          omega
        · cases h
  · rintro ⟨rfl, rfl⟩
    exact splitAtByte_append a b

/-! ## Lower case -/

/-- The tables of Unicode that `to_lowercase` and `trim` read. -/
structure Unicode where
  lower : Char → List Char
  cased : Char → Bool
  caseIgnorable : Char → Bool
  whitespace : Char → Bool
  lower_ascii : ∀ c, c.toNat < 128 → lower c = [c.toLower]
  /-- Two characters outside ASCII have ASCII letters in their lower case: `i` and a dot above are that of the `I` with
  a dot, and `k` that of the Kelvin sign. -/
  lower_foreign : ∀ c, 128 ≤ c.toNat → lower c ≠ [] ∧ ∀ d ∈ lower c, 128 ≤ d.toNat ∨ d = 'i' ∨ d = 'k'

variable (u : Unicode)

def caseIgnorableThenCased (s : List Char) : Bool :=
  match s.dropWhile u.caseIgnorable with
  | c :: _ => u.cased c
  | [] => false

/-- The lower case of a sigma, which has another form at the end of a word. -/
def mapUppercaseSigma (before after : List Char) : Char :=
  if caseIgnorableThenCased u before && !caseIgnorableThenCased u after then 'ς' else 'σ'

/-- The lower case of a character between others. Those before it are in reverse. -/
def lowerAt (before : List Char) (c : Char) (after : List Char) : List Char :=
  if c = 'Σ' then [mapUppercaseSigma u before after] else u.lower c

/-- The lower case of each character. -/
def images (before : List Char) : List Char → List (List Char)
  | [] => []
  | c :: s => lowerAt u before c s :: images (c :: before) s

def toLowercase (s : List Char) : List Char := (images u [] s).flatten

/-- The lower case of ASCII. -/
def asciiLower (s : List Char) : List Char := s.map Char.toLower

/-- `trim` -/
def trim (s : List Char) : List Char := (s.dropWhile u.whitespace).reverse.dropWhile u.whitespace |>.reverse

theorem toLower_of_foreign {c : Char} (h : 128 ≤ c.toNat) : c.toLower = c := by
  have hval : c.val.toNat = c.toNat := rfl
  unfold Char.toLower
  rw [dif_neg]
  rintro ⟨-, hle⟩
  have hle' : c.val.toNat ≤ 90 := hle
  omega

/-- What the lower case of a character can be. -/
inductive Image (c : Char) : List Char → Prop
  | ascii : c.toNat < 128 → Image c [c.toLower]
  | foreign {l : List Char} : 128 ≤ c.toNat → l ≠ [] → (∀ d ∈ l, 128 ≤ d.toNat ∨ d = 'i' ∨ d = 'k') → Image c l

theorem image_lowerAt (before : List Char) (c : Char) (after : List Char) : Image c (lowerAt u before c after) := by
  unfold lowerAt
  split
  · next hsigma =>
    subst hsigma
    refine .foreign (by decide) (List.cons_ne_nil _ _) (List.forall_mem_singleton.mpr (.inl ?_))
    unfold mapUppercaseSigma
    split <;> decide
  · by_cases hascii : c.toNat < 128
    · rw [u.lower_ascii c hascii]
      exact .ascii hascii
    · obtain ⟨hne, hmem⟩ := u.lower_foreign c (by omega)
      exact .foreign (by omega) hne hmem

theorem images_forall₂ (before s : List Char) : List.Forall₂ Image s (images u before s) := by
  induction s generalizing before with
  | nil => exact .nil
  | cons c s ih => exact .cons (image_lowerAt u before c s) (ih (c :: before))

/-- A word of ASCII characters, none of them an `i` or a `k`. -/
def PlainWord (w : List Char) : Prop := ∀ d ∈ w, d.toNat < 128 ∧ d ≠ 'i' ∧ d ≠ 'k'

instance (w : List Char) : Decidable (PlainWord w) := decidable_of_iff _ List.all_iff_forall_prop

variable {u} {s w : List Char} {L : List (List Char)}

/-- A character outside ASCII has nothing of a plain word in its lower case. -/
theorem notMem_image {c d : Char} {l : List Char} (h : Image c l) (hc : 128 ≤ c.toNat)
    (hd : d.toNat < 128 ∧ d ≠ 'i' ∧ d ≠ 'k') : d ∉ l := by
  intro hmem
  cases h with
  | ascii hascii => omega
  | foreign _ _ hforeign =>
    rcases hforeign d hmem with h | h | h
    · omega
    · exact hd.2.1 h
    · exact hd.2.2 h

section

variable (h : List.Forall₂ Image s L) (hw : PlainWord w)
include h hw

theorem prefix_flatten_iff : w <+: L.flatten ↔ w <+: asciiLower s := by
  induction h generalizing w with
  | nil => rfl
  | @cons c l s L himage hrest ih =>
    cases w with
    | nil => exact iff_of_true List.nil_prefix List.nil_prefix
    | cons d w =>
      obtain ⟨hd, hw⟩ := List.forall_mem_cons.mp hw
      have hcons : asciiLower (c :: s) = c.toLower :: asciiLower s := rfl
      rw [List.flatten_cons, hcons, List.cons_prefix_cons]
      cases himage with
      | ascii hascii => rw [List.singleton_append, List.cons_prefix_cons, ih hw]
      | foreign hforeign hne hmem =>
        obtain ⟨e, l, rfl⟩ := List.exists_cons_of_ne_nil hne
        rw [List.cons_append, List.cons_prefix_cons, toLower_of_foreign hforeign]
        refine iff_of_false ?_ ?_
        · rintro ⟨rfl, -⟩
          exact notMem_image (.foreign hforeign hne hmem) hforeign hd List.mem_cons_self
        · rintro ⟨rfl, -⟩
          omega

theorem suffix_flatten_iff : w <:+ L.flatten ↔ w <:+ asciiLower s := by
  -- read from the end, each lower case is reversed
  have hreverse : List.Forall₂ Image s.reverse (L.map List.reverse).reverse := by
    rw [List.forall₂_reverse_iff, List.forall₂_map_right_iff]
    refine h.imp fun c l himage => ?_
    cases himage with
    | ascii hascii => exact .ascii hascii
    | foreign hforeign hne hmem =>
      exact .foreign hforeign (by simpa using hne) fun d hd => hmem d (List.mem_reverse.mp hd)
  have hprefix := prefix_flatten_iff hreverse (w := w.reverse) fun d hd => hw d (List.mem_reverse.mp hd)
  rw [← List.reverse_flatten, List.reverse_prefix, asciiLower, List.map_reverse, List.reverse_prefix] at hprefix
  exact hprefix

/-- Where a plain word is found in the lower case. -/
theorem find_flatten (hne : w ≠ []) :
    find w L.flatten = (find w (asciiLower s)).map fun n => (L.take n).flatten.length := by
  obtain ⟨d, w, rfl⟩ := List.exists_cons_of_ne_nil hne
  have hd := (List.forall_mem_cons.mp hw).1
  induction h with
  | nil => rfl
  | @cons c l s L himage hrest ih =>
    have hcons : asciiLower (c :: s) = [c.toLower] ++ asciiLower s := rfl
    have hprefix : (d :: w).isPrefixOf (List.flatten (l :: L)) = (d :: w).isPrefixOf (asciiLower (c :: s)) := by
      rw [Bool.eq_iff_iff, List.isPrefixOf_iff_prefix, List.isPrefixOf_iff_prefix]
      exact prefix_flatten_iff (.cons himage hrest) hw
    cases himage with
    | ascii hascii =>
      have hfind : ∀ text : List Char, find (d :: w) (c.toLower :: text) =
          if (d :: w).isPrefixOf (c.toLower :: text) then some 0 else (find (d :: w) text).map (· + 1) := fun _ => rfl
      rw [show List.flatten ([c.toLower] :: L) = c.toLower :: L.flatten from rfl] at hprefix ⊢
      rw [hcons, List.singleton_append] at hprefix ⊢
      rw [hfind, hfind, hprefix, ih]
      split
      · rfl
      · rw [Option.map_map, Option.map_map]
        rfl
    | foreign hforeign hne hmem =>
      have hl := notMem_image (.foreign hforeign hne hmem) hforeign hd
      have hc : d ∉ [c.toLower] := by
        rw [toLower_of_foreign hforeign, List.mem_singleton]
        rintro rfl
        omega
      rw [List.flatten_cons, find_append_of_notMem hl, hcons, find_append_of_notMem hc, ih, Option.map_map,
        Option.map_map]
      congr 1
      funext n
      simp [Nat.add_comm]

end

/-- The bytes of the lower case of a character, which for a sigma are two wherever it stands. -/
theorem byteLen_lowerAt (before before' : List Char) (c : Char) (after after' : List Char) :
    byteLen (lowerAt u before c after) = byteLen (lowerAt u before' c after') := by
  have hsigma : ∀ before after : List Char, byteLen [mapUppercaseSigma u before after] = 2 := by
    intro before after
    unfold mapUppercaseSigma
    split <;> rfl
  unfold lowerAt
  split
  · rw [hsigma, hsigma]
  · rfl

/-- The lower case of the first characters has as many bytes as the first characters of the lower case. -/
theorem byteLen_take_images (before before' s : List Char) (n : ℕ) :
    byteLen ((images u before s).take n).flatten = byteLen (images u before' (s.take n)).flatten := by
  induction s generalizing before before' n with
  | nil => rw [List.take_nil, images, List.take_nil, images]
  | cons c s ih =>
    cases n with
    | zero => rfl
    | succ n =>
      rw [images, List.take_succ_cons, List.take_succ_cons, images, List.flatten_cons, List.flatten_cons,
        byteLen_append, byteLen_append, ih (c :: before) (c :: before') n,
        byteLen_lowerAt before before' c s (s.take n)]

/-- `find`, whose answer is a number of bytes. -/
def findByte (w s : List Char) : Option ℕ := (find w s).map fun n => byteLen (s.take n)

/-- **The position of a plain word in the lower case** counts the bytes of the lower case of what is before it. -/
theorem findByte_toLowercase (hw : PlainWord w) (hne : w ≠ []) (s : List Char) : findByte w (toLowercase u s) =
      (find w (asciiLower s)).map fun n => byteLen (toLowercase u (s.take n)) := by
  rw [findByte, toLowercase, find_flatten (images_forall₂ u [] s) hw hne, Option.map_map]
  congr 1
  funext n
  have htake : (images u [] s).flatten.take ((images u [] s).take n).flatten.length =
      ((images u [] s).take n).flatten := by
    have hsplit : (images u [] s).flatten =
        ((images u [] s).take n).flatten ++ ((images u [] s).drop n).flatten := by
      rw [← List.flatten_append, List.take_append_drop]
    rw [hsplit, List.take_left]
  rw [Function.comp_apply, htake, byteLen_take_images [] [] s n, toLowercase]

theorem prefix_toLowercase_iff (hw : PlainWord w) (s : List Char) : w <+: toLowercase u s ↔ w <+: asciiLower s :=
  prefix_flatten_iff (images_forall₂ u [] s) hw

theorem suffix_toLowercase_iff (hw : PlainWord w) (s : List Char) : w <:+ toLowercase u s ↔ w <:+ asciiLower s :=
  suffix_flatten_iff (images_forall₂ u [] s) hw

/-- In front of ASCII characters the lower case is that of ASCII. -/
theorem toLowercase_ascii_append {front : List Char} (h : ∀ c ∈ front, c.toNat < 128) (s : List Char) :
    ∃ rest, toLowercase u (front ++ s) = asciiLower front ++ rest := by
  have himages : ∀ before : List Char, ∃ rest, (images u before (front ++ s)).flatten = asciiLower front ++ rest := by
    induction front with
    | nil => exact fun before => ⟨_, rfl⟩
    | cons c front ih =>
      intro before
      obtain ⟨hc, hfront⟩ := List.forall_mem_cons.mp h
      obtain ⟨rest, hrest⟩ := ih hfront (c :: before)
      refine ⟨rest, ?_⟩
      have hlower : lowerAt u before c (front ++ s) = [c.toLower] := by
        rw [lowerAt, if_neg, u.lower_ascii c hc]
        rintro rfl
        exact absurd hc (by decide)
      rw [List.cons_append, images, List.flatten_cons, hrest, hlower]
      rfl
  exact himages []

/-- A text whose lower case is ASCII has one byte for each character. -/
theorem byteLen_of_asciiLower {s w : List Char} (h : asciiLower s = w) (hw : ∀ d ∈ w, d.toNat < 128) :
    byteLen s = w.length := by
  induction s generalizing w with
  | nil =>
    subst h
    rfl
  | cons c s ih =>
    subst h
    obtain ⟨hc, hs⟩ := List.forall_mem_cons.mp hw
    have hascii : c.toNat < 128 := by
      by_contra hforeign
      rw [toLower_of_foreign (by omega)] at hc
      exact hforeign hc
    have hsize : c.utf8Size = 1 := Char.utf8Size_eq_one_iff.mpr (UInt32.le_iff_toNat_le.mpr (Nat.le_of_lt_succ hascii))
    rw [byteLen, hsize, ih rfl hs, Nat.add_comm]
    rfl

end Texts
