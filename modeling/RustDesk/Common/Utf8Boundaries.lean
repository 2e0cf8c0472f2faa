import RustDesk.Common.Utf8

/-!
# Where the characters of UTF-8 begin

A byte from 128 to 191 goes on with a character, and every other byte begins one. A text may be cut in front of
every byte that begins one, and the first bytes of a text are characters and the first bytes of one more.
-/

namespace Utf8

/-- The bytes of characters. -/
def encoded (cs : List Char) : List UInt8 := cs.flatMap String.utf8EncodeChar

@[simp] theorem encoded_nil : encoded [] = [] := rfl

@[simp] theorem encoded_cons (c : Char) (cs : List Char) :
    encoded (c :: cs) = String.utf8EncodeChar c ++ encoded cs := List.flatMap_cons

@[simp] theorem encoded_append (cs ds : List Char) : encoded (cs ++ ds) = encoded cs ++ encoded ds :=
  List.flatMap_append

/-- A byte that goes on with a character. -/
def Continues (b : UInt8) : Prop := 128 ≤ b.toNat ∧ b.toNat < 192

instance (b : UInt8) : Decidable (Continues b) := inferInstanceAs (Decidable (_ ∧ _))

/-- How a character is written: as itself, or with a first byte that tells how many follow. -/
inductive Written (c : Char) : List UInt8 → Prop
  | one (hc : c.toNat < 128) : Written c [UInt8.ofNat c.toNat]
  | two {x y : UInt8} (hc : 128 ≤ c.toNat) (hx : 192 ≤ x.toNat ∧ x.toNat < 224) (hy : Continues y) :
    Written c [x, y]
  | three {x y z : UInt8} (hc : 128 ≤ c.toNat) (hx : 224 ≤ x.toNat ∧ x.toNat < 240) (hy : Continues y)
    (hz : Continues z) : Written c [x, y, z]
  | four {x y z w : UInt8} (hc : 128 ≤ c.toNat) (hx : 240 ≤ x.toNat ∧ x.toNat < 248) (hy : Continues y)
    (hz : Continues z) (hw : Continues w) : Written c [x, y, z, w]

theorem toNat_ofNat {n : ℕ} (h : n < 256) : (UInt8.ofNat n).toNat = n := by
  rw [UInt8.toNat_ofNat']
  exact Nat.mod_eq_of_lt h

theorem continues_ofNat (n : ℕ) : Continues (UInt8.ofNat (n % 64 + 128)) := by
  rw [Continues, toNat_ofNat (by omega)]
  omega

theorem written (c : Char) : Written c (String.utf8EncodeChar c) := by
  have hval : c.val.toNat = c.toNat := rfl
  unfold String.utf8EncodeChar
  rw [hval]
  dsimp only
  split
  · exact .one (by omega)
  split
  · refine .two (by omega) ?_ (continues_ofNat _)
    rw [toNat_ofNat (by omega)]
    omega
  split
  · refine .three (by omega) ?_ (continues_ofNat _) (continues_ofNat _)
    rw [toNat_ofNat (by omega)]
    omega
  · refine .four (by omega) ?_ (continues_ofNat _) (continues_ofNat _) (continues_ofNat _)
    rw [toNat_ofNat (by omega)]
    omega

variable {c : Char} {bs before : List UInt8} {b : UInt8}

/-- No byte of a character is 248 or more. -/
theorem Written.lt (h : Written c bs) : ∀ b ∈ bs, b.toNat < 248 := by
  cases h with
  | one hc =>
    rw [List.forall_mem_singleton, toNat_ofNat (by omega)]
    omega
  | two hc hx hy =>
    simp only [List.forall_mem_cons, Continues] at *
    exact ⟨by omega, by omega, by simp⟩
  | three hc hx hy hz =>
    simp only [List.forall_mem_cons, Continues] at *
    exact ⟨by omega, by omega, by omega, by simp⟩
  | four hc hx hy hz hw =>
    simp only [List.forall_mem_cons, Continues] at *
    exact ⟨by omega, by omega, by omega, by omega, by simp⟩

theorem bytes_lt (s : String) : ∀ b ∈ bytes s, b.toNat < 248 := by
  intro b hb
  obtain ⟨c, -, hb⟩ := List.mem_flatMap.mp hb
  exact (written c).lt b hb

/-- A character of bytes below 128 is one byte. -/
theorem Written.ascii (h : Written c bs) (hbs : ∀ b ∈ bs, b.toNat < 128) : bs.length = 1 := by
  cases h with
  | one hc => rfl
  | two | three | four => exact absurd (hbs _ List.mem_cons_self) (by omega)

/-- A text of bytes below 128 has as many characters. -/
theorem length_of_ascii {s : String} (h : ∀ b ∈ bytes s, b.toNat < 128) : s.length = (bytes s).length := by
  rw [bytes] at h ⊢
  rw [← String.length_toList]
  generalize s.toList = cs at h ⊢
  induction cs with
  | nil => rfl
  | cons c cs ih =>
    rw [List.flatMap_cons] at h ⊢
    have hone := (written c).ascii fun b hb => h b (List.mem_append_left _ hb)
    rw [List.length_append, hone, List.length_cons, ih fun b hb => h b (List.mem_append_right _ hb), Nat.add_comm]

/-- The first byte of a character does not go on with one. -/
theorem Written.first (h : Written c (b :: bs)) : ¬ Continues b ∧ b.toNat < 248 := by
  unfold Continues
  cases h with
  | one hc =>
    rw [toNat_ofNat (by omega)]
    omega
  | two | three | four => omega

/-- Behind the first byte of a character all go on with it. -/
theorem Written.rest (h : Written c (before ++ b :: bs)) (hbefore : before ≠ []) : Continues b := by
  have htail : ∀ {all : List UInt8}, Written c all → ∀ x ∈ all.tail, Continues x := by
    intro all hall
    cases hall with
    | one => simp
    | two hc hx hy => simpa using hy
    | three hc hx hy hz => simpa using And.intro hy hz
    | four hc hx hy hz hw => simpa using And.intro hy (And.intro hz hw)
  refine htail h b ?_
  cases before with
  | nil => exact absurd rfl hbefore
  | cons x before => simp

/-- **A byte that does not go on with a character begins one.** -/
theorem begins_character {cs : List Char} (h : encoded cs = before ++ b :: bs) (hb : ¬ Continues b) :
    ∃ cs₁ c cs₂, cs = cs₁ ++ c :: cs₂ ∧ before = encoded cs₁ ∧
      b :: bs = String.utf8EncodeChar c ++ encoded cs₂ := by
  induction cs generalizing before with
  | nil => simp at h
  | cons c cs ih =>
    rw [encoded_cons, List.append_eq_append_iff] at h
    -- the byte stands behind the first character, or among its bytes
    rcases h with ⟨more, rfl, hmore⟩ | ⟨more, hc, hmore⟩
    · obtain ⟨cs₁, d, cs₂, rfl, rfl, hd⟩ := ih hmore
      exact ⟨c :: cs₁, d, cs₂, rfl, rfl, hd⟩
    · cases more with
      | nil =>
        obtain ⟨cs₁, d, cs₂, rfl, hnil, hd⟩ := @ih [] hmore.symm
        rw [List.append_nil] at hc
        refine ⟨c :: cs₁, d, cs₂, rfl, ?_, hd⟩
        rw [encoded_cons, ← hnil, hc, List.append_nil]
      | cons x more =>
        rw [List.cons_append, List.cons.injEq] at hmore
        obtain ⟨rfl, hbs⟩ := hmore
        by_cases hbefore : before = []
        · subst hbefore
          exact ⟨[], c, cs, rfl, rfl, by rw [hc, hbs]; rfl⟩
        · exact absurd ((hc ▸ written c).rest hbefore) hb

/-! ## Texts -/

/-- The bytes are those of characters. -/
def IsText (bs : List UInt8) : Prop := ∃ cs, bs = encoded cs

/-- `std::str::from_utf8(..).is_ok()`. -/
theorem validateUTF8_iff (bs : List UInt8) : bs.toByteArray.validateUTF8 = true ↔ IsText bs := by
  rw [ByteArray.validateUTF8_eq_true_iff]
  constructor
  · rintro ⟨cs, hcs⟩
    refine ⟨cs, ?_⟩
    rw [List.utf8Encode, List.toByteArray_inj] at hcs
    exact hcs
  · rintro ⟨cs, rfl⟩
    exact ⟨cs, rfl⟩

theorem IsText.nil : IsText [] := ⟨[], rfl⟩

theorem IsText.append {bs' : List UInt8} (h : IsText bs) (h' : IsText bs') : IsText (bs ++ bs') := by
  obtain ⟨cs, rfl⟩ := h
  obtain ⟨cs', rfl⟩ := h'
  exact ⟨cs ++ cs', (encoded_append cs cs').symm⟩

theorem IsText.flatten {texts : List (List UInt8)} (h : ∀ text ∈ texts, IsText text) : IsText texts.flatten := by
  induction texts with
  | nil => exact .nil
  | cons text texts ih =>
    rw [List.forall_mem_cons] at h
    exact h.1.append (ih h.2)

/-- What follows a text in a text is a text. -/
theorem IsText.of_append {bs' : List UInt8} (h : IsText bs) (hwhole : IsText (bs ++ bs')) : IsText bs' := by
  obtain ⟨cs, rfl⟩ := h
  obtain ⟨ds, hds⟩ := hwhole
  induction cs generalizing ds with
  | nil => exact ⟨ds, hds⟩
  | cons c cs ih =>
    rw [encoded_cons, List.append_assoc] at hds
    -- both begin with the bytes of `c`, and so with `c`
    have hlossy : lossyChars (encoded ds) = c :: lossyChars (encoded cs ++ bs') := by
      rw [← hds, lossyChars_encode]
    cases ds with
    | nil =>
      rw [encoded_nil, lossyChars] at hlossy
      cases hlossy
    | cons d ds =>
      rw [encoded_cons, lossyChars_encode] at hlossy
      obtain ⟨rfl, -⟩ := List.cons.inj hlossy
      rw [encoded_cons] at hds
      exact ih ds (List.append_cancel_left hds)

/-- **A text may be cut where a character begins.** -/
theorem IsText.cut (h : IsText (before ++ b :: bs)) (hb : ¬ Continues b) : IsText before ∧ IsText (b :: bs) := by
  obtain ⟨cs, hcs⟩ := h
  obtain ⟨cs₁, c, cs₂, -, hbefore, hbs⟩ := begins_character hcs.symm hb
  exact ⟨⟨cs₁, hbefore⟩, c :: cs₂, by rw [hbs, encoded_cons]⟩

/-- **The first bytes of a text** are characters, and the first bytes of one more or all of them. -/
theorem IsText.beginning {more : List UInt8} (h : IsText (bs ++ more)) (hne : bs ≠ []) :
    ∃ cs c part rest, bs = encoded cs ++ part ∧ part ≠ [] ∧ part ++ rest = String.utf8EncodeChar c := by
  obtain ⟨ds, hds⟩ := h
  induction ds generalizing bs with
  | nil =>
    rw [encoded_nil, List.append_eq_nil_iff] at hds
    exact absurd hds.1 hne
  | cons d ds ih =>
    rw [encoded_cons, List.append_eq_append_iff] at hds
    rcases hds with ⟨rest, hd, -⟩ | ⟨bs', rfl, hmore⟩
    · exact ⟨[], d, bs, rest, rfl, hne, hd.symm⟩
    · by_cases hbs' : bs' = []
      · subst hbs'
        exact ⟨[], d, String.utf8EncodeChar d, [], List.append_nil _, String.utf8EncodeChar_ne_nil,
          List.append_nil _⟩
      · obtain ⟨cs, c, part, rest, rfl, hpart, hc⟩ := ih hbs' hmore.symm
        refine ⟨d :: cs, c, part, rest, ?_, hpart, hc⟩
        rw [encoded_cons, List.append_assoc]

end Utf8
