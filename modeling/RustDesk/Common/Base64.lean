import Mathlib.Tactic.Common

/-!
# Base64 with padding

Three bytes are four digits of six bits. The decoder takes what the encoder writes: whole groups, with
padding in the last one only, and no bits behind the last byte.
-/

namespace Base64

/-- The digit for a value below 64. -/
def digit (n : ℕ) : UInt8 :=
  if n < 26 then UInt8.ofNat (65 + n)
  else if n < 52 then UInt8.ofNat (71 + n)
  else if n < 62 then UInt8.ofNat (n - 4)
  else if n = 62 then 43
  else 47

/-- The value of a digit. -/
def value (b : UInt8) : Option ℕ :=
  let c := b.toNat
  if 65 ≤ c ∧ c ≤ 90 then some (c - 65)
  else if 97 ≤ c ∧ c ≤ 122 then some (c - 71)
  else if 48 ≤ c ∧ c ≤ 57 then some (c + 4)
  else if c = 43 then some 62
  else if c = 47 then some 63
  else none

def pad : UInt8 := 61

/-- The four digits of three bytes. -/
def group (a b c : ℕ) : List UInt8 :=
  [digit (a / 4), digit (a % 4 * 16 + b / 16), digit (b % 16 * 4 + c / 64), digit (c % 64)]

def encode : List UInt8 → List UInt8
  | [] => []
  | [a] => (group a.toNat 0 0).take 2 ++ [pad, pad]
  | [a, b] => (group a.toNat b.toNat 0).take 3 ++ [pad]
  | a :: b :: c :: rest => group a.toNat b.toNat c.toNat ++ encode rest

/-- The bytes of two, three and four digits. -/
def byte₁ (i j : ℕ) : UInt8 := UInt8.ofNat (i * 4 + j / 16)

def byte₂ (j k : ℕ) : UInt8 := UInt8.ofNat (j % 16 * 16 + k / 4)

def byte₃ (k l : ℕ) : UInt8 := UInt8.ofNat (k % 4 * 64 + l)

/-- A padded group, whose last digit has no bits to spare. -/
def decodePadded (x y z : UInt8) : Option (List UInt8) :=
  match value x, value y with
  | some i, some j =>
    if z = pad then
      if j % 16 = 0 then some [byte₁ i j] else none
    else
      match value z with
      | some k => if k % 4 = 0 then some [byte₁ i j, byte₂ j k] else none
      | none => none
  | _, _ => none

def decode : List UInt8 → Option (List UInt8)
  | [] => some []
  | x :: y :: z :: w :: rest =>
    if w = pad then
      match rest with
      | [] => decodePadded x y z
      | _ => none
    else
      match value x, value y, value z, value w with
      | some i, some j, some k, some l =>
        (decode rest).map fun more => byte₁ i j :: byte₂ j k :: byte₃ k l :: more
      | _, _, _, _ => none
  | _ => none

theorem value_digit {n : ℕ} (h : n < 64) : value (digit n) = some n := by
  have hall : ∀ i : Fin 64, value (digit i) = some i.val := by decide
  exact hall ⟨n, h⟩

theorem digit_ne_pad {n : ℕ} (h : n < 64) : digit n ≠ pad := by
  have hall : ∀ i : Fin 64, digit i ≠ pad := by decide
  exact hall ⟨n, h⟩

theorem ofNat_eq {n : ℕ} {b : UInt8} (h : n = b.toNat) : UInt8.ofNat n = b := by rw [h, UInt8.ofNat_toNat]

/-! ## The bytes come back -/

section Bytes

variable (a b c : UInt8)

theorem byte₁_digits : byte₁ (a.toNat / 4) (a.toNat % 4 * 16 + b.toNat / 16) = a := by
  have hb := b.toNat_lt
  exact ofNat_eq (by omega)

theorem byte₂_digits : byte₂ (a.toNat % 4 * 16 + b.toNat / 16) (b.toNat % 16 * 4 + c.toNat / 64) = b := by
  have hb := b.toNat_lt
  have hc := c.toNat_lt
  exact ofNat_eq (by omega)

theorem byte₃_digits : byte₃ (b.toNat % 16 * 4 + c.toNat / 64) (c.toNat % 64) = c := by
  have hc := c.toNat_lt
  exact ofNat_eq (by omega)

/-- The digits of a group are below 64. -/
theorem group_lt : a.toNat / 4 < 64 ∧ a.toNat % 4 * 16 + b.toNat / 16 < 64 ∧
    b.toNat % 16 * 4 + c.toNat / 64 < 64 ∧ c.toNat % 64 < 64 := by
  have ha := a.toNat_lt
  have hb := b.toNat_lt
  have hc := c.toNat_lt
  omega

end Bytes

/-- **Round trip.** -/
theorem decode_of_encode (bs : List UInt8) : decode (encode bs) = some bs := by
  induction bs using encode.induct with
  | case1 => rfl
  | case2 a =>
    obtain ⟨hx, hy, -, -⟩ := group_lt a 0 0
    have hzero : (0 : UInt8).toNat = 0 := rfl
    have hspare : (a.toNat % 4 * 16 + (0 : UInt8).toNat / 16) % 16 = 0 := by omega
    show decodePadded (digit (a.toNat / 4)) (digit (a.toNat % 4 * 16 + (0 : UInt8).toNat / 16)) pad = _
    unfold decodePadded
    rw [value_digit hx, value_digit hy]
    dsimp only
    rw [if_pos rfl, if_pos hspare, byte₁_digits]
  | case3 a b =>
    obtain ⟨hx, hy, hz, -⟩ := group_lt a b 0
    have hzero : (0 : UInt8).toNat = 0 := rfl
    have hspare : (b.toNat % 16 * 4 + (0 : UInt8).toNat / 64) % 4 = 0 := by omega
    show decodePadded (digit (a.toNat / 4)) (digit (a.toNat % 4 * 16 + b.toNat / 16))
      (digit (b.toNat % 16 * 4 + (0 : UInt8).toNat / 64)) = _
    unfold decodePadded
    rw [value_digit hx, value_digit hy, value_digit hz]
    dsimp only
    rw [if_neg (digit_ne_pad hz), if_pos hspare, byte₁_digits, byte₂_digits]
  | case4 a b c rest ih =>
    obtain ⟨hx, hy, hz, hw⟩ := group_lt a b c
    show decode (digit (a.toNat / 4) :: digit (a.toNat % 4 * 16 + b.toNat / 16) ::
      digit (b.toNat % 16 * 4 + c.toNat / 64) :: digit (c.toNat % 64) :: encode rest) = _
    rw [decode.eq_def]
    dsimp only
    rw [if_neg (digit_ne_pad hw), value_digit hx, value_digit hy, value_digit hz, value_digit hw]
    dsimp only
    rw [ih, Option.map_some, byte₁_digits, byte₂_digits, byte₃_digits]

theorem group_all {P : UInt8 → Prop} (hdigit : ∀ n < 64, P (digit n)) (a b c : UInt8) :
    ∀ x ∈ group a.toNat b.toNat c.toNat, P x := by
  obtain ⟨hx, hy, hz, hw⟩ := group_lt a b c
  simp only [group, List.forall_mem_cons]
  exact ⟨hdigit _ hx, hdigit _ hy, hdigit _ hz, hdigit _ hw, by simp⟩

/-- What holds of the digits and of the padding holds of what is encoded. -/
theorem encode_all {P : UInt8 → Prop} (hdigit : ∀ n < 64, P (digit n)) (hpad : P pad) (bs : List UInt8) :
    ∀ b ∈ encode bs, P b := by
  induction bs using encode.induct with
  | case1 => simp [encode]
  | case2 a =>
    intro x hx
    rcases List.mem_append.mp hx with hx | hx
    · exact group_all hdigit a 0 0 x (List.mem_of_mem_take hx)
    · simp only [List.mem_cons, List.not_mem_nil, or_false, or_self] at hx
      exact hx ▸ hpad
  | case3 a b =>
    intro x hx
    rcases List.mem_append.mp hx with hx | hx
    · exact group_all hdigit a b 0 x (List.mem_of_mem_take hx)
    · exact List.mem_singleton.mp hx ▸ hpad
  | case4 a b c rest ih =>
    intro x hx
    rcases List.mem_append.mp hx with hx | hx
    · exact group_all hdigit a b c x hx
    · exact ih x hx

/-- What is encoded is ASCII. -/
theorem encode_lt (bs : List UInt8) : ∀ b ∈ encode bs, b.toNat < 128 := by
  have hall : ∀ i : Fin 64, (digit i).toNat < 128 := by decide
  exact encode_all (fun n hn => hall ⟨n, hn⟩) (by decide) bs

/-- Nothing is encoded as a byte of zero or as a dot. -/
theorem encode_ne (bs : List UInt8) : ∀ b ∈ encode bs, b ≠ 0 ∧ b ≠ 46 := by
  have hall : ∀ i : Fin 64, digit i ≠ 0 ∧ digit i ≠ 46 := by decide
  exact encode_all (fun n hn => hall ⟨n, hn⟩) (by decide) bs

/-- Four digits for three bytes, the last ones padded. -/
theorem encode_length (bs : List UInt8) : (encode bs).length = (bs.length + 2) / 3 * 4 := by
  induction bs using encode.induct with
  | case1 => rfl
  | case2 | case3 => simp [encode, group]
  | case4 a b c rest ih =>
    simp only [encode, group, List.length_append, List.length_cons, List.length_nil, ih]
    omega

theorem value_lt {b : UInt8} {n : ℕ} (h : value b = some n) : b.toNat < 128 := by
  by_contra hlarge
  have hnone : value b = none := by
    unfold value
    rw [if_neg (by omega), if_neg (by omega), if_neg (by omega), if_neg (by omega), if_neg (by omega)]
  rw [hnone] at h
  cases h

/-- What a padded group decodes to. -/
theorem decodePadded_spec {x y z : UInt8} {d : List UInt8} (h : decodePadded x y z = some d) :
    d.length ≤ 2 ∧ x.toNat < 128 ∧ y.toNat < 128 ∧ z.toNat < 128 := by
  have hpad : pad.toNat < 128 := by decide
  unfold decodePadded at h
  split at h
  · next i j hx hy =>
    split at h
    · next hz =>
      obtain ⟨-, h⟩ := Option.ite_none_right_eq_some.mp h
      cases h
      exact ⟨by simp, value_lt hx, value_lt hy, hz ▸ hpad⟩
    · split at h
      · next k hz =>
        obtain ⟨-, h⟩ := Option.ite_none_right_eq_some.mp h
        cases h
        exact ⟨by simp, value_lt hx, value_lt hy, value_lt hz⟩
      · cases h
  · cases h

/-- A group in front of others decodes to three bytes. -/
theorem decode_group {x y z w : UInt8} {rest d : List UInt8} (hw : w ≠ pad)
    (h : decode (x :: y :: z :: w :: rest) = some d) :
    ∃ i j k l more, (value x = some i ∧ value y = some j ∧ value z = some k ∧ value w = some l) ∧
      decode rest = some more ∧ d = byte₁ i j :: byte₂ j k :: byte₃ k l :: more := by
  rw [decode.eq_def] at h
  dsimp only at h
  rw [if_neg hw] at h
  split at h
  · next i j k l hx hy hz hl =>
    obtain ⟨more, hmore, hd⟩ := Option.map_eq_some_iff.mp h
    exact ⟨i, j, k, l, more, ⟨hx, hy, hz, hl⟩, hmore, hd.symm⟩
  · cases h

/-- A padded group is the last. -/
theorem decode_pad {x y z : UInt8} {rest d : List UInt8} (h : decode (x :: y :: z :: pad :: rest) = some d) :
    rest = [] ∧ decodePadded x y z = some d := by
  rw [decode.eq_def] at h
  dsimp only at h
  rw [if_pos rfl] at h
  cases rest with
  | nil => exact ⟨rfl, h⟩
  | cons r rest => cases h

/-- **What can be decoded** are whole groups of ASCII, and the bytes are fewer. -/
theorem decode_spec {v d : List UInt8} (h : decode v = some d) :
    v.length % 4 = 0 ∧ d.length ≤ v.length ∧ ∀ b ∈ v, b.toNat < 128 := by
  match v, h with
  | [], h =>
    cases h
    simp
  | [_], h | [_, _], h | [_, _, _], h => cases h
  | x :: y :: z :: w :: rest, h =>
    simp only [List.forall_mem_cons, List.length_cons]
    by_cases hw : w = pad
    · subst hw
      have hpad : pad.toNat < 128 := by decide
      obtain ⟨rfl, h⟩ := decode_pad h
      obtain ⟨hlen, hx, hy, hz⟩ := decodePadded_spec h
      exact ⟨rfl, Nat.le_trans hlen (by simp), hx, hy, hz, hpad, by simp⟩
    · obtain ⟨i, j, k, l, more, ⟨hx, hy, hz, hl⟩, hmore, rfl⟩ := decode_group hw h
      obtain ⟨hlen, hle, hall⟩ := decode_spec hmore
      refine ⟨?_, ?_, value_lt hx, value_lt hy, value_lt hz, value_lt hl, hall⟩
      · omega
      · simp only [List.length_cons]
        omega
termination_by v.length

/-- The bytes of the groups behind some groups come last. -/
theorem decode_append {xs ys d : List UInt8} (hxs : xs.length % 4 = 0) (hys : ys ≠ [])
    (h : decode (xs ++ ys) = some d) : ∃ d', decode ys = some d' ∧ d' <:+ d := by
  match xs, hxs with
  | [], _ => exact ⟨d, h, List.suffix_rfl⟩
  | [_], hxs | [_, _], hxs | [_, _, _], hxs => simp at hxs
  | x :: y :: z :: w :: rest, hxs =>
    simp only [List.length_cons] at hxs
    by_cases hw : w = pad
    · subst hw
      exact absurd (List.append_eq_nil_iff.mp (decode_pad h).1).2 hys
    · obtain ⟨i, j, k, l, more, -, hmore, rfl⟩ := decode_group hw h
      obtain ⟨d', hd', hsuffix⟩ := decode_append (by omega) hys hmore
      refine ⟨d', hd', hsuffix.trans ?_⟩
      exact List.suffix_append [byte₁ i j, byte₂ j k, byte₃ k l] more
termination_by xs.length

/-- The digit 63. -/
def slash : UInt8 := 47

/-- Groups of nothing but the digit 63 are bytes of nothing but ones. -/
theorem mem_of_encode_slashes {bs xs d : List UInt8} {n : ℕ} (hn : n ≠ 0) (hxs : decode xs = some d)
    (h : encode bs = xs ++ List.replicate n slash) : 255 ∈ bs := by
  have hlength : xs.length % 4 = 0 := (decode_spec hxs).1
  have hall := encode_length bs
  rw [h, List.length_append, List.length_replicate] at hall
  obtain ⟨m, rfl⟩ : ∃ m, n = m + 4 := ⟨n - 4, by omega⟩
  have hdecode := decode_of_encode bs
  rw [h] at hdecode
  obtain ⟨d', hd', hsuffix⟩ := decode_append hlength (by simp) hdecode
  obtain ⟨i, j, k, l, more, ⟨hi, hj, -⟩, -, rfl⟩ := decode_group (by decide) hd'
  have hslash : value slash = some 63 := rfl
  rw [hslash] at hi hj
  cases hi
  cases hj
  exact hsuffix.subset List.mem_cons_self

end Base64
