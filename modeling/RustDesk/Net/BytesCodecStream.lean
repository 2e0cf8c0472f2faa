import RustDesk.Net.BytesCodec

/-!
# Losslessness of `BytesCodec` under fragmentation

The codec is a `StreamDecoder`; without the raw switch it is `Incremental`, so the cuts of the byte
stream are invisible and only whole streams have to be decoded. `decode_encoded` is the one-frame
round trip, for all four head sizes.
-/

namespace RustDesk.Net.BytesCodec

open LittleEndian

/-! ## The codec as an incremental decoder -/

theorem headLen_pos (b₀ : UInt8) : 0 < headLen b₀ := Nat.succ_pos _

variable {len n : ℕ} {src data rest p : Bytes} {c c' : BytesCodec}

/-- Only the bytes of the head itself enter its value. -/
theorem headValue_append (h0 : 0 < len) (h : len ≤ src.length) (m : Bytes) :
    headValue (src ++ m) len = headValue src len := by
  have hget : ∀ i, i < len → (src ++ m).getD i 0 = src.getD i 0 := fun i hi => by
    rw [List.getD_append _ _ _ _ (by omega)]
  unfold headValue
  rw [hget 0 h0]
  by_cases h1 : len > 1 <;> by_cases h2 : len > 2 <;> by_cases h3 : len > 3 <;>
    simp only [h1, h2, h3, if_true, if_false, hget]

/-- Everything one call of `decode_head` can do. -/
theorem decodeHead_cases (c : BytesCodec) (src : Bytes) : (decodeHead c src = (.ok none, src)) ∨
    (∃ b₀ tail, src = b₀ :: tail ∧ headLen b₀ ≤ src.length ∧
      ((headValue src (headLen b₀) >>> 2 > c.maxPacketLength ∧
          decodeHead c src = (.error ⟨.invalidData, "Too big packet"⟩, src)) ∨
        (headValue src (headLen b₀) >>> 2 ≤ c.maxPacketLength ∧ decodeHead c src =
            (.ok (some (headValue src (headLen b₀) >>> 2)), src.drop (headLen b₀))))) := by
  rcases src with _ | ⟨b₀, tail⟩
  · exact Or.inl rfl
  · by_cases hlen : (b₀ :: tail).length < headLen b₀
    · exact Or.inl (by rw [decodeHead, if_pos hlen])
    · refine Or.inr ⟨b₀, tail, rfl, by omega, ?_⟩
      by_cases hbig : headValue (b₀ :: tail) (headLen b₀) >>> 2 > c.maxPacketLength
      · exact Or.inl ⟨hbig, by rw [decodeHead, if_neg hlen]; simp only [hbig, if_true]⟩
      · exact Or.inr ⟨by omega, by rw [decodeHead, if_neg hlen]; simp only [hbig, if_false]⟩

/-- A head that is complete is read the same whatever follows it. -/
theorem decodeHead_append {b₀ : UInt8} {tail : Bytes} (h : headLen b₀ ≤ (b₀ :: tail).length) (m : Bytes) :
    decodeHead c (b₀ :: tail ++ m)
      = ((decodeHead c (b₀ :: tail)).1, (decodeHead c (b₀ :: tail)).2 ++ m) := by
  have hval := headValue_append (headLen_pos b₀) h m
  have hshort : ¬ (b₀ :: tail).length < headLen b₀ := by omega
  have hshort' : ¬ (b₀ :: (tail ++ m)).length < headLen b₀ := by
    simp only [List.length_cons, List.length_append] at hshort ⊢
    omega
  rw [List.cons_append] at hval ⊢
  simp only [decodeHead, if_neg hshort, if_neg hshort', hval]
  split
  · rfl
  · rw [← List.cons_append, List.drop_append_of_le_length h]

/-- Termination measure of repeated `decode`: each item uses up a head or leaves state `Data`. -/
def weight (c : BytesCodec) (src : Bytes) : ℕ :=
  2 * src.length + match c.state with
    | .head => 0
    | .data _ => 1

/-- Everything `decode` can do once a payload length is known. -/
theorem decodeBody_cases (c : BytesCodec) (n : ℕ) (src : Bytes) :
    (src.length < n ∧ decodeBody c n src = (.ok none, c, src)) ∨
    (n ≤ src.length ∧ decodeBody c n src = (.ok (some (src.take n)), { c with state := .head }, src.drop n)) := by
  unfold decodeBody decodeData
  by_cases h : src.length < n
  · exact Or.inl ⟨h, by simp only [h, if_true]⟩
  · exact Or.inr ⟨by omega, by simp only [h, if_false]⟩

theorem decodeBody_append_of_le (h : n ≤ src.length) (m : Bytes) : decodeBody c n (src ++ m)
      = (.ok (some (src.take n)), { c with state := .head }, src.drop n ++ m) := by
  have hlong : ¬ (src ++ m).length < n := by
    rw [List.length_append]
    omega
  simp only [decodeBody, decodeData, if_neg hlong, List.take_append_of_le_length h, List.drop_append_of_le_length h]

section

variable (h : decodeBody c n src = (.ok (some data), c', rest))
include h

/-- An item yielded behind the head goes back to `Head` and does not lengthen the buffer. -/
theorem decodeBody_item : c'.state = .head ∧ rest.length ≤ src.length := by
  rcases decodeBody_cases c n src with ⟨-, hb⟩ | ⟨-, hb⟩ <;> rw [hb] at h
  · cases h
  · cases h
    exact ⟨rfl, by simp⟩

theorem decodeBody_item_append (m : Bytes) : decodeBody c n (src ++ m) = (.ok (some data), c', rest ++ m) := by
  rcases decodeBody_cases c n src with ⟨-, hb⟩ | ⟨hle, hb⟩ <;> rw [hb] at h <;> cases h
  exact decodeBody_append_of_le hle m

end

/-- Waiting behind the head leaves codec and buffer as they are. -/
theorem decodeBody_wait (h : decodeBody c n src = (.ok none, c', rest)) : c' = c ∧ rest = src := by
  rcases decodeBody_cases c n src with ⟨-, hb⟩ | ⟨-, hb⟩ <;> rw [hb] at h <;> cases h
  exact ⟨rfl, rfl⟩

theorem decodeBody_ne_error (c : BytesCodec) (n : ℕ) (src : Bytes) {e c' rest} :
    decodeBody c n src ≠ (.error e, c', rest) := by
  rcases decodeBody_cases c n src with ⟨-, hb⟩ | ⟨-, hb⟩ <;> rw [hb] <;> rintro ⟨⟩

theorem weight_lt (h : decode c src = (.ok (some data), c', rest)) : c'.weight rest < c.weight src := by
  unfold decode at h
  split at h
  · -- raw: the buffer was not empty and is emptied, the state is not touched
    rcases src with _ | ⟨b, src⟩
    · cases h
    · cases h
      simp [weight]
  · split at h
    next hstate =>
      rcases decodeHead_cases c src with hd | ⟨b₀, tail, rfl, hlen, ⟨-, hd⟩ | ⟨-, hd⟩⟩ <;>
        rw [hd] at h
      · cases h
      · cases h
      · obtain ⟨hhead, hle⟩ := decodeBody_item h
        have hpos := headLen_pos b₀
        simp only [List.length_drop, List.length_cons] at hle
        simp only [weight, hhead, hstate, List.length_cons]
        omega
    next n hstate =>
      obtain ⟨hhead, hle⟩ := decodeBody_item h
      simp only [weight, hhead, hstate]
      omega

/-- `decode`, polled until it answers `Ok(None)`. -/
def decoder : StreamDecoder BytesCodec UInt8 Bytes IoError where
  poll := decode
  weight := weight
  weight_lt := weight_lt

/-- The codec states in which frames are parsed. -/
def Framing (c : BytesCodec) : Prop := c.raw = false

section

variable (hraw : Framing c)
include hraw

theorem decode_head (hc : c.state = .head) (src : Bytes) : decode c src = match decodeHead c src with
      | (.ok (some n), rest) => decodeBody { c with state := .data n } n rest
      | (.ok none, rest) => (.ok none, c, rest)
      | (.error e, rest) => (.error e, c, rest) := by
  obtain ⟨state, raw, maxPacketLength⟩ := c
  obtain rfl : raw = false := hraw
  obtain rfl : state = .head := hc
  rfl

theorem decode_data (hc : c.state = .data n) (src : Bytes) : decode c src = decodeBody c n src := by
  simp [decode, show c.raw = false from hraw, hc]

theorem decodeBody_framing {r} (h : decodeBody c n src = (r, c', rest)) : Framing c' := by
  rcases decodeBody_cases c n src with ⟨-, hb⟩ | ⟨-, hb⟩ <;> rw [hb] at h <;> cases h <;> exact hraw

theorem decode_framing {r} (h : decode c src = (r, c', rest)) : Framing c' := by
  cases hc : c.state with
  | head =>
    rw [decode_head hraw hc] at h
    rcases decodeHead_cases c src with hd | ⟨b₀, tail, rfl, hlen, ⟨-, hd⟩ | ⟨-, hd⟩⟩ <;>
      rw [hd] at h
    · cases h; exact hraw
    · cases h; exact hraw
    · exact decodeBody_framing (c := { c with state := .data _ }) hraw h
  | data n =>
    rw [decode_data hraw hc] at h
    exact decodeBody_framing hraw h

end

/-- **The codec is incremental**: bytes that arrive later never change an answer. -/
theorem decoder_incremental : StreamDecoder.Incremental decoder Framing where
  keeps hraw h := decode_framing hraw h
  item {c src x c' rest} m hraw h := by
    change decode c src = _ at h
    change decode c (src ++ m) = _
    cases hc : c.state with
    | head =>
      rw [decode_head hraw hc] at h ⊢
      rcases decodeHead_cases c src with hd | ⟨b₀, tail, rfl, hlen, ⟨-, hd⟩ | ⟨-, hd⟩⟩
      · rw [hd] at h; cases h
      · rw [hd] at h; cases h
      · rw [decodeHead_append hlen, hd]
        rw [hd] at h
        exact decodeBody_item_append h m
    | data n =>
      rw [decode_data hraw hc] at h ⊢
      exact decodeBody_item_append h m
  wait {c src c' rest} m hraw h := by
    change decode c src = _ at h
    change decode c (src ++ m) = decode c' (rest ++ m)
    cases hc : c.state with
    | head =>
      rw [decode_head hraw hc] at h
      rcases decodeHead_cases c src with hd | ⟨b₀, tail, rfl, hlen, ⟨-, hd⟩ | ⟨-, hd⟩⟩
      · rw [hd] at h; cases h; rfl
      · rw [hd] at h; cases h
      · -- the head is complete, the payload is not: the codec now waits in `Data`
        rw [decode_head hraw hc, decodeHead_append hlen, hd]
        rw [hd] at h
        obtain ⟨rfl, rfl⟩ := decodeBody_wait h
        exact (decode_data (show Framing { c with state := .data _ } from hraw) rfl _).symm
    | data n =>
      rw [decode_data hraw hc] at h
      obtain ⟨rfl, rfl⟩ := decodeBody_wait h
      rfl
  fail {c src e c' rest} m hraw h := by
    change decode c src = _ at h
    change decode c (src ++ m) = _
    cases hc : c.state with
    | head =>
      rw [decode_head hraw hc] at h ⊢
      rcases decodeHead_cases c src with hd | ⟨b₀, tail, rfl, hlen, ⟨-, hd⟩ | ⟨-, hd⟩⟩
      · rw [hd] at h; cases h
      · rw [decodeHead_append hlen, hd]
        rw [hd] at h
        cases h
        rfl
      · rw [hd] at h
        exact absurd h (decodeBody_ne_error _ _ _)
    | data n =>
      rw [decode_data hraw hc] at h
      exact absurd h (decodeBody_ne_error _ _ _)

/-! ## One frame -/

theorem putU16Le_eq (n : UInt16) : putU16Le n = leBytes 2 n.toNat := by
  have hhigh : (n >>> 8).toUInt8 = UInt8.ofNat (n.toNat / 256) :=
    UInt8.toNat_inj.mp (by simp [Nat.shiftRight_eq_div_pow])
  rw [putU16Le, hhigh]
  rfl

theorem toUInt8_shiftRight (n i : UInt32) (hi : i.toNat < 32) :
    (n >>> i).toUInt8 = UInt8.ofNat (n.toNat / 2 ^ i.toNat) :=
  UInt8.toNat_inj.mp (by simp [Nat.shiftRight_eq_div_pow, Nat.mod_eq_of_lt hi])

theorem putU32Le_eq (n : UInt32) : putU32Le n = leBytes 4 n.toNat := by
  rw [putU32Le, toUInt8_shiftRight n 8 (by decide), toUInt8_shiftRight n 16 (by decide),
    toUInt8_shiftRight n 24 (by decide)]
  simp only [leBytes, Nat.div_div_eq_div_mul]
  rfl

/-- The three-byte head is written as its low 16 bits and its third byte. -/
theorem putU24Le_eq (n : UInt32) :
    putU16Le (n &&& 0xFFFF).toUInt16 ++ [(n >>> 16).toUInt8] = leBytes 3 n.toNat := by
  have hlow : (n &&& 0xFFFF).toUInt16.toNat = n.toNat % 2 ^ 16 := by
    have hmask : (0xFFFF : UInt32).toNat = 2 ^ 16 - 1 := rfl
    rw [UInt32.toNat_toUInt16, UInt32.toNat_and, hmask, Nat.and_two_pow_sub_one_eq_mod, Nat.mod_mod]
  have hbyte : ∀ a b : ℕ, a % 256 = b % 256 → UInt8.ofNat a = UInt8.ofNat b := fun a b h =>
    UInt8.toNat_inj.mp (by rw [UInt8.toNat_ofNat', UInt8.toNat_ofNat']; exact h)
  rw [putU16Le_eq, hlow, toUInt8_shiftRight n 16 (by decide)]
  simp only [leBytes, Nat.div_div_eq_div_mul, List.cons_append, List.nil_append]
  rw [hbyte (n.toNat % 2 ^ 16) n.toNat (by omega), hbyte (n.toNat % 2 ^ 16 / 256) (n.toNat / 256) (by omega)]
  rfl

/-- The head of a frame, whatever its size, is `4 * len` tagged with the head length minus one. -/
theorem encodeHead_eq (h : len ≤ 0x3FFFFFFF) : ∃ k, 1 ≤ k ∧ k ≤ 4 ∧ 4 * len + (k - 1) < 256 ^ k ∧
      encodeHead len = .ok (leBytes k (4 * len + (k - 1))) := by
  unfold encodeHead
  by_cases h1 : len ≤ 0x3F
  · refine ⟨1, le_rfl, by decide, by omega, ?_⟩
    rw [if_pos h1, Nat.shiftLeft_eq, Nat.mul_comm]
    rfl
  by_cases h2 : len ≤ 0x3FFF
  · refine ⟨2, by decide, by decide, by omega, ?_⟩
    have hval : (UInt16.ofNat (len <<< 2) ||| 0x1).toNat = 4 * len + 1 := by
      rw [UInt16.toNat_or, UInt16.toNat_ofNat', Nat.mod_eq_of_lt (by rw [Nat.shiftLeft_eq]; omega)]
      exact shiftLeft_or (by decide) len
    rw [if_neg h1, if_pos h2, putU16Le_eq, hval]
  by_cases h3 : len ≤ 0x3FFFFF
  · refine ⟨3, by decide, by decide, by omega, ?_⟩
    have hval : (UInt32.ofNat (len <<< 2) ||| 0x2).toNat = 4 * len + 2 := by
      rw [UInt32.toNat_or, UInt32.toNat_ofNat', Nat.mod_eq_of_lt (by rw [Nat.shiftLeft_eq]; omega)]
      exact shiftLeft_or (by decide) len
    simp only [if_neg h1, if_neg h2, if_pos h3, putU24Le_eq, hval]
  · refine ⟨4, by decide, by decide, by omega, ?_⟩
    have hval : (UInt32.ofNat (len <<< 2) ||| 0x3).toNat = 4 * len + 3 := by
      rw [UInt32.toNat_or, UInt32.toNat_ofNat', Nat.mod_eq_of_lt (by rw [Nat.shiftLeft_eq]; omega)]
      exact shiftLeft_or (by decide) len
    rw [if_neg h1, if_neg h2, if_neg h3, if_pos h, putU32Le_eq, hval]

/-- Or-ing the head bytes together, as `decode_head` does, reads them as one number. -/
theorem headValue_eq_ofLeBytes (bs rest : Bytes) (h1 : 1 ≤ bs.length) (h4 : bs.length ≤ 4) :
    headValue (bs ++ rest) bs.length = ofLeBytes bs := by
  have htwo : ∀ a b : UInt8, a.toNat ||| b.toNat <<< 8 = a.toNat + 2 ^ 8 * b.toNat :=
    fun a b => or_shiftLeft a.toNat_lt _
  have hthree : ∀ a b c : UInt8, a.toNat ||| b.toNat <<< 8 ||| c.toNat <<< 16
      = a.toNat + 2 ^ 8 * b.toNat + 2 ^ 16 * c.toNat := fun a b c => by
    have ha := a.toNat_lt
    have hb := b.toNat_lt
    rw [htwo, or_shiftLeft (by omega)]
  rcases bs with _ | ⟨b₀, _ | ⟨b₁, _ | ⟨b₂, _ | ⟨b₃, _ | ⟨b₄, bs⟩⟩⟩⟩⟩
  · simp at h1
  · simp [headValue, ofLeBytes]
  · simp [headValue, ofLeBytes, htwo]
  · simp [headValue, ofLeBytes, hthree]
    omega
  · have h₀ := b₀.toNat_lt
    have h₁ := b₁.toNat_lt
    have h₂ := b₂.toNat_lt
    simp [headValue, ofLeBytes, hthree,
      or_shiftLeft (show b₀.toNat + 256 * b₁.toNat + 65536 * b₂.toNat < 2 ^ 24 by omega)]
    omega
  · simp only [List.length_cons] at h4
    omega

/-- The two tag bits of the first head byte give back the head length. -/
theorem headLen_ofNat {k : ℕ} (h1 : 1 ≤ k) (h4 : k ≤ 4) : headLen (UInt8.ofNat (4 * len + (k - 1))) = k := by
  have hmask : (0x3 : UInt8).toNat = 2 ^ 2 - 1 := rfl
  rw [headLen, UInt8.toNat_and, hmask, Nat.and_two_pow_sub_one_eq_mod, UInt8.toNat_ofNat']
  omega

/-- A head in front of anything is read back as the payload length it was written for. -/
theorem decodeHead_encodeHead {head : Bytes}
    (hmax : len ≤ c.maxPacketLength) (hlen : len ≤ 0x3FFFFFFF) (h : encodeHead len = .ok head)
    (rest : Bytes) : decodeHead c (head ++ rest) = (.ok (some len), rest) := by
  obtain ⟨k, h1, h4, hfits, hk⟩ := encodeHead_eq hlen
  rw [h] at hk
  obtain rfl : head = leBytes k (4 * len + (k - 1)) := by injection hk
  obtain ⟨j, rfl⟩ : ∃ j, k = j + 1 := ⟨k - 1, by omega⟩
  have hhl : headLen (UInt8.ofNat (4 * len + (j + 1 - 1))) = j + 1 := headLen_ofNat h1 h4
  have hval := headValue_eq_ofLeBytes (leBytes (j + 1) (4 * len + (j + 1 - 1))) rest (by simp) (by simp; omega)
  rw [ofLeBytes_leBytes, Nat.mod_eq_of_lt hfits, leBytes_length] at hval
  have hshift : (4 * len + (j + 1 - 1)) >>> 2 = len := by
    rw [Nat.shiftRight_eq_div_pow]
    omega
  rw [leBytes, List.cons_append] at hval ⊢
  have hlong : ¬ (UInt8.ofNat (4 * len + (j + 1 - 1)) ::
      (leBytes j ((4 * len + (j + 1 - 1)) / 256) ++ rest)).length < j + 1 := by
    simp
  simp only [decodeHead, hhl, hlong, hval, hshift, if_false, show ¬ len > c.maxPacketLength by omega]
  simp

/-- What `encode` appends for a payload that fits a head. -/
theorem encode_ok (hraw : Framing c) (hlen : p.length ≤ 0x3FFFFFFF) :
    ∃ head, encodeHead p.length = .ok head ∧ ∀ buf, c.encode p buf = .ok (buf ++ head ++ p) := by
  obtain ⟨k, -, -, -, hk⟩ := encodeHead_eq hlen
  refine ⟨_, hk, fun buf => ?_⟩
  rw [encode, if_neg (by simp [show c.raw = false from hraw]), hk]
  rfl

/-- What is framed fits a head. -/
theorem length_le_of_encode (hraw : Framing c) {buf out : Bytes}
    (h : c.encode p buf = .ok out) : p.length ≤ 0x3FFFFFFF := by
  by_contra hlong
  have hhead : encodeHead p.length = .error ⟨.invalidInput, "Overflow"⟩ := by
    rw [encodeHead, if_neg (by omega), if_neg (by omega), if_neg (by omega), if_neg hlong]
  rw [encode, if_neg (by simp [show c.raw = false from hraw]), hhead] at h
  cases h

/-- After a frame the codec is where it was at the beginning. -/
theorem decode_new_item {x : Bytes} (h : decode .new src = (.ok (some x), c, rest)) : c = .new := by
  rw [decode_head (show Framing new from rfl) rfl] at h
  rcases decodeHead_cases .new src with hd | ⟨b₀, tail, rfl, -, ⟨-, hd⟩ | ⟨-, hd⟩⟩ <;> rw [hd] at h
  · cases h
  · cases h
  · dsimp only at h
    generalize headValue (b₀ :: tail) (headLen b₀) >>> 2 = n at h
    rcases decodeBody_cases { new with state := .data n } n ((b₀ :: tail).drop (headLen b₀)) with
      ⟨-, hb⟩ | ⟨-, hb⟩ <;> rw [hb] at h <;> cases h
    rfl

/-- **One-frame round trip**: a frame in front of anything decodes to its payload and leaves the
codec as it was. -/
theorem decode_encoded (hraw : Framing c) (hc : c.state = .head) {frame : Bytes}
    (hmax : p.length ≤ c.maxPacketLength) (hlen : p.length ≤ 0x3FFFFFFF)
    (h : c.encode p [] = .ok frame) (rest : Bytes) :
    c.decode (frame ++ rest) = (.ok (some p), c, rest) := by
  obtain ⟨head, hhead, henc⟩ := encode_ok hraw hlen
  rw [henc] at h
  obtain rfl : head ++ p = frame := by simpa using h
  have hback : { c with state := .head } = c := by rw [← hc]
  have hbody : decodeBody { c with state := .data p.length } p.length (p ++ rest)
      = (.ok (some p), c, rest) := by
    rw [decodeBody_append_of_le le_rfl, List.take_length, List.drop_length, List.nil_append, hback]
  rw [List.append_assoc, decode_head hraw hc, decodeHead_encodeHead hmax hlen hhead]
  exact hbody

/-! ## Whole streams -/

theorem new_framing : Framing new := rfl

theorem poll_new_nil : decoder.poll new [] = (.ok none, new, []) := rfl

/-- Draining the frames of a payload list yields the list and empties the buffer. -/
theorem drain_encodeAll (ps : List Bytes) (hps : ∀ p ∈ ps, p.length ≤ 0x3FFFFFFF) :
    ∃ wire, (∀ buf, new.encodeAll ps buf = .ok (buf ++ wire)) ∧ decoder.drain new wire = ⟨ps, none, new, []⟩ := by
  induction ps with
  | nil => exact ⟨[], fun buf => by simp [encodeAll], StreamDecoder.drain_wait poll_new_nil⟩
  | cons p ps ih =>
    obtain ⟨hp, hps⟩ := List.forall_mem_cons.mp hps
    obtain ⟨wire, henc, hdrain⟩ := ih hps
    obtain ⟨head, -, hone⟩ := encode_ok new_framing hp
    refine ⟨head ++ p ++ wire, fun buf => ?_, ?_⟩
    · rw [encodeAll, hone]
      change new.encodeAll ps (buf ++ head ++ p) = _
      rw [henc]
      simp
    · have hmax : p.length ≤ new.maxPacketLength := hp.trans (by decide)
      have hpoll := decode_encoded new_framing rfl hmax hp (hone []) wire
      rw [List.nil_append] at hpoll
      rw [StreamDecoder.drain_item hpoll, hdrain]
      rfl

theorem length_le_of_encodeAll {ps : List Bytes} {buf wire : Bytes}
    (h : new.encodeAll ps buf = .ok wire) : ∀ p ∈ ps, p.length ≤ 0x3FFFFFFF := by
  induction ps generalizing buf with
  | nil => simp
  | cons p ps ih =>
    rw [encodeAll] at h
    cases hone : new.encode p buf with
    | error e =>
      rw [hone] at h
      cases h
    | ok out =>
      rw [hone] at h
      exact List.forall_mem_cons.mpr ⟨length_le_of_encode new_framing hone, ih h⟩

/-- The frames of a payload list, however they are cut, decode to the list. -/
theorem feed_encodeAll {ps : List Bytes} {wire : Bytes} (h : new.encodeAll ps [] = .ok wire)
    {chunks : List Bytes} (hchunks : chunks.flatten = wire) :
    decoder.feed new [] chunks = ⟨ps, none, new, []⟩ := by
  obtain ⟨wire', henc, hdrain⟩ := drain_encodeAll ps (length_le_of_encodeAll h)
  obtain rfl : wire' = wire := by
    rw [henc, List.nil_append] at h
    injection h
  subst hchunks
  rw [decoder_incremental.feed_eq_drain new_framing poll_new_nil chunks (by simp [hdrain])]
  exact hdrain

/-- **`BytesCodec` framing is lossless under any fragmentation.** However the frames of a payload
list are cut into chunks, a fresh decoder yields exactly the payloads in order, meets no error, and
ends in state `Head` with an empty buffer. -/
theorem lossless_under_fragmentation (ps : List Bytes) (hps : ∀ p ∈ ps, p.length ≤ 0x3FFFFFFF) :
    ∃ wire, new.encodeAll ps [] = .ok wire ∧
      ∀ chunks : List Bytes, chunks.flatten = wire →
        decoder.feed new [] chunks = ⟨ps, none, new, []⟩ := by
  obtain ⟨wire, henc, -⟩ := drain_encodeAll ps hps
  have hwire : new.encodeAll ps [] = .ok wire := by simpa using henc []
  exact ⟨wire, hwire, fun _ => feed_encodeAll hwire⟩

/-- Two frames cut inside the first head and behind an empty read. -/
theorem lossless_under_fragmentation_two_frames :
    decoder.feed new [] [[4], [], [0x61, 0]] = ⟨[[0x61], []], none, new, []⟩ := by
  obtain ⟨wire, henc, hfeed⟩ := lossless_under_fragmentation [[0x61], []] (by simp)
  obtain rfl : [4, 0x61, 0] = wire := by
    have hwire : new.encodeAll [[0x61], []] [] = .ok [4, 0x61, 0] := by rfl
    rw [hwire] at henc
    injection henc
  exact hfeed _ rfl

end RustDesk.Net.BytesCodec
