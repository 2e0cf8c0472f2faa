import RustDesk.Common.LittleEndian

/-!
# `AddrMangle`: socket addresses as rendezvous messages carry them

References: `libs/hbb_common/src/lib.rs` (`try_into_v4`, `AddrMangle`) and
`rustdesk-server/libs/hbb_common/src/lib.rs` (the server's copy, the same text).

An IPv4 address is spread over a 128-bit number together with the microsecond clock, in three fields
that the carries of the two sums must not leave: the port and the low clock bits below bit 17, the
clock up to bit 49, the address and the clock above. Zero bytes at the top are not sent.
-/

namespace RustDesk.Net

open LittleEndian

/-! ## Addresses -/

/-- `IpAddr`, by its octets. -/
inductive IpAddr
  | v4 (octets : Vector UInt8 4)
  | v6 (octets : Vector UInt8 16)
deriving DecidableEq

/-- `Ipv4Addr::new`. -/
def IpAddr.ofOctets (a b c d : UInt8) : IpAddr := .v4 #v[a, b, c, d]

/-- `SocketAddr`. The flow information and scope of a `SocketAddrV6` are left out: nothing here reads
them. -/
structure SocketAddr where
  ip : IpAddr
  port : UInt16
deriving DecidableEq

namespace IpAddr

/-- `Ipv6Addr::UNSPECIFIED`. -/
def unspecifiedV6 : IpAddr := .v6 (Vector.replicate 16 0)

/-- `Ipv6Addr::to_ipv4`: the address inside an IPv4-compatible or IPv4-mapped one. -/
def toIpv4 (octets : Vector UInt8 16) : Option (Vector UInt8 4) :=
  let os := octets.toList
  if os.take 10 = List.replicate 10 0 ∧
      ((os.drop 10).take 2 = [0, 0] ∨ (os.drop 10).take 2 = [0xff, 0xff]) then
    some #v[octets[12], octets[13], octets[14], octets[15]]
  else none

/-- `IpAddr::is_loopback`. -/
def isLoopback : IpAddr → Bool
  | .v4 octets => octets[0] = 127
  | .v6 octets => octets.toList = List.replicate 15 0 ++ [1]

end IpAddr

/-- `try_into_v4`. -/
def tryIntoV4 (addr : SocketAddr) : SocketAddr :=
  match addr.ip with
  | .v6 octets =>
    if addr.ip.isLoopback then addr
    else
      match IpAddr.toIpv4 octets with
      | some v4 => ⟨.v4 v4, addr.port⟩
      | none => addr
  | .v4 _ => addr

/-- `Config::get_any_listen_addr(false)`. -/
def anyListenAddrV6 : SocketAddr := ⟨.unspecifiedV6, 0⟩

namespace AddrMangle

/-! ## The two functions -/

/-- The number that carries an IPv4 address, as `u128`. -/
def mangle (ip port tm : ℕ) : ℕ :=
  ((ip + tm) <<< 49) % 2 ^ 128 ||| (tm <<< 17) % 2 ^ 128 ||| (port + (tm &&& 0xFFFF))

/-- The bytes without the zero bytes at their end. -/
def stripPadding (bytes : List UInt8) : List UInt8 :=
  let nPadding := (bytes.reverse.takeWhile (· = 0)).length
  bytes.take (16 - nPadding)

/-- `AddrMangle::encode` at the clock value `tm`. -/
def encode (tm : UInt32) (addr : SocketAddr) : List UInt8 :=
  let addr := tryIntoV4 addr
  match addr.ip with
  | .v4 octets =>
    stripPadding (leBytes 16 (mangle (ofLeBytes octets.toList) addr.port.toNat tm.toNat))
  | .v6 octets => octets.toList ++ leBytes 2 addr.port.toNat

/-- The subtraction of `u128`. -/
def sub128 (a b : ℕ) : ℕ := (a + 2 ^ 128 - b) % 2 ^ 128

/-- The four octets of a `u32`. -/
def octetsV4 (ip : ℕ) : Vector UInt8 4 := ⟨(leBytes 4 ip).toArray, by simp⟩

/-- The part of `decode` for at most 16 bytes. -/
def decodeV4 (bytes : List UInt8) : SocketAddr :=
  let padded := bytes ++ List.replicate (16 - bytes.length) 0
  let number := ofLeBytes padded
  let tm := (number >>> 17) &&& 0xFFFFFFFF
  let ip := sub128 (number >>> 49) tm
  let port := sub128 (number &&& 0xFFFFFF) (tm &&& 0xFFFF)
  ⟨.v4 (octetsV4 ip), UInt16.ofNat port⟩

/-- `AddrMangle::decode`. -/
def decode (bytes : List UInt8) : SocketAddr :=
  if bytes.length > 16 then
    if h : bytes.length = 18 then
      ⟨.v6 ⟨(bytes.take 16).toArray, by simp [h]⟩, UInt16.ofNat (ofLeBytes (bytes.drop 16))⟩
    else anyListenAddrV6
  else decodeV4 bytes

/-- The two copies of the library. -/
inductive Copy
  | client
  | server
deriving DecidableEq

def Copy.encode : Copy → UInt32 → SocketAddr → List UInt8
  | .client => AddrMangle.encode
  | .server => AddrMangle.encode

def Copy.decode : Copy → List UInt8 → SocketAddr
  | .client => AddrMangle.decode
  | .server => AddrMangle.decode

/-! ## The number -/

section Number

variable {ip port tm : ℕ}

section

variable (hip : ip < 2 ^ 32) (hport : port < 2 ^ 16) (htm : tm < 2 ^ 32)
include hip hport htm

/-- The three fields do not overlap: the carry of `port` stays below bit 17, the clock below bit
49. -/
theorem mangle_eq : mangle ip port tm = 2 ^ 49 * (ip + tm) + (2 ^ 17 * tm + (port + tm % 2 ^ 16)) := by
  have hlow : tm &&& 0xFFFF = tm % 2 ^ 16 := Nat.and_two_pow_sub_one_eq_mod tm 16
  have htop : (ip + tm) <<< 49 < 2 ^ 128 := by
    rw [Nat.shiftLeft_eq]
    omega
  have hmid : tm <<< 17 < 2 ^ 128 := by
    rw [Nat.shiftLeft_eq]
    omega
  have hclock : tm <<< 17 < 2 ^ 49 := by
    rw [Nat.shiftLeft_eq]
    omega
  have hport' : port + tm % 2 ^ 16 < 2 ^ 17 := by omega
  rw [mangle, Nat.mod_eq_of_lt htop, Nat.mod_eq_of_lt hmid, hlow, Nat.or_assoc,
    shiftLeft_or hport', shiftLeft_or (by rw [Nat.shiftLeft_eq] at hclock; omega)]

theorem mangle_lt : mangle ip port tm < 256 ^ 16 := by
  rw [mangle_eq hip hport htm]
  omega

/-- The clock is read back from between the two other fields. -/
theorem mangle_clock : (mangle ip port tm >>> 17) &&& 0xFFFFFFFF = tm := by
  have hmask := Nat.and_two_pow_sub_one_eq_mod (mangle ip port tm >>> 17) 32
  have hlow : (port + tm % 2 ^ 16) / 2 ^ 17 = 0 := Nat.div_eq_of_lt (by omega)
  have hshift : mangle ip port tm >>> 17 = 2 ^ 32 * (ip + tm) + tm := by
    rw [mangle_eq hip hport htm, Nat.shiftRight_eq_div_pow, ← Nat.add_assoc,
      show 2 ^ 49 * (ip + tm) + 2 ^ 17 * tm = 2 ^ 17 * (2 ^ 32 * (ip + tm) + tm) by omega,
      Nat.mul_add_div (by decide), hlow, Nat.add_zero]
  rw [show (0xFFFFFFFF : ℕ) = 2 ^ 32 - 1 from rfl, hmask, hshift, Nat.mul_add_mod, Nat.mod_eq_of_lt htm]

/-- The clock is taken off the address again, a carry included. -/
theorem mangle_ip : sub128 (mangle ip port tm >>> 49) tm = ip := by
  have hlow : (2 ^ 17 * tm + (port + tm % 2 ^ 16)) / 2 ^ 49 = 0 := Nat.div_eq_of_lt (by omega)
  have hshift : mangle ip port tm >>> 49 = ip + tm := by
    rw [mangle_eq hip hport htm, Nat.shiftRight_eq_div_pow, Nat.mul_add_div (by decide), hlow, Nat.add_zero]
  rw [hshift, sub128]
  omega

/-- The mask of 24 bits lets seven bits of the clock through, all above the 16 bits of the port. -/
theorem mangle_port : sub128 (mangle ip port tm &&& 0xFFFFFF) (tm &&& 0xFFFF) % 2 ^ 16 = port := by
  have hlow : tm &&& 0xFFFF = tm % 2 ^ 16 := Nat.and_two_pow_sub_one_eq_mod tm 16
  have hmask := Nat.and_two_pow_sub_one_eq_mod (mangle ip port tm) 24
  rw [show (0xFFFFFF : ℕ) = 2 ^ 24 - 1 from rfl, hmask, hlow, sub128, mangle_eq hip hport htm]
  omega

end

end Number

/-! ## The bytes -/

variable {bytes : List UInt8}

/-- `decode` pads with what `encode` stripped. -/
theorem stripPadding_append (hlen : bytes.length = 16) :
    stripPadding bytes ++ List.replicate (16 - (stripPadding bytes).length) 0 = bytes := by
  set zeros := bytes.reverse.takeWhile (· = 0) with hzeros
  set rest := bytes.reverse.dropWhile (· = 0) with hrest
  have hsplit : bytes = rest.reverse ++ zeros.reverse := by
    rw [← List.reverse_append, hzeros, hrest, List.takeWhile_append_dropWhile, List.reverse_reverse]
  have hcount : rest.length + zeros.length = 16 := by
    rw [← hlen, hsplit]
    simp
  have hzero : zeros.reverse = List.replicate zeros.length 0 := by
    refine List.eq_replicate_iff.mpr ⟨List.length_reverse, fun b hb => ?_⟩
    simpa using List.all_eq_true.mp List.all_takeWhile b (List.mem_reverse.mp hb)
  have hstrip : stripPadding bytes = rest.reverse := by
    rw [stripPadding, ← hzeros, hsplit, List.take_left' (by rw [List.length_reverse]; omega)]
  rw [hstrip, List.length_reverse, show 16 - rest.length = zeros.length by omega, ← hzero, ← hsplit]

theorem stripPadding_length_le : (stripPadding bytes).length ≤ 16 := by
  rw [stripPadding, List.length_take]
  omega

theorem ofLeBytes_lt (bytes : List UInt8) : ofLeBytes bytes < 256 ^ bytes.length := by
  induction bytes with
  | nil => decide
  | cons b bs ih =>
    have hb := b.toNat_lt
    rw [ofLeBytes, List.length_cons, Nat.pow_succ']
    omega

/-- Writing back a number that was read gives its bytes. -/
theorem leBytes_ofLeBytes (bytes : List UInt8) : leBytes bytes.length (ofLeBytes bytes) = bytes := by
  induction bytes with
  | nil => rfl
  | cons b bs ih =>
    have hb := b.toNat_lt
    rw [List.length_cons, leBytes, ofLeBytes]
    congr 1
    · apply UInt8.toNat_inj.mp
      rw [UInt8.toNat_ofNat']
      omega
    · rw [show (b.toNat + 256 * ofLeBytes bs) / 256 = ofLeBytes bs by omega, ih]

theorem octetsV4_ofLeBytes (octets : Vector UInt8 4) : octetsV4 (ofLeBytes octets.toList) = octets := by
  have hbytes := leBytes_ofLeBytes octets.toList
  rw [Vector.length_toList] at hbytes
  apply Vector.toList_inj.mp
  simpa [octetsV4] using hbytes

/-- **Round trip of IPv4 addresses**, at any clock value. -/
theorem decodeV4_mangle (octets : Vector UInt8 4) (port : UInt16) (tm : UInt32) :
    decodeV4 (stripPadding (leBytes 16 (mangle (ofLeBytes octets.toList) port.toNat tm.toNat)))
      = ⟨.v4 octets, port⟩ := by
  have hip : ofLeBytes octets.toList < 2 ^ 32 := by
    have hlt := ofLeBytes_lt octets.toList
    rwa [Vector.length_toList] at hlt
  have hport := port.toNat_lt
  have htm := tm.toNat_lt
  have hnumber : ofLeBytes (leBytes 16 (mangle (ofLeBytes octets.toList) port.toNat tm.toNat))
      = mangle (ofLeBytes octets.toList) port.toNat tm.toNat := by
    rw [ofLeBytes_leBytes, Nat.mod_eq_of_lt (mangle_lt hip hport htm)]
  have hport' : UInt16.ofNat (sub128 (mangle (ofLeBytes octets.toList) port.toNat tm.toNat &&&
      0xFFFFFF) (tm.toNat &&& 0xFFFF)) = port := by
    apply UInt16.toNat_inj.mp
    rw [UInt16.toNat_ofNat', mangle_port hip hport htm]
  simp only [decodeV4, stripPadding_append (leBytes_length 16 _), hnumber,
    mangle_clock hip hport htm, mangle_ip hip hport htm, hport', octetsV4_ofLeBytes]

/-- **Round trip of IPv6 addresses.** -/
theorem decode_octets (octets : Vector UInt8 16) (port : UInt16) :
    decode (octets.toList ++ leBytes 2 port.toNat) = ⟨.v6 octets, port⟩ := by
  have hlen : (octets.toList ++ leBytes 2 port.toNat).length = 18 := by simp
  have htake : (octets.toList ++ leBytes 2 port.toNat).take 16 = octets.toList :=
    List.take_left' Vector.length_toList
  have hdrop : (octets.toList ++ leBytes 2 port.toNat).drop 16 = leBytes 2 port.toNat :=
    List.drop_left' Vector.length_toList
  have hport : UInt16.ofNat (ofLeBytes (leBytes 2 port.toNat)) = port := by
    rw [ofLeBytes_leBytes, Nat.mod_eq_of_lt (show port.toNat < 256 ^ 2 from port.toNat_lt)]
    exact UInt16.ofNat_toNat
  rw [decode, if_pos (by rw [hlen]; decide), dif_pos hlen]
  simp only [htake, hdrop, hport]
  rfl

/-- **Round trip between client and server.** What either copy encodes at any clock value, either
copy decodes to the address as `try_into_v4` has it. -/
theorem decode_encode (enc dec : Copy) (tm : UInt32) (addr : SocketAddr) :
    dec.decode (enc.encode tm addr) = tryIntoV4 addr := by
  have hround : decode (encode tm addr) = tryIntoV4 addr := by
    rw [encode]
    generalize tryIntoV4 addr = addr'
    obtain ⟨octets | octets, port⟩ := addr'
    · rw [decode, if_neg (not_lt.mpr stripPadding_length_le)]
      exact decodeV4_mangle octets port tm
    · exact decode_octets octets port
  cases enc <;> cases dec <;> exact hround

/-! ## Bytes of anyone

`decode` reads what a peer has put into a message. `decodeChecked` stops at the first slice that is out of range
and at the first subtraction below zero, where `decode` goes on modulo 2 ^ 128. -/

/-- `&bytes[start..stop]`. -/
def slice (bytes : List UInt8) (start stop : ℕ) : Option (List UInt8) :=
  if start ≤ stop ∧ stop ≤ bytes.length then some ((bytes.drop start).take (stop - start)) else none

def checkedSub (a b : ℕ) : Option ℕ := if b ≤ a then some (a - b) else none

/-- `try_into().unwrap_or_default()`. -/
def toOctets (k : ℕ) (bytes : List UInt8) : Vector UInt8 k :=
  if h : bytes.length = k then ⟨bytes.toArray, by simp [h]⟩ else Vector.replicate k 0

/-- The bytes at the start of sixteen. -/
def padded (bytes : List UInt8) : Option (List UInt8) :=
  if bytes.length ≤ 16 then some (bytes ++ List.replicate (16 - bytes.length) 0) else none

def decodeChecked (bytes : List UInt8) : Option SocketAddr :=
  if bytes.length > 16 then
    if bytes.length ≠ 18 then some anyListenAddrV6
    else do
      let tmp ← slice bytes 16 bytes.length
      let port := UInt16.ofNat (ofLeBytes (toOctets 2 tmp).toList)
      let tmp ← slice bytes 0 16
      some ⟨.v6 (toOctets 16 tmp), port⟩
  else do
    let padded ← padded bytes
    let number := ofLeBytes padded
    let tm := (number >>> 17) &&& 0xFFFFFFFF
    let ip ← checkedSub (number >>> 49) tm
    let port ← checkedSub (number &&& 0xFFFFFF) (tm &&& 0xFFFF)
    some ⟨.v4 (octetsV4 ip), UInt16.ofNat port⟩

/-- The clock that a number carries. -/
def clock (number : ℕ) : ℕ := number / 2 ^ 17 % 2 ^ 32

/-- The sum of address and clock is not below the clock, and a clock that leaves bits 17 to 23 clear has its low
bits in the sum with the port. -/
def Subtractable (number : ℕ) : Prop :=
  clock number ≤ number / 2 ^ 49 ∧ (clock number % 128 = 0 → clock number % 2 ^ 16 ≤ number % 2 ^ 17)

instance : DecidablePred Subtractable := fun _ => inferInstanceAs (Decidable (_ ∧ _))

theorem shiftRight_and_clock (number : ℕ) : (number >>> 17) &&& 0xFFFFFFFF = clock number := by
  rw [Nat.shiftRight_eq_div_pow]
  exact Nat.and_two_pow_sub_one_eq_mod _ 32

/-- Bits 17 to 23 of the number are the low bits of the clock, and one of them is more than the sixteen bits that
are taken away. -/
theorem low_clock_le_iff (number : ℕ) : clock number &&& 0xFFFF ≤ number &&& 0xFFFFFF ↔
      (clock number % 128 = 0 → clock number % 2 ^ 16 ≤ number % 2 ^ 17) := by
  have hclock : clock number &&& 0xFFFF = clock number % 2 ^ 16 := Nat.and_two_pow_sub_one_eq_mod _ 16
  have hlow : number &&& 0xFFFFFF = number % 2 ^ 24 := Nat.and_two_pow_sub_one_eq_mod _ 24
  have hbits : number % 2 ^ 24 = number % 2 ^ 17 + 2 ^ 17 * (clock number % 128) := by
    unfold clock
    omega
  have hsmall : clock number % 2 ^ 16 < 2 ^ 16 := Nat.mod_lt _ (by decide)
  rw [hclock, hlow, hbits]
  constructor
  · intro h hzero
    rwa [hzero, Nat.mul_zero, Nat.add_zero] at h
  · intro h
    by_cases hzero : clock number % 128 = 0
    · rw [hzero, Nat.mul_zero, Nat.add_zero]
      exact h hzero
    · omega

theorem sub128_of_le {a b : ℕ} (ha : a < 2 ^ 128) (h : b ≤ a) : sub128 a b = a - b := by
  unfold sub128
  omega

theorem ofLeBytes_zeros (bytes : List UInt8) (k : ℕ) :
    ofLeBytes (bytes ++ List.replicate k 0) = ofLeBytes bytes := by
  induction bytes with
  | nil =>
    induction k with
    | zero => rfl
    | succ k ih =>
      rw [List.nil_append] at ih
      rw [List.nil_append, List.replicate_succ]
      show (0 : UInt8).toNat + 256 * ofLeBytes (List.replicate k 0) = _
      rw [ih]
      rfl
  | cons b bytes ih => rw [List.cons_append, ofLeBytes, ofLeBytes, ih]

theorem decodeChecked_of_le (h : bytes.length ≤ 16) : decodeChecked bytes =
      if Subtractable (ofLeBytes bytes) then some (decode bytes) else none := by
  have hnumber : ofLeBytes bytes < 2 ^ 128 := by
    have hlt := ofLeBytes_lt bytes
    have hpow : 256 ^ bytes.length ≤ 256 ^ 16 := Nat.pow_le_pow_right (by decide) h
    have h128 : (256 : ℕ) ^ 16 = 2 ^ 128 := by decide
    omega
  rw [decodeChecked, if_neg (by omega), padded, if_pos h]
  simp only [Option.bind_eq_bind, Option.bind_some, ofLeBytes_zeros, shiftRight_and_clock]
  generalize hn : ofLeBytes bytes = number at hnumber
  have hhigh : number >>> 49 = number / 2 ^ 49 := Nat.shiftRight_eq_div_pow _ _
  by_cases hip : clock number ≤ number / 2 ^ 49
  · by_cases hport : clock number &&& 0xFFFF ≤ number &&& 0xFFFFFF
    · have hlow : number &&& 0xFFFFFF < 2 ^ 128 := Nat.lt_of_le_of_lt Nat.and_le_left hnumber
      rw [if_pos ⟨hip, (low_clock_le_iff number).mp hport⟩, checkedSub, if_pos (hhigh ▸ hip), checkedSub, if_pos hport,
        Option.bind_some, Option.bind_some, decode, if_neg (by omega), decodeV4]
      simp only [ofLeBytes_zeros, hn, shiftRight_and_clock]
      rw [sub128_of_le (by omega) (hhigh ▸ hip), sub128_of_le hlow hport]
    · rw [if_neg fun hs => hport ((low_clock_le_iff number).mpr hs.2), checkedSub, if_pos (hhigh ▸ hip),
        Option.bind_some, checkedSub, if_neg hport]
      rfl
  · rw [if_neg fun hs => hip hs.1, checkedSub, if_neg (hhigh ▸ hip)]
    rfl

theorem decodeChecked_of_gt (h : 16 < bytes.length) : decodeChecked bytes = some (decode bytes) := by
  rw [decodeChecked, if_pos h, decode, if_pos h]
  by_cases hlength : bytes.length = 18
  · have htake : (bytes.take 16).length = 16 := by simp [hlength]
    have hdrop : (bytes.drop 16).length = 2 := by simp [hlength]
    have hport : (bytes.drop 16).take (18 - 16) = bytes.drop 16 := List.take_of_length_le hdrop.le
    rw [if_neg (by simp [hlength]), dif_pos hlength]
    simp only [slice, hlength, Option.bind_eq_bind]
    rw [if_pos (by omega), if_pos (by omega), Option.bind_some, Option.bind_some, hport, Nat.sub_zero, List.drop_zero]
    have hport' : (toOctets 2 (bytes.drop 16)).toList = bytes.drop 16 := by
      rw [toOctets, dif_pos hdrop]
      exact Vector.toList_mk
    have hoctets : toOctets 16 (bytes.take 16) = ⟨(bytes.take 16).toArray, by simp [hlength]⟩ := by
      rw [toOctets, dif_pos htake]
    rw [hport', hoctets]
  · rw [if_pos hlength, dif_neg hlength]

/-- **`decode` takes a number of anyone without a subtraction below zero exactly when it is subtractable**, and bytes
that are too many for a number always. -/
theorem decodes_iff_subtractable (bytes : List UInt8) :
    (∃ addr, decodeChecked bytes = some addr) ↔ 16 < bytes.length ∨ Subtractable (ofLeBytes bytes) := by
  by_cases h : 16 < bytes.length
  · exact ⟨fun _ => .inl h, fun _ => ⟨_, decodeChecked_of_gt h⟩⟩
  · rw [decodeChecked_of_le (Nat.le_of_not_lt h)]
    by_cases hs : Subtractable (ofLeBytes bytes)
    · rw [if_pos hs]
      exact ⟨fun _ => .inr hs, fun _ => ⟨_, rfl⟩⟩
    · rw [if_neg hs]
      exact ⟨fun ⟨_, haddr⟩ => (nomatch haddr), fun hor => absurd hor (not_or.mpr ⟨h, hs⟩)⟩

/-- Three bytes with a clock and no address above it. -/
theorem decode_subtracts_below_zero : decodeChecked [0, 0, 2] = none := by
  decide +kernel

theorem subtractable_mangle {ip port tm : ℕ} (hip : ip < 2 ^ 32) (hport : port < 2 ^ 16) (htm : tm < 2 ^ 32) :
    Subtractable (mangle ip port tm) := by
  have heq := mangle_eq hip hport htm
  generalize mangle ip port tm = number at heq
  have hshift : number / 2 ^ 17 = 2 ^ 32 * (ip + tm) + tm := by omega
  have hhigh : number / 2 ^ 49 = ip + tm := by omega
  have hlow : number % 2 ^ 17 = port + tm % 2 ^ 16 := by omega
  have hclock : clock number = tm := by rw [clock, hshift, Nat.mul_add_mod, Nat.mod_eq_of_lt htm]
  rw [Subtractable, hclock, hhigh, hlow]
  omega

/-- What `encode` writes comes back without a subtraction below zero. -/
theorem decodeChecked_encode (tm : UInt32) (addr : SocketAddr) :
    decodeChecked (encode tm addr) = some (tryIntoV4 addr) := by
  rw [← decode_encode .server .server tm addr]
  show decodeChecked (encode tm addr) = some (decode (encode tm addr))
  rw [encode]
  obtain ⟨octets | octets, port⟩ := tryIntoV4 addr
  · have hip : ofLeBytes octets.toList < 2 ^ 32 := by
      have hlt := ofLeBytes_lt octets.toList
      rwa [Vector.length_toList] at hlt
    have hport := port.toNat_lt
    have htm := tm.toNat_lt
    rw [decodeChecked_of_le stripPadding_length_le, ← ofLeBytes_zeros, stripPadding_append (leBytes_length 16 _),
      ofLeBytes_leBytes, Nat.mod_eq_of_lt (mangle_lt hip hport htm), if_pos (subtractable_mangle hip hport htm)]
  · exact decodeChecked_of_gt (by simp)

end AddrMangle

end RustDesk.Net
