import RustDesk.Common.StreamDecoder
import RustDesk.Common.LittleEndian

/-!
# `BytesCodec`: length-prefixed frames

Reference: `libs/hbb_common/src/bytes_codec.rs`. A frame is a head of one to four bytes followed by
the payload. The two low bits of the first byte hold the head length minus one, the other bits of
the head the payload length, little-endian.

The capacity hints (`reserve`) have no observable effect on the decoded stream and are left out.
-/

namespace RustDesk.Net

/-- The error kinds of `std::io` that the framing layer and the cipher layer report. -/
inductive ErrorKind
  | invalidData
  | invalidInput
  | other
deriving DecidableEq

/-- `std::io::Error` as built by `Error::new(kind, message)`. -/
structure IoError where
  kind : ErrorKind
  message : String
deriving DecidableEq

/-- Byte strings (`Bytes`, `BytesMut`, `Vec<u8>`). -/
abbrev Bytes := List UInt8

/-- `usize::MAX` on the 64-bit targets. -/
def usizeMax : ℕ := 2 ^ 64 - 1

inductive DecodeState
  | head
  | data (n : ℕ)
deriving DecidableEq

structure BytesCodec where
  state : DecodeState
  raw : Bool
  maxPacketLength : ℕ
deriving DecidableEq

namespace BytesCodec

def new : BytesCodec where
  state := .head
  raw := false
  maxPacketLength := usizeMax

def setRaw (c : BytesCodec) : BytesCodec := { c with raw := true }

def setMaxPacketLength (c : BytesCodec) (n : ℕ) : BytesCodec := { c with maxPacketLength := n }

/-! ## Decoding -/

/-- The length of the head that starts with byte `b₀`. -/
def headLen (b₀ : UInt8) : ℕ := (b₀ &&& 0x3).toNat + 1

/-- The head of length `len` read as a number: payload length above the two tag bits. -/
def headValue (src : Bytes) (len : ℕ) : ℕ :=
  let n := (src.getD 0 0).toNat
  let n := if len > 1 then n ||| (src.getD 1 0).toNat <<< 8 else n
  let n := if len > 2 then n ||| (src.getD 2 0).toNat <<< 16 else n
  if len > 3 then n ||| (src.getD 3 0).toNat <<< 24 else n

/-- `decode_head`: the payload length once the whole head has arrived, and the buffer behind the
head. A refused length leaves the buffer alone. -/
def decodeHead (c : BytesCodec) (src : Bytes) : Except IoError (Option ℕ) × Bytes :=
  match src with
  | [] => (.ok none, src)
  | b₀ :: _ =>
    if src.length < headLen b₀ then (.ok none, src)
    else
      let n := headValue src (headLen b₀) >>> 2
      if n > c.maxPacketLength then (.error ⟨.invalidData, "Too big packet"⟩, src)
      else (.ok (some n), src.drop (headLen b₀))

/-- `decode_data`: the payload once all of it has arrived. -/
def decodeData (n : ℕ) (src : Bytes) : Option Bytes × Bytes :=
  if src.length < n then (none, src) else (some (src.take n), src.drop n)

/-- The part of `Decoder::decode` behind the head: wait for `n` bytes, then go back to `Head`. -/
def decodeBody (c : BytesCodec) (n : ℕ) (src : Bytes) :
    Except IoError (Option Bytes) × BytesCodec × Bytes :=
  match decodeData n src with
  | (some data, rest) => (.ok (some data), { c with state := .head }, rest)
  | (none, rest) => (.ok none, c, rest)

/-- `Decoder::decode`. -/
def decode (c : BytesCodec) (src : Bytes) : Except IoError (Option Bytes) × BytesCodec × Bytes :=
  if c.raw then
    if src.isEmpty then (.ok none, c, src) else (.ok (some src), c, [])
  else
    match c.state with
    | .head =>
      match decodeHead c src with
      | (.ok (some n), rest) => decodeBody { c with state := .data n } n rest
      | (.ok none, rest) => (.ok none, c, rest)
      | (.error e, rest) => (.error e, c, rest)
    | .data n => decodeBody c n src

/-! ## Encoding -/

/-- `put_u16_le`. -/
def putU16Le (n : UInt16) : Bytes := [n.toUInt8, (n >>> 8).toUInt8]

/-- `put_u32_le`. -/
def putU32Le (n : UInt32) : Bytes :=
  [n.toUInt8, (n >>> 8).toUInt8, (n >>> 16).toUInt8, (n >>> 24).toUInt8]

/-- The head `Encoder::encode` writes in front of `len` bytes, or its `Overflow` error. -/
def encodeHead (len : ℕ) : Except IoError Bytes :=
  if len ≤ 0x3F then .ok [UInt8.ofNat (len <<< 2)]
  else if len ≤ 0x3FFF then .ok (putU16Le (UInt16.ofNat (len <<< 2) ||| 0x1))
  else if len ≤ 0x3FFFFF then
    let h := UInt32.ofNat (len <<< 2) ||| 0x2
    .ok (putU16Le (h &&& 0xFFFF).toUInt16 ++ [(h >>> 16).toUInt8])
  else if len ≤ 0x3FFFFFFF then .ok (putU32Le (UInt32.ofNat (len <<< 2) ||| 0x3))
  else .error ⟨.invalidInput, "Overflow"⟩

/-- `Encoder::encode`: append the frame of `data` to `buf`. -/
def encode (c : BytesCodec) (data buf : Bytes) : Except IoError Bytes :=
  if c.raw then .ok (buf ++ data)
  else (encodeHead data.length).map fun head => buf ++ head ++ data

/-- `encode` called for a list of payloads on one buffer. -/
def encodeAll (c : BytesCodec) : List Bytes → Bytes → Except IoError Bytes
  | [], buf => .ok buf
  | p :: ps, buf => do
    let buf ← c.encode p buf
    c.encodeAll ps buf

end BytesCodec

end RustDesk.Net
