import Discv5.Lib.Outcome
import Discv5.Lib.Rlp

/-!
# The parts of the dependencies the model uses

`discv5` builds on the `enr` crate (node records and node ids) and on
`alloy_rlp` (the RLP codec). Neither is part of the repository: the model
keeps their interfaces as parameters, and what the code relies on of their
behaviour as named laws (`RlpCodec.Lawful`, `EnrCodec.Lawful`), stated from
their documentation and the RLP format.

The RLP format of `Discv5.Lib.Rlp` satisfies the laws
(`RlpCodec.reference_lawful`); the examples and witnesses run on it.
-/

namespace Discv5

open Rust

/-- `enr::NodeId`: 32 raw bytes. -/
structure NodeId where
  raw : Arr UInt8 32
  deriving DecidableEq

/-- `alloy_rlp::Error`. -/
abbrev DecoderError := Rlp.Error

/-! ## `alloy_rlp` -/

/-- The functions of `alloy_rlp` the RPC codec calls. -/
structure RlpCodec where
  /-- `Header::encode`. -/
  encodeHeader : Rlp.Header → List UInt8
  /-- `Header::decode`: the header and the buffer after it. -/
  decodeHeader : List UInt8 → Except DecoderError (Rlp.Header × List UInt8)
  /-- `Header::decode_bytes`: the payload of a string item (a list item
  with `true`) and the buffer after it. -/
  decodeBytes : List UInt8 → Bool → Except DecoderError (List UInt8 × List UInt8)
  /-- `Encodable::encode` of a byte string. -/
  encodeBytes : List UInt8 → List UInt8
  /-- `Encodable::encode` of an unsigned integer. -/
  encodeUint : Nat → List UInt8
  /-- `Decodable::decode` of an unsigned integer type of `width` bytes. -/
  decodeUint : Nat → List UInt8 → Except DecoderError (Nat × List UInt8)
  /-- `Encodable::encode` of a `Vec`, from the encodings of its items. -/
  encodeList : List (List UInt8) → List UInt8
  /-- `Vec::<u64>::decode`. -/
  decodeUintList : List UInt8 → Except DecoderError (List Nat × List UInt8)

/-- What the RPC codec relies on of `alloy_rlp`: the header lengths of the
RLP format, the round trip of each item kind, and the rejection of a list
header that announces more payload than follows. -/
structure RlpCodec.Lawful (rlp : RlpCodec) : Prop where
  /-- A header is one byte for a payload under 56 bytes, and otherwise one
  byte followed by the payload length in minimal big-endian form. -/
  length_encodeHeader : ∀ h : Rlp.Header, (rlp.encodeHeader h).length =
    if h.payloadLength < 56 then 1 else Rlp.byteLength h.payloadLength + 1
  /-- A header is read back when its payload follows, unless it is the
  header of a single byte below `0x80`, which is its own encoding. -/
  decodeHeader_encodeHeader : ∀ (h : Rlp.Header) (rest : List UInt8),
    h.payloadLength ≤ rest.length → h.payloadLength < 256 ^ 8 →
    (h.list = false → h.payloadLength = 1 → ∀ c rest', rest = c :: rest' → 0x80 ≤ c.toNat) →
    rlp.decodeHeader (rlp.encodeHeader h ++ rest) = .ok (h, rest)
  /-- A list header followed by less payload than it announces is rejected. -/
  decodeHeader_encodeHeader_short : ∀ (len : Nat) (rest : List UInt8), rest.length < len →
    len < 256 ^ 8 → ∃ e, rlp.decodeHeader (rlp.encodeHeader ⟨true, len⟩ ++ rest) = .error e
  /-- A byte string is its own encoding when it is one byte below `0x80`,
  and otherwise follows a string header. -/
  encodeBytes_eq : ∀ bs : List UInt8, rlp.encodeBytes bs =
    match bs with
    | [b] => if b.toNat < 0x80 then [b] else rlp.encodeHeader ⟨false, 1⟩ ++ [b]
    | _ => rlp.encodeHeader ⟨false, bs.length⟩ ++ bs
  /-- `decode_bytes` reads a byte string back. -/
  decodeBytes_encodeBytes : ∀ bs rest : List UInt8, bs.length < 256 ^ 8 →
    rlp.decodeBytes (rlp.encodeBytes bs ++ rest) false = .ok (bs, rest)
  /-- An unsigned integer is the byte string of its minimal big-endian bytes. -/
  encodeUint_eq : ∀ n, n < 256 ^ 8 → rlp.encodeUint n = rlp.encodeBytes (Rlp.minimalBeBytes n)
  /-- An unsigned integer that fits the width is read back. -/
  decodeUint_encodeUint : ∀ (n width : Nat) (rest : List UInt8), n < 256 ^ width → width ≤ 8 →
    rlp.decodeUint width (rlp.encodeUint n ++ rest) = .ok (n, rest)
  /-- A `Vec` is a list header over the concatenated item encodings. -/
  encodeList_eq : ∀ items : List (List UInt8),
    rlp.encodeList items = rlp.encodeHeader ⟨true, items.flatten.length⟩ ++ items.flatten
  /-- A `Vec<u64>` is read back. -/
  decodeUintList_encodeList : ∀ (xs : List Nat) (rest : List UInt8), (∀ x ∈ xs, x < 256 ^ 8) →
    (xs.flatMap rlp.encodeUint).length < 256 ^ 8 →
    rlp.decodeUintList (rlp.encodeList (xs.map rlp.encodeUint) ++ rest) = .ok (xs, rest)

namespace RlpCodec.Lawful

variable {rlp : RlpCodec} (h : rlp.Lawful)
include h

theorem encodeHeader_ne_nil (hd : Rlp.Header) : rlp.encodeHeader hd ≠ [] := by
  intro he
  have := h.length_encodeHeader hd
  rw [he] at this
  split at this <;> simp at this

/-- A longer payload never gets a shorter header. -/
theorem length_encodeHeader_mono (list : Bool) {m n : Nat} (hmn : m ≤ n) :
    (rlp.encodeHeader ⟨list, m⟩).length ≤ (rlp.encodeHeader ⟨list, n⟩).length := by
  rw [h.length_encodeHeader, h.length_encodeHeader]
  have := Rlp.byteLength_mono hmn
  dsimp only
  split_ifs <;> omega

/-- The header of a payload below `2^16` bytes has at most three bytes. -/
theorem length_encodeHeader_le_three (list : Bool) {n : Nat} (hn : n < 256 ^ 2) :
    (rlp.encodeHeader ⟨list, n⟩).length ≤ 3 := by
  rw [h.length_encodeHeader]
  have := Rlp.byteLength_le hn
  dsimp only
  split_ifs <;> omega

theorem encodeBytes_ne_nil (bs : List UInt8) : rlp.encodeBytes bs ≠ [] := by
  rw [h.encodeBytes_eq]
  split
  · split <;> simp
  · simp [h.encodeHeader_ne_nil]

theorem length_le_length_encodeBytes (bs : List UInt8) : bs.length ≤ (rlp.encodeBytes bs).length := by
  rw [h.encodeBytes_eq]
  split
  · split <;> simp
  · simp

/-- A short byte string costs one byte more at most. -/
theorem length_encodeBytes_le {bs : List UInt8} (hbs : bs.length < 56) :
    (rlp.encodeBytes bs).length ≤ bs.length + 1 := by
  rw [h.encodeBytes_eq]
  split
  · split <;> simp [h.length_encodeHeader]
  · simp [h.length_encodeHeader, hbs, Nat.add_comm]

/-- An integer below `0x80` is one byte. -/
theorem length_encodeUint_of_lt {n : Nat} (hn : n < 0x80) : (rlp.encodeUint n).length = 1 := by
  rw [h.encodeUint_eq n (by omega), h.encodeBytes_eq]
  rcases Nat.eq_zero_or_pos n with rfl | hpos
  · simp [Rlp.minimalBeBytes, Bytes.toBeBytes, Rlp.byteLength, Rlp.byteLengthAux,
      h.length_encodeHeader]
  · rw [Rlp.minimalBeBytes_of_lt hpos (by omega)]
    simp [Rlp.toNat_ofNat_of_lt (show n < 256 by omega), hn]

end RlpCodec.Lawful

/-- The RLP format of `Discv5.Lib.Rlp` as the codec of `alloy_rlp`. -/
def RlpCodec.reference : RlpCodec where
  encodeHeader := Rlp.Header.encode
  decodeHeader := Rlp.Header.decode
  decodeBytes := Rlp.Header.decodeBytes
  encodeBytes := Rlp.encodeBytes
  encodeUint := Rlp.encodeUint
  decodeUint := Rlp.decodeUint
  encodeList := Rlp.encodeList id
  decodeUintList := Rlp.decodeList (Rlp.decodeUint 8) fun _ _ _ h => Rlp.decodeUint_shrinks h

@[simp] theorem RlpCodec.reference_encodeHeader : RlpCodec.reference.encodeHeader = Rlp.Header.encode :=
  rfl

@[simp] theorem RlpCodec.reference_encodeBytes : RlpCodec.reference.encodeBytes = Rlp.encodeBytes := rfl

@[simp] theorem RlpCodec.reference_encodeUint : RlpCodec.reference.encodeUint = Rlp.encodeUint := rfl

theorem RlpCodec.reference_lawful : RlpCodec.reference.Lawful where
  length_encodeHeader := Rlp.Header.length_encode
  decodeHeader_encodeHeader h rest hlen hbig hcanon := Rlp.Header.decode_encode h rest hlen hbig hcanon
  decodeHeader_encodeHeader_short _ _ hshort hbig := ⟨_, Rlp.Header.decode_encode_short hshort hbig⟩
  encodeBytes_eq bs := by
    simp only [RlpCodec.reference]
    unfold Rlp.encodeBytes
    rfl
  decodeBytes_encodeBytes := Rlp.decodeBytes_encodeBytes
  encodeUint_eq _ hn := Rlp.encodeUint_eq_encodeBytes hn
  decodeUint_encodeUint _ _ rest hn hw := Rlp.decodeUint_encodeUint rest hn hw
  encodeList_eq items := by simp [RlpCodec.reference, Rlp.encodeList]
  decodeUintList_encodeList xs rest hxs hbig := by
    have henc : Rlp.encodeList id (xs.map Rlp.encodeUint) = Rlp.encodeList Rlp.encodeUint xs := by
      simp [Rlp.encodeList, List.flatMap_map]
    simp only [RlpCodec.reference, henc]
    exact Rlp.decodeList_encodeList xs (fun x hx rest => Rlp.decodeUint_encodeUint rest (hxs x hx)
      (Nat.le_refl 8)) rest hbig

/-! ## The `enr` crate -/

/-- The parts of the `enr` crate the packet and RPC codecs call: the RLP
codec of a record type, as `alloy_rlp::{Encodable, Decodable}` give it
(`decode` reads one item from the front of the buffer and returns the
rest), and `NodeId::parse`. -/
structure EnrCodec (Enr : Type) where
  encode : Enr → List UInt8
  decode : List UInt8 → Except DecoderError (Enr × List UInt8)
  parseNodeId : List UInt8 → Except String NodeId

/-- What the codecs rely on of the `enr` crate: an encoding is a non-empty
RLP item, decoding reads exactly that item back, and `NodeId::parse` reads
a node id back from its 32 raw bytes. -/
structure EnrCodec.Lawful {Enr : Type} (c : EnrCodec Enr) : Prop where
  decode_encode : ∀ e rest, c.decode (c.encode e ++ rest) = .ok (e, rest)
  encode_ne_nil : ∀ e, c.encode e ≠ []
  parseNodeId_raw : ∀ id : NodeId, c.parseNodeId id.raw.toList = .ok id

/-- A `NodeId::parse` for the examples: it agrees with the `enr` crate's on
the 32-byte inputs the packet decoder gives it, and refuses the others. -/
def NodeId.parse32 (raw : List UInt8) : Except String NodeId :=
  if h : raw.length = 32 then .ok ⟨⟨raw, h⟩⟩ else .error "Input too large"

theorem NodeId.parse32_raw (id : NodeId) : NodeId.parse32 id.raw.toList = .ok id := by
  obtain ⟨⟨raw, h⟩⟩ := id
  simp [NodeId.parse32, h]

end Discv5
