import Discv5.Lib.Outcome
import Discv5.Lib.Bytes
import Discv5.External

/-!
# Packet — the discv5 wire packets and their codec

`src/packet/mod.rs`: a packet is `iv || masked-header || message`. The
header is a 23-byte static part (protocol id, version, kind, message
nonce, auth-data size) followed by the kind's auth-data, and the whole
header is masked with AES-128-CTR keyed by the first 16 bytes of the
destination node id, with the IV as counter block.

The cipher is the model's parameter `aesCtr`: the keystream it produces
for a key and an IV (the `aes`/`ctr` crates are not part of the
repository). Encoding masks the header in one call; decoding masks the
static header and the auth-data in two calls on one cipher, which
`Bytes.StreamCipher` models as two stretches of one keystream. Record
(ENR) encoding is the `EnrCodec` parameter.

Every slice, index and `expect` of `Packet::decode` is a checked
`Rust.slice`, `Rust.index` or `Rust.tryInto`, so a panic is an outcome
of the model and not a silent truncation.
-/

namespace Discv5

open Rust Bytes

/-- The packet IV length (u128). -/
def ivLength : Nat := 16

/-- The length of the static header: 6 byte protocol id, 2 byte version,
1 byte kind, 12 byte message nonce and a 2 byte auth-data size. -/
def staticHeaderLength : Nat := 23

/-- The message nonce length (in bytes). -/
def messageNonceLength : Nat := 12

/-- The id nonce length (in bytes). -/
def idNonceLength : Nat := 16

def maxPacketSize : Nat := 1280

/-- The smallest auth-data that can be sent is the 24 bytes of a WHOAREYOU packet. -/
def minPacketSize : Nat := ivLength + staticHeaderLength + 24

/-- `ProtocolIdentity`: the protocol id and version bytes of the static header. -/
structure ProtocolIdentity where
  protocolIdBytes : Arr UInt8 6
  protocolVersionBytes : Arr UInt8 2

/-- `DefaultProtocolId`: `b"discv5"` and version `0x0001`. -/
def defaultProtocolId : ProtocolIdentity where
  protocolIdBytes := ⟨[0x64, 0x69, 0x73, 0x63, 0x76, 0x35], rfl⟩
  protocolVersionBytes := ⟨[0x00, 0x01], rfl⟩

/-- Message nonce (12 bytes). -/
abbrev MessageNonce := Arr UInt8 messageNonceLength

/-- The nonce sent in a WHOAREYOU packet. -/
abbrev IdNonce := Arr UInt8 idNonceLength

/-- `PacketError`. -/
inductive PacketError where
  | unknownPacket
  | tooLarge
  | tooSmall
  | invalidNodeId
  | headerLengthInvalid (len : Nat)
  | headerDecryptionFailed
  | invalidAuthDataSize
  | invalidVersion (version : Nat)
  | invalidEnr (e : DecoderError)
  deriving DecidableEq, Repr

variable {Enr : Type}

/-- The type of packet: its kind and the kind's auth-data. -/
inductive PacketKind (Enr : Type) where
  /-- An ordinary message, with the sending node id. -/
  | message (srcId : NodeId)
  /-- A WHOAREYOU packet: the id nonce to be verified and the local ENR sequence number. -/
  | whoAreYou (idNonce : IdNonce) (enrSeq : UInt64)
  /-- A handshake message: the id-nonce signature, the ephemeral public key and the
  ENR record of the node if the WHOAREYOU request is out-dated. -/
  | handshake (srcId : NodeId) (idNonceSig : List UInt8) (ephemPubkey : List UInt8)
      (enrRecord : Option Enr)

structure PacketHeader (Enr : Type) where
  messageNonce : MessageNonce
  kind : PacketKind Enr

structure Packet (Enr : Type) where
  /-- Random data unique to the packet (a u128). -/
  iv : BitVec 128
  header : PacketHeader Enr
  /-- The message contents itself. -/
  message : List UInt8

/-- `ChallengeData`: the authenticated data of a WHOAREYOU packet, whose
63 bytes are the IV, the static header and the 24 bytes of auth-data. -/
abbrev ChallengeData := Arr UInt8 63

/-- `Packet::new_message`, with the IV that `rand::random()` returns. -/
def Packet.newMessage (srcId : NodeId) (messageNonce : MessageNonce) (ciphertext : List UInt8)
    (iv : BitVec 128) : Packet Enr :=
  ⟨iv, ⟨messageNonce, .message srcId⟩, ciphertext⟩

/-- `Packet::new_whoareyou`: the challenge answers the packet of `requestNonce`. -/
def Packet.newWhoareyou (requestNonce : MessageNonce) (idNonce : IdNonce) (enrSeq : UInt64)
    (iv : BitVec 128) : Packet Enr :=
  ⟨iv, ⟨requestNonce, .whoAreYou idNonce enrSeq⟩, []⟩

/-- `Packet::new_authheader`: a handshake packet whose message is filled in later. -/
def Packet.newAuthheader (srcId : NodeId) (messageNonce : MessageNonce)
    (idNonceSig ephemPubkey : List UInt8) (enrRecord : Option Enr) (iv : BitVec 128) :
    Packet Enr :=
  ⟨iv, ⟨messageNonce, .handshake srcId idNonceSig ephemPubkey enrRecord⟩, []⟩

/-- `Packet::new_random`: a message packet of 44 random bytes, which the
peer cannot decrypt and answers with a WHOAREYOU. The random values are
arguments in the order the source draws them. -/
def Packet.newRandom (srcId : NodeId) (ciphertext : Arr UInt8 44) (messageNonce : MessageNonce)
    (iv : BitVec 128) : Packet Enr :=
  Packet.newMessage srcId messageNonce ciphertext.toList iv

/-- `From<&PacketKind> for u8`: the kind byte of the static header. -/
def PacketKind.toU8 : PacketKind Enr → UInt8
  | .message .. => 0
  | .whoAreYou .. => 1
  | .handshake .. => 2

def PacketKind.isWhoareyou : PacketKind Enr → Bool
  | .whoAreYou .. => true
  | _ => false

/-- `PacketKind::encode`: the auth-data of the kind. The two handshake
lengths are written `as u8`, so they are kept modulo 256. -/
def PacketKind.encode (c : EnrCodec Enr) : PacketKind Enr → List UInt8
  | .message srcId => srcId.raw.toList
  | .whoAreYou idNonce enrSeq => idNonce.toList ++ toBeBytes 8 enrSeq.toNat
  | .handshake srcId idNonceSig ephemPubkey enrRecord =>
    srcId.raw.toList ++ [UInt8.ofNat idNonceSig.length] ++ [UInt8.ofNat ephemPubkey.length] ++
      idNonceSig ++ ephemPubkey ++ (enrRecord.map c.encode).getD []

/-- `NodeId::parse` with its error mapped to `PacketError::InvalidNodeId`. -/
def parseNodeId (c : EnrCodec Enr) (raw : List UInt8) : Outcome PacketError NodeId :=
  Outcome.ofExcept (fun _ => .invalidNodeId) (c.parseNodeId raw)

/-- The handshake branch of `PacketKind::decode`: src id, two length
bytes, signature, ephemeral key and an optional trailing record. -/
def decodeHandshake (c : EnrCodec Enr) (authData : List UInt8) :
    Outcome PacketError (PacketKind Enr) := do
  -- Length must contain 2 bytes of lengths and the src id (32 bytes)
  if authData.length < 34 then throw .invalidAuthDataSize
  let srcId ← slice authData 0 32 >>= parseNodeId c
  let sigSize := (← index authData 32).toNat
  let ephKeySize := (← index authData (32 + 1)).toNat
  let totalSize := sigSize + ephKeySize
  if authData.length < 34 + totalSize then throw .invalidAuthDataSize
  let remainingData ← slice authData (32 + 2) authData.length
  let idNonceSig ← slice remainingData 0 sigSize
  let ephemPubkey ← slice remainingData sigSize totalSize
  let enrRecord ←
    if remainingData.length > totalSize then do
      let recordBytes ← slice remainingData totalSize remainingData.length
      let (enr, _) ← Outcome.ofExcept PacketError.invalidEnr (c.decode recordBytes)
      pure (some enr)
    else pure none
  pure (.handshake srcId idNonceSig ephemPubkey enrRecord)

/-- `PacketKind::decode`: decodes auth-data, given the kind byte. -/
def PacketKind.decode (c : EnrCodec Enr) (kind : UInt8) (authData : List UInt8) :
    Outcome PacketError (PacketKind Enr) :=
  match kind.toNat with
  | 0 => do
    -- This should only contain a 32 byte NodeId.
    if authData.length ≠ 32 then throw .invalidAuthDataSize
    let srcId ← parseNodeId c authData
    pure (.message srcId)
  | 1 => do
    -- This must be 24 bytes long.
    if authData.length ≠ 24 then throw .invalidAuthDataSize
    let idNonce ← slice authData 0 idNonceLength >>= tryInto idNonceLength
    let enrSeq ← slice authData idNonceLength authData.length >>= tryInto 8
    pure (.whoAreYou idNonce (UInt64.ofNat (fromBeBytes enrSeq.toList)))
  | 2 => decodeHandshake c authData
  | _ => throw .unknownPacket

/-- `PacketHeader::encode`: the static header followed by the auth-data. -/
def PacketHeader.encode (P : ProtocolIdentity) (c : EnrCodec Enr) (h : PacketHeader Enr) :
    List UInt8 :=
  let authData := h.kind.encode c
  P.protocolIdBytes.toList ++ P.protocolVersionBytes.toList ++ [h.kind.toU8] ++
    h.messageNonce.toList ++ toBeBytes 2 authData.length ++ authData

/-- `Packet::authenticated_data`: the IV followed by the unmasked header. -/
def Packet.authenticatedData (P : ProtocolIdentity) (c : EnrCodec Enr) (p : Packet Enr) :
    List UInt8 :=
  toBeBytes 16 p.iv.toNat ++ p.header.encode P c

/-- `Packet::encrypt_header`: the header masked with the keystream of
`(dst_id[..16], iv)`. -/
def Packet.encryptHeader (P : ProtocolIdentity) (c : EnrCodec Enr)
    (aesCtr : List UInt8 → List UInt8 → Nat → UInt8) (p : Packet Enr) (dstId : NodeId) :
    List UInt8 :=
  let cipher := StreamCipher.new (aesCtr (dstId.raw.toList.take 16) (toBeBytes 16 p.iv.toNat))
  (cipher.applyKeystream (p.header.encode P c)).1

/-- `Packet::encode`: `iv || masked-header || message`. -/
def Packet.encode (P : ProtocolIdentity) (c : EnrCodec Enr)
    (aesCtr : List UInt8 → List UInt8 → Nat → UInt8) (p : Packet Enr) (dstId : NodeId) :
    List UInt8 :=
  toBeBytes 16 p.iv.toNat ++ p.encryptHeader P c aesCtr dstId ++ p.message

/-- `Packet::decode`: decodes a packet given the local node id, and returns
the authenticated data for the decryption of the message. -/
def Packet.decode (P : ProtocolIdentity) (c : EnrCodec Enr)
    (aesCtr : List UInt8 → List UInt8 → Nat → UInt8) (srcId : NodeId) (data : List UInt8) :
    Outcome PacketError (Packet Enr × List UInt8) := do
  if data.length > maxPacketSize then throw .tooLarge
  if data.length < minPacketSize then throw .tooSmall
  let iv ← slice data 0 ivLength
  let cipher := StreamCipher.new (aesCtr (srcId.raw.toList.take 16) iv)
  -- Take the static header content
  let (staticHeader, cipher) :=
    cipher.applyKeystream (← slice data ivLength (ivLength + staticHeaderLength))
  if staticHeader.length ≠ staticHeaderLength then
    throw (.headerLengthInvalid staticHeader.length)
  if (← slice staticHeader 0 6) ≠ P.protocolIdBytes.toList then throw .headerDecryptionFailed
  let versionBytes ← slice staticHeader 6 8
  if versionBytes ≠ P.protocolVersionBytes.toList then
    let version ← tryInto 2 versionBytes
    throw (.invalidVersion (fromBeBytes version.toList))
  let flag ← index staticHeader 8
  let messageNonce ← slice staticHeader 9 (9 + messageNonceLength) >>= tryInto messageNonceLength
  let authDataSize :=
    fromBeBytes (← slice staticHeader (staticHeaderLength - 2) staticHeader.length >>=
      tryInto 2).toList
  let remainingData ← slice data (ivLength + staticHeaderLength) data.length
  if authDataSize > remainingData.length then throw .invalidAuthDataSize
  let (authData, _) := cipher.applyKeystream
    (← slice data (ivLength + staticHeaderLength) (ivLength + staticHeaderLength + authDataSize))
  let kind ← PacketKind.decode c flag authData
  let header : PacketHeader Enr := ⟨messageNonce, kind⟩
  -- Any remaining bytes are message data
  let message ← slice data (ivLength + staticHeaderLength + authDataSize) data.length
  -- do not allow extra bytes being sent in WHOAREYOU messages
  if message ≠ [] ∧ header.kind.isWhoareyou then throw .unknownPacket
  let authenticatedData := iv ++ staticHeader ++ authData
  let ivBytes ← tryInto 16 iv
  pure (⟨BitVec.ofNat 128 (fromBeBytes ivBytes.toList), header, message⟩, authenticatedData)

end Discv5
