import Discv5.Packet.Basic

/-!
# Packet — the codec round trip

`Packet::decode` reads back what `Packet::encode` writes, for every
protocol identity, destination and well-formed packet whose encoding has
an admissible size (`packet_decode_encode`), and it returns the packet's
own authenticated data. The packets the handler builds are well formed
(`Packet.WellFormed`): the two handshake lengths fit their `u8` fields,
the auth-data fits its `u16` size field, and a WHOAREYOU packet carries
no message.

The argument splits where the decoder does. The auth-data of each kind
decodes to the kind (`PacketKind.decode_encode`); the static header is
23 bytes whose fields sit at fixed offsets (`staticHeader_*`); and the
mask that `encode` applies in one pass is removed by `decode`'s two
passes because they consume one keystream contiguously
(`Bytes.xorKeystream_append`).
-/

namespace Discv5

open Rust Bytes

variable {Enr : Type} (P : ProtocolIdentity) (c : EnrCodec Enr)

/-! ## Auth-data -/

/-- The kinds whose auth-data is decodable: the handshake's two length
bytes hold the true lengths. -/
def PacketKind.WellFormed : PacketKind Enr → Prop
  | .handshake _ idNonceSig ephemPubkey _ => idNonceSig.length ≤ 255 ∧ ephemPubkey.length ≤ 255
  | _ => True

theorem UInt64.ofNat_fromBeBytes_toBeBytes (x : UInt64) :
    UInt64.ofNat (fromBeBytes (toBeBytes 8 x.toNat)) = x := by
  rw [fromBeBytes_toBeBytes, Nat.mod_eq_of_lt (by simpa using x.toNat_lt)]
  exact UInt64.ofNat_toNat

theorem decode_encode_message (hc : c.Lawful) (srcId : NodeId) :
    PacketKind.decode c (PacketKind.message srcId : PacketKind Enr).toU8
      ((PacketKind.message srcId).encode c) = .ok (.message srcId) := by
  simp [PacketKind.decode, PacketKind.toU8, PacketKind.encode, parseNodeId, hc.parseNodeId_raw,
    srcId.raw.length_toList]

theorem decode_encode_whoAreYou (idNonce : IdNonce) (enrSeq : UInt64) :
    PacketKind.decode c (PacketKind.whoAreYou idNonce enrSeq : PacketKind Enr).toU8
      ((PacketKind.whoAreYou idNonce enrSeq).encode c) = .ok (.whoAreYou idNonce enrSeq) := by
  set authData := idNonce.toList ++ toBeBytes 8 enrSeq.toNat with hauth
  have hlen : authData.length = 24 := by
    simp [hauth, idNonce.length_toList, idNonceLength]
  have hnonce : (slice authData 0 idNonceLength : Outcome PacketError _) = .ok idNonce.toList :=
    slice_append_front idNonce.length_toList
  have hseq : (slice authData idNonceLength 24 : Outcome PacketError _) =
      .ok (toBeBytes 8 enrSeq.toNat) :=
    slice_append_back idNonce.length_toList hlen
  have hk : (PacketKind.whoAreYou idNonce enrSeq : PacketKind Enr).encode c = authData := rfl
  rw [hk]
  simp [PacketKind.decode, PacketKind.toU8, hlen, hnonce, hseq,
    tryInto_of_length (length_toBeBytes 8 enrSeq.toNat), UInt64.ofNat_fromBeBytes_toBeBytes]

theorem decodeHandshake_encode (hc : c.Lawful) (srcId : NodeId) (idNonceSig ephemPubkey : List UInt8)
    (enrRecord : Option Enr) (hsig : idNonceSig.length ≤ 255) (hpk : ephemPubkey.length ≤ 255) :
    decodeHandshake c ((PacketKind.handshake srcId idNonceSig ephemPubkey enrRecord).encode c) =
      .ok (.handshake srcId idNonceSig ephemPubkey enrRecord) := by
  set record := (enrRecord.map c.encode).getD [] with hrecord
  set body := idNonceSig ++ ephemPubkey ++ record with hbody
  set authData := srcId.raw.toList ++
    [UInt8.ofNat idNonceSig.length, UInt8.ofNat ephemPubkey.length] ++ body with hauth
  have hraw : srcId.raw.toList.length = 32 := srcId.raw.length_toList
  have hk : (PacketKind.handshake srcId idNonceSig ephemPubkey enrRecord).encode c = authData := by
    simp [PacketKind.encode, hauth, hbody, hrecord]
  have hlen : authData.length = 34 + (idNonceSig.length + ephemPubkey.length) + record.length := by
    simp [hauth, hbody, hraw]
    omega
  -- the fixed fields of the auth-data
  have hsrc : (slice authData 0 32 : Outcome PacketError _) = .ok srcId.raw.toList := by
    rw [hauth, List.append_assoc]
    exact slice_append_front hraw
  have hi32 : (index authData 32 : Outcome PacketError _) = .ok (UInt8.ofNat idNonceSig.length) := by
    rw [index_of_lt (by omega)]
    simp [hauth, hraw]
  have hi33 : (index authData (32 + 1) : Outcome PacketError _) =
      .ok (UInt8.ofNat ephemPubkey.length) := by
    rw [index_of_lt (by omega)]
    simp [hauth, hraw]
  have hsig8 : (UInt8.ofNat idNonceSig.length).toNat = idNonceSig.length := by
    simp [Nat.mod_eq_of_lt (show idNonceSig.length < 256 by omega)]
  have hpk8 : (UInt8.ofNat ephemPubkey.length).toNat = ephemPubkey.length := by
    simp [Nat.mod_eq_of_lt (show ephemPubkey.length < 256 by omega)]
  -- the variable-length fields, read from `remaining_data`
  have hrem : (slice authData 34 authData.length : Outcome PacketError _) = .ok body :=
    slice_append_back (by simp [hraw]) rfl
  have h34 : ¬ authData.length < 34 := by omega
  have htot : ¬ authData.length < 34 + (idNonceSig.length + ephemPubkey.length) := by omega
  have hsigs : (slice body 0 idNonceSig.length : Outcome PacketError _) = .ok idNonceSig := by
    rw [hbody, List.append_assoc]
    exact slice_append_front rfl
  have hpks : (slice body idNonceSig.length (idNonceSig.length + ephemPubkey.length) :
      Outcome PacketError _) = .ok ephemPubkey :=
    slice_append_mid rfl rfl
  rw [hk]
  cases enrRecord with
  | none =>
    have hbl : ¬ idNonceSig.length + ephemPubkey.length < body.length := by
      simp [hbody, hrecord]
    simp [decodeHandshake, hsrc, parseNodeId, hc.parseNodeId_raw, hi32, hi33, hsig8, hpk8, h34,
      htot, hrem, hsigs, hpks, hbl]
  | some e =>
    have hr : record = c.encode e := rfl
    have hne : 0 < record.length := by
      simpa [hr, List.length_pos_iff] using hc.encode_ne_nil e
    have hrec : (slice body (idNonceSig.length + ephemPubkey.length) body.length :
        Outcome PacketError _) = .ok record :=
      slice_append_back (by simp) rfl
    have hdec : c.decode record = .ok (e, []) := by
      simpa [hr] using hc.decode_encode e []
    have hbl : idNonceSig.length + ephemPubkey.length < body.length := by
      simp [hbody]
      omega
    simp [decodeHandshake, hsrc, parseNodeId, hc.parseNodeId_raw, hi32, hi33, hsig8, hpk8, h34,
      htot, hrem, hsigs, hpks, hrec, hdec, hbl]

/-- Every well-formed kind is read back from its auth-data and kind byte. -/
theorem PacketKind.decode_encode (hc : c.Lawful) (k : PacketKind Enr) (hk : k.WellFormed) :
    PacketKind.decode c k.toU8 (k.encode c) = .ok k := by
  cases k with
  | message srcId => exact decode_encode_message c hc srcId
  | whoAreYou idNonce enrSeq => exact decode_encode_whoAreYou c idNonce enrSeq
  | handshake srcId idNonceSig ephemPubkey enrRecord =>
    obtain ⟨hsig, hpk⟩ := hk
    simpa [PacketKind.decode, PacketKind.toU8] using
      decodeHandshake_encode c hc srcId idNonceSig ephemPubkey enrRecord hsig hpk

/-! ## The static header -/

/-- The first 23 bytes of `PacketHeader::encode`: protocol id, version, kind
byte, message nonce and the `u16` auth-data size. -/
def PacketHeader.staticHeader (h : PacketHeader Enr) : List UInt8 :=
  P.protocolIdBytes.toList ++ P.protocolVersionBytes.toList ++ [h.kind.toU8] ++
    h.messageNonce.toList ++ toBeBytes 2 (h.kind.encode c).length

theorem PacketHeader.encode_eq (h : PacketHeader Enr) :
    h.encode P c = h.staticHeader P c ++ h.kind.encode c := rfl

section StaticHeader

variable (h : PacketHeader Enr)

theorem length_staticHeader : (h.staticHeader P c).length = staticHeaderLength := by
  simp [PacketHeader.staticHeader, staticHeaderLength, P.protocolIdBytes.length_toList,
    P.protocolVersionBytes.length_toList, h.messageNonce.length_toList, messageNonceLength]

/-- Rewrites a slice of the static header to the field it covers. -/
theorem slice_staticHeader {a b : Nat} (hab : a ≤ b) (hb : b ≤ staticHeaderLength) :
    (slice (h.staticHeader P c) a b : Outcome PacketError _) =
      .ok (((h.staticHeader P c).drop a).take (b - a)) :=
  slice_of_le hab (by rw [length_staticHeader]; exact hb)

theorem staticHeader_protocolId :
    (slice (h.staticHeader P c) 0 6 : Outcome PacketError _) = .ok P.protocolIdBytes.toList := by
  rw [slice_staticHeader P c h (by omega) (by simp [staticHeaderLength])]
  simp [PacketHeader.staticHeader, P.protocolIdBytes.length_toList]

theorem staticHeader_version :
    (slice (h.staticHeader P c) 6 8 : Outcome PacketError _) =
      .ok P.protocolVersionBytes.toList := by
  rw [slice_staticHeader P c h (by omega) (by simp [staticHeaderLength])]
  simp [PacketHeader.staticHeader, P.protocolIdBytes.length_toList,
    P.protocolVersionBytes.length_toList]

theorem staticHeader_flag :
    (index (h.staticHeader P c) 8 : Outcome PacketError _) = .ok h.kind.toU8 := by
  rw [index_of_lt (by rw [length_staticHeader]; simp [staticHeaderLength])]
  simp [PacketHeader.staticHeader, P.protocolIdBytes.length_toList,
    P.protocolVersionBytes.length_toList]

theorem staticHeader_messageNonce :
    (slice (h.staticHeader P c) 9 (9 + messageNonceLength) : Outcome PacketError _) =
      .ok h.messageNonce.toList := by
  rw [slice_staticHeader P c h (by omega) (by simp [staticHeaderLength, messageNonceLength])]
  simp [PacketHeader.staticHeader, List.drop_append, messageNonceLength,
    P.protocolIdBytes.length_toList, P.protocolVersionBytes.length_toList,
    h.messageNonce.length_toList, List.drop_eq_nil_of_le]

theorem staticHeader_authDataSize :
    (slice (h.staticHeader P c) (staticHeaderLength - 2) (h.staticHeader P c).length :
      Outcome PacketError _) = .ok (toBeBytes 2 (h.kind.encode c).length) := by
  rw [length_staticHeader, slice_staticHeader P c h (by omega) (Nat.le_refl _)]
  simp [PacketHeader.staticHeader, List.drop_append, staticHeaderLength, messageNonceLength,
    P.protocolIdBytes.length_toList, P.protocolVersionBytes.length_toList,
    h.messageNonce.length_toList, List.drop_eq_nil_of_le, List.take_of_length_le]

end StaticHeader

/-! ## The round trip -/

/-- The packets whose encoding `Packet::decode` reads back. -/
structure Packet.WellFormed (p : Packet Enr) : Prop where
  kind : p.header.kind.WellFormed
  authData_le : (p.header.kind.encode c).length ≤ 65535
  whoareyou_message : p.header.kind.isWhoareyou = true → p.message = []

section RoundTrip

variable (aesCtr : List UInt8 → List UInt8 → Nat → UInt8) (dstId : NodeId) (p : Packet Enr)

/-- The encoding with the header mask split where the decoder splits it:
the static header is masked from stream position 0, the auth-data from
position 23. -/
theorem Packet.encode_eq :
    p.encode P c aesCtr dstId =
      toBeBytes 16 p.iv.toNat ++
        xorKeystream (aesCtr (dstId.raw.toList.take 16) (toBeBytes 16 p.iv.toNat)) 0
          (p.header.staticHeader P c) ++
        xorKeystream (aesCtr (dstId.raw.toList.take 16) (toBeBytes 16 p.iv.toNat))
          staticHeaderLength (p.header.kind.encode c) ++
        p.message := by
  simp only [Packet.encode, Packet.encryptHeader, StreamCipher.new, StreamCipher.applyKeystream,
    PacketHeader.encode_eq, xorKeystream_append, length_staticHeader, Nat.zero_add,
    List.append_assoc]

theorem Packet.length_encode :
    (p.encode P c aesCtr dstId).length =
      ivLength + staticHeaderLength + (p.header.kind.encode c).length + p.message.length := by
  rw [Packet.encode_eq]
  simp [length_staticHeader, ivLength, Nat.add_assoc]

/-- **Packet codec round trip.** Decoding the encoding of a well-formed
packet of admissible size gives the packet back, with its own
authenticated data. -/
theorem packet_decode_encode (hc : c.Lawful) (hp : p.WellFormed c)
    (hmin : minPacketSize ≤ (p.encode P c aesCtr dstId).length)
    (hmax : (p.encode P c aesCtr dstId).length ≤ maxPacketSize) :
    Packet.decode P c aesCtr dstId (p.encode P c aesCtr dstId) =
      .ok (p, p.authenticatedData P c) := by
  set ivb := toBeBytes 16 p.iv.toNat with hivb
  set ks := aesCtr (dstId.raw.toList.take 16) ivb with hks
  set S := p.header.staticHeader P c with hS
  set A := p.header.kind.encode c with hA
  set mS := xorKeystream ks 0 S with hmS
  set mA := xorKeystream ks staticHeaderLength A with hmA
  have hdata : p.encode P c aesCtr dstId = ivb ++ mS ++ mA ++ p.message :=
    Packet.encode_eq P c aesCtr dstId p
  rw [hdata] at hmin hmax ⊢
  have hivl : ivb.length = ivLength := length_toBeBytes 16 _
  have hSl : S.length = staticHeaderLength := length_staticHeader P c p.header
  have hmSl : mS.length = staticHeaderLength := by simp [hmS, hSl]
  have hmAl : mA.length = A.length := by simp [hmA]
  -- the four slices of the packet that `decode` takes
  have hiv : (slice (ivb ++ mS ++ mA ++ p.message) 0 ivLength : Outcome PacketError _) = .ok ivb := by
    rw [List.append_assoc, List.append_assoc]
    exact slice_append_front hivl
  have hhead : (slice (ivb ++ mS ++ mA ++ p.message) ivLength (ivLength + staticHeaderLength) :
      Outcome PacketError _) = .ok mS := by
    rw [List.append_assoc (ivb ++ mS)]
    exact slice_append_mid hivl (by rw [hmSl])
  have hrest : (slice (ivb ++ mS ++ mA ++ p.message) (ivLength + staticHeaderLength)
      (ivb ++ mS ++ mA ++ p.message).length : Outcome PacketError _) = .ok (mA ++ p.message) := by
    rw [List.append_assoc (ivb ++ mS)]
    exact slice_append_back (by simp [hivl, hmSl]) rfl
  have hauth : (slice (ivb ++ mS ++ mA ++ p.message) (ivLength + staticHeaderLength)
      (ivLength + staticHeaderLength + A.length) : Outcome PacketError _) = .ok mA :=
    slice_append_mid (by simp [hivl, hmSl]) (by rw [hmAl])
  have hmsg : (slice (ivb ++ mS ++ mA ++ p.message) (ivLength + staticHeaderLength + A.length)
      (ivb ++ mS ++ mA ++ p.message).length : Outcome PacketError _) = .ok p.message :=
    slice_append_back (by simp [hivl, hmSl, hmAl, Nat.add_assoc]) rfl
  -- unmasking
  have hunS : (StreamCipher.new ks).applyKeystream mS = (S, ⟨ks, staticHeaderLength⟩) := by
    simp [StreamCipher.new, StreamCipher.applyKeystream, hmS, hSl]
  have hunA : (StreamCipher.applyKeystream ⟨ks, staticHeaderLength⟩ mA).1 = A := by
    simp [StreamCipher.applyKeystream, hmA]
  -- the auth-data size field
  have hsize : fromBeBytes (toBeBytes 2 A.length) = A.length := by
    have hAle : A.length ≤ 65535 := hp.authData_le
    rw [fromBeBytes_toBeBytes, Nat.mod_eq_of_lt (by omega)]
  have hkind : PacketKind.decode c p.header.kind.toU8 A = .ok p.header.kind :=
    PacketKind.decode_encode c hc p.header.kind hp.kind
  have hwho : ¬ (p.message ≠ [] ∧ p.header.kind.isWhoareyou = true) := by
    rintro ⟨hne, hw⟩
    exact hne (hp.whoareyou_message hw)
  have hivback : BitVec.ofNat 128 (fromBeBytes ivb) = p.iv := by
    rw [hivb, fromBeBytes_toBeBytes, Nat.mod_eq_of_lt (by simpa using p.iv.isLt)]
    simp
  have hlen1 : ¬ (ivb ++ mS ++ mA ++ p.message).length > maxPacketSize := by omega
  have hlen2 : ¬ (ivb ++ mS ++ mA ++ p.message).length < minPacketSize := by omega
  have hremlen : ¬ A.length > (mA ++ p.message).length := by simp [hmAl]
  -- the fields of the unmasked static header
  have hid : (slice S 0 6 : Outcome PacketError _) = .ok P.protocolIdBytes.toList :=
    staticHeader_protocolId P c p.header
  have hver : (slice S 6 8 : Outcome PacketError _) = .ok P.protocolVersionBytes.toList :=
    staticHeader_version P c p.header
  have hflag : (index S 8 : Outcome PacketError _) = .ok p.header.kind.toU8 :=
    staticHeader_flag P c p.header
  have hnonce : (slice S 9 (9 + messageNonceLength) : Outcome PacketError _) =
      .ok p.header.messageNonce.toList :=
    staticHeader_messageNonce P c p.header
  have hsz : (slice S (staticHeaderLength - 2) staticHeaderLength : Outcome PacketError _) =
      .ok (toBeBytes 2 A.length) := by
    have h := staticHeader_authDataSize P c p.header
    rwa [length_staticHeader] at h
  simp only [Packet.decode, hlen1, hlen2, hiv, Outcome.ok_bind, if_false, ← hks]
  simp only [hhead, hunS, hSl, hid, hver, hflag, hnonce, hsz, tryInto_of_length (length_toBeBytes 2 _),
    hsize, hrest, hremlen, hauth, hunA, hkind, hmsg, hwho, Outcome.ok_bind, if_false, ne_eq,
    not_true_eq_false]
  rw [tryInto_of_length (show ivb.length = 16 from hivl)]
  simp only [Outcome.ok_bind, Outcome.pure_eq, hivback]
  simp [Packet.authenticatedData, PacketHeader.encode_eq, hS, hA, hivb]

end RoundTrip

/-- A one-byte record codec (the RLP empty list), enough to exercise the
optional record of a handshake. -/
def unitRecordCodec : EnrCodec Unit where
  encode _ := [0xc0]
  decode
    | 0xc0 :: rest => .ok ((), rest)
    | _ => .error .inputTooShort
  parseNodeId := NodeId.parse32

theorem unitRecordCodec_lawful : unitRecordCodec.Lawful where
  decode_encode _ _ := rfl
  encode_ne_nil _ := by simp [unitRecordCodec]
  parseNodeId_raw := NodeId.parse32_raw

/-- A handshake packet with a record update, sent to node `0x01..01`. -/
def handshakeExample : Packet Unit where
  iv := 0x0102030405060708090a0b0c0d0e0f10#128
  header := ⟨⟨List.replicate 12 7, rfl⟩,
    .handshake ⟨⟨List.replicate 32 2, rfl⟩⟩ (List.replicate 64 3) (List.replicate 33 4) (some ())⟩
  message := [5, 6, 7]

theorem packet_decode_encode_handshake :
    unitRecordCodec.Lawful ∧ handshakeExample.WellFormed unitRecordCodec ∧
      minPacketSize ≤ (handshakeExample.encode defaultProtocolId unitRecordCodec
        (fun key iv i => key.getD (i % 16) 0 ^^^ iv.getD (i % 16) 0 ^^^ UInt8.ofNat i)
        ⟨⟨List.replicate 32 1, rfl⟩⟩).length ∧
      (handshakeExample.encode defaultProtocolId unitRecordCodec
        (fun key iv i => key.getD (i % 16) 0 ^^^ iv.getD (i % 16) 0 ^^^ UInt8.ofNat i)
        ⟨⟨List.replicate 32 1, rfl⟩⟩).length ≤ maxPacketSize ∧
      Packet.decode defaultProtocolId unitRecordCodec
        (fun key iv i => key.getD (i % 16) 0 ^^^ iv.getD (i % 16) 0 ^^^ UInt8.ofNat i)
        ⟨⟨List.replicate 32 1, rfl⟩⟩
        (handshakeExample.encode defaultProtocolId unitRecordCodec
          (fun key iv i => key.getD (i % 16) 0 ^^^ iv.getD (i % 16) 0 ^^^ UInt8.ofNat i)
          ⟨⟨List.replicate 32 1, rfl⟩⟩) =
        .ok (handshakeExample, handshakeExample.authenticatedData defaultProtocolId unitRecordCodec) :=
  have hwf : handshakeExample.WellFormed unitRecordCodec :=
    ⟨by simp [handshakeExample, PacketKind.WellFormed],
      by simp [handshakeExample, PacketKind.encode, unitRecordCodec],
      by simp [handshakeExample, PacketKind.isWhoareyou]⟩
  have hmin : minPacketSize ≤ (handshakeExample.encode defaultProtocolId unitRecordCodec
      (fun key iv i => key.getD (i % 16) 0 ^^^ iv.getD (i % 16) 0 ^^^ UInt8.ofNat i)
      ⟨⟨List.replicate 32 1, rfl⟩⟩).length := by
    rw [Packet.length_encode]
    simp [handshakeExample, PacketKind.encode, unitRecordCodec, minPacketSize, ivLength,
      staticHeaderLength]
  have hmax : (handshakeExample.encode defaultProtocolId unitRecordCodec
      (fun key iv i => key.getD (i % 16) 0 ^^^ iv.getD (i % 16) 0 ^^^ UInt8.ofNat i)
      ⟨⟨List.replicate 32 1, rfl⟩⟩).length ≤ maxPacketSize := by
    rw [Packet.length_encode]
    simp [handshakeExample, PacketKind.encode, unitRecordCodec, maxPacketSize, ivLength,
      staticHeaderLength]
  ⟨unitRecordCodec_lawful, hwf, hmin, hmax,
    packet_decode_encode defaultProtocolId unitRecordCodec _ _ handshakeExample
      unitRecordCodec_lawful hwf hmin hmax⟩

end Discv5
