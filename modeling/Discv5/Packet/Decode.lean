import Discv5.Packet.RoundTrip

/-!
# Packet — decoding arbitrary bytes

`Packet::decode` runs on every datagram the socket receives, so each of its
slices, indices and `expect`s must hold for bytes of any length and any
content. They do (`packet_decode_panic_free`): the two size checks at the
top cover the 39 bytes of IV and static header, the auth-data size read
from the unmasked header is checked against the bytes that follow it, and
each kind checks the length of its auth-data before slicing it, the
handshake twice, around its two length bytes.

What a successful decode returns as authenticated data is the first
`16 + 23 + s` bytes of the packet with the header unmasked, where `s` is
the auth-data size of the static header; the kind bounds `s`
(`PacketKind.AuthDataSize`), so for a WHOAREYOU packet the authenticated
data is the 63 bytes of a `ChallengeData`, which
`Handler::process_inbound_packet` builds with an `expect`.
-/

namespace Discv5

open Rust Bytes

variable {Enr : Type} (c : EnrCodec Enr)

/-- The auth-data sizes a decoded kind comes from: 32 bytes for a message,
24 for a WHOAREYOU, at least 34 for a handshake. -/
def PacketKind.AuthDataSize : PacketKind Enr → Nat → Prop
  | .message _, s => s = 32
  | .whoAreYou .., s => s = 24
  | .handshake .., s => 34 ≤ s

/-! ## Auth-data -/

/-- The handshake branch slices only what its two length checks cover. -/
theorem decodeHandshake_ne_panic (authData : List UInt8) : decodeHandshake c authData ≠ .panic := by
  unfold decodeHandshake
  by_cases h34 : authData.length < 34
  · simp [h34]
  simp only [h34, if_false]
  -- the src id and the two length bytes lie within the first 34 bytes
  refine Outcome.bind_ne_panic (Outcome.bind_ne_panic (slice_ne_panic_iff.2 ⟨by omega, by omega⟩)
    fun _ _ => Outcome.ofExcept_ne_panic _ _) fun srcId _ => ?_
  rw [index_of_lt (by omega : 32 < authData.length), Outcome.ok_bind,
    index_of_lt (by omega : 32 + 1 < authData.length), Outcome.ok_bind]
  split_ifs with htotal
  · simp
  · -- the signature, the key and the record lie within the bytes after the lengths
    have hrem : (slice authData (32 + 2) authData.length : Outcome PacketError (List UInt8)) =
        .ok (authData.drop 34) := by
      rw [slice_of_le (by omega) (Nat.le_refl _)]
      exact congrArg Outcome.ok (List.take_of_length_le (by simp))
    rw [hrem, Outcome.ok_bind, slice_of_le (by omega) (by rw [List.length_drop]; omega),
      Outcome.ok_bind, slice_of_le (by omega) (by rw [List.length_drop]; omega), Outcome.ok_bind]
    split_ifs
    · rw [slice_of_le (by omega) (Nat.le_refl _), Outcome.ok_bind]
      exact Outcome.bind_ne_panic (Outcome.ofExcept_ne_panic _ _) fun _ _ => by simp
    · simp

/-- A decoded handshake had at least 34 bytes of auth-data. -/
theorem decodeHandshake_eq_ok {authData : List UInt8} {k : PacketKind Enr}
    (h : decodeHandshake c authData = .ok k) : k.AuthDataSize authData.length := by
  unfold decodeHandshake at h
  by_cases h34 : authData.length < 34
  · simp [h34] at h
  simp only [h34, if_false] at h
  obtain ⟨srcId, -, h⟩ := Outcome.bind_eq_ok.1 h
  obtain ⟨sigSize, -, h⟩ := Outcome.bind_eq_ok.1 h
  obtain ⟨keySize, -, h⟩ := Outcome.bind_eq_ok.1 h
  split_ifs at h
  · simp at h
  obtain ⟨remainingData, -, h⟩ := Outcome.bind_eq_ok.1 h
  obtain ⟨idNonceSig, -, h⟩ := Outcome.bind_eq_ok.1 h
  obtain ⟨ephemPubkey, -, h⟩ := Outcome.bind_eq_ok.1 h
  -- with or without a record, the result is a handshake
  split_ifs at h
  · obtain ⟨recordBytes, -, h⟩ := Outcome.bind_eq_ok.1 h
    obtain ⟨enr, -, h⟩ := Outcome.bind_eq_ok.1 h
    cases h
    show 34 ≤ authData.length
    omega
  · cases h
    show 34 ≤ authData.length
    omega

/-- Each kind checks the length of its auth-data before slicing it. -/
theorem PacketKind.decode_ne_panic (kind : UInt8) (authData : List UInt8) :
    PacketKind.decode c kind authData ≠ .panic := by
  unfold PacketKind.decode
  split
  · split_ifs
    · simp
    · exact Outcome.bind_ne_panic (Outcome.ofExcept_ne_panic _ _) fun _ _ => by simp
  · split_ifs with h24
    · simp
    · have h24 : authData.length = 24 := not_not.1 h24
      rw [slice_of_le (by decide) (by simp [idNonceLength]; omega), Outcome.ok_bind,
        tryInto_of_length (by simp [idNonceLength]; omega), Outcome.ok_bind,
        slice_of_le (by simp [idNonceLength]; omega) (Nat.le_refl _), Outcome.ok_bind,
        tryInto_of_length (by simp [idNonceLength]; omega)]
      simp
  · exact decodeHandshake_ne_panic c authData
  · simp

/-- A decoded kind came from auth-data of a size it admits. -/
theorem PacketKind.decode_eq_ok {kind : UInt8} {authData : List UInt8} {k : PacketKind Enr}
    (h : PacketKind.decode c kind authData = .ok k) : k.AuthDataSize authData.length := by
  unfold PacketKind.decode at h
  split at h
  · split_ifs at h with h32
    · simp at h
    obtain ⟨srcId, -, h⟩ := Outcome.bind_eq_ok.1 h
    cases h
    exact not_not.1 h32
  · split_ifs at h with h24
    · simp at h
    obtain ⟨idNonce, -, h⟩ := Outcome.bind_eq_ok.1 h
    obtain ⟨enrSeq, -, h⟩ := Outcome.bind_eq_ok.1 h
    cases h
    exact not_not.1 h24
  · exact decodeHandshake_eq_ok c h
  · simp at h

/-! ## The packet -/

variable (P : ProtocolIdentity) (aesCtr : List UInt8 → List UInt8 → Nat → UInt8)

/-- The `23 + s` bytes after the IV, unmasked with the keystream of the
local id and the IV: the header of a packet with `s` bytes of auth-data. -/
def unmaskedHeader (srcId : NodeId) (data : List UInt8) (s : Nat) : List UInt8 :=
  ((StreamCipher.new (aesCtr (srcId.raw.toList.take 16) (data.take ivLength))).applyKeystream
    ((data.drop ivLength).take (staticHeaderLength + s))).1

/-- What `Packet::decode` can return: an error, or, for the auth-data size
`s` of the unmasked static header, the packet whose kind the `s` bytes of
auth-data decode to, with the IV and the unmasked header as authenticated
data. -/
theorem Packet.decode_cases (srcId : NodeId) (data : List UInt8) :
    (∃ e, Packet.decode P c aesCtr srcId data = .err e) ∨
      ∃ s flag p, ivLength + staticHeaderLength + s ≤ data.length ∧
        fromBeBytes (((unmaskedHeader aesCtr srcId data s).drop (staticHeaderLength - 2)).take 2) = s ∧
        PacketKind.decode c flag ((unmaskedHeader aesCtr srcId data s).drop staticHeaderLength) =
          .ok p.header.kind ∧
        Packet.decode P c aesCtr srcId data = .ok (p, data.take ivLength ++ unmaskedHeader aesCtr srcId data s) := by
  unfold Packet.decode
  by_cases hmax : data.length > maxPacketSize
  · simp [hmax]
  by_cases hmin : data.length < minPacketSize
  · simp [hmin, hmax]
  have hlen : 55 ≤ data.length := by simp [minPacketSize, ivLength, staticHeaderLength] at hmin; omega
  -- the IV and the static header lie within the first 39 bytes
  have hiv : (slice data 0 ivLength : Outcome PacketError _) = .ok (data.take 16) := by
    rw [slice_of_le (by decide) (by simp [ivLength]; omega)]
    rfl
  have hhdr : (slice data ivLength (ivLength + staticHeaderLength) : Outcome PacketError _) =
      .ok ((data.drop 16).take 23) := by
    rw [slice_of_le (by decide) (by simp [ivLength, staticHeaderLength]; omega)]
    rfl
  set ks := aesCtr (srcId.raw.toList.take 16) (data.take 16) with hks
  set S := xorKeystream ks 0 ((data.drop 16).take 23) with hS
  have hunmask : (StreamCipher.new ks).applyKeystream ((data.drop 16).take 23) = (S, ⟨ks, 23⟩) := by
    simp [StreamCipher.new, StreamCipher.applyKeystream, hS]
    omega
  have hSl : S.length = staticHeaderLength := by
    simp [hS, staticHeaderLength]
    omega
  -- every field of the static header lies within its 23 bytes
  have hid : (slice S 0 6 : Outcome PacketError _) = .ok (S.take 6) := by
    rw [slice_of_le (by decide) (by rw [hSl]; decide)]
    rfl
  have hver : (slice S 6 8 : Outcome PacketError _) = .ok ((S.drop 6).take 2) := by
    rw [slice_of_le (by decide) (by rw [hSl]; decide)]
  have hverl : ((S.drop 6).take 2).length = 2 := by simp [hSl, staticHeaderLength]
  have h8 : 8 < S.length := by rw [hSl]; decide
  have hflag : (index S 8 : Outcome PacketError _) = .ok S[8] :=
    index_of_lt _
  have hnonce : (slice S 9 (9 + messageNonceLength) : Outcome PacketError _) = .ok ((S.drop 9).take 12) := by
    rw [slice_of_le (by decide) (by rw [hSl]; decide)]
    rfl
  have hnoncel : ((S.drop 9).take 12).length = messageNonceLength := by
    simp [hSl, staticHeaderLength, messageNonceLength]
  have hsize : (slice S (staticHeaderLength - 2) staticHeaderLength : Outcome PacketError _) =
      .ok ((S.drop 21).take 2) := by
    rw [slice_of_le (by decide) (Nat.le_of_eq hSl.symm)]
    rfl
  have hsizel : ((S.drop 21).take 2).length = 2 := by simp [hSl, staticHeaderLength]
  have hrest : (slice data (ivLength + staticHeaderLength) data.length : Outcome PacketError _) =
      .ok (data.drop 39) := by
    rw [slice_of_le (by simp [ivLength, staticHeaderLength]; omega) (Nat.le_refl _)]
    exact congrArg Outcome.ok (List.take_of_length_le (by simp [ivLength, staticHeaderLength]))
  simp only [hmax, hmin, if_false, hiv, hhdr, Outcome.ok_bind, ← hks, hunmask, hSl, ne_eq,
    not_true_eq_false, hid, hver, tryInto_of_length hverl, hflag, hnonce, tryInto_of_length hnoncel, hsize,
    tryInto_of_length hsizel, hrest, Outcome.throw_eq, Outcome.err_bind]
  -- the protocol id, the version and the auth-data size are checked in turn
  by_cases hpid : S.take 6 = P.protocolIdBytes.toList
  swap
  · exact .inl ⟨_, by rw [if_pos hpid]⟩
  rw [if_neg (not_not.2 hpid)]
  by_cases hversion : (S.drop 6).take 2 = P.protocolVersionBytes.toList
  swap
  · exact .inl ⟨_, by rw [if_pos hversion]⟩
  rw [if_neg (not_not.2 hversion)]
  by_cases hs : fromBeBytes ((S.drop 21).take 2) > (data.drop 39).length
  · exact .inl ⟨_, by rw [if_pos hs]⟩
  rw [if_neg hs]
  set s := fromBeBytes ((S.drop 21).take 2) with hsdef
  have hsl : 39 + s ≤ data.length := by simp at hs; omega
  -- the auth-data and the message lie after the static header
  have hauth : (slice data (ivLength + staticHeaderLength) (ivLength + staticHeaderLength + s) :
      Outcome PacketError _) = .ok ((data.drop 39).take s) := by
    rw [slice_of_le (by omega) (by simp [ivLength, staticHeaderLength]; omega)]
    simp [ivLength, staticHeaderLength]
  have hmsg : (slice data (ivLength + staticHeaderLength + s) data.length : Outcome PacketError _) =
      .ok (data.drop (39 + s)) := by
    rw [slice_of_le (by simp [ivLength, staticHeaderLength]; omega) (Nat.le_refl _)]
    exact congrArg Outcome.ok (List.take_of_length_le (by simp [ivLength, staticHeaderLength]))
  set A := (StreamCipher.applyKeystream ⟨ks, 23⟩ ((data.drop 39).take s)).1 with hA
  -- the header unmasked in one pass is the static header followed by the auth-data
  have hheader : unmaskedHeader aesCtr srcId data s = S ++ A := by
    have htake : (data.drop 16).take (23 + s) = (data.drop 16).take 23 ++ (data.drop 39).take s := by
      rw [List.take_add, List.drop_drop]
    rw [unmaskedHeader, ivLength, staticHeaderLength, htake, ← StreamCipher.applyKeystream_append, ← hks,
      hunmask]
  have hAl : A.length = s := by
    simp [hA, StreamCipher.applyKeystream]
    omega
  have hfield : fromBeBytes (((unmaskedHeader aesCtr srcId data s).drop (staticHeaderLength - 2)).take 2) = s := by
    rw [hheader, List.drop_append_of_le_length (by rw [hSl]; decide), List.take_append_of_le_length
      (by simp [hSl, staticHeaderLength])]
    rfl
  have hauthData : (unmaskedHeader aesCtr srcId data s).drop staticHeaderLength = A := by
    rw [hheader, ← hSl, List.drop_left]
  rw [hauth, Outcome.ok_bind, ← hA, hmsg]
  cases hk : PacketKind.decode c S[8] A with
  | ok kind =>
    simp only [Outcome.ok_bind]
    split_ifs
    · exact .inl ⟨_, rfl⟩
    · rw [tryInto_of_length (by simp; omega), Outcome.ok_bind, Outcome.pure_eq]
      refine .inr ⟨s, S[8],
        ⟨BitVec.ofNat 128 (fromBeBytes (data.take 16)), ⟨⟨(S.drop 9).take 12, hnoncel⟩, kind⟩, data.drop (39 + s)⟩,
        by simp [ivLength, staticHeaderLength]; omega, hfield, by rw [hauthData]; exact hk, ?_⟩
      rw [hheader, List.append_assoc]
      rfl
  | err e => exact .inl ⟨e, rfl⟩
  | panic => exact absurd hk (PacketKind.decode_ne_panic c _ _)

/-- The unmasked header is as long as the bytes it unmasks. -/
theorem length_unmaskedHeader (srcId : NodeId) {data : List UInt8} {s : Nat}
    (h : ivLength + staticHeaderLength + s ≤ data.length) :
    (unmaskedHeader aesCtr srcId data s).length = staticHeaderLength + s := by
  simp [unmaskedHeader, StreamCipher.applyKeystream]
  omega

/-- `Packet::decode` never panics, on bytes of any length. When it returns
a packet, its authenticated data is the IV followed by the unmasked
header: `16 + 23 + s` bytes, `s` the auth-data size field of that header,
which the kind bounds; for a WHOAREYOU packet the 63 bytes of a
`ChallengeData`. -/
theorem packet_decode_panic_free (srcId : NodeId) (data : List UInt8) :
    Packet.decode P c aesCtr srcId data ≠ .panic ∧
      ∀ p ad, Packet.decode P c aesCtr srcId data = .ok (p, ad) →
        ∃ s, ad = data.take ivLength ++ unmaskedHeader aesCtr srcId data s ∧
          ad.length = ivLength + staticHeaderLength + s ∧
          fromBeBytes ((ad.drop (ivLength + staticHeaderLength - 2)).take 2) = s ∧
          p.header.kind.AuthDataSize s ∧
          (p.header.kind.isWhoareyou = true → ∃ challengeData : ChallengeData, challengeData.toList = ad) := by
  rcases Packet.decode_cases c P aesCtr srcId data with ⟨e, he⟩ | ⟨s, flag, p', hsl, hfield, hk, he⟩
  · rw [he]
    exact ⟨by simp, fun p ad h => by cases h⟩
  rw [he]
  refine ⟨by simp, fun p ad h => ?_⟩
  obtain ⟨rfl, rfl⟩ : p' = p ∧ data.take ivLength ++ unmaskedHeader aesCtr srcId data s = ad := by
    simpa using h
  have hhl := length_unmaskedHeader aesCtr srcId hsl
  have hivl : (data.take ivLength).length = ivLength := by simp [ivLength, staticHeaderLength] at hsl ⊢; omega
  have hadl : (data.take ivLength ++ unmaskedHeader aesCtr srcId data s).length =
      ivLength + staticHeaderLength + s := by
    rw [List.length_append, hivl, hhl, Nat.add_assoc]
  -- the kind decoded the `s` bytes after the static header
  have hsize : p'.header.kind.AuthDataSize s := by
    have hkind := PacketKind.decode_eq_ok c hk
    rwa [List.length_drop, hhl, Nat.add_sub_cancel_left] at hkind
  refine ⟨s, rfl, hadl, ?_, hsize, fun hw => ?_⟩
  · rw [show ivLength + staticHeaderLength - 2 = (data.take ivLength).length + (staticHeaderLength - 2) by
      rw [hivl]; rfl, List.drop_length_add_append]
    exact hfield
  · have h24 : s = 24 := by
      cases hkind : p'.header.kind <;> simp_all [PacketKind.isWhoareyou, PacketKind.AuthDataSize]
    exact ⟨⟨_, by rw [hadl, h24]; rfl⟩, rfl⟩

end Discv5
