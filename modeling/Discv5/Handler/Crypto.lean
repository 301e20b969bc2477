import Discv5.Lib.Primitives
import Discv5.NodeInfo
import Discv5.Packet.Basic

/-!
# Session keys, nonce signatures and message encryption

`src/handler/crypto/mod.rs`. Session keys come from an ECDH secret between
an ephemeral key of the initiator and the static key of the recipient,
expanded by HKDF-SHA256 with the WHOAREYOU challenge data as salt and the
two node ids, initiator first, in the info. The initiator proves its
identity by signing the challenge data, its ephemeral key and the
recipient's id. Messages are sealed with AES-128-GCM.

`k256`, `hkdf` and `aes-gcm` are the model's parameter `Suite`, and what
the handshake relies on of them is `Suite.Lawful`. The ephemeral secret key
is an argument of the functions here; the handler draws it through
`randomSigningKey`.
-/

namespace Discv5

open Rust

/-- `Challenge`: a WHOAREYOU we sent, with the challenge data and the
remote's record, if we know it. -/
structure Challenge (Enr : Type) where
  data : ChallengeData
  remoteEnr : Option Enr

/-- The variants of `crate::Error` that sessions and key derivation return. -/
inductive Error (Enr : Type) where
  | keyTypeNotSupported (keyType : String)
  | keyDerivationFailed
  | invalidRemotePublicKey
  | invalidChallengeSignature (challenge : Challenge Enr)
  | sessionNotEstablished
  | decryptionFailed (reason : String)
  | custom (reason : String)
  | error (reason : String)

namespace Crypto

open Primitives

/-- `Key`: an AES-128 key. -/
abbrev Key := Arr UInt8 16

/-- What the crypto module uses of `k256` (ECDH over secp256k1, ECDSA over
a SHA-256 digest, SEC1 encoding of public keys, `SigningKey::random`),
of `hkdf` (HKDF-SHA256 of salt, secret and info, 32 bytes out) and of
`aes-gcm` (AES-128-GCM). -/
structure Suite (Sk Pk : Type) where
  ecdh : KeyAgreement Sk Pk (List UInt8)
  ecdsa : SignatureScheme Sk Pk
  sec1 : KeyEncoding Pk
  hkdf : List UInt8 → List UInt8 → List UInt8 → Option (Arr UInt8 32)
  aesGcm : Aead Key MessageNonce
  /-- `SigningKey::random`, from the 32 random bytes it draws. -/
  randomSigningKey : List UInt8 → Sk

/-- The functional facts of the suite a handshake relies on. -/
structure Suite.Lawful {Sk Pk : Type} (s : Suite Sk Pk) : Prop where
  ecdh_commutes : s.ecdh.Commutes
  ecdsa_publicKey : s.ecdsa.publicKey = s.ecdh.publicKey
  ecdsa_correct : s.ecdsa.Correct
  sec1_lawful : s.sec1.Lawful
  aesGcm_correct : s.aesGcm.Correct 16

/-- `KEY_AGREEMENT_STRING.as_bytes()`. -/
def keyAgreementString : List UInt8 := "discovery v5 key agreement".toList.map Char.toUInt8

/-- `ID_SIGNATURE_TEXT.as_bytes()`. -/
def idSignatureText : List UInt8 := "discovery v5 identity proof".toList.map Char.toUInt8

variable {Enr Sk Pk : Type} (s : Suite Sk Pk)

/-- The two halves of the HKDF output: initiator key, then recipient key. -/
def splitOkm (okm : Arr UInt8 32) : Key × Key :=
  (⟨okm.toList.take 16, by simp [okm.length_toList]⟩,
    ⟨(okm.toList.drop 16).take 16, by simp [okm.length_toList]⟩)

/-- `derive_key`: HKDF over the secret, with the challenge data as salt and
the info `KEY_AGREEMENT_STRING || first_id || second_id`. -/
def deriveKey (secret : List UInt8) (firstId secondId : NodeId) (challengeData : ChallengeData) :
    Except (Error Enr) (Key × Key) :=
  let info := keyAgreementString ++ firstId.raw.toList ++ secondId.raw.toList
  match s.hkdf challengeData.toList secret info with
  | some okm => .ok (splitOkm okm)
  | none => .error .keyDerivationFailed

/-- `generate_session_keys`: the initiator's side, with the ephemeral secret
key drawn by `SigningKey::random`. Returns the initiator key, the recipient
key and the encoded ephemeral public key. -/
def generateSessionKeys (api : EnrApi Enr Pk) (localId : NodeId) (contact : NodeContact Enr Pk)
    (challengeData : ChallengeData) (ephemSk : Sk) :
    Except (Error Enr) (Key × Key × List UInt8) := do
  let (secret, ephemPk) ← match contact.publicKey with
    | .secp256k1 remotePk =>
      pure (s.ecdh.agree remotePk ephemSk, s.sec1.encode (s.ecdh.publicKey ephemSk))
    | .ed25519 => throw (.keyTypeNotSupported "Ed25519")
  let (initiatorKey, recipientKey) ← deriveKey s secret localId (contact.nodeId api) challengeData
  pure (initiatorKey, recipientKey, ephemPk)

/-- `derive_keys_from_pubkey`: the recipient's side, from its own key and
the initiator's encoded ephemeral key. The ids are in the initiator's
order, remote first. -/
def deriveKeysFromPubkey (localKey : CombinedKey Sk) (localId remoteId : NodeId)
    (challengeData : ChallengeData) (ephemPubkey : List UInt8) :
    Except (Error Enr) (Key × Key) := do
  let secret ← match localKey with
    | .secp256k1 key =>
      match s.sec1.decode ephemPubkey with
      | some remotePubkey => pure (s.ecdh.agree remotePubkey key)
      | none => throw .invalidRemotePublicKey
    | .ed25519 => throw (.keyTypeNotSupported "Ed25519")
  deriveKey s secret remoteId localId challengeData

/-- `generate_signing_nonce`: the signed message of the identity proof. -/
def generateSigningNonce (challengeData : ChallengeData) (ephemPubkey : List UInt8)
    (dstId : NodeId) : List UInt8 :=
  idSignatureText ++ challengeData.toList ++ ephemPubkey ++ dstId.raw.toList

/-- `sign_nonce`. -/
def signNonce (signingKey : CombinedKey Sk) (challengeData : ChallengeData)
    (ephemPubkey : List UInt8) (dstId : NodeId) : Except (Error Enr) (List UInt8) :=
  let signingMessage := generateSigningNonce challengeData ephemPubkey dstId
  match signingKey with
  | .secp256k1 key =>
    match s.ecdsa.sign key signingMessage with
    | some signature => .ok signature
    | none => .error (.error "Failed to sign message: signature error")
  | .ed25519 => .error (.keyTypeNotSupported "Ed25519")

/-- `verify_authentication_nonce`. -/
def verifyAuthenticationNonce (remotePubkey : CombinedPublicKey Pk)
    (remoteEphemPubkey : List UInt8) (challengeData : ChallengeData) (dstId : NodeId)
    (sig : List UInt8) : Bool :=
  let signingNonce := generateSigningNonce challengeData remoteEphemPubkey dstId
  match remotePubkey with
  | .secp256k1 key => s.ecdsa.verify key signingNonce sig
  | .ed25519 => false

/-- `decrypt_message`: a ciphertext shorter than its tag is refused before
the cipher runs. -/
def decryptMessage (key : Key) (messageNonce : MessageNonce) (msg aad : List UInt8) :
    Except (Error Enr) (List UInt8) :=
  if msg.length < 16 then .error (.decryptionFailed "Message not long enough to contain a MAC")
  else
    match s.aesGcm.decrypt key messageNonce msg aad with
    | some plaintext => .ok plaintext
    | none => .error (.decryptionFailed "aead::Error")

/-- `encrypt_message`. The source reports a failure as `DecryptionFailed`. -/
def encryptMessage (key : Key) (messageNonce : MessageNonce) (msg aad : List UInt8) :
    Except (Error Enr) (List UInt8) :=
  match s.aesGcm.encrypt key messageNonce msg aad with
  | some ciphertext => .ok ciphertext
  | none => .error (.decryptionFailed "aead::Error")

/-! ## What a lawful suite gives -/

variable {s}

/-- `derive_key` succeeds exactly when HKDF does, with its output split in two. -/
theorem deriveKey_eq_ok {secret : List UInt8} {firstId secondId : NodeId}
    {challengeData : ChallengeData} {keys : Key × Key} :
    (deriveKey s secret firstId secondId challengeData : Except (Error Enr) _) = .ok keys ↔
      ∃ okm, s.hkdf challengeData.toList secret
          (keyAgreementString ++ firstId.raw.toList ++ secondId.raw.toList) = some okm ∧
        splitOkm okm = keys := by
  simp only [deriveKey]
  split
  · next okm hk =>
    constructor
    · intro h
      exact ⟨okm, hk, Except.ok.inj h⟩
    · rintro ⟨okm', hk', rfl⟩
      rw [hk] at hk'
      cases hk'
      rfl
  · next hk =>
    constructor
    · intro h
      cases h
    · rintro ⟨okm', hk', -⟩
      rw [hk] at hk'
      cases hk'

/-- The initiator's keys, as the HKDF output split in two. -/
theorem generateSessionKeys_eq_ok {api : EnrApi Enr Pk} {localId : NodeId}
    {contact : NodeContact Enr Pk} {challengeData : ChallengeData} {ephemSk : Sk}
    {initiatorKey recipientKey : Key} {ephemPk : List UInt8}
    (h : generateSessionKeys s api localId contact challengeData ephemSk =
      .ok (initiatorKey, recipientKey, ephemPk)) :
    ∃ remotePk okm, contact.publicKey = .secp256k1 remotePk ∧
      ephemPk = s.sec1.encode (s.ecdh.publicKey ephemSk) ∧
      s.hkdf challengeData.toList (s.ecdh.agree remotePk ephemSk)
        (keyAgreementString ++ localId.raw.toList ++ (contact.nodeId api).raw.toList) = some okm ∧
      splitOkm okm = (initiatorKey, recipientKey) := by
  unfold generateSessionKeys at h
  cases hpk : contact.publicKey with
  | ed25519 => simp [hpk] at h; cases h
  | secp256k1 remotePk =>
    cases hd : (deriveKey s (s.ecdh.agree remotePk ephemSk) localId (contact.nodeId api)
        challengeData : Except (Error Enr) _) with
    | error e => simp [hpk, hd] at h
    | ok keys =>
      simp [hpk, hd] at h
      obtain ⟨rfl, rfl, rfl⟩ := h
      obtain ⟨okm, hk, hsplit⟩ := deriveKey_eq_ok.mp hd
      exact ⟨remotePk, okm, rfl, rfl, hk, hsplit⟩

/-- Key agreement: the recipient, holding the secret key of the contact the
initiator used and the initiator's id, derives the initiator's keys from
the encoded ephemeral key. -/
theorem deriveKeysFromPubkey_of_generateSessionKeys (hs : s.Lawful) {api : EnrApi Enr Pk}
    {localId : NodeId} {contact : NodeContact Enr Pk} {challengeData : ChallengeData}
    {ephemSk remoteSk : Sk} {initiatorKey recipientKey : Key} {ephemPk : List UInt8}
    (hgen : generateSessionKeys s api localId contact challengeData ephemSk =
      .ok (initiatorKey, recipientKey, ephemPk))
    (hcontact : contact.publicKey = .secp256k1 (s.ecdh.publicKey remoteSk)) :
    (deriveKeysFromPubkey s (.secp256k1 remoteSk) (contact.nodeId api) localId challengeData
      ephemPk : Except (Error Enr) _) = .ok (initiatorKey, recipientKey) := by
  obtain ⟨remotePk, okm, hpk, rfl, hk, hsplit⟩ := generateSessionKeys_eq_ok hgen
  have hremote : remotePk = s.ecdh.publicKey remoteSk := by
    rw [hcontact] at hpk
    exact (CombinedPublicKey.secp256k1.inj hpk).symm
  -- both sides agree on one ECDH secret
  have hsecret : s.ecdh.agree (s.ecdh.publicKey ephemSk) remoteSk =
      s.ecdh.agree remotePk ephemSk := by
    rw [hremote, hs.ecdh_commutes]
  simp only [deriveKeysFromPubkey, hs.sec1_lawful _, hsecret]
  exact deriveKey_eq_ok.mpr ⟨okm, hk, hsplit⟩

/-- The identity proof: a signature `sign_nonce` makes with a key verifies
under its public key, for the same challenge data, ephemeral key and
destination. -/
theorem verifyAuthenticationNonce_of_signNonce (hs : s.Lawful) {sk : Sk}
    {challengeData : ChallengeData} {ephemPubkey : List UInt8} {dstId : NodeId}
    {sig : List UInt8}
    (h : (signNonce s (.secp256k1 sk) challengeData ephemPubkey dstId : Except (Error Enr) _) =
      .ok sig) :
    verifyAuthenticationNonce s (.secp256k1 (s.ecdh.publicKey sk)) ephemPubkey challengeData
      dstId sig = true := by
  unfold signNonce at h
  cases hsign : s.ecdsa.sign sk (generateSigningNonce challengeData ephemPubkey dstId) with
  | none => simp [hsign] at h
  | some sig' =>
    simp only [hsign, Except.ok.injEq] at h
    subst h
    have hverify := hs.ecdsa_correct _ _ _ hsign
    rw [hs.ecdsa_publicKey] at hverify
    exact hverify

/-- What `encrypt_message` seals under a key, `decrypt_message` opens under
the same key, nonce and associated data. -/
theorem decryptMessage_of_encryptMessage (hs : s.Lawful) {key : Key}
    {messageNonce : MessageNonce} {msg aad c : List UInt8}
    (h : (encryptMessage s key messageNonce msg aad : Except (Error Enr) _) = .ok c) :
    (decryptMessage s key messageNonce c aad : Except (Error Enr) _) = .ok msg := by
  unfold encryptMessage at h
  cases henc : s.aesGcm.encrypt key messageNonce msg aad with
  | none => simp [henc] at h
  | some c' =>
    simp only [henc, Except.ok.injEq] at h
    subst h
    have hlen := hs.aesGcm_correct.length_encrypt _ _ _ _ _ henc
    have hdec := hs.aesGcm_correct.decrypt_encrypt _ _ _ _ _ henc
    simp [decryptMessage, hdec, hlen]

end Crypto

end Discv5
