import Discv5.Handler.Crypto
import Discv5.Rpc.Message

/-!
# Sessions

`src/handler/session.rs`. A session holds the keys of one peer: the
current pair, and the pair it replaced while a second handshake settles
which one both sides use. `encrypt_with_header` is the initiator's half of
a handshake and `establish_from_challenge` the recipient's.

The values `rand::random()` returns (nonces, IVs, the ephemeral key) are
arguments, in the order the source draws them. A method that takes
`&mut self` and may fail returns its result together with the session,
since its writes stay when it fails (`encrypt_message` counts a message it
then fails to encrypt).
-/

namespace Discv5

open Rust Bytes Crypto

/-- `Keys`: the encryption and the decryption key of a session. -/
structure Keys where
  encryptionKey : Key
  decryptionKey : Key
  deriving DecidableEq

/-- `Session`. -/
structure Session where
  keys : Keys
  oldKeys : Option Keys
  /-- The request id of the ENR request of a session established with a
  node whose record we did not know. -/
  awaitingEnr : Option RequestId
  /-- Number of messages sent; the first four bytes of each message nonce. -/
  counter : UInt32

namespace Session

variable {Enr Sk Pk : Type} (s : Suite Sk Pk)

/-- `Session::new`. -/
def new (keys : Keys) : Session := ⟨keys, none, none, 0⟩

/-- `Session::update`: the new keys become current, the current ones old. -/
def update (session newSession : Session) : Session :=
  { session with oldKeys := some session.keys, keys := newSession.keys,
                 awaitingEnr := newSession.awaitingEnr }

/-- The message nonce of the `counter`-th message: the counter in four
big-endian bytes, then eight random bytes. -/
def messageNonce (counter : UInt32) (randomNonce : Arr UInt8 8) : MessageNonce :=
  ⟨toBeBytes 4 counter.toNat ++ randomNonce.toList, by simp [randomNonce.length_toList]; rfl⟩

/-- `Session::encrypt_message`: a message packet sealed with the current
encryption key, whose associated data is the IV and the packet header.
The counter is `u32` arithmetic of a release build, which wraps. -/
def encryptMessage (P : ProtocolIdentity) (c : EnrCodec Enr) (session : Session) (srcId : NodeId)
    (message : List UInt8) (randomNonce : Arr UInt8 8) (iv : BitVec 128) :
    Except (Error Enr) (Packet Enr) × Session :=
  let session := { session with counter := session.counter + 1 }
  let messageNonce := Session.messageNonce session.counter randomNonce
  let header : PacketHeader Enr := ⟨messageNonce, .message srcId⟩
  let authenticatedData := toBeBytes 16 iv.toNat ++ header.encode P c
  match Crypto.encryptMessage s session.keys.encryptionKey messageNonce message authenticatedData with
  | .ok cipher => (.ok ⟨iv, header, cipher⟩, session)
  | .error e => (.error e, session)

/-- `Session::decrypt_message`: the current keys first; on failure the old
keys, which are dropped if they fail too and become current if they work. -/
def decryptMessage (session : Session) (messageNonce : MessageNonce) (message aad : List UInt8) :
    Except (Error Enr) (List UInt8) × Session :=
  let resultCanon := Crypto.decryptMessage s session.keys.decryptionKey messageNonce message aad
  match resultCanon with
  | .ok _ => (resultCanon, session)
  | .error _ =>
    match session.oldKeys with
    | some oldKeys =>
      let result := Crypto.decryptMessage s oldKeys.decryptionKey messageNonce message aad
      match result with
      | .ok _ => (result, { session with keys := oldKeys, oldKeys := some session.keys })
      | .error _ => (result, { session with oldKeys := none })
    | none => (resultCanon, session)

/-- The record a handshake establishes the session with: the newer of the
one the peer sent and the one we knew. -/
def newestEnr (api : EnrApi Enr Pk) (enrRecord remoteEnr : Option Enr) : Option Enr :=
  match enrRecord, remoteEnr with
  | some newEnr, some knownEnr => if api.seq newEnr > api.seq knownEnr then some newEnr else some knownEnr
  | some newEnr, none => some newEnr
  | none, some knownEnr => some knownEnr
  | none, none => none

/-- `Session::establish_from_challenge`: the recipient checks the
initiator's signature over our challenge with the newest record's key,
then derives the keys. The source selects the record twice, by the same
match; the second time its `(None, None)` arm is unreachable. -/
def establishFromChallenge (api : EnrApi Enr Pk) (localKey : CombinedKey Sk)
    (localId remoteId : NodeId) (challenge : Challenge Enr) (idNonceSig ephemPubkey : List UInt8)
    (enrRecord : Option Enr) : Except (Error Enr) (Session × Enr) :=
  match newestEnr api enrRecord challenge.remoteEnr with
  | none => .error .sessionNotEstablished
  | some enr =>
    if !verifyAuthenticationNonce s (api.publicKey enr) ephemPubkey challenge.data localId
        idNonceSig then
      .error (.invalidChallengeSignature challenge)
    else
      match deriveKeysFromPubkey s localKey localId remoteId challenge.data ephemPubkey with
      | .ok (decryptionKey, encryptionKey) => .ok (new ⟨encryptionKey, decryptionKey⟩, enr)
      | .error e => .error e

/-- `Session::encrypt_with_header`: the initiator's handshake packet, with
the message sealed under the new encryption key. The random values are the
ephemeral key, the message nonce and the packet's IV. -/
def encryptWithHeader (api : EnrApi Enr Pk) (P : ProtocolIdentity) (c : EnrCodec Enr)
    (remoteContact : NodeContact Enr Pk) (localKey : CombinedKey Sk) (updatedEnr : Option Enr)
    (localNodeId : NodeId) (challengeData : ChallengeData) (message : List UInt8) (ephemSk : Sk)
    (messageNonce : MessageNonce) (iv : BitVec 128) : Except (Error Enr) (Packet Enr × Session) := do
  let (encryptionKey, decryptionKey, ephemPubkey) ←
    generateSessionKeys s api localNodeId remoteContact challengeData ephemSk
  let keys : Keys := ⟨encryptionKey, decryptionKey⟩
  let sig ← match (signNonce s localKey challengeData ephemPubkey (remoteContact.nodeId api) :
      Except (Error Enr) (List UInt8)) with
    | .ok sig => pure sig
    | .error _ => throw (Error.custom "Could not sign WHOAREYOU nonce")
  let packet := Packet.newAuthheader localNodeId messageNonce sig ephemPubkey updatedEnr iv
  let authenticatedData := toBeBytes 16 packet.iv.toNat ++ packet.header.encode P c
  let messageCiphertext ←
    Crypto.encryptMessage s encryptionKey messageNonce message authenticatedData
  pure ({ packet with message := messageCiphertext }, new keys)

/-! ## One spec lemma per method -/

variable {s}

/-- `encrypt_message` counts the message, whether or not it seals it, and
touches nothing else. -/
@[simp] theorem encryptMessage_session (P : ProtocolIdentity) (c : EnrCodec Enr)
    (session : Session) (srcId : NodeId) (message : List UInt8) (randomNonce : Arr UInt8 8)
    (iv : BitVec 128) :
    (encryptMessage s P c session srcId message randomNonce iv).2 =
      { session with counter := session.counter + 1 } := by
  simp only [encryptMessage]
  split <;> rfl

/-- A sealed message is a message packet from `srcId` under the next nonce,
whose ciphertext the current encryption key seals over the packet's
authenticated data. -/
theorem encryptMessage_eq_ok {P : ProtocolIdentity} {c : EnrCodec Enr} {session : Session}
    {srcId : NodeId} {message : List UInt8} {randomNonce : Arr UInt8 8} {iv : BitVec 128}
    {p : Packet Enr} (h : (encryptMessage s P c session srcId message randomNonce iv).1 = .ok p) :
    p.iv = iv ∧ p.header = ⟨messageNonce (session.counter + 1) randomNonce, .message srcId⟩ ∧
      (Crypto.encryptMessage s session.keys.encryptionKey p.header.messageNonce message
        (p.authenticatedData P c) : Except (Error Enr) _) = .ok p.message := by
  simp only [encryptMessage] at h
  split at h
  · next cipher hc =>
    cases h
    exact ⟨rfl, rfl, hc⟩
  · cases h

/-- A message the current keys open is returned, and the session is kept. -/
theorem decryptMessage_of_canon {session : Session} {messageNonce : MessageNonce}
    {message aad m : List UInt8}
    (h : (Crypto.decryptMessage s session.keys.decryptionKey messageNonce message aad :
      Except (Error Enr) _) = .ok m) :
    (decryptMessage s session messageNonce message aad : Except (Error Enr) _ × Session) =
      (.ok m, session) := by
  simp [decryptMessage, h]

/-- The newest record is one of the two, so a property both have, it has. -/
theorem newestEnr_mem {api : EnrApi Enr Pk} {enrRecord remoteEnr : Option Enr} {enr : Enr}
    (h : newestEnr api enrRecord remoteEnr = some enr) : enr ∈ enrRecord ∨ enr ∈ remoteEnr := by
  unfold newestEnr at h
  split at h
  · split at h <;> simp_all
  all_goals simp_all

/-- The recipient's session, once the signature verifies and the keys derive. -/
theorem establishFromChallenge_of_verify {api : EnrApi Enr Pk} {localKey : CombinedKey Sk}
    {localId remoteId : NodeId} {challenge : Challenge Enr} {idNonceSig ephemPubkey : List UInt8}
    {enrRecord : Option Enr} {enr : Enr} {decryptionKey encryptionKey : Key}
    (henr : newestEnr api enrRecord challenge.remoteEnr = some enr)
    (hverify : verifyAuthenticationNonce s (api.publicKey enr) ephemPubkey challenge.data localId
      idNonceSig = true)
    (hkeys : (deriveKeysFromPubkey s localKey localId remoteId challenge.data ephemPubkey :
      Except (Error Enr) _) = .ok (decryptionKey, encryptionKey)) :
    establishFromChallenge s api localKey localId remoteId challenge idNonceSig ephemPubkey
      enrRecord = .ok (new ⟨encryptionKey, decryptionKey⟩, enr) := by
  simp [establishFromChallenge, henr, hverify, hkeys]

/-- What a handshake packet is made of: the initiator's keys, a signature
over the challenge, and the message sealed over the packet's authenticated
data with the initiator key. -/
theorem encryptWithHeader_eq_ok {api : EnrApi Enr Pk} {P : ProtocolIdentity} {c : EnrCodec Enr}
    {remoteContact : NodeContact Enr Pk} {localKey : CombinedKey Sk} {updatedEnr : Option Enr}
    {localNodeId : NodeId} {challengeData : ChallengeData} {message : List UInt8} {ephemSk : Sk}
    {messageNonce : MessageNonce} {iv : BitVec 128} {p : Packet Enr} {session : Session}
    (h : encryptWithHeader s api P c remoteContact localKey updatedEnr localNodeId challengeData
      message ephemSk messageNonce iv = .ok (p, session)) :
    ∃ encryptionKey decryptionKey ephemPubkey sig,
      generateSessionKeys s api localNodeId remoteContact challengeData ephemSk =
        .ok (encryptionKey, decryptionKey, ephemPubkey) ∧
      (signNonce s localKey challengeData ephemPubkey (remoteContact.nodeId api) :
        Except (Error Enr) _) = .ok sig ∧
      p.header = ⟨messageNonce, .handshake localNodeId sig ephemPubkey updatedEnr⟩ ∧
      (Crypto.encryptMessage s encryptionKey messageNonce message (p.authenticatedData P c) :
        Except (Error Enr) _) = .ok p.message ∧
      session = new ⟨encryptionKey, decryptionKey⟩ := by
  unfold encryptWithHeader at h
  simp only [bind, Except.bind, pure, Except.pure] at h
  split at h
  · cases h
  · next keys hgen =>
    obtain ⟨encryptionKey, decryptionKey, ephemPubkey⟩ := keys
    simp only at h
    split at h
    · next sig hsig =>
      split at h
      · cases h
      · next ct hct =>
        cases h
        exact ⟨encryptionKey, decryptionKey, ephemPubkey, sig, hgen, hsig, rfl, hct, rfl⟩
    · cases h

end Session

end Discv5
