import Discv5.Handler.Session
import Discv5.Packet.RoundTrip

/-!
# The handshake establishes a channel

The two halves of a handshake are written separately: the initiator
answers a WHOAREYOU with `encrypt_with_header`, which derives the keys
from an ephemeral key and the recipient's public key, and the recipient
runs `establish_from_challenge` on the handshake packet, which derives
them from its own key and the ephemeral one. They agree when the node ids
in the HKDF info are in the same order on both sides and each side takes
its encryption key from the half the other decrypts with.

`Paired` says the second: each session encrypts with the other's
decryption key. The handshake produces paired sessions, and a pair of
sessions is a channel on which every message one side seals the other
opens, however many messages either side has sent (`Channel.run_delivers`).
-/

namespace Discv5

open Rust Bytes Crypto Primitives

variable {Enr Sk Pk : Type}

/-- Each session encrypts with the key the other decrypts with. -/
def Paired (a b : Session) : Prop :=
  a.keys.encryptionKey = b.keys.decryptionKey ∧ b.keys.encryptionKey = a.keys.decryptionKey

theorem Paired.symm {a b : Session} (h : Paired a b) : Paired b a := ⟨h.2, h.1⟩

/-- The step of a channel: what one side of a pair seals, the other opens,
and the receiving session is left as it was. -/
theorem Paired.decryptMessage_encryptMessage {s : Suite Sk Pk} (hs : s.Lawful)
    {P : ProtocolIdentity} {c : EnrCodec Enr} {a b : Session} (hab : Paired a b)
    {srcId : NodeId} {message : List UInt8} {randomNonce : Arr UInt8 8} {iv : BitVec 128}
    {p : Packet Enr} (h : (a.encryptMessage s P c srcId message randomNonce iv).1 = .ok p) :
    (b.decryptMessage s p.header.messageNonce p.message (p.authenticatedData P c) :
      Except (Error Enr) _ × Session) = (.ok message, b) := by
  obtain ⟨-, -, hc⟩ := Session.encryptMessage_eq_ok h
  apply Session.decryptMessage_of_canon
  rw [← hab.1]
  exact decryptMessage_of_encryptMessage hs hc

/-- A message of a channel: which side sends it, its plaintext, and the
random values of its encryption. -/
structure Transmission where
  fromInitiator : Bool
  message : List UInt8
  randomNonce : Arr UInt8 8
  iv : BitVec 128

/-- The sessions of the two ends of a handshake. -/
structure Channel where
  initiator : Session
  recipient : Session

namespace Channel

variable (s : Suite Sk Pk) (P : ProtocolIdentity) (c : EnrCodec Enr)
  (initiatorId recipientId : NodeId)

/-- One message: the sender seals it in a message packet, and the receiver
decrypts the packet's message with the packet's nonce and authenticated
data. A message that fails to seal is not sent (`none`). -/
def transmit (ch : Channel) (t : Transmission) :
    Option (Except (Error Enr) (List UInt8)) × Channel :=
  if t.fromInitiator then
    match ch.initiator.encryptMessage s P c initiatorId t.message t.randomNonce t.iv with
    | (.ok p, initiator) =>
      let (r, recipient) :=
        ch.recipient.decryptMessage s p.header.messageNonce p.message (p.authenticatedData P c)
      (some r, ⟨initiator, recipient⟩)
    | (.error _, initiator) => (none, { ch with initiator })
  else
    match ch.recipient.encryptMessage s P c recipientId t.message t.randomNonce t.iv with
    | (.ok p, recipient) =>
      let (r, initiator) :=
        ch.initiator.decryptMessage s p.header.messageNonce p.message (p.authenticatedData P c)
      (some r, ⟨initiator, recipient⟩)
    | (.error _, recipient) => (none, { ch with recipient })

/-- A run of the channel: what the receiver got of each message. -/
def run : Channel → List Transmission → List (Option (Except (Error Enr) (List UInt8))) × Channel
  | ch, [] => ([], ch)
  | ch, t :: ts =>
    let (r, ch) := transmit s P c initiatorId recipientId ch t
    let (rs, ch) := run ch ts
    (r :: rs, ch)

/-- What a receiver may see of a message: nothing, if it could not be
sealed, and else the message itself. -/
def Delivered (t : Transmission) (r : Option (Except (Error Enr) (List UInt8))) : Prop :=
  r = none ∨ r = some (.ok t.message)

variable {s P c}

/-- The step lemma: a paired channel delivers the message and stays paired. -/
theorem transmit_paired (hs : s.Lawful) {ch : Channel} (hp : Paired ch.initiator ch.recipient)
    (t : Transmission) :
    Delivered t (transmit s P c initiatorId recipientId ch t).1 ∧
      Paired (transmit s P c initiatorId recipientId ch t).2.initiator
        (transmit s P c initiatorId recipientId ch t).2.recipient := by
  obtain ⟨initiator, recipient⟩ := ch
  unfold transmit
  cases t.fromInitiator with
  | true =>
    simp only [if_true]
    cases he : initiator.encryptMessage s P c initiatorId t.message t.randomNonce t.iv with
    | mk r initiator' =>
      have hi : initiator' = { initiator with counter := initiator.counter + 1 } := by
        have := Session.encryptMessage_session (s := s) P c initiator initiatorId t.message
          t.randomNonce t.iv
        rw [he] at this
        exact this
      subst hi
      cases r with
      | ok p =>
        have hr : (initiator.encryptMessage s P c initiatorId t.message t.randomNonce t.iv).1 =
            .ok p := by rw [he]
        simp only [Paired.decryptMessage_encryptMessage hs hp hr]
        exact ⟨.inr rfl, hp⟩
      | error e => exact ⟨.inl rfl, hp⟩
  | false =>
    simp only [Bool.false_eq_true, if_false]
    cases he : recipient.encryptMessage s P c recipientId t.message t.randomNonce t.iv with
    | mk r recipient' =>
      have hi : recipient' = { recipient with counter := recipient.counter + 1 } := by
        have := Session.encryptMessage_session (s := s) P c recipient recipientId t.message
          t.randomNonce t.iv
        rw [he] at this
        exact this
      subst hi
      cases r with
      | ok p =>
        have hr : (recipient.encryptMessage s P c recipientId t.message t.randomNonce t.iv).1 =
            .ok p := by rw [he]
        simp only [Paired.decryptMessage_encryptMessage hs hp.symm hr]
        exact ⟨.inr rfl, hp⟩
      | error e => exact ⟨.inl rfl, hp⟩

/-- The run lemma: on a paired channel every message either side manages
to seal reaches the other side intact, in any order of senders. -/
theorem run_delivers (hs : s.Lawful) {ch : Channel} (hp : Paired ch.initiator ch.recipient)
    (ts : List Transmission) :
    List.Forall₂ Delivered ts (run s P c initiatorId recipientId ch ts).1 := by
  induction ts generalizing ch with
  | nil => exact .nil
  | cons t ts ih =>
    obtain ⟨hd, hp'⟩ := transmit_paired (P := P) (c := c) initiatorId recipientId hs hp t
    exact .cons hd (ih hp')

end Channel

/-! ## The two halves of a handshake -/

section Handshake

variable {s : Suite Sk Pk} {api : EnrApi Enr Pk}

/-- The record the recipient verifies the handshake with is the
initiator's: it is either the update the packet carries or the record
the recipient knew, and both carry the initiator's key. -/
theorem newestEnr_publicKey {key : CombinedPublicKey Pk} {enrRecord : Option Enr} {knownEnr : Enr}
    (hknown : api.publicKey knownEnr = key) (hrecord : ∀ e ∈ enrRecord, api.publicKey e = key) :
    ∃ enr, Session.newestEnr api enrRecord (some knownEnr) = some enr ∧ api.publicKey enr = key := by
  cases hn : Session.newestEnr api enrRecord (some knownEnr) with
  | none =>
    cases enrRecord with
    | none => simp [Session.newestEnr] at hn
    | some e =>
      simp only [Session.newestEnr] at hn
      split at hn <;> cases hn
  | some enr =>
    refine ⟨enr, rfl, ?_⟩
    rcases Session.newestEnr_mem hn with h | h
    · exact hrecord enr h
    · cases h
      exact hknown

/-- Handshake key agreement. Node A (secret key `skA`, id `idA`) answers
the WHOAREYOU of node B (secret key `skB`, id `idB`, challenge data
`challengeData`) with `encrypt_with_header`, for a contact that carries B's
key and id. B, which knows a record of A, runs `establish_from_challenge`
on the packet's handshake fields. Then B's session opens the packet's
message, and the two sessions form a channel on which every message
either side seals afterwards reaches the other intact. -/
theorem handshake_key_agreement (hs : s.Lawful) (P : ProtocolIdentity) (c : EnrCodec Enr)
    {skA skB ephemSk : Sk} {idA idB : NodeId} {contactB : NodeContact Enr Pk} {enrA : Enr}
    {updatedEnr : Option Enr} {challengeData : ChallengeData} {message : List UInt8}
    {messageNonce : MessageNonce} {iv : BitVec 128} {p : Packet Enr} {sessionA : Session}
    (hkeyB : contactB.publicKey = .secp256k1 (s.ecdh.publicKey skB))
    (hidB : contactB.nodeId api = idB)
    (hkeyA : api.publicKey enrA = .secp256k1 (s.ecdh.publicKey skA))
    (hupdate : ∀ e ∈ updatedEnr, api.publicKey e = .secp256k1 (s.ecdh.publicKey skA))
    (henc : Session.encryptWithHeader s api P c contactB (.secp256k1 skA) updatedEnr idA
      challengeData message ephemSk messageNonce iv = .ok (p, sessionA)) :
    ∃ idNonceSig ephemPubkey sessionB enr,
      p.header.kind = .handshake idA idNonceSig ephemPubkey updatedEnr ∧
      Session.establishFromChallenge s api (.secp256k1 skB) idB idA ⟨challengeData, some enrA⟩
        idNonceSig ephemPubkey updatedEnr = .ok (sessionB, enr) ∧
      (sessionB.decryptMessage s p.header.messageNonce p.message (p.authenticatedData P c) :
        Except (Error Enr) _ × Session).1 = .ok message ∧
      ∀ (ts : List Transmission),
        List.Forall₂ Channel.Delivered ts (Channel.run s P c idA idB ⟨sessionA, sessionB⟩ ts).1 := by
  obtain ⟨encryptionKey, decryptionKey, ephemPubkey, sig, hgen, hsig, hheader, hct, rfl⟩ :=
    Session.encryptWithHeader_eq_ok henc
  obtain ⟨enr, henr, henrKey⟩ := newestEnr_publicKey hkeyA hupdate
  -- B verifies A's signature, which was made for B's id
  have hverify : verifyAuthenticationNonce s (api.publicKey enr) ephemPubkey challengeData idB
      sig = true := by
    rw [henrKey]
    rw [hidB] at hsig
    exact verifyAuthenticationNonce_of_signNonce hs hsig
  -- and derives A's initiator key as its decryption key
  have hkeys : (deriveKeysFromPubkey s (.secp256k1 skB) idB idA challengeData ephemPubkey :
      Except (Error Enr) _) = .ok (encryptionKey, decryptionKey) := by
    rw [← hidB]
    exact deriveKeysFromPubkey_of_generateSessionKeys hs hgen hkeyB
  have hpaired : Paired (Session.new ⟨encryptionKey, decryptionKey⟩)
      (Session.new ⟨decryptionKey, encryptionKey⟩) := ⟨rfl, rfl⟩
  refine ⟨sig, ephemPubkey, Session.new ⟨decryptionKey, encryptionKey⟩, enr, by rw [hheader],
    Session.establishFromChallenge_of_verify henr hverify hkeys, ?_,
    fun ts => Channel.run_delivers idA idB hs hpaired ts⟩
  have hnonce : p.header.messageNonce = messageNonce := by rw [hheader]
  rw [hnonce, Session.decryptMessage_of_canon (decryptMessage_of_encryptMessage hs hct)]

/-- A lawful suite to run a handshake on: keys are bytes, the public key of
`a` is `2a`, the agreed secret of `pk` and `sk` is `pk * sk`, a signature is
the secret key, the cipher appends its key as the tag, and a random key is
the first random byte. -/
def toySuite : Suite UInt8 UInt8 where
  ecdh := ⟨fun a => 2 * a, fun pk sk => [pk * sk]⟩
  ecdsa := ⟨fun a => 2 * a, fun sk _ => some [sk], fun pk _ sig => sig.map (2 * ·) == [pk]⟩
  sec1 := ⟨fun pk => [pk], fun bs => bs.head?⟩
  hkdf _ ikm _ := some ⟨(ikm ++ List.replicate 32 0).take 32, by simp⟩
  aesGcm :=
    ⟨fun k _ msg _ => some (msg ++ k.toList),
      fun k _ c _ => if c.drop (c.length - 16) = k.toList then some (c.take (c.length - 16))
        else none⟩
  randomSigningKey bytes := bytes.headD 0

theorem toySuite_lawful : toySuite.Lawful where
  ecdh_commutes a b := by
    change [2 * b * a] = [2 * a * b]
    congr 1
    grind
  ecdsa_publicKey := rfl
  ecdsa_correct sk msg sig h := by
    change some [sk] = some sig at h
    cases h
    simp [toySuite]
  sec1_lawful _ := rfl
  aesGcm_correct :=
    { decrypt_encrypt := fun k n msg ad c h => by
        change some (msg ++ k.toList) = some c at h
        cases h
        simp [toySuite, k.length_toList]
      length_encrypt := fun k n msg ad c h => by
        change some (msg ++ k.toList) = some c at h
        cases h
        simp [k.length_toList] }

/-- The node ids of A and B in the handshake run. -/
def toyIdA : NodeId := ⟨⟨List.replicate 32 0xaa, rfl⟩⟩

def toyIdB : NodeId := ⟨⟨List.replicate 32 0xbb, rfl⟩⟩

/-- The record interface of the handshake run: node A's record carries A's
key `2 * 3`, and the bare key of B names B. -/
def toyApi : EnrApi Unit UInt8 where
  seq _ := 1
  publicKey _ := .secp256k1 (2 * 3)
  nodeId _ := toyIdA
  udp4Socket _ := none
  udp6Socket _ := none
  keyNodeId _ := toyIdB

/-- A's contact for B: B's key `2 * 5` at a local socket, record unknown. -/
def toyContactB : NodeContact Unit UInt8 :=
  ⟨.secp256k1 (2 * 5), .v4 ⟨Ipv4Addr.new 127 0 0 1, 9000⟩, none⟩

/-- A (secret key 3, ephemeral key 11) answers B's challenge (B's secret
key 5) and B establishes the session from the packet. -/
theorem toy_handshake_key_agreement :
    ∃ (p : Packet Unit) (sessionA : Session),
      Session.encryptWithHeader toySuite toyApi defaultProtocolId unitRecordCodec toyContactB
          (.secp256k1 3) none toyIdA ⟨List.replicate 63 7, rfl⟩ [1, 2, 3] 11
          ⟨List.replicate 12 9, rfl⟩ 42#128 = .ok (p, sessionA) ∧
      ∃ idNonceSig ephemPubkey sessionB enr,
        p.header.kind = .handshake toyIdA idNonceSig ephemPubkey none ∧
        Session.establishFromChallenge toySuite toyApi (.secp256k1 5) toyIdB toyIdA
          ⟨⟨List.replicate 63 7, rfl⟩, some ()⟩ idNonceSig ephemPubkey none = .ok (sessionB, enr) ∧
        (sessionB.decryptMessage toySuite p.header.messageNonce p.message
          (p.authenticatedData defaultProtocolId unitRecordCodec) :
            Except (Error Unit) _ × Session).1 = .ok [1, 2, 3] ∧
        ∀ (ts : List Transmission),
          List.Forall₂ Channel.Delivered ts
            (Channel.run toySuite defaultProtocolId unitRecordCodec toyIdA toyIdB
              ⟨sessionA, sessionB⟩ ts).1 := by
  refine ⟨_, _, rfl, ?_⟩
  exact @handshake_key_agreement Unit UInt8 UInt8 toySuite toyApi toySuite_lawful
    defaultProtocolId unitRecordCodec 3 5 11 toyIdA toyIdB toyContactB () none
    ⟨List.replicate 63 7, rfl⟩ [1, 2, 3] ⟨List.replicate 12 9, rfl⟩ 42#128 _ _ rfl rfl rfl
    (by simp) rfl

end Handshake

end Discv5
