import Mathlib
import Discv5.Handler.KeyAgreement

/-!
# Failed decryptions

`Session::decrypt_message` tries the current keys, then the old keys a
second handshake left. It takes the old keys out of the session to try
them and puts them back, as the current ones, only when they work: a
ciphertext neither key opens leaves the session without old keys. The
current keys survive any number of failures.
-/

namespace Discv5

open Rust Bytes Crypto

namespace Session

variable {Enr Sk Pk : Type} (s : Suite Sk Pk)

/-- A failed decryption keeps the current keys and drops the old ones: the
old keys were taken out to be tried and are put back only on success. -/
theorem decryptMessage_error {session session' : Session} {messageNonce : MessageNonce}
    {message aad : List UInt8} {e : Error Enr}
    (h : session.decryptMessage s messageNonce message aad = (.error e, session')) :
    session' = { session with oldKeys := none } := by
  unfold decryptMessage at h
  cases hcanon : (Crypto.decryptMessage s session.keys.decryptionKey messageNonce message aad :
      Except (Error Enr) _) with
  | ok m => simp [hcanon] at h
  | error e₁ =>
    simp only [hcanon] at h
    cases hold : session.oldKeys with
    | none =>
      -- no old keys: the session is returned as it was, which has none
      simp only [hold, Prod.mk.injEq] at h
      rw [← h.2]
      cases session
      simp_all
    | some oldKeys =>
      simp only [hold] at h
      cases hres : (Crypto.decryptMessage s oldKeys.decryptionKey messageNonce message aad :
          Except (Error Enr) _) with
      | ok m => simp [hres] at h
      | error e₂ =>
        simp only [hres, Prod.mk.injEq] at h
        exact h.2.symm

/-- A ciphertext that neither key opens drops the old keys, after which a
message sealed under them, that the current keys do not open, no longer
decrypts. -/
theorem failed_decryption_drops_old_keys (hs : s.Lawful) {session : Session} {oldKeys : Keys}
    (hold : session.oldKeys = some oldKeys) {nonce : MessageNonce} {forged aad : List UInt8}
    {e : Error Enr} {session' : Session}
    (hfail : session.decryptMessage s nonce forged aad = (.error e, session'))
    {nonce' : MessageNonce} {m c aad' : List UInt8}
    (hc : (Crypto.encryptMessage s oldKeys.decryptionKey nonce' m aad' : Except (Error Enr) _) = .ok c)
    (hcur : ∀ m', (Crypto.decryptMessage s session.keys.decryptionKey nonce' c aad' :
      Except (Error Enr) _) ≠ .ok m') :
    session'.oldKeys = none ∧
      (session.decryptMessage s nonce' c aad').1 = (.ok m : Except (Error Enr) _) ∧
      ∀ m', (session'.decryptMessage s nonce' c aad').1 ≠ (.ok m' : Except (Error Enr) _) := by
  have hsession' := decryptMessage_error s hfail
  have hopen := decryptMessage_of_encryptMessage hs hc
  -- the current keys fail on the genuine message
  obtain ⟨e', hcanon⟩ : ∃ e', (Crypto.decryptMessage s session.keys.decryptionKey nonce' c aad' :
      Except (Error Enr) _) = .error e' := by
    cases hr : (Crypto.decryptMessage s session.keys.decryptionKey nonce' c aad' :
        Except (Error Enr) _) with
    | ok m' => exact absurd hr (hcur m')
    | error e' => exact ⟨e', rfl⟩
  refine ⟨by rw [hsession'], ?_, fun m' => ?_⟩
  · simp [decryptMessage, hcanon, hold, hopen]
  · subst hsession'
    simp [decryptMessage, hcanon]

/-- Any number of failed decryptions leave the current keys, so a message
sealed under them still decrypts. -/
theorem current_keys_survive_failures (hs : s.Lawful) {session session' : Session}
    (h : Relation.ReflTransGen (fun a b : Session => ∃ (nonce : MessageNonce) (message aad : List UInt8)
      (e : Error Enr),
      a.decryptMessage s nonce message aad = (.error e, b)) session session')
    {nonce : MessageNonce} {m c aad : List UInt8}
    (hc : (Crypto.encryptMessage s session.keys.decryptionKey nonce m aad : Except (Error Enr) _) =
      .ok c) :
    session'.keys = session.keys ∧
      (session'.decryptMessage s nonce c aad : Except (Error Enr) _ × Session) = (.ok m, session') := by
  -- the keys are kept by each failure, by induction on the failures
  have hkeys : session'.keys = session.keys := by
    induction h with
    | refl => rfl
    | tail _ hstep ih =>
      obtain ⟨_, _, _, _, hfail⟩ := hstep
      rw [decryptMessage_error s hfail]
      exact ih
  refine ⟨hkeys, decryptMessage_of_canon ?_⟩
  rw [hkeys]
  exact decryptMessage_of_encryptMessage hs hc

/-- The key of every byte `b`. -/
def toyKey (b : UInt8) : Key := ⟨List.replicate 16 b, by simp⟩

/-- A session whose keys a second handshake replaced: current keys of byte
1, old keys of byte 0. -/
def rehandshakenSession : Session :=
  (Session.new ⟨toyKey 0, toyKey 0⟩).update (Session.new ⟨toyKey 1, toyKey 1⟩)

/-- The all-zero message nonce. -/
def zeroNonce : MessageNonce := ⟨List.replicate 12 0, by simp [messageNonceLength]⟩

/-- A forged packet opens under neither key and drops the old keys: the
message `[7]`, sealed under them, decrypts before it and no longer after. -/
theorem forged_packet_drops_old_keys :
    rehandshakenSession.decryptMessage toySuite zeroNonce (List.replicate 16 2) [] =
        ((.error (.decryptionFailed "aead::Error") : Except (Error Unit) _),
          { rehandshakenSession with oldKeys := none }) ∧
      ({ rehandshakenSession with oldKeys := none } : Session).oldKeys ≠ rehandshakenSession.oldKeys ∧
      (rehandshakenSession.decryptMessage toySuite zeroNonce ([7] ++ (toyKey 0).toList) []).1 =
        (.ok [7] : Except (Error Unit) _) ∧
      ∀ m', (({ rehandshakenSession with oldKeys := none } : Session).decryptMessage toySuite
        zeroNonce ([7] ++ (toyKey 0).toList) []).1 ≠ (.ok m' : Except (Error Unit) _) := by
  have hfail : rehandshakenSession.decryptMessage toySuite zeroNonce (List.replicate 16 2) [] =
      ((.error (.decryptionFailed "aead::Error") : Except (Error Unit) _),
        { rehandshakenSession with oldKeys := none }) := rfl
  have hcur : ∀ m', (Crypto.decryptMessage toySuite (toyKey 1) zeroNonce ([7] ++ (toyKey 0).toList) [] :
      Except (Error Unit) _) ≠ .ok m' := by
    intro m' h
    cases h
  refine ⟨hfail, (fun h => by cases h), ?_⟩
  exact And.right (failed_decryption_drops_old_keys toySuite toySuite_lawful rfl hfail rfl hcur)

/-- After the forged packet, the message `[7]` sealed under the current keys
still decrypts. -/
theorem current_keys_survive_forged_packet :
    ({ rehandshakenSession with oldKeys := none } : Session).keys = rehandshakenSession.keys ∧
      (({ rehandshakenSession with oldKeys := none } : Session).decryptMessage toySuite zeroNonce
          ([7] ++ (toyKey 1).toList) [] : Except (Error Unit) _ × Session) =
        (.ok [7], { rehandshakenSession with oldKeys := none }) :=
  current_keys_survive_failures toySuite toySuite_lawful
    (Relation.ReflTransGen.single ⟨zeroNonce, List.replicate 16 2, [], _, rfl⟩) rfl

end Session
end Discv5
