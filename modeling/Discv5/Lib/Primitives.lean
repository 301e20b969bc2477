import Mathlib

/-!
# Cryptographic primitives as interfaces

A protocol implementation calls its primitives through libraries whose
code is not part of the development: a key agreement, a signature scheme,
a public-key encoding, an authenticated cipher, and a source of random
bytes. Each is a structure of functions here, and what a protocol proof
may rely on of it is a named `Prop` beside it (`KeyAgreement.Commutes`,
`SignatureScheme.Correct`, `KeyEncoding.Lawful`, `Aead.Correct`). Nothing
here is about security: these are the functional facts that make honest
runs succeed.
-/

namespace Primitives

variable {Sk Pk S K N : Type}

/-- A Diffie-Hellman key agreement: the public key of a secret key, and the
secret agreed from a peer's public key and one's own secret key. -/
structure KeyAgreement (Sk Pk S : Type) where
  publicKey : Sk → Pk
  agree : Pk → Sk → S

/-- Both parties agree on the same secret. -/
def KeyAgreement.Commutes (d : KeyAgreement Sk Pk S) : Prop :=
  ∀ a b, d.agree (d.publicKey b) a = d.agree (d.publicKey a) b

/-- A signature scheme over byte strings, with signatures as bytes: `sign`
may fail, `verify` parses the signature and checks it. -/
structure SignatureScheme (Sk Pk : Type) where
  publicKey : Sk → Pk
  sign : Sk → List UInt8 → Option (List UInt8)
  verify : Pk → List UInt8 → List UInt8 → Bool

/-- A signature made with a secret key verifies under its public key. -/
def SignatureScheme.Correct (s : SignatureScheme Sk Pk) : Prop :=
  ∀ sk msg sig, s.sign sk msg = some sig → s.verify (s.publicKey sk) msg sig = true

/-- A byte encoding of public keys and its parser. -/
structure KeyEncoding (Pk : Type) where
  encode : Pk → List UInt8
  decode : List UInt8 → Option Pk

def KeyEncoding.Lawful (e : KeyEncoding Pk) : Prop :=
  ∀ pk, e.decode (e.encode pk) = some pk

/-- An authenticated cipher with associated data: `encrypt` and `decrypt`
under a key, a nonce and the associated data, `none` on failure. -/
structure Aead (K N : Type) where
  encrypt : K → N → List UInt8 → List UInt8 → Option (List UInt8)
  decrypt : K → N → List UInt8 → List UInt8 → Option (List UInt8)

/-- What `encrypt` seals, `decrypt` opens under the same key, nonce and
associated data; the ciphertext is the plaintext's length plus a tag. -/
structure Aead.Correct (a : Aead K N) (tagLength : Nat) : Prop where
  decrypt_encrypt : ∀ k n msg ad c, a.encrypt k n msg ad = some c → a.decrypt k n c ad = some msg
  length_encrypt : ∀ k n msg ad c, a.encrypt k n msg ad = some c →
    c.length = msg.length + tagLength

/-- A source of random bytes: an arbitrary tape and the position of the
next unread byte. Every theorem over a protocol run holds for every tape. -/
structure Rng where
  tape : Nat → UInt8
  pos : Nat

/-- Read the next `n` bytes. -/
def Rng.bytes (r : Rng) (n : Nat) : List UInt8 × Rng :=
  ((List.range n).map fun i => r.tape (r.pos + i), ⟨r.tape, r.pos + n⟩)

@[simp] theorem Rng.length_bytes (r : Rng) (n : Nat) : (r.bytes n).1.length = n := by
  simp [Rng.bytes]

@[simp] theorem Rng.tape_bytes (r : Rng) (n : Nat) : (r.bytes n).2.tape = r.tape := rfl

end Primitives
