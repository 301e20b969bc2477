import Mathlib

/-!
# Bytes — big-endian integers and stream-cipher masking

Two pieces of byte arithmetic that wire formats share.

* `toBeBytes n x` is Rust's `to_be_bytes` for an `n`-byte unsigned
  integer holding `x` (so it keeps `x` modulo `2^(8n)`, as `as u16`
  does), and `fromBeBytes` is `from_be_bytes`. The round trips are
  `fromBeBytes_toBeBytes` and `toBeBytes_fromBeBytes`.
* A stream cipher in counter mode masks data by XOR with a keystream that
  its state consumes position by position. `StreamCipher` is that state;
  masking is its own inverse, and masking two pieces in two calls is
  masking their concatenation in one (`applyKeystream_append`).
-/

namespace Bytes

/-- The `n` big-endian bytes of `x`, most significant first. -/
def toBeBytes : Nat → Nat → List UInt8
  | 0, _ => []
  | n + 1, x => toBeBytes n (x / 256) ++ [UInt8.ofNat x]

/-- The unsigned integer whose big-endian bytes are `bs`. -/
def fromBeBytes (bs : List UInt8) : Nat :=
  bs.foldl (fun acc b => acc * 256 + b.toNat) 0

@[simp] theorem length_toBeBytes (n x : Nat) : (toBeBytes n x).length = n := by
  induction n generalizing x with
  | zero => rfl
  | succ n ih => simp [toBeBytes, ih]

theorem fromBeBytes_append_single (bs : List UInt8) (b : UInt8) :
    fromBeBytes (bs ++ [b]) = fromBeBytes bs * 256 + b.toNat := by
  simp [fromBeBytes]

@[simp] theorem fromBeBytes_nil : fromBeBytes [] = 0 := rfl

theorem fromBeBytes_lt (bs : List UInt8) : fromBeBytes bs < 256 ^ bs.length := by
  induction bs using List.reverseRecOn with
  | nil => simp
  | append_singleton bs b ih =>
    rw [fromBeBytes_append_single, List.length_append, List.length_singleton, Nat.pow_succ]
    have hb : b.toNat < 256 := b.toNat_lt
    calc fromBeBytes bs * 256 + b.toNat < (fromBeBytes bs + 1) * 256 := by omega
      _ ≤ 256 ^ bs.length * 256 := Nat.mul_le_mul_right _ ih

/-- Decoding the bytes of `x` gives `x` back, reduced to the width. -/
theorem fromBeBytes_toBeBytes (n x : Nat) : fromBeBytes (toBeBytes n x) = x % 256 ^ n := by
  induction n generalizing x with
  | zero => simp [toBeBytes, Nat.mod_one]
  | succ n ih =>
    have byte : (UInt8.ofNat x).toNat = x % 256 := by simp
    rw [toBeBytes, fromBeBytes_append_single, ih, byte]
    -- `x % 256 ^ (n + 1)` splits into the low byte and the high part modulo `256 ^ n`
    rw [Nat.pow_succ, Nat.mul_comm (256 ^ n) 256, Nat.mod_mul]
    omega

/-- Encoding the integer of `bs` at the width of `bs` gives `bs` back. -/
theorem toBeBytes_fromBeBytes (bs : List UInt8) : toBeBytes bs.length (fromBeBytes bs) = bs := by
  induction bs using List.reverseRecOn with
  | nil => rfl
  | append_singleton bs b ih =>
    have hb : b.toNat < 256 := b.toNat_lt
    have hdiv : (fromBeBytes bs * 256 + b.toNat) / 256 = fromBeBytes bs := by omega
    have hmod : UInt8.ofNat (fromBeBytes bs * 256 + b.toNat) = b := by
      apply UInt8.toNat_inj.mp
      rw [UInt8.toNat_ofNat']
      omega
    rw [List.length_append, List.length_singleton, fromBeBytes_append_single, toBeBytes, hdiv,
      ih, hmod]

/-- Byte strings of one length are determined by their big-endian value. -/
theorem fromBeBytes_injective {bs₁ bs₂ : List UInt8} (hl : bs₁.length = bs₂.length)
    (h : fromBeBytes bs₁ = fromBeBytes bs₂) : bs₁ = bs₂ := by
  rw [← toBeBytes_fromBeBytes bs₁, ← toBeBytes_fromBeBytes bs₂, hl, h]

/-! ## Stream-cipher masking -/

/-- XOR of `data` with the keystream, starting at stream position `pos`. -/
def xorKeystream (ks : Nat → UInt8) : Nat → List UInt8 → List UInt8
  | _, [] => []
  | pos, b :: bs => (b ^^^ ks pos) :: xorKeystream ks (pos + 1) bs

@[simp] theorem length_xorKeystream (ks : Nat → UInt8) (pos : Nat) (data : List UInt8) :
    (xorKeystream ks pos data).length = data.length := by
  induction data generalizing pos with
  | nil => rfl
  | cons b bs ih => simp [xorKeystream, ih]

theorem xorKeystream_append (ks : Nat → UInt8) (pos : Nat) (a b : List UInt8) :
    xorKeystream ks pos (a ++ b) = xorKeystream ks pos a ++ xorKeystream ks (pos + a.length) b := by
  induction a generalizing pos with
  | nil => rfl
  | cons x xs ih =>
    simp only [List.cons_append, xorKeystream, ih, List.length_cons, Nat.add_assoc,
      Nat.add_comm 1 xs.length]

@[simp] theorem xorKeystream_xorKeystream (ks : Nat → UInt8) (pos : Nat) (data : List UInt8) :
    xorKeystream ks pos (xorKeystream ks pos data) = data := by
  induction data generalizing pos with
  | nil => rfl
  | cons b bs ih => simp [xorKeystream, ih]

/-- The state of a counter-mode stream cipher: its keystream and how much of
it has been consumed. -/
structure StreamCipher where
  keystream : Nat → UInt8
  pos : Nat

/-- A fresh cipher, at the start of its keystream. -/
def StreamCipher.new (keystream : Nat → UInt8) : StreamCipher := ⟨keystream, 0⟩

/-- `apply_keystream`: mask `data` and advance the cipher past it. -/
def StreamCipher.applyKeystream (c : StreamCipher) (data : List UInt8) :
    List UInt8 × StreamCipher :=
  (xorKeystream c.keystream c.pos data, { c with pos := c.pos + data.length })

@[simp] theorem StreamCipher.applyKeystream_pos (c : StreamCipher) (data : List UInt8) :
    (c.applyKeystream data).2.pos = c.pos + data.length := rfl

@[simp] theorem StreamCipher.applyKeystream_keystream (c : StreamCipher) (data : List UInt8) :
    (c.applyKeystream data).2.keystream = c.keystream := rfl

/-- Masking `a` and then `b` with one cipher is masking `a ++ b` in one call. -/
theorem StreamCipher.applyKeystream_append (c : StreamCipher) (a b : List UInt8) :
    (c.applyKeystream a).1 ++ ((c.applyKeystream a).2.applyKeystream b).1 =
      (c.applyKeystream (a ++ b)).1 := by
  simp [StreamCipher.applyKeystream, xorKeystream_append]

end Bytes
