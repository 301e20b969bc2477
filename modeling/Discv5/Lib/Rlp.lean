import Discv5.Lib.Bytes

/-!
# RLP — the recursive-length-prefix encoding

The item encoding of the Ethereum yellow paper (appendix B) as the
`alloy_rlp` crate writes and reads it. An item is a header followed by its
payload; the header says whether the payload is a byte string or a list of
items, and how long it is:

* a single byte below `0x80` is its own encoding (a string of length 1 with
  no header byte);
* a payload shorter than 56 bytes has the one header byte `0x80 + len`
  (string) or `0xC0 + len` (list);
* a longer payload has the header byte `0xB7 + k` or `0xF7 + k` followed by
  the `k` big-endian bytes of its length, without leading zeros.

The decoder rejects every non-canonical form (a single byte below `0x80`
behind a header, a long header for a short payload, a length with a
leading zero) and every header that announces more payload than there is.
The round trips are `Header.decode_encode`, `decodeBytes_encodeBytes`,
`decodeUint_encodeUint` and `decodeList_encodeList`.

The RPC codec takes the crate as a parameter, `RlpCodec`, with the laws it
relies on; this format satisfies them (`RlpCodec.reference_lawful`), and the
examples and witnesses run on it.
-/

namespace Rlp

open Bytes

/-- The errors of the decoder (`alloy_rlp::Error`). -/
inductive Error where
  | overflow
  | leadingZero
  | inputTooShort
  | nonCanonicalSingleByte
  | nonCanonicalSize
  | unexpectedLength
  | unexpectedString
  | unexpectedList
  | listLengthMismatch (expected got : Nat)
  | custom (msg : String)
  deriving DecidableEq, Repr

/-! ## Minimal big-endian lengths -/

/-- The number of bytes of `n` in big-endian form without leading zeros,
with explicit fuel so that the kernel evaluates it: any `fuel ≥ n` passes
give the same count (`byteLengthAux_eq`). -/
def byteLengthAux : Nat → Nat → Nat
  | 0, _ => 0
  | fuel + 1, n => if n = 0 then 0 else byteLengthAux fuel (n / 256) + 1

/-- The number of bytes of `n` in big-endian form without leading zeros. -/
def byteLength (n : Nat) : Nat := byteLengthAux n n

theorem byteLengthAux_eq : ∀ (f₁ f₂ n : Nat), n ≤ f₁ → n ≤ f₂ →
    byteLengthAux f₁ n = byteLengthAux f₂ n
  | 0, f₂, n, h₁, _ => by
    have : n = 0 := by omega
    subst this
    cases f₂ <;> simp [byteLengthAux]
  | f₁ + 1, 0, n, _, h₂ => by
    have : n = 0 := by omega
    subst this
    simp [byteLengthAux]
  | f₁ + 1, f₂ + 1, n, h₁, h₂ => by
    simp only [byteLengthAux]
    split
    · rfl
    · rw [byteLengthAux_eq f₁ f₂ (n / 256) (by omega) (by omega)]

/-- The big-endian bytes of `n` without leading zeros (`to_be_bytes_trimmed!`). -/
def minimalBeBytes (n : Nat) : List UInt8 :=
  toBeBytes (byteLength n) n

@[simp] theorem byteLength_zero : byteLength 0 = 0 := rfl

theorem byteLength_of_pos {n : Nat} (h : 0 < n) : byteLength n = byteLength (n / 256) + 1 := by
  obtain ⟨m, rfl⟩ : ∃ m, n = m + 1 := ⟨n - 1, by omega⟩
  simp only [byteLength, byteLengthAux, Nat.add_one_ne_zero, if_false]
  rw [byteLengthAux_eq m ((m + 1) / 256) ((m + 1) / 256) (by omega) (Nat.le_refl _)]

theorem lt_pow_byteLength (n : Nat) : n < 256 ^ byteLength n := by
  induction n using Nat.strongRecOn with
  | ind n ih =>
    rcases Nat.eq_zero_or_pos n with rfl | hn
    · simp
    · have hdiv := ih (n / 256) (by omega)
      rw [byteLength_of_pos hn, Nat.pow_succ]
      omega

theorem byteLength_le {n k : Nat} (h : n < 256 ^ k) : byteLength n ≤ k := by
  induction k generalizing n with
  | zero =>
    have : n = 0 := by simpa using h
    simp [this]
  | succ k ih =>
    rcases Nat.eq_zero_or_pos n with rfl | hn
    · simp
    · rw [byteLength_of_pos hn]
      have : n / 256 < 256 ^ k := by rw [Nat.pow_succ] at h; omega
      have := ih this
      omega

theorem byteLength_mono {m n : Nat} (h : m ≤ n) : byteLength m ≤ byteLength n :=
  byteLength_le (Nat.lt_of_le_of_lt h (lt_pow_byteLength n))

theorem pow_byteLength_le {n : Nat} (h : 0 < n) : 256 ^ (byteLength n - 1) ≤ n := by
  induction n using Nat.strongRecOn with
  | ind n ih =>
    rw [byteLength_of_pos h, Nat.add_sub_cancel]
    rcases Nat.lt_or_ge n 256 with hlt | hge
    · have : n / 256 = 0 := by omega
      simp [this]
      omega
    · have hpos : 0 < n / 256 := by omega
      have hih := ih (n / 256) (by omega) hpos
      rw [byteLength_of_pos hpos, Nat.add_sub_cancel] at hih
      rw [byteLength_of_pos hpos, Nat.pow_succ]
      omega

theorem byteLength_pos {n : Nat} (h : 0 < n) : 0 < byteLength n := by
  rw [byteLength_of_pos h]
  omega

@[simp] theorem length_minimalBeBytes (n : Nat) : (minimalBeBytes n).length = byteLength n := by
  simp [minimalBeBytes]

@[simp] theorem fromBeBytes_minimalBeBytes (n : Nat) : fromBeBytes (minimalBeBytes n) = n := by
  rw [minimalBeBytes, fromBeBytes_toBeBytes, Nat.mod_eq_of_lt (lt_pow_byteLength n)]

theorem fromBeBytes_cons (b : UInt8) (bs : List UInt8) :
    fromBeBytes (b :: bs) = b.toNat * 256 ^ bs.length + fromBeBytes bs := by
  induction bs using List.reverseRecOn with
  | nil => simp [fromBeBytes]
  | append_singleton bs c ih =>
    rw [← List.cons_append, fromBeBytes_append_single, fromBeBytes_append_single, ih,
      List.length_append, List.length_singleton, Nat.pow_succ, Nat.add_mul, Nat.mul_assoc]
    omega

/-- The first byte of the minimal form of a positive number is not zero. -/
theorem minimalBeBytes_ne_zero_cons {n : Nat} (h : 0 < n) (bs : List UInt8) :
    minimalBeBytes n ≠ 0 :: bs := by
  intro he
  have hval := fromBeBytes_minimalBeBytes n
  have hlen := length_minimalBeBytes n
  rw [he, fromBeBytes_cons] at hval
  rw [he] at hlen
  have hlt := fromBeBytes_lt bs
  have hle := pow_byteLength_le h
  simp only [List.length_cons] at hlen
  rw [← hlen, Nat.add_sub_cancel] at hle
  simp at hval
  omega

/-! ## Headers -/

/-- `static_left_pad::<N>`: a big-endian integer of at most `width` bytes
and without a leading zero, given as its value. -/
def staticLeftPad (width : Nat) (data : List UInt8) : Except Error Nat :=
  if data.length > width then .error .overflow
  else
    match data with
    | [] => .ok 0
    | b :: _ => if b = 0 then .error .leadingZero else .ok (fromBeBytes data)

theorem staticLeftPad_minimalBeBytes {n width : Nat} (h : n < 256 ^ width) :
    staticLeftPad width (minimalBeBytes n) = .ok n := by
  have hlen : ¬(minimalBeBytes n).length > width := by
    simpa using byteLength_le h
  unfold staticLeftPad
  rw [if_neg hlen]
  split
  · rename_i he
    have hval := fromBeBytes_minimalBeBytes n
    rw [he, fromBeBytes_nil] at hval
    rw [hval]
  · rename_i b bs he
    have hb : b ≠ 0 := by
      rintro rfl
      rcases Nat.eq_zero_or_pos n with rfl | hn
      · simp [minimalBeBytes, toBeBytes] at he
      · exact minimalBeBytes_ne_zero_cons hn bs he
    rw [if_neg hb, fromBeBytes_minimalBeBytes]

/-- An item header (`alloy_rlp::Header`). -/
structure Header where
  list : Bool
  payloadLength : Nat
  deriving DecidableEq, Repr

/-- `Header::encode`. -/
def Header.encode (h : Header) : List UInt8 :=
  if h.payloadLength < 56 then
    let code := if h.list then 0xC0 else 0x80
    [UInt8.ofNat (code + h.payloadLength)]
  else
    let lenBe := minimalBeBytes h.payloadLength
    let code := if h.list then 0xF7 else 0xB7
    UInt8.ofNat (code + lenBe.length) :: lenBe

theorem byteLength_eq_one {n : Nat} (h0 : 0 < n) (h : n < 256) : byteLength n = 1 := by
  rw [byteLength_of_pos h0, show n / 256 = 0 by omega, byteLength_zero]

theorem two_le_byteLength {n : Nat} (h : 256 ≤ n) : 2 ≤ byteLength n := by
  rw [byteLength_of_pos (by omega)]
  have := byteLength_pos (show 0 < n / 256 by omega)
  omega

theorem Header.length_encode (h : Header) :
    h.encode.length = if h.payloadLength < 56 then 1 else byteLength h.payloadLength + 1 := by
  unfold Header.encode
  split <;> simp

/-- The last check of `Header::decode`: the announced payload is there. -/
def Header.checked (h : Header) (buf : List UInt8) : Except Error (Header × List UInt8) :=
  if buf.length < h.payloadLength then .error .inputTooShort else .ok (h, buf)

/-- `Header::decode`: the header and the buffer after it. -/
def Header.decode : List UInt8 → Except Error (Header × List UInt8)
  | [] => .error .inputTooShort
  | b :: rest =>
    if b.toNat < 0x80 then
      -- a single byte is its own payload: the buffer is not advanced
      Header.checked ⟨false, 1⟩ (b :: rest)
    else if b.toNat ≤ 0xB7 then
      let payloadLength := b.toNat - 0x80
      if payloadLength = 1 then
        match rest with
        | [] => .error .inputTooShort
        | c :: _ =>
          if c.toNat < 0x80 then .error .nonCanonicalSingleByte
          else Header.checked ⟨false, 1⟩ rest
      else Header.checked ⟨false, payloadLength⟩ rest
    else if b.toNat < 0xC0 ∨ 0xF8 ≤ b.toNat then
      let list := decide (0xF8 ≤ b.toNat)
      let lenOfLen := b.toNat - if list then 0xF7 else 0xB7
      if rest.length < lenOfLen then .error .inputTooShort
      else
        match staticLeftPad 8 (rest.take lenOfLen) with
        | .error e => .error e
        | .ok payloadLength =>
          if payloadLength < 56 then .error .nonCanonicalSize
          else Header.checked ⟨list, payloadLength⟩ (rest.drop lenOfLen)
    else Header.checked ⟨true, b.toNat - 0xC0⟩ rest

theorem Header.checked_of_le {h : Header} {buf : List UInt8} (hl : h.payloadLength ≤ buf.length) :
    h.checked buf = .ok (h, buf) := by
  simp [Header.checked, Nat.not_lt.mpr hl]

theorem toNat_ofNat_of_lt {n : Nat} (h : n < 256) : (UInt8.ofNat n).toNat = n := by
  simp [UInt8.toNat_ofNat', Nat.mod_eq_of_lt h]

/-- The header round trip: decoding an encoded header reads the header back
and leaves the final length check to the rest of the buffer, unless it is a
string header of one byte below `0x80` (which has no header). -/
theorem Header.decode_encode_eq (h : Header) (rest : List UInt8) (hbig : h.payloadLength < 256 ^ 8)
    (hcanon : h.list = false → h.payloadLength = 1 → ∀ c rest', rest = c :: rest' → 0x80 ≤ c.toNat) :
    Header.decode (h.encode ++ rest) = h.checked rest := by
  obtain ⟨list, len⟩ := h
  simp only at hbig hcanon
  unfold Header.encode
  by_cases hshort : len < 56
  · simp only [hshort, if_true]
    cases list with
    | false =>
      have hb : (UInt8.ofNat (0x80 + len)).toNat = 0x80 + len := toNat_ofNat_of_lt (by omega)
      simp only [Bool.false_eq_true, if_false, List.singleton_append, Header.decode, hb]
      rw [if_neg (by omega), if_pos (by omega), Nat.add_sub_cancel_left]
      by_cases h1 : len = 1
      · subst h1
        simp only [if_true]
        cases rest with
        | nil => rfl
        | cons c rest' =>
          have hc := hcanon rfl rfl c rest' rfl
          simp only
          rw [if_neg (by omega)]
      · rw [if_neg h1]
    | true =>
      have hb : (UInt8.ofNat (0xC0 + len)).toNat = 0xC0 + len := toNat_ofNat_of_lt (by omega)
      simp only [if_true, List.singleton_append, Header.decode, hb]
      rw [if_neg (by omega), if_neg (by omega), if_neg (by omega), Nat.add_sub_cancel_left]
  · simp only [hshort, if_false]
    have hpos : 0 < byteLength len := byteLength_pos (by omega)
    have hk : byteLength len ≤ 8 := byteLength_le hbig
    have hpad := staticLeftPad_minimalBeBytes hbig
    cases list with
    | false =>
      have hb : (UInt8.ofNat (0xB7 + (minimalBeBytes len).length)).toNat =
          0xB7 + byteLength len := by
        rw [length_minimalBeBytes]; exact toNat_ofNat_of_lt (by omega)
      simp only [Bool.false_eq_true, if_false, List.cons_append, Header.decode, hb]
      rw [if_neg (by omega), if_neg (by omega), if_pos (by omega)]
      have hdec : decide (0xF8 ≤ 0xB7 + byteLength len) = false := by simp; omega
      simp only [hdec, Bool.false_eq_true, if_false, Nat.add_sub_cancel_left]
      rw [if_neg (by simp)]
      rw [← length_minimalBeBytes len, List.take_left, hpad]
      simp only
      rw [if_neg hshort, List.drop_left]
    | true =>
      have hb : (UInt8.ofNat (0xF7 + (minimalBeBytes len).length)).toNat =
          0xF7 + byteLength len := by
        rw [length_minimalBeBytes]; exact toNat_ofNat_of_lt (by omega)
      simp only [if_true, List.cons_append, Header.decode, hb]
      rw [if_neg (by omega), if_neg (by omega), if_pos (by omega)]
      have hdec : decide (0xF8 ≤ 0xF7 + byteLength len) = true := by simp; omega
      simp only [hdec, if_true, Nat.add_sub_cancel_left]
      rw [if_neg (by simp)]
      rw [← length_minimalBeBytes len, List.take_left, hpad]
      simp only
      rw [if_neg hshort, List.drop_left]

/-- A header is read back from its encoding when its payload follows. -/
theorem Header.decode_encode (h : Header) (rest : List UInt8) (hlen : h.payloadLength ≤ rest.length)
    (hbig : h.payloadLength < 256 ^ 8)
    (hcanon : h.list = false → h.payloadLength = 1 → ∀ c rest', rest = c :: rest' → 0x80 ≤ c.toNat) :
    Header.decode (h.encode ++ rest) = .ok (h, rest) := by
  rw [Header.decode_encode_eq h rest hbig hcanon, Header.checked_of_le hlen]

/-- An encoded list header followed by less than its payload is rejected. -/
theorem Header.decode_encode_short {len : Nat} {rest : List UInt8} (hshort : rest.length < len)
    (hbig : len < 256 ^ 8) :
    Header.decode (Header.encode ⟨true, len⟩ ++ rest) = .error .inputTooShort := by
  rw [Header.decode_encode_eq ⟨true, len⟩ rest hbig (by simp)]
  simp [Header.checked, hshort]

theorem Header.checked_eq_ok {h h' : Header} {buf rest : List UInt8}
    (hc : h.checked buf = .ok (h', rest)) : h' = h ∧ rest = buf ∧ h.payloadLength ≤ buf.length := by
  unfold Header.checked at hc
  split at hc
  · cases hc
  · cases hc
    exact ⟨rfl, rfl, by omega⟩

/-- What a successful `Header::decode` leaves: the payload is in the rest of
the buffer, and the buffer after the payload is shorter than the input. -/
theorem Header.decode_ok {buf rest : List UInt8} {h : Header} (hd : Header.decode buf = .ok (h, rest)) :
    h.payloadLength ≤ rest.length ∧ rest.length - h.payloadLength < buf.length := by
  cases buf with
  | nil => cases hd
  | cons b bs =>
    simp only [Header.decode] at hd
    -- every branch that succeeds ends in `checked` on a suffix of the input,
    -- and only the single-byte branch does not advance past the first byte
    have hsuffix : ∀ {h' : Header} {buf : List UInt8}, h'.checked buf = .ok (h, rest) →
        buf.length - h'.payloadLength < (b :: bs).length →
        h.payloadLength ≤ rest.length ∧ rest.length - h.payloadLength < (b :: bs).length := by
      intro h' buf hc hlt
      obtain ⟨rfl, rfl, hle⟩ := Header.checked_eq_ok hc
      exact ⟨hle, hlt⟩
    split at hd
    · exact hsuffix hd (by simp)
    split at hd
    · split at hd
      · split at hd
        · cases hd
        · split at hd
          · cases hd
          · exact hsuffix hd (by simp only [List.length_cons]; omega)
      · exact hsuffix hd (by simp only [List.length_cons]; omega)
    split at hd
    · split at hd
      all_goals
        split at hd
        · cases hd
        · split at hd
          · cases hd
          · split at hd
            · cases hd
            · exact hsuffix hd (by simp only [List.length_drop, List.length_cons]; omega)
    · exact hsuffix hd (by simp only [List.length_cons]; omega)

/-- `Header::decode_bytes`: the payload of an item that must (not) be a list,
and the buffer after it. -/
def Header.decodeBytes (buf : List UInt8) (isList : Bool) :
    Except Error (List UInt8 × List UInt8) :=
  match Header.decode buf with
  | .error e => .error e
  | .ok (h, buf) =>
    if h.list ≠ isList then .error (if isList then .unexpectedString else .unexpectedList)
    else .ok (buf.take h.payloadLength, buf.drop h.payloadLength)

theorem Header.decodeBytes_of_decode {buf rest : List UInt8} {h : Header}
    (hd : Header.decode buf = .ok (h, rest)) :
    Header.decodeBytes buf h.list = .ok (rest.take h.payloadLength, rest.drop h.payloadLength) := by
  simp [Header.decodeBytes, hd]

/-- A successful `decode_bytes` consumes at least one byte. -/
theorem Header.decodeBytes_shrinks {buf payload rest : List UInt8} {isList : Bool}
    (hd : Header.decodeBytes buf isList = .ok (payload, rest)) : rest.length < buf.length := by
  unfold Header.decodeBytes at hd
  split at hd
  · cases hd
  · rename_i h buf' hdec
    split at hd
    · cases hd
    · cases hd
      have := Header.decode_ok hdec
      simp only [List.length_drop]
      omega

/-! ## Byte strings and unsigned integers -/

/-- `<[u8] as Encodable>::encode`: a single byte below `0x80` is its own
encoding; anything else gets a string header. -/
def encodeBytes (bs : List UInt8) : List UInt8 :=
  match bs with
  | [b] => if b.toNat < 0x80 then [b] else Header.encode ⟨false, 1⟩ ++ [b]
  | _ => Header.encode ⟨false, bs.length⟩ ++ bs

theorem decodeBytes_encodeBytes (bs rest : List UInt8) (hbig : bs.length < 256 ^ 8) :
    Header.decodeBytes (encodeBytes bs ++ rest) false = .ok (bs, rest) := by
  -- the header of every case is read back by `Header.decode_encode`, except
  -- for the single byte below `0x80`, which is its own payload
  have hstring : ∀ bs : List UInt8, bs.length < 256 ^ 8 → (∀ b, bs ≠ [b]) →
      Header.decodeBytes (Header.encode ⟨false, bs.length⟩ ++ bs ++ rest) false = .ok (bs, rest) := by
    intro bs hlen hne
    have hd := Header.decode_encode ⟨false, bs.length⟩ (bs ++ rest) (by simp) hlen (by
      intro _ h1
      obtain ⟨b, rfl⟩ := List.length_eq_one_iff.mp h1
      exact absurd rfl (hne b))
    rw [List.append_assoc, Header.decodeBytes_of_decode hd]
    simp
  unfold encodeBytes
  split
  · rename_i b
    split
    · rename_i hb
      have hd : Header.decode (b :: rest) = .ok (⟨false, 1⟩, b :: rest) := by
        simp only [Header.decode, hb, if_true]
        exact Header.checked_of_le (by simp)
      rw [List.singleton_append, Header.decodeBytes_of_decode hd]
      simp
    · rename_i hb
      have hd := Header.decode_encode ⟨false, 1⟩ ([b] ++ rest) (by simp) (by decide) (by
        intro _ _ c rest' he
        simp only [List.singleton_append, List.cons.injEq] at he
        rw [← he.1]
        omega)
      rw [List.append_assoc, Header.decodeBytes_of_decode hd]
      simp
  · rename_i hne
    exact hstring bs hbig hne

/-- `Encodable::encode` of the unsigned integer types: `0` is the empty
string, a value below `0x80` its own byte, and a larger value its minimal
big-endian bytes behind a string header. -/
def encodeUint (n : Nat) : List UInt8 :=
  if n = 0 then [0x80]
  else if n < 0x80 then [UInt8.ofNat n]
  else
    let be := minimalBeBytes n
    UInt8.ofNat (0x80 + be.length) :: be

/-- `Decodable::decode` of an unsigned integer type of `width` bytes. -/
def decodeUint (width : Nat) (buf : List UInt8) : Except Error (Nat × List UInt8) :=
  match Header.decodeBytes buf false with
  | .error e => .error e
  | .ok (bytes, buf) =>
    match staticLeftPad width bytes with
    | .error e => .error e
    | .ok n => .ok (n, buf)

theorem decodeUint_shrinks {width : Nat} {buf rest : List UInt8} {n : Nat}
    (hd : decodeUint width buf = .ok (n, rest)) : rest.length < buf.length := by
  unfold decodeUint at hd
  split at hd
  · cases hd
  · rename_i bytes buf' hb
    split at hd
    · cases hd
    · cases hd
      exact Header.decodeBytes_shrinks hb

theorem minimalBeBytes_of_lt {n : Nat} (hn : 0 < n) (h : n < 256) :
    minimalBeBytes n = [UInt8.ofNat n] := by
  have hlen : byteLength n = 1 := by
    rw [byteLength_of_pos hn, show n / 256 = 0 by omega, byteLength_zero]
  simp [minimalBeBytes, hlen, toBeBytes]

/-- The integer encoding is the byte-string encoding of the minimal bytes. -/
theorem encodeUint_eq_encodeBytes {n : Nat} (hbig : n < 256 ^ 8) :
    encodeUint n = encodeBytes (minimalBeBytes n) := by
  unfold encodeUint
  split
  · rename_i h0
    subst h0
    simp [minimalBeBytes, toBeBytes, encodeBytes, Header.encode]
  · rename_i h0
    split
    · rename_i hlt
      rw [minimalBeBytes_of_lt (by omega) (by omega)]
      simp [encodeBytes, toNat_ofNat_of_lt (show n < 256 by omega), hlt]
    · rename_i hge
      have hk : byteLength n ≤ 8 := byteLength_le hbig
      have hpos : 0 < byteLength n := byteLength_pos (by omega)
      unfold encodeBytes
      split
      · rename_i b hb
        have hbn : b.toNat = n := by
          have := fromBeBytes_minimalBeBytes n
          rw [hb] at this
          simpa [fromBeBytes] using this
        rw [if_neg (by omega)]
        simp [Header.encode, hb]
      · simp [Header.encode, show byteLength n < 56 by omega]

theorem decodeUint_encodeUint {n width : Nat} (rest : List UInt8) (h : n < 256 ^ width)
    (hw : width ≤ 8) : decodeUint width (encodeUint n ++ rest) = .ok (n, rest) := by
  have hbig : n < 256 ^ 8 := Nat.lt_of_lt_of_le h (Nat.pow_le_pow_right (by decide) hw)
  have hlen : (minimalBeBytes n).length < 256 ^ 8 := by
    have := byteLength_le hbig
    simp only [length_minimalBeBytes]
    exact Nat.lt_of_le_of_lt this (by decide)
  simp only [decodeUint, encodeUint_eq_encodeBytes hbig,
    decodeBytes_encodeBytes _ rest hlen, staticLeftPad_minimalBeBytes h]

/-! ## Lists -/

/-- `encode_list`: a list header over the concatenated item encodings. -/
def encodeList {α : Type} (enc : α → List UInt8) (xs : List α) : List UInt8 :=
  let payload := xs.flatMap enc
  Header.encode ⟨true, payload.length⟩ ++ payload

-- the match hypothesis is used by the termination proof only
set_option linter.unusedVariables false in
/-- The loop of `Vec::<T>::decode`: items are decoded from the payload until
it is empty. `shrinks` says that a decoded item takes at least one byte. -/
def decodeItems {α : Type} (dec : List UInt8 → Except Error (α × List UInt8))
    (shrinks : ∀ buf a rest, dec buf = .ok (a, rest) → rest.length < buf.length)
    (payload : List UInt8) : Except Error (List α) :=
  if payload = [] then .ok []
  else
    match h : dec payload with
    | .error e => .error e
    | .ok (a, rest) =>
      match decodeItems dec shrinks rest with
      | .error e => .error e
      | .ok as => .ok (a :: as)
termination_by payload.length
decreasing_by exact shrinks _ _ _ h

/-- `Vec::<T>::decode`: a list item whose payload is a sequence of items. -/
def decodeList {α : Type} (dec : List UInt8 → Except Error (α × List UInt8))
    (shrinks : ∀ buf a rest, dec buf = .ok (a, rest) → rest.length < buf.length)
    (buf : List UInt8) : Except Error (List α × List UInt8) :=
  match Header.decodeBytes buf true with
  | .error e => .error e
  | .ok (payload, buf) =>
    match decodeItems dec shrinks payload with
    | .error e => .error e
    | .ok xs => .ok (xs, buf)

section Lists

variable {α : Type} {enc : α → List UInt8} {dec : List UInt8 → Except Error (α × List UInt8)}
  {shrinks : ∀ buf a rest, dec buf = .ok (a, rest) → rest.length < buf.length}

theorem decodeItems_flatMap :
    ∀ xs : List α, (∀ x ∈ xs, ∀ rest, dec (enc x ++ rest) = .ok (x, rest)) →
      decodeItems dec shrinks (xs.flatMap enc) = .ok xs
  | [], _ => by rw [decodeItems]; simp
  | x :: xs, hrt => by
    have hx := hrt x (List.mem_cons_self ..)
    -- an item's encoding is not empty: decoding it alone consumes a byte
    have hne : enc x ≠ [] := by
      intro he
      have := shrinks _ _ _ (hx [])
      simp [he] at this
    rw [decodeItems, List.flatMap_cons, if_neg (by simp [hne])]
    split
    · rename_i e he
      rw [hx] at he
      cases he
    · rename_i a rest he
      rw [hx] at he
      cases he
      rw [decodeItems_flatMap xs fun y hy => hrt y (List.mem_cons_of_mem _ hy)]

theorem decodeList_encodeList (xs : List α) (hrt : ∀ x ∈ xs, ∀ rest, dec (enc x ++ rest) = .ok (x, rest))
    (rest : List UInt8) (hbig : (xs.flatMap enc).length < 256 ^ 8) :
    decodeList dec shrinks (encodeList enc xs ++ rest) = .ok (xs, rest) := by
  have hd := Header.decode_encode ⟨true, (xs.flatMap enc).length⟩ (xs.flatMap enc ++ rest)
    (by simp) hbig (by simp)
  unfold decodeList encodeList
  rw [List.append_assoc, Header.decodeBytes_of_decode hd]
  simp only [List.take_left, List.drop_left, decodeItems_flatMap xs hrt]

end Lists

end Rlp
