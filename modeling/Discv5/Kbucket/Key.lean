import Discv5.External
import Discv5.Lib.Bytes

/-!
# Keys and the XOR metric

`src/kbucket/key.rs` and `BucketIndex` of `src/kbucket.rs`. The routing
table only ever builds keys with `From<NodeId>`, whose hash is the node id's
32 raw bytes, so a `Key<NodeId>` is modelled by its `NodeId`, and key
equality (equality of hashes) is equality of node ids.

`U256` is `BitVec 256`; `leading_zeros` is `BitVec.clz`. The main facts are
that `BucketIndex::new` and `log2_distance`, written separately in the
source, both compute the position of the highest set bit of the distance
(`Nat.log2`), one as an index and one as a count.
-/

namespace Discv5.Kbucket

open Rust

/-- The 256-bit unsigned integers of the `uint` crate. -/
abbrev U256 := BitVec 256

/-- `NUM_BUCKETS`. -/
def numBuckets : Nat := 256

theorem numBuckets_pos : 0 < numBuckets := by decide

/-- `U256::from_big_endian`. -/
def U256.fromBigEndian (bytes : List UInt8) : U256 :=
  BitVec.ofNat 256 (Bytes.fromBeBytes bytes)

/-- `U256::leading_zeros`. -/
def U256.leadingZeros (x : U256) : Nat :=
  x.clz.toNat

/-- `U256::bit`. -/
def U256.bit (x : U256) (i : Nat) : Bool :=
  x.getLsbD i

/-- A distance between two keys, ordered as the integer it holds. -/
structure Distance where
  val : U256
  deriving DecidableEq, Repr

/-- `Key::distance`. -/
def distance (a b : NodeId) : Distance :=
  ⟨U256.fromBigEndian a.raw.toList ^^^ U256.fromBigEndian b.raw.toList⟩

/-- `Key::log2_distance`. -/
def log2Distance (a b : NodeId) : Option Nat :=
  let logDist := 256 - (distance a b).val.leadingZeros
  if logDist = 0 then none else some logDist

/-- `BucketIndex::new`: `(NUM_BUCKETS - leading_zeros).checked_sub(1)`. A
`BucketIndex` is a number below `NUM_BUCKETS`. -/
def BucketIndex.new (d : Distance) : Option (Fin numBuckets) :=
  if h : 1 ≤ numBuckets - d.val.leadingZeros then
    some ⟨numBuckets - d.val.leadingZeros - 1, by unfold numBuckets at h ⊢; omega⟩
  else none

theorem fromBigEndian_toNat {bytes : List UInt8} (h : bytes.length = 32) :
    (U256.fromBigEndian bytes).toNat = Bytes.fromBeBytes bytes := by
  have hlt := Bytes.fromBeBytes_lt bytes
  rw [h] at hlt
  simp only [U256.fromBigEndian, BitVec.toNat_ofNat]
  exact Nat.mod_eq_of_lt (by simpa using hlt)

theorem fromBigEndian_raw_injective {a b : NodeId}
    (h : U256.fromBigEndian a.raw.toList = U256.fromBigEndian b.raw.toList) : a = b := by
  have hnat := congrArg BitVec.toNat h
  rw [fromBigEndian_toNat a.raw.length_toList, fromBigEndian_toNat b.raw.length_toList] at hnat
  have hl : a.raw.toList = b.raw.toList :=
    Bytes.fromBeBytes_injective (by rw [a.raw.length_toList, b.raw.length_toList]) hnat
  cases a with | mk ra => cases b with | mk rb =>
  cases ra with | mk la hla => cases rb with | mk lb hlb =>
  simp only at hl
  subst hl
  rfl

theorem distance_comm (a b : NodeId) : distance a b = distance b a := by
  simp only [distance, BitVec.xor_comm]

@[simp] theorem distance_self (a : NodeId) : distance a a = ⟨0#256⟩ := by
  simp [distance]

theorem distance_eq_zero_iff {a b : NodeId} : distance a b = ⟨0#256⟩ ↔ a = b := by
  constructor
  · intro h
    have h0 : U256.fromBigEndian a.raw.toList ^^^ U256.fromBigEndian b.raw.toList = 0#256 := by
      simpa [distance] using h
    exact fromBigEndian_raw_injective (by simpa [BitVec.xor_eq_zero_iff] using h0)
  · rintro rfl
    exact distance_self a

/-- The leading zeros of a nonzero 256-bit number are those above its highest
set bit. -/
theorem leadingZeros_eq_log2 {x : U256} (hx : x ≠ 0#256) :
    256 - x.leadingZeros = x.toNat.log2 + 1 := by
  have hlt : x.clz.toNat < 256 := by
    have := BitVec.lt_def.mp (BitVec.clz_lt_iff_ne_zero.mpr hx)
    simpa using this
  have hlo := BitVec.two_pow_sub_clz_le_toNat_of_ne_zero (by decide) hx
  have hhi := @BitVec.toNat_lt_two_pow_sub_clz 256 x
  have hne : x.toNat ≠ 0 := by simpa [BitVec.toNat_eq] using hx
  have hlog : x.toNat.log2 = 255 - x.clz.toNat := by
    rw [Nat.log2_eq_iff hne]
    refine ⟨hlo, ?_⟩
    have : 255 - x.clz.toNat + 1 = 256 - x.clz.toNat := by omega
    rwa [this]
  unfold U256.leadingZeros
  omega

theorem leadingZeros_le (x : U256) : x.leadingZeros ≤ 256 := by
  have h := BitVec.le_def.mp (@BitVec.clz_le 256 x)
  simpa [U256.leadingZeros] using h

@[simp] theorem leadingZeros_zero : U256.leadingZeros 0#256 = 256 := by
  simp [U256.leadingZeros]

/-- `BucketIndex::new` is the highest set bit of the distance; the zero
distance (the local key itself) has no bucket. -/
theorem bucketIndex_new_eq (d : Distance) :
    BucketIndex.new d = if h : d.val = 0#256 then none else
      some ⟨d.val.toNat.log2, by
        have := leadingZeros_eq_log2 h
        have := leadingZeros_le d.val
        unfold numBuckets
        omega⟩ := by
  unfold BucketIndex.new
  by_cases h : d.val = 0#256
  · simp [h, leadingZeros_zero, numBuckets]
  · have hl := leadingZeros_eq_log2 h
    have h1 : 1 ≤ numBuckets - d.val.leadingZeros := by unfold numBuckets; omega
    simp only [h1, h, dite_true, dite_false, Option.some.injEq, Fin.mk.injEq]
    unfold numBuckets
    omega

theorem bucketIndex_new_eq_none_iff {d : Distance} : BucketIndex.new d = none ↔ d.val = 0#256 := by
  rw [bucketIndex_new_eq]
  split <;> simp_all

/-- Every key but the local one has a bucket. -/
theorem exists_bucketIndex_new {a b : NodeId} (h : a ≠ b) :
    ∃ i, BucketIndex.new (distance a b) = some i := by
  apply Option.ne_none_iff_exists'.mp
  rw [Ne, bucketIndex_new_eq_none_iff]
  intro h0
  exact h (distance_eq_zero_iff.mp (by rw [← h0]))

theorem log2Distance_eq (a b : NodeId) :
    log2Distance a b =
      if (distance a b).val = 0#256 then none else some ((distance a b).val.toNat.log2 + 1) := by
  unfold log2Distance
  by_cases h : (distance a b).val = 0#256
  · simp [h, leadingZeros_zero]
  · simp [h, leadingZeros_eq_log2 h]

/-- The two index computations agree: a key is in bucket `i` exactly when its
log2 distance is `i + 1`. -/
theorem bucketIndex_new_eq_some_iff {a b : NodeId} {i : Fin numBuckets} :
    BucketIndex.new (distance a b) = some i ↔ log2Distance a b = some (i.val + 1) := by
  rw [bucketIndex_new_eq, log2Distance_eq]
  by_cases h : (distance a b).val = 0#256
  · simp [h]
  · simp only [h, dite_false, if_false, Option.some.injEq]
    constructor
    · rintro rfl
      rfl
    · intro hi
      exact Fin.ext (by simp at hi; omega)

/-- The local key has no bucket. -/
theorem bucketIndex_new_self (a : NodeId) : BucketIndex.new (distance a a) = none := by
  simp [bucketIndex_new_eq_none_iff]

/-- A key is at no log2 distance from itself. -/
@[simp] theorem log2Distance_self (a : NodeId) : log2Distance a a = none := by
  simp [log2Distance_eq]

/-- Only a key itself is at no log2 distance from it. -/
theorem log2Distance_eq_none_iff {a b : NodeId} : log2Distance a b = none ↔ a = b := by
  rw [log2Distance_eq, ← distance_eq_zero_iff]
  split
  · rename_i h
    simp only [true_iff]
    rw [← h]
  · rename_i h
    simp only [reduceCtorEq, false_iff]
    intro h'
    exact h (by rw [h'])

/-- A log2 distance lies in `[1, 256]`. -/
theorem log2Distance_bounds {a b : NodeId} {d : Nat} (h : log2Distance a b = some d) :
    1 ≤ d ∧ d ≤ 256 := by
  unfold log2Distance at h
  dsimp only at h
  split at h
  · cases h
  · cases h
    omega

end Discv5.Kbucket
