import Discv5.Kbucket.Guard
import Discv5.Kbucket.TableInvariant

/-!
# The IP filters

`src/kbucket/filter.rs`. `IpBucketFilter` and `IpTableFilter` let in a
record when fewer than `MAX_NODES_PER_SUBNET_BUCKET` (2), respectively
`MAX_NODES_PER_SUBNET_TABLE` (10), of the other records advertise an IPv4
address in its /24 subnet. Records are generic values; `ip4` reads the
IPv4 address of a record (`Enr::ip4`).

The bucket filter guards the subnet limit of a bucket (`FilterGuards`), so
the limit holds along every run of bucket operations. The table filter is
asked only by `insert_or_update` and `update_node`, against the nodes the
buckets hold at that moment: a node admitted as pending enters its bucket
later, by `apply_pending`, past the table's limit.
-/

namespace Discv5.Kbucket

open Rust

/-- `MAX_NODES_PER_SUBNET_TABLE`. -/
def maxNodesPerSubnetTable : Nat := 10

/-- `MAX_NODES_PER_SUBNET_BUCKET`. -/
def maxNodesPerSubnetBucket : Nat := 2

section IpFilter

variable {V : Type} [DecidableEq V] (ip4 : V → Option (Arr UInt8 4))

/-- The record advertises an IPv4 address in the /24 subnet of `ip`. -/
def inSubnet (ip : Arr UInt8 4) (v : V) : Bool :=
  match ip4 v with
  | some otherIp => otherIp.toList.take 3 = ip.toList.take 3
  | none => false

/-- The loop of `ip_filter` over the other records, with the count of
records of the subnet of `ip` so far. -/
def ipFilterLoop (value : V) (ip : Arr UInt8 4) (limit : Nat) : Nat → List V → Bool
  | _, [] => true
  | count, enr :: otherVals =>
    -- Ignore duplicates
    if enr = value then ipFilterLoop value ip limit count otherVals
    else
      let count := if inSubnet ip4 ip enr then count + 1 else count
      if limit ≤ count then false else ipFilterLoop value ip limit count otherVals

/-- `ip_filter`: a record without an IPv4 address has no restriction. -/
def ipFilter (valueToBeInserted : V) (otherVals : List V) (limit : Nat) : Bool :=
  match ip4 valueToBeInserted with
  | some ip => ipFilterLoop ip4 valueToBeInserted ip limit 0 otherVals
  | none => true

/-- `IpTableFilter`. -/
def ipTableFilter : Filter V := fun v otherVals => ipFilter ip4 v otherVals maxNodesPerSubnetTable

/-- `IpBucketFilter`. -/
def ipBucketFilter : Filter V := fun v otherVals => ipFilter ip4 v otherVals maxNodesPerSubnetBucket

/-- The loop counts the other records of the subnet, duplicates of the
record aside, and stops as soon as they reach the limit. -/
theorem ipFilterLoop_eq (value : V) (ip : Arr UInt8 4) (limit : Nat) :
    ∀ (count : Nat) (vs : List V), count < limit →
      ipFilterLoop ip4 value ip limit count vs =
        decide (count + vs.countP (fun e => e ≠ value && inSubnet ip4 ip e) < limit)
  | count, [], h => by simp [ipFilterLoop, h]
  | count, enr :: vs, h => by
    by_cases he : enr = value
    · simp [ipFilterLoop, he, ipFilterLoop_eq value ip limit count vs h]
    · by_cases hin : inSubnet ip4 ip enr = true
      · by_cases hl : limit ≤ count + 1
        · simp [ipFilterLoop, he, hin, hl]
          omega
        · rw [ipFilterLoop]
          simp only [he, hin, if_true, if_false, hl]
          rw [ipFilterLoop_eq value ip limit (count + 1) vs (by omega)]
          simp [he, hin, Nat.add_assoc, Nat.add_comm 1]
      · have hin' : inSubnet ip4 ip enr = false := by simpa using hin
        have hl : ¬limit ≤ count := by omega
        simp [ipFilterLoop, he, hin', hl, ipFilterLoop_eq value ip limit count vs h]

/-- The records of `vs` in the subnet of `ip`. -/
def subnetCount (ip : Arr UInt8 4) (vs : List V) : Nat := vs.countP (inSubnet ip4 ip)

omit [DecidableEq V] in
/-- A record in the subnet of `ip` has its own address in that subnet. -/
theorem inSubnet_congr {ip vip : Arr UInt8 4} {v : V} (hv : ip4 v = some vip)
    (hin : inSubnet ip4 ip v = true) (e : V) : inSubnet ip4 vip e = inSubnet ip4 ip e := by
  have hpre : vip.toList.take 3 = ip.toList.take 3 := by simpa [inSubnet, hv] using hin
  unfold inSubnet
  cases ip4 e with
  | none => rfl
  | some eip => simp [hpre]

/-- The IP filter with a positive limit guards the subnet limit. -/
theorem ipFilter_guards {limit : Nat} (hlimit : 0 < limit) :
    FilterGuards (fun v otherVals => ipFilter ip4 v otherVals limit)
      (fun vs => ∀ ip, subnetCount ip4 ip vs ≤ limit) where
  sublist hsub h ip := Nat.le_trans (hsub.countP_le) (h ip)
  perm hperm h ip := by
    rw [subnetCount, ← hperm.countP_eq]
    exact h ip
  accept := by
    intro v vs hv hf h ip
    rw [subnetCount, List.countP_cons]
    by_cases hin : inSubnet ip4 ip v = true
    · -- `v` has an address in the subnet, and the filter counted the subnet's other records
      obtain ⟨vip, hvip⟩ : ∃ vip, ip4 v = some vip := by
        cases hv4 : ip4 v with
        | none => simp [inSubnet, hv4] at hin
        | some vip => exact ⟨vip, rfl⟩
      have hloop := hf
      simp only [ipFilter, hvip] at hloop
      rw [ipFilterLoop_eq ip4 v vip limit 0 vs hlimit] at hloop
      have hcount : vs.countP (fun e => e ≠ v && inSubnet ip4 vip e) = subnetCount ip4 ip vs := by
        unfold subnetCount
        apply List.countP_congr
        intro e he
        have hne : e ≠ v := fun heq => hv (heq ▸ he)
        simp [hne, inSubnet_congr ip4 hvip hin e]
      rw [hcount] at hloop
      simp only [decide_eq_true_eq, Nat.zero_add] at hloop
      simp only [hin, if_true]
      unfold subnetCount at hloop
      omega
    · simpa [hin, subnetCount] using h ip

/-- Along every run of bucket operations from `KBucket::new` with the IP
bucket filter, whose records name their node's key, no /24 subnet has more
than `MAX_NODES_PER_SUBNET_BUCKET` nodes in the bucket. -/
theorem bucket_subnet_limit {κ : Type} [DecidableEq κ] (nodeId : V → κ)
    (pendingTimeout maxIncoming : Nat) (ops : List (BucketOp κ V))
    (hops : ∀ op ∈ ops, op.Keyed nodeId) :
    ∃ b, BucketOp.run (KBucket.new pendingTimeout maxIncoming (some (ipBucketFilter ip4))) ops =
        some b ∧
      ∀ ip, (b.nodes.filter fun n => inSubnet ip4 ip n.value).length ≤ maxNodesPerSubnetBucket := by
  have hk : (KBucket.new pendingTimeout maxIncoming (some (ipBucketFilter ip4)) : KBucket κ V).Keyed
      nodeId := ⟨by simp [KBucket.new], by simp [KBucket.new]⟩
  obtain ⟨b, hb, hq⟩ := BucketOp.run_guarded (ipFilter_guards ip4 (by decide))
    (KBucket.Inv.new pendingTimeout maxIncoming _) hk rfl (fun ip => by simp [KBucket.new, subnetCount])
    ops hops
  refine ⟨b, hb, fun ip => ?_⟩
  have := hq ip
  rw [subnetCount, List.countP_map] at this
  rwa [List.countP_eq_length_filter] at this

end IpFilter

/-- The record of node `n` at `10.0.0.n`, connected and outgoing. -/
def bucketSubnetNode (n : Nat) : Node Nat (Nat × Option (Arr UInt8 4)) :=
  ⟨n, (n, some ⟨[10, 0, 0, UInt8.ofNat n], rfl⟩), ⟨.outgoing, .connected⟩⟩

/-- Three nodes of `10.0.0.0/24` in turn, the first disconnected again, and
a fourth of another subnet. -/
def bucketSubnetRun : List (BucketOp Nat (Nat × Option (Arr UInt8 4))) :=
  [.insert (bucketSubnetNode 1) 0, .insert (bucketSubnetNode 2) 0, .insert (bucketSubnetNode 3) 0,
    .updateStatus 1 .disconnected none 0,
    .insert ⟨4, (4, some ⟨[10, 0, 1, 4], rfl⟩), ⟨.outgoing, .connected⟩⟩ 0]

/-- The run reaches the limit of `10.0.0.0/24`, refuses the third node of it,
and keeps the limit for every subnet. -/
theorem bucket_subnet_limit_bucketSubnetRun :
    (∀ op ∈ bucketSubnetRun, op.Keyed Prod.fst) ∧
      ((BucketOp.run (KBucket.new 60 maxNodesPerBucket (some (ipBucketFilter Prod.snd))) bucketSubnetRun).map
        fun b => (b.nodes.map Node.key, (b.nodes.filter fun n => inSubnet Prod.snd ⟨[10, 0, 0, 0], rfl⟩ n.value).length)) =
        some ([1, 2, 4], 2) ∧
      ∃ b, BucketOp.run (KBucket.new 60 maxNodesPerBucket (some (ipBucketFilter Prod.snd))) bucketSubnetRun = some b ∧
        ∀ ip, (b.nodes.filter fun n => inSubnet Prod.snd ip n.value).length ≤ maxNodesPerSubnetBucket := by
  have hops : ∀ op ∈ bucketSubnetRun, op.Keyed Prod.fst := by
    simp [bucketSubnetRun, bucketSubnetNode, BucketOp.Keyed]
  exact ⟨hops, by decide, bucket_subnet_limit Prod.snd Prod.fst 60 maxNodesPerBucket _ hops⟩

/-! ## The table limit is not kept -/

/-- The IPv4 address of a record of the run below, a node id and an address. -/
def recordIp4 (r : NodeId × Arr UInt8 4) : Option (Arr UInt8 4) := some r.2

/-- `insert_or_update` of the record of node `n` at address `ip`. -/
def insertRecord (n : Nat) (ip : Arr UInt8 4) (state : ConnectionState) :
    TableOp (NodeId × Arr UInt8 4) :=
  .insertOrUpdate (nodeIdOfNat n) (nodeIdOfNat n, ip) ⟨.outgoing, state⟩ 0

/-- A run around the local key zero, where the bucket of node `n` is
`log2 n`: sixteen disconnected nodes of distinct subnets fill bucket 5,
nine nodes of 10.0.0.0/24 go to buckets 6 to 10, a tenth waits as pending in
bucket 5, an eleventh enters bucket 10, and a table iteration after the
pending timeout applies the pending node. -/
def subnetRun : List (TableOp (NodeId × Arr UInt8 4)) :=
  (List.range 16).map (fun i => insertRecord (32 + i) ⟨[UInt8.ofNat (100 + i), 0, 0, 1], rfl⟩ .disconnected) ++
    [64, 65, 128, 129, 256, 257, 512, 513, 1024].map
      (fun n => insertRecord n ⟨[10, 0, 0, UInt8.ofNat n], rfl⟩ .connected) ++
    [insertRecord 48 ⟨[10, 0, 0, 48], rfl⟩ .connected,
      insertRecord 1025 ⟨[10, 0, 0, 1], rfl⟩ .connected,
      .iter 1]

/-- With both IP filters, the run above leaves eleven nodes of one /24
subnet in the table, past `MAX_NODES_PER_SUBNET_TABLE`. -/
theorem table_subnet_limit_exceeded :
    (TableOp.run (KBucketsTable.new KBucketsTable.zeroNodeId 1 maxNodesPerBucket (some (ipTableFilter recordIp4))
        (some (ipBucketFilter recordIp4))) subnetRun).map
      (fun t => t.tableIter.countP (inSubnet recordIp4 ⟨[10, 0, 0, 0], rfl⟩)) = some 11 := by
  decide +kernel

end Discv5.Kbucket
