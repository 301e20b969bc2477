import Discv5.Kbucket.Bucket
import Discv5.Kbucket.Key

/-!
# KBucketsTable — the routing table

`src/kbucket.rs` and `src/kbucket/entry.rs`: 256 buckets indexed by the
highest set bit of the XOR distance from the local key, a queue of applied
pending records, and an optional table-wide filter. Every accessor first
applies the pending node of the bucket it touches, pushing the applied record
onto the queue.

The buckets are a function from `Fin NUM_BUCKETS`; the `VecDeque` is a list
(`push_back` appends, `pop_front` takes the head). Results that the source
returns through references (`EntryRefView`) are the nodes themselves. Each
function returns `none` where it, or a bucket function it calls, reaches an
`unreachable!` or an out-of-range index.
-/

namespace Discv5.Kbucket

open Rust

variable {V : Type} [DecidableEq V]

/-- The result of `KBucketsTable::insert_or_update`. -/
inductive TableInsertResult where
  | inserted
  | pending (disconnected : NodeId)
  | statusUpdated (promotedToConnected : Bool)
  | valueUpdated
  | updated (promotedToConnected : Bool)
  | updatedPending
  | failed (reason : FailureReason)
  deriving DecidableEq

structure KBucketsTable (V : Type) where
  localKey : NodeId
  buckets : Fin numBuckets → KBucket NodeId V
  appliedPending : List (AppliedPending NodeId V)
  tableFilter : Option (Filter V)

namespace KBucket

/-- `KBucket::status`: the status at a position, the worst status when absent. -/
def status (b : KBucket NodeId V) (pos : Nat) : NodeStatus :=
  match b.nodes[pos]? with
  | some node => node.status
  | none => ⟨.incoming, .disconnected⟩

/-- `KBucket::as_pending`. -/
def asPending (b : KBucket NodeId V) (key : NodeId) : Option (PendingNode NodeId V) :=
  b.pending.filter fun p => decide (p.node.key = key)

end KBucket

namespace KBucketsTable

/-- `KBucketsTable::new`. -/
def new (localKey : NodeId) (pendingTimeout maxIncomingPerBucket : Nat)
    (tableFilter bucketFilter : Option (Filter V)) : KBucketsTable V :=
  ⟨localKey, fun _ => KBucket.new pendingTimeout maxIncomingPerBucket bucketFilter, [], tableFilter⟩

/-- `BucketIndex::new(&self.local_key.distance(key))`. -/
def bucketIndex (t : KBucketsTable V) (key : NodeId) : Option (Fin numBuckets) :=
  BucketIndex.new (distance t.localKey key)

/-- Replaces bucket `i`. -/
def setBucket (t : KBucketsTable V) (i : Fin numBuckets) (b : KBucket NodeId V) :
    KBucketsTable V :=
  { t with buckets := Function.update t.buckets i b }

/-- `if let Some(applied) = bucket.apply_pending() { self.applied_pending.push_back(applied) }`,
which every accessor runs on the bucket it touches. -/
def applyPendingAt (t : KBucketsTable V) (i : Fin numBuckets) (now : Nat) :
    Option (KBucketsTable V) := do
  let (applied, b) ← (t.buckets i).applyPending now
  pure { t.setBucket i b with appliedPending := t.appliedPending ++ applied.toList }

/-- `KBucketsTable::table_iter`: the values of all buckets, without applying
pending nodes. -/
def tableIter (t : KBucketsTable V) : List V :=
  (List.finRange numBuckets).flatMap fun i => (t.buckets i).nodes.map (·.value)

/-- Whether the table filter lets `value` in (the `duplicate` optimisation
included): `passed_table_filter` of `update_node` and `insert_or_update`. -/
def passedTableFilter (t : KBucketsTable V) (key : NodeId) (value : V) : Bool :=
  match t.tableFilter with
  | none => true
  | some tableFilter =>
    let duplicate :=
      match t.bucketIndex key with
      | some i =>
        match (t.buckets i).get key with
        | some node => decide (node.value = value)
        | none => false
      | none => false
    !(!duplicate && !tableFilter value t.tableIter)

/-- `KBucketsTable::update_node_status`. -/
def updateNodeStatus (t : KBucketsTable V) (key : NodeId) (state : ConnectionState)
    (direction : Option ConnectionDirection) (now : Nat) :
    Option (UpdateResult × KBucketsTable V) :=
  match t.bucketIndex key with
  | some i => do
    let t ← t.applyPendingAt i now
    let (r, b) ← (t.buckets i).updateStatus key state direction now
    pure (r, t.setBucket i b)
  | none => pure (.notModified, t)

/-- The result of `update_node` from the value and status updates. -/
def updateNodeResult (updateResult statusResult : UpdateResult) : UpdateResult :=
  match updateResult, statusResult with
  | _, .failed _ => statusResult
  | .failed _, _ => updateResult
  | _, .updatedAndPromoted => .updatedAndPromoted
  | .updatedPending, _ => .updatedPending
  | _, .updatedPending => .updatedPending
  | .notModified, .notModified => .notModified
  | _, _ => .updated

/-- `KBucketsTable::update_node`. -/
def updateNode (t : KBucketsTable V) (key : NodeId) (value : V) (state : Option ConnectionState)
    (now : Nat) : Option (UpdateResult × KBucketsTable V) :=
  let passed := t.passedTableFilter key value
  match t.bucketIndex key with
  | some i => do
    let t ← t.applyPendingAt i now
    if !passed then
      let (_, b) ← (t.buckets i).remove key now
      pure (.failed .tableFilter, t.setBucket i b)
    else
      let (updateResult, b) ← (t.buckets i).updateValue key value
      if updateResult.failed? then pure (updateResult, t.setBucket i b)
      else
        let (statusResult, b) ← match state with
          | some state => b.updateStatus key state none now
          | none => pure (.notModified, b)
        pure (updateNodeResult updateResult statusResult, t.setBucket i b)
  | none => pure (.notModified, t)

/-- The result of `insert_or_update` for a node already present, from the
value and status updates; `none` for the two `unreachable!` arms. -/
def insertOrUpdateResult (updateValue updateStatus : UpdateResult) :
    Option TableInsertResult :=
  match updateValue, updateStatus with
  | .updated, .updated => some (.updated false)
  | .updated, .updatedAndPromoted => some (.updated true)
  | .updated, .notModified | .updated, .updatedPending => some .valueUpdated
  | .notModified, .updated => some (.statusUpdated false)
  | .notModified, .updatedAndPromoted => some (.statusUpdated true)
  | .notModified, .notModified => some (.updated false)
  | .updatedPending, _ | _, .updatedPending => some .updatedPending
  | .failed reason, _ => some (.failed reason)
  -- "Status failure handled earlier."
  | _, .failed _ => none
  -- "Value update cannot promote a connection."
  | .updatedAndPromoted, _ => none

/-- `KBucketsTable::insert_or_update`. -/
def insertOrUpdate (t : KBucketsTable V) (key : NodeId) (value : V) (status : NodeStatus)
    (now : Nat) : Option (TableInsertResult × KBucketsTable V) :=
  let passed := t.passedTableFilter key value
  match t.bucketIndex key with
  | some i => do
    let t ← t.applyPendingAt i now
    let bucket := t.buckets i
    if !passed then
      let (_, b) ← bucket.remove key now
      pure (.failed .tableFilter, t.setBucket i b)
    else if (bucket.position key).isNone then
      match bucket.insert ⟨key, value, status⟩ now with
      -- "Node must exist"
      | (.nodeExists, _) => none
      | (.full, b) => pure (.failed .bucketFull, t.setBucket i b)
      | (.tooManyIncoming, b) => pure (.failed .tooManyIncoming, t.setBucket i b)
      | (.failedFilter, b) => pure (.failed .bucketFilter, t.setBucket i b)
      | (.pending disconnected, b) => pure (.pending disconnected, t.setBucket i b)
      | (.inserted, b) => pure (.inserted, t.setBucket i b)
    else
      let (updateStatus, b) ← bucket.updateStatus key status.state (some status.direction) now
      -- The node was removed from the table.
      if updateStatus.failed? then pure (.failed .tooManyIncoming, t.setBucket i b)
      else
        let (updateValue, b) ← b.updateValue key value
        let r ← insertOrUpdateResult updateValue updateStatus
        pure (r, t.setBucket i b)
  -- Cannot insert our local entry.
  | none => pure (.failed .invalidSelfUpdate, t)

/-- `KBucketsTable::remove`. -/
def remove (t : KBucketsTable V) (key : NodeId) (now : Nat) : Option (Bool × KBucketsTable V) :=
  match t.bucketIndex key with
  | some i => do
    let t ← t.applyPendingAt i now
    let (r, b) ← (t.buckets i).remove key now
    pure (r, t.setBucket i b)
  | none => pure (false, t)

/-- The operation a caller performs on the `Entry` that `KBucketsTable::entry`
returned: `PresentEntry::update`/`remove`, `PendingEntry::update`/`remove`,
`AbsentEntry::insert`. -/
inductive EntryOp (V : Type) where
  | presentUpdate (state : ConnectionState) (direction : Option ConnectionDirection)
  | presentRemove
  | pendingUpdate (status : NodeStatus)
  | pendingRemove
  | absentInsert (value : V) (status : NodeStatus)

/-- The `Entry` API call `op` on `Entry::new(bucket, key)` for bucket `i`,
at the instant `now` its calls to the bucket read: performed when the entry
has the kind `op` is for (otherwise the caller cannot perform it). -/
def applyEntryOp (t : KBucketsTable V) (i : Fin numBuckets) (key : NodeId) (op : EntryOp V)
    (now : Nat) : Option (KBucketsTable V) :=
  let bucket := t.buckets i
  match bucket.position key, bucket.asPending key, op with
  | some _, _, .presentUpdate state direction => do
    let (_, b) ← bucket.updateStatus key state direction now
    pure (t.setBucket i b)
  | some _, _, .presentRemove => do
    let (_, b) ← bucket.remove key now
    pure (t.setBucket i b)
  | none, some _, .pendingUpdate status => pure (t.setBucket i (bucket.updatePending status))
  | none, some _, .pendingRemove => do
    let (_, b) ← bucket.remove key now
    pure (t.setBucket i b)
  | none, none, .absentInsert value status =>
    pure (t.setBucket i (bucket.insert ⟨key, value, status⟩ now).2)
  | _, _, _ => pure t

/-- `KBucketsTable::entry(key)` and `Entry::new`, followed by the operation
`op` at the same instant. -/
def entry (t : KBucketsTable V) (key : NodeId) (op : EntryOp V) (now : Nat) :
    Option (KBucketsTable V) :=
  match t.bucketIndex key with
  | some i => do
    let t ← t.applyPendingAt i now
    t.applyEntryOp i key op now
  -- `Entry::SelfEntry`
  | none => pure t

/-- `KBucketsTable::iter`, consumed: applies the pending node of every bucket
in order and yields all nodes. -/
def iter (t : KBucketsTable V) (now : Nat) : Option (List (Node NodeId V) × KBucketsTable V) :=
  (List.finRange numBuckets).foldlM (fun (acc, t) i => do
    let t ← t.applyPendingAt i now
    pure (acc ++ (t.buckets i).nodes, t)) ([], t)

/-- The first loop of `nodes_by_distances`: applies pending nodes bucket by
bucket, stopping once the buckets where a node was applied hold `max_nodes`
nodes. -/
def applyPendingForDistances (maxNodes now : Nat) :
    KBucketsTable V → Nat → List Nat → Option (KBucketsTable V)
  | t, _, [] => some t
  | t, nodeCount, distance :: distances =>
    if h : distance - 1 < numBuckets then
      let i : Fin numBuckets := ⟨distance - 1, h⟩
      match (t.buckets i).applyPending now with
      | none => none
      | some (some applied, b) =>
        let t := { t.setBucket i b with appliedPending := t.appliedPending ++ [applied] }
        let nodeCount := nodeCount + b.nodes.length
        if maxNodes ≤ nodeCount then some t
        else applyPendingForDistances maxNodes now t nodeCount distances
      | some (none, b) => applyPendingForDistances maxNodes now (t.setBucket i b) nodeCount distances
    -- `self.buckets[(distance - 1) as usize]` out of range
    else none

/-- The inner loop of the second loop of `nodes_by_distances`: pushes the
nodes of one bucket, returning early (`true`) once `max_nodes` are found. -/
def pushMatchingNodes (maxNodes : Nat) :
    List (Node NodeId V) → List (Node NodeId V) → List (Node NodeId V) × Bool
  | matching, [] => (matching, false)
  | matching, node :: nodes =>
    let matching := matching ++ [node]
    if maxNodes ≤ matching.length then (matching, true)
    else pushMatchingNodes maxNodes matching nodes

/-- The second loop of `nodes_by_distances`: the nodes of the buckets in the
order of the distances. -/
def findMatchingNodes (t : KBucketsTable V) (maxNodes : Nat) :
    List (Node NodeId V) → List Nat → Option (List (Node NodeId V))
  | matching, [] => some matching
  | matching, distance :: distances =>
    if h : distance - 1 < numBuckets then
      match pushMatchingNodes maxNodes matching (t.buckets ⟨distance - 1, h⟩).nodes with
      | (matching, true) => some matching
      | (matching, false) => findMatchingNodes t maxNodes matching distances
    else none

/-- `KBucketsTable::nodes_by_distances`. -/
def nodesByDistances (t : KBucketsTable V) (log2Distances : List Nat) (maxNodes now : Nat) :
    Option (List (Node NodeId V) × KBucketsTable V) := do
  -- Filter log2 distances to only include those in the closed interval [1, 256]
  let distances := log2Distances.filter fun d => 0 < d && d ≤ numBuckets
  let t ← applyPendingForDistances maxNodes now t 0 distances
  let matching ← findMatchingNodes t maxNodes [] distances
  pure (matching, t)

/-- `KBucketsTable::take_applied_pending`. -/
def takeAppliedPending (t : KBucketsTable V) : Option (AppliedPending NodeId V) × KBucketsTable V :=
  match t.appliedPending with
  | [] => (none, t)
  | a :: rest => (some a, { t with appliedPending := rest })

end KBucketsTable

end Discv5.Kbucket
