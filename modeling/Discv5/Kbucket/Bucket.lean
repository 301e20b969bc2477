import Mathlib

/-!
# KBucket — one bucket of the routing table

`src/kbucket/bucket.rs`: a bucket holds up to `MAX_NODES_PER_BUCKET`
nodes ordered from least-recently to most-recently connected, with the
disconnected nodes first. `first_connected_pos` caches the index of the
first connected node, and a single pending node waits to replace the
least-recently connected node of a full bucket once its timeout has
passed.

The model follows the source function by function. Keys and values are
generic (`κ`, `V`); time is a natural number of ticks, passed explicitly
where the source calls `Instant::now()`. The filter is the bucket's
`Option<Box<dyn Filter<TVal>>>`: a function of the value to insert and the
values already in the bucket.

A call that reaches an `unreachable!` (or `Vec::remove` out of range)
returns `none`: the functions that contain one return an `Option`.
-/

namespace Discv5.Kbucket

/-- Maximum number of nodes in a bucket, i.e. the (fixed) `k` parameter. -/
def maxNodesPerBucket : Nat := 16

/-- How we connected to the node (`ConnectionDirection` of the handler). -/
inductive ConnectionDirection where
  | incoming
  | outgoing
  deriving DecidableEq, Repr

/-- The connection state of a node. -/
inductive ConnectionState where
  | connected
  | disconnected
  deriving DecidableEq, Repr

/-- The status of a node in a bucket: the direction of its (last)
connection and whether it is connected. -/
structure NodeStatus where
  direction : ConnectionDirection
  state : ConnectionState
  deriving DecidableEq, Repr

def NodeStatus.isConnected (s : NodeStatus) : Bool :=
  match s.state with
  | .connected => true
  | .disconnected => false

def NodeStatus.isIncoming (s : NodeStatus) : Bool :=
  match s.direction with
  | .outgoing => false
  | .incoming => true

variable {κ V : Type} [DecidableEq κ] [DecidableEq V]

/-- A node in a bucket: its key, its value and its status. -/
structure Node (κ V : Type) where
  key : κ
  value : V
  status : NodeStatus
  deriving DecidableEq

/-- A node pending insertion, and the instant from which it may replace a node. -/
structure PendingNode (κ V : Type) where
  node : Node κ V
  replace : Nat
  deriving DecidableEq

/-- A bucket filter: given the value to insert and the values already in the
bucket, whether the value may enter. -/
abbrev Filter (V : Type) := V → List V → Bool

structure KBucket (κ V : Type) where
  nodes : List (Node κ V)
  firstConnectedPos : Option Nat
  pending : Option (PendingNode κ V)
  pendingTimeout : Nat
  filter : Option (Filter V)
  maxIncoming : Nat

/-- The result of inserting an entry into a bucket. -/
inductive InsertResult (κ : Type) where
  | inserted
  | pending (disconnected : κ)
  | failedFilter
  | tooManyIncoming
  | full
  | nodeExists
  deriving DecidableEq, Repr

/-- A reason for failing to update or insert a node into the bucket. -/
inductive FailureReason where
  | tooManyIncoming
  | bucketFilter
  | tableFilter
  | keyNonExistent
  | bucketFull
  | invalidSelfUpdate
  deriving DecidableEq, Repr

/-- The result of performing an update on a kbucket/table. -/
inductive UpdateResult where
  | updated
  | updatedAndPromoted
  | updatedPending
  | failed (reason : FailureReason)
  | notModified
  deriving DecidableEq, Repr

def UpdateResult.failed? : UpdateResult → Bool
  | .failed _ => true
  | _ => false

/-- The result of applying a pending node to a bucket, possibly replacing an
existing node. -/
structure AppliedPending (κ V : Type) where
  inserted : κ
  evicted : Option (Node κ V)
  deriving DecidableEq

namespace KBucket

/-- `KBucket::new`. -/
def new (pendingTimeout maxIncoming : Nat) (filter : Option (Filter V)) : KBucket κ V :=
  ⟨[], none, none, pendingTimeout, filter, maxIncoming⟩

/-- `KBucket::position`: the index of the node with the given key. -/
def position (b : KBucket κ V) (key : κ) : Option Nat :=
  b.nodes.findIdx? (fun n => decide (n.key = key))

/-- `KBucket::get`. -/
def get (b : KBucket κ V) (key : κ) : Option (Node κ V) :=
  b.nodes.find? (fun n => decide (n.key = key))

/-- `ArrayVec::is_full`. -/
def isFull (b : KBucket κ V) : Bool :=
  b.nodes.length == maxNodesPerBucket

/-- The nodes that are connected and incoming. -/
def numIncoming (nodes : List (Node κ V)) : Nat :=
  (nodes.filter fun n => n.status.isConnected && n.status.isIncoming).length

/-- `KBucket::is_max_incoming`. -/
def isMaxIncoming (b : KBucket κ V) : Bool :=
  decide (b.maxIncoming ≤ numIncoming b.nodes)

/-- The bucket filter applied to `value` against the nodes of the bucket
(no filter admits everything). -/
def passesFilter (b : KBucket κ V) (value : V) : Bool :=
  match b.filter with
  | none => true
  | some f => f value (b.nodes.map (·.value))

/-- `KBucket::num_connected`. -/
def numConnected (b : KBucket κ V) : Nat :=
  b.firstConnectedPos.elim 0 (fun i => b.nodes.length - i)

/-- `KBucket::update_first_connected_pos_for_removal`, called after the node at
`removedPos` has been removed. -/
def updateFirstConnectedPosForRemoval (b : KBucket κ V) (removedPos : Nat) : KBucket κ V :=
  { b with firstConnectedPos := b.firstConnectedPos.bind fun fcp =>
      if removedPos < fcp then some (fcp - 1)
      else if fcp < b.nodes.length then some fcp else none }

/-- `KBucket::insert`. A connected node goes to the end of the bucket; a
disconnected node goes before the first connected node. A connected node
that finds the bucket full becomes the pending node (replacing at
`now + pending_timeout`) if no node is pending and some node is
disconnected. -/
def insert (b : KBucket κ V) (node : Node κ V) (now : Nat) : InsertResult κ × KBucket κ V :=
  if (b.position node.key).isSome then (.nodeExists, b)
  else if !b.passesFilter node.value then (.failedFilter, b)
  else
    let insertingPending := (b.pending.map fun p => decide (p.node.key = node.key)).getD false
    -- If we inserted the node, make sure there is no pending node of the same key.
    let clearPending (b' : KBucket κ V) : KBucket κ V :=
      if insertingPending then { b' with pending := none } else b'
    match node.status.state with
    | .connected =>
      if node.status.isIncoming && b.isMaxIncoming then (.tooManyIncoming, b)
      else if h : b.nodes.length = maxNodesPerBucket then
        if b.firstConnectedPos = some 0 || b.pending.isSome then (.full, b)
        else
          have h0 : 0 < b.nodes.length := by rw [h]; decide
          (.pending b.nodes[0].key,
            { b with pending := some ⟨node, now + b.pendingTimeout⟩ })
      else
        (.inserted, clearPending { b with
          firstConnectedPos := b.firstConnectedPos.or (some b.nodes.length)
          nodes := b.nodes ++ [node] })
    | .disconnected =>
      if b.isFull then (.full, b)
      else
        match b.firstConnectedPos with
        | some fcp =>
          (.inserted, clearPending { b with
            nodes := b.nodes.insertIdx fcp node
            firstConnectedPos := some (fcp + 1) })
        | none => (.inserted, clearPending { b with nodes := b.nodes ++ [node] })

/-- `KBucket::apply_pending`: inserts the pending node, if its timeout has
elapsed at `now`, replacing the least-recently connected node of a full
bucket. Returns the applied pending record (if a node was inserted). -/
def applyPending (b : KBucket κ V) (now : Nat) : Option (Option (AppliedPending κ V) × KBucket κ V) :=
  match b.pending with
  | none => some (none, b)
  | some pending =>
    -- `self.pending.take()`
    let b : KBucket κ V := { b with pending := none }
    if pending.replace ≤ now then
      if h : b.nodes.length = maxNodesPerBucket then
        have h0 : 0 < b.nodes.length := by rw [h]; decide
        let first := b.nodes[0]
        -- The bucket is full with connected nodes. Drop the pending node.
        if first.status.isConnected then some (none, b)
        -- The pending node doesn't satisfy the bucket filter.
        else if !b.passesFilter pending.node.value then some (none, b)
        else if pending.node.status.isConnected && pending.node.status.isIncoming &&
            b.isMaxIncoming then some (none, b)
        else
          let applied : AppliedPending κ V := ⟨pending.node.key, some first⟩
          if pending.node.status.isConnected then
            -- A connected pending node goes at the end of the list for the connected peers.
            some (some applied, { b with
              nodes := b.nodes.tail ++ [pending.node]
              firstConnectedPos :=
                b.firstConnectedPos.elim (some b.nodes.tail.length) fun p =>
                  if 1 ≤ p then some (p - 1) else none })
          else
            match b.firstConnectedPos with
            | some p =>
              -- A disconnected pending node goes at the end of the disconnected peers.
              if 1 ≤ p then
                some (some applied, { b with nodes := b.nodes.tail.insertIdx (p - 1) pending.node })
              else some (none, b)
            | none =>
              -- All nodes are disconnected: the new node is the most recently disconnected.
              some (some applied, { b with nodes := b.nodes.tail ++ [pending.node] })
      else
        -- There is room in the bucket, so just insert the pending node.
        match b.insert pending.node now with
        | (.inserted, b') => some (some ⟨pending.node.key, none⟩, b')
        | (.full, _) => none
        | (_, b') => some (none, b')
    else some (none, { b with pending := some pending })

/-- `KBucket::update_pending`. -/
def updatePending (b : KBucket κ V) (status : NodeStatus) : KBucket κ V :=
  { b with pending := b.pending.map fun p => { p with node := { p.node with status } } }

/-- The adjustment of `first_connected_pos` in `update_status` once the node at
`pos`, whose state was `oldState`, has been removed (leaving `len` nodes). -/
def adjustFirstConnectedPos (b : KBucket κ V) (pos : Nat) (oldState : ConnectionState)
    (len : Nat) : Option Nat :=
  match oldState with
  | .connected =>
    -- It was the last connected node.
    if b.firstConnectedPos = some pos ∧ pos = len then none else b.firstConnectedPos
  | .disconnected => b.firstConnectedPos.bind fun p => if 1 ≤ p then some (p - 1) else none

/-- `KBucket::update_status`: removes the node and reinserts it with the new
status, which puts it at the end of the disconnected prefix or of the
connected suffix. -/
def updateStatus (b : KBucket κ V) (key : κ) (state : ConnectionState)
    (direction : Option ConnectionDirection) (now : Nat) : Option (UpdateResult × KBucket κ V) :=
  match b.position key with
  | some pos =>
    match b.nodes[pos]? with
    | none => none
    | some node =>
      let nodes := b.nodes.eraseIdx pos
      let oldStatus := node.status
      let status : NodeStatus := ⟨direction.getD oldStatus.direction, state⟩
      let notModified := decide (oldStatus = status)
      let isConnected := decide (state = .connected)
      let firstConnectedPos := b.adjustFirstConnectedPos pos oldStatus.state nodes.length
      -- If the least-recently connected node re-establishes its connected status, drop the
      -- pending node.
      let pending := if pos = 0 ∧ isConnected then none else b.pending
      let b1 : KBucket κ V := { b with nodes, firstConnectedPos, pending }
      match b1.insert { node with status } now with
      | (.inserted, b2) =>
        some (if notModified then .notModified
          else if !oldStatus.isConnected && isConnected then .updatedAndPromoted
          else .updated, b2)
      | (.tooManyIncoming, b2) => some (.failed .tooManyIncoming, b2)
      | (.failedFilter, b2) => some (.failed .bucketFilter, b2)
      | (.nodeExists, _) => none
      | (.full, _) => none
      | (.pending _, _) => none
  | none =>
    match b.pending with
    | some p =>
      if p.node.key = key then
        some (.updatedPending, { b with pending := some { p with node := { p.node with
          status := ⟨direction.getD p.node.status.direction, state⟩ } } })
      else some (.failed .keyNonExistent, b)
    | none => some (.failed .keyNonExistent, b)

/-- `KBucket::update_value`: replaces the value of a node in place, removing
the node if the new value fails the bucket filter. -/
def updateValue (b : KBucket κ V) (key : κ) (value : V) : Option (UpdateResult × KBucket κ V) :=
  match b.position key with
  | some pos =>
    match b.nodes[pos]? with
    | none => none
    | some node =>
      let b1 : KBucket κ V := { b with nodes := b.nodes.eraseIdx pos }
      if node.value = value then some (.notModified, b)
      else if !b1.passesFilter value then
        -- Node is removed, update the `first_connected_pos` accordingly.
        some (.failed .bucketFilter, b1.updateFirstConnectedPosForRemoval pos)
      else some (.updated, { b with nodes := b.nodes.set pos { node with value } })
  | none =>
    match b.pending with
    | some p =>
      if p.node.key = key then
        some (.updatedPending, { b with pending := some { p with node := { p.node with value } } })
      else some (.failed .keyNonExistent, b)
    | none => some (.failed .keyNonExistent, b)

/-- `KBucket::remove`: removes the node and applies the pending node; the
applied record is dropped. -/
def remove (b : KBucket κ V) (key : κ) (now : Nat) : Option (Bool × KBucket κ V) :=
  match b.position key with
  | some pos =>
    let b1 := ({ b with nodes := b.nodes.eraseIdx pos } : KBucket κ V).updateFirstConnectedPosForRemoval pos
    (b1.applyPending now).map fun r => (true, r.2)
  | none => some (false, b)

end KBucket

end Discv5.Kbucket
