import Mathlib
import Discv5.Kbucket.Bucket
import Discv5.Lib.Boundary

/-!
# The representation invariant of a bucket

`KBucket.Inv` is what the source's `check_invariants` test asserts, and what
the `unreachable!` branches of `update_status` and `apply_pending` rely on:
the cached `first_connected_pos` is exact (disconnected nodes first, then
connected ones, as a `List.Boundary`), the connected incoming nodes are
within `max_incoming`, the keys are distinct, the bucket holds at most
`MAX_NODES_PER_BUCKET` nodes, and the pending node is not in the bucket.

Each operation gets a step lemma (it returns, and keeps `Inv`), and
`BucketOp.run_inv` carries the invariant along any sequence of operations.
-/

namespace Discv5.Kbucket

variable {κ V : Type}

/-- The nodes `is_max_incoming` counts. -/
def Node.isConnectedIncoming (n : Node κ V) : Bool :=
  n.status.isConnected && n.status.isIncoming

namespace KBucket

theorem numIncoming_eq_countP (nodes : List (Node κ V)) :
    numIncoming nodes = nodes.countP Node.isConnectedIncoming := by
  rw [numIncoming, List.countP_eq_length_filter]
  rfl

theorem numIncoming_perm {l₁ l₂ : List (Node κ V)} (h : l₁.Perm l₂) :
    numIncoming l₁ = numIncoming l₂ := by
  simp only [numIncoming_eq_countP, h.countP_eq]

theorem numIncoming_cons (n : Node κ V) (l : List (Node κ V)) :
    numIncoming (n :: l) = numIncoming l + if n.isConnectedIncoming then 1 else 0 := by
  simp only [numIncoming_eq_countP, List.countP_cons]

theorem numIncoming_cons_of_disconnected {n : Node κ V} (hn : n.status.isConnected = false)
    (l : List (Node κ V)) : numIncoming (n :: l) = numIncoming l := by
  simp [numIncoming_cons, Node.isConnectedIncoming, hn]

theorem numIncoming_sublist {l₁ l₂ : List (Node κ V)} (h : l₁.Sublist l₂) :
    numIncoming l₁ ≤ numIncoming l₂ := by
  simp only [numIncoming_eq_countP]
  exact h.countP_le

theorem isMaxIncoming_eq_false_iff {b : KBucket κ V} :
    b.isMaxIncoming = false ↔ numIncoming b.nodes < b.maxIncoming := by
  simp [isMaxIncoming]

/-- Adding one node raises the incoming count by at most one, and not at
all when the node is not connected and incoming. -/
theorem numIncoming_add_le {node : Node κ V} {l l₀ : List (Node κ V)} {m : Nat}
    (hperm : l.Perm (node :: l₀)) (hmax : node.isConnectedIncoming = true → numIncoming l₀ < m)
    (hle : numIncoming l₀ ≤ m) : numIncoming l ≤ m := by
  rw [numIncoming_perm hperm, numIncoming_cons]
  cases hc : node.isConnectedIncoming
  · simpa using hle
  · have hlt := hmax hc
    simp only [if_true]
    omega

theorem position_eq_some [DecidableEq κ] {b : KBucket κ V} {k : κ} {pos : Nat}
    (h : b.position k = some pos) : ∃ hp : pos < b.nodes.length, b.nodes[pos].key = k := by
  rw [position, List.findIdx?_eq_some_iff_getElem] at h
  obtain ⟨hp, hk, -⟩ := h
  exact ⟨hp, by simpa using hk⟩

theorem position_eq_none_iff [DecidableEq κ] {b : KBucket κ V} {k : κ} :
    b.position k = none ↔ k ∉ b.nodes.map (·.key) := by
  simp [position, List.findIdx?_eq_none_iff]

/-- The representation invariant of a bucket. -/
structure Inv (b : KBucket κ V) : Prop where
  boundary : b.nodes.Boundary (fun n => n.status.isConnected) b.firstConnectedPos
  incoming_le : numIncoming b.nodes ≤ b.maxIncoming
  nodup : (b.nodes.map (·.key)).Nodup
  length_le : b.nodes.length ≤ maxNodesPerBucket
  pending_fresh : ∀ p, b.pending = some p → p.node.key ∉ b.nodes.map (·.key)

theorem Inv.new (pendingTimeout maxIncoming : Nat) (filter : Option (Filter V)) :
    (KBucket.new pendingTimeout maxIncoming filter : KBucket κ V).Inv :=
  ⟨List.Boundary.nil, by simp [KBucket.new, numIncoming], by simp [KBucket.new],
    by simp [KBucket.new, maxNodesPerBucket], by simp [KBucket.new]⟩

/-- `num_connected` counts the connected nodes. -/
theorem Inv.numConnected_eq {b : KBucket κ V} (h : b.Inv) :
    b.numConnected = b.nodes.countP (fun n => n.status.isConnected) := by
  rw [h.boundary.countP_eq, numConnected]

theorem Inv.setPending {b : KBucket κ V} (h : b.Inv) {pending : Option (PendingNode κ V)}
    (hp : ∀ p, pending = some p → p.node.key ∉ b.nodes.map (·.key)) :
    ({ b with pending } : KBucket κ V).Inv :=
  ⟨h.boundary, h.incoming_le, h.nodup, h.length_le, hp⟩

/-- A fresh node added anywhere keeps the invariant, given where it went
(the boundary), that the incoming limit holds and that there was room. -/
theorem Inv.add {b : KBucket κ V} (h : b.Inv) {node : Node κ V}
    (hfresh : node.key ∉ b.nodes.map (·.key)) {nodes : List (Node κ V)}
    (hperm : nodes.Perm (node :: b.nodes)) {fcp : Option Nat}
    (hbd : nodes.Boundary (fun n => n.status.isConnected) fcp)
    (hin : numIncoming nodes ≤ b.maxIncoming) (hroom : b.nodes.length < maxNodesPerBucket)
    (pending : Option (PendingNode κ V))
    (hp : ∀ p, pending = some p → p.node.key ∉ b.nodes.map (·.key) ∧ p.node.key ≠ node.key) :
    ({ b with nodes, firstConnectedPos := fcp, pending } : KBucket κ V).Inv := by
  have hkeys : (nodes.map (·.key)).Perm (node.key :: b.nodes.map (·.key)) := hperm.map _
  refine ⟨hbd, hin, ?_, ?_, ?_⟩
  · exact hkeys.nodup_iff.mpr (List.nodup_cons.mpr ⟨hfresh, h.nodup⟩)
  · have := hperm.length_eq
    simp only [List.length_cons] at this
    simp only
    omega
  · intro p hpend hmem
    obtain ⟨hnot, hne⟩ := hp p hpend
    rcases List.mem_cons.mp (hkeys.mem_iff.mp hmem) with heq | hmem'
    · exact hne heq
    · exact hnot hmem'

/-- Dropping a disconnected least-recently seen node (the eviction of
`apply_pending`) keeps the invariant, with the boundary moved down. -/
theorem applyPending_of_pending_none [DecidableEq κ] {b : KBucket κ V} (hp : b.pending = none)
    (now : Nat) : b.applyPending now = some (none, b) := by
  simp [KBucket.applyPending, hp]

theorem Inv.dropHead {b : KBucket κ V} (h : b.Inv) (hne : 0 < b.nodes.length)
    (hfirst : b.nodes[0].status.isConnected = false) :
    ({ b with nodes := b.nodes.tail, firstConnectedPos := b.firstConnectedPos.map (· - 1) } :
      KBucket κ V).Inv := by
  obtain ⟨x, l, hxl⟩ := List.exists_cons_of_length_pos hne
  have hx : x.status.isConnected = false := by simpa [hxl] using hfirst
  have hb := h.boundary
  rw [hxl] at hb
  have hin : numIncoming l ≤ b.maxIncoming := by
    have := h.incoming_le
    rwa [hxl, numIncoming_cons_of_disconnected hx] at this
  refine ⟨by simpa [hxl] using hb.tail_of_false hx, by simpa [hxl] using hin, ?_, ?_, ?_⟩
  · have := h.nodup
    rw [hxl, List.map_cons, List.nodup_cons] at this
    simpa [hxl] using this.2
  · have := h.length_le
    simp only [hxl, List.length_cons] at this
    simp only [hxl, List.tail_cons]
    omega
  · intro p hp hmem
    apply h.pending_fresh p hp
    rw [hxl]
    simp only [hxl, List.tail_cons] at hmem
    exact List.mem_cons_of_mem _ hmem

/-- The boundary update of the connected branch of `apply_pending`,
`map_or_else(|| Some(len), |p| p.checked_sub(1))`, once the head is known to be
disconnected. -/
theorem elim_checkedSub_eq {o : Option Nat} (ho : o ≠ some 0) (n : Nat) :
    o.elim (some n) (fun p => if 1 ≤ p then some (p - 1) else none) = (o.map (· - 1)).or (some n) := by
  cases o with
  | none => rfl
  | some q =>
    have hq : 1 ≤ q := by
      rcases Nat.eq_zero_or_pos q with rfl | hq
      · exact absurd rfl ho
      · exact hq
    simp [hq]

theorem Inv.updatePending {b : KBucket κ V} (h : b.Inv) (status : NodeStatus) :
    (b.updatePending status).Inv := by
  refine h.setPending fun q hq => ?_
  obtain ⟨p, hp, rfl⟩ := Option.map_eq_some_iff.mp hq
  exact h.pending_fresh p hp

/-- Keeping a sublist of the nodes, with a boundary for it, keeps the invariant. -/
theorem Inv.sublist {b : KBucket κ V} (h : b.Inv) {nodes : List (Node κ V)}
    (hsub : nodes.Sublist b.nodes) {fcp : Option Nat}
    (hbd : nodes.Boundary (fun n => n.status.isConnected) fcp) :
    ({ b with nodes, firstConnectedPos := fcp } : KBucket κ V).Inv := by
  have hkeys : (nodes.map (·.key)).Sublist (b.nodes.map (·.key)) := hsub.map _
  refine ⟨hbd, Nat.le_trans (numIncoming_sublist hsub) h.incoming_le, h.nodup.sublist hkeys,
    Nat.le_trans hsub.length_le h.length_le, fun p hp hmem => ?_⟩
  exact h.pending_fresh p hp (hkeys.subset hmem)

theorem Inv.eraseIdx {b : KBucket κ V} (h : b.Inv) {pos : Nat} (hpos : pos < b.nodes.length) :
    (({ b with nodes := b.nodes.eraseIdx pos } : KBucket κ V).updateFirstConnectedPosForRemoval
      pos).Inv :=
  h.sublist (List.eraseIdx_sublist _ _) (h.boundary.eraseIdx hpos)

/-- The adjustment in `update_status` is the removal formula of the boundary,
because the removed node's state says on which side of the boundary it was. -/
theorem adjustFirstConnectedPos_eq {b : KBucket κ V}
    (hb : b.nodes.Boundary (fun n => n.status.isConnected) b.firstConnectedPos) {pos : Nat}
    (hlt : pos < b.nodes.length) :
    b.adjustFirstConnectedPos pos b.nodes[pos].status.state (b.nodes.eraseIdx pos).length =
      b.firstConnectedPos.bind fun f =>
        if pos < f then some (f - 1) else if f < (b.nodes.eraseIdx pos).length then some f else none := by
  have hiff := hb.getElem_iff pos hlt
  have hlen : (b.nodes.eraseIdx pos).length = b.nodes.length - 1 := List.length_eraseIdx_of_lt hlt
  unfold adjustFirstConnectedPos
  cases hs : b.nodes[pos].status.state with
  | connected =>
    have hc : b.nodes[pos].status.isConnected = true := by simp [NodeStatus.isConnected, hs]
    obtain ⟨f, hf, hle⟩ := hiff.mp hc
    rw [hf]
    by_cases hfl : f < (b.nodes.eraseIdx pos).length
    · have hnot : ¬(some f = some pos ∧ pos = (b.nodes.eraseIdx pos).length) := by
        simp only [Option.some.injEq]
        omega
      rw [if_neg hnot]
      simp [hfl, Nat.not_lt.mpr hle]
    · have hlast : some f = some pos ∧ pos = (b.nodes.eraseIdx pos).length := by
        simp only [Option.some.injEq]
        omega
      rw [if_pos hlast]
      simp [hfl, Nat.not_lt.mpr hle]
  | disconnected =>
    have hc : b.nodes[pos].status.isConnected = false := by simp [NodeStatus.isConnected, hs]
    cases hfcp : b.firstConnectedPos with
    | none => rfl
    | some f =>
      have hgt : pos < f := by
        refine Nat.lt_of_not_le fun hle => ?_
        have := hiff.mpr ⟨f, hfcp, hle⟩
        rw [hc] at this
        exact Bool.false_ne_true this
      simp [hgt, Nat.one_le_iff_ne_zero.mpr (Nat.ne_zero_of_lt hgt)]

/-- The bucket `update_status` reinserts into: the node at `pos` removed, the
boundary adjusted, and the pending node dropped when `c` holds. -/
theorem Inv.removeAt {b : KBucket κ V} (h : b.Inv) {pos : Nat} (hlt : pos < b.nodes.length)
    (c : Prop) [Decidable c] :
    KBucket.Inv ({ b with
      nodes := b.nodes.eraseIdx pos
      firstConnectedPos :=
        b.adjustFirstConnectedPos pos b.nodes[pos].status.state (b.nodes.eraseIdx pos).length
      pending := if c then none else b.pending } : KBucket κ V) := by
  have h1 := h.sublist (List.eraseIdx_sublist _ pos) (h.boundary.eraseIdx hlt)
  rw [← adjustFirstConnectedPos_eq h.boundary hlt] at h1
  refine h1.setPending fun p hpend => ?_
  by_cases hc : c
  · simp [hc] at hpend
  · rw [if_neg hc] at hpend
    exact h1.pending_fresh p hpend

/-- Removing the node at `pos` removes its key. -/
theorem key_not_mem_eraseIdx {b : KBucket κ V} (h : b.Inv) {pos : Nat} (hlt : pos < b.nodes.length) :
    b.nodes[pos].key ∉ (b.nodes.eraseIdx pos).map (·.key) := by
  intro hmem
  obtain ⟨y, hy, hyk⟩ := List.mem_map.mp hmem
  obtain ⟨i, hi, hne, rfl⟩ := List.mem_eraseIdx_iff_getElem.mp hy
  have hi' : i < (b.nodes.map (·.key)).length := by simpa using hi
  have hpos' : pos < (b.nodes.map (·.key)).length := by simpa using hlt
  have heq : (b.nodes.map (·.key))[i] = (b.nodes.map (·.key))[pos] := by simpa using hyk
  exact hne ((List.Nodup.getElem_inj_iff h.nodup).mp heq)

theorem numIncoming_set {l : List (Node κ V)} {i : Nat} (hi : i < l.length) {x : Node κ V}
    (hx : x.status = l[i].status) : numIncoming (l.set i x) = numIncoming l := by
  have hc : x.isConnectedIncoming = l[i].isConnectedIncoming := by
    simp [Node.isConnectedIncoming, hx]
  have hpos : (if l[i].isConnectedIncoming then 1 else 0) ≤ l.countP Node.isConnectedIncoming := by
    split
    · exact List.countP_pos_iff.mpr ⟨l[i], List.getElem_mem hi, ‹_›⟩
    · exact Nat.zero_le _
  simp only [numIncoming_eq_countP, List.countP_set hi, hc]
  omega

/-- Overwriting a node in place by one with the same key and status keeps the
invariant (the in-place value update of `update_value`). -/
theorem Inv.set {b : KBucket κ V} (h : b.Inv) {i : Nat} (hi : i < b.nodes.length) {x : Node κ V}
    (hkey : x.key = b.nodes[i].key) (hstatus : x.status = b.nodes[i].status) :
    ({ b with nodes := b.nodes.set i x } : KBucket κ V).Inv := by
  have hkeys : (b.nodes.set i x).map (·.key) = b.nodes.map (·.key) := by
    have hi' : i < (b.nodes.map (·.key)).length := by simpa using hi
    rw [List.map_set, hkey]
    simpa using List.set_getElem_self hi'
  refine ⟨h.boundary.set hi (by simp [hstatus]), ?_, ?_, ?_, ?_⟩
  · simpa [numIncoming_set hi hstatus] using h.incoming_le
  · simpa [hkeys] using h.nodup
  · simpa using h.length_le
  · intro p hp
    simpa [hkeys] using h.pending_fresh p hp

variable [DecidableEq κ]

theorem Inv.insert {b : KBucket κ V} (h : b.Inv) (node : Node κ V) (now : Nat) :
    (b.insert node now).2.Inv := by
  unfold KBucket.insert
  by_cases hpos : (b.position node.key).isSome
  · simpa [hpos] using h
  have hfresh : node.key ∉ b.nodes.map (·.key) :=
    position_eq_none_iff.mp (Option.not_isSome_iff_eq_none.mp hpos)
  by_cases hf : b.passesFilter node.value
  swap
  · simpa [hpos, hf] using h
  simp only [hpos, hf, Bool.false_eq_true, if_false, Bool.not_true]
  -- the pending node survives an insertion only under another key
  have hkeep : ¬(b.pending.map fun p => decide (p.node.key = node.key)).getD false = true →
      ∀ p, b.pending = some p → p.node.key ∉ b.nodes.map (·.key) ∧ p.node.key ≠ node.key := by
    intro hne p hp
    exact ⟨h.pending_fresh p hp, by simpa [hp] using hne⟩
  have hclear : ∀ p, (none : Option (PendingNode κ V)) = some p →
      p.node.key ∉ b.nodes.map (·.key) ∧ p.node.key ≠ node.key := by
    simp
  cases hs : node.status.state with
  | connected =>
    have hconn : node.status.isConnected = true := by simp [NodeStatus.isConnected, hs]
    simp only
    split_ifs with hmax hfull hbusy hpend
    · exact h
    · exact h
    · exact h.setPending fun p hp => by cases hp; exact hfresh
    all_goals
      have hin : numIncoming (b.nodes ++ [node]) ≤ b.maxIncoming := by
        refine numIncoming_add_le (List.perm_append_singleton _ _) (fun hc => ?_) h.incoming_le
        simp only [Node.isConnectedIncoming, Bool.and_eq_true] at hc
        exact isMaxIncoming_eq_false_iff.mp (by simpa [hc.2] using hmax)
      have hroom : b.nodes.length < maxNodesPerBucket := Nat.lt_of_le_of_ne h.length_le hfull
    · exact h.add hfresh (List.perm_append_singleton _ _) (h.boundary.append_true hconn) hin hroom
        none hclear
    · exact h.add hfresh (List.perm_append_singleton _ _) (h.boundary.append_true hconn) hin hroom
        b.pending (hkeep hpend)
  | disconnected =>
    have hdis : node.status.isConnected = false := by simp [NodeStatus.isConnected, hs]
    have hmax : node.isConnectedIncoming = true → numIncoming b.nodes < b.maxIncoming := by
      simp [Node.isConnectedIncoming, hdis]
    have hb := h.boundary
    cases hfcp : b.firstConnectedPos with
    | some f =>
      rw [hfcp] at hb
      have hperm := List.perm_insertIdx node b.nodes (Nat.le_of_lt hb.lt_length)
      simp only
      split_ifs with hfull hpend
      · exact h
      all_goals
        have hroom : b.nodes.length < maxNodesPerBucket := by
          simp only [isFull, beq_iff_eq] at hfull
          exact Nat.lt_of_le_of_ne h.length_le hfull
        have hin := numIncoming_add_le hperm hmax h.incoming_le
      · exact h.add hfresh hperm (hb.insertIdx_false hdis) hin hroom none hclear
      · exact h.add hfresh hperm (hb.insertIdx_false hdis) hin hroom b.pending (hkeep hpend)
    | none =>
      rw [hfcp] at hb
      have hperm := List.perm_append_singleton node b.nodes
      simp only
      split_ifs with hfull hpend
      · exact h
      all_goals
        have hroom : b.nodes.length < maxNodesPerBucket := by
          simp only [isFull, beq_iff_eq] at hfull
          exact Nat.lt_of_le_of_ne h.length_le hfull
        have hin := numIncoming_add_le hperm hmax h.incoming_le
      · exact h.add hfresh hperm (hb.append_false_of_none hdis) hin hroom none hclear
      · exact h.add hfresh hperm (hb.append_false_of_none hdis) hin hroom b.pending (hkeep hpend)

theorem insert_ne_nodeExists_of_fresh {b : KBucket κ V} {node : Node κ V}
    (hfresh : node.key ∉ b.nodes.map (·.key)) (now : Nat) :
    (b.insert node now).1 ≠ .nodeExists := by
  have hpos : b.position node.key = none := position_eq_none_iff.mpr hfresh
  unfold KBucket.insert
  cases hs : node.status.state <;> cases hfcp : b.firstConnectedPos <;> simp [hpos] <;> split_ifs <;> simp

theorem insert_ne_full_of_room {b : KBucket κ V} (hroom : b.nodes.length < maxNodesPerBucket)
    (node : Node κ V) (now : Nat) : (b.insert node now).1 ≠ .full := by
  have hne : b.nodes.length ≠ maxNodesPerBucket := Nat.ne_of_lt hroom
  have hnf : b.isFull = false := by simp [isFull, hne]
  unfold KBucket.insert
  cases hs : node.status.state <;> cases hfcp : b.firstConnectedPos <;> simp [hne, hnf] <;> split_ifs <;> simp

theorem insert_ne_pending_of_room {b : KBucket κ V} (hroom : b.nodes.length < maxNodesPerBucket)
    (node : Node κ V) (now : Nat) (k : κ) : (b.insert node now).1 ≠ .pending k := by
  have hne : b.nodes.length ≠ maxNodesPerBucket := Nat.ne_of_lt hroom
  have hnf : b.isFull = false := by simp [isFull, hne]
  unfold KBucket.insert
  cases hs : node.status.state <;> cases hfcp : b.firstConnectedPos <;> simp [hne, hnf] <;> split_ifs <;> simp

theorem Inv.applyPending {b : KBucket κ V} (h : b.Inv) (now : Nat) :
    ∃ r, b.applyPending now = some r ∧ r.2.Inv := by
  unfold KBucket.applyPending
  cases hp : b.pending with
  | none => exact ⟨_, rfl, h⟩
  | some p =>
    have h0 : ({ b with pending := none } : KBucket κ V).Inv := h.setPending (by simp)
    have hfresh := h.pending_fresh p hp
    simp only
    by_cases hr : p.replace ≤ now
    swap
    · simp only [hr, if_false]
      exact ⟨_, rfl, h.setPending fun q hq => by cases hq; exact hfresh⟩
    simp only [hr, if_true]
    split
    · rename_i hfull
      have hne : 0 < b.nodes.length := by rw [hfull]; decide
      split_ifs with hc hfilt hmax hpc
      · exact ⟨_, rfl, h0⟩
      · exact ⟨_, rfl, h0⟩
      · exact ⟨_, rfl, h0⟩
      all_goals
        have hfirst : b.nodes[0].status.isConnected = false := by simpa using hc
        have h1 : KBucket.Inv ({ b with
            nodes := b.nodes.tail, pending := none,
            firstConnectedPos := b.firstConnectedPos.map (· - 1) } : KBucket κ V) :=
          h0.dropHead hne hfirst
        have hb1 := h1.boundary
        have hfresh1 : p.node.key ∉ b.nodes.tail.map (·.key) := fun hm =>
          hfresh ((List.tail_sublist _).map _ |>.subset hm)
        have hroom1 : b.nodes.tail.length < maxNodesPerBucket := by
          simp only [List.length_tail, hfull]
          decide
        have hnot0 : b.firstConnectedPos ≠ some 0 := fun h0' => by
          have := (h.boundary.getElem_iff 0 hne).mpr ⟨0, h0', Nat.le_refl 0⟩
          rw [hfirst] at this
          exact Bool.false_ne_true this
      · -- a connected pending node goes after the connected nodes
        have hperm := List.perm_append_singleton p.node b.nodes.tail
        have hin : numIncoming (b.nodes.tail ++ [p.node]) ≤ b.maxIncoming := by
          refine numIncoming_add_le hperm (fun hci => ?_) h1.incoming_le
          simp only [Node.isConnectedIncoming, Bool.and_eq_true] at hci
          simp only [hci.1, hci.2, Bool.and_true, Bool.true_and] at hmax
          have hcount : numIncoming b.nodes.tail = numIncoming b.nodes := by
            obtain ⟨x, l, hxl⟩ := List.exists_cons_of_length_pos hne
            have hx : x.status.isConnected = false := by simpa [hxl] using hfirst
            simp [hxl, numIncoming_cons_of_disconnected hx]
          rw [hcount]
          exact (@isMaxIncoming_eq_false_iff κ V { b with pending := none }).mp (by simpa using hmax)
        refine ⟨_, rfl, ?_⟩
        have := h1.add hfresh1 hperm (hb1.append_true (by simpa using hpc)) hin hroom1
          none (by simp)
        simpa [elim_checkedSub_eq hnot0] using this
      · -- a disconnected pending node goes after the disconnected nodes
        have hdis : p.node.status.isConnected = false := by simpa using hpc
        have hmax1 : p.node.isConnectedIncoming = true →
            numIncoming b.nodes.tail < b.maxIncoming := by
          simp [Node.isConnectedIncoming, hdis]
        cases hfcp : b.firstConnectedPos with
        | some q =>
          have hq : 1 ≤ q := Nat.one_le_iff_ne_zero.mpr fun hq0 => hnot0 (by rw [hfcp, hq0])
          rw [hfcp] at hb1
          have hperm := List.perm_insertIdx p.node b.nodes.tail (Nat.le_of_lt hb1.lt_length)
          have hin := numIncoming_add_le hperm hmax1 h1.incoming_le
          simp only [hq, if_true]
          refine ⟨_, rfl, ?_⟩
          have := h1.add hfresh1 hperm (hb1.insertIdx_false hdis) hin hroom1 none
            (by simp)
          simpa [Nat.sub_add_cancel hq, hfcp] using this
        | none =>
          rw [hfcp] at hb1
          have hperm := List.perm_append_singleton p.node b.nodes.tail
          have hin := numIncoming_add_le hperm hmax1 h1.incoming_le
          refine ⟨_, rfl, ?_⟩
          have := h1.add hfresh1 hperm (hb1.append_false_of_none hdis) hin hroom1 none
            (by simp)
          simpa [hfcp] using this
    · rename_i hfull
      have hroom : ({ b with pending := none } : KBucket κ V).nodes.length < maxNodesPerBucket :=
        Nat.lt_of_le_of_ne h.length_le hfull
      have hnf := insert_ne_full_of_room hroom p.node now
      have hinv := h0.insert p.node now
      -- the pending node is inserted or dropped: `Full` cannot happen below capacity
      rcases hins : ({ b with pending := none } : KBucket κ V).insert p.node now with ⟨r, b'⟩
      rw [hins] at hnf hinv
      cases r <;> first | exact absurd rfl hnf | exact ⟨_, rfl, hinv⟩

theorem Inv.insert_eq {b b' : KBucket κ V} (h : b.Inv) {node : Node κ V} {now : Nat}
    {r : InsertResult κ} (heq : b.insert node now = (r, b')) : b'.Inv := by
  have := h.insert node now
  rwa [heq] at this

theorem Inv.updateStatus {b : KBucket κ V} (h : b.Inv) (key : κ) (state : ConnectionState)
    (direction : Option ConnectionDirection) (now : Nat) :
    ∃ r, b.updateStatus key state direction now = some r ∧ r.2.Inv := by
  unfold KBucket.updateStatus
  cases hpos : b.position key with
  | some pos =>
    obtain ⟨hlt, -⟩ := position_eq_some hpos
    have hfresh := key_not_mem_eraseIdx h hlt
    have hroom : (b.nodes.eraseIdx pos).length < maxNodesPerBucket := by
      have := h.length_le
      rw [List.length_eraseIdx_of_lt hlt]
      omega
    simp only [List.getElem?_eq_getElem hlt]
    -- reinserting the removed node: `NodeExists`, `Full` and `Pending` cannot happen
    split
    next _ _ heq => exact ⟨_, rfl, (h.removeAt hlt _).insert_eq heq⟩
    next _ _ heq => exact ⟨_, rfl, (h.removeAt hlt _).insert_eq heq⟩
    next _ _ heq => exact ⟨_, rfl, (h.removeAt hlt _).insert_eq heq⟩
    next _ _ heq => exact absurd (congrArg Prod.fst heq) (insert_ne_nodeExists_of_fresh hfresh now)
    next _ _ heq => exact absurd (congrArg Prod.fst heq) (insert_ne_full_of_room hroom _ now)
    next _ _ _ heq => exact absurd (congrArg Prod.fst heq) (insert_ne_pending_of_room hroom _ now _)
  | none =>
    simp only
    cases hp : b.pending with
    | none => exact ⟨_, rfl, h⟩
    | some p =>
      simp only
      split_ifs
      · refine ⟨_, rfl, h.setPending fun q hq => ?_⟩
        cases hq
        exact h.pending_fresh p hp
      · exact ⟨_, rfl, h⟩

section

variable [DecidableEq V]

theorem Inv.updateValue {b : KBucket κ V} (h : b.Inv) (key : κ) (value : V) :
    ∃ r, b.updateValue key value = some r ∧ r.2.Inv := by
  unfold KBucket.updateValue
  cases hpos : b.position key with
  | some pos =>
    obtain ⟨hlt, -⟩ := position_eq_some hpos
    simp only [List.getElem?_eq_getElem hlt]
    split_ifs
    · exact ⟨_, rfl, h⟩
    · -- the node fails the filter with its new value and is removed
      exact ⟨_, rfl, h.eraseIdx hlt⟩
    · exact ⟨_, rfl, h.set hlt rfl rfl⟩
  | none =>
    simp only
    cases hp : b.pending with
    | none => exact ⟨_, rfl, h⟩
    | some p =>
      simp only
      split_ifs
      · refine ⟨_, rfl, h.setPending fun q hq => ?_⟩
        cases hq
        exact h.pending_fresh p hp
      · exact ⟨_, rfl, h⟩

end

theorem Inv.remove {b : KBucket κ V} (h : b.Inv) (key : κ) (now : Nat) :
    ∃ r, b.remove key now = some r ∧ r.2.Inv := by
  unfold KBucket.remove
  cases hpos : b.position key with
  | some pos =>
    obtain ⟨hlt, -⟩ := position_eq_some hpos
    obtain ⟨r, hr, hinv⟩ := (h.eraseIdx hlt).applyPending now
    simp only [hr, Option.map_some]
    exact ⟨_, rfl, hinv⟩
  | none => exact ⟨_, rfl, h⟩

/-- The parameters a bucket is created with; no operation changes them. -/
def params (b : KBucket κ V) : Nat × Option (Filter V) × Nat :=
  (b.pendingTimeout, b.filter, b.maxIncoming)

theorem insert_params (b : KBucket κ V) (node : Node κ V) (now : Nat) :
    (b.insert node now).2.params = b.params := by
  unfold KBucket.insert
  cases node.status.state <;> cases b.firstConnectedPos <;> simp only <;> split_ifs <;> rfl

theorem params_of_insert_eq {b b' : KBucket κ V} {node : Node κ V} {now : Nat}
    {r : InsertResult κ} (heq : b.insert node now = (r, b')) : b'.params = b.params := by
  have := insert_params b node now
  rwa [heq] at this

theorem applyPending_params {b : KBucket κ V} {now : Nat}
    {r : Option (AppliedPending κ V) × KBucket κ V}
    (h : b.applyPending now = some r) : r.2.params = b.params := by
  unfold KBucket.applyPending at h
  simp only at h
  repeat' split at h
  all_goals first
    | (cases h; rfl)
    | (cases h; rename_i heq; exact (params_of_insert_eq heq :))
    | cases h

theorem updateStatus_params {b : KBucket κ V} {key : κ} {state : ConnectionState}
    {direction : Option ConnectionDirection} {now : Nat} {r : UpdateResult × KBucket κ V}
    (h : b.updateStatus key state direction now = some r) : r.2.params = b.params := by
  unfold KBucket.updateStatus at h
  simp only at h
  repeat' split at h
  all_goals first
    | (cases h; rfl)
    | (cases h; exact (params_of_insert_eq ‹KBucket.insert _ _ _ = (_, _)› :))
    | cases h

section

variable [DecidableEq V]

theorem updateValue_params {b : KBucket κ V} {key : κ} {value : V} {r : UpdateResult × KBucket κ V}
    (h : b.updateValue key value = some r) : r.2.params = b.params := by
  unfold KBucket.updateValue at h
  simp only at h
  repeat' split at h
  all_goals first
    | (cases h; rfl)
    | cases h

end

theorem remove_params {b : KBucket κ V} {key : κ} {now : Nat} {r : Bool × KBucket κ V}
    (h : b.remove key now = some r) : r.2.params = b.params := by
  unfold KBucket.remove at h
  split at h
  · obtain ⟨r', hr', rfl⟩ := Option.map_eq_some_iff.mp h
    exact (applyPending_params hr' :)
  · cases h
    rfl

/-! ### The keys a bucket holds

Placement in the routing table only needs that an operation adds no key but
the one it inserts: `KeysSat P` (every key, the pending node's included,
satisfies `P`) is kept by every operation. -/

theorem mem_insert_nodes {b : KBucket κ V} {node n : Node κ V} {now : Nat}
    (hm : n ∈ (b.insert node now).2.nodes) : n ∈ b.nodes ∨ n = node := by
  unfold KBucket.insert at hm
  cases hs : node.status.state <;> cases hf : b.firstConnectedPos <;>
    simp only [hs, hf] at hm <;> split_ifs at hm <;>
    first
    | exact .inl hm
    | exact (List.mem_append.mp hm).imp id List.mem_singleton.mp
    | exact (List.eq_or_mem_of_mem_insertIdx hm).symm

theorem mem_insert_nodes_of_eq {b b' : KBucket κ V} {node n : Node κ V} {now : Nat}
    {r : InsertResult κ} (heq : b.insert node now = (r, b')) (hm : n ∈ b'.nodes) :
    n ∈ b.nodes ∨ n = node := by
  have := @mem_insert_nodes _ _ _ b node n now
  rw [heq] at this
  exact this hm

theorem insert_pending {b : KBucket κ V} {node : Node κ V} {now : Nat} {p : PendingNode κ V}
    (hp : (b.insert node now).2.pending = some p) : b.pending = some p ∨ p.node = node := by
  unfold KBucket.insert at hp
  cases hs : node.status.state <;> cases hf : b.firstConnectedPos <;>
    simp only [hs, hf] at hp <;> split_ifs at hp <;>
    first
    | exact .inl hp
    | (cases hp; exact .inr rfl)

theorem insert_pending_of_eq {b b' : KBucket κ V} {node : Node κ V} {now : Nat}
    {r : InsertResult κ} (heq : b.insert node now = (r, b')) {p : PendingNode κ V}
    (hp : b'.pending = some p) : b.pending = some p ∨ p.node = node := by
  have := @insert_pending _ _ _ b node now p
  rw [heq] at this
  exact this hp

theorem mem_of_mem_tail_append {l : List α} {x y : α} (h : y ∈ l.tail ++ [x]) : y ∈ l ∨ y = x :=
  (List.mem_append.mp h).imp List.mem_of_mem_tail List.mem_singleton.mp

theorem mem_of_mem_tail_insertIdx {l : List α} {i : Nat} {x y : α} (h : y ∈ l.tail.insertIdx i x) :
    y ∈ l ∨ y = x :=
  (List.eq_or_mem_of_mem_insertIdx h).symm.imp List.mem_of_mem_tail id

/-- `apply_pending` moves the pending node into the bucket and adds nothing else. -/
theorem mem_applyPending_nodes {b : KBucket κ V} {now : Nat}
    {r : Option (AppliedPending κ V) × KBucket κ V} (h : b.applyPending now = some r)
    {n : Node κ V} (hm : n ∈ r.2.nodes) : n ∈ b.nodes ∨ ∃ p, b.pending = some p ∧ n = p.node := by
  unfold KBucket.applyPending at h
  cases hp : b.pending with
  | none =>
    simp only [hp] at h
    cases h
    exact .inl hm
  | some p =>
    simp only [hp] at h
    repeat' split at h
    all_goals first
      | (cases h; exact .inl hm)
      | (cases h; exact (mem_of_mem_tail_append hm).imp id fun he => ⟨p, rfl, he⟩)
      | (cases h; exact (mem_of_mem_tail_insertIdx hm).imp id fun he => ⟨p, rfl, he⟩)
      | (cases h
         rename_i heq
         have hm' := mem_insert_nodes_of_eq heq hm
         exact hm'.imp id fun he => ⟨p, rfl, he⟩)
      | cases h

theorem applyPending_pending {b : KBucket κ V} {now : Nat}
    {r : Option (AppliedPending κ V) × KBucket κ V} (h : b.applyPending now = some r)
    {q : PendingNode κ V} (hq : r.2.pending = some q) :
    ∃ p, b.pending = some p ∧ q.node = p.node := by
  unfold KBucket.applyPending at h
  cases hp : b.pending with
  | none =>
    simp only [hp] at h
    cases h
    simp [hp] at hq
  | some p =>
    simp only [hp] at h
    repeat' split at h
    all_goals first
      | (cases h; cases hq; done)
      | (cases h; cases hq; exact ⟨_, rfl, rfl⟩)
      | (cases h
         rename_i heq
         have hq' := insert_pending_of_eq heq hq
         simp only at hq'
         rcases hq' with hq' | hq'
         · cases hq'
         · exact ⟨p, rfl, hq'⟩)
      | cases h

/-- Every key of the bucket, its pending node's included, satisfies `P`. -/
structure KeysSat (P : κ → Prop) (b : KBucket κ V) : Prop where
  nodes : ∀ n ∈ b.nodes, P n.key
  pending : ∀ p, b.pending = some p → P p.node.key

variable {P : κ → Prop}

theorem KeysSat.insert_eq {b b' : KBucket κ V} (h : b.KeysSat P) {node : Node κ V}
    {now : Nat} {r : InsertResult κ} (heq : b.insert node now = (r, b')) (hn : P node.key) :
    b'.KeysSat P := by
  refine ⟨fun n hm => ?_, fun q hq => ?_⟩
  · rcases mem_insert_nodes_of_eq heq hm with hm | rfl
    · exact h.nodes n hm
    · exact hn
  · rcases insert_pending_of_eq heq hq with hq | hq
    · exact h.pending q hq
    · rw [hq]
      exact hn

theorem KeysSat.insert {b : KBucket κ V} (h : b.KeysSat P) (node : Node κ V)
    (hn : P node.key) (now : Nat) : (b.insert node now).2.KeysSat P :=
  h.insert_eq rfl hn

theorem KeysSat.applyPending {b : KBucket κ V} (h : b.KeysSat P) {now : Nat}
    {r : Option (AppliedPending κ V) × KBucket κ V} (hr : b.applyPending now = some r) :
    r.2.KeysSat P := by
  refine ⟨fun n hm => ?_, fun q hq => ?_⟩
  · rcases mem_applyPending_nodes hr hm with hm | ⟨p, hp, rfl⟩
    · exact h.nodes n hm
    · exact h.pending p hp
  · obtain ⟨p, hp, he⟩ := applyPending_pending hr hq
    rw [he]
    exact h.pending p hp

omit [DecidableEq κ] in
theorem KeysSat.removeAt {b : KBucket κ V} (h : b.KeysSat P) (pos : Nat) (c : Prop) [Decidable c]
    (fcp : Option Nat) :
    KeysSat P ({ b with
      nodes := b.nodes.eraseIdx pos, firstConnectedPos := fcp
      pending := if c then none else b.pending } : KBucket κ V) := by
  refine ⟨fun n hm => h.nodes n ((List.eraseIdx_sublist _ _).subset hm), fun q hq => ?_⟩
  by_cases hc : c
  · simp [hc] at hq
  · rw [if_neg hc] at hq
    exact h.pending q hq

theorem KeysSat.updateStatus {b : KBucket κ V} (h : b.KeysSat P) {key : κ}
    {state : ConnectionState} {direction : Option ConnectionDirection} {now : Nat}
    {r : UpdateResult × KBucket κ V} (hr : b.updateStatus key state direction now = some r) :
    r.2.KeysSat P := by
  unfold KBucket.updateStatus at hr
  split at hr
  · rename_i pos _
    split at hr
    · cases hr
    · rename_i node hnode
      have hn : P node.key := h.nodes node (List.mem_of_getElem? hnode)
      simp only at hr
      split at hr
      all_goals first
        | (cases hr
           rename_i heq
           have h2 := (h.removeAt pos _ _).insert_eq heq hn
           exact h2)
        | cases hr
  · split at hr
    · rename_i p hp
      split at hr
      · cases hr
        refine ⟨h.nodes, fun q hq => ?_⟩
        cases hq
        exact h.pending p hp
      · cases hr
        exact h
    · cases hr
      exact h

omit [DecidableEq κ] in
theorem KeysSat.updatePending {b : KBucket κ V} (h : b.KeysSat P) (status : NodeStatus) :
    (b.updatePending status).KeysSat P := by
  refine ⟨h.nodes, fun q hq => ?_⟩
  obtain ⟨p, hp, rfl⟩ := Option.map_eq_some_iff.mp hq
  exact h.pending p hp

theorem KeysSat.remove {b : KBucket κ V} (h : b.KeysSat P) {key : κ} {now : Nat}
    {r : Bool × KBucket κ V} (hr : b.remove key now = some r) : r.2.KeysSat P := by
  unfold KBucket.remove at hr
  split at hr
  · rename_i pos _
    obtain ⟨r', hr', rfl⟩ := Option.map_eq_some_iff.mp hr
    have h1 : KeysSat P (({ b with nodes := b.nodes.eraseIdx pos } : KBucket κ V)
        |>.updateFirstConnectedPosForRemoval pos) :=
      ⟨fun n hm => h.nodes n ((List.eraseIdx_sublist _ _).subset hm), h.pending⟩
    exact h1.applyPending hr'
  · cases hr
    exact h

theorem KeysSat.updateValue [DecidableEq V] {b : KBucket κ V} (h : b.KeysSat P) {key : κ}
    {value : V} {r : UpdateResult × KBucket κ V} (hr : b.updateValue key value = some r) :
    r.2.KeysSat P := by
  unfold KBucket.updateValue at hr
  split at hr
  · rename_i pos _
    split at hr
    · cases hr
    · rename_i node hnode
      simp only at hr
      split_ifs at hr
      · cases hr
        exact h
      · cases hr
        exact ⟨fun n hm => h.nodes n ((List.eraseIdx_sublist _ _).subset hm), h.pending⟩
      · cases hr
        refine ⟨fun n hm => ?_, h.pending⟩
        rcases List.mem_or_eq_of_mem_set hm with hm | rfl
        · exact h.nodes n hm
        · exact h.nodes node (List.mem_of_getElem? hnode)
  · split at hr
    · rename_i p hp
      split at hr
      · cases hr
        refine ⟨h.nodes, fun q hq => ?_⟩
        cases hq
        exact h.pending p hp
      · cases hr
        exact h
    · cases hr
      exact h

end KBucket

variable [DecidableEq κ] [DecidableEq V]

/-- The operations the routing table performs on a bucket. -/
inductive BucketOp (κ V : Type) where
  | insert (node : Node κ V) (now : Nat)
  | remove (key : κ) (now : Nat)
  | updatePending (status : NodeStatus)
  | applyPending (now : Nat)
  | updateStatus (key : κ) (state : ConnectionState) (direction : Option ConnectionDirection)
      (now : Nat)
  | updateValue (key : κ) (value : V)

namespace BucketOp

/-- One operation, keeping the new bucket; `none` is an `unreachable!`. -/
def apply : BucketOp κ V → KBucket κ V → Option (KBucket κ V)
  | .insert node now, b => some (b.insert node now).2
  | .remove key now, b => (b.remove key now).map (·.2)
  | .updatePending status, b => some (b.updatePending status)
  | .applyPending now, b => (b.applyPending now).map (·.2)
  | .updateStatus key state direction now, b => (b.updateStatus key state direction now).map (·.2)
  | .updateValue key value, b => (b.updateValue key value).map (·.2)

/-- A sequence of operations, stopping at an `unreachable!`. -/
def run : KBucket κ V → List (BucketOp κ V) → Option (KBucket κ V)
  | b, [] => some b
  | b, op :: ops => (op.apply b).bind fun b' => run b' ops

/-- The key an operation may add to the bucket. -/
def newKey? : BucketOp κ V → Option κ
  | .insert node _ => some node.key
  | _ => none

/-- The step lemma: every operation on a bucket satisfying the invariant
returns, and the invariant holds afterwards. -/
theorem apply_inv {b : KBucket κ V} (h : b.Inv) (op : BucketOp κ V) :
    ∃ b', op.apply b = some b' ∧ b'.Inv ∧ b'.params = b.params := by
  cases op with
  | insert node now => exact ⟨_, rfl, h.insert node now, KBucket.insert_params b node now⟩
  | remove key now =>
    obtain ⟨r, hr, hinv⟩ := h.remove key now
    exact ⟨r.2, by simp [apply, hr], hinv, KBucket.remove_params hr⟩
  | updatePending status => exact ⟨_, rfl, h.updatePending status, rfl⟩
  | applyPending now =>
    obtain ⟨r, hr, hinv⟩ := h.applyPending now
    exact ⟨r.2, by simp [apply, hr], hinv, KBucket.applyPending_params hr⟩
  | updateStatus key state direction now =>
    obtain ⟨r, hr, hinv⟩ := h.updateStatus key state direction now
    exact ⟨r.2, by simp [apply, hr], hinv, KBucket.updateStatus_params hr⟩
  | updateValue key value =>
    obtain ⟨r, hr, hinv⟩ := h.updateValue key value
    exact ⟨r.2, by simp [apply, hr], hinv, KBucket.updateValue_params hr⟩

/-- The run lemma: from a bucket satisfying the invariant, every sequence of
operations runs to the end and the invariant holds at every point. -/
theorem run_inv {b : KBucket κ V} (h : b.Inv) (ops : List (BucketOp κ V)) :
    ∃ b', run b ops = some b' ∧ b'.Inv ∧ b'.params = b.params := by
  induction ops generalizing b with
  | nil => exact ⟨b, rfl, h, rfl⟩
  | cons op ops ih =>
    obtain ⟨b₁, h₁, hinv₁, hp₁⟩ := apply_inv h op
    obtain ⟨b₂, h₂, hinv₂, hp₂⟩ := ih hinv₁
    exact ⟨b₂, by simp [run, h₁, h₂], hinv₂, hp₂.trans hp₁⟩

end BucketOp

end Discv5.Kbucket
