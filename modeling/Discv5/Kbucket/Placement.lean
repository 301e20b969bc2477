import Discv5.Kbucket.BucketInvariant

/-!
# Placement in a bucket

`KBucket::insert` and `KBucket::update_status` keep the nodes of a bucket in
least-recently to most-recently connected order, the disconnected ones
first. The placement is computed from the cached `first_connected_pos`;
read through the bucket invariant, whose boundary field says that cache is
the length of the disconnected prefix, the two functions are list edits:
an inserted node is appended to its segment, a refused one leaves the
bucket as it was, a pending one touches the pending slot only, and a status
update is a removal followed by such an insertion.
-/

namespace Discv5.Kbucket

namespace KBucket

variable {κ V : Type} [DecidableEq κ]

/-- Where `insert` puts a node it inserts: a connected one at the very end,
a disconnected one at the end of the disconnected prefix. -/
theorem insert_inserted {b : KBucket κ V} (h : b.Inv) {node : Node κ V} {now : Nat}
    (hr : (b.insert node now).1 = .inserted) :
    ∃ ds cs, b.nodes = ds ++ cs ∧ (∀ x ∈ ds, x.status.isConnected = false) ∧
      (∀ x ∈ cs, x.status.isConnected = true) ∧
      (b.insert node now).2.nodes =
        if node.status.isConnected then b.nodes ++ [node] else ds ++ node :: cs := by
  obtain ⟨ds, cs, heq, hds, hcs, hfcp⟩ := h.boundary
  refine ⟨ds, cs, heq, hds, hcs, ?_⟩
  unfold KBucket.insert at hr ⊢
  cases hs : node.status.state with
  | connected =>
    have hconn : node.status.isConnected = true := by simp [NodeStatus.isConnected, hs]
    simp only [hs, hconn, if_true] at hr ⊢
    split_ifs at hr ⊢ <;> rfl
  | disconnected =>
    have hdis : node.status.isConnected = false := by simp [NodeStatus.isConnected, hs]
    simp only [hs, hdis, Bool.false_eq_true, if_false] at hr ⊢
    cases hf : b.firstConnectedPos with
    | some f =>
      -- a connected node exists: the boundary is the length of the disconnected prefix
      have hne : cs ≠ [] := by rintro rfl; simp [hf] at hfcp
      have hf' : f = ds.length := by simpa [hne, hf] using hfcp
      simp only [hf] at hr ⊢
      -- whether or not the node was the pending one, it goes to the boundary
      split_ifs at hr ⊢ <;> (rw [heq, hf']; exact List.insertIdx_append_length ds cs node)
    | none =>
      -- every node is disconnected
      have hcs' : cs = [] := by
        by_contra hne
        simp [hne, hf] at hfcp
      simp only [hf] at hr ⊢
      split_ifs at hr ⊢ <;> simp [heq, hcs']
/-- `insert` leaves the bucket as it was when it refuses the node. -/
theorem insert_refused {b : KBucket κ V} {node : Node κ V} {now : Nat}
    (hr : (b.insert node now).1 = .full ∨ (b.insert node now).1 = .nodeExists ∨
      (b.insert node now).1 = .failedFilter ∨ (b.insert node now).1 = .tooManyIncoming) :
    (b.insert node now).2 = b := by
  unfold KBucket.insert at hr ⊢
  cases hs : node.status.state <;> cases hf : b.firstConnectedPos <;>
    simp only [hs, hf] at hr ⊢ <;> split_ifs at hr ⊢ <;> simp_all

/-- A node that becomes pending changes only the pending slot. -/
theorem insert_becomes_pending {b : KBucket κ V} {node : Node κ V} {now : Nat} {k : κ}
    (hr : (b.insert node now).1 = .pending k) :
    (b.insert node now).2 = { b with pending := some ⟨node, now + b.pendingTimeout⟩ } := by
  unfold KBucket.insert at hr ⊢
  cases hs : node.status.state <;> cases hf : b.firstConnectedPos <;>
    simp only [hs, hf] at hr ⊢ <;> split_ifs at hr ⊢ <;> simp_all

/-- `update_status` on a present node removes it and reinserts it with its
new status: at the end of the bucket if connected, at the end of the
disconnected prefix if not. When it fails, the node is left out. -/
theorem updateStatus_reinserts {b : KBucket κ V} (h : b.Inv) {key : κ} {pos : Nat}
    {node : Node κ V} (hpos : b.position key = some pos) (hnode : b.nodes[pos]? = some node)
    {state : ConnectionState} {direction : Option ConnectionDirection} {now : Nat}
    {r : UpdateResult × KBucket κ V} (hr : b.updateStatus key state direction now = some r) :
    let updated : Node κ V := { node with status := ⟨direction.getD node.status.direction, state⟩ }
    (r.1.failed? = true ∧ r.2.nodes = b.nodes.eraseIdx pos) ∨
      (r.1.failed? = false ∧ ∃ ds cs, b.nodes.eraseIdx pos = ds ++ cs ∧
        (∀ x ∈ ds, x.status.isConnected = false) ∧ (∀ x ∈ cs, x.status.isConnected = true) ∧
        r.2.nodes = if state = .connected then b.nodes.eraseIdx pos ++ [updated]
          else ds ++ updated :: cs) := by
  intro updated
  obtain ⟨hlt, -⟩ := position_eq_some hpos
  have hnode' : b.nodes[pos] = node := by simpa [List.getElem?_eq_getElem hlt] using hnode
  unfold KBucket.updateStatus at hr
  simp only [hpos, hnode] at hr
  -- the bucket the node is reinserted into: without it, the boundary adjusted
  have h₁ := h.removeAt hlt (pos = 0 ∧ decide (state = .connected) = true)
  rw [hnode'] at h₁
  split at hr
  · -- reinserted
    rename_i b₂ heq
    simp only [Option.some.injEq] at hr
    subst hr
    right
    have hins := congrArg Prod.fst heq
    obtain ⟨ds, cs, hsplit, hds, hcs, hnodes⟩ := insert_inserted h₁ hins
    refine ⟨by split_ifs <;> rfl, ds, cs, hsplit, hds, hcs, ?_⟩
    rw [heq] at hnodes
    cases state <;> simpa [updated, NodeStatus.isConnected] using hnodes
  · -- too many incoming nodes
    rename_i b₂ heq
    simp only [Option.some.injEq] at hr
    subst hr
    left
    have hb := insert_refused (.inr (.inr (.inr (congrArg Prod.fst heq))))
    rw [heq] at hb
    exact ⟨rfl, by rw [hb]⟩
  · -- the filter
    rename_i b₂ heq
    simp only [Option.some.injEq] at hr
    subst hr
    left
    have hb := insert_refused (.inr (.inr (.inl (congrArg Prod.fst heq))))
    rw [heq] at hb
    exact ⟨rfl, by rw [hb]⟩
  all_goals cases hr

/-- The documented least-recently-connected placement of a bucket's
operations, and their atomicity when they refuse. -/
structure LruPlacement (b : KBucket κ V) : Prop where
  /-- An inserted node goes to the end of its segment; the others keep their order and status. -/
  inserted : ∀ (node : Node κ V) (now : Nat), (b.insert node now).1 = .inserted →
    ∃ ds cs, b.nodes = ds ++ cs ∧ (∀ x ∈ ds, x.status.isConnected = false) ∧
      (∀ x ∈ cs, x.status.isConnected = true) ∧
      (b.insert node now).2.nodes =
        if node.status.isConnected then b.nodes ++ [node] else ds ++ node :: cs
  /-- A refused node leaves the bucket as it was. -/
  refused : ∀ (node : Node κ V) (now : Nat),
    (b.insert node now).1 = .full ∨ (b.insert node now).1 = .nodeExists ∨
      (b.insert node now).1 = .failedFilter ∨ (b.insert node now).1 = .tooManyIncoming →
    (b.insert node now).2 = b
  /-- A node made pending changes the pending slot only. -/
  pending : ∀ (node : Node κ V) (now : Nat) (k : κ), (b.insert node now).1 = .pending k →
    (b.insert node now).2 = { b with pending := some ⟨node, now + b.pendingTimeout⟩ }
  /-- A status update moves the node to the end of the segment of its new
  state, or leaves it out when it fails. -/
  updateStatus : ∀ (key : κ) (pos : Nat) (node : Node κ V) (state : ConnectionState)
    (direction : Option ConnectionDirection) (now : Nat) (r : UpdateResult × KBucket κ V),
    b.position key = some pos → b.nodes[pos]? = some node →
    b.updateStatus key state direction now = some r →
    let updated : Node κ V := { node with status := ⟨direction.getD node.status.direction, state⟩ }
    (r.1.failed? = true ∧ r.2.nodes = b.nodes.eraseIdx pos) ∨
      (r.1.failed? = false ∧ ∃ ds cs, b.nodes.eraseIdx pos = ds ++ cs ∧
        (∀ x ∈ ds, x.status.isConnected = false) ∧ (∀ x ∈ cs, x.status.isConnected = true) ∧
        r.2.nodes = if state = .connected then b.nodes.eraseIdx pos ++ [updated]
          else ds ++ updated :: cs)

/-- Every bucket that keeps the invariant places its nodes as documented. -/
theorem bucket_lru_placement {b : KBucket κ V} (h : b.Inv) : b.LruPlacement :=
  ⟨fun _ _ hr => insert_inserted h hr, fun _ _ hr => insert_refused hr,
    fun _ _ _ hr => insert_becomes_pending hr,
    fun _ _ _ _ _ _ _ hpos hnode hr => updateStatus_reinserts h hpos hnode hr⟩

/-- Two connected nodes and a disconnected one, inserted into a fresh bucket. -/
def placementRun : List (BucketOp Nat Unit) :=
  [.insert ⟨1, (), ⟨.outgoing, .connected⟩⟩ 0, .insert ⟨2, (), ⟨.outgoing, .connected⟩⟩ 0,
    .insert ⟨3, (), ⟨.outgoing, .disconnected⟩⟩ 0]

/-- The bucket `placementRun` reaches keeps the invariant: the disconnected
node is placed first, and a status update that disconnects node 2 moves it
to the end of the disconnected prefix. -/
theorem bucket_lru_placement_placementRun :
    ∃ b, BucketOp.run (KBucket.new 60 maxNodesPerBucket none) placementRun = some b ∧
      b.nodes.map Node.key = [3, 1, 2] ∧ b.Inv ∧ b.LruPlacement ∧
      (b.updateStatus 2 .disconnected none 0).map (·.2.nodes.map Node.key) = some [3, 2, 1] := by
  obtain ⟨b, hb, hinv, -⟩ := BucketOp.run_inv (Inv.new 60 maxNodesPerBucket none) placementRun
  have hrun : (BucketOp.run (KBucket.new 60 maxNodesPerBucket none) placementRun).map
      (fun b : KBucket Nat Unit => (b.nodes.map Node.key,
        (b.updateStatus 2 .disconnected none 0).map (·.2.nodes.map Node.key))) =
      some ([3, 1, 2], some [3, 2, 1]) := by decide
  rw [hb] at hrun
  simp only [Option.map_some, Option.some.injEq, Prod.mk.injEq] at hrun
  exact ⟨b, hb, hrun.1, hinv, bucket_lru_placement hinv, hrun.2⟩

end KBucket

end Discv5.Kbucket
