import Discv5.Kbucket.Placement
import Discv5.Kbucket.TableInvariant

/-!
# Lazy application of pending nodes

A pending node enters its bucket only when an accessor runs
`apply_pending` on the bucket at or after the node's instant; the
table-level accessors push what it returns to `applied_pending`, which the
service turns into `NodeInserted` events. `KBucket::remove` runs
`apply_pending` too, after it drops the node, and discards the record.

At one instant this is harmless: after the table's own `apply_pending` a
pending node waits for a later instant, so the second one applies nothing
(`remove_records_application`). The `Entry` API splits a call in two, and
between `entry(key)` and `PresentEntry::remove` the instant can pass: the
second `apply_pending` then inserts the pending node with no record
(`entry_remove_applies_unrecorded`). And `KBucket::remove` looks for the key
among the nodes only, so removing a pending key, through the table or
through its `PendingEntry`, leaves it pending
(`pending_entry_survives_removal`).
-/

namespace Discv5.Kbucket
namespace KBucket
variable {κ V : Type} [DecidableEq κ]

/-- A pending node whose instant has not come stays pending. -/
theorem applyPending_of_lt {b : KBucket κ V} {p : PendingNode κ V} (hp : b.pending = some p)
    {now : Nat} (hnow : now < p.replace) : b.applyPending now = some (none, b) := by
  have hnle : ¬p.replace ≤ now := Nat.not_le.mpr hnow
  cases b
  simp only at hp
  simp [applyPending, hp, hnle]

/-- `insert` makes a node pending only with the `Pending` outcome. -/
theorem insert_pending_outcome {b : KBucket κ V} (hb : b.pending = none) {node : Node κ V}
    {now : Nat} {q : PendingNode κ V} (hq : (b.insert node now).2.pending = some q) :
    ∃ k, (b.insert node now).1 = .pending k := by
  unfold KBucket.insert at hq ⊢
  cases hs : node.status.state <;> cases hf : b.firstConnectedPos <;>
    simp only [hs, hf] at hq ⊢ <;> split_ifs at hq ⊢ <;> simp_all

/-- A node that is fresh, passes the filter and the incoming limit, in a
bucket with room, is inserted. -/
theorem insert_eq_inserted {b : KBucket κ V} {node : Node κ V}
    (hfresh : node.key ∉ b.nodes.map (·.key)) (hroom : b.nodes.length < maxNodesPerBucket)
    (hfilter : b.passesFilter node.value = true) (hin : node.status.isIncoming = false)
    (now : Nat) : (b.insert node now).1 = .inserted := by
  have hpos : b.position node.key = none := position_eq_none_iff.mpr hfresh
  have hne : b.nodes.length ≠ maxNodesPerBucket := Nat.ne_of_lt hroom
  have hnf : b.isFull = false := by simp [isFull, hne]
  unfold KBucket.insert
  cases hs : node.status.state <;> cases hf : b.firstConnectedPos <;>
    simp [hpos, hfilter, hin, hne, hnf]

theorem mem_insert_of_inserted {b : KBucket κ V} (h : b.Inv) {node : Node κ V} {now : Nat}
    (hr : (b.insert node now).1 = .inserted) : node ∈ (b.insert node now).2.nodes := by
  obtain ⟨ds, cs, -, -, -, hnodes⟩ := insert_inserted h hr
  rw [hnodes]
  split_ifs <;> simp

/-- With room in the bucket, a pending node whose instant has come is
inserted, without evicting anything. -/
theorem applyPending_inserts {b : KBucket κ V} (h : b.Inv) {p : PendingNode κ V}
    (hp : b.pending = some p) {now : Nat} (hnow : p.replace ≤ now)
    (hroom : b.nodes.length < maxNodesPerBucket) (hfilter : b.filter = none)
    (hin : p.node.status.isIncoming = false) :
    ∃ b', b.applyPending now = some (some ⟨p.node.key, none⟩, b') ∧ p.node ∈ b'.nodes := by
  -- the bucket the pending node is inserted into: its pending slot taken
  have h₀ : KBucket.Inv ({ b with pending := none } : KBucket κ V) := h.setPending fun q hq => by cases hq
  have hins : (({ b with pending := none } : KBucket κ V).insert p.node now).1 = .inserted :=
    insert_eq_inserted (b := { b with pending := none }) (h.pending_fresh p hp) hroom (by simp [passesFilter, hfilter]) hin now
  have hne : b.nodes.length ≠ maxNodesPerBucket := Nat.ne_of_lt hroom
  refine ⟨_, ?_, mem_insert_of_inserted h₀ hins⟩
  unfold KBucket.applyPending
  simp only [hp, hnow, if_true]
  rw [dif_neg hne]
  split
  · rename_i b' heq
    rw [heq]
  · rename_i heq
    rw [heq] at hins
    cases hins
  · rename_i hni _ heq
    rw [heq] at hins
    exact (hni hins).elim

/-- After `apply_pending` at `now`, a node still pending waits for a later instant. -/
theorem applyPending_pending_gt {b : KBucket κ V} (h : b.Inv) {now : Nat}
    {r : Option (AppliedPending κ V) × KBucket κ V} (hr : b.applyPending now = some r)
    {q : PendingNode κ V} (hq : r.2.pending = some q) : now < q.replace := by
  unfold KBucket.applyPending at hr
  cases hp : b.pending with
  | none =>
    simp only [hp] at hr
    cases hr
    simp [hp] at hq
  | some p =>
    simp only [hp] at hr
    by_cases hle : p.replace ≤ now
    swap
    · -- the instant has not come: the node is put back
      rw [if_neg hle] at hr
      simp only [Option.some.injEq] at hr
      subst hr
      simp only [Option.some.injEq] at hq
      exact hq ▸ Nat.lt_of_not_le hle
    rw [if_pos hle] at hr
    -- the pending slot was taken: only a `Pending` outcome of `insert` could fill it again
    by_cases hfull : b.nodes.length = maxNodesPerBucket
    · have hfull' : ({ b with pending := none } : KBucket κ V).nodes.length = maxNodesPerBucket :=
        hfull
      rw [dif_pos hfull'] at hr
      repeat' split at hr
      all_goals first
        | (cases hr; done)
        | (simp only [Option.some.injEq] at hr
           subst hr
           simp at hq)
    · have hroom : b.nodes.length < maxNodesPerBucket := Nat.lt_of_le_of_ne h.length_le hfull
      have hfull' : ¬({ b with pending := none } : KBucket κ V).nodes.length = maxNodesPerBucket :=
        hfull
      rw [dif_neg hfull'] at hr
      split at hr
      all_goals first
        | (cases hr; done)
        | (rename_i heq
           simp only [Option.some.injEq] at hr
           subst hr
           obtain ⟨k, hk⟩ := insert_pending_outcome rfl (by rw [heq]; exact hq)
           rw [heq] at hk
           first
             | (cases hk; done)
             | exact (insert_ne_pending_of_room (b := { b with pending := none }) hroom p.node now k
                 (by rw [heq]; exact hk)).elim)

/-- `apply_pending` applies nothing when every pending node waits for a later instant. -/
theorem applyPending_quiet {b : KBucket κ V} {now : Nat}
    (hb : ∀ q, b.pending = some q → now < q.replace) : b.applyPending now = some (none, b) := by
  cases hp : b.pending with
  | none => exact applyPending_of_pending_none hp now
  | some p => exact applyPending_of_lt hp (hb p hp)

/-- At one instant, the `apply_pending` inside `remove` finds nothing to
apply after the one that ran before it: `remove` only drops the node. -/
theorem remove_after_applyPending {b b₁ : KBucket κ V} (h : b.Inv) {now : Nat}
    {a : Option (AppliedPending κ V)} (hr : b.applyPending now = some (a, b₁)) {key : κ}
    {x : Bool} {b₂ : KBucket κ V} (hrem : b₁.remove key now = some (x, b₂)) :
    b₂.pending = b₁.pending ∧ b₂.nodes.Sublist b₁.nodes := by
  unfold KBucket.remove at hrem
  split at hrem
  · rename_i pos _
    have hquiet := applyPending_quiet (b :=
      ({ b₁ with nodes := b₁.nodes.eraseIdx pos } : KBucket κ V).updateFirstConnectedPosForRemoval pos)
      fun q hq => applyPending_pending_gt h hr hq
    dsimp only at hrem
    rw [hquiet] at hrem
    simp only [Option.map_some, Option.some.injEq, Prod.mk.injEq] at hrem
    obtain ⟨-, rfl⟩ := hrem
    exact ⟨rfl, List.eraseIdx_sublist _ _⟩
  · simp only [Option.some.injEq, Prod.mk.injEq] at hrem
    obtain ⟨-, rfl⟩ := hrem
    exact ⟨rfl, List.Sublist.refl _⟩

end KBucket

namespace KBucketsTable

variable {V : Type}

theorem applyPendingAt_of_lt {t : KBucketsTable V} {i : Fin numBuckets} {p : PendingNode NodeId V}
    (hp : (t.buckets i).pending = some p) {now : Nat} (hnow : now < p.replace) :
    t.applyPendingAt i now = some t := by
  simp [applyPendingAt, KBucket.applyPending_of_lt hp hnow, setBucket_self]

/-- `KBucketsTable::remove` and `PendingEntry::remove` on a pending key
before its instant leave the table as it was: `KBucket::remove` looks for
the key among the nodes only. Once the instant has come, the next accessor
of the bucket inserts the node, if there is room for it. -/
theorem pending_entry_survives_removal {t : KBucketsTable V} (h : t.Inv) {key : NodeId}
    {i : Fin numBuckets} (hi : t.bucketIndex key = some i) {p : PendingNode NodeId V}
    (hp : (t.buckets i).pending = some p) (hkey : p.node.key = key) {now : Nat}
    (hnow : now < p.replace) :
    t.remove key now = some (false, t) ∧ t.entry key .pendingRemove now = some t ∧
      ∀ now', p.replace ≤ now' → (t.buckets i).nodes.length < maxNodesPerBucket →
        (t.buckets i).filter = none → p.node.status.isIncoming = false →
        ∃ t', t.applyPendingAt i now' = some t' ∧ p.node ∈ (t'.buckets i).nodes := by
  have hpos : (t.buckets i).position key = none :=
    KBucket.position_eq_none_iff.mpr (hkey ▸ (h.buckets i).pending_fresh p hp)
  have hrem : (t.buckets i).remove key now = some (false, t.buckets i) := by
    simp [KBucket.remove, hpos]
  have happly := applyPendingAt_of_lt hp hnow
  refine ⟨?_, ?_, fun now' hle hroom hfilter hin => ?_⟩
  · simp [remove, hi, happly, hrem, setBucket_self]
  · have has : (t.buckets i).asPending key = some p := by simp [KBucket.asPending, hp, hkey]
    simp [entry, hi, happly, applyEntryOp, hpos, has, hrem, setBucket_self]
  · -- the bucket's own `apply_pending` now inserts the node
    obtain ⟨b', hb', hmem⟩ := KBucket.applyPending_inserts (h.buckets i) hp hle hroom hfilter hin
    exact ⟨{ t.setBucket i b' with appliedPending := t.appliedPending ++ [⟨p.node.key, none⟩] },
      by simp [applyPendingAt, hb'], by simpa using hmem⟩

/-- `entry(key)` on a present key before the pending node's instant applies
nothing; `PresentEntry::remove` at or after that instant removes the node,
and the `apply_pending` inside `KBucket::remove` inserts the pending node,
with no record of it in `applied_pending`. -/
theorem entry_remove_applies_unrecorded {t : KBucketsTable V} (h : t.Inv) {key : NodeId}
    {i : Fin numBuckets} (hpos : ((t.buckets i).position key).isSome) {p : PendingNode NodeId V}
    (hp : (t.buckets i).pending = some p) (hfilter : (t.buckets i).filter = none)
    (hin : p.node.status.isIncoming = false) {now₁ now₂ : Nat} (hnow₁ : now₁ < p.replace)
    (hnow₂ : p.replace ≤ now₂) :
    t.applyPendingAt i now₁ = some t ∧
      ∃ t', t.applyEntryOp i key .presentRemove now₂ = some t' ∧
        p.node ∉ (t.buckets i).nodes ∧ p.node ∈ (t'.buckets i).nodes ∧
        t'.appliedPending = t.appliedPending := by
  obtain ⟨pos, hpos'⟩ := Option.isSome_iff_exists.mp hpos
  obtain ⟨hlt, -⟩ := KBucket.position_eq_some hpos'
  have hb := h.buckets i
  -- the bucket once the node is removed: room for the pending node
  have h₁ := hb.eraseIdx hlt
  have hroom : (((t.buckets i).nodes.eraseIdx pos)).length < maxNodesPerBucket := by
    have := hb.length_le
    rw [List.length_eraseIdx_of_lt hlt]
    omega
  obtain ⟨b', hb', hmem⟩ := KBucket.applyPending_inserts h₁ hp hnow₂ hroom hfilter hin
  have hrem : (t.buckets i).remove key now₂ = some (true, b') := by
    simp [KBucket.remove, hpos', hb']
  refine ⟨applyPendingAt_of_lt hp hnow₁, t.setBucket i b', by simp [applyEntryOp, hpos', hrem], ?_,
    by simpa using hmem, rfl⟩
  exact fun hn => hb.pending_fresh p hp (List.mem_map_of_mem hn)

/-- At one instant, `remove` records every pending node it applies: the
`apply_pending` inside `KBucket::remove` finds nothing after the table's
own, so the bucket only loses the removed node. -/
theorem remove_records_application {t : KBucketsTable V} (h : t.Inv) {key : NodeId}
    {i : Fin numBuckets} (hi : t.bucketIndex key = some i) {now : Nat} {r : Bool × KBucketsTable V}
    (hr : t.remove key now = some r) :
    ∃ t₁, t.applyPendingAt i now = some t₁ ∧ r.2.appliedPending = t₁.appliedPending ∧
      (r.2.buckets i).nodes.Sublist (t₁.buckets i).nodes ∧ ∀ j, j ≠ i → r.2.buckets j = t₁.buckets j := by
  simp only [remove, hi, Option.bind_eq_bind, Option.bind_eq_some_iff] at hr
  obtain ⟨t₁, ht₁, ⟨x, b₂⟩, hrem, hr⟩ := hr
  simp only [Option.pure_def, Option.some.injEq] at hr
  subst hr
  refine ⟨t₁, ht₁, rfl, ?_, fun j hj => by simp [hj]⟩
  -- the bucket the table applied the pending node of
  simp only [applyPendingAt, Option.bind_eq_bind, Option.bind_eq_some_iff, Option.pure_def,
    Option.some.injEq] at ht₁
  obtain ⟨⟨a, b₁⟩, hb₁, rfl⟩ := ht₁
  have hrem' : b₁.remove key now = some (x, b₂) := by simpa using hrem
  simpa using (KBucket.remove_after_applyPending (h.buckets i) hb₁ hrem').2

/-- Sixteen disconnected nodes fill bucket 5 of the table of local key
zero, and a connected node 48 of that bucket then waits as its pending node
until instant 60. -/
def fullBucketRun : List (TableOp Unit) :=
  (List.range 16).map (fun i => .insertOrUpdate (nodeIdOfNat (32 + i)) () ⟨.outgoing, .disconnected⟩ 0) ++
    [.insertOrUpdate (nodeIdOfNat 48) () ⟨.outgoing, .connected⟩ 0]

/-- The pending node of bucket 5 after `fullBucketRun`, and after any
further operations at instants before 60 that touch neither it nor its
bucket's filter. -/
theorem fullBucketRun_pending {ops : List (TableOp Unit)} {t : KBucketsTable Unit}
    (ht : TableOp.run (KBucketsTable.new zeroNodeId 60 maxNodesPerBucket none none) ops = some t)
    (hval : (TableOp.run (KBucketsTable.new zeroNodeId 60 maxNodesPerBucket none none) ops).map
      (fun t => (t.buckets ⟨5, by decide⟩).pending.map fun p => (p.node.key, p.replace, p.node.status.isIncoming)) =
      some (some (nodeIdOfNat 48, 60, false))) :
    ∃ p, (t.buckets ⟨5, by decide⟩).pending = some p ∧ p.node.key = nodeIdOfNat 48 ∧ p.replace = 60 ∧
      p.node.status.isIncoming = false := by
  rw [ht, Option.map_some, Option.some.injEq] at hval
  obtain ⟨p, hp⟩ := Option.isSome_iff_exists.mp (Option.isSome_map.symm.trans (by rw [hval]; rfl))
  rw [hp, Option.map_some, Option.some.injEq, Prod.mk.injEq, Prod.mk.injEq] at hval
  exact ⟨p, hp, hval.1, hval.2.1, hval.2.2⟩

/-- In the full bucket 5, `entry(33)` at instant 0 applies nothing; its
`remove` at instant 60 puts node 48 in the bucket with nothing recorded. -/
theorem entry_remove_applies_unrecorded_fullBucket :
    ∃ t, TableOp.run (KBucketsTable.new zeroNodeId 60 maxNodesPerBucket none none) fullBucketRun = some t ∧
      (t.buckets ⟨5, by decide⟩).nodes.length = maxNodesPerBucket ∧
      t.applyPendingAt ⟨5, by decide⟩ 0 = some t ∧
      ∃ t', t.applyEntryOp ⟨5, by decide⟩ (nodeIdOfNat 33) .presentRemove 60 = some t' ∧
        nodeIdOfNat 48 ∉ (t.buckets ⟨5, by decide⟩).nodes.map (·.key) ∧
        nodeIdOfNat 48 ∈ (t'.buckets ⟨5, by decide⟩).nodes.map (·.key) ∧
        t'.appliedPending = t.appliedPending := by
  obtain ⟨t, ht, hinv, -⟩ := TableOp.run_inv (Inv.new zeroNodeId 60 maxNodesPerBucket none none) fullBucketRun
  have hfull : (TableOp.run (KBucketsTable.new zeroNodeId 60 maxNodesPerBucket none none) fullBucketRun).map
      (fun t => (t.buckets ⟨5, by decide⟩).nodes.length) = some 16 := by decide +kernel
  have hpos : (TableOp.run (KBucketsTable.new zeroNodeId 60 maxNodesPerBucket none none) fullBucketRun).map
      (fun t => ((t.buckets ⟨5, by decide⟩).position (nodeIdOfNat 33)).isSome) = some true := by decide +kernel
  have hfilter : (TableOp.run (KBucketsTable.new zeroNodeId 60 maxNodesPerBucket none none) fullBucketRun).map
      (fun t => (t.buckets ⟨5, by decide⟩).filter.isNone) = some true := by decide +kernel
  obtain ⟨p, hp, hkey, hreplace, hin⟩ := fullBucketRun_pending ht (by decide +kernel)
  rw [ht, Option.map_some, Option.some.injEq] at hfull hpos hfilter
  obtain ⟨h₁, t', ht', -, hmem, hlog⟩ := entry_remove_applies_unrecorded hinv hpos hp
    (Option.isNone_iff_eq_none.mp hfilter) hin (by omega : 0 < p.replace) (by omega : p.replace ≤ 60)
  refine ⟨t, ht, hfull, h₁, t', ht', ?_, hkey ▸ List.mem_map_of_mem hmem, hlog⟩
  exact hkey ▸ (hinv.buckets _).pending_fresh p hp

/-- The table after `fullBucketRun` and the removal of node 32 at instant
0, which applies nothing and leaves room in bucket 5: removing the pending
node 48 at instant 0 leaves the table as it was, and at instant 60 the next
accessor of the bucket inserts it. -/
theorem pending_entry_survives_removal_roomyBucket :
    ∃ t, TableOp.run (KBucketsTable.new zeroNodeId 60 maxNodesPerBucket none none)
        (fullBucketRun ++ [.remove (nodeIdOfNat 32) 0]) = some t ∧
      t.remove (nodeIdOfNat 48) 0 = some (false, t) ∧
      t.entry (nodeIdOfNat 48) .pendingRemove 0 = some t ∧
      ∃ t', t.applyPendingAt ⟨5, by decide⟩ 60 = some t' ∧
        nodeIdOfNat 48 ∈ (t'.buckets ⟨5, by decide⟩).nodes.map (·.key) := by
  obtain ⟨t, ht, hinv, -⟩ := TableOp.run_inv (Inv.new zeroNodeId 60 maxNodesPerBucket none none)
    (fullBucketRun ++ [.remove (nodeIdOfNat 32) 0])
  have hi : (TableOp.run (KBucketsTable.new zeroNodeId 60 maxNodesPerBucket none none)
      (fullBucketRun ++ [.remove (nodeIdOfNat 32) 0])).map (fun t => t.bucketIndex (nodeIdOfNat 48)) =
      some (some ⟨5, by decide⟩) := by decide +kernel
  have hroom : (TableOp.run (KBucketsTable.new zeroNodeId 60 maxNodesPerBucket none none)
      (fullBucketRun ++ [.remove (nodeIdOfNat 32) 0])).map
      (fun t => (t.buckets ⟨5, by decide⟩).nodes.length) = some 15 := by decide +kernel
  have hfilter : (TableOp.run (KBucketsTable.new zeroNodeId 60 maxNodesPerBucket none none)
      (fullBucketRun ++ [.remove (nodeIdOfNat 32) 0])).map
      (fun t => (t.buckets ⟨5, by decide⟩).filter.isNone) = some true := by decide +kernel
  obtain ⟨p, hp, hkey, hreplace, hin⟩ := fullBucketRun_pending ht (by decide +kernel)
  rw [ht, Option.map_some, Option.some.injEq] at hi hroom hfilter
  have h := pending_entry_survives_removal hinv hi hp hkey (by omega : 0 < p.replace)
  obtain ⟨t', ht', hmem⟩ := h.2.2 60 (by omega) (by rw [hroom]; decide)
    (Option.isNone_iff_eq_none.mp hfilter) hin
  exact ⟨t, ht, h.1, h.2.1, t', ht', hkey ▸ List.mem_map_of_mem hmem⟩

end KBucketsTable
end Discv5.Kbucket
