import Discv5.Kbucket.TableInvariant

/-!
# The order in which the closest-keys iterator visits buckets

`ClosestBucketsIter` moves from `ZoomIn` to `ZoomOut` by yielding bucket `0`
whatever bit `0` of the distance is. When that bit is set, bucket `0` has
already been yielded by `ZoomIn` (or by `Start`, when the distance is `0`),
so `closest_keys` returns its keys twice.
-/

namespace Discv5.Kbucket

namespace KBucketsTable

/-- A lookup of the local key in the table reached by one `insert_or_update`
yields the node of bucket `0` twice. -/
theorem closestKeys_zeroNodeId_repeats :
    (KBucketsTable.new zeroNodeId 60 maxNodesPerBucket none none).insertOrUpdate oneNodeId ()
        ⟨.outgoing, .connected⟩ 0 = some (.inserted, oneNodeTable) ∧
      ∃ it, (oneNodeTable.closestKeys zeroNodeId).take 0 2 = some ([oneNodeId, oneNodeId], it) := by
  refine ⟨insertOrUpdate_oneNodeId, ?_⟩
  have hap : oneNodeTable.applyPendingAt ⟨0, by decide⟩ 0 = some oneNodeTable :=
    applyPendingAt_of_pending_none (by rw [oneNodeTable_bucket_zero]) 0
  have hsort : ClosestIter.sortByDistance zeroNodeId id
      ((oneNodeTable.buckets ⟨0, by decide⟩).nodes.map (·.key)) = [oneNodeId] := by
    simp [oneNodeTable_bucket_zero, ClosestIter.sortByDistance]
  have hstart : (oneNodeTable.closestKeys zeroNodeId).bucketsIter.next =
      (some ⟨0, by decide⟩, ⟨⟨0#256⟩, .zoomIn ⟨0, by decide⟩⟩) := by
    have : oneNodeTable.localKey = zeroNodeId := rfl
    simp [closestKeys, closestIter, ClosestBucketsIter.new, this, bucketIndex_new_eq,
      ClosestBucketsIter.next]
  have hzoom : (⟨⟨0#256⟩, .zoomIn ⟨0, by decide⟩⟩ : ClosestBucketsIter).next =
      (some ⟨0, by decide⟩, ⟨⟨0#256⟩, .zoomOut ⟨0, by decide⟩⟩) := rfl
  simp only [ClosestIter.take]
  rw [ClosestIter.next_of_bucket _ rfl hstart hap]
  simp only [closestKeys, closestIter, hsort, ClosestIter.next_cons, ClosestIter.next_nil]
  rw [ClosestIter.next_of_bucket _ rfl hzoom hap]
  simp only [hsort, ClosestIter.next_cons]
  exact ⟨_, rfl⟩

end KBucketsTable

end Discv5.Kbucket
