import Discv5.Kbucket.Table

/-!
# The closest-keys iterator

`ClosestBucketsIter` and `ClosestIter` of `src/kbucket.rs`. The bucket
iterator is a state machine over bucket indices: `Start` yields the bucket of
the target, `ZoomIn` the buckets of the set bits of the distance from high to
low, then bucket `0`, and `ZoomOut` the buckets of the clear bits from low to
high. `ClosestIter` applies the pending node of each bucket as it reaches it
and yields the bucket's entries sorted by distance to the target.

`ClosestIter::next` loops until it has an item or the buckets are exhausted;
the loop is a well-founded recursion on the bucket iterator's progress.
-/

namespace Discv5.Kbucket

/-- Operating states of a `ClosestBucketsIter`. -/
inductive ClosestBucketsIterState where
  | start (i : Fin numBuckets)
  | zoomIn (i : Fin numBuckets)
  | zoomOut (i : Fin numBuckets)
  | done
  deriving DecidableEq, Repr

structure ClosestBucketsIter where
  distance : Distance
  state : ClosestBucketsIterState
  deriving DecidableEq

namespace ClosestBucketsIter

/-- `ClosestBucketsIter::new`. -/
def new (distance : Distance) : ClosestBucketsIter :=
  ⟨distance, match BucketIndex.new distance with
    | some i => .start i
    | none => .start ⟨0, by decide⟩⟩

/-- `ClosestBucketsIter::next_in`: the highest set bit of the distance below `i`. -/
def nextIn (it : ClosestBucketsIter) (i : Fin numBuckets) : Option (Fin numBuckets) :=
  ((List.finRange numBuckets).take i).reverse.find? fun j => it.distance.val.bit j

/-- `ClosestBucketsIter::next_out`: the lowest clear bit of the distance above `i`. -/
def nextOut (it : ClosestBucketsIter) (i : Fin numBuckets) : Option (Fin numBuckets) :=
  ((List.finRange numBuckets).drop (i + 1)).find? fun j => !it.distance.val.bit j

/-- `Iterator::next` for `ClosestBucketsIter`. -/
def next (it : ClosestBucketsIter) : Option (Fin numBuckets) × ClosestBucketsIter :=
  match it.state with
  | .start i => (some i, { it with state := .zoomIn i })
  | .zoomIn i =>
    match it.nextIn i with
    | some i => (some i, { it with state := .zoomIn i })
    | none => (some ⟨0, by decide⟩, { it with state := .zoomOut ⟨0, by decide⟩ })
  | .zoomOut i =>
    match it.nextOut i with
    | some i => (some i, { it with state := .zoomOut i })
    | none => (none, { it with state := .done })
  | .done => (none, it)

/-- How far the iterator is from `Done`. -/
def measure (it : ClosestBucketsIter) : Nat :=
  match it.state with
  | .start _ => 2 * numBuckets + 1
  | .zoomIn i => numBuckets + 1 + i
  | .zoomOut i => numBuckets - i
  | .done => 0

theorem lt_of_mem_take_finRange {n k : Nat} {j : Fin n} (h : j ∈ (List.finRange n).take k) :
    j.val < k := by
  obtain ⟨m, hm, rfl⟩ := List.mem_iff_getElem.mp h
  simp at hm ⊢
  omega

theorem lt_of_mem_drop_finRange {n k : Nat} {j : Fin n} (h : j ∈ (List.finRange n).drop k) :
    k ≤ j.val := by
  obtain ⟨m, hm, rfl⟩ := List.mem_iff_getElem.mp h
  simp

theorem nextIn_lt {it : ClosestBucketsIter} {i j : Fin numBuckets} (h : it.nextIn i = some j) :
    j < i := by
  have hm := List.mem_reverse.mp (List.mem_of_find?_eq_some h)
  exact lt_of_mem_take_finRange hm

theorem nextOut_gt {it : ClosestBucketsIter} {i j : Fin numBuckets} (h : it.nextOut i = some j) :
    i < j := by
  have hm := lt_of_mem_drop_finRange (List.mem_of_find?_eq_some h)
  exact Nat.lt_of_succ_le hm

/-- Each item moves the iterator strictly towards `Done`. -/
theorem measure_next_lt {it : ClosestBucketsIter} {i : Fin numBuckets}
    {it' : ClosestBucketsIter} (h : it.next = (some i, it')) : it'.measure < it.measure := by
  have hi : i.val < numBuckets := i.isLt
  unfold next at h
  split at h
  · rename_i i₀ hs
    cases h
    simp only [measure, hs]
    unfold numBuckets at hi ⊢
    omega
  · rename_i i₀ hs
    split at h
    · rename_i j hj
      cases h
      have := nextIn_lt hj
      simp only [measure, hs, Fin.lt_def] at this ⊢
      omega
    · cases h
      simp only [measure, hs]
      omega
  · rename_i i₀ hs
    split at h
    · rename_i j hj
      cases h
      have := nextOut_gt hj
      simp only [measure, hs, Fin.lt_def] at this ⊢
      omega
    · cases h
  · cases h

end ClosestBucketsIter

/-- `ClosestValue`: a key with its value. -/
structure ClosestValue (V : Type) where
  key : NodeId
  value : V

/-- `PredicateValue`: a key with its value and whether the predicate matched. -/
structure PredicateValue (V : Type) where
  key : NodeId
  predicateMatch : Bool
  value : V

/-- An iterator over (a projection `fmap` of) the entries of the table, bucket
by bucket in the order of `bucketsIter`; `keyOf` is `AsRef<Key>`. -/
structure ClosestIter (V Out : Type) where
  target : NodeId
  table : KBucketsTable V
  bucketsIter : ClosestBucketsIter
  iter : Option (List Out)
  fmap : KBucket NodeId V → List Out
  keyOf : Out → NodeId

namespace ClosestIter

variable {V Out : Type}

/-- `v.sort_by(|a, b| target.distance(a).cmp(&target.distance(b)))`: a stable sort. -/
def sortByDistance (target : NodeId) (keyOf : Out → NodeId) (v : List Out) : List Out :=
  v.mergeSort fun a b => decide ((distance target (keyOf a)).val ≤ (distance target (keyOf b)).val)

/-- How far the iterator is from its end: the bucket iterator first, then
whether a drained bucket list is still held. -/
def measure (it : ClosestIter V Out) : Nat × Nat :=
  (it.bucketsIter.measure, match it.iter with | some _ => 1 | none => 0)

-- the match hypotheses are used by the termination proof only
set_option linter.unusedVariables false in
/-- `Iterator::next` for `ClosestIter`. -/
def next (it : ClosestIter V Out) (now : Nat) : Option (Option Out × ClosestIter V Out) :=
  match hiter : it.iter with
  | some (k :: rest) => some (some k, { it with iter := some rest })
  | some [] => next { it with iter := none } now
  | none =>
    match hb : it.bucketsIter.next with
    | (some i, bucketsIter) =>
      match it.table.applyPendingAt i now with
      | none => none
      | some table =>
        let v := sortByDistance it.target it.keyOf (it.fmap (table.buckets i))
        next { it with table, bucketsIter, iter := some v } now
    | (none, bucketsIter) => some (none, { it with bucketsIter })
termination_by it.measure
decreasing_by
  · simp only [measure, hiter]
    exact Prod.Lex.right _ (by decide)
  · simp only [measure, hiter]
    exact Prod.Lex.left _ _ (ClosestBucketsIter.measure_next_lt hb)

/-! One lemma per branch of the loop in `next`. -/

@[simp] theorem next_cons (target : NodeId) (table : KBucketsTable V)
    (bucketsIter : ClosestBucketsIter) (k : Out) (rest : List Out)
    (fmap : KBucket NodeId V → List Out) (keyOf : Out → NodeId) (now : Nat) :
    (⟨target, table, bucketsIter, some (k :: rest), fmap, keyOf⟩ : ClosestIter V Out).next now =
      some (some k, ⟨target, table, bucketsIter, some rest, fmap, keyOf⟩) := by
  rw [next]

@[simp] theorem next_nil (target : NodeId) (table : KBucketsTable V)
    (bucketsIter : ClosestBucketsIter) (fmap : KBucket NodeId V → List Out)
    (keyOf : Out → NodeId) (now : Nat) :
    (⟨target, table, bucketsIter, some [], fmap, keyOf⟩ : ClosestIter V Out).next now =
      (⟨target, table, bucketsIter, none, fmap, keyOf⟩ : ClosestIter V Out).next now := by
  rw [next]

theorem next_of_bucket (it : ClosestIter V Out) (h : it.iter = none) {i : Fin numBuckets}
    {bucketsIter : ClosestBucketsIter} (hb : it.bucketsIter.next = (some i, bucketsIter))
    {now : Nat} {table : KBucketsTable V} (ht : it.table.applyPendingAt i now = some table) :
    it.next now = ({ it with
      table := table
      bucketsIter := bucketsIter
      iter := some (sortByDistance it.target it.keyOf (it.fmap (table.buckets i))) } :
        ClosestIter V Out).next now := by
  fun_cases ClosestIter.next it now with
  | case4 hiter i' bucketsIter' hb' table' ht' =>
    rw [hb] at hb'
    simp only [Prod.mk.injEq, Option.some.injEq] at hb'
    obtain ⟨rfl, rfl⟩ := hb'
    rw [ht] at ht'
    cases ht'
    rfl
  | _ => simp_all

/-- The first `n` items (fewer if the iterator ends), and the iterator after them. -/
def take (now : Nat) : Nat → ClosestIter V Out → Option (List Out × ClosestIter V Out)
  | 0, it => some ([], it)
  | n + 1, it =>
    match it.next now with
    | none => none
    | some (none, it) => some ([], it)
    | some (some x, it) => do
      let (xs, it) ← take now n it
      pure (x :: xs, it)

end ClosestIter

namespace KBucketsTable

variable {V : Type} [DecidableEq V]

/-- The iterator state shared by the `closest_*` functions. -/
def closestIter {Out : Type} (t : KBucketsTable V) (target : NodeId)
    (fmap : KBucket NodeId V → List Out) (keyOf : Out → NodeId) : ClosestIter V Out :=
  ⟨target, t, ClosestBucketsIter.new (distance t.localKey target), none, fmap, keyOf⟩

/-- `KBucketsTable::closest_keys`. -/
def closestKeys (t : KBucketsTable V) (target : NodeId) : ClosestIter V NodeId :=
  t.closestIter target (fun b => b.nodes.map (·.key)) id

/-- `KBucketsTable::closest_values`. -/
def closestValues (t : KBucketsTable V) (target : NodeId) : ClosestIter V (ClosestValue V) :=
  t.closestIter target (fun b => b.nodes.map fun n => ⟨n.key, n.value⟩) (·.key)

/-- `KBucketsTable::closest_values_predicate`. -/
def closestValuesPredicate (t : KBucketsTable V) (target : NodeId) (predicate : V → Bool) :
    ClosestIter V (PredicateValue V) :=
  t.closestIter target (fun b => b.nodes.map fun n => ⟨n.key, predicate n.value, n.value⟩) (·.key)

end KBucketsTable

end Discv5.Kbucket
