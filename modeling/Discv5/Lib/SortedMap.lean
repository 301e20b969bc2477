import Mathlib

/-!
# Sorted association lists

A finite map whose entries are kept in strictly increasing order of their
keys, the model of a `BTreeMap`: iterating visits the keys in order,
`entry(k)` finds the entry of `k`, `insert` and `entry(k).or_insert(v)` put
a new entry at its key's place, and `values_mut` rewrites the values in
place. The order is a field of the map, so every map that can be built has
sorted keys and no key twice.

What a proof about such a map usually needs is where an entry can come
from after each operation, and how many values satisfy a predicate; the
lemmas give the first as membership and the second as `List.countP`.
-/

namespace SortedMap

variable {K V : Type} [LinearOrder K]

/-- Strictly increasing keys. -/
def Sorted (l : List (K × V)) : Prop := l.Pairwise (fun a b => a.1 < b.1)

/-- Sorted insertion into an entry list, replacing the entry of an equal key. -/
def insertEntry (k : K) (v : V) : List (K × V) → List (K × V)
  | [] => [(k, v)]
  | (k', v') :: rest =>
    if k < k' then (k, v) :: (k', v') :: rest
    else if k = k' then (k, v) :: rest
    else (k', v') :: insertEntry k v rest

theorem mem_insertEntry {k : K} {v : V} {e : K × V} :
    ∀ {l : List (K × V)}, e ∈ insertEntry k v l → e = (k, v) ∨ e ∈ l
  | [], h => by simpa [insertEntry] using h
  | (k', v') :: rest, h => by
    rw [insertEntry] at h
    split_ifs at h with hlt heq
    · simpa using h
    · rcases List.mem_cons.1 h with h | h
      · exact .inl h
      · exact .inr (List.mem_cons_of_mem _ h)
    · rcases List.mem_cons.1 h with h | h
      · exact .inr (h ▸ List.mem_cons_self)
      · rcases mem_insertEntry h with h | h
        · exact .inl h
        · exact .inr (List.mem_cons_of_mem _ h)

theorem Sorted.insertEntry {l : List (K × V)} (h : Sorted l) (k : K) (v : V) :
    Sorted (insertEntry k v l) := by
  induction l with
  | nil => simp [SortedMap.insertEntry, Sorted]
  | cons hd tl ih =>
    obtain ⟨k', v'⟩ := hd
    have htl : Sorted tl := h.of_cons
    have hhd : ∀ e ∈ tl, k' < e.1 := fun e he => List.rel_of_pairwise_cons h he
    rw [SortedMap.insertEntry]
    split_ifs with hlt heq
    · refine List.Pairwise.cons (fun e he => ?_) h
      rcases List.mem_cons.1 he with rfl | he
      · exact hlt
      · exact lt_trans hlt (hhd e he)
    · subst heq
      exact htl.cons hhd
    · refine (ih htl).cons fun e he => ?_
      rcases mem_insertEntry he with rfl | he
      · exact lt_of_le_of_ne (not_lt.1 hlt) (Ne.symm heq)
      · exact hhd e he

/-- Inserting a key that is absent adds one entry. -/
theorem insertEntry_perm {k : K} {v : V} :
    ∀ {l : List (K × V)}, (∀ e ∈ l, e.1 ≠ k) → (insertEntry k v l).Perm ((k, v) :: l)
  | [], _ => by simp [insertEntry]
  | (k', v') :: rest, h => by
    have hne : k' ≠ k := h _ List.mem_cons_self
    rw [insertEntry, if_neg (Ne.symm hne)]
    split_ifs with hlt
    · exact List.Perm.refl _
    · have ih := insertEntry_perm (v := v) fun e he => h e (List.mem_cons_of_mem _ he)
      exact (ih.cons _).trans (List.Perm.swap _ _ _)

theorem Sorted.key_ne_of_mem_cons {e : K × V} {l : List (K × V)} (h : Sorted (e :: l)) :
    ∀ x ∈ l, x.1 ≠ e.1 :=
  fun _ hx => ne_of_gt (List.rel_of_pairwise_cons h hx)

/-- Two entries of one key in a sorted list are the same entry. -/
theorem Sorted.eq_of_mem {l : List (K × V)} (h : Sorted l) {a b : K × V} (ha : a ∈ l)
    (hb : b ∈ l) (hk : a.1 = b.1) : a = b := by
  induction l with
  | nil => simp at ha
  | cons e l ih =>
    rcases List.mem_cons.1 ha with rfl | ha' <;> rcases List.mem_cons.1 hb with rfl | hb'
    · rfl
    · exact absurd hk.symm (h.key_ne_of_mem_cons _ hb')
    · exact absurd hk (h.key_ne_of_mem_cons _ ha')
    · exact ih h.of_cons ha' hb'

end SortedMap

/-- `BTreeMap<K, V>`: entries in strictly increasing order of their keys. -/
structure SortedMap (K V : Type) [LinearOrder K] where
  entries : List (K × V)
  sorted : SortedMap.Sorted entries

namespace SortedMap

variable {K V : Type} [LinearOrder K]

/-- `BTreeMap::new`. -/
def empty : SortedMap K V := ⟨[], List.Pairwise.nil⟩

/-- The value stored under `k` (`get`, or the entry of `entry(k)`). -/
def find? (m : SortedMap K V) (k : K) : Option V :=
  (m.entries.find? fun e => e.1 = k).map Prod.snd

/-- `BTreeMap::insert`: the entry of `k` is replaced. -/
def insert (m : SortedMap K V) (k : K) (v : V) : SortedMap K V :=
  ⟨insertEntry k v m.entries, m.sorted.insertEntry k v⟩

/-- `entry(k).or_insert(v)`: a present key keeps its value. -/
def orInsert (m : SortedMap K V) (k : K) (v : V) : SortedMap K V :=
  if (m.find? k).isSome then m else m.insert k v

/-- Writing through the occupied entry of `k` (`e.get_mut()`). -/
def set (m : SortedMap K V) (k : K) (v : V) : SortedMap K V :=
  ⟨m.entries.map (fun e => (e.1, if e.1 = k then v else e.2)), by
    unfold Sorted
    rw [List.pairwise_map]
    exact m.sorted⟩

/-- `values_mut`, once the loop over it has rewritten the values: `l` holds
the same keys. -/
def withEntries (m : SortedMap K V) (l : List (K × V)) (h : l.map Prod.fst = m.entries.map Prod.fst) :
    SortedMap K V :=
  ⟨l, by
    have hkeys : (m.entries.map Prod.fst).Pairwise (· < ·) := List.pairwise_map.2 m.sorted
    rw [← h] at hkeys
    exact List.pairwise_map.1 hkeys⟩

/-- `keys().next()`. -/
def firstKey? (m : SortedMap K V) : Option K := m.entries.head?.map Prod.fst

/-- `len`. -/
def length (m : SortedMap K V) : Nat := m.entries.length

/-- `values`, in increasing order of the keys. -/
def values (m : SortedMap K V) : List V := m.entries.map Prod.snd

/-- `keys`, in increasing order. -/
def keys (m : SortedMap K V) : List K := m.entries.map Prod.fst

/-- `FromIterator`: the pairs inserted one after the other, so that of two
pairs with one key the later value stays. -/
def ofList (l : List (K × V)) : SortedMap K V := l.foldl (fun m e => m.insert e.1 e.2) empty

@[simp] theorem empty_entries : (empty : SortedMap K V).entries = [] := rfl

@[simp] theorem withEntries_entries (m : SortedMap K V) (l : List (K × V)) (h) :
    (m.withEntries l h).entries = l := rfl

theorem find?_eq_some_iff {m : SortedMap K V} {k : K} {v : V} :
    m.find? k = some v ↔ (k, v) ∈ m.entries := by
  constructor
  · intro h
    obtain ⟨e, he, rfl⟩ := Option.map_eq_some_iff.1 h
    have hk : e.1 = k := by simpa using List.find?_some he
    have hmem := List.mem_of_find?_eq_some he
    rwa [← hk]
  · intro h
    have hsome : (m.entries.find? fun e => e.1 = k).isSome :=
      List.find?_isSome.2 ⟨(k, v), h, by simp⟩
    obtain ⟨e, he⟩ := Option.isSome_iff_exists.1 hsome
    have hk : e.1 = k := by simpa using List.find?_some he
    have heq : e = (k, v) := m.sorted.eq_of_mem (List.mem_of_find?_eq_some he) h hk
    simp [find?, he, heq]

theorem find?_eq_none_iff {m : SortedMap K V} {k : K} :
    m.find? k = none ↔ ∀ e ∈ m.entries, e.1 ≠ k := by
  simp [find?, List.find?_eq_none]

theorem mem_set {m : SortedMap K V} {k : K} {v : V} {e : K × V} (he : e ∈ (m.set k v).entries) :
    e = (k, v) ∨ e ∈ m.entries := by
  obtain ⟨e', he', rfl⟩ := List.mem_map.1 he
  by_cases hk : e'.1 = k
  · simp [hk]
  · right
    simpa [hk] using he'

theorem mem_orInsert {m : SortedMap K V} {k : K} {v : V} {e : K × V}
    (he : e ∈ (m.orInsert k v).entries) : e = (k, v) ∨ e ∈ m.entries := by
  unfold orInsert at he
  split_ifs at he
  · exact .inr he
  · exact mem_insertEntry he

theorem mem_foldl_insert {e : K × V} :
    ∀ (l : List (K × V)) (m : SortedMap K V), e ∈ (l.foldl (fun m e => m.insert e.1 e.2) m).entries →
      e ∈ m.entries ∨ e ∈ l
  | [], _, h => .inl h
  | x :: l, m, h => by
    rcases mem_foldl_insert l (m.insert x.1 x.2) h with h | h
    · rcases mem_insertEntry h with rfl | h
      · exact .inr List.mem_cons_self
      · exact .inl h
    · exact .inr (List.mem_cons_of_mem _ h)

theorem mem_ofList {l : List (K × V)} {e : K × V} (he : e ∈ (ofList l).entries) : e ∈ l := by
  simpa using mem_foldl_insert l empty he

section Count

variable (p : V → Bool)

theorem countP_map_set {k : K} {v₀ v : V} :
    ∀ {l : List (K × V)}, Sorted l → (k, v₀) ∈ l →
      ((l.map (fun e => (e.1, if e.1 = k then v else e.2))).map Prod.snd).countP p + (p v₀).toNat =
        (l.map Prod.snd).countP p + (p v).toNat
  | [], _, hmem => by simp at hmem
  | e :: l, hsorted, hmem => by
    simp only [List.map_cons, List.countP_cons]
    rcases List.mem_cons.1 hmem with rfl | hl
    · -- the entry of `k` is the head, and no later entry has its key
      have hrest : l.map (fun e => (e.1, if e.1 = k then v else e.2)) = l := by
        rw [List.map_congr_left (g := fun x => x) fun x hx => by simp [hsorted.key_ne_of_mem_cons x hx],
          List.map_id']
      simp only [if_true, hrest]
      cases p v₀ <;> cases p v <;> simp
    · have hne : e.1 ≠ k := fun h => hsorted.key_ne_of_mem_cons _ hl (h ▸ rfl)
      have := countP_map_set (v := v) hsorted.of_cons hl
      simp only [hne, if_false]
      omega

/-- Writing `v` over `v₀` at `k` trades `v₀`'s count for `v`'s. -/
theorem countP_values_set {m : SortedMap K V} {k : K} {v₀ : V} (hk : m.find? k = some v₀) (v : V) :
    (m.set k v).values.countP p + (p v₀).toNat = m.values.countP p + (p v).toNat :=
  countP_map_set p m.sorted (find?_eq_some_iff.1 hk)

/-- `or_insert` of a value that `p` rejects leaves the count. -/
theorem countP_values_orInsert {m : SortedMap K V} (k : K) {v : V} (hv : p v = false) :
    (m.orInsert k v).values.countP p = m.values.countP p := by
  unfold orInsert
  split_ifs with h
  · rfl
  · have hperm : (insertEntry k v m.entries).Perm ((k, v) :: m.entries) :=
      insertEntry_perm (find?_eq_none_iff.1 (by simpa using h))
    simp only [values, insert]
    rw [(hperm.map Prod.snd).countP_eq]
    simp [hv]

end Count

/-! ## Keys

`or_insert` of a present key changes nothing, and of a key below every
present one makes it the first key: the two facts `keys().next()` is read
through. -/

theorem isSome_find?_iff {m : SortedMap K V} {k : K} : (m.find? k).isSome ↔ k ∈ m.keys := by
  simp [find?, keys, List.find?_isSome]

theorem firstKey?_eq_head?_keys (m : SortedMap K V) : m.firstKey? = m.keys.head? := by
  simp [firstKey?, keys, List.head?_map]

@[simp] theorem keys_set (m : SortedMap K V) (k : K) (v : V) : (m.set k v).keys = m.keys := by
  simp [keys, set, Function.comp_def]

@[simp] theorem length_set (m : SortedMap K V) (k : K) (v : V) : (m.set k v).length = m.length := by
  simp [length, set]

@[simp] theorem firstKey?_set (m : SortedMap K V) (k : K) (v : V) :
    (m.set k v).firstKey? = m.firstKey? := by
  rw [firstKey?_eq_head?_keys, firstKey?_eq_head?_keys, keys_set]

theorem orInsert_of_mem_keys {m : SortedMap K V} {k : K} (h : k ∈ m.keys) (v : V) : m.orInsert k v = m := by
  rw [orInsert, if_pos (isSome_find?_iff.2 h)]

theorem mem_keys_insertEntry {k k' : K} {v : V} :
    ∀ {l : List (K × V)}, k' ∈ (insertEntry k v l).map Prod.fst ↔ k' = k ∨ k' ∈ l.map Prod.fst
  | [] => by simp [insertEntry]
  | (k'', v'') :: rest => by
    rw [insertEntry]
    split_ifs with hlt heq
    · simp
    · subst heq
      simp
    · simp only [List.map_cons, List.mem_cons, mem_keys_insertEntry]
      tauto

theorem mem_keys_orInsert {m : SortedMap K V} {k k' : K} {v : V} :
    k' ∈ (m.orInsert k v).keys ↔ k' = k ∨ k' ∈ m.keys := by
  unfold orInsert
  split_ifs with h
  · constructor
    · exact .inr
    · rintro (rfl | hk)
      · exact isSome_find?_iff.1 h
      · exact hk
  · exact mem_keys_insertEntry

theorem firstKey?_orInsert_of_lt {m : SortedMap K V} {k : K} (h : ∀ k' ∈ m.keys, k < k') (v : V) :
    (m.orInsert k v).firstKey? = some k := by
  have hk : k ∉ m.keys := fun hk => lt_irrefl k (h k hk)
  rw [orInsert, if_neg (mt isSome_find?_iff.1 hk)]
  show (insertEntry k v m.entries).head?.map Prod.fst = some k
  cases hl : m.entries with
  | nil => simp [insertEntry]
  | cons e rest =>
    have hlt : k < e.1 := h e.1 (by simp [keys, hl])
    simp [insertEntry, hlt]

end SortedMap
