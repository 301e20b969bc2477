import Discv5.Lib.ListMap

/-!
# The LRU time cache

`src/lru_time_cache.rs`. An `LruTimeCache` keeps key-value pairs with the
instant each was last touched (inserted, or read through `get`/`get_mut`)
in a `LinkedHashMap`, front to back from least to most recently touched. A
pair is forgotten once `ttl` has passed since its last touch, or when an
insertion takes the cache over its capacity, which pops the front pair.

`hashlink`'s `LinkedHashMap` is not part of the repository. It is a
`ListMap` here: `insert` replaces the pair of its key and moves it to the
back (hashlink's `insert`; `to_back` after a write is the same), and
`pop_front` takes the head off the list. Instants and durations are counts
of one time unit.

Expiry looks at the front only: `remove_expired_values` pops while the
front pair has expired. That drops every expired pair because the pairs are
in order of touch time, which every run from `new` at non-decreasing
instants keeps (`Inv`, `Inv.run`); on such a list popping the expired front
is filtering out every expired pair (`removeExpiredValues_eq_filter`), and
`lru_time_cache_semantics` states what `get`, `get_mut`, `peek`, `len` and
`insert` then do. It also reads `get` after a run off the calls of the run:
the key's last write (`history`), kept unless it expired, was removed, or
was the front pair an insertion popped (`Agrees`, carried by `Agrees.run`).
-/

namespace Discv5

/-- `usize::MAX`, the capacity of a cache built without one. -/
def usizeMax : Nat := 2 ^ 64 - 1

/-- `LruTimeCache`: the pairs with the instant each was last touched, front
to back, the time-to-live and the capacity. -/
structure LruTimeCache (K V : Type) where
  map : List (K × V × Nat)
  ttl : Nat
  capacity : Nat

namespace LruTimeCache

variable {K V : Type}

/-- `LruTimeCache::new`. -/
def new (ttl : Nat) (capacity : Option Nat) : LruTimeCache K V :=
  ⟨[], ttl, capacity.getD usizeMax⟩

/-- `remove_expired_values`: pops the front pair while its touch time plus
`ttl` is before `now`. -/
def removeExpiredValues (c : LruTimeCache K V) (now : Nat) : LruTimeCache K V :=
  { c with map := c.map.dropWhile fun e => !decide (now ≤ e.2.2 + c.ttl) }

/-- `len`: the number of pairs once the expired ones are gone. -/
def len (c : LruTimeCache K V) (now : Nat) : Nat × LruTimeCache K V :=
  let c := c.removeExpiredValues now
  (c.map.length, c)

section Keys

variable [DecidableEq K]

/-- `insert` at the instant `now`: the pair goes to the back, and the front
pair goes if that takes the cache over its capacity. -/
def insert (c : LruTimeCache K V) (key : K) (value : V) (now : Nat) : LruTimeCache K V :=
  let map := ListMap.insert c.map key (value, now)
  if map.length > c.capacity then { c with map := map.tail } else { c with map }

/-- `get_mut` at the instant `now`, with `update` the write the caller
makes through the reference it returns: the expired pairs go, and a pair
found is touched and moved to the back. It returns the value found. -/
def getMut (c : LruTimeCache K V) (key : K) (now : Nat) (update : V → V) :
    Option V × LruTimeCache K V :=
  let c := c.removeExpiredValues now
  match ListMap.lookup c.map key with
  | some (value, _) => (some value, { c with map := ListMap.insert c.map key (update value, now) })
  | none => (none, c)

/-- `get`: `get_mut`, with no write. -/
def get (c : LruTimeCache K V) (key : K) (now : Nat) : Option V × LruTimeCache K V :=
  c.getMut key now id

/-- `peek`: the value of a pair that has not expired, which stays as it is. -/
def peek (c : LruTimeCache K V) (key : K) (now : Nat) : Option V :=
  match ListMap.lookup c.map key with
  | some (value, time) => if now ≤ time + c.ttl then some value else none
  | none => none

/-- `remove`. -/
def remove (c : LruTimeCache K V) (key : K) : Option V × LruTimeCache K V :=
  ((ListMap.lookup c.map key).map Prod.fst, { c with map := ListMap.erase c.map key })

/-- A call on the cache. -/
inductive CacheCall (K V : Type) where
  | insert (key : K) (value : V)
  | get (key : K)
  | getMut (key : K) (update : V → V)
  | peek (key : K)
  | len
  | remove (key : K)

/-- The cache after a call at an instant. -/
def apply (c : LruTimeCache K V) : Nat × CacheCall K V → LruTimeCache K V
  | (now, .insert key value) => c.insert key value now
  | (now, .get key) => (c.get key now).2
  | (now, .getMut key update) => (c.getMut key now update).2
  | (_, .peek _) => c
  | (now, .len) => (c.len now).2
  | (_, .remove key) => (c.remove key).2

/-- The cache after a sequence of calls. -/
def run (c : LruTimeCache K V) (calls : List (Nat × CacheCall K V)) : LruTimeCache K V :=
  calls.foldl apply c

end Keys

/-! ## Expiry on an ordered list -/

/-- On a list where every element before one that satisfies `p` satisfies
it too, dropping the front while `p` holds drops every element where it
holds. -/
theorem dropWhile_eq_filter {α : Type} {p : α → Bool} :
    ∀ {l : List α}, l.Pairwise (fun a b => p b = true → p a = true) → l.dropWhile p = l.filter fun a => !p a
  | [], _ => rfl
  | a :: l, h => by
    by_cases ha : p a = true
    · rw [List.dropWhile_cons_of_pos ha, List.filter_cons_of_neg (by simp [ha]), dropWhile_eq_filter h.of_cons]
    · -- the front stays, and so does everything after it
      have hrest : l.filter (fun a => !p a) = l := List.filter_eq_self.2 fun b hb => by
        simpa using fun hb' => ha (List.rel_of_pairwise_cons h hb hb')
      rw [List.dropWhile_cons_of_neg ha, List.filter_cons_of_pos (by simpa using ha), hrest]

/-- Pairs in order of touch time lose exactly their expired ones. -/
theorem removeExpiredValues_eq_filter {c : LruTimeCache K V}
    (h : c.map.Pairwise fun a b => a.2.2 ≤ b.2.2) (now : Nat) :
    (c.removeExpiredValues now).map = c.map.filter fun e => now ≤ e.2.2 + c.ttl := by
  rw [removeExpiredValues, dropWhile_eq_filter (h.imp fun hab hb => by simp at hb ⊢; omega)]
  simp

/-! ## The run invariant -/

/-- What every run keeps, at any instant from its last call on: one pair
per key, pairs in order of touch time, no touch after `now`, and no more
pairs than the capacity. -/
structure Inv (c : LruTimeCache K V) (now : Nat) : Prop where
  nodup : (c.map.map Prod.fst).Nodup
  ordered : c.map.Pairwise fun a b => a.2.2 ≤ b.2.2
  past : ∀ e ∈ c.map, e.2.2 ≤ now
  bounded : c.map.length ≤ c.capacity

theorem Inv.new (ttl : Nat) (capacity : Option Nat) (now : Nat) : (new ttl capacity : LruTimeCache K V).Inv now :=
  ⟨List.nodup_nil, List.Pairwise.nil, by simp [LruTimeCache.new], by simp [LruTimeCache.new]⟩

theorem Inv.mono {c : LruTimeCache K V} {now now' : Nat} (h : c.Inv now) (hle : now ≤ now') : c.Inv now' :=
  { h with past := fun e he => Nat.le_trans (h.past e he) hle }

/-- Dropping pairs keeps the invariant. -/
theorem Inv.sublist {c : LruTimeCache K V} {now : Nat} (h : c.Inv now) {l : List (K × V × Nat)}
    (hl : l.Sublist c.map) : ({ c with map := l } : LruTimeCache K V).Inv now where
  nodup := h.nodup.sublist (hl.map _)
  ordered := h.ordered.sublist hl
  past e he := h.past e (hl.subset he)
  bounded := Nat.le_trans hl.length_le h.bounded

theorem Inv.removeExpiredValues {c : LruTimeCache K V} {now : Nat} (h : c.Inv now) (now' : Nat) :
    (c.removeExpiredValues now').Inv now :=
  h.sublist (List.dropWhile_suffix _).sublist

/-! ## The history of a key

What `get` returns after a run, read off the calls of the run: the value of
the key's last write (an insertion, or a `get`/`get_mut` that found it),
provided it was touched within `ttl` and neither removed nor popped since. -/

/-- The cache at `now` agrees with the last write `last` of `key`: a pair of
the key is that write, and the write is still held unless it had expired by
`now`. -/
structure Agrees (c : LruTimeCache K V) (key : K) (last : Option (V × Nat)) (now : Nat) : Prop where
  held : ∀ v t, (key, v, t) ∈ c.map → last = some (v, t)
  kept : ∀ v t, last = some (v, t) → (key, v, t) ∈ c.map ∨ t + c.ttl < now

theorem Agrees.new (key : K) (ttl : Nat) (capacity : Option Nat) (now : Nat) :
    (new ttl capacity : LruTimeCache K V).Agrees key none now :=
  ⟨fun _ _ h => by simp [LruTimeCache.new] at h, fun _ _ h => by cases h⟩

/-- The frame rule: a cache whose pairs of `key` are among those of `c`, and
that keeps each of them that had not expired by `now'`, agrees with the same
write. -/
theorem Agrees.frame {c c' : LruTimeCache K V} {key : K} {last : Option (V × Nat)} {now now' : Nat}
    (h : c.Agrees key last now) (hle : now ≤ now') (httl : c'.ttl = c.ttl)
    (hsub : ∀ v t, (key, v, t) ∈ c'.map → (key, v, t) ∈ c.map)
    (hkeep : ∀ v t, (key, v, t) ∈ c.map → (key, v, t) ∈ c'.map ∨ t + c.ttl < now') :
    c'.Agrees key last now' where
  held v t hm := h.held v t (hsub v t hm)
  kept v t hl := by
    rw [httl]
    rcases h.kept v t hl with hm | hexp
    · exact hkeep v t hm
    · exact .inr (by omega)

/-- A cache whose only pair of `key` is `(value, now)` agrees with that write. -/
theorem Agrees.write {c : LruTimeCache K V} {key : K} {value : V} {now now' : Nat}
    (hmem : (key, value, now) ∈ c.map) (honly : ∀ v t, (key, v, t) ∈ c.map → v = value ∧ t = now) :
    c.Agrees key (some (value, now)) now' :=
  ⟨fun v t hm => by obtain ⟨rfl, rfl⟩ := honly v t hm; rfl,
    fun v t hl => by cases hl; exact .inl hmem⟩

/-- A cache without a pair of `key` agrees with no write. -/
theorem Agrees.forget {c : LruTimeCache K V} {key : K} {now : Nat} (hnone : ∀ v t, (key, v, t) ∉ c.map) :
    c.Agrees key none now :=
  ⟨fun v t hm => absurd hm (hnone v t), fun _ _ hl => by cases hl⟩

/-- Dropping the expired front keeps the agreement, at the instant of the drop. -/
theorem Agrees.removeExpiredValues {c : LruTimeCache K V} {key : K} {last : Option (V × Nat)} {now : Nat}
    (h : c.Agrees key last now) (hinv : c.Inv now) {now' : Nat}
    (hle : now ≤ now') : (c.removeExpiredValues now').Agrees key last now' := by
  refine h.frame hle rfl (fun v t hm => ?_) (fun v t hm => ?_)
  · rw [removeExpiredValues_eq_filter hinv.ordered] at hm
    exact List.mem_of_mem_filter hm
  · rw [removeExpiredValues_eq_filter hinv.ordered, List.mem_filter, decide_eq_true_eq]
    by_cases hlive : now' ≤ t + c.ttl
    · exact .inl ⟨hm, hlive⟩
    · exact .inr (by omega)

/-- The last instant of a run is no later than a bound on all of them. -/
theorem foldl_instant_le {now : Nat} :
    ∀ {start : Nat} {calls : List (Nat × CacheCall K V)}, start ≤ now → (∀ call ∈ calls, call.1 ≤ now) →
      calls.foldl (fun _ call => call.1) start ≤ now
  | _, [], hstart, _ => hstart
  | _, call :: _, _, h => by
    rw [List.foldl_cons]
    exact foldl_instant_le (h call List.mem_cons_self) fun x hx => h x (List.mem_cons_of_mem _ hx)

section Keys

variable [DecidableEq K]

/-- A pair touched at `now` goes to the back of an ordered list, which then
fits any capacity that its length does. -/
theorem Inv.touch {c : LruTimeCache K V} {now : Nat} (h : c.Inv now) (key : K) (value : V) (capacity : Nat)
    (hlen : (ListMap.insert c.map key (value, now)).length ≤ capacity) :
    ({ c with map := ListMap.insert c.map key (value, now), capacity } : LruTimeCache K V).Inv now where
  nodup := ListMap.nodup_keys_insert h.nodup key (value, now)
  ordered := by
    refine List.pairwise_append.2 ⟨h.ordered.sublist List.filter_sublist, List.pairwise_singleton _ _, ?_⟩
    intro a ha b hb
    rw [List.mem_singleton] at hb
    subst hb
    exact h.past a (List.mem_of_mem_filter ha)
  past e he := by
    rcases List.mem_append.1 he with he | he
    · exact h.past e (List.mem_of_mem_filter he)
    · obtain rfl := List.mem_singleton.1 he
      exact Nat.le_refl now
  bounded := hlen

theorem Inv.insert {c : LruTimeCache K V} {now : Nat} (h : c.Inv now) (key : K) (value : V) :
    (c.insert key value now).Inv now := by
  have hlen : (ListMap.insert c.map key (value, now)).length ≤ c.map.length + 1 := by
    simpa [ListMap.insert, ListMap.erase] using List.length_filter_le _ c.map
  unfold LruTimeCache.insert
  dsimp only
  split_ifs with hover
  · -- one pair over: popping the front brings the length back to the capacity
    have htouch := h.touch key value _ (Nat.le_refl _)
    have htail := List.tail_sublist (ListMap.insert c.map key (value, now))
    refine ⟨htouch.nodup.sublist (htail.map _), htouch.ordered.sublist htail,
      fun e he => htouch.past e (htail.subset he), ?_⟩
    simp only [List.length_tail]
    have := h.bounded
    omega
  · exact h.touch key value c.capacity (by omega)


theorem Inv.getMut {c : LruTimeCache K V} {now : Nat} (h : c.Inv now) (key : K) (update : V → V) :
    (c.getMut key now update).2.Inv now := by
  have hc := h.removeExpiredValues now
  unfold LruTimeCache.getMut
  dsimp only
  split
  · rename_i value time hfind
    -- the pair found leaves its place, so the length stays
    exact hc.touch key (update value) _ (Nat.le_trans (ListMap.length_insert_le_of_lookup hfind _) hc.bounded)
  · exact hc

theorem Inv.apply {c : LruTimeCache K V} {now : Nat} (h : c.Inv now) (call : CacheCall K V) :
    (c.apply (now, call)).Inv now := by
  cases call with
  | insert key value => exact h.insert key value
  | get key => exact h.getMut key id
  | getMut key update => exact h.getMut key update
  | peek key => exact h
  | len => exact h.removeExpiredValues now
  | remove key => exact h.sublist List.filter_sublist

/-- Every run at non-decreasing instants from a state of the invariant keeps
it, at the instant of its last call. -/
theorem Inv.run {c : LruTimeCache K V} {start : Nat} (h : c.Inv start) :
    ∀ {calls : List (Nat × CacheCall K V)}, (∀ call ∈ calls, start ≤ call.1) →
      (calls.map Prod.fst).Pairwise (· ≤ ·) → (c.run calls).Inv (calls.foldl (fun _ call => call.1) start)
  | [], _, _ => h
  | (t, call) :: calls, hstart, hmono => by
    have hstep : (c.apply (t, call)).Inv t := (h.mono (hstart _ List.mem_cons_self)).apply call
    -- the later calls come at `t` or after
    have hrest : ∀ x ∈ calls, t ≤ x.1 := fun x hx =>
      List.rel_of_pairwise_cons hmono (List.mem_map_of_mem hx)
    exact hstep.run hrest hmono.of_cons

/-! ## What the cache does -/

theorem getMut_of_lookup_some {c : LruTimeCache K V} {key : K} {now : Nat} {value : V} {time : Nat}
    (h : ListMap.lookup (c.removeExpiredValues now).map key = some (value, time)) (update : V → V) :
    c.getMut key now update =
      (some value, { c.removeExpiredValues now with
        map := ListMap.insert (c.removeExpiredValues now).map key (update value, now) }) := by
  simp only [getMut, h]

theorem getMut_of_lookup_none {c : LruTimeCache K V} {key : K} {now : Nat}
    (h : ListMap.lookup (c.removeExpiredValues now).map key = none) (update : V → V) :
    c.getMut key now update = (none, c.removeExpiredValues now) := by
  simp only [getMut, h]

/-- What `get_mut`, `get`, `peek`, `len` and `insert` do on a cache whose
pairs are in order of touch time, at any instant: the pairs stay within the
capacity; `get_mut` (and `get`, `get_mut` with no write) returns a value
exactly when its key's pair was touched within `ttl`, drops every expired
pair and moves the pair it finds to the back with its new value and time;
`peek` agrees with `get` and `len` counts the pairs `get` keeps; and an
insertion that takes the cache over its capacity pops the front pair, the
least recently touched. -/
structure Semantics (c : LruTimeCache K V) : Prop where
  ordered : c.map.Pairwise fun a b => a.2.2 ≤ b.2.2
  bounded : c.map.length ≤ c.capacity
  getMut : ∀ key now update value,
    (c.getMut key now update).1 = some value ↔ ∃ time, (key, value, time) ∈ c.map ∧ now ≤ time + c.ttl
  touch : ∀ key now update,
    (c.getMut key now update).2.map =
      match (c.getMut key now update).1 with
      | some value => ListMap.insert (c.map.filter fun e => now ≤ e.2.2 + c.ttl) key (update value, now)
      | none => c.map.filter fun e => now ≤ e.2.2 + c.ttl
  peek : ∀ key now, c.peek key now = (c.get key now).1
  len : ∀ now, (c.len now).1 = (c.map.filter fun e => now ≤ e.2.2 + c.ttl).length
  insert : ∀ key value now, 0 < c.capacity →
    (c.insert key value now).map =
      if (ListMap.erase c.map key).length < c.capacity then ListMap.insert c.map key (value, now)
      else ListMap.insert c.map.tail key (value, now)

section Semantics

variable {c : LruTimeCache K V} {now : Nat} (h : c.Inv now)
include h

/-- The pairs `get_mut` looks in are the live pairs of the cache. -/
theorem Inv.lookup_removeExpiredValues (key : K) (now' : Nat) (value : V) (time : Nat) :
    ListMap.lookup (c.removeExpiredValues now').map key = some (value, time) ↔
      (key, value, time) ∈ c.map ∧ now' ≤ time + c.ttl := by
  rw [ListMap.lookup_eq_some_iff (h.removeExpiredValues now').nodup,
    removeExpiredValues_eq_filter h.ordered, List.mem_filter, decide_eq_true_eq]

theorem Inv.getMut_iff (key : K) (now' : Nat) (update : V → V) (value : V) :
    (c.getMut key now' update).1 = some value ↔ ∃ time, (key, value, time) ∈ c.map ∧ now' ≤ time + c.ttl := by
  cases hl : ListMap.lookup (c.removeExpiredValues now').map key with
  | none =>
    rw [getMut_of_lookup_none hl]
    simp only [reduceCtorEq, false_iff, not_exists, not_and]
    intro time hmem hlive
    exact ListMap.lookup_eq_none_iff.1 hl (value, time)
      ((h.lookup_removeExpiredValues key now' value time).2 ⟨hmem, hlive⟩ |> ListMap.mem_of_lookup_eq_some)
  | some found =>
    obtain ⟨v, t⟩ := found
    rw [getMut_of_lookup_some hl, Option.some.injEq]
    constructor
    · rintro rfl
      exact ⟨t, (h.lookup_removeExpiredValues key now' v t).1 hl⟩
    · -- a live pair of the key is the one looked up
      rintro ⟨time, hmem, hlive⟩
      rw [(h.lookup_removeExpiredValues key now' value time).2 ⟨hmem, hlive⟩] at hl
      cases hl
      rfl

theorem Inv.peek_eq_get (key : K) (now' : Nat) : c.peek key now' = (c.get key now').1 := by
  cases hg : (c.get key now').1 with
  | some value =>
    obtain ⟨time, hmem, hlive⟩ := (h.getMut_iff key now' id value).1 hg
    simp [peek, (ListMap.lookup_eq_some_iff h.nodup).2 hmem, hlive]
  | none =>
    -- a pair the cache holds, if any, has expired
    unfold peek
    split
    · rename_i value time hl
      split_ifs with hlive
      · have := (h.getMut_iff key now' id value).2 ⟨time, (ListMap.lookup_eq_some_iff h.nodup).1 hl, hlive⟩
        rw [get] at hg
        rw [hg] at this
        cases this
      · rfl
    · rfl

/-- The cache's pairs in order of touch time give it its semantics. -/
theorem Inv.semantics : c.Semantics where
  ordered := h.ordered
  bounded := h.bounded
  getMut key now' update value := h.getMut_iff key now' update value
  touch key now' update := by
    rw [← removeExpiredValues_eq_filter h.ordered]
    cases hl : ListMap.lookup (c.removeExpiredValues now').map key with
    | none => rw [getMut_of_lookup_none hl]
    | some found => rw [getMut_of_lookup_some hl]
  peek key now' := h.peek_eq_get key now'
  len now' := by
    simp only [len, removeExpiredValues_eq_filter h.ordered]
  insert key value now' hpos := by
    unfold LruTimeCache.insert
    dsimp only
    by_cases hroom : (ListMap.erase c.map key).length < c.capacity
    · rw [if_neg (by simp [ListMap.insert]; omega), if_pos hroom]
    · -- a full cache without the key: the front pair goes
      have hle : (ListMap.erase c.map key).length ≤ c.map.length := List.length_filter_le _ _
      have hfull : (ListMap.erase c.map key).length = c.map.length := by
        have := h.bounded
        omega
      -- no pair has the key, so erasing it changes nothing
      have hnokey := List.length_filter_eq_length_iff.1 hfull
      have herase : ListMap.erase c.map key = c.map := List.filter_eq_self.2 hnokey
      obtain ⟨first, rest, hmap⟩ : ∃ first rest, c.map = first :: rest := by
        cases hm : c.map with
        | nil => simp [hm, ListMap.erase] at hroom; omega
        | cons first rest => exact ⟨first, rest, rfl⟩
      have hrest : ListMap.erase rest key = rest :=
        List.filter_eq_self.2 fun e he => hnokey e (by rw [hmap]; exact List.mem_cons_of_mem _ he)
      rw [if_pos (by simp [ListMap.insert, herase]; have := h.bounded; omega), if_neg hroom, ListMap.insert,
        ListMap.insert, herase, hmap, List.tail_cons, hrest]
      rfl

end Semantics

/-- What a call does to the pair of `key`, on the cache it is made on:
`none` leaves it, `some none` forgets it, and `some (some (value, t))` gives
it `value`, touched at `t`. A pair is forgotten by `remove`, and by an
insertion that takes the cache over its capacity when it is the front pair,
the least recently touched one. -/
def effect (c : LruTimeCache K V) (key : K) : Nat × CacheCall K V → Option (Option (V × Nat))
  | (now, .insert k value) =>
    let map := ListMap.insert c.map k (value, now)
    if map.length > c.capacity ∧ map.head?.map Prod.fst = some key then some none
    else if k = key then some (some (value, now))
    else none
  | (now, .get k) => if k = key then (c.get k now).1.map fun value => some (value, now) else none
  | (now, .getMut k update) =>
    if k = key then (c.getMut k now update).1.map fun value => some (update value, now) else none
  | (_, .remove k) => if k = key then some none else none
  | _ => none

/-- The last write of `key` along a run from `c`, unless forgotten since. -/
def history (key : K) : LruTimeCache K V → List (Nat × CacheCall K V) → Option (V × Nat) →
    Option (V × Nat)
  | _, [], last => last
  | c, call :: calls, last => history key (c.apply call) calls ((c.effect key call).getD last)

section Agrees

variable {c : LruTimeCache K V} {key : K} {last : Option (V × Nat)} {now : Nat}

/-- Writing another key moves only that key's pair. -/
theorem Agrees.insert_ne (h : c.Agrees key last now) {k : K} (hk : k ≠ key) (x : V × Nat) {now' : Nat}
    (hle : now ≤ now') :
    ({ c with map := ListMap.insert c.map k x } : LruTimeCache K V).Agrees key last now' := by
  refine h.frame hle rfl (fun v t hm => ?_) (fun v t hm => ?_)
  · rcases ListMap.mem_insert.1 hm with ⟨hm, -⟩ | heq
    · exact hm
    · exact absurd (congrArg Prod.fst heq).symm hk
  · exact .inl (ListMap.mem_insert.2 (.inl ⟨hm, Ne.symm hk⟩))

/-- `get_mut` keeps the agreement: it drops the expired pairs, and the pair
it finds is touched with its new value. -/
theorem Agrees.getMut (h : c.Agrees key last now) (hinv : c.Inv now) {t : Nat} (hle : now ≤ t)
    (k : K) (update : V → V) :
    (c.getMut k t update).2.Agrees key
      ((if k = key then (c.getMut k t update).1.map fun value => some (update value, t)
        else none).getD last) t := by
  have h₁ := h.removeExpiredValues hinv hle
  cases hl : ListMap.lookup (c.removeExpiredValues t).map k with
  | none =>
    rw [getMut_of_lookup_none hl]
    split_ifs <;> exact h₁
  | some found =>
    obtain ⟨v₀, t₀⟩ := found
    rw [getMut_of_lookup_some hl]
    by_cases hk : k = key
    · subst hk
      rw [if_pos rfl]
      refine Agrees.write (ListMap.mem_insert.2 (.inr rfl)) fun v t' hm => ?_
      have := (ListMap.mem_insert.1 hm).resolve_left fun hne => hne.2 rfl
      cases this
      exact ⟨rfl, rfl⟩
    · rw [if_neg hk]
      exact h₁.insert_ne hk (update v₀, t) (Nat.le_refl t)

end Agrees

/-- The pair `insert` writes is the only pair of its key in the new list. -/
theorem mem_insert_self_iff {l : List (K × V × Nat)} {k : K} {x : V × Nat} {v : V} {t : Nat} :
    (k, v, t) ∈ ListMap.insert l k x ↔ (v, t) = x := by
  simp [ListMap.mem_insert]

/-- The step lemma: each call at an instant from `now` on keeps the cache
in agreement with the history of `key`. -/
theorem Agrees.apply {c : LruTimeCache K V} {key : K} {last : Option (V × Nat)} {now t : Nat}
    (h : c.Agrees key last now) (hinv : c.Inv now) (hle : now ≤ t) (call : CacheCall K V) :
    (c.apply (t, call)).Agrees key ((c.effect key (t, call)).getD last) t := by
  cases call with
  | insert k value =>
    simp only [LruTimeCache.apply, effect, LruTimeCache.insert]
    have hnodup := ListMap.nodup_keys_insert hinv.nodup k (value, t)
    by_cases hpop : (ListMap.insert c.map k (value, t)).length > c.capacity ∧
        (ListMap.insert c.map k (value, t)).head?.map Prod.fst = some key
    · -- the front pair is the key's: popping it leaves no pair of the key
      rw [if_pos hpop, if_pos hpop.1]
      obtain ⟨e, es, hes⟩ := List.exists_cons_of_ne_nil
        (List.ne_nil_of_length_pos (Nat.lt_of_le_of_lt (Nat.zero_le _) hpop.1))
      rw [hes] at hpop hnodup ⊢
      have he : e.1 = key := by simpa using hpop.2
      refine Agrees.forget fun v t' hm => ?_
      have hkeys : e.1 ∉ es.map Prod.fst :=
        (List.nodup_cons.1 (by simpa only [List.map_cons] using hnodup)).1
      exact hkeys (he ▸ List.mem_map.2 ⟨_, hm, rfl⟩)
    rw [if_neg hpop]
    by_cases hk : k = key
    · -- the key's pair is written and goes to the back, which a pop keeps
      subst hk
      rw [if_pos rfl]
      simp only [Option.getD_some]
      have hmem : (k, value, t) ∈ ListMap.insert c.map k (value, t) := ListMap.mem_insert.2 (.inr rfl)
      split_ifs with hover
      · obtain ⟨e, es, hes⟩ := List.exists_cons_of_ne_nil (List.ne_nil_of_mem hmem)
        have he : e.1 ≠ k := fun he => hpop ⟨hover, by simp [hes, he]⟩
        rw [hes] at hmem ⊢
        refine Agrees.write ((List.mem_cons.1 hmem).resolve_left fun heq => he (by rw [← heq])) ?_
        intro v t' hm
        have := mem_insert_self_iff.1 (hes ▸ List.mem_cons_of_mem e hm)
        exact ⟨congrArg Prod.fst this, congrArg Prod.snd this⟩
      · refine Agrees.write hmem fun v t' hm => ?_
        have := mem_insert_self_iff.1 hm
        exact ⟨congrArg Prod.fst this, congrArg Prod.snd this⟩
    · rw [if_neg hk]
      simp only [Option.getD_none]
      have hins := h.insert_ne hk (value, t) hle
      split_ifs with hover
      · -- the popped front is not the key's
        refine hins.frame (Nat.le_refl t) rfl (fun v t' hm => List.mem_of_mem_tail hm) (fun v t' hm => ?_)
        change (key, v, t') ∈ ListMap.insert c.map k (value, t) at hm
        change (key, v, t') ∈ (ListMap.insert c.map k (value, t)).tail ∨ t' + c.ttl < t
        obtain ⟨e, es, hes⟩ := List.exists_cons_of_ne_nil (List.ne_nil_of_mem hm)
        rw [hes] at hm
        rw [hes]
        rcases List.mem_cons.1 hm with heq | hm'
        · exact absurd ⟨hover, by rw [hes, ← heq]; rfl⟩ hpop
        · exact .inl hm'
      · exact hins
  | get k =>
    exact h.getMut hinv hle k id
  | getMut k update =>
    exact h.getMut hinv hle k update
  | peek k =>
    exact h.frame hle rfl (fun _ _ hm => hm) (fun _ _ hm => .inl hm)
  | len =>
    exact h.removeExpiredValues hinv hle
  | remove k =>
    simp only [LruTimeCache.apply, effect, LruTimeCache.remove]
    by_cases hk : k = key
    · subst hk
      rw [if_pos rfl, Option.getD_some]
      refine Agrees.forget fun v t' hm => ?_
      simp [ListMap.erase] at hm
    · rw [if_neg hk]
      refine h.frame hle rfl (fun v t' hm => List.mem_of_mem_filter hm) (fun v t' hm => .inl ?_)
      simp [ListMap.erase, hm, Ne.symm hk]

/-- The run lemma: along a run at non-decreasing instants from `start`, the
cache agrees with the history of `key` at the instant of its last call. -/
theorem Agrees.run {c : LruTimeCache K V} {key : K} {last : Option (V × Nat)} {start : Nat}
    (h : c.Agrees key last start) (hinv : c.Inv start) :
    ∀ {calls : List (Nat × CacheCall K V)}, (∀ call ∈ calls, start ≤ call.1) →
      (calls.map Prod.fst).Pairwise (· ≤ ·) →
      (c.run calls).Agrees key (history key c calls last) (calls.foldl (fun _ call => call.1) start)
  | [], _, _ => h
  | (t, call) :: calls, hstart, hmono => by
    have ht : start ≤ t := hstart _ List.mem_cons_self
    have hrest : ∀ x ∈ calls, t ≤ x.1 := fun x hx =>
      List.rel_of_pairwise_cons hmono (List.mem_map_of_mem hx)
    exact (h.apply hinv ht call).run ((hinv.mono ht).apply call) hrest hmono.of_cons

theorem ttl_getMut (c : LruTimeCache K V) (key : K) (now : Nat) (update : V → V) :
    (c.getMut key now update).2.ttl = c.ttl := by
  unfold getMut
  dsimp only
  split <;> rfl

theorem ttl_apply (c : LruTimeCache K V) (call : Nat × CacheCall K V) : (c.apply call).ttl = c.ttl := by
  obtain ⟨now, call⟩ := call
  cases call with
  | insert key value =>
    show (c.insert key value now).ttl = c.ttl
    unfold LruTimeCache.insert
    dsimp only
    split_ifs <;> rfl
  | get key => exact ttl_getMut c key now id
  | getMut key update => exact ttl_getMut c key now update
  | _ => rfl

theorem ttl_run (c : LruTimeCache K V) : ∀ calls : List (Nat × CacheCall K V), (c.run calls).ttl = c.ttl
  | [] => rfl
  | call :: calls => (ttl_run (c.apply call) calls).trans (ttl_apply c call)

/-- Every run from `new` at non-decreasing instants keeps the pairs in order
of touch time and within the capacity, which gives the cache its semantics;
and after the run, `get` of a key returns a value exactly when the history
of the key ends in a write of that value touched within `ttl`: a key
removed, or popped by an overflowing insertion, since its last write is not
found. -/
theorem lru_time_cache_semantics (ttl : Nat) (capacity : Option Nat) {calls : List (Nat × CacheCall K V)}
    (hmono : (calls.map Prod.fst).Pairwise (· ≤ ·)) :
    ((LruTimeCache.new ttl capacity).run calls).Semantics ∧
      ∀ key now value, (∀ call ∈ calls, call.1 ≤ now) →
        ((((LruTimeCache.new ttl capacity).run calls).get key now).1 = some value ↔
          ∃ t, history key (LruTimeCache.new ttl capacity) calls none = some (value, t) ∧
            now ≤ t + ttl) := by
  have hinv := (Inv.new ttl capacity 0).run (fun _ _ => Nat.zero_le _) hmono
  refine ⟨hinv.semantics, fun key now value hnow => ?_⟩
  have hag := (Agrees.new key ttl capacity 0).run (Inv.new ttl capacity 0) (fun _ _ => Nat.zero_le _) hmono
  have hlast : calls.foldl (fun _ call => call.1) 0 ≤ now := foldl_instant_le (Nat.zero_le now) hnow
  have httl : ((LruTimeCache.new ttl capacity : LruTimeCache K V).run calls).ttl = ttl :=
    ttl_run _ calls
  rw [get, hinv.getMut_iff key now id value, httl]
  constructor
  · rintro ⟨t, hm, hlive⟩
    exact ⟨t, hag.held value t hm, hlive⟩
  · -- the last write is held, since it had not expired by the end of the run
    rintro ⟨t, hl, hlive⟩
    rcases hag.kept value t hl with hm | hexp
    · exact ⟨t, hm, hlive⟩
    · rw [httl] at hexp
      omega

/-- The calls of the source's `get` test: with capacity 2, reading `1`
touches it, so inserting `3` evicts `2`. -/
def getTestCalls : List (Nat × CacheCall Nat Nat) :=
  [(0, .insert 1 10), (0, .insert 2 20), (0, .get 1), (0, .insert 3 30)]

theorem lru_time_cache_semantics_getTest :
    (getTestCalls.map Prod.fst).Pairwise (· ≤ ·) ∧
      ((LruTimeCache.new 10 (some 2) : LruTimeCache Nat Nat).run getTestCalls).Semantics ∧
      ∀ key now value, (∀ call ∈ getTestCalls, call.1 ≤ now) →
        ((((LruTimeCache.new 10 (some 2) : LruTimeCache Nat Nat).run getTestCalls).get key now).1 =
            some value ↔
          ∃ t, history key (LruTimeCache.new 10 (some 2) : LruTimeCache Nat Nat) getTestCalls none =
            some (value, t) ∧ now ≤ t + 10) :=
  ⟨by decide, lru_time_cache_semantics 10 (some 2) (by decide)⟩

example : (((LruTimeCache.new 10 (some 2) : LruTimeCache Nat Nat).run getTestCalls).get 1 0).1 = some 10 ∧
    (((LruTimeCache.new 10 (some 2) : LruTimeCache Nat Nat).run getTestCalls).get 2 0).1 = none := by
  decide

-- the history of the run: `1` was last written at `0`, `2` was popped
example : history 1 (LruTimeCache.new 10 (some 2) : LruTimeCache Nat Nat) getTestCalls none = some (10, 0) ∧
    history 2 (LruTimeCache.new 10 (some 2) : LruTimeCache Nat Nat) getTestCalls none = none := by
  decide

-- a removal is a forgetting
example : history 1 (LruTimeCache.new 10 (some 2) : LruTimeCache Nat Nat) (getTestCalls ++ [(1, .remove 1)])
    none = none := by
  decide

end Keys

end LruTimeCache

end Discv5
