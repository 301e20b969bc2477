import Discv5.Lib.Window

/-!
# The cache of received packets

`src/socket/filter/cache.rs`. The filter records the instant of every
unsolicited packet in a `ReceivedPacketCache`, a deque of instants in the
order they came. `reset` first pops from the front the instants no newer
than `time_window` seconds ago, then counts from the back those newer than
`ENFORCED_SIZE_TIME` (one second) ago; `cache_insert` resets and records the
new instant only while fewer than `target` are within that second. The
filter reports the deque's length, the packets of the last `time_window`
seconds, to the metrics.

Instants are nanoseconds since the earliest instant the platform's clock
represents, so `Instant::checked_sub` fails below zero, and its `unwrap`
panics (`none`); each call of `cache_insert` reads the clock once.

The main results, for calls at non-decreasing instants at least
`time_window` seconds after the clock's origin, with `time_window` at
least `ENFORCED_SIZE_TIME` as the source requires: no call panics, the
deque holds exactly the recorded instants of the last `time_window`
seconds and `within_enforced_time` counts those of the last second, no
window of one second holds more than `target` recorded instants, and the
deque never holds more than `target * time_window`.
-/

namespace Discv5

/-- Nanoseconds in a second. Irreducible, so that no unfolding of a
product with it counts to a billion. -/
@[irreducible] def nanosPerSec : Nat := 1000000000

theorem nanosPerSec_pos : 0 < nanosPerSec := by
  unfold nanosPerSec
  decide

/-- `ENFORCED_SIZE_TIME`, in seconds. -/
def enforcedSizeTime : Nat := 1

/-- `Instant::checked_sub(Duration::from_secs(secs)).unwrap()`: the
instant `secs` seconds before `now`, or a panic before the clock's origin. -/
def checkedSubSecs (now secs : Nat) : Option Nat :=
  if secs * nanosPerSec ≤ now then some (now - secs * nanosPerSec) else none

/-- `ReceivedPacketCache`; the deque lists its instants from the front. -/
structure ReceivedPacketCache where
  target : Nat
  timeWindow : Nat
  withinEnforcedTime : Nat
  inner : List Nat
  deriving DecidableEq, Repr

namespace ReceivedPacketCache

/-- `ReceivedPacketCache::new`. -/
def new (target timeWindow : Nat) : ReceivedPacketCache :=
  ⟨target, timeWindow, 0, []⟩

/-- The first loop of `reset`: pop the front while it is no newer than the
cutoff, `time_window` seconds before `now`; the first newer instant is
pushed back and ends the loop. Every turn computes the same cutoff, and
panics if there is none. -/
def popExpired (cutoff : Option Nat) : List Nat → Option (List Nat)
  | [] => some []
  | receivedAt :: rest =>
    match cutoff with
    | none => none
    | some cutoff' => if receivedAt > cutoff' then some (receivedAt :: rest) else popExpired cutoff rest

/-- The second loop of `reset`, over the instants from the back: count
them while they are newer than the cutoff, `ENFORCED_SIZE_TIME` before
`now`. -/
def countWithin (cutoff : Option Nat) (count : Nat) : List Nat → Option Nat
  | [] => some count
  | receivedAt :: rest =>
    match cutoff with
    | none => none
    | some cutoff' => if receivedAt > cutoff' then countWithin cutoff (count + 1) rest else some count

/-- `ReceivedPacketCache::reset`. -/
def reset (c : ReceivedPacketCache) (now : Nat) : Option ReceivedPacketCache :=
  match popExpired (checkedSubSecs now c.timeWindow) c.inner with
  | none => none
  | some inner =>
    match countWithin (checkedSubSecs now enforcedSizeTime) 0 inner.reverse with
    | none => none
    | some count => some { c with inner, withinEnforcedTime := count }

/-- `ReceivedPacketCache::internal_insert`. -/
def internalInsert (c : ReceivedPacketCache) (now : Nat) : ReceivedPacketCache × Bool :=
  if c.withinEnforcedTime ≥ c.target then (c, false)
  else ({ c with inner := c.inner ++ [now], withinEnforcedTime := c.withinEnforcedTime + 1 }, true)

/-- `ReceivedPacketCache::cache_insert`. -/
def cacheInsert (c : ReceivedPacketCache) (now : Nat) : Option (ReceivedPacketCache × Bool) :=
  (c.reset now).map fun c => c.internalInsert now

/-- `len()` of the deque, which the cache dereferences to. -/
def len (c : ReceivedPacketCache) : Nat :=
  c.inner.length

/-- `cache_insert` at each instant in turn, with whether each recorded its
instant; `none` once one panics. -/
def run (c : ReceivedPacketCache) : List Nat → Option (ReceivedPacketCache × List Bool)
  | [] => some (c, [])
  | now :: nows =>
    match c.cacheInsert now with
    | none => none
    | some (c', recorded) => (c'.run nows).map fun r => (r.1, recorded :: r.2)

/-- The instants a run recorded. -/
def recordedAt : List Nat → List Bool → List Nat
  | now :: nows, recorded :: rest => if recorded then now :: recordedAt nows rest else recordedAt nows rest
  | _, _ => []

/-! ## The two loops of `reset` -/

theorem checkedSubSecs_of_le {now secs : Nat} (h : secs * nanosPerSec ≤ now) :
    checkedSubSecs now secs = some (now - secs * nanosPerSec) := by
  simp [checkedSubSecs, h]

/-- On instants in order, the first loop drops exactly those no newer than
the cutoff. -/
theorem popExpired_eq_filter (cutoff : Nat) :
    ∀ {l : List Nat}, l.Pairwise (· ≤ ·) → popExpired (some cutoff) l = some (l.filter fun t => cutoff < t)
  | [], _ => rfl
  | receivedAt :: rest, hsorted => by
    rw [popExpired]
    split_ifs with hnew
    · -- the front is newer, and so is every later instant
      refine congrArg some (List.filter_eq_self.2 fun t ht => ?_).symm
      rcases List.mem_cons.1 ht with rfl | ht
      · simpa using hnew
      · have := List.rel_of_pairwise_cons hsorted ht
        simp only [decide_eq_true_eq]
        omega
    · rw [popExpired_eq_filter cutoff hsorted.of_cons, List.filter_cons_of_neg (by simpa using hnew)]

/-- On instants from the latest back, the second loop counts exactly those
newer than the cutoff. -/
theorem countWithin_eq (cutoff : Nat) :
    ∀ (count : Nat) {l : List Nat}, l.Pairwise (· ≥ ·) →
      countWithin (some cutoff) count l = some (count + l.countP fun t => cutoff < t)
  | count, [], _ => rfl
  | count, receivedAt :: rest, hsorted => by
    rw [countWithin]
    split_ifs with hnew
    · rw [countWithin_eq cutoff (count + 1) hsorted.of_cons, List.countP_cons_of_pos (by simpa using hnew)]
      congr 1
      omega
    · -- the loop breaks: this instant and every earlier one are too old
      have hold : (receivedAt :: rest).countP (fun t => cutoff < t) = 0 :=
        List.countP_eq_zero.2 fun t ht => by
          rcases List.mem_cons.1 ht with rfl | ht
          · simpa using hnew
          · have := List.rel_of_pairwise_cons hsorted ht
            simp only [decide_eq_true_eq]
            omega
      rw [hold, Nat.add_zero]

/-- An instant is newer than `secs` seconds before `now` when `now` is
within `secs` seconds of it. -/
theorem lt_sub_iff {now secs t : Nat} (h : secs * nanosPerSec ≤ now) :
    now - secs * nanosPerSec < t ↔ now < t + secs * nanosPerSec := by
  omega

/-- `reset` on instants in order, once `time_window` seconds have passed
since the clock's origin: the deque keeps the instants of the last
`time_window` seconds and `within_enforced_time` counts those of the last
second among them. -/
theorem reset_eq {c : ReceivedPacketCache} {now : Nat} (hsorted : c.inner.Pairwise (· ≤ ·))
    (htw : enforcedSizeTime ≤ c.timeWindow) (hnow : c.timeWindow * nanosPerSec ≤ now) :
    c.reset now = some { c with
      inner := c.inner.filter fun t => now < t + c.timeWindow * nanosPerSec
      withinEnforcedTime := (c.inner.filter fun t => now < t + c.timeWindow * nanosPerSec).countP
        fun t => now < t + enforcedSizeTime * nanosPerSec } := by
  have hsec : enforcedSizeTime * nanosPerSec ≤ now := Nat.le_trans (Nat.mul_le_mul_right _ htw) hnow
  have hpop : (c.inner.filter fun t => now - c.timeWindow * nanosPerSec < t) =
      c.inner.filter fun t => now < t + c.timeWindow * nanosPerSec :=
    List.filter_congr fun t _ => by simp only [lt_sub_iff hnow]
  have hrev : (c.inner.filter fun t => now < t + c.timeWindow * nanosPerSec).reverse.Pairwise (· ≥ ·) :=
    List.pairwise_reverse.2 (hsorted.filter _)
  rw [reset, checkedSubSecs_of_le hnow, popExpired_eq_filter _ hsorted, hpop]
  dsimp only
  have hcount : ((c.inner.filter fun t => now < t + c.timeWindow * nanosPerSec).countP
      fun t => now - enforcedSizeTime * nanosPerSec < t) =
      (c.inner.filter fun t => now < t + c.timeWindow * nanosPerSec).countP
        fun t => now < t + enforcedSizeTime * nanosPerSec :=
    List.countP_congr fun t _ => by simp only [decide_eq_true_eq, lt_sub_iff hsec]
  rw [checkedSubSecs_of_le hsec, countWithin_eq _ 0 hrev, List.countP_reverse, Nat.zero_add, hcount]

/-- With no cutoff, the first loop panics on its first turn. -/
theorem popExpired_none_eq_none_iff (l : List Nat) : popExpired none l = none ↔ l ≠ [] := by
  cases l <;> simp [popExpired]

/-- With a cutoff, the first loop does not panic. -/
theorem popExpired_some_ne_none (cutoff : Nat) : ∀ l : List Nat, popExpired (some cutoff) l ≠ none
  | [] => by simp [popExpired]
  | receivedAt :: rest => by
    rw [popExpired]
    split_ifs
    · simp
    · exact popExpired_some_ne_none cutoff rest

/-- With a cutoff, the second loop does not panic. -/
theorem countWithin_some_ne_none (cutoff : Nat) : ∀ (count : Nat) (l : List Nat), countWithin (some cutoff) count l ≠ none
  | _, [] => by simp [countWithin]
  | count, receivedAt :: rest => by
    rw [countWithin]
    split_ifs
    · exact countWithin_some_ne_none cutoff _ rest
    · simp

/-- `cache_insert` panics exactly when the deque holds an instant and fewer
than `time_window` seconds have passed since the clock's origin. -/
theorem cacheInsert_eq_none_iff (c : ReceivedPacketCache) (now : Nat) (htw : enforcedSizeTime ≤ c.timeWindow) :
    c.cacheInsert now = none ↔ c.inner ≠ [] ∧ now < c.timeWindow * nanosPerSec := by
  unfold cacheInsert
  rw [Option.map_eq_none_iff]
  by_cases hle : c.timeWindow * nanosPerSec ≤ now
  · -- past `time_window` from the origin: both cutoffs exist, and neither loop panics
    have hS : enforcedSizeTime * nanosPerSec ≤ now := Nat.le_trans (Nat.mul_le_mul_right _ htw) hle
    obtain ⟨inner, hinner⟩ :=
      Option.ne_none_iff_exists'.1 (popExpired_some_ne_none (now - c.timeWindow * nanosPerSec) c.inner)
    obtain ⟨count, hcount⟩ :=
      Option.ne_none_iff_exists'.1 (countWithin_some_ne_none (now - enforcedSizeTime * nanosPerSec) 0 inner.reverse)
    simp only [reset, checkedSubSecs_of_le hle, hinner, checkedSubSecs_of_le hS, hcount, reduceCtorEq, false_iff,
      not_and, Nat.not_lt]
    exact fun _ => hle
  · -- before it, there is no cutoff, and only an empty deque gets through the first loop
    have hnone : checkedSubSecs now c.timeWindow = none := by simp [checkedSubSecs, hle]
    cases hl : c.inner with
    | nil => simp [reset, hl, popExpired, countWithin]
    | cons t rest =>
      have hpop := (popExpired_none_eq_none_iff (t :: rest)).2 (List.cons_ne_nil t rest)
      simp only [reset, hl, hnone, hpop, ne_eq, reduceCtorEq, not_false_eq_true, true_and, true_iff]
      omega

/-! ## Runs -/

/-- One second, in nanoseconds: the width of the enforced window. -/
def enforcedWindow : Nat := enforcedSizeTime * nanosPerSec

/-- What a run keeps after its call at `last`, with `recorded` the instants
it recorded: they are in order and none is after `last`, the deque holds
those of the last `time_window` seconds, `within_enforced_time` counts
those of the last second, and no second holds more than `target`. -/
structure Inv (c : ReceivedPacketCache) (recorded : List Nat) (last : Nat) : Prop where
  sorted : recorded.Pairwise (· ≤ ·)
  le_last : ∀ t ∈ recorded, t ≤ last
  inner_eq : c.inner = recorded.filter fun t => last < t + c.timeWindow * nanosPerSec
  within : c.withinEnforcedTime = Window.countIn recorded enforcedWindow last
  bounded : Window.Bounded recorded enforcedWindow c.target

theorem Inv.new (target timeWindow last : Nat) : Inv (new target timeWindow) [] last :=
  ⟨List.Pairwise.nil, by simp, rfl, rfl, Window.Bounded.nil _ _⟩

/-- The recorded instants of the last second, which are all within the
last `time_window` seconds. -/
theorem Inv.countP_recent {c : ReceivedPacketCache} {recorded : List Nat} {last now : Nat}
    (h : Inv c recorded last) (htw : enforcedSizeTime ≤ c.timeWindow) (hle : last ≤ now) :
    (recorded.filter fun t => now < t + c.timeWindow * nanosPerSec).countP
        (fun t => now < t + enforcedSizeTime * nanosPerSec) = Window.countIn recorded enforcedWindow now := by
  have hwin : enforcedSizeTime * nanosPerSec ≤ c.timeWindow * nanosPerSec := Nat.mul_le_mul_right _ htw
  unfold Window.countIn enforcedWindow
  rw [List.countP_filter]
  refine List.countP_congr fun t ht => ?_
  have := h.le_last t ht
  simp only [Bool.and_eq_true, decide_eq_true_eq]
  omega

/-- One call of `cache_insert` at an instant no earlier than the last one and
at least `time_window` seconds after the clock's origin: it does not panic,
records the instant exactly when the last second held fewer than `target`,
and keeps the invariant. -/
theorem Inv.cacheInsert {c : ReceivedPacketCache} {recorded : List Nat} {last now : Nat}
    (h : Inv c recorded last) (htw : enforcedSizeTime ≤ c.timeWindow) (hle : last ≤ now)
    (hnow : c.timeWindow * nanosPerSec ≤ now) :
    ∃ c', c.cacheInsert now = some (c', decide (Window.countIn recorded enforcedWindow now < c.target)) ∧
      Inv c' (if Window.countIn recorded enforcedWindow now < c.target then recorded ++ [now] else recorded) now ∧
      c'.target = c.target ∧ c'.timeWindow = c.timeWindow := by
  have hsorted : c.inner.Pairwise (· ≤ ·) := h.inner_eq ▸ h.sorted.filter _
  -- what the reset keeps: the recorded instants of the last `time_window` seconds
  have hkept : (c.inner.filter fun t => now < t + c.timeWindow * nanosPerSec) =
      recorded.filter fun t => now < t + c.timeWindow * nanosPerSec := by
    rw [h.inner_eq, List.filter_filter]
    refine List.filter_congr fun t _ => ?_
    rw [Bool.eq_iff_iff]
    simp only [Bool.and_eq_true, decide_eq_true_eq]
    omega
  have hpos : 0 < enforcedWindow := Nat.mul_pos (by decide) nanosPerSec_pos
  have hself : now < now + c.timeWindow * nanosPerSec :=
    Nat.lt_add_of_pos_right (Nat.lt_of_lt_of_le hpos (Nat.mul_le_mul_right _ htw))
  have hle' : ∀ t ∈ recorded, t ≤ now := fun t ht => Nat.le_trans (h.le_last t ht) hle
  unfold ReceivedPacketCache.cacheInsert ReceivedPacketCache.internalInsert
  rw [reset_eq hsorted htw hnow, hkept, h.countP_recent htw hle]
  dsimp only [Option.map_some]
  by_cases hlt : Window.countIn recorded enforcedWindow now < c.target
  · -- the instant is recorded
    rw [if_neg (Nat.not_le.2 hlt), if_pos hlt, decide_eq_true hlt]
    refine ⟨_, rfl, ⟨?_, ?_, ?_, ?_, ?_⟩, rfl, rfl⟩
    · exact List.pairwise_append.2 ⟨h.sorted, List.pairwise_singleton _ _,
        fun a ha b hb => (List.mem_singleton.1 hb) ▸ hle' a ha⟩
    · intro t ht
      rcases List.mem_append.1 ht with ht | ht
      · exact hle' t ht
      · exact Nat.le_of_eq (List.mem_singleton.1 ht)
    · simp [List.filter_append, hself]
    · rw [Window.countIn_append, Window.countIn_singleton, if_pos ⟨Nat.le_refl _, Nat.lt_add_of_pos_right hpos⟩]
    · exact h.bounded.snoc hle' hlt
  · -- the last second is full
    rw [if_pos (Nat.not_lt.1 hlt), if_neg hlt, decide_eq_false hlt]
    exact ⟨_, rfl, ⟨h.sorted, hle', rfl, rfl, h.bounded⟩, rfl, rfl⟩

/-- The recorded instants of a run from a cache with the invariant at
`last`, at non-decreasing instants from `last` on, all at least
`time_window` seconds after the clock's origin: no call panics, and the
invariant holds after the last. -/
theorem Inv.run {c : ReceivedPacketCache} {recorded : List Nat} {last : Nat} (h : Inv c recorded last)
    (htw : enforcedSizeTime ≤ c.timeWindow) :
    ∀ {nows : List Nat}, (last :: nows).Pairwise (· ≤ ·) → (∀ now ∈ nows, c.timeWindow * nanosPerSec ≤ now) →
      ∃ c' results, c.run nows = some (c', results) ∧
        Inv c' (recorded ++ recordedAt nows results) (nows.getLast?.getD last) ∧
        c'.target = c.target ∧ c'.timeWindow = c.timeWindow
  | [], _, _ => ⟨c, [], rfl, by simpa [recordedAt] using h, rfl, rfl⟩
  | now :: nows, hsorted, hlate => by
    have hle : last ≤ now := List.rel_of_pairwise_cons hsorted List.mem_cons_self
    obtain ⟨c₁, hinsert, h₁, htarget₁, htw₁⟩ := h.cacheInsert htw hle (hlate now List.mem_cons_self)
    obtain ⟨c', results, hrun, h', htarget', htw'⟩ := h₁.run (htw₁ ▸ htw) hsorted.of_cons
      fun n hn => htw₁ ▸ hlate n (List.mem_cons_of_mem _ hn)
    refine ⟨c', decide (Window.countIn recorded enforcedWindow now < c.target) :: results,
      by simp [ReceivedPacketCache.run, hinsert, hrun], ?_,
      htarget'.trans htarget₁, htw'.trans htw₁⟩
    -- the instants recorded by the first call and by the rest
    have hrecorded : recorded ++ recordedAt (now :: nows)
        (decide (Window.countIn recorded enforcedWindow now < c.target) :: results) =
        (if Window.countIn recorded enforcedWindow now < c.target then recorded ++ [now] else recorded) ++
          recordedAt nows results := by
      by_cases hlt : Window.countIn recorded enforcedWindow now < c.target <;> simp [recordedAt, hlt]
    rw [hrecorded, List.getLast?_cons, Option.getD_some]
    exact htarget₁ ▸ h'

/-! ## The cache's guarantees -/

section Guarantees

variable (target timeWindow : Nat) (htw : enforcedSizeTime ≤ timeWindow) {nows : List Nat}
  (hsorted : nows.Pairwise (· ≤ ·)) (hlate : ∀ now ∈ nows, timeWindow * nanosPerSec ≤ now)

include htw hsorted hlate

theorem run_new_inv :
    ∃ c results, (new target timeWindow).run nows = some (c, results) ∧
      Inv c (recordedAt nows results) (nows.getLast?.getD 0) ∧ c.target = target ∧ c.timeWindow = timeWindow := by
  have hsorted' : (0 :: nows).Pairwise (· ≤ ·) :=
    List.pairwise_cons.2 ⟨fun _ _ => Nat.zero_le _, hsorted⟩
  exact (Inv.new target timeWindow 0).run htw hsorted' hlate

/-- From `ReceivedPacketCache::new`, `cache_insert` at non-decreasing
instants, each at least `time_window` seconds after the clock's origin,
never panics; after the last call, at `last`, the deque holds exactly the
instants recorded in the last `time_window` seconds and
`within_enforced_time` counts those of the last second. -/
theorem received_packet_cache_contents :
    ∃ c results, (new target timeWindow).run nows = some (c, results) ∧
      ∀ last ∈ nows.getLast?,
        c.inner = (recordedAt nows results).filter (fun t => last < t + timeWindow * nanosPerSec) ∧
          c.withinEnforcedTime = Window.countIn (recordedAt nows results) enforcedWindow last := by
  obtain ⟨c, results, hrun, h, -, htw'⟩ := run_new_inv target timeWindow htw hsorted hlate
  refine ⟨c, results, hrun, fun last hlast => ?_⟩
  rw [Option.mem_def] at hlast
  rw [hlast, Option.getD_some] at h
  exact ⟨htw' ▸ h.inner_eq, h.within⟩

/-- The same runs record at most `target` instants in any window of one
second, and the deque never holds more than `target * time_window`
instants, the largest size the source gives for it. -/
theorem received_packet_cache_rate_bound :
    ∃ c results, (new target timeWindow).run nows = some (c, results) ∧
      Window.Bounded (recordedAt nows results) enforcedWindow target ∧ c.len ≤ target * timeWindow := by
  obtain ⟨c, results, hrun, h, htarget, htw'⟩ := run_new_inv target timeWindow htw hsorted hlate
  refine ⟨c, results, hrun, htarget ▸ h.bounded, ?_⟩
  -- the deque is a window `time_window` seconds wide, of `time_window` one-second windows
  have hlen : c.len = Window.countIn (recordedAt nows results) (timeWindow * enforcedWindow)
      (nows.getLast?.getD 0) := by
    rw [len, h.inner_eq, ← List.countP_eq_length_filter, htw']
    refine List.countP_congr fun t ht => ?_
    have := h.le_last t ht
    simp only [decide_eq_true_eq, enforcedWindow, enforcedSizeTime, Nat.one_mul]
    omega
  rw [hlen, Nat.mul_comm target]
  exact (htarget ▸ h.bounded).countIn_mul_le timeWindow _

end Guarantees

/-- Four packets over a second, three of them within three nanoseconds,
five seconds after the clock's origin. -/
def burst : List Nat := [5000000000, 5000000001, 5000000002, 6000000001]

theorem received_packet_cache_contents_burst :
    enforcedSizeTime ≤ 5 ∧ burst.Pairwise (· ≤ ·) ∧ (∀ now ∈ burst, 5 * nanosPerSec ≤ now) ∧
      ∃ c results, (new 2 5).run burst = some (c, results) ∧
        ∀ last ∈ burst.getLast?,
          c.inner = (recordedAt burst results).filter (fun t => last < t + 5 * nanosPerSec) ∧
            c.withinEnforcedTime = Window.countIn (recordedAt burst results) enforcedWindow last := by
  have htw : enforcedSizeTime ≤ 5 := by decide
  have hsorted : burst.Pairwise (· ≤ ·) := by decide
  have hlate : ∀ now ∈ burst, 5 * nanosPerSec ≤ now := by decide +kernel
  exact ⟨htw, hsorted, hlate, received_packet_cache_contents 2 5 htw hsorted hlate⟩

theorem received_packet_cache_rate_bound_burst :
    enforcedSizeTime ≤ 5 ∧ burst.Pairwise (· ≤ ·) ∧ (∀ now ∈ burst, 5 * nanosPerSec ≤ now) ∧
      ∃ c results, (new 2 5).run burst = some (c, results) ∧
        Window.Bounded (recordedAt burst results) enforcedWindow 2 ∧ c.len ≤ 2 * 5 := by
  have htw : enforcedSizeTime ≤ 5 := by decide
  have hsorted : burst.Pairwise (· ≤ ·) := by decide
  have hlate : ∀ now ∈ burst, 5 * nanosPerSec ≤ now := by decide +kernel
  exact ⟨htw, hsorted, hlate, received_packet_cache_rate_bound 2 5 htw hsorted hlate⟩

/-- The burst records its first two packets and the one a second later;
the third within the same second is not recorded. -/
example : ((new 2 5).run burst).map Prod.snd = some [true, true, false, true] := by decide +kernel

end ReceivedPacketCache

end Discv5
