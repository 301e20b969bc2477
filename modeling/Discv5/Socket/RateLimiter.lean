import Mathlib

/-!
# The GCRA rate limiter

`src/socket/filter/rate_limiter.rs`. A `Limiter` keeps, per key, the
theoretical arrival time (TAT) of the GCRA: the instant at which the key's
bucket is full again. A batch of `tokens` costs `t * tokens` nanoseconds of
replenishment and is let through when the key's TAT, advanced by that cost,
is at most `tau` nanoseconds in the future.

Times are `Nanosecs`, the `u64` the source casts `Duration::as_nanos()` to;
a `Duration` argument is its number of nanoseconds. `u64` arithmetic wraps,
as in a release build.

`Call` is one call of the limiter's API, and a list of calls is a run:
`results` gives what its `allows` calls return, `accepted` how many tokens
of one key were let through in a window of time.
-/

namespace Discv5

namespace RateLimiter

/-- `Nanosecs`. -/
abbrev Nanosecs := UInt64

/-- `Quota`; the `Duration` in nanoseconds. -/
structure Quota where
  replenishAllEvery : Nat
  maxTokens : UInt64

/-- `RateLimitedErr`; the `Duration` to wait in nanoseconds. -/
inductive RateLimitedErr where
  | tooLarge
  | tooSoon (wait : Nat)
  deriving DecidableEq

/-- `Limiter`. The hash map of TATs is a function. -/
structure Limiter (Key : Type) where
  tau : Nanosecs
  t : Nanosecs
  tatPerKey : Key → Option Nanosecs

/-- `u64::saturating_sub`. -/
def saturatingSub (a b : UInt64) : UInt64 := if b ≤ a then a - b else 0

variable {Key : Type}

namespace Limiter

/-- `Limiter::from_quota`; the `u128` divisions are on `Nat`, and
`try_into` fails past `u64::MAX`. -/
def fromQuota (quota : Quota) : Except String (Limiter Key) :=
  if quota.maxTokens = 0 then .error "Max number of tokens should be positive"
  else
    let tau := quota.replenishAllEvery
    if tau = 0 then .error "Replenish time must be positive"
    else
      let t := tau / quota.maxTokens.toNat
      if 2 ^ 64 ≤ t then .error "total replenish time is too long"
      else if 2 ^ 64 ≤ tau then .error "total replenish time is too long"
      else .ok ⟨UInt64.ofNat tau, UInt64.ofNat t, fun _ => none⟩

variable [DecidableEq Key]

/-- `Limiter::allows`. The key's entry is created, at the request time,
before the request is judged, and stays when it is refused. -/
def allows (l : Limiter Key) (timeSinceStart : Nat) (key : Key) (tokens : UInt64) :
    Except RateLimitedErr Unit × Limiter Key :=
  let timeSinceStart : Nanosecs := UInt64.ofNat timeSinceStart
  let additionalTime := l.t * tokens
  if additionalTime > l.tau then (.error .tooLarge, l)
  else
    let tat := (l.tatPerKey key).getD timeSinceStart
    let l := { l with tatPerKey := Function.update l.tatPerKey key (some tat) }
    let earliestTime := saturatingSub (tat + additionalTime) l.tau
    if timeSinceStart < earliestTime then
      (.error (.tooSoon (earliestTime - timeSinceStart).toNat), l)
    else
      (.ok (), { l with tatPerKey :=
        (Function.update l.tatPerKey key (some (max timeSinceStart tat + additionalTime))) })

/-- `Limiter::prune`: keep the keys whose TAT is at least the limit. -/
def prune (l : Limiter Key) (timeLimit : Nat) : Limiter Key :=
  let lim : Nanosecs := UInt64.ofNat timeLimit
  { l with tatPerKey := fun k => (l.tatPerKey k).filter fun tat => lim ≤ tat }

end Limiter

/-- A call of the limiter's API. -/
inductive Call (Key : Type) where
  | allows (time : Nat) (key : Key) (tokens : UInt64)
  | prune (time : Nat)

namespace Limiter

variable [DecidableEq Key]

/-- What the `allows` calls of a run return, in order. -/
def results (l : Limiter Key) : List (Call Key) → List (Except RateLimitedErr Unit)
  | [] => []
  | .allows time key tokens :: calls => (l.allows time key tokens).1 :: (l.allows time key tokens).2.results calls
  | .prune time :: calls => (l.prune time).results calls

/-- The tokens of `key` let through by the calls of a run at instants in
`[a, b]`. -/
def accepted (l : Limiter Key) (key : Key) (a b : Nat) : List (Call Key) → Nat
  | [] => 0
  | .allows time k tokens :: calls =>
    (if k = key ∧ a ≤ time ∧ time ≤ b ∧ (l.allows time k tokens).1.isOk then tokens.toNat else 0) +
      (l.allows time k tokens).2.accepted key a b calls
  | .prune time :: calls => (l.prune time).accepted key a b calls

end Limiter

/-- The instant of the next `allows` call. -/
def nextAllowsTime : List (Call Key) → Option Nat
  | [] => none
  | .allows time _ _ :: _ => some time
  | .prune _ :: calls => nextAllowsTime calls

/-- The instants of a run as the callers of the limiter make them: `allows`
calls at non-decreasing times since start, and each `prune` no later than
the `allows` call after it. -/
def WellTimed : List (Call Key) → Prop
  | [] => True
  | .allows time _ _ :: calls => (∀ s ∈ nextAllowsTime calls, time ≤ s) ∧ WellTimed calls
  | .prune time :: calls => (∀ s ∈ nextAllowsTime calls, time ≤ s) ∧ WellTimed calls

/-- The run without its `prune` calls. -/
def withoutPrunes : List (Call Key) → List (Call Key)
  | [] => []
  | .allows time key tokens :: calls => .allows time key tokens :: withoutPrunes calls
  | .prune _ :: calls => withoutPrunes calls

/-- Every instant of the run fits in `u64` nanoseconds. -/
def FitsU64 : List (Call Key) → Prop
  | [] => True
  | .allows time _ _ :: calls => time < 2 ^ 64 ∧ FitsU64 calls
  | .prune time :: calls => time < 2 ^ 64 ∧ FitsU64 calls

/-! ## What one `allows` call does -/

namespace Limiter

variable [DecidableEq Key]

@[simp] theorem allows_tau (l : Limiter Key) (time : Nat) (key : Key) (tokens : UInt64) :
    (l.allows time key tokens).2.tau = l.tau := by
  dsimp only [allows]
  split_ifs <;> rfl

@[simp] theorem allows_t (l : Limiter Key) (time : Nat) (key : Key) (tokens : UInt64) :
    (l.allows time key tokens).2.t = l.t := by
  dsimp only [allows]
  split_ifs <;> rfl

/-- `allows` touches the entry of its key only. -/
theorem allows_tatPerKey_of_ne (l : Limiter Key) (time : Nat) {key k : Key} (tokens : UInt64)
    (hk : k ≠ key) : (l.allows time key tokens).2.tatPerKey k = l.tatPerKey k := by
  dsimp only [allows]
  split_ifs <;> simp [Function.update_of_ne hk]

/-- What `allows` returns, and the entry it leaves, depend on the limiter
only through `tau`, `t` and the key's entry. -/
theorem allows_congr {l l' : Limiter Key} (time : Nat) (key : Key) (tokens : UInt64)
    (htau : l.tau = l'.tau) (ht : l.t = l'.t) (hkey : l.tatPerKey key = l'.tatPerKey key) :
    (l.allows time key tokens).1 = (l'.allows time key tokens).1 ∧
      (l.allows time key tokens).2.tatPerKey key = (l'.allows time key tokens).2.tatPerKey key := by
  dsimp only [allows]
  rw [htau, ht, hkey]
  split_ifs <;> simp [hkey]

/-- The wrapped sum `tat + cost`, less `tau` and saturated, is never later
than an instant `s` no earlier than `tat` when the cost is at most `tau`. -/
theorem saturatingSub_add_le {tat cost tau s : UInt64} (htat : tat ≤ s) (hcost : cost ≤ tau) :
    saturatingSub (tat + cost) tau ≤ s := by
  unfold saturatingSub
  rw [UInt64.le_iff_toNat_le] at htat hcost
  split_ifs with h
  · rw [UInt64.le_iff_toNat_le] at h ⊢
    rw [UInt64.toNat_sub_of_le _ _ h, UInt64.toNat_add]
    rw [UInt64.toNat_add] at h
    have := s.toNat_lt
    omega
  · exact UInt64.zero_le

theorem max_eq_of_le {a b : UInt64} (h : b ≤ a) : max a b = a := by
  change (if a ≤ b then b else a) = a
  split
  · next h' => exact UInt64.le_antisymm h h'
  · rfl

/-- A key whose TAT is not after the request time, or a new key, takes a
batch within `tau`: the request passes and the TAT becomes the request
time plus the batch's cost. -/
theorem allows_of_tat_le (l : Limiter Key) (time : Nat) (key : Key) (tokens : UInt64)
    (hcost : l.t * tokens ≤ l.tau)
    (htat : ∀ tat ∈ l.tatPerKey key, tat ≤ UInt64.ofNat time) :
    (l.allows time key tokens).1 = .ok () ∧
      (l.allows time key tokens).2.tatPerKey key = some (UInt64.ofNat time + l.t * tokens) := by
  have hle : (l.tatPerKey key).getD (UInt64.ofNat time) ≤ UInt64.ofNat time := by
    cases h : l.tatPerKey key with
    | none => exact UInt64.le_refl _
    | some tat => exact htat tat h
  have hearly := saturatingSub_add_le hle hcost
  dsimp only [allows]
  simp only [gt_iff_lt, UInt64.not_lt.2 hcost, if_false, UInt64.not_lt.2 hearly]
  simp [max_eq_of_le hle]

end Limiter

/-! ## Pruning is invisible -/

/-- `lp` is `lu` with entries removed whose TAT is before the instant `c`. -/
structure PrunedBelow (c : Nat) (lp lu : Limiter Key) : Prop where
  tau : lp.tau = lu.tau
  t : lp.t = lu.t
  tat : ∀ k, lp.tatPerKey k = lu.tatPerKey k ∨
    (lp.tatPerKey k = none ∧ ∃ x, lu.tatPerKey k = some x ∧ x.toNat < c)

namespace PrunedBelow

variable {c : Nat} {lp lu : Limiter Key}

theorem refl (l : Limiter Key) : PrunedBelow 0 l l := ⟨rfl, rfl, fun _ => .inl rfl⟩

theorem mono (h : PrunedBelow c lp lu) {c' : Nat} (hc : c ≤ c') : PrunedBelow c' lp lu := by
  refine ⟨h.tau, h.t, fun k => ?_⟩
  rcases h.tat k with e | ⟨hp, x, hx, hlt⟩
  · exact .inl e
  · exact .inr ⟨hp, x, hx, by omega⟩

/-- A `prune` on the left only removes entries before its limit. -/
theorem prune (h : PrunedBelow c lp lu) {lim : Nat} (hlim : lim < 2 ^ 64) :
    PrunedBelow (max c lim) (lp.prune lim) lu := by
  refine ⟨h.tau, h.t, fun k => ?_⟩
  simp only [Limiter.prune]
  rcases h.tat k with e | ⟨hp, x, hx, hlt⟩
  · rw [e]
    cases hu : lu.tatPerKey k with
    | none => exact .inl rfl
    | some x =>
      by_cases hx : UInt64.ofNat lim ≤ x
      · exact .inl (by simp [hx])
      · refine .inr ⟨by simpa using hx, x, rfl, ?_⟩
        rw [UInt64.le_iff_toNat_le, UInt64.toNat_ofNat_of_lt' hlim] at hx
        omega
  · exact .inr ⟨by simp [hp], x, hx, by omega⟩

variable [DecidableEq Key]

/-- An `allows` call at an instant no earlier than `c` returns the same on
both sides, and afterwards the removed entries are before its instant. -/
theorem allows (h : PrunedBelow c lp lu) {time : Nat} (hc : c ≤ time) (htime : time < 2 ^ 64)
    (key : Key) (tokens : UInt64) :
    (lp.allows time key tokens).1 = (lu.allows time key tokens).1 ∧
      PrunedBelow time (lp.allows time key tokens).2 (lu.allows time key tokens).2 := by
  have hframe : ∀ k, k ≠ key →
      (lp.allows time key tokens).2.tatPerKey k = (lu.allows time key tokens).2.tatPerKey k ∨
      ((lp.allows time key tokens).2.tatPerKey k = none ∧
        ∃ x, (lu.allows time key tokens).2.tatPerKey k = some x ∧ x.toNat < time) := by
    intro k hk
    rw [Limiter.allows_tatPerKey_of_ne _ _ _ hk, Limiter.allows_tatPerKey_of_ne _ _ _ hk]
    rcases h.tat k with e | ⟨hp, x, hx, hlt⟩
    · exact .inl e
    · exact .inr ⟨hp, x, hx, by omega⟩
  rcases h.tat key with e | ⟨hp, x, hx, hlt⟩
  · -- the key's entry is the same on both sides
    obtain ⟨hr, hkey⟩ := Limiter.allows_congr time key tokens h.tau h.t e
    refine ⟨hr, by simp [h.tau], by simp [h.t], fun k => ?_⟩
    by_cases hk : k = key
    · exact .inl (hk ▸ hkey)
    · exact hframe k hk
  · -- removed on the left, before the request on the right: both sides
    -- let the batch through from the request time, or both refuse it as
    -- too large
    by_cases hcost : lu.t * tokens ≤ lu.tau
    · have hxle : x ≤ UInt64.ofNat time := by
        rw [UInt64.le_iff_toNat_le, UInt64.toNat_ofNat_of_lt' htime]
        omega
      obtain ⟨hrp, hkp⟩ := lp.allows_of_tat_le time key tokens (by rw [h.t, h.tau]; exact hcost)
        (by simp [hp])
      obtain ⟨hru, hku⟩ := lu.allows_of_tat_le time key tokens hcost (by simp [hx, hxle])
      refine ⟨hrp.trans hru.symm, by simp [h.tau], by simp [h.t], fun k => ?_⟩
      by_cases hk : k = key
      · subst hk
        exact .inl (by rw [hkp, hku, h.t])
      · exact hframe k hk
    · have hlarge : ∀ l : Limiter Key, l.t = lu.t → l.tau = lu.tau →
          l.allows time key tokens = (.error .tooLarge, l) := by
        intro l ht htau
        dsimp only [Limiter.allows]
        rw [if_pos (by rw [ht, htau]; exact UInt64.not_le.1 hcost)]
      rw [hlarge lp h.t h.tau, hlarge lu rfl rfl]
      exact ⟨rfl, h.mono hc⟩

end PrunedBelow

variable [DecidableEq Key]

/-- The run with prunes against the run without them, from related limiters. -/
theorem results_withoutPrunes_of_prunedBelow :
    ∀ (calls : List (Call Key)) (c : Nat) (lp lu : Limiter Key), PrunedBelow c lp lu →
      (∀ s ∈ nextAllowsTime calls, c ≤ s) → WellTimed calls → FitsU64 calls →
      lp.results calls = lu.results (withoutPrunes calls)
  | [], _, _, _, _, _, _, _ => rfl
  | .allows time key tokens :: calls, c, lp, lu, h, hc, ⟨hnext, hwt⟩, ⟨htime, hfit⟩ => by
    obtain ⟨hr, h'⟩ := h.allows (hc time rfl) htime key tokens
    simp only [Limiter.results, withoutPrunes, hr, List.cons.injEq, true_and]
    exact results_withoutPrunes_of_prunedBelow calls time _ _ h' hnext hwt hfit
  | .prune lim :: calls, c, lp, lu, h, hc, ⟨hnext, hwt⟩, ⟨hlim, hfit⟩ => by
    simp only [Limiter.results, withoutPrunes]
    exact results_withoutPrunes_of_prunedBelow calls (max c lim) _ _ (h.prune hlim)
      (fun s hs => Nat.max_le.2 ⟨hc s hs, hnext s hs⟩) hwt hfit

/-- Removing the `prune` calls of a well-timed run changes no result of its
`allows` calls, as long as its instants fit in `u64` nanoseconds. -/
theorem results_withoutPrunes (l : Limiter Key) {calls : List (Call Key)} (hwt : WellTimed calls)
    (hfit : FitsU64 calls) : l.results calls = l.results (withoutPrunes calls) :=
  results_withoutPrunes_of_prunedBelow calls 0 l l (.refl l) (fun _ _ => Nat.zero_le _) hwt hfit

/-! ## The quota is exceeded when `t` is rounded down -/

/-- The quota as its documentation states it, for a limiter built from it
and one run: in every window `[a, b]` a key gets at most
`max_tokens + (b - a) * max_tokens / replenish_all_every` tokens. -/
def HonoursQuota (quota : Quota) (l : Limiter Key) (calls : List (Call Key)) : Prop :=
  ∀ key a b, a ≤ b →
    l.accepted key a b calls * quota.replenishAllEvery ≤
      quota.maxTokens.toNat * quota.replenishAllEvery + (b - a) * quota.maxTokens.toNat

/-- With two tokens every 3 ns, `t` is rounded down to 1 ns, and three
single tokens at instant 0 all pass. -/
theorem fromQuota_exceeds_quota :
    ¬ ∀ (quota : Quota) (l : Limiter Unit) (calls : List (Call Unit)),
      Limiter.fromQuota quota = .ok l → WellTimed calls → HonoursQuota quota l calls := by
  intro h
  have hq := h ⟨3, 2⟩ ⟨3, 1, fun _ => none⟩ [.allows 0 () 1, .allows 0 () 1, .allows 0 () 1] rfl
    ⟨by simp [nextAllowsTime], by simp [nextAllowsTime], by simp [nextAllowsTime], trivial⟩
    () 0 0 (Nat.le_refl 0)
  revert hq
  decide

end RateLimiter

end Discv5
