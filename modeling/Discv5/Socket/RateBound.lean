import Discv5.Socket.RateLimiter
import Discv5.Lib.Gcra
import Discv5.Rpc.Message

/-!
# The rate bound of the limiter

`src/socket/filter/rate_limiter.rs` once more. While no sum or product of
`allows` wraps in `u64`, a limiter is GCRA on exact numbers: `allowsNat`
is what `allows` does to the entry of its key, read as numbers
(`allows_refines`), and it lets a request through exactly when it conforms
to the key's TAT (`allowsNat_fst_iff`).

From there GCRA's budget and rate bound carry over every run of a limiter
that `from_quota` builds, at instants that stay `2 * tau` short of
`2 ^ 64` ns: no interval `[a, b]` lets through more than
`(b - a + tau) / t` tokens of one key (`accepted_rate_bound`). This is the
bound the limiter keeps; the quota's own, in `max_tokens`, does not follow
from it, since `t` is rounded down.

The second half models the `RateLimiter` the packet filter holds: a
limiter of all requests, and optionally one per node id and one per IP
address, each request one token at the nanoseconds since it was built.
Over every run of its calls, however requests of other kinds and prunes
are interleaved, the requests of one IP address it lets through keep the
bound of its limiter per IP address (`ip_rate_bound`).
-/

namespace Discv5

namespace RateLimiter

/-- What `allows` does to the entry of its key, in numbers: whether the
request passes, and the entry it leaves. -/
def allowsNat (tau t : Nat) (entry : Option Nat) (now tokens : Nat) : Bool × Option Nat :=
  if tau < t * tokens then (false, entry)
  else
    -- `entry(key).or_insert(now)`: a new key's bucket is full
    let tat := entry.getD now
    if now < tat + t * tokens - tau then (false, some tat)
    else (true, some (max now tat + t * tokens))

/-- A request passes exactly when it conforms to the key's TAT; a batch
that takes longer than `tau` never conforms. -/
theorem allowsNat_fst_iff (tau t : Nat) (entry : Option Nat) (now tokens : Nat) :
    (allowsNat tau t entry now tokens).1 = true ↔ Gcra.Conforms t tau (entry.getD now) now tokens := by
  unfold allowsNat Gcra.Conforms
  dsimp only
  split_ifs <;> simp <;> omega

/-- The key's TAT after the request: GCRA's next one if it passed. -/
theorem allowsNat_snd_getD (tau t : Nat) (entry : Option Nat) (now tokens : Nat) :
    (allowsNat tau t entry now tokens).2.getD now =
      if Gcra.Conforms t tau (entry.getD now) now tokens then Gcra.next t (entry.getD now) now tokens
      else entry.getD now := by
  have hc := allowsNat_fst_iff tau t entry now tokens
  unfold allowsNat at hc ⊢
  dsimp only at hc ⊢
  by_cases hlarge : tau < t * tokens
  · rw [if_pos hlarge] at hc ⊢
    rw [if_neg (by simpa using hc)]
  · rw [if_neg hlarge] at hc ⊢
    by_cases hsoon : now < entry.getD now + t * tokens - tau
    · rw [if_pos hsoon] at hc ⊢
      rw [if_neg (by simpa using hc)]
      rfl
    · rw [if_neg hsoon] at hc ⊢
      rw [if_pos (by simpa using hc)]
      rfl

/-- An entry within `tau` of the request time stays so. -/
theorem allowsNat_snd_le {tau t : Nat} {entry : Option Nat} {now tokens : Nat}
    (h : ∀ x ∈ entry, x ≤ now + tau) : ∀ x ∈ (allowsNat tau t entry now tokens).2, x ≤ now + tau := by
  have htat : entry.getD now ≤ now + tau := by
    cases entry with
    | none => simp
    | some x => exact h x rfl
  intro x hx
  unfold allowsNat at hx
  dsimp only at hx
  split_ifs at hx with hlarge hsoon
  · exact h x hx
  · cases hx
    exact htat
  · -- a request let through moves the TAT at most `tau` past its instant
    cases hx
    omega

theorem toNat_saturatingSub (a b : UInt64) : (saturatingSub a b).toNat = a.toNat - b.toNat := by
  unfold saturatingSub
  split_ifs with h
  · exact UInt64.toNat_sub_of_le _ _ h
  · rw [UInt64.le_iff_toNat_le] at h
    simp only [UInt64.toNat_zero]
    omega

namespace Limiter

variable {Key : Type}

/-- The entry of `key`, as a number. -/
def entryNat (l : Limiter Key) (key : Key) : Option Nat := (l.tatPerKey key).map UInt64.toNat

/-- A limiter `from_quota` builds has no entries. -/
theorem fromQuota_tatPerKey {quota : Quota} {l : Limiter Key} (hl : fromQuota quota = .ok l) (k : Key) :
    l.tatPerKey k = none := by
  unfold fromQuota at hl
  dsimp only at hl
  split_ifs at hl
  cases hl
  rfl

/-! ## The rate bound over runs -/

/-- What a run has left for `key`, with `past` the requests of `key` it
let through, the last no later than `now`: every entry within `tau` of
`now`, and GCRA's budget at the key's TAT and its rate bound. -/
structure KeyInv (l : Limiter Key) (now : Nat) (key : Key) (past : List (Nat × Nat)) : Prop where
  within : ∀ k, ∀ x ∈ l.entryNat k, x ≤ now + l.tau.toNat
  budget : Gcra.Budget l.t.toNat ((l.entryNat key).getD now) past
  rate : Gcra.Rate l.t.toNat l.tau.toNat past

variable {l : Limiter Key} {c now : Nat} {key : Key} {past : List (Nat × Nat)}

theorem KeyInv.empty (l : Limiter Key) (hl : ∀ k, l.tatPerKey k = none) (now : Nat) (key : Key) :
    KeyInv l now key [] :=
  ⟨fun k x hx => by simp [entryNat, hl k] at hx, Gcra.Budget.nil _ _, Gcra.Rate.nil _ _⟩

/-- The invariant holds at any later instant. -/
theorem KeyInv.mono (h : KeyInv l c key past) (hc : c ≤ now) : KeyInv l now key past := by
  refine ⟨fun k x hx => (h.within k x hx).trans (by omega), h.budget.mono ?_, h.rate⟩
  -- a key without an entry has its TAT at the instant
  cases l.entryNat key <;> simp [hc]

@[simp] theorem tau_prune (l : Limiter Key) (lim : Nat) : (l.prune lim).tau = l.tau := rfl

@[simp] theorem t_prune (l : Limiter Key) (lim : Nat) : (l.prune lim).t = l.t := rfl

/-- `prune` keeps the entries from its limit on, the limit read as `u64`. -/
theorem entryNat_prune (l : Limiter Key) (lim : Nat) (k : Key) :
    (l.prune lim).entryNat k = (l.entryNat k).filter fun x => (UInt64.ofNat lim).toNat ≤ x := by
  simp only [entryNat, Limiter.prune]
  cases l.tatPerKey k with
  | none => rfl
  | some x =>
    simp only [Option.map_some, Option.filter_some]
    by_cases hx : UInt64.ofNat lim ≤ x
    · rw [decide_eq_true hx, decide_eq_true (UInt64.le_iff_toNat_le.1 hx)]
      rfl
    · rw [decide_eq_false hx, decide_eq_false (fun h => hx (UInt64.le_iff_toNat_le.2 h))]
      rfl

/-- A prune drops entries before its limit, which later instants pass. -/
theorem KeyInv.prune (h : KeyInv l c key past) (lim : Nat) : KeyInv (l.prune lim) (max c lim) key past := by
  have hsub : ∀ k, ∀ x ∈ (l.prune lim).entryNat k, x ∈ l.entryNat k := fun k x hx => by
    rw [entryNat_prune] at hx
    exact Option.eq_some_of_filter_eq_some hx
  refine ⟨fun k x hx => ?_, h.budget.mono ?_, by simpa using h.rate⟩
  · have := h.within k x (hsub k x hx)
    simp only [tau_prune]
    omega
  -- the TAT of `key` never moves back: a dropped one was before the limit
  have hlim : (UInt64.ofNat lim).toNat ≤ lim := by
    rw [UInt64.toNat_ofNat']
    exact Nat.mod_le _ _
  simp only [entryNat_prune]
  cases l.entryNat key with
  | none => simp
  | some x =>
    by_cases hx : (UInt64.ofNat lim).toNat ≤ x
    · rw [Option.filter_some, decide_eq_true hx]
      exact Nat.le_refl x
    · rw [Option.filter_some, decide_eq_false hx]
      show x ≤ max c lim
      omega

/-- No sum or product of `allows` wraps in a run: each instant of an
`allows` call stays `2 * tau` short of `2 ^ 64` ns, and the cost of each
batch fits in `u64`. -/
def NoWrap (tau t : Nat) : List (Call Key) → Prop
  | [] => True
  | .allows time _ tokens :: calls => (time + 2 * tau < 2 ^ 64 ∧ t * tokens.toNat < 2 ^ 64) ∧ NoWrap tau t calls
  | .prune _ :: calls => NoWrap tau t calls

variable [DecidableEq Key]

theorem entryNat_allows_of_ne (l : Limiter Key) (now : Nat) {key k : Key} (tokens : UInt64) (hk : k ≠ key) :
    (l.allows now key tokens).2.entryNat k = l.entryNat k := by
  rw [entryNat, allows_tatPerKey_of_ne _ _ _ hk, entryNat]

/-- While no sum wraps, `allows` is `allowsNat` on the entry of its key:
the request time and the key's TAT stay `tau` short of `2 ^ 64 - tau`,
and the batch's cost fits in `u64`. -/
theorem allows_refines (l : Limiter Key) (now : Nat) (key : Key) (tokens : UInt64)
    (hnow : now + 2 * l.tau.toNat < 2 ^ 64) (hcost : l.t.toNat * tokens.toNat < 2 ^ 64)
    (hentry : ∀ x ∈ l.entryNat key, x ≤ now + l.tau.toNat) :
    ((l.allows now key tokens).1.isOk, (l.allows now key tokens).2.entryNat key) =
      allowsNat l.tau.toNat l.t.toNat (l.entryNat key) now tokens.toNat := by
  have hs : (UInt64.ofNat now).toNat = now :=
    UInt64.toNat_ofNat_of_lt' (Nat.lt_of_le_of_lt (Nat.le_add_right now _) hnow)
  have hc : (l.t * tokens).toNat = l.t.toNat * tokens.toNat := by
    rw [UInt64.toNat_mul, Nat.mod_eq_of_lt hcost]
  -- the key's TAT, a new key's being the request time
  have htat : ((l.tatPerKey key).getD (UInt64.ofNat now)).toNat = (l.entryNat key).getD now := by
    unfold entryNat
    cases l.tatPerKey key <;> simp [hs]
  have htle : (l.entryNat key).getD now ≤ now + l.tau.toNat := by
    cases he : l.entryNat key with
    | none => simp
    | some x => exact hentry x he
  unfold allows allowsNat
  dsimp only
  by_cases hlarge : l.tau.toNat < l.t.toNat * tokens.toNat
  · rw [if_pos (show l.t * tokens > l.tau from UInt64.lt_iff_toNat_lt.2 (by rw [hc]; exact hlarge)),
      if_pos hlarge]
    rfl
  · rw [if_neg (show ¬l.t * tokens > l.tau from fun h => hlarge (hc ▸ UInt64.lt_iff_toNat_lt.1 h)),
      if_neg hlarge]
    have hsum : ((l.tatPerKey key).getD (UInt64.ofNat now) + l.t * tokens).toNat =
        (l.entryNat key).getD now + l.t.toNat * tokens.toNat := by
      rw [UInt64.toNat_add, hc, htat, Nat.mod_eq_of_lt (by omega)]
    by_cases hsoon : now < (l.entryNat key).getD now + l.t.toNat * tokens.toNat - l.tau.toNat
    · -- too soon: the entry is the TAT it had, or the request time for a new key
      rw [if_pos (UInt64.lt_iff_toNat_lt.2 (by rw [hs, toNat_saturatingSub, hsum]; exact hsoon)), if_pos hsoon]
      simp [entryNat, htat, Except.isOk, Except.toBool]
    · rw [if_neg (fun h => hsoon (by rwa [UInt64.lt_iff_toNat_lt, hs, toNat_saturatingSub, hsum] at h)),
        if_neg hsoon]
      have hnext : (max (UInt64.ofNat now) ((l.tatPerKey key).getD (UInt64.ofNat now)) + l.t * tokens).toNat =
          max now ((l.entryNat key).getD now) + l.t.toNat * tokens.toNat := by
        rw [UInt64.toNat_add, UInt64.toNat_max, hs, htat, hc, Nat.mod_eq_of_lt (by omega)]
      simp [entryNat, hnext, Except.isOk, Except.toBool]

/-- A request adds itself to the requests of `key` let through when it is
of `key` and passes. -/
theorem KeyInv.allows (h : KeyInv l now key past) (hnow : now + 2 * l.tau.toNat < 2 ^ 64)
    (k : Key) {tokens : UInt64} (hcost : l.t.toNat * tokens.toNat < 2 ^ 64) :
    KeyInv (l.allows now k tokens).2 now key
      (past ++ if k = key ∧ (l.allows now k tokens).1.isOk then [(now, tokens.toNat)] else []) := by
  have href := l.allows_refines now k tokens hnow hcost (h.within k)
  have hok : (l.allows now k tokens).1.isOk =
      (allowsNat l.tau.toNat l.t.toNat (l.entryNat k) now tokens.toNat).1 := congrArg Prod.fst href
  have hent : (l.allows now k tokens).2.entryNat k =
      (allowsNat l.tau.toNat l.t.toNat (l.entryNat k) now tokens.toNat).2 := congrArg Prod.snd href
  refine ⟨fun k' => ?_, ?_, ?_⟩ <;> simp only [allows_tau, allows_t]
  · by_cases hk' : k' = k
    · subst hk'
      rw [hent]
      exact allowsNat_snd_le (h.within k')
    · rw [entryNat_allows_of_ne _ _ _ hk']
      exact h.within k'
  · by_cases hk : k = key
    · subst hk
      rw [hent, allowsNat_snd_getD]
      by_cases hacc : Gcra.Conforms l.t.toNat l.tau.toNat ((l.entryNat k).getD now) now tokens.toNat
      · -- let through: GCRA's next TAT keeps the budget
        have hpass : k = k ∧ (l.allows now k tokens).1.isOk = true :=
          ⟨rfl, by rw [hok, allowsNat_fst_iff]; exact hacc⟩
        rw [if_pos hpass, if_pos hacc]
        exact h.budget.accept
      · have hfail : ¬(k = k ∧ (l.allows now k tokens).1.isOk = true) := fun h' =>
          hacc (by rw [← allowsNat_fst_iff, ← hok]; exact h'.2)
        rw [if_neg hfail, if_neg hacc, List.append_nil]
        exact h.budget
    · rw [if_neg (fun h' => hk h'.1), List.append_nil, entryNat_allows_of_ne _ _ _ (Ne.symm hk)]
      exact h.budget
  · split_ifs with hacc
    · obtain ⟨rfl, hpass⟩ := hacc
      rw [hok, allowsNat_fst_iff] at hpass
      exact h.rate.accept h.budget hpass
    · rw [List.append_nil]
      exact h.rate

theorem tokensIn_append_ite (past : List (Nat × Nat)) (p : Prop) [Decidable p] (s w a b : Nat) :
    Gcra.tokensIn (past ++ if p then [(s, w)] else []) a b =
      Gcra.tokensIn past a b + if p ∧ a ≤ s ∧ s ≤ b then w else 0 := by
  by_cases hp : p <;> simp [Gcra.tokensIn_snoc, hp]

/-- The run lemma: what the calls after `past` let through of `key` keeps
the rate bound together with `past`. -/
theorem KeyInv.accepted (h : KeyInv l c key past) (calls : List (Call Key))
    (hnext : ∀ s ∈ nextAllowsTime calls, c ≤ s) (hwt : WellTimed calls)
    (hfit : NoWrap l.tau.toNat l.t.toNat calls) (a b : Nat) :
    l.t.toNat * (Gcra.tokensIn past a b + l.accepted key a b calls) ≤ b - a + l.tau.toNat := by
  induction calls generalizing l c past with
  | nil => simpa [Limiter.accepted] using h.rate a b
  | cons call calls ih =>
    cases call with
    | allows s k tokens =>
      obtain ⟨hnext', hwt⟩ := hwt
      obtain ⟨⟨hs, hcost⟩, hfit⟩ := hfit
      have h' := (h.mono (hnext s rfl)).allows hs k hcost
      have hrun := ih h' (fun s' hs' => hnext' s' hs') hwt (by simpa using hfit)
      simp only [allows_tau, allows_t] at hrun
      rw [tokensIn_append_ite] at hrun
      -- this call's tokens count on both sides alike
      have hcount : Gcra.tokensIn past a b + l.accepted key a b (.allows s k tokens :: calls) =
          Gcra.tokensIn past a b + (if (k = key ∧ (l.allows s k tokens).1.isOk = true) ∧ a ≤ s ∧ s ≤ b then
            tokens.toNat else 0) + (l.allows s k tokens).2.accepted key a b calls := by
        simp only [Limiter.accepted]
        by_cases hk : k = key <;> by_cases hok : (l.allows s k tokens).1.isOk = true <;>
          by_cases hab : a ≤ s ∧ s ≤ b <;> simp [hk, hok, hab] <;> omega
      rw [hcount]
      exact hrun
    | prune lim =>
      obtain ⟨hlim, hwt⟩ := hwt
      have hrun := ih (h.prune lim) (fun s hs => Nat.max_le.2 ⟨hnext s hs, hlim s hs⟩) hwt hfit
      simpa [Limiter.accepted] using hrun

/-- Over every well-timed run of a limiter `from_quota` builds, in which no
sum or product wraps, no interval `[a, b]` lets through more tokens of one
key than `(b - a + tau) / t`. -/
theorem accepted_rate_bound {quota : Quota} {l : Limiter Key} (hl : fromQuota quota = .ok l)
    {calls : List (Call Key)} (hwt : WellTimed calls) (hfit : NoWrap l.tau.toNat l.t.toNat calls)
    (key : Key) (a b : Nat) :
    l.t.toNat * l.accepted key a b calls ≤ b - a + l.tau.toNat := by
  have h := (KeyInv.empty l (fromQuota_tatPerKey hl) 0 key).accepted calls (fun _ _ => Nat.zero_le _) hwt hfit a b
  simpa using h

/-- The source's test quota: four tokens every two seconds. -/
def fourEveryTwoSeconds : Limiter Nat := ⟨2000000000, 500000000, fun _ => none⟩

/-- The source's `it_works_b`: five requests of key 10, 100 ms apart. -/
def fiveRequests : List (Call Nat) :=
  [.allows 0 10 1, .allows 100000000 10 1, .allows 200000000 10 1, .allows 300000000 10 1,
    .allows 400000000 10 1]

/-- The first four pass; the fifth, before a token is back, does not. -/
example : fourEveryTwoSeconds.results fiveRequests = [.ok (), .ok (), .ok (), .ok (), .error (.tooSoon 100000000)] := by
  decide

theorem accepted_rate_bound_fiveRequests :
    fromQuota ⟨2000000000, 4⟩ = .ok fourEveryTwoSeconds ∧ WellTimed fiveRequests ∧
      NoWrap fourEveryTwoSeconds.tau.toNat fourEveryTwoSeconds.t.toNat fiveRequests ∧
      fourEveryTwoSeconds.t.toNat * fourEveryTwoSeconds.accepted 10 0 400000000 fiveRequests ≤
        400000000 - 0 + fourEveryTwoSeconds.tau.toNat := by
  have hl : fromQuota ⟨2000000000, 4⟩ = .ok fourEveryTwoSeconds := rfl
  have hwt : WellTimed fiveRequests := by simp [fiveRequests, WellTimed, nextAllowsTime]
  have hfit : NoWrap fourEveryTwoSeconds.tau.toNat fourEveryTwoSeconds.t.toNat fiveRequests := by
    simp [fiveRequests, NoWrap, fourEveryTwoSeconds]
  exact ⟨hl, hwt, hfit, accepted_rate_bound hl hwt hfit 10 0 400000000⟩

end Limiter

/-! ## The three limiters -/

/-- `LimitKind`. -/
inductive LimitKind where
  | total
  | nodeId (nodeId : NodeId)
  | ip (ipAddr : IpAddr)

end RateLimiter

/-- `RateLimiter`: the limiter of all requests, the optional ones per node
id and per IP address, and the instant it was built, in nanoseconds
(`total_requests_per_second`, which only sizes the metrics cache, is left
out). -/
structure RateLimiter where
  totalRl : RateLimiter.Limiter Unit
  nodeRl : Option (RateLimiter.Limiter NodeId)
  ipRl : Option (RateLimiter.Limiter IpAddr)
  initTime : Nat

/-- `RateLimiterBuilder`. -/
structure RateLimiterBuilder where
  totalQuota : Option RateLimiter.Quota
  nodeQuota : Option RateLimiter.Quota
  ipQuota : Option RateLimiter.Quota

/-- `RateLimiterBuilder::build`, at `now`. -/
def RateLimiterBuilder.build (b : RateLimiterBuilder) (now : Nat) : Except String RateLimiter := do
  let totalQuota ← match b.totalQuota with
    | some q => pure q
    | none => throw "Total quota not specified and must be set."
  let totalRl ← RateLimiter.Limiter.fromQuota totalQuota
  let nodeRl ← match b.nodeQuota with
    | some q => some <$> RateLimiter.Limiter.fromQuota q
    | none => pure none
  let ipRl ← match b.ipQuota with
    | some q => some <$> RateLimiter.Limiter.fromQuota q
    | none => pure none
  pure ⟨totalRl, nodeRl, ipRl, now⟩

namespace RateLimiter

/-- `RateLimiter::allows` at `now`: one token at the time since the limiter
was built; a kind without a limiter is let through. -/
def allows (r : RateLimiter) (now : Nat) (request : LimitKind) : Except RateLimitedErr Unit × RateLimiter :=
  let timeSinceStart := now - r.initTime
  -- only count each of these as one
  let tokens : UInt64 := 1
  match request with
  | .total =>
    let x := r.totalRl.allows timeSinceStart () tokens
    (x.1, { r with totalRl := x.2 })
  | .ip ipAddr =>
    match r.ipRl with
    | some limiter =>
      let x := limiter.allows timeSinceStart ipAddr tokens
      (x.1, { r with ipRl := some x.2 })
    | none => (.ok (), r)
  | .nodeId nodeId =>
    match r.nodeRl with
    | some limiter =>
      let x := limiter.allows timeSinceStart nodeId tokens
      (x.1, { r with nodeRl := some x.2 })
    | none => (.ok (), r)

/-- `RateLimiter::prune` at `now`. -/
def prune (r : RateLimiter) (now : Nat) : RateLimiter :=
  let timeSinceStart := now - r.initTime
  { r with
    totalRl := r.totalRl.prune timeSinceStart
    ipRl := r.ipRl.map (·.prune timeSinceStart)
    nodeRl := r.nodeRl.map (·.prune timeSinceStart) }

/-- Whether a request is one of the IP address `x`. -/
def LimitKind.isIp (x : IpAddr) : LimitKind → Bool
  | .ip ipAddr => ipAddr = x
  | _ => false

/-- A call on a `RateLimiter`: a request at `now`, or a prune. -/
inductive Event where
  | allows (now : Nat) (request : LimitKind)
  | prune (now : Nat)

/-- The instant of an event. -/
def Event.instant : Event → Nat
  | .allows now _ => now
  | .prune now => now

/-- The events in order: the rate limiter after them, and each request
with the time since start it was metered at and whether it passed. -/
def run (r : RateLimiter) : List Event → RateLimiter × List (Nat × LimitKind × Bool)
  | [] => (r, [])
  | .allows now request :: events =>
    let x := r.allows now request
    let y := x.2.run events
    (y.1, (now - r.initTime, request, x.1.isOk) :: y.2)
  | .prune now :: events => (r.prune now).run events

/-- The requests of the IP address `x` let through, one token each. -/
def ipPasses (x : IpAddr) (log : List (Nat × LimitKind × Bool)) : List (Nat × Nat) :=
  (log.filter fun d => d.2.1.isIp x && d.2.2).map fun d => (d.1, 1)

theorem ipPasses_cons (x : IpAddr) (d : Nat × LimitKind × Bool) (log : List (Nat × LimitKind × Bool)) :
    ipPasses x (d :: log) = (if d.2.1.isIp x && d.2.2 then [(d.1, 1)] else []) ++ ipPasses x log := by
  unfold ipPasses
  by_cases h : (d.2.1.isIp x && d.2.2) = true <;> simp [h]

@[simp] theorem initTime_allows (r : RateLimiter) (now : Nat) (request : LimitKind) :
    (r.allows now request).2.initTime = r.initTime := by
  unfold allows
  split <;> (try split) <;> rfl

@[simp] theorem initTime_prune (r : RateLimiter) (now : Nat) : (r.prune now).initTime = r.initTime := rfl

/-- A request of another kind than per IP address leaves that limiter. -/
theorem ipRl_allows_of_not_ip (r : RateLimiter) (now : Nat) {request : LimitKind} (h : ∀ y, request ≠ .ip y) :
    (r.allows now request).2.ipRl = r.ipRl := by
  unfold allows
  split
  · rfl
  · exact absurd rfl (h _)
  · split <;> rfl

theorem allows_ip (r : RateLimiter) (now : Nat) (y : IpAddr) {l : Limiter IpAddr} (hl : r.ipRl = some l) :
    r.allows now (.ip y) = ((l.allows (now - r.initTime) y 1).1, { r with ipRl := some (l.allows (now - r.initTime) y 1).2 }) := by
  simp [allows, hl]

variable {c : Nat} {x : IpAddr} {past : List (Nat × Nat)}

/-- The run lemma of the limiter per IP address. -/
theorem Limiter.KeyInv.run_ipPasses {r : RateLimiter} {l : Limiter IpAddr} (hl : r.ipRl = some l) (h : l.KeyInv c x past)
    (events : List Event) (hnext : ∀ e ∈ events, c ≤ e.instant - r.initTime)
    (hsorted : (events.map Event.instant).Pairwise (· ≤ ·))
    (hfit : ∀ e ∈ events, e.instant - r.initTime + 2 * l.tau.toNat < 2 ^ 64) (a b : Nat) :
    l.t.toNat * (Gcra.tokensIn past a b + Gcra.tokensIn (ipPasses x (r.run events).2) a b) ≤ b - a + l.tau.toNat := by
  induction events generalizing r l c past with
  | nil => simpa [run, ipPasses] using h.rate a b
  | cons e events ih =>
    rw [List.map_cons, List.pairwise_cons] at hsorted
    have hlater : ∀ e' ∈ events, e.instant - r.initTime ≤ e'.instant - r.initTime := fun e' he' =>
      Nat.sub_le_sub_right (hsorted.1 _ (List.mem_map_of_mem he')) _
    have hc : c ≤ e.instant - r.initTime := hnext e List.mem_cons_self
    have hfit' : ∀ e' ∈ events, e'.instant - r.initTime + 2 * l.tau.toNat < 2 ^ 64 := fun e' he' =>
      hfit e' (List.mem_cons_of_mem _ he')
    cases e with
    | allows now request =>
      simp only [run]
      rw [ipPasses_cons]
      by_cases hip : ∃ y, request = .ip y
      · obtain ⟨y, rfl⟩ := hip
        have hcost : l.t.toNat * (1 : UInt64).toNat < 2 ^ 64 := by simpa using UInt64.toNat_lt l.t
        have h' := (h.mono hc).allows (hfit _ List.mem_cons_self) y hcost
        have hrun := ih (r := { r with ipRl := some (l.allows (now - r.initTime) y 1).2 }) rfl h'
          (fun e' he' => hlater e' he') hsorted.2 (by simpa using hfit')
        simp only [Limiter.allows_t, Limiter.allows_tau, Gcra.tokensIn_append] at hrun
        rw [allows_ip r now y hl, Gcra.tokensIn_append, ← Nat.add_assoc]
        -- the request counts for `x` on both sides alike
        have hcount : Gcra.tokensIn (if (LimitKind.ip y).isIp x && (l.allows (now - r.initTime) y 1).1.isOk
              then [(now - r.initTime, 1)] else []) a b =
            Gcra.tokensIn (if y = x ∧ (l.allows (now - r.initTime) y 1).1.isOk = true
              then [(now - r.initTime, (1 : UInt64).toNat)] else []) a b := by
          by_cases hy : y = x <;> simp [LimitKind.isIp, hy]
        rw [hcount]
        exact hrun
      · -- a request of another kind leaves the limiter per IP address and counts for no address
        have hne : ∀ y, request ≠ .ip y := fun y hy => hip ⟨y, hy⟩
        have hrun := ih (r := (r.allows now request).2) (by rw [ipRl_allows_of_not_ip _ _ hne, hl]) h
          (by simpa using fun e' he' => hc.trans (hlater e' he')) hsorted.2 (by simpa using hfit')
        have hskip : request.isIp x = false := by
          cases request with
          | ip y => exact absurd rfl (hne y)
          | total | nodeId _ => rfl
        simpa [hskip] using hrun
    | prune now =>
      have hrun := ih (r := r.prune now) (l := l.prune (now - r.initTime)) (by simp [RateLimiter.prune, hl]) (h.prune _)
        (fun e' he' => Nat.max_le.2 ⟨hc.trans (hlater e' he'), hlater e' he'⟩) hsorted.2
        (by simpa using hfit')
      simpa [run] using hrun

/-- Over every run of a rate limiter whose limiter per IP address starts
empty, at non-decreasing instants that stay `2 * tau` short of `2 ^ 64` ns
from its start, no interval `[a, b]` of time since start lets through more
requests of one IP address than `(b - a + tau) / t`. -/
theorem ip_rate_bound {r : RateLimiter} {l : Limiter IpAddr} (hl : r.ipRl = some l)
    (hfresh : ∀ k, l.tatPerKey k = none) {events : List Event}
    (hsorted : (events.map Event.instant).Pairwise (· ≤ ·))
    (hfit : ∀ e ∈ events, e.instant - r.initTime + 2 * l.tau.toNat < 2 ^ 64) (x : IpAddr) (a b : Nat) :
    l.t.toNat * Gcra.tokensIn (ipPasses x (r.run events).2) a b ≤ b - a + l.tau.toNat := by
  have h := (Limiter.KeyInv.empty l hfresh 0 x).run_ipPasses hl events (fun _ _ => Nat.zero_le _) hsorted hfit a b
  simpa using h

/-- A rate limiter built at instant 0 with the source's test quota per IP
address, four requests every two seconds, and the same in total. -/
def testIpLimiter : Limiter IpAddr := ⟨2000000000, 500000000, fun _ => none⟩

def testRateLimiter : RateLimiter := ⟨⟨2000000000, 500000000, fun _ => none⟩, none, some testIpLimiter, 0⟩

/-- `127.0.0.1`. -/
def localhost : IpAddr := .v4 ⟨[127, 0, 0, 1], rfl⟩

/-- Requests of `localhost` 100 ms apart, a prune, and one request in total. -/
def localhostRequests : List Event :=
  [.allows 0 (.ip localhost), .allows 100000000 (.ip localhost), .prune 150000000, .allows 200000000 .total,
    .allows 300000000 (.ip localhost)]

theorem ip_rate_bound_localhostRequests :
    testRateLimiter.ipRl = some testIpLimiter ∧ (∀ k, testIpLimiter.tatPerKey k = none) ∧
      (localhostRequests.map Event.instant).Pairwise (· ≤ ·) ∧
      (∀ e ∈ localhostRequests, e.instant - testRateLimiter.initTime + 2 * testIpLimiter.tau.toNat < 2 ^ 64) ∧
      testIpLimiter.t.toNat * Gcra.tokensIn (ipPasses localhost (testRateLimiter.run localhostRequests).2) 0 300000000 ≤
        300000000 - 0 + testIpLimiter.tau.toNat := by
  have hl : testRateLimiter.ipRl = some testIpLimiter := rfl
  have hfresh : ∀ k, testIpLimiter.tatPerKey k = none := fun _ => rfl
  have hsorted : (localhostRequests.map Event.instant).Pairwise (· ≤ ·) := by decide
  have hfit : ∀ e ∈ localhostRequests, e.instant - testRateLimiter.initTime + 2 * testIpLimiter.tau.toNat < 2 ^ 64 := by
    decide
  exact ⟨hl, hfresh, hsorted, hfit, ip_rate_bound hl hfresh hsorted hfit localhost 0 300000000⟩

end RateLimiter

end Discv5
