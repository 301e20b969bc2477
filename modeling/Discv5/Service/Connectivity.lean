import Discv5.Service.IpVote
import Discv5.Service.Admission

/-!
# Advertising the external socket

`src/service/connectivity_state.rs` and the service's handling of the
votes PONGs carry (`handle_ip_vote_from_pong`, `require_more_ip_votes` and
the branch on `ConnectivityState::poll` in `src/service.rs`). When the
votes name a new majority socket, the local ENR advertises it and a timer
starts: two incoming sessions before it fires show the node is contactable;
if it fires first, the ENR stops advertising a socket of that IP version,
and votes of that version are not counted for
`DURATION_UNTIL_NEXT_CONNECTIVITY_ATTEMPT`.

`ConnectivityState` keeps the same three fields for IPv4 and for IPv6, and
each of its functions runs the same code on the fields of the socket's
version: the fields are one `FamilyState` per version here, indexed by the
`TimerFailure` that names the version. A `Sleep` is its deadline; `poll`
returns once a deadline has passed, and `select` takes the IPv4 timer when
both have. Instants and durations are in seconds.

The local ENR is a parameter type, with its UDP sockets kept beside it. The
`enr` crate's updates of it (`EnrUpdate`) can fail, and the service then
logs the error and leaves the record as it was. The metrics, the log and the
pings that follow an update are left out.

Over every run, each wait that runs is for an advertised socket and has
counted fewer than `NUMBER_OF_INCOMING_CONNECTIONS_REQUIRED_TO_BE_VALID`
connections (`Inv`). A version that awaits its next test, with no wait
running, is left as it is by every step before that test
(`reachable_of_quiet`). From the two: a connectivity timeout always fails
the test of an advertised socket, and withdraws it unless the update fails
(`timeout_withdraws_failed_socket`); after a withdrawal nothing of that
version is advertised for six hours, whatever arrives
(`quiet_after_failed_test`), and after a failed one the old socket stays as
long (`stale_socket_after_failed_removal`). Whatever happens, an advertised
socket is only ever replaced by one the votes elect
(`advertised_changes_by_election`).
-/

namespace Discv5

/-- `SocketAddr::is_ipv6`. -/
def SocketAddr.isIpv6 : SocketAddr → Bool
  | .v4 _ => false
  | .v6 _ => true

namespace Service

/-- `DURATION_UNTIL_NEXT_CONNECTIVITY_ATTEMPT`: six hours. -/
def durationUntilNextConnectivityAttempt : Nat := 21600

/-- `NUMBER_OF_INCOMING_CONNECTIONS_REQUIRED_TO_BE_VALID`. -/
def numberOfIncomingConnectionsRequiredToBeValid : Nat := 2

/-- `TimerFailure`: the IP version whose test failed. -/
inductive TimerFailure where
  | v4
  | v6
  deriving DecidableEq, Repr

/-- The version of a socket. -/
def ipVersion : SocketAddr → TimerFailure
  | .v4 _ => .v4
  | .v6 _ => .v6

/-- The fields `ConnectivityState` keeps for one IP version: the deadline of
the wait for incoming connections, the instant from which votes count
again, and the incoming connections counted since the last update. -/
structure FamilyState where
  incomingWaitTime : Option Nat
  nextConnectivityTest : Nat
  incomingCount : Nat
  deriving DecidableEq, Repr

/-- `ConnectivityState`. -/
structure ConnectivityState where
  durationForIncomingConnections : Option Nat
  ipv4 : FamilyState
  ipv6 : FamilyState
  deriving DecidableEq, Repr

namespace ConnectivityState

/-- `ConnectivityState::new`, at `now`. -/
def new (durationForIncomingConnections : Option Nat) (now : Nat) : ConnectivityState :=
  ⟨durationForIncomingConnections, ⟨none, now, 0⟩, ⟨none, now, 0⟩⟩

/-- The fields of a version. -/
def family (s : ConnectivityState) : TimerFailure → FamilyState
  | .v4 => s.ipv4
  | .v6 => s.ipv6

/-- The fields of a version, replaced. -/
def setFamily (s : ConnectivityState) : TimerFailure → FamilyState → ConnectivityState
  | .v4, f => { s with ipv4 := f }
  | .v6, f => { s with ipv6 := f }

/-- `ConnectivityState::should_count_ip_vote`. -/
def shouldCountIpVote (s : ConnectivityState) (socket : SocketAddr) (now : Nat) : Bool :=
  match s.durationForIncomingConnections with
  | none => true
  | some _ => decide ((s.family (ipVersion socket)).nextConnectivityTest ≤ now)

/-- `ConnectivityState::enr_socket_update`: the count restarts and the wait
for incoming connections starts. -/
def enrSocketUpdate (s : ConnectivityState) (socket : SocketAddr) (now : Nat) : ConnectivityState :=
  match s.durationForIncomingConnections with
  | none => s
  | some durationToWait =>
    let v := ipVersion socket
    s.setFamily v { s.family v with incomingCount := 0, incomingWaitTime := some (now + durationToWait) }

/-- `ConnectivityState::received_incoming_connection`: counted only while
waiting; the second one ends the wait. -/
def receivedIncomingConnection (s : ConnectivityState) (socket : SocketAddr) : ConnectivityState :=
  let v := ipVersion socket
  let f := s.family v
  if f.incomingWaitTime.isNone then s
  else
    let incomingCount := f.incomingCount + 1
    if incomingCount ≥ numberOfIncomingConnectionsRequiredToBeValid then
      s.setFamily v { f with incomingCount, incomingWaitTime := none }
    else s.setFamily v { f with incomingCount }

/-- Whether a wait's deadline has passed. -/
def fired (deadline : Option Nat) (now : Nat) : Bool :=
  match deadline with
  | some deadline => decide (deadline ≤ now)
  | none => false

/-- A failed test of one version: its votes wait until
`DURATION_UNTIL_NEXT_CONNECTIVITY_ATTEMPT` after `now`. -/
def failTest (f : FamilyState) (now : Nat) : FamilyState :=
  { f with nextConnectivityTest := now + durationUntilNextConnectivityAttempt, incomingWaitTime := none }

/-- `ConnectivityState::poll` at `now`: pending (`none`) until a timer has
fired; `select` polls the IPv4 timer first. -/
def poll (s : ConnectivityState) (now : Nat) : Option (ConnectivityState × TimerFailure) :=
  if fired s.ipv4.incomingWaitTime now then some (s.setFamily .v4 (failTest s.ipv4 now), .v4)
  else if fired s.ipv6.incomingWaitTime now then some (s.setFamily .v6 (failTest s.ipv6 now), .v6)
  else none

/-! ### What each function does to the fields -/

theorem family_setFamily (s : ConnectivityState) (v w : TimerFailure) (f : FamilyState) :
    (s.setFamily v f).family w = if w = v then f else s.family w := by
  cases v <;> cases w <;> rfl

@[simp] theorem durationForIncomingConnections_setFamily (s : ConnectivityState) (v : TimerFailure)
    (f : FamilyState) : (s.setFamily v f).durationForIncomingConnections = s.durationForIncomingConnections := by
  cases v <;> rfl

@[simp] theorem durationForIncomingConnections_enrSocketUpdate (s : ConnectivityState) (socket : SocketAddr)
    (now : Nat) :
    (s.enrSocketUpdate socket now).durationForIncomingConnections = s.durationForIncomingConnections := by
  unfold enrSocketUpdate
  split <;> simp

@[simp] theorem nextConnectivityTest_enrSocketUpdate (s : ConnectivityState) (socket : SocketAddr) (now : Nat)
    (v : TimerFailure) :
    ((s.enrSocketUpdate socket now).family v).nextConnectivityTest = (s.family v).nextConnectivityTest := by
  unfold enrSocketUpdate
  split
  · rfl
  · rw [family_setFamily]
    split_ifs with h
    · rw [h]
    · rfl

@[simp] theorem durationForIncomingConnections_receivedIncomingConnection (s : ConnectivityState)
    (socket : SocketAddr) :
    (s.receivedIncomingConnection socket).durationForIncomingConnections = s.durationForIncomingConnections := by
  unfold receivedIncomingConnection
  dsimp only
  split_ifs <;> simp

@[simp] theorem nextConnectivityTest_receivedIncomingConnection (s : ConnectivityState) (socket : SocketAddr)
    (v : TimerFailure) :
    ((s.receivedIncomingConnection socket).family v).nextConnectivityTest = (s.family v).nextConnectivityTest := by
  unfold receivedIncomingConnection
  dsimp only
  split_ifs
  · rfl
  all_goals
    rw [family_setFamily]
    split_ifs with h
    · rw [h]
    · rfl

theorem isSome_of_fired {deadline : Option Nat} {now : Nat} (h : fired deadline now = true) :
    deadline.isSome := by
  cases deadline <;> simp_all [fired]

/-- `poll` returns the version of a timer that has fired, and fails that
version's test. -/
theorem poll_eq_some {s s' : ConnectivityState} {now : Nat} {v : TimerFailure} (h : s.poll now = some (s', v)) :
    fired (s.family v).incomingWaitTime now = true ∧ s' = s.setFamily v (failTest (s.family v) now) := by
  unfold poll at h
  split_ifs at h with h4 h6
  all_goals
    simp only [Option.some.injEq, Prod.mk.injEq] at h
    obtain ⟨rfl, rfl⟩ := h
    exact ⟨by assumption, rfl⟩

/-! ### A version awaiting its next test -/

/-- A vote that counts is not of a version awaiting its next test. -/
theorem ipVersion_ne_of_shouldCountIpVote {s : ConnectivityState} {socket : SocketAddr} {now : Nat}
    {v : TimerFailure} (hd : s.durationForIncomingConnections.isSome)
    (hnow : now < (s.family v).nextConnectivityTest) (hc : s.shouldCountIpVote socket now = true) :
    ipVersion socket ≠ v := by
  rintro rfl
  unfold shouldCountIpVote at hc
  split at hc
  · simp_all
  · simp only [decide_eq_true_eq] at hc
    omega

theorem family_enrSocketUpdate_of_ne (s : ConnectivityState) {socket : SocketAddr} {v : TimerFailure}
    (hv : ipVersion socket ≠ v) (now : Nat) : (s.enrSocketUpdate socket now).family v = s.family v := by
  unfold enrSocketUpdate
  split
  · rfl
  · rw [family_setFamily, if_neg (Ne.symm hv)]

/-- An incoming connection leaves a version that waits for none as it is. -/
theorem family_receivedIncomingConnection_of_none {s : ConnectivityState} {v : TimerFailure}
    (hv : (s.family v).incomingWaitTime = none) (socket : SocketAddr) :
    (s.receivedIncomingConnection socket).family v = s.family v := by
  unfold receivedIncomingConnection
  dsimp only
  by_cases hsv : ipVersion socket = v
  · subst hsv
    simp [hv]
  · split_ifs
    · rfl
    all_goals rw [family_setFamily, if_neg (Ne.symm hsv)]

/-- Only a running timer fires: a version that waits for nothing is left as
it is by `poll`. -/
theorem poll_family_of_none {s s' : ConnectivityState} {now : Nat} {v w : TimerFailure}
    (h : s.poll now = some (s', w)) (hv : (s.family v).incomingWaitTime = none) :
    w ≠ v ∧ s'.family v = s.family v := by
  obtain ⟨hfired, rfl⟩ := poll_eq_some h
  have hwv : w ≠ v := by
    rintro rfl
    simp [hv, fired] at hfired
  exact ⟨hwv, by rw [family_setFamily, if_neg (Ne.symm hwv)]⟩

/-! ### The invariant

It is stated for any reading `advertised` of which versions the ENR
advertises, so that `Advertisement.Inv` can pass its own. -/

/-- Each wait that runs is for an advertised socket and has counted fewer
connections than `NUMBER_OF_INCOMING_CONNECTIONS_REQUIRED_TO_BE_VALID`. -/
def Waiting (s : ConnectivityState) (advertised : TimerFailure → Bool) : Prop :=
  ∀ v, (s.family v).incomingWaitTime.isSome →
    s.durationForIncomingConnections.isSome ∧ advertised v = true ∧
      (s.family v).incomingCount < numberOfIncomingConnectionsRequiredToBeValid

variable {s : ConnectivityState} {advertised advertised' : TimerFailure → Bool}

theorem waiting_new (d : Option Nat) (now : Nat) (advertised : TimerFailure → Bool) :
    (new d now).Waiting advertised := by
  intro v hv
  cases v <;> simp [new, family] at hv

theorem Waiting.mono (h : s.Waiting advertised) (hmono : ∀ v, advertised v = true → advertised' v = true) :
    s.Waiting advertised' := fun v hv =>
  let ⟨hd, ha, hc⟩ := h v hv
  ⟨hd, hmono v ha, hc⟩

theorem Waiting.enrSocketUpdate {socket : SocketAddr} (h : s.Waiting advertised)
    (hadv : advertised (ipVersion socket) = true) (now : Nat) : (s.enrSocketUpdate socket now).Waiting advertised := by
  intro v hv
  rcases hd : s.durationForIncomingConnections with _ | d
  · simp only [ConnectivityState.enrSocketUpdate, hd] at hv
    exact absurd (h v hv).1 (by simp [hd])
  · simp only [ConnectivityState.enrSocketUpdate, hd, durationForIncomingConnections_setFamily,
      family_setFamily] at hv ⊢
    split_ifs at hv ⊢ with hvs
    · -- the restarted wait, for the socket just advertised
      subst hvs
      exact ⟨rfl, hadv, by simp [numberOfIncomingConnectionsRequiredToBeValid]⟩
    · exact ⟨rfl, (h v hv).2⟩

theorem Waiting.receivedIncomingConnection (h : s.Waiting advertised) (socket : SocketAddr) :
    (s.receivedIncomingConnection socket).Waiting advertised := by
  intro v hv
  unfold ConnectivityState.receivedIncomingConnection at hv ⊢
  dsimp only at hv ⊢
  split_ifs at hv ⊢ with hnone hcount
  · exact h v hv
  · -- enough connections: the wait of the socket's version is over
    simp only [durationForIncomingConnections_setFamily, family_setFamily] at hv ⊢
    split_ifs at hv ⊢ with hvs
    · simp at hv
    · exact h v hv
  · -- one more connection, still fewer than required
    simp only [durationForIncomingConnections_setFamily, family_setFamily] at hv ⊢
    split_ifs at hv ⊢ with hvs
    · subst hvs
      obtain ⟨hd, ha, -⟩ := h (ipVersion socket) (Option.isSome_iff_ne_none.2 (by simpa using hnone))
      exact ⟨hd, ha, by simpa using hcount⟩
    · exact h v hv

theorem Waiting.failTest {v : TimerFailure} (h : s.Waiting advertised)
    (hother : ∀ w, w ≠ v → advertised' w = advertised w) (now : Nat) :
    (s.setFamily v (failTest (s.family v) now)).Waiting advertised' := by
  intro w hw
  simp only [durationForIncomingConnections_setFamily, family_setFamily] at hw ⊢
  split_ifs at hw ⊢ with hwv
  · simp [ConnectivityState.failTest] at hw
  · rw [hother w hwv]
    exact h w hw

end ConnectivityState

/-- The updates of the local ENR the service makes: `Enr::set_udp_socket`,
`Enr::remove_udp_socket` and `Enr::remove_udp6_socket`, each signing the
record anew with the node's key. Each fails (`enr::Error`) when the record
would outgrow its size limit or the key cannot sign it. -/
structure EnrUpdate (Enr : Type) where
  setUdpSocket : Enr → SocketAddr → Except String Enr
  removeUdpSocket : Enr → Except String Enr
  removeUdp6Socket : Enr → Except String Enr

/-- The service's state that decides the advertised sockets: the IP mode,
the votes (`None` without `enr_update`), the connectivity state, and the
local ENR with its UDP sockets. `udp6_socket` reads a socket back with a
zero flow label and scope id, which the votes' sockets, built by
`SocketAddr::new` from a PONG's address and port, have: the record is taken
to hold a socket as it was set. -/
structure Advertisement (Enr : Type) where
  ipMode : IpMode
  ipVotes : Option IpVote
  connectivityState : ConnectivityState
  localEnr : Enr
  udp4Socket : Option SocketAddrV4
  udp6Socket : Option SocketAddrV6

namespace Advertisement

variable {Enr : Type}

/-- `Service::require_more_ip_votes`: in dual-stack mode, whether the votes
of the asking version are below the threshold. Counting them drops the
expired votes. -/
def requireMoreIpVotes (a : Advertisement Enr) (isIpv6 : Bool) (now : Nat) : Bool × Advertisement Enr :=
  if a.ipMode ≠ .dualStack then (false, a)
  else
    match a.ipVotes with
    | none => (false, a)
    | some ipVotes =>
      let r := ipVotes.hasMinimumThreshold now
      let a' := { a with ipVotes := some r.2 }
      match r.1, isIpv6 with
      | (false, true), false => (true, a')
      | (true, false), true => (true, a')
      | (false, false), _ => (true, a')
      | _, _ => (false, a')

/-- The IPv4 branch of `handle_ip_vote_from_pong`: record the vote and
advertise a new majority socket. -/
def voteIpv4 (upd : EnrUpdate Enr) (a : Advertisement Enr) (nodeId : NodeId) (socket : SocketAddr) (now : Nat) :
    Advertisement Enr :=
  let localIp4Socket := a.udp4Socket
  match a.ipVotes with
  | none => a
  | some ipVotes =>
    let m := (ipVotes.insert nodeId socket now).majority now
    let a := { a with ipVotes := some m.2 }
    match m.1.1 with
    | some newIp4 =>
      if some newIp4 ≠ localIp4Socket then
        match upd.setUdpSocket a.localEnr (.v4 newIp4) with
        | .ok localEnr =>
          { a with localEnr, udp4Socket := some newIp4
                   connectivityState := a.connectivityState.enrSocketUpdate (.v4 newIp4) now }
        | .error _ => a
      else a
    | none => a

/-- The IPv6 branch of `handle_ip_vote_from_pong`. -/
def voteIpv6 (upd : EnrUpdate Enr) (a : Advertisement Enr) (nodeId : NodeId) (socket : SocketAddr) (now : Nat) :
    Advertisement Enr :=
  let localIp6Socket := a.udp6Socket
  match a.ipVotes with
  | none => a
  | some ipVotes =>
    let m := (ipVotes.insert nodeId socket now).majority now
    let a := { a with ipVotes := some m.2 }
    match m.1.2 with
    | some newIp6 =>
      if some newIp6 ≠ localIp6Socket then
        match upd.setUdpSocket a.localEnr (.v6 newIp6) with
        | .ok localEnr =>
          { a with localEnr, udp6Socket := some newIp6
                   connectivityState := a.connectivityState.enrSocketUpdate (.v6 newIp6) now }
        | .error _ => a
      else a
    | none => a

/-- `Service::handle_ip_vote_from_pong`; `isConnectedAndOutgoing` is what
the routing table says of the voter. The source joins the two tests with a
non-short-circuit `|`, so the votes are always counted, and their expired
ones dropped, before the vote is judged. -/
def handleIpVoteFromPong (upd : EnrUpdate Enr) (a : Advertisement Enr) (nodeId : NodeId) (socket : SocketAddr)
    (isConnectedAndOutgoing : Bool) (now : Nat) : Advertisement Enr :=
  if !a.connectivityState.shouldCountIpVote socket now then a
  else
    let r := a.requireMoreIpVotes socket.isIpv6 now
    if !(isConnectedAndOutgoing || r.1) then r.2
    else
      match socket with
      | .v4 _ => r.2.voteIpv4 upd nodeId socket now
      | .v6 _ => r.2.voteIpv6 upd nodeId socket now

/-- The service's branch on `ConnectivityState::poll`: the ENR stops
advertising a socket of the version whose test failed, unless the update
fails. The flag is the source's `updated_enr`. -/
def connectivityTimeout (upd : EnrUpdate Enr) (a : Advertisement Enr) (now : Nat) :
    Option (Advertisement Enr × TimerFailure × Bool) :=
  (a.connectivityState.poll now).map fun r =>
    let a := { a with connectivityState := r.1 }
    match r.2 with
    | .v4 =>
      match upd.removeUdpSocket a.localEnr with
      | .ok localEnr => ({ a with localEnr, udp4Socket := none }, .v4, true)
      | .error _ => (a, .v4, false)
    | .v6 =>
      match upd.removeUdp6Socket a.localEnr with
      | .ok localEnr => ({ a with localEnr, udp6Socket := none }, .v6, true)
      | .error _ => (a, .v6, false)

/-- `inject_session_established` for an incoming session. -/
def incomingSession (a : Advertisement Enr) (socket : SocketAddr) : Advertisement Enr :=
  { a with connectivityState := a.connectivityState.receivedIncomingConnection socket }

/-- What happens to the advertisement. -/
inductive Event where
  | pong (nodeId : NodeId) (socket : SocketAddr) (isConnectedAndOutgoing : Bool)
  | incomingSession (socket : SocketAddr)
  | connectivityTimeout

/-- One event at `now`; `none` while a timeout is not due. -/
def step (upd : EnrUpdate Enr) (a : Advertisement Enr) (now : Nat) : Event → Option (Advertisement Enr)
  | .pong nodeId socket isConnectedAndOutgoing =>
    some (a.handleIpVoteFromPong upd nodeId socket isConnectedAndOutgoing now)
  | .incomingSession socket => some (a.incomingSession socket)
  | .connectivityTimeout => (a.connectivityTimeout upd now).map Prod.fst

/-- The states a run of events at non-decreasing instants reaches from `a₀`
at `t₀`, with the instant of the last event. -/
inductive Reachable (upd : EnrUpdate Enr) (a₀ : Advertisement Enr) (t₀ : Nat) : Advertisement Enr → Nat → Prop
  | init : Reachable upd a₀ t₀ a₀ t₀
  | step {a a' : Advertisement Enr} {t t' : Nat} (hr : Reachable upd a₀ t₀ a t) (hle : t ≤ t') (e : Event)
      (hs : a.step upd t' e = some a') : Reachable upd a₀ t₀ a' t'

/-- The socket of a version the local ENR advertises. -/
def advertised (a : Advertisement Enr) : TimerFailure → Option SocketAddr
  | .v4 => a.udp4Socket.map .v4
  | .v6 => a.udp6Socket.map .v6

/-- Whether the local ENR advertises a socket of a version. -/
def advertises (a : Advertisement Enr) (v : TimerFailure) : Bool := (a.advertised v).isSome

/-! ## Counting a PONG's vote -/

/-- `require_more_ip_votes` changes only the votes: in dual-stack mode it
drops the expired ones. -/
theorem requireMoreIpVotes_snd (a : Advertisement Enr) (isIpv6 : Bool) (now : Nat) :
    (a.requireMoreIpVotes isIpv6 now).2 =
      { a with ipVotes := if a.ipMode = .dualStack then a.ipVotes.map fun v => (v.hasMinimumThreshold now).2
                          else a.ipVotes } := by
  obtain ⟨ipMode, ipVotes, connectivityState, localEnr, udp4Socket, udp6Socket⟩ := a
  unfold requireMoreIpVotes
  dsimp only
  by_cases hmode : ipMode = .dualStack
  · rw [if_neg (not_not.2 hmode), if_pos hmode]
    cases ipVotes with
    | none => rfl
    | some v =>
      dsimp only
      split <;> rfl
  · rw [if_pos hmode, if_neg hmode]

@[simp] theorem connectivityState_requireMoreIpVotes (a : Advertisement Enr) (isIpv6 : Bool) (now : Nat) :
    (a.requireMoreIpVotes isIpv6 now).2.connectivityState = a.connectivityState := by
  rw [requireMoreIpVotes_snd]

@[simp] theorem advertises_requireMoreIpVotes (a : Advertisement Enr) (isIpv6 : Bool) (now : Nat) :
    (a.requireMoreIpVotes isIpv6 now).2.advertises = a.advertises := by
  rw [requireMoreIpVotes_snd]
  rfl

/-- What a PONG's vote does to the advertisement: it leaves the record, its
sockets and the connectivity state as they are, or, for a vote that is
`counted`, advertises for the vote's version a new socket with the most live
votes once the vote is recorded, which the record's update accepted, and
restarts that version's wait. -/
inductive VoteOutcome (upd : EnrUpdate Enr) (counted : Prop) (nodeId : NodeId) (socket : SocketAddr) (now : Nat)
    (a a' : Advertisement Enr) : Prop
  | unchanged (he : a'.localEnr = a.localEnr) (h4 : a'.udp4Socket = a.udp4Socket)
      (h6 : a'.udp6Socket = a.udp6Socket) (hcs : a'.connectivityState = a.connectivityState)
  | newIp4 (iv : IpVote) (s : SocketAddrV4) (hcounted : counted) (hsocket : ipVersion socket = .v4)
      (hiv : a.ipVotes = some iv)
      (hmaj : IsMajority (iv.insert nodeId socket now).ipv4Votes iv.minimumThreshold now (some s))
      (hne : a.udp4Socket ≠ some s) (he : upd.setUdpSocket a.localEnr (.v4 s) = .ok a'.localEnr)
      (h4 : a'.udp4Socket = some s) (h6 : a'.udp6Socket = a.udp6Socket)
      (hcs : a'.connectivityState = a.connectivityState.enrSocketUpdate (.v4 s) now)
  | newIp6 (iv : IpVote) (s : SocketAddrV6) (hcounted : counted) (hsocket : ipVersion socket = .v6)
      (hiv : a.ipVotes = some iv)
      (hmaj : IsMajority (iv.insert nodeId socket now).ipv6Votes iv.minimumThreshold now (some s))
      (hne : a.udp6Socket ≠ some s) (he : upd.setUdpSocket a.localEnr (.v6 s) = .ok a'.localEnr)
      (h4 : a'.udp4Socket = a.udp4Socket) (h6 : a'.udp6Socket = some s)
      (hcs : a'.connectivityState = a.connectivityState.enrSocketUpdate (.v6 s) now)

/-- `majority` returns, for each version, a majority of the votes. -/
theorem majority_isMajority (v : IpVote) (now : Nat) :
    IsMajority v.ipv4Votes v.minimumThreshold now (v.majority now).1.1 ∧
      IsMajority v.ipv6Votes v.minimumThreshold now (v.majority now).1.2 := by
  have hthreshold : 0 < v.minimumThreshold := Nat.lt_of_lt_of_le (by decide) v.two_le_minimumThreshold
  exact ⟨(filterStaleFindMostFrequent_spec v.ipv4Votes v.nodup_ipv4Votes hthreshold).2,
    (filterStaleFindMostFrequent_spec v.ipv6Votes v.nodup_ipv6Votes hthreshold).2⟩

theorem voteIpv4_outcome {counted : Prop} (hc : counted) (upd : EnrUpdate Enr) (a : Advertisement Enr)
    (nodeId : NodeId) (x : SocketAddrV4) (now : Nat) :
    VoteOutcome upd counted nodeId (.v4 x) now a (a.voteIpv4 upd nodeId (.v4 x) now) := by
  unfold voteIpv4
  cases hiv : a.ipVotes with
  | none => exact .unchanged rfl rfl rfl rfl
  | some iv =>
    have hmaj := (majority_isMajority (iv.insert nodeId (.v4 x) now) now).1
    dsimp only
    split
    · rename_i s hs
      rw [hs] at hmaj
      split_ifs with hne
      · split
        · -- the record took the new socket
          rename_i localEnr he
          exact .newIp4 iv s hc rfl hiv hmaj (Ne.symm hne) he rfl rfl rfl
        · exact .unchanged rfl rfl rfl rfl
      · exact .unchanged rfl rfl rfl rfl
    · exact .unchanged rfl rfl rfl rfl

theorem voteIpv6_outcome {counted : Prop} (hc : counted) (upd : EnrUpdate Enr) (a : Advertisement Enr)
    (nodeId : NodeId) (x : SocketAddrV6) (now : Nat) :
    VoteOutcome upd counted nodeId (.v6 x) now a (a.voteIpv6 upd nodeId (.v6 x) now) := by
  unfold voteIpv6
  cases hiv : a.ipVotes with
  | none => exact .unchanged rfl rfl rfl rfl
  | some iv =>
    have hmaj := (majority_isMajority (iv.insert nodeId (.v6 x) now) now).2
    dsimp only
    split
    · rename_i s hs
      rw [hs] at hmaj
      split_ifs with hne
      · split
        · rename_i localEnr he
          exact .newIp6 iv s hc rfl hiv hmaj (Ne.symm hne) he rfl rfl rfl
        · exact .unchanged rfl rfl rfl rfl
      · exact .unchanged rfl rfl rfl rfl
    · exact .unchanged rfl rfl rfl rfl

end Advertisement

theorem liveCount_filter_live {K : Type} [DecidableEq K] (l : List (NodeId × K × Nat)) (now : Nat) (k : K) :
    liveCount (l.filter fun e => e.2.2 > now) now k = liveCount l now k := by
  unfold liveCount
  rw [List.countP_filter]
  refine List.countP_congr fun e _ => ?_
  simp only [Bool.and_eq_true, decide_eq_true_eq, gt_iff_lt]
  tauto

/-- Votes recorded after the expired ones were dropped count as many live
votes as when they were not. -/
theorem liveCount_insert_filter_live {K : Type} [DecidableEq K] (l : List (NodeId × K × Nat)) (now : Nat)
    (key : NodeId) (x : K × Nat) (k : K) :
    liveCount (ListMap.insert (l.filter fun e => e.2.2 > now) key x) now k =
      liveCount (ListMap.insert l key x) now k := by
  unfold liveCount
  rw [ListMap.countP_insert, ListMap.countP_insert]
  congr 1
  unfold ListMap.erase
  rw [List.countP_filter, List.countP_filter, List.countP_filter]
  refine List.countP_congr fun e _ => ?_
  simp only [Bool.and_eq_true, decide_eq_true_eq, gt_iff_lt]
  tauto

theorem isMajority_congr {K : Type} [DecidableEq K] {l l' : List (NodeId × K × Nat)} {now : Nat}
    (h : ∀ k, liveCount l now k = liveCount l' now k) (minimumThreshold : Nat) (result : Option K) :
    IsMajority l minimumThreshold now result ↔ IsMajority l' minimumThreshold now result := by
  simp only [IsMajority, h]

/-- Dropping the expired votes before a vote is recorded changes no live
count. -/
theorem IpVote.liveCount_insert_hasMinimumThreshold (iv : IpVote) (nodeId : NodeId) (socket : SocketAddr)
    (now : Nat) :
    (∀ k, liveCount ((iv.hasMinimumThreshold now).2.insert nodeId socket now).ipv4Votes now k =
      liveCount (iv.insert nodeId socket now).ipv4Votes now k) ∧
    (∀ k, liveCount ((iv.hasMinimumThreshold now).2.insert nodeId socket now).ipv6Votes now k =
      liveCount (iv.insert nodeId socket now).ipv6Votes now k) := by
  cases socket with
  | v4 x => exact ⟨liveCount_insert_filter_live _ now _ _, liveCount_filter_live _ now⟩
  | v6 x => exact ⟨liveCount_filter_live _ now, liveCount_insert_filter_live _ now _ _⟩


namespace Advertisement

variable {Enr : Type} {upd : EnrUpdate Enr}

/-- The vote judged after `require_more_ip_votes` is judged on the node's
own votes. -/
theorem VoteOutcome.of_requireMoreIpVotes {counted : Prop} {nodeId : NodeId} {socket : SocketAddr} {now : Nat}
    {a a' : Advertisement Enr} {isIpv6 : Bool}
    (h : VoteOutcome upd counted nodeId socket now (a.requireMoreIpVotes isIpv6 now).2 a') :
    VoteOutcome upd counted nodeId socket now a a' := by
  rw [requireMoreIpVotes_snd] at h
  cases h with
  | unchanged he h4 h6 hcs => exact .unchanged he h4 h6 hcs
  | newIp4 iv s hc hsocket hiv hmaj hne he h4 h6 hcs =>
    dsimp only at hiv
    split_ifs at hiv
    · -- dual-stack mode: the votes were the node's less the expired ones
      obtain ⟨iv₀, hiv₀, rfl⟩ := Option.map_eq_some_iff.1 hiv
      have hlive := (IpVote.liveCount_insert_hasMinimumThreshold iv₀ nodeId socket now).1
      exact .newIp4 iv₀ s hc hsocket hiv₀ ((isMajority_congr hlive _ _).1 hmaj) hne he h4 h6 hcs
    · exact .newIp4 iv s hc hsocket hiv hmaj hne he h4 h6 hcs
  | newIp6 iv s hc hsocket hiv hmaj hne he h4 h6 hcs =>
    dsimp only at hiv
    split_ifs at hiv
    · obtain ⟨iv₀, hiv₀, rfl⟩ := Option.map_eq_some_iff.1 hiv
      have hlive := (IpVote.liveCount_insert_hasMinimumThreshold iv₀ nodeId socket now).2
      exact .newIp6 iv₀ s hc hsocket hiv₀ ((isMajority_congr hlive _ _).1 hmaj) hne he h4 h6 hcs
    · exact .newIp6 iv s hc hsocket hiv hmaj hne he h4 h6 hcs

/-- What `handle_ip_vote_from_pong` does: a vote counts outside the quiet
period of its version, and when its voter is a connected outgoing peer or
more votes of its version are needed. -/
theorem handleIpVoteFromPong_outcome (upd : EnrUpdate Enr) (a : Advertisement Enr) (nodeId : NodeId)
    (socket : SocketAddr) (isConnectedAndOutgoing : Bool) (now : Nat) :
    VoteOutcome upd
      (a.connectivityState.shouldCountIpVote socket now = true ∧
        (isConnectedAndOutgoing || (a.requireMoreIpVotes socket.isIpv6 now).1) = true)
      nodeId socket now a (a.handleIpVoteFromPong upd nodeId socket isConnectedAndOutgoing now) := by
  unfold handleIpVoteFromPong
  dsimp only
  split_ifs with hcount hcounted
  · exact .unchanged rfl rfl rfl rfl
  · rw [requireMoreIpVotes_snd]
    exact .unchanged rfl rfl rfl rfl
  · have hnot : ∀ b : Bool, ¬(!b) = true → b = true := by decide
    have hc : a.connectivityState.shouldCountIpVote socket now = true ∧
        (isConnectedAndOutgoing || (a.requireMoreIpVotes socket.isIpv6 now).1) = true :=
      ⟨hnot _ hcount, hnot _ hcounted⟩
    cases socket with
    | v4 x => exact (voteIpv4_outcome hc upd _ nodeId x now).of_requireMoreIpVotes
    | v6 x => exact (voteIpv6_outcome hc upd _ nodeId x now).of_requireMoreIpVotes

/-- A vote leaves each version's next test where it was. -/
theorem VoteOutcome.nextConnectivityTest {counted : Prop} {nodeId : NodeId} {socket : SocketAddr} {now : Nat}
    {a a' : Advertisement Enr} (h : VoteOutcome upd counted nodeId socket now a a') (v : TimerFailure) :
    (a'.connectivityState.family v).nextConnectivityTest = (a.connectivityState.family v).nextConnectivityTest ∧
      a'.connectivityState.durationForIncomingConnections = a.connectivityState.durationForIncomingConnections := by
  cases h with
  | unchanged _ _ _ hcs => rw [hcs]; exact ⟨rfl, rfl⟩
  | newIp4 _ _ _ _ _ _ _ _ _ _ hcs => simp [hcs]
  | newIp6 _ _ _ _ _ _ _ _ _ _ hcs => simp [hcs]

/-! ## The advertisement over a run -/

/-- A connectivity timeout fails the test of the version whose timer fired,
and withdraws that version's socket when the record's update succeeds. -/
theorem connectivityTimeout_eq_some {a a' : Advertisement Enr} {now : Nat} {v : TimerFailure} {updatedEnr : Bool}
    (h : a.connectivityTimeout upd now = some (a', v, updatedEnr)) :
    a.connectivityState.poll now = some (a'.connectivityState, v) ∧
      a'.advertised v = (if updatedEnr then none else a.advertised v) ∧
      ∀ w, w ≠ v → a'.advertised w = a.advertised w := by
  unfold connectivityTimeout at h
  obtain ⟨⟨s', v'⟩, hp, he⟩ := Option.map_eq_some_iff.1 h
  cases v' <;> dsimp only at he <;> split at he <;>
  · simp only [Prod.mk.injEq] at he
    obtain ⟨rfl, rfl, rfl⟩ := he
    refine ⟨hp, by simp [advertised], fun w hw => ?_⟩
    cases w <;> first | rfl | exact absurd rfl hw

/-- What holds of the advertisement over every run: each wait that runs is
for an advertised socket and has counted fewer connections than required. -/
def Inv (a : Advertisement Enr) : Prop := a.connectivityState.Waiting a.advertises

variable {a a' : Advertisement Enr} {t now : Nat}

theorem Inv.init {d : Option Nat} (h₀ : a.connectivityState = .new d t) : Inv a := by
  unfold Inv
  rw [h₀]
  exact ConnectivityState.waiting_new d t _

theorem Inv.congr (h : Inv a) (hcs : a'.connectivityState = a.connectivityState)
    (hadv : a'.advertises = a.advertises) : Inv a' := by
  unfold Inv
  rw [hcs, hadv]
  exact h

/-- Advertising a new socket of a version, and restarting that version's
wait, keeps the invariant. -/
theorem Inv.readvertise {socket : SocketAddr} (h : Inv a)
    (hcs : a'.connectivityState = a.connectivityState.enrSocketUpdate socket now)
    (hadv : a'.advertises (ipVersion socket) = true)
    (hother : ∀ w, w ≠ ipVersion socket → a'.advertises w = a.advertises w) : Inv a' := by
  have hmono : ∀ w, a.advertises w = true → a'.advertises w = true := fun w hw => by
    by_cases hws : w = ipVersion socket
    · rw [hws]
      exact hadv
    · rw [hother w hws]
      exact hw
  unfold Inv
  rw [hcs]
  exact (ConnectivityState.Waiting.mono h hmono).enrSocketUpdate hadv now

theorem Inv.vote {counted : Prop} {nodeId : NodeId} {socket : SocketAddr} (h : Inv a)
    (ho : VoteOutcome upd counted nodeId socket now a a') : Inv a' := by
  cases ho with
  | unchanged _ h4 h6 hcs =>
    refine h.congr hcs (funext fun v => ?_)
    cases v <;> simp [advertises, advertised, h4, h6]
  | newIp4 _ s _ _ _ _ _ _ h4 h6 hcs =>
    refine h.readvertise hcs (by simp [advertises, advertised, ipVersion, h4]) fun w hw => ?_
    cases w
    · exact absurd rfl hw
    · simp [advertises, advertised, h6]
  | newIp6 _ s _ _ _ _ _ _ h4 h6 hcs =>
    refine h.readvertise hcs (by simp [advertises, advertised, ipVersion, h6]) fun w hw => ?_
    cases w
    · simp [advertises, advertised, h4]
    · exact absurd rfl hw

theorem Inv.connectivityTimeout {v : TimerFailure} {updatedEnr : Bool} (h : Inv a)
    (ht : a.connectivityTimeout upd now = some (a', v, updatedEnr)) : Inv a' := by
  obtain ⟨hp, -, hother⟩ := connectivityTimeout_eq_some ht
  obtain ⟨-, hcs⟩ := ConnectivityState.poll_eq_some hp
  have hadv : ∀ w, w ≠ v → a'.advertises w = a.advertises w := fun w hw => by
    simp [advertises, hother w hw]
  unfold Inv
  rw [hcs]
  exact ConnectivityState.Waiting.failTest h hadv now

/-- The timer that fires belongs to a wait the invariant describes. -/
theorem Inv.waiting_of_connectivityTimeout {v : TimerFailure} {updatedEnr : Bool} (h : Inv a)
    (ht : a.connectivityTimeout upd now = some (a', v, updatedEnr)) :
    a.connectivityState.durationForIncomingConnections.isSome ∧ a.advertises v = true ∧
      (a.connectivityState.family v).incomingCount < numberOfIncomingConnectionsRequiredToBeValid := by
  obtain ⟨hfired, -⟩ := ConnectivityState.poll_eq_some (connectivityTimeout_eq_some ht).1
  exact h v (ConnectivityState.isSome_of_fired hfired)

theorem Inv.step {e : Event} (h : Inv a) (hs : a.step upd now e = some a') : Inv a' := by
  cases e with
  | pong nodeId socket isConnectedAndOutgoing =>
    obtain rfl := Option.some.inj hs
    exact h.vote (handleIpVoteFromPong_outcome upd a nodeId socket isConnectedAndOutgoing now)
  | incomingSession socket =>
    obtain rfl := Option.some.inj hs
    exact ConnectivityState.Waiting.receivedIncomingConnection h socket
  | connectivityTimeout =>
    obtain ⟨⟨a'', v, updatedEnr⟩, ht, rfl⟩ := Option.map_eq_some_iff.1 hs
    exact h.connectivityTimeout ht

/-- Every run from a fresh connectivity state keeps the invariant. -/
theorem Inv.reachable {a₀ : Advertisement Enr} {d : Option Nat} {t₀ : Nat}
    (h₀ : a₀.connectivityState = .new d t₀) (hr : Reachable upd a₀ t₀ a t) : Inv a := by
  induction hr with
  | init => exact Inv.init h₀
  | step _ _ _ hs ih => exact ih.step hs

theorem Reachable.le {a₀ : Advertisement Enr} {t₀ : Nat} (hr : Reachable upd a₀ t₀ a t) : t₀ ≤ t := by
  induction hr with
  | init => exact le_rfl
  | step _ hle _ _ ih => omega

/-- A step keeps the configured duration, and each version's next test
unless that version's test fails at this step. -/
theorem connectivityState_step {e : Event} (hs : a.step upd now e = some a') (v : TimerFailure) :
    a'.connectivityState.durationForIncomingConnections = a.connectivityState.durationForIncomingConnections ∧
      ((a'.connectivityState.family v).nextConnectivityTest = (a.connectivityState.family v).nextConnectivityTest ∨
        (a'.connectivityState.family v).nextConnectivityTest = now + durationUntilNextConnectivityAttempt) := by
  cases e with
  | pong nodeId socket isConnectedAndOutgoing =>
    obtain rfl := Option.some.inj hs
    obtain ⟨hn, hd⟩ :=
      (handleIpVoteFromPong_outcome upd a nodeId socket isConnectedAndOutgoing now).nextConnectivityTest v
    exact ⟨hd, .inl hn⟩
  | incomingSession socket =>
    obtain rfl := Option.some.inj hs
    exact ⟨by simp [incomingSession], .inl (by simp [incomingSession])⟩
  | connectivityTimeout =>
    obtain ⟨⟨a'', w, updatedEnr⟩, ht, rfl⟩ := Option.map_eq_some_iff.1 hs
    obtain ⟨-, hcs⟩ := ConnectivityState.poll_eq_some (connectivityTimeout_eq_some ht).1
    dsimp only
    rw [hcs, ConnectivityState.family_setFamily]
    refine ⟨by simp, ?_⟩
    split_ifs
    · exact .inr rfl
    · exact .inl rfl

/-- Along a run the duration stays, and no version's next test falls below
where it was or six hours past the run's start. -/
theorem connectivityState_reachable {b : Advertisement Enr} {tb : Nat} (hr : Reachable upd b tb a t)
    (v : TimerFailure) :
    a.connectivityState.durationForIncomingConnections = b.connectivityState.durationForIncomingConnections ∧
      min (b.connectivityState.family v).nextConnectivityTest (tb + durationUntilNextConnectivityAttempt) ≤
        (a.connectivityState.family v).nextConnectivityTest := by
  induction hr with
  | init => exact ⟨rfl, min_le_left _ _⟩
  | step hr hle _ hs ih =>
    have htb := hr.le
    obtain ⟨hd, hn⟩ := connectivityState_step hs v
    refine ⟨hd.trans ih.1, ?_⟩
    rcases hn with hn | hn <;> rw [hn] <;> omega

/-- A version awaiting its next test, with no wait running, is left as it is
by every step before that test: its votes are not counted, its incoming
connections are not counted, and no timer of it fires. -/
theorem step_of_quiet {e : Event} {v : TimerFailure} (hs : a.step upd now e = some a')
    (hd : a.connectivityState.durationForIncomingConnections.isSome)
    (hnow : now < (a.connectivityState.family v).nextConnectivityTest)
    (hwait : (a.connectivityState.family v).incomingWaitTime = none) :
    a'.connectivityState.family v = a.connectivityState.family v ∧ a'.advertised v = a.advertised v := by
  cases e with
  | pong nodeId socket isConnectedAndOutgoing =>
    obtain rfl := Option.some.inj hs
    cases handleIpVoteFromPong_outcome upd a nodeId socket isConnectedAndOutgoing now with
    | unchanged _ h4 h6 hcs =>
      rw [hcs]
      exact ⟨rfl, by cases v <;> simp [advertised, h4, h6]⟩
    | newIp4 _ _ hc hsocket _ _ _ _ _ h6 hcs =>
      -- a counted vote is of the other version
      have hv := ConnectivityState.ipVersion_ne_of_shouldCountIpVote hd hnow hc.1
      rw [hsocket] at hv
      cases v with
      | v4 => exact absurd rfl hv
      | v6 => exact ⟨by rw [hcs, ConnectivityState.family_enrSocketUpdate_of_ne _ (by simp [ipVersion])],
          by simp [advertised, h6]⟩
    | newIp6 _ _ hc hsocket _ _ _ _ h4 _ hcs =>
      have hv := ConnectivityState.ipVersion_ne_of_shouldCountIpVote hd hnow hc.1
      rw [hsocket] at hv
      cases v with
      | v4 => exact ⟨by rw [hcs, ConnectivityState.family_enrSocketUpdate_of_ne _ (by simp [ipVersion])],
          by simp [advertised, h4]⟩
      | v6 => exact absurd rfl hv
  | incomingSession socket =>
    obtain rfl := Option.some.inj hs
    exact ⟨ConnectivityState.family_receivedIncomingConnection_of_none hwait socket, by cases v <;> rfl⟩
  | connectivityTimeout =>
    obtain ⟨⟨a'', w, updatedEnr⟩, ht, rfl⟩ := Option.map_eq_some_iff.1 hs
    obtain ⟨hp, -, hother⟩ := connectivityTimeout_eq_some ht
    obtain ⟨hwv, hfam⟩ := ConnectivityState.poll_family_of_none hp hwait
    exact ⟨hfam, hother v (Ne.symm hwv)⟩

/-- Along a run that ends before a version's next test, a version with no
wait running keeps its fields and what it advertises. -/
theorem reachable_of_quiet {b : Advertisement Enr} {tb : Nat} {v : TimerFailure} (hr : Reachable upd b tb a t)
    (hd : b.connectivityState.durationForIncomingConnections.isSome)
    (hnow : t < (b.connectivityState.family v).nextConnectivityTest)
    (hwait : (b.connectivityState.family v).incomingWaitTime = none) :
    a.connectivityState.family v = b.connectivityState.family v ∧ a.advertised v = b.advertised v := by
  induction hr with
  | init => exact ⟨rfl, rfl⟩
  | step hr hle _ hs ih =>
    -- the state before the step is still quiet: the induction hypothesis holds up to it
    obtain ⟨hfam, hadv⟩ := ih (by omega)
    have hd' := (connectivityState_reachable hr v).1 ▸ hd
    obtain ⟨hfam', hadv'⟩ := step_of_quiet hs hd' (by rw [hfam]; exact hnow) (by rw [hfam]; exact hwait)
    exact ⟨hfam'.trans hfam, hadv'.trans hadv⟩

/-! ## What the advertisement guarantees -/

/-- In every reachable state, a connectivity timeout needs
`duration_for_incoming_connections`, fails the test of an advertised socket
whose wait counted fewer incoming connections than required, and withdraws
it unless the record's update fails. -/
theorem timeout_withdraws_failed_socket {a₀ : Advertisement Enr} {d : Option Nat} {t₀ : Nat} {v : TimerFailure}
    {updatedEnr : Bool} (h₀ : a₀.connectivityState = .new d t₀) (hr : Reachable upd a₀ t₀ a t)
    (ht : a.connectivityTimeout upd now = some (a', v, updatedEnr)) :
    d.isSome ∧ a.advertises v = true ∧ a'.advertised v = (if updatedEnr then none else a.advertised v) ∧
      (a.connectivityState.family v).incomingCount < numberOfIncomingConnectionsRequiredToBeValid := by
  obtain ⟨-, hadv', -⟩ := connectivityTimeout_eq_some ht
  obtain ⟨hd, hadv, hcount⟩ := (Inv.reachable h₀ hr).waiting_of_connectivityTimeout ht
  have hdur : a.connectivityState.durationForIncomingConnections = d := by
    rw [(connectivityState_reachable hr v).1, h₀]
    rfl
  exact ⟨hdur ▸ hd, hadv, hadv', hcount⟩

/-- For six hours after a connectivity timeout, its version advertises
what the timeout left, whatever arrives in between. -/
theorem advertised_after_failed_test {a₀ a₁ : Advertisement Enr} {d : Option Nat} {t₀ t₁ t' : Nat}
    {v : TimerFailure} {updatedEnr : Bool} (h₀ : a₀.connectivityState = .new d t₀) (hr : Reachable upd a₀ t₀ a t)
    (hfail : a.connectivityTimeout upd t₁ = some (a₁, v, updatedEnr)) (hr' : Reachable upd a₁ t₁ a' t')
    (hquiet : t' < t₁ + durationUntilNextConnectivityAttempt) : a'.advertised v = a₁.advertised v := by
  obtain ⟨-, hcs⟩ := ConnectivityState.poll_eq_some (connectivityTimeout_eq_some hfail).1
  -- the timer that fired ran, so a duration is configured
  have hd := ((Inv.reachable h₀ hr).waiting_of_connectivityTimeout hfail).1
  -- the failed test starts the quiet period and ends the wait
  have hfam : a₁.connectivityState.family v = ConnectivityState.failTest (a.connectivityState.family v) t₁ := by
    rw [hcs, ConnectivityState.family_setFamily, if_pos rfl]
  refine (reachable_of_quiet hr' ?_ ?_ ?_).2
  · rw [hcs, ConnectivityState.durationForIncomingConnections_setFamily]
    exact hd
  · rw [hfam]
    exact hquiet
  · rw [hfam]
    rfl

/-- After a connectivity test fails and the ENR drops the socket, nothing of
that version is advertised until `DURATION_UNTIL_NEXT_CONNECTIVITY_ATTEMPT`
has passed, whatever arrives in between. -/
theorem quiet_after_failed_test {a₀ a₁ : Advertisement Enr} {d : Option Nat} {t₀ t₁ t' : Nat} {v : TimerFailure}
    (h₀ : a₀.connectivityState = .new d t₀) (hr : Reachable upd a₀ t₀ a t)
    (hfail : a.connectivityTimeout upd t₁ = some (a₁, v, true)) (hr' : Reachable upd a₁ t₁ a' t')
    (hquiet : t' < t₁ + durationUntilNextConnectivityAttempt) : a'.advertises v = false := by
  have hnone : a₁.advertised v = none := by simpa using (connectivityTimeout_eq_some hfail).2.1
  simp [advertises, advertised_after_failed_test h₀ hr hfail hr' hquiet, hnone]

/-- When the ENR update of a connectivity timeout fails, the record keeps
the socket whose test failed for the whole quiet period: votes of its
version are not counted, so nothing replaces it. -/
theorem stale_socket_after_failed_removal {a₀ a₁ : Advertisement Enr} {d : Option Nat} {t₀ t₁ t' : Nat}
    {v : TimerFailure} (h₀ : a₀.connectivityState = .new d t₀) (hr : Reachable upd a₀ t₀ a t)
    (hfail : a.connectivityTimeout upd t₁ = some (a₁, v, false)) (hr' : Reachable upd a₁ t₁ a' t')
    (hquiet : t' < t₁ + durationUntilNextConnectivityAttempt) :
    a.advertises v = true ∧ a'.advertised v = a.advertised v := by
  obtain ⟨-, hkeep, -⟩ := connectivityTimeout_eq_some hfail
  refine ⟨((Inv.reachable h₀ hr).waiting_of_connectivityTimeout hfail).2.1, ?_⟩
  rw [advertised_after_failed_test h₀ hr hfail hr' hquiet]
  simpa using hkeep

/-- `s` has the most live votes, at least `minimum_threshold` of them, among
the node's votes once the vote `(nodeId, socket)` is recorded at `now`. -/
def Elected (a : Advertisement Enr) (nodeId : NodeId) (socket : SocketAddr) (now : Nat) : SocketAddr → Prop
  | .v4 s => ∃ iv, a.ipVotes = some iv ∧
      IsMajority (iv.insert nodeId socket now).ipv4Votes iv.minimumThreshold now (some s)
  | .v6 s => ∃ iv, a.ipVotes = some iv ∧
      IsMajority (iv.insert nodeId socket now).ipv6Votes iv.minimumThreshold now (some s)

/-- Whatever happens, the socket the ENR advertises for a version changes
only when a connectivity timeout withdraws it, or when a counted PONG's
vote elects a new one, whose wait for incoming connections then starts. -/
theorem advertised_changes_by_election {e : Event} {v : TimerFailure} (hs : a.step upd now e = some a')
    (hne : a'.advertised v ≠ a.advertised v) :
    (e = .connectivityTimeout ∧ a'.advertised v = none) ∨
      ∃ nodeId socket isConnectedAndOutgoing s, e = .pong nodeId socket isConnectedAndOutgoing ∧
        a.connectivityState.shouldCountIpVote socket now = true ∧ a'.advertised v = some s ∧
        a.Elected nodeId socket now s ∧ a'.connectivityState = a.connectivityState.enrSocketUpdate s now := by
  cases e with
  | pong nodeId socket isConnectedAndOutgoing =>
    obtain rfl := Option.some.inj hs
    right
    cases handleIpVoteFromPong_outcome upd a nodeId socket isConnectedAndOutgoing now with
    | unchanged _ h4 h6 _ => cases v <;> simp [advertised, h4, h6] at hne
    | newIp4 iv s hc _ hiv hmaj _ _ h4 h6 hcs =>
      cases v
      · exact ⟨nodeId, socket, isConnectedAndOutgoing, .v4 s, rfl, hc.1, by simp [advertised, h4], ⟨iv, hiv, hmaj⟩, hcs⟩
      · simp [advertised, h6] at hne
    | newIp6 iv s hc _ hiv hmaj _ _ h4 h6 hcs =>
      cases v
      · simp [advertised, h4] at hne
      · exact ⟨nodeId, socket, isConnectedAndOutgoing, .v6 s, rfl, hc.1, by simp [advertised, h6], ⟨iv, hiv, hmaj⟩, hcs⟩
  | incomingSession socket =>
    obtain rfl := Option.some.inj hs
    exact absurd rfl hne
  | connectivityTimeout =>
    obtain ⟨⟨a'', w, updatedEnr⟩, ht, rfl⟩ := Option.map_eq_some_iff.1 hs
    obtain ⟨-, hw, hother⟩ := connectivityTimeout_eq_some ht
    left
    by_cases hvw : v = w
    · -- the version whose test failed: a change is the withdrawal
      subst hvw
      cases updatedEnr
      · exact absurd hw hne
      · exact ⟨rfl, hw⟩
    · exact absurd (hother v hvw) hne

/-! ## A run -/

/-- An IPv4 socket. -/
def exampleSocket : SocketAddrV4 := ⟨Ipv4Addr.new 1 2 3 4, 9000⟩

/-- A record of which only the sequence number is kept, with updates that
always succeed, each signing it anew under the next sequence number. -/
def seqUpdate : EnrUpdate Nat := ⟨fun seq _ => .ok (seq + 1), fun seq => .ok (seq + 1), fun seq => .ok (seq + 1)⟩

/-- A node's start: one live vote for `exampleSocket`, no socket
advertised, and a wait of 300 s for incoming connections. -/
def freshStart : Advertisement Nat :=
  ⟨.ip4, some ⟨[(⟨Rust.Arr.replicate 32 1⟩, exampleSocket, 1000)], [], 2, 100, by decide, by simp, List.nodup_nil⟩,
    .new (some 300) 0, 1, none, none⟩

/-- A second vote for `exampleSocket`, at 1 s, elects it. -/
def elected : Advertisement Nat :=
  freshStart.handleIpVoteFromPong seqUpdate ⟨Rust.Arr.replicate 32 2⟩ (.v4 exampleSocket) true 1

-- a record that refuses every update keeps advertising nothing
example : (freshStart.handleIpVoteFromPong ⟨fun _ _ => .error "ExceedsMaxSize", .ok, .ok⟩
    ⟨Rust.Arr.replicate 32 2⟩ (.v4 exampleSocket) true 1).advertised .v4 = none := rfl

theorem elected_reachable : Reachable seqUpdate freshStart 0 elected 1 :=
  .step .init (by decide) (.pong ⟨Rust.Arr.replicate 32 2⟩ (.v4 exampleSocket) true) rfl

theorem advertised_changes_by_election_elected :
    freshStart.step seqUpdate 1 (.pong ⟨Rust.Arr.replicate 32 2⟩ (.v4 exampleSocket) true) = some elected ∧
      elected.advertised .v4 ≠ freshStart.advertised .v4 ∧
      ((Event.pong ⟨Rust.Arr.replicate 32 2⟩ (.v4 exampleSocket) true = .connectivityTimeout ∧
          elected.advertised .v4 = none) ∨
        ∃ nodeId socket isConnectedAndOutgoing s,
          Event.pong ⟨Rust.Arr.replicate 32 2⟩ (.v4 exampleSocket) true = .pong nodeId socket isConnectedAndOutgoing ∧
          freshStart.connectivityState.shouldCountIpVote socket 1 = true ∧ elected.advertised .v4 = some s ∧
          freshStart.Elected nodeId socket 1 s ∧
          elected.connectivityState = freshStart.connectivityState.enrSocketUpdate s 1) := by
  have hs : freshStart.step seqUpdate 1 (.pong ⟨Rust.Arr.replicate 32 2⟩ (.v4 exampleSocket) true) = some elected :=
    rfl
  have hne : elected.advertised .v4 ≠ freshStart.advertised .v4 := by decide
  exact ⟨hs, hne, advertised_changes_by_election hs hne⟩

/-- `elected` once its wait has run out unanswered, at 301 s. -/
def withdrawn : Advertisement Nat := ((elected.connectivityTimeout seqUpdate 301).map Prod.fst).getD elected

theorem elected_connectivityTimeout : elected.connectivityTimeout seqUpdate 301 = some (withdrawn, .v4, true) := rfl

theorem timeout_withdraws_failed_socket_withdrawn :
    freshStart.connectivityState = .new (some 300) 0 ∧ Reachable seqUpdate freshStart 0 elected 1 ∧
      elected.connectivityTimeout seqUpdate 301 = some (withdrawn, .v4, true) ∧
      ((some 300 : Option Nat).isSome ∧ elected.advertises .v4 = true ∧
        withdrawn.advertised .v4 = (if true then none else elected.advertised .v4) ∧
        (elected.connectivityState.family .v4).incomingCount < numberOfIncomingConnectionsRequiredToBeValid) :=
  ⟨rfl, elected_reachable, elected_connectivityTimeout,
    timeout_withdraws_failed_socket rfl elected_reachable elected_connectivityTimeout⟩

/-- A third vote for `exampleSocket`, at 400 s, within the quiet period. -/
def revoted : Advertisement Nat :=
  withdrawn.handleIpVoteFromPong seqUpdate ⟨Rust.Arr.replicate 32 3⟩ (.v4 exampleSocket) true 400

theorem quiet_after_failed_test_revoted :
    freshStart.connectivityState = .new (some 300) 0 ∧ Reachable seqUpdate freshStart 0 elected 1 ∧
      elected.connectivityTimeout seqUpdate 301 = some (withdrawn, .v4, true) ∧
      Reachable seqUpdate withdrawn 301 revoted 400 ∧ 400 < 301 + durationUntilNextConnectivityAttempt ∧
      revoted.advertises .v4 = false := by
  have hr' : Reachable seqUpdate withdrawn 301 revoted 400 :=
    .step .init (by decide) (.pong ⟨Rust.Arr.replicate 32 3⟩ (.v4 exampleSocket) true) rfl
  have hquiet : 400 < 301 + durationUntilNextConnectivityAttempt := by decide
  exact ⟨rfl, elected_reachable, elected_connectivityTimeout, hr', hquiet,
    quiet_after_failed_test rfl elected_reachable elected_connectivityTimeout hr' hquiet⟩

end Advertisement

end Service

end Discv5
