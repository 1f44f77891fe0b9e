import Newt.Lib.Streak

/-!
# The ping check

`startPingCheck` pings the server at every tick of a ticker.  It counts the failures
in a row; at the fourth the connection is lost, the recovery starts and the health file
goes away, and at the next success the file comes back.  From the fourth failure on the
interval grows, and after a success it shrinks again.

The check is a function of the ticks it has seen; one that is stopped has done the
ticks before.  `streak` is the number of failures just before a tick, and all the check
remembers of them.

* `recovery_at_fourth_failure` — when the recovery fires and when the health file is
  removed and written;
* `ticker_follows_interval_iff` — when the ticker has the interval that was computed.  A
  failure changes the interval only: the ticker is reset after a success.
-/

namespace Newt.PingCheck

/-- The steps of the back-off.  Durations are in nanoseconds. -/
structure Scaling where
  enlarge : Int → Int
  shrink : Int → Int
  lt_enlarge : ∀ d, 0 < d → d < enlarge d
  shrink_lt : ∀ d, 0 < d → shrink d < d

/-- A call of `startPingCheck`, with the configuration it reads. -/
structure Check where
  scaling : Scaling
  pingInterval : Int
  pingTimeout : Int
  healthFile : String
  publicKey : String
  tunnelID : String

/-- What the world does at a tick: the result of each attempt, its jitter, and the two
chain IDs in case they are needed. -/
structure Tick where
  ping : (attempt : Nat) → (timeout : Int) → Except String Int
  jitter : Nat → Int
  pingChainId : String
  bcChainId : String

/-- What a tick does to the outside. -/
inductive Action
  | incReconnect (tunnelID : String)
  | setPendingPingChainId (chainId : String)
  /-- `n.stopFunc` is assigned the function that stops it. -/
  | sendPingRequests (chainId : String) (interval : Int)
  | sendRegister (publicKey : String) (backwardsCompatible : Bool) (chainId : String)
  | removeHealthFile (path : String)
  | writeHealthFile (path : String) (content : String)
  | observeTunnelLatency (tunnelID : String) (latency : Int)
deriving DecidableEq, Repr

/-- The variables of the goroutine and the period of its ticker. -/
structure State where
  currentInterval : Int
  ticker : Int
  consecutiveFailures : Nat
  connectionLost : Bool
  recentLatencies : List Int
deriving DecidableEq, Repr

def second : Int := 1000000000

def millisecond : Int := 1000000

def maxInterval : Int := 6 * second

def failureThreshold : Nat := 4

def shouldFireRecovery (consecutiveFailures failureThreshold : Nat) (connectionLost : Bool) :
    Bool :=
  failureThreshold ≤ consecutiveFailures && !connectionLost

/-- The attempts of `reliablePing` from `attempt` on.  The first that succeeds is also
the average of those that have. -/
def attempts (t : Tick) (baseTimeout : Int) (maxAttempts : Nat) :
    (left attempt : Nat) → (lastErr : String) → Except String Int
  | 0, _, lastErr =>
    .error s!"all {maxAttempts} ping attempts failed, last error: {lastErr}"
  | left + 1, attempt, _ =>
    let timeout := baseTimeout + (attempt - 1) * 500 * millisecond + t.jitter attempt
    match t.ping attempt timeout with
    | .error err => attempts t baseTimeout maxAttempts left (attempt + 1) err
    | .ok latency => .ok latency

def reliablePing (t : Tick) (baseTimeout : Int) (maxAttempts : Nat) : Except String Int :=
  attempts t baseTimeout maxAttempts maxAttempts 1 "<nil>"

namespace State

/-- Three times the recent average, within bounds. -/
def adaptiveTimeout (s : State) (pingTimeout : Int) : Int :=
  if 0 < s.recentLatencies.length then
    let avgLatency := (s.recentLatencies.foldl (· + ·) 0).tdiv s.recentLatencies.length
    let timeout := avgLatency * 3
    let timeout := if timeout < pingTimeout then pingTimeout else timeout
    if timeout > 15 * second then 15 * second else timeout
  else pingTimeout

def maxAttempts (s : State) : Nat :=
  if 4 < s.consecutiveFailures then 4 else 2

/-- The last ten latencies are kept. -/
def appendLatency (s : State) (latency : Int) : State :=
  let recent := s.recentLatencies ++ [latency]
  { s with recentLatencies := if 10 < recent.length then recent.tail else recent }

end State

/-- A tick as it went. -/
structure Round where
  actions : List Action
  after : State

namespace Check

variable (c : Check)

/-- What the recovery does. -/
def recovery (t : Tick) : List Action :=
  (if c.tunnelID ≠ "" then [.incReconnect c.tunnelID] else []) ++
    [.setPendingPingChainId t.pingChainId, .sendPingRequests t.pingChainId (3 * second),
      .sendRegister c.publicKey true t.bcChainId] ++
    (if c.healthFile ≠ "" then [.removeHealthFile c.healthFile] else [])

/-- What is written when the connection is back. -/
def restoration : List Action :=
  if c.healthFile ≠ "" then [.writeHealthFile c.healthFile "ok"] else []

/-- The interval grows; the ticker is not reset. -/
def slowDown (s : State) : State :=
  if failureThreshold ≤ s.consecutiveFailures ∧ s.currentInterval < maxInterval then
    let interval := c.scaling.enlarge s.currentInterval
    { s with currentInterval := if interval > maxInterval then maxInterval else interval }
  else s

/-- The interval shrinks, and the ticker with it. -/
def speedUp (s : State) : State :=
  if s.currentInterval > c.pingInterval then
    let interval := c.scaling.shrink s.currentInterval
    let interval := if interval < c.pingInterval then c.pingInterval else interval
    { s with currentInterval := interval, ticker := interval }
  else s

/-- The branch of a ping that failed. -/
def onFailure (s : State) (t : Tick) (adaptiveTimeout : Int) : List Action × State :=
  let s := { s with consecutiveFailures := s.consecutiveFailures + 1 }
  let s := s.appendLatency adaptiveTimeout
  let fires := shouldFireRecovery s.consecutiveFailures failureThreshold s.connectionLost
  (if fires then c.recovery t else [],
    c.slowDown { s with connectionLost := if fires then true else s.connectionLost })

/-- The branch of a ping that succeeded. -/
def onSuccess (s : State) (latency : Int) : List Action × State :=
  let s := s.appendLatency latency
  ((if c.tunnelID ≠ "" then [.observeTunnelLatency c.tunnelID latency] else []) ++
      (if s.connectionLost then c.restoration else []),
    { c.speedUp { s with connectionLost := false } with consecutiveFailures := 0 })

/-- One iteration of the loop that takes a tick. -/
def tick (s : State) (t : Tick) : Round :=
  let timeout := s.adaptiveTimeout c.pingTimeout
  match reliablePing t timeout s.maxAttempts with
  | .error _ =>
    let (actions, s') := c.onFailure s t timeout
    { actions := actions, after := s' }
  | .ok latency =>
    let (actions, s') := c.onSuccess s latency
    { actions := actions, after := s' }

/-- The state before the first tick; `time.NewTicker` panics unless its argument is
positive. -/
def start : Option State :=
  if 0 < c.pingInterval then
    some { currentInterval := c.pingInterval, ticker := c.pingInterval, consecutiveFailures := 0,
           connectionLost := false, recentLatencies := [] }
  else none

/-- The state in which the check waits for tick `n`. -/
def waiting (t : Nat → Tick) : Nat → Option State
  | 0 => c.start
  | n + 1 => (waiting t n).map (fun s => (c.tick s (t n)).after)

/-- Tick `n` as it goes. -/
def round (t : Nat → Tick) (n : Nat) : Option Round :=
  (c.waiting t n).map (fun s => c.tick s (t n))

/-- No attempt of the ping succeeds. -/
def pingFails (s : State) (t : Tick) : Bool :=
  !(reliablePing t (s.adaptiveTimeout c.pingTimeout) s.maxAttempts).isOk

/-- Whether the ping of tick `n` fails. -/
def failed (t : Nat → Tick) (n : Nat) : Option Bool :=
  (c.waiting t n).map (fun s => c.pingFails s (t n))

/-- Tick `n` does something of this kind. -/
def Does (t : Nat → Tick) (n : Nat) (kind : Action → Bool) : Prop :=
  ∃ r, c.round t n = some r ∧ r.actions.any kind = true

/-- Tick `n` is the fourth of the failures from `a` on, and `a` is the first of them. -/
def FourthFailure (t : Nat → Tick) (n : Nat) : Prop :=
  ∃ a, n = a + 3 ∧ (∀ j, a ≤ j → j ≤ n → c.failed t j = some true) ∧
    ∀ b, a = b + 1 → c.failed t b = some false

/-- Tick `n` is a success that ends at least four failures in a row. -/
def EndsOutage (t : Nat → Tick) (n : Nat) : Prop :=
  c.failed t n = some false ∧
    ∃ a, a + 4 ≤ n ∧ ∀ j, a ≤ j → j < n → c.failed t j = some true

/-- The last four pings have failed when the check waits for tick `n`. -/
def LostAt (t : Nat → Tick) (n : Nat) : Prop :=
  4 ≤ n ∧ ∀ j, j < n → n ≤ j + 4 → c.failed t j = some true

end Check

def Action.isPingRequests : Action → Bool
  | .sendPingRequests _ _ => true
  | _ => false

def Action.isRegister : Action → Bool
  | .sendRegister _ _ _ => true
  | _ => false

def Action.removes : Action → Bool
  | .removeHealthFile _ => true
  | _ => false

def Action.writes : Action → Bool
  | .writeHealthFile _ _ => true
  | _ => false

namespace Check

variable {c : Check} {s : State} {t : Tick}

/-! ## What a tick does -/

@[simp]
theorem slowDown_consecutiveFailures :
    (c.slowDown s).consecutiveFailures = s.consecutiveFailures := by
  unfold slowDown
  split <;> rfl

@[simp]
theorem slowDown_connectionLost : (c.slowDown s).connectionLost = s.connectionLost := by
  unfold slowDown
  split <;> rfl

@[simp]
theorem speedUp_connectionLost : (c.speedUp s).connectionLost = s.connectionLost := by
  unfold speedUp
  split <;> rfl

/-- A tick takes one of the two branches. -/
theorem tick_cases (c : Check) (s : State) (t : Tick) :
    (∃ timeout, c.pingFails s t = true ∧ (c.tick s t).actions = (c.onFailure s t timeout).1 ∧
      (c.tick s t).after = (c.onFailure s t timeout).2) ∨
    ∃ latency, c.pingFails s t = false ∧ (c.tick s t).actions = (c.onSuccess s latency).1 ∧
      (c.tick s t).after = (c.onSuccess s latency).2 := by
  unfold tick pingFails
  dsimp only
  cases reliablePing t (s.adaptiveTimeout c.pingTimeout) s.maxAttempts with
  | error err => exact .inl ⟨_, rfl, rfl, rfl⟩
  | ok latency => exact .inr ⟨latency, rfl, rfl, rfl⟩

/-! ## What the check remembers -/

/-- The failures in a row just before tick `n`. -/
def streak (c : Check) (t : Nat → Tick) (n : Nat) : Nat :=
  Streak.streak (fun j => c.failed t j == some true) n

section Run

variable {t : Nat → Tick} {n : Nat}

theorem failed_of_waiting (h : c.waiting t n = some s) :
    c.failed t n = some (c.pingFails s (t n)) := by
  rw [failed, h]
  rfl

theorem waiting_succ_iff {s' : State} :
    c.waiting t (n + 1) = some s' ↔ ∃ s, c.waiting t n = some s ∧ (c.tick s (t n)).after = s' := by
  rw [waiting]
  exact Option.map_eq_some_iff

/-- **The induction over ticks.** -/
theorem waiting_invariant {I : Nat → State → Prop}
    (hstart : ∀ s, c.start = some s → I 0 s)
    (hstep : ∀ n s, c.waiting t n = some s → I n s → I (n + 1) (c.tick s (t n)).after)
    (h : c.waiting t n = some s) : I n s := by
  induction n generalizing s with
  | zero => exact hstart s h
  | succ n ih =>
    obtain ⟨r, hr, rfl⟩ := waiting_succ_iff.mp h
    exact hstep n r hr (ih hr)

/-- A check that has started is never stuck. -/
theorem exists_waiting (h : c.waiting t n = some s) (j : Nat) :
    ∃ r, c.waiting t j = some r := by
  have hstart : ∃ r, c.start = some r := by
    induction n generalizing s with
    | zero => exact ⟨s, h⟩
    | succ n ih =>
      obtain ⟨r, hr, -⟩ := waiting_succ_iff.mp h
      exact ih hr
  induction j with
  | zero => exact hstart
  | succ j ih =>
    obtain ⟨r, hr⟩ := ih
    exact ⟨_, waiting_succ_iff.mpr ⟨r, hr, rfl⟩⟩

theorem streak_succ_of_failed (h : c.failed t n = some true) :
    c.streak t (n + 1) = c.streak t n + 1 :=
  Streak.streak_succ_of_true (by rw [h]; rfl)

theorem streak_succ_of_succeeded (h : c.failed t n = some false) : c.streak t (n + 1) = 0 :=
  Streak.streak_succ_of_false (by rw [h]; rfl)

variable (h : c.waiting t n = some s)

include h

/-- The counter is the streak, and the flag says whether it has reached the threshold. -/
theorem counters_eq :
    s.consecutiveFailures = c.streak t n ∧
      s.connectionLost = decide (failureThreshold ≤ c.streak t n) := by
  refine waiting_invariant (I := fun n s => s.consecutiveFailures = c.streak t n ∧
    s.connectionLost = decide (failureThreshold ≤ c.streak t n)) ?_ ?_ h
  · intro s hs
    unfold start at hs
    split at hs <;> cases hs
    exact ⟨rfl, rfl⟩
  · rintro n s hs ⟨hcount, hlost⟩
    have hfailed := failed_of_waiting hs
    rcases tick_cases c s (t n) with ⟨timeout, hf, -, hafter⟩ | ⟨latency, hf, -, hafter⟩
    · rw [hf] at hfailed
      rw [hafter, streak_succ_of_failed hfailed, ← hcount]
      refine ⟨by simp [onFailure, State.appendLatency], ?_⟩
      rw [← hcount] at hlost
      simp only [onFailure, State.appendLatency, slowDown_connectionLost, shouldFireRecovery, hlost,
        failureThreshold]
      rcases Nat.lt_or_ge s.consecutiveFailures 4 with hlt | hge
      · simp [Nat.not_le.mpr hlt]
      · simp [hge, Nat.le_succ_of_le hge]
    · rw [hf] at hfailed
      rw [hafter, streak_succ_of_succeeded hfailed]
      exact ⟨rfl, by simp [onSuccess, failureThreshold]⟩

/-! ## The recovery -/

/-- What a tick does whose ping fails. -/
theorem actions_of_failed (hf : c.failed t n = some true) :
    (c.tick s (t n)).actions = if c.streak t n = 3 then c.recovery (t n) else [] := by
  rw [failed_of_waiting h] at hf
  obtain ⟨hcount, hlost⟩ := counters_eq h
  rcases tick_cases c s (t n) with ⟨timeout, -, hactions, -⟩ | ⟨latency, hok, -, -⟩
  · have hfires : shouldFireRecovery (s.consecutiveFailures + 1) failureThreshold
        s.connectionLost = decide (c.streak t n = 3) := by
      apply Bool.eq_iff_iff.mpr
      simp only [shouldFireRecovery, hcount, hlost, Bool.and_eq_true, decide_eq_true_eq,
        Bool.not_eq_true', decide_eq_false_iff_not]
      unfold failureThreshold
      omega
    rw [hactions]
    simp only [onFailure, State.appendLatency, hfires, decide_eq_true_eq]
  · rw [hok] at hf
    cases hf

/-- What a tick does whose ping succeeds. -/
theorem actions_of_succeeded (hf : c.failed t n = some false) :
    ∃ latency, (c.tick s (t n)).actions =
      (if c.tunnelID ≠ "" then [.observeTunnelLatency c.tunnelID latency] else []) ++
        (if 4 ≤ c.streak t n then c.restoration else []) := by
  rw [failed_of_waiting h] at hf
  obtain ⟨-, hlost⟩ := counters_eq h
  rcases tick_cases c s (t n) with ⟨timeout, hfail, -, -⟩ | ⟨latency, -, hactions, -⟩
  · rw [hfail] at hf
    cases hf
  · refine ⟨latency, ?_⟩
    rw [hactions]
    by_cases hfour : 4 ≤ c.streak t n <;>
      simp [onSuccess, State.appendLatency, hlost, failureThreshold, hfour]

theorem failed_eq_false_iff (j : Nat) :
    (c.failed t j == some true) = false ↔ c.failed t j = some false := by
  obtain ⟨r, hr⟩ := exists_waiting h j
  rw [failed_of_waiting hr]
  cases c.pingFails r (t j) <;> decide

theorem fourthFailure_iff : c.FourthFailure t n ↔ c.streak t n = 3 ∧ c.failed t n = some true := by
  have hiff := Streak.streak_eq_iff (p := fun j => c.failed t j == some true) (n := n) (k := 3)
  simp only [failed_eq_false_iff h, beq_iff_eq] at hiff
  exact hiff.symm

omit h

theorem lostAt_iff : c.LostAt t n ↔ 4 ≤ c.streak t n := by
  have hiff := Streak.le_streak_iff (p := fun j => c.failed t j == some true) (n := n) (k := 4)
  simp only [beq_iff_eq] at hiff
  exact hiff.symm

theorem endsOutage_iff : c.EndsOutage t n ↔ c.failed t n = some false ∧ 4 ≤ c.streak t n := by
  rw [← lostAt_iff]
  refine and_congr_right fun _ => ⟨?_, ?_⟩
  · rintro ⟨a, ha, hall⟩
    exact ⟨by omega, fun j hj hjn => hall j (by omega) hj⟩
  · rintro ⟨hn, hall⟩
    exact ⟨n - 4, by omega, fun j hj hjn => hall j hjn (by omega)⟩

/-- The recovery at the fourth failure and the restoration after an outage are all that
a tick does, observed latencies apart. -/
theorem does_iff (kind : Action → Bool)
    (hkind : ∀ id latency, kind (.observeTunnelLatency id latency) = false) :
    c.Does t n kind ↔ (c.recovery (t n)).any kind = true ∧ c.FourthFailure t n ∨
      c.restoration.any kind = true ∧ c.EndsOutage t n := by
  cases hw : c.waiting t n with
  | none =>
    -- the ticker could not be made: there is no tick
    have hround : c.round t n = none := by rw [round, hw]; rfl
    have hfailed : c.failed t n = none := by rw [failed, hw]; rfl
    have hfourth : ¬ c.FourthFailure t n := by
      rintro ⟨a, ha, hall, -⟩
      rw [hall n (by omega) (Nat.le_refl n)] at hfailed
      cases hfailed
    simp [Does, hround, hfourth, endsOutage_iff, hfailed]
  | some s =>
    have hdoes : c.Does t n kind ↔ (c.tick s (t n)).actions.any kind = true := by
      simp [Does, round, hw]
    have hfailed := failed_of_waiting hw
    rw [hdoes, fourthFailure_iff hw, endsOutage_iff]
    cases hf : c.pingFails s (t n) with
    | true =>
      rw [hf] at hfailed
      rw [actions_of_failed hw hfailed, hfailed]
      by_cases hthree : c.streak t n = 3 <;> simp [hthree]
    | false =>
      rw [hf] at hfailed
      obtain ⟨latency, hactions⟩ := actions_of_succeeded hw hfailed
      have hobserved : (if c.tunnelID ≠ "" then [.observeTunnelLatency c.tunnelID latency]
          else []).any kind = false := by
        split <;> simp [hkind]
      rw [hactions, hfailed, List.any_append, hobserved, Bool.false_or]
      by_cases hfour : 4 ≤ c.streak t n <;> simp [hfour]

end Run

/-- What the recovery has of each kind. -/
theorem any_recovery (t : Tick) :
    (c.recovery t).any Action.isPingRequests = true ∧
      (c.recovery t).any Action.isRegister = true ∧
      ((c.recovery t).any Action.removes = true ↔ c.healthFile ≠ "") ∧
      (c.recovery t).any Action.writes = false := by
  unfold recovery
  by_cases hid : c.tunnelID = "" <;> by_cases hfile : c.healthFile = "" <;>
    simp [hid, hfile, Action.isPingRequests, Action.isRegister, Action.removes, Action.writes]

theorem any_restoration :
    c.restoration.any Action.isPingRequests = false ∧
      c.restoration.any Action.isRegister = false ∧
      c.restoration.any Action.removes = false ∧
      (c.restoration.any Action.writes = true ↔ c.healthFile ≠ "") := by
  unfold restoration
  by_cases hfile : c.healthFile = "" <;>
    simp [hfile, Action.isPingRequests, Action.isRegister, Action.removes, Action.writes]

/-- **Recovery at the fourth failure**: the exit nodes are asked for and the registration
is sent exactly at the fourth failure of a run of failures; there the health file is
removed, and it is written again exactly at the success that ends such a run. -/
theorem recovery_at_fourth_failure (c : Check) (t : Nat → Tick) (n : Nat) :
    (c.Does t n Action.isPingRequests ↔ c.FourthFailure t n) ∧
      (c.Does t n Action.isRegister ↔ c.FourthFailure t n) ∧
      (c.Does t n Action.removes ↔ c.healthFile ≠ "" ∧ c.FourthFailure t n) ∧
      (c.Does t n Action.writes ↔ c.healthFile ≠ "" ∧ c.EndsOutage t n) := by
  obtain ⟨hrequests, hregister, hremoves, hwrites⟩ := any_recovery (c := c) (t n)
  obtain ⟨hrequests', hregister', hremoves', hwrites'⟩ := any_restoration (c := c)
  rw [does_iff Action.isPingRequests (fun _ _ => rfl), does_iff Action.isRegister (fun _ _ => rfl),
    does_iff Action.removes (fun _ _ => rfl), does_iff Action.writes (fun _ _ => rfl)]
  simp [hrequests, hregister, hremoves, hwrites, hrequests', hregister', hremoves', hwrites']

/-! ## The pace -/

/-- The interval and the ticker after `k` failures in a row. -/
structure Paced (c : Check) (k : Nat) (s : State) : Prop where
  positive : 0 < c.pingInterval
  ticker_ge : c.pingInterval ≤ s.ticker
  ticker_le : s.ticker ≤ s.currentInterval
  interval_le : s.currentInterval ≤ max c.pingInterval maxInterval
  equal : k < failureThreshold → s.ticker = s.currentInterval
  below : k < failureThreshold → c.pingInterval < maxInterval → s.currentInterval < maxInterval
  behind : failureThreshold ≤ k → c.pingInterval < maxInterval → s.ticker < s.currentInterval

theorem paced_start (h : c.start = some s) : c.Paced 0 s := by
  unfold start at h
  split at h
  · next hpos =>
    cases h
    exact ⟨hpos, Int.le_refl _, Int.le_refl _, Int.le_max_left .., fun _ => rfl, fun _ h => h,
      fun h => absurd h (by decide)⟩
  · cases h

theorem Paced.slowDown {k : Nat} (h : c.Paced k s) {r : State} (hk : r.consecutiveFailures = k + 1)
    (hticker : r.ticker = s.ticker) (hinterval : r.currentInterval = s.currentInterval) :
    c.Paced (k + 1) (c.slowDown r) := by
  have hpos : 0 < s.currentInterval :=
    Int.lt_of_lt_of_le h.positive (Int.le_trans h.ticker_ge h.ticker_le)
  have hgrow := c.scaling.lt_enlarge s.currentInterval hpos
  unfold Check.slowDown
  rw [hk, hinterval]
  split
  · next hslow =>
    obtain ⟨hfour, hlt⟩ := hslow
    -- the interval is now above what it was, and the ticker is not
    dsimp only
    generalize hinterval' : (if c.scaling.enlarge s.currentInterval > maxInterval then maxInterval
      else c.scaling.enlarge s.currentInterval) = new
    obtain ⟨hnew, hnew_le⟩ : s.currentInterval < new ∧ new ≤ maxInterval := by
      split at hinterval' <;> omega
    refine ⟨h.positive, ?_, ?_, ?_, fun hk => ?_, fun hk => ?_, fun _ _ => ?_⟩
    · exact hticker ▸ h.ticker_ge
    · exact hticker ▸ Int.le_of_lt (Int.lt_of_le_of_lt h.ticker_le hnew)
    · exact Int.le_trans hnew_le (Int.le_max_right ..)
    · exact absurd hk (Nat.not_lt.mpr hfour)
    · exact absurd hk (Nat.not_lt.mpr hfour)
    · exact hticker ▸ Int.lt_of_le_of_lt h.ticker_le hnew
  · next hkeep =>
    refine ⟨h.positive, ?_, ?_, ?_, fun hk => ?_, fun hk => ?_, fun hk hsmall => ?_⟩
    · exact hticker ▸ h.ticker_ge
    · exact hticker ▸ hinterval ▸ h.ticker_le
    · exact hinterval ▸ h.interval_le
    · rw [hticker, hinterval]
      exact h.equal (Nat.lt_of_succ_lt hk)
    · rw [hinterval]
      exact h.below (Nat.lt_of_succ_lt hk)
    · -- the interval is at its maximum, so this is not the fourth failure
      have hmax : ¬ s.currentInterval < maxInterval := fun hlt => hkeep ⟨hk, hlt⟩
      rw [hticker, hinterval]
      refine h.behind (Nat.not_lt.mp fun hlt => ?_) hsmall
      exact hmax (h.below hlt hsmall)

theorem Paced.speedUp {k : Nat} (h : c.Paced k s) {r : State} (hticker : r.ticker = s.ticker)
    (hinterval : r.currentInterval = s.currentInterval) :
    c.Paced 0 { c.speedUp r with consecutiveFailures := 0 } := by
  have hpos : 0 < s.currentInterval :=
    Int.lt_of_lt_of_le h.positive (Int.le_trans h.ticker_ge h.ticker_le)
  have hshrink := c.scaling.shrink_lt s.currentInterval hpos
  have hmax := h.interval_le
  unfold Check.speedUp
  rw [hinterval]
  split
  · next habove =>
    dsimp only
    generalize hinterval' : (if c.scaling.shrink s.currentInterval < c.pingInterval
      then c.pingInterval else c.scaling.shrink s.currentInterval) = new
    obtain ⟨hnew_ge, hnew⟩ : c.pingInterval ≤ new ∧ new < s.currentInterval := by
      split at hinterval' <;> omega
    refine ⟨h.positive, hnew_ge, Int.le_refl _, ?_, fun _ => rfl, fun _ hsmall => ?_,
      fun hk => absurd hk (by decide)⟩
    · exact Int.le_trans (Int.le_of_lt hnew) hmax
    · rw [Int.max_eq_right (Int.le_of_lt hsmall)] at hmax
      exact Int.lt_of_lt_of_le hnew hmax
  · next hnot =>
    -- the interval is the configured one, so the ticker is as well
    have hle : s.currentInterval ≤ c.pingInterval := Int.not_lt.mp hnot
    have hge := h.ticker_ge
    have hticker_le := h.ticker_le
    refine ⟨h.positive, ?_, ?_, ?_, fun _ => ?_, fun _ hsmall => ?_,
      fun hk => absurd hk (by decide)⟩
    · exact hticker ▸ hge
    · exact hticker ▸ hinterval ▸ hticker_le
    · exact hinterval ▸ hmax
    · rw [hticker, hinterval]
      omega
    · rw [hinterval]
      exact Int.lt_of_le_of_lt hle hsmall

theorem paced {t : Nat → Tick} {n : Nat} (h : c.waiting t n = some s) :
    c.Paced (c.streak t n) s := by
  refine waiting_invariant (I := fun n s => c.Paced (c.streak t n) s)
    (fun s hs => paced_start hs) ?_ h
  intro n s hs hpaced
  have hfailed := failed_of_waiting hs
  obtain ⟨hcount, -⟩ := counters_eq hs
  rcases tick_cases c s (t n) with ⟨timeout, hf, -, hafter⟩ | ⟨latency, hf, -, hafter⟩
  · rw [hf] at hfailed
    rw [hafter, streak_succ_of_failed hfailed]
    exact hpaced.slowDown (congrArg (· + 1) hcount) rfl rfl
  · rw [hf] at hfailed
    rw [hafter, streak_succ_of_succeeded hfailed]
    exact hpaced.speedUp rfl rfl

/-- **The interval and the ticker**: the interval stays between the configured one and the
larger of that and six seconds; the ticker has it exactly if the configured interval is
not below six seconds or one of the last four pings has succeeded. -/
theorem ticker_follows_interval_iff (c : Check) (t : Nat → Tick) (n : Nat) {s : State}
    (h : c.waiting t n = some s) :
    c.pingInterval ≤ s.currentInterval ∧ s.currentInterval ≤ max c.pingInterval maxInterval ∧
      (s.ticker = s.currentInterval ↔ maxInterval ≤ c.pingInterval ∨ ¬ c.LostAt t n) := by
  have hpaced := paced h
  have hge := hpaced.ticker_ge
  have hle := hpaced.ticker_le
  have hmax := hpaced.interval_le
  refine ⟨Int.le_trans hge hle, hmax, ?_⟩
  rw [lostAt_iff, Nat.not_le]
  constructor
  · intro heq
    by_contra hnot
    rw [not_or, Int.not_le, Nat.not_lt] at hnot
    exact absurd heq (Int.ne_of_lt (hpaced.behind hnot.2 hnot.1))
  · rintro (hlarge | hfew)
    · rw [Int.max_eq_left hlarge] at hmax
      omega
    · exact hpaced.equal hfew

/-- 1.3 and 0.9 times a duration, rounded away from it. -/
def threeTenths : Scaling where
  enlarge d := d + (3 * d + 9) / 10
  shrink d := d - (d + 9) / 10
  lt_enlarge d hd := by omega
  shrink_lt d hd := by omega

/-- A check with a tick every three seconds. -/
def everyThreeSeconds : Check :=
  { scaling := threeTenths, pingInterval := 3 * second, pingTimeout := 3 * second,
    healthFile := "", publicKey := "", tunnelID := "" }

def pings (result : Nat → Except String Int) (n : Nat) : Tick :=
  { ping := fun _ _ => result n, jitter := fun _ => 0, pingChainId := "", bcChainId := "" }

/-- Five failures, and a success. -/
def outage : Nat → Tick :=
  pings (fun n => if n < 5 then .error "timeout" else .ok second)

/-- The recovery fires once in it, at the fourth failure, and the health file comes back
with the success. -/
theorem outage_recovered :
    let c := { everyThreeSeconds with healthFile := "/tmp/healthy" }
    c.Does outage 3 Action.isRegister ∧ c.Does outage 3 Action.removes ∧
      ¬ c.Does outage 4 Action.isRegister ∧ c.Does outage 5 Action.writes := by
  intro c
  have hdown : ∀ j < 5, c.failed outage j = some true := by decide +kernel
  have hup : c.failed outage 5 = some false := by decide +kernel
  have hfourth : c.FourthFailure outage 3 :=
    ⟨0, rfl, fun j _ hj => hdown j (by omega), fun b hb => absurd hb (Nat.succ_ne_zero b).symm⟩
  have hfifth : ¬ c.FourthFailure outage 4 := by
    rintro ⟨a, ha, -, hbefore⟩
    obtain rfl : a = 1 := by omega
    have hzero := hbefore 0 rfl
    rw [hdown 0 (by omega)] at hzero
    cases hzero
  obtain ⟨-, hregister, hremoves, -⟩ := recovery_at_fourth_failure c outage 3
  obtain ⟨-, hagain, -, -⟩ := recovery_at_fourth_failure c outage 4
  obtain ⟨-, -, -, hwrites⟩ := recovery_at_fourth_failure c outage 5
  exact ⟨hregister.mpr hfourth, hremoves.mpr ⟨by decide, hfourth⟩, fun h => hfifth (hagain.mp h),
    hwrites.mpr ⟨by decide, hup, 0, by decide, fun j _ hj => hdown j hj⟩⟩

theorem ticker_follows_interval_afterOutage :
    ∃ s, everyThreeSeconds.waiting outage 6 = some s ∧
      everyThreeSeconds.pingInterval < s.currentInterval ∧ s.ticker = s.currentInterval := by
  have hnot : ¬ everyThreeSeconds.LostAt outage 6 := by
    rintro ⟨-, hall⟩
    have hsuccess : everyThreeSeconds.failed outage 5 = some false := by decide +kernel
    have hfailure := hall 5 (by decide) (by decide)
    rw [hsuccess] at hfailure
    cases hfailure
  simp only [← and_assoc]
  refine Exists.imp
    (fun s h => ⟨h, (ticker_follows_interval_iff _ outage 6 h.1).2.2.mpr (.inr hnot)⟩) ?_
  decide +kernel

/-- After four failures the interval is 3.9 seconds, and the ticker still ticks every
three. -/
theorem ticker_not_reset :
    ∃ s, everyThreeSeconds.waiting outage 4 = some s ∧
      s.currentInterval = 39 * second / 10 ∧ s.ticker = 3 * second := by decide +kernel

end Check

end Newt.PingCheck
