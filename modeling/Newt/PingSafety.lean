import Newt.PingTunnel

/-!
# Pings after the tunnel is cleared

`closeWgTunnel` closes the stop channel of `startPingCheck` only, and sets the
field a `pingWithRetry` goroutine looks at to nil.  Nothing waits for either
goroutine, so a ping can follow the clearing of its tunnel, in netstack mode on
a nil netstack: `retry_pings_cleared_tunnel`.

`no_ping_after_clear` is what the code does guarantee: in a run in which the
goroutines of a tunnel are at rest whenever it is cleared, and a closed stop
channel is preferred to the ticker, every ping runs on the netstack of its own
tunnel, which has not been cleared.
-/

namespace Newt.PingTunnel

open List Option

/-- The goroutine can still issue an attempt or return. -/
def Goroutine.Alive (g : Goroutine) : Prop :=
  g.phase ≠ .returned

/-- No attempt can follow but through the ticker of `startPingCheck`. -/
def Goroutine.AtRest (g : Goroutine) : Prop :=
  g.phase = .returned ∨ (g.pinger = .startPingCheck ∧ g.phase = .select)
  deriving Decidable

/-- The handler is in `handleConnect`, past the closing of the old tunnel. -/
def HandlerPC.inConnect : HandlerPC → Bool
  | .building | .configuring _ | .testing _ _ | .firstPing _ | .starting _ => true
  | _ => false

/-- `pingWithRetry` has been called and `startPingCheck` has not. -/
def HandlerPC.isStarting : HandlerPC → Bool
  | .starting _ => true
  | _ => false

/-- The tunnel `handleConnect` has created. -/
def HandlerPC.tunnel : HandlerPC → Option Nat
  | .configuring t | .testing t _ | .firstPing t | .starting t => some t
  | _ => none

/-- `closeWgTunnel` has closed the stop channel. -/
def HandlerPC.chanClosed : HandlerPC → Bool
  | .nilling _ | .clearing _ => true
  | _ => false

attribute [simp] HandlerPC.inConnect HandlerPC.isStarting HandlerPC.tunnel HandlerPC.chanClosed

namespace Client

/-- The steps under which no ping follows the clearing of its tunnel: when a
tunnel is cleared its goroutines are at rest, and a ticker is not taken when the
goroutine's stop channel is closed. -/
def RestsWhenCleared (s : Client) : Event → Prop
  | .handler _ =>
    match s.pc with
    | .clearing _ => ∀ g ∈ s.goroutines, s.tun = some g.tunnel → g.AtRest
    | _ => True
  | .tick i => ∀ g ∈ s.goroutines[i]?, g.stopChan ∉ s.closedChans
  | _ => True

instance (s : Client) (e : Event) : Decidable (s.RestsWhenCleared e) := by
  unfold RestsWhenCleared
  split
  · split <;> infer_instance
  · infer_instance
  · infer_instance

/-- What is known of a goroutine that has not returned.  If its tunnel is
cleared it can only be stopped.  Otherwise its tunnel is the current one, its
stop channel is the one `closeWgTunnel` closes, and while the client is not
connected only the retries of a connect in progress are such. -/
structure Accounted (s : Client) (g : Goroutine) : Prop where
  stopping : g.tunnel ∈ s.cleared →
    g.pinger = .startPingCheck ∧ g.phase = .select ∧ g.stopChan ∈ s.closedChans
  current : g.tunnel ∉ s.cleared → s.tun = some g.tunnel
  stoppable : g.tunnel ∉ s.cleared → g.pinger = .startPingCheck →
    s.pingStopChan = some g.stopChan ∨ g.stopChan ∈ s.closedChans
  connecting : g.tunnel ∉ s.cleared → s.connected = false →
    s.pc.isStarting = true ∧ g.pinger = .pingWithRetry

/-- The ping ran on the netstack of its tunnel, which was not cleared. -/
def RanWell (s : Client) (a : Attempt) : Prop :=
  a.cleared = false ∧ (s.useNativeMainInterface = false → a.tnet = some a.tunnel)

/-- The invariant of the runs that meet the condition. -/
structure Safe (s : Client) : Prop where
  accounted : ∀ g ∈ s.goroutines, g.Alive → s.Accounted g
  not_connected : s.pc.inConnect = true → s.connected = false
  building : ∀ t ∈ s.pc.tunnel, s.tun = some t
  chan_closed : s.pc.chanClosed = true → ∀ c ∈ s.pingStopChan, c ∈ s.closedChans
  tnet_eq : s.tnet = if s.useNativeMainInterface then none else s.tun
  tun_lt : ∀ t ∈ s.tun, t < s.nextTunnel
  cleared_lt : ∀ t ∈ s.cleared, t < s.nextTunnel
  tun_not_cleared : ∀ t ∈ s.tun, t ∉ s.cleared
  attempts : ∀ a ∈ s.attempts, s.RanWell a

theorem safe_fresh (native : Bool) : (fresh native).Safe := by
  refine ⟨?_, ?_, ?_, ?_, ?_, ?_, ?_, ?_, ?_⟩ <;> cases native <;> simp [fresh]

variable {s s' : Client}

variable {g : Goroutine} {t i : Nat} {ok : Bool}

/-- A goroutine stays accounted for when the tunnel stays, no closed channel is
forgotten and the client does not leave a connect in progress unconnected. -/
theorem Accounted.mono (h : s.Accounted g) (htun : s'.tun = s.tun)
    (hcleared : s'.cleared = s.cleared) (hclosed : ∀ c ∈ s.closedChans, c ∈ s'.closedChans)
    (hchan : ∀ c ∈ s.pingStopChan, c ∈ s'.pingStopChan ∨ c ∈ s'.closedChans)
    (hpc : s'.connected = false →
      s.connected = false ∧ (s.pc.isStarting = true → s'.pc.isStarting = true)) :
    s'.Accounted g where
  stopping hc := by
    obtain ⟨hp, hphase, hstop⟩ := h.stopping (hcleared ▸ hc)
    exact ⟨hp, hphase, hclosed _ hstop⟩
  current hc := by
    rw [htun]
    exact h.current (hcleared ▸ hc)
  stoppable hc hp := by
    rcases h.stoppable (hcleared ▸ hc) hp with hstop | hstop
    · exact hchan _ hstop
    · exact .inr (hclosed _ hstop)
  connecting hc hconn := by
    obtain ⟨hstarting, hp⟩ := h.connecting (hcleared ▸ hc) (hpc hconn).1
    exact ⟨(hpc hconn).2 hstarting, hp⟩

/-- A ping check that is to be stopped may belong to a cleared tunnel. -/
theorem accounted_of_cleared (hc : g.tunnel ∈ s.cleared)
    (hstopping : g.pinger = .startPingCheck ∧ g.phase = .select ∧ g.stopChan ∈ s.closedChans) :
    s.Accounted g :=
  ⟨fun _ => hstopping, fun hn => absurd hc hn, fun hn => absurd hc hn, fun hn => absurd hc hn⟩

variable (h : s.Safe)

include h

/-- A step that leaves the tunnel, the goroutines and the pings alone. -/
theorem Safe.move {pc : HandlerPC} {closed : List Nat} {chan retry : Option Nat}
    {conn stopped : Bool} {next : Nat} (hclosed : ∀ c ∈ s.closedChans, c ∈ closed)
    (hchan : ∀ c ∈ s.pingStopChan, c ∈ chan ∨ c ∈ closed)
    (hpc : conn = false → s.connected = false ∧ (s.pc.isStarting = true → pc.isStarting = true))
    (hconnect : pc.inConnect = true → conn = false) (htunnel : ∀ t ∈ pc.tunnel, s.tun = some t)
    (hnil : pc.chanClosed = true → ∀ c ∈ chan, c ∈ closed) :
    Safe { s with
           pc := pc, closedChans := closed, pingStopChan := chan, pingWithRetryStopChan := retry,
           connected := conn, stopped := stopped, nextChan := next } := by
  refine { h with accounted := ?_, not_connected := hconnect, building := htunnel,
                  chan_closed := hnil }
  intro g hg halive
  exact (h.accounted g hg halive).mono rfl rfl hclosed hchan hpc

/-- A ping for the current tunnel keeps the invariant. -/
theorem Safe.ping (ht : s.tun = some t) (pinger : Option Pinger) : (s.ping pinger t).Safe := by
  have hnew : s.RanWell { pinger := pinger, tunnel := t, tnet := s.tnet,
                          cleared := decide (t ∈ s.cleared) } := by
    refine ⟨by simpa using h.tun_not_cleared t ht, ?_⟩
    intro hnative
    simpa [hnative, ht] using h.tnet_eq
  refine { h with accounted := ?_, attempts := ?_ }
  · intro g hg halive
    exact (h.accounted g hg halive).mono rfl rfl (fun _ hc => hc) (fun _ hc => .inl hc)
      (fun hconn => ⟨hconn, id⟩)
  · exact Runs.forall_mem_concat h.attempts hnew

/-- A goroutine moves: the invariant is kept when its tunnel is not cleared, or
when it returns. -/
theorem Safe.setGoroutine (hg : s.goroutines[i]? = some g) (halive : g.Alive) {phase : PingPhase}
    {failures : Nat} (hmove : g.tunnel ∉ s.cleared ∨ phase = .returned) :
    (s.setGoroutine i { g with phase := phase, consecutiveFailures := failures }).Safe := by
  refine { h with accounted := ?_ }
  intro x hx hx'
  rcases mem_or_eq_of_mem_set hx with hx | hx
  · exact (h.accounted x hx hx').mono rfl rfl (fun _ hc => hc) (fun _ hc => .inl hc)
      (fun hconn => ⟨hconn, id⟩)
  · subst hx
    have hun : g.tunnel ∉ s.cleared := hmove.resolve_right hx'
    obtain ⟨-, hcurrent, hstoppable, hconnecting⟩ :=
      h.accounted g (mem_of_getElem? hg) halive
    exact ⟨fun hc => absurd hc hun, hcurrent, hstoppable, hconnecting⟩

/-- A goroutine that is not a waiting ping check has a tunnel that is not cleared. -/
theorem Safe.not_cleared (hg : s.goroutines[i]? = some g) (halive : g.Alive)
    (hactive : g.pinger = .pingWithRetry ∨ g.phase ≠ .select) : g.tunnel ∉ s.cleared := by
  intro hc
  obtain ⟨hp, hphase, -⟩ := (h.accounted g (mem_of_getElem? hg) halive).stopping hc
  rcases hactive with hactive | hactive
  · rw [hp] at hactive
    cases hactive
  · exact hactive hphase

/-- Outside the last part of a connect, the goroutines of an unconnected client
belong to cleared tunnels. -/
theorem Safe.quiet (hconn : s.connected = false) (hpc : s.pc.isStarting = false)
    (hg : g ∈ s.goroutines) (halive : g.Alive) : g.tunnel ∈ s.cleared := by
  by_contra hc
  have hstarting := ((h.accounted g hg halive).connecting hc hconn).1
  rw [hpc] at hstarting
  cases hstarting

theorem Safe.onMessage {m : Message} (hs : s.onMessage m = some s') : s'.Safe := by
  unfold Client.onMessage at hs
  by_cases hidle : s.pc = .idle ∧ s.stopped = false
  · rw [if_pos hidle] at hs
    by_cases hconn : m = .connect ∧ s.connected = false
    · rw [if_pos hconn] at hs
      cases hs
      refine h.move (fun _ hc => hc) (fun _ hc => .inl hc) ?_ (fun _ => hconn.2) ?_ ?_
      · intro hc
        exact ⟨hc, by simp [hidle.1]⟩
      · simp
      · simp
    · rw [if_neg hconn] at hs
      cases hs
      refine h.move (fun _ hc => hc) (fun _ hc => .inl hc) ?_ ?_ ?_ ?_
      · intro hc
        exact ⟨hc, by simp [hidle.1]⟩
      · simp
      · simp
      · simp
  · rw [if_neg hidle] at hs
    cases hs

/-- When the stop channel is closed and the goroutines of the tunnel are at
rest, clearing the tunnel leaves only ping checks that are to be stopped. -/
theorem Safe.stopping_of_clear (hpc : s.pc.chanClosed = true)
    (hrest : ∀ g ∈ s.goroutines, s.tun = some g.tunnel → g.AtRest) (hg : g ∈ s.goroutines)
    (halive : g.Alive) :
    g.tunnel ∈ s.clearTunnel.cleared ∧ g.pinger = .startPingCheck ∧ g.phase = .select ∧
      g.stopChan ∈ s.closedChans := by
  have hacc := h.accounted g hg halive
  by_cases hc : g.tunnel ∈ s.cleared
  · exact ⟨mem_append_right _ hc, hacc.stopping hc⟩
  · have htun := hacc.current hc
    obtain ⟨hp, hphase⟩ := (hrest g hg htun).resolve_left halive
    refine ⟨mem_append_left _ (by simp [htun]), hp, hphase, ?_⟩
    rcases hacc.stoppable hc hp with hstop | hstop
    · exact h.chan_closed hpc _ hstop
    · exact hstop

theorem Safe.clear (hpc : s.pc.chanClosed = true)
    (hrest : ∀ g ∈ s.goroutines, s.tun = some g.tunnel → g.AtRest) (m : Message) :
    (s.clearTunnel.afterClose m).Safe := by
  have hlt : ∀ t ∈ s.tun.toList ++ s.cleared, t < s.nextTunnel := by
    intro t ht
    rcases mem_append.mp ht with ht | ht
    · exact h.tun_lt t (mem_toList.mp ht)
    · exact h.cleared_lt t ht
  -- Whatever the handler does next, its goroutines belong to cleared tunnels.
  have hsafe : ∀ (pc : HandlerPC) (conn stopped : Bool), (pc.inConnect = true → conn = false) →
      pc.tunnel = none → pc.chanClosed = false →
      Safe { s.clearTunnel with pc := pc, connected := conn, stopped := stopped } := by
    intro pc conn stopped hconnect htunnel hnil
    refine { accounted := ?_, not_connected := hconnect, building := ?_, chan_closed := ?_,
             tnet_eq := ?_, tun_lt := ?_, cleared_lt := hlt, tun_not_cleared := ?_,
             attempts := h.attempts }
    · intro g hg halive
      obtain ⟨hc, hstopping⟩ := h.stopping_of_clear hpc hrest hg halive
      exact accounted_of_cleared hc hstopping
    · exact fun t ht => nomatch htunnel.symm.trans ht
    · exact fun hclosed => nomatch hnil.symm.trans hclosed
    · exact (ite_self none).symm
    · simp [clearTunnel]
    · simp [clearTunnel]
  cases m with
  | connect => exact hsafe .building false s.stopped (fun _ => rfl) rfl rfl
  | reconnect | terminate => exact hsafe .idle false s.stopped (fun _ => rfl) rfl rfl
  | restart => exact hsafe .idle s.connected true (by simp) rfl rfl

/-- A new tunnel: no goroutine is left that belongs to another one. -/
theorem Safe.create (hpc : s.pc = .building) (hs : s.create ok = some s') : s'.Safe := by
  have hconn : s.connected = false := h.not_connected (by simp [hpc])
  have hacc : ∀ {tun tnet : Option Nat} {next : Nat} {pc : HandlerPC}, ∀ g ∈ s.goroutines, g.Alive →
      Accounted { s with tun := tun, tnet := tnet, nextTunnel := next, pc := pc } g := by
    intro tun tnet next pc g hg halive
    have hc := h.quiet hconn (by simp [hpc]) hg halive
    exact accounted_of_cleared hc ((h.accounted g hg halive).stopping hc)
  unfold Client.create at hs
  cases ok with
  | true =>
    cases hs
    refine { h with accounted := hacc, not_connected := fun _ => hconn, building := ?_,
                    chan_closed := ?_, tnet_eq := rfl, tun_lt := ?_, cleared_lt := ?_,
                    tun_not_cleared := ?_ }
    · simp
    · simp
    · simp
    · intro t ht
      exact Nat.lt_succ_of_lt (h.cleared_lt t ht)
    · intro t ht hc
      cases ht
      exact absurd (h.cleared_lt _ hc) (Nat.lt_irrefl _)
  | false =>
    by_cases hnative : s.useNativeMainInterface = true
    · simp only [Bool.false_eq_true, if_false, if_pos hnative] at hs
      cases hs
      refine { h with accounted := hacc, not_connected := fun _ => hconn, building := ?_,
                      chan_closed := ?_, tnet_eq := ?_, tun_lt := ?_, tun_not_cleared := ?_ }
      · simp
      · simp
      · simpa [hnative] using h.tnet_eq
      · simp
      · simp
    · simp [hnative] at hs

/-- A goroutine is started for the current tunnel. -/
theorem Safe.spawn (hacc : s.Accounted g) : Safe { s with goroutines := s.goroutines ++ [g] } := by
  refine { h with accounted := ?_ }
  intro x hx halive
  have hx' : s.Accounted x := by
    rcases mem_append.mp hx with hx | hx
    · exact h.accounted x hx halive
    · rw [mem_singleton.mp hx]
      exact hacc
  exact hx'.mono rfl rfl (fun _ hc => hc) (fun _ hc => .inl hc) (fun hc => ⟨hc, id⟩)

theorem Safe.firstPing (hpc : s.pc = .firstPing t) (ok : Bool) :
    Safe { s.pingWithRetry t ok with pc := .starting t } := by
  have hconn : s.connected = false := h.not_connected (by simp [hpc])
  have htun : s.tun = some t := h.building t (by simp [hpc])
  have hmoved : Safe { s.ping (some .pingWithRetry) t with
      pc := .starting t, pingWithRetryStopChan := some s.nextChan,
      nextChan := s.nextChan + 1 } := by
    refine (h.ping htun _).move (fun _ hc => hc) (fun _ hc => .inl hc) (fun hc => ⟨hc, ?_⟩)
      (fun _ => hconn) ?_ ?_
    · simp
    · intro t' ht'
      cases ht'
      exact htun
    · simp
  cases ok with
  | true => exact hmoved
  | false =>
    have hnot := h.tun_not_cleared t htun
    exact hmoved.spawn ⟨fun hc => absurd hc hnot, fun _ => htun, fun _ hp => (by cases hp),
      fun _ _ => ⟨rfl, rfl⟩⟩

theorem Safe.starting (hpc : s.pc = .starting t) :
    Safe { (if s.connected then s else s.startPingCheck t) with
           connected := true, pc := .idle } := by
  have hconn : s.connected = false := h.not_connected (by simp [hpc])
  have htun : s.tun = some t := h.building t (by simp [hpc])
  have hnot := h.tun_not_cleared t htun
  rw [hconn]
  -- No other ping check relies on the old stop channel.
  refine { h with accounted := ?_, not_connected := ?_, building := ?_, chan_closed := ?_ }
  · intro g hg halive
    rcases mem_append.mp hg with hg | hg
    · obtain ⟨hstopping, hcurrent, -, hconnecting⟩ := h.accounted g hg halive
      refine ⟨hstopping, hcurrent, fun hc hp => ?_, fun _ hc => (by cases hc)⟩
      rw [(hconnecting hc hconn).2] at hp
      cases hp
    · rw [mem_singleton.mp hg]
      exact ⟨fun hc => absurd hc hnot, fun _ => htun, fun _ _ => .inl rfl,
        fun _ hc => (by cases hc)⟩
  · simp
  · simp
  · simp

theorem Safe.onHandler (hrests : s.RestsWhenCleared (.handler ok)) (hs : s.onHandler ok = some s') :
    s'.Safe := by
  unfold Client.onHandler at hs
  cases hpc : s.pc <;> simp only [hpc] at hs
  case idle => cases hs
  case closing m =>
    cases hchan : s.pingStopChan with
    | none =>
      simp only [hchan] at hs
      cases hs
      refine h.move (fun _ hc => hc) (fun _ hc => .inl (hchan ▸ hc)) (fun hc => ⟨hc, ?_⟩)
        ?_ ?_ ?_ <;>
        simp [hpc]
    | some c =>
      simp only [hchan] at hs
      cases hs
      refine h.move (fun _ hc => mem_cons_of_mem _ hc) (fun _ hc => .inl (hchan ▸ hc))
        (fun hc => ⟨hc, ?_⟩) ?_ ?_ ?_ <;>
        simp [hpc]
  case nilling m =>
    cases hs
    have hclosed := h.chan_closed (by simp [hpc])
    refine h.move (fun _ hc => hc) (fun c hc => .inr (hclosed c hc)) (fun hc => ⟨hc, ?_⟩)
      ?_ ?_ ?_ <;>
      simp [hpc]
  case clearing m =>
    cases hs
    have hrest : ∀ g ∈ s.goroutines, s.tun = some g.tunnel → g.AtRest := by
      simpa only [RestsWhenCleared, hpc] using hrests
    exact h.clear (by simp [hpc]) hrest m
  case building =>
    exact h.create hpc hs
  case configuring t =>
    cases hs
    have hconn : s.connected = false := h.not_connected (by simp [hpc])
    have htun : s.tun = some t := h.building t (by simp [hpc])
    unfold Client.stopOldRetry
    cases s.pingWithRetryStopChan with
    | none =>
      refine h.move (fun _ hc => hc) (fun _ hc => .inl hc) (fun hc => ⟨hc, ?_⟩)
        (fun _ => hconn) ?_ ?_ <;>
        simp [hpc, htun]
    | some c =>
      refine h.move (fun _ hc => mem_cons_of_mem _ hc) (fun _ hc => .inl hc)
        (fun hc => ⟨hc, ?_⟩) (fun _ => hconn) ?_ ?_ <;>
        simp [hpc, htun]
  case testing t left =>
    cases hs
    have hconn : s.connected = false := h.not_connected (by simp [hpc])
    have htun : s.tun = some t := h.building t (by simp [hpc])
    refine (h.ping htun none).move (fun _ hc => hc) (fun _ hc => .inl hc) (fun hc => ⟨hc, ?_⟩)
      (fun _ => hconn) ?_ ?_ <;>
      split_ifs <;>
      simp [Client.ping, hpc, htun]
  case firstPing t =>
    cases hs
    exact h.firstPing hpc ok
  case starting t =>
    cases hs
    exact h.starting hpc

theorem Safe.onAbort (hs : s.onAbort = some s') : s'.Safe := by
  have hidle : s.pc.isStarting = false → Safe { s with pc := .idle } := by
    intro hstarting
    refine h.move (fun _ hc => hc) (fun _ hc => .inl hc) (fun hc => ⟨hc, ?_⟩) ?_ ?_ ?_
    · exact fun htrue => nomatch hstarting.symm.trans htrue
    all_goals simp
  unfold Client.onAbort at hs
  cases hpc : s.pc <;> simp only [hpc, some.injEq, reduceCtorEq] at hs
  all_goals
    subst hs
    exact hidle (by simp [hpc])

section

variable (hg : s.goroutines[i]? = some g)
include hg

/-- A goroutine stops, retries, or goes on to ping for a tunnel that is not
cleared. -/
theorem Safe.onSelect (hs : s.onSelect i g = some s') : s'.Safe := by
  unfold Client.onSelect at hs
  split_ifs at hs with hat hstop
  · cases hs
    exact h.setGoroutine hg (by simp [Goroutine.Alive, hat.2]) (.inr rfl)
  · cases hs
    have halive : g.Alive := by simp [Goroutine.Alive, hat.2]
    exact h.setGoroutine hg halive (.inl (h.not_cleared hg halive (.inl hat.1)))

theorem Safe.onTick (hopen : g.stopChan ∉ s.closedChans) (hs : s.onTick i g = some s') :
    s'.Safe := by
  unfold Client.onTick at hs
  split_ifs at hs with hat
  cases hs
  have halive : g.Alive := by simp [Goroutine.Alive, hat.2]
  refine h.setGoroutine hg halive (.inl ?_)
  intro hc
  exact hopen ((h.accounted g (mem_of_getElem? hg) halive).stopping hc).2.2

theorem Safe.onStop (hs : s.onStop i g = some s') : s'.Safe := by
  unfold Client.onStop at hs
  split_ifs at hs with hat
  cases hs
  exact h.setGoroutine hg (by simp [Goroutine.Alive, hat.2.1]) (.inr rfl)

/-- An attempt of a goroutine is for the current tunnel. -/
theorem Safe.onAttempt (hs : s.onAttempt i ok g = some s') : s'.Safe := by
  unfold Client.onAttempt at hs
  cases hphase : g.phase with
  | select | returned => simp [hphase] at hs
  | armed left =>
    simp only [hphase] at hs
    cases hs
    have halive : g.Alive := by simp [Goroutine.Alive, hphase]
    have hun : g.tunnel ∉ s.cleared := h.not_cleared hg halive (.inr (by simp [hphase]))
    have htun := (h.accounted g (mem_of_getElem? hg) halive).current hun
    have hping := h.ping htun (some g.pinger)
    unfold Goroutine.afterAttempt
    split
    · exact hping.setGoroutine hg halive (.inl hun)
    · exact hping.setGoroutine hg halive (.inl hun)
    · exact hping.setGoroutine hg halive (.inl hun)
    · split <;> exact hping.setGoroutine hg halive (.inl hun)

end

/-- **One step** that meets the condition keeps the invariant. -/
theorem Safe.step {e : Event} (hrests : s.RestsWhenCleared e) (hs : s.step e = some s') :
    s'.Safe := by
  cases e with
  | message m => exact h.onMessage hs
  | handler ok => exact h.onHandler hrests hs
  | abort => exact h.onAbort hs
  | select i =>
    obtain ⟨g, hg, hs⟩ := bind_eq_some_iff.mp hs
    exact h.onSelect hg hs
  | tick i =>
    obtain ⟨g, hg, hs⟩ := bind_eq_some_iff.mp hs
    exact h.onTick hg (hrests g hg) hs
  | stop i =>
    obtain ⟨g, hg, hs⟩ := bind_eq_some_iff.mp hs
    exact h.onStop hg hs
  | attempt i ok =>
    obtain ⟨g, hg, hs⟩ := bind_eq_some_iff.mp hs
    exact h.onAttempt hg hs

omit h

/-- **No ping after the clearing of its tunnel.**  In every run whose steps all
meet the condition, every ping was issued before its tunnel was cleared, and in
netstack mode it ran on the netstack of that tunnel. -/
theorem no_ping_after_clear {native : Bool} {es : List Event}
    (hmeets : Runs.Meets step RestsWhenCleared (fresh native) es)
    (hrun : Runs.run step (fresh native) es = some s) :
    ∀ a ∈ s.attempts, a.cleared = false ∧
      (s.useNativeMainInterface = false → a.tnet = some a.tunnel) := by
  have hsafe : s.Safe := Runs.run_invariant (fun h hrests hs => h.step hrests hs)
    (safe_fresh native) hmeets hrun
  exact hsafe.attempts

/-- A connect message whose pings succeed or fail as given. -/
def connects (retried : Bool) : List Event :=
  [.message .connect, .handler true, .handler true, .handler true, .handler (!retried),
   .handler true]

/-- `closeWgTunnel` for a message, without interruption. -/
def closes (m : Message) : List Event :=
  [.message m, .handler true, .handler true, .handler true]

/-- A tunnel whose first pings succeed is closed between two ticks, and the
ping check stops. -/
theorem closed_between_ticks :
    ∃ s, Runs.run step (fresh false)
        (connects false ++ [.tick 0, .attempt 0 true] ++ closes .reconnect ++ [.stop 0]) = some s ∧
      s.cleared = [0] ∧ s.attempts.length = 3 ∧
      ∀ a ∈ s.attempts, a.cleared = false ∧
        (s.useNativeMainInterface = false → a.tnet = some a.tunnel) := by
  have hmeets : Runs.Meets step RestsWhenCleared (fresh false)
      (connects false ++ [.tick 0, .attempt 0 true] ++ closes .reconnect ++ [.stop 0]) := by
    decide
  exact ⟨_, rfl, rfl, rfl, no_ping_after_clear hmeets rfl⟩

/-- **Pings on a nil netstack.**  The first ping of a tunnel fails, so a
goroutine retries; a reconnect message closes the tunnel; the goroutine's next
attempt is for the cleared tunnel and finds no netstack.  The second attempt of
a periodic check does the same when the tunnel is closed after the first. -/
theorem retry_pings_cleared_tunnel :
    (∃ s, Runs.run step (fresh false)
        (connects true ++ closes .reconnect ++ [.select 0, .attempt 0 false]) = some s ∧
      ∃ a ∈ s.attempts, a.pinger = some .pingWithRetry ∧ a.cleared = true ∧ a.tnet = none) ∧
    (∃ s, Runs.run step (fresh false)
        (connects false ++ [.tick 0, .attempt 0 false] ++ closes .terminate ++
          [.attempt 0 false]) = some s ∧
      ∃ a ∈ s.attempts, a.pinger = some .startPingCheck ∧ a.cleared = true ∧ a.tnet = none) :=
  ⟨⟨_, rfl, by decide⟩, ⟨_, rfl, by decide⟩⟩

end Client

end Newt.PingTunnel
