import Newt.ChainSafety
import Newt.Lib.Tasks

/-!
# Periodic senders and their stop functions

`newt/ping/request` and `newt/wg/register` are repeated by a goroutine that
`SendMessageInterval` starts, until its stop function is called or 16 attempts were made.
`n.stopFunc` holds the stop function of the sender that was started last.  The handlers of
`newt/wg/reconnect`, `newt/wg/terminate`, `newt/ping/exitNodes` and `newt/wg/connect`, the
callback of the websocket client and the recovery of the ping check use the field without
a lock, and the recovery overwrites it without calling it.

Each access to a shared field is a step.  The handlers run one after the other on the read
pump; the callback and the ping checks are goroutines of their own.  The stop function
closes a channel, so that the second call of it panics, and so does the call of a nil stop
function.

The tunnel, the clients and the registrations of the old kind, which are sent once, have
no part in this and are left out.
-/

namespace Newt.Senders

open List Option Runs

open Chains (ChainIds Response)

/-- The goroutine of `SendMessageInterval`, and how often its stop function was called. -/
structure Sender where
  count : Nat := 0
  returned : Bool := false
  stops : Nat := 0
deriving DecidableEq, Repr

/-- Not stopped and not timed out.  A sender that was stopped returns when it next comes
to its select. -/
def Sender.running (x : Sender) : Bool :=
  x.stops == 0 && !x.returned

def maxAttempts : Nat := 16

/-- The places of the functions that use `n.stopFunc`. -/
inductive PC
  /-- `n.connected = false`. -/
  | disconnect
  /-- `if !n.connected`. -/
  | checkConnected
  /-- `if n.stopFunc != nil`. -/
  | test
  /-- `n.stopFunc()`. -/
  | call
  /-- `n.stopFunc = nil`. -/
  | clear
  | parse
  | checkChain
  /-- The chain ID was right, the pending one is about to be cleared. -/
  | consume
  /-- The exit nodes are pinged, if there are any. -/
  | nodes
  /-- A chain ID is generated and stored. -/
  | pend
  /-- `SendMessageInterval`. -/
  | start
  /-- `SendMessageInterval` has returned the stop function of a sender. -/
  | assign (k : Nat)
  /-- The tunnel is built. -/
  | build
  | returned
deriving DecidableEq, Repr

/-- The handlers, the callback and the recovery of a ping check. -/
inductive Task
  | reconnect (pc : PC)
  | terminate (pc : PC)
  | exitNodes (m : Response) (pc : PC)
  | handleConnect (m : Response) (pc : PC)
  | onConnect (pc : PC)
  | startPingCheck (pc : PC)
deriving DecidableEq, Repr

def Task.pc : Task → PC
  | .reconnect pc | .terminate pc | .exitNodes _ pc | .handleConnect _ pc | .onConnect pc
  | .startPingCheck pc => pc

def Task.active (t : Task) : Bool :=
  t.pc != .returned

/-- It runs on the read pump. -/
def Task.isHandler : Task → Bool
  | .onConnect _ | .startPingCheck _ => false
  | _ => true

/-- The shared fields; a stop function is the place of its sender in `senders`. -/
structure Sys where
  stopFunc : Option Nat := none
  connected : Bool := false
  pendingPingChainId : String := ""
  pendingRegisterChainId : String := ""
  next : Nat := 0
  senders : List Sender := []
  tasks : List Task := []
  panicked : Bool := false
deriving DecidableEq, Repr

inductive Event
  | reconnect
  | terminate
  | exitNodes (m : Response)
  | connect (m : Response)
  /-- The websocket client has connected. -/
  | onConnect
  /-- A ping check has lost the connection. -/
  | recover
  /-- The next step of a task, with the outcome of what it tries. -/
  | go (i : Nat) (ok : Bool)
  /-- An attempt of a sender, which may count. -/
  | tick (k : Nat) (sent : Bool)
  /-- A sender finds its channel closed. -/
  | stopped (k : Nat)
deriving DecidableEq, Repr

namespace Sys

/-- `close(stopChan)`. -/
def invoke (s : Sys) (k : Nat) : Sys :=
  { s with
    senders := s.senders.modify k (fun x => { x with stops := x.stops + 1 })
    panicked := s.senders[k]?.any (fun x => x.stops != 0) }

/-- `if n.stopFunc != nil`. -/
def test (s : Sys) (after : PC) : Sys × PC :=
  (s, if s.stopFunc.isSome then .call else after)

/-- `n.stopFunc()`. -/
def call (s : Sys) (after : PC) : Sys × PC :=
  match s.stopFunc with
  | none => ({ s with panicked := true }, .call)
  | some k => (s.invoke k, after)

/-- The pending chain ID is compared if the answer has one. -/
def checkChain (s : Sys) (m : Response) (pending : String) (after : PC) : Sys × PC :=
  (s, if m.chainId = "" then after else if m.chainId = pending then .consume else .returned)

def pendPing (ids : ChainIds) (s : Sys) : Sys :=
  { s with pendingPingChainId := ids.gen s.next, next := s.next + 1 }

def pendRegister (ids : ChainIds) (s : Sys) : Sys :=
  { s with pendingRegisterChainId := ids.gen s.next, next := s.next + 1 }

def sendMessageInterval (s : Sys) : Sys × PC :=
  ({ s with senders := s.senders ++ [{}] }, .assign s.senders.length)

def reconnect (ids : ChainIds) (s : Sys) : PC → Option (Sys × PC)
  | .disconnect => some ({ s with connected := false }, .test)
  | .test => some (s.test .pend)
  | .call => some (s.call .clear)
  | .clear => some ({ s with stopFunc := none }, .pend)
  | .pend => some (s.pendPing ids, .start)
  | .start => some s.sendMessageInterval
  | .assign k => some ({ s with stopFunc := some k }, .returned)
  | _ => none

def terminate (s : Sys) : PC → Option (Sys × PC)
  | .test => some (s.test .disconnect)
  | .call => some (s.call .clear)
  | .clear => some ({ s with stopFunc := none }, .disconnect)
  | .disconnect => some ({ s with connected := false }, .returned)
  | _ => none

def exitNodes (ids : ChainIds) (s : Sys) (m : Response) (ok : Bool) : PC → Option (Sys × PC)
  | .test => some (s.test .parse)
  | .call => some (s.call .clear)
  | .clear => some ({ s with stopFunc := none }, .parse)
  | .parse => some (s, if ok then .checkChain else .returned)
  | .checkChain => some (s.checkChain m s.pendingPingChainId .nodes)
  | .consume => some ({ s with pendingPingChainId := "" }, .nodes)
  | .nodes => some (s, if m.hasNodes then .pend else .returned)
  | .pend => some (s.pendRegister ids, .start)
  | .start => some s.sendMessageInterval
  | .assign k => some ({ s with stopFunc := some k }, .returned)
  | _ => none

def handleConnect (s : Sys) (m : Response) (ok : Bool) : PC → Option (Sys × PC)
  | .checkChain => some (s.checkChain m s.pendingRegisterChainId .test)
  | .consume => some ({ s with pendingRegisterChainId := "" }, .test)
  | .test => some (s.test .disconnect)
  | .call => some (s.call .clear)
  | .clear => some ({ s with stopFunc := none }, .disconnect)
  | .disconnect => some ({ s with connected := false }, .build)
  | .build => some (if ok then { s with connected := true } else s, .returned)
  | _ => none

/-- The stop function is called and stays in the field until the next one is stored. -/
def onConnect (ids : ChainIds) (s : Sys) : PC → Option (Sys × PC)
  | .checkConnected => some (s, if s.connected then .returned else .test)
  | .test => some (s.test .pend)
  | .call => some (s.call .pend)
  | .pend => some (s.pendPing ids, .start)
  | .start => some s.sendMessageInterval
  | .assign k => some ({ s with stopFunc := some k }, .returned)
  | _ => none

/-- The stop function is overwritten without a call. -/
def startPingCheck (ids : ChainIds) (s : Sys) : PC → Option (Sys × PC)
  | .pend => some (s.pendPing ids, .start)
  | .start => some s.sendMessageInterval
  | .assign k => some ({ s with stopFunc := some k }, .returned)
  | _ => none

/-- The next step of a task. -/
def move (ids : ChainIds) (s : Sys) (ok : Bool) : Task → Option (Sys × Task)
  | .reconnect pc => (s.reconnect ids pc).map (fun r => (r.1, .reconnect r.2))
  | .terminate pc => (s.terminate pc).map (fun r => (r.1, .terminate r.2))
  | .exitNodes m pc => (s.exitNodes ids m ok pc).map (fun r => (r.1, .exitNodes m r.2))
  | .handleConnect m pc => (s.handleConnect m ok pc).map (fun r => (r.1, .handleConnect m r.2))
  | .onConnect pc => (s.onConnect ids pc).map (fun r => (r.1, .onConnect r.2))
  | .startPingCheck pc => (s.startPingCheck ids pc).map (fun r => (r.1, .startPingCheck r.2))

def go (ids : ChainIds) (s : Sys) (i : Nat) (ok : Bool) : Option Sys :=
  match s.tasks[i]? with
  | none => none
  | some t =>
    match s.move ids ok t with
    | none => none
    | some (s', t') => some { s' with tasks := s.tasks.set i t' }

def begin (s : Sys) (t : Task) : Sys :=
  { s with tasks := s.tasks ++ [t] }

/-- The read pump calls a handler when the one before has returned. -/
def receive (s : Sys) (t : Task) : Option Sys :=
  if s.tasks.any (fun x => x.isHandler && x.active) then none else some (s.begin t)

def setSender (s : Sys) (k : Nat) (f : Sender → Option Sender) : Option Sys :=
  match s.senders[k]? with
  | none => none
  | some x => (f x).map (fun x' => { s with senders := s.senders.set k x' })

/-- An attempt counts if the message was sent on a connected client. -/
def tick (sent : Bool) (x : Sender) : Option Sender :=
  if x.returned then none
  else if maxAttempts ≤ x.count then some { x with returned := true }
  else some { x with count := x.count + sent.toNat }

def stopped (x : Sender) : Option Sender :=
  if x.returned || x.stops == 0 then none else some { x with returned := true }

def step (ids : ChainIds) (s : Sys) (e : Event) : Option Sys :=
  if s.panicked then none
  else
    match e with
    | .reconnect => s.receive (.reconnect .disconnect)
    | .terminate => s.receive (.terminate .test)
    | .exitNodes m => s.receive (.exitNodes m .test)
    | .connect m => s.receive (.handleConnect m .checkChain)
    | .onConnect => some (s.begin (.onConnect .checkConnected))
    | .recover => some (s.begin (.startPingCheck .pend))
    | .go i ok => s.go ids i ok
    | .tick k sent => s.setSender k (tick sent)
    | .stopped k => s.setSender k stopped

/-! ## The invariant -/

/-- The sender is running. -/
def IsRunning (s : Sys) (k : Nat) : Prop :=
  ∃ x, s.senders[k]? = some x ∧ x.running = true
  deriving Decidable

/-- The stop function was not called. -/
def Unstopped (s : Sys) (k : Nat) : Prop :=
  ∃ x, s.senders[k]? = some x ∧ x.stops = 0

/-- A task is about to store the stop function of a sender. -/
def Stores (s : Sys) (k : Nat) : Prop :=
  ∃ t ∈ s.tasks, t.pc = .assign k

/-- The senders and the field. -/
structure SingleSender (s : Sys) : Prop where
  one : ∀ i j, s.IsRunning i → s.IsRunning j → i = j
  /-- The one that is running is the one that `n.stopFunc` stops, once its stop function
  is stored. -/
  owned : ∀ k, s.IsRunning k → s.stopFunc = some k ∨ s.Stores k
  once : ∀ x ∈ s.senders, x.stops ≤ 1
  alive : s.panicked = false

/-- A handler, a callback or a recovery begins only when no other is in progress, and a
recovery only when no sender is running. -/
def InTurn (s : Sys) : Event → Prop
  | .recover => (∀ t ∈ s.tasks, t.active = false) ∧ ∀ x ∈ s.senders, x.running = false
  | .go _ _ | .tick _ _ | .stopped _ => True
  | _ => ∀ t ∈ s.tasks, t.active = false

instance (s : Sys) (e : Event) : Decidable (s.InTurn e) := by
  unfold InTurn
  split <;> infer_instance

/-- What a task knows where it is. -/
inductive Place
  /-- Only the sender of the field may be running, and it was not stopped. -/
  | rest
  /-- There is one. -/
  | calling
  /-- No sender is running. -/
  | silent
  /-- Both `rest` and `silent`. -/
  | quiet
  /-- Only the sender that was just started may be running. -/
  | stored (k : Nat)

end Sys

def PC.place : PC → Option Sys.Place
  | .disconnect | .checkConnected | .test => some .rest
  | .call => some .calling
  | .clear => some .silent
  | .parse => some .quiet
  | .checkChain | .consume => some .rest
  | .nodes => some .quiet
  | .pend | .start => some .silent
  | .assign k => some (.stored k)
  | .build => some .rest
  | .returned => none

/-- In `exitNodes` the chain ID is compared after the stop function was called. -/
def Task.place : Task → Option Sys.Place
  | .exitNodes _ .checkChain | .exitNodes _ .consume => some .quiet
  | t => t.pc.place

/-- A task that has returned leaves the field as the others expect it. -/
def Task.known (t : Task) : Sys.Place :=
  t.place.getD .rest

namespace Sys

def Rest (s : Sys) : Prop :=
  (∀ k, s.IsRunning k → s.stopFunc = some k) ∧ ∀ k, s.stopFunc = some k → s.Unstopped k

def Silent (s : Sys) : Prop :=
  ∀ k, ¬ s.IsRunning k

def Holds (s : Sys) : Place → Prop
  | .rest => s.Rest
  | .calling => s.Rest ∧ s.stopFunc.isSome = true
  | .silent => s.Silent
  | .quiet => s.Rest ∧ s.Silent
  | .stored k => (∀ j, s.IsRunning j → j = k) ∧ s.Unstopped k

/-- The part of the invariant that is not about the tasks. -/
structure Good (s : Sys) (place : Place) : Prop where
  once : ∀ x ∈ s.senders, x.stops ≤ 1
  alive : s.panicked = false
  holds : s.Holds place

variable {ids : ChainIds} {s s' : Sys} {k : Nat} {place : Place} {pc pc' : PC} {ok : Bool}

/-- Fewer senders may be running, and no more stop functions may have been called. -/
theorem Holds.mono (h : s.Holds place) (hstop : s'.stopFunc = s.stopFunc)
    (hruns : ∀ k, s'.IsRunning k → s.IsRunning k)
    (hunstopped : ∀ k, s.Unstopped k → s'.Unstopped k) : s'.Holds place := by
  have hrest : s.Rest → s'.Rest := by
    rintro ⟨hfield, hlive⟩
    unfold Rest
    rw [hstop]
    exact ⟨fun k hk => hfield k (hruns k hk), fun k hk => hunstopped k (hlive k hk)⟩
  have hsilent : s.Silent → s'.Silent := fun hs k hk => hs k (hruns k hk)
  cases place with
  | rest => exact hrest h
  | calling => exact ⟨hrest h.1, hstop ▸ h.2⟩
  | silent => exact hsilent h
  | quiet => exact ⟨hrest h.1, hsilent h.2⟩
  | stored k => exact ⟨fun j hj => h.1 j (hruns j hj), hunstopped k h.2⟩

/-- The other fields do not matter. -/
theorem Good.congr (h : s.Good place) (hstop : s'.stopFunc = s.stopFunc)
    (hsenders : s'.senders = s.senders) (halive : s'.panicked = s.panicked) :
    s'.Good place := by
  refine ⟨hsenders ▸ h.once, halive.trans h.alive, h.holds.mono hstop ?_ ?_⟩
  · unfold IsRunning
    rw [hsenders]
    exact fun _ => id
  · unfold Unstopped
    rw [hsenders]
    exact fun _ => id

/-- Without a stop function nothing is running, -/
theorem silent_of_rest (h : s.Rest) (hnone : s.stopFunc = none) : s.Silent := by
  intro k hk
  rw [h.1 k hk] at hnone
  cases hnone

/-- and the field is then as it should be. -/
theorem rest_of_silent (h : s.Silent) (hnone : s.stopFunc = none) : s.Rest := by
  refine ⟨fun k hk => absurd hk (h k), fun k hk => ?_⟩
  rw [hk] at hnone
  cases hnone

/-! ## The statements the functions share -/

/-- The two halves of `quiet`. -/
theorem Good.silent (h : s.Good .quiet) : s.Good .silent :=
  ⟨h.once, h.alive, h.holds.2⟩

/-- The other half. -/
theorem Good.rest (h : s.Good .quiet) : s.Good .rest :=
  ⟨h.once, h.alive, h.holds.1⟩

/-- The test of the field.  If it is nil, no sender is running. -/
theorem Good.test (h : s.Good .rest) {after : PC} (task : PC → Task)
    (hcall : (task .call).known = .calling)
    (hafter : s.Good .quiet → s.Good (task after).known) :
    (s.test after).1.Good (task (s.test after).2).known := by
  unfold Sys.test
  split
  · next hsome =>
    rw [hcall]
    exact ⟨h.once, h.alive, h.holds, hsome⟩
  · next hnone =>
    have hsilent := silent_of_rest h.holds (not_isSome_iff_eq_none.mp hnone)
    exact hafter ⟨h.once, h.alive, h.holds, hsilent⟩

/-- A call changes the count of its sender only. -/
theorem getElem?_invoke {j : Nat} {x : Sender} (h : (s.invoke k).senders[j]? = some x) :
    j ≠ k ∧ s.senders[j]? = some x ∨
      j = k ∧ ∃ y, s.senders[k]? = some y ∧ x = { y with stops := y.stops + 1 } := by
  unfold invoke at h
  rw [getElem?_modify] at h
  obtain ⟨y, hy, hx⟩ := map_eq_some_iff.mp h
  by_cases hkj : k = j
  · rw [if_pos hkj] at hx
    subst hkj
    exact .inr ⟨rfl, y, hy, hx.symm⟩
  · rw [if_neg hkj] at hx
    subst hx
    exact .inl ⟨Ne.symm hkj, hy⟩

open Sender

/-- The call of the stop function: it is the first one, and no sender is running after
it. -/
theorem Good.call (h : s.Good .calling) {after : PC} (task : PC → Task)
    (hafter : (task after).known = .silent) (hr : some (s.call after) = some (s', pc')) :
    s'.Good (task pc').known := by
  obtain ⟨hrest, hsome⟩ := h.holds
  obtain ⟨k, hk⟩ := isSome_iff_exists.mp hsome
  obtain ⟨y, hy, hzero⟩ := hrest.2 k hk
  unfold Sys.call at hr
  rw [hk] at hr
  cases hr
  rw [hafter]
  refine ⟨?_, ?_, ?_⟩
  · intro x hx
    obtain ⟨j, hj⟩ := mem_iff_getElem?.mp hx
    rcases getElem?_invoke hj with ⟨-, hold⟩ | ⟨-, y', hy', rfl⟩
    · exact h.once x (mem_of_getElem? hold)
    · obtain rfl := some.inj (hy.symm.trans hy')
      show y.stops + 1 ≤ 1
      omega
  · unfold invoke
    rw [hy, any_some, hzero]
    rfl
  · intro j hj
    obtain ⟨x, hx, hrunning⟩ := hj
    rcases getElem?_invoke hx with ⟨hne, hold⟩ | ⟨-, y', -, rfl⟩
    · have hfield := hrest.1 j ⟨x, hold, hrunning⟩
      exact hne (some.inj (hfield.symm.trans hk))
    · simp [running] at hrunning

/-- The field is cleared after the call. -/
theorem Good.clear (h : s.Good .silent) :
    Good { s with stopFunc := none } .quiet :=
  ⟨h.once, h.alive, rest_of_silent h.holds rfl, h.holds⟩

/-- The sender that is started is the only one. -/
theorem Good.start (h : s.Good .silent) :
    s.sendMessageInterval.1.Good (.stored s.senders.length) := by
  have hlast : (s.senders ++ [({} : Sender)])[s.senders.length]? = some {} := by simp
  refine ⟨?_, h.alive, ?_, ⟨{}, hlast, rfl⟩⟩
  · exact forall_mem_concat h.once (Nat.zero_le 1)
  · intro j hj
    obtain ⟨x, hx, hrunning⟩ := hj
    have hle : j < (s.senders ++ [({} : Sender)]).length := (List.getElem?_eq_some_iff.mp hx).1
    rw [length_append, length_singleton] at hle
    refine Nat.le_antisymm (Nat.lt_succ_iff.mp hle) (Nat.le_of_not_lt fun hlt => ?_)
    exact h.holds j ⟨x, (getElem?_append_left hlt).symm.trans hx, hrunning⟩

/-- Its stop function is stored. -/
theorem Good.assign (h : s.Good (.stored k)) :
    Good { s with stopFunc := some k } .rest := by
  refine ⟨h.once, h.alive, ?_, ?_⟩
  · intro j hj
    rw [h.holds.1 j hj]
  · intro j hj
    rw [← some.inj hj]
    exact h.holds.2

/-! ## The functions -/

/-- A recovery starts a sender without a call. -/
theorem Good.startPingCheck (h : s.Good (Task.startPingCheck pc).known) (ids : ChainIds)
    (hr : s.startPingCheck ids pc = some (s', pc')) :
    s'.Good (Task.startPingCheck pc').known := by
  cases pc with
  | pend =>
    cases hr
    exact h.congr rfl rfl rfl
  | start =>
    cases hr
    exact h.start
  | assign k =>
    cases hr
    exact h.assign
  | _ => cases hr

/-- A reconnect message. -/
theorem Good.reconnect (h : s.Good (Task.reconnect pc).known)
    (hr : s.reconnect ids pc = some (s', pc')) : s'.Good (Task.reconnect pc').known := by
  cases pc with
  | disconnect =>
    cases hr
    exact h.congr rfl rfl rfl
  | test =>
    cases hr
    exact h.test Task.reconnect rfl Good.silent
  | call => exact h.call Task.reconnect rfl hr
  | clear =>
    cases hr
    exact h.clear.silent
  | pend | start | assign k => exact h.startPingCheck ids hr
  | _ => cases hr

/-- A terminate message leaves no sender. -/
theorem Good.terminate (h : s.Good (Task.terminate pc).known)
    (hr : s.terminate pc = some (s', pc')) : s'.Good (Task.terminate pc').known := by
  cases pc with
  | test =>
    cases hr
    exact h.test Task.terminate rfl Good.rest
  | call => exact h.call Task.terminate rfl hr
  | clear =>
    cases hr
    exact h.clear.rest
  | disconnect =>
    cases hr
    exact h.congr rfl rfl rfl
  | _ => cases hr

/-- A message that cannot be parsed, that has the wrong chain ID or that lists no node
leaves no sender running. -/
theorem Good.exitNodes {m : Response} (h : s.Good (Task.exitNodes m pc).known)
    (hr : s.exitNodes ids m ok pc = some (s', pc')) : s'.Good (Task.exitNodes m pc').known := by
  cases pc with
  | test =>
    cases hr
    exact h.test (Task.exitNodes m) rfl id
  | call => exact h.call (Task.exitNodes m) rfl hr
  | clear =>
    cases hr
    exact h.clear
  | parse =>
    cases hr
    split
    · exact h
    · exact h.rest
  | checkChain =>
    cases hr
    split_ifs
    · exact h
    · exact h
    · exact h.rest
  | consume | pend =>
    cases hr
    exact h.congr rfl rfl rfl
  | nodes =>
    cases hr
    split
    · exact h.silent
    · exact h.rest
  | start =>
    cases hr
    exact h.start
  | assign k =>
    cases hr
    exact h.assign
  | _ => cases hr

/-- A connect message. -/
theorem Good.handleConnect {m : Response} (h : s.Good (Task.handleConnect m pc).known)
    (hr : s.handleConnect m ok pc = some (s', pc')) :
    s'.Good (Task.handleConnect m pc').known := by
  cases pc with
  | checkChain =>
    cases hr
    split_ifs <;> exact h
  | consume | disconnect =>
    cases hr
    exact h.congr rfl rfl rfl
  | test =>
    cases hr
    exact h.test (Task.handleConnect m) rfl Good.rest
  | call => exact h.call (Task.handleConnect m) rfl hr
  | clear =>
    cases hr
    exact h.clear.rest
  | build =>
    cases hr
    split
    · exact h.congr rfl rfl rfl
    · exact h
  | _ => cases hr

/-- The callback calls the stop function and leaves it in the field. -/
theorem Good.onConnect (h : s.Good (Task.onConnect pc).known)
    (hr : s.onConnect ids pc = some (s', pc')) : s'.Good (Task.onConnect pc').known := by
  cases pc with
  | checkConnected =>
    cases hr
    split <;> exact h
  | test =>
    cases hr
    exact h.test Task.onConnect rfl Good.silent
  | call => exact h.call Task.onConnect rfl hr
  | pend | start | assign k => exact h.startPingCheck ids hr
  | _ => cases hr

/-- **Every step of a task** keeps what is known. -/
theorem Good.move {t t' : Task} (h : s.Good t.known)
    (hr : s.move ids ok t = some (s', t')) : s'.Good t'.known := by
  cases t
  all_goals
    obtain ⟨r, hmove, heq⟩ := map_eq_some_iff.mp hr
    cases heq
  case reconnect pc => exact h.reconnect hmove
  case terminate pc => exact h.terminate hmove
  case exitNodes m pc => exact h.exitNodes hmove
  case handleConnect m pc => exact h.handleConnect hmove
  case onConnect pc => exact h.onConnect hmove
  case startPingCheck pc => exact h.startPingCheck ids hmove

/-! ## Runs -/

/-- At most one task is in progress, and the field is as it expects it. -/
def Sound (s : Sys) : Prop :=
  ∃ p : Option Place, s.tasks.filterMap Task.place = p.toList ∧ s.Good (p.getD .rest)

variable {t t' : Task} {e : Event} {i : Nat}

/-- A task that makes a step is in progress. -/
theorem place_of_move (hr : s.move ids ok t = some (s', t')) : t.place = some t.known := by
  cases t with
  | reconnect pc | terminate pc | exitNodes m pc
  | handleConnect m pc | onConnect pc | startPingCheck pc => cases pc <;> first | rfl | cases hr

/-- One that has returned is not. -/
theorem place_of_not_active (h : t.active = false) : t.place = none := by
  have hpc : t.pc = .returned := by
    unfold Task.active at h
    simpa using h
  cases t <;> cases hpc <;> rfl

/-- Where a stop function is about to be stored. -/
theorem pc_of_place (h : t.place = some (.stored k)) : t.pc = .assign k := by
  cases t with
  | reconnect pc | terminate pc | exitNodes m pc | handleConnect m pc
  | onConnect pc | startPingCheck pc => cases pc <;> cases h; rfl

/-- A task begins while none is in progress. -/
theorem Sound.begin (h : s.Sound) (hidle : ∀ x ∈ s.tasks, x.active = false)
    (hplace : t.place = some t.known) (hknown : s.Good .rest → s.Good t.known) :
    (s.begin t).Sound := by
  have hnone : s.tasks.filterMap Task.place = [] := by
    rw [filterMap_eq_nil_iff]
    exact fun x hx => place_of_not_active (hidle x hx)
  obtain ⟨p, hp, hgood⟩ := h
  rw [hnone] at hp
  obtain rfl : p = none := by
    cases p with
    | none => rfl
    | some p => cases hp
  refine ⟨some t.known, ?_, (hknown hgood).congr rfl rfl rfl⟩
  show (s.tasks ++ [t]).filterMap Task.place = _
  rw [filterMap_append, hnone, Tasks.filterMap_cons_toList, hplace]
  rfl

/-- The next step of the task that is in progress. -/
theorem Sound.go (h : s.Sound) (hi : s.tasks[i]? = some t)
    (hr : s.move ids ok t = some (s', t')) :
    Sound { s' with tasks := s.tasks.set i t' } := by
  obtain ⟨p, hp, hgood⟩ := h
  have hplace := place_of_move hr
  have hmem : t.known ∈ s.tasks.filterMap Task.place :=
    mem_filterMap.mpr ⟨t, mem_of_getElem? hi, hplace⟩
  rw [hp] at hmem
  obtain rfl : p = some t.known := mem_toList.mp hmem
  refine ⟨t'.place, ?_, (hgood.move hr).congr rfl rfl rfl⟩
  exact Tasks.filterMap_set_of_singleton Task.place hp hi hplace

/-- A sender goes on or returns. -/
theorem Good.setSender (h : s.Good place) {x x' : Sender} (hk : s.senders[k]? = some x)
    (hstops : x'.stops = x.stops) (hrunning : x'.running = true → x.running = true) :
    Good { s with senders := s.senders.set k x' } place := by
  have hruns : ∀ j, IsRunning { s with senders := s.senders.set k x' } j → s.IsRunning j := by
    rintro j ⟨y, hy, hyrun⟩
    rw [getElem?_set] at hy
    split at hy
    · next hkj =>
      subst hkj
      split at hy <;> cases hy
      exact ⟨x, hk, hrunning hyrun⟩
    · exact ⟨y, hy, hyrun⟩
  have hunstopped : ∀ j, s.Unstopped j →
      Unstopped { s with senders := s.senders.set k x' } j := by
    rintro j ⟨y, hy, hzero⟩
    by_cases hkj : k = j
    · subst hkj
      obtain rfl := some.inj (hk.symm.trans hy)
      exact ⟨x', List.getElem?_set_self (List.getElem?_eq_some_iff.mp hk).1, hstops.trans hzero⟩
    · exact ⟨y, (List.getElem?_set_ne hkj).trans hy, hzero⟩
  refine ⟨?_, h.alive, h.holds.mono rfl hruns hunstopped⟩
  exact Tasks.forall_mem_set h.once (hstops ▸ h.once x (mem_of_getElem? hk))

/-- A step of a sender. -/
theorem Sound.setSender (h : s.Sound) {f : Sender → Option Sender}
    (hf : ∀ x x', f x = some x' → x'.stops = x.stops ∧ (x'.running = true → x.running = true))
    (hs : s.setSender k f = some s') : s'.Sound := by
  unfold Sys.setSender at hs
  split at hs
  · cases hs
  · next x hk =>
    obtain ⟨x', hx', rfl⟩ := map_eq_some_iff.mp hs
    obtain ⟨p, hp, hgood⟩ := h
    obtain ⟨hstops, hrunning⟩ := hf x x' hx'
    exact ⟨p, hp, hgood.setSender hk hstops hrunning⟩

/-- An attempt does not start a sender, -/
theorem tick_keeps {sent : Bool} (x x' : Sender) (h : tick sent x = some x') :
    x'.stops = x.stops ∧ (x'.running = true → x.running = true) := by
  unfold tick at h
  split at h
  · cases h
  · split at h
    · cases h
      exact ⟨rfl, fun hrun => by simp [running] at hrun⟩
    · cases h
      exact ⟨rfl, id⟩

/-- nor does its end. -/
theorem stopped_keeps (x x' : Sender) (h : stopped x = some x') :
    x'.stops = x.stops ∧ (x'.running = true → x.running = true) := by
  unfold stopped at h
  split at h <;> cases h
  exact ⟨rfl, fun hrun => by simp [running] at hrun⟩

/-- A handler begins. -/
theorem Sound.receive (h : s.Sound) (hidle : ∀ x ∈ s.tasks, x.active = false)
    (hplace : t.place = some .rest) (hs : s.receive t = some s') : s'.Sound := by
  have hknown : t.known = .rest := by
    unfold Task.known
    rw [hplace]
    rfl
  unfold Sys.receive at hs
  split at hs <;> cases hs
  refine h.begin hidle ?_ ?_
  · rw [hknown, hplace]
  · rw [hknown]
    exact id

/-- **Every step keeps the invariant.** -/
theorem Sound.step (h : s.Sound) (he : s.InTurn e) (hs : s.step ids e = some s') :
    s'.Sound := by
  unfold Sys.step at hs
  split at hs
  · cases hs
  · cases e with
    | reconnect | terminate | exitNodes m | connect m => exact h.receive he rfl hs
    | onConnect =>
      cases hs
      exact h.begin he rfl id
    | recover =>
      cases hs
      refine h.begin he.1 rfl fun hgood => ⟨hgood.once, hgood.alive, ?_⟩
      rintro k ⟨x, hx, hrunning⟩
      rw [he.2 x (mem_of_getElem? hx)] at hrunning
      cases hrunning
    | go i ok =>
      unfold Sys.go at hs
      dsimp only at hs
      split at hs
      · cases hs
      · next t hi =>
        split at hs
        · cases hs
        · next u t' hr =>
          cases hs
          exact h.go hi hr
    | tick k sent => exact h.setSender tick_keeps hs
    | stopped k => exact h.setSender stopped_keeps hs

/-- The invariant says what is to be shown. -/
theorem Sound.singleSender (h : s.Sound) : s.SingleSender := by
  obtain ⟨p, hp, hgood⟩ := h
  -- Where the field is as at rest it holds the stop function of the sender that runs.
  have hrest : s.Rest → s.SingleSender := fun hrest =>
    ⟨fun i j hi hj => some.inj ((hrest.1 i hi).symm.trans (hrest.1 j hj)),
      fun k hk => .inl (hrest.1 k hk), hgood.once, hgood.alive⟩
  have hholds := hgood.holds
  cases p with
  | none => exact hrest hholds
  | some p =>
    cases p with
    | rest => exact hrest hholds
    | calling | quiet => exact hrest hholds.1
    | silent =>
      exact ⟨fun i j hi => absurd hi (hholds i), fun k hk => absurd hk (hholds k),
        hgood.once, hgood.alive⟩
    | stored k =>
      have hmem : .stored k ∈ s.tasks.filterMap Task.place := by
        rw [hp]
        exact mem_singleton_self _
      obtain ⟨t, ht, hplace⟩ := mem_filterMap.mp hmem
      refine ⟨fun i j hi hj => (hholds.1 i hi).trans (hholds.1 j hj).symm, ?_,
        hgood.once, hgood.alive⟩
      intro j hj
      rw [hholds.1 j hj]
      exact .inr ⟨t, ht, pc_of_place hplace⟩

/-- It holds in the beginning. -/
theorem Sound.init : Sound {} := by
  refine ⟨none, rfl, ?_, rfl, ?_, ?_⟩
  · exact fun x hx => absurd hx not_mem_nil
  · rintro k ⟨x, hx, -⟩
    cases hx
  · intro k hk
    cases hk

/-- **One periodic sender**: in every interleaving in which a handler, a callback or a
recovery begins only when no other of them is in progress, and a recovery only when no
sender is running, at most one sender is running, its stop function is the one in
`n.stopFunc` or about to be stored there, no stop function is called twice, and nothing
panics. -/
theorem single_sender (ids : ChainIds) (events : List Event) (s : Sys)
    (hmeets : Runs.Meets (step ids) InTurn {} events)
    (hrun : run (step ids) {} events = some s) : s.SingleSender :=
  Sound.singleSender
    (run_invariant (fun h he hs => Sound.step h he hs) Sound.init hmeets hrun)

/-- A task does some steps, and what it tries succeeds. -/
def steps (i n : Nat) : List Event :=
  replicate n (.go i true)

/-- The client connects, gets its exit nodes and registers. -/
def registering : List Event :=
  [.onConnect] ++ steps 0 5 ++
    [.exitNodes { request := .ping, chainId := "a" }] ++ steps 1 10

/-- The connection is lost before the answer comes, and the client asks for exit nodes
again. -/
def reconnected : List Event :=
  registering ++ [.tick 1 true, .onConnect] ++ steps 2 6 ++ [.stopped 1]

/-- The senders of the first two messages are stopped, and the third is running. -/
theorem single_sender_reconnected :
    Runs.Meets (step Chains.Sys.unaryIds) InTurn {} reconnected ∧
      ∃ s, run (step Chains.Sys.unaryIds) {} reconnected = some s ∧
        s.stopFunc = some 2 ∧ s.senders.map stops = [1, 1, 0] ∧
        s.senders.map running = [false, false, true] ∧ s.SingleSender := by
  have hmeets : Runs.Meets (step Chains.Sys.unaryIds) InTurn {} reconnected := by decide +kernel
  refine ⟨hmeets, ?_⟩
  simp only [← and_assoc]
  refine Exists.imp (fun s h => ⟨h, single_sender _ reconnected s hmeets h.1.1.1⟩) ?_
  simp only [and_assoc]
  decide +kernel

/-- The client is connected when the server asks it to reconnect.  The ping check is in a
ping then, and it finds the connection lost after the handler has returned. -/
def recoveredAfterReconnect : List Event :=
  registering ++ [.connect { request := .register, chainId := "aa" }] ++ steps 2 7 ++
    [.reconnect] ++ steps 3 5 ++ [.recover] ++ steps 4 3

/-- The websocket connection is replaced before the exit nodes come.  The callback has
called the stop function and not yet stored the next one when the handler of
`newt/wg/terminate` calls it again. -/
def terminatedDuringCallback : List Event :=
  [.onConnect] ++ steps 0 5 ++ [.onConnect] ++ steps 1 3 ++ [.terminate] ++ steps 2 2

/-- The recovery leaves a sender running that nothing stops, and a stop function can be
called twice. -/
theorem senders_left_and_stopped_twice :
    (∃ s, run (step Chains.Sys.unaryIds) {} recoveredAfterReconnect = some s ∧
      s.IsRunning 2 ∧ s.IsRunning 3 ∧ s.stopFunc = some 3 ∧ ¬ s.SingleSender) ∧
    ∃ s, run (step Chains.Sys.unaryIds) {} terminatedDuringCallback = some s ∧
      s.senders.map stops = [2] ∧ s.panicked = true ∧ ¬ s.SingleSender := by
  simp only [← and_assoc]
  constructor
  · refine Exists.imp (fun s h => ⟨h, fun hsingle => ?_⟩)
      (by simp only [and_assoc]; decide +kernel)
    cases hsingle.one 2 3 h.1.1.2 h.1.2
  · refine Exists.imp (fun s h => ⟨h, fun hsingle => ?_⟩)
      (by simp only [and_assoc]; decide +kernel)
    cases hsingle.alive.symm.trans h.2

end Sys

end Newt.Senders
