import Newt.Lib.Runs

/-!
# The Docker event monitor

`EventMonitor.Start` leaves a goroutine that takes events and errors from the channels of
its subscription until `Stop` cancels the context.

* `events_handled_until_stop` — without a stream error it runs until `Stop`, and every
  event it is sent is handled once;
* `error_ends_monitor` — after an error it subscribes again and returns, so nobody takes
  the events of the new stream.
-/

namespace Newt.Docker

open List Runs

/-- What is received from `errCh`. -/
inductive StreamError
  | nil
  | canceled
  | other
  deriving DecidableEq, Repr

/-- Where the goroutine is: in the `select`, in the delay after an error, or at its end. -/
inductive PC
  | select
  | sleep
  | returned
  | panicked
  deriving DecidableEq, Repr

/-- The monitor and its current subscription, with what is sent on the two channels and
not received.  An event is the ID of its container; `delivered` are the events of the
streams without those that were left behind on an old one. -/
structure EventMonitor where
  eventCh : List String
  errCh : Option StreamError
  canceled : Bool
  pc : PC
  subscriptions : Nat
  delivered : List String
  handled : List String
  deriving DecidableEq, Repr

def EventMonitor.start : EventMonitor := ⟨[], none, false, .select, 1, [], []⟩

inductive Event
  | send (id : String)
  | fail (err : StreamError)
  | stop
  | event
  | err
  | wake
  | done

def step (em : EventMonitor) : Event → Option EventMonitor
  | .send id =>
    some { em with eventCh := em.eventCh ++ [id], delivered := em.delivered ++ [id] }
  | .fail err => some { em with errCh := some err }
  | .stop => some { em with canceled := true }
  | .event =>
    match em.pc, em.eventCh with
    | .select, id :: rest =>
      -- `event.Actor.ID[:12]` is logged before the event is handled.
      if id.utf8ByteSize < 12 then some { em with eventCh := rest, pc := .panicked }
      else some { em with eventCh := rest, handled := em.handled ++ [id] }
    | _, _ => none
  | .err =>
    match em.pc, em.errCh with
    | .select, some .other => some { em with errCh := none, pc := .sleep }
    | .select, some _ => some { em with errCh := none, pc := .returned }
    | _, _ => none
  | .wake =>
    if em.pc = .sleep then
      if em.canceled then some { em with pc := .returned }
      else
        -- A new subscription, and still the `return` at the end of the case.
        some { em with
               eventCh := []
               errCh := none
               pc := .returned
               subscriptions := em.subscriptions + 1
               delivered := em.handled }
    else none
  | .done => if em.pc = .select ∧ em.canceled then some { em with pc := .returned } else none

/-- The condition: container IDs are not short, and an error is received after `Stop`, or
`Stop` is called in the delay. -/
def Lasting (em : EventMonitor) : Event → Prop
  | .send id => 12 ≤ id.utf8ByteSize
  | .err => em.canceled = true ∨ em.errCh = some .other
  | .wake => em.canceled = true
  | .fail _ | .stop | .event | .done => True

instance (em : EventMonitor) (e : Event) : Decidable (Lasting em e) := by
  unfold Lasting
  split <;> infer_instance

structure Serving (em : EventMonitor) : Prop where
  delivered : em.delivered = em.handled ++ em.eventCh
  ids : ∀ id ∈ em.eventCh, 12 ≤ id.utf8ByteSize
  lasts : em.pc = .select ∨ em.pc = .sleep ∨ em.pc = .returned ∧ em.canceled = true

variable {em em' : EventMonitor}

theorem step_event {id : String} {rest : List String} (hpc : em.pc = .select)
    (hch : em.eventCh = id :: rest) (hid : 12 ≤ id.utf8ByteSize) :
    step em .event = some { em with eventCh := rest, handled := em.handled ++ [id] } := by
  simp only [step, hpc, hch]
  rw [if_neg (Nat.not_lt.mpr hid)]

theorem Serving.step {e : Event} (h : Serving em) (hlasting : Lasting em e)
    (hs : step em e = some em') : Serving em' := by
  cases e with
  | send id =>
    cases hs
    refine ⟨?_, forall_mem_concat h.ids hlasting, h.lasts⟩
    rw [h.delivered, append_assoc]
  | fail err =>
    cases hs
    exact ⟨h.delivered, h.ids, h.lasts⟩
  | stop =>
    cases hs
    exact ⟨h.delivered, h.ids, h.lasts.imp_right (.imp_right (.imp_right fun _ => rfl))⟩
  | event =>
    cases hpc : em.pc with
    | select =>
      cases hch : em.eventCh with
      | nil => simp [Docker.step, hpc, hch] at hs
      | cons id rest =>
        obtain ⟨hid, hids⟩ := forall_mem_cons.mp (hch ▸ h.ids)
        rw [step_event hpc hch hid] at hs
        cases hs
        refine ⟨?_, hids, .inl hpc⟩
        rw [h.delivered, hch, append_assoc]
        rfl
    | sleep | returned | panicked => simp [Docker.step, hpc] at hs
  | err =>
    simp only [Docker.step] at hs
    split at hs
    · cases hs
      exact ⟨h.delivered, h.ids, .inr (.inl rfl)⟩
    · next err hne _ herr =>
      cases hs
      refine ⟨h.delivered, h.ids, .inr (.inr ⟨rfl, hlasting.resolve_right fun hother => ?_⟩)⟩
      exact hne (Option.some.inj (herr.symm.trans hother))
    · cases hs
  | wake =>
    have hstop : em.canceled = true := hlasting
    simp only [Docker.step, if_pos hstop] at hs
    split at hs <;> cases hs
    exact ⟨h.delivered, h.ids, .inr (.inr ⟨rfl, hstop⟩)⟩
  | done =>
    simp only [Docker.step] at hs
    split at hs
    · next hdone =>
      cases hs
      exact ⟨h.delivered, h.ids, .inr (.inr ⟨rfl, hdone.2⟩)⟩
    · cases hs

/-- In the `select` the goroutine can take everything that is sent. -/
theorem Serving.consumes (h : Serving em) (hpc : em.pc = .select) :
    ∃ em', run Docker.step em (em.eventCh.map fun _ => .event) = some em' ∧
      em'.handled = em.delivered := by
  generalize hch : em.eventCh = ids
  induction ids generalizing em with
  | nil =>
    refine ⟨em, rfl, ?_⟩
    rw [h.delivered, hch, append_nil]
  | cons id rest ih =>
    obtain ⟨hid, _⟩ := forall_mem_cons.mp (hch ▸ h.ids)
    have hs := step_event hpc hch hid
    obtain ⟨em', hrun, hhandled⟩ := ih (h.step (e := .event) trivial hs) hpc rfl
    exact ⟨em', run_cons.mpr ⟨_, hs, hrun⟩, hhandled⟩

/-- **Events are handled until `Stop`.**  If no error is received before `Stop`, other than
one in whose delay `Stop` is called, every event that was sent is handled once or can still
be, and the goroutine ends only after `Stop`. -/
theorem events_handled_until_stop {es : List Event}
    (hmeets : Runs.Meets step Lasting .start es) (hrun : run step .start es = some em) :
    em.delivered = em.handled ++ em.eventCh ∧
      (em.pc = .select ∨ em.pc = .sleep ∨ em.pc = .returned ∧ em.canceled = true) ∧
      (em.pc = .select → ∃ em', run step em (em.eventCh.map fun _ => .event) = some em' ∧
        em'.handled = em.delivered) := by
  have hstart : Serving .start := ⟨rfl, fun _ hid => absurd hid not_mem_nil, .inl rfl⟩
  have h := run_invariant Serving.step hstart hmeets hrun
  exact ⟨h.delivered, h.lasts, h.consumes⟩

/-- Two events, the second still to be handled, and then a stream error in whose delay
`Stop` is called. -/
theorem two_events_handled_until_stop :
    let sent : List Event := [.send "0123456789ab", .send "ba9876543210", .event]
    let stopped := sent ++ [.event, .fail .other, .err, .stop, .wake]
    Runs.Meets step Lasting .start stopped ∧
      (∃ em, run step .start sent = some em ∧ ∃ em', run step em [.event] = some em' ∧
        em'.handled = ["0123456789ab", "ba9876543210"]) ∧
      ∃ em, run step .start stopped = some em ∧ em.pc = .returned ∧
        em.delivered = ["0123456789ab", "ba9876543210"] ++ [] := by
  intro sent stopped
  have hmeets : Runs.Meets step Lasting .start stopped := by decide +kernel
  have hsent : Runs.Meets step Lasting .start sent := by decide +kernel
  obtain ⟨-, -, hconsumes⟩ := events_handled_until_stop hsent rfl
  obtain ⟨hdelivered, -, -⟩ := events_handled_until_stop hmeets rfl
  exact ⟨hmeets, ⟨_, rfl, hconsumes rfl⟩, _, rfl, rfl, hdelivered⟩

/-- After its end nothing is handled. -/
theorem handled_of_returned (hpc : em.pc = .returned) {es : List Event}
    (hrun : run step em es = some em') : em'.handled = em.handled := by
  have hstep : ∀ {t t' : EventMonitor} {e : Event}, t.pc = .returned ∧ t.handled = em.handled →
      step t e = some t' → t'.pc = .returned ∧ t'.handled = em.handled := by
    intro t t' e h hs
    cases e with
    | send | fail | stop =>
      cases hs
      exact h
    | event | err | wake | done => simp [step, h.1] at hs
  exact (run_always hstep ⟨hpc, rfl⟩ hrun).2

/-- **A stream error ends the monitor.**  It has subscribed again, but whatever happens then
the event of the new stream is not handled. -/
theorem error_ends_monitor :
    ∃ em, run step .start [.fail .other, .err, .wake, .send "0123456789ab"] = some em ∧
      em.subscriptions = 2 ∧ em.eventCh = ["0123456789ab"] ∧ em.pc = .returned ∧
      em.canceled = false ∧
      ∀ es em', run step em es = some em' → em'.handled = [] := by
  refine ⟨⟨["0123456789ab"], none, false, .returned, 2, ["0123456789ab"], []⟩, rfl, rfl, rfl, rfl,
    rfl, ?_⟩
  intro es em' hrun
  exact handled_of_returned rfl hrun

end Newt.Docker
