import Mathlib.Data.List.AList
import Newt.ConnectConfig
import Newt.Lib.Runs
import Newt.Lib.Tasks

/-!
# The health checks

`healthcheck.Monitor` keeps a target for each ID and one goroutine for each time the
monitoring of a target was started.  The goroutine, a loop, makes a first check and then
waits in its select for the context of the target or for its timer.  It reads the context
from the target each time it gets to the select; enabling a target stores a new one there.

The calls hold the mutex of the monitor; the loops do not.  A step is a call, or a step of
one loop, and a check may take any time between its start and its end.  Each call is a
sequence of operations on single targets (`call_eq_foldl_apply`).

A loop belongs to a monitoring period: the target and the context it was started with.
`WellFormed` says how the periods and the contexts stand to each other, whatever happens.
-/

namespace Newt.HealthCheck

open List AList

open Connect (Config ConfigField)

inductive Health
  | unknown
  | healthy
  | unhealthy
  deriving DecidableEq, Repr

/-- The fields of `Target` that the monitor reads; `ctx` is the number of its context. -/
structure Target where
  config : Config
  status : Health
  lastError : String
  checkCount : Nat
  ctx : Nat
  consecutiveSuccesses : Nat
  consecutiveFailures : Nat

/-- What comes back of a check: its request cannot be made, it fails, or there is an answer
with a status (for TCP, a connection). -/
inductive Answer
  | unmade (err : String)
  | failed (err : String)
  | answered (status : Int)
  deriving DecidableEq, Repr

/-- `performTCPCheck` and `performHTTPCheck`: the error of a check that did not pass. -/
def checkErr (config : Config) (answer : Answer) : Option String :=
  if (config .mode).toLower = "tcp" then
    match answer with
    | .unmade err | .failed err => some ("TCP dial failed: " ++ err)
    | .answered _ => none
  else
    match answer with
    | .unmade err => some ("failed to create request: " ++ err)
    | .failed err => some ("request failed: " ++ err)
    | .answered status =>
      if 0 < config .status then
        if status = config .status then none
        else some ("unexpected status code: " ++ toString status ++ " (expected: " ++
          toString (config .status) ++ ")")
      else if 200 ≤ status ∧ status < 300 then none
      else some ("unhealthy status code: " ++ toString status)

namespace Target

/-- `performHealthCheck` before the check. -/
def countCheck (t : Target) : Target :=
  { t with checkCount := t.checkCount + 1 }

/-- `performHealthCheck` after a check that passed. -/
def pass (t : Target) : Target :=
  let t := { t with consecutiveFailures := 0, consecutiveSuccesses := t.consecutiveSuccesses + 1 }
  if t.config .healthyThreshold ≤ t.consecutiveSuccesses then
    { t with status := .healthy, lastError := "" }
  else t

/-- `performHealthCheck` after a check that did not. -/
def fail (t : Target) (err : String) : Target :=
  let t := { t with consecutiveSuccesses := 0, consecutiveFailures := t.consecutiveFailures + 1,
                    lastError := err }
  if t.config .unhealthyThreshold ≤ t.consecutiveFailures then { t with status := .unhealthy }
  else t

/-- `performHealthCheck` after the check. -/
def record (t : Target) (answer : Answer) : Target :=
  match checkErr t.config answer with
  | none => t.pass
  | some err => t.fail err

/-- `EnableTarget`, with its new context. -/
def enable (t : Target) (ctx : Nat) : Target :=
  { t with config := Function.update t.config .enabled true, ctx := ctx }

/-- `DisableTarget`. -/
def disable (t : Target) : Target :=
  { t with config := Function.update t.config .enabled false, status := .unknown }

/-- The target of a configuration, not checked so far. -/
def new (config : Config) (ctx : Nat) : Target where
  config := config
  status := .unknown
  lastError := ""
  checkCount := 0
  ctx := ctx
  consecutiveSuccesses := 0
  consecutiveFailures := 0

end Target

/-- Where a loop is. -/
inductive Place
  /-- Started, its first check not begun. -/
  | starting
  /-- A check runs, under a context that was derived from this one. -/
  | checking (ctx : Nat)
  /-- The check is over and the select not reached. -/
  | looping
  /-- In the select, on the context the target had then. -/
  | waiting (ctx : Nat)
  | returned
  deriving DecidableEq, Repr

/-- The target of a loop and the context it had when the loop was started. -/
structure Period where
  target : Nat
  ctx : Nat
  deriving DecidableEq, Repr

structure Loop extends Period where
  place : Place
  deriving DecidableEq, Repr

/-- `Monitor`, with the contexts and the goroutines.  `outcomes` is for the statements only:
what the checks under a context came to, the last one first. -/
structure Monitor where
  targets : AList (fun _ : Int => Nat)
  heap : Nat → Target
  nextRef : Nat
  cancelled : Nat → Bool
  nextCtx : Nat
  loops : List Loop
  outcomes : Nat → List Bool

namespace Monitor

open Target

/-- `NewMonitor`. -/
def init : Monitor where
  targets := ∅
  heap := fun _ => new Connect.config.zero 0
  nextRef := 0
  cancelled := fun _ => false
  nextCtx := 0
  loops := []
  outcomes := fun _ => []

section Calls

variable (s : Monitor)

def cancel (ref : Nat) : Monitor :=
  { s with cancelled := Function.update s.cancelled (s.heap ref).ctx true }

def setTarget (ref : Nat) (t : Target) : Monitor :=
  { s with heap := Function.update s.heap ref t }

/-- `go m.monitorTarget(target)`. -/
def spawn (ref : Nat) : Monitor :=
  { s with loops := s.loops ++ [⟨⟨ref, (s.heap ref).ctx⟩, .starting⟩] }

/-- The new target of `addTargetUnsafe`. -/
def create (config : Config) : Monitor :=
  let s' := { s with
    targets := s.targets.insert (config .id) s.nextRef
    heap := Function.update s.heap s.nextRef (new config s.nextCtx)
    nextRef := s.nextRef + 1
    nextCtx := s.nextCtx + 1 }
  if config .enabled then s'.spawn s.nextRef else s'

def addTargetUnsafe (config : Config) : Monitor :=
  let config := Connect.Monitor.withDefaults config
  match s.targets.lookup (config .id) with
  | some existing => (s.cancel existing).create config
  | none => s.create config

/-- `target.cancel()` and `delete(m.targets, id)`. -/
def drop (id : Int) (ref : Nat) : Monitor :=
  { s.cancel ref with targets := s.targets.erase id }

def notFound (id : Int) : String :=
  "target with id " ++ toString id ++ " not found"

def removeTarget (id : Int) : Monitor × Option String :=
  match s.targets.lookup id with
  | none => (s, some (notFound id))
  | some ref => (s.drop id ref, none)

/-- One iteration of `RemoveTargets`. -/
def removeNext (acc : Monitor × List Int) (id : Int) : Monitor × List Int :=
  match acc.1.targets.lookup id with
  | none => (acc.1, acc.2 ++ [id])
  | some ref => (acc.1.drop id ref, acc.2)

def removeTargets (ids : List Int) : Monitor × Option String :=
  let (s', notFound) := ids.foldl removeNext (s, [])
  (s', if notFound = [] then none
    else some ("targets not found: [" ++ " ".intercalate (notFound.map toString) ++ "]"))

/-- The new context of `EnableTarget`, and its loop. -/
def renew (ref : Nat) : Monitor :=
  let s' := { (s.cancel ref).setTarget ref ((s.heap ref).enable s.nextCtx) with
    nextCtx := s.nextCtx + 1 }
  s'.spawn ref

def enableTarget (id : Int) : Monitor × Option String :=
  match s.targets.lookup id with
  | none => (s, some (notFound id))
  | some ref => if (s.heap ref).config .enabled then (s, none) else (s.renew ref, none)

/-- The changes of `DisableTarget`. -/
def halt (ref : Nat) : Monitor :=
  (s.cancel ref).setTarget ref (s.heap ref).disable

def disableTarget (id : Int) : Monitor × Option String :=
  match s.targets.lookup id with
  | none => (s, some (notFound id))
  | some ref => if (s.heap ref).config .enabled then (s.halt ref, none) else (s, none)

/-- The map `desiredIDs` of `SyncTargets`. -/
def desiredIDs (desiredConfigs : List Config) : AList (fun _ : Int => Config) :=
  desiredConfigs.foldl (fun m config => m.insert (config .id) config) ∅

/-- `delete` in a loop over IDs, for those that are there. -/
def dropExisting (id : Int) : Monitor :=
  match s.targets.lookup id with
  | none => s
  | some ref => s.drop id ref

/-- The last loop of `SyncTargets` for one ID. -/
def syncNext (desired : AList (fun _ : Int => Config)) (s : Monitor) (id : Int) : Monitor :=
  match desired.lookup id with
  | none => s
  | some config => (s.dropExisting id).addTargetUnsafe config

/-- `SyncTargets`; `order` is the order in which Go goes through the map. -/
def syncTargets (desiredConfigs : List Config) (order : List Int) : Monitor :=
  let desired := desiredIDs desiredConfigs
  let toRemove := s.targets.keys.filter (fun id => (desired.lookup id).isNone)
  order.foldl (syncNext desired) (toRemove.foldl dropExisting s)

/-- `Stop`. -/
def stop : Monitor :=
  { s.targets.entries.foldl (fun s entry => s.cancel entry.2) s with targets := ∅ }

end Calls

inductive Call
  | addTarget (config : Config)
  | addTargets (configs : List Config)
  | removeTarget (id : Int)
  | removeTargets (ids : List Int)
  | enableTarget (id : Int)
  | disableTarget (id : Int)
  | syncTargets (desiredConfigs : List Config) (order : List Int)
  | stop

/-- The monitor after a call. -/
def call (s : Monitor) : Call → Monitor
  | .addTarget config => s.addTargetUnsafe config
  | .addTargets configs => configs.foldl addTargetUnsafe s
  | .removeTarget id => (s.removeTarget id).1
  | .removeTargets ids => (s.removeTargets ids).1
  | .enableTarget id => (s.enableTarget id).1
  | .disableTarget id => (s.disableTarget id).1
  | .syncTargets desiredConfigs order => s.syncTargets desiredConfigs order
  | .stop => s.stop

/-- The steps of a loop. -/
inductive Move
  /-- It begins its first check. -/
  | first
  /-- The check ends. -/
  | finish (answer : Answer)
  /-- It gets to the select. -/
  | enter
  /-- The select takes the timer, which begins a check. -/
  | tick
  /-- The select takes the context, and the loop returns. -/
  | done

def Move.startsCheck : Move → Bool
  | .first | .tick => true
  | _ => false

inductive Event
  | call (c : Call)
  | loop (k : Nat) (move : Move)

section Loops

variable (s : Monitor)

def beginCheck (ref : Nat) : Monitor :=
  s.setTarget ref (s.heap ref).countCheck

/-- A check under a context ends.  If the context is cancelled, the check has no outcome; the
target is changed all the same. -/
def finishCheck (ref ctx : Nat) (answer : Answer) : Monitor :=
  let passed := (checkErr (s.heap ref).config answer).isNone
  { s.setTarget ref ((s.heap ref).record answer) with
    outcomes :=
      if s.cancelled ctx then s.outcomes
      else Function.update s.outcomes ctx (passed :: s.outcomes ctx) }

/-- A step of `monitorTarget`: the rest of the monitor, and where the loop is then. -/
def advance (l : Loop) : Move → Option (Monitor × Place)
  | .first =>
    match l.place with
    | .starting => some (s.beginCheck l.target, .checking (s.heap l.target).ctx)
    | _ => none
  | .finish answer =>
    match l.place with
    | .checking ctx => some (s.finishCheck l.target ctx answer, .looping)
    | _ => none
  | .enter =>
    match l.place with
    | .looping => some (s, .waiting (s.heap l.target).ctx)
    | _ => none
  | .tick =>
    match l.place with
    | .waiting _ => some (s.beginCheck l.target, .checking (s.heap l.target).ctx)
    | _ => none
  | .done =>
    match l.place with
    | .waiting ctx => if s.cancelled ctx then some (s, .returned) else none
    | _ => none

def setPlace (k : Nat) (l : Loop) (place : Place) : Monitor :=
  { s with loops := s.loops.set k { l with place := place } }

def moveLoop (k : Nat) (move : Move) : Option Monitor :=
  match s.loops[k]? with
  | none => none
  | some l => (s.advance l move).map (fun r => r.1.setPlace k l r.2)

end Loops

/-- A map is gone through in any order of its keys. -/
def Call.possible : Call → Bool
  | .syncTargets desiredConfigs order => order.isPerm (desiredIDs desiredConfigs).keys
  | _ => true

def step (s : Monitor) : Event → Option Monitor
  | .call c => if c.possible then some (s.call c) else none
  | .loop k move => s.moveLoop k move

/-! ## Calls as operations on single targets -/

inductive Op
  | add (config : Config)
  | remove (id : Int)
  | enable (id : Int)
  | disable (id : Int)

def apply (s : Monitor) : Op → Monitor
  | .add config => s.addTargetUnsafe config
  | .remove id => s.dropExisting id
  | .enable id => (s.enableTarget id).1
  | .disable id => (s.disableTarget id).1

/-- What `SyncTargets` does for an ID of the desired set. -/
def syncOps (desired : AList (fun _ : Int => Config)) (id : Int) : List Op :=
  match desired.lookup id with
  | none => []
  | some config => [.remove id, .add config]

/-- The operations of a call. -/
def Call.ops (s : Monitor) : Call → List Op
  | .addTarget config => [.add config]
  | .addTargets configs => configs.map .add
  | .removeTarget id => [.remove id]
  | .removeTargets ids => ids.map .remove
  | .enableTarget id => [.enable id]
  | .disableTarget id => [.disable id]
  | .syncTargets desiredConfigs order =>
    (s.targets.keys.filter (fun id => ((desiredIDs desiredConfigs).lookup id).isNone)).map
      .remove ++ order.flatMap (syncOps (desiredIDs desiredConfigs))
  | .stop => s.targets.keys.map .remove

theorem removeTarget_fst (s : Monitor) (id : Int) : (s.removeTarget id).1 = s.dropExisting id := by
  unfold removeTarget dropExisting
  cases s.targets.lookup id <;> rfl

theorem foldl_removeNext_fst (ids : List Int) (acc : Monitor × List Int) :
    (ids.foldl removeNext acc).1 = ids.foldl dropExisting acc.1 := by
  induction ids generalizing acc with
  | nil => rfl
  | cons id ids ih =>
    have hnext : (removeNext acc id).1 = acc.1.dropExisting id := by
      unfold removeNext dropExisting
      cases acc.1.targets.lookup id <;> rfl
    rw [foldl_cons, foldl_cons, ih, hnext]

theorem foldl_syncOps (desired : AList (fun _ : Int => Config)) (order : List Int) (s : Monitor) :
    (order.flatMap (syncOps desired)).foldl apply s = order.foldl (syncNext desired) s := by
  induction order generalizing s with
  | nil => rfl
  | cons id order ih =>
    have hnext : (syncOps desired id).foldl apply s = syncNext desired s id := by
      unfold syncOps syncNext
      cases desired.lookup id <;> rfl
    rw [flatMap_cons, foldl_append, hnext, ih, foldl_cons]

/-- The map is not read while its targets are cancelled. -/
theorem foldl_cancel_targets (entries : List (Sigma (fun _ : Int => Nat))) (s : Monitor)
    (m m' : AList (fun _ : Int => Nat)) :
    { entries.foldl (fun s entry => s.cancel entry.2) { s with targets := m } with targets := m' } =
      { entries.foldl (fun s entry => s.cancel entry.2) s with targets := m' } := by
  induction entries generalizing s with
  | nil => rfl
  | cons entry entries ih => exact ih (s.cancel entry.2)

theorem stop_eq (entries : List (Sigma (fun _ : Int => Nat))) (s : Monitor)
    (h : s.targets.entries = entries) :
    (entries.map Sigma.fst).foldl dropExisting s =
      { entries.foldl (fun s entry => s.cancel entry.2) s with targets := ∅ } := by
  induction entries generalizing s with
  | nil =>
    have hempty : s.targets = ∅ := ext h
    rw [map_nil, foldl_nil, foldl_nil, ← hempty]
  | cons entry entries ih =>
    have hlookup : s.targets.lookup entry.1 = some entry.2 := by
      rw [AList.lookup, h, dlookup_cons_eq]
    have hdrop : s.dropExisting entry.1 = s.drop entry.1 entry.2 := by
      simp only [dropExisting, hlookup]
    have herase : (s.drop entry.1 entry.2).targets.entries = entries := by
      show List.kerase entry.1 s.targets.entries = entries
      rw [h, kerase_cons_eq rfl]
    rw [map_cons, foldl_cons, hdrop, ih _ herase, foldl_cons]
    exact foldl_cancel_targets entries (s.cancel entry.2) _ ∅

/-- **A call** makes operations on single targets, one after the other. -/
theorem call_eq_foldl_apply (s : Monitor) (c : Call) : s.call c = (c.ops s).foldl apply s := by
  cases c with
  | addTarget config => rfl
  | addTargets configs =>
    rw [Call.ops, foldl_map]
    rfl
  | removeTarget id => exact s.removeTarget_fst id
  | removeTargets ids =>
    rw [Call.ops, foldl_map]
    exact foldl_removeNext_fst ids (s, [])
  | enableTarget id | disableTarget id => rfl
  | syncTargets desiredConfigs order =>
    rw [Call.ops, foldl_append, foldl_syncOps, foldl_map]
    rfl
  | stop =>
    have hkeys : s.targets.keys = s.targets.entries.map Sigma.fst := rfl
    rw [Call.ops, foldl_map, hkeys]
    exact (stop_eq s.targets.entries s rfl).symm

/-- An operation as a step, which is always possible. -/
def applyStep (s : Monitor) (op : Op) : Option Monitor :=
  some (s.apply op)

theorem run_applyStep (ops : List Op) (s : Monitor) :
    Runs.run applyStep s ops = some (ops.foldl apply s) := by
  induction ops generalizing s with
  | nil => rfl
  | cons op ops ih => exact ih (s.apply op)

/-- What the operations keep if they meet a condition, the calls keep that are made of such
operations. -/
theorem call_invariant {C : Monitor → Op → Prop} {I : Monitor → Prop}
    (hop : ∀ {s : Monitor} {op : Op}, I s → C s op → I (s.apply op)) {s : Monitor} {c : Call}
    (h : I s) (hmeets : Runs.Meets applyStep C s (c.ops s)) : I (s.call c) := by
  rw [call_eq_foldl_apply]
  refine Runs.run_invariant (fun hinv hc heq => ?_) h hmeets (run_applyStep (c.ops s) s)
  exact Option.some.inj heq ▸ hop hinv hc

/-! ## Periods and contexts -/

/-- The target is the one of its ID. -/
def Mapped (s : Monitor) (ref : Nat) : Prop :=
  s.targets.lookup ((s.heap ref).config .id) = some ref
  deriving Decidable

/-- The target is the one of its ID, and enabled. -/
def Monitored (s : Monitor) (ref : Nat) : Prop :=
  s.Mapped ref ∧ (s.heap ref).config .enabled = true
  deriving Decidable

def periods (s : Monitor) : List Period :=
  s.loops.map Loop.toPeriod

/-- No two targets and no two periods have the same context, a context that is not cancelled
is the one of an enabled target, and each enabled target has a period. -/
structure WellFormed (s : Monitor) : Prop where
  ids : ∀ id ref, s.targets.lookup id = some ref →
    ref < s.nextRef ∧ (s.heap ref).config .id = id
  contexts : ∀ ref, ref < s.nextRef → (s.heap ref).ctx < s.nextCtx
  own : ∀ ref ref', ref < s.nextRef → ref' < s.nextRef →
    (s.heap ref).ctx = (s.heap ref').ctx → ref = ref'
  fresh : ∀ ctx, s.nextCtx ≤ ctx → s.cancelled ctx = false
  live : ∀ ref, s.Monitored ref → s.cancelled (s.heap ref).ctx = false
  allocated : ∀ p ∈ s.periods, p.target < s.nextRef ∧ p.ctx < s.nextCtx
  current : ∀ p ∈ s.periods, s.cancelled p.ctx = false →
    s.Monitored p.target ∧ (s.heap p.target).ctx = p.ctx
  started : ∀ ref, s.Monitored ref → ⟨ref, (s.heap ref).ctx⟩ ∈ s.periods
  distinct : (s.periods.map Period.ctx).Nodup

theorem WellFormed.init : WellFormed init where
  ids := by
    intro id ref h
    cases h
  contexts := fun _ h => absurd h (Nat.not_lt_zero _)
  own := fun _ _ h => absurd h (Nat.not_lt_zero _)
  fresh := fun _ _ => rfl
  live := fun _ _ => rfl
  allocated := fun _ h => absurd h not_mem_nil
  current := fun _ h => absurd h not_mem_nil
  started := by
    intro ref h
    cases h.1
  distinct := nodup_nil

section Frame

variable {s s' : Monitor}

/-- The fields the periods and contexts depend on are the same. -/
structure SameShape (s s' : Monitor) : Prop where
  targets : s'.targets = s.targets
  config : ∀ ref, (s'.heap ref).config = (s.heap ref).config
  ctx : ∀ ref, (s'.heap ref).ctx = (s.heap ref).ctx
  nextRef : s'.nextRef = s.nextRef
  cancelled : s'.cancelled = s.cancelled
  nextCtx : s'.nextCtx = s.nextCtx
  periods : s'.periods = s.periods

theorem SameShape.mapped_iff (h : SameShape s s') (ref : Nat) : s'.Mapped ref ↔ s.Mapped ref := by
  rw [Mapped, Mapped, h.targets, h.config]

theorem SameShape.monitored_iff (h : SameShape s s') (ref : Nat) :
    s'.Monitored ref ↔ s.Monitored ref := by rw [Monitored, Monitored, h.mapped_iff, h.config]

theorem WellFormed.of_sameShape (hw : s.WellFormed) (h : SameShape s s') : s'.WellFormed where
  ids := by
    simpa only [h.targets, h.nextRef, h.config] using hw.ids
  contexts := by
    simpa only [h.nextRef, h.ctx, h.nextCtx] using hw.contexts
  own := by
    simpa only [h.nextRef, h.ctx] using hw.own
  fresh := by
    simpa only [h.nextCtx, h.cancelled] using hw.fresh
  live := by
    simpa only [h.monitored_iff, h.cancelled, h.ctx] using hw.live
  allocated := by
    simpa only [h.periods, h.nextRef, h.nextCtx] using hw.allocated
  current := by
    simpa only [h.periods, h.cancelled, h.monitored_iff, h.ctx] using hw.current
  started := by
    simpa only [h.monitored_iff, h.ctx, h.periods] using hw.started
  distinct := by
    simpa only [h.periods] using hw.distinct

end Frame

/-! ### The operations -/

section Operations

variable {s s' : Monitor} {ref : Nat} {id : Int}

theorem cancel_cancelled_eq_false_iff {ctx : Nat} :
    (s.cancel ref).cancelled ctx = false ↔
      ctx ≠ (s.heap ref).ctx ∧ s.cancelled ctx = false := by
  show Function.update s.cancelled (s.heap ref).ctx true ctx = false ↔ _
  by_cases h : ctx = (s.heap ref).ctx
  · subst h
    simp
  · simp [h]

theorem WellFormed.mapped_of_lookup (hw : s.WellFormed) (h : s.targets.lookup id = some ref) :
    s.Mapped ref := by
  rw [Mapped, (hw.ids id ref h).2]
  exact h

theorem WellFormed.lt_of_mapped (hw : s.WellFormed) (h : s.Mapped ref) : ref < s.nextRef :=
  (hw.ids _ ref h).1

/-- Two targets of one ID are the same. -/
theorem Mapped.eq_of_id {ref' : Nat} (h : s.Mapped ref) (h' : s.Mapped ref')
    (hid : (s.heap ref).config .id = (s.heap ref').config .id) : ref = ref' := by
  rw [Mapped, hid] at h
  exact Option.some.inj (h.symm.trans h')

theorem Monitored.ne_of_not {ref' : Nat} (h : s.Monitored ref) (hnot : ¬ s.Monitored ref') :
    ref ≠ ref' := by
  rintro rfl
  exact hnot h

/-- The monitoring of a target ends: its context is cancelled. -/
theorem WellFormed.of_ended (hw : s.WellFormed) (href : ref < s.nextRef)
    (hids : ∀ id r, s'.targets.lookup id = some r → s.targets.lookup id = some r)
    (hid : ∀ r, (s'.heap r).config .id = (s.heap r).config .id)
    (hctx : ∀ r, (s'.heap r).ctx = (s.heap r).ctx) (hnextRef : s'.nextRef = s.nextRef)
    (hnextCtx : s'.nextCtx = s.nextCtx) (hcancelled : s'.cancelled = (s.cancel ref).cancelled)
    (hperiods : s'.periods = s.periods)
    (hmon : ∀ r, s'.Monitored r ↔ s.Monitored r ∧ r ≠ ref) : s'.WellFormed where
  ids := by
    intro id r h
    rw [hnextRef, hid]
    exact hw.ids id r (hids id r h)
  contexts := by
    simpa only [hnextRef, hctx, hnextCtx] using hw.contexts
  own := by
    simpa only [hnextRef, hctx] using hw.own
  fresh := by
    intro ctx h
    rw [hnextCtx] at h
    rw [hcancelled, cancel_cancelled_eq_false_iff]
    have hlt := hw.contexts ref href
    exact ⟨by omega, hw.fresh ctx h⟩
  live := by
    intro r hr
    obtain ⟨hr, hne⟩ := (hmon r).mp hr
    rw [hcancelled, hctx, cancel_cancelled_eq_false_iff]
    refine ⟨fun heq => hne ?_, hw.live r hr⟩
    exact hw.own r ref (hw.lt_of_mapped hr.1) href heq
  allocated := by
    simpa only [hperiods, hnextRef, hnextCtx] using hw.allocated
  current := by
    intro p hp hc
    rw [hperiods] at hp
    rw [hcancelled, cancel_cancelled_eq_false_iff] at hc
    obtain ⟨hmonitored, heq⟩ := hw.current p hp hc.2
    rw [hmon, hctx]
    refine ⟨⟨hmonitored, fun htarget => hc.1 ?_⟩, heq⟩
    rw [← heq, htarget]
  started := by
    intro r hr
    rw [hperiods, hctx]
    exact hw.started r ((hmon r).mp hr).1
  distinct := by
    simpa only [hperiods] using hw.distinct

/-- A target gets a new context and, if it is enabled, a loop. -/
theorem WellFormed.of_started (hw : s.WellFormed) (ref : Nat) (on : Bool)
    (hids : ∀ id r, s'.targets.lookup id = some r → r < s'.nextRef ∧ (s'.heap r).config .id = id)
    (hctx : ∀ r, (s'.heap r).ctx = if r = ref then s.nextCtx else (s.heap r).ctx)
    (hold : ∀ r, r < s'.nextRef → r ≠ ref → r < s.nextRef) (hnextRef : s.nextRef ≤ s'.nextRef)
    (href : ref < s'.nextRef) (hnextCtx : s'.nextCtx = s.nextCtx + 1)
    (hcancelled : s'.cancelled = s.cancelled)
    (hperiods : s'.periods = s.periods ++ if on then [⟨ref, s.nextCtx⟩] else [])
    (hmon : ∀ r, s'.Monitored r ↔ s.Monitored r ∨ on = true ∧ r = ref)
    (hnot : ¬ s.Monitored ref) : s'.WellFormed where
  ids := hids
  contexts := by
    intro r hr
    rw [hctx, hnextCtx]
    split
    · omega
    · next hne =>
      have hlt := hw.contexts r (hold r hr hne)
      omega
  own := by
    intro r r' hr hr' heq
    rw [hctx, hctx] at heq
    have hlt : r ≠ ref → (s.heap r).ctx < s.nextCtx := fun hne => hw.contexts r (hold r hr hne)
    have hlt' : r' ≠ ref → (s.heap r').ctx < s.nextCtx :=
      fun hne => hw.contexts r' (hold r' hr' hne)
    split at heq <;> split at heq
    · next h h' => exact h.trans h'.symm
    · next h' =>
      omega
    · next h _ =>
      omega
    · next h h' => exact hw.own r r' (hold r hr h) (hold r' hr' h') heq
  fresh := by
    intro ctx h
    rw [hcancelled]
    exact hw.fresh ctx (by omega)
  live := by
    intro r hr
    rw [hctx, hcancelled]
    rcases (hmon r).mp hr with hr | ⟨-, rfl⟩
    · rw [if_neg (hr.ne_of_not hnot)]
      exact hw.live r hr
    · rw [if_pos rfl]
      exact hw.fresh _ (Nat.le_refl _)
  allocated := by
    intro p hp
    rw [hperiods, mem_append] at hp
    rw [hnextCtx]
    rcases hp with hp | hp
    · have := hw.allocated p hp
      omega
    · cases on with
      | false => exact absurd hp not_mem_nil
      | true =>
        obtain rfl := mem_singleton.mp hp
        exact ⟨href, Nat.lt_succ_self _⟩
  current := by
    intro p hp hc
    rw [hperiods, mem_append] at hp
    rw [hmon, hctx]
    rcases hp with hp | hp
    · rw [hcancelled] at hc
      obtain ⟨hmonitored, heq⟩ := hw.current p hp hc
      rw [if_neg (hmonitored.ne_of_not hnot)]
      exact ⟨.inl hmonitored, heq⟩
    · cases on with
      | false => exact absurd hp not_mem_nil
      | true =>
        obtain rfl := mem_singleton.mp hp
        exact ⟨.inr ⟨rfl, rfl⟩, if_pos rfl⟩
  started := by
    intro r hr
    rw [hperiods, hctx, mem_append]
    rcases (hmon r).mp hr with hr | ⟨rfl, rfl⟩
    · rw [if_neg (hr.ne_of_not hnot)]
      exact .inl (hw.started r hr)
    · rw [if_pos rfl]
      exact .inr (mem_singleton.mpr rfl)
  distinct := by
    rw [hperiods, map_append, nodup_append']
    refine ⟨hw.distinct, ?_, ?_⟩
    · cases on <;> simp
    · intro ctx hctx hin
      obtain ⟨p, hp, rfl⟩ := mem_map.mp hctx
      have hlt := (hw.allocated p hp).2
      cases on with
      | false => exact absurd hin not_mem_nil
      | true =>
        obtain heq := mem_singleton.mp hin
        simp only at heq
        omega

theorem lookup_of_drop {id' : Int} {r : Nat} (h : (s.drop id ref).targets.lookup id' = some r) :
    s.targets.lookup id' = some r := by
  rw [show (s.drop id ref).targets = s.targets.erase id from rfl] at h
  by_cases hid : id' = id
  · rw [hid, lookup_erase] at h
    cases h
  · rwa [lookup_erase_ne hid] at h

theorem WellFormed.drop (hw : s.WellFormed) (h : s.targets.lookup id = some ref) :
    (s.drop id ref).WellFormed := by
  have hmapped : ∀ r, (s.drop id ref).Mapped r ↔ s.Mapped r ∧ r ≠ ref := by
    intro r
    show (s.targets.erase id).lookup ((s.heap r).config .id) = some r ↔ _
    by_cases hid : (s.heap r).config .id = id
    · rw [hid, lookup_erase]
      constructor
      · exact fun h' => (nomatch h')
      · rintro ⟨hr, hne⟩
        rw [Mapped, hid, h] at hr
        exact absurd (Option.some.inj hr).symm hne
    · rw [lookup_erase_ne hid]
      refine ⟨fun hr => ⟨hr, ?_⟩, fun hr => hr.1⟩
      rintro rfl
      exact hid (hw.ids id r h).2
  refine hw.of_ended (hw.ids id ref h).1 (fun _ _ hr => lookup_of_drop hr) (fun _ => rfl)
    (fun _ => rfl) rfl rfl rfl rfl ?_
  intro r
  rw [Monitored, hmapped, Monitored, and_right_comm]
  rfl

/-- A field that is not changed at one target is not changed at all. -/
theorem update_field {α : Type} (f : Target → α) {t : Target} (h : f t = f (s.heap ref)) (r : Nat) :
    f (Function.update s.heap ref t r) = f (s.heap r) := by
  rw [Function.update_apply]
  split
  · next heq => rw [h, heq]
  · rfl

theorem halt_heap (r : Nat) :
    (s.halt ref).heap r = if r = ref then (s.heap ref).disable else s.heap r :=
  Function.update_apply ..

theorem halt_heap_id (r : Nat) :
    ((s.halt ref).heap r).config .id = (s.heap r).config .id :=
  update_field (fun t => t.config .id) (t := (s.heap ref).disable) rfl r

theorem halt_heap_ctx (r : Nat) : ((s.halt ref).heap r).ctx = (s.heap r).ctx :=
  update_field Target.ctx (t := (s.heap ref).disable) rfl r

theorem mapped_halt_iff {r : Nat} : (s.halt ref).Mapped r ↔ s.Mapped r := by
  rw [Mapped, Mapped, halt_heap_id]
  rfl

theorem WellFormed.halt (hw : s.WellFormed) (h : s.Mapped ref) : (s.halt ref).WellFormed := by
  refine hw.of_ended (hw.lt_of_mapped h) (fun _ _ h => h) halt_heap_id halt_heap_ctx rfl rfl rfl
    rfl ?_
  intro r
  rw [Monitored, mapped_halt_iff, Monitored, and_assoc]
  refine and_congr_right (fun _ => ?_)
  rw [halt_heap]
  split
  · next heq =>
    rw [show (s.heap ref).disable.config .enabled = false from rfl]
    simp [heq]
  · next hne => simp [hne]

theorem WellFormed.cancel (hw : s.WellFormed) (h : ref < s.nextRef) (hnot : ¬ s.Monitored ref) :
    (s.cancel ref).WellFormed := by
  refine hw.of_ended h (fun _ _ h => h) (fun _ => rfl) (fun _ => rfl) rfl rfl rfl rfl ?_
  exact fun r => ⟨fun hr => ⟨hr, Monitored.ne_of_not hr hnot⟩, fun hr => hr.1⟩

theorem renew_heap (r : Nat) :
    (s.renew ref).heap r = if r = ref then (s.heap ref).enable s.nextCtx else s.heap r :=
  Function.update_apply ..

theorem renew_heap_id (r : Nat) :
    ((s.renew ref).heap r).config .id = (s.heap r).config .id :=
  update_field (fun t => t.config .id) (t := (s.heap ref).enable s.nextCtx) rfl r

theorem renew_loops : (s.renew ref).loops = s.loops ++ [⟨⟨ref, s.nextCtx⟩, .starting⟩] := by
  show s.loops ++ [⟨⟨ref, ((s.renew ref).heap ref).ctx⟩, .starting⟩] = _
  rw [renew_heap, if_pos rfl]
  rfl

theorem WellFormed.renew (hw : s.WellFormed) (h : s.Mapped ref)
    (hoff : (s.heap ref).config .enabled = false) : (s.renew ref).WellFormed := by
  have hnot : ¬ s.Monitored ref := by
    intro hm
    rw [hm.2] at hoff
    cases hoff
  have hlt := hw.lt_of_mapped h
  refine (hw.cancel hlt hnot).of_started ref true ?_ ?_ (fun r hr _ => hr) (Nat.le_refl _) hlt rfl
    rfl ?_ ?_ hnot
  · intro id r hr
    rw [renew_heap_id]
    exact hw.ids id r hr
  · intro r
    rw [renew_heap]
    split <;> rfl
  · rw [periods, renew_loops, map_append]
    rfl
  · intro r
    rw [Monitored, Mapped, renew_heap_id, renew_heap]
    by_cases heq : r = ref
    · subst heq
      simp only [if_pos, and_true, or_true, iff_true]
      exact ⟨h, rfl⟩
    · simp only [heq, if_false, and_false, or_false]
      rfl

variable (config : Config)

theorem create_targets : (s.create config).targets = s.targets.insert (config .id) s.nextRef := by
  unfold create
  split <;> rfl

theorem create_heap (r : Nat) : (s.create config).heap r =
    if r = s.nextRef then new config s.nextCtx else s.heap r := by
  rw [← Function.update_apply]
  unfold create
  split <;> rfl

theorem create_loops : (s.create config).loops =
    s.loops ++ if config .enabled then [⟨⟨s.nextRef, s.nextCtx⟩, .starting⟩] else [] := by
  unfold create spawn
  dsimp only
  rw [Function.update_self]
  split
  · rfl
  · exact (append_nil _).symm

theorem create_rest : (s.create config).nextRef = s.nextRef + 1 ∧
    (s.create config).nextCtx = s.nextCtx + 1 ∧ (s.create config).cancelled = s.cancelled := by
  unfold create
  split <;> exact ⟨rfl, rfl, rfl⟩

theorem create_lookup (id : Int) (r : Nat) :
    (s.create config).targets.lookup id = some r ↔
      if id = config .id then r = s.nextRef else s.targets.lookup id = some r := by
  rw [create_targets]
  split
  · next heq =>
    rw [heq, lookup_insert, Option.some_inj]
    exact eq_comm
  · next hne => rw [lookup_insert_ne hne]

theorem WellFormed.create {config : Config} (hw : s.WellFormed)
    (hnone : s.targets.lookup (config .id) = none) : (s.create config).WellFormed := by
  obtain ⟨hnextRef, hnextCtx, hcancelled⟩ := create_rest (s := s) config
  have hold : ∀ r, s.Mapped r → r ≠ s.nextRef ∧ (s.heap r).config .id ≠ config .id := by
    intro r hr
    refine ⟨Nat.ne_of_lt (hw.lt_of_mapped hr), fun heq => ?_⟩
    rw [Mapped, heq, hnone] at hr
    cases hr
  refine hw.of_started s.nextRef (config .enabled) ?_ ?_ ?_ (by omega) (by omega) hnextCtx
    hcancelled ?_ ?_ ?_
  · intro id r hr
    rw [create_lookup] at hr
    rw [hnextRef, create_heap]
    split at hr
    · next heq =>
      rw [if_pos hr, hr, heq]
      exact ⟨Nat.lt_succ_self _, rfl⟩
    · have hlt := hw.ids id r hr
      rw [if_neg (Nat.ne_of_lt hlt.1)]
      exact ⟨by omega, hlt.2⟩
  · intro r
    rw [create_heap]
    split <;> rfl
  · intro r hr hne
    omega
  · rw [periods, create_loops, map_append]
    congr 1
    split <;> rfl
  · intro r
    rw [Monitored, Mapped, create_heap, create_lookup]
    by_cases hr : r = s.nextRef
    · have hnot : ¬ s.Monitored r := fun hm => (hold r hm.1).1 hr
      subst hr
      simp [hnot, new]
    · rw [if_neg hr]
      simp only [hr, and_false, or_false]
      by_cases heq : (s.heap r).config .id = config .id
      · rw [if_pos heq]
        exact ⟨fun h => h.1.elim, fun h => absurd heq (hold r h.1).2⟩
      · rw [if_neg heq]
        rfl
  · exact fun hm => (hold _ hm.1).1 rfl

theorem withDefaults_id : Connect.Monitor.withDefaults config .id = config .id := by
  have hset : ∀ (f : ConfigField) [DecidableEq f.Value] (empty value : f.Value) (c : Config),
      f ≠ .id → Connect.Monitor.setDefault f empty value c .id = c .id := by
    intro f _ empty value c hf
    unfold Connect.Monitor.setDefault
    split
    · exact Function.update_of_ne hf.symm _ _
    · rfl
  unfold Connect.Monitor.withDefaults Connect.Monitor.fieldDefaults
  split
  · rw [Function.update_of_ne (by decide)]
    simp [hset]
  · simp [hset]

/-- The target that is replaced might as well be removed first. -/
theorem addTargetUnsafe_eq : s.addTargetUnsafe config =
    (s.dropExisting (config .id)).create (Connect.Monitor.withDefaults config) := by
  unfold addTargetUnsafe dropExisting
  dsimp only
  rw [withDefaults_id]
  cases s.targets.lookup (config .id) with
  | none => rfl
  | some existing =>
    have hinsert : ∀ ref : Nat, (s.targets.erase (config .id)).insert (config .id) ref =
        s.targets.insert (config .id) ref := by
      intro ref
      apply ext
      show ⟨_, ref⟩ :: kerase (config .id) (kerase (config .id) s.targets.entries) =
        ⟨_, ref⟩ :: kerase (config .id) s.targets.entries
      rw [kerase_of_notMem_keys (notMem_keys_kerase _ s.targets.nodupKeys)]
    unfold create
    dsimp only [drop]
    rw [withDefaults_id, hinsert]
    rfl

theorem lookup_dropExisting (id : Int) : (s.dropExisting id).targets.lookup id = none := by
  unfold dropExisting
  cases h : s.targets.lookup id with
  | none => exact h
  | some ref => exact lookup_erase _ _

/-- What the four changes of a target keep, an operation keeps. -/
theorem apply_invariant {I : Monitor → Prop} {op : Op} (h : I s)
    (hdrop : ∀ id ref, s.targets.lookup id = some ref →
      (op = .remove id ∨ ∃ config : Config, op = .add config ∧ config .id = id) →
        I (s.drop id ref))
    (hcreate : ∀ t (config : Config), I t → t.targets.lookup (config .id) = none →
      I (t.create config))
    (hrenew : ∀ id ref, op = .enable id → s.targets.lookup id = some ref →
      (s.heap ref).config .enabled = false → I (s.renew ref))
    (hhalt : ∀ id ref, op = .disable id → s.targets.lookup id = some ref →
      (s.heap ref).config .enabled = true → I (s.halt ref)) : I (s.apply op) := by
  have hdropped : ∀ id, (op = .remove id ∨ ∃ config : Config, op = .add config ∧
      config .id = id) → I (s.dropExisting id) := by
    intro id hop
    unfold dropExisting
    cases hid : s.targets.lookup id with
    | none => exact h
    | some ref => exact hdrop id ref hid hop
  cases op with
  | add config =>
    show I (s.addTargetUnsafe config)
    rw [addTargetUnsafe_eq]
    refine hcreate _ _ (hdropped _ (.inr ⟨config, rfl, rfl⟩)) ?_
    rw [withDefaults_id]
    exact lookup_dropExisting _
  | remove id => exact hdropped id (.inl rfl)
  | enable id =>
    show I (s.enableTarget id).1
    unfold enableTarget
    cases hid : s.targets.lookup id with
    | none => exact h
    | some ref =>
      dsimp only
      split
      · exact h
      · next hoff => exact hrenew id ref rfl hid (Bool.eq_false_iff.mpr hoff)
  | disable id =>
    show I (s.disableTarget id).1
    unfold disableTarget
    cases hid : s.targets.lookup id with
    | none => exact h
    | some ref =>
      dsimp only
      split
      · next hon => exact hhalt id ref rfl hid hon
      · exact h

end Operations

/-! ### The steps of a loop -/

section Steps

variable {s s' : Monitor} {k : Nat} {l : Loop} {move : Move}

/-- What a step of a loop can be. -/
inductive Advances (s : Monitor) (l : Loop) : Move → Monitor → Place → Prop
  | first (h : l.place = .starting) :
      Advances s l .first (s.beginCheck l.target) (.checking (s.heap l.target).ctx)
  | finish {ctx : Nat} (h : l.place = .checking ctx) (answer : Answer) :
      Advances s l (.finish answer) (s.finishCheck l.target ctx answer) .looping
  | enter (h : l.place = .looping) : Advances s l .enter s (.waiting (s.heap l.target).ctx)
  | tick {ctx : Nat} (h : l.place = .waiting ctx) :
      Advances s l .tick (s.beginCheck l.target) (.checking (s.heap l.target).ctx)
  | done {ctx : Nat} (h : l.place = .waiting ctx) (hc : s.cancelled ctx = true) :
      Advances s l .done s .returned

theorem advances_of_advance {r : Monitor × Place} (h : s.advance l move = some r) :
    Advances s l move r.1 r.2 := by
  cases move with
  | first | finish answer | enter | tick =>
    cases hp : l.place <;> rw [advance, hp] at h <;> cases h
    constructor
    exact hp
  | done =>
    cases hp : l.place with
    | waiting ctx =>
      simp only [advance, hp] at h
      split at h
      · next hc =>
        cases h
        exact .done hp hc
      · cases h
    | starting | checking ctx | looping | returned =>
      rw [advance, hp] at h
      cases h

theorem moveLoop_cases (h : s.moveLoop k move = some s') : ∃ l s₁ place,
    s.loops[k]? = some l ∧ Advances s l move s₁ place ∧ s' = s₁.setPlace k l place := by
  unfold moveLoop at h
  cases hl : s.loops[k]? with
  | none =>
    rw [hl] at h
    cases h
  | some l =>
    rw [hl] at h
    obtain ⟨r, hr, rfl⟩ := Option.map_eq_some_iff.mp h
    exact ⟨l, r.1, r.2, rfl, advances_of_advance hr, rfl⟩

theorem record_config (t : Target) (answer : Answer) : (t.record answer).config = t.config := by
  unfold record Target.pass fail
  split <;> dsimp only <;> split <;> rfl

theorem record_ctx (t : Target) (answer : Answer) : (t.record answer).ctx = t.ctx := by
  unfold record Target.pass fail
  split <;> dsimp only <;> split <;> rfl

/-- A step of a loop leaves its period, and everything else but the state of its target. -/
theorem SameShape.of_advances {s₁ : Monitor} {place : Place} (hl : s.loops[k]? = some l)
    (h : Advances s l move s₁ place) : SameShape s (s₁.setPlace k l place) := by
  have hperiods : (s.loops.set k { l with place := place }).map Loop.toPeriod = s.periods :=
    Tasks.map_set_of_eq Loop.toPeriod hl rfl
  have hself : ∀ t : Target, t.config = (s.heap l.target).config →
      t.ctx = (s.heap l.target).ctx → ∀ outcomes : Nat → List Bool,
      SameShape s ({ s.setTarget l.target t with outcomes := outcomes }.setPlace k l place) := by
    intro t hconfig hctx outcomes
    exact ⟨rfl, update_field Target.config hconfig, update_field Target.ctx hctx, rfl,
      rfl, rfl, hperiods⟩
  cases h with
  | first hp | tick hp => exact hself (s.heap l.target).countCheck rfl rfl s.outcomes
  | finish hp answer => exact hself _ (record_config _ _) (record_ctx _ _) _
  | enter hp | done hp hc => exact ⟨rfl, fun _ => rfl, fun _ => rfl, rfl, rfl, rfl, hperiods⟩

end Steps

end Monitor

end Newt.HealthCheck
