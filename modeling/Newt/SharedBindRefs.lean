import Newt.Lib.Runs
import Newt.Lib.Tasks
import Newt.SharedBind

/-!
# Who may close the shared socket

`NewWireGuardService` creates the bind with one reference for the device and
adds one for the hole-punch manager.  The device calls the bind as wireguard-go
does: an `Up` or a change of its port is one `Close` and then one `Open`, a
`Down` and the device's own `Close` are one `Close` each.  Other holders may add
references and release them.  The calls of all of them interleave.

`Close` releases a reference that `Open` does not take back.

Main results: `closed_once_after_release`, and `device_close_takes_manager_reference`,
a run in which bringing the device up once costs the manager its socket.
-/

namespace Newt.Bind

open List SharedBind

/-- What a device does with its bind. -/
inductive DeviceOp
  | up
  | portChange
  | down
  | close
  deriving DecidableEq, Repr

/-- Where the device is: between two operations, in the `Close` of an operation
(the call with this index), before the `Open` that follows it, or closed. -/
inductive DevicePC
  | idle
  | closing (op : DeviceOp) (call : Nat)
  | opening
  | gone
  deriving DecidableEq, Repr

inductive Caller
  | device (op : DeviceOp)
  | manager
  | holder
  deriving DecidableEq, Repr

/-- The call gives up the reference its caller got when the bind was created. -/
def Caller.final : Caller → Bool
  | .device .close | .manager => true
  | _ => false

theorem Caller.final_eq (k : Caller) :
    k.final.toNat = (decide (k = .manager)).toNat + (decide (k = .device .close)).toNat := by
  cases k with
  | manager | holder => simp [final]
  | device op => cases op <;> simp [final]

theorem Caller.final_add_holder (k : Caller) :
    k.final.toNat + (decide (k = .holder)).toNat ≤ 1 := by
  cases k with
  | manager | holder => simp [final]
  | device op => cases op <;> simp [final]

/-- A call of `Release`, or of `Close`, which is the same. -/
structure Call where
  caller : Caller
  pc : ReleasePC := .decrement
  deriving DecidableEq, Repr

/-- The bind and the parties that hold it. -/
structure Refs where
  bind : SharedBind
  device : DevicePC
  /-- The manager has not called `Release` yet. -/
  managerHolds : Bool
  /-- The references added later that nobody has begun to release. -/
  holding : Nat
  calls : List Call
  /-- The device's `Close` and the manager's `Release` have given up their
  references; no step of the code reads these two. -/
  deviceReleased : Bool
  managerReleased : Bool
  deriving DecidableEq, Repr

namespace Refs

inductive Event
  | addRef
  | release
  | managerRelease
  | device (op : DeviceOp)
  /-- The next step of a call. -/
  | call (i : Nat)
  /-- The device's `Close` has returned. -/
  | deviceReturn
  | deviceOpen
  deriving DecidableEq, Repr

/-- After `NewWireGuardService`, with a socket that has just been created. -/
def start (c : UDPConn) : Option Refs :=
  (new (some c)).toOption.map fun b =>
    { bind := b.addRef, device := .idle, managerHolds := true, holding := 0, calls := [],
      deviceReleased := false, managerReleased := false }

/-- One more call of `Release`. -/
def begin (s : Refs) (caller : Caller) : Refs :=
  { s with calls := s.calls ++ [{ caller := caller }] }

/-- Note that a call has given up its caller's reference. -/
def mark (s : Refs) : Caller → Refs
  | .device .close => { s with deviceReleased := true }
  | .manager => { s with managerReleased := true }
  | _ => s

/-- The next step of the call with an index. -/
def advance (s : Refs) (i : Nat) : Option Refs :=
  match s.calls[i]? with
  | none => none
  | some c =>
    match s.bind.release c.pc with
    | none => none
    | some (b, pc) =>
      let s' := { s with bind := b, calls := s.calls.set i { c with pc := pc } }
      if c.pc = .decrement then some (s'.mark c.caller) else some s'

/-- Where the device goes when the `Close` of an operation has returned. -/
def afterClose : DeviceOp → DevicePC
  | .up | .portChange => .opening
  | .down => .idle
  | .close => .gone

/-- One event, on a platform with batched reads (`linux`) or without. -/
def step (linux : Bool) (s : Refs) : Event → Option Refs
  | .addRef => some { s with bind := s.bind.addRef, holding := s.holding + 1 }
  | .release =>
    match s.holding with
    | 0 => none
    | n + 1 => some ({ s with holding := n }.begin .holder)
  | .managerRelease =>
    if s.managerHolds then some ({ s with managerHolds := false }.begin .manager) else none
  | .device op =>
    if s.device = .idle then
      some ({ s with device := .closing op s.calls.length }.begin (.device op))
    else none
  | .call i => s.advance i
  | .deviceReturn =>
    match s.device with
    | .closing op i =>
      match s.calls[i]? with
      | some { pc := .returned _, .. } => some { s with device := afterClose op }
      | _ => none
    | _ => none
  | .deviceOpen =>
    if s.device = .opening then
      some { s with bind := (s.bind.openBind linux).1, device := .idle }
    else none

/-! ## The references that are still to be given up -/

/-- The creation holders, device and manager, that have not released. -/
def unreleased (s : Refs) : Nat :=
  (!s.deviceReleased).toNat + (!s.managerReleased).toNat

/-- The calls of a caller that have not given up its reference yet. -/
def pending (s : Refs) (caller : Caller) : Nat :=
  s.calls.countP (fun c => c.caller = caller ∧ c.pc = .decrement)

/-- The calls at a program counter. -/
def callsAt (s : Refs) (pc : ReleasePC) : Nat :=
  s.calls.countP (fun c => c.pc = pc)

/-- The device has begun its own `Close`. -/
def ended (s : Refs) : Bool :=
  match s.device with
  | .closing .close _ | .gone => true
  | _ => false

/-- Every reference has been given up and every call has returned. -/
def AllReleased (s : Refs) : Prop :=
  s.unreleased = 0 ∧ s.holding = 0 ∧ ∀ c ∈ s.calls, ∃ err, c.pc = .returned err

/-- The socket `c` is closed at most once, only after the device and the
manager have released it, and it is closed when all references are gone. -/
structure ClosedOnce (c : UDPConn) (s : Refs) : Prop where
  once : s.bind.closedConns = [] ∨ s.bind.closedConns = [c]
  after : s.bind.closedConns ≠ [] → s.deviceReleased = true ∧ s.managerReleased = true
  last : s.AllReleased → s.bind.closedConns = [c]

/-- A step keeps a reference for each creation holder that has not released:
a reference that is not the last of such a holder is given up only while the
count exceeds their number, and the count does not overflow. -/
def KeepsReference (s : Refs) : Event → Prop
  | .addRef => s.bind.refCount < maxInt32
  | .call i =>
    ∀ c ∈ s.calls[i]?, c.pc = .decrement → c.caller.final = false →
      (s.unreleased : Int) < s.bind.refCount
  | _ => True

instance (s : Refs) (e : Event) : Decidable (s.KeepsReference e) := by
  unfold KeepsReference
  split <;> infer_instance

/-- What relates the count to the parties and the calls. -/
structure Sound (c : UDPConn) (s : Refs) : Prop where
  manager : s.managerHolds.toNat + s.pending .manager + s.managerReleased.toNat = 1
  device : s.pending (.device .close) + s.deviceReleased.toNat = s.ended.toNat
  lower : (s.unreleased : Int) ≤ s.bind.refCount
  upper : s.bind.refCount ≤ s.unreleased + s.holding + s.pending .holder
  fits : s.bind.refCount ≤ maxInt32
  noReset : s.callsAt .reset = 0
  swapping : s.callsAt .closeConnection ≠ 0 → s.unreleased = 0
  closed : s.bind.closed = true → s.unreleased = 0
  once : s.bind.closedConns.length + s.callsAt .closing = s.bind.closed.toNat
  conn : s.bind.udpConn.toList ++ s.bind.closedConns = [c]
  zero : s.bind.refCount = 0 → s.bind.closed = true ∨ s.callsAt .closeConnection ≠ 0

theorem unreleased_add (s : Refs) :
    s.unreleased + s.deviceReleased.toNat + s.managerReleased.toNat = 2 := by
  unfold unreleased
  cases s.deviceReleased <;> cases s.managerReleased <;> rfl

/-- A call's mark, written as one update. -/
theorem mark_eq (s : Refs) (k : Caller) :
    s.mark k = { s with deviceReleased := s.deviceReleased || k = .device .close
                        managerReleased := s.managerReleased || k = .manager } := by
  cases k with
  | manager | holder => simp [mark]
  | device op => cases op <;> simp [mark]

/-- The bind that a service starts with is sound. -/
theorem sound_start {c : UDPConn} {s : Refs} (h : start c = some s) : s.Sound c := by
  have hs : s = { bind := { udpConn := some c, ipv4PC := none, refCount := 2, closed := false,
                            port := c.port, rebinding := false, closedConns := [] },
                  device := .idle, managerHolds := true, holding := 0, calls := [],
                  deviceReleased := false, managerReleased := false } := by
    have h' : some _ = some s := h
    exact (Option.some.inj h').symm
  subst hs
  refine ⟨rfl, rfl, ?_, ?_, ?_, rfl, ?_, ?_, rfl, rfl, ?_⟩
  all_goals simp [unreleased, maxInt32, callsAt, pending]

section Steps

variable {c : UDPConn} {s : Refs} {i : Nat} {k : Call}

/-- In a sound state the socket is closed once, after the creation holders. -/
theorem Sound.closedOnce (h : s.Sound c) : s.ClosedOnce c := by
  have hconn := h.conn
  have honce := h.once
  have hadd := s.unreleased_add
  have hdev := Bool.toNat_le s.deviceReleased
  have hman := Bool.toNat_le s.managerReleased
  have hclosed : s.bind.closed = true → s.deviceReleased = true ∧ s.managerReleased = true := by
    intro hb
    have hzero := h.closed hb
    exact ⟨Bool.toNat_eq_one.mp (by omega), Bool.toNat_eq_one.mp (by omega)⟩
  have hone : s.bind.closedConns = [] ∨ s.bind.closedConns = [c] := by
    cases hu : s.bind.udpConn with
    | none => exact .inr (by simpa [hu] using hconn)
    | some u => exact .inl (by simpa [hu] using (cons.inj (by simpa [hu] using hconn)).2)
  refine ⟨hone, ?_, ?_⟩
  · intro hne
    have hlen := length_pos_iff.mpr hne
    exact hclosed (Bool.toNat_eq_one.mp (by have := Bool.toNat_le s.bind.closed; omega))
  · intro ⟨hun, hholding, hcalls⟩
    -- Every call has returned, so no reference and no close is on its way.
    have hnone : ∀ p : Call → Bool, (∀ k err, k.pc = .returned err → p k = false) →
        s.calls.countP p = 0 := by
      intro p hp
      rw [countP_eq_zero]
      intro k hk
      obtain ⟨err, herr⟩ := hcalls k hk
      simp [hp k err herr]
    have hpend : s.pending .holder = 0 := hnone _ (by intro k err hk; simp [hk])
    have hswap : s.callsAt .closeConnection = 0 := hnone _ (by intro k err hk; simp [hk])
    have hclosing : s.callsAt .closing = 0 := hnone _ (by intro k err hk; simp [hk])
    have hcount : s.bind.refCount = 0 := by
      have hlower := h.lower
      have hupper := h.upper
      omega
    have hb : s.bind.closed = true := (h.zero hcount).resolve_right (fun hne => hne hswap)
    rw [hb, hclosing] at honce
    rcases hone with hnil | hc
    · simp [hnil] at honce
    · exact hc

/-- The pending references when a call goes from its place to another one. -/
theorem pending_set (pc : ReleasePC) (hi : s.calls[i]? = some k)
    (q : Caller) :
    (s.calls.set i { k with pc := pc }).countP (fun c => c.caller = q ∧ c.pc = .decrement) +
        (decide (k.caller = q ∧ k.pc = .decrement)).toNat =
      s.pending q + (decide (k.caller = q ∧ pc = .decrement)).toNat :=
  Tasks.countP_set_add _ hi

/-- The calls at a place when a call goes from its place to another one. -/
theorem callsAt_set (pc : ReleasePC) (hi : s.calls[i]? = some k)
    (q : ReleasePC) :
    (s.calls.set i { k with pc := pc }).countP (fun c => c.pc = q) + (decide (k.pc = q)).toNat =
      s.callsAt q + (decide (pc = q)).toNat :=
  Tasks.countP_set_add _ hi

/-- The state after a call has decremented the count. -/
def decremented (s : Refs) (i : Nat) (k : Call) (pc : ReleasePC) : Refs :=
  { s with
    bind := { s.bind with refCount := s.bind.refCount - 1 }
    calls := s.calls.set i { k with pc := pc }
    deviceReleased := s.deviceReleased || k.caller = .device .close
    managerReleased := s.managerReleased || k.caller = .manager }

section Decrement

variable {pc : ReleasePC} (h : s.Sound c) (hi : s.calls[i]? = some k) (hk : k.pc = .decrement)

include hi hk

/-- The caller has one reference less that is on its way. -/
theorem decremented_pending (hpc : pc ≠ .decrement) (q : Caller) :
    (s.decremented i k pc).pending q + (decide (k.caller = q)).toNat = s.pending q := by
  simpa [decremented, pending, hk, hpc] using pending_set pc hi q

theorem decremented_callsAt {q : ReleasePC} (hq : q ≠ .decrement) :
    (s.decremented i k pc).callsAt q = s.callsAt q + (decide (pc = q)).toNat := by
  simpa [decremented, callsAt, hk, hq.symm] using callsAt_set pc hi q

include h

/-- What a call gives up when it decrements the count. -/
theorem Sound.decremented_released (pc : ReleasePC) :
    (s.decremented i k pc).managerReleased.toNat =
        s.managerReleased.toNat + (decide (k.caller = .manager)).toNat ∧
      (s.decremented i k pc).deviceReleased.toNat =
        s.deviceReleased.toNat + (decide (k.caller = .device .close)).toNat := by
  have hpos : ∀ q, k.caller = q → 0 < s.pending q := by
    intro q hq
    exact countP_pos_iff.mpr ⟨k, mem_of_getElem? hi, by simp [hq, hk]⟩
  have hman := h.manager
  have hdev := h.device
  have hend := Bool.toNat_le s.ended
  constructor
  · by_cases hq : k.caller = .manager
    · have := hpos _ hq
      have hfalse : s.managerReleased = false := Bool.toNat_eq_zero.mp (by omega)
      simp [decremented, hq, hfalse]
    · simp [decremented, hq]
  · by_cases hq : k.caller = .device .close
    · have := hpos _ hq
      have hfalse : s.deviceReleased = false := Bool.toNat_eq_zero.mp (by omega)
      simp [decremented, hq, hfalse]
    · simp [decremented, hq]

/-- Only the last reference of a creation holder lowers `unreleased`. -/
theorem Sound.decremented_unreleased (pc : ReleasePC) :
    (s.decremented i k pc).unreleased + k.caller.final.toNat = s.unreleased := by
  obtain ⟨hman, hdev⟩ := h.decremented_released hi hk pc
  have hadd := s.unreleased_add
  have hadd' := (s.decremented i k pc).unreleased_add
  have hfinal := k.caller.final_eq
  omega

/-- The references that are not released stay covered by the count. -/
theorem Sound.decremented_lower (pc : ReleasePC)
    (hkeep : k.caller.final = false → (s.unreleased : Int) < s.bind.refCount) :
    ((s.decremented i k pc).unreleased : Int) ≤ s.bind.refCount - 1 := by
  have hun := h.decremented_unreleased hi hk pc
  have hlower := h.lower
  cases hf : k.caller.final with
  | true =>
    rw [hf, Bool.toNat_true] at hun
    omega
  | false =>
    have hlt := hkeep hf
    omega

/-- The count goes down by one reference. -/
theorem Sound.decrement
    (hkeep : k.caller.final = false → (s.unreleased : Int) < s.bind.refCount)
    (hpc : pc = if s.bind.refCount - 1 = 0 then .closeConnection else .returned none) :
    (s.decremented i k pc).Sound c := by
  obtain ⟨hman, hdev⟩ := h.decremented_released hi hk pc
  have hne : pc ≠ .decrement ∧ pc ≠ .reset ∧ pc ≠ .closing := by
    rw [hpc]
    split <;> simp
  obtain ⟨hdec, hreset, hclosing⟩ := hne
  have hpend := decremented_pending hi hk hdec
  have hat : ∀ {q}, q ≠ .decrement →
      (s.decremented i k pc).callsAt q = s.callsAt q + (decide (pc = q)).toNat :=
    fun hq => decremented_callsAt hi hk hq
  have hun := h.decremented_unreleased hi hk pc
  refine ⟨?_, ?_, h.decremented_lower hi hk pc hkeep, ?_, ?_, ?_, ?_, ?_, ?_, h.conn, ?_⟩
  · have := h.manager
    have := hpend .manager
    show s.managerHolds.toNat + _ + _ = 1
    omega
  · have := h.device
    have := hpend (.device .close)
    show _ = s.ended.toNat
    omega
  · have := h.upper
    have := hpend .holder
    have := k.caller.final_add_holder
    show s.bind.refCount - 1 ≤ _ + (s.holding : Int) + _
    omega
  · exact Int.le_trans (Int.sub_le_self _ (by decide)) h.fits
  · rw [hat (by simp), h.noReset]
    simp [hreset]
  · intro hne
    by_cases hz : s.bind.refCount - 1 = 0
    · have := h.decremented_lower hi hk pc hkeep
      omega
    · have := h.swapping (by
        rw [hat (by simp)] at hne
        simpa [hpc, hz] using hne)
      omega
  · intro hclosed
    have := h.closed hclosed
    omega
  · rw [hat (by simp)]
    simpa [decremented, hclosing] using h.once
  · intro hz
    replace hz : s.bind.refCount - 1 = 0 := hz
    refine .inr ?_
    rw [hat (by simp), hpc, if_pos hz]
    simp

end Decrement

theorem callsAt_ne_zero (hi : s.calls[i]? = some k) :
    s.callsAt k.pc ≠ 0 := by
  have hpos : 0 < s.calls.countP (fun c => c.pc = k.pc) :=
    countP_pos_iff.mpr ⟨k, mem_of_getElem? hi, by simp⟩
  exact Nat.pos_iff_ne_zero.mp hpos

/-- A step behind the decrement that leaves the bind closed. -/
theorem Sound.leaveClosed {b : SharedBind} {pc : ReleasePC} (h : s.Sound c)
    (hi : s.calls[i]? = some k) (hk : k.pc ≠ .decrement) (hpc : pc ≠ .decrement)
    (hreset : pc ≠ .reset) (hun : s.unreleased = 0) (hcount : b.refCount = s.bind.refCount)
    (hclosed : b.closed = true) (hconn : b.udpConn.toList ++ b.closedConns = [c])
    (honce : b.closedConns.length +
      (s.calls.set i { k with pc := pc }).countP (fun c => c.pc = .closing) = 1) :
    Sound c { s with bind := b, calls := s.calls.set i { k with pc := pc } } := by
  set t : Refs := { s with bind := b, calls := s.calls.set i { k with pc := pc } } with ht
  have hpend : ∀ q, t.pending q = s.pending q := by
    intro q
    have hset := pending_set pc hi q
    simp only [hk, hpc, and_false, decide_false, Bool.toNat_false, Nat.add_zero] at hset
    exact hset
  have hnoReset : t.callsAt .reset = 0 := by
    have hset := callsAt_set pc hi .reset
    rw [h.noReset] at hset
    simp only [hreset, decide_false, Bool.toNat_false, Nat.add_zero] at hset
    exact Nat.le_zero.mp (Nat.le_trans (Nat.le_add_right _ _) (Nat.le_of_eq hset))
  refine ⟨?_, ?_, ?_, ?_, ?_, hnoReset, fun _ => hun, fun _ => hun, ?_, hconn,
    fun _ => .inl hclosed⟩
  · rw [hpend]
    exact h.manager
  · rw [hpend]
    exact h.device
  · exact hcount ▸ h.lower
  · rw [hpend]
    exact hcount ▸ h.upper
  · exact hcount ▸ h.fits
  · rw [hclosed]
    exact honce

/-- The swap of `closed`: the first call to get there will close the socket. -/
theorem Sound.closeConnection {b : SharedBind} {pc : ReleasePC}
    (h : s.Sound c) (hi : s.calls[i]? = some k) (hk : k.pc = .closeConnection)
    (hstep : s.bind.release .closeConnection = some (b, pc)) :
    Sound c { s with bind := b, calls := s.calls.set i { k with pc := pc } } := by
  have hun : s.unreleased = 0 := h.swapping (hk ▸ callsAt_ne_zero hi)
  have honce := h.once
  have hat := callsAt_set pc hi .closing
  cases hb : s.bind.closed with
  | true =>
    obtain ⟨rfl, rfl⟩ : s.bind = b ∧ .returned none = pc := by
      simpa [release, hb] using hstep
    simp only [hk, reduceCtorEq, decide_false, Bool.toNat_false, Nat.add_zero] at hat
    refine h.leaveClosed hi (by simp [hk]) (by simp) (by simp) hun rfl hb h.conn ?_
    rw [hat, honce, hb]
    rfl
  | false =>
    obtain ⟨rfl, rfl⟩ : { s.bind with closed := true } = b ∧ .closing = pc := by
      simpa [release, hb] using hstep
    rw [hb, Bool.toNat_false] at honce
    simp only [hk, reduceCtorEq, decide_false, decide_true, Bool.toNat_false, Bool.toNat_true,
      Nat.add_zero] at hat
    refine h.leaveClosed hi (by simp [hk]) (by simp) (by simp) hun rfl rfl h.conn ?_
    show s.bind.closedConns.length + _ = 1
    omega

/-- The close of the socket. -/
theorem Sound.closing (h : s.Sound c) (hi : s.calls[i]? = some k)
    (hk : k.pc = .closing) :
    Sound c { s with
              bind := { s.bind.closeConn with ipv4PC := none }
              calls := s.calls.set i { k with pc := .returned none } } := by
  have hat := callsAt_set (.returned none) hi .closing
  have hne : s.callsAt .closing ≠ 0 := hk ▸ callsAt_ne_zero hi
  have honce := h.once
  have hb : s.bind.closed = true := by
    have := Bool.toNat_le s.bind.closed
    exact Bool.toNat_eq_one.mp (by omega)
  rw [hb, Bool.toNat_true] at honce
  simp only [hk, reduceCtorEq, decide_false, decide_true, Bool.toNat_false, Bool.toNat_true,
    Nat.add_zero] at hat
  -- The socket is closed once: nothing was closed before and no other call closes.
  have hnil : s.bind.closedConns = [] := length_eq_zero_iff.mp (by omega)
  have hconn := h.conn
  rw [hnil, append_nil] at hconn
  refine h.leaveClosed hi (by simp [hk]) (by simp) (by simp) (h.closed hb) rfl hb ?_ ?_
  · simp [closeConn, hnil, hconn]
  · have hlen : (s.bind.closeConn).closedConns.length = 1 := by simp [closeConn, hnil, hconn]
    show (s.bind.closeConn).closedConns.length + _ = 1
    omega

/-- One more call: a reference that its caller begins to give up. -/
theorem pending_begin (s : Refs) (k q : Caller) :
    (s.begin k).pending q = s.pending q + (decide (k = q)).toNat := by
  by_cases hq : k = q <;> simp [begin, pending, countP_append, hq]

theorem callsAt_begin (s : Refs) (k : Caller) {pc : ReleasePC} (hpc : pc ≠ .decrement) :
    (s.begin k).callsAt pc = s.callsAt pc := by simp [begin, callsAt, countP_append, hpc.symm]

/-- A caller that begins to give up a reference it holds. -/
theorem Sound.begin {d : DevicePC} {m : Bool} {n : Nat} {k : Caller} (h : s.Sound c)
    (hman : m.toNat + (decide (k = .manager)).toNat = s.managerHolds.toNat)
    (hdev : ({ s with device := d, managerHolds := m, holding := n }.ended).toNat =
      s.ended.toNat + (decide (k = .device .close)).toNat)
    (hheld : n + (decide (k = .holder)).toNat = s.holding) :
    ({ s with device := d, managerHolds := m, holding := n }.begin k).Sound c := by
  set t : Refs := { s with device := d, managerHolds := m, holding := n } with ht
  have hpend : ∀ q, (t.begin k).pending q = s.pending q + (decide (k = q)).toNat :=
    pending_begin t k
  have hat : ∀ {pc}, pc ≠ .decrement → (t.begin k).callsAt pc = s.callsAt pc :=
    fun hpc => callsAt_begin t k hpc
  refine ⟨?_, ?_, h.lower, ?_, h.fits, ?_, ?_, h.closed, ?_, h.conn, ?_⟩
  · have := h.manager
    rw [hpend]
    show m.toNat + _ + s.managerReleased.toNat = 1
    omega
  · have := h.device
    rw [hpend]
    show _ + s.deviceReleased.toNat = t.ended.toNat
    omega
  · have := h.upper
    rw [hpend]
    show s.bind.refCount ≤ s.unreleased + (n : Int) + _
    omega
  · rw [hat (by simp)]
    exact h.noReset
  · rw [hat (by simp)]
    exact h.swapping
  · rw [hat (by simp)]
    exact h.once
  · rw [hat (by simp)]
    exact h.zero

/-- The device moves on; its own `Close` stays behind it. -/
theorem Sound.setDevice {d : DevicePC} (h : s.Sound c)
    (hend : ({ s with device := d }.ended) = s.ended) : Sound c { s with device := d } := by
  refine ⟨h.manager, ?_, h.lower, h.upper, h.fits, h.noReset, h.swapping, h.closed, h.once,
    h.conn, h.zero⟩
  rw [hend]
  exact h.device

/-- One more reference. -/
theorem Sound.addRef (h : s.Sound c) (hfits : s.bind.refCount < maxInt32) :
    Sound c { s with bind := s.bind.addRef, holding := s.holding + 1 } := by
  have hlower := h.lower
  have hcount : s.bind.addRef.refCount = s.bind.refCount + 1 := int32_eq (by omega) (by omega)
  refine ⟨h.manager, h.device, ?_, ?_, ?_, h.noReset, h.swapping, h.closed, h.once, h.conn, ?_⟩
  · show (s.unreleased : Int) ≤ s.bind.addRef.refCount
    omega
  · have hupper := h.upper
    show s.bind.addRef.refCount ≤ s.unreleased + ((s.holding + 1 : Nat) : Int) + s.pending .holder
    omega
  · show s.bind.addRef.refCount ≤ maxInt32
    omega
  · intro hz
    replace hz : s.bind.addRef.refCount = 0 := hz
    omega

/-- What `Open` leaves alone. -/
theorem Sound.openBind (linux : Bool) (h : s.Sound c) :
    Sound c { s with bind := (s.bind.openBind linux).1 } := by
  have hframe : ∃ pc, (s.bind.openBind linux).1 = { s.bind with ipv4PC := pc } := by
    unfold SharedBind.openBind
    split
    · exact ⟨_, rfl⟩
    · split <;> exact ⟨_, rfl⟩
  obtain ⟨pc, hpc⟩ := hframe
  rw [hpc]
  exact ⟨h.manager, h.device, h.lower, h.upper, h.fits, h.noReset, h.swapping, h.closed, h.once,
    h.conn, h.zero⟩

/-- The next step of a call. -/
theorem Sound.advance {i : Nat} {s' : Refs} (h : s.Sound c) (hkeep : s.KeepsReference (.call i))
    (hstep : s.advance i = some s') : s'.Sound c := by
  unfold Refs.advance at hstep
  cases hi : s.calls[i]? with
  | none => simp [hi] at hstep
  | some k =>
    cases hk : k.pc with
    | decrement =>
      have hlower := h.decremented_lower hi hk .decrement (hkeep k hi hk)
      have hpos : 0 < s.bind.refCount := by omega
      simp only [hi, hk, release_decrement hpos h.fits, if_true, mark_eq,
        Option.some.injEq] at hstep
      exact hstep ▸ h.decrement hi hk (hkeep k hi hk) rfl
    | reset =>
      have hne := callsAt_ne_zero hi
      rw [hk] at hne
      exact absurd h.noReset hne
    | closeConnection =>
      cases hr : s.bind.release .closeConnection with
      | none => simp [hi, hk, hr] at hstep
      | some r =>
        simp only [hi, hk, hr, reduceCtorEq, if_false, Option.some.injEq] at hstep
        exact hstep ▸ h.closeConnection hi hk hr
    | closing =>
      simp only [hi, hk, release, reduceCtorEq, if_false, Option.some.injEq] at hstep
      exact hstep ▸ h.closing hi hk
    | returned err => simp [hi, hk, release] at hstep

/-- Every event that keeps the creation holders' references keeps the count
sound. -/
theorem Sound.step {linux : Bool} {e : Event} {s' : Refs} (h : s.Sound c)
    (hkeep : s.KeepsReference e) (hstep : s.step linux e = some s') : s'.Sound c := by
  cases e with
  | addRef =>
    cases hstep
    exact h.addRef hkeep
  | release =>
    cases hn : s.holding with
    | zero => simp [Refs.step, hn] at hstep
    | succ n =>
      simp only [Refs.step, hn] at hstep
      cases hstep
      exact h.begin (by simp) (by simp [ended]) (by simp [hn])
  | managerRelease =>
    cases hm : s.managerHolds with
    | false => simp [Refs.step, hm] at hstep
    | true =>
      simp only [Refs.step, hm, if_true] at hstep
      cases hstep
      exact h.begin (by simp [hm]) (by simp [ended]) (by simp)
  | device op =>
    by_cases hd : s.device = .idle
    · simp only [Refs.step, hd, if_true] at hstep
      cases hstep
      refine h.begin (by simp) ?_ (by simp)
      cases op <;> simp [ended, hd]
    · simp [Refs.step, hd] at hstep
  | call i => exact h.advance hkeep hstep
  | deviceReturn =>
    simp only [Refs.step] at hstep
    split at hstep
    · rename_i op i hd
      split at hstep <;> cases hstep
      refine h.setDevice ?_
      cases op <;> simp [ended, hd, afterClose]
    · cases hstep
  | deviceOpen =>
    by_cases hd : s.device = .opening
    · simp only [Refs.step, hd, if_true] at hstep
      cases hstep
      exact (h.openBind linux).setDevice (by simp [ended, hd])
    · simp [Refs.step, hd] at hstep

end Steps

/-- **Who closes the socket**: if every step keeps a reference for each creation
holder, the socket is closed at most once, only after the device and the
manager have released it, and when nobody holds it any more. -/
theorem closed_once_after_release {linux : Bool} {c : UDPConn} {s s' : Refs} {es : List Event}
    (hstart : start c = some s) (hmeets : Runs.Meets (step linux) KeepsReference s es)
    (hrun : Runs.run (step linux) s es = some s') : s'.ClosedOnce c :=
  (Runs.run_invariant (fun h hkeep hstep => h.step hkeep hstep) (sound_start hstart) hmeets
    hrun).closedOnce

/-- A socket for the runs below. -/
def socket : UDPConn :=
  { id := 0, port := 51820 }

/-- The device is brought up: the `Close` of the given call returns, then `Open`. -/
def bringUp (call : Nat) : List Event :=
  [.device .up, .call call, .deviceReturn, .deviceOpen]

/-- A reference is added for the `Close` of the `Up`; then device and manager
release. -/
def sparedUp : List Event :=
  [.addRef] ++ bringUp 0 ++
    [.device .close, .call 1, .deviceReturn, .managerRelease, .call 2, .call 2, .call 2]

/-- With a reference of its own for the `Close`, bringing the device up does no
harm: the socket is closed by the manager's release. -/
theorem reference_for_up :
    ∃ s s', start socket = some s ∧ Runs.Meets (step true) KeepsReference s sparedUp ∧
      Runs.run (step true) s sparedUp = some s' ∧
      s'.bind.closedConns = [socket] ∧ s'.ClosedOnce socket := by
  have hmeets : ∀ s ∈ start socket, Runs.Meets (step true) KeepsReference s sparedUp := by
    decide +kernel
  exact ⟨_, _, rfl, hmeets _ rfl, rfl, by decide +kernel,
    closed_once_after_release rfl (hmeets _ rfl) rfl⟩

/-- Brought up once and closed, the device closes the socket while the
hole-punch manager holds it. -/
theorem device_close_takes_manager_reference :
    ∃ s s', start socket = some s ∧
      Runs.run (step true) s (bringUp 0 ++ [.device .close, .call 1, .call 1, .call 1]) =
        some s' ∧
      s'.managerHolds = true ∧ ¬ s'.ClosedOnce socket := by
  refine ⟨_, _, rfl, rfl, by decide +kernel, ?_⟩
  intro h
  have hreleased := (h.after (by decide +kernel)).2
  revert hreleased
  decide +kernel

end Refs

end Newt.Bind
