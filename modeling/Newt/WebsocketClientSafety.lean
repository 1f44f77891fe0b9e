import Newt.Lib.Tasks
import Newt.WebsocketClient

/-!
# One connection at a time

The client never has two connections.  What makes it so is a chain: a connect loop
opens a connection, its read pump takes over, closes it, takes it out of the field
`conn` and starts the next connect loop.  A `Phase` is where the chain is; of all
goroutines at most one is a link of the chain, and the field and the open connection
are what its phase says.  Ping monitors and calls of `Close` and `SendMessage` are never
a link: they can close the connection of the chain and nothing else.

`Close` may run at any place of the chain.  Either it finds the connection in the field
and closes it, or the read pump of a later connection finds `done` closed.

Main result: `single_connection`.
-/

namespace Newt.Websocket

open List Client Goroutine Option

/-- Where the chain is. -/
inductive Phase
  /-- A connect loop without a connection. -/
  | connecting
  /-- The dialer has returned a connection. -/
  | opened (k : Nat)
  /-- The connection is in the field. -/
  | current (k : Nat)
  /-- The read pump has closed the connection. -/
  | ended (k : Nat)
  /-- It has taken it out of the field. -/
  | released (k : Nat)
deriving DecidableEq

/-- What the field holds. -/
def Phase.field : Phase → Option Nat
  | .current k | .ended k => some k
  | _ => none

/-- The connection that may be open. -/
def Phase.owned : Phase → Option Nat
  | .opened k | .current k => some k
  | _ => none

/-- The connection whose end has not started a connect loop. -/
def Phase.session : Phase → Option Nat
  | .connecting => none
  | .opened k | .current k | .ended k | .released k => some k

/-- The connection is, or was, in the field. -/
def Phase.held : Phase → Bool
  | .connecting | .opened _ => false
  | _ => true

def ConnectPC.phase : ConnectPC → Option Phase
  | .select | .dial | .sleep => some .connecting
  | .assign k => some (.opened k)
  | .startPing k | .startPump k => some (.current k)
  | .onConnect | .returned => none

def PumpPC.phase (k : Nat) : PumpPC → Option Phase
  | .select | .read | .blocked _ | .received _ | .handler | .signal | .test
  | .closeConn => some (.current k)
  | .shutdown | .lock | .retest | .closeAgain | .clear => some (.ended k)
  | .unlock | .restart => some (.released k)
  | .returned => none

/-- The phase of the chain whose link a goroutine is. -/
def Goroutine.phase : Goroutine → Option Phase
  | .connectWithRetry pc => pc.phase
  | .readPump k pc => pc.phase k
  | _ => none

/-- In the loop of the read pump. -/
def Goroutine.inReadLoop : Goroutine → Bool
  | .readPump _ .select | .readPump _ .read | .readPump _ (.blocked _) | .readPump _ (.received _)
  | .readPump _ .handler => true
  | _ => false

def Goroutine.isClose : Goroutine → Bool
  | .close _ => true
  | _ => false

/-- Past the test of `done`, in `ReadMessage` or about to call it. -/
def Goroutine.reading : Goroutine → Bool
  | .readPump _ .read | .readPump _ (.blocked _) => true
  | _ => false

/-- `Close` has found a connection in the field. -/
def ClosePC.pastTest : ClosePC → Bool
  | .lock | .write | .unlock | .closeConn => true
  | _ => false

/-- `Close` has closed `done` and not yet returned. -/
def ClosePC.pending (pc : ClosePC) : Bool :=
  pc.pastTest || pc == .test

/-- `Close` has closed `done` or found it closed. -/
def ClosePC.begun (pc : ClosePC) : Bool :=
  pc.pending || pc == .returned

/-- `Close` is where it uses the connection. -/
def ClosePC.uses : ClosePC → Bool
  | .write | .closeConn => true
  | _ => false

/-- A goroutine that has not run yet. -/
def Goroutine.started : Goroutine → Bool
  | .connectWithRetry .select | .pingMonitor _ .test | .readPump _ .select | .close .select
  | .sendMessage .test => true
  | _ => false

namespace Client

/-- A goroutine that has returned, or waits for a message on an open connection. -/
def atRest (s : Client) : Goroutine → Bool
  | .connectWithRetry pc | .pingMonitor _ pc => pc == .returned
  | .readPump _ (.blocked j) => s.isOpen j
  | .readPump _ pc | .close pc => pc == .returned
  | .sendMessage (.returned _) => true
  | .sendMessage _ => false

/-- `Close` was called and all goroutines have come to rest, or `Close` has come to
use a nil connection, which ends the program. -/
def Settled (s : Client) : Prop :=
  ((∃ pc, .close pc ∈ s.goroutines) ∧ ∀ g ∈ s.goroutines, s.atRest g = true) ∨
    (∃ pc, .close pc ∈ s.goroutines ∧ pc.uses = true) ∧ s.conn = none

/-- The connections of a client. -/
structure SingleConnection (s : Client) : Prop where
  /-- At most one connection is not closed. -/
  oneOpen : ∀ i j, s.isOpen i = true → s.isOpen j = true → i = j
  /-- At most one goroutine is in the read loop. -/
  oneReader : s.goroutines.countP inReadLoop ≤ 1
  /-- The end of a connection starts at most one connect loop. -/
  oneRestart : ∀ c ∈ s.conns, c.restarts ≤ 1
  /-- In the end no connection is open. -/
  closed : s.Settled → ∀ j, s.isOpen j = false

/-- The field and the connections are what the chain says. -/
structure Owned (s : Client) (chain : Option Phase) : Prop where
  phases : s.goroutines.filterMap phase = chain.toList
  field : ∀ p ∈ chain, s.conn = p.field
  owned : ∀ j, s.isOpen j = true → chain.bind Phase.owned = some j
  fresh : ∀ k ∈ chain.bind Phase.session, ∃ c, s.conns[k]? = some c ∧ c.restarts = 0
  restarts : ∀ c ∈ s.conns, c.restarts ≤ 1

/-- What `Close` has seen, and what it has still to do. -/
structure Closing (s : Client) (chain : Option Phase) : Prop where
  done : ∀ pc, .close pc ∈ s.goroutines → pc.begun = true → s.done = true
  pending : s.done = true → (∃ g ∈ s.goroutines, g.reading = true) →
    (∃ j, s.isOpen j = true) → ∃ pc, .close pc ∈ s.goroutines ∧ pc.pending = true
  past : ∀ pc, .close pc ∈ s.goroutines → pc.pastTest = true → ∀ p ∈ chain, p.held = true

/-- The invariant. -/
def Sound (s : Client) : Prop :=
  ∃ chain, s.Owned chain ∧ s.Closing chain

variable {s s' t : Client} {chain : Option Phase} {p : Phase} {f : Conn → Conn} {i j k : Nat}
  {g g' : Goroutine} {choice : Choice} {α : Type} {r : Client × α}

/-! ## The chain -/

section

variable (h : s.Owned chain)
include h

/-- The link of the chain has its phase. -/
theorem Owned.chain_eq (hg : g ∈ s.goroutines) (hp : g.phase = some p) : chain = some p := by
  have hmem : p ∈ s.goroutines.filterMap phase :=
    mem_filterMap.mpr ⟨g, hg, hp⟩
  rw [h.phases] at hmem
  exact mem_toList.mp hmem

/-- The chain has a link. -/
theorem Owned.exists_link (hp : chain = some p) : ∃ g ∈ s.goroutines, g.phase = some p := by
  have hmem : p ∈ s.goroutines.filterMap phase := by
    rw [h.phases, hp]
    exact mem_singleton_self p
  exact mem_filterMap.mp hmem

/-- The one that reads is the read pump of the connection in the field. -/
theorem Owned.current_of_reading (hread : ∃ g ∈ s.goroutines, g.reading = true) :
    ∃ k, chain = some (.current k) ∧ s.conn = some k := by
  obtain ⟨g, hg, hr⟩ := hread
  have hphase : ∃ k, g.phase = some (.current k) := by
    unfold reading at hr
    split at hr
    · exact ⟨_, rfl⟩
    · exact ⟨_, rfl⟩
    · cases hr
  obtain ⟨k, hk⟩ := hphase
  have hchain := h.chain_eq hg hk
  exact ⟨k, hchain, h.field _ hchain⟩

/-- Without a connection of its own the chain leaves none open. -/
theorem Owned.none_open (hchain : chain.bind Phase.owned = none) (j : Nat) :
    s.isOpen j = false := by
  cases hj : s.isOpen j with
  | false => rfl
  | true =>
    rw [h.owned j hj] at hchain
    cases hchain

/-- The chain does not see the other fields, nor a goroutine that is no link. -/
theorem Owned.congr (hconn : t.conn = s.conn) (hconns : t.conns = s.conns)
    (hphases : t.goroutines.filterMap phase = s.goroutines.filterMap phase) :
    t.Owned chain := by
  refine ⟨hphases.trans h.phases, ?_, ?_, ?_, ?_⟩
  · rw [hconn]
    exact h.field
  · unfold isOpen
    rw [hconns]
    exact h.owned
  · rw [hconns]
    exact h.fresh
  · rw [hconns]
    exact h.restarts

end

/-- A change of one connection that does not open it. -/
theorem isOpen_modify (hf : ∀ c, c.closed = true → (f c).closed = true) {j k : Nat}
    (h : isOpen { s with conns := s.conns.modify k f } j = true) : s.isOpen j = true := by
  unfold isOpen at h ⊢
  rw [getElem?_modify] at h
  cases hc : s.conns[j]? with
  | none =>
    rw [hc] at h
    cases h
  | some c =>
    rw [hc] at h
    cases hclosed : c.closed with
    | false => simp [hclosed]
    | true =>
      have hf' := hf c hclosed
      simp only [Option.map_eq_map, Option.map_some, Option.any_some] at h
      split at h
      · rw [hf'] at h
        cases h
      · rw [hclosed] at h
        cases h

/-- A closed connection is not open. -/
theorem isOpen_closeConn {j k : Nat} (h : (s.closeConn k).isOpen j = true) :
    s.isOpen j = true ∧ j ≠ k := by
  refine ⟨isOpen_modify (fun c _ => rfl) h, ?_⟩
  intro heq
  subst heq
  unfold isOpen closeConn at h
  rw [getElem?_modify] at h
  cases hc : s.conns[j]? with
  | none =>
    rw [hc] at h
    cases h
  | some c =>
    rw [hc] at h
    simp at h

theorem exists_getElem?_modify (hf : ∀ c, (f c).restarts = c.restarts) {j k : Nat}
    (h : ∃ c, s.conns[k]? = some c ∧ c.restarts = 0) :
    ∃ c, (s.conns.modify j f)[k]? = some c ∧ c.restarts = 0 := by
  obtain ⟨c, hc, hzero⟩ := h
  rw [getElem?_modify, hc]
  refine ⟨_, rfl, ?_⟩
  split
  · rw [hf, hzero]
  · exact hzero

/-- A bound on all connections outlives a change of one of them. -/
theorem restarts_modify {n k : Nat} (h : ∀ c ∈ s.conns, c.restarts ≤ n)
    (hf : ∀ c, s.conns[k]? = some c → (f c).restarts ≤ n) :
    ∀ c ∈ s.conns.modify k f, c.restarts ≤ n := by
  intro c hc
  obtain ⟨j, hj⟩ := mem_iff_getElem?.mp hc
  rw [getElem?_modify] at hj
  obtain ⟨c', hc', heq⟩ := map_eq_some_iff.mp hj
  split at heq
  · next hjk =>
    subst hjk
    rw [← heq]
    exact hf c' hc'
  · rw [← heq]
    exact h c' (mem_of_getElem? hc')

section

variable (h : s.Owned chain)
include h

/-- Closing a connection or its channel leaves the chain where it is. -/
theorem Owned.modify (k : Nat) (hclosed : ∀ c, c.closed = true → (f c).closed = true)
    (hrestarts : ∀ c, (f c).restarts = c.restarts) :
    Owned { s with conns := s.conns.modify k f } chain := by
  refine ⟨h.phases, h.field, fun j hj => h.owned j (isOpen_modify hclosed hj), ?_, ?_⟩
  · intro k' hk'
    exact exists_getElem?_modify hrestarts (h.fresh k' hk')
  · refine restarts_modify h.restarts fun c hc => ?_
    rw [hrestarts]
    exact h.restarts c (mem_of_getElem? hc)

theorem Owned.closeConn (j : Nat) : (s.closeConn j).Owned chain :=
  h.modify j (fun _ _ => rfl) (fun _ => rfl)

/-- A goroutine moves within its phase. -/
theorem Owned.stay (g' : Goroutine) (hi : s.goroutines[i]? = some g) (hphase : g'.phase = g.phase)
    (hconn : t.conn = s.conn) (hconns : t.conns = s.conns)
    (hgoroutines : t.goroutines = s.goroutines.set i g') : t.Owned chain := by
  refine h.congr hconn hconns ?_
  rw [hgoroutines]
  exact Tasks.filterMap_set_of_eq _ hi hphase

/-- The link of the chain moves to the phase of `g'`. -/
theorem Owned.phases_set (hi : s.goroutines[i]? = some g) (hp : g.phase = some p) :
    (s.goroutines.set i g').filterMap phase = g'.phase.toList := by
  have hchain := h.chain_eq (mem_of_getElem? hi) hp
  refine Tasks.filterMap_set_of_singleton _ ?_ hi hp
  rw [h.phases, hchain]
  rfl

/-- The chain comes to its end. -/
theorem Owned.stop (hi : s.goroutines[i]? = some g) (hp : g.phase = some p)
    (howned : p.owned = none) (hg' : g'.phase = none) :
    Owned { s with goroutines := s.goroutines.set i g' } none := by
  have hchain := h.chain_eq (mem_of_getElem? hi) hp
  refine ⟨?_, fun p hp => (nomatch hp), ?_, fun k hk => (nomatch hk), h.restarts⟩
  · rw [h.phases_set hi hp, hg']
  · intro j hj
    have hclosed := h.none_open (j := j) (by rw [hchain]; exact howned)
    rw [show s.isOpen j = true from hj] at hclosed
    cases hclosed

end

/-- The fields the chain and `Close` look at are the same. -/
structure Alike (s t : Client) : Prop where
  conn : t.conn = s.conn
  conns : t.conns = s.conns
  done : t.done = s.done
  goroutines : t.goroutines = s.goroutines

theorem Alike.refl (s : Client) : s.Alike s := ⟨rfl, rfl, rfl, rfl⟩

theorem deref_eq {here : α} {use : Nat → Option (Client × α)} (h : s.deref here use = some r) :
    (s.conn = none ∧ r = ({ s with panicked := true }, here)) ∨
      ∃ j, s.conn = some j ∧ use j = some r := by
  unfold deref at h
  split at h
  · next hnone => exact .inl ⟨hnone, (some.inj h).symm⟩
  · next j hj => exact .inr ⟨j, hj, h⟩

/-- A write fails or is done on an open connection. -/
theorem write_cases {after : Bool → α} (h : s.write choice after j = some r) :
    choice = .fail ∧ r = (s, after false) ∨
      choice = .next ∧ s.isOpen j = true ∧ r = (s, after true) := by
  unfold write at h
  split at h
  · split at h
    · next hopen => exact .inr ⟨rfl, hopen, (some.inj h).symm⟩
    · cases h
  · exact .inl ⟨rfl, (some.inj h).symm⟩
  · cases h

theorem write_eq {after : Bool → α} (h : s.write choice after j = some r) :
    ∃ sent, r = (s, after sent) := by
  rcases write_cases h with ⟨-, rfl⟩ | ⟨-, -, rfl⟩
  · exact ⟨false, rfl⟩
  · exact ⟨true, rfl⟩

theorem lock_eq {pc : α} (h : s.lock.map (fun s' => (s', pc)) = some r) :
    r = ({ s with writeMux := true }, pc) := by
  obtain ⟨s', hs', rfl⟩ := map_eq_some_iff.mp h
  unfold lock at hs'
  split at hs'
  · cases hs'
  · cases hs'
    rfl

/-! ## Goroutines that are not in `Close` -/

/-- Another goroutine moves and starts goroutines; the calls of `Close` stay where they
are. -/
theorem Closing.other (h : s.Closing chain) {chain' : Option Phase} (new : List Goroutine)
    (hi : s.goroutines[i]? = some g) (hg : g.isClose = false) (hg' : g'.isClose = false)
    (hnew : ∀ x ∈ new, x.isClose = false ∧ x.reading = false)
    (hgoroutines : t.goroutines = s.goroutines.set i g' ++ new) (hdone : t.done = s.done)
    (hread : s.done = true → g'.reading = true → g.reading = true)
    (hopen : (∃ x ∈ s.goroutines, x.reading = true) →
      ∀ j, t.isOpen j = true → s.isOpen j = true)
    (hheld : s.done = true → (∀ p ∈ chain, p.held = true) → ∀ p ∈ chain', p.held = true) :
    t.Closing chain' := by
  have hclose : ∀ pc, .close pc ∈ t.goroutines → .close pc ∈ s.goroutines := by
    intro pc hpc
    rw [hgoroutines, mem_append] at hpc
    rcases hpc with hpc | hpc
    · rcases mem_or_eq_of_mem_set hpc with hpc | rfl
      · exact hpc
      · cases hg'
    · cases (hnew _ hpc).1
  refine ⟨?_, ?_, ?_⟩
  · intro pc hpc hbegun
    rw [hdone]
    exact h.done pc (hclose pc hpc) hbegun
  · intro htdone hreading hsome
    rw [hdone] at htdone
    have hbefore : ∃ x ∈ s.goroutines, x.reading = true := by
      obtain ⟨x, hx, hxr⟩ := hreading
      rw [hgoroutines, mem_append] at hx
      rcases hx with hx | hx
      · rcases mem_or_eq_of_mem_set hx with hx | rfl
        · exact ⟨x, hx, hxr⟩
        · exact ⟨g, mem_of_getElem? hi, hread htdone hxr⟩
      · rw [(hnew x hx).2] at hxr
        cases hxr
    obtain ⟨j, hj⟩ := hsome
    obtain ⟨pc, hpc, hpending⟩ := h.pending htdone hbefore ⟨j, hopen hbefore j hj⟩
    refine ⟨pc, ?_, hpending⟩
    rw [hgoroutines, mem_append]
    rcases Tasks.mem_set_of_mem (b := g') hi hpc with rfl | hmem
    · cases hg
    · exact .inl hmem
  · intro pc hpc hpast
    have hbegun : pc.begun = true := by simp [ClosePC.begun, ClosePC.pending, hpast]
    exact hheld (h.done pc (hclose pc hpc) hbegun) (h.past pc (hclose pc hpc) hpast)

/-- **Most steps**: a goroutine moves within its phase and changes nothing the chain or
`Close` look at. -/
theorem Sound.stay (h : s.Sound) (hst : s.Alike t) (g' : Goroutine)
    (hi : s.goroutines[i]? = some g) (hg : g.isClose = false) (hg' : g'.isClose = false)
    (hphase : g'.phase = g.phase)
    (hread : s.done = true → g'.reading = true → g.reading = true) :
    Sound { t with goroutines := t.goroutines.set i g' } := by
  obtain ⟨chain, howned, hclosing⟩ := h
  have hgoroutines : t.goroutines.set i g' = s.goroutines.set i g' := by rw [hst.goroutines]
  refine ⟨chain, howned.stay g' hi hphase hst.conn hst.conns hgoroutines, ?_⟩
  refine hclosing.other [] hi hg hg' (forall_mem_nil _) ?_ hst.done hread ?_
    (fun _ hheld => hheld)
  · rw [append_nil]
    exact hgoroutines
  · intro _ j hj
    unfold isOpen at hj ⊢
    rw [← hst.conns]
    exact hj

/-- A connection or its channel is closed. -/
theorem Sound.modify (h : s.Sound) (k : Nat)
    (hclosed : ∀ c, c.closed = true → (f c).closed = true)
    (hrestarts : ∀ c, (f c).restarts = c.restarts) :
    Sound { s with conns := s.conns.modify k f } := by
  obtain ⟨chain, howned, hclosing⟩ := h
  refine ⟨chain, howned.modify k hclosed hrestarts, hclosing.done, ?_, hclosing.past⟩
  intro hdone hread hsome
  obtain ⟨j, hj⟩ := hsome
  exact hclosing.pending hdone hread ⟨j, isOpen_modify hclosed hj⟩

theorem Sound.closeConn (h : s.Sound) (j : Nat) : (s.closeConn j).Sound :=
  h.modify j (fun _ _ => rfl) (fun _ => rfl)

theorem Sound.signal (h : s.Sound) (k : Nat) : (s.signal k).Sound :=
  h.modify k (fun _ hc => hc) (fun _ => rfl)

/-- A goroutine that is no link of the chain starts. -/
theorem Sound.spawn (h : s.Sound) (hphase : g.phase = none) (hread : g.reading = false)
    (hclose : ∀ pc, g = .close pc → pc.begun = false) :
    Sound { s with goroutines := s.goroutines ++ [g] } := by
  obtain ⟨chain, howned, hclosing⟩ := h
  have hbegun : ∀ pc, .close pc ∈ s.goroutines ++ [g] → pc.begun = true →
      .close pc ∈ s.goroutines := by
    intro pc hpc hpcb
    rcases mem_append.mp hpc with hmem | hmem
    · exact hmem
    · rw [hclose pc (mem_singleton.mp hmem).symm] at hpcb
      cases hpcb
  refine ⟨chain, howned.congr rfl rfl ?_, ?_, ?_, ?_⟩
  · simp [hphase]
  · intro pc hpc hpcb
    exact hclosing.done pc (hbegun pc hpc hpcb) hpcb
  · intro hdone hreading hsome
    obtain ⟨x, hx, hxr⟩ := hreading
    have hmem : x ∈ s.goroutines := by
      rcases mem_append.mp hx with hmem | hmem
      · exact hmem
      · rw [mem_singleton.mp hmem, hread] at hxr
        cases hxr
    obtain ⟨pc, hpc, hpending⟩ := hclosing.pending hdone ⟨x, hmem, hxr⟩ hsome
    exact ⟨pc, mem_append_left _ hpc, hpending⟩
  · intro pc hpc hpast
    have hpcb : pc.begun = true := by simp [ClosePC.begun, ClosePC.pending, hpast]
    exact hclosing.past pc (hbegun pc hpc hpcb) hpast

/-- What a ping monitor does to the others: it can close the connection in the field. -/
theorem pingMonitor_effect {pc : PingPC} {r : Client × PingPC}
    (h : s.pingMonitor k pc choice = some r) :
    s.Alike r.1 ∨ ∃ j, s.conn = some j ∧ r.1 = s.closeConn j := by
  cases pc with
  | test | processing | retest | unlock | shutdown | testAgain | unlockAgain =>
    cases choice <;> cases h
    exact .inl ⟨rfl, rfl, rfl, rfl⟩
  | lock | lockAgain =>
    cases choice with
    | next =>
      rw [lock_eq h]
      exact .inl ⟨rfl, rfl, rfl, rfl⟩
    | _ => cases h
  | write =>
    rcases deref_eq h with ⟨-, rfl⟩ | ⟨j, -, hwrite⟩
    · exact .inl ⟨rfl, rfl, rfl, rfl⟩
    · obtain ⟨sent, rfl⟩ := write_eq hwrite
      exact .inl (.refl s)
  | closeConn =>
    cases choice with
    | next =>
      rcases deref_eq h with ⟨-, rfl⟩ | ⟨j, hj, hclose⟩
      · exact .inl ⟨rfl, rfl, rfl, rfl⟩
      · cases hclose
        exact .inr ⟨j, hj, rfl⟩
    | _ => cases h
  | wait =>
    cases choice with
    | tick =>
      cases h
      exact .inl (.refl s)
    | next =>
      obtain ⟨-, h⟩ := ite_none_right_eq_some.mp h
      cases h
      exact .inl (.refl s)
    | _ => cases h
  | returned => cases h

theorem Sound.pingMonitor (h : s.Sound) {pc : PingPC} {r : Client × PingPC}
    (hi : s.goroutines[i]? = some (.pingMonitor k pc))
    (hmove : s.pingMonitor k pc choice = some r) :
    Sound { r.1 with goroutines := r.1.goroutines.set i (.pingMonitor k r.2) } := by
  rcases pingMonitor_effect hmove with halike | ⟨j, -, hclose⟩
  · exact h.stay halike _ hi rfl rfl rfl (fun _ => id)
  · rw [hclose]
    exact (h.closeConn j).stay (.refl _) _ hi rfl rfl rfl (fun _ => id)

/-- `SendMessage` changes nothing the chain looks at. -/
theorem sendMessage_effect {pc : SendPC} {r : Client × SendPC}
    (h : s.sendMessage pc choice = some r) : s.Alike r.1 := by
  unfold sendMessage at h
  split at h
  · cases h
    exact ⟨rfl, rfl, rfl, rfl⟩
  · rw [lock_eq h]
    exact ⟨rfl, rfl, rfl, rfl⟩
  · rcases deref_eq h with ⟨-, rfl⟩ | ⟨j, -, hwrite⟩
    · exact ⟨rfl, rfl, rfl, rfl⟩
    · obtain ⟨sent, rfl⟩ := write_eq hwrite
      exact ⟨rfl, rfl, rfl, rfl⟩
  · cases h
    exact ⟨rfl, rfl, rfl, rfl⟩
  · cases h

theorem Sound.sendMessage (h : s.Sound) {pc : SendPC} {r : Client × SendPC}
    (hi : s.goroutines[i]? = some (.sendMessage pc)) (hmove : s.sendMessage pc choice = some r) :
    Sound { r.1 with goroutines := r.1.goroutines.set i (.sendMessage r.2) } :=
  h.stay (sendMessage_effect hmove) _ hi rfl rfl rfl (fun _ => id)

/-! ## The links of the chain -/

theorem getElem?_append_of_some {l : List Goroutine} (hi : l[i]? = some g) (x : Goroutine) :
    (l ++ [x])[i]? = some g := by
  obtain ⟨hlt, -⟩ := List.getElem?_eq_some_iff.mp hi
  rw [List.getElem?_append_left hlt]
  exact hi

theorem set_append_of_some {l : List Goroutine} (hi : l[i]? = some g) (g' x : Goroutine) :
    (l ++ [x]).set i g' = l.set i g' ++ [x] := by
  obtain ⟨hlt, -⟩ := List.getElem?_eq_some_iff.mp hi
  exact List.set_append_left i g' hlt

section

variable (h : s.Sound)
include h

/-- The chain ends with a link that leaves no connection open. -/
theorem Sound.stop (g' : Goroutine) (hi : s.goroutines[i]? = some g) (hg : g.isClose = false)
    (hg' : g'.isClose = false) (hp : g.phase = some p) (howned : p.owned = none)
    (hphase : g'.phase = none) (hread : g'.reading = false) :
    Sound { s with goroutines := s.goroutines.set i g' } := by
  obtain ⟨chain, howned', hclosing⟩ := h
  refine ⟨none, howned'.stop hi hp howned hphase, ?_⟩
  refine hclosing.other [] hi hg hg' (forall_mem_nil _) ?_ rfl ?_
    (fun _ j hj => hj) (fun _ _ p hp => (nomatch hp))
  · exact (append_nil _).symm
  · intro _ htrue
    rw [hread] at htrue
    cases htrue

/-- The dialer returns a connection. -/
theorem Sound.dial (hi : s.goroutines[i]? = some (.connectWithRetry .dial)) :
    Sound { s with
      conns := s.conns ++ [({} : Conn)]
      goroutines := s.goroutines.set i (.connectWithRetry (.assign s.conns.length)) } := by
  obtain ⟨chain, howned, hclosing⟩ := h
  have hchain : chain = some .connecting := howned.chain_eq (mem_of_getElem? hi) rfl
  have hclosed := howned.none_open (by rw [hchain]; rfl)
  have hnew : (s.conns ++ [({} : Conn)])[s.conns.length]? = some {} :=
    getElem?_concat_length
  refine ⟨some (.opened s.conns.length), ⟨?_, ?_, ?_, ?_, ?_⟩, ?_⟩
  · exact howned.phases_set hi rfl
  · intro p hp
    cases hp
    have hfield := howned.field _ hchain
    exact hfield
  · -- The only open connection is the new one.
    intro j hj
    unfold isOpen at hj
    rcases Nat.lt_trichotomy j s.conns.length with hlt | heq | hgt
    · have hold : s.isOpen j = true := by
        rw [getElem?_append_left hlt] at hj
        exact hj
      rw [hclosed j] at hold
      cases hold
    · rw [heq]
      rfl
    · have hlen : (s.conns ++ [({} : Conn)]).length ≤ j := by
        rw [length_append, length_singleton]
        exact hgt
      rw [getElem?_eq_none hlen] at hj
      cases hj
  · intro k hk
    cases hk
    exact ⟨_, hnew, rfl⟩
  · exact Runs.forall_mem_concat howned.restarts (Nat.zero_le 1)
  · refine hclosing.other [] hi rfl rfl (forall_mem_nil _) (append_nil _).symm rfl (fun _ => id)
      ?_ ?_
    · -- A goroutine that reads would be a second link of the chain.
      intro hread
      obtain ⟨k, hcurrent, -⟩ := howned.current_of_reading hread
      rw [hchain] at hcurrent
      cases hcurrent
    · intro _ hheld
      have hconnecting := hheld .connecting hchain
      cases hconnecting

/-- The connection is put into the field. -/
theorem Sound.assign (hi : s.goroutines[i]? = some (.connectWithRetry (.assign k))) :
    Sound { s with
      conn := some k
      goroutines := s.goroutines.set i (.connectWithRetry (.startPing k)) } := by
  obtain ⟨chain, howned, hclosing⟩ := h
  have hchain : chain = some (.opened k) := howned.chain_eq (mem_of_getElem? hi) rfl
  subst hchain
  refine ⟨some (.current k), ⟨?_, ?_, howned.owned, howned.fresh, howned.restarts⟩, ?_⟩
  · exact howned.phases_set hi rfl
  · intro p hp
    cases hp
    rfl
  · refine hclosing.other [] hi rfl rfl (forall_mem_nil _) (append_nil _).symm rfl (fun _ => id)
      (fun _ j hj => hj) ?_
    intro _ hheld
    have hopened := hheld _ rfl
    cases hopened

/-- The read pump takes over from the connect loop. -/
theorem Sound.startPump (hi : s.goroutines[i]? = some (.connectWithRetry (.startPump k))) :
    Sound { s with
      goroutines := (s.goroutines ++ [Goroutine.readPump k .select]).set i
        (.connectWithRetry .onConnect) } := by
  obtain ⟨chain, howned, hclosing⟩ := h
  have hchain : chain = some (.current k) := howned.chain_eq (mem_of_getElem? hi) rfl
  rw [set_append_of_some hi]
  refine ⟨chain, howned.congr rfl rfl ?_, ?_⟩
  · rw [filterMap_append, howned.phases_set hi rfl, howned.phases, hchain]
    rfl
  · refine hclosing.other [_] hi rfl rfl ?_ rfl rfl (fun _ => id) (fun _ j hj => hj)
      (fun _ hheld => hheld)
    intro x hx
    rw [mem_singleton.mp hx]
    exact ⟨rfl, rfl⟩

theorem Sound.connectWithRetry {pc : ConnectPC} {r : Client × ConnectPC}
    (hi : s.goroutines[i]? = some (.connectWithRetry pc))
    (hmove : s.connectWithRetry pc choice = some r) :
    Sound { r.1 with goroutines := r.1.goroutines.set i (.connectWithRetry r.2) } := by
  have hstay := fun pc' => h.stay (.refl s) (.connectWithRetry pc') hi rfl rfl
  unfold Client.connectWithRetry at hmove
  split at hmove
  · -- `select`
    cases hmove
    split
    · exact h.stop _ hi rfl rfl rfl rfl rfl rfl
    · exact hstay _ rfl (fun _ => id)
  · cases hmove
    exact hstay _ rfl (fun _ => id)
  · cases hmove
    exact h.dial hi
  · cases hmove
    exact hstay _ rfl (fun _ => id)
  · cases hmove
    exact h.assign hi
  · next k =>
    rcases deref_eq hmove with ⟨-, rfl⟩ | ⟨j, -, hstart⟩
    · exact h.stay (t := { s with panicked := true }) ⟨rfl, rfl, rfl, rfl⟩ _ hi rfl rfl rfl
        (fun _ => id)
    · cases hstart
      have hspawn := h.spawn (g := .pingMonitor k .test) rfl rfl (fun pc hpc => (nomatch hpc))
      exact hspawn.stay (.refl _) _ (getElem?_append_of_some hi _) rfl rfl rfl
        (fun _ => id)
  · cases hmove
    exact h.startPump hi
  · cases hmove
    exact hstay _ rfl (fun _ => id)
  · cases hmove

/-- The read pump closes its connection. -/
theorem Sound.pumpClose {k j : Nat} (hi : s.goroutines[i]? = some (.readPump k .closeConn))
    (hj : s.conn = some j) :
    Sound { s.closeConn j with goroutines := s.goroutines.set i (.readPump k .shutdown) } := by
  obtain ⟨chain, howned, hclosing⟩ := h
  have hchain : chain = some (.current k) := howned.chain_eq (mem_of_getElem? hi) rfl
  subst hchain
  have hfield : s.conn = some k := howned.field _ rfl
  obtain rfl : j = k := some.inj (hj.symm.trans hfield)
  have hafter := howned.closeConn j
  refine ⟨some (.ended j), ⟨?_, ?_, ?_, hafter.fresh, hafter.restarts⟩, ?_⟩
  · exact howned.phases_set hi rfl
  · intro p hp
    cases hp
    exact hfield
  · intro j' hj'
    obtain ⟨hopen, hne⟩ := isOpen_closeConn hj'
    exact absurd (some.inj (howned.owned j' hopen)).symm hne
  · refine hclosing.other [] hi rfl rfl (forall_mem_nil _) (append_nil _).symm rfl
      (fun _ hread => (nomatch hread)) ?_ ?_
    · intro _ j' hj'
      exact (isOpen_closeConn hj').1
    · intro _ _ p hp
      cases hp
      rfl

/-- It takes the connection out of the field. -/
theorem Sound.pumpClear (hi : s.goroutines[i]? = some (.readPump k .clear)) :
    Sound { s with conn := none, goroutines := s.goroutines.set i (.readPump k .unlock) } := by
  obtain ⟨chain, howned, hclosing⟩ := h
  have hchain : chain = some (.ended k) := howned.chain_eq (mem_of_getElem? hi) rfl
  subst hchain
  refine ⟨some (.released k), ⟨?_, ?_, howned.owned, howned.fresh, howned.restarts⟩, ?_⟩
  · exact howned.phases_set hi rfl
  · intro p hp
    cases hp
    rfl
  · refine hclosing.other [] hi rfl rfl (forall_mem_nil _) (append_nil _).symm rfl
      (fun _ hread => (nomatch hread)) (fun _ j hj => hj) ?_
    intro _ _ p hp
    cases hp
    rfl

/-- It starts the next connect loop, unless `done` is closed. -/
theorem Sound.pumpRestart (hdone : s.done = false)
    (hi : s.goroutines[i]? = some (.readPump k .restart)) :
    Sound { s.countRestart k with
      goroutines := (s.goroutines ++ [Goroutine.connectWithRetry .select]).set i
        (.readPump k .returned) } := by
  obtain ⟨chain, howned, hclosing⟩ := h
  have hchain : chain = some (.released k) := howned.chain_eq (mem_of_getElem? hi) rfl
  subst hchain
  have hclosed : ∀ j, (s.countRestart k).isOpen j = true → s.isOpen j = true := by
    intro j hj
    refine isOpen_modify ?_ hj
    exact fun c hc => hc
  rw [set_append_of_some hi]
  refine ⟨some .connecting, ⟨?_, ?_, ?_, fun k hk => (nomatch hk), ?_⟩, ?_⟩
  · rw [filterMap_append, howned.phases_set hi rfl]
    rfl
  · intro p hp
    cases hp
    have hfield := howned.field _ rfl
    exact hfield
  · intro j hj
    exact howned.owned j (hclosed j hj)
  · refine restarts_modify howned.restarts fun c hc => ?_
    obtain ⟨c', hc', hzero⟩ := howned.fresh k rfl
    obtain rfl := some.inj (hc.symm.trans hc')
    show c.restarts + 1 ≤ 1
    omega
  · refine hclosing.other [_] hi rfl rfl ?_ rfl rfl (fun _ hread => (nomatch hread)) ?_ ?_
    · intro x hx
      rw [mem_singleton.mp hx]
      exact ⟨rfl, rfl⟩
    · intro _ j hj
      exact hclosed j hj
    · intro htrue
      rw [hdone] at htrue
      cases htrue

/-- The next step of a read pump. -/
theorem Sound.readPump {pc : PumpPC} {r : Client × PumpPC}
    (hi : s.goroutines[i]? = some (.readPump k pc)) (hmove : s.readPump k pc choice = some r) :
    Sound { r.1 with goroutines := r.1.goroutines.set i (.readPump k r.2) } := by
  -- While the pump is before `clear` its connection is in the field.
  have hsome : ∀ p, pc.phase k = some p → p.field = some k → s.conn.isSome = true := by
    intro p hp hpf
    obtain ⟨chain, howned, -⟩ := h
    rw [howned.field p (howned.chain_eq (mem_of_getElem? hi) hp), hpf]
    rfl
  -- Most steps only change the place, or end in a panic.
  have hstay := fun pc' => h.stay (.refl s) (.readPump k pc') hi rfl rfl
  have hpanic := h.stay (t := { s with panicked := true }) ⟨rfl, rfl, rfl, rfl⟩ (.readPump k pc) hi
    rfl rfl rfl (fun _ => id)
  unfold Client.readPump at hmove
  split at hmove
  · -- `select`
    cases hmove
    split
    · exact hstay _ rfl (fun _ hread => (nomatch hread))
    · next hdone => exact hstay _ rfl (fun htrue => absurd htrue hdone)
  · -- `read`
    rcases deref_eq hmove with ⟨-, rfl⟩ | ⟨j, -, hblock⟩
    · exact hpanic
    · cases hblock
      exact hstay _ rfl (fun _ _ => rfl)
  · cases hmove
    exact hstay _ rfl (fun _ _ => rfl)
  · cases hmove
    exact hstay _ rfl (fun _ _ => rfl)
  · -- `received`
    rcases deref_eq hmove with ⟨-, rfl⟩ | ⟨j, -, hhandle⟩
    · exact hpanic
    · split at hhandle
      · cases hhandle
        exact h.stay (t := { s with processingMessage := true }) ⟨rfl, rfl, rfl, rfl⟩ _ hi rfl rfl
          rfl (fun _ => id)
      · cases hhandle
        exact hstay _ rfl (fun _ => id)
  · cases hmove
    exact h.stay (t := { s with processingMessage := false }) ⟨rfl, rfl, rfl, rfl⟩ _ hi rfl rfl
      rfl (fun _ => id)
  · -- `signal`
    split at hmove
    · cases hmove
      exact hpanic
    · cases hmove
      exact (h.signal k).stay (.refl _) _ hi rfl rfl rfl (fun _ => id)
  · -- `test`
    cases hmove
    rw [if_pos (hsome _ rfl rfl)]
    exact hstay _ rfl (fun _ => id)
  · -- `closeConn`
    rcases deref_eq hmove with ⟨-, rfl⟩ | ⟨j, hj, hclose⟩
    · exact hpanic
    · cases hclose
      exact h.pumpClose hi hj
  · -- `shutdown`
    cases hmove
    split
    · exact h.stop _ hi rfl rfl rfl rfl rfl rfl
    · exact hstay _ rfl (fun _ => id)
  · -- `lock`
    rw [lock_eq hmove]
    exact h.stay (t := { s with writeMux := true }) ⟨rfl, rfl, rfl, rfl⟩ _ hi rfl rfl rfl
      (fun _ => id)
  · -- `retest`
    cases hmove
    rw [if_pos (hsome _ rfl rfl)]
    exact hstay _ rfl (fun _ => id)
  · -- `closeAgain`
    rcases deref_eq hmove with ⟨-, rfl⟩ | ⟨j, hj, hclose⟩
    · exact hpanic
    · cases hclose
      exact (h.closeConn j).stay (.refl _) _ hi rfl rfl rfl (fun _ => id)
  · cases hmove
    exact h.pumpClear hi
  · cases hmove
    exact h.stay (t := s.unlock) ⟨rfl, rfl, rfl, rfl⟩ _ hi rfl rfl rfl (fun _ => id)
  · -- `restart`
    split at hmove
    · cases hmove
      exact h.stop _ hi rfl rfl rfl rfl rfl rfl
    · next hdone =>
      cases hmove
      exact h.pumpRestart (Bool.eq_false_iff.mpr hdone) hi
  · cases hmove

end

/-! ## Calls of `Close` -/

/-- A call of `Close` moves.  It may only stop to be pending if nothing is left to
close for the goroutine that reads. -/
theorem Closing.close (h : s.Closing chain) {pc pc' : ClosePC}
    (hi : s.goroutines[i]? = some (.close pc))
    (hgoroutines : t.goroutines = s.goroutines.set i (.close pc'))
    (hdone : s.done = true → t.done = true) (hbegun : pc'.begun = true → t.done = true)
    (hpast : pc'.pastTest = true → ∀ p ∈ chain, p.held = true)
    (hpending : t.done = true → (∃ g ∈ s.goroutines, g.reading = true) →
      ∀ j, t.isOpen j = true →
      pc'.pending = true ∨ (pc.pending = false ∧ s.done = true ∧ s.isOpen j = true)) :
    t.Closing chain := by
  have hmem : ∀ x, x ∈ t.goroutines → x ∈ s.goroutines ∨ x = .close pc' := by
    intro x hx
    rw [hgoroutines] at hx
    exact mem_or_eq_of_mem_set hx
  have hself : .close pc' ∈ t.goroutines := by
    rw [hgoroutines]
    exact List.mem_set (List.getElem?_eq_some_iff.mp hi).1 _
  refine ⟨?_, ?_, ?_⟩
  · intro q hq hqb
    rcases hmem _ hq with hq | heq
    · exact hdone (h.done q hq hqb)
    · cases heq
      exact hbegun hqb
  · intro htdone hreading hsome
    obtain ⟨x, hx, hxr⟩ := hreading
    have hx' : x ∈ s.goroutines := by
      rcases hmem x hx with hx | rfl
      · exact hx
      · cases hxr
    obtain ⟨j, hj⟩ := hsome
    rcases hpending htdone ⟨x, hx', hxr⟩ j hj with hpc' | ⟨hpc, hsdone, hsj⟩
    · exact ⟨pc', hself, hpc'⟩
    · obtain ⟨q, hq, hqp⟩ := h.pending hsdone ⟨x, hx', hxr⟩ ⟨j, hsj⟩
      refine ⟨q, ?_, hqp⟩
      rcases Tasks.mem_set_of_mem (b := .close pc') hi hq with heq | hq'
      · cases heq
        rw [hpc] at hqp
        cases hqp
      · rw [hgoroutines]
        exact hq'
  · intro q hq hqp
    rcases hmem _ hq with hq | heq
    · exact h.past q hq hqp
    · cases heq
      exact hpast hqp

/-- `Close` goes on and changes nothing the chain looks at.  It comes past its test only
with a connection in the field, and it returns early only without one. -/
theorem Sound.closeStay (h : s.Sound) (hst : s.Alike t) {pc : ClosePC} (pc' : ClosePC)
    (hi : s.goroutines[i]? = some (.close pc)) (hbegun : pc'.begun = true → s.done = true)
    (hpast : pc'.pastTest = true → pc.pastTest = true ∨ s.conn.isSome = true)
    (hpending : pc.pending = true → pc'.pending = true ∨ s.conn = none) :
    Sound { t with goroutines := t.goroutines.set i (.close pc') } := by
  obtain ⟨chain, howned, hclosing⟩ := h
  have hgoroutines : t.goroutines.set i (.close pc') = s.goroutines.set i (.close pc') := by
    rw [hst.goroutines]
  refine ⟨chain, howned.stay (.close pc') hi rfl hst.conn hst.conns hgoroutines, ?_⟩
  refine hclosing.close hi hgoroutines ?_ ?_ ?_ ?_
  · intro hdone
    exact hst.done.trans hdone
  · intro hpc'
    exact hst.done.trans (hbegun hpc')
  · intro hpc' p hp
    rcases hpast hpc' with hpc | hsome
    · exact hclosing.past pc (mem_of_getElem? hi) hpc p hp
    · rw [howned.field p hp] at hsome
      cases p with
      | connecting | opened k => cases hsome
      | current k | ended k | released k => rfl
  · intro hdone hread j hj
    have hdone' : s.done = true := hst.done.symm.trans hdone
    have hj' : s.isOpen j = true := by
      unfold isOpen at hj ⊢
      rw [← hst.conns]
      exact hj
    cases hpc : pc.pending with
    | false => exact .inr ⟨rfl, hdone', hj'⟩
    | true =>
      rcases hpending hpc with hpc' | hnone
      · exact .inl hpc'
      · obtain ⟨k, -, hk⟩ := howned.current_of_reading hread
        rw [hnone] at hk
        cases hk

/-- `Close` closes `done`. -/
theorem Sound.closeDone (h : s.Sound) (hi : s.goroutines[i]? = some (.close .closeDone)) :
    Sound { s with done := true, goroutines := s.goroutines.set i (.close .test) } := by
  obtain ⟨chain, howned, hclosing⟩ := h
  refine ⟨chain, howned.stay (.close .test) hi rfl rfl rfl rfl, ?_⟩
  exact hclosing.close hi rfl (fun _ => rfl) (fun _ => rfl) (nomatch ·)
    (fun _ _ _ _ => .inl rfl)

/-- `Close` closes the connection it finds in the field, which is the one that is read. -/
theorem Sound.closeField (h : s.Sound) (hi : s.goroutines[i]? = some (.close .closeConn))
    (hj : s.conn = some j) :
    Sound { s.closeConn j with goroutines := s.goroutines.set i (.close .returned) } := by
  obtain ⟨chain, howned, hclosing⟩ := h
  have hdone : s.done = true := hclosing.done .closeConn (mem_of_getElem? hi) rfl
  refine ⟨chain, (howned.closeConn j).stay (.close .returned) hi rfl rfl rfl rfl, ?_⟩
  refine hclosing.close hi rfl (fun htrue => htrue) (fun _ => hdone)
    (nomatch ·) ?_
  intro _ hread j' hj'
  obtain ⟨k, hchain, hk⟩ := howned.current_of_reading hread
  obtain ⟨hopen, hne⟩ := isOpen_closeConn hj'
  have howner := howned.owned j' hopen
  rw [hchain] at howner
  rw [hj] at hk
  exact absurd ((some.inj howner).symm.trans (some.inj hk).symm) hne

theorem Sound.close (h : s.Sound) {pc : ClosePC} {r : Client × ClosePC}
    (hi : s.goroutines[i]? = some (.close pc)) (hmove : s.close pc choice = some r) :
    Sound { r.1 with goroutines := r.1.goroutines.set i (.close r.2) } := by
  have hdone : pc.begun = true → s.done = true := by
    intro hbegun
    obtain ⟨chain, -, hclosing⟩ := h
    exact hclosing.done pc (mem_of_getElem? hi) hbegun
  have hpanic := h.closeStay (t := { s with panicked := true }) ⟨rfl, rfl, rfl, rfl⟩ pc hi hdone
    .inl .inl
  unfold Client.close at hmove
  split at hmove
  · -- `select`
    cases hmove
    split
    · next htrue => exact h.closeStay (.refl s) _ hi (fun _ => htrue) (nomatch ·) (nomatch ·)
    · exact h.closeStay (.refl s) _ hi (nomatch ·) (nomatch ·) (nomatch ·)
  · -- `closeDone`
    split at hmove
    · cases hmove
      exact hpanic
    · cases hmove
      exact h.closeDone hi
  · -- `test`
    cases hmove
    split
    · next hsome =>
      exact h.closeStay (.refl s) _ hi (fun _ => hdone rfl) (fun _ => .inr hsome)
        (fun _ => .inl rfl)
    · next hnone =>
      exact h.closeStay (.refl s) _ hi (fun _ => hdone rfl) (nomatch ·)
        (fun _ => .inr (not_isSome_iff_eq_none.mp hnone))
  · -- `lock`
    rw [lock_eq hmove]
    exact h.closeStay (t := { s with writeMux := true }) ⟨rfl, rfl, rfl, rfl⟩ _ hi
      (fun _ => hdone rfl) (fun _ => .inl rfl) (fun _ => .inl rfl)
  · -- `write`
    rcases deref_eq hmove with ⟨-, rfl⟩ | ⟨j, -, hwrite⟩
    · exact hpanic
    · obtain ⟨sent, rfl⟩ := write_eq hwrite
      exact h.closeStay (.refl s) _ hi (fun _ => hdone rfl) (fun _ => .inl rfl)
        (fun _ => .inl rfl)
  · -- `unlock`
    cases hmove
    exact h.closeStay (t := s.unlock) ⟨rfl, rfl, rfl, rfl⟩ _ hi (fun _ => hdone rfl)
      (fun _ => .inl rfl) (fun _ => .inl rfl)
  · -- `closeConn`
    rcases deref_eq hmove with ⟨-, rfl⟩ | ⟨j, hj, hclose⟩
    · exact hpanic
    · cases hclose
      exact h.closeField hi hj
  · cases hmove

/-! ## Runs -/

/-- A step is a call, which starts a goroutine, or the move of one goroutine. -/
theorem step_cases {e : Event} (h : s.step e = some t) :
    (∃ g, (e = .callClose ∧ g = .close .select ∨ e = .callSendMessage ∧ g = .sendMessage .test) ∧
      t = { s with goroutines := s.goroutines ++ [g] }) ∨
    ∃ i choice g s' g', e = .go i choice ∧ s.goroutines[i]? = some g ∧
      s.move choice g = some (s', g') ∧
      t = { s' with goroutines := s'.goroutines.set i g' } := by
  unfold step at h
  split at h
  · cases h
  · split at h
    · exact .inl ⟨_, .inl ⟨rfl, rfl⟩, (some.inj h).symm⟩
    · exact .inl ⟨_, .inr ⟨rfl, rfl⟩, (some.inj h).symm⟩
    · next i choice =>
      unfold go at h
      split at h
      · cases h
      · next g hi =>
        split at h
        · cases h
        · next s' g' hmove => exact .inr ⟨i, choice, g, s', g', rfl, hi, hmove, (some.inj h).symm⟩

/-- The move of a goroutine is a move of its function. -/
inductive Moved (s : Client) (choice : Choice) (s' : Client) : Goroutine → Goroutine → Prop
  | connectWithRetry {pc pc'} (hr : s.connectWithRetry pc choice = some (s', pc')) :
      Moved s choice s' (.connectWithRetry pc) (.connectWithRetry pc')
  | pingMonitor {k pc pc'} (hr : s.pingMonitor k pc choice = some (s', pc')) :
      Moved s choice s' (.pingMonitor k pc) (.pingMonitor k pc')
  | readPump {k pc pc'} (hr : s.readPump k pc choice = some (s', pc')) :
      Moved s choice s' (.readPump k pc) (.readPump k pc')
  | close {pc pc'} (hr : s.close pc choice = some (s', pc')) :
      Moved s choice s' (.close pc) (.close pc')
  | sendMessage {pc pc'} (hr : s.sendMessage pc choice = some (s', pc')) :
      Moved s choice s' (.sendMessage pc) (.sendMessage pc')

section

variable (h : s.move choice g = some (s', g'))
include h

theorem moved : Moved s choice s' g g' := by
  cases g <;> obtain ⟨r, hr, ⟨⟩⟩ := map_eq_some_iff.mp h
  · exact .connectWithRetry hr
  · exact .pingMonitor hr
  · exact .readPump hr
  · exact .close hr
  · exact .sendMessage hr

/-- A move starts at most one goroutine. -/
theorem goroutines_of_move :
    s'.goroutines = s.goroutines ∨
      ∃ x, x.started = true ∧ s'.goroutines = s.goroutines ++ [x] := by
  rcases moved h with hr | hr | hr | hr | hr
  · unfold connectWithRetry at hr
    split at hr <;> grind [deref, started]
  · unfold pingMonitor at hr
    split at hr <;> grind [deref, lock, unlock, closeConn, write_eq]
  · unfold readPump at hr
    split at hr <;>
      grind [deref, lock, unlock, closeConn, signal, countRestart, started]
  · unfold close at hr
    split at hr <;> grind [deref, lock, unlock, closeConn, write_eq]
  · unfold sendMessage at hr
    split at hr <;> grind [deref, lock, unlock, write_eq]

theorem getElem?_move_of_some (hi : s.goroutines[i]? = some g) : s'.goroutines[i]? = some g := by
  rcases goroutines_of_move h with hsame | ⟨x, -, hnew⟩
  · rw [hsame]
    exact hi
  · rw [hnew]
    exact getElem?_append_of_some hi x

/-- The goroutines after a move: the one that has moved, the others, and a new one. -/
theorem getElem?_of_move {n : Nat} {x : Goroutine} (hx : (s'.goroutines.set i g')[n]? = some x) :
    n = i ∧ x = g' ∨ n ≠ i ∧ s.goroutines[n]? = some x ∨ n ≠ i ∧ x.started = true := by
  rw [getElem?_set] at hx
  split at hx
  · next hin =>
    split at hx
    · exact .inl ⟨hin.symm, (some.inj hx).symm⟩
    · cases hx
  · next hne =>
    rcases goroutines_of_move h with hsame | ⟨y, hy, hnew⟩
    · rw [hsame] at hx
      exact .inr (.inl ⟨Ne.symm hne, hx⟩)
    · rw [hnew, getElem?_append] at hx
      split at hx
      · exact .inr (.inl ⟨Ne.symm hne, hx⟩)
      · rw [mem_singleton.mp (mem_of_getElem? hx)]
        exact .inr (.inr ⟨Ne.symm hne, hy⟩)

theorem mem_of_move {x : Goroutine} (hx : x ∈ s'.goroutines.set i g') :
    x = g' ∨ x ∈ s.goroutines ∨ x.started = true := by
  obtain ⟨n, hn⟩ := mem_iff_getElem?.mp hx
  rcases getElem?_of_move h hn with ⟨-, heq⟩ | ⟨-, hold⟩ | ⟨-, hnew⟩
  · exact .inl heq
  · exact .inr (.inl (mem_of_getElem? hold))
  · exact .inr (.inr hnew)

end

theorem Sound.move (h : s.Sound) (hi : s.goroutines[i]? = some g)
    (hmove : s.move choice g = some (s', g')) :
    Sound { s' with goroutines := s'.goroutines.set i g' } := by
  rcases moved hmove with hr | hr | hr | hr | hr
  · exact h.connectWithRetry hi hr
  · exact h.pingMonitor hi hr
  · exact h.readPump hi hr
  · exact h.close hi hr
  · exact h.sendMessage hi hr

theorem Sound.step (h : s.Sound) {e : Event} (hstep : s.step e = some t) : t.Sound := by
  rcases step_cases hstep with ⟨g, hg, rfl⟩ | ⟨i, choice, g, s', g', -, hi, hmove, rfl⟩
  · rcases hg with ⟨-, rfl⟩ | ⟨-, rfl⟩
    · refine h.spawn rfl rfl ?_
      intro pc hpc
      cases hpc
      rfl
    · exact h.spawn rfl rfl (fun pc hpc => (nomatch hpc))
  · exact h.move hi hmove

theorem Sound.init : init.Sound := by
  refine ⟨some .connecting, ⟨rfl, ?_, ?_, ?_, ?_⟩, ⟨?_, ?_, ?_⟩⟩
  · intro p hp
    cases hp
    rfl
  · intro j hj
    cases hj
  · intro k hk
    cases hk
  · intro c hc
    cases hc
  · intro pc hpc
    rcases mem_singleton.mp hpc
  · intro hdone
    cases hdone
  · intro pc hpc
    rcases mem_singleton.mp hpc

/-- A goroutine in the read loop is a link of the chain. -/
theorem isSome_phase_of_inReadLoop (h : g.inReadLoop = true) : g.phase.isSome = true := by
  unfold inReadLoop at h
  split at h <;> first | rfl | cases h

/-- The link of the chain that may have a connection open rests only where it reads. -/
theorem reading_of_atRest (hp : g.phase = some p) (howned : p.owned = some j)
    (hrest : s.atRest g = true) : g.reading = true := by
  cases g with
  | connectWithRetry pc => cases pc <;> cases hp <;> cases howned <;> cases hrest
  | readPump k pc => cases pc <;> cases hp <;> cases howned <;> first | rfl | cases hrest
  | pingMonitor k pc | close pc | sendMessage pc => cases hp

theorem Sound.singleConnection (h : s.Sound) : s.SingleConnection := by
  obtain ⟨chain, howned, hclosing⟩ := h
  refine ⟨?_, ?_, howned.restarts, ?_⟩
  · intro i j hi hj
    exact some.inj ((howned.owned i hi).symm.trans (howned.owned j hj))
  · calc s.goroutines.countP inReadLoop
        ≤ s.goroutines.countP (fun g => g.phase.isSome) :=
          countP_mono_left (fun g _ => isSome_phase_of_inReadLoop)
      _ = (s.goroutines.filterMap phase).length :=
          length_filterMap_eq_countP.symm
      _ = chain.toList.length := by rw [howned.phases]
      _ ≤ 1 := by cases chain <;> simp
  · intro hsettled j
    cases hj : s.isOpen j with
    | false => rfl
    | true =>
      obtain ⟨p, hp, hpj⟩ := bind_eq_some_iff.mp (howned.owned j hj)
      rcases hsettled with ⟨⟨pc, hpc⟩, hrest⟩ | ⟨⟨pc, hpc, huses⟩, hnone⟩
      · -- At rest only a read pump could have it open, and then `Close` is pending.
        have hreturned : ∀ q, .close q ∈ s.goroutines → q = .returned := fun q hq =>
          eq_of_beq (hrest _ hq)
        have hdone : s.done = true := hclosing.done pc hpc (by rw [hreturned pc hpc]; rfl)
        obtain ⟨g, hg, hgp⟩ := howned.exists_link hp
        have hread := reading_of_atRest hgp hpj (hrest g hg)
        obtain ⟨q, hq, hqp⟩ := hclosing.pending hdone ⟨g, hg, hread⟩ ⟨j, hj⟩
        rw [hreturned q hq] at hqp
        cases hqp
      · -- A connection that was in the field and is not there any more is closed.
        have hpast : pc.pastTest = true := by cases pc <;> first | rfl | cases huses
        have hheld := hclosing.past pc hpc hpast p hp
        have hfield := howned.field p hp
        rw [hnone] at hfield
        cases p with
        | connecting | opened k => cases hheld
        | current k | ended k => cases hfield
        | released k => cases hpj

/-- **One connection at a time**: in every interleaving of the goroutines of a client,
with dials, reads and writes that fail at any time and calls of `Close` and `SendMessage`
at any time, at most one connection is open, at most one goroutine is in the read loop,
the end of a connection starts at most one connect loop, and once `Close` was called and
the goroutines have come to rest no connection is open. -/
theorem single_connection (events : List Event) (s : Client)
    (hrun : Runs.run step init events = some s) : s.SingleConnection :=
  Sound.singleConnection (Runs.run_always (fun h hstep => Sound.step h hstep) Sound.init hrun)

/-- The goroutine `i` moves some steps without a failure. -/
def steps (i n : Nat) : List Event :=
  replicate n (.go i .next)

/-- The first connection fails, and so does the next dial.  `Close` is called while the
dial is tried again, and the dialer returns a connection after `Close` has returned. -/
def closeDuringDial : List Event :=
  steps 0 6 ++ steps 2 2 ++ [.go 2 .fail] ++ steps 2 10 ++ steps 1 2 ++
    steps 3 1 ++ [.go 3 .fail] ++ steps 3 2 ++ [.callClose] ++ steps 4 3 ++
    steps 3 5 ++ steps 6 5 ++ steps 5 4 ++ [.go 5 .fail] ++ steps 5 3

/-- Every goroutine has returned. -/
def closedClient : Client where
  conn := some 1
  done := true
  conns := [⟨true, true, 1⟩, ⟨true, true, 0⟩]
  goroutines := [.connectWithRetry .returned, .pingMonitor 0 .returned, .readPump 0 .returned,
    .connectWithRetry .returned, .close .returned, .pingMonitor 1 .returned,
    .readPump 1 .returned]

/-- The connection that was opened last is closed, too. -/
theorem closeDuringDial_single :
    Runs.run step init closeDuringDial = some closedClient ∧
      closedClient.Settled ∧ closedClient.SingleConnection := by
  have hrun : Runs.run step init closeDuringDial = some closedClient := by decide +kernel
  refine ⟨hrun, .inl ⟨⟨.returned, by decide⟩, by decide⟩, ?_⟩
  exact single_connection closeDuringDial closedClient hrun

end Client

end Newt.Websocket
